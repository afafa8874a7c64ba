import Wireframe.Text.Blank

/-!
# Page metadata

The entries at the top of a page, such as `Title: Sign in`. There are eight keys; a page holds at
most one value for each, and the first value given for a key stays (`get?_insert`).
-/

namespace Wireframe

namespace Metadata

/-- What an entry is about. `purpose` is the short way to write `pagePurpose`. -/
inductive Key
  | title
  | url
  | pageLanguage
  | pagePurpose
  | purpose
  | referrer
  | regions
  | interactiveElements
  deriving DecidableEq, Repr

namespace Key

/-- The keys in the order in which entries are listed. -/
def all : List Key :=
  [title, url, pageLanguage, pagePurpose, purpose, referrer, regions, interactiveElements]

/-- The name of a key, as it is written in front of the colon. -/
def label : Key → String
  | title => "Title"
  | url => "URL"
  | pageLanguage => "Page language"
  | pagePurpose => "Page Purpose"
  | purpose => "Purpose"
  | referrer => "Referrer"
  | regions => "Regions"
  | interactiveElements => "Interactive Elements"

/-- Whether the key belongs to the metadata block that a page may have only once. The short form
`Purpose` does not: it is read, but a line that starts with it counts as content. -/
def inBlock : Key → Bool
  | purpose => false
  | _ => true

/-- The openings of a metadata line, in the order in which they are tried. -/
def openings : List (String × Key) :=
  [("Title:", title), ("URL:", url), ("Page language:", pageLanguage),
    ("Page Purpose:", pagePurpose), ("Page purpose:", pagePurpose), ("Purpose:", purpose),
    ("Referrer:", referrer), ("Regions:", regions), ("Interactive Elements:", interactiveElements)]

end Key

/-- What is left of a line after an opening. -/
def afterOpening? (opening : List Char) (line : List Char) : Option (List Char) :=
  if opening.isPrefixOf line then some (line.drop opening.length) else none

/-- The key and the trimmed value of a line that starts with one of the openings. -/
def entry? (line : List Char) : Option (Key × List Char) :=
  Key.openings.findSome? fun opening =>
    (afterOpening? opening.1.toList line).map fun value => (opening.2, Text.trim value)

/-- What comes behind an opening is the rest of a line that begins with it. -/
theorem afterOpening?_eq_some_iff {opening line value : List Char} :
    afterOpening? opening line = some value ↔ line = opening ++ value := by
  unfold afterOpening?
  split
  · next h =>
    obtain ⟨rest, rfl⟩ := List.isPrefixOf_iff_prefix.1 h
    simp
  · next h =>
    constructor
    · simp
    · rintro rfl
      exact absurd (List.isPrefixOf_iff_prefix.2 (List.prefix_append opening value)) h

end Metadata

/-- The metadata of a page: for each key its value, if it has one. -/
@[ext]
structure Metadata where
  /-- The value recorded for a key. -/
  get? : Metadata.Key → Option String

namespace Metadata

/-- The metadata of a page without entries. -/
def empty : Metadata := ⟨fun _ => none⟩

/-- Records a value unless the key has one already, and says whether it was recorded. -/
def insert (metadata : Metadata) (key : Key) (value : String) : Metadata × Bool :=
  match metadata.get? key with
  | some _ => (metadata, false)
  | none => (⟨fun other => if other = key then some value else metadata.get? other⟩, true)

/-- The entries in key order. -/
def entries (metadata : Metadata) : List (Key × String) :=
  Key.all.filterMap fun key => (metadata.get? key).map (key, ·)

/-- The number of keys with a value. -/
def size (metadata : Metadata) : Nat := metadata.entries.length

/-- Whether no key has a value. -/
def isEmpty (metadata : Metadata) : Bool := metadata.entries.isEmpty

/-- A value, unless it is the empty text. -/
def nonempty? (value : Option String) : Option String := value.filter (!·.isEmpty)

/-- The page's title, if it is not empty. -/
def title? (metadata : Metadata) : Option String := nonempty? (metadata.get? .title)

/-- The page's address. -/
def url? (metadata : Metadata) : Option String := metadata.get? .url

/-- The page's purpose, if it is not empty. The short key counts only where the long one has no
entry at all. -/
def purpose? (metadata : Metadata) : Option String :=
  nonempty? ((metadata.get? .pagePurpose).or (metadata.get? .purpose))

/-! ### First value wins -/

@[simp]
theorem get?_empty (key : Key) : empty.get? key = none := rfl

/-- After recording a value, a key keeps the value it had, and the recorded key has one. -/
theorem get?_insert (metadata : Metadata) (key other : Key) (value : String) :
    (metadata.insert key value).1.get? other =
      (metadata.get? other).or (if other = key then some value else none) := by
  unfold insert
  split
  · next h =>
    by_cases hk : other = key
    · subst hk; simp [h]
    · simp [hk]
  · next h =>
    by_cases hk : other = key
    · subst hk; simp [h]
    · simp [hk]

/-- A value is taken if its key had none. -/
theorem insert_snd (metadata : Metadata) (key : Key) (value : String) :
    (metadata.insert key value).2 = (metadata.get? key).isNone := by
  unfold insert
  split <;> simp_all

end Metadata

end Wireframe
