import Wireframe.Text.Blank
import Wireframe.Text.Lines
import Wireframe.Text.Slug

/-!
# Names for pages

The names that a page gets from its text: its title, the file it should be saved as, and the
identifier under which it is stored. A page without a title that can be used is named after the day.
-/

namespace Wireframe.Naming

/-! ### Titles -/

/-- How a line with a title begins. -/
def titleOpening : List Char := "Title:".toList

/-- What follows the first title opening at the start of a line. `atStart` says that the list begins
at the start of a line. -/
def afterTitle? (atStart : Bool) : List Char → Option (List Char)
  | [] => none
  | c :: cs =>
    if atStart && titleOpening.isPrefixOf (c :: cs) then
      some ((c :: cs).drop titleOpening.length)
    else afterTitle? (c == '\n') cs

/-- The title of a text: the rest of the line on which the first character after the first title
opening stands that is not blank. -/
def titleChars? (text : List Char) : Option (List Char) :=
  match (afterTitle? true text).map Text.trimStart with
  | none => none
  | some [] => none
  | some title => some (Text.trim (title.takeWhile (· != '\n')))

/-- The title of a page for the purpose of naming it, trimmed and not empty. -/
def title? (text : String) : Option String := (titleChars? text.toList).map String.ofList

/-- A name as a slug. -/
def slug (name : String) : String := String.ofList (Text.slug name.toList)

/-! ### Days -/

/-- A day of the calendar. -/
structure Day where
  year : Int
  month : Nat
  day : Nat
  deriving DecidableEq, Repr

/-- A number with zeros in front up to a width. -/
def padded (width n : Nat) : String :=
  let ds := toString n
  "".pushn '0' (width - ds.length) ++ ds

/-- Four digits for a year, and a sign if it is negative or needs more of them. -/
def Day.yearText (day : Day) : String :=
  let digits := padded 4 day.year.natAbs
  if day.year < 0 then "-" ++ digits
  else if 9999 < day.year then "+" ++ digits
  else digits

/-- A day as year, month and day with hyphens between them. -/
def Day.text (day : Day) : String :=
  day.yearText ++ "-" ++ padded 2 day.month ++ "-" ++ padded 2 day.day

/-! ### Files and identifiers -/

/-- The slug of a page's title without hyphens at its ends, if anything is left of it. -/
def fileSlug? (text : String) : Option String :=
  match title? text with
  | none => none
  | some title =>
    match Text.trimHyphens (Text.slug title.toList) with
    | [] => none
    | name => some (String.ofList name)

/-- The name of the file that a page should be saved as. -/
def fileName (text : String) (today : Day) : String :=
  match fileSlug? text with
  | some name => name ++ ".txt"
  | none => "wireframe-" ++ today.text ++ ".txt"

/-- A page ready to be handed to whoever writes files. -/
structure Download where
  fileName : String
  content : String
  mimeType : String
  deriving DecidableEq, Repr

/-- The file for a page. -/
def download (text : String) (today : Day) : Download := ⟨fileName text today, text, "text/plain"⟩

/-- The identifier for a page that comes from a file with the given stem. -/
def importId (text stem : String) : String :=
  "loaded-" ++ slug ((title? text).getD (String.ofList (Text.trim stem.toList)))

end Wireframe.Naming
