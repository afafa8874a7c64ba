import Wireframe.Finding
import Wireframe.Metadata
import Wireframe.Text.Blank

/-!
# The metadata block

A page has its metadata in one block at the top. The metadata lines before the first content line
count as one block, however many they are; each metadata line after that counts as one more.
-/

namespace Wireframe.Check

/-- The openings of a line of the metadata block, as they are written at the start of a raw line. -/
def blockOpenings : List String :=
  ["Title:", "URL:", "Page language:", "Page Purpose:", "Page purpose:", "Referrer:", "Regions:",
    "Interactive Elements:"]

/-- Whether a raw line starts like a line of the metadata block. -/
def isMetadataLine (line : List Char) : Bool :=
  blockOpenings.any fun opening => opening.toList.isPrefixOf line

/-- What has been seen of the metadata of a page. -/
structure BlockCount where
  /-- The number of blocks so far. -/
  blocks : Nat
  /-- Whether a content line has been seen. -/
  contentSeen : Bool
  /-- The lines of the metadata after the first content line. -/
  stray : List Nat
  deriving DecidableEq, Repr

namespace BlockCount

/-- Before the first line. -/
def start : BlockCount := ⟨0, false, []⟩

/-- Takes in one line with its number. -/
def add (count : BlockCount) (line : List Char) (number : Nat) : BlockCount :=
  if isMetadataLine line then
    if count.contentSeen then
      { count with blocks := count.blocks + 1, stray := count.stray ++ [number] }
    else { count with blocks := 1 }
  else if Text.allBlank line then count
  else { count with contentSeen := true }

/-- Takes in all lines of a list, the first of which has the given number. -/
def addAll (count : BlockCount) : List (List Char) → Nat → BlockCount
  | [], _ => count
  | line :: rest, number => (count.add line number).addAll rest (number + 1)

end BlockCount

/-- The metadata blocks among the lines of a page. -/
def countBlocks (lines : List (List Char)) : BlockCount := BlockCount.start.addAll lines 1

/-- Reports metadata in more than one block, with the lines of those after the first content
line. -/
def singleMetadataBlock (lines : List (List Char)) : List Diagnostic :=
  let count := countBlocks lines
  if 1 < count.blocks then [⟨.multipleMetadataBlocks count.blocks, count.stray⟩] else []

end Wireframe.Check
