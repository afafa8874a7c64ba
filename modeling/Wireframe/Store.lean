import Wireframe.Disk

/-!
# Document stores

A store keeps the texts of pages by identifier. An identifier is fit for a key and for a file name
at once: ASCII letters, digits, hyphens and underscores, at least one of them. Nothing is stored or
loaded under any other text.
-/

namespace Wireframe

/-- Why a store did not do what it was asked to. -/
inductive StoreError
  /-- The text is no identifier. -/
  | invalidId (id : String)
  /-- Nothing is stored under the identifier. -/
  | notFound (id : String)
  /-- A step on the disk was not taken. -/
  | disk (path : Path) (fault : Fault)
  deriving DecidableEq, Repr

namespace StoreError

/-- The sentence for an error. -/
def message : StoreError → String
  | invalidId id =>
    "Invalid document id '" ++ id ++ "': use ASCII letters, digits, '-' or '_'"
  | notFound id => "Document not found: " ++ id
  | disk path fault => "IO error for " ++ path.text ++ ": " ++ fault.message

/-- The fault behind an error, if there is one. -/
def fault? : StoreError → Option Fault
  | disk _ fault => some fault
  | _ => none

end StoreError

namespace Store

/-- Whether a character may stand in an identifier. -/
def isIdChar (c : Char) : Bool := c.isAlphanum || c == '-' || c == '_'

/-- Whether a text is an identifier. -/
def isId (id : String) : Bool := !id.isEmpty && id.toList.all isIdChar

/-- Refuses a text that is no identifier. -/
def checkId (id : String) : Except StoreError Unit :=
  if isId id then .ok () else .error (.invalidId id)

/-- What a store may be asked to do. -/
inductive Request
  /-- To keep a text under an identifier, in place of what is there. -/
  | save (id content : String)
  /-- To give the text kept under an identifier. -/
  | load (id : String)
  /-- To give all identifiers, in increasing order. -/
  | list
  deriving DecidableEq, Repr

/-- What a store may answer. -/
inductive Reply
  | saved
  | content (text : String)
  | ids (all : List String)
  deriving DecidableEq, Repr

end Store

end Wireframe
