import Wireframe.Text.Lines

/-!
# Outcomes of commands

A command prints something and succeeds or fails. A failure is reported by a sentence and the chain
of causes behind it, each on lines of its own; several causes are numbered.
-/

namespace Wireframe

/-- Why a command failed. -/
structure Failure where
  /-- What could not be done. -/
  message : String
  /-- Why not, each cause behind the one before it. -/
  causes : List String
  deriving DecidableEq, Repr

namespace Failure

/-- How the lines of a cause after the first are set in. -/
def continued (indent : Nat) (cause : String) : String :=
  String.ofList
    (Text.joinWith '\n' (match Text.rows cause.toList with
      | [] => []
      | first :: rest => first :: rest.map (List.replicate indent ' ' ++ ·)))

/-- A cause that is the only one. -/
def onlyCause (cause : String) : String := "\n    " ++ continued 4 cause

/-- Causes with their numbers. -/
def numberedCauses (causes : List String) : List String :=
  (causes.zipIdx).map fun (cause, number) =>
    let digits := toString number
    "\n" ++ "".pushn ' ' (5 - digits.length) ++ digits ++ ": " ++ continued 7 cause

/-- The causes of a failure, if there are any. -/
def causesText : List String → String
  | [] => ""
  | [cause] => "\n\nCaused by:" ++ onlyCause cause
  | causes => "\n\nCaused by:" ++ String.join (numberedCauses causes)

/-- The report on a failure. -/
def report (failure : Failure) : String :=
  "Error: " ++ failure.message ++ causesText failure.causes ++ "\n"

end Failure

/-- What has come of a command. -/
structure Outcome where
  /-- What was printed. -/
  printed : String
  /-- Why it failed, if it did. -/
  failure? : Option Failure
  deriving DecidableEq, Repr

namespace Outcome

/-- Success. -/
def success (printed : String) : Outcome := ⟨printed, none⟩

/-- Failure without a cause, after nothing was printed. -/
def refusal (message : String) : Outcome := ⟨"", some ⟨message, []⟩⟩

/-- Failure with causes, after nothing was printed. -/
def failed (message : String) (causes : List String) : Outcome := ⟨"", some ⟨message, causes⟩⟩

/-- The number by which a system knows how a command went. -/
def exitCode (outcome : Outcome) : Nat := if outcome.failure?.isSome then 1 else 0

end Outcome

end Wireframe
