import Wireframe.Decimal.Numeral

/-!
# Dates and times in TOML

Which runs of characters are a date, a time, or both. A date and a time are joined by `T` or a blank
and may have an offset from universal time. Every part must be in its range.
-/

namespace Wireframe.Toml

/-- The value of a run of exactly so many digits at the head of a list. -/
def fixed? (count : Nat) (cs : List Char) : Option (Nat × List Char) :=
  let ds := cs.take count
  if ds.length = count && ds.all Char.isDigit then
    some (Numeral.valueOfDigits ds, cs.drop count)
  else none

/-- What follows a given character at the head of a list. -/
def afterChar? (c : Char) : List Char → Option (List Char)
  | d :: cs => if c = d then some cs else none
  | [] => none

/-- Whether a year has a 29th of February. -/
def isLeapYear (year : Nat) : Bool := year % 4 == 0 && (year % 100 != 0 || year % 400 == 0)

/-- The number of days of a month. -/
def daysOfMonth (year month : Nat) : Nat :=
  if month = 2 then (if isLeapYear year then 29 else 28)
  else if month = 4 || month = 6 || month = 9 || month = 11 then 30
  else 31

/-- What follows a date at the head of a list. -/
def afterDate? (cs : List Char) : Option (List Char) := do
  let (year, cs) ← fixed? 4 cs
  let cs ← afterChar? '-' cs
  let (month, cs) ← fixed? 2 cs
  let cs ← afterChar? '-' cs
  let (day, cs) ← fixed? 2 cs
  if 1 ≤ month && month ≤ 12 && 1 ≤ day && day ≤ daysOfMonth year month then some cs else none

/-- What follows an hour and a minute at the head of a list. -/
def afterHourMinute? (cs : List Char) : Option (List Char) := do
  let (hour, cs) ← fixed? 2 cs
  let cs ← afterChar? ':' cs
  let (minute, cs) ← fixed? 2 cs
  if hour ≤ 23 && minute ≤ 59 then some cs else none

/-- What follows the fraction of a second, if there is one. -/
def afterFraction? : List Char → Option (List Char)
  | '.' :: cs =>
    match cs.span Char.isDigit with
    | ([], _) => none
    | (_, rest) => some rest
  | cs => some cs

/-- What follows a time at the head of a list. -/
def afterTime? (cs : List Char) : Option (List Char) := do
  let cs ← afterHourMinute? cs
  let cs ← afterChar? ':' cs
  let (second, cs) ← fixed? 2 cs
  if second ≤ 60 then afterFraction? cs else none

/-- What follows an offset from universal time, if there is one. -/
def afterOffset? : List Char → Option (List Char)
  | 'Z' :: cs => some cs
  | 'z' :: cs => some cs
  | '+' :: cs => afterHourMinute? cs
  | '-' :: cs => afterHourMinute? cs
  | cs => some cs

/-- Whether a whole list is a date, a time, or a date with a time. -/
def isMoment (cs : List Char) : Bool :=
  match afterDate? cs with
  | some [] => true
  | some (c :: rest) =>
    if c == 'T' || c == 't' || c == ' ' then
      match (afterTime? rest).bind afterOffset? with
      | some rest => rest.isEmpty
      | none => false
    else false
  | none =>
    match afterTime? cs with
    | some rest => rest.isEmpty
    | none => false

end Wireframe.Toml
