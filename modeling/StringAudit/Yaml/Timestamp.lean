/-!
# Points in time

A point in time is a date, or a date and a time of day with an optional fraction of a second and an
optional offset from universal time.  The form says nothing about the ranges of the parts: a form with a
thirteenth month, say, is impossible.
-/

namespace StringAudit.Yaml

/-- The parts of a written point in time. -/
structure Timestamp where
  year : Nat
  month : Nat
  day : Nat
  /-- Whether month and day have two digits. -/
  padded : Bool
  /-- Hour, minute and second. -/
  time : Option (Nat × Nat × Nat)
  /-- The offset from universal time in minutes. -/
  offset : Option Nat
  deriving DecidableEq, Repr

namespace Timestamp

/-- The number written by digits. -/
def number (digits : List Char) : Nat :=
  digits.foldl (fun n d => n * 10 + (d.toNat - '0'.toNat)) 0

/-- At least and at most so many digits: the digits that start here and what follows them. -/
def digits? (least most : Nat) (s : List Char) : Option (List Char × List Char) :=
  let run := (s.take most).takeWhile Char.isDigit
  if run.length < least then none else some (run, s.drop run.length)

/-- What follows a character. -/
def behind? (c : Char) : List Char → Option (List Char)
  | d :: rest => if d = c then some rest else none
  | [] => none

/-- Two digits behind a colon. -/
def sexagesimal? (s : List Char) : Option (Nat × List Char) := do
  let (ds, rest) ← digits? 2 2 (← behind? ':' s)
  pure (number ds, rest)

/-- An offset from universal time up to the end. -/
def offset? (s : List Char) : Option (Option Nat) :=
  match s, s.dropWhile fun c => c = ' ' || c = '\t' with
  | [], _ => some none
  | _, ['Z'] => some (some 0)
  | _, sign :: rest =>
      if sign = '+' ∨ sign = '-' then do
        let (hour, rest) ← digits? 1 2 rest
        if rest = [] then pure (some (number hour * 60))
        else
          let (minute, rest) ← sexagesimal? rest
          if rest = [] then pure (some (number hour * 60 + minute)) else none
      else none
  | _, [] => none

/-- A time of day and an offset up to the end. -/
def time? (s : List Char) : Option ((Nat × Nat × Nat) × Option Nat) := do
  let s ←
    match s with
    | 'T' :: rest => some rest
    | 't' :: rest => some rest
    | c :: rest => if c = ' ' ∨ c = '\t' then some (rest.dropWhile fun c => c = ' ' || c = '\t') else none
    | [] => none
  let (hour, s) ← digits? 1 2 s
  let (minute, s) ← sexagesimal? s
  let (second, s) ← sexagesimal? s
  let s :=
    match s with
    | '.' :: rest => rest.dropWhile Char.isDigit
    | s => s
  pure ((number hour, minute, second), ← offset? s)

/-- The parts of a point in time. -/
def read? (s : List Char) : Option Timestamp := do
  let (year, s) ← digits? 4 4 s
  let (month, s) ← digits? 1 2 (← behind? '-' s)
  let (day, s) ← digits? 1 2 (← behind? '-' s)
  let padded := month.length = 2 && day.length = 2
  let date : Timestamp := ⟨number year, number month, number day, padded, none, none⟩
  if s = [] then pure date
  else
    let (time, offset) ← time? s
    pure { date with time, offset }

/-- The number of days of a month. -/
def daysIn (year month : Nat) : Nat :=
  if month = 2 then
    if year % 4 = 0 ∧ (year % 100 ≠ 0 ∨ year % 400 = 0) then 29 else 28
  else if month = 4 ∨ month = 6 ∨ month = 9 ∨ month = 11 then 30
  else 31

/-- Whether there is such a point in time. -/
def isPossible (t : Timestamp) : Bool :=
  1 ≤ t.year && 1 ≤ t.month && t.month ≤ 12 && 1 ≤ t.day && t.day ≤ daysIn t.year t.month &&
    t.time.all (fun (h, m, s) => h < 24 && m < 60 && s < 60) && t.offset.all (· < 24 * 60)

end Timestamp

end StringAudit.Yaml
