import MeshLens.Text.CharClass
import MeshLens.Yaml.Cursor

/-!
# Moments

A date, and perhaps a time of day and how far the clock is off.
-/

namespace MeshLens.Yaml

/-- A time of day. -/
structure ClockTime where
  hour : Nat
  minute : Nat
  second : Nat
  /-- By how many minutes the clock is off, if it says so. -/
  offset : Option Nat

/-- A date and perhaps a time. -/
structure Moment where
  year : Nat
  month : Nat
  day : Nat
  time : Option ClockTime

namespace Moment

/-- Reads a number of so many digits at least and at most. -/
def readDigits (least most : Nat) (s : Text) : Option (Nat × Text) :=
  let digits := (s.take most).takeWhile Text.isAsciiDigit
  if digits.length < least then none
  else some (digits.foldl (fun n c => 10 * n + (c.toNat - 48)) 0, s.drop digits.length)

/-- Reads a number after a mark. -/
def readAfter (mark : CodePoint) (least most : Nat) : Text → Option (Nat × Text)
  | [] => none
  | c :: s => if c = mark then readDigits least most s else none

/-- Reads how far a clock is off, up to the end. -/
def readOffset (s : Text) : Option (Option Nat) :=
  match s, s.dropWhile isSpace with
  | [], _ => some none
  | _, ['Z'] => some none
  | _, c :: s =>
    if c = '-' ∨ c = '+' then
      match readDigits 1 2 s with
      | some (hours, []) => some (some (60 * hours))
      | some (hours, s) =>
        match readAfter ':' 2 2 s with
        | some (minutes, []) => some (some (60 * hours + minutes))
        | _ => none
      | none => none
    else none
  | _, [] => none

/-- Reads a time of day, up to the end. -/
def readTime (s : Text) : Option ClockTime := do
  let (hour, s) ← readDigits 1 2 s
  let (minute, s) ← readAfter ':' 2 2 s
  let (second, s) ← readAfter ':' 2 2 s
  let s := match s with
    | '.' :: s => s.dropWhile Text.isAsciiDigit
    | s => s
  let offset ← readOffset s
  return { hour, minute, second, offset }

/-- What stands between the date and the time is a letter, or spaces and tabs. -/
def dropSeparator : Text → Option Text
  | [] => none
  | c :: s =>
    if c = 'T' ∨ c = 't' then some s
    else if isSpace c then some (s.dropWhile isSpace)
    else none

/-- Reads a moment. -/
def read? (s : Text) : Option Moment := do
  let (year, s) ← readDigits 4 4 s
  let (month, s) ← readAfter '-' 1 2 s
  let (day, s) ← readAfter '-' 1 2 s
  if s = [] then return { year, month, day, time := none }
  let time ← readTime (← dropSeparator s)
  return { year, month, day, time := some time }

/-- Whether a text without a tag is a moment: a date without a time has to be written in full. -/
def isSpelled (s : Text) : Bool :=
  match read? s with
  | none => false
  | some m => m.time.isSome || s.length == 10

/-- How many days a month has. -/
def daysIn (year month : Nat) : Nat :=
  if month = 2 then
    if year % 4 = 0 ∧ (year % 100 ≠ 0 ∨ year % 400 = 0) then 29 else 28
  else if month = 4 ∨ month = 6 ∨ month = 9 ∨ month = 11 then 30
  else 31

/-- Whether there is such a moment. A clock is off by less than a day. -/
def exists? (m : Moment) : Bool :=
  1 ≤ m.year && 1 ≤ m.month && m.month ≤ 12 && 1 ≤ m.day && m.day ≤ daysIn m.year m.month &&
    m.time.all fun t => t.hour < 24 && t.minute < 60 && t.second < 60 && t.offset.all (· < 1440)

end Moment

end MeshLens.Yaml
