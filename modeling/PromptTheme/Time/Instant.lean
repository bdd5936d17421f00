/-
Instants of universal time and their text. The reader takes a date, a time and an offset with some
freedom: blanks before each part, numbers without leading zeros, a sign before the year, and three
ways to separate date and time. The writer has one form for each instant.
-/
import PromptTheme.Text.Blank
import PromptTheme.Text.Letters
import PromptTheme.Time.Calendar

namespace PromptTheme

/-- A second of universal time and the nanoseconds since it began. During a leap second, which has
no number of its own, they go on counting past the end of the second before it. -/
structure Instant where
  seconds : Int
  nanoseconds : Nat
deriving DecidableEq

namespace Instant

instance : Inhabited Instant := ⟨⟨0, 0⟩⟩

def secondsInDay : Int := 86400

def nanosecondsInSecond : Nat := 1000000000

/-! ## Reading -/

/-- The number at the front of a text, after blanks; of its digits at most `most` are read. -/
def number? (most : Nat) (s : List Char) : Option (Nat × List Char) :=
  let s := s.dropWhile Text.isBlank
  let digits := (s.takeWhile Char.isDigit).take most
  if digits.isEmpty then none
  else (Text.digitsValue? 10 digits).map (·, s.drop digits.length)

/-- A year has at most four digits, or any number of digits after a sign. -/
def year? (s : List Char) : Option (Int × List Char) :=
  let signed? (rest : List Char) : Option (Nat × List Char) :=
    if (rest.head?.map Char.isDigit).getD false then number? rest.length rest else none
  match s.dropWhile Text.isBlank with
  | '-' :: rest => (signed? rest).map fun (n, rest) => (-(n : Int), rest)
  | '+' :: rest => (signed? rest).map fun (n, rest) => ((n : Int), rest)
  | s => (number? 4 s).map fun (n, rest) => ((n : Int), rest)

/-- What follows a mark that may have blanks before it. -/
def afterMark? (mark : Char) (s : List Char) : Option (List Char) :=
  match s.dropWhile Text.isBlank with
  | c :: rest => if c = mark then some rest else none
  | [] => none

/-- The first and the last year that have instants. -/
def firstYear : Int := -262143

def lastYear : Int := 262142

/-- The day number of a date. -/
def day? (s : List Char) : Option (Int × List Char) := do
  let (year, s) ← year? s
  let s ← afterMark? '-' s
  let (month, s) ← number? 2 s
  let s ← afterMark? '-' s
  let (day, s) ← number? 2 s
  let date : Date := ⟨year, month, day⟩
  if date.isValid && firstYear ≤ year && year ≤ lastYear then some (date.dayNumber, s) else none

/-- Nine digits of a fraction count; what comes after them is passed over. -/
def fraction? : List Char → Option (Nat × List Char)
  | '.' :: rest =>
    let digits := rest.takeWhile Char.isDigit
    if digits.isEmpty then none
    else
      (Text.digitsValue? 10 (digits.take 9 ++ List.replicate (9 - digits.length) '0')).map
        (·, rest.dropWhile Char.isDigit)
  | s => some (0, s)

/-- The second of the day and the nanoseconds. A minute may have a second 60. -/
def timeOfDay? (s : List Char) : Option ((Int × Nat) × List Char) := do
  let (hour, s) ← number? 2 s
  let s ← afterMark? ':' s
  let (minute, s) ← number? 2 s
  let s ← afterMark? ':' s
  let (second, s) ← number? 2 s
  let (nanoseconds, s) ← fraction? s
  if hour ≤ 23 ∧ minute ≤ 59 ∧ second ≤ 60 then
    let minutes : Int := hour * 60 + minute
    if second = 60 then some ((minutes * 60 + 59, nanosecondsInSecond + nanoseconds), s)
    else some ((minutes * 60 + second, nanoseconds), s)
  else none

/-- Hours and minutes of an offset, in seconds. It is less than a day. -/
def hoursAndMinutes? : List Char → Option (Nat × List Char)
  | h1 :: h2 :: s =>
    match s.dropWhile fun c => c = ':' || Text.isBlank c with
    | m1 :: m2 :: rest =>
      if h1.isDigit && h2.isDigit && m1.isDigit && m2.isDigit then
        match Text.digitsValue? 10 [h1, h2], Text.digitsValue? 10 [m1, m2] with
        | some hours, some minutes =>
          if hours ≤ 23 ∧ minutes ≤ 59 then some (hours * 3600 + minutes * 60, rest) else none
        | _, _ => none
      else none
    | _ => none
  | _ => none

/-- The seconds by which a clock with this offset is ahead. -/
def offset? (s : List Char) : Option (Int × List Char) :=
  match Text.afterHeadAnyCase? "utc".toList s with
  | some rest => some (0, rest)
  | none =>
    match s with
    | 'Z' :: rest | 'z' :: rest => some (0, rest)
    | '+' :: rest => (hoursAndMinutes? rest).map fun (n, rest) => ((n : Int), rest)
    | '-' :: rest | '−' :: rest => (hoursAndMinutes? rest).map fun (n, rest) => (-(n : Int), rest)
    | _ => none

/-- The instant that a text writes. -/
def ofText? (text : String) : Option Instant := do
  let (day, s) ← day? text.toList
  match s with
  | c :: s =>
    if c = 'T' ∨ c = 't' ∨ c = ' ' then do
      let ((second, nanoseconds), s) ← timeOfDay? s
      let (ahead, s) ← offset? (s.dropWhile Text.isBlank)
      let seconds := day * secondsInDay + second - ahead
      let year := (Date.ofDayNumber (seconds / secondsInDay)).year
      if s.all Text.isBlank && firstYear ≤ year && year ≤ lastYear then some ⟨seconds, nanoseconds⟩
      else none
    else none
  | [] => none

/-! ## Writing -/

/-- A number filled up with zeros on the left. -/
def padded (width n : Nat) : String :=
  let digits := toString n
  String.ofList (List.replicate (width - digits.length) '0') ++ digits

/-- Years of up to four digits are written without a sign. -/
def yearText (year : Int) : String :=
  if 0 ≤ year ∧ year ≤ 9999 then padded 4 year.natAbs
  else (if year < 0 then "-" else "+") ++ padded 4 year.natAbs

/-- The fraction of a second: nothing, or three, six or nine places. -/
def fractionText (nanoseconds : Nat) : String :=
  if nanoseconds = 0 then ""
  else if nanoseconds % 1000000 = 0 then "." ++ padded 3 (nanoseconds / 1000000)
  else if nanoseconds % 1000 = 0 then "." ++ padded 6 (nanoseconds / 1000)
  else "." ++ padded 9 nanoseconds

/-- Date and time in universal time; a leap second is written as second 60. -/
def text (t : Instant) : String :=
  let date := Date.ofDayNumber (t.seconds / secondsInDay)
  let second := (t.seconds % secondsInDay).toNat
  let leap := t.nanoseconds / nanosecondsInSecond
  yearText date.year ++ "-" ++ padded 2 date.month ++ "-" ++ padded 2 date.day ++ "T" ++
    padded 2 (second / 3600) ++ ":" ++ padded 2 (second / 60 % 60) ++ ":" ++
    padded 2 (second % 60 + leap) ++ fractionText (t.nanoseconds % nanosecondsInSecond) ++ "Z"

end Instant

end PromptTheme
