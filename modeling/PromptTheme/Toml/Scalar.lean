/-
The values of TOML that are written without quotes: truth values, integers, floats, dates and
times. Each is read from a whole word, whose characters `isWordChar` lists.
-/
import PromptTheme.Time.Calendar
import PromptTheme.Value
import PromptTheme.Toml.Text

namespace PromptTheme.Toml

def isWordChar (c : Char) : Bool :=
  c.isAlphanum || c = '_' || c = '+' || c = '-' || c = '.' || c = ':'

/-! ## Numbers -/

/-- The digits after the first one: an underscore may stand between two digits. -/
def moreDigits? (isDigit : Char → Bool) : List Char → Option (List Char)
  | [] => some []
  | '_' :: d :: rest => if isDigit d then (moreDigits? isDigit rest).map (d :: ·) else none
  | d :: rest => if isDigit d then (moreDigits? isDigit rest).map (d :: ·) else none

/-- At least one digit, with underscores between digits; returned without them. -/
def digits? (isDigit : Char → Bool) : List Char → Option (List Char)
  | [] => none
  | d :: rest => if isDigit d then (moreDigits? isDigit rest).map (d :: ·) else none

/-- Decimal digits without a leading zero, unless there is one digit. -/
def wholeDigits? (s : List Char) : Option (List Char) :=
  match digits? Char.isDigit s with
  | some ds => if s.head? = some '0' ∧ s.length ≠ 1 then none else some ds
  | none => none

/-- A sign that may be left out, and the rest. -/
def signed : List Char → Bool × List Char
  | '-' :: rest => (true, rest)
  | '+' :: rest => (false, rest)
  | s => (false, s)

/-- Whether a digit belongs to a base. -/
def isBaseDigit (base : Nat) (c : Char) : Bool :=
  match Text.hexValue? c with
  | some d => d < base
  | none => false

/-- The integers that TOML knows: the signed ones of 64 bits. -/
def inRange (n : Int) : Bool := -0x8000000000000000 ≤ n && n < 0x8000000000000000

/-- An integer in the given base. -/
def baseInteger? (base : Nat) (s : List Char) : Option Int :=
  match digits? (isBaseDigit base) s with
  | some ds => (Text.digitsValue? base ds).map Int.ofNat
  | none => none

/-- An integer, of which those in another base than ten have no sign. -/
def integer? (s : List Char) : Option Int :=
  let n : Option Int := match s with
    | '0' :: 'x' :: rest => baseInteger? 16 rest
    | '0' :: 'o' :: rest => baseInteger? 8 rest
    | '0' :: 'b' :: rest => baseInteger? 2 rest
    | s =>
      match wholeDigits? (signed s).2 with
      | some ds =>
        (Text.digitsValue? 10 ds).map fun n => if (signed s).1 then -(n : Int) else (n : Int)
      | none => none
  match n with
  | some n => if inRange n then some n else none
  | none => none

/-- A float word. Not every float is a number: `inf` and `nan` stand for none. -/
inductive FloatWord where
  | finite (x : Double)
  | notFinite

def isExponentMark (c : Char) : Bool := c = 'e' || c = 'E'

/-- The exponent after its mark. -/
def exponent? (s : List Char) : Option Int :=
  match digits? Char.isDigit (signed s).2 with
  | some ds =>
    (Text.digitsValue? 10 ds).map fun n => if (signed s).1 then -(n : Int) else (n : Int)
  | none => none

/-- A decimal with the given digits, `places` of them after the point. A positive one that is too
large is refused, a negative one is not finite. -/
def floatOf? (negative : Bool) (digits : List Char) (places : Nat) (exponent : Int) :
    Option FloatWord :=
  match Text.digitsValue? 10 digits with
  | some n =>
    match Double.ofDecimal? negative n (exponent - places) with
    | some x => some (.finite x)
    | none => if negative then some .notFinite else none
  | none => none

/-- A float: a whole part followed by a fraction, an exponent or both; or a word. -/
def float? (s : List Char) : Option FloatWord :=
  let (negative, body) := signed s
  if body = "inf".toList ∨ body = "nan".toList then some .notFinite
  else
    let isMark := fun c => c = '.' || isExponentMark c
    match wholeDigits? (body.takeWhile (!isMark ·)), body.dropWhile (!isMark ·) with
    | some whole, '.' :: rest =>
      match digits? Char.isDigit (rest.takeWhile (!isExponentMark ·)),
          rest.dropWhile (!isExponentMark ·) with
      | some part, [] => floatOf? negative (whole ++ part) part.length 0
      | some part, _ :: mark =>
        match exponent? mark with
        | some e => floatOf? negative (whole ++ part) part.length e
        | none => none
      | none, _ => none
    | some whole, _ :: mark =>
      match exponent? mark with
      | some e => floatOf? negative whole 0 e
      | none => none
    | _, _ => none

/-! ## Dates and times -/

/-- The number of exactly two digits. -/
def twoDigits? : List Char → Option Nat
  | [a, b] => if a.isDigit && b.isDigit then Text.digitsValue? 10 [a, b] else none
  | _ => none

/-- Exactly a date. -/
def isDate : List Char → Bool
  | [y1, y2, y3, y4, '-', m1, m2, '-', d1, d2] =>
    [y1, y2, y3, y4].all Char.isDigit &&
    match Text.digitsValue? 10 [y1, y2, y3, y4], twoDigits? [m1, m2], twoDigits? [d1, d2] with
    | some year, some month, some day => (Date.mk year month day).isValid
    | _, _, _ => false
  | _ => false

/-- A part of a second: nine digits count, and trailing zeros are not written. -/
def secondPart (digits : List Char) : List Char :=
  let kept := ((digits.take 9).reverse.dropWhile (· = '0')).reverse
  if kept.isEmpty then [] else '.' :: kept

/-- The normal form of a time, and the offset text that follows it. -/
def time? : List Char → Option (List Char × List Char)
  | h1 :: h2 :: ':' :: m1 :: m2 :: ':' :: s1 :: s2 :: rest =>
    match twoDigits? [h1, h2], twoDigits? [m1, m2], twoDigits? [s1, s2] with
    | some h, some m, some s =>
      if h ≤ 23 ∧ m ≤ 59 ∧ s ≤ 60 then
        let clock := [h1, h2, ':', m1, m2, ':', s1, s2]
        match rest with
        | '.' :: part =>
          let digits := part.takeWhile Char.isDigit
          if digits.isEmpty then none
          else some (clock ++ secondPart digits, part.dropWhile Char.isDigit)
        | rest => some (clock, rest)
      else none
    | _, _, _ => none
  | _ => none

/-- The normal form of an offset, or nothing. -/
def offset? : List Char → Option (List Char)
  | [] => some []
  | [z] => if z = 'Z' ∨ z = 'z' then some ['Z'] else none
  | [sign, h1, h2, ':', m1, m2] =>
    if sign = '+' ∨ sign = '-' then
      match twoDigits? [h1, h2], twoDigits? [m1, m2] with
      | some h, some m =>
        if h ≤ 23 ∧ m ≤ 59 then
          some ((if h = 0 ∧ m = 0 then '+' else sign) :: [h1, h2, ':', m1, m2])
        else none
      | _, _ => none
    else none
  | _ => none

/-- The normal form of a time with an offset or without. -/
def zonedTime? (s : List Char) : Option (List Char) :=
  match time? s with
  | some (clock, rest) => (offset? rest).map (clock ++ ·)
  | none => none

/-- The normal form of a word that is a date, a time or both. -/
def dateTime? (s : List Char) : Option (List Char) :=
  if isDate s then some s
  else
    match time? s with
    | some (clock, []) => some clock
    | _ =>
      match s.drop 10 with
      | t :: rest =>
        if isDate (s.take 10) ∧ (t = 'T' ∨ t = 't') then
          (zonedTime? rest).map fun time => s.take 10 ++ 'T' :: time
        else none
      | [] => none

/-! ## Words -/

/-- The key under which a configuration holds the text of a date or time. -/
def dateTimeKey : String := "$__toml_private_datetime"

def dateTimeValue (s : List Char) : Value := .table [(dateTimeKey, .string (String.ofList s))]

/-- The value of a word. -/
def wordValue? (w : List Char) : Option Value :=
  if w = "true".toList then some (.bool true)
  else if w = "false".toList then some (.bool false)
  else
    match dateTime? w, float? w, integer? w with
    | some d, _, _ => some (dateTimeValue d)
    | _, some (.finite x), _ => some (.number (.double x))
    | _, some .notFinite, _ => some .null
    | _, _, some n => (Whole.ofInt? n).map fun n => .number (.whole n)
    | _, _, _ => none

/-- Reads a word. A date may be followed by a space and a time. -/
def scalar? : Scan Value := fun s =>
  let w := s.takeWhile isWordChar
  let rest := s.dropWhile isWordChar
  match isDate w, rest with
  | true, ' ' :: more =>
    match zonedTime? (more.takeWhile isWordChar) with
    | some time => some (dateTimeValue (w ++ 'T' :: time), more.dropWhile isWordChar)
    | none => some (dateTimeValue w, rest)
  | _, _ => (wordValue? w).map (·, rest)

end PromptTheme.Toml
