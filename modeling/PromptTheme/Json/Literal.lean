/-
The number literals of JSON and their values. Literals without fraction and exponent that fit a
64-bit integer are whole numbers, all others are floats. A float is computed in steps that each
round: the leading digits that fit an unsigned 64-bit integer are rounded to a float, which is then
multiplied or divided by the float nearest to a power of ten.
-/
import PromptTheme.Value
import PromptTheme.Text.Letters

namespace PromptTheme.Json

/-- The parts of a number literal. -/
structure Literal where
  negative : Bool
  whole : List Nat
  fraction : Option (List Nat)
  exponent : Option Int

namespace Literal

def digit? (c : Char) : Option Nat :=
  if '0' ≤ c ∧ c ≤ '9' then some (c.toNat - '0'.toNat) else none

/-- The digits at the front of a text, and what follows them. -/
def digits : List Char → List Nat × List Char
  | [] => ([], [])
  | c :: rest =>
    match digit? c with
    | some d => (d :: (digits rest).1, (digits rest).2)
    | none => ([], c :: rest)

/-- The number that digits write. -/
def natOf (ds : List Nat) : Nat := ds.foldl (fun n d => n * 10 + d) 0

/-- A point and at least one digit, or nothing. -/
def fraction? : List Char → Option (Option (List Nat) × List Char)
  | '.' :: rest =>
    if (digits rest).1.isEmpty then none else some (some (digits rest).1, (digits rest).2)
  | s => some (none, s)

/-- The text after the sign of an exponent: at least one digit. -/
def exponentDigits? (negative : Bool) (s : List Char) : Option (Option Int × List Char) :=
  let (ds, rest) := digits s
  if ds.isEmpty then none
  else
    let n : Int := natOf ds
    some (some (if negative then -n else n), rest)

/-- A mark, a sign that may be left out, and at least one digit; or nothing. -/
def exponent? : List Char → Option (Option Int × List Char)
  | c :: rest =>
    if c = 'e' ∨ c = 'E' then
      match rest with
      | '+' :: ds => exponentDigits? false ds
      | '-' :: ds => exponentDigits? true ds
      | ds => exponentDigits? false ds
    else some (none, c :: rest)
  | [] => some (none, [])

/-- Reads a text that is a number literal from end to end. The whole part has no leading zero. -/
def parse? (s : List Char) : Option Literal := do
  let (negative, s) := match s with
    | '-' :: rest => (true, rest)
    | s => (false, s)
  let (whole, s) := digits s
  if whole.isEmpty ∨ (whole.head? = some 0 ∧ whole.length ≠ 1) then none
  let (fraction, s) ← fraction? s
  let (exponent, s) ← exponent? s
  if s.isEmpty then some ⟨negative, whole, fraction, exponent⟩ else none

/-! ## Value -/

/-- Appends digits to `n` as long as the result fits an unsigned 64-bit integer, and counts the
digits that are left. -/
def accumulate (n : Nat) : List Nat → Nat × Nat
  | [] => (n, 0)
  | d :: ds =>
    if n * 10 + d < 0x10000000000000000 then accumulate (n * 10 + d) ds else (n, ds.length + 1)

/-- The largest power of ten that a float is multiplied with in one step. -/
def maxPower : Nat := 308

/-- `x` times or divided by ten to the given power. Powers below the range are taken in steps of
the largest one; the number is zero after the second of them. -/
def scale? (x : Double) (power : Int) : Nat → Option Double
  | 0 => some Double.zero
  | steps + 1 =>
    if power.natAbs ≤ maxPower then
      match Double.ofDecimal? false 1 power.natAbs with
      | some ten => if 0 ≤ power then x.mul? ten else x.div? ten
      | none => none
    else if x.rank = 0 then some x
    else if 0 ≤ power then none
    else
      match Double.ofDecimal? false 1 maxPower with
      | some ten =>
        match x.div? ten with
        | some y => scale? y (power + maxPower) steps
        | none => none
      | none => none

/-- The float of a literal; none when it is too large. -/
def double? (l : Literal) : Option Double :=
  let (n, left) := accumulate 0 l.whole
  let fraction := l.fraction.getD []
  let (n, ignored) := accumulate n fraction
  let power : Int := left - ((fraction.length - ignored : Nat) : Int) + l.exponent.getD 0
  match Double.ofNat? n with
  | some x => (scale? x power 4).map fun y => { y with negative := l.negative }
  | none => none

/-- The number of a literal; none when it is too large. Minus zero is a float. -/
def number? (l : Literal) : Option Number :=
  let n : Int := natOf l.whole
  let whole :=
    if l.fraction.isSome ∨ l.exponent.isSome ∨ (l.negative ∧ n = 0) then none
    else Whole.ofInt? (if l.negative then -n else n)
  match whole with
  | some w => some (.whole w)
  | none => l.double?.map .double

end Literal

end PromptTheme.Json
