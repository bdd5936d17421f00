/-
Decimal texts of floats. `Double.shortest` finds the decimal with the fewest digits among those
that read back as the given number, and of those the nearest one; `Double.text` lays its digits out
as a `DecimalText` says, and `Double.fixed` writes a given number of places.
-/
import PromptTheme.Number.Double

namespace PromptTheme

/-- A decimal `digits * 10 ^ exponent`. -/
structure Decimal where
  digits : Nat
  exponent : Int
deriving DecidableEq

/-- Which of two equally near decimals is taken. -/
inductive Tie where
  | even
  | up
deriving DecidableEq

namespace Double

/-- Compares `c * 10 ^ p` with `a * 2 ^ q` exactly. -/
def compareDecimal (c : Nat) (p : Int) (a : Nat) (q : Int) : Ordering :=
  compare (c * Nat.pow 10 p.toNat * Nat.pow 2 (-q).toNat)
    (a * Nat.pow 2 q.toNat * Nat.pow 10 (-p).toNat)

/-- The decimal `c * 10 ^ p` rounds to the magnitude of `x`. -/
def readsBack (x : Double) (c : Nat) (p : Int) : Bool :=
  let m := x.mantissa
  let q := x.exponent - 2
  let below := if x.rank % binade = 0 ∧ 2 * binade ≤ x.rank then 4 * m - 1 else 4 * m - 2
  let above := 4 * m + 2
  match compareDecimal c p below q, compareDecimal c p above q with
  | .gt, .lt => true
  | .eq, _ => m % 2 = 0
  | _, .eq => m % 2 = 0
  | _, _ => false

/-- The multiple of `10 ^ p` that reads back as `x` and lies nearest to it. -/
def onGrid? (tie : Tie) (x : Double) (p : Int) : Option Decimal :=
  let n := x.num * Nat.pow 10 (-p).toNat
  let d := x.den * Nat.pow 10 p.toNat
  let c := n / d
  match x.readsBack c p && c != 0, x.readsBack (c + 1) p with
  | true, false => some ⟨c, p⟩
  | false, true => some ⟨c + 1, p⟩
  | false, false => none
  | true, true =>
    match compare (2 * (n % d)) d with
    | .lt => some ⟨c, p⟩
    | .gt => some ⟨c + 1, p⟩
    | .eq => if tie = .even ∧ c % 2 = 0 then some ⟨c, p⟩ else some ⟨c + 1, p⟩

/-- The first grid from `10 ^ p` downwards that has a decimal for `x`. -/
def coarsest (tie : Tie) (x : Double) : Nat → Int → Decimal
  | 0, p => ⟨x.num / x.den, p⟩
  | steps + 1, p => (x.onGrid? tie p).getD (coarsest tie x steps (p - 1))

/-- The shortest decimal that reads back as `x`. The search starts above the leading digit, and
seventeen digits always suffice. -/
def shortest (tie : Tie) (x : Double) : Decimal :=
  if x.rank = 0 then ⟨0, 0⟩
  else coarsest tie x 24 ((x.mantissa.log2 + x.exponent + 1) * 30103 / 100000 + 2)

end Double

/-! ## Layout -/

/-- How the digits of a float are laid out: the scientific exponents that are written without an
exponent, and the choice between two equally near decimals. -/
structure DecimalText where
  positional : Int → Bool
  tie : Tie

namespace Double

/-- Digits with a point before the last `places` of them, and at least one digit on each side. -/
def withPoint (digits : Nat) (places : Nat) : String :=
  let ds := (Nat.toDigits 10 digits)
  let padded := List.replicate (places + 1 - ds.length) '0' ++ ds
  let whole := padded.take (padded.length - places)
  let part := padded.drop (padded.length - places)
  String.ofList (whole ++ '.' :: (if part.isEmpty then ['0'] else part))

/-- One digit, the remaining ones after a point, and the exponent with its sign. -/
def scientific (digits : Nat) (exponent : Int) : String :=
  let tail := (Nat.toDigits 10 digits).drop 1
  let head := (Nat.toDigits 10 digits).take 1
  let sign := if exponent < 0 then "-" else "+"
  String.ofList (head ++ (if tail.isEmpty then [] else '.' :: tail)) ++ "e" ++ sign ++
    toString exponent.natAbs

/-- The shortest text of `x` in the given layout. -/
def text (layout : DecimalText) (x : Double) : String :=
  let d := x.shortest layout.tie
  let lead : Int := d.exponent + ((Nat.toDigits 10 d.digits).length - 1 : Nat)
  let magnitude :=
    if x.rank = 0 then "0.0"
    else if layout.positional lead then
      withPoint (d.digits * Nat.pow 10 d.exponent.toNat) (-d.exponent).toNat
    else scientific d.digits lead
  if x.negative then "-" ++ magnitude else magnitude

/-- The text of `x` with exactly `places` places, a half going to the even neighbour. -/
def fixed (places : Nat) (x : Double) : String :=
  let magnitude := withPoint (roundDiv (x.num * Nat.pow 10 places) x.den) places
  if x.negative then "-" ++ magnitude else magnitude

end Double

end PromptTheme
