/-
Finite 64-bit floating-point numbers, held as a sign and the position of the magnitude among all
finite magnitudes. Every operation is exact arithmetic on natural numbers followed by one rounding
to the nearest number, ties to even; a result beyond the largest finite number is `none`.
-/

namespace PromptTheme

/-- A finite 64-bit float: its sign, and how many finite magnitudes lie below its own. The bound is
the number of finite magnitudes, `2047 * 2 ^ 52`. -/
structure Double where
  negative : Bool
  rank : Nat
  finite : rank < 0x7ff0000000000000
deriving DecidableEq

namespace Double

def zero : Double := ⟨false, 0, by decide⟩

instance : Inhabited Double := ⟨zero⟩

/-! ## Magnitude -/

/-- The number of magnitudes that share an exponent, `2 ^ 52`. -/
abbrev binade : Nat := 0x10000000000000

/-- The magnitude is `mantissa * 2 ^ exponent`. -/
def mantissa (x : Double) : Nat :=
  if x.rank < binade then x.rank else binade + x.rank % binade

/-- The magnitude is `mantissa * 2 ^ exponent`. -/
def exponent (x : Double) : Int :=
  if x.rank < binade then -1074 else (x.rank / binade : Nat) - 1075

/-- The numerator of the magnitude as a fraction. -/
def num (x : Double) : Nat := x.mantissa * Nat.pow 2 x.exponent.toNat

/-- The denominator of the magnitude as a fraction. -/
def den (x : Double) : Nat := Nat.pow 2 (-x.exponent).toNat

/-- Equality as numbers: the two zeros are equal. -/
def sameAs (x y : Double) : Bool :=
  x.rank == y.rank && (x.negative == y.negative || x.rank == 0)

/-! ## Rounding -/

/-- The whole number nearest to `num / den`, a half going to the even neighbour. -/
def roundDiv (num den : Nat) : Nat :=
  let q := num / den
  let r := num % den
  if 2 * r > den ∨ (2 * r = den ∧ q % 2 = 1) then q + 1 else q

/-- The largest `g` with `2 ^ g ≤ num / den`, for positive `num` and `den`. -/
def floorLog2 (num den : Nat) : Int :=
  let g : Int := num.log2 - den.log2
  if num * Nat.pow 2 (-g).toNat ≥ den * Nat.pow 2 g.toNat then g else g - 1

/-- The number nearest to `num / den`, ties to even; none when that is not finite. -/
def ofRatio? (negative : Bool) (num den : Nat) : Option Double :=
  if num = 0 then some ⟨negative, 0, by decide⟩
  else
    let e : Int := max (-1074) (floorLog2 num den - 52)
    let m := roundDiv (num * Nat.pow 2 (-e).toNat) (den * Nat.pow 2 e.toNat)
    let rank := (e + 1074).toNat * binade + m
    if h : rank < 0x7ff0000000000000 then some ⟨negative, rank, h⟩ else none

def ofNat? (n : Nat) : Option Double := ofRatio? false n 1

/-- The number nearest to `digits * 10 ^ exponent`. Decimals from `10 ^ 310` on are not finite, and
those below `10 ^ -330` are nearest to zero. -/
def ofDecimal? (negative : Bool) (digits : Nat) (exponent : Int) : Option Double :=
  let lead : Int := exponent + (Nat.toDigits 10 digits).length
  if digits = 0 ∨ lead < -330 then some ⟨negative, 0, by decide⟩
  else if 310 < lead then none
  else ofRatio? negative (digits * Nat.pow 10 exponent.toNat) (Nat.pow 10 (-exponent).toNat)

def mul? (x y : Double) : Option Double :=
  ofRatio? (x.negative != y.negative) (x.num * y.num) (x.den * y.den)

/-- The quotient; a zero divisor gives none. -/
def div? (x y : Double) : Option Double :=
  if y.rank = 0 then none
  else ofRatio? (x.negative != y.negative) (x.num * y.den) (x.den * y.num)

/-- The number with the given bit pattern, if it is finite. -/
def ofBits? (bits : UInt64) : Option Double :=
  let rank := bits.toNat % 0x8000000000000000
  if h : rank < 0x7ff0000000000000 then some ⟨decide (bits.toNat ≥ 0x8000000000000000), rank, h⟩
  else none

end Double

end PromptTheme
