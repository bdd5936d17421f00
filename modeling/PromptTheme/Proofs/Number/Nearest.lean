/-
Which numbers a float stands for. `Double.Near x v` says that `v` lies in the rounding interval of `x`,
whose ends belong to it when the mantissa is even; `Double.readsBack_iff` says that the writer tests
just that, and `Double.ofRatio?_of_near` that the reader rounds all of the interval to `x`.
-/
import PromptTheme.Number.Decimal
import Mathlib.Tactic
import Mathlib.Algebra.Order.Field.Rat

namespace PromptTheme.Double

/-! ## Powers of two and ten -/

theorem zpow_toNat_neg (b : ℚ) (hb : b ≠ 0) (p : Int) : b ^ p * b ^ (-p).toNat = b ^ p.toNat := by
  rw [← zpow_natCast, ← zpow_natCast, ← zpow_add₀ hb]
  congr 1
  omega

/-- Whole numbers over a common denominator compare as the fractions do. -/
theorem compareDecimal_eq (c : Nat) (p : Int) (a : Nat) (q : Int) :
    compareDecimal c p a q = compare ((c : ℚ) * 10 ^ p) ((a : ℚ) * 2 ^ q) := by
  have hd : (0 : ℚ) < 10 ^ (-p).toNat * 2 ^ (-q).toNat := by positivity
  have hleft : (c : ℚ) * 10 ^ p * (10 ^ (-p).toNat * 2 ^ (-q).toNat)
      = (c * Nat.pow 10 p.toNat * Nat.pow 2 (-q).toNat : ℕ) := by
    have h10 := zpow_toNat_neg 10 (by norm_num) p
    push_cast [Nat.pow_eq]
    linear_combination (c : ℚ) * 2 ^ (-q).toNat * h10
  have hright : (a : ℚ) * 2 ^ q * (10 ^ (-p).toNat * 2 ^ (-q).toNat)
      = (a * Nat.pow 2 q.toNat * Nat.pow 10 (-p).toNat : ℕ) := by
    have h2 := zpow_toNat_neg 2 (by norm_num) q
    push_cast [Nat.pow_eq]
    linear_combination (a : ℚ) * 10 ^ (-p).toNat * h2
  rw [compareDecimal]
  rcases lt_trichotomy ((c : ℚ) * 10 ^ p) ((a : ℚ) * 2 ^ q) with h | h | h
  · rw [compare_lt_iff_lt.2 h, compare_lt_iff_lt]
    rw [← mul_lt_mul_iff_of_pos_right hd, hleft, hright] at h
    exact_mod_cast h
  · rw [compare_eq_iff_eq.2 h, compare_eq_iff_eq]
    rw [← mul_left_inj' hd.ne', hleft, hright] at h
    exact_mod_cast h
  · rw [(compare_gt_iff_gt (a := (c : ℚ) * 10 ^ p)).2 h, compare_gt_iff_gt]
    rw [← mul_lt_mul_iff_of_pos_right hd, hleft, hright] at h
    exact_mod_cast h

/-! ## Magnitudes -/

/-- The mantissa fills its binade, unless the exponent is the least one; and both together give the
rank back. -/
structure Scaled (x : Double) : Prop where
  lower : -1074 ≤ x.exponent
  upper : x.exponent ≤ 971
  mantissa_lt : x.mantissa < 2 * binade
  full : -1074 < x.exponent → binade ≤ x.mantissa
  rank : (x.exponent + 1074).toNat * binade + x.mantissa = x.rank

theorem scaled (x : Double) : x.Scaled := by
  obtain ⟨negative, r, hr⟩ := x
  rcases Nat.lt_or_ge r binade with h | h
  · have hm : mantissa ⟨negative, r, hr⟩ = r := if_pos h
    have he : exponent ⟨negative, r, hr⟩ = -1074 := if_pos h
    constructor <;> simp only [hm, he, binade] at h ⊢ <;> omega
  · have hm : mantissa ⟨negative, r, hr⟩ = binade + r % binade := if_neg (Nat.not_lt.2 h)
    have he : exponent ⟨negative, r, hr⟩ = (r / binade : Nat) - 1075 := if_neg (Nat.not_lt.2 h)
    constructor <;> simp only [hm, he, binade] at h ⊢ <;> omega

theorem mantissa_pos {x : Double} (h : x.rank ≠ 0) : 0 < x.mantissa := by
  have hs := x.scaled
  have hrank := hs.rank
  rcases eq_or_lt_of_le hs.lower with he | he
  · rw [← he] at hrank
    simp only [binade] at hrank
    omega
  · have hfull := hs.full he
    simp only [binade] at hfull
    omega

/-- A mantissa at the bottom of a binade: the next smaller float is nearer than the next larger one. -/
def AtBottom (x : Double) : Prop := x.rank % binade = 0 ∧ 2 * binade ≤ x.rank

instance (x : Double) : Decidable x.AtBottom :=
  inferInstanceAs (Decidable (x.rank % binade = 0 ∧ 2 * binade ≤ x.rank))

theorem atBottom_iff (x : Double) : x.AtBottom ↔ x.mantissa = binade ∧ -1074 < x.exponent := by
  obtain ⟨hlower, -, hlt, hfull, hrank⟩ := x.scaled
  simp only [AtBottom, binade] at hlt hfull hrank ⊢
  constructor
  · rintro ⟨h, h2⟩
    have hexp : -1074 < x.exponent := by omega
    have := hfull hexp
    exact ⟨by omega, hexp⟩
  · rintro ⟨hm, he⟩
    omega

/-- The lower end of the rounding interval, in quarters of the last place. -/
def below (x : Double) : Nat := if x.AtBottom then 4 * x.mantissa - 1 else 4 * x.mantissa - 2

/-- The upper end of the rounding interval, in quarters of the last place. -/
def above (x : Double) : Nat := 4 * x.mantissa + 2

/-- The number lies in the rounding interval of the float. -/
structure Near (x : Double) (v : ℚ) : Prop where
  below : x.below * 2 ^ (x.exponent - 2) ≤ v
  above : v ≤ x.above * 2 ^ (x.exponent - 2)
  even : v = x.below * 2 ^ (x.exponent - 2) ∨ v = x.above * 2 ^ (x.exponent - 2) → x.mantissa % 2 = 0

theorem below_lt_above (x : Double) :
    (x.below : ℚ) * 2 ^ (x.exponent - 2) < x.above * 2 ^ (x.exponent - 2) := by
  have h : x.below < x.above := by
    rw [below, above]
    split <;> omega
  gcongr

/-- The test of the writer. -/
theorem readsBack_iff (x : Double) (c : Nat) (p : Int) : x.readsBack c p = true ↔ x.Near (c * 10 ^ p) := by
  have hbelow : (if x.rank % binade = 0 ∧ 2 * binade ≤ x.rank then 4 * x.mantissa - 1 else 4 * x.mantissa - 2) =
      x.below := rfl
  have habove : 4 * x.mantissa + 2 = x.above := rfl
  have hlt := x.below_lt_above
  simp only [readsBack, hbelow, habove, compareDecimal_eq]
  generalize (c : ℚ) * 10 ^ p = v
  constructor
  · intro h
    split at h
    next hl hh =>
      rw [compare_gt_iff_gt] at hl
      rw [compare_lt_iff_lt] at hh
      refine ⟨hl.le, hh.le, ?_⟩
      rintro (he | he)
      · exact absurd he hl.ne'
      · exact absurd he hh.ne
    next hl =>
      rw [compare_eq_iff_eq] at hl
      exact ⟨hl.ge, hl ▸ hlt.le, fun _ => of_decide_eq_true h⟩
    next hh _ =>
      rw [compare_eq_iff_eq] at hh
      exact ⟨hh ▸ hlt.le, hh.le, fun _ => of_decide_eq_true h⟩
    next => cases h
  · intro h
    rcases lt_or_eq_of_le h.below with hl | hl
    · rw [compare_gt_iff_gt.2 hl]
      rcases lt_or_eq_of_le h.above with hh | hh
      · rw [compare_lt_iff_lt.2 hh]
      · rw [compare_eq_iff_eq.2 hh]
        exact decide_eq_true (h.even (.inr hh))
    · rw [compare_eq_iff_eq.2 hl.symm]
      exact decide_eq_true (h.even (.inl hl.symm))

/-! ## Rounding -/

/-- The whole number that a fraction is rounded to is at most a half away, and even when it is just a
half. -/
theorem roundDiv_eq {num den k : Nat} (hd : 0 < den) (hlow : 2 * k * den ≤ 2 * num + den)
    (hhigh : 2 * num ≤ 2 * k * den + den)
    (heven : 2 * k * den = 2 * num + den ∨ 2 * num = 2 * k * den + den → k % 2 = 0) :
    roundDiv num den = k := by
  obtain ⟨q, hq⟩ : ∃ q, q = num / den := ⟨_, rfl⟩
  obtain ⟨r, hr⟩ : ∃ r, r = num % den := ⟨_, rfl⟩
  have hrlt : r < den := hr ▸ Nat.mod_lt _ hd
  have hnum : num = q * den + r := by rw [hq, hr, Nat.mul_comm, Nat.div_add_mod]
  have hqk : q ≤ k := by
    by_contra hn
    have : (k + 1) * den ≤ q * den := Nat.mul_le_mul_right den (by omega)
    rw [Nat.add_mul] at this
    rw [Nat.mul_assoc] at hhigh
    omega
  have hkq : k ≤ q + 1 := by
    by_contra hn
    have : (q + 2) * den ≤ k * den := Nat.mul_le_mul_right den (by omega)
    rw [Nat.add_mul] at this
    rw [Nat.mul_assoc] at hlow
    omega
  rw [Nat.mul_assoc] at hlow hhigh heven
  rw [roundDiv, ← hq, ← hr]
  rcases Nat.lt_or_ge q k with hlt | hge
  · have hk : k = q + 1 := by omega
    subst hk
    rw [Nat.add_mul] at hlow hhigh heven
    rw [if_pos (by omega)]
  · have hk : k = q := by omega
    subst hk
    rw [if_neg (by omega)]

/-- Rounding a fraction to a multiple of a power of two. -/
theorem roundDiv_scaled {num den k : Nat} {e : Int} (hd : 0 < den)
    (hlow : (2 * k - 1) * 2 ^ e ≤ 2 * (num / den : ℚ)) (hhigh : 2 * (num / den : ℚ) ≤ (2 * k + 1) * 2 ^ e)
    (heven : (2 * k - 1) * 2 ^ e = 2 * (num / den : ℚ) ∨ 2 * (num / den : ℚ) = (2 * k + 1) * 2 ^ e →
      k % 2 = 0) :
    roundDiv (num * Nat.pow 2 (-e).toNat) (den * Nat.pow 2 e.toNat) = k := by
  have hscale : (0 : ℚ) < den * 2 ^ (-e).toNat := by positivity
  -- both sides over the common denominator
  have hnum : 2 * (num / den : ℚ) * (den * 2 ^ (-e).toNat) = (2 * (num * Nat.pow 2 (-e).toNat) : ℕ) := by
    have : (den : ℚ) ≠ 0 := by positivity
    push_cast [Nat.pow_eq]
    field_simp
  have hpow : (2 : ℚ) ^ e * (den * 2 ^ (-e).toNat) = (den * Nat.pow 2 e.toNat : ℕ) := by
    push_cast [Nat.pow_eq]
    linear_combination (den : ℚ) * zpow_toNat_neg 2 (by norm_num) e
  have hleft : (2 * k - 1) * 2 ^ e * (den * 2 ^ (-e).toNat : ℚ)
      = (2 * k * (den * Nat.pow 2 e.toNat) : ℕ) - (den * Nat.pow 2 e.toNat : ℕ) := by
    rw [mul_assoc, hpow]
    push_cast
    ring
  have hright : (2 * k + 1) * 2 ^ e * (den * 2 ^ (-e).toNat : ℚ)
      = (2 * k * (den * Nat.pow 2 e.toNat) : ℕ) + (den * Nat.pow 2 e.toNat : ℕ) := by
    rw [mul_assoc, hpow]
    push_cast
    ring
  rw [← mul_le_mul_iff_of_pos_right hscale, hleft, hnum, sub_le_iff_le_add] at hlow
  rw [← mul_le_mul_iff_of_pos_right hscale, hright, hnum] at hhigh
  refine roundDiv_eq ?_ (by exact_mod_cast hlow) (by exact_mod_cast hhigh) ?_
  · exact Nat.mul_pos hd (Nat.pow_pos (by decide))
  · rintro (he | he)
    · refine heven (.inl (mul_right_cancel₀ hscale.ne' ?_))
      rw [hleft, hnum, sub_eq_iff_eq_add]
      exact_mod_cast he
    · refine heven (.inr (mul_right_cancel₀ hscale.ne' ?_))
      rw [hright, hnum]
      exact_mod_cast he

/-- The binary logarithm, rounded down. -/
theorem floorLog2_spec {num den : Nat} (hn : 0 < num) (hd : 0 < den) :
    (2 : ℚ) ^ floorLog2 num den ≤ num / den ∧ (num / den : ℚ) < 2 ^ (floorLog2 num den + 1) := by
  have hdq : (0 : ℚ) < den := by exact_mod_cast hd
  have hnlow : (2 : ℚ) ^ num.log2 ≤ num := by exact_mod_cast Nat.log2_self_le hn.ne'
  have hnhigh : (num : ℚ) < 2 ^ (num.log2 + 1) := by exact_mod_cast Nat.lt_log2_self
  have hdlow : (2 : ℚ) ^ den.log2 ≤ den := by exact_mod_cast Nat.log2_self_le hd.ne'
  have hdhigh : (den : ℚ) < 2 ^ (den.log2 + 1) := by exact_mod_cast Nat.lt_log2_self
  obtain ⟨g, hg⟩ : ∃ g : Int, g = num.log2 - den.log2 := ⟨_, rfl⟩
  have htest : num * Nat.pow 2 (-g).toNat ≥ den * Nat.pow 2 g.toNat ↔ (2 : ℚ) ^ g ≤ num / den := by
    have hpos : (0 : ℚ) < 2 ^ (-g).toNat := by positivity
    rw [le_div_iff₀ hdq, ← mul_le_mul_iff_of_pos_right hpos]
    have hpow : (2 : ℚ) ^ g * den * 2 ^ (-g).toNat = (den * Nat.pow 2 g.toNat : ℕ) := by
      push_cast [Nat.pow_eq]
      linear_combination (den : ℚ) * zpow_toNat_neg 2 (by norm_num) g
    have hnum : (num : ℚ) * 2 ^ (-g).toNat = (num * Nat.pow 2 (-g).toNat : ℕ) := by
      push_cast [Nat.pow_eq]
      rfl
    rw [hpow, hnum, Nat.cast_le, ge_iff_le]
  have hlow : (2 : ℚ) ^ (g - 1) ≤ num / den := by
    rw [le_div_iff₀ hdq]
    calc (2 : ℚ) ^ (g - 1) * den ≤ 2 ^ (g - 1) * 2 ^ (den.log2 + 1) := by gcongr
      _ = 2 ^ num.log2 := by
        rw [← zpow_natCast, ← zpow_natCast, ← zpow_add₀ (by norm_num), hg]
        congr 1
        push_cast
        ring
      _ ≤ num := hnlow
  have hhigh : (num / den : ℚ) < 2 ^ (g + 1) := by
    rw [div_lt_iff₀ hdq]
    calc (num : ℚ) < 2 ^ (num.log2 + 1) := hnhigh
      _ = 2 ^ (g + 1) * 2 ^ den.log2 := by
        rw [← zpow_natCast, ← zpow_natCast, ← zpow_add₀ (by norm_num), hg]
        congr 1
        push_cast
        ring
      _ ≤ 2 ^ (g + 1) * den := by gcongr
  have hfloor : floorLog2 num den = if num * Nat.pow 2 (-g).toNat ≥ den * Nat.pow 2 g.toNat then g
      else g - 1 := by rw [floorLog2, ← hg]
  rw [hfloor]
  split
  next h => exact ⟨htest.1 h, hhigh⟩
  next h =>
    rw [sub_add_cancel]
    exact ⟨hlow, not_le.1 fun hle => h (htest.2 hle)⟩

/-- A power of two at a distance of the last quarter place. -/
theorem zpow_exponent_add (x : Double) (n : Nat) :
    (2 : ℚ) ^ (x.exponent + n) = 2 ^ (n + 2) * 2 ^ (x.exponent - 2) := by
  rw [← zpow_natCast, ← zpow_add₀ (by norm_num)]
  congr 1
  push_cast
  ring

theorem zpow_exponent (x : Double) : (2 : ℚ) ^ x.exponent = 4 * 2 ^ (x.exponent - 2) := by
  have h := x.zpow_exponent_add 0
  norm_num at h
  exact h

theorem zpow_exponent_sub_one (x : Double) :
    (2 : ℚ) ^ (x.exponent - 1) = 2 * 2 ^ (x.exponent - 2) := by
  rw [← zpow_one_add₀ (by norm_num)]
  congr 1
  ring

theorem above_cast (x : Double) : (x.above : ℚ) = 4 * x.mantissa + 2 := by
  rw [above]
  push_cast
  rfl

variable {x : Double} {v : ℚ}

theorem Near.pos (hx : x.rank ≠ 0) (h : x.Near v) : 0 < v := by
  have hm := mantissa_pos hx
  have hb : 0 < x.below := by
    rw [Double.below]
    split <;> omega
  refine lt_of_lt_of_le ?_ h.below
  positivity

/-- At most half a place around the mantissa, and the half only around an even one. -/
theorem Near.halves (hx : x.rank ≠ 0) (h : x.Near v) :
    (2 * x.mantissa - 1) * 2 ^ x.exponent ≤ 2 * v ∧ 2 * v ≤ (2 * x.mantissa + 1) * 2 ^ x.exponent ∧
      ((2 * x.mantissa - 1) * 2 ^ x.exponent = 2 * v ∨ 2 * v = (2 * x.mantissa + 1) * 2 ^ x.exponent →
        x.mantissa % 2 = 0) := by
  have hm := mantissa_pos hx
  have hu : (0 : ℚ) < 2 ^ (x.exponent - 2) := by positivity
  obtain ⟨hlow, hhigh, heven⟩ := h
  have hbelow : (4 * x.mantissa - 2 : ℚ) ≤ x.below := by
    have : 4 * x.mantissa ≤ x.below + 2 := by
      rw [Double.below]
      split <;> omega
    have : (4 * x.mantissa : ℚ) ≤ x.below + 2 := by exact_mod_cast this
    linarith
  rw [above_cast] at hhigh heven
  have hquarter : (4 * x.mantissa - 2 : ℚ) * 2 ^ (x.exponent - 2) ≤ x.below * 2 ^ (x.exponent - 2) := by
    gcongr
  rw [zpow_exponent]
  refine ⟨by linarith, by linarith, ?_⟩
  rintro (he | he)
  · exact heven (.inl (by linarith))
  · exact heven (.inr (by linarith))

/-- A number near a float has the exponent of the float, or the one below when the float is the least
one of its binade. -/
theorem Near.exponent (h : x.Near v) {g : Int} (hglow : (2 : ℚ) ^ g ≤ v)
    (hghigh : v < 2 ^ (g + 1)) :
    max (-1074) (g - 52) = x.exponent ∨
      max (-1074) (g - 52) = x.exponent - 1 ∧ x.AtBottom ∧ v < 2 ^ (x.exponent + 52) := by
  obtain ⟨hqlow, -, hmlt, hfull, -⟩ := x.scaled
  have hbottom := x.atBottom_iff
  have hu : (0 : ℚ) < 2 ^ (x.exponent - 2) := by positivity
  simp only [binade] at hmlt hfull hbottom
  have hupper : g < x.exponent + 53 := by
    have habove : (x.above : ℚ) < 2 ^ (53 + 2) := by
      have : x.above < 2 ^ (53 + 2) := by
        rw [Double.above]
        omega
      exact_mod_cast this
    rw [← zpow_lt_zpow_iff_right₀ (one_lt_two : (1 : ℚ) < 2)]
    calc (2 : ℚ) ^ g ≤ v := hglow
      _ ≤ x.above * 2 ^ (x.exponent - 2) := h.above
      _ < 2 ^ (53 + 2) * 2 ^ (x.exponent - 2) := by gcongr
      _ = 2 ^ (x.exponent + 53) := (x.zpow_exponent_add 53).symm
  rcases eq_or_lt_of_le hqlow with hq | hq
  · exact .inl (by omega)
  have hmant := hfull hq
  have hlower : x.exponent + 51 ≤ g := by
    have hbelow : (2 : ℚ) ^ (51 + 2) ≤ x.below := by
      have : 2 ^ (51 + 2) ≤ x.below := by
        rw [Double.below]
        split <;> omega
      exact_mod_cast this
    have hlt : x.exponent + 51 < g + 1 := by
      rw [← zpow_lt_zpow_iff_right₀ (one_lt_two : (1 : ℚ) < 2)]
      calc (2 : ℚ) ^ (x.exponent + 51) = 2 ^ (51 + 2) * 2 ^ (x.exponent - 2) := x.zpow_exponent_add 51
        _ ≤ x.below * 2 ^ (x.exponent - 2) := by gcongr
        _ ≤ v := h.below
        _ < 2 ^ (g + 1) := hghigh
    omega
  rcases eq_or_lt_of_le hlower with hg | hg
  · right
    rw [← hg, show x.exponent + 51 + 1 = x.exponent + 52 by ring] at hghigh
    refine ⟨by omega, ?_, hghigh⟩
    -- a number that small is near no larger mantissa
    have hbelow : (x.below : ℚ) < 2 ^ (52 + 2) := by
      rw [← mul_lt_mul_iff_of_pos_right hu]
      calc (x.below : ℚ) * 2 ^ (x.exponent - 2) ≤ v := h.below
        _ < 2 ^ (x.exponent + 52) := hghigh
        _ = 2 ^ (52 + 2) * 2 ^ (x.exponent - 2) := x.zpow_exponent_add 52
    have hbelow : x.below < 2 ^ (52 + 2) := by exact_mod_cast hbelow
    rw [Double.below] at hbelow
    refine hbottom.2 ⟨?_, hq⟩
    split at hbelow <;> omega
  · exact .inl (by omega)

/-- Every number in the rounding interval of a float is rounded to the float. -/
theorem ofRatio?_of_near (hx : x.rank ≠ 0) {num den : Nat} (hd : 0 < den) (h : x.Near (num / den))
    (negative : Bool) : ofRatio? negative num den = some ⟨negative, x.rank, x.finite⟩ := by
  have hn : 0 < num := by
    rcases Nat.eq_zero_or_pos num with rfl | hn
    · simpa using h.pos hx
    · exact hn
  obtain ⟨hglow, hghigh⟩ := floorLog2_spec hn hd
  have hfinite := x.finite
  have hrank := x.scaled.rank
  have hround : ∀ {e : Int} {k : Nat}, max (-1074) (floorLog2 num den - 52) = e →
      roundDiv (num * Nat.pow 2 (-e).toNat) (den * Nat.pow 2 e.toNat) = k →
      (e + 1074).toNat * binade + k = x.rank →
      ofRatio? negative num den = some ⟨negative, x.rank, x.finite⟩ := by
    intro e k he hk hr
    simp only [ofRatio?, if_neg hn.ne', he, hk, hr, dif_pos hfinite]
  rcases h.exponent hglow hghigh with he | ⟨he, hbottom, hlt⟩
  · -- rounding in places of the float
    obtain ⟨hlow, hhigh, heven⟩ := h.halves hx
    exact hround he (roundDiv_scaled hd hlow hhigh heven) hrank
  · -- rounding in half places gives twice the least mantissa, which is carried over to the float
    obtain ⟨hm, hq⟩ := x.atBottom_iff.1 hbottom
    have hbelow : (x.below : ℚ) = 4 * 4503599627370496 - 1 := by
      have : x.below + 1 = 4 * 4503599627370496 := by
        rw [Double.below, if_pos hbottom, hm]
        decide
      rw [eq_sub_iff_add_eq]
      exact_mod_cast this
    have hlow := h.below
    have hlt := hlt.trans_eq (x.zpow_exponent_add 52)
    rw [hbelow] at hlow
    refine hround he (k := 2 * binade) (roundDiv_scaled hd ?_ ?_ fun _ => rfl) ?_
    · rw [zpow_exponent_sub_one]
      push_cast
      linarith
    · rw [zpow_exponent_sub_one]
      push_cast
      linarith
    · rw [hm] at hrank
      rw [← hrank, show (x.exponent + 1074).toNat = (x.exponent - 1 + 1074).toNat + 1 by omega]
      ring

end PromptTheme.Double
