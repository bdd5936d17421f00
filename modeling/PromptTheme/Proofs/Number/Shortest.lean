/-
The decimal that is written for a float reads back as the float. The search for it ends in the rounding
interval (`Double.shortest_near`): at the latest on a grid that is finer than half a place, because one
of the two grid points around the float is in the interval. `Double.ofDecimal?_shortest` says
that the reader takes that decimal, in whatever way its digits are laid out, for the float.
-/
import PromptTheme.Proofs.Number.Nearest

namespace PromptTheme.Double

variable {x : Double} {v : ℚ}

/-! ## Grids -/

theorem den_pos (x : Double) : 0 < x.den := Nat.pow_pos (by decide)

theorem num_div_den (x : Double) : (x.num / x.den : ℚ) = x.mantissa * 2 ^ x.exponent := by
  have hd : (x.den : ℚ) ≠ 0 := by exact_mod_cast x.den_pos.ne'
  rw [div_eq_iff hd, num, den]
  push_cast [Nat.pow_eq]
  linear_combination -(x.mantissa : ℚ) * zpow_toNat_neg 2 (by norm_num) x.exponent

theorem onGrid?_near {tie : Tie} {p : Int} {d : Decimal} (h : x.onGrid? tie p = some d) :
    x.Near (d.digits * 10 ^ d.exponent) := by
  rw [← readsBack_iff]
  simp only [onGrid?] at h
  split at h
  next hc _ =>
    cases h
    exact (Bool.and_eq_true_iff.1 hc).1
  next hc =>
    cases h
    exact hc
  next => cases h
  next hc hc' =>
    have hc := (Bool.and_eq_true_iff.1 hc).1
    split at h
    · cases h
      exact hc
    · cases h
      exact hc'
    · split at h
      · cases h
        exact hc
      · cases h
        exact hc'

/-- A grid finer than half a place has a decimal for every float. -/
theorem onGrid?_isSome (tie : Tie) {p : Int} (h : (10 : ℚ) ^ p < 2 ^ (x.exponent - 1)) :
    (x.onGrid? tie p).isSome := by
  obtain ⟨n, hn⟩ : ∃ n, n = x.num * Nat.pow 10 (-p).toNat := ⟨_, rfl⟩
  obtain ⟨d, hd⟩ : ∃ d, d = x.den * Nat.pow 10 p.toNat := ⟨_, rfl⟩
  have hdpos : 0 < d := hd ▸ Nat.mul_pos x.den_pos (Nat.pow_pos (by decide))
  have hgrid : (0 : ℚ) < 10 ^ p := by positivity
  -- the float in steps of the grid
  have hsteps : (x.mantissa * 2 ^ x.exponent : ℚ) = n / d * 10 ^ p := by
    have hden : (x.den : ℚ) ≠ 0 := by exact_mod_cast x.den_pos.ne'
    have hscale := zpow_toNat_neg 10 (by norm_num) p
    have hpow : (10 : ℚ) ^ p.toNat ≠ 0 := by positivity
    rw [← num_div_den, hn, hd]
    push_cast [Nat.pow_eq]
    rw [← hscale]
    field_simp
  have hlow : (x.mantissa * 2 ^ x.exponent : ℚ) < (n / d + 1 : ℕ) * 10 ^ p := by
    rw [hsteps]
    gcongr
    rw [div_lt_iff₀ (by exact_mod_cast hdpos)]
    exact_mod_cast Nat.lt_mul_of_div_lt (Nat.lt_succ_self (n / d)) hdpos
  have hhigh : ((n / d + 1 : ℕ) : ℚ) * 10 ^ p ≤ x.mantissa * 2 ^ x.exponent + 10 ^ p := by
    rw [hsteps]
    push_cast
    rw [add_mul, one_mul]
    gcongr
    exact Nat.cast_div_le
  -- the grid point above the float is less than half a place away from it
  have hnear : x.readsBack (n / d + 1) p = true := by
    rw [zpow_exponent] at hlow hhigh
    rw [zpow_exponent_sub_one] at h
    have hbelow : (x.below : ℚ) * 2 ^ (x.exponent - 2) ≤ 4 * x.mantissa * 2 ^ (x.exponent - 2) := by
      have : x.below ≤ 4 * x.mantissa := by
        rw [below]
        split <;> omega
      gcongr
      exact_mod_cast this
    have hlt : (x.below : ℚ) * 2 ^ (x.exponent - 2) < (n / d + 1 : ℕ) * 10 ^ p := by linarith
    have hgt : ((n / d + 1 : ℕ) : ℚ) * 10 ^ p < x.above * 2 ^ (x.exponent - 2) := by
      rw [above_cast]
      linarith
    rw [readsBack_iff]
    refine ⟨hlt.le, hgt.le, ?_⟩
    rintro (he | he)
    · exact absurd he hlt.ne'
    · exact absurd he hgt.ne
  simp only [onGrid?, ← hn, ← hd, hnear]
  cases x.readsBack (n / d) p && n / d != 0
  · rfl
  · dsimp only
    split
    · rfl
    · rfl
    · split <;> rfl

theorem zpow_ten_lt {p q : Int} (hq : -1074 ≤ q) (hq' : q ≤ 971)
    (h : 100000 * (p + 21) ≤ (q + 53) * 30103) : (10 : ℚ) ^ p < 2 ^ (q - 1) := by
  rcases le_or_gt 0 p with hp | hp
  · -- a thousand is less than the tenth power of two
    refine lt_of_pow_lt_pow_left₀ 3 (by positivity) ?_
    calc ((10 : ℚ) ^ p) ^ 3 = 1000 ^ p := by
          rw [← zpow_natCast, zpow_comm]
          norm_num
      _ ≤ 1024 ^ p := zpow_le_zpow_left₀ hp (by norm_num) (by norm_num)
      _ = 2 ^ (10 * p) := by
          rw [zpow_mul]
          norm_num
      _ < 2 ^ ((q - 1) * 3) := by
          rw [zpow_lt_zpow_iff_right₀ one_lt_two]
          omega
      _ = (2 ^ (q - 1)) ^ 3 := by
          rw [zpow_mul]
          norm_cast
  · obtain ⟨n, rfl⟩ : ∃ n : Nat, p = -n := ⟨p.natAbs, by omega⟩
    -- and the 83rd power of two less than the 25th of ten
    refine lt_of_pow_lt_pow_left₀ 25 (by positivity) ?_
    calc ((10 : ℚ) ^ (-n : Int)) ^ 25 = ((10 ^ 25) ^ n)⁻¹ := by
          rw [zpow_neg, zpow_natCast, inv_pow, pow_right_comm]
      _ ≤ ((2 ^ 83) ^ n)⁻¹ := by
          gcongr
          norm_num
      _ = 2 ^ (-(83 * n : Nat) : Int) := by rw [zpow_neg, zpow_natCast, pow_mul]
      _ < 2 ^ ((q - 1) * 25) := by
          rw [zpow_lt_zpow_iff_right₀ one_lt_two]
          omega
      _ = (2 ^ (q - 1)) ^ 25 := by
          rw [zpow_mul]
          norm_cast

/-! ## The search -/

theorem coarsest_near {tie : Tie} {steps j : Nat} {p : Int} (hj : j < steps)
    (h : (x.onGrid? tie (p - j)).isSome) :
    x.Near ((coarsest tie x steps p).digits * 10 ^ (coarsest tie x steps p).exponent) := by
  induction steps generalizing j p with
  | zero => omega
  | succ steps ih =>
    rw [coarsest]
    cases hgrid : x.onGrid? tie p with
    | some d => exact onGrid?_near hgrid
    | none =>
      rw [Option.getD_none]
      cases j with
      | zero =>
        rw [Nat.cast_zero, sub_zero, hgrid] at h
        cases h
      | succ j =>
        refine ih (Nat.lt_of_succ_lt_succ hj) (j := j) ?_
        rw [show p - 1 - (j : Int) = p - (j + 1 : Nat) by push_cast; ring]
        exact h

/-- The shortest decimal of a float is in its rounding interval. -/
theorem shortest_near (tie : Tie) (hx : x.rank ≠ 0) :
    x.Near ((x.shortest tie).digits * 10 ^ (x.shortest tie).exponent) := by
  obtain ⟨hlower, hupper, hlt, -, -⟩ := x.scaled
  have hlog : x.mantissa.log2 < 53 := by
    rw [Nat.log2_lt (mantissa_pos hx).ne']
    exact hlt
  rw [shortest, if_neg hx]
  refine coarsest_near (j := 23) (by decide) (onGrid?_isSome tie (zpow_ten_lt hlower hupper ?_))
  omega

/-! ## Reading -/

/-- The number of decimal digits. -/
theorem ten_pow_length {n : Nat} (h : n ≠ 0) :
    (10 : ℚ) ^ (Nat.toDigits 10 n).length ≤ 10 * n ∧ (n : ℚ) < 10 ^ (Nat.toDigits 10 n).length := by
  have hpos : 0 < (Nat.toDigits 10 n).length := List.length_pos_of_ne_nil Nat.toDigits_ne_nil
  have hlt : n < 10 ^ (Nat.toDigits 10 n).length :=
    (Nat.length_toDigits_le_iff (by decide) hpos).1 le_rfl
  refine ⟨?_, by exact_mod_cast hlt⟩
  generalize hlen : (Nat.toDigits 10 n).length = len at hpos
  obtain ⟨k, rfl⟩ : ∃ k, len = k + 1 := ⟨len - 1, by omega⟩
  have hle : 10 ^ k ≤ n := by
    rcases Nat.eq_zero_or_pos k with rfl | hk
    · rw [pow_zero]
      omega
    · by_contra hn
      have := (Nat.length_toDigits_le_iff (b := 10) (by decide) hk).2 (Nat.lt_of_not_le hn)
      omega
  have hle : (10 : ℚ) ^ k ≤ n := by exact_mod_cast hle
  rw [pow_succ]
  linarith

/-- The floats that are not zero lie between these powers of ten. -/
theorem Near.bounds (hx : x.rank ≠ 0) (h : x.Near v) : (10 : ℚ) ^ (-330 : Int) < v ∧ v < 10 ^ 309 := by
  obtain ⟨hqlow, hqhigh, hmlt, -, -⟩ := x.scaled
  have hm := mantissa_pos hx
  constructor
  · have hbelow : (2 : ℚ) ≤ x.below := by
      have : 2 ≤ x.below := by
        rw [Double.below]
        split <;> omega
      exact_mod_cast this
    calc (10 : ℚ) ^ (-330 : Int) = ((10 ^ 10) ^ 33)⁻¹ := by
          rw [← pow_mul]
          rfl
      _ < ((2 ^ 33) ^ 33)⁻¹ := by
          gcongr
          norm_num
      _ = 2 ^ (-1089 : Int) := by
          rw [← pow_mul]
          rfl
      _ ≤ 2 ^ (x.exponent - 2) := zpow_le_zpow_right₀ one_le_two (by omega)
      _ ≤ x.below * 2 ^ (x.exponent - 2) := le_mul_of_one_le_left (by positivity) (by linarith)
      _ ≤ v := h.below
  · have habove : (x.above : ℚ) ≤ 2 ^ 55 := by
      have : x.above ≤ 2 ^ 55 := by
        simp only [binade] at hmlt
        rw [Double.above]
        omega
      exact_mod_cast this
    calc v ≤ x.above * 2 ^ (x.exponent - 2) := h.above
      _ ≤ 2 ^ 55 * 2 ^ (969 : Int) := by
          gcongr
          · norm_num
          · omega
      _ = (2 ^ 93) ^ 11 * 2 := by
          rw [← pow_mul, ← pow_succ, ← zpow_natCast, ← zpow_natCast, ← zpow_add₀ two_ne_zero]
          rfl
      _ < (10 ^ 28) ^ 11 * 10 := by
          gcongr <;> norm_num
      _ = 10 ^ 309 := by
          rw [← pow_mul, ← pow_succ]

/-- A decimal in the rounding interval of a float reads as the float. -/
theorem ofDecimal?_of_near (hx : x.rank ≠ 0) {n : Nat} {e : Int} (h : x.Near (n * 10 ^ e))
    (negative : Bool) : ofDecimal? negative n e = some ⟨negative, x.rank, x.finite⟩ := by
  obtain ⟨hleast, hmost⟩ := h.bounds hx
  have hn : n ≠ 0 := by
    rintro rfl
    have hpos := h.pos hx
    simp at hpos
  obtain ⟨hlow, hhigh⟩ := ten_pow_length hn
  have hlead : (10 : ℚ) ^ (e + (Nat.toDigits 10 n).length) = 10 ^ (Nat.toDigits 10 n).length * 10 ^ e := by
    rw [zpow_add₀ (by norm_num), zpow_natCast, mul_comm]
  have hnotsmall : -330 < e + (Nat.toDigits 10 n).length := by
    rw [← zpow_lt_zpow_iff_right₀ (by norm_num : (1 : ℚ) < 10), hlead]
    refine hleast.trans ?_
    gcongr
  have hnotlarge : e + (Nat.toDigits 10 n).length < 310 := by
    rw [← zpow_lt_zpow_iff_right₀ (by norm_num : (1 : ℚ) < 10), hlead]
    calc (10 : ℚ) ^ (Nat.toDigits 10 n).length * 10 ^ e ≤ 10 * n * 10 ^ e := by gcongr
      _ = 10 * (n * 10 ^ e) := mul_assoc ..
      _ < 10 * 10 ^ 309 := by gcongr
      _ = 10 ^ (310 : Int) := by
        rw [← pow_succ']
        rfl
  have hratio : ((n * Nat.pow 10 e.toNat : ℕ) / (Nat.pow 10 (-e).toNat : ℕ) : ℚ) = n * 10 ^ e := by
    have hden : 0 < Nat.pow 10 (-e).toNat := Nat.pow_pos (by decide)
    rw [div_eq_iff (by exact_mod_cast hden.ne')]
    push_cast [Nat.pow_eq]
    linear_combination -(n : ℚ) * zpow_toNat_neg 10 (by norm_num) e
  simp only [ofDecimal?]
  rw [if_neg (by omega), if_neg (by omega)]
  exact ofRatio?_of_near hx (Nat.pow_pos (by decide)) (hratio ▸ h) negative

/-- The shortest decimal of a float reads as the float, wherever its point is put. -/
theorem ofDecimal?_shortest (tie : Tie) (x : Double) {n : Nat} {e : Int}
    (h : (n * 10 ^ e : ℚ) = (x.shortest tie).digits * 10 ^ (x.shortest tie).exponent) :
    ofDecimal? x.negative n e = some x := by
  by_cases hx : x.rank = 0
  · have hshort : x.shortest tie = ⟨0, 0⟩ := if_pos hx
    have hn : n = 0 := by
      rw [hshort, Nat.cast_zero, zero_mul, mul_eq_zero] at h
      exact_mod_cast h.resolve_right (zpow_ne_zero e (by norm_num))
    obtain ⟨negative, r, hr⟩ := x
    cases hx
    simp only [ofDecimal?, hn, true_or, if_true]
  · exact ofDecimal?_of_near hx (h ▸ shortest_near tie hx) x.negative

end PromptTheme.Double
