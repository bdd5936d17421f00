/-
Comparison and search that ignore the case of ASCII letters, heads and occurrences of a pattern in
a text, and padding.
-/

namespace PromptTheme.Text

/-- What holds of the first 128 characters holds of every ASCII character. -/
theorem forall_ascii {p : Char → Prop} (h : ∀ n < 128, p (Char.ofNat n)) {c : Char} (hc : c.toNat < 128) :
    p c := by
  have hn := h c.toNat hc
  rwa [Char.ofNat_toNat] at hn

/-- An ASCII capital made small; any other character as it is. -/
def lower (c : Char) : Char := c.toLower

/-- Equality up to the case of ASCII letters. -/
def sameLetters : List Char → List Char → Bool
  | [], [] => true
  | a :: as, b :: bs => lower a == lower b && sameLetters as bs
  | _, _ => false

theorem sameLetters_iff {s t : List Char} : sameLetters s t = true ↔ s.map lower = t.map lower := by
  induction s generalizing t with
  | nil => cases t <;> simp [sameLetters]
  | cons a as ih => cases t <;> simp [sameLetters, ih]

/-- What follows `head` at the front of the text. -/
def afterHead? : List Char → List Char → Option (List Char)
  | [], s => some s
  | _ :: _, [] => none
  | a :: as, b :: bs => if a = b then afterHead? as bs else none

/-- What follows `head` at the front of the text, up to the case of ASCII letters. -/
def afterHeadAnyCase? : List Char → List Char → Option (List Char)
  | [], s => some s
  | _ :: _, [] => none
  | a :: as, b :: bs => if lower a = lower b then afterHeadAnyCase? as bs else none

theorem afterHead?_eq_some_iff {head s rest : List Char} :
    afterHead? head s = some rest ↔ s = head ++ rest := by
  induction head generalizing s with
  | nil => simp [afterHead?, eq_comm]
  | cons a as ih =>
    cases s with
    | nil => simp [afterHead?]
    | cons b bs =>
      by_cases h : a = b
      · subst h; simp [afterHead?, ih]
      · simp [afterHead?, h, Ne.symm h]

/-- A text goes on behind a head when it begins with the same letters. -/
theorem afterHeadAnyCase?_eq_some_iff {head s rest : List Char} : afterHeadAnyCase? head s = some rest ↔
    ∃ front, s = front ++ rest ∧ head.map lower = front.map lower := by
  induction head generalizing s with
  | nil => simp [afterHeadAnyCase?, eq_comm]
  | cons a as ih =>
    cases s with
    | nil => simp [afterHeadAnyCase?]
    | cons b bs =>
      rw [afterHeadAnyCase?]
      constructor
      · intro h
        split at h
        · rename_i hletter
          obtain ⟨front, rfl, hfront⟩ := ih.1 h
          exact ⟨b :: front, rfl, by rw [List.map_cons, List.map_cons, hletter, hfront]⟩
        · cases h
      · rintro ⟨front, hs, hfront⟩
        cases front with
        | nil => cases hfront
        | cons d front =>
          obtain ⟨rfl, rfl⟩ := List.cons.inj hs
          obtain ⟨hletter, hfront⟩ := List.cons.inj hfront
          rw [if_pos hletter]
          exact ih.2 ⟨front, rfl, hfront⟩

theorem afterHeadAnyCase?_append (head s : List Char) : afterHeadAnyCase? head (head ++ s) = some s :=
  afterHeadAnyCase?_eq_some_iff.2 ⟨head, rfl, rfl⟩

/-- What follows a head ends the text. -/
theorem suffix_of_afterHeadAnyCase? {head s rest : List Char}
    (h : afterHeadAnyCase? head s = some rest) : rest <:+ s := by
  obtain ⟨front, rfl, -⟩ := afterHeadAnyCase?_eq_some_iff.1 h
  exact List.suffix_append front rest

/-- What follows the first occurrence of `pattern`. -/
def afterFirst? (pattern : List Char) : List Char → Option (List Char)
  | [] => if pattern.isEmpty then some [] else none
  | c :: rest =>
    match afterHead? pattern (c :: rest) with
    | some after => some after
    | none => afterFirst? pattern rest

/-- A text is cut behind the first occurrence of a pattern. -/
theorem afterFirst?_eq_some_iff {pattern s rest : List Char} : afterFirst? pattern s = some rest ↔
    ∃ before, s = before ++ (pattern ++ rest) ∧
      ∀ before' rest', s = before' ++ (pattern ++ rest') → before.length ≤ before'.length := by
  induction s with
  | nil =>
    rw [afterFirst?]
    cases pattern with
    | nil =>
      constructor
      · intro h
        cases h
        exact ⟨[], rfl, fun _ _ _ => Nat.zero_le _⟩
      · rintro ⟨before, hs, -⟩
        obtain rfl : rest = [] := (List.nil_eq_append_iff.1 hs).2
        rfl
    | cons p pattern => simp
  | cons c s ih =>
    rw [afterFirst?]
    cases hhead : afterHead? pattern (c :: s) with
    | some after =>
      rw [afterHead?_eq_some_iff] at hhead
      constructor
      · intro h
        cases h
        exact ⟨[], hhead, fun _ _ _ => Nat.zero_le _⟩
      · rintro ⟨before, hs, hfirst⟩
        obtain rfl := List.length_eq_zero_iff.1 (Nat.le_zero.1 (hfirst [] after hhead))
        exact congrArg some (List.append_cancel_left (hhead.symm.trans hs))
    | none =>
      -- none of the occurrences is at the front
      have hlater : ∀ before behind, c :: s = before ++ (pattern ++ behind) →
          ∃ front, before = c :: front ∧ s = front ++ (pattern ++ behind) := by
        intro before behind hs
        cases before with
        | nil =>
          have hfront : afterHead? pattern (c :: s) = some behind := afterHead?_eq_some_iff.2 hs
          rw [hfront] at hhead
          cases hhead
        | cons d front =>
          obtain ⟨rfl, htail⟩ := List.cons.inj hs
          exact ⟨front, rfl, htail⟩
      show afterFirst? pattern s = some rest ↔ _
      rw [ih]
      constructor
      · rintro ⟨before, rfl, hfirst⟩
        refine ⟨c :: before, rfl, fun before' rest' hs => ?_⟩
        obtain ⟨front, rfl, htail⟩ := hlater before' rest' hs
        exact Nat.succ_le_succ (hfirst front rest' htail)
      · rintro ⟨before, hs, hfirst⟩
        obtain ⟨front, rfl, htail⟩ := hlater before rest hs
        refine ⟨front, htail, fun before' rest' hs' => ?_⟩
        exact Nat.le_of_succ_le_succ (hfirst (c :: before') rest' (congrArg (c :: ·) hs'))

/-- `pattern` occurs in the text. -/
def contains (pattern s : List Char) : Bool := (afterFirst? pattern s).isSome

theorem contains_iff {pattern s : List Char} : contains pattern s = true ↔ pattern <:+: s := by
  unfold contains
  induction s with
  | nil =>
    rw [afterFirst?, List.infix_nil]
    cases pattern <;> simp
  | cons c rest ih =>
    rw [afterFirst?, List.infix_cons_iff, ← ih]
    cases hhead : afterHead? pattern (c :: rest) with
    | some after => simp [afterHead?_eq_some_iff.1 hhead]
    | none =>
      have hnot : ¬ pattern <+: c :: rest := by
        rintro ⟨after, hafter⟩
        rw [afterHead?_eq_some_iff.2 hafter.symm] at hhead
        cases hhead
      simp [hnot]

/-- `pattern` occurs in the text up to the case of ASCII letters. -/
def containsAnyCase (pattern : List Char) : List Char → Bool
  | [] => pattern.isEmpty
  | c :: rest => (afterHeadAnyCase? pattern (c :: rest)).isSome || containsAnyCase pattern rest

/-- Fills up with spaces on the right. -/
def padRight (width : Nat) (s : String) : String :=
  s ++ String.ofList (List.replicate (width - s.length) ' ')

/-- The value of a hexadecimal digit. -/
def hexValue? (c : Char) : Option Nat :=
  if '0' ≤ c ∧ c ≤ '9' then some (c.toNat - '0'.toNat)
  else if 'a' ≤ c ∧ c ≤ 'f' then some (c.toNat - 'a'.toNat + 10)
  else if 'A' ≤ c ∧ c ≤ 'F' then some (c.toNat - 'A'.toNat + 10)
  else none

/-- The small hexadecimal digit of a number below sixteen. -/
def hexDigit (n : Nat) : Char :=
  if n < 10 then Char.ofNat ('0'.toNat + n) else Char.ofNat ('a'.toNat + (n - 10))

/-- The number written by the given digits in the given base; none if one of them is no digit. -/
def digitsValue? (base : Nat) (ds : List Char) : Option Nat :=
  ds.foldlM (fun n c => do
    let d ← hexValue? c
    if d < base then some (n * base + d) else none) 0

end PromptTheme.Text
