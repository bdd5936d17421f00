/-
Texts with escape sequences in them. `Escape.Intact` says that every ESC of a text begins a complete
sequence. `Escape.Woven` says how such texts come about, one character or one sequence of short numbers
after the other, and it is what the proofs carry along: woven texts can be joined, and they can be cut
at a character that occurs in no sequence. What a palette encodes is woven.
-/
import PromptTheme.Style.Escape
import Mathlib.Tactic

namespace PromptTheme

namespace Escape

/-! ## Sequences -/

/-- A number of a sequence: digits, at least one. -/
def IsNumber (n : List Char) : Prop := n ≠ [] ∧ ∀ c ∈ n, c.isDigit = true

/-- What stands behind ESC in a sequence: a bracket, numbers with semicolons between them, and `m`. -/
def body (numbers : List (List Char)) : List Char := '[' :: ([';'].intercalate numbers ++ ['m'])

/-- Every ESC of a text is the first character of a complete sequence. -/
def Intact (s : List Char) : Prop :=
  ∀ before after, s = before ++ esc :: after →
    ∃ numbers rest, numbers ≠ [] ∧ (∀ n ∈ numbers, IsNumber n) ∧ after = body numbers ++ rest

/-- Characters other than ESC, and complete sequences whose numbers have at most four digits. -/
inductive Woven : List Char → Prop where
  | nil : Woven []
  | char {c : Char} {s : List Char} : c ≠ esc → Woven s → Woven (c :: s)
  | sequence {numbers : List (List Char)} {s : List Char} : numbers ≠ [] →
      (∀ n ∈ numbers, IsNumber n ∧ n.length ≤ 4) → Woven s → Woven (esc :: (body numbers ++ s))

theorem mem_intercalate {sep : List Char} {parts : List (List Char)} {c : Char}
    (h : c ∈ sep.intercalate parts) : c ∈ sep ∨ ∃ n ∈ parts, c ∈ n := by
  induction parts with
  | nil => simp at h
  | cons n rest ih =>
    cases rest with
    | nil =>
      rw [List.intercalate_singleton] at h
      exact .inr ⟨n, by simp, h⟩
    | cons m rest =>
      rw [List.intercalate_cons_cons, List.mem_append, List.mem_append] at h
      rcases h with (h | h) | h
      · exact .inr ⟨n, by simp, h⟩
      · exact .inl h
      · rcases ih h with h | ⟨k, hk, h⟩
        · exact .inl h
        · exact .inr ⟨k, List.mem_cons_of_mem _ hk, h⟩

/-- Behind the bracket of a sequence stand semicolons, digits, and its final letter. -/
theorem mem_behind_bracket {numbers : List (List Char)} (hn : ∀ n ∈ numbers, IsNumber n) {c : Char}
    (h : c ∈ [';'].intercalate numbers ++ ['m']) : c = ';' ∨ c = 'm' ∨ c.isDigit = true := by
  rw [List.mem_append, List.mem_singleton] at h
  rcases h with h | h
  · rcases mem_intercalate h with h | ⟨n, hm, h⟩
    · exact .inl (List.mem_singleton.1 h)
    · exact .inr (.inr ((hn n hm).2 c h))
  · exact .inr (.inl h)

/-- A character that may stand in no sequence. -/
def Outside (c : Char) : Prop := c ≠ esc ∧ c ≠ '[' ∧ c ≠ ';' ∧ c ≠ 'm' ∧ c.isDigit = false

instance (c : Char) : Decidable (Outside c) := by unfold Outside; infer_instance

theorem Outside.not_mem_body {c : Char} (hc : Outside c) {numbers : List (List Char)}
    (hn : ∀ n ∈ numbers, IsNumber n) : c ∉ body numbers := by
  obtain ⟨-, h1, h2, h3, h4⟩ := hc
  rw [body, List.mem_cons, not_or]
  refine ⟨h1, fun h => ?_⟩
  rcases mem_behind_bracket hn h with h | h | h
  · exact h2 h
  · exact h3 h
  · rw [h4] at h; cases h

theorem esc_not_mem_body {numbers : List (List Char)} (hn : ∀ n ∈ numbers, IsNumber n) :
    esc ∉ body numbers := by
  rw [body, List.mem_cons, not_or]
  refine ⟨by decide, fun h => ?_⟩
  rcases mem_behind_bracket hn h with h | h | h <;> revert h <;> decide

theorem open_not_mem_behind_bracket {numbers : List (List Char)} (hn : ∀ n ∈ numbers, IsNumber n) :
    '[' ∉ [';'].intercalate numbers ++ ['m'] := by
  intro h
  rcases mem_behind_bracket hn h with h | h | h <;> revert h <;> decide

/-- The first number of a sequence begins right behind the bracket. -/
theorem body_eq_cons {numbers : List (List Char)} (hne : numbers ≠ []) (hn : ∀ n ∈ numbers, IsNumber n) :
    ∃ d rest, d.isDigit = true ∧ body numbers = '[' :: d :: rest := by
  cases numbers with
  | nil => exact absurd rfl hne
  | cons n rest =>
    obtain ⟨hne, hd⟩ := hn n (by simp)
    cases n with
    | nil => exact absurd rfl hne
    | cons d ds =>
      refine ⟨d, ?_⟩
      cases rest with
      | nil => exact ⟨_, hd d (by simp), by rw [body, List.intercalate_singleton]; rfl⟩
      | cons m rest => exact ⟨_, hd d (by simp), by rw [body, List.intercalate_cons_cons]; rfl⟩

/-! ## Woven texts -/

/-- A character that is not in a first part is found in the second. -/
theorem eq_append_of_not_mem {a u s t : List Char} {c : Char} (h : a ++ u = s ++ c :: t) (hc : c ∉ a) :
    ∃ x, s = a ++ x ∧ u = x ++ c :: t := by
  rcases List.append_eq_append_iff.1 h with ⟨x, hs, hu⟩ | ⟨x, ha, hu⟩
  · exact ⟨x, hs, hu⟩
  · cases x with
    | nil => exact ⟨[], by simpa using ha.symm, by simpa using hu.symm⟩
    | cons d x =>
      rw [List.cons_append] at hu
      cases hu
      exact absurd (by rw [ha]; simp) hc

theorem woven_of_not_mem {s : List Char} (h : esc ∉ s) : Woven s := by
  induction s with
  | nil => exact .nil
  | cons c s ih =>
    rw [List.mem_cons, not_or] at h
    exact .char (Ne.symm h.1) (ih h.2)

theorem Woven.append {s t : List Char} (hs : Woven s) (ht : Woven t) : Woven (s ++ t) := by
  induction hs with
  | nil => exact ht
  | char hc _ ih => exact .char hc ih
  | sequence hne hn _ ih =>
    rw [List.cons_append, List.append_assoc]
    exact .sequence hne hn ih

/-- A woven text falls apart at a character that may stand in no sequence. -/
theorem Woven.split {u : List Char} (h : Woven u) : ∀ {s t : List Char} {c : Char}, Outside c →
    u = s ++ c :: t → Woven s ∧ Woven t := by
  induction h with
  | nil => intro s t c _ hu; cases s <;> cases hu
  | char hc hw ih =>
    intro s t c ho hu
    cases s with
    | nil => cases hu; exact ⟨.nil, hw⟩
    | cons d s =>
      cases hu
      obtain ⟨h1, h2⟩ := ih ho rfl
      exact ⟨.char hc h1, h2⟩
  | sequence hne hn _ ih =>
    intro s t c ho hu
    cases s with
    | nil => exact absurd (List.cons.inj hu).1.symm ho.1
    | cons d s =>
      rw [List.cons_append] at hu
      obtain ⟨rfl, hu'⟩ := List.cons.inj hu
      obtain ⟨x, rfl, hx⟩ := eq_append_of_not_mem hu' (ho.not_mem_body fun n hm => (hn n hm).1)
      obtain ⟨h1, h2⟩ := ih ho hx
      exact ⟨.sequence hne hn h1, h2⟩

theorem Woven.intact {s : List Char} (h : Woven s) : Intact s := by
  induction h with
  | nil => intro before after hs; cases before <;> cases hs
  | char hc _ ih =>
    intro before after hs
    cases before with
    | nil => cases hs; exact absurd rfl hc
    | cons d before => cases hs; exact ih before after rfl
  | @sequence numbers s hne hn _ ih =>
    intro before after hs
    have hn' : ∀ n ∈ numbers, IsNumber n := fun n hm => (hn n hm).1
    cases before with
    | nil => exact ⟨numbers, s, hne, hn', (List.cons.inj hs).2.symm⟩
    | cons d before =>
      rw [List.cons_append] at hs
      have hs := (List.cons.inj hs).2
      obtain ⟨x, -, hx⟩ := eq_append_of_not_mem hs (esc_not_mem_body hn')
      exact ih x after hx

theorem Woven.of_cons {c : Char} {s : List Char} (hc : c ≠ esc) (h : Woven (c :: s)) : Woven s := by
  generalize hu : c :: s = u at h
  cases h with
  | nil => cases hu
  | char _ hw => rw [(List.cons.inj hu).2]; exact hw
  | sequence => exact absurd (List.cons.inj hu).1 hc

/-- A woven text falls apart behind characters that are no ESC. -/
theorem Woven.of_append {a b : List Char} (ha : esc ∉ a) (h : Woven (a ++ b)) : Woven b := by
  induction a with
  | nil => exact h
  | cons c a ih =>
    rw [List.mem_cons, not_or] at ha
    exact ih ha.2 (Woven.of_cons (Ne.symm ha.1) h)

/-! ## Sequences that set attributes -/

/-- Sequences one after the other, each of them with parameters that fit into a byte. -/
def Encoded (s : List Char) : Prop :=
  ∃ pss : List (List Nat), (∀ ps ∈ pss, ps ≠ [] ∧ ∀ n ∈ ps, n < 256) ∧ s = pss.flatMap sequence

theorem sequence_eq (ps : List Nat) :
    sequence ps = esc :: body (ps.map fun n => (toString n).toList) := rfl

theorem isNumber_toString (n : Nat) : IsNumber (toString n).toList := by
  rw [Nat.toString_eq_ofList_toDigits, String.toList_ofList]
  exact ⟨Nat.toDigits_ne_nil, fun c hc => Nat.isDigit_of_mem_toDigits (by decide) (by decide) hc⟩

theorem length_toString_le {n : Nat} (h : n < 256) : (toString n).toList.length ≤ 4 := by
  rw [Nat.toString_eq_ofList_toDigits, String.toList_ofList,
    Nat.length_toDigits_le_iff (by decide) (by decide)]
  omega

/-- Parameters that fit into a byte are written as short numbers. -/
theorem short_of_mem_map {ps : List Nat} (h : ∀ n ∈ ps, n < 256) :
    ∀ t ∈ ps.map fun n => (toString n).toList, IsNumber t ∧ t.length ≤ 4 := by
  intro t ht
  obtain ⟨n, hn, rfl⟩ := List.mem_map.1 ht
  exact ⟨isNumber_toString n, length_toString_le (h n hn)⟩

theorem woven_sequence {ps : List Nat} (hne : ps ≠ []) (h : ∀ n ∈ ps, n < 256) {s : List Char}
    (hs : Woven s) : Woven (sequence ps ++ s) := by
  rw [sequence_eq, List.cons_append]
  exact .sequence (mt List.map_eq_nil_iff.1 hne) (short_of_mem_map h) hs

theorem Encoded.woven {s : List Char} (h : Encoded s) : Woven s := by
  obtain ⟨pss, hp, rfl⟩ := h
  induction pss with
  | nil => exact .nil
  | cons ps rest ih =>
    obtain ⟨hne, hlt⟩ := hp ps (by simp)
    rw [List.flatMap_cons]
    exact woven_sequence hne hlt (ih fun q hq => hp q (List.mem_cons_of_mem _ hq))

theorem Encoded.reset : Encoded reset := ⟨[[0]], by decide, by decide⟩

/-- Sequences begin with ESC and a bracket, if there are any. -/
theorem Encoded.eq_nil_or {s : List Char} (h : Encoded s) : s = [] ∨ ∃ rest, s = esc :: '[' :: rest := by
  obtain ⟨pss, -, rfl⟩ := h
  cases pss with
  | nil => exact .inl rfl
  | cons ps rest => exact .inr ⟨_, rfl⟩

theorem Encoded.not_mem {s : List Char} (h : Encoded s) {c : Char} (hc : Outside c) : c ∉ s := by
  obtain ⟨pss, -, rfl⟩ := h
  intro hm
  obtain ⟨ps, -, hm⟩ := List.mem_flatMap.1 hm
  rw [sequence_eq, List.mem_cons] at hm
  rcases hm with hm | hm
  · exact hc.1 hm
  · refine hc.not_mem_body ?_ hm
    intro t ht
    obtain ⟨n, -, rfl⟩ := List.mem_map.1 ht
    exact isNumber_toString n

end Escape

/-! ## What a palette encodes -/

theorem Modifier.parameter_lt (m : Modifier) : m.parameter < 256 := by
  cases m <;> decide

theorem NamedColor.index_le (c : NamedColor) : c.index ≤ 7 := by
  cases c <;> decide

theorem Color.parameters_ne_nil (layer : Layer) (c : Color) : c.parameters layer ≠ [] := by
  cases c <;> simp [Color.parameters]

theorem Color.parameters_lt (layer : Layer) (c : Color) : ∀ n ∈ c.parameters layer, n < 256 := by
  intro n hn
  cases c with
  | named c =>
    have := c.index_le
    cases layer <;> simp [Color.parameters] at hn <;> omega
  | bright c =>
    have := c.index_le
    cases layer <;> simp [Color.parameters] at hn <;> omega
  | rgb c =>
    have hr := c.red.toNat_lt
    have hg := c.green.toNat_lt
    have hb := c.blue.toNat_lt
    cases layer <;> simp [Color.parameters] at hn <;> omega

theorem StyleToken.parameters?_spec {p : Palette} {t : StyleToken} {ps : List Nat}
    (h : t.parameters? p = some ps) : ps ≠ [] ∧ ∀ n ∈ ps, n < 256 := by
  cases t with
  | modifier m =>
    cases h
    exact ⟨by simp, by simpa using m.parameter_lt⟩
  | background c =>
    obtain ⟨color, -, rfl⟩ := Option.map_eq_some_iff.1 h
    exact ⟨color.parameters_ne_nil _, color.parameters_lt _⟩
  | foreground c =>
    obtain ⟨color, -, rfl⟩ := Option.map_eq_some_iff.1 h
    exact ⟨color.parameters_ne_nil _, color.parameters_lt _⟩

theorem Attributes.parameters_lt (a : Attributes) : ∀ n ∈ a.parameters, n < 256 := by
  intro n hn
  simp only [Attributes.parameters, List.mem_append, List.mem_map, List.mem_flatMap] at hn
  rcases hn with (⟨m, -, rfl⟩ | ⟨c, -, hn⟩) | ⟨c, -, hn⟩
  · exact m.parameter_lt
  · exact c.parameters_lt _ n hn
  · exact c.parameters_lt _ n hn

/-- In both forms a spec is encoded as sequences that set attributes. -/
theorem Palette.encoded_encodeWith (p : Palette) (mode : EscapeMode) (spec : List Char) :
    Escape.Encoded (p.encodeWith mode spec) := by
  cases mode with
  | joined =>
    show Escape.Encoded (p.encodeJoined spec)
    unfold Palette.encodeJoined
    dsimp only
    split
    · exact ⟨[], by simp, rfl⟩
    · rename_i hne
      refine ⟨[(Attributes.ofSpec p spec).parameters], ?_, by simp⟩
      intro ps hps
      rw [List.mem_singleton] at hps
      subst hps
      exact ⟨by simpa using hne, Attributes.parameters_lt _⟩
  | perToken =>
    refine ⟨(StyleToken.ofSpec spec).filterMap (·.parameters? p), ?_, rfl⟩
    intro ps hps
    obtain ⟨t, -, ht⟩ := List.mem_filterMap.1 hps
    exact StyleToken.parameters?_spec ht

end PromptTheme
