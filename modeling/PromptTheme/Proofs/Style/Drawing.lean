/-
What a spec draws on a terminal. `Palette.readAll_encode_eq` says that both forms of escape sequences leave
a terminal, whatever attributes it had, with the same ones: the modifiers of the spec are on besides those
that were, and each layer has the last color of the spec that is known, or the one that it had.

One sequence for each token takes up the tokens from left to right. The one sequence for a whole spec
takes up what the tokens add up to, so the proof compares a fold over the tokens with what a fold from
nothing adds to the attributes in force.
-/
import PromptTheme.Proofs.Style.Record
import PromptTheme.Proofs.Terminal.Graphics

namespace PromptTheme

open Terminal

/-- The colors that the palette knows among those that a spec asks for on a layer, one after the other. -/
def Palette.knownColors (p : Palette) (layer : Layer) (spec : List Char) : List Color :=
  (StyleToken.ofSpec spec).filterMap fun t => (t.color? layer).bind p.resolve?

/-- The attributes `b` are what a spec makes of the attributes `a`: the modifiers that it names are on as
well, and each layer has the last color that the spec names and the palette knows. -/
structure Palette.Sets (p : Palette) (spec : List Char) (a b : Attributes) : Prop where
  modifiers : ∀ m, b.modifiers.has m = (a.modifiers.has m || decide (.modifier m ∈ StyleToken.ofSpec spec))
  colors : ∀ layer, b.color? layer = (p.knownColors layer spec).getLast?.or (a.color? layer)

namespace Attributes

/-! ## Tokens -/

variable (p : Palette)

theorem color?_empty (layer : Layer) : ({} : Attributes).color? layer = none := by
  cases layer <;> rfl

theorem color?_take (layer : Layer) (a : Attributes) (t : StyleToken) :
    (a.take p t).color? layer = ((t.color? layer).bind p.resolve?).or (a.color? layer) := by
  cases t with
  | modifier m => rfl
  | background c => cases layer <;> cases hc : p.resolve? c <;> simp [take, hc, StyleToken.color?, color?]
  | foreground c => cases layer <;> cases hc : p.resolve? c <;> simp [take, hc, StyleToken.color?, color?]

theorem has_take (m : Modifier) (a : Attributes) (t : StyleToken) :
    (a.take p t).modifiers.has m = (a.modifiers.has m || decide (t = .modifier m)) := by
  cases t with
  | modifier n =>
    simp only [take, Modifiers.has_add, StyleToken.modifier.injEq]
    rfl
  | background c => cases hc : p.resolve? c <;> simp [take, hc]
  | foreground c => cases hc : p.resolve? c <;> simp [take, hc]

/-- Taking up the tokens of a spec sets what the spec says. -/
theorem sets_foldl_take (spec : List Char) (a : Attributes) :
    p.Sets spec a ((StyleToken.ofSpec spec).foldl (take p) a) :=
  ⟨fun m => foldl_mem (fun a : Attributes => a.modifiers.has m) (has_take p m) _ _,
    fun layer => foldl_getLast? (fun a : Attributes => a.color? layer) (color?_take p layer) _ _⟩

theorem sets_ofSpec (spec : List Char) : p.Sets spec {} (ofSpec p spec) := sets_foldl_take p spec {}

/-! ## Sequences -/

theorem select_of_parameters? {t : StyleToken} {ps : List Nat} (h : t.parameters? p = some ps)
    (a : Attributes) : a.select ps = a.take p t := by
  cases t with
  | modifier m =>
    cases h
    exact select_modifier a m []
  | background c =>
    obtain ⟨color, hc, rfl⟩ := Option.map_eq_some_iff.1 h
    rw [select_parameters_nil, take, hc]
    rfl
  | foreground c =>
    obtain ⟨color, hc, rfl⟩ := Option.map_eq_some_iff.1 h
    rw [select_parameters_nil, take, hc]
    rfl

/-- A token that has no sequence sets nothing. -/
theorem take_of_parameters?_none {t : StyleToken} (h : t.parameters? p = none) (a : Attributes) :
    a.take p t = a := by
  cases t with
  | modifier m => cases h
  | background c => rw [take, Option.map_eq_none_iff.1 h]
  | foreground c => rw [take, Option.map_eq_none_iff.1 h]

theorem readAll_tokens (ts : List StyleToken) (a : Attributes) :
    State.readAll ⟨a, .text⟩ ((ts.filterMap (·.parameters? p)).flatMap Escape.sequence) =
      ⟨ts.foldl (take p) a, .text⟩ := by
  -- every sequence changes the attributes under which the next one is read
  induction ts generalizing a with
  | nil => rfl
  | cons t ts ih =>
    rw [List.foldl_cons]
    cases ht : t.parameters? p with
    | none => rw [List.filterMap_cons_none ht, ih, take_of_parameters?_none p ht]
    | some ps =>
      rw [List.filterMap_cons_some ht, List.flatMap_cons, State.readAll_append,
        State.readAll_sequence a (StyleToken.parameters?_spec ht).1, select_of_parameters? p ht, ih]

theorem select_modifiers (ms : List Modifier) (a : Attributes) (rest : List Nat) :
    a.select (ms.map (·.parameter) ++ rest) =
      { a with modifiers := ms.foldl Modifiers.add a.modifiers }.select rest := by
  induction ms generalizing a with
  | nil => rfl
  | cons m ms ih => rw [List.map_cons, List.cons_append, select_modifier, ih]; rfl

theorem select_color (c : Option Color) (layer : Layer) (a : Attributes) (rest : List Nat) :
    a.select (c.toList.flatMap (·.parameters layer) ++ rest) =
      (c.elim a fun color => a.paint color layer).select rest := by
  cases c with
  | none => rfl
  | some color =>
    rw [Option.toList_some, List.flatMap_singleton, select_parameters]
    rfl

/-- The parameters of attributes set their modifiers and colors over those in force. -/
theorem select_parameters_self (x a : Attributes) :
    a.select x.parameters =
      ⟨x.modifiers.toList.foldl Modifiers.add a.modifiers, x.background.or a.background,
        x.foreground.or a.foreground⟩ := by
  -- modifiers, ground and text stand side by side, and none of them reads on into the next
  rw [parameters, List.append_assoc, select_modifiers, select_color,
    ← List.append_nil (x.foreground.toList.flatMap _), select_color]
  cases x.background <;> cases x.foreground <;> rfl

theorem sets_select_parameters (spec : List Char) (a : Attributes) :
    p.Sets spec a (a.select (ofSpec p spec).parameters) := by
  obtain ⟨hm, hc⟩ := sets_ofSpec p spec
  rw [select_parameters_self]
  refine ⟨fun m => ?_, fun layer => ?_⟩
  · rw [Modifiers.has_foldl_add]
    simp only [Modifiers.mem_toList, hm m, Modifiers.has_empty, Bool.false_or, decide_eq_true_eq]
  · have hover : color? ⟨(ofSpec p spec).modifiers.toList.foldl Modifiers.add a.modifiers,
        (ofSpec p spec).background.or a.background, (ofSpec p spec).foreground.or a.foreground⟩ layer =
        ((ofSpec p spec).color? layer).or (a.color? layer) := by
      cases layer <;> rfl
    rw [hover, hc layer, color?_empty, Option.or_none]

/-! ## Nothing to draw -/

theorem eq_none_of_parameters {c : Option Color} {layer : Layer}
    (h : c.toList.flatMap (·.parameters layer) = []) : c = none := by
  cases c with
  | none => rfl
  | some color => exact absurd (by simpa using h) (color.parameters_ne_nil layer)

theorem parameters_eq_nil_iff {x : Attributes} : x.parameters = [] ↔ x = {} := by
  constructor
  · intro h
    simp only [parameters, List.append_eq_nil_iff, List.map_eq_nil_iff] at h
    obtain ⟨⟨hm, hg⟩, hf⟩ := h
    refine ext_color? (fun m => ?_) fun layer => ?_
    · rw [Modifiers.has_empty, ← Bool.not_eq_true, ← Modifiers.mem_toList, hm]
      exact List.not_mem_nil
    · cases layer with
      | foreground => exact eq_none_of_parameters hf
      | background => exact eq_none_of_parameters hg
  · rintro rfl
    rfl

theorem foldl_take_of_none {ts : List StyleToken} (h : ∀ t ∈ ts, t.parameters? p = none)
    (a : Attributes) : ts.foldl (take p) a = a := by
  induction ts with
  | nil => rfl
  | cons t ts ih =>
    rw [List.foldl_cons, take_of_parameters?_none p (h t (by simp))]
    exact ih fun u hu => h u (List.mem_cons_of_mem t hu)

/-- A token of a spec that sets nothing has no sequence. -/
theorem parameters?_of_sets_nothing {spec : List Char} (h : p.Sets spec {} {}) {t : StyleToken}
    (ht : t ∈ StyleToken.ofSpec spec) : t.parameters? p = none := by
  have hunknown (layer : Layer) : (t.color? layer).bind p.resolve? = none := by
    have hlast := h.colors layer
    rw [color?_empty, Option.or_none] at hlast
    exact List.filterMap_eq_nil_iff.1 (List.getLast?_eq_none_iff.1 hlast.symm) t ht
  cases t with
  | modifier m =>
    have hm := h.modifiers m
    rw [Modifiers.has_empty, Bool.false_or] at hm
    exact absurd ht (by simpa using hm.symm)
  | background c =>
    have hc : p.resolve? c = none := hunknown .background
    rw [StyleToken.parameters?, hc, Option.map_none]
  | foreground c =>
    have hc : p.resolve? c = none := hunknown .foreground
    rw [StyleToken.parameters?, hc, Option.map_none]

/-- A spec sets something as soon as one of its tokens has a sequence. -/
theorem ofSpec_eq_empty_iff (spec : List Char) :
    ofSpec p spec = {} ↔ ∀ t ∈ StyleToken.ofSpec spec, t.parameters? p = none := by
  constructor
  · intro h t ht
    have hs := sets_ofSpec p spec
    rw [h] at hs
    exact parameters?_of_sets_nothing p hs ht
  · intro h
    exact foldl_take_of_none p h {}

end Attributes

namespace Palette

theorem encodeJoined_eq_nil_iff (p : Palette) (spec : List Char) :
    p.encodeJoined spec = [] ↔ ∀ t ∈ StyleToken.ofSpec spec, t.parameters? p = none := by
  rw [← Attributes.ofSpec_eq_empty_iff, ← Attributes.parameters_eq_nil_iff, encodeJoined]
  split
  · rename_i h
    simpa using h
  · rename_i h
    simpa [Escape.sequence] using h

theorem encode_eq_nil_iff (p : Palette) (spec : List Char) :
    p.encode spec = [] ↔ ∀ t ∈ StyleToken.ofSpec spec, t.parameters? p = none := by
  rw [encode, ← List.filterMap_eq_nil_iff]
  cases (StyleToken.ofSpec spec).filterMap (·.parameters? p) with
  | nil => simp
  | cons ps pss => simp [Escape.sequence]

theorem readAll_encode (p : Palette) (spec : List Char) (a : Attributes) :
    State.readAll ⟨a, .text⟩ (p.encode spec) =
      ⟨(StyleToken.ofSpec spec).foldl (Attributes.take p) a, .text⟩ :=
  Attributes.readAll_tokens p _ a

theorem readAll_encodeJoined (p : Palette) (spec : List Char) (a : Attributes) :
    State.readAll ⟨a, .text⟩ (p.encodeJoined spec) =
      ⟨a.select (Attributes.ofSpec p spec).parameters, .text⟩ := by
  rw [encodeJoined]
  split
  · rename_i h
    rw [List.isEmpty_iff.1 h]
    rfl
  · rename_i h
    exact State.readAll_sequence a (by simpa using h)

/-- The joined form is nothing, or one complete sequence. -/
theorem encodeJoined_eq_nil_or (p : Palette) (spec : List Char) :
    p.encodeJoined spec = [] ∨ ∃ numbers, numbers ≠ [] ∧ (∀ n ∈ numbers, Escape.IsNumber n) ∧
      p.encodeJoined spec = Escape.esc :: Escape.body numbers := by
  rw [encodeJoined]
  split
  · exact .inl rfl
  · rename_i h
    refine .inr ⟨_, ?_, ?_, Escape.sequence_eq _⟩
    · simpa using h
    · intro n hn
      obtain ⟨k, -, rfl⟩ := List.mem_map.1 hn
      exact Escape.isNumber_toString k

/-- A spec makes one thing of attributes only. -/
theorem Sets.unique {p : Palette} {spec : List Char} {a b c : Attributes}
    (hb : p.Sets spec a b) (hc : p.Sets spec a c) : b = c :=
  Attributes.ext_color? (fun m => (hb.modifiers m).trans (hc.modifiers m).symm)
    fun layer => (hb.colors layer).trans (hc.colors layer).symm

/-- Both forms leave a terminal with the same attributes, which are those that the spec sets over the
attributes that were in force. The joined form is nothing or one complete sequence, and it is nothing
exactly when the other form is. -/
theorem readAll_encode_eq (p : Palette) (spec : List Char) (a : Attributes) :
    ∃ b : Attributes, p.Sets spec a b ∧
      State.readAll ⟨a, .text⟩ (p.encode spec) = ⟨b, .text⟩ ∧
      State.readAll ⟨a, .text⟩ (p.encodeJoined spec) = ⟨b, .text⟩ ∧
      (p.encodeJoined spec = [] ∨ ∃ numbers, numbers ≠ [] ∧ (∀ n ∈ numbers, Escape.IsNumber n) ∧
        p.encodeJoined spec = Escape.esc :: Escape.body numbers) ∧
      (p.encodeJoined spec = [] ↔ p.encode spec = []) := by
  have hsame := (Attributes.sets_select_parameters p spec a).unique (Attributes.sets_foldl_take p spec a)
  refine ⟨_, Attributes.sets_foldl_take p spec a, readAll_encode p spec a, ?_, ?_, ?_⟩
  · rw [readAll_encodeJoined, hsame]
  · exact encodeJoined_eq_nil_or p spec
  · rw [encodeJoined_eq_nil_iff, encode_eq_nil_iff]

end Palette

end PromptTheme
