/-
Records and the specs that write them. `StyleRecord.decode_compose_iff` says which records a spec can
hold: those whose colors are neither empty nor interrupted by blanks, whatever they read as otherwise.
Reading a spec gives such a record, so a spec that was written once is read back as it was.

The spec of such a record has exactly the tokens of the record (`StyleRecord.ofSpec_compose`), and a
record read from tokens has the last color of each layer.
-/
import PromptTheme.Style.Spec

namespace PromptTheme

/-! ## Folds in which the last one wins -/

section Folds

variable {σ τ β : Type} {f : σ → τ → σ}

/-- Where every step may set something anew, the last one that does is what counts. -/
theorem foldl_getLast? (view : σ → Option β) {new : τ → Option β}
    (h : ∀ s t, view (f s t) = (new t).or (view s)) (ts : List τ) (s : σ) :
    view (ts.foldl f s) = (ts.filterMap new).getLast?.or (view s) := by
  induction ts generalizing s with
  | nil => simp
  | cons t ts ih =>
    rw [List.foldl_cons, ih, h]
    cases hn : new t with
    | none => simp [hn]
    | some b =>
      -- it counts unless a later step sets something again
      rw [List.filterMap_cons_some hn, List.getLast?_cons]
      cases (ts.filterMap new).getLast? <;> rfl

/-- Where one thing switches something on, that it occurs is enough. -/
theorem foldl_mem [DecidableEq τ] (view : σ → Bool) {x : τ}
    (h : ∀ s t, view (f s t) = (view s || decide (t = x))) (ts : List τ) (s : σ) :
    view (ts.foldl f s) = (view s || decide (x ∈ ts)) := by
  induction ts generalizing s with
  | nil => simp
  | cons t ts ih =>
    rw [List.foldl_cons, ih, h, Bool.or_assoc, ← Bool.decide_or]
    simp only [List.mem_cons, eq_comm]

end Folds

/-! ## Words and tokens -/

namespace StyleToken

/-- The text of a color for a layer. -/
def color? (layer : Layer) : StyleToken → Option (List Char)
  | .modifier _ => none
  | .background c => if layer = .background then some c else none
  | .foreground c => if layer = .foreground then some c else none

theorem classify_name (m : Modifier) : classify m.name.toList = .modifier m := by
  cases m <;> decide

/-- No modifier has a colon for its third letter. -/
theorem ofToken?_colon (a b : Char) (c : List Char) : Modifier.ofToken? (a :: b :: ':' :: c) = none := by
  simp +decide [Modifier.ofToken?, Modifier.all, Modifier.name, Text.sameLetters]

theorem classify_background (c : List Char) : classify ("bg:".toList ++ c) = .background c := by
  have hm : Modifier.ofToken? ("bg:".toList ++ c) = none := ofToken?_colon 'b' 'g' c
  rw [classify, hm, Text.afterHeadAnyCase?_append]

theorem classify_foreground (c : List Char) : classify ("fg:".toList ++ c) = .foreground c := by
  have hm : Modifier.ofToken? ("fg:".toList ++ c) = none := ofToken?_colon 'f' 'g' c
  have hb : Text.afterHeadAnyCase? "bg:".toList ("fg:".toList ++ c) = none := by
    simp [Text.afterHeadAnyCase?]
    decide
  rw [classify, hm, hb, Text.afterHeadAnyCase?_append]

theorem eq_of_color? {layer : Layer} {t : StyleToken} {c : List Char} (h : t.color? layer = some c) :
    t = .background c ∨ t = .foreground c := by
  cases t with
  | modifier m => cases h
  | background d =>
    simp only [color?, Option.ite_none_right_eq_some, Option.some.injEq] at h
    exact .inl (h.2 ▸ rfl)
  | foreground d =>
    simp only [color?, Option.ite_none_right_eq_some, Option.some.injEq] at h
    exact .inr (h.2 ▸ rfl)

/-- The text of a color is the end of its word. -/
theorem suffix_of_color? {layer : Layer} {w c : List Char} (h : (classify w).color? layer = some c) :
    c <:+ w := by
  have hcolor := eq_of_color? h
  unfold classify at hcolor
  split at hcolor
  · rcases hcolor with hcolor | hcolor <;> cases hcolor
  · split at hcolor
    · rename_i rest hhead
      have hrest : rest = c := by simpa using hcolor
      exact hrest ▸ Text.suffix_of_afterHeadAnyCase? hhead
    · split at hcolor
      · rename_i rest hhead
        have hrest : rest = c := by simpa using hcolor
        exact hrest ▸ Text.suffix_of_afterHeadAnyCase? hhead
      · -- a word without a head is a color as a whole
        have hword : w = c := by simpa using hcolor
        exact hword ▸ List.suffix_rfl

end StyleToken

namespace StyleRecord

theorem classify_foregroundWord (c : List Char) :
    StyleToken.classify (foregroundWord c) = .foreground c := by
  unfold foregroundWord
  split
  · assumption
  · exact StyleToken.classify_foreground c

/-! ## What a record has on a layer -/

def text? (r : StyleRecord) : Layer → Option String
  | .foreground => r.foreground
  | .background => r.background

/-- The text that a token writes on a layer; an empty one writes nothing. -/
def written? (layer : Layer) (t : StyleToken) : Option String :=
  (t.color? layer).bind fun c => if c.isEmpty then none else some (String.ofList c)

/-- The texts that a spec writes on a layer, one after the other. -/
def writtenTexts (layer : Layer) (spec : List Char) : List String :=
  (StyleToken.ofSpec spec).filterMap (written? layer)

theorem ext_text? {r r' : StyleRecord} (hm : ∀ m, r.modifiers.has m = r'.modifiers.has m)
    (hc : ∀ layer, r.text? layer = r'.text? layer) : r = r' := by
  have hg : r.background = r'.background := hc .background
  have hf : r.foreground = r'.foreground := hc .foreground
  obtain ⟨_, _, _⟩ := r
  obtain ⟨_, _, _⟩ := r'
  rw [mk.injEq]
  exact ⟨Modifiers.ext_has hm, hg, hf⟩

theorem text?_take (layer : Layer) (r : StyleRecord) (t : StyleToken) :
    (r.take t).text? layer = (written? layer t).or (r.text? layer) := by
  cases t with
  | modifier m => cases layer <;> rfl
  | background c => cases layer <;> cases c <;> rfl
  | foreground c => cases layer <;> cases c <;> rfl

theorem has_take (m : Modifier) (r : StyleRecord) (t : StyleToken) :
    (r.take t).modifiers.has m = (r.modifiers.has m || decide (t = .modifier m)) := by
  cases t with
  | modifier n =>
    simp only [take, Modifiers.has_add, StyleToken.modifier.injEq]
    rfl
  | background c => cases c <;> simp [take]
  | foreground c => cases c <;> simp [take]

/-- A spec is read as the last text that it writes on each layer. -/
theorem text?_decode (layer : Layer) (spec : List Char) :
    (decode spec).text? layer = (writtenTexts layer spec).getLast? := by
  refine (foldl_getLast? (fun r : StyleRecord => r.text? layer) (text?_take layer) _ _).trans ?_
  cases layer <;> exact Option.or_none

theorem has_decode (m : Modifier) (spec : List Char) :
    (decode spec).modifiers.has m = decide (.modifier m ∈ StyleToken.ofSpec spec) := by
  refine (foldl_mem (fun r : StyleRecord => r.modifiers.has m) (has_take m) _ _).trans ?_
  rw [Modifiers.has_empty, Bool.false_or]

/-! ## Records that can be written -/

/-- No color is empty or holds a blank. -/
def Writable (r : StyleRecord) : Prop :=
  ∀ layer c, r.text? layer = some c → c ≠ "" ∧ ∀ x ∈ c.toList, Text.isBlank x = false

theorem writable_decode (spec : List Char) : (decode spec).Writable := by
  intro layer text h
  rw [text?_decode] at h
  have hmem : text ∈ writtenTexts layer spec := List.mem_of_getLast? h
  -- the text is the end of a word, and no word holds a blank
  obtain ⟨t, ht, hw⟩ := List.mem_filterMap.1 hmem
  obtain ⟨w, hword, rfl⟩ := List.mem_map.1 ht
  obtain ⟨c, hc, hs⟩ := Option.bind_eq_some_iff.1 hw
  simp only [Option.ite_none_left_eq_some, Option.some.injEq, List.isEmpty_iff] at hs
  obtain ⟨hne, rfl⟩ := hs
  refine ⟨by simpa using hne, fun x hx => (Text.mem_words hword).2 x ?_⟩
  rw [String.toList_ofList] at hx
  exact (StyleToken.suffix_of_color? hc).subset hx

theorem Writable.color?_eq {r : StyleRecord} (h : r.Writable) (layer : Layer) :
    color? (r.text? layer) = (r.text? layer).map String.toList := by
  cases hc : r.text? layer with
  | none => rfl
  | some c => rw [color?, if_neg (by simpa using (h layer c hc).1), Option.map_some]

/-- The tokens of a record: modifiers, ground, text. -/
def toTokens (r : StyleRecord) : List StyleToken :=
  r.modifiers.toList.map .modifier ++
    (r.background.toList.map fun c => .background c.toList) ++
    (r.foreground.toList.map fun c => .foreground c.toList)

theorem toWords_eq {r : StyleRecord} (h : r.Writable) :
    r.toWords = r.modifiers.toList.map (·.name.toList) ++
      (r.background.toList.map fun c => "bg:".toList ++ c.toList) ++
      (r.foreground.toList.map fun c => foregroundWord c.toList) := by
  have hg : color? r.background = r.background.map String.toList := h.color?_eq .background
  have hf : color? r.foreground = r.foreground.map String.toList := h.color?_eq .foreground
  rw [toWords, hg, hf]
  cases r.background <;> cases r.foreground <;> rfl

theorem name_no_blank (m : Modifier) :
    m.name.toList ≠ [] ∧ ∀ x ∈ m.name.toList, Text.isBlank x = false := by
  have hany : m.name.toList.any Text.isBlank = false := by cases m <;> decide
  exact ⟨by cases m <;> decide, by simpa using hany⟩

theorem headed_no_blank {head c : List Char} (hne : head ≠ []) (hh : head.any Text.isBlank = false)
    (hc : ∀ x ∈ c, Text.isBlank x = false) :
    head ++ c ≠ [] ∧ ∀ x ∈ head ++ c, Text.isBlank x = false := by
  refine ⟨by simp [hne], fun x hx => ?_⟩
  rcases List.mem_append.1 hx with hx | hx
  · simpa using List.any_eq_false.1 hh x hx
  · exact hc x hx

/-- The words of such a record are words of a spec. -/
theorem toWords_no_blank {r : StyleRecord} (h : r.Writable) {w : List Char} (hw : w ∈ r.toWords) :
    w ≠ [] ∧ ∀ x ∈ w, Text.isBlank x = false := by
  rw [toWords_eq h, List.mem_append, List.mem_append, List.mem_map, List.mem_map, List.mem_map] at hw
  rcases hw with (⟨m, -, rfl⟩ | ⟨c, hc, rfl⟩) | ⟨c, hc, rfl⟩
  · exact name_no_blank m
  · have hc := h .background c (Option.mem_toList.1 hc)
    exact headed_no_blank (by decide) (by decide) hc.2
  · have hc := h .foreground c (Option.mem_toList.1 hc)
    unfold foregroundWord
    split
    · -- written without a head, the text itself is the word
      exact ⟨by simpa using hc.1, hc.2⟩
    · exact headed_no_blank (by decide) (by decide) hc.2

/-- The tokens of the spec that a record is written as are the tokens of the record. -/
theorem ofSpec_compose {r : StyleRecord} (h : r.Writable) :
    StyleToken.ofSpec (compose r) = r.toTokens := by
  rw [StyleToken.ofSpec, compose, Text.words_intercalate fun w hw => toWords_no_blank h hw, toWords_eq h,
    List.map_append, List.map_append, List.map_map, List.map_map, List.map_map, toTokens]
  simp only [Function.comp_def, StyleToken.classify_name, StyleToken.classify_background,
    classify_foregroundWord]

theorem modifier_mem_toTokens {r : StyleRecord} {m : Modifier} :
    .modifier m ∈ r.toTokens ↔ r.modifiers.has m = true := by
  simp [toTokens, Modifiers.mem_toList]

/-- On each layer a record has one token at most. -/
theorem filterMap_toTokens {β : Type} (layer : Layer) (g : List Char → Option β) (r : StyleRecord) :
    (r.toTokens.filterMap fun t => (t.color? layer).bind g).getLast? =
      (r.text? layer).bind fun c => g c.toList := by
  have hm : (r.modifiers.toList.map StyleToken.modifier).filterMap
      (fun t => (t.color? layer).bind g) = [] := by
    simp [StyleToken.color?]
  rw [toTokens, List.filterMap_append, List.filterMap_append, hm, List.nil_append]
  cases layer <;> cases hg : r.background <;> cases hf : r.foreground <;>
    simp [StyleToken.color?, text?, hg, hf]

theorem decode_compose {r : StyleRecord} (h : r.Writable) : decode (compose r) = r := by
  refine ext_text? (fun m => ?_) fun layer => ?_
  · rw [has_decode, ofSpec_compose h, Bool.eq_iff_iff, decide_eq_true_eq, modifier_mem_toTokens]
  · -- the record has one text on the layer, and that one is written
    rw [text?_decode, writtenTexts, ofSpec_compose h]
    refine (filterMap_toTokens layer _ r).trans ?_
    cases hc : r.text? layer with
    | none => rfl
    | some c => simp [(h layer c hc).1]

/-- A record is read back from its spec if and only if none of its colors is empty or holds a blank;
every spec is read as such a record, so writing it and reading it again changes nothing more. -/
theorem decode_compose_iff :
    (∀ r : StyleRecord, decode (compose r) = r ↔ r.Writable) ∧
    ∀ spec, (decode spec).Writable ∧ decode (compose (decode spec)) = decode spec := by
  refine ⟨fun r => ⟨fun h => ?_, decode_compose⟩, fun spec => ?_⟩
  · rw [← h]
    exact writable_decode _
  · exact ⟨writable_decode spec, decode_compose (writable_decode spec)⟩

end StyleRecord

end PromptTheme
