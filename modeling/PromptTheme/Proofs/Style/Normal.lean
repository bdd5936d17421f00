/-
Specs written back from their records. Reading a spec into a record keeps the last text of each layer,
whether it is a color or not, since palettes come in later; drawing takes the last color that the palette
knows. `StyleRecord.encodeJoined_compose_decode_iff` says that the spec written back is drawn alike
exactly when these two agree, and `StyleRecord.no_record_draws_alike` that no other way to read specs into
records does better under every palette.
-/
import PromptTheme.Proofs.Style.Drawing

namespace PromptTheme

open Terminal

namespace Palette

/-- The joined form tells what a spec sets. -/
theorem encodeJoined_inj {p : Palette} {s t : List Char} :
    p.encodeJoined s = p.encodeJoined t ↔ Attributes.ofSpec p s = Attributes.ofSpec p t := by
  constructor
  · intro h
    -- a terminal without attributes ends up with those that the spec sets
    have hread := congrArg (State.readAll ⟨{}, .text⟩) h
    rw [readAll_encodeJoined, readAll_encodeJoined, State.mk.injEq] at hread
    rw [← (Attributes.sets_select_parameters p s {}).unique (Attributes.sets_ofSpec p s), hread.1,
      (Attributes.sets_select_parameters p t {}).unique (Attributes.sets_ofSpec p t)]
  · intro h
    rw [encodeJoined, encodeJoined, h]

theorem resolve?_of_parse?_some {p : Palette} {c : List Char} {color : Color}
    (hp : Color.parse? c = some color) : p.resolve? c = some color := by
  rw [resolve?, hp]

/-- A palette of one name knows this name and what is a color by itself. -/
theorem resolve?_of_parse?_none {name value : String} {c : String} {color : Color}
    (hp : Color.parse? c.toList = none)
    (h : resolve? (.ofList [(name, value)]) c.toList = some color) : c = name := by
  simp only [resolve?, hp, String.ofList_toList] at h
  obtain ⟨v, hv, -⟩ := Option.bind_eq_some_iff.1 h
  have hmem : (c, v) ∈ [(name, value)] := Keyed.mem_ofList (Keyed.mem_of_find? hv)
  exact (Prod.mk.inj (List.mem_singleton.1 hmem)).1

end Palette

namespace StyleRecord

theorem color?_ofSpec (p : Palette) (spec : List Char) (layer : Layer) :
    (Attributes.ofSpec p spec).color? layer = (p.knownColors layer spec).getLast? := by
  rw [(Attributes.sets_ofSpec p spec).colors, Attributes.color?_empty, Option.or_none]

/-- A record is drawn with its modifiers and with those of its colors that the palette knows. -/
theorem ofSpec_compose_color? (p : Palette) {r : StyleRecord} (h : r.Writable) (layer : Layer) :
    (Attributes.ofSpec p (compose r)).color? layer =
      (r.text? layer).bind fun c => p.resolve? c.toList := by
  rw [color?_ofSpec, Palette.knownColors, ofSpec_compose h]
  exact filterMap_toTokens layer _ r

theorem has_ofSpec_compose_decode (p : Palette) (spec : List Char) (m : Modifier) :
    (Attributes.ofSpec p (compose (decode spec))).modifiers.has m =
      (Attributes.ofSpec p spec).modifiers.has m := by
  rw [(Attributes.sets_ofSpec p _).modifiers, (Attributes.sets_ofSpec p spec).modifiers,
    ofSpec_compose (writable_decode spec), ← has_decode]
  simp only [modifier_mem_toTokens, Bool.decide_eq_true]

/-- A spec written back from its record is drawn as before if and only if on each layer the last text that
the spec writes is drawn as the last color that it names and the palette knows. -/
theorem encodeJoined_compose_decode_iff (p : Palette) (spec : List Char) :
    p.encodeJoined (compose (decode spec)) = p.encodeJoined spec ↔
      ∀ layer, ((writtenTexts layer spec).getLast?.bind fun c => p.resolve? c.toList) =
        (p.knownColors layer spec).getLast? := by
  have hlayer (layer : Layer) : (Attributes.ofSpec p (compose (decode spec))).color? layer =
      (writtenTexts layer spec).getLast?.bind fun c => p.resolve? c.toList := by
    rw [ofSpec_compose_color? p (writable_decode spec), text?_decode]
  rw [Palette.encodeJoined_inj]
  constructor
  · intro h layer
    rw [← hlayer, h, color?_ofSpec]
  · intro h
    refine Attributes.ext_color? (has_ofSpec_compose_decode p spec) fun layer => ?_
    rw [hlayer, h, color?_ofSpec]

/-- A text that is no color hides the color before it. -/
theorem encodeJoined_compose_decode_ne : ¬ ∀ (p : Palette) (spec : List Char),
    p.encodeJoined (compose (decode spec)) = p.encodeJoined spec := by
  intro h
  have hred := h .empty "red unknown".toList
  revert hred
  decide

/-! ## Other ways to read -/

/-- A record that is drawn as a spec has a text color that is drawn as the one of the spec. -/
theorem exists_foreground {r : StyleRecord} (hw : r.Writable) {p : Palette} {spec : List Char}
    {color : Color} (h : p.encodeJoined (compose r) = p.encodeJoined spec)
    (hk : (p.knownColors .foreground spec).getLast? = some color) :
    ∃ c, r.foreground = some c ∧ p.resolve? c.toList = some color := by
  have hbind : (r.text? .foreground).bind (fun c => p.resolve? c.toList) = some color := by
    rw [← ofSpec_compose_color? p hw, Palette.encodeJoined_inj.1 h, color?_ofSpec, hk]
  exact Option.bind_eq_some_iff.1 hbind

/-- However specs are read into records that can be written, some spec is not drawn alike under some
palette: it is up to the palette which of two names is a color, and a record has room for one of them. -/
theorem no_record_draws_alike : ¬ ∃ read : List Char → StyleRecord, (∀ spec, (read spec).Writable) ∧
    ∀ (p : Palette) (spec : List Char), p.encodeJoined (compose (read spec)) = p.encodeJoined spec := by
  rintro ⟨read, hw, hdraw⟩
  have hforeground (name value : String) (color : Color)
      (hk : (Palette.knownColors (.ofList [(name, value)]) .foreground "a b".toList).getLast? = some color) :
      ∃ c, (read "a b".toList).foreground = some c ∧
        Palette.resolve? (.ofList [(name, value)]) c.toList = some color :=
    exists_foreground (hw _) (hdraw _ _) hk
  obtain ⟨c, hc, hred⟩ := hforeground "a" "red" (.named .red) (by decide)
  obtain ⟨c', hc', hblue⟩ := hforeground "a" "blue" (.named .blue) (by decide)
  obtain ⟨c'', hc'', hother⟩ := hforeground "b" "red" (.named .red) (by decide)
  obtain rfl : c = c' := Option.some.inj (hc.symm.trans hc')
  obtain rfl : c = c'' := Option.some.inj (hc.symm.trans hc'')
  -- a color by itself would not be red under one palette and blue under another
  have hparse : Color.parse? c.toList = none := by
    cases h : Color.parse? c.toList with
    | none => rfl
    | some color =>
      rw [Palette.resolve?_of_parse?_some h] at hred hblue
      cases hred
      cases hblue
  have ha : c = "a" := Palette.resolve?_of_parse?_none hparse hred
  have hb : c = "b" := Palette.resolve?_of_parse?_none hparse hother
  exact absurd (ha.symm.trans hb) (by decide)

end StyleRecord

end PromptTheme
