/-
Formats without nested groups. When the text behind the references is a row of groups with text between
them, `Engine.render_flat` says what is drawn: each group as its style, its text and a reset, where the
group stands, and the rest as it is. One pass does it all, since it leaves no closing bracket behind. Without
characters of a meaning of their own in the text, nothing but the texts of the groups and what stands
between them is left when the escape sequences are stripped, in both forms of sequences.
-/
import PromptTheme.Proofs.Prompt.Integrity

namespace PromptTheme

open Escape (esc Encoded)

namespace Group

variable {encode : List Char → List Char}

/-- A group and the text before it. -/
structure Segment where
  before : List Char
  text : List Char
  style : List Char

namespace Segment

/-- There is no bracket before the group. Its text ends at the first closing bracket and its style at
the first closing parenthesis behind that, and neither is empty. -/
structure Flat (g : Segment) : Prop where
  open_free : '[' ∉ g.before
  close_free : ']' ∉ g.before
  text_ne : g.text ≠ []
  text_free : ']' ∉ g.text
  style_ne : g.style ≠ []
  style_free : ')' ∉ g.style

/-- The segment in a format. -/
def source (g : Segment) : List Char := g.before ++ '[' :: (g.text ++ ']' :: '(' :: (g.style ++ [')']))

/-- The segment on a terminal. -/
def drawn (encode : List Char → List Char) (g : Segment) : List Char :=
  g.before ++ (encode g.style ++ (g.text ++ Escape.reset))

/-- The segment without its style. -/
def plain (g : Segment) : List Char := g.before ++ g.text

theorem plain_subset_source (g : Segment) : g.plain ⊆ g.source := by
  intro c hc
  rcases List.mem_append.1 hc with hc | hc
  · simp [source, hc]
  · simp [source, hc]

/-! ## One pass -/

theorem pass_source_append {g : Segment} (hg : g.Flat) (s : List Char) :
    pass encode (g.source ++ s) = g.drawn encode ++ pass encode s := by
  have hopens : Opens (g.text ++ ']' :: '(' :: (g.style ++ ')' :: s)) g.text g.style s :=
    ⟨rfl, hg.text_free, hg.style_free, hg.text_ne, hg.style_ne⟩
  have hsource : g.source ++ s = g.before ++ '[' :: (g.text ++ ']' :: '(' :: (g.style ++ ')' :: s)) := by
    simp [source]
  rw [hsource, pass_append_of_open_free hg.open_free, pass_group hopens, drawn]
  simp only [List.append_assoc]

theorem close_not_mem_drawn (hE : ∀ style, Encoded (encode style)) {g : Segment} (hg : g.Flat) :
    ']' ∉ g.drawn encode := by
  have hstyle : ']' ∉ encode g.style := (hE g.style).not_mem (by decide)
  have hreset : ']' ∉ Escape.reset := by decide
  simp only [drawn, List.mem_append, not_or]
  exact ⟨hg.close_free, hstyle, hg.text_free, hreset⟩

end Segment

open Segment

variable {segments : List Segment} {last : List Char}

theorem pass_flat (hs : ∀ g ∈ segments, g.Flat) (hl : '[' ∉ last) :
    pass encode (segments.flatMap source ++ last) = segments.flatMap (drawn encode) ++ last := by
  induction segments with
  | nil => exact pass_eq_self_of_open_free hl
  | cons g rest ih =>
    rw [List.forall_mem_cons] at hs
    rw [List.flatMap_cons, List.append_assoc, pass_source_append hs.1, ih hs.2, List.flatMap_cons,
      List.append_assoc]

/-- What is drawn has no closing bracket, so that there is no group in it. -/
theorem pass_drawn (hE : ∀ style, Encoded (encode style)) (hs : ∀ g ∈ segments, g.Flat) (hl : ']' ∉ last) :
    pass encode (segments.flatMap (drawn encode) ++ last) = segments.flatMap (drawn encode) ++ last := by
  refine pass_eq_self_of_close_free fun h => ?_
  rcases List.mem_append.1 h with h | h
  · obtain ⟨g, hg, hm⟩ := List.mem_flatMap.1 h
    exact close_not_mem_drawn hE (hs g hg) hm
  · exact hl h

/-- One pass is enough. -/
theorem passes_flat (hE : ∀ style, Encoded (encode style)) (hs : ∀ g ∈ segments, g.Flat) (ho : '[' ∉ last)
    (hc : ']' ∉ last) (k : Nat) :
    passes encode (k + 1) (segments.flatMap source ++ last) = segments.flatMap (drawn encode) ++ last := by
  induction k with
  | zero => rw [passes_one, pass_flat hs ho]
  | succ k ih => rw [passes_succ, ih, pass_drawn hE hs hc]

/-! ## Without escape sequences -/

theorem stripEscapes_drawn (hE : ∀ style, Encoded (encode style))
    (hs : ∀ c ∈ segments.flatMap source ++ last, Terminal.isIntroducer c = false) :
    Terminal.stripEscapes (segments.flatMap (drawn encode) ++ last) = segments.flatMap plain ++ last := by
  induction segments with
  | nil => exact Terminal.stripEscapes_eq_self hs
  | cons g rest ih =>
    rw [List.flatMap_cons, List.append_assoc, List.forall_mem_append] at hs
    have hplain : (∀ c ∈ g.before, Terminal.isIntroducer c = false) ∧
        ∀ c ∈ g.text, Terminal.isIntroducer c = false :=
      List.forall_mem_append.1 fun c hc => hs.1 c (plain_subset_source g hc)
    simp only [List.flatMap_cons, drawn, plain, List.append_assoc]
    rw [Terminal.stripEscapes_append hplain.1, Terminal.stripEscapes_encoded (hE g.style),
      Terminal.stripEscapes_append hplain.2, Terminal.stripEscapes_encoded Encoded.reset, ih hs.2]

end Group

open PromptTheme.Group (Segment)

namespace Engine

/-- When the text that a format expands to is a row of flat segments, and text without brackets, every
segment is drawn by itself, in the colors of the selected palette (`Config.find?_activePalette`,
`Config.paletteName_eq_iff`), and then the line breaks are made (`breakLines_iff`). The first pass draws
them all, and none of the following passes changes anything. Where the text has no backslash, no ESC and
no U+009B, stripping leaves what stands before the groups and in them. All this holds for both escape
modes. -/
theorem render_flat (e : Engine) (c : Config) (s : Scenario) (format : String) (segments : List Segment)
    (last : List Char) (hflat : ∀ g ∈ segments, g.Flat) (hopen : '[' ∉ last) (hclose : ']' ∉ last)
    (h : e.expand c s format.toList = segments.flatMap Segment.source ++ last) (mode : EscapeMode) :
    let engine : Engine := { e with mode := mode }
    let encode := c.activePalette.encodeWith mode
    let text := e.expand c s format.toList
    let drawn := segments.flatMap (Segment.drawn encode) ++ last
    engine.render c s format = String.ofList (breakLines drawn) ∧
    (∀ k, Group.passes encode (k + 1) text = drawn) ∧
    ('\\' ∉ text → esc ∉ text → '\u009b' ∉ text →
      engine.renderPlain c s format = String.ofList (segments.flatMap Segment.plain ++ last)) := by
  intro engine encode text drawn
  have hE : ∀ style, Encoded (encode style) := c.activePalette.encoded_encodeWith mode
  have htext : text = segments.flatMap Segment.source ++ last := h
  have hpasses : ∀ k, Group.passes encode (k + 1) text = drawn := by
    rw [htext]
    exact Group.passes_flat hE hflat hopen hclose
  have hrender : engine.renderChars c s format.toList = breakLines drawn :=
    congrArg breakLines (hpasses 4)
  refine ⟨congrArg String.ofList hrender, hpasses, fun hslash hesc hcsi => ?_⟩
  have hdrawn : breakLines drawn = drawn := by
    refine breakLines_of_not_mem fun hm => hslash ?_
    rw [← hpasses 0] at hm
    exact Group.mem_of_mem_passes hE (by decide) hm
  have hplain := Terminal.isIntroducer_eq_false hesc hcsi
  rw [htext] at hplain
  rw [renderPlain, hrender, hdrawn, Group.stripEscapes_drawn hE hplain]

/-- A bracket inside a group, a group that comes from a module, a color of the palette, and a style that
nobody knows. -/
theorem render_flat_module :
    let c : Config := .ofEntries [
      ("palettes", .table [("global", .table [("warm", .string "#ff8800")])])]
    let s : Scenario := { values := .ofList [("directory", "~")] }
    let format := "a [b[c](bold warm) $directory[d](unknown)"
    let segments : List Segment := [
      ⟨"a ".toList, "b[c".toList, "bold warm".toList⟩,
      ⟨" ".toList, "~".toList, "cyan bold".toList⟩,
      ⟨" ".toList, "d".toList, "unknown".toList⟩]
    (∀ g ∈ segments, g.Flat) ∧
      Engine.expand {} c s format.toList = segments.flatMap Segment.source ++ [] ∧
      ∀ mode : EscapeMode,
        Engine.render { mode := mode } c s format =
          String.ofList
            (breakLines (segments.flatMap (Segment.drawn (c.activePalette.encodeWith mode)) ++ [])) ∧
        Engine.renderPlain { mode := mode } c s format = "a b[c ~ d" := by
  intro c s format segments
  have hflat : ∀ g ∈ segments, g.Flat := by
    simp only [segments, List.forall_mem_cons, List.not_mem_nil, false_imp_iff, implies_true, and_true]
    refine ⟨?_, ?_, ?_⟩ <;> constructor <;> decide
  have htext : Engine.expand {} c s format.toList = segments.flatMap Segment.source ++ [] := by
    decide +kernel
  have hslash : '\\' ∉ Engine.expand {} c s format.toList := by decide +kernel
  have hesc : esc ∉ Engine.expand {} c s format.toList := by decide +kernel
  have hcsi : '\u009b' ∉ Engine.expand {} c s format.toList := by decide +kernel
  refine ⟨hflat, htext, fun mode => ?_⟩
  obtain ⟨hrender, -, hplain⟩ :=
    render_flat {} c s format segments [] hflat (by simp) (by simp) htext mode
  exact ⟨hrender, hplain hslash hesc hcsi⟩

end Engine

end PromptTheme
