/-
What a rendered format depends on. `Reference.names` lists the names that a format refers to, and
`Engine.render_local` says that the format is drawn alike for any two pairs of a configuration and a
scenario that agree on what they have under these names, on whether the last command failed, and on the
selected palette, whichever renderers the engine has; and that such pairs need to agree in no other place
of the configuration or the scenario.

A sweep asks for the listed names only, and a renderer looks at nothing but its own module; the passes
after the sweep see the palette alone.
-/
import PromptTheme.Prompt.Engine

namespace PromptTheme

/-! ## References -/

namespace Reference

/-- The names in a text: behind each dollar sign the longest run of letters, digits and underscores, if
there is one. -/
def names : List Char → List String
  | [] => []
  | c :: rest =>
    if c = '$' ∧ rest.takeWhile isNameChar ≠ [] then
      String.ofList (rest.takeWhile isNameChar) :: names rest
    else names rest

variable {replace replace' : List Char → List Char}

theorem names_subset_cons (c : Char) (s : List Char) : names s ⊆ names (c :: s) := by
  rw [names]
  split
  · exact List.subset_cons_self _ _
  · exact List.Subset.refl _

theorem mem_names_dollar {s : List Char} (h : s.takeWhile isNameChar ≠ []) :
    String.ofList (s.takeWhile isNameChar) ∈ names ('$' :: s) := by
  rw [names, if_pos ⟨rfl, h⟩]
  exact List.mem_cons_self

theorem flush_congr {name : List Char}
    (h : name.reverse ≠ [] → replace name.reverse = replace' name.reverse) :
    flush replace name = flush replace' name := by
  unfold flush
  split
  · rfl
  · rename_i hne
    exact h (by simpa using hne)

/-- A sweep asks for the names of the text only. Behind a dollar sign, the name that is being read ends
with the name characters that come next. -/
theorem sweepFrom_congr {s : List Char}
    (h : ∀ n, String.ofList n ∈ names s → replace n = replace' n) :
    sweepFrom replace none s = sweepFrom replace' none s ∧
    ∀ name : List Char,
      (name.reverse ++ s.takeWhile isNameChar ≠ [] →
        replace (name.reverse ++ s.takeWhile isNameChar) =
          replace' (name.reverse ++ s.takeWhile isNameChar)) →
      sweepFrom replace (some name) s = sweepFrom replace' (some name) s := by
  induction s with
  | nil =>
    refine ⟨rfl, fun name hn => ?_⟩
    rw [List.takeWhile_nil, List.append_nil] at hn
    exact flush_congr hn
  | cons c s ih =>
    obtain ⟨ihnone, ihsome⟩ := ih fun n hn => h n (names_subset_cons c s hn)
    -- outside a name, and at the end of one: a dollar sign begins a name, anything else stays
    have hgo : (if c = '$' then sweepFrom replace (some []) s else c :: sweepFrom replace none s) =
        if c = '$' then sweepFrom replace' (some []) s else c :: sweepFrom replace' none s := by
      split
      · rename_i hc
        subst hc
        refine ihsome [] fun hne => h _ ?_
        exact mem_names_dollar hne
      · rw [ihnone]
    refine ⟨hgo, fun name hn => ?_⟩
    cases hc : isNameChar c with
    | true =>
      -- the name gets longer by a character that the text loses
      simp only [sweepFrom, hc, if_true]
      refine ihsome (c :: name) fun _ => ?_
      rw [List.takeWhile_cons_of_pos hc] at hn
      simpa using hn (by simp)
    | false =>
      rw [List.takeWhile_cons_of_neg (by simp [hc]), List.append_nil] at hn
      simp only [sweepFrom, hc, Bool.false_eq_true, if_false]
      rw [flush_congr hn, hgo]

end Reference

/-! ## Fragments -/

/-- Two contexts show a renderer the same: the name, the value, the table and the definition of the
module, and whether the last command failed. -/
structure ModuleContext.Alike (ctx ctx' : ModuleContext) : Prop where
  name : ctx.name = ctx'.name
  value : ctx.value = ctx'.value
  module : ctx.config.module? ctx.name = ctx'.config.module? ctx'.name
  custom : ctx.config.customModule? ctx.name = ctx'.config.customModule? ctx'.name
  error : ctx.scenario.isError = ctx'.scenario.isError

variable {ctx ctx' : ModuleContext}

theorem ModuleContext.Alike.setting (h : ctx.Alike ctx') (key default : String) :
    ctx.setting key default = ctx'.setting key default := by
  simp only [ModuleContext.setting, ModuleContext.setting?, Config.moduleString?, h.module]

theorem GitStatus.render_congr (h : ctx.Alike ctx') : render ctx = render ctx' := by
  have hshown : shown ctx = shown ctx' := by
    simp only [shown, h.setting, h.value]
  simp only [render, hshown, h.setting]

theorem PromptCharacter.render_congr (h : ctx.Alike ctx') : render ctx = render ctx' := by
  have hsymbol : symbol ctx = symbol ctx' := by
    simp only [symbol, h.error, h.setting]
  simp only [render, style, hsymbol, h.value]

theorem CustomModule.render_congr (h : ctx.Alike ctx') : render ctx = render ctx' := by
  simp only [render, h.custom, h.value]

/-- No renderer looks at anything that is not its own. -/
theorem Renderer.render_congr (h : ctx.Alike ctx') (r : Renderer) : r.render ctx = r.render ctx' := by
  cases r with
  | directory => simp only [Renderer.render, h.value, h.setting]
  | gitBranch => simp only [Renderer.render, h.value, h.setting]
  | gitStatus => exact GitStatus.render_congr h
  | character => exact PromptCharacter.render_congr h
  | generic => simp only [Renderer.render, h.value, h.setting]
  | custom => exact CustomModule.render_congr h
  | template text => simp only [Renderer.render, h.name, h.value, h.setting]

/-! ## Rendering -/

namespace Engine

/-- What the two pairs have in common for a format: the value, the table and the definition of every
module that it refers to, whether the last command failed, and the selected palette. -/
structure Agree (format : String) (c c' : Config) (s s' : Scenario) : Prop where
  value : ∀ n ∈ Reference.names format.toList, s.value? n = s'.value? n
  module : ∀ n ∈ Reference.names format.toList, c.module? n = c'.module? n
  custom : ∀ n ∈ Reference.names format.toList, c.customModule? n = c'.customModule? n
  error : s.isError = s'.isError
  palette : c.activePalette = c'.activePalette

/-- The places where the two pairs hold the same. Whatever else they hold may differ: the settings and
the values of other modules, other palettes and any other key. -/
structure SameWhereRead (format : String) (c c' : Config) (s s' : Scenario) : Prop where
  value : ∀ n ∈ Reference.names format.toList, s.values.find? n = s'.values.find? n
  module : ∀ n ∈ Reference.names format.toList, c.find? n = c'.find? n
  custom : ∀ n ∈ Reference.names format.toList, c.path? ["custom", n] = c'.path? ["custom", n]
  outcome : s.error = s'.error ∧ s.name = s'.name
  palette : c.find? "palette" = c'.find? "palette"
  colors : c.path? ["palettes", c.paletteName] = c'.path? ["palettes", c.paletteName]

variable {format : String} {c c' : Config} {s s' : Scenario}

theorem resolve_congr (h : Agree format c c' s s') (e : Engine) {n : String}
    (hn : n ∈ Reference.names format.toList) : e.resolve c s n = e.resolve c' s' n := by
  have hdisabled : c.isDisabled n = c'.isDisabled n := by
    simp only [Config.isDisabled, h.module n hn]
  unfold resolve
  rw [h.value n hn]
  cases s'.value? n with
  | none => rfl
  | some value =>
    have halike : ModuleContext.Alike ⟨n, value, c, s⟩ ⟨n, value, c', s'⟩ :=
      ⟨rfl, rfl, h.module n hn, h.custom n hn, h.error⟩
    simp only [hdisabled, h.custom n hn, Renderer.render_congr halike]

theorem render_congr (h : Agree format c c' s s') (e : Engine) :
    e.render c s format = e.render c' s' format := by
  have hexpand : e.expand c s format.toList = e.expand c' s' format.toList := by
    refine (Reference.sweepFrom_congr fun n hn => ?_).1
    rw [resolve_congr h e hn]
  rw [render, render, renderChars, renderChars, hexpand, h.palette]

/-- A definition of the user's own is a table at a path. -/
theorem customModule?_eq_path? (c : Config) (n : String) :
    c.customModule? n = (c.path? ["custom", n]).bind Value.asTable? := by
  simp only [Config.customModule?, Config.module?, Config.path?, Option.bind_assoc]
  congr 1
  funext v
  cases v <;> simp [Value.asTable?, Config.followKeys]

theorem SameWhereRead.agree (h : SameWhereRead format c c' s s') : Agree format c c' s s' where
  value n hn := by simp only [Scenario.value?, h.value n hn]
  module n hn := by simp only [Config.module?, h.module n hn]
  custom n hn := by rw [customModule?_eq_path?, customModule?_eq_path?, h.custom n hn]
  error := by simp only [Scenario.isError, h.outcome]
  palette := by
    have hname : c.paletteName = c'.paletteName := by
      simp only [Config.paletteName, h.palette]
    simp only [Config.activePalette, Config.paletteEntries, h.colors, ← hname]

/-- A format is drawn alike for two pairs of a configuration and a scenario that agree for it, by any
engine; and two pairs that hold the same where the format is read do agree for it. -/
theorem render_local (e : Engine) (format : String) (c c' : Config) (s s' : Scenario) :
    (Agree format c c' s s' → e.render c s format = e.render c' s' format) ∧
    (SameWhereRead format c c' s s' → Agree format c c' s s') :=
  ⟨fun h => render_congr h e, SameWhereRead.agree⟩

/-- A palette that is not selected, another module, a definition of the user's own and a value that
are not referred to, and the format of the configuration itself. -/
theorem render_local_unrelated :
    let format := "$directory [->](primary)$character"
    let c : Config := .ofEntries [
      ("directory", .table [("style", .string "bold primary")]),
      ("format", .string "$all"),
      ("palettes", .table [("global", .table [("primary", .string "#ff8800")])])]
    let c' : Config := .ofEntries [
      ("custom", .table [("clock", .table [("symbol", .string "T")])]),
      ("directory", .table [("style", .string "bold primary")]),
      ("git_branch", .table [("disabled", .bool true)]),
      ("palettes", .table [
        ("global", .table [("primary", .string "#ff8800")]),
        ("night", .table [("primary", .string "blue")])])]
    let s : Scenario := { values := .ofList [("character", ">"), ("directory", "~")] }
    let s' : Scenario := { s with id := "other", values := s.values.insert "git_branch" "main" }
    SameWhereRead format c c' s s' ∧ Agree format c c' s s' ∧
      ∀ e : Engine, e.render c s format = e.render c' s' format := by
  intro format c c' s s'
  have hnames : Reference.names format.toList = ["directory", "character"] := by decide
  have hsame : SameWhereRead format c c' s s' := by
    refine ⟨?_, ?_, ?_, ⟨rfl, rfl⟩, rfl, rfl⟩ <;>
      simp only [hnames, List.forall_mem_cons, List.not_mem_nil, false_imp_iff, implies_true, and_true]
    all_goals exact ⟨rfl, rfl⟩
  have hagree := (render_local {} format c c' s s').2 hsame
  exact ⟨hsame, hagree, fun e => (render_local e format c c' s s').1 hagree⟩

end Engine

end PromptTheme
