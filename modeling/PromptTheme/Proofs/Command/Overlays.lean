/-
What the merge of files comes to, and overlay files merged one after the other or all at once.
`Command.merge_eq_ok_iff` says which text the command delivers and where to: the base with the overlays
laid over it from left to right, for the terminal or for the output file. `Command.merge_combined` says
that three configurations may be merged in either order when no value of the one in the middle comes
between two tables, and that the command does the same with one overlay file that holds the overlays
merged with each other.
-/
import PromptTheme.Command.Run
import PromptTheme.Proofs.Config.Layers
import PromptTheme.Proofs.Toml.RoundTrip
import Mathlib

namespace PromptTheme.Command

/-- The files hold the configurations. -/
abbrev FilesHold (folder : Folder) : List String → List Config → Prop :=
  List.Forall₂ fun path c => readConfig folder path = .ok c

theorem bind_eq_ok_iff {α β : Type} {x : Except CommandError α} {f : α → Except CommandError β} {b : β} :
    (x >>= f) = .ok b ↔ ∃ a, x = .ok a ∧ f a = .ok b := by
  cases x with
  | error e =>
    constructor
    · intro h
      cases h
    · rintro ⟨a, ha, -⟩
      cases ha
  | ok a =>
    constructor
    · intro h
      exact ⟨a, rfl, h⟩
    · rintro ⟨a', ha, h⟩
      cases ha
      exact h

/-- Files are merged from left to right, if all of them can be read. -/
theorem foldlM_readConfig_iff {folder : Folder} {paths : List String} {base merged : Config} :
    paths.foldlM (fun c path => return c.merge (← readConfig folder path)) base =
        (.ok merged : Except CommandError Config) ↔
      ∃ cs, FilesHold folder paths cs ∧ cs.foldl Config.merge base = merged := by
  induction paths generalizing base with
  | nil =>
    constructor
    · intro h
      cases h
      exact ⟨[], .nil, rfl⟩
    · rintro ⟨cs, hcs, rfl⟩
      cases hcs
      rfl
  | cons path paths ih =>
    rw [List.foldlM_cons, bind_eq_ok_iff]
    constructor
    · rintro ⟨next, hnext, hrest⟩
      obtain ⟨c, hc, hmerge⟩ := bind_eq_ok_iff.1 hnext
      cases hmerge
      obtain ⟨cs, hcs, rfl⟩ := ih.1 hrest
      exact ⟨c :: cs, .cons hc hcs, rfl⟩
    · rintro ⟨cs, hcs, rfl⟩
      cases hcs with
      | @cons _ c _ cs hc hcs =>
        exact ⟨base.merge c, bind_eq_ok_iff.2 ⟨c, hc, rfl⟩, ih.2 ⟨cs, hcs, rfl⟩⟩

theorem foldlM_readConfig {folder : Folder} {paths : List String} {cs : List Config}
    (h : FilesHold folder paths cs) (base : Config) :
    paths.foldlM (fun c path => return c.merge (← readConfig folder path)) base =
      (.ok (cs.foldl Config.merge base) : Except CommandError Config) :=
  foldlM_readConfig_iff.2 ⟨cs, h, rfl⟩

/-! ## What the command brings about -/

/-- The text of the merged configuration, as JSON or as TOML. -/
def mergedText (json : Bool) (c : Config) : Except CommandError String :=
  if json then .ok c.toJson else c.toToml?.mapError .inexpressible

/-- Where the text goes: it is printed, or written to a file that takes it, and then nothing is printed. -/
inductive Delivers (folder : Folder) (text : String) : Option String → Output → Prop where
  | printed : Delivers folder text none { text := text }
  | written {path : String} (h : folder.refuses path = none) :
    Delivers folder text (some path) { text := "", file := some (path, text) }

/-- A merge succeeds with the text of the base and its overlays, merged from left to right, printed or
written to the file that is asked for. Every file must be read, the outcome must have a text, and the
file to write must take it. -/
theorem merge_eq_ok_iff {folder : Folder} {args : MergeArgs} {out : Output} : merge folder args = .ok out ↔
    ∃ base cs text, readConfig folder args.base = .ok base ∧ FilesHold folder args.overlays cs ∧
      mergedText args.json (cs.foldl Config.merge base) = .ok text ∧
      Delivers folder text args.output out := by
  obtain ⟨basePath, overlays, output, json⟩ := args
  have hjson : ∀ (c : Config) (rest : String → Except CommandError Output),
      (if json then .ok c.toJson >>= rest else c.toToml?.mapError .inexpressible >>= rest) =
          (.ok out : Except CommandError Output) ↔
        ∃ text, mergedText json c = .ok text ∧ rest text = .ok out := by
    intro c rest
    rw [← bind_eq_ok_iff, mergedText]
    cases json <;> rfl
  unfold merge
  simp only [bind_eq_ok_iff, foldlM_readConfig_iff, hjson]
  constructor
  · rintro ⟨base, hbase, -, ⟨cs, hcs, rfl⟩, text, htext, hout⟩
    refine ⟨base, cs, text, hbase, hcs, htext, ?_⟩
    cases output with
    | none =>
      cases hout
      exact .printed
    | some path =>
      dsimp only at hout
      cases hrefuses : folder.refuses path with
      | some e =>
        rw [hrefuses] at hout
        cases hout
      | none =>
        rw [hrefuses] at hout
        cases hout
        exact .written hrefuses
  · rintro ⟨base, cs, text, hbase, hcs, htext, hout⟩
    refine ⟨base, hbase, _, ⟨cs, hcs, rfl⟩, text, htext, ?_⟩
    cases hout with
    | printed => rfl
    | written h =>
      dsimp only
      rw [h]
      rfl

/-- What comes of a merge of files depends on the merged configuration only. -/
theorem merge_congr {folder : Folder} {args : MergeArgs} {paths : List String} {base : Config}
    {cs ds : List Config} (hb : readConfig folder args.base = .ok base)
    (hc : FilesHold folder args.overlays cs) (hd : FilesHold folder paths ds)
    (h : cs.foldl Config.merge base = ds.foldl Config.merge base) :
    merge folder args = merge folder { args with overlays := paths } := by
  unfold merge
  dsimp only
  rw [hb]
  have hbind : ∀ f : Config → Except CommandError Output, (Except.ok base >>= f) = f base := fun _ => rfl
  rw [hbind, hbind, foldlM_readConfig hc, foldlM_readConfig hd, h]

/-- Overlays that keep no tables of the base and of each other apart may be merged first. Of three
configurations: when at no path of keys the first and the third both have a table while the second has a
value that is no table, laying the third over the merge of the others is laying the merge of the second
and the third over the first. Of files: merging a base with overlays, one after the other, is merging it
with one file that holds the merge of the overlays. -/
theorem merge_combined :
    (∀ a b c : Config, a.Bridges b c → (a.merge b).merge c = a.merge (b.merge c)) ∧
    (∀ (folder : Folder) (args : MergeArgs) (combined : String) (base first : Config) (rest : List Config),
      readConfig folder args.base = .ok base → FilesHold folder args.overlays (first :: rest) →
      (first :: rest).Pairwise base.Bridges →
      readConfig folder combined = .ok (rest.foldl Config.merge first) →
      merge folder args = merge folder { args with overlays := [combined] }) := by
  refine ⟨fun a b c => Config.merge_assoc, ?_⟩
  intro folder args combined base first rest hbase hoverlays hbridges hcombined
  apply merge_congr hbase hoverlays (.cons hcombined .nil)
  exact Config.foldl_merge base hbridges

/-- A file with the text of a configuration without nulls holds it. -/
theorem readConfig_of_toToml? {folder : Folder} {path text : String} {c : Config}
    (hpath : isJson path = false) (hread : folder.read path = .ok text)
    (hdepth : c.depth ≤ Toml.maxNesting) (htext : c.toToml? = .ok text) (hprune : c.prune = c) :
    readConfig folder path = .ok c := by
  have hc := Config.ofToml?_of_toToml? hdepth htext
  rw [hprune] at hc
  unfold readConfig readFile
  rw [hread, hpath]
  show (Config.ofToml? text).mapError _ = _
  rw [hc]
  rfl

/-- A name without a dot is not that of a JSON file. -/
theorem isJson_of_splitOn {path : String} (hslash : path.splitOn "/" = [path])
    (hdot : path.splitOn "." = [path]) : isJson path = false := by
  have hnone : extension? path = none := by
    unfold extension? pathNames
    rw [hslash]
    cases hlast : (([path].filter (· ≠ "")).filter (· ≠ ".")).getLast? with
    | none => rfl
    | some name =>
      have hname := List.mem_of_mem_filter (List.mem_of_mem_filter (List.mem_of_getLast? hlast))
      obtain rfl := List.mem_singleton.1 hname
      simp only [hdot]
      rfl
  unfold isJson
  rw [hnone]

/-- Both overlays have tables where the base has one, and below another value of the base. -/
theorem merge_combined_tables :
    let base : Config := .ofEntries [("m", .table [("a", .count 1)]), ("s", .count 0)]
    let first : Config := .ofEntries [
      ("m", .table [("b", .count 2), ("prototype", .table [])]), ("s", .table [("t", .bool true)])]
    let second : Config := .ofEntries [("m", .table [("a", .count 3)]), ("s", .table [("u", .count 4)])]
    let folder : Folder := {
      read := fun path =>
        if path = "a" then .ok "s = 0\n\n[m]\na = 1\n"
        else if path = "b" then .ok "[m]\nb = 2\n\n[m.prototype]\n\n[s]\nt = true\n"
        else if path = "c" then .ok "[m]\na = 3\n\n[s]\nu = 4\n"
        else .ok "[m]\na = 3\nb = 2\n\n[m.prototype]\n\n[s]\nt = true\nu = 4\n"
      refuses := fun _ => none }
    let args : MergeArgs := { base := "a", overlays := ["b", "c"] }
    base.Bridges first second ∧ (base.merge first).merge second = base.merge (first.merge second) ∧
      readConfig folder args.base = .ok base ∧ FilesHold folder args.overlays [first, second] ∧
      [first, second].Pairwise base.Bridges ∧
      readConfig folder "d" = .ok ([second].foldl Config.merge first) ∧
      merge folder args = merge folder { args with overlays := ["d"] } := by
  intro base first second folder args
  have hbridges : base.Bridges first second := by decide
  have hbase : readConfig folder "a" = .ok base :=
    readConfig_of_toToml? (isJson_of_splitOn (by cbv) (by cbv)) rfl (by decide)
      (by with_unfolding_all rfl) rfl
  have hfirst : readConfig folder "b" = .ok first :=
    readConfig_of_toToml? (isJson_of_splitOn (by cbv) (by cbv)) rfl (by decide)
      (by with_unfolding_all rfl) rfl
  have hsecond : readConfig folder "c" = .ok second :=
    readConfig_of_toToml? (isJson_of_splitOn (by cbv) (by cbv)) rfl (by decide)
      (by with_unfolding_all rfl) rfl
  have hmerged : first.merge second = .ofEntries [
      ("m", .table [("a", .count 3), ("b", .count 2), ("prototype", .table [])]),
      ("s", .table [("t", .bool true), ("u", .count 4)])] := Config.eq_of_entries (by with_unfolding_all rfl)
  have hcombined : readConfig folder "d" = .ok (first.merge second) := by
    rw [hmerged]
    exact readConfig_of_toToml? (isJson_of_splitOn (by cbv) (by cbv)) rfl (by decide)
      (by with_unfolding_all rfl) rfl
  have hpairs : [first, second].Pairwise base.Bridges := by
    simpa using hbridges
  have hholds : FilesHold folder args.overlays [first, second] := .cons hfirst (.cons hsecond .nil)
  obtain ⟨hassoc, hfiles⟩ := merge_combined
  exact ⟨hbridges, hassoc base first second hbridges, hbase, hholds, hpairs, hcombined,
    hfiles folder args "d" base first [second] hbase hholds hpairs hcombined⟩

end PromptTheme.Command
