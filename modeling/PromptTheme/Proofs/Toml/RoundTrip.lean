/-
Exported configurations read back. The text of a document is read line by line as the statements of
its sections (`Toml.parses_sections`), which build up the table that was written, so that a
configuration without its nulls is read back from its text (`Config.ofToml?_sectionsText`). The export
fails for nothing but an integer that is too large, and `Config.ofToml?_toToml?` says both.
-/
import PromptTheme.Proofs.Toml.Inline
import PromptTheme.Proofs.Toml.Sections

namespace PromptTheme

namespace Toml

/-! ## Lines -/

/-- The text is read as the statements, in at most as many steps as it has characters. -/
def Parses (s : List Char) (sts : List Statement) : Prop :=
  ∀ fuel, s.length < fuel → statements? fuel s = some sts

theorem parses_nil : Parses [] [] := by
  intro fuel hf
  obtain ⟨n, rfl⟩ : ∃ n, fuel = n + 1 := ⟨fuel - 1, by omega⟩
  rfl

/-- An empty line. -/
theorem Parses.blank {rest : List Char} {sts : List Statement} (h : Parses rest sts) :
    Parses ('\n' :: rest) sts := by
  intro fuel hf
  obtain ⟨n, rfl⟩ : ∃ n, fuel = n + 1 := ⟨fuel - 1, by omega⟩
  exact h n (by simpa using hf)

/-- A line with a statement. -/
theorem Parses.line {line rest : List Char} {st : Statement} {sts : List Statement}
    (hopen : ∃ c t, line = c :: t ∧ isOpening c = true)
    (hread : statement? (line ++ rest) = some (st, rest)) (h : Parses rest sts) :
    Parses (line ++ rest) (st :: sts) := by
  obtain ⟨c, t, rfl, hc⟩ := hopen
  intro fuel hf
  obtain ⟨n, rfl⟩ : ∃ n, fuel = n + 1 := ⟨fuel - 1, by omega⟩
  have hrest := h n (by simp at hf; omega)
  rw [List.cons_append] at hread ⊢
  rw [statements?, skipSpace_of_isOpening hc]
  split
  next heq => cases heq
  next heq => exact absurd (List.cons.inj heq).1 (ne_of_class hc (by decide))
  next heq => exact absurd (List.cons.inj heq).1 (ne_of_class hc (by decide))
  next heq => exact absurd (List.cons.inj heq).1 (ne_of_class hc (by decide))
  next =>
    rw [hread]
    dsimp only
    rw [hrest]
    rfl

theorem statement?_entry {k : String} {v : Value} (h : Reads (value? maxNesting) v) (rest : List Char) :
    statement? (segmentText k.toList ++ [' ', '=', ' '] ++ inlineText v ++ ['\n'] ++ rest) =
      some (.assign [k] v, rest) := by
  have hpair := pair?_entryText (k := k) h (.cons (c := '\n') (by decide) rest)
  obtain ⟨c, t, ht, hc⟩ := segmentText_cons k.toList
  have htext : segmentText k.toList ++ [' ', '=', ' '] ++ inlineText v ++ ['\n'] ++ rest =
      segmentText k.toList ++ [' ', '=', ' '] ++ inlineText v ++ '\n' :: rest := by simp
  have hfirst : ∀ s, segmentText k.toList ++ [' ', '=', ' '] ++ inlineText v ++ '\n' :: rest ≠ '[' :: s := by
    intro s heq
    rw [ht] at heq
    exact ne_of_class hc (by decide) (List.cons.inj heq).1
  rw [htext, statement?.eq_3 _ (fun s => hfirst ('[' :: s)) hfirst, hpair]
  rfl

/-- The plain values of a section. -/
theorem parses_bodyText {es : List (String × Value)} (h : ∀ e ∈ es, Written maxNesting e.2)
    {rest : List Char} {sts : List Statement} (hrest : Parses rest sts) :
    Parses (bodyText es ++ rest) (es.map (fun e => .assign [e.1] e.2) ++ sts) := by
  induction es with
  | nil => exact hrest
  | cons e es ih =>
    obtain ⟨k, v⟩ := e
    have hread := reads_inlineText (h (k, v) List.mem_cons_self)
    obtain ⟨c, t, ht, hc⟩ := segmentText_cons k.toList
    have htext : bodyText ((k, v) :: es) ++ rest =
        segmentText k.toList ++ [' ', '=', ' '] ++ inlineText v ++ ['\n'] ++ (bodyText es ++ rest) := by
      simp [bodyText, entryTexts]
    rw [htext, List.map_cons, List.cons_append]
    refine .line ⟨c, t ++ [' ', '=', ' '] ++ inlineText v ++ ['\n'], by rw [ht]; rfl, ?_⟩
      (statement?_entry hread _) (ih fun e he => h e (List.mem_cons_of_mem _ he))
    exact isOpening_of_isKeyOpening hc

/-! ## Sections -/

theorem pathText_cons {path : List String} (hne : path ≠ []) :
    ∃ c t, pathText path = c :: t ∧ isKeyOpening c = true := by
  cases path with
  | nil => exact absurd rfl hne
  | cons k path =>
    obtain ⟨c, t, ht, hc⟩ := segmentText_cons k.toList
    cases path with
    | nil => exact ⟨c, t, ht, hc⟩
    | cons l path =>
      refine ⟨c, t ++ ['.'] ++ pathText (l :: path), ?_, hc⟩
      show segmentText k.toList ++ ['.'] ++ pathText (l :: path) = _
      rw [ht]
      rfl

theorem statement?_table {path : List String} (hne : path ≠ []) (hlength : path.length ≤ maxNesting)
    (rest : List Char) : statement? (headerText (.table path) ++ rest) = some (.table path, rest) := by
  have hkey : key? maxNesting (pathText path ++ ']' :: '\n' :: rest) = some (path, ']' :: '\n' :: rest) :=
    key?_pathText (by simp [isBare]) (by simp [skipSpace, isSpace]) path maxNesting hne hlength
  obtain ⟨c, t, ht, hc⟩ := pathText_cons hne
  have htext : headerText (.table path) ++ rest = '[' :: (pathText path ++ ']' :: '\n' :: rest) := by
    simp [headerText]
  have hsecond : ∀ s, pathText path ++ ']' :: '\n' :: rest ≠ '[' :: s := by
    intro s heq
    rw [ht] at heq
    exact ne_of_class hc (by decide) (List.cons.inj heq).1
  rw [htext, statement?.eq_2 _ hsecond, hkey]
  rfl

theorem statement?_element {path : List String} (hne : path ≠ []) (hlength : path.length ≤ maxNesting)
    (rest : List Char) : statement? (headerText (.element path) ++ rest) = some (.element path, rest) := by
  have hkey : key? maxNesting (pathText path ++ ']' :: ']' :: '\n' :: rest) =
      some (path, ']' :: ']' :: '\n' :: rest) :=
    key?_pathText (by simp [isBare]) (by simp [skipSpace, isSpace]) path maxNesting hne hlength
  have htext : headerText (.element path) ++ rest =
      '[' :: '[' :: (pathText path ++ ']' :: ']' :: '\n' :: rest) := by
    simp [headerText]
  rw [htext, statement?, hkey]
  rfl

/-- The empty line that stands before a header, unless nothing is above it. -/
theorem Parses.gap {s : List Char} {sts : List Statement} (h : Parses s sts) (first : Bool) :
    Parses ((if first then [] else ['\n']) ++ s) sts := by
  cases first with
  | true => exact h
  | false => exact h.blank

theorem sectionsText_cons (first : Bool) (header : Header) (h : header ≠ .root)
    (body : List (String × Value)) (secs : List Section) :
    sectionsText first (⟨header, body⟩ :: secs) =
      (if first then [] else ['\n']) ++ (headerText header ++ (bodyText body ++ sectionsText false secs)) := by
  rw [sectionsText]
  cases header with
  | root => exact absurd rfl h
  | _ => simp only [List.append_assoc]

/-- The headers and plain values of sub-tables. -/
theorem parses_sectionsText : ∀ (first : Bool) {secs : List Section},
    (∀ s ∈ secs, s.Headed maxNesting ∧ ∀ e ∈ s.body, Written maxNesting e.2) →
    Parses (sectionsText first secs) (statementsOf secs)
  | _, [], _ => by
    rw [sectionsText]
    exact parses_nil
  | first, ⟨header, body⟩ :: secs, h => by
    obtain ⟨⟨path, hheader, hne, hlength⟩, hbody⟩ := h _ List.mem_cons_self
    have hrest := parses_bodyText hbody
      (parses_sectionsText false fun s hs => h s (List.mem_cons_of_mem _ hs))
    dsimp only at hheader
    rcases hheader with rfl | rfl
    · rw [sectionsText_cons first (.table path) nofun]
      exact .gap (.line ⟨_, _, rfl, by decide⟩ (statement?_table hne hlength _) hrest) first
    · rw [sectionsText_cons first (.element path) nofun]
      exact .gap (.line ⟨_, _, rfl, by decide⟩ (statement?_element hne hlength _) hrest) first

/-- A value passes on to what is in it that it can be written. -/
theorem inherited_written (levels : Nat) : Inherited (Written levels) := by
  constructor
  · intro es h e he
    obtain ⟨n, rfl, -, hes⟩ := h.table
    exact (hes e he).mono (Nat.le_succ n)
  · intro items h v hv
    obtain ⟨n, rfl, hvs⟩ := h.array
    exact (hvs v hv).mono (Nat.le_succ n)

/-- The text of a table is read as the statements of its sections. -/
theorem parses_sections {es : List (String × Value)} (hdepth : Value.entriesDepth es ≤ maxNesting)
    (h : ∀ e ∈ es, Written maxNesting e.2) :
    Parses (sectionsText true (sections es)) (statementsOf (sections es)) := by
  have hplain : ∀ e ∈ plainEntries es, Written maxNesting e.2 := fun e he => h e (List.mem_filter.1 he).1
  have hlimit : ([] : List String).length + Value.entriesDepth es ≤ maxNesting := by simpa using hdepth
  have hsub := mem_subSections (inherited_written maxNesting) hlimit h
  have hroot : sectionsText true (sections es) = bodyText (plainEntries es) ++
      sectionsText (plainEntries es).isEmpty (subSections [] es) := by
    rw [sections, sectionsText, Bool.true_and]
  rw [hroot]
  exact parses_bodyText hplain (parses_sectionsText _ hsub)

/-! ## Documents -/

/-- No written document begins with a byte order mark. -/
theorem skipMark_sectionsText (es : List (String × Value)) :
    skipMark (sectionsText true (sections es)) = sectionsText true (sections es) := by
  have hself : ∀ {c : Char} {s : List Char}, c ≠ '\uFEFF' → skipMark (c :: s) = c :: s := by
    intro c s hc
    rw [skipMark.eq_2]
    exact fun _ he => hc (List.cons.inj he).1
  rw [sections, sectionsText]
  cases plainEntries es with
  | cons e rest =>
    obtain ⟨c, t, ht, hc⟩ := segmentText_cons e.1.toList
    have hmark := ne_of_class (isOpening_of_isKeyOpening hc) (show isOpening '\uFEFF' = false by decide)
    have htext : bodyText (e :: rest) = c :: (t ++ [' ', '=', ' '] ++ inlineText e.2 ++ ['\n'] ++ bodyText rest) := by
      show segmentText e.1.toList ++ [' ', '=', ' '] ++ inlineText e.2 ++ ['\n'] ++ bodyText rest = _
      rw [ht]
      rfl
    rw [htext, List.cons_append]
    exact hself hmark
  | nil =>
    have hheaded := headed_subSections es
    show skipMark (sectionsText true (subSections [] es)) = sectionsText true (subSections [] es)
    cases hsecs : subSections [] es with
    | nil => rfl
    | cons s secs =>
      obtain ⟨header, body⟩ := s
      obtain ⟨path, hheader, -⟩ := hheaded _ (hsecs ▸ List.mem_cons_self)
      dsimp only at hheader
      rcases hheader with rfl | rfl
      · rw [sectionsText_cons true (.table path) nofun]
        exact hself (by decide)
      · rw [sectionsText_cons true (.element path) nofun]
        exact hself (by decide)

theorem parse?_sectionsText {es : List (String × Value)} (ho : (Value.table es).Ordered)
    (hdepth : Value.entriesDepth es ≤ maxNesting) (h : ∀ e ∈ es, Written maxNesting e.2) :
    parse? (String.ofList (sectionsText true (sections es))) = some es := by
  have hparse := parses_sections hdepth h _ (Nat.lt_succ_self _)
  simp only [parse?, String.toList_ofList, skipMark_sectionsText]
  rw [hparse]
  exact run?_sections ho

/-! ## Range -/

/-- An integer above the largest signed one of 64 bits. -/
def isTooLarge : Value → Bool
  | .number (.whole n) => 0x7fffffffffffffff < n.val
  | _ => false

mutual

/-- Nothing but a too large integer keeps a value from being written. -/
theorem writable_eq : ∀ v : Value, writable v = !v.any isTooLarge
  | .number (.whole n) => by
    have hlower := n.lower
    show inRange n.val = !decide (0x7fffffffffffffff < n.val)
    rw [inRange, decide_eq_true hlower, Bool.true_and, ← decide_not]
    congr 1
    rw [eq_iff_iff]
    omega
  | .array items => by
    show itemsWritable items = !(false || Value.anyItem isTooLarge items)
    rw [itemsWritable_eq items, Bool.false_or]
  | .table es => by
    show entriesWritable es = !(false || Value.anyEntry isTooLarge es)
    rw [entriesWritable_eq es, Bool.false_or]
  | .null => rfl
  | .bool _ => rfl
  | .number (.double _) => rfl
  | .string _ => rfl

theorem itemsWritable_eq : ∀ vs : List Value, itemsWritable vs = !Value.anyItem isTooLarge vs
  | [] => rfl
  | v :: vs => by rw [itemsWritable, Value.anyItem, writable_eq v, itemsWritable_eq vs, Bool.not_or]

theorem entriesWritable_eq : ∀ es : List (String × Value),
    entriesWritable es = !Value.anyEntry isTooLarge es
  | [] => rfl
  | (k, v) :: es => by
    rw [entriesWritable, Value.anyEntry, writable_eq v, entriesWritable_eq es, Bool.not_or]

end

end Toml

namespace Config

/-- How deep tables and arrays are nested below the root. -/
def depth (c : Config) : Nat := Value.entriesDepth c.entries

/-- A value of the configuration, at any depth, has the property. -/
def any (p : Value → Bool) (c : Config) : Bool := Value.anyEntry p c.entries

theorem any_prune (c : Config) : c.prune.any Value.isNull = false := Value.anyEntry_pruneEntries c.entries

theorem ofEntries_entries (c : Config) : ofEntries c.entries = c := by
  refine eq_of_entries ?_
  show Value.normalizeEntries [] c.entries = c.entries
  rw [Value.normalizeEntries_eq_append [] c.ordered.1 c.ordered.2, List.nil_append]

/-- A configuration without nulls and too large integers is read back from its text. -/
theorem ofToml?_sectionsText {c : Config} (hdepth : c.depth ≤ Toml.maxNesting)
    (hnull : c.any Value.isNull = false) (hrange : c.any Toml.isTooLarge = false) :
    ofToml? (String.ofList (Toml.sectionsText true (Toml.sections c.entries))) = .ok c := by
  have hwritable : Toml.entriesWritable c.entries = true := by
    rw [Toml.entriesWritable_eq]
    show (!c.any Toml.isTooLarge) = true
    rw [hrange]
    rfl
  have hwritten := Toml.written_entries hnull c.ordered.2 hwritable hdepth
  rw [ofToml?, Toml.parse?_sectionsText c.ordered hdepth hwritten]
  dsimp only
  rw [ofEntries_entries]

/-- The text of a configuration is read as the configuration without its nulls. -/
theorem ofToml?_of_toToml? {c : Config} (h : c.depth ≤ Toml.maxNesting) {text : String}
    (htext : c.toToml? = .ok text) : ofToml? text = .ok c.prune := by
  have hdepth : c.prune.depth ≤ Toml.maxNesting :=
    (Value.entriesDepth_pruneEntries_le c.entries).trans h
  rw [toToml?] at htext
  split at htext
  next hw =>
    cases htext
    rw [Toml.entriesWritable_eq, Bool.not_eq_true'] at hw
    exact ofToml?_sectionsText hdepth c.any_prune hw
  next => cases htext

/-- What is exported reads back. Of a configuration that is nested at most as deep as the reader goes,
the export fails just when there is an integer above the signed ones of 64 bits in it, nulls left out;
and otherwise the text is read as the configuration without its nulls. -/
theorem ofToml?_toToml? {c : Config} (h : c.depth ≤ 79) :
    ((∃ e, c.toToml? = .error e) ↔ c.prune.any Toml.isTooLarge = true) ∧
      (c.prune.any Toml.isTooLarge = false →
        ∃ text, c.toToml? = .ok text ∧ ofToml? text = .ok c.prune) ∧
      c.prune.any Value.isNull = false := by
  have hwritable : Toml.entriesWritable c.prune.entries = !c.prune.any Toml.isTooLarge :=
    Toml.entriesWritable_eq c.prune.entries
  have hexport : c.toToml? = if c.prune.any Toml.isTooLarge then .error .tomlRange
      else .ok (String.ofList (Toml.sectionsText true (Toml.sections c.prune.entries))) := by
    rw [toToml?, hwritable]
    cases c.prune.any Toml.isTooLarge <;> rfl
  refine ⟨?_, ?_, c.any_prune⟩
  · rw [hexport]
    constructor
    · rintro ⟨e, he⟩
      split at he
      next hlarge => exact hlarge
      next => cases he
    · intro hlarge
      rw [hlarge]
      exact ⟨.tomlRange, rfl⟩
  · intro hsmall
    rw [hsmall] at hexport
    exact ⟨_, hexport, ofToml?_of_toToml? h hexport⟩

set_option maxRecDepth 2000 in
/-- Nulls in a table and in an array, a quoted key, a string with quotes, an array of tables beside an
array of a number and a table, a header for two levels, and an integer and a float. -/
theorem ofToml?_toToml?_mixed :
    let c : Config := .ofEntries [
      ("a key", .string "say \"hi\""),
      ("format", .null),
      ("list", .array [.null, .table [("n", .count 1)]]),
      ("mixed", .array [.count 2, .table [("x.y", .bool false)], .null]),
      ("outer", .table [("inner", .table [("one", .number (.double ⟨false, 0x3ff0000000000000, by decide⟩))])])]
    let text :=
      "\"a key\" = 'say \"hi\"'\nmixed = [2, \x7b \"x.y\" = false \x7d]\n\n[[list]]\nn = 1\n\n[outer.inner]\none = 1.0\n"
    c.depth ≤ 79 ∧ c.toToml? = .ok text ∧ ofToml? text = .ok c.prune := by
  intro c text
  have hdepth : c.depth ≤ 79 := by decide
  have hsmall : c.prune.any Toml.isTooLarge = false := by decide
  have htext : c.toToml? = .ok text := by with_unfolding_all rfl
  obtain ⟨read, hexport, hread⟩ := (ofToml?_toToml? hdepth).2.1 hsmall
  rw [htext] at hexport
  cases hexport
  exact ⟨hdepth, htext, hread⟩

end Config

end PromptTheme
