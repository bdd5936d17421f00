/-
The warning that a format is missing the prompt character. The checks look for the text `$character`,
and a sweep reads a name to its end; so a reference with a longer name that begins so keeps the warning
back, although no sweep asks for the character then. `Config.missing_character_iff` says exactly when the
warning is given, and that it agrees with the sweep unless such references stand alone.

What a sweep asks for is told from outside: it makes a difference what is put in for the name. That is so
of the names in the text and of no others.
-/
import PromptTheme.Proofs.Config.Valid
import PromptTheme.Proofs.Prompt.Locality
import PromptTheme.Proofs.Prompt.Sweep

namespace PromptTheme

namespace Reference

/-! ## Names in a text -/

theorem mem_names_iff {s : List Char} {name : String} : name ∈ names s ↔
    ∃ before rest, s = before ++ '$' :: rest ∧ name.toList = rest.takeWhile isNameChar ∧ name.toList ≠ [] := by
  induction s with
  | nil => simp [names]
  | cons c s ih =>
    have hcons : name ∈ names (c :: s) ↔
        (c = '$' ∧ name.toList = s.takeWhile isNameChar ∧ name.toList ≠ []) ∨ name ∈ names s := by
      rw [names]
      split
      · rename_i hc
        rw [List.mem_cons, String.ext_iff, String.toList_ofList]
        constructor
        · rintro (h | h)
          · exact .inl ⟨hc.1, h, by rw [h]; exact hc.2⟩
          · exact .inr h
        · rintro (⟨-, h, -⟩ | h)
          · exact .inl h
          · exact .inr h
      · rename_i hc
        constructor
        · exact .inr
        · rintro (⟨rfl, h, hne⟩ | h)
          · exact absurd ⟨rfl, h ▸ hne⟩ hc
          · exact h
    rw [hcons, ih]
    constructor
    · rintro (⟨rfl, h⟩ | ⟨before, rest, rfl, h⟩)
      · exact ⟨[], s, rfl, h⟩
      · exact ⟨c :: before, rest, rfl, h⟩
    · rintro ⟨before, rest, hs, h⟩
      cases before with
      | nil =>
        cases hs
        exact .inl ⟨rfl, h⟩
      | cons d before =>
        cases hs
        exact .inr ⟨before, rest, rfl, h⟩

/-- A text has a name right behind a dollar sign exactly when some reference has a name that begins so. -/
theorem infix_iff_names {p s : List Char} (hne : p ≠ []) (hp : ∀ c ∈ p, isNameChar c = true) :
    '$' :: p <:+: s ↔ ∃ name ∈ names s, p <+: name.toList := by
  constructor
  · rintro ⟨before, after, rfl⟩
    have hrun : (p ++ after).takeWhile isNameChar = p ++ after.takeWhile isNameChar :=
      List.takeWhile_append_of_pos hp
    refine ⟨String.ofList ((p ++ after).takeWhile isNameChar), ?_, ?_⟩
    · rw [mem_names_iff, String.toList_ofList]
      refine ⟨before, p ++ after, by simp, rfl, ?_⟩
      rw [hrun]
      simp [hne]
    · rw [String.toList_ofList, hrun]
      exact List.prefix_append p _
  · rintro ⟨name, hname, hprefix⟩
    obtain ⟨before, rest, rfl, hrun, -⟩ := mem_names_iff.1 hname
    rw [hrun] at hprefix
    obtain ⟨after, rfl⟩ := hprefix.trans (List.takeWhile_prefix isNameChar)
    exact ⟨before, after, by simp⟩

/-! ## What a sweep asks for -/

/-- A sweep over the text asks for the name: it makes a difference what is put in for it. -/
def Asks (s name : List Char) : Prop :=
  ∃ replace replace' : List Char → List Char,
    (∀ n, n ≠ name → replace n = replace' n) ∧ sweep replace s ≠ sweep replace' s

/-- References that are replaced by themselves leave the text as it is. -/
theorem sweep_self (s : List Char) : sweep ('$' :: ·) s = s := by
  have hid : Sweeps ('$' :: ·) (fun s => s) := by
    refine ⟨fun before name after _ _ _ => ?_, fun _ _ => rfl⟩
    rw [List.append_assoc, List.cons_append]
  exact congrFun ((sweeps_sweep _).unique hid) s

theorem asks_of_reference {before name after : List Char} (hne : name ≠ [])
    (hname : ∀ c ∈ name, isNameChar c = true) (hafter : ∀ c ∈ after.head?, isNameChar c = false) :
    Asks (before ++ '$' :: (name ++ after)) name := by
  -- what is put in is longer than the whole text
  let text := before ++ '$' :: (name ++ after)
  let long := List.replicate (text.length + 1) 'x'
  refine ⟨('$' :: ·), fun n => if n = name then long else '$' :: n, fun n hn => (if_neg hn).symm, ?_⟩
  intro h
  rw [sweep_self, (sweeps_sweep _).reference before name after hne hname hafter, if_pos rfl] at h
  have hlength := congrArg List.length h
  simp only [List.length_append, long, List.length_replicate, text] at hlength
  omega

/-- A sweep asks for the names of the text. -/
theorem asks_iff {s name : List Char} : Asks s name ↔ String.ofList name ∈ names s := by
  constructor
  · rintro ⟨replace, replace', hother, hne⟩
    by_cases hname : String.ofList name ∈ names s
    · exact hname
    · refine absurd (sweepFrom_congr fun n hn => hother n ?_).1 hne
      rintro rfl
      exact hname hn
  · intro h
    obtain ⟨before, rest, rfl, hrun, hne⟩ := mem_names_iff.1 h
    rw [String.toList_ofList] at hrun hne
    rw [← List.takeWhile_append_dropWhile (p := isNameChar) (l := rest), ← hrun]
    refine asks_of_reference hne ?_ (head?_behind_name rest)
    intro c hc
    rw [hrun] at hc
    exact List.all_eq_true.1 List.all_takeWhile c hc

/-- A sweep asks for a name exactly when it stands behind a dollar sign and does not go on. -/
theorem asks_iff_reference {s name : List Char} (hne : name ≠ [])
    (hname : ∀ c ∈ name, isNameChar c = true) : Asks s name ↔
      ∃ before after, s = before ++ '$' :: (name ++ after) ∧ ∀ c ∈ after.head?, isNameChar c = false := by
  constructor
  · intro h
    obtain ⟨before, rest, rfl, hrun, -⟩ := mem_names_iff.1 (asks_iff.1 h)
    rw [String.toList_ofList] at hrun
    refine ⟨before, rest.dropWhile isNameChar, ?_, head?_behind_name rest⟩
    rw [hrun, List.takeWhile_append_dropWhile]
  · rintro ⟨before, after, rfl, hafter⟩
    exact asks_of_reference hne hname hafter

instance (s name : List Char) : Decidable (Asks s name) := decidable_of_iff _ asks_iff.symm

end Reference

namespace Config

/-! ## The warning -/

/-- The name of the prompt character. -/
def characterName : List Char := "character".toList

/-- Among the warnings there is one that the format is missing the prompt character. -/
def WarnsMissing (c : Config) : Prop :=
  ∃ f ∈ c.validate.warnings, f.message = "Format string is missing the character module"

theorem head?_append {text : String} {c : Char} (h : text.toList.head? = some c) (more : String) :
    (text ++ more).toList.head? = some c := by
  rw [String.toList_append, List.head?_append, h, Option.some_or]

/-- No other warning begins with the same letter. -/
theorem eq_missingCharacter {f : Finding} (hf : f.isError = false)
    (h : f.message = "Format string is missing the character module") : f = .missingCharacter := by
  have hhead : f.message.toList.head? = some 'F' := by
    rw [h]
    decide
  unfold Finding.message at hhead
  cases f with
  | missingCharacter => rfl
  | unknownKey key =>
    have hletter : "Unknown module or setting: '".toList.head? = some 'U' := by decide
    exact absurd (hhead.symm.trans (head?_append (head?_append hletter _) _)) (by decide)
  | lowContrast name color =>
    have hletter : "Low contrast color ".toList.head? = some 'L' := by decide
    exact absurd (hhead.symm.trans
      (head?_append (head?_append (head?_append (head?_append hletter _) _) _) _)) (by decide)
  | slow ms =>
    have hletter : "Estimated render time is high (".toList.head? = some 'E' := by decide
    exact absurd (hhead.symm.trans (head?_append (head?_append hletter _) _)) (by decide)
  | unnamedTheme => exact absurd hhead (by decide)
  | _ => cases hf

/-- The last check alone is about the prompt character. -/
theorem missingCharacter_mem_iff {c : Config} :
    .missingCharacter ∈ c.validate.findings ↔ .missingCharacter ∈ c.checkCharacter := by
  constructor
  · intro h
    simp only [validate, List.mem_append] at h
    rcases h with (((h | h) | h) | h) | h
    · cases isError_of_mem_checkGlobals h
    · obtain ⟨⟨key, v⟩, -, hf⟩ := List.mem_filterMap.1 h
      unfold checkEntry at hf
      repeat' split at hf
      all_goals cases hf
    · obtain ⟨name, -, hf⟩ := List.mem_filterMap.1 h
      obtain ⟨color, hcolor⟩ := eq_lowContrast hf
      cases hcolor
    · unfold checkTime at h
      split at h
      · cases List.mem_singleton.1 h
      · cases h
    · exact h
  · intro h
    simp [validate, h]

theorem warnsMissing_iff {c : Config} {format : String} (hf : c.format? = some format)
    (hne : format ≠ "") : c.WarnsMissing ↔ ¬ '$' :: characterName <:+: format.toList := by
  have hpattern : "$character".toList = '$' :: characterName := by decide
  have hempty : format.isEmpty = false := by simpa using hne
  have hcheck : .missingCharacter ∈ c.checkCharacter ↔ ¬ '$' :: characterName <:+: format.toList := by
    rw [checkCharacter, hf, ← hpattern, ← Text.contains_iff]
    dsimp only
    rw [hempty, Bool.false_or]
    cases Text.contains "$character".toList format.toList <;> simp
  rw [← hcheck, ← missingCharacter_mem_iff]
  constructor
  · rintro ⟨f, hmem, hmessage⟩
    obtain ⟨hfound, hwarning⟩ := List.mem_filter.1 hmem
    obtain rfl := eq_missingCharacter (by simpa using hwarning) hmessage
    exact hfound
  · intro h
    exact ⟨_, List.mem_filter.2 ⟨h, rfl⟩, rfl⟩

/-- For a format that is not empty: a sweep asks for the prompt character when its name stands behind a
dollar sign and does not go on. The warning is given when no name that the sweep asks for begins with
the name of the prompt character. So the warning means that the sweep does not ask for the character, and
the converse holds unless it asks for longer names that begin so, and for no other. -/
theorem missing_character_iff (c : Config) (format : String) (hf : c.format? = some format)
    (hne : format ≠ "") :
    let asks := Reference.Asks format.toList
    (asks characterName ↔ ∃ before after, format.toList = before ++ '$' :: (characterName ++ after) ∧
      ∀ d ∈ after.head?, Reference.isNameChar d = false) ∧
    (c.WarnsMissing ↔ ∀ name, asks name → ¬ characterName <+: name) ∧
    (c.WarnsMissing → ¬ asks characterName) ∧
    ((c.WarnsMissing ↔ ¬ asks characterName) ↔
      (asks characterName ∨ ∀ name, asks name → ¬ characterName <+: name)) := by
  intro asks
  have hall : characterName.all Reference.isNameChar = true := by decide
  have hname : ∀ d ∈ characterName, Reference.isNameChar d = true := List.all_eq_true.1 hall
  have hwarns : c.WarnsMissing ↔ ∀ name, asks name → ¬ characterName <+: name := by
    rw [warnsMissing_iff hf hne, Reference.infix_iff_names (by decide) hname]
    constructor
    · intro h name hasks hprefix
      exact h ⟨_, Reference.asks_iff.1 hasks, by rwa [String.toList_ofList]⟩
    · rintro h ⟨name, hmem, hprefix⟩
      exact h name.toList (Reference.asks_iff.2 (by rwa [String.ofList_toList])) hprefix
  have hasks : c.WarnsMissing → ¬ asks characterName := fun h hasked =>
    hwarns.1 h characterName hasked List.prefix_rfl
  refine ⟨Reference.asks_iff_reference (by decide) hname, hwarns, hasks, ?_⟩
  rw [← hwarns]
  by_cases hasked : asks characterName
  · have hnot : ¬ c.WarnsMissing := fun h => hasks h hasked
    simp [hasked, hnot]
  · simp [hasked]

/-- A longer name beside a dollar sign that stands alone: no warning, though nothing asks for the
character. -/
theorem missing_character_iff_longer :
    let format := "$characters $"
    let c : Config := .ofEntries [("format", .string format)]
    c.format? = some format ∧ format ≠ "" ∧ ¬ Reference.Asks format.toList characterName ∧
      Reference.Asks format.toList "characters".toList ∧ ¬ c.WarnsMissing := by
  intro format c
  have hf : c.format? = some format := rfl
  have hne : format ≠ "" := by decide
  have hasks : Reference.Asks format.toList "characters".toList := by decide
  obtain ⟨-, hwarns, -, -⟩ := missing_character_iff c format hf hne
  refine ⟨hf, hne, by decide, hasks, ?_⟩
  intro h
  exact hwarns.1 h _ hasks (by decide)

end Config

end PromptTheme
