/-
What one sweep over a text does. `Reference.Sweeps` states two laws: a reference is replaced where it
stands, and the texts before it and behind it are swept as if they stood alone; and a text without
references stays as it is. `Reference.sweeps_iff` says that `sweep` obeys these laws, that nothing else
does, and that expanding a format and drawing a template are such sweeps. So what is put in is never
looked at again, and a reference has the longest name that it can have.

Behind both laws stands one fact about the scan: a text may be cut in front of any character that does
not go on with a name.
-/
import PromptTheme.Prompt.Engine

namespace PromptTheme

namespace Reference

variable {replace : List Char → List Char}

/-- Each reference of a text is replaced by what `replace` has for its name, all of them in one go. -/
structure Sweeps (replace swept : List Char → List Char) : Prop where
  reference : ∀ before name after : List Char, name ≠ [] → (∀ c ∈ name, isNameChar c = true) →
    (∀ c ∈ after.head?, isNameChar c = false) →
    swept (before ++ '$' :: (name ++ after)) = swept before ++ replace name ++ swept after
  unreferenced : ∀ s : List Char, (∀ c, ['$', c] <:+: s → isNameChar c = false) → swept s = s

/-! ## The scan -/

/-- At a character that does not go on with it, a name ends and the text is swept on. -/
theorem sweepFrom_of_head? {s : List Char} (hs : ∀ c ∈ s.head?, isNameChar c = false) (n : List Char) :
    sweepFrom replace (some n) s = flush replace n ++ sweep replace s := by
  cases s with
  | nil => exact (List.append_nil _).symm
  | cons c s =>
    rw [sweepFrom, if_neg (by rw [hs c rfl]; decide)]
    rfl

/-- Whatever has been read, a text may be cut where no name goes on. -/
theorem sweepFrom_append {s : List Char} (hs : ∀ c ∈ s.head?, isNameChar c = false) (a : List Char) :
    ∀ name, sweepFrom replace name (a ++ s) = sweepFrom replace name a ++ sweep replace s := by
  induction a with
  | nil =>
    intro name
    cases name with
    | none => rfl
    | some n => exact sweepFrom_of_head? hs n
  | cons c a ih =>
    -- outside a name, and at the end of one
    have hgo : (if c = '$' then sweepFrom replace (some []) (a ++ s)
          else c :: sweepFrom replace none (a ++ s)) =
        (if c = '$' then sweepFrom replace (some []) a else c :: sweepFrom replace none a) ++
          sweep replace s := by
      split
      · exact ih _
      · rw [ih, List.cons_append]
    intro name
    cases name with
    | none => exact hgo
    | some n =>
      rw [List.cons_append, sweepFrom, sweepFrom]
      split
      · exact ih _
      · rw [hgo, List.append_assoc]

theorem sweep_append {s : List Char} (hs : ∀ c ∈ s.head?, isNameChar c = false) (a : List Char) :
    sweep replace (a ++ s) = sweep replace a ++ sweep replace s :=
  sweepFrom_append hs a none

/-- A name is read to its end. -/
theorem sweepFrom_name {name : List Char} (h : ∀ c ∈ name, isNameChar c = true) (n : List Char) :
    sweepFrom replace (some n) name = flush replace (name.reverse ++ n) := by
  induction name generalizing n with
  | nil => rfl
  | cons c name ih =>
    rw [List.forall_mem_cons] at h
    rw [sweepFrom, if_pos h.1, ih h.2, List.reverse_cons, List.append_assoc]
    rfl

theorem sweep_reference {name : List Char} (hne : name ≠ []) (h : ∀ c ∈ name, isNameChar c = true) :
    sweep replace ('$' :: name) = replace name := by
  show sweepFrom replace (some []) name = replace name
  rw [sweepFrom_name h, List.append_nil, flush, List.reverse_reverse, if_neg (by simpa using hne)]

theorem sweep_unreferenced {s : List Char} (h : ∀ c, ['$', c] <:+: s → isNameChar c = false) :
    sweep replace s = s := by
  induction s with
  | nil => rfl
  | cons c s ih =>
    have htail := ih fun d hd => h d (hd.trans (List.suffix_cons c s).isInfix)
    by_cases hc : c = '$'
    · subst hc
      have hs : ∀ d ∈ s.head?, isNameChar d = false := by
        intro d hd
        obtain ⟨rest, rfl⟩ := List.head?_eq_some_iff.1 hd
        exact h d (List.prefix_append ['$', d] rest).isInfix
      have hcut : sweep replace (['$'] ++ s) = ['$'] ++ sweep replace s := sweep_append hs ['$']
      rw [htail] at hcut
      exact hcut
    · show (if c = '$' then sweepFrom replace (some []) s else c :: sweep replace s) = c :: s
      rw [if_neg hc, htail]

theorem sweeps_sweep (replace : List Char → List Char) : Sweeps replace (sweep replace) := by
  refine ⟨fun before name after hne hname hafter => ?_, fun s h => sweep_unreferenced h⟩
  have hdollar : ∀ c ∈ ('$' :: (name ++ after)).head?, isNameChar c = false := by
    rintro c ⟨⟩
    decide
  rw [sweep_append hdollar, ← List.cons_append, sweep_append hafter, sweep_reference hne hname,
    List.append_assoc]

/-! ## The laws leave no choice -/

/-- Behind the longest run of name characters there is none. -/
theorem head?_behind_name (s : List Char) : ∀ c ∈ (s.dropWhile isNameChar).head?, isNameChar c = false := by
  intro c hc
  have hnot := List.head?_dropWhile_not isNameChar s
  rw [hc] at hnot
  simpa using hnot

/-- A text with a reference has one whose name does not go on behind it. -/
theorem exists_reference {s : List Char} {c : Char} (h : ['$', c] <:+: s) (hc : isNameChar c = true) :
    ∃ before name after, s = before ++ '$' :: (name ++ after) ∧ name ≠ [] ∧
      (∀ d ∈ name, isNameChar d = true) ∧ ∀ d ∈ after.head?, isNameChar d = false := by
  obtain ⟨before, rest, rfl⟩ := h
  refine ⟨before, c :: rest.takeWhile isNameChar, rest.dropWhile isNameChar, ?_, by simp, ?_,
    head?_behind_name rest⟩
  · rw [List.cons_append, List.takeWhile_append_dropWhile]
    simp
  · intro d hd
    rcases List.mem_cons.1 hd with rfl | hd
    · exact hc
    · exact List.all_eq_true.1 List.all_takeWhile d hd

theorem Sweeps.unique {swept swept' : List Char → List Char} (h : Sweeps replace swept)
    (h' : Sweeps replace swept') : swept = swept' := by
  funext s
  -- the texts around a reference are shorter
  induction hl : s.length using Nat.strongRecOn generalizing s with
  | _ l ih =>
    by_cases hs : ∃ c, ['$', c] <:+: s ∧ isNameChar c = true
    · obtain ⟨c, hin, hc⟩ := hs
      obtain ⟨before, name, after, rfl, hne, hname, hafter⟩ := exists_reference hin hc
      simp only [List.length_append, List.length_cons] at hl
      rw [h.reference before name after hne hname hafter, h'.reference before name after hne hname hafter,
        ih before.length (by omega) before rfl, ih after.length (by omega) after rfl]
    · have hfree : ∀ c, ['$', c] <:+: s → isNameChar c = false := by
        intro c hin
        rw [← Bool.not_eq_true]
        exact fun hc => hs ⟨c, hin, hc⟩
      rw [h.unreferenced s hfree, h'.unreferenced s hfree]

/-! ## Where texts are swept -/

/-- What `substitute` puts in for a name: the value of the first pair with this name, or the reference
itself. -/
theorem lookup?_getD (name : List Char) (vars : List (String × String)) :
    (lookup? name vars).getD ('$' :: name) =
      (((vars.find? fun v => v.1 = String.ofList name).map Prod.snd).getD
        ("$" ++ String.ofList name)).toList := by
  have hkey : (fun v : String × String => decide (v.1.toList = name)) =
      fun v => decide (v.1 = String.ofList name) := by
    funext v
    rw [decide_eq_decide]
    constructor
    · rintro rfl
      exact String.ofList_toList.symm
    · intro hv
      rw [hv, String.toList_ofList]
  rw [lookup?, hkey]
  cases vars.find? fun v => v.1 = String.ofList name with
  | none => simp
  | some v => rfl

/-- The laws of a sweep hold of `sweep` and of nothing else, whatever the references are replaced by. A
format is expanded by a sweep that asks for the fragments of modules, and a template is drawn by one that
asks for the first of the given values under a name. -/
theorem sweeps_iff :
    (∀ replace swept : List Char → List Char, Sweeps replace swept ↔ swept = sweep replace) ∧
    (∀ (e : Engine) (c : Config) (s : Scenario),
      Sweeps (fun name => (e.resolve c s (String.ofList name)).toList) (e.expand c s)) ∧
    ∀ vars : List (String × String),
      Sweeps
        (fun name => (((vars.find? fun v => v.1 = String.ofList name).map Prod.snd).getD
          ("$" ++ String.ofList name)).toList)
        (fun template => (substitute (String.ofList template) vars).toList) := by
  refine ⟨fun replace swept => ⟨fun h => h.unique (sweeps_sweep replace), ?_⟩, ?_, ?_⟩
  · rintro rfl
    exact sweeps_sweep replace
  · exact fun e c s => sweeps_sweep _
  · intro vars
    have hsweep := sweeps_sweep fun name => (lookup? name vars).getD ('$' :: name)
    have hswept : (fun template => (substitute (String.ofList template) vars).toList) =
        sweep fun name => (lookup? name vars).getD ('$' :: name) := by
      funext template
      rw [substitute, String.toList_ofList, String.toList_ofList]
    rw [hswept]
    simpa only [lookup?_getD] using hsweep

/-- A value that ends in a dollar sign in front of a name, a dollar sign before a reference, and a letter
that ends a name. -/
example : sweep (fun name => '<' :: name ++ ['$']) "$a$b $$c_1é$".toList = "<a$<b$ $<c_1$é$".toList := by
  decide

end Reference

end PromptTheme
