/-
When the passes over the styled groups come to rest. `Settles` is their loop without a cap, with the
number of passes that change something. Neither the length of a text nor the balance of its brackets goes
down in a pass, since escape sequences come in and have opening brackets of their own. The number of
closing brackets does: each group loses one and no sequence brings one. So the loop comes to rest on every
text, where no group is left, and a capped loop either ends there too or leaves a group behind.
`Engine.passes_settle` has all this, and what it means for groups nested to any depth.
-/
import PromptTheme.Proofs.Prompt.Integrity
import PromptTheme.Proofs.Prompt.Sweep

namespace PromptTheme

open Escape (Encoded)

namespace Group

variable {encode : List Char → List Char}

/-! ## A pass lowers the number of closing brackets -/

/-- A group can be read somewhere in a text. -/
def HasGroup (s : List Char) : Prop :=
  ∃ front rest text style after, s = front ++ '[' :: rest ∧ Opens rest text style after

theorem hasGroup_cons {c : Char} {s : List Char} (h : c ≠ '[' ∨ rest? s = none) :
    HasGroup (c :: s) ↔ HasGroup s := by
  constructor
  · rintro ⟨front, rest, text, style, after, heq, ho⟩
    cases front with
    | nil =>
      obtain ⟨rfl, rfl⟩ := List.cons.inj heq
      have hnone := h.resolve_left (not_not_intro rfl)
      rw [rest?_eq_some_iff.2 ho] at hnone
      cases hnone
    | cons d front => exact ⟨front, rest, text, style, after, (List.cons.inj heq).2, ho⟩
  · rintro ⟨front, rest, text, style, after, rfl, ho⟩
    exact ⟨c :: front, rest, text, style, after, rfl, ho⟩

/-- There is a group exactly when a pass finds one. -/
theorem hasGroup_iff (s : List Char) : HasGroup s ↔ styles (pieces s) ≠ [] := by
  induction s using reading with
  | nil => simp [HasGroup, styles, pieces_nil]
  | char c s hc ih =>
    rw [hasGroup_cons hc, pieces_char hc, ih]
    rfl
  | group s text style after ho _ =>
    rw [pieces_group ho]
    exact ⟨fun _ => List.cons_ne_nil _ _, fun _ => ⟨[], s, text, style, after, rfl, ho⟩⟩

/-- The closing brackets that go are those of the groups, and those in their styles. -/
theorem count_close_pass (hE : ∀ style, Encoded (encode style)) (s : List Char) :
    (pass encode s).count ']' + ((styles (pieces s)).map fun style => 1 + style.count ']').sum =
      s.count ']' := by
  have hbrackets : ['[', ']', '(', ')'].count ']' = 1 := by decide
  have hstyle : ∀ style, (encode style).count ']' = 0 :=
    fun style => List.count_eq_zero.2 ((hE style).not_mem (by decide))
  have hreset : Escape.reset.count ']' = 0 := by decide
  have h := count_pass_add encode ']' s
  simp only [hbrackets, hstyle, hreset, Nat.add_zero] at h
  rw [h, List.map_const', List.sum_replicate, smul_zero, Nat.add_zero]

theorem count_close_pass_lt (hE : ∀ style, Encoded (encode style)) {s : List Char} (h : HasGroup s) :
    (pass encode s).count ']' < s.count ']' := by
  obtain ⟨style, rest, hs⟩ := List.exists_cons_of_ne_nil ((hasGroup_iff s).1 h)
  have hcount := count_close_pass hE s
  rw [hs, List.map_cons, List.sum_cons] at hcount
  omega

theorem pass_eq_self_of_not_hasGroup {s : List Char} (h : ¬HasGroup s) : pass encode s = s :=
  pass_eq_self (not_not.1 fun hne => h ((hasGroup_iff s).2 hne))

theorem hasGroup_of_pass_ne {s : List Char} (h : pass encode s ≠ s) : HasGroup s :=
  not_imp_comm.1 pass_eq_self_of_not_hasGroup h

theorem pass_eq_self_iff (hE : ∀ style, Encoded (encode style)) (s : List Char) :
    pass encode s = s ↔ ¬HasGroup s := by
  refine ⟨fun h hg => ?_, pass_eq_self_of_not_hasGroup⟩
  have hlt := count_close_pass_lt hE hg
  rw [h] at hlt
  exact Nat.lt_irrefl _ hlt

/-! ## The loop without a cap -/

/-- Repeating the pass until nothing changes leads from one text to the other, and so many of the passes
change something. -/
inductive Settles (encode : List Char → List Char) : Nat → List Char → List Char → Prop
  | rest {s : List Char} : pass encode s = s → Settles encode 0 s s
  | change {n : Nat} {s t : List Char} :
      pass encode s ≠ s → Settles encode n (pass encode s) t → Settles encode (n + 1) s t

theorem exists_settles (hE : ∀ style, Encoded (encode style)) (s : List Char) :
    ∃ n t, Settles encode n s t := by
  induction hc : s.count ']' using Nat.strong_induction_on generalizing s with
  | _ k ih =>
    by_cases h : pass encode s = s
    · exact ⟨0, s, .rest h⟩
    · have hlt := count_close_pass_lt hE (hasGroup_of_pass_ne h)
      obtain ⟨n, t, ht⟩ := ih _ (hc ▸ hlt) (pass encode s) rfl
      exact ⟨n + 1, t, .change h ht⟩

namespace Settles

variable {n : Nat} {s t : List Char}

theorem le_count (hE : ∀ style, Encoded (encode style)) (h : Settles encode n s t) : n ≤ s.count ']' := by
  induction h with
  | rest _ => exact Nat.zero_le _
  | change hne _ ih => exact Nat.lt_of_le_of_lt ih (count_close_pass_lt hE (hasGroup_of_pass_ne hne))

theorem not_hasGroup (hE : ∀ style, Encoded (encode style)) (h : Settles encode n s t) : ¬HasGroup t := by
  induction h with
  | rest h => exact (pass_eq_self_iff hE _).1 h
  | change _ _ ih => exact ih

/-- A cap that leaves enough passes makes no difference. -/
theorem passes_eq (h : Settles encode n s t) : ∀ cap, n ≤ cap → passes encode cap s = t := by
  induction h with
  | rest h =>
    intro cap _
    cases cap with
    | zero => rfl
    | succ cap => rw [passes, if_pos h]
  | change hne _ ih =>
    intro cap hcap
    cases cap with
    | zero => omega
    | succ cap => rw [passes, if_neg hne, ih cap (by omega)]

/-- A cap that leaves too few passes leaves a group. -/
theorem hasGroup_passes (h : Settles encode n s t) : ∀ cap < n, HasGroup (passes encode cap s) := by
  induction h with
  | rest _ => exact fun cap hcap => absurd hcap (Nat.not_lt_zero cap)
  | change hne _ ih =>
    intro cap hcap
    cases cap with
    | zero => exact hasGroup_of_pass_ne hne
    | succ cap =>
      rw [passes, if_neg hne]
      exact ih cap (by omega)

end Settles

/-! ## Nested groups -/

/-- The ends of so many groups. -/
def closers (n : Nat) : List Char := (List.replicate n "](red)".toList).flatten

/-- Groups of one style inside one another. -/
def nested (depth : Nat) : List Char := List.replicate depth '[' ++ 'x' :: closers depth

theorem closers_succ (n : Nat) : closers (n + 1) = "](red)".toList ++ closers n := by
  rw [closers, List.replicate_succ, List.flatten_cons]
  rfl

theorem mem_closers {n : Nat} {c : Char} (h : c ∈ closers n) : c ∈ "](red)".toList := by
  obtain ⟨l, hl, hc⟩ := List.mem_flatten.1 h
  rwa [List.eq_of_mem_replicate hl] at hc

theorem mem_nested {depth : Nat} {c : Char} (h : c ∈ nested depth) : c ∈ "[x](red)".toList := by
  rcases List.mem_append.1 h with h | h
  · rw [List.eq_of_mem_replicate h]
    decide
  rcases List.mem_cons.1 h with rfl | h
  · decide
  · have hsub : "](red)".toList ⊆ "[x](red)".toList := by decide
    exact hsub (mem_closers h)

/-- The next end of a group closes one: there is an opening bracket, and behind the first of them there is
some text, without a closing bracket. -/
structure Pending (front : List Char) : Prop where
  close_free : ']' ∉ front
  opened : ∃ before text, front = before ++ '[' :: text ∧ '[' ∉ before ∧ text ≠ []

theorem pending_concat {body : List Char} {c : Char} (hc : ']' ∉ body ++ [c]) (ho : '[' ∈ body) :
    Pending (body ++ [c]) := by
  obtain ⟨before, text, rfl, hb⟩ := List.eq_append_cons_of_mem ho
  exact ⟨hc, before, text ++ [c], by simp, hb, by simp⟩

/-- A pass closes the first opening bracket with the first end, and finds nothing for the other ends. The
reset that it draws has the opening bracket for the next pass. -/
theorem pass_closers (hE : ∀ style, Encoded (encode style)) {front : List Char} (h : Pending front) (n : Nat) :
    ∃ front', Pending front' ∧ pass encode (front ++ closers n) = front' ++ closers (n - 1) := by
  cases n with
  | zero =>
    refine ⟨front, h, pass_eq_self_of_close_free ?_⟩
    rw [closers, List.replicate_zero, List.flatten_nil, List.append_nil]
    exact h.close_free
  | succ n =>
    obtain ⟨hc, before, text, rfl, hb, hne⟩ := h
    rw [List.mem_append, List.mem_cons, not_or, not_or] at hc
    have ho : Opens (text ++ closers (n + 1)) text "red".toList (closers n) :=
      ⟨by rw [closers_succ]; rfl, hc.2.2, by decide, hne, by decide⟩
    have hrest : pass encode (closers n) = closers n :=
      pass_eq_self_of_open_free fun hm => absurd (mem_closers hm) (by decide)
    refine ⟨before ++ encode "red".toList ++ text ++ Escape.reset, ?_, ?_⟩
    · have hreset : Escape.reset = [Escape.esc, '[', '0'] ++ ['m'] := by decide
      rw [hreset, ← List.append_assoc]
      refine pending_concat ?_ (by simp)
      have hstyle : ']' ∉ encode "red".toList := (hE _).not_mem (by decide)
      simp only [List.mem_append, not_or]
      exact ⟨⟨⟨⟨hc.1, hstyle⟩, hc.2.2⟩, by decide⟩, by decide⟩
    · rw [List.append_assoc, List.cons_append, pass_append_of_open_free hb, pass_group ho, hrest]
      simp only [List.append_assoc]
      rfl

theorem passes_closers (hE : ∀ style, Encoded (encode style)) {front : List Char} (h : Pending front)
    (n k : Nat) :
    ∃ front', Pending front' ∧ passes encode k (front ++ closers n) = front' ++ closers (n - k) := by
  induction k with
  | zero => exact ⟨front, h, rfl⟩
  | succ k ih =>
    obtain ⟨front', h', heq⟩ := ih
    rw [passes_succ, heq, ← Nat.sub_sub]
    exact pass_closers hE h' (n - k)

/-- Each pass takes the end of one group away. -/
theorem passes_nested (hE : ∀ style, Encoded (encode style)) (depth k : Nat) :
    ∃ front, ']' ∉ front ∧ passes encode k (nested depth) = front ++ closers (depth - k) := by
  cases depth with
  | zero =>
    have h : pass encode (nested 0) = nested 0 := pass_eq_self_of_close_free (by decide)
    rw [(Settles.rest h).passes_eq k (Nat.zero_le k), Nat.zero_sub]
    exact ⟨['x'], by decide, rfl⟩
  | succ depth =>
    have hp : Pending (List.replicate (depth + 1) '[' ++ ['x']) :=
      pending_concat (by simp [List.mem_replicate]) (by simp)
    obtain ⟨front, hf, heq⟩ := passes_closers hE hp (depth + 1) k
    refine ⟨front, hf.close_free, ?_⟩
    rw [← heq, nested, List.append_assoc]
    rfl

end Group

/-! ## Occurrences -/

/-- How often a pattern occurs in a text. -/
def occurrences (pattern s : List Char) : Nat := s.tails.countP pattern.isPrefixOf

/-- A pattern does not begin before its first character does. -/
theorem occurrences_append {c : Char} {a : List Char} (ha : c ∉ a) (pattern s : List Char) :
    occurrences (c :: pattern) (a ++ s) = occurrences (c :: pattern) s := by
  induction a with
  | nil => rfl
  | cons d a ih =>
    rw [List.mem_cons, not_or] at ha
    rw [← ih ha.2, occurrences, List.cons_append, List.tails_cons, List.countP_cons_of_neg]
    · rfl
    · simp [List.isPrefixOf, ha.1]

theorem occurrences_append_closers {front : List Char} (hf : ']' ∉ front) (n : Nat) :
    occurrences "](red)".toList (front ++ Group.closers n) = n := by
  refine (occurrences_append hf "(red)".toList (Group.closers n)).trans ?_
  induction n with
  | zero => rfl
  | succ n ih =>
    have hfree : ']' ∉ "(red)".toList := by decide
    have htail := (occurrences_append hfree "(red)".toList (Group.closers n)).trans ih
    rw [Group.closers_succ]
    show (List.tails (']' :: ("(red)".toList ++ Group.closers n))).countP _ = n + 1
    rw [List.tails_cons, List.countP_cons_of_pos]
    · exact congrArg (· + 1) htail
    · rw [List.isPrefixOf_iff_prefix]
      exact List.prefix_append "](red)".toList (Group.closers n)

namespace Engine

/-- Of nested groups, a rendering draws as many as it has passes. -/
theorem occurrences_render_nested (e : Engine) (c : Config) (s : Scenario) (depth : Nat) :
    occurrences "](red)".toList (e.render c s (String.ofList (Group.nested depth))).toList =
      depth - Group.maxPasses := by
  have hE : ∀ style, Encoded (c.activePalette.encodeWith e.mode style) :=
    c.activePalette.encoded_encodeWith e.mode
  have hexpand : e.expand c s (Group.nested depth) = Group.nested depth := by
    refine Reference.sweep_unreferenced fun d hd => ?_
    have hdollar : '$' ∈ Group.nested depth := hd.subset (by simp)
    exact absurd (Group.mem_nested hdollar) (by decide)
  have hslash : '\\' ∉ Group.passes (c.activePalette.encodeWith e.mode) Group.maxPasses (Group.nested depth) :=
    fun hm => absurd (Group.mem_nested (Group.mem_of_mem_passes hE (by decide) hm)) (by decide)
  obtain ⟨front, hfront, heq⟩ := Group.passes_nested hE depth Group.maxPasses
  have hout : (e.render c s (String.ofList (Group.nested depth))).toList =
      front ++ Group.closers (depth - Group.maxPasses) := by
    rw [render, String.toList_ofList, renderChars, String.toList_ofList, hexpand,
      breakLines_of_not_mem hslash, heq]
  rw [hout]
  exact occurrences_append_closers hfront _

open PromptTheme.Group in
/-- A pass that finds a group lowers the number of closing brackets, and any other leaves the text as it
is, so that a text is left as it is exactly when there is no group in it. So repeating the pass comes to
rest on every text, after no more passes than there are closing brackets. With a cap, which is `maxPasses`
in a rendering, the text is the same when there are enough passes, and otherwise there is a group left. Of
groups nested to any depth, all but five are left. -/
theorem passes_settle :
    (∀ (palette : Palette) (mode : EscapeMode) (s : List Char),
      let encode := palette.encodeWith mode
      (HasGroup s → (pass encode s).count ']' < s.count ']') ∧
      (¬HasGroup s → pass encode s = s) ∧
      (pass encode s = s ↔ ¬HasGroup s) ∧
      (∃ n t, Settles encode n s t) ∧
      ∀ n t, Settles encode n s t →
        n ≤ s.count ']' ∧ ¬HasGroup t ∧
        (n ≤ maxPasses → passes encode maxPasses s = t) ∧
        (maxPasses < n → HasGroup (passes encode maxPasses s))) ∧
    ∀ (e : Engine) (c : Config) (s : Scenario) (depth : Nat),
      occurrences "](red)".toList (e.render c s (String.ofList (nested depth))).toList = depth - 5 := by
  refine ⟨fun palette mode s => ?_, occurrences_render_nested⟩
  have hE : ∀ style, Encoded (palette.encodeWith mode style) := palette.encoded_encodeWith mode
  refine ⟨count_close_pass_lt hE, pass_eq_self_of_not_hasGroup, pass_eq_self_iff hE s,
    exists_settles hE s, fun n t h => ?_⟩
  exact ⟨h.le_count hE, h.not_hasGroup hE, h.passes_eq maxPasses, h.hasGroup_passes maxPasses⟩

end Engine

end PromptTheme
