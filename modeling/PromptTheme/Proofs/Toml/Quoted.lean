/-
Strings and keys are read back as they were written. Each of the four quoted forms gets one lemma about
its body, and `Toml.string?_stringText` and `Toml.segment?_segmentText` join them for the form that the
writer takes.

A string over several lines may end in quotes of its own, and then the reader sees five of them: two and
the closing three. The induction therefore carries along the quotes that stand directly before the text.
-/
import PromptTheme.Text.Blank
import PromptTheme.Toml.Text
import Mathlib.Tactic

namespace PromptTheme.Toml

/-! ## Scanning -/

/-- Characters that a class tells apart differ. -/
theorem ne_of_class {p : Char → Bool} {c d : Char} (hc : p c = true) (hd : p d = false) : c ≠ d := by
  rintro rfl
  rw [hc] at hd
  cases hd

/-! ## Escapes -/

theorem toNat_lt_of_isControl {c : Char} (h : isControl c = true) : c.toNat < 128 := by
  simp only [isControl, Bool.or_eq_true, Bool.and_eq_true, decide_eq_true_eq, beq_iff_eq] at h
  omega

/-- The number in an escape is that of the character. -/
theorem charOfHex?_control {c : Char} (h : isControl c = true) :
    charOfHex? ['0', '0', (Text.hexDigit (c.toNat / 16)).toUpper, (Text.hexDigit (c.toNat % 16)).toUpper] =
      some c :=
  Text.forall_ascii (p := fun c => isControl c = true → charOfHex? ['0', '0',
    (Text.hexDigit (c.toNat / 16)).toUpper, (Text.hexDigit (c.toNat % 16)).toUpper] = some c)
    (by decide +kernel) (toNat_lt_of_isControl h) h

theorem head?_escapeChar {multi : Bool} {c : Char} (hc : c ≠ '"') (s : List Char) :
    (escapeChar multi c ++ s).head? ≠ some '"' := by
  have hcons : ∃ d t, escapeChar multi c = d :: t ∧ d ≠ '"' := by
    unfold escapeChar
    split
    case h_3 => cases multi <;> exact ⟨_, _, rfl, by decide⟩
    case h_7 =>
      split
      · exact ⟨_, _, rfl, by decide⟩
      · exact ⟨_, _, rfl, hc⟩
    all_goals exact ⟨_, _, rfl, by decide⟩
  obtain ⟨d, t, he, hd⟩ := hcons
  rw [he, List.cons_append, List.head?_cons]
  exact fun h => hd (Option.some.inj h)

theorem basicBody_escapeChar {c : Char} (hc : c ≠ '"') (s : List Char) :
    basicBody (escapeChar false c ++ s) = withChar c (basicBody s) := by
  unfold escapeChar
  split
  · rfl
  · rfl
  · rfl
  · rfl
  · rfl
  · rfl
  · rename_i hslash
    split
    · rename_i hcontrol
      simp only [List.cons_append, List.nil_append]
      rw [basicBody, charOfHex?_control hcontrol]
    · rename_i hcontrol
      rw [List.singleton_append, basicBody.eq_6]
      · rw [if_neg]
        rintro (h | h)
        · exact hcontrol h
        · exact hslash h
      · exact hc
      · exact fun _ _ _ _ _ h => absurd h hslash
      · exact fun _ _ _ _ _ _ _ _ _ h => absurd h hslash
      · exact fun _ _ h => absurd h hslash

/-- What stands in double quotes on one line. -/
theorem basicBody_escape (s rest : List Char) :
    basicBody (escape false 0 s ++ '"' :: rest) = some (s, rest) := by
  induction s with
  | nil => rfl
  | cons c s ih =>
    by_cases hc : c = '"'
    · subst hc
      have hstep : basicBody ('\\' :: '"' :: (escape false 0 s ++ '"' :: rest)) =
          withChar '"' (basicBody (escape false 0 s ++ '"' :: rest)) := rfl
      rw [escape, if_neg (by simp), List.cons_append, List.cons_append, hstep, ih]
      rfl
    · rw [escape.eq_3 _ _ _ _ hc, List.append_assoc, basicBody_escapeChar hc, ih]
      rfl

/-- What stands in single quotes on one line. -/
theorem literalBody_append {s : List Char} (hquote : '\'' ∉ s) (hcontrol : ∀ c ∈ s, isControl c = false)
    (rest : List Char) : literalBody (s ++ '\'' :: rest) = some (s, rest) := by
  induction s with
  | nil => rfl
  | cons c s ih =>
    rw [List.mem_cons, not_or] at hquote
    rw [List.cons_append, literalBody.eq_3 _ _ (Ne.symm hquote.1), hcontrol c (by simp), if_neg Bool.false_ne_true,
      ih hquote.2 fun d hd => hcontrol d (by simp [hd])]
    rfl

/-! ## Runs of quotes -/

/-- How `longestRun` goes on with a character: the longest run so far, and the one that it is in. -/
def countRun (c : Char) : Nat × Nat → Char → Nat × Nat := fun (longest, run) d =>
  if d = c then (max longest (run + 1), run + 1) else (longest, 0)

theorem longestRun_eq (c : Char) (s : List Char) : longestRun c s = (s.foldl (countRun c) (0, 0)).1 := rfl

theorem le_foldl_countRun (c : Char) (s : List Char) (counts : Nat × Nat) :
    counts.1 ≤ (s.foldl (countRun c) counts).1 := by
  induction s generalizing counts with
  | nil => exact Nat.le_refl _
  | cons d s ih =>
    have hstep : counts.1 ≤ (countRun c counts d).1 := by
      simp only [countRun]
      split
      · exact Nat.le_max_left _ _
      · exact Nat.le_refl _
    rw [List.foldl_cons]
    exact hstep.trans (ih _)

theorem le_foldl_replicate (c : Char) (n : Nat) (counts : Nat × Nat) (h : 0 < n) :
    counts.2 + n ≤ ((List.replicate n c).foldl (countRun c) counts).1 := by
  induction n generalizing counts with
  | zero => omega
  | succ n ih =>
    have hstep : countRun c counts c = (max counts.1 (counts.2 + 1), counts.2 + 1) := by
      simp only [countRun, if_true]
    rw [List.replicate_succ, List.foldl_cons, hstep]
    rcases Nat.eq_zero_or_pos n with rfl | hn
    · exact Nat.le_max_right _ _
    · have := ih (max counts.1 (counts.2 + 1), counts.2 + 1) hn
      simp only at this
      omega

/-- No run is longer than the longest one. -/
theorem not_infix_of_longestRun_lt {c : Char} {n : Nat} {s : List Char} (h : longestRun c s < n) :
    ¬ List.replicate n c <:+: s := by
  rintro ⟨a, b, rfl⟩
  rw [longestRun_eq, List.foldl_append, List.foldl_append] at h
  have h1 := le_foldl_replicate c n (a.foldl (countRun c) (0, 0)) (by omega)
  have h2 := le_foldl_countRun c b
    ((List.replicate n c).foldl (countRun c) (a.foldl (countRun c) (0, 0)))
  omega

theorem not_mem_of_longestRun {c : Char} {s : List Char} (h : longestRun c s = 0) : c ∉ s := by
  intro hm
  have hlt : longestRun c s < 1 := by omega
  exact not_infix_of_longestRun_lt hlt ((List.singleton_infix_iff c s).2 hm)

/-! ## Strings over several lines -/

/-- Of five quotes in a row the last three close the string. -/
theorem closing_replicate {q : Char} {n : Nat} (hn : n ≤ 2) {rest : List Char} (hr : rest.head? ≠ some q) :
    closing q (List.replicate n q ++ rest) = (List.replicate n q, rest) := by
  have hnil : closing q rest = ([], rest) := by
    rcases rest with _ | ⟨a, _ | ⟨b, rest⟩⟩
    · rfl
    · simp only [List.head?_cons, ne_eq, Option.some.injEq] at hr
      rw [closing, if_neg hr]
    · simp only [List.head?_cons, ne_eq, Option.some.injEq] at hr
      rw [closing, if_neg fun h => hr h.1, if_neg hr]
  interval_cases n
  · exact hnil
  · rcases rest with _ | ⟨a, rest⟩
    · simp [closing]
    · simp only [List.head?_cons, ne_eq, Option.some.injEq] at hr
      simp [closing, hr]
  · simp [closing, List.replicate]

/-- One or two quotes in front of a text are part of it, for a reader that takes a quote for the end only
when two more follow. -/
theorem body_replicate {q : Char} {body : List Char → Option (List Char × List Char)}
    (hquote : ∀ {s : List Char}, (∀ t, s ≠ q :: q :: t) → body (q :: s) = withChar q (body s)) {n : Nat}
    (hn : n ≤ 2) {s : List Char} (hs : s.head? ≠ some q) {cs rest : List Char}
    (h : body s = some (cs, rest)) :
    body (List.replicate n q ++ s) = some (List.replicate n q ++ cs, rest) := by
  have hone : body (q :: s) = some (q :: cs, rest) := by
    rw [hquote, h]
    · rfl
    · rintro t rfl
      exact hs rfl
  interval_cases n
  · exact h
  · exact hone
  · show body (q :: q :: s) = _
    rw [hquote, hone]
    · rfl
    · rintro t he
      obtain rfl : s = q :: t := (List.cons.inj he).2
      exact hs rfl

theorem multiBody_escapeChar {c : Char} (hc : c ≠ '"') (s : List Char) :
    multiBody .nothing (escapeChar true c ++ s) = withChar c (multiBody .nothing s) := by
  unfold escapeChar
  split
  · rfl
  · rfl
  · rfl
  · rfl
  · rfl
  · rfl
  · rename_i htab hline hfeed hreturn hslash
    split
    · rename_i hcontrol
      simp only [List.cons_append, List.nil_append]
      rw [multiBody, if_neg (by decide), charOfHex?_control hcontrol]
    · rename_i hcontrol
      rw [List.singleton_append, multiBody.eq_9]
      · have hraw : ¬(Skip.nothing = .lineEnd ∨ isControl c = true ∨ c = '\\') := by
          rintro (h | h | h)
          · cases h
          · exact hcontrol h
          · exact hslash h
        rw [if_neg hraw, if_pos rfl, ite_self]
      · exact fun _ h => absurd h hreturn
      · exact hline
      · exact fun _ h => absurd h hc
      · exact fun _ _ _ _ _ h => absurd h hslash
      · exact fun _ _ _ _ _ _ _ _ _ h => absurd h hslash
      · exact fun _ h => absurd h hslash
      · exact fun _ _ h => absurd h hslash

/-- A quote that does not begin the closing three is a character of the text. -/
theorem multiBody_quote {s : List Char} (h : ∀ t, s ≠ '"' :: '"' :: t) :
    multiBody .nothing ('"' :: s) = withChar '"' (multiBody .nothing s) := by
  have hslash : '"' ≠ '\\' := by decide
  rw [multiBody.eq_9]
  · rfl
  · exact fun _ he => absurd he (by decide)
  · exact (by decide : '"' ≠ '\n')
  · exact fun t _ hs => h t hs
  · exact fun _ _ _ _ _ he => absurd he hslash
  · exact fun _ _ _ _ _ _ _ _ _ he => absurd he hslash
  · exact fun _ he => absurd he hslash
  · exact fun _ _ he => absurd he hslash

/-- What stands in three double quotes, behind `n` quotes that belong to the text. -/
theorem multiBody_escape {rest : List Char} (hr : rest.head? ≠ some '"') (s : List Char) {n : Nat}
    (hn : n ≤ 2) :
    multiBody .nothing (List.replicate n '"' ++ (escape true n s ++ '"' :: '"' :: '"' :: rest)) =
      some (List.replicate n '"' ++ s, rest) := by
  induction s generalizing n with
  | nil =>
    -- the first three of the quotes close the string, and `closing` gives the others back
    have hquotes : List.replicate n '"' ++ (escape true n [] ++ '"' :: '"' :: '"' :: rest) =
        '"' :: '"' :: '"' :: (List.replicate n '"' ++ rest) := by
      interval_cases n <;> rfl
    rw [hquotes, multiBody, if_neg (by decide), closing_replicate hn hr, List.append_nil]
  | cons c s ih =>
    have hzero := ih (Nat.zero_le 2)
    rw [List.replicate_zero, List.nil_append, List.nil_append] at hzero
    by_cases hc : c = '"'
    · subst hc
      rw [escape]
      by_cases hlt : n < 2
      · have hmove : List.replicate n '"' ++ '"' :: s = List.replicate (n + 1) '"' ++ s := by
          rw [List.replicate_succ', List.append_assoc]
          rfl
        rw [if_pos ⟨rfl, hlt⟩, hmove, ← ih (by omega), List.replicate_succ', List.append_assoc]
        rfl
      · -- a third quote in a row is escaped, so that the run in front of it ends
        have hstep : ∀ t, multiBody .nothing ('\\' :: '"' :: t) = withChar '"' (multiBody .nothing t) :=
          fun _ => rfl
        rw [if_neg fun h => hlt h.2]
        refine body_replicate multiBody_quote hn ?_ ?_
        · simp
        · rw [List.cons_append, List.cons_append, hstep, hzero]
          rfl
    · rw [escape.eq_3 _ _ _ _ hc, List.append_assoc]
      refine body_replicate multiBody_quote hn (head?_escapeChar hc _) ?_
      rw [multiBody_escapeChar hc, hzero]
      rfl

/-- The characters that a string in three single quotes may have. -/
theorem multiLiteralBody_char {c : Char} (hc : c ≠ '\'') (hcontrol : isControl c = true → c = '\n')
    (s : List Char) : multiLiteralBody (c :: s) = withChar c (multiLiteralBody s) := by
  rw [multiLiteralBody.eq_4]
  · rw [if_neg fun h => h.2 (hcontrol h.1)]
  · exact fun _ h => absurd h hc
  · rintro t rfl -
    exact absurd (hcontrol rfl) (by decide)

theorem multiLiteralBody_quote {s : List Char} (h : ∀ t, s ≠ '\'' :: '\'' :: t) :
    multiLiteralBody ('\'' :: s) = withChar '\'' (multiLiteralBody s) := by
  rw [multiLiteralBody.eq_4]
  · rfl
  · exact fun t _ hs => h t hs
  · exact fun _ h => absurd h (by decide)

/-- What stands in three single quotes, behind `n` quotes that belong to the text. -/
theorem multiLiteralBody_append {rest : List Char} (hr : rest.head? ≠ some '\'') {s : List Char} {n : Nat}
    (hrun : ¬ List.replicate 3 '\'' <:+: List.replicate n '\'' ++ s)
    (hcontrol : ∀ c ∈ s, isControl c = true → c = '\n') :
    multiLiteralBody (List.replicate n '\'' ++ (s ++ '\'' :: '\'' :: '\'' :: rest)) =
      some (List.replicate n '\'' ++ s, rest) := by
  have hn : n ≤ 2 := by
    by_contra hlt
    obtain ⟨m, rfl⟩ : ∃ m, n = 3 + m := ⟨n - 3, by omega⟩
    rw [List.replicate_add, List.append_assoc] at hrun
    exact hrun (List.prefix_append _ _).isInfix
  induction s generalizing n with
  | nil =>
    have hquotes : List.replicate n '\'' ++ ([] ++ '\'' :: '\'' :: '\'' :: rest) =
        '\'' :: '\'' :: '\'' :: (List.replicate n '\'' ++ rest) := by
      interval_cases n <;> rfl
    rw [hquotes, multiLiteralBody, closing_replicate hn hr, List.append_nil]
  | cons c s ih =>
    have hrest : ∀ d ∈ s, isControl d = true → d = '\n' := fun d hd => hcontrol d (by simp [hd])
    by_cases hc : c = '\''
    · subst hc
      have hmove : List.replicate n '\'' ++ '\'' :: s = List.replicate (n + 1) '\'' ++ s := by
        rw [List.replicate_succ', List.append_assoc]
        rfl
      rw [hmove] at hrun ⊢
      -- the text has no three quotes in a row, so that there is room for this one
      have hn' : n + 1 ≤ 2 := by
        by_contra hlt
        obtain rfl : n = 2 := by omega
        exact hrun (List.prefix_append _ _).isInfix
      rw [← ih hrun hrest hn', List.replicate_succ', List.append_assoc]
      rfl
    · have hzero := ih (n := 0) (fun h => hrun ?_) hrest (Nat.zero_le 2)
      · refine body_replicate multiLiteralBody_quote hn (by simpa using hc) ?_
        rw [List.cons_append, multiLiteralBody_char hc (hcontrol c (by simp))]
        simp only [List.replicate_zero, List.nil_append] at hzero
        rw [hzero]
        rfl
      · rw [List.replicate_zero, List.nil_append] at h
        exact h.trans ((List.suffix_cons c s).isInfix.trans (List.suffix_append _ _).isInfix)

/-! ## Strings -/

theorem skipLineBreak_of_head? {s : List Char} (hline : s.head? ≠ some '\n') (hreturn : s.head? ≠ some '\r') :
    skipLineBreak s = s := by
  unfold skipLineBreak
  split
  · exact absurd rfl hreturn
  · exact absurd rfl hline
  · rfl

theorem head?_escape {s : List Char} (hline : '\n' ∉ s) (rest : List Char) :
    (escape true 0 s ++ '"' :: rest).head? ≠ some '\n' ∧
      (escape true 0 s ++ '"' :: rest).head? ≠ some '\r' := by
  cases s with
  | nil => simp [escape]
  | cons c s =>
    rw [List.mem_cons, not_or] at hline
    by_cases hc : c = '"'
    · subst hc
      simp [escape]
    · rw [escape.eq_3 _ _ _ _ hc]
      unfold escapeChar
      split
      case h_3 => exact absurd rfl hline.1
      case h_7 =>
        rename_i hreturn _
        split
        · simp
        · simpa using ⟨Ne.symm hline.1, hreturn⟩
      all_goals simp

theorem string?_basic (s : List Char) {rest : List Char} (hr : rest.head? ≠ some '"') :
    string? ('"' :: escape false 0 s ++ ['"'] ++ rest) = some (String.ofList s, rest) := by
  have hbody := basicBody_escape s rest
  have hopen : ∀ t, escape false 0 s ++ '"' :: rest ≠ '"' :: '"' :: t := by
    cases s with
    | nil =>
      rintro t he
      rw [escape, List.nil_append, List.cons.injEq] at he
      rw [he.2] at hr
      exact hr rfl
    | cons c s =>
      rintro t he
      by_cases hc : c = '"'
      · subst hc
        simp [escape] at he
      · rw [escape.eq_3 _ _ _ _ hc, List.append_assoc] at he
        exact head?_escapeChar hc _ (by rw [he]; rfl)
  rw [List.append_assoc, List.singleton_append, List.cons_append, string?.eq_2 _ hopen, hbody]
  rfl

theorem string?_literal {s : List Char} (hquote : '\'' ∉ s) (hcontrol : ∀ c ∈ s, isControl c = false)
    {rest : List Char} (hr : rest.head? ≠ some '\'') :
    string? ('\'' :: s ++ ['\''] ++ rest) = some (String.ofList s, rest) := by
  have hbody := literalBody_append hquote hcontrol rest
  have hopen : ∀ t, s ++ '\'' :: rest ≠ '\'' :: '\'' :: t := by
    cases s with
    | nil =>
      rintro t he
      rw [List.nil_append, List.cons.injEq] at he
      rw [he.2] at hr
      exact hr rfl
    | cons c s =>
      rintro t he
      rw [List.cons_append, List.cons.injEq] at he
      exact hquote (by rw [he.1]; exact List.mem_cons_self)
  rw [List.append_assoc, List.singleton_append, List.cons_append, string?.eq_4 _ hopen, hbody]
  rfl

/-- The line break that stands in front of a text with line breaks is not part of it. -/
def lineStart (s : List Char) : List Char := if s.contains '\n' then ['\n'] else []

theorem skipLineBreak_lineStart {s t : List Char}
    (h : '\n' ∉ s → t.head? ≠ some '\n' ∧ t.head? ≠ some '\r') : skipLineBreak (lineStart s ++ t) = t := by
  unfold lineStart
  split
  · rfl
  · rename_i hline
    obtain ⟨h1, h2⟩ := h (by simpa using hline)
    exact skipLineBreak_of_head? h1 h2

theorem string?_multi (s : List Char) {rest : List Char} (hr : rest.head? ≠ some '"') :
    string? (['"', '"', '"'] ++ lineStart s ++ escape true 0 s ++ ['"', '"', '"'] ++ rest) =
      some (String.ofList s, rest) := by
  have hbody := multiBody_escape hr s (n := 0) (Nat.zero_le 2)
  have hskip : skipLineBreak (lineStart s ++ (escape true 0 s ++ '"' :: '"' :: '"' :: rest)) =
      escape true 0 s ++ '"' :: '"' :: '"' :: rest :=
    skipLineBreak_lineStart fun hline => head?_escape hline _
  simp only [List.append_assoc, List.cons_append, List.nil_append]
  rw [string?.eq_1, hskip]
  simp only [List.replicate_zero, List.nil_append] at hbody
  rw [hbody]
  rfl

theorem string?_multiLiteral {s : List Char} (hrun : longestRun '\'' s ≤ 2)
    (hcontrol : ∀ c ∈ s, isControl c = true → c = '\n') {rest : List Char}
    (hr : rest.head? ≠ some '\'') :
    string? (['\'', '\'', '\''] ++ lineStart s ++ s ++ ['\'', '\'', '\''] ++ rest) =
      some (String.ofList s, rest) := by
  have hbody := multiLiteralBody_append hr (s := s) (n := 0)
    (not_infix_of_longestRun_lt (by simpa using Nat.lt_succ_of_le hrun)) hcontrol
  have hskip : skipLineBreak (lineStart s ++ (s ++ '\'' :: '\'' :: '\'' :: rest)) =
      s ++ '\'' :: '\'' :: '\'' :: rest := by
    refine skipLineBreak_lineStart fun hline => ?_
    cases s with
    | nil => simp
    | cons c s =>
      refine ⟨?_, ?_⟩
      · rintro h
        cases h
        exact hline List.mem_cons_self
      · rintro h
        cases h
        exact absurd (hcontrol '\r' List.mem_cons_self rfl) (by decide)
  simp only [List.append_assoc, List.cons_append, List.nil_append]
  rw [string?.eq_3, hskip]
  simp only [List.replicate_zero, List.nil_append] at hbody
  rw [hbody]
  rfl

/-- Every string is read as it was written, in whichever form. -/
theorem string?_stringText (s : List Char) {rest : List Char} (hbasic : rest.head? ≠ some '"')
    (hliteral : rest.head? ≠ some '\'') :
    string? (stringText s ++ rest) = some (String.ofList s, rest) := by
  have hraw : (s.any fun c => isControl c && c != '\n') = false →
      ∀ c ∈ s, isControl c = true → c = '\n' := by
    intro h c hc hcontrol
    simpa [hcontrol] using List.any_eq_false.1 h c hc
  unfold stringText
  extract_lets control backslash newline start basic multi
  have hmulti : string? (multi ++ rest) = some (String.ofList s, rest) := string?_multi s hbasic
  have hquoted : string? (basic ++ rest) = some (String.ofList s, rest) := string?_basic s hbasic
  split
  · exact hquoted
  split
  · rename_i h
    simp only [Bool.and_eq_true, Bool.not_eq_true', decide_eq_true_eq] at h
    obtain ⟨⟨hcontrol, hnewline⟩, hrun⟩ := h
    refine string?_literal (not_mem_of_longestRun hrun) ?_ hliteral
    intro c hc
    rw [← Bool.not_eq_true]
    intro h
    obtain rfl := hraw hcontrol c hc h
    have hin : newline = true := List.contains_iff_mem.2 hc
    rw [hin] at hnewline
    cases hnewline
  split
  · exact hmulti
  split
  · rename_i h
    simp only [Bool.and_eq_true, Bool.not_eq_true', decide_eq_true_eq] at h
    exact string?_multiLiteral h.2 (hraw h.1) hliteral
  split
  · exact hmulti
  · exact hquoted

/-! ## Keys -/

/-- Every segment of a key is read as it was written. -/
theorem segment?_segmentText (s : List Char) {rest : List Char} (hr : ∀ c ∈ rest.head?, isBare c = false) :
    segment? (segmentText s ++ rest) = some (String.ofList s, rest) := by
  unfold segmentText
  extract_lets control basic
  have hquoted : segment? (basic ++ rest) = some (String.ofList s, rest) := by
    simp only [basic, List.append_assoc, List.cons_append, List.nil_append]
    rw [segment?.eq_1, basicBody_escape s rest]
    rfl
  split
  · rename_i h
    simp only [Bool.and_eq_true, Bool.not_eq_true', List.isEmpty_eq_false_iff, List.all_eq_true] at h
    obtain ⟨hne, hbare⟩ := h
    have hfirst : ∀ q t, isBare q = false → s ++ rest ≠ q :: t := by
      rintro q t hq he
      cases s with
      | nil => exact hne rfl
      | cons c s =>
        rw [List.cons_append, List.cons.injEq] at he
        rw [← he.1, hbare c List.mem_cons_self] at hq
        cases hq
    rw [segment?.eq_3 _ (fun t => hfirst '"' t (by decide)) fun t => hfirst '\'' t (by decide),
      takeWhile_append_stop hbare hr, dropWhile_append_stop hbare hr, if_neg (by simpa using hne)]
  split
  · exact hquoted
  split
  · rename_i h
    simp only [Bool.and_eq_true, Bool.not_eq_true', List.contains_eq_mem, decide_eq_false_iff_not] at h
    have hcontrol : ∀ c ∈ s, isControl c = false := by
      intro c hc
      simpa using List.any_eq_false.1 h.1 c hc
    simp only [List.append_assoc, List.cons_append, List.nil_append]
    rw [segment?.eq_2, literalBody_append h.2 hcontrol rest]
    rfl
  · exact hquoted

end PromptTheme.Toml
