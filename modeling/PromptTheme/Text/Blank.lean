/-
White space as Unicode defines it (the property White_Space), the words of a text between it, and
trimming. A word is never empty and holds no blank. Trimming leaves the one part of a text that has blanks
on both sides and none at its ends.
-/

namespace PromptTheme

/-! ## Runs -/

theorem takeWhile_append_stop {p : Char → Bool} {a b : List Char} (ha : ∀ c ∈ a, p c = true)
    (hb : ∀ c ∈ b.head?, p c = false) : (a ++ b).takeWhile p = a := by
  rw [List.takeWhile_append_of_pos ha]
  cases b with
  | nil => simp
  | cons c b => rw [List.takeWhile_cons_of_neg (by simpa using hb c rfl), List.append_nil]

theorem dropWhile_append_stop {p : Char → Bool} {a b : List Char} (ha : ∀ c ∈ a, p c = true)
    (hb : ∀ c ∈ b.head?, p c = false) : (a ++ b).dropWhile p = b := by
  rw [List.dropWhile_append_of_pos ha]
  cases b with
  | nil => rfl
  | cons c b => rw [List.dropWhile_cons_of_neg (by simpa using hb c rfl)]

namespace Text

/-! ## Blanks -/

/-- The characters with the property White_Space. -/
def blanks : List Nat :=
  [0x9, 0xA, 0xB, 0xC, 0xD, 0x20, 0x85, 0xA0, 0x1680, 0x2000, 0x2001, 0x2002, 0x2003, 0x2004,
    0x2005, 0x2006, 0x2007, 0x2008, 0x2009, 0x200A, 0x2028, 0x2029, 0x202F, 0x205F, 0x3000]

def isBlank (c : Char) : Bool := blanks.contains c.toNat

example : blanks.length = 25 := rfl

/-! ## Words -/

/-- Splits off blanks: `acc` holds the word read so far, last character first. -/
def wordsFrom (acc : List Char) : List Char → List (List Char)
  | [] => if acc.isEmpty then [] else [acc.reverse]
  | c :: rest =>
    if isBlank c then
      if acc.isEmpty then wordsFrom [] rest else acc.reverse :: wordsFrom [] rest
    else wordsFrom (c :: acc) rest

/-- The maximal runs of characters that are not blank. -/
def words (s : List Char) : List (List Char) := wordsFrom [] s

theorem words_no_blank {s acc w : List Char} (hacc : ∀ c ∈ acc, isBlank c = false)
    (h : w ∈ wordsFrom acc s) : w ≠ [] ∧ ∀ c ∈ w, isBlank c = false := by
  induction s generalizing acc with
  | nil =>
    unfold wordsFrom at h
    split at h
    · simp at h
    · rename_i ha
      have hw := List.mem_singleton.1 h
      subst hw
      refine ⟨fun hr => ha (by simpa using hr), fun c hc => hacc c (by simpa using hc)⟩
  | cons c rest ih =>
    unfold wordsFrom at h
    split at h
    · split at h
      · exact ih (by simp) h
      · rename_i ha
        rcases List.mem_cons.1 h with h | h
        · subst h
          refine ⟨fun hr => ha (by simpa using hr), fun c hc => hacc c (by simpa using hc)⟩
        · exact ih (by simp) h
    · rename_i hb
      refine ih ?_ h
      intro d hd
      rcases List.mem_cons.1 hd with rfl | hd
      · simpa using hb
      · exact hacc d hd

/-- Words are not empty and hold no blank. -/
theorem mem_words {s w : List Char} (h : w ∈ words s) : w ≠ [] ∧ ∀ c ∈ w, isBlank c = false :=
  words_no_blank (by simp) h

/-- A text falls apart into words at a blank. -/
theorem wordsFrom_append_blank {c : Char} (hc : isBlank c = true) (acc x y : List Char) :
    wordsFrom acc (x ++ c :: y) = wordsFrom acc x ++ words y := by
  induction x generalizing acc with
  | nil =>
    simp only [List.nil_append, wordsFrom, hc, if_true, words]
    split <;> simp
  | cons d x ih =>
    rw [List.cons_append, wordsFrom, wordsFrom]
    split
    · split
      · exact ih []
      · rw [ih [], List.cons_append]
    · exact ih (d :: acc)

theorem wordsFrom_of_no_blank {x : List Char} (h : ∀ c ∈ x, isBlank c = false) (acc : List Char) :
    wordsFrom acc x = if (x.reverse ++ acc).isEmpty then [] else [(x.reverse ++ acc).reverse] := by
  induction x generalizing acc with
  | nil => rfl
  | cons d x ih =>
    rw [wordsFrom, h d (by simp), ih (fun c hc => h c (by simp [hc])) (d :: acc)]
    simp

/-- A text without blanks is one word. -/
theorem words_of_no_blank {w : List Char} (hne : w ≠ []) (h : ∀ c ∈ w, isBlank c = false) :
    words w = [w] := by
  rw [words, wordsFrom_of_no_blank h, List.append_nil, List.reverse_reverse, if_neg (by simpa using hne)]

/-- Words with a space between them are read back. -/
theorem words_intercalate : ∀ {ws : List (List Char)},
    (∀ w ∈ ws, w ≠ [] ∧ ∀ c ∈ w, isBlank c = false) → words ([' '].intercalate ws) = ws
  | [], _ => rfl
  | [w], h => by
    obtain ⟨hne, hw⟩ := h w (by simp)
    rw [List.intercalate_singleton, words_of_no_blank hne hw]
  | w :: v :: ws, h => by
    obtain ⟨hne, hw⟩ := h w (by simp)
    have hrest := words_intercalate fun u hu => h u (List.mem_cons_of_mem w hu)
    rw [List.intercalate_cons_cons, List.append_assoc, List.singleton_append, words,
      wordsFrom_append_blank (by decide), hrest]
    show words w ++ _ = _
    rw [words_of_no_blank hne hw, List.singleton_append]

/-! ## Trimming -/

/-- The text without blanks at either end. -/
def trim (s : List Char) : List Char :=
  ((s.dropWhile isBlank).reverse.dropWhile isBlank).reverse

/-- `w` is the text without the blanks at either end: what is left out is blank, and neither end of `w` is. -/
def Trimmed (s w : List Char) : Prop :=
  ∃ before after, s = before ++ w ++ after ∧ (∀ c ∈ before ++ after, isBlank c = true) ∧
    (∀ c ∈ w.head?, isBlank c = false) ∧ ∀ c ∈ w.getLast?, isBlank c = false

theorem head?_dropWhile_isBlank (s : List Char) : ∀ c ∈ (s.dropWhile isBlank).head?, isBlank c = false := by
  intro c hc
  have hnot := List.head?_dropWhile_not isBlank s
  rw [Option.mem_def.1 hc] at hnot
  simpa using hnot

theorem trimmed_trim (s : List Char) : Trimmed s (trim s) := by
  have hfront : s.takeWhile isBlank ++ s.dropWhile isBlank = s := List.takeWhile_append_dropWhile
  have hhead := head?_dropWhile_isBlank s
  unfold trim
  generalize s.dropWhile isBlank = rest at hfront hhead ⊢
  have hback : (rest.reverse.dropWhile isBlank).reverse ++ (rest.reverse.takeWhile isBlank).reverse = rest := by
    rw [← List.reverse_append, List.takeWhile_append_dropWhile, List.reverse_reverse]
  refine ⟨s.takeWhile isBlank, (rest.reverse.takeWhile isBlank).reverse, ?_, ?_, ?_, ?_⟩
  · rw [List.append_assoc, hback, hfront]
  · intro c hc
    rcases List.mem_append.1 hc with hc | hc
    · exact List.all_eq_true.1 List.all_takeWhile c hc
    · exact List.all_eq_true.1 List.all_takeWhile c (List.mem_reverse.1 hc)
  · -- what is left begins as the text behind the blanks at the front does
    rw [← hback, List.head?_append] at hhead
    intro c hc
    exact hhead c (by rw [Option.mem_def.1 hc]; rfl)
  · rw [List.getLast?_reverse]
    exact head?_dropWhile_isBlank rest.reverse

theorem trim_of_trimmed {s w : List Char} (h : Trimmed s w) : trim s = w := by
  obtain ⟨before, after, rfl, hblank, hhead, hlast⟩ := h
  have hbefore : ∀ c ∈ before, isBlank c = true := fun c hc => hblank c (List.mem_append_left after hc)
  have hafter : ∀ c ∈ after, isBlank c = true := fun c hc => hblank c (List.mem_append_right before hc)
  cases w with
  | nil =>
    have hall : (before ++ [] ++ after).dropWhile isBlank = [] := by
      rw [List.append_nil, ← List.append_nil (before ++ after)]
      exact dropWhile_append_stop hblank (by simp)
    rw [trim, hall]
    rfl
  | cons d w =>
    have hfront : (before ++ (d :: w) ++ after).dropWhile isBlank = d :: w ++ after := by
      rw [List.append_assoc]
      exact dropWhile_append_stop hbefore hhead
    have hback : (d :: w ++ after).reverse.dropWhile isBlank = (d :: w).reverse := by
      rw [List.reverse_append]
      exact dropWhile_append_stop (by simpa using hafter) (by rwa [List.head?_reverse])
    rw [trim, hfront, hback, List.reverse_reverse]

theorem trim_eq_iff {s w : List Char} : trim s = w ↔ Trimmed s w :=
  ⟨fun h => h ▸ trimmed_trim s, trim_of_trimmed⟩

end Text

end PromptTheme
