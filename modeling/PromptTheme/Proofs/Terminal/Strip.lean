/-
Stripping a woven text. A sequence whose numbers have at most four digits is read to its end and not
beyond, so what is left of a woven text has no ESC in it and nothing of any sequence: it is part of what
`Escape.visible` leaves, which drops each sequence from its ESC to its final letter.
-/
import PromptTheme.Proofs.Style.Sequence
import PromptTheme.Terminal.Strip
import Mathlib.Tactic

namespace PromptTheme

open Escape (esc Woven IsNumber body)

/-! ## What a terminal shows -/

namespace Escape

/-- Drops everything from each ESC to the next `m`; `inside` tells that an ESC has been read. -/
def visibleFrom (inside : Bool) : List Char → List Char
  | [] => []
  | c :: s =>
    if inside then visibleFrom (c ≠ 'm') s
    else if c = esc then visibleFrom true s
    else c :: visibleFrom false s

/-- A text without its sequences. -/
def visible (s : List Char) : List Char := visibleFrom false s

theorem visible_cons {c : Char} (hc : c ≠ esc) (s : List Char) : visible (c :: s) = c :: visible s := by
  rw [visible, visibleFrom, if_neg (by decide), if_neg hc]
  rfl

theorem visible_append {a : List Char} (ha : esc ∉ a) (s : List Char) :
    visible (a ++ s) = a ++ visible s := by
  induction a with
  | nil => rfl
  | cons c a ih =>
    rw [List.mem_cons, not_or] at ha
    rw [List.cons_append, visible_cons (Ne.symm ha.1), ih ha.2]
    rfl

theorem visibleFrom_inside {a : List Char} (ha : 'm' ∉ a) (s : List Char) :
    visibleFrom true (a ++ 'm' :: s) = visible s := by
  induction a with
  | nil => rfl
  | cons c a ih =>
    rw [List.mem_cons, not_or] at ha
    rw [List.cons_append, visibleFrom, if_pos rfl, decide_eq_true (Ne.symm ha.1)]
    exact ih ha.2

theorem m_not_mem_intercalate {numbers : List (List Char)} (hn : ∀ n ∈ numbers, IsNumber n) :
    'm' ∉ [';'].intercalate numbers := by
  intro h
  rcases mem_intercalate h with h | ⟨n, hm, h⟩
  · revert h; decide
  · exact absurd ((hn n hm).2 _ h) (by decide)

/-- A sequence shows nothing. -/
theorem visible_sequence {numbers : List (List Char)} (hn : ∀ n ∈ numbers, IsNumber n) (s : List Char) :
    visible (esc :: (body numbers ++ s)) = visible s := by
  have h := visibleFrom_inside (a := '[' :: [';'].intercalate numbers) (by
    rw [List.mem_cons, not_or]
    exact ⟨by decide, m_not_mem_intercalate hn⟩) s
  rw [visible, visibleFrom, if_neg (by decide), if_pos rfl, ← h, body]
  simp

end Escape

namespace Terminal

/-! ## Steps of the machine -/

namespace Progress

theorem next?_esc (p : Progress) : p.next? esc = none := by
  cases p <;> rfl

theorem next?_finished (c : Char) : finished.next? c = none := by
  unfold next?
  split_ifs <;> rfl

/-- The sequence may go on with the first digit of a number. -/
def Awaits (p : Progress) : Prop := ∀ c : Char, c.isDigit = true → p.next? c = some (parameter moreDigits)

/-- Only behind a bracket that selects a character set it matters which digit is read. -/
theorem next?_digit {p : Progress} (hp : p ≠ charset) {c : Char} (hc : c.isDigit = true) :
    p.next? c = p.next? '0' := by
  have h1 : ¬(c = '(' ∨ c = ')') := by rintro (rfl | rfl) <;> revert hc <;> decide
  have h2 : ¬c = ';' := by rintro rfl; revert hc; decide
  have h3 : ¬(c = '[' ∨ c = '#' ∨ c = '?') := by rintro (rfl | rfl | rfl) <;> revert hc <;> decide
  unfold next?
  rw [if_neg h1, if_neg h2, if_neg h3, if_pos hc]
  cases p with
  | charset => exact absurd rfl hp
  | parameter more => cases more <;> rfl
  | _ => rfl

theorem awaits_opened : Awaits opened := fun _ hc => next?_digit (p := opened) nofun hc

theorem awaits_separated : Awaits separated := fun _ hc => next?_digit (p := separated) nofun hc

/-! ## Sequences are read whole -/

theorem longest_digits {ds : List Char} (hd : ∀ c ∈ ds, c.isDigit = true) (s : List Char) :
    ∀ more, ds.length ≤ more →
      longest (parameter more) (some (ds ++ s)) (ds ++ s) =
        longest (parameter (more - ds.length)) (some s) s := by
  induction ds with
  | nil => intro more _; rfl
  | cons d ds ih =>
    intro more hm
    obtain ⟨m, rfl⟩ : ∃ m, more = m + 1 := ⟨more - 1, by simp only [List.length_cons] at hm; omega⟩
    have hq : (parameter (m + 1)).next? d = some (parameter m) :=
      next?_digit (p := parameter (m + 1)) nofun (hd d (by simp))
    rw [List.cons_append, longest, hq]
    simp only [isAccepting, if_true]
    rw [ih (fun c hc => hd c (List.mem_cons_of_mem _ hc)) m (by simp only [List.length_cons] at hm; omega)]
    simp

theorem longest_number {p : Progress} (hp : p.Awaits) {n : List Char} (hn : IsNumber n)
    (hl : n.length ≤ 4) (best : Option (List Char)) (s : List Char) :
    ∃ more, longest p best (n ++ s) = longest (parameter (more + 1)) (some s) s := by
  obtain ⟨hne, hd⟩ := hn
  cases n with
  | nil => exact absurd rfl hne
  | cons d ds =>
    simp only [List.length_cons] at hl
    -- behind five digits the machine takes neither a semicolon nor a letter, so one more must be left
    refine ⟨moreDigits - ds.length - 1, ?_⟩
    rw [List.cons_append, longest, hp d (hd d (by simp))]
    simp only [isAccepting, if_true]
    rw [longest_digits (fun c hc => hd c (List.mem_cons_of_mem _ hc)) s _ (by simp only [moreDigits]; omega)]
    congr 2
    simp only [moreDigits]
    omega

/-- Numbers up to the final letter are read to the end, and the letter is the last character of the
sequence. -/
theorem longest_numbers {numbers : List (List Char)} (hne : numbers ≠ [])
    (hn : ∀ n ∈ numbers, IsNumber n ∧ n.length ≤ 4) (s : List Char) {p : Progress} (hp : p.Awaits)
    (best : Option (List Char)) : longest p best ([';'].intercalate numbers ++ 'm' :: s) = some s := by
  induction numbers generalizing p best with
  | nil => exact absurd rfl hne
  | cons n rest ih =>
    obtain ⟨hnum, hlen⟩ := hn n (by simp)
    cases rest with
    | nil =>
      rw [List.intercalate_singleton]
      obtain ⟨more, hm⟩ := longest_number hp hnum hlen best ('m' :: s)
      have hf : (parameter (more + 1)).next? 'm' = some finished := rfl
      rw [hm, longest, hf]
      cases s with
      | nil => rfl
      | cons c s =>
        dsimp only
        rw [longest, next?_finished]
        rfl
    | cons m rest =>
      rw [List.intercalate_cons_cons, List.append_assoc, List.append_assoc]
      obtain ⟨more, hm⟩ := longest_number hp hnum hlen best
        ([';'] ++ ([';'].intercalate (m :: rest) ++ 'm' :: s))
      have hf : (parameter (more + 1)).next? ';' = some separated := rfl
      rw [hm, List.singleton_append, longest, hf]
      exact ih (by simp) (fun k hk => hn k (List.mem_cons_of_mem _ hk)) awaits_separated _

theorem longest_body {numbers : List (List Char)} (hne : numbers ≠ [])
    (hn : ∀ n ∈ numbers, IsNumber n ∧ n.length ≤ 4) (s : List Char) :
    longest introduced none (body numbers ++ s) = some s := by
  have hf : introduced.next? '[' = some opened := rfl
  rw [body, List.cons_append, longest, hf, List.append_assoc]
  exact longest_numbers hne hn s awaits_opened _

/-- What is read in a sequence has no ESC in it. -/
theorem longest_eq_some {p : Progress} {best : Option (List Char)} {s after : List Char}
    (h : longest p best s = some after) : best = some after ∨ ∃ read, esc ∉ read ∧ s = read ++ after := by
  induction s generalizing p best with
  | nil => exact .inl h
  | cons c s ih =>
    rw [longest] at h
    cases hq : p.next? c with
    | none => rw [hq] at h; exact .inl h
    | some q =>
      rw [hq] at h
      have hc : esc ≠ c := by rintro rfl; rw [next?_esc] at hq; cases hq
      have step : ∀ read, esc ∉ read → s = read ++ after →
          esc ∉ c :: read ∧ c :: s = c :: read ++ after := by
        intro read hr hs
        rw [List.mem_cons, not_or, hs]
        exact ⟨⟨hc, hr⟩, rfl⟩
      rcases ih h with hb | ⟨read, hr, hs⟩
      · split at hb
        · cases hb
          exact .inr ⟨[c], step [] (by simp) rfl⟩
        · exact .inl hb
      · exact .inr ⟨c :: read, step read hr hs⟩

end Progress

/-! ## What is left -/

theorem plainParts_char {c : Char} (hc : isIntroducer c = false) (acc s : List Char) :
    plainParts acc (c :: s) = plainParts (c :: acc) s := by
  rw [plainParts, if_neg (by rw [hc]; decide)]

theorem plainParts_some {c : Char} (hc : isIntroducer c = true) {s after : List Char}
    (h : afterSequence? c s = some after) (acc : List Char) :
    plainParts acc (c :: s) = acc.reverse :: plainParts [] after := by
  rw [plainParts, if_pos hc]
  split
  · rename_i r hr
    rw [h] at hr
    cases hr
    rfl
  · rename_i hr
    rw [h] at hr
    cases hr

theorem plainParts_none {c : Char} (hc : isIntroducer c = true) {s : List Char}
    (h : afterSequence? c s = none) (acc : List Char) :
    plainParts acc (c :: s) = plainParts (c :: acc) s := by
  rw [plainParts, if_pos hc]
  split
  · rename_i r hr
    rw [h] at hr
    cases hr
  · rfl

theorem flatten_plainParts (acc s : List Char) :
    (plainParts acc s).flatten = acc.reverse ++ stripEscapes s := by
  induction s generalizing acc with
  | nil => simp [stripEscapes, plainParts]
  | cons c s ih =>
    rw [stripEscapes]
    cases hc : isIntroducer c with
    | false =>
      rw [plainParts_char hc, plainParts_char hc, ih (c :: acc), ih [c]]
      simp
    | true =>
      cases ha : afterSequence? c s with
      | none =>
        rw [plainParts_none hc ha, plainParts_none hc ha, ih (c :: acc), ih [c]]
        simp
      | some after =>
        rw [plainParts_some hc ha, plainParts_some hc ha]
        simp

theorem stripEscapes_nil : stripEscapes [] = [] := by
  rw [stripEscapes, plainParts]
  rfl

theorem stripEscapes_char {c : Char} (hc : isIntroducer c = false) (s : List Char) :
    stripEscapes (c :: s) = c :: stripEscapes s := by
  rw [stripEscapes, plainParts_char hc, flatten_plainParts]
  rfl

theorem stripEscapes_none {c : Char} (hc : isIntroducer c = true) {s : List Char}
    (h : afterSequence? c s = none) : stripEscapes (c :: s) = c :: stripEscapes s := by
  rw [stripEscapes, plainParts_none hc h, flatten_plainParts]
  rfl

theorem stripEscapes_some {c : Char} (hc : isIntroducer c = true) {s after : List Char}
    (h : afterSequence? c s = some after) : stripEscapes (c :: s) = stripEscapes after := by
  rw [stripEscapes, plainParts_some hc h, List.flatten_cons]
  rfl

theorem stripEscapes_sequence {numbers : List (List Char)} (hne : numbers ≠ [])
    (hn : ∀ n ∈ numbers, IsNumber n ∧ n.length ≤ 4) (s : List Char) :
    stripEscapes (esc :: (body numbers ++ s)) = stripEscapes s := by
  refine stripEscapes_some rfl ?_
  rw [← Progress.longest_body hne hn s]
  rfl

/-- Encoded attributes leave nothing. -/
theorem stripEscapes_encoded {a : List Char} (ha : Escape.Encoded a) (s : List Char) :
    stripEscapes (a ++ s) = stripEscapes s := by
  obtain ⟨pss, hp, rfl⟩ := ha
  induction pss with
  | nil => rfl
  | cons ps rest ih =>
    obtain ⟨hne, hlt⟩ := hp ps (by simp)
    rw [List.flatMap_cons, List.append_assoc, Escape.sequence_eq, List.cons_append,
      stripEscapes_sequence (mt List.map_eq_nil_iff.1 hne) (Escape.short_of_mem_map hlt)]
    exact ih fun q hq => hp q (List.mem_cons_of_mem _ hq)

theorem isIntroducer_eq_false {s : List Char} (hesc : esc ∉ s) (hcsi : '\u009b' ∉ s) :
    ∀ c ∈ s, isIntroducer c = false := by
  intro c hc
  rw [isIntroducer, Bool.or_eq_false_iff, decide_eq_false_iff_not, decide_eq_false_iff_not]
  constructor
  · rintro rfl
    exact hesc hc
  · rintro rfl
    exact hcsi hc

/-- Characters that begin no sequence are left as they are. -/
theorem stripEscapes_append {a : List Char} (ha : ∀ c ∈ a, isIntroducer c = false) (s : List Char) :
    stripEscapes (a ++ s) = a ++ stripEscapes s := by
  induction a with
  | nil => rfl
  | cons c a ih =>
    rw [List.forall_mem_cons] at ha
    rw [List.cons_append, stripEscapes_char ha.1, ih ha.2]
    rfl

theorem stripEscapes_eq_self {s : List Char} (hs : ∀ c ∈ s, isIntroducer c = false) : stripEscapes s = s := by
  rw [← List.append_nil s, stripEscapes_append hs, stripEscapes_nil]

/-- Nothing of a sequence is left of a woven text, and every character that is left stands outside of
the sequences. -/
theorem stripEscapes_woven {s : List Char} (h : Woven s) :
    esc ∉ stripEscapes s ∧ (stripEscapes s).Sublist (Escape.visible s) := by
  -- behind U+009B the text is read further than one step of `Woven`
  induction hl : s.length using Nat.strong_induction_on generalizing s with
  | _ l ih =>
    cases h with
    | nil =>
      rw [stripEscapes_nil]
      exact ⟨by simp, List.nil_sublist _⟩
    | @char c s hc hw =>
      simp only [List.length_cons] at hl
      obtain ⟨h1, h2⟩ := ih s.length (by omega) hw rfl
      have keep : esc ∉ c :: stripEscapes s ∧ (c :: stripEscapes s).Sublist (Escape.visible (c :: s)) := by
        rw [List.mem_cons, not_or, Escape.visible_cons hc]
        exact ⟨⟨Ne.symm hc, h1⟩, h2.cons_cons c⟩
      cases hi : isIntroducer c with
      | false =>
        rw [stripEscapes_char hi]
        exact keep
      | true =>
        cases ha : afterSequence? c s with
        | none =>
          rw [stripEscapes_none hi ha]
          exact keep
        | some after =>
          have hi' : c = '\u009b' := by
            rw [isIntroducer, Bool.or_eq_true, decide_eq_true_eq, decide_eq_true_eq] at hi
            exact hi.resolve_left hc
          subst hi'
          have hread : Progress.longest .introduced none s = some after := ha
          obtain h | ⟨read, hr, rfl⟩ := Progress.longest_eq_some hread
          · cases h
          · rw [stripEscapes_some hi ha, Escape.visible_cons hc, Escape.visible_append hr]
            obtain ⟨h3, h4⟩ := ih after.length (by simp only [List.length_append] at hl; omega)
              (hw.of_append hr) rfl
            exact ⟨h3, (h4.trans (List.sublist_append_right read _)).cons _⟩
    | @sequence numbers s hne hn hw =>
      rw [stripEscapes_sequence hne hn, Escape.visible_sequence fun n hm => (hn n hm).1]
      exact ih s.length (by simp only [List.length_cons, List.length_append] at hl; omega) hw rfl

end Terminal

end PromptTheme
