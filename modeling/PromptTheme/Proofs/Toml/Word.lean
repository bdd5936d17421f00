/-
Truth values and numbers are read back as they were written. They are words without quotes, and the
reader tries a word as a date, as a float and as an integer. The text of an integer has no point, so
that it is no float, and no number has a hyphen behind its first digit, so that none is a date;
`Toml.scalar?_numberText` says what is left.
-/
import PromptTheme.Proofs.Number.Shortest
import PromptTheme.Proofs.Toml.Quoted
import PromptTheme.Toml.Writer

namespace PromptTheme.Toml

/-! ## Digits -/

theorem hexValue?_of_isDigit {c : Char} (h : c.isDigit = true) :
    Text.hexValue? c = some (c.toNat - '0'.toNat) ∧ c.toNat - '0'.toNat < 10 := by
  simp only [Char.isDigit, Bool.and_eq_true, decide_eq_true_eq] at h
  have hval : c.toNat ≤ 57 := UInt32.le_iff_toNat_le.1 h.2
  refine ⟨if_pos h, ?_⟩
  show c.toNat - 48 < 10
  omega

/-- Decimal digits have the value that core gives them. -/
theorem digitsValue?_of_isDigit {ds : List Char} (h : ∀ c ∈ ds, c.isDigit = true) :
    Text.digitsValue? 10 ds = some (Nat.ofDigitChars 10 ds 0) := by
  have hfold : ∀ n, ds.foldlM (fun n c => do
      let d ← Text.hexValue? c
      if d < 10 then some (n * 10 + d) else none) n = some (Nat.ofDigitChars 10 ds n) := by
    induction ds with
    | nil => intro n; rfl
    | cons c ds ih =>
      intro n
      obtain ⟨hv, hlt⟩ := hexValue?_of_isDigit (h c (by simp))
      have hstep := ih (fun d hd => h d (by simp [hd])) (n * 10 + (c.toNat - '0'.toNat))
      rw [List.foldlM_cons, hv, Nat.ofDigitChars_cons, Nat.mul_comm 10 n, ← hstep]
      simp only [Option.bind_eq_bind, Option.bind_some, if_pos hlt]
  exact hfold 0

theorem moreDigits?_of_isDigit {ds : List Char} (h : ∀ c ∈ ds, c.isDigit = true) :
    moreDigits? Char.isDigit ds = some ds := by
  induction ds with
  | nil => rfl
  | cons c ds ih =>
    have hc := h c (by simp)
    rw [moreDigits?.eq_3 _ _ _ fun _ _ he => absurd he (ne_of_class hc (by decide)), if_pos hc,
      ih fun d hd => h d (by simp [hd])]
    rfl

theorem digits?_of_isDigit {ds : List Char} (hne : ds ≠ []) (h : ∀ c ∈ ds, c.isDigit = true) :
    digits? Char.isDigit ds = some ds := by
  cases ds with
  | nil => exact absurd rfl hne
  | cons c ds =>
    rw [digits?, if_pos (h c (by simp)), moreDigits?_of_isDigit fun d hd => h d (by simp [hd])]
    rfl

theorem head?_toDigits {n : Nat} (h : (Nat.toDigits 10 n).head? = some '0') : n = 0 := by
  induction n using Nat.strong_induction_on with
  | _ n ih =>
    rcases Nat.lt_or_ge n 10 with hn | hn
    · rw [Nat.toDigits_of_lt_base hn, List.head?_cons, Option.some.injEq] at h
      interval_cases n <;> first | rfl | exact absurd h (by decide)
    · rw [Nat.toDigits_of_base_le (by decide) hn, List.head?_append_of_ne_nil _ Nat.toDigits_ne_nil] at h
      have := ih (n / 10) (by omega) h
      omega

/-- Decimal digits as a number has them in front of the point: there is one, and a leading zero stands
alone. -/
structure IsWhole (ds : List Char) : Prop where
  ne_nil : ds ≠ []
  digit : ∀ c ∈ ds, c.isDigit = true
  zero : ds.head? = some '0' → ds.length = 1

theorem isWhole_toDigits (n : Nat) : IsWhole (Nat.toDigits 10 n) := by
  refine ⟨Nat.toDigits_ne_nil, fun c hc => Nat.isDigit_of_mem_toDigits (by decide) (by decide) hc, ?_⟩
  intro h
  rw [head?_toDigits h]
  rfl

theorem IsWhole.wholeDigits? {ds : List Char} (h : IsWhole ds) : wholeDigits? ds = some ds := by
  rw [Toml.wholeDigits?, digits?_of_isDigit h.ne_nil h.digit]
  dsimp only
  rw [if_neg fun hz => hz.2 (h.zero hz.1)]

/-! ## Words of numbers -/

/-- Digits, behind a minus sign when the number is negative. -/
def signText (negative : Bool) (ds : List Char) : List Char := if negative then '-' :: ds else ds

/-- A sign in front of digits is read as the sign. -/
theorem signed_signText (negative : Bool) {c : Char} (hc : c.isDigit = true) (rest : List Char) :
    signed (signText negative (c :: rest)) = (negative, c :: rest) := by
  cases negative with
  | true => rfl
  | false =>
    rw [signText, if_neg Bool.false_ne_true, signed.eq_3]
    · rintro _ he
      exact ne_of_class hc (by decide) (List.cons.inj he).1
    · rintro _ he
      exact ne_of_class hc (by decide) (List.cons.inj he).1

/-- The characters behind the sign of a number that is written without exponent. -/
def isFigure (c : Char) : Bool := c.isDigit || c = '.'

theorem isWordChar_of_isFigure {c : Char} (h : isFigure c = true) : isWordChar c = true := by
  rw [isFigure, Bool.or_eq_true, decide_eq_true_eq] at h
  rcases h with h | rfl
  · simp [isWordChar, Char.isAlphanum, h]
  · rfl

/-- A sign, a digit, and further digits and points: what the text of a number looks like. -/
structure Figures (w : List Char) : Prop where
  shape : ∃ negative c rest, c.isDigit = true ∧ (∀ d ∈ rest, isFigure d = true) ∧
    w = signText negative (c :: rest)

namespace Figures

variable {w : List Char}

theorem of_whole (negative : Bool) {ds : List Char} (h : IsWhole ds) : Figures (signText negative ds) := by
  obtain ⟨hne, hdigit, -⟩ := h
  cases ds with
  | nil => exact absurd rfl hne
  | cons c ds =>
    refine ⟨negative, c, ds, hdigit c (by simp), fun d hd => ?_, rfl⟩
    rw [isFigure, hdigit d (by simp [hd]), Bool.true_or]

theorem of_point (negative : Bool) {whole part : List Char} (hw : IsWhole whole)
    (hp : ∀ c ∈ part, c.isDigit = true) : Figures (signText negative (whole ++ '.' :: part)) := by
  obtain ⟨hne, hdigit, -⟩ := hw
  cases whole with
  | nil => exact absurd rfl hne
  | cons c ds =>
    refine ⟨negative, c, ds ++ '.' :: part, hdigit c (by simp), fun d hd => ?_, rfl⟩
    rw [isFigure, Bool.or_eq_true, decide_eq_true_eq]
    rcases List.mem_append.1 hd with hd | hd
    · exact .inl (hdigit d (by simp [hd]))
    · rcases List.mem_cons.1 hd with hd | hd
      · exact .inr hd
      · exact .inl (hp d hd)

theorem isFigure_tail (h : Figures w) : ∀ c ∈ w.drop 1, isFigure c = true := by
  obtain ⟨negative, c, rest, hc, hrest, rfl⟩ := h
  cases negative with
  | true =>
    intro d hd
    rcases List.mem_cons.1 hd with rfl | hd
    · rw [isFigure, hc, Bool.true_or]
    · exact hrest d hd
  | false => exact hrest

theorem isWordChar (h : Figures w) : ∀ c ∈ w, isWordChar c = true := by
  have htail := h.isFigure_tail
  obtain ⟨negative, c, rest, hc, hrest, rfl⟩ := h
  cases negative with
  | true =>
    intro d hd
    rcases List.mem_cons.1 hd with rfl | hd
    · rfl
    · exact isWordChar_of_isFigure (htail d hd)
  | false =>
    intro d hd
    rcases List.mem_cons.1 hd with rfl | hd
    · exact isWordChar_of_isFigure (by rw [isFigure, hc, Bool.true_or])
    · exact isWordChar_of_isFigure (htail d hd)

theorem cons (h : Figures w) : ∃ c t, w = c :: t ∧ isBare c = true := by
  obtain ⟨negative, c, rest, hc, -, rfl⟩ := h
  cases negative with
  | true => exact ⟨_, _, rfl, rfl⟩
  | false => exact ⟨_, _, rfl, by simp [isBare, Char.isAlphanum, hc]⟩

/-- No text of a number begins with a letter. -/
theorem head_ne (h : Figures w) {c : Char} (hd : c.isDigit = false) (hs : c ≠ '-') (rest : List Char) :
    w ≠ c :: rest := by
  obtain ⟨negative, e, rest', he, -, rfl⟩ := h
  intro hw
  cases negative with
  | true => exact hs (List.cons.inj hw).1.symm
  | false => exact ne_of_class he hd (List.cons.inj hw).1

theorem colon_not_mem (h : Figures w) : ':' ∉ w := by
  intro hm
  cases w with
  | nil => cases hm
  | cons c w =>
    rcases List.mem_cons.1 hm with rfl | hm
    · exact h.head_ne (by decide) (by decide) w rfl
    · exact absurd (h.isFigure_tail ':' hm) (by decide)

theorem hyphen_not_mem (h : Figures w) : '-' ∉ w.drop 1 :=
  fun hm => absurd (h.isFigure_tail '-' hm) (by decide)

end Figures

/-! ## Dates -/

/-- A date has a hyphen behind its year. -/
theorem hyphen_mem_of_isDate {s : List Char} (h : isDate s = true) : '-' ∈ s.drop 1 := by
  unfold isDate at h
  split at h
  · simp
  · cases h

/-- A time has a colon behind its hour. -/
theorem colon_mem_of_time? {s : List Char} {r : List Char × List Char} (h : time? s = some r) :
    ':' ∈ s := by
  unfold time? at h
  split at h
  · simp
  · cases h

theorem isDate_eq_false {w : List Char} (h : Figures w) : isDate w = false := by
  rw [Bool.eq_false_iff]
  exact fun hdate => h.hyphen_not_mem (hyphen_mem_of_isDate hdate)

theorem dateTime?_eq_none {w : List Char} (h : Figures w) : dateTime? w = none := by
  have htime : time? w = none := by
    rw [Option.eq_none_iff_forall_ne_some]
    exact fun r hr => h.colon_not_mem (colon_mem_of_time? hr)
  have hfront : isDate (w.take 10) = false := by
    rw [Bool.eq_false_iff]
    intro hdate
    have hm := hyphen_mem_of_isDate hdate
    rw [List.drop_take] at hm
    exact h.hyphen_not_mem (List.mem_of_mem_take hm)
  rw [dateTime?, isDate_eq_false h, if_neg Bool.false_ne_true, htime]
  dsimp only
  split
  · rw [hfront, if_neg (by simp)]
  · rfl

/-- A word that is no date is read up to its end. -/
theorem scalar?_word {w : List Char} (hword : ∀ c ∈ w, isWordChar c = true) (hdate : isDate w = false)
    {v : Value} (hv : wordValue? w = some v) {rest : List Char}
    (hr : ∀ c ∈ rest.head?, isWordChar c = false) : scalar? (w ++ rest) = some (v, rest) := by
  simp only [scalar?, takeWhile_append_stop hword hr, dropWhile_append_stop hword hr, hdate, hv]
  rfl

theorem scalar?_bool (b : Bool) {rest : List Char} (hr : ∀ c ∈ rest.head?, isWordChar c = false) :
    scalar? (inlineText (.bool b) ++ rest) = some (.bool b, rest) := by
  have htrue : "true".toList.all isWordChar = true := by decide
  have hfalse : "false".toList.all isWordChar = true := by decide
  rw [inlineText]
  cases b with
  | true => exact scalar?_word (List.all_eq_true.1 htrue) (by decide) rfl hr
  | false => exact scalar?_word (List.all_eq_true.1 hfalse) (by decide) rfl hr

/-- A word of figures is read by the readers of numbers alone. -/
theorem wordValue?_of_figures {w : List Char} (h : Figures w) : wordValue? w =
    match float? w, integer? w with
    | some (.finite x), _ => some (.number (.double x))
    | some .notFinite, _ => some .null
    | none, some n => (Whole.ofInt? n).map fun n => .number (.whole n)
    | none, none => none := by
  have htrue : w ≠ "true".toList := h.head_ne (by decide) (by decide) _
  have hfalse : w ≠ "false".toList := h.head_ne (by decide) (by decide) _
  rw [wordValue?, if_neg htrue, if_neg hfalse, dateTime?_eq_none h]
  rcases float? w with _ | _ | _ <;> rcases integer? w with _ | _ <;> rfl

/-! ## Integers -/

theorem isMark_of_isDigit {c : Char} (h : c.isDigit = true) : (c = '.' || isExponentMark c) = false := by
  simp [isExponentMark, ne_of_class h (show '.'.isDigit = false by decide),
    ne_of_class h (show 'e'.isDigit = false by decide),
    ne_of_class h (show 'E'.isDigit = false by decide)]

/-- No word for infinity or for no number begins with a digit. -/
theorem cons_ne_word {c : Char} (hc : c.isDigit = true) (rest : List Char) :
    ¬ (c :: rest = "inf".toList ∨ c :: rest = "nan".toList) := by
  rintro (h | h)
  · exact ne_of_class hc (by decide) (List.cons.inj h).1
  · exact ne_of_class hc (by decide) (List.cons.inj h).1

/-- Whole digits are no float. -/
theorem float?_signText (negative : Bool) {ds : List Char} (h : IsWhole ds) :
    float? (signText negative ds) = none := by
  obtain ⟨c, cs, rfl⟩ := List.exists_cons_of_ne_nil h.ne_nil
  have hc := h.digit c (by simp)
  -- the part in front of a point or an exponent is the whole word, and nothing is left
  have hmark : ∀ d ∈ c :: cs, (!(decide (d = '.') || isExponentMark d)) = true := fun d hd => by
    rw [isMark_of_isDigit (h.digit d hd)]
    rfl
  have hall := takeWhile_append_stop hmark (b := []) (by simp)
  have hrest := dropWhile_append_stop hmark (b := []) (by simp)
  rw [List.append_nil] at hall hrest
  simp only [float?, signed_signText negative hc, if_neg (cons_ne_word hc cs), hall, hrest,
    h.wholeDigits?]

/-- The whole number that digits with a sign write. -/
def signedValue (negative : Bool) (ds : List Char) : Int :=
  if negative then -(Nat.ofDigitChars 10 ds 0 : Int) else Nat.ofDigitChars 10 ds 0

theorem integer?_signText (negative : Bool) {ds : List Char} (h : IsWhole ds)
    (hr : inRange (signedValue negative ds) = true) :
    integer? (signText negative ds) = some (signedValue negative ds) := by
  obtain ⟨c, cs, rfl⟩ := List.exists_cons_of_ne_nil h.ne_nil
  have hc := h.digit c (by simp)
  -- behind a leading zero there is a digit at most, and no letter for another base
  have hbase : ∀ {d : Char} {rest : List Char}, d.isDigit = false →
      signText negative (c :: cs) ≠ '0' :: d :: rest := by
    intro d rest hd he
    cases negative with
    | true => exact absurd (List.cons.inj he).1 (by decide)
    | false =>
      have hm : d ∈ c :: cs := by
        rw [show c :: cs = '0' :: d :: rest from he]
        simp
      exact ne_of_class (h.digit d hm) hd rfl
  simp only [integer?]
  split
  next heq =>
    split at heq
    next he => exact absurd he (hbase (by decide))
    next he => exact absurd he (hbase (by decide))
    next he => exact absurd he (hbase (by decide))
    next =>
      simp only [signed_signText negative hc, h.wholeDigits?, digitsValue?_of_isDigit h.digit] at heq
      have heq : some (signedValue negative (c :: cs)) = some _ := heq
      cases heq
      exact if_pos hr
  next heq =>
    split at heq
    next he => exact absurd he (hbase (by decide))
    next he => exact absurd he (hbase (by decide))
    next he => exact absurd he (hbase (by decide))
    next =>
      simp only [signed_signText negative hc, h.wholeDigits?, digitsValue?_of_isDigit h.digit] at heq
      cases heq

/-- The text of a whole number: its sign, and the digits of its magnitude. -/
theorem toList_toString (n : Int) :
    (toString n).toList = signText (decide (n < 0)) (Nat.toDigits 10 n.natAbs) := by
  cases n with
  | ofNat m =>
    have hneg : decide (Int.ofNat m < 0) = false := decide_eq_false (by simp)
    rw [hneg]
    show (Nat.repr m).toList = Nat.toDigits 10 m
    rw [Nat.repr, String.toList_ofList]
  | negSucc m =>
    have hneg : decide (Int.negSucc m < 0) = true := decide_eq_true (Int.negSucc_lt_zero m)
    rw [hneg]
    show ("-" ++ Nat.repr (m + 1)).toList = '-' :: Nat.toDigits 10 (m + 1)
    rw [Nat.repr, String.toList_append, String.toList_ofList]
    simp

theorem signedValue_toDigits (n : Int) :
    signedValue (decide (n < 0)) (Nat.toDigits 10 n.natAbs) = n := by
  rw [signedValue, Nat.ofDigitChars_ten_toDigits]
  by_cases h : n < 0
  · rw [decide_eq_true h, if_pos rfl]
    omega
  · rw [decide_eq_false h, if_neg Bool.false_ne_true]
    omega

theorem figures_whole (n : Whole) : Figures (numberText (.whole n)) := by
  rw [numberText, toList_toString]
  exact .of_whole _ (isWhole_toDigits _)

theorem scalar?_whole {n : Whole} (h : inRange n.val = true) {rest : List Char}
    (hr : ∀ c ∈ rest.head?, isWordChar c = false) :
    scalar? (numberText (.whole n) ++ rest) = some (.number (.whole n), rest) := by
  have hwhole := isWhole_toDigits n.val.natAbs
  have hvalue := signedValue_toDigits n.val
  have hof : Whole.ofInt? n.val = some n := dif_pos ⟨n.lower, n.upper⟩
  refine scalar?_word (figures_whole n).isWordChar (isDate_eq_false (figures_whole n)) ?_ hr
  rw [wordValue?_of_figures (figures_whole n), numberText, toList_toString, float?_signText _ hwhole,
    integer?_signText _ hwhole (by rw [hvalue]; exact h), hvalue]
  simp only [hof, Option.map_some]

/-! ## Floats -/

theorem float?_point (negative : Bool) {whole part : List Char} (hw : IsWhole whole) (hne : part ≠ [])
    (hp : ∀ c ∈ part, c.isDigit = true) :
    float? (signText negative (whole ++ '.' :: part)) =
      floatOf? negative (whole ++ part) part.length 0 := by
  obtain ⟨c, cs, rfl⟩ := List.exists_cons_of_ne_nil hw.ne_nil
  have hc := hw.digit c (by simp)
  have hmark : ∀ d ∈ c :: cs, (!(decide (d = '.') || isExponentMark d)) = true := fun d hd => by
    rw [isMark_of_isDigit (hw.digit d hd)]
    rfl
  have hexponent : ∀ d ∈ part, (!isExponentMark d) = true := fun d hd => by
    have := isMark_of_isDigit (hp d hd)
    rw [Bool.or_eq_false_iff] at this
    rw [this.2]
    rfl
  have hwhole := takeWhile_append_stop hmark (b := '.' :: part) (by simp)
  have hpoint := dropWhile_append_stop hmark (b := '.' :: part) (by simp)
  have hall := takeWhile_append_stop hexponent (b := []) (by simp)
  have hrest := dropWhile_append_stop hexponent (b := []) (by simp)
  rw [List.append_nil] at hall hrest
  rw [List.cons_append] at hwhole hpoint
  simp only [float?, List.cons_append, signed_signText negative hc, if_neg (cons_ne_word hc _), hwhole,
    hpoint, hw.wholeDigits?, hall, hrest, digits?_of_isDigit hne hp]

/-- Leading zeros have no value. -/
theorem ofDigitChars_replicate (n : Nat) (ds : List Char) :
    Nat.ofDigitChars 10 (List.replicate n '0' ++ ds) 0 = Nat.ofDigitChars 10 ds 0 := by
  induction n with
  | zero => rfl
  | succ n ih =>
    rw [List.replicate_succ, List.cons_append, Nat.ofDigitChars_cons]
    exact ih

/-- Digits around a point: the whole part is one, there are places behind the point, and the digits
without the point are those of the number, up to a last zero. -/
theorem withPoint_spec (digits places : Nat) : ∃ whole part,
    (Double.withPoint digits places).toList = whole ++ '.' :: part ∧ IsWhole whole ∧ part ≠ [] ∧
      (∀ c ∈ part, c.isDigit = true) ∧
      (Nat.ofDigitChars 10 (whole ++ part) 0 : ℚ) * 10 ^ (-(part.length : Int)) =
        digits * 10 ^ (-(places : Int)) := by
  obtain ⟨padded, hpadded⟩ : ∃ padded,
      padded = List.replicate (places + 1 - (Nat.toDigits 10 digits).length) '0' ++ Nat.toDigits 10 digits :=
    ⟨_, rfl⟩
  have hdigit : ∀ c ∈ padded, c.isDigit = true := by
    intro c hc
    rw [hpadded] at hc
    rcases List.mem_append.1 hc with hc | hc
    · rw [(List.mem_replicate.1 hc).2]
      rfl
    · exact (isWhole_toDigits digits).digit c hc
  have hvalue : Nat.ofDigitChars 10 padded 0 = digits := by
    rw [hpadded, ofDigitChars_replicate, Nat.ofDigitChars_ten_toDigits]
  have hlength : places < padded.length := by
    rw [hpadded, List.length_append, List.length_replicate]
    have := (isWhole_toDigits digits).ne_nil
    have := List.length_pos_of_ne_nil this
    omega
  have hwhole : IsWhole (padded.take (padded.length - places)) := by
    have hcut : 0 < padded.length - places := by omega
    refine ⟨?_, fun c hc => hdigit c (List.mem_of_mem_take hc), ?_⟩
    · rw [ne_eq, List.take_eq_nil_iff, not_or]
      exact ⟨by omega, List.ne_nil_of_length_pos (by omega)⟩
    · intro hzero
      rw [List.length_take]
      rcases Nat.lt_or_ge places (Nat.toDigits 10 digits).length with h | h
      · -- no padding, so that the leading zero is the only digit
        have hnone : places + 1 - (Nat.toDigits 10 digits).length = 0 := by omega
        rw [hnone, List.replicate_zero, List.nil_append] at hpadded
        rw [List.head?_take, if_neg (by omega), hpadded] at hzero
        have hone := (isWhole_toDigits digits).zero hzero
        rw [hpadded, hone]
        rw [hone] at h
        omega
      · -- with padding just one digit is in front of the point
        have hlen : padded.length = places + 1 := by
          rw [hpadded, List.length_append, List.length_replicate]
          omega
        omega
  have htext : (Double.withPoint digits places).toList =
      padded.take (padded.length - places) ++ '.' ::
        (if (padded.drop (padded.length - places)).isEmpty then ['0']
          else padded.drop (padded.length - places)) := by
    rw [Double.withPoint, String.toList_ofList, hpadded]
  rcases Nat.eq_zero_or_pos places with rfl | hplaces
  · -- the zero behind the point multiplies the digits by ten, and its place divides by it
    refine ⟨padded, ['0'], ?_, ?_, by simp, by simp, ?_⟩
    · rw [htext]
      simp
    · simpa using hwhole
    · rw [Nat.ofDigitChars_append, hvalue]
      have hten : Nat.ofDigitChars 10 ['0'] digits = 10 * digits := rfl
      rw [hten]
      push_cast
      norm_num
      ring
  · refine ⟨_, padded.drop (padded.length - places), ?_, hwhole, ?_,
      fun c hc => hdigit c (List.mem_of_mem_drop hc), ?_⟩
    · rw [htext, if_neg]
      simp
      omega
    · simp
      omega
    · rw [List.take_append_drop, hvalue, List.length_drop]
      congr
      omega

theorem toList_text (x : Double) : (x.text doubleText).toList =
    signText x.negative (Double.withPoint
      ((x.shortest .up).digits * Nat.pow 10 (x.shortest .up).exponent.toNat)
      (-(x.shortest .up).exponent).toNat).toList := by
  have hmagnitude : x.text doubleText = if x.negative then "-" ++ Double.withPoint
      ((x.shortest .up).digits * Nat.pow 10 (x.shortest .up).exponent.toNat)
      (-(x.shortest .up).exponent).toNat else Double.withPoint
      ((x.shortest .up).digits * Nat.pow 10 (x.shortest .up).exponent.toNat)
      (-(x.shortest .up).exponent).toNat := by
    by_cases hx : x.rank = 0
    · have hshort : x.shortest .up = ⟨0, 0⟩ := if_pos hx
      simp only [Double.text, doubleText, hx, hshort, if_true]
      rfl
    · simp only [Double.text, doubleText, if_neg hx, if_true]
  rw [hmagnitude]
  cases x.negative with
  | true => simp [signText]
  | false => rfl

/-- The text of a float: its sign, and digits around a point that have the value of its shortest
decimal. -/
theorem numberText_double (x : Double) : ∃ whole part,
    numberText (.double x) = signText x.negative (whole ++ '.' :: part) ∧ IsWhole whole ∧ part ≠ [] ∧
      (∀ c ∈ part, c.isDigit = true) ∧
      (Nat.ofDigitChars 10 (whole ++ part) 0 * 10 ^ (0 - (part.length : Int)) : ℚ) =
        (x.shortest .up).digits * 10 ^ (x.shortest .up).exponent := by
  obtain ⟨whole, part, htext, hwhole, hne, hpart, hvalue⟩ := withPoint_spec
    ((x.shortest .up).digits * Nat.pow 10 (x.shortest .up).exponent.toNat)
    (-(x.shortest .up).exponent).toNat
  refine ⟨whole, part, by rw [numberText, toList_text, htext], hwhole, hne, hpart, ?_⟩
  have hscale : (10 : ℚ) ^ (-(x.shortest .up).exponent).toNat ≠ 0 := by positivity
  rw [zero_sub, hvalue]
  push_cast [Nat.pow_eq]
  rw [← Double.zpow_toNat_neg 10 (by norm_num) (x.shortest .up).exponent, zpow_neg, zpow_natCast]
  field_simp

theorem figures_double (x : Double) : Figures (numberText (.double x)) := by
  obtain ⟨whole, part, htext, hwhole, -, hpart, -⟩ := numberText_double x
  rw [htext]
  exact .of_point _ hwhole hpart

theorem scalar?_double (x : Double) {rest : List Char} (hr : ∀ c ∈ rest.head?, isWordChar c = false) :
    scalar? (numberText (.double x) ++ rest) = some (.number (.double x), rest) := by
  obtain ⟨whole, part, htext, hwhole, hne, hpart, hvalue⟩ := numberText_double x
  refine scalar?_word (figures_double x).isWordChar (isDate_eq_false (figures_double x)) ?_ hr
  have hdecimal := Double.ofDecimal?_shortest .up x hvalue
  have hdigits : ∀ c ∈ whole ++ part, c.isDigit = true := fun c hc =>
    (List.mem_append.1 hc).elim (hwhole.digit c) (hpart c)
  rw [wordValue?_of_figures (figures_double x), htext, float?_point _ hwhole hne hpart]
  simp only [floatOf?, digitsValue?_of_isDigit hdigits, hdecimal]

theorem figures_numberText (n : Number) : Figures (numberText n) := by
  cases n with
  | whole n => exact figures_whole n
  | double x => exact figures_double x

/-- The text of a number that can be written is read as that number. -/
theorem scalar?_numberText {n : Number} (h : writable (.number n) = true) {rest : List Char}
    (hr : ∀ c ∈ rest.head?, isWordChar c = false) :
    scalar? (numberText n ++ rest) = some (.number n, rest) := by
  cases n with
  | whole n => exact scalar?_whole h hr
  | double x => exact scalar?_double x hr

end PromptTheme.Toml
