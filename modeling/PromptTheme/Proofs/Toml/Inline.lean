/-
Keys and values on one line are read back. A reader sees from the first character what follows, so each
text is shown to begin with a character that opens a key or a value (`Toml.isOpening`), and after each
value stands one that ends it (`Toml.Ends`). `Toml.reads_inlineText` is the round trip of values, by
recursion on the value; what is read inside brackets nests one level less than the value itself.
-/
import PromptTheme.Proofs.Config.Pruned
import PromptTheme.Proofs.Toml.Tree
import PromptTheme.Proofs.Toml.Word
import PromptTheme.Toml.Statement

namespace PromptTheme

namespace Toml

/-! ## First and last characters -/

/-- A character that a key may begin with. -/
def isKeyOpening (c : Char) : Bool := isBare c || c = '"' || c = '\''

/-- A character that a key or a value may begin with. -/
def isOpening (c : Char) : Bool := isKeyOpening c || c = '[' || c = '\x7b'

theorem isOpening_of_isKeyOpening {c : Char} (h : isKeyOpening c = true) : isOpening c = true := by
  simp [isOpening, h]

/-- Behind a value the line or the file ends, or a comma, a space or a bracket follows. -/
def Ends (rest : List Char) : Prop := ∀ c ∈ rest.head?, c ∈ ['\n', ',', ' ', ']']

namespace Ends

variable {rest : List Char}

theorem cons {c : Char} (h : c ∈ ['\n', ',', ' ', ']']) (rest : List Char) : Ends (c :: rest) := by
  intro d hd
  cases hd
  exact h

theorem not_wordChar (h : Ends rest) : ∀ c ∈ rest.head?, isWordChar c = false := by
  have hall : (['\n', ',', ' ', ']'].all fun c => !isWordChar c) = true := by decide
  intro c hc
  rw [← Bool.not_eq_true']
  exact List.all_eq_true.1 hall c (h c hc)

theorem head?_ne (h : Ends rest) {q : Char} (hq : q ∉ ['\n', ',', ' ', ']']) : rest.head? ≠ some q :=
  fun he => hq (h q he)

end Ends

theorem isSpace_of_isOpening {c : Char} (h : isOpening c = true) : isSpace c = false := by
  simp [isSpace, ne_of_class h (show isOpening ' ' = false by decide),
    ne_of_class h (show isOpening '\t' = false by decide)]

theorem skipSpace_of_isOpening {c : Char} (h : isOpening c = true) (s : List Char) :
    skipSpace (c :: s) = c :: s := by
  rw [skipSpace, List.dropWhile_cons, isSpace_of_isOpening h, if_neg Bool.false_ne_true]

/-! ## Keys -/

/-- The text of a key begins with a bare character or with a quote. -/
theorem segmentText_cons (s : List Char) :
    ∃ c t, segmentText s = c :: t ∧ isKeyOpening c = true := by
  unfold segmentText
  extract_lets control basic
  have hbasic : ∃ c t, basic = c :: t ∧ isKeyOpening c = true := ⟨_, _, rfl, by decide⟩
  split_ifs with hbare
  · cases s with
    | nil => simp at hbare
    | cons c s =>
      simp only [List.isEmpty_cons, Bool.not_false, Bool.true_and, List.all_cons, Bool.and_eq_true] at hbare
      exact ⟨c, s, rfl, by rw [isKeyOpening, hbare.1, Bool.true_or, Bool.true_or]⟩
  · exact hbasic
  · exact ⟨_, _, rfl, by decide⟩
  · exact hbasic

theorem skipSpace_segmentText (s rest : List Char) :
    skipSpace (segmentText s ++ rest) = segmentText s ++ rest := by
  obtain ⟨c, t, hs, hc⟩ := segmentText_cons s
  rw [hs, List.cons_append, skipSpace_of_isOpening (isOpening_of_isKeyOpening hc)]

theorem key?_space (limit : Nat) (s : List Char) : key? limit (' ' :: s) = key? limit s := by
  cases limit with
  | zero => rfl
  | succ limit => rfl

/-- A path that is not too long is read back, up to the blanks behind it. -/
theorem key?_pathText {rest : List Char} (hbare : ∀ c ∈ rest.head?, isBare c = false)
    (hpoint : (skipSpace rest).head? ≠ some '.') : ∀ (path : List String) (limit : Nat), path ≠ [] →
    path.length ≤ limit → key? limit (pathText path ++ rest) = some (path, skipSpace rest)
  | [], _, hne, _ => absurd rfl hne
  | _ :: _, 0, _, hlen => absurd hlen (by simp)
  | [k], limit + 1, _, _ => by
    have hseg := segment?_segmentText k.toList hbare
    rw [String.ofList_toList] at hseg
    show key? (limit + 1) (segmentText k.toList ++ rest) = _
    rw [key?, skipSpace_segmentText, hseg]
    dsimp only
    split
    next heq => exact absurd (by rw [heq]; rfl) hpoint
    next => rfl
  | k :: l :: ks, limit + 1, _, hlen => by
    have hrest := key?_pathText hbare hpoint (l :: ks) limit (List.cons_ne_nil l ks) (Nat.le_of_succ_le_succ hlen)
    have hseg : segment? (segmentText k.toList ++ '.' :: (pathText (l :: ks) ++ rest)) =
        some (String.ofList k.toList, '.' :: (pathText (l :: ks) ++ rest)) :=
      segment?_segmentText k.toList (by simp [isBare])
    rw [String.ofList_toList] at hseg
    have htext : pathText (k :: l :: ks) ++ rest =
        segmentText k.toList ++ '.' :: (pathText (l :: ks) ++ rest) := by
      show segmentText k.toList ++ ['.'] ++ pathText (l :: ks) ++ rest = _
      simp
    rw [htext, key?, skipSpace_segmentText, hseg]
    show (key? limit (pathText (l :: ks) ++ rest)).map _ = _
    rw [hrest]
    rfl

/-! ## Words and strings -/

/-- The text of a string begins with a quote. -/
theorem stringText_cons (s : List Char) :
    (∃ t, stringText s = '"' :: t) ∨ ∃ t, stringText s = '\'' :: t := by
  unfold stringText
  extract_lets control backslash newline start basic multi
  split_ifs
  · exact .inl ⟨_, rfl⟩
  · exact .inr ⟨_, rfl⟩
  · exact .inl ⟨_, rfl⟩
  · exact .inr ⟨_, rfl⟩
  · exact .inl ⟨_, rfl⟩
  · exact .inl ⟨_, rfl⟩

theorem value?_stringText (levels : Nat) (s : String) {rest : List Char} (hr : Ends rest) :
    value? levels (stringText s.toList ++ rest) = some (.string s, rest) := by
  have hread := string?_stringText s.toList (hr.head?_ne (by decide)) (hr.head?_ne (by decide))
  rw [String.ofList_toList] at hread
  rcases stringText_cons s.toList with ⟨t, ht⟩ | ⟨t, ht⟩ <;> rw [ht] at hread ⊢ <;>
    cases levels <;> simp only [List.cons_append, value?] at hread ⊢ <;> rw [hread] <;> rfl

/-- A word is read as a word at any depth. -/
theorem value?_word (levels : Nat) {c : Char} (hc : isWordChar c = true) (s : List Char) :
    value? levels (c :: s) = scalar? (c :: s) := by
  have hne : ∀ {d : Char}, isWordChar d = false → c ≠ d := ne_of_class hc
  cases levels with
  | zero =>
    rw [value?.eq_3]
    · exact fun _ h => hne (by decide) (List.cons.inj h).1
    · exact fun _ h => hne (by decide) (List.cons.inj h).1
  | succ levels =>
    rw [value?.eq_8]
    · exact fun _ h => hne (by decide) (List.cons.inj h).1
    · exact fun _ h => hne (by decide) (List.cons.inj h).1
    · exact fun _ h => hne (by decide) (List.cons.inj h).1
    · exact fun _ h => hne (by decide) (List.cons.inj h).1

/-- Every value that is not null begins with a character that opens a value. -/
theorem inlineText_cons {v : Value} (h : v.isNull = false) :
    ∃ c t, inlineText v = c :: t ∧ isOpening c = true := by
  cases v with
  | null => cases h
  | bool b =>
    cases b with
    | true => exact ⟨_, _, rfl, by decide⟩
    | false => exact ⟨_, _, rfl, by decide⟩
  | number n =>
    obtain ⟨c, t, ht, hc⟩ := (figures_numberText n).cons
    exact ⟨c, t, ht, by simp [isOpening, isKeyOpening, hc]⟩
  | string s =>
    rw [inlineText]
    rcases stringText_cons s.toList with ⟨t, ht⟩ | ⟨t, ht⟩
    · exact ⟨_, t, ht, by decide⟩
    · exact ⟨_, t, ht, by decide⟩
  | array items => exact ⟨_, _, rfl, by decide⟩
  | table es =>
    cases es with
    | nil => exact ⟨_, _, rfl, by decide⟩
    | cons e es => exact ⟨_, _, rfl, by decide⟩

/-! ## Arrays -/

/-- The value is read from its text, whatever follows behind a character that ends it. -/
def Reads (item : Scan Value) (v : Value) : Prop :=
  v.isNull = false ∧ ∀ rest, Ends rest → item (inlineText v ++ rest) = some (v, rest)

theorem skipBlank_of_isOpening {c : Char} (h : isOpening c = true) (s : List Char) :
    skipBlank false (c :: s) = c :: s := by
  rw [skipBlank.eq_4]
  · rw [if_neg Bool.false_ne_true, isSpace_of_isOpening h, if_neg Bool.false_ne_true,
      if_neg (ne_of_class h (by decide))]
  · exact fun _ he => absurd he (ne_of_class h (by decide))
  · exact fun he => ne_of_class h (by decide) he

theorem items?_space (item : Scan Value) (fuel : Nat) (s : List Char) :
    items? item fuel (' ' :: s) = items? item fuel s := by
  cases fuel with
  | zero => rfl
  | succ fuel => rfl

/-- An item of an array that others follow. -/
theorem items?_comma {item : Scan Value} {v : Value} (h : Reads item v) (rest : List Char) (fuel : Nat) :
    items? item (fuel + 1) (inlineText v ++ ',' :: rest) =
      (items? item fuel rest).map fun p => (v :: p.1, p.2) := by
  have hread := h.2 (',' :: rest) (.cons (by decide) rest)
  obtain ⟨c, t, ht, hc⟩ := inlineText_cons h.1
  rw [ht, List.cons_append] at hread ⊢
  rw [items?, skipBlank_of_isOpening hc]
  split
  next heq => exact absurd (List.cons.inj heq).1 (ne_of_class hc (by decide))
  next =>
    rw [hread]
    rfl

/-- The last item of an array. -/
theorem items?_last {item : Scan Value} {v : Value} (h : Reads item v) (rest : List Char) (fuel : Nat) :
    items? item (fuel + 1) (inlineText v ++ ']' :: rest) = some ([v], rest) := by
  have hread := h.2 (']' :: rest) (.cons (by decide) rest)
  obtain ⟨c, t, ht, hc⟩ := inlineText_cons h.1
  rw [ht, List.cons_append] at hread ⊢
  rw [items?, skipBlank_of_isOpening hc]
  split
  next heq => exact absurd (List.cons.inj heq).1 (ne_of_class hc (by decide))
  next =>
    rw [hread]
    rfl

theorem items?_itemTexts {item : Scan Value} (rest : List Char) : ∀ (vs : List Value) (fuel : Nat),
    (∀ v ∈ vs, Reads item v) → vs.length < fuel →
    items? item fuel (joined [',', ' '] (itemTexts vs) ++ ']' :: rest) = some (vs, rest)
  | _, 0, _, hf => absurd hf (Nat.not_lt_zero _)
  | [], fuel + 1, _, _ => rfl
  | [v], fuel + 1, h, _ => items?_last (h v (by simp)) rest fuel
  | v :: w :: vs, fuel + 1, h, hf => by
    have hrest := items?_itemTexts rest (w :: vs) fuel
      (fun u hu => h u (List.mem_cons_of_mem v hu)) (Nat.lt_of_succ_lt_succ hf)
    have htext : joined [',', ' '] (itemTexts (v :: w :: vs)) ++ ']' :: rest =
        inlineText v ++ ',' :: ' ' :: (joined [',', ' '] (itemTexts (w :: vs)) ++ ']' :: rest) := by
      show inlineText v ++ [',', ' '] ++ joined [',', ' '] (itemTexts (w :: vs)) ++ ']' :: rest = _
      simp
    rw [htext, items?_comma (h v (by simp)), items?_space, hrest]
    rfl

/-! ## Inline tables -/

theorem pair?_space (item : Scan Value) (s : List Char) : pair? item (' ' :: s) = pair? item s := by
  rw [pair?, pair?, key?_space]

/-- A key and its value on one line. -/
theorem pair?_entryText {item : Scan Value} {k : String} {v : Value} (h : Reads item v)
    {rest : List Char} (hr : Ends rest) :
    pair? item (segmentText k.toList ++ [' ', '=', ' '] ++ inlineText v ++ rest) = some (([k], v), rest) := by
  have hread := h.2 rest hr
  have hkey : key? maxNesting (segmentText k.toList ++ ' ' :: '=' :: ' ' :: (inlineText v ++ rest)) =
      some ([k], '=' :: ' ' :: (inlineText v ++ rest)) :=
    key?_pathText (by simp [isBare]) (by simp [skipSpace, isSpace]) [k] maxNesting (List.cons_ne_nil k [])
      (by simp [maxNesting])
  have hspace : skipSpace (' ' :: (inlineText v ++ rest)) = inlineText v ++ rest := by
    obtain ⟨c, t, ht, hc⟩ := inlineText_cons h.1
    rw [ht, List.cons_append]
    exact skipSpace_of_isOpening hc (t ++ rest)
  have htext : segmentText k.toList ++ [' ', '=', ' '] ++ inlineText v ++ rest =
      segmentText k.toList ++ ' ' :: '=' :: ' ' :: (inlineText v ++ rest) := by simp
  rw [htext, pair?, hkey]
  show (item (skipSpace (' ' :: _))).map _ = _
  rw [hspace, hread]
  rfl

theorem pairs?_entryTexts {item : Scan Value} (rest : List Char) :
    ∀ (es : List (String × Value)) (fuel : Nat), es ≠ [] → (∀ e ∈ es, Reads item e.2) → es.length ≤ fuel →
    pairs? item fuel (' ' :: (joined [',', ' '] (entryTexts es) ++ ' ' :: '\x7d' :: rest)) =
      some (es.map fun e => ([e.1], e.2), rest)
  | [], _, hne, _, _ => absurd rfl hne
  | _ :: _, 0, _, _, hf => absurd hf (by simp)
  | [(k, v)], fuel + 1, _, h, _ => by
    have hpair := pair?_entryText (k := k) (h (k, v) (by simp))
      (.cons (c := ' ') (by decide) ('\x7d' :: rest))
    show pairs? item (fuel + 1) (' ' :: (segmentText k.toList ++ [' ', '=', ' '] ++ inlineText v ++ ' ' :: _)) = _
    rw [pairs?, pair?_space, hpair]
    rfl
  | (k, v) :: e :: es, fuel + 1, _, h, hf => by
    have hrest := pairs?_entryTexts rest (e :: es) fuel (List.cons_ne_nil e es)
      (fun u hu => h u (List.mem_cons_of_mem (k, v) hu)) (Nat.le_of_succ_le_succ hf)
    have hpair := pair?_entryText (k := k) (h (k, v) (by simp)) (.cons (c := ',') (by decide)
      (' ' :: (joined [',', ' '] (entryTexts (e :: es)) ++ ' ' :: '\x7d' :: rest)))
    have htext : joined [',', ' '] (entryTexts ((k, v) :: e :: es)) ++ ' ' :: '\x7d' :: rest =
        segmentText k.toList ++ [' ', '=', ' '] ++ inlineText v ++
          ',' :: ' ' :: (joined [',', ' '] (entryTexts (e :: es)) ++ ' ' :: '\x7d' :: rest) := by
      show (segmentText k.toList ++ [' ', '=', ' '] ++ inlineText v) ++ [',', ' '] ++
        joined [',', ' '] (entryTexts (e :: es)) ++ ' ' :: '\x7d' :: rest = _
      simp
    rw [htext, pairs?, pair?_space, hpair]
    show (pairs? item fuel (' ' :: _)).map _ = _
    rw [hrest]
    rfl

/-! ## Values -/

/-- A value that can be written on a line and read back at the given depth: it has no null, its tables
are sorted, its integers are not too large, and it is not nested too deep. -/
structure Written (levels : Nat) (v : Value) : Prop where
  no_null : v.hasNull = false
  ordered : v.Ordered
  writable : writable v = true
  depth_le : v.depth ≤ levels

theorem Written.mono {m n : Nat} {v : Value} (h : Written m v) (hmn : m ≤ n) : Written n v :=
  ⟨h.no_null, h.ordered, h.writable, h.depth_le.trans hmn⟩

/-- What is written of a list of items is written of each. -/
theorem written_items {levels : Nat} : ∀ {vs : List Value}, Value.anyItem Value.isNull vs = false →
    Value.OrderedItems vs → itemsWritable vs = true → Value.itemsDepth vs ≤ levels →
    ∀ v ∈ vs, Written levels v
  | [], _, _, _, _, _, hm => by cases hm
  | w :: ws, hnull, ho, hw, hdepth, v, hm => by
    rw [Value.anyItem, Bool.or_eq_false_iff] at hnull
    rw [itemsWritable, Bool.and_eq_true] at hw
    rw [Value.itemsDepth, Nat.max_le] at hdepth
    rcases List.mem_cons.1 hm with rfl | hm
    · exact ⟨hnull.1, ho.1, hw.1, hdepth.1⟩
    · exact written_items hnull.2 ho.2 hw.2 hdepth.2 v hm

theorem written_entries {levels : Nat} : ∀ {es : List (String × Value)},
    Value.anyEntry Value.isNull es = false → Value.OrderedEntries es → entriesWritable es = true →
    Value.entriesDepth es ≤ levels → ∀ e ∈ es, Written levels e.2
  | [], _, _, _, _, _, hm => by cases hm
  | (k, w) :: es, hnull, ho, hw, hdepth, e, hm => by
    rw [Value.anyEntry, Bool.or_eq_false_iff] at hnull
    rw [entriesWritable, Bool.and_eq_true] at hw
    rw [Value.entriesDepth, Nat.max_le] at hdepth
    rcases List.mem_cons.1 hm with rfl | hm
    · exact ⟨hnull.1, ho.1, hw.1, hdepth.1⟩
    · exact written_entries hnull.2 ho.2 hw.2 hdepth.2 e hm

theorem Written.array {levels : Nat} {items : List Value} (h : Written levels (.array items)) :
    ∃ n, levels = n + 1 ∧ ∀ v ∈ items, Written n v := by
  obtain ⟨hnull, ho, hw, hdepth⟩ := h
  rw [Value.hasNull, Value.any, Bool.or_eq_false_iff] at hnull
  rw [Value.depth] at hdepth
  obtain ⟨n, rfl⟩ : ∃ n, levels = n + 1 := ⟨levels - 1, by omega⟩
  exact ⟨n, rfl, written_items hnull.2 ho hw (by omega)⟩

theorem Written.table {levels : Nat} {es : List (String × Value)} (h : Written levels (.table es)) :
    ∃ n, levels = n + 1 ∧ Keyed.Sorted es ∧ ∀ e ∈ es, Written n e.2 := by
  obtain ⟨hnull, ho, hw, hdepth⟩ := h
  rw [Value.hasNull, Value.any, Bool.or_eq_false_iff] at hnull
  rw [Value.depth] at hdepth
  obtain ⟨n, rfl⟩ : ∃ n, levels = n + 1 := ⟨levels - 1, by omega⟩
  exact ⟨n, rfl, ho.1, written_entries hnull.2 ho.2 hw (by omega)⟩

/-- Between texts stand separators. -/
theorem length_le_joined {sep : List Char} (hsep : sep ≠ []) : ∀ ts : List (List Char),
    ts.length ≤ (joined sep ts).length + 1
  | [] => by simp
  | [t] => by simp
  | t :: u :: ts => by
    have hrest := length_le_joined hsep (u :: ts)
    have hpos := List.length_pos_of_ne_nil hsep
    rw [joined, List.length_append, List.length_append, List.length_cons]
    · omega
    · exact List.cons_ne_nil u ts

theorem length_itemTexts (vs : List Value) : (itemTexts vs).length = vs.length := by
  induction vs with
  | nil => rfl
  | cons v vs ih => rw [itemTexts, List.length_cons, List.length_cons, ih]

theorem length_entryTexts (es : List (String × Value)) : (entryTexts es).length = es.length := by
  induction es with
  | nil => rfl
  | cons e es ih => rw [entryTexts, List.length_cons, List.length_cons, ih]

theorem joined_entryTexts_cons (e : String × Value) (es : List (String × Value)) :
    ∃ c t, joined [',', ' '] (entryTexts (e :: es)) = c :: t ∧ isOpening c = true := by
  obtain ⟨k, v⟩ := e
  obtain ⟨c, t, ht, hc⟩ := segmentText_cons k.toList
  cases es with
  | nil =>
    refine ⟨c, t ++ [' ', '=', ' '] ++ inlineText v, ?_, isOpening_of_isKeyOpening hc⟩
    show segmentText k.toList ++ [' ', '=', ' '] ++ inlineText v = _
    rw [ht]
    rfl
  | cons f es =>
    refine ⟨c, t ++ [' ', '=', ' '] ++ inlineText v ++ [',', ' '] ++ joined [',', ' '] (entryTexts (f :: es)),
      ?_, isOpening_of_isKeyOpening hc⟩
    show segmentText k.toList ++ [' ', '=', ' '] ++ inlineText v ++ [',', ' '] ++ _ = _
    rw [ht]
    rfl

theorem reads_array {levels : Nat} {items : List Value} (h : ∀ v ∈ items, Reads (value? levels) v) :
    Reads (value? (levels + 1)) (.array items) := by
  refine ⟨rfl, fun rest _ => ?_⟩
  have htext : inlineText (.array items) ++ rest =
      '[' :: (joined [',', ' '] (itemTexts items) ++ ']' :: rest) := by
    rw [inlineText]
    simp
  have hfuel : items.length < (joined [',', ' '] (itemTexts items) ++ ']' :: rest).length + 1 := by
    have hsep : [',', ' '] ≠ [] := List.cons_ne_nil _ _
    have hlength := length_le_joined hsep (itemTexts items)
    rw [length_itemTexts] at hlength
    rw [List.length_append, List.length_cons]
    omega
  rw [htext, value?, items?_itemTexts rest items _ h hfuel]
  rfl

theorem reads_table {levels : Nat} {es : List (String × Value)} (hs : Keyed.Sorted es)
    (h : ∀ e ∈ es, Reads (value? levels) e.2) : Reads (value? (levels + 1)) (.table es) := by
  refine ⟨rfl, fun rest _ => ?_⟩
  cases es with
  | nil => rfl
  | cons e es =>
    have htext : inlineText (.table (e :: es)) ++ rest =
        '\x7b' :: ' ' :: (joined [',', ' '] (entryTexts (e :: es)) ++ ' ' :: '\x7d' :: rest) := by
      rw [inlineText]
      simp
    have hfuel : (e :: es).length ≤
        (' ' :: (joined [',', ' '] (entryTexts (e :: es)) ++ ' ' :: '\x7d' :: rest)).length + 1 := by
      have hsep : [',', ' '] ≠ [] := List.cons_ne_nil _ _
      have hlength := length_le_joined hsep (entryTexts (e :: es))
      rw [length_entryTexts] at hlength
      rw [List.length_cons (a := ' '), List.length_append]
      omega
    have hpairs := pairs?_entryTexts rest (e :: es) _ (List.cons_ne_nil e es) h hfuel
    -- the first character is no closing brace, so that the table is not taken for an empty one
    obtain ⟨c, t, ht, hc⟩ := joined_entryTexts_cons e es
    have hskip : skipSpace (' ' :: (joined [',', ' '] (entryTexts (e :: es)) ++ ' ' :: '\x7d' :: rest)) =
        c :: (t ++ ' ' :: '\x7d' :: rest) := by
      rw [ht, List.cons_append]
      exact skipSpace_of_isOpening hc _
    rw [htext, value?, hskip]
    split
    next heq => exact absurd (List.cons.inj heq).1 (ne_of_class hc (by decide))
    next =>
      rw [hpairs]
      dsimp only
      rw [inlineTable?_of_sorted hs]
      rfl

mutual

/-- The text of a value is read as that value. -/
theorem reads_inlineText : ∀ {v : Value} {levels : Nat}, Written levels v → Reads (value? levels) v
  | .null, _, h => by cases h.no_null
  | .bool b, levels, _ => by
    refine ⟨rfl, fun rest hr => ?_⟩
    have hread := scalar?_bool b hr.not_wordChar
    cases b with
    | true => exact (value?_word levels (by decide) _).trans hread
    | false => exact (value?_word levels (by decide) _).trans hread
  | .number n, levels, h => by
    refine ⟨rfl, fun rest hr => ?_⟩
    have hread := scalar?_numberText h.writable hr.not_wordChar
    obtain ⟨c, t, ht, -⟩ := (figures_numberText n).cons
    have hc := (figures_numberText n).isWordChar c (by rw [ht]; simp)
    rw [inlineText, ht, List.cons_append, value?_word levels hc]
    rw [ht, List.cons_append] at hread
    exact hread
  | .string s, levels, _ => by
    refine ⟨rfl, fun rest hr => ?_⟩
    rw [inlineText]
    exact value?_stringText levels s hr
  | .array items, levels, h => by
    obtain ⟨n, rfl, hitems⟩ := h.array
    exact reads_array (reads_items hitems)
  | .table es, levels, h => by
    obtain ⟨n, rfl, hs, hentries⟩ := h.table
    exact reads_table hs (reads_entries hentries)

theorem reads_items : ∀ {vs : List Value} {levels : Nat}, (∀ v ∈ vs, Written levels v) →
    ∀ v ∈ vs, Reads (value? levels) v
  | [], _, _, _, hm => by cases hm
  | w :: ws, levels, h, v, hm => by
    rcases List.mem_cons.1 hm with hv | hm
    · rw [hv]
      exact reads_inlineText (h w List.mem_cons_self)
    · exact reads_items (fun u hu => h u (List.mem_cons_of_mem w hu)) v hm

theorem reads_entries : ∀ {es : List (String × Value)} {levels : Nat}, (∀ e ∈ es, Written levels e.2) →
    ∀ e ∈ es, Reads (value? levels) e.2
  | [], _, _, _, hm => by cases hm
  | (k, w) :: es, levels, h, e, hm => by
    rcases List.mem_cons.1 hm with he | hm
    · rw [he]
      exact reads_inlineText (h (k, w) List.mem_cons_self)
    · exact reads_entries (fun u hu => h u (List.mem_cons_of_mem (k, w) hu)) e hm

end

end Toml

end PromptTheme
