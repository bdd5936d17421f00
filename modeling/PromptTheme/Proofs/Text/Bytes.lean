/-
Texts cut at indices that count the bytes of their UTF-8 form. Such a cut fails where an index lies inside
a character or behind the end: `Text.cut?_eq_some_iff` says which parts a cut gives, and `Text.isSome_cut?_iff`
that it gives some exactly where the bytes themselves show the start of a character, or the end.

`Text.afterHeadBytes` looks for a head by such cuts, as long as the head is in bytes. For every head and
every text its second cut succeeds, and it finds what `Text.afterHeadAnyCase?` finds character by character:
letters that differ in case alone are equally long.
-/
import PromptTheme.Text.Letters

namespace PromptTheme.Text

/-! ## Bytes and cuts -/

/-- The bytes of a text in UTF-8. -/
def bytes (s : List Char) : List UInt8 := s.flatMap String.utf8EncodeChar

theorem length_bytes_cons (c : Char) (s : List Char) :
    (bytes (c :: s)).length = c.utf8Size + (bytes s).length := by
  rw [bytes, List.flatMap_cons, List.length_append, String.length_utf8EncodeChar, ← bytes]

/-- Cuts a text behind its first bytes; none if that is inside a character or behind the end. -/
def cut? : Nat → List Char → Option (List Char × List Char)
  | 0, s => some ([], s)
  | _ + 1, [] => none
  | n + 1, c :: s =>
    if c.utf8Size ≤ n + 1 then
      (cut? (n + 1 - c.utf8Size) s).map fun (front, rest) => (c :: front, rest)
    else none

theorem cut?_zero (s : List Char) : cut? 0 s = some ([], s) := by rw [cut?]

theorem cut?_cons (n : Nat) (c : Char) (s : List Char) : cut? (c.utf8Size + n) (c :: s) =
    (cut? n s).map fun (front, rest) => (c :: front, rest) := by
  obtain ⟨m, hm⟩ : ∃ m, c.utf8Size + n = m + 1 :=
    ⟨c.utf8Size + n - 1, by have := c.utf8Size_pos; omega⟩
  have hn : m + 1 - c.utf8Size = n := by omega
  rw [hm, cut?, if_pos (by omega), hn]

/-- Within the bytes of the first character there is no cut. -/
theorem cut?_cons_of_lt {n : Nat} {c : Char} (h0 : 0 < n) (hn : n < c.utf8Size) (s : List Char) :
    cut? n (c :: s) = none := by
  obtain ⟨m, rfl⟩ : ∃ m, n = m + 1 := ⟨n - 1, by omega⟩
  rw [cut?, if_neg (by omega)]

theorem cut?_append (front rest : List Char) :
    cut? (bytes front).length (front ++ rest) = some (front, rest) := by
  induction front with
  | nil => exact cut?_zero rest
  | cons c front ih => rw [length_bytes_cons, List.cons_append, cut?_cons, ih, Option.map_some]

theorem cut?_eq_some_iff {n : Nat} {s front rest : List Char} :
    cut? n s = some (front, rest) ↔ s = front ++ rest ∧ (bytes front).length = n := by
  constructor
  · intro h
    induction s generalizing n front with
    | nil =>
      cases n with
      | zero => cases h; exact ⟨rfl, rfl⟩
      | succ n => cases h
    | cons c s ih =>
      rcases Nat.eq_zero_or_pos n with rfl | h0
      · cases h; exact ⟨rfl, rfl⟩
      rcases Nat.lt_or_ge n c.utf8Size with hn | hn
      · rw [cut?_cons_of_lt h0 hn] at h
        cases h
      · obtain ⟨m, rfl⟩ := Nat.exists_eq_add_of_le hn
        rw [cut?_cons] at h
        obtain ⟨⟨front, rest⟩, hcut, hparts⟩ := Option.map_eq_some_iff.1 h
        cases hparts
        obtain ⟨rfl, rfl⟩ := ih hcut
        exact ⟨rfl, length_bytes_cons c front⟩
  · rintro ⟨rfl, rfl⟩
    exact cut?_append front rest

/-- A text can be cut at its end, and where a byte stands that begins a character. -/
theorem isSome_cut?_iff {n : Nat} {s : List Char} : (cut? n s).isSome ↔
    n = (bytes s).length ∨ ∃ b, (bytes s)[n]? = some b ∧ b.IsUTF8FirstByte := by
  induction s generalizing n with
  | nil => cases n <;> simp [cut?, bytes]
  | cons c s ih =>
    have hbytes : bytes (c :: s) = String.utf8EncodeChar c ++ bytes s := List.flatMap_cons
    have hsize := String.length_utf8EncodeChar c
    have hpos := c.utf8Size_pos
    rcases Nat.lt_or_ge n c.utf8Size with hn | hn
    · -- of the bytes of the first character only the first begins one
      have hbyte : (∃ b, (bytes (c :: s))[n]? = some b ∧ b.IsUTF8FirstByte) ↔ n = 0 := by
        rw [hbytes, List.getElem?_append_left (by omega), List.getElem?_eq_getElem (by omega)]
        simp [UInt8.isUTF8FirstByte_getElem_utf8EncodeChar]
      have hend : n ≠ (bytes (c :: s)).length := by rw [length_bytes_cons]; omega
      rw [hbyte]
      rcases Nat.eq_zero_or_pos n with rfl | h0
      · simp [cut?_zero]
      · simp [cut?_cons_of_lt h0 hn, hend, Nat.ne_of_gt h0]
    · obtain ⟨m, rfl⟩ := Nat.exists_eq_add_of_le hn
      have hbyte : (bytes (c :: s))[c.utf8Size + m]? = (bytes s)[m]? := by
        rw [hbytes, List.getElem?_append_right (by omega), hsize, Nat.add_sub_cancel_left]
      rw [cut?_cons, Option.isSome_map, ih, hbyte, length_bytes_cons, Nat.add_left_cancel_iff]

/-- The part of a text between two indices. -/
def slice? (i j : Nat) (s : List Char) : Option (List Char) := do
  let (front, _) ← cut? j s
  let (_, part) ← cut? i front
  return part

theorem slice?_append (front part rest : List Char) :
    slice? (bytes front).length (bytes (front ++ part)).length (front ++ part ++ rest) = some part := by
  simp only [slice?, cut?_append, Option.bind_eq_bind, Option.bind_some, Option.pure_def]

/-! ## Heads -/

theorem utf8Size_lower (c : Char) : (lower c).utf8Size = c.utf8Size := by
  unfold lower Char.toLower
  split
  · rename_i h
    -- a capital takes one byte, and so does the small letter
    have hc : c.utf8Size = 1 := by
      rw [Char.utf8Size_eq_one_iff]
      exact UInt32.le_trans h.2 (by decide)
    rw [hc, Char.utf8Size_eq_one_iff]
    simp [UInt32.le_iff_toNat_le] at h ⊢
    omega
  · rfl

/-- Letters that differ in case alone are equally long. -/
theorem length_bytes_of_letters {s t : List Char} (h : s.map lower = t.map lower) :
    (bytes s).length = (bytes t).length := by
  induction s generalizing t with
  | nil => rw [List.map_eq_nil_iff.1 h.symm]
  | cons c s ih =>
    cases t with
    | nil => cases h
    | cons d t =>
      obtain ⟨hletter, hrest⟩ := List.cons.inj h
      rw [length_bytes_cons, length_bytes_cons, ih hrest, ← utf8Size_lower c, hletter, utf8Size_lower]

/-- A head is found by a cut behind as many bytes as it has. -/
theorem afterHeadAnyCase?_eq_some_iff_cut {head s rest : List Char} : afterHeadAnyCase? head s = some rest ↔
    ∃ front, cut? (bytes head).length s = some (front, rest) ∧ sameLetters front head = true := by
  simp only [afterHeadAnyCase?_eq_some_iff, cut?_eq_some_iff, sameLetters_iff]
  constructor
  · rintro ⟨front, hs, hfront⟩
    exact ⟨front, ⟨hs, (length_bytes_of_letters hfront).symm⟩, hfront.symm⟩
  · rintro ⟨front, ⟨hs, -⟩, hfront⟩
    exact ⟨front, hs, hfront.symm⟩

/-- What follows `head` at the front of the text, up to the case of ASCII letters, where the front and the
rest are cut out by the number of bytes of the head. A front that cannot be cut out is no head; that the
rest cannot be cut out is the outer none. -/
def afterHeadBytes (head s : List Char) : Option (Option (List Char)) :=
  match cut? (bytes head).length s with
  | none => some none
  | some (front, _) =>
    if sameLetters front head then
      (cut? (bytes head).length s).map fun (_, rest) => some rest
    else some none

/-- The rest can always be cut out, and is what the letters give. -/
theorem afterHeadBytes_eq (head s : List Char) :
    afterHeadBytes head s = some (afterHeadAnyCase? head s) := by
  unfold afterHeadBytes
  cases hhead : afterHeadAnyCase? head s with
  | some rest =>
    obtain ⟨front, hcut, hfront⟩ := afterHeadAnyCase?_eq_some_iff_cut.1 hhead
    simp [hcut, hfront]
  | none =>
    cases hcut : cut? (bytes head).length s with
    | none => simp
    | some parts =>
      obtain ⟨front, rest⟩ := parts
      have hfront : sameLetters front head ≠ true := by
        intro hfront
        rw [afterHeadAnyCase?_eq_some_iff_cut.2 ⟨front, hcut, hfront⟩] at hhead
        cases hhead
      simp [hfront]

/-! ## Hexadecimal digits -/

/-- The byte is an ASCII hexadecimal digit. -/
def isHexByte (b : UInt8) : Bool :=
  (0x30 ≤ b && b ≤ 0x39) || (0x41 ≤ b && b ≤ 0x46) || (0x61 ≤ b && b ≤ 0x66)

theorem utf8Size_eq_one_iff {c : Char} : c.utf8Size = 1 ↔ c.toNat < 128 := by
  rw [Char.utf8Size_eq_one_iff, UInt32.le_iff_toNat_le]
  exact Nat.le_iff_lt_add_one

theorem toNat_lt_of_isSome_hexValue? {c : Char} (h : (hexValue? c).isSome) : c.toNat < 128 := by
  have hle : ∀ {d : Char}, d.toNat < 128 → c ≤ d → c.toNat < 128 := fun hd hcd => Nat.lt_of_le_of_lt hcd hd
  unfold hexValue? at h
  split at h
  case isTrue hc => exact hle (by decide) hc.2
  split at h
  case isTrue hc => exact hle (by decide) hc.2
  split at h
  case isTrue hc => exact hle (by decide) hc.2
  case isFalse => cases h

theorem isUTF8FirstByte_of_isHexByte {b : UInt8} (h : isHexByte b = true) : b.IsUTF8FirstByte := by
  have hall : ∀ n < 256, isHexByte (UInt8.ofNat n) = true → (UInt8.ofNat n).IsUTF8FirstByte := by
    decide +kernel
  have hb := hall b.toNat b.toNat_lt
  rw [UInt8.ofNat_toNat] at hb
  exact hb h

/-- All bytes of a character are hexadecimal digits exactly if the character is one. -/
theorem all_isHexByte_iff {c : Char} :
    (String.utf8EncodeChar c).all isHexByte = true ↔ (hexValue? c).isSome := by
  by_cases hc : c.utf8Size = 1
  · have hbyte : isHexByte c.val.toUInt8 = (hexValue? c).isSome :=
      forall_ascii (p := fun c => isHexByte c.val.toUInt8 = (hexValue? c).isSome) (by decide)
        (utf8Size_eq_one_iff.1 hc)
    rw [String.utf8EncodeChar_eq_singleton hc, List.all_cons, List.all_nil, Bool.and_true, hbyte]
  · -- the second byte of a longer one begins no character, as a digit would
    have hlength : 1 < (String.utf8EncodeChar c).length := by
      rw [String.length_utf8EncodeChar]
      have := c.utf8Size_pos
      omega
    have hbytes : (String.utf8EncodeChar c).all isHexByte ≠ true := by
      intro hall
      have hsecond := List.all_eq_true.1 hall _ (List.getElem_mem hlength)
      have hfirst := UInt8.isUTF8FirstByte_getElem_utf8EncodeChar.1 (isUTF8FirstByte_of_isHexByte hsecond)
      cases hfirst
    have hvalue : ¬ (hexValue? c).isSome := fun h => hc (utf8Size_eq_one_iff.2 (toNat_lt_of_isSome_hexValue? h))
    exact iff_of_false hbytes hvalue

theorem all_isHexByte_bytes_iff {s : List Char} :
    (bytes s).all isHexByte = true ↔ ∀ c ∈ s, (hexValue? c).isSome := by
  simp only [bytes, List.all_flatMap, List.all_eq_true (l := s), all_isHexByte_iff]

/-- A text of hexadecimal digits has one byte for each. -/
theorem length_bytes_of_hex {s : List Char} (h : ∀ c ∈ s, (hexValue? c).isSome) :
    (bytes s).length = s.length := by
  induction s with
  | nil => rfl
  | cons c s ih =>
    have hc : c.utf8Size = 1 := utf8Size_eq_one_iff.2 (toNat_lt_of_isSome_hexValue? (h c (by simp)))
    rw [length_bytes_cons, hc, ih fun d hd => h d (List.mem_cons_of_mem c hd), List.length_cons, Nat.add_comm]

/-- Six bytes that are hexadecimal digits are six such characters. -/
theorem six_hexBytes_iff {s : List Char} : (bytes s).length = 6 ∧ (bytes s).all isHexByte = true ↔
    s.length = 6 ∧ ∀ c ∈ s, (hexValue? c).isSome := by
  rw [all_isHexByte_bytes_iff]
  exact and_congr_left fun h => by rw [length_bytes_of_hex h]

end PromptTheme.Text
