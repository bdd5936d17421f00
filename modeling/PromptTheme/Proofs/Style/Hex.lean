/-
Colors as `#` and six hexadecimal digits. `Rgb.ofHex?_eq_some_iff` says that a text is read as a color
exactly if in small letters it is the text of that color, and `Rgb.isSome_ofHex?_iff` which texts are read
at all.

`Rgb.ofHexBytes` reads by the bytes of the text: it counts six of them, looks at each, cuts the text in
three and reads each part as a number, where a sign would be allowed. `Rgb.ofHexBytes_eq` says that no cut
fails and that the result is the same: what passes the look at the bytes has one byte to a character, and
none of them is a sign.
-/
import PromptTheme.Proofs.Text.Bytes
import PromptTheme.Style.Color

namespace PromptTheme

/-! ## Digits -/

namespace Text

theorem hexValue?_lower {c : Char} (hc : c.toNat < 128) : hexValue? (lower c) = hexValue? c :=
  forall_ascii (p := fun c => hexValue? (lower c) = hexValue? c) (by decide) hc

theorem hexDigit_of_hexValue? {c : Char} {n : Nat} (h : hexValue? c = some n) :
    n < 16 ∧ lower c = hexDigit n := by
  have hc : c.toNat < 128 := toNat_lt_of_isSome_hexValue? (by rw [h]; rfl)
  exact forall_ascii (p := fun c => ∀ n ∈ hexValue? c, n < 16 ∧ lower c = hexDigit n) (by decide) hc n h

theorem hexValue?_hexDigit : ∀ n < 16, hexValue? (hexDigit n) = some n := by decide

/-- A digit has the value of the small digit that it is up to case. -/
theorem hexValue?_eq_some_iff {c : Char} {n : Nat} :
    hexValue? c = some n ↔ n < 16 ∧ lower c = hexDigit n := by
  refine ⟨hexDigit_of_hexValue?, fun ⟨hn, hc⟩ => ?_⟩
  have hascii : c.toNat < 128 := by
    rw [← utf8Size_eq_one_iff, ← utf8Size_lower, hc, utf8Size_eq_one_iff]
    exact toNat_lt_of_isSome_hexValue? (by rw [hexValue?_hexDigit n hn]; rfl)
  rw [← hexValue?_lower hascii, hc, hexValue?_hexDigit n hn]

/-- The number that hexadecimal digits write; one plus sign may stand before them, and there must be one
digit at least. -/
def byteOfHex? (s : List Char) : Option UInt8 :=
  let digits := if s.head? = some '+' then s.tail else s
  if digits.isEmpty then none
  else (digitsValue? 16 digits).bind fun n => if n < 256 then some (UInt8.ofNat n) else none

theorem eq_hash_of_lower {c : Char} (h : lower c = '#') : c = '#' := by
  have hc : c.toNat < 128 := by
    rw [← utf8Size_eq_one_iff, ← utf8Size_lower, h]
    rfl
  exact forall_ascii (p := fun c => lower c = '#' → c = '#') (by decide) hc h

end Text

namespace Rgb

/-! ## Components and colors -/

theorem isSome_component?_iff {a b : Char} : (component? a b).isSome ↔
    (Text.hexValue? a).isSome ∧ (Text.hexValue? b).isSome := by
  unfold component?
  cases Text.hexValue? a <;> cases Text.hexValue? b <;> simp

theorem component?_eq_some_iff {a b : Char} {n : UInt8} :
    component? a b = some n ↔ [Text.lower a, Text.lower b] = componentHex n := by
  have hn := n.toNat_lt
  constructor
  · intro h
    obtain ⟨ha, hb⟩ := isSome_component?_iff.1 (by rw [h]; rfl)
    obtain ⟨x, hx⟩ := Option.isSome_iff_exists.1 ha
    obtain ⟨y, hy⟩ := Option.isSome_iff_exists.1 hb
    obtain ⟨hx16, hxa⟩ := Text.hexDigit_of_hexValue? hx
    obtain ⟨hy16, hyb⟩ := Text.hexDigit_of_hexValue? hy
    simp only [component?, hx, hy, Option.some.injEq] at h
    have hvalue : n.toNat = x * 16 + y := by
      rw [← h, UInt8.toNat_ofNat_of_lt' (by show _ < 256; omega)]
    rw [componentHex, hxa, hyb, show n.toNat / 16 = x by omega, show n.toNat % 16 = y by omega]
  · intro h
    simp only [componentHex, List.cons.injEq, and_true] at h
    have ha : Text.hexValue? a = some (n.toNat / 16) := Text.hexValue?_eq_some_iff.2 ⟨by omega, h.1⟩
    have hb : Text.hexValue? b = some (n.toNat % 16) := Text.hexValue?_eq_some_iff.2 ⟨by omega, h.2⟩
    simp only [component?, ha, hb, show n.toNat / 16 * 16 + n.toNat % 16 = n.toNat by omega,
      UInt8.ofNat_toNat]

theorem ofHex?_cons {a b c d e f : Char} {color : Rgb} : ofHex? ['#', a, b, c, d, e, f] = some color ↔
    component? a b = some color.red ∧ component? c d = some color.green ∧
      component? e f = some color.blue := by
  obtain ⟨r, g, b'⟩ := color
  rw [ofHex?]
  cases component? a b <;> cases component? c d <;> cases component? e f <;> simp [mk.injEq]

theorem exists_of_isSome_ofHex? {s : List Char} (h : (ofHex? s).isSome) :
    ∃ a b c d e f, s = ['#', a, b, c, d, e, f] := by
  unfold ofHex? at h
  split at h
  · exact ⟨_, _, _, _, _, _, rfl⟩
  · cases h

/-- A text is read as a color exactly if in small letters it is the text of the color. -/
theorem ofHex?_eq_some_iff {s : List Char} {color : Rgb} :
    ofHex? s = some color ↔ s.map Text.lower = color.toHex := by
  have hsix : ∀ a b c d e f : Char, ofHex? ['#', a, b, c, d, e, f] = some color ↔
      ['#', a, b, c, d, e, f].map Text.lower = color.toHex := by
    intro a b c d e f
    have hhash : Text.lower '#' = '#' := rfl
    rw [ofHex?_cons, component?_eq_some_iff, component?_eq_some_iff, component?_eq_some_iff]
    simp [toHex, componentHex, hhash, and_assoc]
  constructor
  · intro h
    obtain ⟨a, b, c, d, e, f, rfl⟩ := exists_of_isSome_ofHex? (s := s) (by rw [h]; rfl)
    exact (hsix ..).1 h
  · intro h
    have hs := h
    simp only [toHex, componentHex, List.cons_append, List.nil_append, List.map_eq_cons_iff,
      List.map_eq_nil_iff] at hs
    obtain ⟨x, _, rfl, hx, a, _, rfl, -, b, _, rfl, -, c, _, rfl, -, d, _, rfl, -, e, _, rfl, -,
      f, _, rfl, -, rfl⟩ := hs
    obtain rfl := Text.eq_hash_of_lower hx
    exact (hsix ..).2 h

theorem isSome_ofHex?_iff {s : List Char} : (ofHex? s).isSome ↔
    ∃ digits, s = '#' :: digits ∧ digits.length = 6 ∧ digits.all (fun c => (Text.hexValue? c).isSome) := by
  have hsix : ∀ a b c d e f : Char, (ofHex? ['#', a, b, c, d, e, f]).isSome ↔
      [a, b, c, d, e, f].all (fun c => (Text.hexValue? c).isSome) := by
    intro a b c d e f
    have hparts : (ofHex? ['#', a, b, c, d, e, f]).isSome ↔
        (component? a b).isSome ∧ (component? c d).isSome ∧ (component? e f).isSome := by
      rw [ofHex?]
      cases component? a b <;> cases component? c d <;> cases component? e f <;> simp
    simp [hparts, isSome_component?_iff, and_assoc]
  constructor
  · intro h
    obtain ⟨a, b, c, d, e, f, rfl⟩ := exists_of_isSome_ofHex? h
    exact ⟨_, rfl, rfl, (hsix ..).1 h⟩
  · rintro ⟨digits, rfl, hlength, hdigits⟩
    rcases digits with _ | ⟨a, _ | ⟨b, _ | ⟨c, _ | ⟨d, _ | ⟨e, _ | ⟨f, _ | ⟨g, more⟩⟩⟩⟩⟩⟩⟩
    case cons.cons.cons.cons.cons.cons.nil => exact (hsix ..).2 hdigits
    all_goals simp at hlength

/-! ## The text cut into bytes -/

/-- Two digits are read as a number like any others. -/
theorem byteOfHex?_pair {a b : Char} (ha : (Text.hexValue? a).isSome) (hb : (Text.hexValue? b).isSome) :
    Text.byteOfHex? [a, b] = component? a b := by
  obtain ⟨x, hx⟩ := Option.isSome_iff_exists.1 ha
  obtain ⟨y, hy⟩ := Option.isSome_iff_exists.1 hb
  have hsign : ¬ [a, b].head? = some '+' := by
    intro h
    obtain rfl : a = '+' := Option.some.inj h
    cases hx
  have hx16 := (Text.hexDigit_of_hexValue? hx).1
  have hy16 := (Text.hexDigit_of_hexValue? hy).1
  have hvalue : Text.digitsValue? 16 [a, b] = some (x * 16 + y) := by
    simp [Text.digitsValue?, hx, hy, hx16, hy16]
  have hbyte : x * 16 + y < 256 := by omega
  simp only [Text.byteOfHex?, if_neg hsign, hvalue, Option.bind_some, if_pos hbyte, component?, hx, hy,
    List.isEmpty_cons, Bool.false_eq_true, if_false]

/-- The number that the two bytes behind the first `i` write. That they cannot be cut out is the outer
none. -/
def componentBytes (i : Nat) (hex : List Char) : Option (Option UInt8) :=
  (Text.slice? i (i + 2) hex).map Text.byteOfHex?

theorem componentBytes_eq (front rest : List Char) {a b : Char}
    (h : ∀ c ∈ front ++ [a, b] ++ rest, (Text.hexValue? c).isSome) :
    componentBytes front.length (front ++ [a, b] ++ rest) = some (component? a b) := by
  have hpart : ∀ c ∈ front ++ [a, b], (Text.hexValue? c).isSome :=
    fun c hc => h c (List.mem_append_left rest hc)
  have hfront : ∀ c ∈ front, (Text.hexValue? c).isSome :=
    fun c hc => hpart c (List.mem_append_left [a, b] hc)
  have hslice := Text.slice?_append front [a, b] rest
  rw [Text.length_bytes_of_hex hfront, Text.length_bytes_of_hex hpart, List.length_append] at hslice
  rw [componentBytes, show front.length + 2 = front.length + [a, b].length from rfl, hslice, Option.map_some,
    byteOfHex?_pair (hpart a (by simp)) (hpart b (by simp))]

example : componentBytes 0 "+f+f+f".toList = some (some 15) := by decide

example : componentBytes 0 "0é0é0é".toList = none := by decide

/-- Reads a color by its bytes: six that are hexadecimal digits must follow the sign, and every two of them
are read as a number. That a part cannot be cut out is the outer none. -/
def ofHexBytes (s : List Char) : Option (Option Rgb) :=
  match Text.afterHead? ['#'] s with
  | none => some none
  | some hex =>
    if (Text.bytes hex).length = 6 ∧ (Text.bytes hex).all Text.isHexByte = true then do
      let some r ← componentBytes 0 hex | return none
      let some g ← componentBytes 2 hex | return none
      let some b ← componentBytes 4 hex | return none
      return some ⟨r, g, b⟩
    else some none

theorem isSome_ofHex?_iff_bytes {s : List Char} : (ofHex? s).isSome ↔ ∃ hex,
    Text.afterHead? ['#'] s = some hex ∧
      (Text.bytes hex).length = 6 ∧ (Text.bytes hex).all Text.isHexByte = true := by
  simp only [Text.six_hexBytes_iff, Text.afterHead?_eq_some_iff, List.singleton_append]
  simp only [isSome_ofHex?_iff, List.all_eq_true]

/-- No text makes a cut fail, and the color is that of the digits. -/
theorem ofHexBytes_eq (s : List Char) : ofHexBytes s = some (ofHex? s) := by
  by_cases h : (ofHex? s).isSome
  · obtain ⟨hex, hhead, hbytes⟩ := isSome_ofHex?_iff_bytes.1 h
    obtain ⟨a, b, c, d, e, f, rfl⟩ := exists_of_isSome_ofHex? h
    obtain rfl := (List.cons.inj (Text.afterHead?_eq_some_iff.1 hhead)).2
    have hdigits := (Text.six_hexBytes_iff.1 hbytes).2
    have hred : componentBytes 0 [a, b, c, d, e, f] = some (component? a b) :=
      componentBytes_eq [] [c, d, e, f] hdigits
    have hgreen : componentBytes 2 [a, b, c, d, e, f] = some (component? c d) :=
      componentBytes_eq [a, b] [e, f] hdigits
    have hblue : componentBytes 4 [a, b, c, d, e, f] = some (component? e f) :=
      componentBytes_eq [a, b, c, d] [] hdigits
    simp only [ofHexBytes, hhead, if_pos hbytes, hred, hgreen, hblue, Option.bind_eq_bind,
      Option.bind_some, Option.pure_def, ofHex?]
    cases component? a b <;> cases component? c d <;> cases component? e f <;> rfl
  · rw [Option.not_isSome_iff_eq_none.1 h]
    cases hhead : Text.afterHead? ['#'] s with
    | none => simp only [ofHexBytes, hhead]
    | some hex =>
      have hbytes : ¬ ((Text.bytes hex).length = 6 ∧ (Text.bytes hex).all Text.isHexByte = true) :=
        fun hbytes => h (isSome_ofHex?_iff_bytes.2 ⟨hex, hhead, hbytes⟩)
      simp only [ofHexBytes, hhead, if_neg hbytes]

end Rgb

end PromptTheme
