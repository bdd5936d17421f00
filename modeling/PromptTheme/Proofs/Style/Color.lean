/-
Which texts are colors, and which color each of them is. `Color.Denotes` is the grammar: a name, a name
behind `bright-`, or six hexadecimal digits behind `#`, whose values are the halves of the components. In
small letters each color has one text (`Color.word`), and a text denotes the color that has its small
letters; so no two colors share a text, although one text goes through three readers.

`Color.parse_exact` is the summary: what is read is what the grammar says, with the blanks at the ends left
out, and reading by bytes is the same reading.
-/
import PromptTheme.Proofs.Style.Hex
import Mathlib.Data.List.Forall2

namespace PromptTheme

/-! ## Names -/

namespace NamedColor

theorem map_lower_name (n : NamedColor) : n.name.toList.map Text.lower = n.name.toList := by
  cases n <;> rfl

theorem name_inj {n m : NamedColor} (h : n.name.toList = m.name.toList) : n = m := by
  cases n <;> cases m <;> first | rfl | (revert h; decide)

theorem mem_all (n : NamedColor) : n ∈ all := by
  cases n <;> decide

/-- A name is found in any case. -/
theorem ofName?_eq_some_iff {s : List Char} {n : NamedColor} :
    ofName? s = some n ↔ s.map Text.lower = n.name.toList := by
  have hname : ∀ m : NamedColor, Text.sameLetters m.name.toList s = true ↔ s.map Text.lower = m.name.toList := by
    intro m
    rw [Text.sameLetters_iff, map_lower_name, eq_comm]
  have hfound : ∀ {m : NamedColor}, ofName? s = some m → s.map Text.lower = m.name.toList := by
    intro m hm
    have hletters := List.find?_some hm
    exact (hname m).1 hletters
  refine ⟨hfound, fun h => ?_⟩
  cases hm : ofName? s with
  | none => exact absurd ((hname n).2 h) (List.find?_eq_none.1 hm n (mem_all n))
  | some m => rw [name_inj ((hfound hm).symm.trans h)]

end NamedColor

/-! ## Digits -/

/-- The character is the hexadecimal digit of that number, of either case. -/
def Text.IsDigit (c : Char) (n : Nat) : Prop := "0123456789abcdef".toList[n]? = some (lower c)

theorem Text.isDigit_iff {c : Char} {n : Nat} (hn : n < 16) : IsDigit c n ↔ lower c = hexDigit n := by
  have hall : ∀ n < 16, "0123456789abcdef".toList[n]? = some (hexDigit n) := by decide
  rw [IsDigit, hall n hn, Option.some.injEq, eq_comm]

/-- The sixteen digits in small letters and the six that have a capital. -/
theorem Text.mem_digits_iff {c : Char} :
    c ∈ "0123456789abcdefABCDEF".toList ↔ (hexValue? c).isSome := by
  have hall : "0123456789abcdefABCDEF".toList.all (fun d => (hexValue? d).isSome) = true := by decide
  constructor
  · exact List.all_eq_true.1 hall c
  · intro h
    exact forall_ascii (p := fun c => (hexValue? c).isSome → c ∈ "0123456789abcdefABCDEF".toList)
      (by decide) (toNat_lt_of_isSome_hexValue? h) h

namespace Rgb

/-- The halves of the components, the higher one first. -/
def halves (c : Rgb) : List Nat :=
  [c.red.toNat / 16, c.red.toNat % 16, c.green.toNat / 16, c.green.toNat % 16,
    c.blue.toNat / 16, c.blue.toNat % 16]

theorem toHex_eq (c : Rgb) : c.toHex = '#' :: c.halves.map Text.hexDigit := rfl

theorem halves_lt (c : Rgb) : ∀ n ∈ c.halves, n < 16 := by
  have := c.red.toNat_lt
  have := c.green.toNat_lt
  have := c.blue.toNat_lt
  simp only [halves, List.forall_mem_cons]
  refine ⟨?_, ?_, ?_, ?_, ?_, ?_, ?_⟩
  case refine_7 => simp
  all_goals omega

theorem forall₂_isDigit_iff {digits : List Char} {ns : List Nat} (h : ∀ n ∈ ns, n < 16) :
    List.Forall₂ Text.IsDigit digits ns ↔ digits.map Text.lower = ns.map Text.hexDigit := by
  induction digits generalizing ns with
  | nil => cases ns <;> simp
  | cons d digits ih =>
    cases ns with
    | nil => simp
    | cons n ns =>
      rw [List.forall_mem_cons] at h
      rw [List.forall₂_cons, Text.isDigit_iff h.1, ih h.2, List.map_cons, List.map_cons, List.cons.injEq]

theorem toHex_map_lower (c : Rgb) : c.toHex.map Text.lower = c.toHex := by
  have hsmall : ∀ n < 16, Text.lower (Text.hexDigit n) = Text.hexDigit n := by decide
  rw [toHex_eq, List.map_cons, List.map_map]
  exact congrArg _ (List.map_congr_left fun n hn => hsmall n (c.halves_lt n hn))

/-- The text of a color is read as that color. -/
theorem ofHex?_toHex (c : Rgb) : ofHex? c.toHex = some c := ofHex?_eq_some_iff.2 c.toHex_map_lower

end Rgb

/-! ## The grammar -/

namespace Color

/-- The text denotes the color. -/
inductive Denotes : List Char → Color → Prop
  | named {w : List Char} (n : NamedColor) : w.map Text.lower = n.name.toList → Denotes w (.named n)
  | bright {w : List Char} (n : NamedColor) :
    w.map Text.lower = "bright-".toList ++ n.name.toList → Denotes w (.bright n)
  | rgb {digits : List Char} (c : Rgb) :
    List.Forall₂ Text.IsDigit digits c.halves → Denotes ('#' :: digits) (.rgb c)

/-- The text has the form of a color: the sign and six digits, a name, or a name behind `bright-`. -/
def IsToken (w : List Char) : Prop :=
  (∃ digits, w = '#' :: digits ∧ digits.length = 6 ∧
      ∀ d ∈ digits, d ∈ "0123456789abcdefABCDEF".toList) ∨
    (∃ n : NamedColor, w.map Text.lower = n.name.toList) ∨
    ∃ n : NamedColor, w.map Text.lower = "bright-".toList ++ n.name.toList

/-- The text of a color in small letters. -/
def word : Color → List Char
  | named n => n.name.toList
  | bright n => "bright-".toList ++ n.name.toList
  | rgb c => c.toHex

theorem word_named (n : NamedColor) : (named n).word = n.name.toList := rfl

theorem word_bright (n : NamedColor) : (bright n).word = "bright-".toList ++ n.name.toList := rfl

theorem word_rgb (c : Rgb) : (rgb c).word = '#' :: c.halves.map Text.hexDigit := rfl

theorem denotes_iff {w : List Char} {color : Color} : Denotes w color ↔ w.map Text.lower = color.word := by
  constructor
  · intro h
    cases h with
    | named n h => rwa [word_named]
    | bright n h => rwa [word_bright]
    | rgb c h =>
      rw [word_rgb, List.map_cons, (Rgb.forall₂_isDigit_iff c.halves_lt).1 h]
      rfl
  · intro h
    cases color with
    | named n => exact .named n (word_named n ▸ h)
    | bright n => exact .bright n (word_bright n ▸ h)
    | rgb c =>
      rw [word_rgb] at h
      obtain ⟨hash, digits, rfl, hhash, hdigits⟩ := List.map_eq_cons_iff.1 h
      obtain rfl := Text.eq_hash_of_lower hhash
      exact .rgb c ((Rgb.forall₂_isDigit_iff c.halves_lt).2 hdigits)

/-- A text has the form of a color exactly if it denotes one. -/
theorem isToken_iff {w : List Char} : IsToken w ↔ ∃ color, Denotes w color := by
  have hhex : (∃ digits, w = '#' :: digits ∧ digits.length = 6 ∧
      ∀ d ∈ digits, d ∈ "0123456789abcdefABCDEF".toList) ↔ ∃ c, Denotes w (.rgb c) := by
    simp only [Text.mem_digits_iff, denotes_iff, word_rgb, ← Rgb.toHex_eq, ← Rgb.ofHex?_eq_some_iff]
    rw [← Option.isSome_iff_exists, Rgb.isSome_ofHex?_iff]
    simp only [List.all_eq_true]
  rw [IsToken, hhex]
  constructor
  · rintro (⟨c, h⟩ | ⟨n, h⟩ | ⟨n, h⟩)
    · exact ⟨.rgb c, h⟩
    · exact ⟨.named n, .named n h⟩
    · exact ⟨.bright n, .bright n h⟩
  · rintro ⟨color, h⟩
    have hword := denotes_iff.1 h
    cases color with
    | named n => exact .inr (.inl ⟨n, word_named n ▸ hword⟩)
    | bright n => exact .inr (.inr ⟨n, word_bright n ▸ hword⟩)
    | rgb c => exact .inl ⟨c, h⟩

/-! ## The reader -/

theorem hash_not_mem_name (n : NamedColor) : '#' ∉ n.name.toList := by
  cases n <;> decide

theorem bright_not_prefix_name (n : NamedColor) : ¬ "bright-".toList <+: n.name.toList := by
  cases n <;> decide

/-- Behind the sign there is nothing but digits. -/
theorem denotes_hash_iff {rest : List Char} {color : Color} :
    Denotes ('#' :: rest) color ↔ ∃ c, Rgb.ofHex? ('#' :: rest) = some c ∧ .rgb c = color := by
  have hhash : ∀ {s : List Char}, ('#' :: rest).map Text.lower = s → '#' ∈ s :=
    fun h => h ▸ List.mem_cons_self
  constructor
  · intro h
    cases h with
    | named n h => exact absurd (hhash h) (hash_not_mem_name n)
    | bright n h =>
      rcases List.mem_append.1 (hhash h) with hmem | hmem
      · exact absurd hmem (by decide)
      · exact absurd hmem (hash_not_mem_name n)
    | rgb c h =>
      refine ⟨c, Rgb.ofHex?_eq_some_iff.2 ?_, rfl⟩
      exact denotes_iff.1 (.rgb c h)
  · rintro ⟨c, h, rfl⟩
    rw [denotes_iff, word_rgb, ← Rgb.toHex_eq]
    exact Rgb.ofHex?_eq_some_iff.1 h

theorem map_lower_bright_iff {w : List Char} {n : NamedColor} :
    w.map Text.lower = "bright-".toList ++ n.name.toList ↔
      ∃ base, Text.afterHeadAnyCase? "bright-".toList w = some base ∧ NamedColor.ofName? base = some n := by
  have hlower : "bright-".toList.map Text.lower = "bright-".toList := by decide
  simp only [Text.afterHeadAnyCase?_eq_some_iff, NamedColor.ofName?_eq_some_iff, hlower,
    List.map_eq_append_iff]
  constructor
  · rintro ⟨front, base, rfl, hfront, hbase⟩
    exact ⟨base, ⟨front, rfl, hfront.symm⟩, hbase⟩
  · rintro ⟨base, ⟨front, rfl, hfront⟩, hbase⟩
    exact ⟨front, base, rfl, hfront.symm, hbase⟩

/-- Reading takes the blanks off and finds what the rest denotes. -/
theorem parse?_eq_some_iff {s : List Char} {color : Color} :
    parse? s = some color ↔ Denotes (Text.trim s) color := by
  unfold parse?
  generalize Text.trim s = w
  dsimp only
  split
  · rw [denotes_hash_iff, Option.map_eq_some_iff]
  · rename_i hnot
    split
    · rename_i base hbase
      rw [Option.map_eq_some_iff]
      constructor
      · rintro ⟨n, hn, rfl⟩
        exact .bright n (map_lower_bright_iff.2 ⟨base, hbase, hn⟩)
      · intro h
        cases h with
        | named n h =>
          -- no name begins as the bright ones do
          obtain ⟨front, rfl, hfront⟩ := Text.afterHeadAnyCase?_eq_some_iff.1 hbase
          have hprefix : "bright-".toList <+: n.name.toList := by
            rw [← h, List.map_append, ← hfront]
            exact List.prefix_append ..
          exact absurd hprefix (bright_not_prefix_name n)
        | bright n h =>
          obtain ⟨base', hbase', hn⟩ := map_lower_bright_iff.1 h
          obtain rfl := Option.some.inj (hbase.symm.trans hbase')
          exact ⟨n, hn, rfl⟩
        | rgb c h => exact absurd rfl (hnot _)
    · rename_i hbase
      rw [Option.map_eq_some_iff]
      constructor
      · rintro ⟨n, hn, rfl⟩
        exact .named n (NamedColor.ofName?_eq_some_iff.1 hn)
      · intro h
        cases h with
        | named n h => exact ⟨n, NamedColor.ofName?_eq_some_iff.2 h, rfl⟩
        | bright n h =>
          obtain ⟨base, hsome, -⟩ := map_lower_bright_iff.1 h
          rw [hbase] at hsome
          cases hsome
        | rgb c h => exact absurd rfl (hnot _)

/-- Reads a color by bytes; that a part of the text cannot be cut out is the outer none. -/
def parseBytes (s : List Char) : Option (Option Color) :=
  let s := Text.trim s
  if s.head? = some '#' then (Rgb.ofHexBytes s).map fun c => c.map .rgb
  else
    (Text.afterHeadBytes "bright-".toList s).map fun base =>
      base.elim ((NamedColor.ofName? s).map .named) fun base => (NamedColor.ofName? base).map .bright

theorem parseBytes_eq (s : List Char) : parseBytes s = some (parse? s) := by
  unfold parseBytes parse?
  generalize Text.trim s = w
  dsimp only
  by_cases hhash : w.head? = some '#'
  · obtain ⟨rest, rfl⟩ := List.head?_eq_some_iff.1 hhash
    rw [if_pos hhash, Rgb.ofHexBytes_eq]
    rfl
  · rw [if_neg hhash, Text.afterHeadBytes_eq, Option.map_some]
    refine congrArg some (Eq.symm ?_)
    split
    · exact absurd rfl hhash
    · cases Text.afterHeadAnyCase? "bright-".toList w <;> rfl

/-- Texts are read as colors by exactly the grammar of colors. What is read is what a text denotes without
the blanks at its ends; six digits are read as the color that writes them in small letters, and every color
is read back from its own text. For no text, and no head looked for, does a cut between bytes fail. -/
theorem parse_exact :
    (∀ s, (parse? s).isSome ↔ ∃ w, Text.Trimmed s w ∧ IsToken w) ∧
    (∀ s color, parse? s = some color ↔ ∃ w, Text.Trimmed s w ∧ Denotes w color) ∧
    (∀ s c, Rgb.ofHex? s = some c ↔ s.map Text.lower = c.toHex) ∧
    (∀ c : Rgb, Rgb.ofHex? c.toHex = some c) ∧
    (∀ s, Rgb.ofHexBytes s = some (Rgb.ofHex? s)) ∧
    (∀ head s, Text.afterHeadBytes head s = some (Text.afterHeadAnyCase? head s)) ∧
    ∀ s, parseBytes s = some (parse? s) := by
  have hparse : ∀ s color, parse? s = some color ↔ ∃ w, Text.Trimmed s w ∧ Denotes w color := by
    intro s color
    simp only [parse?_eq_some_iff, ← Text.trim_eq_iff, exists_eq_left']
  refine ⟨fun s => ?_, hparse, fun _ _ => Rgb.ofHex?_eq_some_iff, Rgb.ofHex?_toHex, Rgb.ofHexBytes_eq,
    Text.afterHeadBytes_eq, parseBytes_eq⟩
  rw [Option.isSome_iff_exists]
  simp only [hparse, isToken_iff]
  constructor
  · rintro ⟨color, w, htrim, h⟩
    exact ⟨w, htrim, color, h⟩
  · rintro ⟨w, htrim, color, h⟩
    exact ⟨color, w, htrim, h⟩

end Color

end PromptTheme
