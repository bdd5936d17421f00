/-
What the contrast check sees of a style. It takes the first `#` with six hexadecimal digits behind it,
while a style is read word by word and a color is such a text as a whole. `StyleToken.firstHexColor?_eq`
brings the one to the other: the check goes through the texts of the color tokens in their order and
stops at the first that holds a color. `Config.contrast_iff` says what follows: of several colors the
first alone is judged, and digits that go on are judged by the first six.
-/
import PromptTheme.Proofs.Config.Valid
import PromptTheme.Proofs.Style.Hex
import PromptTheme.Proofs.Style.Record

namespace PromptTheme

theorem Text.hexValue?_of_isBlank {c : Char} (h : isBlank c = true) : hexValue? c = none := by
  have hall : ∀ n ∈ blanks, hexValue? (Char.ofNat n) = none := by decide
  have hc := hall c.toNat (by simpa [isBlank] using h)
  rwa [Char.ofNat_toNat] at hc

/-! ## The first color in a text -/

namespace Config

theorem firstHexColor?_cons {c : Char} (hc : c ≠ '#') (rest : List Char) :
    firstHexColor? (c :: rest) = firstHexColor? rest := by
  rw [firstHexColor?]
  rintro rfl
  exact hc rfl

theorem firstHexColor?_hash (rest : List Char) : firstHexColor? ('#' :: rest) =
    if (rest.take 6).length = 6 ∧ (rest.take 6).all (fun c => (Text.hexValue? c).isSome) then
      some ('#' :: rest.take 6)
    else firstHexColor? rest := rfl

/-- A front without the sign of a color changes nothing. -/
theorem firstHexColor?_append {front : List Char} (h : '#' ∉ front) (rest : List Char) :
    firstHexColor? (front ++ rest) = firstHexColor? rest := by
  induction front with
  | nil => rfl
  | cons c front ih =>
    rw [List.mem_cons, not_or] at h
    rw [List.cons_append, firstHexColor?_cons (Ne.symm h.1), ih h.2]

/-- A color at the front of a text is found. -/
theorem firstHexColor?_of_front {hex : List Char} (h : (Rgb.ofHex? hex).isSome) (rest : List Char) :
    firstHexColor? (hex ++ rest) = some hex := by
  obtain ⟨digits, rfl, hlength, hdigits⟩ := Rgb.isSome_ofHex?_iff.1 h
  have htake : (digits ++ rest).take 6 = digits := List.take_left' hlength
  rw [List.cons_append, firstHexColor?_hash, htake, if_pos ⟨hlength, hdigits⟩]

/-- What is found is a part of the text, and a color. -/
theorem infix_of_firstHexColor? {s hex : List Char} (h : firstHexColor? s = some hex) :
    hex <:+: s ∧ (Rgb.ofHex? hex).isSome := by
  induction s with
  | nil => cases h
  | cons c s ih =>
    have hlater : firstHexColor? s = some hex → hex <:+: c :: s ∧ (Rgb.ofHex? hex).isSome :=
      fun h => ⟨List.infix_cons (ih h).1, (ih h).2⟩
    by_cases hc : c = '#'
    · subst hc
      rw [firstHexColor?_hash] at h
      split at h
      · rename_i hdigits
        obtain rfl := Option.some.inj h
        have hfront : '#' :: s.take 6 <+: '#' :: s := (List.prefix_cons_inj _).2 (List.take_prefix 6 s)
        exact ⟨hfront.isInfix, Rgb.isSome_ofHex?_iff.2 ⟨_, rfl, hdigits⟩⟩
      · exact hlater h
    · rw [firstHexColor?_cons hc] at h
      exact hlater h

/-- Something is found exactly when a part of the text is a color. -/
theorem isSome_firstHexColor?_iff {s : List Char} :
    (firstHexColor? s).isSome ↔ ∃ hex, hex <:+: s ∧ (Rgb.ofHex? hex).isSome := by
  constructor
  · intro h
    obtain ⟨hex, hfirst⟩ := Option.isSome_iff_exists.1 h
    exact ⟨hex, infix_of_firstHexColor? hfirst⟩
  · rintro ⟨hex, ⟨before, after, rfl⟩, hhex⟩
    rw [List.append_assoc]
    induction before with
    | nil => rw [List.nil_append, firstHexColor?_of_front hhex, Option.isSome_some]
    | cons c before ih =>
      by_cases hc : c = '#'
      · subst hc
        rw [List.cons_append, firstHexColor?_hash]
        split
        · rfl
        · exact ih
      · rwa [List.cons_append, firstHexColor?_cons hc]

/-! ## Word by word -/

/-- No color goes across a blank. -/
theorem firstHexColor?_blank {b : Char} (hb : Text.isBlank b = true) (before after : List Char) :
    firstHexColor? (before ++ b :: after) = (firstHexColor? before).or (firstHexColor? after) := by
  induction before with
  | nil =>
    refine firstHexColor?_cons ?_ after
    rintro rfl
    exact absurd hb (by decide)
  | cons c before ih =>
    by_cases hc : c = '#'
    · subst hc
      rw [List.cons_append, firstHexColor?_hash, firstHexColor?_hash, ih]
      by_cases hlength : 6 ≤ before.length
      · -- the digits stand before the blank
        rw [List.take_append_of_le_length hlength]
        split <;> simp
      · -- with the blank among them they are no digits, and without it they are too few
        have hshort : ¬ (before.take 6).length = 6 := by
          rw [List.length_take]
          omega
        have hmem : b ∈ (before ++ b :: after).take 6 := by
          obtain ⟨n, hn⟩ : ∃ n, 6 - before.length = n + 1 := ⟨5 - before.length, by omega⟩
          rw [List.take_append, hn, List.take_succ_cons]
          simp
        rw [if_neg, if_neg fun h => hshort h.1]
        rintro ⟨-, hall⟩
        have hdigit := List.all_eq_true.1 hall b hmem
        rw [Text.hexValue?_of_isBlank hb] at hdigit
        cases hdigit
    · rw [List.cons_append, firstHexColor?_cons hc, firstHexColor?_cons hc, ih]

/-- The first color of a text is the first color of a word. -/
theorem firstHexColor?_words (s : List Char) :
    firstHexColor? s = (Text.words s).findSome? firstHexColor? := by
  -- `acc` holds the beginning of a word that goes on
  have hfrom : ∀ acc, firstHexColor? (acc.reverse ++ s) =
      (Text.wordsFrom acc s).findSome? firstHexColor? := by
    induction s with
    | nil =>
      intro acc
      cases acc <;> simp [Text.wordsFrom, firstHexColor?]
    | cons c s ih =>
      intro acc
      rw [Text.wordsFrom]
      split
      · rename_i hc
        have hrest : firstHexColor? s = (Text.wordsFrom [] s).findSome? firstHexColor? := ih []
        rw [firstHexColor?_blank hc, hrest]
        cases acc with
        | nil => rfl
        | cons a acc =>
          rw [List.isEmpty_cons, if_neg Bool.false_ne_true, List.findSome?_cons]
          cases firstHexColor? (a :: acc).reverse <;> rfl
      · rw [← ih (c :: acc), List.reverse_cons, List.append_assoc, List.singleton_append]
  exact hfrom []

end Config

/-! ## The colors of a spec -/

namespace StyleToken

/-- The text of a color, on one layer or the other. -/
def colorText? (t : StyleToken) : Option (List Char) := (t.color? .background).or (t.color? .foreground)

/-- The texts of the color tokens of a spec. -/
def colorTexts (spec : List Char) : List (List Char) := (ofSpec spec).filterMap colorText?

/-- The colors of a spec: the texts that are one as a whole. -/
def literals (spec : List Char) : List Rgb := (colorTexts spec).filterMap Rgb.ofHex?

/-- The first color in each text that holds one. -/
def mentions (spec : List Char) : List Rgb :=
  ((colorTexts spec).filterMap Config.firstHexColor?).filterMap Rgb.ofHex?

/-- A color text holds no color but itself. -/
def Plain (spec : List Char) : Prop :=
  ∀ text ∈ colorTexts spec, ∀ hex, hex <:+: text → (Rgb.ofHex? hex).isSome → hex = text

theorem hash_not_mem_of_ofToken? {w : List Char} {m : Modifier} (h : Modifier.ofToken? w = some m) :
    '#' ∉ w := by
  intro hmem
  have hsame := List.find?_some h
  have hletters : m.name.toList.map Text.lower = w.map Text.lower := Text.sameLetters_iff.1 hsame
  have hlower : '#' ∈ m.name.toList.map Text.lower := hletters ▸ List.mem_map_of_mem (f := Text.lower) hmem
  revert hlower
  cases m <;> decide

theorem firstHexColor?_of_head {head w text : List Char} (hhead : '#' ∉ head.map Text.lower)
    (h : Text.afterHeadAnyCase? head w = some text) :
    Config.firstHexColor? w = Config.firstHexColor? text := by
  obtain ⟨front, rfl, hletters⟩ := Text.afterHeadAnyCase?_eq_some_iff.1 h
  refine Config.firstHexColor?_append (fun hmem => hhead ?_) text
  rw [hletters]
  exact List.mem_map_of_mem (f := Text.lower) hmem

/-- What a word holds besides the text of its color is no color. -/
theorem firstHexColor?_classify (w : List Char) :
    Config.firstHexColor? w = (classify w).colorText?.bind Config.firstHexColor? := by
  unfold classify
  split
  · rename_i m hm
    have hnone := Config.firstHexColor?_append (hash_not_mem_of_ofToken? hm) []
    rw [List.append_nil] at hnone
    exact hnone
  · split
    · rename_i text hhead
      exact firstHexColor?_of_head (by decide) hhead
    · split
      · rename_i text hhead
        exact firstHexColor?_of_head (by decide) hhead
      · rfl

/-- Going through a spec as a text finds the first color that a color text holds. -/
theorem firstHexColor?_eq (spec : List Char) : Config.firstHexColor? spec =
    ((colorTexts spec).filterMap Config.firstHexColor?).head? := by
  rw [Config.firstHexColor?_words, colorTexts, ofSpec, List.filterMap_map, List.filterMap_filterMap,
    ← List.head?_filterMap]
  congr 2
  exact funext firstHexColor?_classify

theorem mentions_head? (spec : List Char) :
    (mentions spec).head? = (Config.firstHexColor? spec).bind Rgb.ofHex? := by
  rw [firstHexColor?_eq, mentions]
  cases hfound : (colorTexts spec).filterMap Config.firstHexColor? with
  | nil => rfl
  | cons hex more =>
    -- the first that is found is a color
    have hmem : hex ∈ (colorTexts spec).filterMap Config.firstHexColor? := hfound ▸ List.mem_cons_self
    obtain ⟨text, -, htext⟩ := List.mem_filterMap.1 hmem
    obtain ⟨rgb, hrgb⟩ := Option.isSome_iff_exists.1 (Config.infix_of_firstHexColor? htext).2
    simp [hrgb]

theorem plain_iff {spec : List Char} : Plain spec ↔
    ∀ text ∈ colorTexts spec, (Config.firstHexColor? text).isSome → (Rgb.ofHex? text).isSome := by
  refine forall₂_congr fun text _ => ?_
  constructor
  · intro h hfound
    obtain ⟨hex, hinfix, hhex⟩ := Config.isSome_firstHexColor?_iff.1 hfound
    exact h hex hinfix hhex ▸ hhex
  · intro h hex hinfix hhex
    -- a color has no room for another one
    have htext := h (Config.isSome_firstHexColor?_iff.2 ⟨hex, hinfix, hhex⟩)
    obtain ⟨digits, rfl, hlength, -⟩ := Rgb.isSome_ofHex?_iff.1 hhex
    obtain ⟨digits', rfl, hlength', -⟩ := Rgb.isSome_ofHex?_iff.1 htext
    exact hinfix.eq_of_length (by simp [hlength, hlength'])

instance (spec : List Char) : Decidable (Plain spec) := decidable_of_iff _ plain_iff.symm

/-- In the text of a color that very color is mentioned. -/
theorem firstHexColor?_bind {text : List Char} (h : (Rgb.ofHex? text).isSome) :
    (Config.firstHexColor? text).bind Rgb.ofHex? = Rgb.ofHex? text := by
  have hfound := Config.firstHexColor?_of_front h []
  rw [List.append_nil] at hfound
  rw [hfound, Option.bind_some]

/-- Every color of a spec is mentioned in it. -/
theorem literals_sublist_mentions (spec : List Char) :
    (literals spec).Sublist (mentions spec) := by
  rw [mentions, literals, List.filterMap_filterMap]
  induction colorTexts spec with
  | nil => exact .slnil
  | cons text texts ih =>
    cases hhex : Rgb.ofHex? text with
    | none =>
      rw [List.filterMap_cons_none hhex]
      exact ih.trans ((List.sublist_cons_self text texts).filterMap _)
    | some rgb =>
      have hbind : (Config.firstHexColor? text).bind Rgb.ofHex? = some rgb := by
        rw [firstHexColor?_bind (by simp [hhex]), hhex]
      rw [List.filterMap_cons_some hhex, List.filterMap_cons, hbind]
      exact ih.cons_cons rgb

/-- In a plain spec nothing else is mentioned. -/
theorem Plain.mentions_eq {spec : List Char} (h : Plain spec) : mentions spec = literals spec := by
  have htext : ∀ text ∈ colorTexts spec,
      (Config.firstHexColor? text).bind Rgb.ofHex? = Rgb.ofHex? text := by
    intro text hmem
    by_cases hhex : (Rgb.ofHex? text).isSome
    · exact firstHexColor?_bind hhex
    · -- what is no color holds none
      have hnone := mt (plain_iff.1 h text hmem) hhex
      rw [Option.not_isSome_iff_eq_none] at hhex hnone
      rw [hnone, hhex, Option.bind_none]
  have hmap := congrArg (List.filterMap id) (List.map_congr_left htext)
  rw [mentions, literals, List.filterMap_filterMap]
  simpa [List.filterMap_map, Function.comp_def] using hmap

end StyleToken

namespace Config

/-! ## The check -/

/-- The check has something to say about a module. -/
def Flags (c : Config) (m : String) : Prop := ∃ f ∈ c.checkContrast, f.module? = some m

/-- A color is too dark for the ground. -/
def TooDark (rgb : Rgb) : Prop := rgb.isReadable darkGround = false

theorem flags_iff {c : Config} {m style : String} (hm : m ∈ contrastModules)
    (hs : c.moduleString? m "style" = some style) :
    c.Flags m ↔ ∃ rgb ∈ (firstHexColor? style.toList).bind Rgb.ofHex?, TooDark rgb := by
  have hmodule : ∀ name f, c.checkContrastOf name = some f → f.module? = some name := by
    intro name f hf
    obtain ⟨color, rfl⟩ := eq_lowContrast hf
    rfl
  have hflags : c.Flags m ↔ (c.checkContrastOf m).isSome := by
    constructor
    · rintro ⟨f, hf, hfm⟩
      obtain ⟨name, -, hname⟩ := List.mem_filterMap.1 hf
      obtain rfl := Option.some.inj ((hmodule name f hname).symm.trans hfm)
      rw [hname, Option.isSome_some]
    · intro h
      obtain ⟨f, hf⟩ := Option.isSome_iff_exists.1 h
      exact ⟨f, List.mem_filterMap.2 ⟨m, hm, hf⟩, hmodule m f hf⟩
  rw [hflags, checkContrastOf, hs, Option.bind_some]
  cases firstHexColor? style.toList with
  | none => simp
  | some hex =>
    cases hrgb : Rgb.ofHex? hex with
    | none => simp [hrgb]
    | some rgb => cases hdark : rgb.isReadable darkGround <;> simp [hrgb, hdark, TooDark]

/-- Of a module whose style is a string, the check judges the first color that a color text holds. When
the color texts hold no colors but themselves, that is the first color of the style; so a color that is
too dark is missed exactly when it comes after the first and the first is readable. -/
theorem contrast_iff (c : Config) (m style : String) (hm : m ∈ contrastModules)
    (hs : c.moduleString? m "style" = some style) :
    let mentions := StyleToken.mentions style.toList
    let literals := StyleToken.literals style.toList
    (c.Flags m ↔ ∃ rgb ∈ mentions.head?, TooDark rgb) ∧ literals.Sublist mentions ∧
    (StyleToken.Plain style.toList →
      mentions = literals ∧
      ((c.Flags m ↔ ∃ rgb ∈ literals, TooDark rgb) ↔
        ((∃ rgb ∈ literals, TooDark rgb) → ∃ rgb ∈ literals.head?, TooDark rgb))) := by
  intro mentions literals
  have hflags : c.Flags m ↔ ∃ rgb ∈ mentions.head?, TooDark rgb := by
    rw [StyleToken.mentions_head?]
    exact flags_iff hm hs
  refine ⟨hflags, StyleToken.literals_sublist_mentions _, fun hplain => ⟨hplain.mentions_eq, ?_⟩⟩
  have hsame : mentions = literals := hplain.mentions_eq
  rw [hflags, hsame]
  constructor
  · exact fun h => h.2
  · refine fun h => ⟨?_, h⟩
    rintro ⟨rgb, hrgb, hdark⟩
    exact ⟨rgb, List.mem_of_head? hrgb, hdark⟩

/-- Of two colors the first alone counts, and seven digits count as six though they are no color. -/
theorem contrast_iff_two_styles :
    let c : Config := .ofEntries
      [("directory", .table [("style", .string "bold bg:#FFFFFF fg:#000080")]),
        ("git_branch", .table [("style", .string "#0000800")])]
    let white : Rgb := ⟨255, 255, 255⟩
    let navy : Rgb := ⟨0, 0, 128⟩
    (StyleToken.literals "bold bg:#FFFFFF fg:#000080".toList = [white, navy] ∧
      (c.Flags "directory" ↔ TooDark white) ∧
      ((c.Flags "directory" ↔ ∃ rgb ∈ [white, navy], TooDark rgb) ↔ (TooDark navy → TooDark white))) ∧
    StyleToken.literals "#0000800".toList = [] ∧ (c.Flags "git_branch" ↔ TooDark navy) := by
  intro c white navy
  have hplain : StyleToken.Plain "bold bg:#FFFFFF fg:#000080".toList := by decide
  have hliterals : StyleToken.literals "bold bg:#FFFFFF fg:#000080".toList = [white, navy] := by decide
  have hmentions : StyleToken.mentions "#0000800".toList = [navy] := by decide
  obtain ⟨hfirst, -, hdirectory⟩ :=
    contrast_iff c "directory" "bold bg:#FFFFFF fg:#000080" (by decide) rfl
  obtain ⟨hbranch, -, -⟩ := contrast_iff c "git_branch" "#0000800" (by decide) rfl
  obtain ⟨hsame, hclaim⟩ := hdirectory hplain
  rw [hliterals] at hsame hclaim
  rw [hsame] at hfirst
  rw [hmentions] at hbranch
  refine ⟨⟨hliterals, by simpa using hfirst, ?_⟩, by decide, by simpa using hbranch⟩
  rw [hclaim]
  simp [or_imp]

end Config

end PromptTheme
