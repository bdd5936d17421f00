/-
The number of terminal columns of a text. Most characters have a width of their own; some change it
with what follows them, so a text is read from its end and `Ahead` remembers what was just read.
Those are line ends, quotation marks and emoji with their selectors, emoji with skin tones, tags,
flags and joiners, and letters that are drawn as one.
-/
import PromptTheme.Terminal.Strip
import PromptTheme.Terminal.WidthTable

namespace PromptTheme.Terminal

/-- Letters that merge with the ones before them, also across a joiner or an invisible mark. -/
inductive Ligature where
  | hebrewLamed
  | khmerLetter
  | bugineseYa
  | bugineseVowelYa
  | tifinaghConsonant
  | tifinaghJoined
  | lisuTone
  | turkicI
deriving DecidableEq

/-- Vowel signs of Kirat Rai that merge with the ones right before them. -/
inductive KiratVowel where
  | e
  | ai
deriving DecidableEq

/-- What stands between a joined emoji and the character before it. -/
inductive Joint where
  /-- A joiner. -/
  | bare
  /-- The mark of a key cap and a joiner. -/
  | keyCap
  /-- One regional indicator and a joiner. -/
  | region
  /-- An even number of regional indicators and a joiner. -/
  | pairedRegions
  /-- An odd number of regional indicators, more than one, and a joiner. -/
  | oddRegions
  /-- So many tags of letters, the tag that ends them and a joiner. -/
  | letterTags (count : Nat)
  /-- So many tags of digits, in front of those of letters. -/
  | digitTags (count : Nat)
deriving DecidableEq

/-- What has just been read, seen from the character before it. -/
inductive Ahead where
  | nothing
  | lineFeed
  | skinTone
  /-- A regional indicator; two of them make a flag. -/
  | region
  /-- At least two regional indicators. -/
  | regions
  | emoji
  /-- An emoji to which what stands before it may be joined. -/
  | joined (joint : Joint)
  | letterAlef
  | ligature (l : Ligature) (joiner : Bool)
  | kiratVowel (v : KiratVowel)
deriving DecidableEq

/-- Which form a selector asks for. -/
inductive Selector where
  | none
  | text
  | emoji
  /-- The full width of a quotation mark. -/
  | wide
deriving DecidableEq

/-! ## Single characters -/

def isKhmerLetter (n : Nat) : Bool :=
  inRanges n [(0x1780, 0x1782), (0x1784, 0x1787), (0x1789, 0x178C), (0x178E, 0x1793),
    (0x1795, 0x1798), (0x179B, 0x179D), (0x17A0, 0x17A0), (0x17A2, 0x17A2), (0x17A7, 0x17A7),
    (0x17AB, 0x17AC), (0x17AF, 0x17AF)]

def isTifinagh (n : Nat) : Bool := inRanges n [(0x2D31, 0x2D65), (0x2D6F, 0x2D6F)]

def isRegional (n : Nat) : Bool := 0x1F1E6 ≤ n && n ≤ 0x1F1FF

def isSkinTone (n : Nat) : Bool := 0x1F3FB ≤ n && n ≤ 0x1F3FF

def isTagDigit (n : Nat) : Bool := 0xE0030 ≤ n && n ≤ 0xE0039

def isTagLetter (n : Nat) : Bool := 0xE0061 ≤ n && n ≤ 0xE007A

/-- The black flag, whose design tags describe. -/
def blackFlag : Nat := 0x1F3F4

/-- The tag that ends a sequence of tags. -/
def tagEnd : Nat := 0xE007F

def zeroWidthJoiner : Nat := 0x200D

/-- Quotation marks that East Asian texts set in full width. -/
def isCurlyQuote (n : Nat) : Bool := n = 0x2018 || n = 0x2019 || n = 0x201C || n = 0x201D

/-- Marks without a width that do not come between the letters of a ligature. -/
def isInvisibleMark (n : Nat) : Bool :=
  inRanges n [(0x34F, 0x34F), (0x17B4, 0x17B5), (0x180B, 0x180D), (0x180F, 0x180F),
    (0xFE00, 0xFE0F), (0xE0100, 0xE01EF)]

/-- The width of a character that stands for itself. -/
def ownWidth (n : Nat) : Int :=
  if n = 0x17A4 then 2
  else if n = 0x17D8 then 3
  else if inRanges n zeroWidth then 0
  else if inRanges n doubleWidth then 2
  else 1

/-- What the character before it sees. -/
def ownAhead (n : Nat) : Ahead :=
  if isSkinTone n then .skinTone
  else if isRegional n then .region
  else if inRanges n emojiForm then .emoji
  else if inRanges n letterAlef then .letterAlef
  else if n = 0x5DC then .ligature .hebrewLamed false
  else if isKhmerLetter n then .ligature .khmerLetter false
  else if n = 0x1A10 then .ligature .bugineseYa false
  else if isTifinagh n then .ligature .tifinaghConsonant false
  else if n = 0xA4FC ∨ n = 0xA4FD then .ligature .lisuTone false
  else if n = 0x10C03 then .ligature .turkicI false
  else if n = 0x16D67 then .kiratVowel .e
  else if n = 0x16D68 then .kiratVowel .ai
  else .nothing

/-! ## Characters in front of others -/

/-- The width that a letter adds in front of a ligature it takes part in, and what is ahead then. -/
def ligatureStep? (l : Ligature) (joiner : Bool) (n : Nat) : Option (Int × Ahead) :=
  match l with
  | .hebrewLamed => if joiner ∧ n = 0x5D0 then some (0, .nothing) else none
  | .khmerLetter => if n = 0x17D2 then some (-1, .nothing) else none
  | .bugineseYa =>
    if joiner ∧ n = 0x1A17 then some (0, .ligature .bugineseVowelYa false) else none
  | .bugineseVowelYa => if n = 0x1A15 then some (0, .nothing) else none
  | .tifinaghConsonant =>
    if n = 0x2D7F then some (1, .ligature .tifinaghJoined false)
    else if joiner ∧ isTifinagh n then some (0, .nothing)
    else none
  | .tifinaghJoined => if isTifinagh n then some (-1, .nothing) else none
  | .lisuTone => if 0xA4F8 ≤ n ∧ n ≤ 0xA4FB then some (0, .nothing) else none
  | .turkicI => if joiner ∧ n = 0x10C32 then some (0, .nothing) else none

/-- The width that a sign adds in front of a vowel sign it merges with. Two of the sign for e make
the sign for ai. -/
def kiratStep? (v : KiratVowel) (n : Nat) : Option (Int × Ahead) :=
  match v with
  | .e =>
    if n = 0x16D63 ∨ n = 0x16D69 then some (0, .nothing)
    else if n = 0x16D67 then some (0, .kiratVowel .ai)
    else if n = 0x16D68 then some (1, .kiratVowel .e)
    else none
  | .ai => if n = 0x16D63 then some (0, .nothing) else none

/-- Tags describe a flag by three digits or by three to six letters; up to four letters may follow
the digits. -/
def jointStep? (j : Joint) (n : Nat) : Option (Int × Ahead) :=
  match j with
  | .bare =>
    if n = 0x20E3 then some (0, .joined .keyCap)
    else if isRegional n then some (1, .joined .region)
    else if isSkinTone n then some (0, .skinTone)
    else if n = tagEnd then some (0, .joined (.letterTags 0))
    else if inRanges n emojiForm then some (0, .emoji)
    else none
  | .keyCap => none
  | .region => if isRegional n then some (-1, .joined .pairedRegions) else none
  | .pairedRegions =>
    if isRegional n then some (3, .joined .oddRegions)
    else if n = zeroWidthJoiner then some (0, .joined .bare)
    else none
  | .oddRegions =>
    if isRegional n then some (-1, .joined .pairedRegions)
    else if n = zeroWidthJoiner then some (0, .joined .bare)
    else none
  | .letterTags count =>
    if isTagLetter n ∧ count < 6 then some (0, .joined (.letterTags (count + 1)))
    else if isTagDigit n ∧ count ≤ 4 then some (0, .joined (.digitTags 1))
    else if n = blackFlag ∧ 3 ≤ count then some (0, .emoji)
    else none
  | .digitTags count =>
    if isTagDigit n ∧ count < 3 then some (0, .joined (.digitTags (count + 1)))
    else if n = blackFlag ∧ count = 3 then some (0, .emoji)
    else none

/-- The width of a character in front of what is ahead, where that is not its own width. -/
def joinStep? (ahead : Ahead) (n : Nat) : Option (Int × Ahead) :=
  match ahead with
  | .ligature l joiner =>
    if n = zeroWidthJoiner then some (0, .ligature l true)
    else if isInvisibleMark n then some (0, ahead)
    else ligatureStep? l joiner n
  | .kiratVowel v => kiratStep? v n
  | .letterAlef =>
    if inRanges n letterLam then some (0, .nothing)
    else if inRanges n zeroWidth ∧ !inRanges n joinOpaque then some (0, ahead)
    else none
  | .skinTone =>
    if inRanges n emojiBase then some (0, .emoji)
    else if n = zeroWidthJoiner then some (0, .joined .bare)
    else none
  | .region => if isRegional n then some (1, .regions) else none
  | .regions =>
    if isRegional n then some (1, .regions)
    else if n = zeroWidthJoiner then some (0, .joined .bare)
    else none
  | .emoji => if n = zeroWidthJoiner then some (0, .joined .bare) else none
  | .joined j => jointStep? j n
  | _ => none

/-- What is left of what is ahead once a selector stands before it: only ligatures. -/
def Ahead.withoutSelector (ahead : Ahead) : Ahead :=
  match ahead with
  | .ligature _ _ => ahead
  | .letterAlef => ahead
  | _ => .nothing

/-- The emoji selector also leaves emoji that are joined. -/
def Ahead.behindEmojiSelector (ahead : Ahead) : Ahead :=
  match ahead with
  | .joined .bare => ahead
  | .joined .keyCap => ahead
  | _ => ahead.withoutSelector

/-- The state of the reading: what is ahead, and the selector in front of it. -/
abbrev Reading := Ahead × Selector

/-- The width that a character adds in front of what is ahead, where no selector is to be
minded. -/
def plainStep (ahead : Ahead) (n : Nat) : Int × Reading :=
  if n ≤ 0xA0 then
    if n = 0xA then (1, .lineFeed, .none)
    else if n = 0xD ∧ ahead = .lineFeed then (0, .nothing, .none)
    else (1, .nothing, .none)
  else if n = 0xFE0F then (0, ahead.behindEmojiSelector, .emoji)
  else if n = 0xFE0E then (0, ahead.withoutSelector, .text)
  else if n = 0xFE01 then (0, ahead.withoutSelector, .wide)
  else
    match joinStep? ahead n with
    | some (width, ahead) => (width, ahead, .none)
    | none => (ownWidth n, ownAhead n, .none)

/-- The width that a character adds in front of what has been read. -/
def step (r : Reading) (n : Nat) : Int × Reading :=
  match r with
  | (ahead, .emoji) =>
    if inRanges n emojiSelectable then
      match ahead with
      | .joined _ => (0, .emoji, .none)
      | _ => (2, .emoji, .none)
    else plainStep ahead.withoutSelector n
  | (ahead, .text) =>
    if inRanges n textSelectable then (1, .nothing, .none) else plainStep ahead n
  | (ahead, .wide) => if isCurlyQuote n then (2, .nothing, .none) else plainStep ahead n
  | (ahead, .none) => plainStep ahead n

/-- The columns of a text that holds no escape sequences. -/
def textWidth (s : List Char) : Nat :=
  (s.foldr (fun c (sum, r) =>
    let (width, r) := step r c.toNat
    (sum + width, r)) ((0 : Int), (Ahead.nothing, Selector.none))).1.toNat

/-- The columns of a text, of which escape sequences take none. -/
def displayWidth (s : List Char) : Nat :=
  (plainParts [] s).foldr (fun part width => textWidth part + width) 0

end PromptTheme.Terminal
