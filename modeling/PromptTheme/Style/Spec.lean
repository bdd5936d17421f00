/-
Style specs: words that switch attributes on or set a color. A word is a modifier, a ground color
after `bg:`, a text color after `fg:`, or a text color by itself. `StyleRecord.decode` collects the
words into a record for editing, and `StyleRecord.compose` writes a record as a spec.
-/
import PromptTheme.Style.Color

namespace PromptTheme

/-- Attributes of text that are on or off, in the order in which they are written. -/
inductive Modifier where
  | bold
  | dimmed
  | italic
  | underline
  | inverted
deriving DecidableEq

namespace Modifier

def all : List Modifier := [bold, dimmed, italic, underline, inverted]

def name : Modifier → String
  | bold => "bold"
  | dimmed => "dimmed"
  | italic => "italic"
  | underline => "underline"
  | inverted => "inverted"

/-- The parameter that switches the attribute on. -/
def parameter : Modifier → Nat
  | bold => 1
  | dimmed => 2
  | italic => 3
  | underline => 4
  | inverted => 7

/-- The modifier of that name, in any case. -/
def ofToken? (token : List Char) : Option Modifier :=
  all.find? fun m => Text.sameLetters m.name.toList token

/-- The modifier of exactly that name. -/
def ofName? (name : String) : Option Modifier := all.find? fun m => m.name = name

end Modifier

/-- A set of modifiers. -/
structure Modifiers where
  bold : Bool := false
  dimmed : Bool := false
  italic : Bool := false
  underline : Bool := false
  inverted : Bool := false
deriving DecidableEq

namespace Modifiers

def has (ms : Modifiers) : Modifier → Bool
  | .bold => ms.bold
  | .dimmed => ms.dimmed
  | .italic => ms.italic
  | .underline => ms.underline
  | .inverted => ms.inverted

def add (ms : Modifiers) : Modifier → Modifiers
  | .bold => { ms with bold := true }
  | .dimmed => { ms with dimmed := true }
  | .italic => { ms with italic := true }
  | .underline => { ms with underline := true }
  | .inverted => { ms with inverted := true }

/-- The members, in the order of `Modifier.all`. -/
def toList (ms : Modifiers) : List Modifier := Modifier.all.filter ms.has

theorem has_add (ms : Modifiers) (m n : Modifier) : (ms.add m).has n = (ms.has n || m == n) := by
  cases m <;> cases n <;> simp [add, has]

theorem has_empty (m : Modifier) : ({} : Modifiers).has m = false := by cases m <;> rfl

theorem mem_toList {ms : Modifiers} {m : Modifier} : m ∈ ms.toList ↔ ms.has m = true := by
  rw [toList, List.mem_filter, and_iff_right]
  cases m <;> decide

/-- Sets with the same members are equal. -/
theorem ext_has {ms ns : Modifiers} (h : ∀ m, ms.has m = ns.has m) : ms = ns := by
  obtain ⟨_, _, _, _, _⟩ := ms
  obtain ⟨_, _, _, _, _⟩ := ns
  rw [mk.injEq]
  exact ⟨h .bold, h .dimmed, h .italic, h .underline, h .inverted⟩

theorem has_foldl_add (l : List Modifier) (ms : Modifiers) (m : Modifier) :
    (l.foldl add ms).has m = (ms.has m || decide (m ∈ l)) := by
  induction l generalizing ms with
  | nil => simp
  | cons n l ih =>
    rw [List.foldl_cons, ih, has_add]
    by_cases h : n = m
    · simp [h]
    · simp [beq_eq_false_iff_ne.2 h, Ne.symm h]

end Modifiers

/-! ## Words -/

/-- What a word of a spec asks for. -/
inductive StyleToken where
  | modifier (m : Modifier)
  | background (color : List Char)
  | foreground (color : List Char)
deriving DecidableEq

/-- The meaning of a word. -/
def StyleToken.classify (word : List Char) : StyleToken :=
  match Modifier.ofToken? word with
  | some m => .modifier m
  | none =>
    match Text.afterHeadAnyCase? "bg:".toList word with
    | some color => .background color
    | none =>
      match Text.afterHeadAnyCase? "fg:".toList word with
      | some color => .foreground color
      | none => .foreground word

/-- The tokens of a spec. -/
def StyleToken.ofSpec (spec : List Char) : List StyleToken := (Text.words spec).map classify

/-! ## Records -/

/-- A spec taken apart. Colors keep the text of their word, whether it is a color or not. -/
structure StyleRecord where
  modifiers : Modifiers := {}
  background : Option String := none
  foreground : Option String := none
deriving DecidableEq

namespace StyleRecord

/-- Takes up one token. An empty color is passed over, and of several the last one stays. -/
def take (r : StyleRecord) : StyleToken → StyleRecord
  | .modifier m => { r with modifiers := r.modifiers.add m }
  | .background c => if c.isEmpty then r else { r with background := some (String.ofList c) }
  | .foreground c => if c.isEmpty then r else { r with foreground := some (String.ofList c) }

/-- The record of a spec. -/
def decode (spec : List Char) : StyleRecord := (StyleToken.ofSpec spec).foldl take {}

/-- A color that is set and not empty. -/
def color? : Option String → Option (List Char)
  | some c => if c.toList.isEmpty then none else some c.toList
  | none => none

def isEmpty (r : StyleRecord) : Bool :=
  r.modifiers.toList.isEmpty && (color? r.background).isNone && (color? r.foreground).isNone

/-- The word for a text color: it has `fg:` in front when it would be read as something else. -/
def foregroundWord (c : List Char) : List Char :=
  if StyleToken.classify c = .foreground c then c else "fg:".toList ++ c

/-- The words of a record: modifiers, ground, text. -/
def toWords (r : StyleRecord) : List (List Char) :=
  r.modifiers.toList.map (·.name.toList) ++
    ((color? r.background).toList.map fun c => "bg:".toList ++ c) ++
    ((color? r.foreground).toList.map foregroundWord)

/-- The spec of a record. -/
def compose (r : StyleRecord) : List Char := [' '].intercalate r.toWords

end StyleRecord

end PromptTheme
