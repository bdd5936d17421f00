/-
How a terminal reads attributes out of a text. `Terminal.State.read` takes up one character after the
other, and at the end of each sequence the attributes in force change as the numbers of the sequence say.
A sequence as this library writes it selects its parameters in order (`Terminal.State.readAll_sequence`),
and the parameters of a color paint that color (`Attributes.select_parameters`).
-/
import PromptTheme.Proofs.Style.Sequence

namespace PromptTheme

/-! ## Attributes in force -/

namespace Attributes

def color? (a : Attributes) : Layer → Option Color
  | .foreground => a.foreground
  | .background => a.background

/-- The attributes with another color on a layer. -/
def paint (a : Attributes) (c : Color) : Layer → Attributes
  | .foreground => { a with foreground := some c }
  | .background => { a with background := some c }

/-- Attributes are equal when the same modifiers are on and both layers have the same color. -/
theorem ext_color? {a b : Attributes} (hm : ∀ m, a.modifiers.has m = b.modifiers.has m)
    (hc : ∀ layer, a.color? layer = b.color? layer) : a = b := by
  have hg : a.background = b.background := hc .background
  have hf : a.foreground = b.foreground := hc .foreground
  obtain ⟨_, _, _⟩ := a
  obtain ⟨_, _, _⟩ := b
  rw [mk.injEq]
  exact ⟨Modifiers.ext_has hm, hg, hf⟩

end Attributes

/-! ## Parameters -/

/-- The modifier that a parameter switches on. -/
def Modifier.ofParameter? : Nat → Option Modifier
  | 1 => some .bold
  | 2 => some .dimmed
  | 3 => some .italic
  | 4 => some .underline
  | 7 => some .inverted
  | _ => none

/-- The base color with an index from zero to seven. -/
def NamedColor.ofIndex? : Nat → Option NamedColor
  | 0 => some .black
  | 1 => some .red
  | 2 => some .green
  | 3 => some .yellow
  | 4 => some .blue
  | 5 => some .purple
  | 6 => some .cyan
  | 7 => some .white
  | _ => none

/-- The color that a parameter by itself sets, and on which layer. -/
def Color.ofParameter? (n : Nat) : Option (Layer × Color) :=
  if 100 ≤ n then (NamedColor.ofIndex? (n - 100)).map fun c => (.background, .bright c)
  else if 90 ≤ n then (NamedColor.ofIndex? (n - 90)).map fun c => (.foreground, .bright c)
  else if 40 ≤ n then (NamedColor.ofIndex? (n - 40)).map fun c => (.background, .named c)
  else if 30 ≤ n then (NamedColor.ofIndex? (n - 30)).map fun c => (.foreground, .named c)
  else none

/-- The color of three components; none when one of them does not fit into a byte. -/
def Color.ofComponents? (r g b : Nat) : Option Color :=
  if r < 256 ∧ g < 256 ∧ b < 256 then some (.rgb ⟨.ofNat r, .ofNat g, .ofNat b⟩) else none

namespace Attributes

/-- Takes up a parameter that stands by itself. Zero clears all attributes, and a parameter that means
nothing is passed over. -/
def selectOne (a : Attributes) (n : Nat) : Attributes :=
  if n = 0 then {}
  else match Modifier.ofParameter? n with
  | some m => { a with modifiers := a.modifiers.add m }
  | none =>
    match Color.ofParameter? n with
    | some (layer, c) => a.paint c layer
    | none => a

/-- Takes up a color of three components. -/
def selectRgb (a : Attributes) (layer : Layer) (r g b : Nat) : Attributes :=
  match Color.ofComponents? r g b with
  | some c => a.paint c layer
  | none => a

/-- Takes up the parameters of a sequence from left to right. A color of three components takes up five
of them. -/
def select (a : Attributes) : List Nat → Attributes
  | [] => a
  | 38 :: 2 :: r :: g :: b :: rest => (a.selectRgb .foreground r g b).select rest
  | 48 :: 2 :: r :: g :: b :: rest => (a.selectRgb .background r g b).select rest
  | n :: rest => (a.selectOne n).select rest

theorem select_modifier (a : Attributes) (m : Modifier) (rest : List Nat) :
    a.select (m.parameter :: rest) = { a with modifiers := a.modifiers.add m }.select rest := by
  cases m <;> rfl

/-- The parameters of a color paint it on their layer, whatever follows them. -/
theorem select_parameters (a : Attributes) (c : Color) (layer : Layer) (rest : List Nat) :
    a.select (c.parameters layer ++ rest) = (a.paint c layer).select rest := by
  cases c with
  | named c => cases layer <;> cases c <;> rfl
  | bright c => cases layer <;> cases c <;> rfl
  | rgb c =>
    have hfits : Color.ofComponents? c.red.toNat c.green.toNat c.blue.toNat = some (.rgb c) := by
      rw [Color.ofComponents?, if_pos ⟨c.red.toNat_lt, c.green.toNat_lt, c.blue.toNat_lt⟩]
      simp
    cases layer <;> simp [Color.parameters, select, selectRgb, hfits]

theorem select_parameters_nil (a : Attributes) (c : Color) (layer : Layer) :
    a.select (c.parameters layer) = a.paint c layer := by
  have h := select_parameters a c layer []
  rwa [List.append_nil] at h

end Attributes

/-! ## Reading -/

namespace Terminal

/-- What a terminal expects next. -/
inductive Mode where
  | text
  /-- Behind ESC. -/
  | opened
  /-- In a sequence, behind parameters that are complete and the first digits of another one. -/
  | parameters (done : List Nat) (current : Nat)

/-- A terminal, as far as attributes go. -/
structure State where
  attributes : Attributes
  mode : Mode

namespace State

/-- Takes up a character. A parameter without digits counts as zero, and only the letter `m` ends a
sequence that sets attributes. -/
def read (s : State) (c : Char) : State :=
  match s.mode with
  | .text => if c = Escape.esc then { s with mode := .opened } else s
  | .opened =>
    if c = '[' then { s with mode := .parameters [] 0 }
    else if c = Escape.esc then s
    else { s with mode := .text }
  | .parameters done current =>
    if c.isDigit then { s with mode := .parameters done (10 * current + (c.toNat - '0'.toNat)) }
    else if c = ';' then { s with mode := .parameters (done ++ [current]) 0 }
    else if c = 'm' then ⟨s.attributes.select (done ++ [current]), .text⟩
    else if c = Escape.esc then { s with mode := .opened }
    else { s with mode := .text }

/-- Takes up a text, character by character. -/
def readAll (s : State) (text : List Char) : State := text.foldl read s

theorem readAll_append (s : State) (x y : List Char) :
    s.readAll (x ++ y) = (s.readAll x).readAll y := List.foldl_append

theorem readAll_digits {ds : List Char} (hd : ∀ c ∈ ds, c.isDigit = true) (a : Attributes)
    (done : List Nat) (current : Nat) :
    readAll ⟨a, .parameters done current⟩ ds =
      ⟨a, .parameters done (Nat.ofDigitChars 10 ds current)⟩ := by
  induction ds generalizing current with
  | nil => rfl
  | cons c ds ih =>
    have hc : read ⟨a, .parameters done current⟩ c =
        ⟨a, .parameters done (10 * current + (c.toNat - '0'.toNat))⟩ := by
      simp [read, hd c (by simp)]
    rw [Nat.ofDigitChars_cons, readAll, List.foldl_cons, hc]
    exact ih (fun d h => hd d (by simp [h])) _

/-- A number that is written out is the parameter that is read. -/
theorem readAll_number (a : Attributes) (done : List Nat) (n : Nat) :
    readAll ⟨a, .parameters done 0⟩ (toString n).toList = ⟨a, .parameters done n⟩ := by
  rw [readAll_digits (Escape.isNumber_toString n).2, Nat.toString_eq_ofList_toDigits,
    String.toList_ofList, Nat.ofDigitChars_ten_toDigits]

theorem readAll_parameterText (a : Attributes) : ∀ (ps done : List Nat), ps ≠ [] →
    readAll ⟨a, .parameters done 0⟩ (Escape.parameterText ps ++ ['m']) =
      ⟨a.select (done ++ ps), .text⟩
  | [n], done, _ => by
    rw [Escape.parameterText, List.map_singleton, List.intercalate_singleton, readAll_append,
      readAll_number]
    rfl
  | n :: k :: ps, done, _ => by
    have hrest := readAll_parameterText a (k :: ps) (done ++ [n]) (by simp)
    rw [Escape.parameterText, List.map_cons] at hrest
    -- the number in front is complete at its semicolon, and the others follow it
    rw [Escape.parameterText, List.map_cons, List.map_cons, List.intercalate_cons_cons,
      List.append_assoc, List.append_assoc, readAll_append, readAll_number, List.singleton_append]
    show readAll ⟨a, .parameters (done ++ [n]) 0⟩ _ = _
    rw [hrest, List.append_assoc, List.singleton_append]

/-- A sequence selects its parameters and leaves the terminal in text again. -/
theorem readAll_sequence (a : Attributes) {ps : List Nat} (h : ps ≠ []) :
    readAll ⟨a, .text⟩ (Escape.sequence ps) = ⟨a.select ps, .text⟩ :=
  readAll_parameterText a ps [] h

/-- Bold is on already, the ground is set by one parameter and the text by five. -/
example : (readAll ⟨{ modifiers := { bold := true } }, .text⟩
    "\x1b[4;44mx\x1b[38;2;136;192;208m".toList).attributes =
    ⟨{ bold := true, underline := true }, some (.named .blue), some (.rgb ⟨136, 192, 208⟩)⟩ := by
  decide

end State

end Terminal

end PromptTheme
