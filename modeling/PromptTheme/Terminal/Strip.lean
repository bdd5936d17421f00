/-
Finding the escape sequences of a terminal in a text. A sequence begins with ESC or the control
sequence introducer U+009B and is the longest one that the machine below accepts. Command strings
and device strings begin with ESC only and run to their terminator. `stripEscapes` keeps what is
left.
-/

namespace PromptTheme.Terminal

/-! ## Short sequences -/

/-- Where a sequence stands. -/
inductive Progress where
  /-- Behind the introducer. -/
  | introduced
  /-- Behind a bracket that selects a character set. -/
  | charset
  /-- The character set is chosen. -/
  | chosen
  /-- Behind an opening mark. -/
  | opened
  /-- Inside a parameter that may have as many more digits. -/
  | parameter (more : Nat)
  /-- Behind a semicolon that follows a parameter. -/
  | separated
  /-- Behind the final letter. -/
  | finished
deriving DecidableEq

namespace Progress

/-- A sequence may end here. -/
def isAccepting : Progress → Bool
  | chosen => true
  | parameter _ => true
  | finished => true
  | _ => false

/-- The letters and signs that end a sequence. -/
def isFinal (c : Char) : Bool :=
  ('A' ≤ c && c ≤ 'P') || c == 'R' || c == 'Z' || c == 'c' || ('f' ≤ c && c ≤ 'n') || c == 'q' ||
    c == 'r' || c == 'y' || c == '=' || c == '>' || c == '<'

/-- A parameter has at most five digits: one, and four more. -/
def moreDigits : Nat := 4

/-- Reads one character; none when the sequence cannot go on with it. -/
def next? (p : Progress) (c : Char) : Option Progress :=
  if c = '(' ∨ c = ')' then
    match p with
    | introduced => some charset
    | charset => some opened
    | opened => some opened
    | _ => none
  else if c = ';' then
    match p with
    | introduced => some opened
    | charset => some opened
    | opened => some opened
    | parameter more => if more = 0 then none else some separated
    | separated => some separated
    | _ => none
  else if c = '[' ∨ c = '#' ∨ c = '?' then
    match p with
    | introduced => some opened
    | charset => some opened
    | opened => some opened
    | _ => none
  else if c.isDigit then
    match p with
    | introduced => some (parameter moreDigits)
    | opened => some (parameter moreDigits)
    | separated => some (parameter moreDigits)
    | charset => if c ≤ '2' then some chosen else some (parameter moreDigits)
    | parameter (more + 1) => some (parameter more)
    | _ => none
  else if isFinal c then
    match p with
    | introduced => some finished
    | charset => some finished
    | opened => some finished
    | separated => some finished
    | parameter more => if more = 0 then none else some finished
    | _ => none
  else none

/-- The text behind the longest sequence that can be read from here; `best` is the text behind the
longest one so far. -/
def longest (p : Progress) (best : Option (List Char)) : List Char → Option (List Char)
  | [] => best
  | c :: rest =>
    match p.next? c with
    | none => best
    | some q => longest q (if q.isAccepting then some rest else best) rest

end Progress

/-! ## Strings -/

inductive StringKind where
  | command
  | device
deriving DecidableEq

/-- The text behind the terminator of a string; nothing when there is none. `escaped` tells that an
ESC stands right before, which a backslash makes a terminator. In a device string an ESC that is
itself escaped does not count; a command string also ends with BEL. -/
def afterString (kind : StringKind) (escaped : Bool) : List Char → List Char
  | [] => []
  | c :: rest =>
    if c = '\u009c' ∨ (c = '\x07' ∧ kind = .command) ∨ (c = '\\' ∧ escaped) then rest
    else afterString kind (c = '\x1b' && !(escaped && kind = .device)) rest

/-! ## Stripping -/

def isIntroducer (c : Char) : Bool := c = '\x1b' || c = '\u009b'

/-- The text behind the sequence that begins with the given introducer, which has just been read;
none when there is no sequence. -/
def afterSequence? (introducer : Char) (s : List Char) : Option (List Char) :=
  match introducer, s with
  | '\x1b', ']' :: rest => some (afterString .command false rest)
  | '\x1b', 'P' :: rest => some (afterString .device false rest)
  | _, s => Progress.longest .introduced none s

theorem longest_length {p : Progress} {best : Option (List Char)} {s r : List Char} {n : Nat}
    (hb : ∀ b, best = some b → b.length ≤ n) (hs : s.length ≤ n)
    (h : Progress.longest p best s = some r) : r.length ≤ n := by
  induction s generalizing p best with
  | nil => exact hb r h
  | cons c rest ih =>
    unfold Progress.longest at h
    have hr : rest.length ≤ n := by simp only [List.length_cons] at hs; omega
    split at h
    · exact hb r h
    · refine ih ?_ hr h
      intro b hbb
      split at hbb
      · cases hbb; exact hr
      · exact hb b hbb

theorem afterString_length (kind : StringKind) (escaped : Bool) (s : List Char) :
    (afterString kind escaped s).length ≤ s.length := by
  fun_induction afterString kind escaped s with
  | case1 => simp
  | case2 => simp
  | case3 _ _ _ _ ih => simp only [List.length_cons]; omega

theorem afterSequence?_length {c : Char} {s r : List Char} (h : afterSequence? c s = some r) :
    r.length ≤ s.length := by
  unfold afterSequence? at h
  split at h
  · cases h
    exact Nat.le_succ_of_le (afterString_length _ _ _)
  · cases h
    exact Nat.le_succ_of_le (afterString_length _ _ _)
  · exact longest_length (by simp) (Nat.le_refl _) h

/-- The parts of a text between its escape sequences. -/
def plainParts (acc : List Char) (s : List Char) : List (List Char) :=
  match s with
  | [] => [acc.reverse]
  | c :: rest =>
    if isIntroducer c then
      match _h : afterSequence? c rest with
      | some after => acc.reverse :: plainParts [] after
      | none => plainParts (c :: acc) rest
    else plainParts (c :: acc) rest
termination_by s.length
decreasing_by
  · have := afterSequence?_length _h
    simp only [List.length_cons]; omega
  · simp
  · simp

/-- The text without its escape sequences. -/
def stripEscapes (s : List Char) : List Char := (plainParts [] s).flatten

end PromptTheme.Terminal
