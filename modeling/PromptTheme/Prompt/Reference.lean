/-
References `$name` in a text. A name is the longest run of ASCII letters, digits and underscores
behind the dollar sign; a dollar sign without one stands for itself. `sweep` replaces all references
in one pass from left to right, and never looks at what it has put in.
-/

namespace PromptTheme.Reference

def isNameChar (c : Char) : Bool := c.isAlphanum || c = '_'

/-- What a dollar sign and the name behind it, last character first, are replaced by. -/
def flush (replace : List Char → List Char) (name : List Char) : List Char :=
  if name.isEmpty then ['$'] else replace name.reverse

/-- Sweeps a text; `name` holds what was read behind a dollar sign, last character first. -/
def sweepFrom (replace : List Char → List Char) (name : Option (List Char)) :
    List Char → List Char
  | [] =>
    match name with
    | none => []
    | some n => flush replace n
  | c :: rest =>
    match name with
    | none => if c = '$' then sweepFrom replace (some []) rest else c :: sweepFrom replace none rest
    | some n =>
      if isNameChar c then sweepFrom replace (some (c :: n)) rest
      else
        flush replace n ++
          (if c = '$' then sweepFrom replace (some []) rest else c :: sweepFrom replace none rest)

/-- Replaces every reference in a text. -/
def sweep (replace : List Char → List Char) (s : List Char) : List Char :=
  sweepFrom replace none s

/-- The value under a name, the first one of several. -/
def lookup? (name : List Char) (vars : List (String × String)) : Option (List Char) :=
  (vars.find? fun v => v.1.toList = name).map fun v => v.2.toList

/-- Replaces the references to the given names, and leaves the others as they are. -/
def substitute (template : String) (vars : List (String × String)) : String :=
  String.ofList (sweep (fun name => (lookup? name vars).getD ('$' :: name)) template.toList)

end PromptTheme.Reference
