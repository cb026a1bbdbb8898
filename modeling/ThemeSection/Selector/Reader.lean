import ThemeSection.Selector.Basic
import ThemeSection.Selector.Token
import ThemeSection.Text.Basic

/-!
Reading selectors. `Selector.read?` gives nothing for a text that is no selector: an empty one, one
that goes on after its end, one with a name of a state or of a vocabulary that is not known here.
Whatever the end of the text leaves open is closed there.
-/

namespace ThemeSection.Selector

/-- The rest of a text, as its tokens. -/
abbrev Tokens := List Token

def skipSpace : Tokens → Tokens
  | .space :: rest => skipSpace rest
  | other => other

/-- The tokens after a closing one, which the end of the text may stand for. -/
def close? (closing : Token) (s : Tokens) : Option Tokens :=
  match skipSpace s with
  | [] => some []
  | t :: rest => if t = closing then some rest else none

/-- The name of an attribute, and whether it may be of any vocabulary. -/
def attributeName? : Tokens → Option ((String × Bool) × Tokens)
  | .ident _ :: .mark '|' :: _ => none
  | .ident name :: rest => some ((name, false), rest)
  | .mark '*' :: .mark '|' :: .ident name :: rest => some ((name, true), rest)
  | .mark '|' :: .ident name :: rest => some ((name, false), rest)
  | _ => none

def comparison? : Token → Option Comparison
  | .mark '=' => some .equals
  | .compare '~' => some .hasWord
  | .compare '|' => some .hasSubtag
  | .compare '^' => some .startsWith
  | .compare '$' => some .endsWith
  | .compare '*' => some .contains
  | _ => none

def letterCase? (s : Tokens) : Option (LetterCase × Tokens) :=
  match skipSpace s with
  | .ident flag :: rest =>
    match Text.lowerAscii flag with
    | "i" => some (.ignored, rest)
    | "s" => some (.kept, rest)
    | _ => none
  | rest => some (.byAttribute, rest)

/-- What is asked of an attribute's value, if anything is. -/
def valueTest? (s : Tokens) : Option (Option ValueTest × Tokens) :=
  match skipSpace s with
  | [] => some (none, [])
  | .bracketClose :: rest => some (none, .bracketClose :: rest)
  | t :: rest => do
    let comparison ← comparison? t
    let (wanted, rest) ← match skipSpace rest with
      | .ident text :: rest | .string text :: rest => some (text, rest)
      | _ => none
    let (letterCase, rest) ← letterCase? rest
    return (some ⟨comparison, wanted, letterCase⟩, rest)

/-- A test of an attribute after its opening bracket. -/
def attributeTest? (s : Tokens) : Option (Simple × Tokens) := do
  let ((name, anySpace), rest) ← attributeName? (skipSpace s)
  let (value, rest) ← valueTest? rest
  let rest ← close? .bracketClose rest
  return (.attribute ⟨name, anySpace, value⟩, rest)

/-- The number that `n-5` ends in. -/
def dashDigits? (s : List Char) : Option Int :=
  match s with
  | 'n' :: '-' :: digits | 'N' :: '-' :: digits =>
    if !digits.isEmpty && digits.all Char.isDigit then
      some (Token.clamp (-(Chars.numeral 10 digits : Int)))
    else none
  | _ => none

/-- The offset after a sign that stands by itself. -/
def unsignedOffset? (step : Int) (negative : Bool) (s : Tokens) :
    Option ((Int × Int) × Tokens) :=
  match skipSpace s with
  | .number ⟨false, some n⟩ :: rest => some ((step, if negative then -n else n), rest)
  | _ => none

/-- The offset after a step, nothing if none is given. -/
def offset? (step : Int) (s : Tokens) : Option ((Int × Int) × Tokens) :=
  match skipSpace s with
  | .mark '+' :: rest => unsignedOffset? step false rest
  | .mark '-' :: rest => unsignedOffset? step true rest
  | .number ⟨true, some n⟩ :: rest => some ((step, n), rest)
  | _ => some ((step, 0), s)

/-- A step and an offset that begin with a word; `signed` if a plus sign stands before it. -/
def wordPlace? (signed : Bool) (word : String) (s : Tokens) : Option ((Int × Int) × Tokens) :=
  match Text.lowerAscii word with
  | "even" => some ((2, 0), s)
  | "odd" => some ((2, 1), s)
  | "n" => offset? 1 s
  | "n-" => unsignedOffset? 1 true s
  | lowered =>
    if !signed && lowered == "-n" then offset? (-1) s
    else if !signed && lowered == "-n-" then unsignedOffset? (-1) true s
    else match signed, word.toList with
      | false, '-' :: rest => (dashDigits? rest).map fun n => ((-1, n), s)
      | _, letters => (dashDigits? letters).map fun n => ((1, n), s)

/-- A step and an offset such as `2n + 1`, `odd` or `3`. -/
def stepAndOffset? (s : Tokens) : Option ((Int × Int) × Tokens) :=
  match skipSpace s with
  | .number ⟨_, some n⟩ :: rest => some ((0, n), rest)
  | .dimension ⟨_, some step⟩ unit :: rest =>
    match Text.lowerAscii unit with
    | "n" => offset? step rest
    | "n-" => unsignedOffset? step true rest
    | _ => (dashDigits? unit.toList).map fun n => ((step, n), rest)
  | .ident word :: rest => wordPlace? false word rest
  | .mark '+' :: .ident word :: rest => wordPlace? true word rest
  | _ => none

def place? (sameName fromEnd : Bool) (s : Tokens) : Option (Simple × Tokens) := do
  let ((step, offset), rest) ← stepAndOffset? s
  let rest ← close? .parenClose rest
  return (.place sameName fromEnd step offset, rest)

/-- A named state of an element. -/
def state? (name : String) : Option Simple :=
  match Text.lowerAscii name with
  | "first-child" => some (.place false false 0 1)
  | "last-child" => some (.place false true 0 1)
  | "only-child" => some (.only false)
  | "first-of-type" => some (.place true false 0 1)
  | "last-of-type" => some (.place true true 0 1)
  | "only-of-type" => some (.only true)
  | "root" | "scope" => some .root
  | "empty" => some .empty
  | "link" | "any-link" => some .link
  | "visited" | "active" | "focus" | "hover" | "enabled" | "disabled" | "checked"
  | "indeterminate" => some .never
  | _ => none

/-- A state with an argument, after its opening parenthesis, other than a negation. -/
def stateOf? (name : String) (s : Tokens) : Option (Simple × Tokens) :=
  match Text.lowerAscii name with
  | "nth-child" => place? false false s
  | "nth-last-child" => place? false true s
  | "nth-of-type" => place? true false s
  | "nth-last-of-type" => place? true true s
  | _ => none

/-- A test other than one of the element's name or a negation; no test if none stands here. -/
def plainTest? : Tokens → Option (Option Simple × Tokens)
  | .hash name true :: rest => some (some (.id name), rest)
  | .mark '.' :: .ident name :: rest => some (some (.className name), rest)
  | .mark '.' :: _ => none
  | .bracketOpen :: rest => (attributeTest? rest).map fun (test, rest) => (some test, rest)
  | .colon :: .ident name :: rest => (state? name).map fun test => (some test, rest)
  | .colon :: .function name :: rest =>
    (stateOf? name rest).map fun (test, rest) => (some test, rest)
  | .colon :: _ => none
  | rest => some (none, rest)

/-- A test of the element's name; no test if none stands here. -/
def nameTest? : Tokens → Option (Option Simple × Tokens)
  | .ident _ :: .mark '|' :: _ => none
  | .ident name :: rest => some (some (.tag name), rest)
  | .mark '*' :: .mark '|' :: .ident name :: rest => some (some (.tag name), rest)
  | .mark '*' :: .mark '|' :: .mark '*' :: rest => some (some .any, rest)
  | .mark '*' :: .mark '|' :: _ => none
  | .mark '*' :: rest => some (some .any, rest)
  | .mark '|' :: .ident _ :: rest => some (some .never, rest)
  | .mark '|' :: .mark '*' :: rest => some (some .never, rest)
  | .mark '|' :: _ => none
  | rest => some (none, rest)

/-- The one test of a negation, after its opening parenthesis. -/
def negation? (s : Tokens) : Option (Simple × Tokens) := do
  let (test, rest) ← match ← nameTest? (skipSpace s) with
    | (some test, rest) => some (test, rest)
    | (none, rest) =>
      match ← plainTest? rest with
      | (some test, rest) => some (test, rest)
      | (none, _) => none
  let rest ← close? .parenClose rest
  return (.not test, rest)

/-- A test other than one of the element's name; no test if none stands here. -/
def test? (s : Tokens) : Option (Option Simple × Tokens) :=
  match s with
  | .colon :: .function name :: rest =>
    if Text.lowerAscii name == "not" then
      (negation? rest).map fun (test, rest) => (some test, rest)
    else plainTest? s
  | _ => plainTest? s

/-- Tests one right after the other. -/
def tests? : Nat → Tokens → Option (Compound × Tokens)
  | 0, s => some ([], s)
  | fuel + 1, s => do
    match ← test? s with
    | (none, rest) => return ([], rest)
    | (some test, rest) =>
      let (more, rest) ← tests? fuel rest
      return (test :: more, rest)

/-- The tests of one element, of which there is at least one. -/
def compound? (s : Tokens) : Option (Compound × Tokens) := do
  let (named, rest) ← nameTest? (skipSpace s)
  let (tests, rest) ← tests? rest.length rest
  match named.toList ++ tests with
  | [] => none
  | tests => some (tests, rest)

/-- The combinator before the next compound, none at the end of an alternative. -/
def combinator? (s : Tokens) : Option Combinator × Tokens :=
  match skipSpace s with
  | .mark '>' :: rest => (some .child, rest)
  | .mark '+' :: rest => (some .next, rest)
  | .mark '~' :: rest => (some .later, rest)
  | [] => (none, [])
  | .comma :: rest => (none, .comma :: rest)
  | rest => (if s.head? = some .space then some .descendant else none, rest)

/-- The compounds that follow on one that is read, with what stands around it. -/
def steps? : Nat → Complex → Tokens → Option (Complex × Tokens)
  | 0, _, _ => none
  | fuel + 1, outer, s =>
    match combinator? s with
    | (none, rest) => some (outer, rest)
    | (some combinator, rest) => do
      let (tests, rest) ← compound? rest
      steps? fuel ⟨tests, (combinator, outer.subject) :: outer.context⟩ rest

def complex? (s : Tokens) : Option (Complex × Tokens) := do
  let (tests, rest) ← compound? s
  steps? (rest.length + 1) ⟨tests, []⟩ rest

/-- Alternatives apart by commas, up to the end. -/
def alternatives? : Nat → Tokens → Option Selector
  | 0, _ => none
  | fuel + 1, s => do
    match ← complex? s with
    | (one, []) => return [one]
    | (one, .comma :: rest) => return one :: (← alternatives? fuel rest)
    | _ => none

/-- Reads a whole text as a selector. -/
def read? (text : String) : Option Selector :=
  let tokens := Token.all text.toList
  alternatives? (tokens.length + 1) tokens

end ThemeSection.Selector
