import ThemeSection.Proofs.Liquid.Token

/-!
How the tags of a text stand to one another. A stack of open tags is carried over the tokens from the
left: `for` and `if` open, `endfor` and `endif` close what was opened last, and an `if` may have one
`else`. Tokens that leave every stack as it was can be put between any others.
-/

namespace ThemeSection.Liquid

/-- The characters of a name. -/
def isNameChar (c : Char) : Bool :=
  c.isAlphanum || c == '_' || c == '-'

/-- The first word between the marks of a tag. -/
def Token.keyword : Token → List Char
  | output _ => []
  | tag content =>
    (content.dropWhile fun c => c == '-' || Chars.isBlank c).takeWhile isNameChar

/-- A tag that is open: a loop, or a condition, which may have come to its `else`. -/
inductive Frame
  | loop
  | condition (atElse : Bool)
  deriving DecidableEq, Repr

/-- The open tags after a tag with this keyword, the innermost first. Nothing, if it cannot stand
there. -/
def enter (keyword : List Char) (stack : List Frame) : Option (List Frame) :=
  if keyword = "for".toList then some (.loop :: stack)
  else if keyword = "if".toList then some (.condition false :: stack)
  else if keyword = "else".toList then
    match stack with
    | .condition false :: rest => some (.condition true :: rest)
    | _ => none
  else if keyword = "endif".toList then
    match stack with
    | .condition _ :: rest => some rest
    | _ => none
  else if keyword = "endfor".toList then
    match stack with
    | .loop :: rest => some rest
    | _ => none
  else some stack

def run : List Token → List Frame → Option (List Frame)
  | [], stack => some stack
  | t :: rest, stack => (enter t.keyword stack).bind (run rest)

/-- Every tag that opens is closed by its own closing tag, and none is closed that was not opened. -/
def WellNested (ts : List Token) : Prop :=
  run ts [] = some []

instance (ts : List Token) : Decidable (WellNested ts) :=
  inferInstanceAs (Decidable (run ts [] = some []))

/-- Tokens that leave every stack as it was. -/
def Neutral (ts : List Token) : Prop :=
  ∀ stack, run ts stack = some stack

@[simp] theorem run_nil (stack : List Frame) : run [] stack = some stack := rfl

theorem run_append (a b : List Token) (stack : List Frame) :
    run (a ++ b) stack = (run a stack).bind (run b) := by
  induction a generalizing stack with
  | nil => rfl
  | cons t a ih =>
    rw [List.cons_append, run, run, Option.bind_assoc]
    exact Option.bind_congr fun next _ => ih next

namespace Neutral

variable {a b ts : List Token}

theorem nil : Neutral [] := fun _ => rfl

theorem run_append (h : Neutral a) (b : List Token) (stack : List Frame) :
    run (a ++ b) stack = run b stack := by
  rw [Liquid.run_append, h stack, Option.bind_some]

theorem append (ha : Neutral a) (hb : Neutral b) : Neutral (a ++ b) := fun stack => by
  rw [ha.run_append, hb stack]

theorem flatMap {α : Type} {items : List α} {f : α → List Token}
    (h : ∀ item ∈ items, Neutral (f item)) : Neutral (items.flatMap f) := by
  induction items with
  | nil => exact nil
  | cons item items ih =>
    obtain ⟨hitem, hitems⟩ := List.forall_mem_cons.1 h
    exact hitem.append (ih hitems)

/-- Neutral tokens can be put between two halves of neutral tokens. -/
theorem around (h : Neutral (a ++ b)) (hts : Neutral ts) : Neutral (a ++ (ts ++ b)) := fun stack => by
  have hrest : run (ts ++ b) = run b := funext fun _ => hts.run_append b _
  rw [Liquid.run_append, hrest, ← Liquid.run_append, h stack]

end Neutral

/-- Where rows of tokens act alike one by one, they act alike together. -/
theorem run_flatMap_congr {α : Type} {items : List α} {f g : α → List Token}
    (h : ∀ item ∈ items, run (f item) = run (g item)) :
    run (items.flatMap f) = run (items.flatMap g) := by
  induction items with
  | nil => rfl
  | cons item items ih =>
    obtain ⟨hitem, hitems⟩ := List.forall_mem_cons.1 h
    funext stack
    rw [List.flatMap_cons, List.flatMap_cons, run_append, run_append, hitem, ih hitems]

end ThemeSection.Liquid
