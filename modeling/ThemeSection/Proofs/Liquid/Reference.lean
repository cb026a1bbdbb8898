import Mathlib.Data.List.TakeWhile
import ThemeSection.Chars.Code
import ThemeSection.Proofs.Liquid.Nesting

/-!
Which settings the outputs and tags of a text refer to. A setting is named by its path, as in
`section.settings.heading_1`, or by a key that loops and assignments compute, as in
`block.settings[key]`. All values that such a key can have are computed from the tags themselves.
-/

namespace ThemeSection

namespace Liquid

/-- The characters of a path of names. -/
def isPathChar (c : Char) : Bool :=
  isNameChar c || c == '.'

/-- What the path of every setting of an owner starts with. -/
def Owner.path (owner : Owner) : List Char :=
  (owner.name ++ ".settings.").toList

/-- The settings of an owner that are named by their paths between two marks. -/
def pathIds (owner : Owner) (content : List Char) : List String :=
  (Chars.splitWhere (!isPathChar ·) content).filterMap fun path =>
    (Chars.strip? owner.path path).map fun rest => String.ofList (rest.takeWhile isNameChar)

/-- The settings of an owner that the outputs and tags of a text name by their paths. -/
def references (owner : Owner) (text : String) : List String :=
  (tokens text.toList).flatMap fun t => pathIds owner t.content

/-- The variables that are used as keys of block settings between two marks. -/
def keyVariables : List Char → List String
  | [] => []
  | c :: rest =>
    ((Chars.strip? "block.settings[".toList (c :: rest)).map fun key =>
      String.ofList (key.takeWhile (· != ']'))).toList ++ keyVariables rest

/-- What variables can hold: each with one of its values, or with none that is known. -/
abbrev Values := List (String × Option String)

namespace Values

/-- All that a variable can hold; nothing known, if it was never given a value. -/
def of (values : Values) (name : String) : List (Option String) :=
  match values.filter (·.1 == name) with
  | [] => [none]
  | given => given.map (·.2)

/-- The text of a literal in quotes, or what a variable can hold. -/
def atom (values : Values) (atom : String) : List (Option String) :=
  match Text.strip? "'" atom with
  | some rest => [some (String.ofList (rest.toList.takeWhile (· != '\''))) ]
  | none => values.of atom

/-- What an expression can come to, by its first value and the filters after that. An array counts
as any one of its members. -/
def filtered (values : Values) (found : List (Option String)) : List String → List (Option String)
  | "|" :: "append:" :: operand :: rest =>
    filtered values (found.flatMap fun a => (values.atom operand).map fun b =>
      a.bind fun a => b.map fun b => a ++ b) rest
  | "|" :: "split:" :: "','" :: rest =>
    filtered values (found.flatMap fun a => match a with
      | some a => (Chars.splitWhere (· == ',') a.toList).map fun part => some (String.ofList part)
      | none => [none]) rest
  | [] => found
  | _ => [none]

/-- The numbers of a range between two numbers, or the members of an array. -/
def looped (values : Values) (source : String) : List (Option String) :=
  match Chars.splitFirst "..".toList (source.toList.filter fun c => c != '(' && c != ')') with
  | none => values.of source
  | some (first, last) =>
    if first.all Char.isDigit && last.all Char.isDigit then
      let first := Chars.numeral 10 first
      (List.range' first (Chars.numeral 10 last + 1 - first)).map fun n => some (toString n)
    else [none]

/-- The values after an output or a tag. -/
def afterToken (values : Values) (t : Token) : Values :=
  let words := (Chars.words t.content).map String.ofList |>.filter (· != "-")
  if t.keyword = "for".toList then
    match words with
    | [_, name, "in", source] => values ++ (values.looped source).map (name, ·)
    | _ => values
  else if t.keyword = "assign".toList then
    match words with
    | _ :: name :: "=" :: first :: filters =>
      values ++ (values.filtered (values.atom first) filters).map (name, ·)
    | _ => values
  else values

/-- The values after all the tags of a text. -/
def afterText (text : String) : Values :=
  (tokens text.toList).foldl afterToken []

end Values

/-- The settings of blocks that texts refer to, by their paths or by computed keys. Nothing stands
for a key that cannot be computed. -/
def blockKeys (texts : List String) : List (Option String) :=
  (texts.flatMap (references .block)).map some ++
    (texts.flatMap fun text => (tokens text.toList).flatMap fun t =>
      keyVariables t.content).flatMap (Values.of (texts.flatMap Values.afterText))

/-- A text whose outputs and tags are these, whatever stands around it and however it is escaped. -/
structure Says (text : String) (ts : List Token) : Prop where
  settled : Settled text.toList
  tokens : Liquid.tokens text.toList = ts

namespace Says

variable {a b : String} {s t : List Token}

theorem append (ha : Says a s) (hb : Says b t) : Says (a ++ b) (s ++ t) where
  settled := by
    rw [String.toList_append]
    exact ha.settled.append hb.settled
  tokens := by
    rw [String.toList_append, ha.settled.tokens_append, ha.tokens, hb.tokens]

theorem plain (h : Braceless a.toList) : Says a [] where
  settled := h.settled
  tokens := h.tokens

theorem empty : Says "" [] := plain (by decide)

end Says

theorem says_output {expression : String} (h : Bare expression.toList) :
    Says (output expression) [.output (' ' :: (expression.toList ++ [' ']))] := by
  have hcontent : Bare (' ' :: (expression.toList ++ [' '])) := by
    simpa [Bare, isBare, isBrace, or_imp, forall_and] using h
  have htext : (output expression).toList =
      '\x7b' :: '\x7b' :: (' ' :: (expression.toList ++ [' ']) ++ '\x7d' :: '\x7d' :: []) := by
    simp [output]
  constructor
  case settled => exact htext ▸ .output hcontent .nil
  case tokens => rw [htext, tokens_output hcontent, tokens_nil]

/-- What stands between the marks of a tag. -/
def tagContent (content : String) : List Char :=
  '-' :: ' ' :: (content.toList ++ [' ', '-'])

/-- Rewrites a literal to its characters, which evaluate faster than it does. -/
theorem tagContent_ofList (chars : List Char) :
    tagContent (String.ofList chars) = '-' :: ' ' :: (chars ++ [' ', '-']) := by
  rw [tagContent, String.toList_ofList]

theorem says_tag (content : String) (h : Bare content.toList) :
    Says (tag content) [.tag (tagContent content)] := by
  have hcontent : Bare (tagContent content) := by
    simpa [tagContent, Bare, isBare, isBrace, or_imp, forall_and] using h
  have htext : (tag content).toList =
      '\x7b' :: '%' :: (tagContent content ++ '%' :: '\x7d' :: []) := by
    simp [tag, tagContent]
  constructor
  case settled => exact htext ▸ .tag hcontent .nil
  case tokens => rw [htext, tokens_tag hcontent, tokens_nil]

/-- A tag without blank stripping. -/
theorem says_rawTag (content : String) (h : Bare content.toList) :
    Says ("\x7b%" ++ content ++ "%\x7d") [.tag content.toList] := by
  have htext : ("\x7b%" ++ content ++ "%\x7d").toList =
      '\x7b' :: '%' :: (content.toList ++ '%' :: '\x7d' :: []) := by
    simp
  constructor
  case settled => exact htext ▸ .tag h .nil
  case tokens => rw [htext, tokens_tag h, tokens_nil]

theorem pathIds_append_cons {c : Char} (hc : isPathChar c = false) (owner : Owner)
    (a b : List Char) : pathIds owner (a ++ c :: b) = pathIds owner a ++ pathIds owner b := by
  rw [pathIds, Chars.splitWhere_append_cons (by simp [hc]), List.filterMap_append]
  rfl

/-- A text that can be a name. -/
def IsName (s : String) : Prop :=
  ∀ c ∈ s.toList, isNameChar c

instance (s : String) : Decidable (IsName s) :=
  inferInstanceAs (Decidable (∀ c ∈ s.toList, isNameChar c))

variable {id : String}

theorem IsName.append {a b : String} (ha : IsName a) (hb : IsName b) : IsName (a ++ b) := by
  rw [IsName, String.toList_append]
  exact List.forall_mem_append.2 ⟨ha, hb⟩

theorem isName_toString (n : Nat) : IsName (toString n) := by
  intro c hc
  have hdigits : (toString n).toList = Nat.toDigits 10 n := Nat.toList_repr
  rw [hdigits] at hc
  have hdigit : c.isDigit := Nat.isDigit_of_mem_toDigits (by decide) (by decide) hc
  simp [isNameChar, Char.isAlphanum, hdigit]

theorem isBare_of_isNameChar {c : Char} (h : isNameChar c) : isBare c := by
  have hother : ∀ d ∈ ['\x7b', '\x7d', '&', '<', '>', '"', '\u00A0'], isNameChar d = false := by
    decide
  have hne : ∀ d ∈ ['\x7b', '\x7d', '&', '<', '>', '"', '\u00A0'], c ≠ d := by
    rintro d hd rfl
    rw [hother c hd] at h
    cases h
  simp only [List.forall_mem_cons, List.not_mem_nil, false_implies, implies_true] at hne
  obtain ⟨hopen, hclose, hamp, hlt, hgt, hquote, hblank, -⟩ := hne
  simp [isBare, isBrace, hopen, hclose, hamp, hlt, hgt, hquote, hblank]

theorem IsName.bare (h : IsName id) : Bare id.toList := fun c hc => isBare_of_isNameChar (h c hc)

/-- A path names its setting and nothing else. -/
theorem pathIds_path (h : IsName id) (owner owner' : Owner) :
    pathIds owner (settingPath owner' id).toList = if owner = owner' then [id] else [] := by
  have hsplit : (settingPath owner' id).toList = owner'.path ++ id.toList := by
    simp [settingPath, Owner.path]
  have hpath : ∀ c ∈ owner'.path ++ id.toList, (!isPathChar c) = false := by
    refine List.forall_mem_append.2 ⟨?_, fun c hc => ?_⟩
    · cases owner' <;> decide
    · simp [isPathChar, h c hc]
  have hname : (id.toList.takeWhile isNameChar) = id.toList :=
    List.takeWhile_eq_self_iff.2 h
  rw [hsplit, pathIds, Chars.splitWhere_eq_singleton hpath]
  split
  case isTrue heq =>
    subst heq
    rw [List.filterMap_cons, Chars.strip?_eq_some.2 rfl]
    simp [hname]
  case isFalse hne =>
    have hstrip : Chars.strip? owner.path (owner'.path ++ id.toList) = none := by
      cases owner <;> cases owner' <;> first | exact absurd rfl hne | rfl
    simp [hstrip]

end Liquid

end ThemeSection
