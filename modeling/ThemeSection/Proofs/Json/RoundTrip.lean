import Mathlib.Data.List.Basic
import Mathlib.Tactic.IntervalCases
import ThemeSection.Json.Printer
import ThemeSection.Json.Reader
import ThemeSection.Proofs.Chars.Blank
import ThemeSection.Proofs.Json.Value
import ThemeSection.Text.Basic

/-!
Reading what was printed. A value whose numbers are exact comes back from its text over several
lines as it is, whatever its strings hold, as long as it does not nest deeper than the reader goes.
-/

namespace ThemeSection.Json

theorem hexQuad_of_lt {n : Nat} (h : n < 32) (rest : List Char) :
    hexQuad ('0' :: '0' :: hexDigit (n / 16) :: hexDigit (n % 16) :: rest) = .ok (n, rest) := by
  have hdigits : ∀ n : Fin 32,
      ['0', '0', hexDigit (n / 16), hexDigit (n % 16)].all Chars.isHexDigit ∧
        Chars.numeral 16 ['0', '0', hexDigit (n / 16), hexDigit (n % 16)] = n := by
    decide +kernel
  obtain ⟨hall, hnumeral⟩ := hdigits ⟨n, h⟩
  simp only at hall hnumeral
  rw [hexQuad, if_pos hall, hnumeral]

theorem unicodeEscape_of_lt {n : Nat} (h : n < 32) (rest : List Char) :
    unicodeEscape ('0' :: '0' :: hexDigit (n / 16) :: hexDigit (n % 16) :: rest) =
      .ok (Char.ofNat n, 4) := by
  have hlow : (decide (0xDC00 ≤ n) && decide (n ≤ 0xDFFF)) = false := by simp; omega
  have hshort : (decide (n < 0xD800) || decide (n > 0xDBFF)) = true := by simp; omega
  simp only [unicodeEscape, hexQuad_of_lt h, bind, Except.bind]
  simp [hlow, hshort]

/-- The characters of an escape after its backslash: a letter, and digits that are neither quotes
nor backslashes. None of them ends a line or opens a tag. -/
structure EscapeBody (letter : Char) (digits : List Char) : Prop where
  lines : ∀ c ∈ letter :: digits, c ≠ '\n' ∧ c ≠ '\r'
  braces : '\x7b' ∉ letter :: digits
  digits : ∀ c ∈ digits, c ≠ '"' ∧ c ≠ '\\'

theorem escapeBody_letter {letter : Char} (hline : letter ≠ '\n') (hreturn : letter ≠ '\r')
    (hbrace : letter ≠ '\x7b') : EscapeBody letter [] where
  lines := by
    rintro c hc
    obtain rfl := List.mem_singleton.1 hc
    exact ⟨hline, hreturn⟩
  digits := List.forall_mem_nil _
  braces := by simpa using hbrace.symm

theorem hexDigit_plain {n : Nat} (h : n < 16) :
    (hexDigit n ≠ '\n' ∧ hexDigit n ≠ '\r') ∧ (hexDigit n ≠ '"' ∧ hexDigit n ≠ '\\') ∧
      hexDigit n ≠ '\x7b' := by
  interval_cases n <;> decide

theorem escapeBody_unicode {n : Nat} (h : n < 32) :
    EscapeBody 'u' ['0', '0', hexDigit (n / 16), hexDigit (n % 16)] := by
  obtain ⟨hhighLine, hhigh, hhighBrace⟩ := hexDigit_plain (n := n / 16) (by omega)
  obtain ⟨hlowLine, hlow, hlowBrace⟩ := hexDigit_plain (n := n % 16) (by omega)
  constructor
  case lines =>
    intro c hc
    simp only [List.mem_cons, List.not_mem_nil, or_false] at hc
    rcases hc with rfl | rfl | rfl | rfl | rfl
    · decide
    · decide
    · decide
    · exact hhighLine
    · exact hlowLine
  case digits =>
    intro c hc
    simp only [List.mem_cons, List.not_mem_nil, or_false] at hc
    rcases hc with rfl | rfl | rfl | rfl
    · decide
    · decide
    · exact hhigh
    · exact hlow
  case braces => simp [hhighBrace.symm, hlowBrace.symm]

/-- A character is printed as it is or as an escape that names it. -/
theorem escapeChar_cases (c : Char) :
    (escapeChar c = [c] ∧ c ≠ '"' ∧ c ≠ '\\' ∧ ¬ c.toNat < 0x20) ∨
      ∃ letter digits, escapeChar c = '\\' :: letter :: digits ∧ EscapeBody letter digits ∧
        ∀ tail, escape (letter :: digits ++ tail) = .ok (c, digits.length + 1) := by
  unfold escapeChar
  split
  case isTrue h =>
    obtain rfl := beq_iff_eq.1 h
    exact Or.inr ⟨'"', [], rfl, escapeBody_letter (by decide) (by decide) (by decide),
      fun _ => rfl⟩
  split
  case isTrue h =>
    obtain rfl := beq_iff_eq.1 h
    exact Or.inr ⟨'\\', [], rfl, escapeBody_letter (by decide) (by decide) (by decide),
      fun _ => rfl⟩
  split
  case isFalse.isFalse.isFalse hquote hslash hcontrol =>
    exact Or.inl ⟨rfl, by simpa using hquote, by simpa using hslash, hcontrol⟩
  right
  split
  case isTrue h =>
    obtain rfl := beq_iff_eq.1 h
    exact ⟨'n', [], rfl, escapeBody_letter (by decide) (by decide) (by decide),
      fun _ => rfl⟩
  split
  case isTrue h =>
    obtain rfl := beq_iff_eq.1 h
    exact ⟨'r', [], rfl, escapeBody_letter (by decide) (by decide) (by decide),
      fun _ => rfl⟩
  split
  case isTrue h =>
    obtain rfl := beq_iff_eq.1 h
    exact ⟨'t', [], rfl, escapeBody_letter (by decide) (by decide) (by decide),
      fun _ => rfl⟩
  split
  case isTrue h =>
    rw [← Char.ofNat_toNat c, beq_iff_eq.1 h]
    exact ⟨'b', [], rfl, escapeBody_letter (by decide) (by decide) (by decide),
      fun _ => rfl⟩
  split
  case isTrue h =>
    rw [← Char.ofNat_toNat c, beq_iff_eq.1 h]
    exact ⟨'f', [], rfl, escapeBody_letter (by decide) (by decide) (by decide),
      fun _ => rfl⟩
  case isTrue.isFalse.isFalse.isFalse.isFalse.isFalse hcontrol _ _ _ _ _ =>
    refine ⟨_, _, rfl, escapeBody_unicode hcontrol, fun tail => ?_⟩
    have hescape := unicodeEscape_of_lt hcontrol tail
    rw [Char.ofNat_toNat] at hescape
    simp only [List.cons_append, List.nil_append, escape]
    rw [hescape]
    rfl

theorem go_length (e tail : List Char) :
    stringBody.go e.length (e ++ tail) = stringBody.go 0 tail := by
  induction e with
  | nil => rfl
  | cons c e ih => rw [List.length_cons, List.cons_append, stringBody.go, ih]

/-- Where a string is read on at a printed character, that character comes first. -/
theorem go_escapeChar (c : Char) (tail : List Char) :
    stringBody.go 0 (escapeChar c ++ tail) =
      (stringBody.go 0 tail).map fun (text, rest) => (c :: text, rest) := by
  rcases escapeChar_cases c with
    ⟨heq, hquote, hslash, hcontrol⟩ | ⟨letter, digits, heq, -, hescape⟩
  · simp only [heq, List.singleton_append, stringBody.go, beq_iff_eq, hquote, hslash, hcontrol,
      if_false]
    cases stringBody.go 0 tail <;> rfl
  · have hskip := go_length (letter :: digits) tail
    rw [List.length_cons] at hskip
    rw [heq, List.cons_append, stringBody.go, if_neg (by decide), if_pos (by decide), hescape tail]
    simp only [bind, Except.bind, hskip]
    cases stringBody.go 0 tail <;> rfl

/-- A printed string comes back as it is, whatever it holds. -/
theorem stringBody_escape (s rest : List Char) :
    stringBody (s.flatMap escapeChar ++ '"' :: rest) = .ok (s, rest) := by
  rw [stringBody]
  induction s with
  | nil => simp [stringBody.go]
  | cons c s ih =>
    rw [List.flatMap_cons, List.append_assoc, go_escapeChar, ih]
    rfl

theorem skipSpace_newline (level : Nat) (rest : List Char) :
    skipSpace ((Value.newline level).toList ++ rest) = skipSpace rest := by
  have hspaces : ∀ n, skipSpace (List.replicate n ' ' ++ rest) = skipSpace rest := by
    intro n
    induction n with
    | zero => rfl
    | succ n ih =>
      rw [List.replicate_succ, List.cons_append, skipSpace,
        List.dropWhile_cons_of_pos (by decide), ← skipSpace, ih]
  rw [Value.newline, String.toList_ofList, List.cons_append, skipSpace,
    List.dropWhile_cons_of_pos (by decide), ← skipSpace, hspaces]

theorem ends_newline (level : Nat) (rest : List Char) :
    Ends ((Value.newline level).toList ++ rest) := by
  rw [Value.newline, String.toList_ofList]
  rintro _ ⟨⟩
  exact Or.inr rfl

namespace Value

-- The printed texts as characters, piece by piece.

section Pieces

attribute [local simp] prettyAt prettyItems prettyFields

variable (level : Nat)

theorem toList_null : (prettyAt level null).toList = ['n', 'u', 'l', 'l'] := by
  rw [prettyAt]
  rfl

theorem toList_true : (prettyAt level (bool true)).toList = ['t', 'r', 'u', 'e'] := by
  rw [prettyAt]
  rfl

theorem toList_false : (prettyAt level (bool false)).toList = ['f', 'a', 'l', 's', 'e'] := by
  rw [prettyAt]
  rfl

theorem toList_number (n : Number) : (prettyAt level (number n)).toList = n.render.toList := by
  rw [prettyAt]

theorem toList_string (s : String) :
    (prettyAt level (string s)).toList = '"' :: (s.toList.flatMap escapeChar ++ ['"']) := by
  rw [prettyAt, quote, String.toList_ofList, quoteChars, List.cons_append]

theorem toList_array_nil : (prettyAt level (array [])).toList = ['[', ']'] := by
  rw [prettyAt]
  rfl

theorem toList_array_cons (item : Value) (rest : List Value) :
    (prettyAt level (array (item :: rest))).toList =
      '[' :: ((newline (level + 1)).toList ++ ((prettyAt (level + 1) item).toList ++
        ((prettyItems (level + 1) rest).toList ++ ((newline level).toList ++ [']'])))) := by
  simp

theorem toList_object_nil : (prettyAt level (object [])).toList = ['\x7b', '\x7d'] := by
  rw [prettyAt]
  rfl

/-- The text of a field: its key in quotes, a colon, a space and the value. -/
def fieldChars (key : String) (value : Value) : List Char :=
  '"' :: (key.toList.flatMap escapeChar ++ '"' :: ':' :: ' ' :: (prettyAt level value).toList)

theorem toList_object_cons (key : String) (value : Value) (rest : Fields) :
    (prettyAt level (object ((key, value) :: rest))).toList =
      '\x7b' :: ((newline (level + 1)).toList ++ (fieldChars (level + 1) key value ++
        ((prettyFields (level + 1) rest).toList ++ ((newline level).toList ++ ['\x7d'])))) := by
  simp [fieldChars, quote, quoteChars]

theorem toList_items_cons (item : Value) (rest : List Value) :
    (prettyItems level (item :: rest)).toList =
      ',' :: ((newline level).toList ++ ((prettyAt level item).toList ++
        (prettyItems level rest).toList)) := by
  simp

theorem toList_fields_cons (key : String) (value : Value) (rest : Fields) :
    (prettyFields level ((key, value) :: rest)).toList =
      ',' :: ((newline level).toList ++ (fieldChars level key value ++
        (prettyFields level rest).toList)) := by
  simp [fieldChars, quote, quoteChars]

end Pieces

/-- A printed value starts with a character that is neither a blank nor closes a list. -/
theorem exists_head (v : Value) (level : Nat) :
    ∃ c rest, (prettyAt level v).toList = c :: rest ∧ isSpace c = false ∧ c ≠ ']' := by
  cases v with
  | null => exact ⟨_, _, toList_null level, by decide⟩
  | bool b =>
    cases b with
    | true => exact ⟨_, _, toList_true level, by decide⟩
    | false => exact ⟨_, _, toList_false level, by decide⟩
  | string s => exact ⟨_, _, toList_string level s, by decide⟩
  | number n =>
    obtain ⟨c, rest, heq⟩ := List.exists_cons_of_ne_nil (render_ne_nil n)
    have hall := chars_render n (p := fun c => !isSpace c && c != ']')
      (fun c hc => by
        have hclose : c ≠ ']' := by rintro rfl; simp at hc
        simp [isSpace_of_isDigit hc, hclose]) (by decide)
    have hc := hall c (by rw [heq]; exact List.mem_cons_self)
    simp only [Bool.and_eq_true, Bool.not_eq_true', bne_iff_ne] at hc
    exact ⟨c, rest, (toList_number level n).trans heq, hc⟩
  | array items =>
    cases items with
    | nil => exact ⟨_, _, toList_array_nil level, by decide⟩
    | cons item rest => exact ⟨_, _, toList_array_cons level item rest, by decide⟩
  | object fields =>
    cases fields with
    | nil => exact ⟨_, _, toList_object_nil level, by decide⟩
    | cons field rest => exact ⟨_, _, toList_object_cons level field.1 field.2 rest, by decide⟩

/-- A printed value neither starts nor ends with a blank. -/
theorem trim_pretty (v : Value) : Text.trim v.pretty = v.pretty := by
  apply String.toList_inj.1
  rw [Text.trim, Text.toList_onChars, pretty]
  cases v with
  | null =>
    rw [toList_null]
    decide
  | bool b =>
    cases b with
    | true =>
      rw [toList_true]
      decide
    | false =>
      rw [toList_false]
      decide
  | string s =>
    rw [toList_string]
    exact Chars.trim_of_ends (by decide) (by decide)
  | number n =>
    rw [toList_number]
    refine Chars.trim_of_forall fun c hc => ?_
    have hall := chars_render n (p := fun c => !Chars.isBlank c)
      (fun c hc => by simp [Chars.isBlank_of_isDigit hc]) (by decide)
    simpa using hall c hc
  | array items =>
    cases items with
    | nil =>
      rw [toList_array_nil]
      decide
    | cons item rest =>
      rw [toList_array_cons]
      simp only [← List.append_assoc]
      exact Chars.trim_of_ends (by decide) (by decide)
  | object fields =>
    cases fields with
    | nil =>
      rw [toList_object_nil]
      decide
    | cons field rest =>
      rw [toList_object_cons]
      simp only [← List.append_assoc]
      exact Chars.trim_of_ends (by decide) (by decide)

theorem ends_items (level : Nat) (rest : List Value) (tail : List Char) :
    Ends ((prettyItems (level + 1) rest).toList ++ ((newline level).toList ++ tail)) := by
  cases rest with
  | nil =>
    rw [prettyItems]
    exact ends_newline level tail
  | cons item rest =>
    rw [toList_items_cons]
    rintro _ ⟨⟩
    exact Or.inl rfl

theorem ends_fields (level : Nat) (rest : Fields) (tail : List Char) :
    Ends ((prettyFields (level + 1) rest).toList ++ ((newline level).toList ++ tail)) := by
  cases rest with
  | nil =>
    rw [prettyFields]
    exact ends_newline level tail
  | cons field rest =>
    rw [toList_fields_cons]
    rintro _ ⟨⟩
    exact Or.inl rfl

mutual

/-- What the text of a value reads as, or nothing if it is refused. Only its numbers can come back
as something else. -/
def again? : Value → Option Value
  | number n => n.again?
  | array items => (againItems? items).map array
  | object fields => (againFields? fields).map object
  | null => some null
  | bool b => some (bool b)
  | string s => some (string s)

def againItems? : List Value → Option (List Value)
  | [] => some []
  | item :: rest => (again? item).bind fun item => (againItems? rest).map (item :: ·)

def againFields? : List (String × Value) → Option (List (String × Value))
  | [] => some []
  | (key, value) :: rest =>
    (again? value).bind fun value => (againFields? rest).map ((key, value) :: ·)

end

mutual

theorem again?_of_exact : ∀ v : Value, v.Exact → v.again? = some v
  | null, _ | bool _, _ | string _, _ => by rw [again?]
  | number n, h => by
    rw [again?]
    exact Number.Exact.again? h
  | array items, h => by
    rw [Exact] at h
    rw [again?, againItems?_of_exact items h, Option.map_some]
  | object fields, h => by
    rw [Exact] at h
    rw [again?, againFields?_of_exact fields h.2, Option.map_some]

theorem againItems?_of_exact : ∀ items : List Value, ExactItems items →
    againItems? items = some items
  | [], _ => rfl
  | item :: rest, h => by
    rw [ExactItems] at h
    rw [againItems?, again?_of_exact item h.1, againItems?_of_exact rest h.2]
    rfl

theorem againFields?_of_exact : ∀ fields : List (String × Value), ExactFields fields →
    againFields? fields = some fields
  | [], _ => rfl
  | (key, v) :: rest, h => by
    rw [ExactFields] at h
    rw [againFields?, again?_of_exact v h.1, againFields?_of_exact rest h.2]
    rfl

end

theorem toOption_bind {α β : Type} (x : Reading α) (f : α → Reading β) :
    (x >>= f).toOption = x.toOption.bind fun a => (f a).toOption := by
  cases x <;> rfl

theorem toOption_map {α β : Type} (f : α → β) (x : Reading α) :
    (x.map f).toOption = x.toOption.map f := by
  cases x <;> rfl

theorem field_fieldChars {level depth : Nat} (key : String) {v : Value} {rest : List Char}
    (hv : (value depth ((prettyAt level v).toList ++ rest)).toOption =
      v.again?.map fun v => (v, rest)) :
    ∃ others, fieldChars level key v ++ rest = '"' :: others ∧
      (field (value depth) others).toOption = v.again?.map fun v => ((key, v), rest) := by
  refine ⟨key.toList.flatMap escapeChar ++
    '"' :: (':' :: ' ' :: ((prettyAt level v).toList ++ rest)), by simp [fieldChars], ?_⟩
  have hspace : value depth (' ' :: ((prettyAt level v).toList ++ rest)) =
      value depth ((prettyAt level v).toList ++ rest) := by
    rw [value.eq_def, value.eq_def]
    rfl
  rw [field, stringBody_escape]
  simp only [bind, Except.bind, skipSpace_cons (c := ':') (by decide), hspace]
  cases hresult : value depth ((prettyAt level v).toList ++ rest) with
  | error fault =>
    rw [hresult] at hv
    cases hagain : v.again? with
    | none => rfl
    | some w => rw [hagain] at hv; cases hv
  | ok result =>
    rw [hresult] at hv
    cases hagain : v.again? with
    | none => rw [hagain] at hv; cases hv
    | some w =>
      rw [hagain] at hv
      obtain rfl := Option.some.inj hv
      simp only [String.ofList_toList]
      rfl

theorem length_le_items (level : Nat) (items : List Value) :
    items.length ≤ (prettyItems level items).toList.length := by
  induction items with
  | nil => exact Nat.zero_le _
  | cons item rest ih =>
    rw [toList_items_cons]
    simp only [List.length_cons, List.length_append]
    omega

theorem length_le_fields (level : Nat) (fields : Fields) :
    fields.length ≤ (prettyFields level fields).toList.length := by
  induction fields with
  | nil => exact Nat.zero_le _
  | cons field rest ih =>
    rw [toList_fields_cons]
    simp only [List.length_cons, List.length_append]
    omega

/-- The items of a list are read once its first item is, and the items after that. -/
theorem items_of_first (level : Nat) {depth : Nat} {item : Value} (others : List Value)
    {tail : List Char}
    (hitem : ∀ rest, Ends rest → (value depth ((prettyAt (level + 1) item).toList ++ rest)).toOption =
      item.again?.map fun item => (item, rest))
    (hothers : ∀ fuel, others.length < fuel →
      (moreItems (value depth) fuel ((prettyItems (level + 1) others).toList ++
        ((newline level).toList ++ ']' :: tail))).toOption =
          (againItems? others).map fun others => (others, tail)) :
    (items (value depth) ((newline (level + 1)).toList ++ ((prettyAt (level + 1) item).toList ++
      ((prettyItems (level + 1) others).toList ++ ((newline level).toList ++ ']' :: tail))))).toOption =
        (againItems? (item :: others)).map fun items => (items, tail) := by
  have hread := hitem _ (ends_items level others (']' :: tail))
  have hmore := hothers (((prettyItems (level + 1) others).toList ++
    ((newline level).toList ++ ']' :: tail)).length.succ) (by
      have := length_le_items (level + 1) others
      simp only [List.length_append]
      omega)
  obtain ⟨c, rest, heq, hspace, hclose⟩ := exists_head item (level + 1)
  rw [heq, List.cons_append] at hread ⊢
  rw [items, skipSpace_newline, skipSpace_cons hspace]
  split
  case h_1 hnil => cases hnil
  case h_2 hcons => exact absurd (List.cons.inj hcons).1 hclose
  case h_3 =>
    rw [toOption_bind, hread, againItems?]
    cases item.again? with
    | none => rfl
    | some item =>
      simp only [Option.map_some, Option.bind_some]
      rw [toOption_bind, hmore]
      cases againItems? others <;> rfl

theorem moreItems_of_first {level depth fuel : Nat} {item : Value} {others : List Value}
    {tail : List Char}
    (hitem : ∀ rest, Ends rest → (value depth ((prettyAt (level + 1) item).toList ++ rest)).toOption =
      item.again?.map fun item => (item, rest))
    (hothers : (moreItems (value depth) fuel ((prettyItems (level + 1) others).toList ++
      ((newline level).toList ++ ']' :: tail))).toOption =
        (againItems? others).map fun others => (others, tail)) :
    (moreItems (value depth) (fuel + 1) ((prettyItems (level + 1) (item :: others)).toList ++
      ((newline level).toList ++ ']' :: tail))).toOption =
        (againItems? (item :: others)).map fun items => (items, tail) := by
  have hread := hitem _ (ends_items level others (']' :: tail))
  obtain ⟨c, rest, heq, hspace, hclose⟩ := exists_head item (level + 1)
  rw [heq, List.cons_append] at hread
  rw [toList_items_cons, heq, moreItems]
  simp only [List.cons_append, List.append_assoc, skipSpace_cons (c := ',') (by decide),
    skipSpace_newline, skipSpace_cons hspace, beq_iff_eq, hclose, if_false]
  rw [toOption_bind, hread, againItems?]
  cases item.again? with
  | none => rfl
  | some item =>
    simp only [Option.map_some, Option.bind_some]
    rw [toOption_bind, hothers]
    cases againItems? others <;> rfl

theorem fields_of_first (level : Nat) {depth : Nat} (key : String) {v : Value} (others : Fields)
    {tail : List Char}
    (hv : ∀ rest, Ends rest → (value depth ((prettyAt (level + 1) v).toList ++ rest)).toOption =
      v.again?.map fun v => (v, rest))
    (hothers : ∀ fuel, others.length < fuel →
      (moreFields (value depth) fuel ((prettyFields (level + 1) others).toList ++
        ((newline level).toList ++ '\x7d' :: tail))).toOption =
          (againFields? others).map fun others => (others, tail)) :
    (fields (value depth) ((newline (level + 1)).toList ++ (fieldChars (level + 1) key v ++
      ((prettyFields (level + 1) others).toList ++ ((newline level).toList ++ '\x7d' :: tail))))).toOption =
        (againFields? ((key, v) :: others)).map fun fields => (fields, tail) := by
  have hmore := hothers (((prettyFields (level + 1) others).toList ++
    ((newline level).toList ++ '\x7d' :: tail)).length.succ) (by
      have := length_le_fields (level + 1) others
      simp only [List.length_append]
      omega)
  obtain ⟨rest, heq, hread⟩ :=
    field_fieldChars key (hv _ (ends_fields level others ('\x7d' :: tail)))
  rw [fields, skipSpace_newline, heq, skipSpace_cons (by decide)]
  simp only
  rw [toOption_bind, hread, againFields?]
  cases v.again? with
  | none => rfl
  | some v =>
    simp only [Option.map_some, Option.bind_some]
    rw [toOption_bind, hmore]
    cases againFields? others <;> rfl

theorem moreFields_of_first {level depth fuel : Nat} {key : String} {v : Value} {others : Fields}
    {tail : List Char}
    (hv : ∀ rest, Ends rest → (value depth ((prettyAt (level + 1) v).toList ++ rest)).toOption =
      v.again?.map fun v => (v, rest))
    (hothers : (moreFields (value depth) fuel ((prettyFields (level + 1) others).toList ++
      ((newline level).toList ++ '\x7d' :: tail))).toOption =
        (againFields? others).map fun others => (others, tail)) :
    (moreFields (value depth) (fuel + 1) ((prettyFields (level + 1) ((key, v) :: others)).toList ++
      ((newline level).toList ++ '\x7d' :: tail))).toOption =
        (againFields? ((key, v) :: others)).map fun fields => (fields, tail) := by
  obtain ⟨rest, heq, hread⟩ :=
    field_fieldChars key (hv _ (ends_fields level others ('\x7d' :: tail)))
  rw [toList_fields_cons, moreFields]
  simp only [List.cons_append, List.append_assoc, skipSpace_cons (c := ',') (by decide),
    skipSpace_newline, heq, skipSpace_cons (c := '"') (by decide)]
  rw [toOption_bind, hread, againFields?]
  cases v.again? with
  | none => rfl
  | some v =>
    simp only [Option.map_some, Option.bind_some]
    rw [toOption_bind, hothers]
    cases againFields? others <;> rfl

/-- How a list or an object is read once what is inside it has been. -/
theorem toOption_wrap {α : Type} (wrap : α → Value) {x : Reading (α × List Char)}
    {outcome : Option α} {rest : List Char} (h : x.toOption = outcome.map fun a => (a, rest)) :
    (x >>= fun (a, rest) => .ok (wrap a, rest)).toOption =
      (outcome.map wrap).map fun v => (v, rest) := by
  rw [toOption_bind, h]
  cases outcome <;> rfl

mutual

/-- The text of a value that nests less deep than the reader goes is read to its end. -/
theorem value_prettyAt : ∀ (v : Value) (level depth : Nat), v.height < depth → ∀ rest, Ends rest →
    (value depth ((prettyAt level v).toList ++ rest)).toOption = v.again?.map fun v => (v, rest)
  | null, level, depth, _, rest, _ => by
    rw [toList_null, value.eq_def]
    rfl
  | bool true, level, depth, _, rest, _ => by
    rw [toList_true, value.eq_def]
    rfl
  | bool false, level, depth, _, rest, _ => by
    rw [toList_false, value.eq_def]
    rfl
  | number n, level, depth, _, rest, hrest => by
    rw [toList_number, again?]
    exact value_render n depth hrest
  | string s, level, depth, _, rest, _ => by
    have hread := stringBody_escape s.toList rest
    rw [toList_string, value.eq_def]
    simp only [List.cons_append, List.append_assoc, List.nil_append,
      skipSpace_cons (c := '"') (by decide), hread, bind, Except.bind, String.ofList_toList]
    rfl
  | array [], level, depth, hdepth, rest, _ => by
    obtain ⟨d, rfl⟩ : ∃ d, depth = d + 2 :=
      ⟨depth - 2, by rw [height, heightItems] at hdepth; omega⟩
    rw [toList_array_nil, value.eq_def]
    rfl
  | array (item :: others), level, depth, hdepth, rest, _ => by
    rw [height, heightItems] at hdepth
    obtain ⟨d, rfl⟩ : ∃ d, depth = d + 2 := ⟨depth - 2, by omega⟩
    have hread := items_of_first level others
      (fun rest => value_prettyAt item (level + 1) (d + 1) (by omega) rest)
      fun fuel => moreItems_prettyItems others level (d + 1) (by omega) fuel rest
    rw [toList_array_cons, value.eq_def, again?]
    simp only [List.cons_append, List.append_assoc, List.nil_append,
      skipSpace_cons (c := '[') (by decide)]
    exact toOption_wrap array hread
  | object [], level, depth, hdepth, rest, _ => by
    obtain ⟨d, rfl⟩ : ∃ d, depth = d + 2 :=
      ⟨depth - 2, by rw [height, heightFields] at hdepth; omega⟩
    rw [toList_object_nil, value.eq_def]
    rfl
  | object ((key, v) :: others), level, depth, hdepth, rest, _ => by
    rw [height, heightFields] at hdepth
    obtain ⟨d, rfl⟩ : ∃ d, depth = d + 2 := ⟨depth - 2, by omega⟩
    have hread := fields_of_first level key others
      (fun rest => value_prettyAt v (level + 1) (d + 1) (by omega) rest)
      fun fuel => moreFields_prettyFields others level (d + 1) (by omega) fuel rest
    rw [toList_object_cons, value.eq_def, again?]
    simp only [List.cons_append, List.append_assoc, List.nil_append,
      skipSpace_cons (c := '\x7b') (by decide)]
    exact toOption_wrap object hread

theorem moreItems_prettyItems : ∀ (items : List Value) (level depth : Nat),
    heightItems items < depth → ∀ fuel tail, items.length < fuel →
      (moreItems (value depth) fuel ((prettyItems (level + 1) items).toList ++
        ((newline level).toList ++ ']' :: tail))).toOption =
          (againItems? items).map fun items => (items, tail)
  | [], level, depth, _, fuel, tail, hfuel => by
    obtain ⟨fuel, rfl⟩ : ∃ f, fuel = f + 1 := ⟨fuel - 1, by rw [List.length_nil] at hfuel; omega⟩
    rw [prettyItems, moreItems]
    simp only [String.toList_empty, List.nil_append, skipSpace_newline,
      skipSpace_cons (c := ']') (by decide)]
    rfl
  | item :: others, level, depth, hdepth, fuel, tail, hfuel => by
    rw [heightItems] at hdepth
    rw [List.length_cons] at hfuel
    obtain ⟨fuel, rfl⟩ : ∃ f, fuel = f + 1 := ⟨fuel - 1, by omega⟩
    exact moreItems_of_first
      (fun rest => value_prettyAt item (level + 1) depth (by omega) rest)
      (moreItems_prettyItems others level depth (by omega) fuel tail (by omega))

theorem moreFields_prettyFields : ∀ (fields : List (String × Value)) (level depth : Nat),
    heightFields fields < depth → ∀ fuel tail, fields.length < fuel →
      (moreFields (value depth) fuel ((prettyFields (level + 1) fields).toList ++
        ((newline level).toList ++ '\x7d' :: tail))).toOption =
          (againFields? fields).map fun fields => (fields, tail)
  | [], level, depth, _, fuel, tail, hfuel => by
    obtain ⟨fuel, rfl⟩ : ∃ f, fuel = f + 1 := ⟨fuel - 1, by rw [List.length_nil] at hfuel; omega⟩
    rw [prettyFields, moreFields]
    simp only [String.toList_empty, List.nil_append, skipSpace_newline,
      skipSpace_cons (c := '\x7d') (by decide)]
    rfl
  | (key, v) :: others, level, depth, hdepth, fuel, tail, hfuel => by
    rw [heightFields] at hdepth
    rw [List.length_cons] at hfuel
    obtain ⟨fuel, rfl⟩ : ∃ f, fuel = f + 1 := ⟨fuel - 1, by omega⟩
    exact moreFields_of_first
      (fun rest => value_prettyAt v (level + 1) depth (by omega) rest)
      (moreFields_prettyFields others level depth (by omega) fuel tail (by omega))

end

/-- A text that holds a value, perhaps on lines of its own, reads as what the value comes back as. -/
theorem toOption_readRaw_pretty {v : Value} (hheight : v.height < depthLimit)
    {before after : String} (hbefore : before = "" ∨ before = "\n")
    (hafter : after = "" ∨ after = "\n") :
    (readRaw (before ++ v.pretty ++ after)).toOption = v.again? := by
  have hends : Ends after.toList := by
    rcases hafter with rfl | rfl
    · exact .nil
    · rintro _ ⟨⟩
      exact Or.inr rfl
  have hspace : skipSpace after.toList = [] := by
    rcases hafter with rfl | rfl <;> decide
  have hread := value_prettyAt v 0 depthLimit hheight _ hends
  have hstart : value depthLimit (before.toList ++ ((prettyAt 0 v).toList ++ after.toList)) =
      value depthLimit ((prettyAt 0 v).toList ++ after.toList) := by
    rcases hbefore with rfl | rfl
    · rfl
    · rw [value.eq_def, value.eq_def]
      rfl
  rw [readRaw, pretty, String.toList_append, String.toList_append, List.append_assoc, hstart,
    toOption_bind, hread]
  cases v.again? with
  | none => rfl
  | some w => simp [hspace, Except.toOption]

theorem eq_ok_of_toOption {α : Type} {x : Reading α} {a : α} (h : x.toOption = some a) :
    x = .ok a := by
  cases x with
  | error fault => cases h
  | ok b => exact congrArg Except.ok (Option.some.inj h)

/-- A text that holds an exact value reads as that value. -/
theorem readRaw_pretty {v : Value} (h : v.Exact) (hheight : v.height < depthLimit)
    {before after : String} (hbefore : before = "" ∨ before = "\n")
    (hafter : after = "" ∨ after = "\n") : readRaw (before ++ v.pretty ++ after) = .ok v :=
  eq_ok_of_toOption ((toOption_readRaw_pretty hheight hbefore hafter).trans (again?_of_exact v h))

theorem read_pretty {v : Value} (h : v.Exact) (hheight : v.height < depthLimit)
    {before after : String} (hbefore : before = "" ∨ before = "\n")
    (hafter : after = "" ∨ after = "\n") : read (before ++ v.pretty ++ after) = .ok v := by
  rw [read, readRaw_pretty h hheight hbefore hafter, Except.map, settle_of_exact v h]

end Value

end ThemeSection.Json
