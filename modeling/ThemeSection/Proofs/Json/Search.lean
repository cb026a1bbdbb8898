import ThemeSection.Proofs.Chars.Search
import ThemeSection.Proofs.Json.RoundTrip

/-!
What occurs in printed JSON. A tag of the template language occurs in the text of a value exactly if
it occurs in one of its strings or keys: nothing of such a tag is escaped, and the printer writes
none of its own.
-/

namespace ThemeSection.Json

mutual

/-- Whether a text occurs in a string or a key of a value. -/
def Value.mentions (needle : List Char) : Value → Bool
  | null | bool _ | number _ => false
  | string s => Chars.contains needle s.toList
  | array items => mentionsItems needle items
  | object fields => mentionsFields needle fields

def Value.mentionsItems (needle : List Char) : List Value → Bool
  | [] => false
  | item :: rest => mentions needle item || mentionsItems needle rest

def Value.mentionsFields (needle : List Char) : List (String × Value) → Bool
  | [] => false
  | (key, value) :: rest =>
    Chars.contains needle key.toList || mentions needle value || mentionsFields needle rest

end

/-- A tag of the template language, as far as JSON is concerned: it opens as tags do, and none of
its characters is escaped. -/
structure IsTag (needle : List Char) : Prop where
  opening : ['\x7b', '%'] <+: needle
  plain : ∀ c ∈ needle, escapeChar c = [c]

section

variable {needle : List Char}

theorem ne_of_escapeChar_eq {c : Char} (h : escapeChar c = [c]) :
    c ≠ '"' ∧ c ≠ '\\' ∧ c ≠ '\n' := by
  refine ⟨?_, ?_, ?_⟩ <;> rintro rfl <;> exact absurd h (by decide)

theorem IsTag.not_start (h : IsTag needle) {c d : Char} {s : List Char}
    (hcd : c ≠ '\x7b' ∨ d ≠ '%') : ¬ needle <+: c :: d :: s := by
  intro hstart
  have hopening := h.opening.trans hstart
  simp only [List.cons_prefix_cons] at hopening
  obtain ⟨rfl, rfl, -⟩ := hopening
  simp at hcd

theorem IsTag.not_start_of_ne (h : IsTag needle) {c : Char} {s : List Char} (hc : c ≠ '\x7b') :
    ¬ needle <+: c :: s := by
  intro hstart
  exact hc (List.cons_prefix_cons.1 (h.opening.trans hstart)).1.symm

/-- A tag does not occur in a piece without braces, nor across its end. -/
theorem IsTag.contains_append (h : IsTag needle) {a : List Char} (ha : '\x7b' ∉ a)
    (b : List Char) : Chars.contains needle (a ++ b) = Chars.contains needle b := by
  obtain ⟨rest, rfl⟩ := h.opening
  exact Chars.contains_append_left ha

theorem IsTag.contains_cons (h : IsTag needle) {c : Char} (hc : c ≠ '\x7b') (s : List Char) :
    Chars.contains needle (c :: s) = Chars.contains needle s :=
  Chars.contains_cons_of_not_start (h.not_start_of_ne hc)

theorem prefix_escape_iff (hplain : ∀ c ∈ needle, escapeChar c = [c]) {s : List Char} :
    needle <+: s.flatMap escapeChar ↔ needle <+: s := by
  induction needle generalizing s with
  | nil => simp
  | cons c needle ih =>
    obtain ⟨hc, hneedle⟩ := List.forall_mem_cons.1 hplain
    cases s with
    | nil => rfl
    | cons d s =>
      rw [List.flatMap_cons, List.cons_prefix_cons]
      rcases escapeChar_cases d with ⟨heq, -⟩ | ⟨letter, digits, heq, -⟩
      · rw [heq, List.singleton_append, List.cons_prefix_cons, ih hneedle]
      · rw [heq, List.cons_append, List.cons_prefix_cons]
        constructor
        · rintro ⟨rfl, -⟩
          exact absurd rfl (ne_of_escapeChar_eq hc).2.1
        · rintro ⟨rfl, -⟩
          simp [heq] at hc

/-- A tag occurs in a string exactly if it occurs in the printed string. -/
theorem IsTag.contains_escape (h : IsTag needle) (s : List Char) :
    Chars.contains needle (s.flatMap escapeChar) = Chars.contains needle s := by
  induction s with
  | nil => rfl
  | cons d s ih =>
    have hstart : needle <+: (d :: s).flatMap escapeChar ↔ needle <+: d :: s :=
      prefix_escape_iff h.plain
    rw [List.flatMap_cons] at hstart ⊢
    rcases escapeChar_cases d with ⟨heq, -⟩ | ⟨letter, digits, heq, hbody, -⟩
    · rw [heq, List.singleton_append] at hstart ⊢
      by_cases hs : needle <+: d :: s
      · rw [Chars.contains_iff.2 hs.isInfix, Chars.contains_iff.2 (hstart.2 hs).isInfix]
      · rw [Chars.contains_cons_of_not_start hs,
          Chars.contains_cons_of_not_start fun he => hs (hstart.1 he), ih]
    · have hd : d ≠ '\x7b' := by
        rintro rfl
        simp [escapeChar] at heq
      have hescape : '\x7b' ∉ '\\' :: letter :: digits := by simpa using hbody.braces
      rw [heq, h.contains_append hescape, ih,
        h.contains_cons hd]

theorem IsTag.contains_quoted (h : IsTag needle) (s rest : List Char) :
    Chars.contains needle ('"' :: (s.flatMap escapeChar ++ '"' :: rest)) =
      (Chars.contains needle s || Chars.contains needle rest) := by
  have hquote : '"' ∉ needle := fun hmem => (ne_of_escapeChar_eq (h.plain _ hmem)).1 rfl
  rw [h.contains_cons (by decide), Chars.contains_append_cons hquote, h.contains_escape]

theorem IsTag.contains_newline (h : IsTag needle) (level : Nat) (rest : List Char) :
    Chars.contains needle ((Value.newline level).toList ++ rest) = Chars.contains needle rest := by
  refine h.contains_append ?_ rest
  rw [Value.newline, String.toList_ofList]
  simp

/-- The brace that opens an object on a line of its own opens no tag. -/
theorem IsTag.contains_open (h : IsTag needle) (level : Nat) (rest : List Char) :
    Chars.contains needle ('\x7b' :: ((Value.newline level).toList ++ rest)) =
      Chars.contains needle rest := by
  rw [← h.contains_newline level rest, Value.newline, String.toList_ofList, List.cons_append]
  exact Chars.contains_cons_of_not_start (h.not_start (Or.inr (by decide)))

theorem IsTag.contains_field (h : IsTag needle) (level : Nat) (key : String) (v : Value)
    (rest : List Char) :
    Chars.contains needle (Value.fieldChars level key v ++ rest) =
      (Chars.contains needle key.toList ||
        Chars.contains needle ((v.prettyAt level).toList ++ rest)) := by
  have hfield : Value.fieldChars level key v ++ rest = '"' :: (key.toList.flatMap escapeChar ++
      '"' :: ':' :: ' ' :: ((v.prettyAt level).toList ++ rest)) := by
    simp [Value.fieldChars]
  rw [hfield, h.contains_quoted, h.contains_cons (by decide), h.contains_cons (by decide)]

theorem not_mem_render (n : Number) : '\x7b' ∉ n.render.toList := by
  intro hmem
  have hall := chars_render n (p := (· != '\x7b'))
    (fun c hc => by
      rw [bne_iff_ne]
      rintro rfl
      simp at hc) (by decide)
  exact absurd rfl (bne_iff_ne.1 (hall _ hmem))

namespace Value

mutual

/-- A tag occurs in a printed value, or in what follows, exactly if a string or a key holds it. -/
theorem contains_prettyAt (h : IsTag needle) : ∀ (v : Value) (level : Nat) (rest : List Char),
    Chars.contains needle ((prettyAt level v).toList ++ rest) =
      (v.mentions needle || Chars.contains needle rest)
  | null, level, rest => by
    rw [toList_null, mentions, Bool.false_or]
    exact h.contains_append (by decide) rest
  | bool true, level, rest => by
    rw [toList_true, mentions, Bool.false_or]
    exact h.contains_append (by decide) rest
  | bool false, level, rest => by
    rw [toList_false, mentions, Bool.false_or]
    exact h.contains_append (by decide) rest
  | number n, level, rest => by
    rw [toList_number, mentions, Bool.false_or]
    exact h.contains_append (not_mem_render n) rest
  | string s, level, rest => by
    rw [toList_string, mentions, List.cons_append, List.append_assoc]
    exact h.contains_quoted s.toList rest
  | array [], level, rest => by
    rw [toList_array_nil, mentions, mentionsItems, Bool.false_or]
    exact h.contains_append (by decide) rest
  | array (item :: others), level, rest => by
    rw [toList_array_cons, mentions, mentionsItems]
    simp only [List.cons_append, List.append_assoc]
    rw [h.contains_cons (by decide), h.contains_newline,
      contains_prettyAt h item (level + 1), contains_prettyItems h others (level + 1),
      h.contains_newline, List.nil_append, h.contains_cons (by decide), Bool.or_assoc]
  | object [], level, rest => by
    rw [toList_object_nil, mentions, mentionsFields, Bool.false_or, List.cons_append,
      List.cons_append, List.nil_append,
      Chars.contains_cons_of_not_start (h.not_start (Or.inr (by decide)))]
    exact h.contains_cons (by decide) rest
  | object ((key, v) :: others), level, rest => by
    rw [toList_object_cons, mentions, mentionsFields]
    simp only [List.cons_append, List.append_assoc]
    rw [h.contains_open, h.contains_field, contains_prettyAt h v (level + 1),
      contains_prettyFields h others (level + 1), h.contains_newline, List.nil_append,
      h.contains_cons (by decide), Bool.or_assoc, Bool.or_assoc]

theorem contains_prettyItems (h : IsTag needle) : ∀ (items : List Value) (level : Nat)
    (rest : List Char), Chars.contains needle ((prettyItems level items).toList ++ rest) =
      (mentionsItems needle items || Chars.contains needle rest)
  | [], level, rest => by
    rw [prettyItems, mentionsItems, Bool.false_or]
    rfl
  | item :: others, level, rest => by
    rw [toList_items_cons, mentionsItems]
    simp only [List.cons_append, List.append_assoc]
    rw [h.contains_cons (by decide), h.contains_newline, contains_prettyAt h item level,
      contains_prettyItems h others level, Bool.or_assoc]

theorem contains_prettyFields (h : IsTag needle) : ∀ (fields : List (String × Value)) (level : Nat)
    (rest : List Char), Chars.contains needle ((prettyFields level fields).toList ++ rest) =
      (mentionsFields needle fields || Chars.contains needle rest)
  | [], level, rest => by
    rw [prettyFields, mentionsFields, Bool.false_or]
    rfl
  | (key, v) :: others, level, rest => by
    rw [toList_fields_cons, mentionsFields]
    simp only [List.cons_append, List.append_assoc]
    rw [h.contains_cons (by decide), h.contains_newline, h.contains_field,
      contains_prettyAt h v level, contains_prettyFields h others level,
      Bool.or_assoc, Bool.or_assoc]

end

/-- A tag occurs in a printed value exactly if it occurs in one of its strings or keys. -/
theorem contains_pretty (h : IsTag needle) (v : Value) :
    Chars.contains needle v.pretty.toList = v.mentions needle := by
  have hrest := contains_prettyAt h v 0 []
  have hnil : Chars.contains needle [] = false := by
    obtain ⟨rest, rfl⟩ := h.opening
    rfl
  rwa [hnil, Bool.or_false, List.append_nil] at hrest

end Value

end

end ThemeSection.Json
