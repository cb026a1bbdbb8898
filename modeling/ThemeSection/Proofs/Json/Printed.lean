import ThemeSection.Proofs.Json.RoundTrip
import ThemeSection.Proofs.Json.Scan

/-!
Where the parts of printed JSON stand. A printed value closes the strings that it opens and writes
only plain characters between them, so a text that is cut off within one of its strings is no JSON.
-/

namespace ThemeSection.Json

theorem scan_escapeChar (c : Char) : Mode.inside.scan (escapeChar c) = some .inside := by
  rcases escapeChar_cases c with ⟨heq, hquote, hslash, hcontrol⟩ | ⟨letter, digits, heq, -, hescape⟩
  · rw [heq, Mode.scan_cons]
    simp [Mode.step, hquote, hslash, hcontrol, Mode.scan]
  · -- An escape that can be read leaves the string open.
    obtain ⟨body, rest, hbody, hlength, hscan, -⟩ := exists_of_escape (hescape [])
    rw [List.append_nil] at hbody
    have hrest : rest = [] := by
      have hsum := congrArg List.length hbody
      simp only [List.length_append, List.length_cons] at hsum
      exact List.eq_nil_of_length_eq_zero (by omega)
    rw [hrest, List.append_nil] at hbody
    rw [heq, hbody]
    exact Mode.scan_cons_eq_some_iff.2 ⟨_, rfl, hscan⟩

theorem scan_escape (s : List Char) : Mode.inside.scan (s.flatMap escapeChar) = some .inside := by
  induction s with
  | nil => rfl
  | cons c s ih =>
    rw [List.flatMap_cons]
    exact Mode.scan_append_eq_some_iff.2 ⟨_, scan_escapeChar c, ih⟩

/-- A printed string stands outside strings again at its end. -/
theorem lexed_quoted (s : List Char) {rest : List Char} (h : Lexed rest) :
    Lexed ('"' :: (s.flatMap escapeChar ++ '"' :: rest)) :=
  Mode.scan_cons_eq_some_iff.2 ⟨_, rfl, Mode.scan_append_eq_some_iff.2
    ⟨_, scan_escape s, Mode.scan_cons_eq_some_iff.2 ⟨_, rfl, h⟩⟩⟩

theorem lexed_append {a b : List Char} (ha : Lexed a) (hb : Lexed b) : Lexed (a ++ b) :=
  Mode.scan_append_eq_some_iff.2 ⟨_, ha, hb⟩

theorem lexed_cons {c : Char} {s : List Char} (hc : isPlain c) (h : Lexed s) : Lexed (c :: s) :=
  Mode.scan_cons_eq_some_iff.2 ⟨_, step_of_isPlain hc, h⟩

theorem lexed_of_forall {s : List Char} (h : ∀ c ∈ s, isPlain c) : Lexed s :=
  Mode.scan_of_forall fun c hc => step_of_isPlain (h c hc)

theorem lexed_newline (level : Nat) : Lexed (Value.newline level).toList := by
  rw [Value.newline, String.toList_ofList]
  refine lexed_of_forall fun c hc => ?_
  rcases List.mem_cons.1 hc with rfl | hc
  · decide
  · rw [List.eq_of_mem_replicate hc]
    decide

theorem lexed_render (n : Number) : Lexed n.render.toList :=
  lexed_of_forall (chars_render n (fun _ => isPlain_of_isDigit) (by decide))

namespace Value

theorem lexed_fieldChars {level : Nat} (key : String) {v : Value}
    (h : Lexed (prettyAt level v).toList) : Lexed (fieldChars level key v) :=
  lexed_quoted key.toList (lexed_cons (by decide) (lexed_cons (by decide) h))

mutual

theorem lexed_prettyAt : ∀ (v : Value) (level : Nat), Lexed (prettyAt level v).toList
  | null, level => by
    rw [toList_null]
    decide
  | bool true, level => by
    rw [toList_true]
    decide
  | bool false, level => by
    rw [toList_false]
    decide
  | number n, level => by
    rw [toList_number]
    exact lexed_render n
  | string s, level => by
    rw [toList_string]
    exact lexed_quoted s.toList rfl
  | array [], level => by
    rw [toList_array_nil]
    decide
  | array (item :: others), level => by
    rw [toList_array_cons]
    refine lexed_cons (by decide) (lexed_append (lexed_newline _) ?_)
    refine lexed_append (lexed_prettyAt item _) (lexed_append (lexed_prettyItems others _) ?_)
    exact lexed_append (lexed_newline level) (by decide)
  | object [], level => by
    rw [toList_object_nil]
    decide
  | object ((key, v) :: others), level => by
    rw [toList_object_cons]
    refine lexed_cons (by decide) (lexed_append (lexed_newline _) ?_)
    refine lexed_append (lexed_fieldChars key (lexed_prettyAt v _)) ?_
    refine lexed_append (lexed_prettyFields others _) ?_
    exact lexed_append (lexed_newline level) (by decide)

theorem lexed_prettyItems : ∀ (items : List Value) (level : Nat),
    Lexed (prettyItems level items).toList
  | [], level => by
    rw [prettyItems]
    decide
  | item :: others, level => by
    rw [toList_items_cons]
    refine lexed_cons (by decide) (lexed_append (lexed_newline level) ?_)
    exact lexed_append (lexed_prettyAt item level) (lexed_prettyItems others level)

theorem lexed_prettyFields : ∀ (fields : List (String × Value)) (level : Nat),
    Lexed (prettyFields level fields).toList
  | [], level => by
    rw [prettyFields]
    decide
  | (key, v) :: others, level => by
    rw [toList_fields_cons]
    refine lexed_cons (by decide) (lexed_append (lexed_newline level) ?_)
    exact lexed_append (lexed_fieldChars key (lexed_prettyAt v level))
      (lexed_prettyFields others level)

end

theorem lexed_pretty (v : Value) : Lexed v.pretty.toList :=
  lexed_prettyAt v 0

end Value

/-- Text right before a percent sign and a brace is cut off in a string, if the whole is JSON. -/
theorem not_lexed_of_append {s rest : List Char} (h : Lexed (s ++ '\x7b' :: '%' :: rest)) :
    ¬ Lexed s := by
  intro hs
  obtain ⟨next, hnext, htag⟩ := Mode.scan_append_eq_some_iff.1 h
  obtain rfl := Option.some.inj (hs.symm.trans hnext)
  obtain ⟨_, ⟨⟩, hpercent⟩ := Mode.scan_cons_eq_some_iff.1 htag
  have hnone : Mode.outside.step '%' = none := by decide
  obtain ⟨_, hstep, -⟩ := Mode.scan_cons_eq_some_iff.1 hpercent
  cases hnone.symm.trans hstep

end ThemeSection.Json
