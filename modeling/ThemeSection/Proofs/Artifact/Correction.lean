import ThemeSection.Artifact.Consistency
import ThemeSection.Proofs.Json.Tidy
import ThemeSection.Proofs.Text.Title

/-!
What enforcement corrects. A schema that carries the slug and a title, and a main section of the
slug's type whose blocks the schema defines, are left as they are; every other one becomes such a
one. They stay such when they are printed and read again.
-/

namespace ThemeSection.Artifact

open Json (Fields Value maxHeight)
open Json.Value (Reread Hereditary)

section

variable {field : Checked} {key expected : String} {holds : String → Bool} {fields others : Fields}

theorem textField_set (key text name : String) :
    textField (fields.set key (.string text)) name =
      if name = key then text else textField fields name := by
  rw [textField, Fields.get?_set]
  split <;> rfl

theorem textField_congr {name : String} (h : others.get? name = fields.get? name) :
    textField others name = textField fields name := by
  rw [textField, h, textField]

theorem textField_reread (h : Reread fields others) (name : String) :
    textField others name = textField fields name := by
  rw [textField, textField]
  have hrel := h.get? name
  generalize fields.get? name = x, others.get? name = y at hrel
  cases hrel with
  | none => rfl
  | some hagain => rw [Option.bind_some, Option.bind_some, Value.str?_of_again? hagain]

theorem correct_of_holds_actual (h : holds (textField fields key)) :
    correct field key expected holds fields = (fields, []) :=
  if_pos h

theorem correct_of_not_holds (h : ¬ holds (textField fields key)) :
    correct field key expected holds fields =
      (fields.set key (.string expected), [⟨field, expected, textField fields key⟩]) :=
  if_neg h

/-- A field holds what is expected of it once it is corrected. -/
theorem holds_correct (hexpected : holds expected) :
    holds (textField (correct field key expected holds fields).1 key) := by
  by_cases h : holds (textField fields key)
  · rw [correct_of_holds_actual h]
    exact h
  · rw [correct_of_not_holds h, textField_set, if_pos rfl]
    exact hexpected

/-- A field that is to name the slug does so once it is corrected. -/
theorem textField_correct_slug (field : Checked) (key slug : String) (fields : Fields) :
    textField (correct field key slug (· == slug) fields).1 key = slug :=
  eq_of_beq (@holds_correct field key slug (· == slug) fields (beq_self_eq_true slug))

theorem get?_correct_of_ne {name : String} (hname : name ≠ key) :
    (correct field key expected holds fields).1.get? name = fields.get? name := by
  by_cases h : holds (textField fields key)
  · rw [correct_of_holds_actual h]
  · rw [correct_of_not_holds h, Fields.get?_set, if_neg hname]

theorem textField_correct_of_ne {name : String} (hname : name ≠ key) :
    textField (correct field key expected holds fields).1 name = textField fields name :=
  textField_congr (get?_correct_of_ne hname)

theorem hereditary_correct {P : Nat → Value → Prop} (hP : Hereditary P) {n : Nat}
    (h : P n (.object fields)) : P n (.object (correct field key expected holds fields).1) := by
  obtain ⟨m, rfl⟩ := hP.exists_succ h
  by_cases hholds : holds (textField fields key)
  · rw [correct_of_holds_actual hholds]
    exact h
  · rw [correct_of_not_holds hholds]
    exact hP.set h (hP.string m expected) key

end

/-- Whether a schema carries the slug as its class, and a title. -/
def Named (slug : String) (fields : Fields) : Prop :=
  textField fields "class" = slug ∧ isTitle (textField fields "name")

/-- The title of a slug is one. -/
theorem isTitle_schemaTitle (fileName : String) :
    isTitle (Text.schemaTitle (Text.slug fileName)) := by
  obtain ⟨⟨-, first, rest, hchars, hblank⟩, hcount⟩ := Text.isTitleWord_schemaTitle fileName
  have hvisible : Text.isBlank (Text.schemaTitle (Text.slug fileName)) = false := by
    rw [Text.isBlank, hchars, List.all_cons, hblank, Bool.false_and]
  rw [isTitle, hvisible]
  simpa using hcount

section

variable {slug : String} {fields others : Fields}

theorem named_reread (h : Reread fields others) : Named slug others ↔ Named slug fields := by
  rw [Named, Named, textField_reread h, textField_reread h]

/-- The class is corrected first and the title after it. -/
theorem correctSchema_eq (slug : String) (fields : Fields) :
    let class' := correct .schemaType "class" slug (· == slug) fields
    let name' := correct .schemaName "name" (Text.schemaTitle slug) isTitle class'.1
    correctSchema slug fields = (name'.1, class'.2 ++ name'.2) := by
  intro class' name'
  rw [correctSchema]

theorem correctSchema_of_named (h : Named slug fields) : correctSchema slug fields = (fields, []) := by
  have hclass : correct .schemaType "class" slug (· == slug) fields = (fields, []) :=
    correct_of_holds_actual (by simpa using h.1)
  rw [correctSchema_eq, hclass, correct_of_holds_actual h.2]
  rfl

theorem named_correctSchema (htitle : isTitle (Text.schemaTitle slug)) :
    Named slug (correctSchema slug fields).1 := by
  rw [correctSchema_eq]
  refine ⟨?_, holds_correct htitle⟩
  rw [textField_correct_of_ne (by decide)]
  exact textField_correct_slug .schemaType "class" slug fields

/-- Nothing is reported exactly if the schema carries its names. -/
theorem correctSchema_eq_nil_iff : (correctSchema slug fields).2 = [] ↔ Named slug fields := by
  constructor
  · intro h
    rw [correctSchema_eq, List.append_eq_nil_iff] at h
    obtain ⟨hclass, hname⟩ := h
    have hclass' : (textField fields "class" == slug) := by
      by_contra hne
      rw [correct_of_not_holds hne] at hclass
      cases hclass
    have hsame : correct .schemaType "class" slug (· == slug) fields = (fields, []) :=
      correct_of_holds_actual hclass'
    refine ⟨eq_of_beq hclass', ?_⟩
    by_contra hne
    rw [hsame, correct_of_not_holds hne] at hname
    cases hname
  · exact fun h => by rw [correctSchema_of_named h]

theorem get?_correctSchema {name : String} (hclass : name ≠ "class") (hname : name ≠ "name") :
    (correctSchema slug fields).1.get? name = fields.get? name := by
  rw [correctSchema_eq, get?_correct_of_ne hname, get?_correct_of_ne hclass]

theorem hereditary_correctSchema {P : Nat → Value → Prop} (hP : Hereditary P) {n : Nat}
    (slug : String) (h : P n (.object fields)) : P n (.object (correctSchema slug fields).1) := by
  rw [correctSchema_eq]
  exact hereditary_correct hP (hereditary_correct hP h)

theorem blockTypes_correctSchema : blockTypes (correctSchema slug fields).1 = blockTypes fields := by
  rw [blockTypes, get?_correctSchema (by decide) (by decide), blockTypes]

end

/-- The type that a block of a schema or of a page names. -/
theorem typeOf_of_again? {v w : Value} (h : v.again? = some w) :
    (w.get? "type").bind (·.str?) = (v.get? "type").bind (·.str?) := by
  have hrel : Option.Rel (fun a b => a.again? = some b) (v.get? "type") (w.get? "type") :=
    Value.rel_bind (Value.rel_object?_of_again? h) fun fields others hfields => hfields.get? "type"
  generalize v.get? "type" = x, w.get? "type" = y at hrel
  cases hrel with
  | none => rfl
  | some hagain => exact Value.str?_of_again? hagain

theorem blockTypes_reread {fields others : Fields} (h : Reread fields others) :
    blockTypes others = blockTypes fields := by
  have hrel := Value.rel_bind (h.get? "blocks") fun v w hagain => Value.rel_array?_of_again? hagain
  rw [blockTypes, blockTypes]
  generalize (fields.get? "blocks").bind (·.array?) = x,
    (others.get? "blocks").bind (·.array?) = y at hrel
  cases hrel with
  | none => rfl
  | @some blocks others hblocks =>
    simp only [Option.getD_some]
    induction hblocks with
    | nil => rfl
    | cons hblock _ ih => rw [List.filterMap_cons, List.filterMap_cons, typeOf_of_again? hblock, ih]

end ThemeSection.Artifact
