import ThemeSection.Json.Shape
import ThemeSection.Proofs.Json.Value

/-!
Reading the fields of records that were written by the project. Where no key stands twice, a record
is read field by field, and a list is read back if each of its items is.
-/

namespace ThemeSection.Json

namespace Fields

variable {fields : Fields}

theorem get?_append (a b : Fields) (key : String) :
    get? (a ++ b) key = (a.get? key).or (b.get? key) :=
  List.lookup_append

theorem get?_cons (name key : String) (value : Value) (rest : Fields) :
    get? ((name, value) :: rest) key = if key = name then some value else rest.get? key := by
  rw [get?, List.lookup_cons]
  by_cases h : key = name
  · simp [h]
  · have hb : (key == name) = false := by simpa using h
    rw [hb, if_neg h, get?]

@[simp] theorem get?_nil (key : String) : get? [] key = none := rfl

theorem get?_eq_none_of_not_mem {key : String} (h : key ∉ fields.keys) : fields.get? key = none := by
  induction fields with
  | nil => rfl
  | cons first rest ih =>
    obtain ⟨name, value⟩ := first
    obtain ⟨hne, hrest⟩ := List.ne_and_not_mem_of_not_mem_cons h
    rw [get?_cons, if_neg hne, ih hrest]

theorem get?_set (key : String) (value : Value) (name : String) :
    (fields.set key value).get? name = if name = key then some value else fields.get? name := by
  induction fields with
  | nil => rw [set, get?_cons]
  | cons first rest ih =>
    obtain ⟨k, v⟩ := first
    rw [set]
    by_cases hk : k = key
    · subst hk
      rw [if_pos rfl, get?_cons, get?_cons]
      split <;> rfl
    · rw [if_neg hk, get?_cons, get?_cons, ih]
      by_cases hname : name = k
      · subst hname
        rw [if_pos rfl, if_neg hk, if_pos rfl]
      · rw [if_neg hname, if_neg hname]

/-- The fields of a name: there is at most one. -/
theorem filter_key (h : fields.keys.Nodup) (name : String) :
    fields.filter (·.1 == name) = ((fields.get? name).map fun value => (name, value)).toList := by
  induction fields with
  | nil => rfl
  | cons first rest ih =>
    obtain ⟨key, value⟩ := first
    obtain ⟨hkey, hrest⟩ := List.nodup_cons.1 h
    rw [List.filter_cons, ih hrest, get?_cons]
    by_cases heq : key = name
    · subst heq
      simp [get?_eq_none_of_not_mem hkey]
    · simp [heq, Ne.symm heq]

end Fields

@[simp] theorem Value.str?_string (s : String) : (Value.string s).str? = some s := rfl

theorem Value.eq_object_of_object? {v : Value} {fields : Fields} (h : v.object? = some fields) :
    v = .object fields := by
  cases v <;> first | exact congrArg _ (Option.some.inj h) | cases h

theorem Value.eq_array_of_array? {v : Value} {items : List Value} (h : v.array? = some items) :
    v = .array items := by
  cases v <;> first | exact congrArg _ (Option.some.inj h) | cases h

/-- The fields of a record in which no key stands twice. -/
theorem members?_object {fields : Fields} (h : fields.keys.Nodup) (names : List String) :
    members? names (.object fields) = some (names.map fields.get?) := by
  rw [members?]
  induction names with
  | nil => rfl
  | cons name rest ih =>
    rw [List.mapM_cons, ih, Fields.filter_key h]
    cases hget : fields.get? name <;> simp [hget]

theorem asList?_map {α : Type} {read : Value → Option α} {toJson : α → Value} {items : List α}
    (h : ∀ item ∈ items, read (toJson item) = some item) :
    asList? read (.array (items.map toJson)) = some items := by
  rw [asList?, Value.array?, Option.bind_some]
  induction items with
  | nil => rfl
  | cons item rest ih =>
    obtain ⟨hitem, hrest⟩ := List.forall_mem_cons.1 h
    rw [List.map_cons, List.mapM_cons, hitem, ih hrest]
    rfl

theorem asFields?_object {fields : Fields} (h : (Value.object fields).Exact) :
    asFields? (.object fields) = some fields := by
  rw [asFields?, Value.settle_of_exact _ h, Value.object?]

theorem asCount?_ofNat {n : Nat} (h : n ≤ 0xFFFFFFFFFFFFFFFF) : asCount? (.ofNat n) = some n := by
  rw [Value.ofNat, asCount?, if_pos (by simp; omega), Int.toNat_natCast]

/-- A scalar that may be left out. -/
theorem nullable_settle {value : Option Value} (h : ∀ v ∈ value, v.Scalar) :
    nullable (some ·.settle) value = some value := by
  cases value with
  | none => rfl
  | some v =>
    have hv := h v rfl
    have hsettle := Value.settle_of_exact v hv.exact
    cases v <;> first | exact absurd hv id | simp only [nullable, hsettle, Option.map_some]

end ThemeSection.Json
