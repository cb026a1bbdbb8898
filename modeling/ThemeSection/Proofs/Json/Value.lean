import Mathlib.Data.List.Nodup
import ThemeSection.Proofs.Json.Number

/-!
Which JSON values keep themselves. A field list in which no key stands twice is what it comes to
when it is merged, and a value all of whose objects are like that is settled. It is exact if its
numbers also come back from their texts.
-/

namespace ThemeSection.Json

namespace Fields

@[simp] theorem keys_nil : keys [] = [] := rfl

@[simp] theorem keys_cons (key : String) (value : Value) (rest : Fields) :
    keys ((key, value) :: rest) = key :: keys rest := rfl

@[simp] theorem keys_append (a b : Fields) : keys (a ++ b) = a.keys ++ b.keys :=
  List.map_append

/-- A key that is not there yet goes to the end. -/
theorem set_of_not_mem {fields : Fields} {key : String} (h : key ∉ fields.keys) (value : Value) :
    fields.set key value = fields ++ [(key, value)] := by
  induction fields with
  | nil => rfl
  | cons first rest ih =>
    obtain ⟨k, v⟩ := first
    obtain ⟨hne, hrest⟩ := List.ne_and_not_mem_of_not_mem_cons h
    rw [set, if_neg (Ne.symm hne), ih hrest]
    rfl

/-- Giving a key the value that it has changes nothing. -/
theorem set_of_get? {fields : Fields} {key : String} {value : Value}
    (h : fields.get? key = some value) : fields.set key value = fields := by
  induction fields with
  | nil => simp [get?] at h
  | cons first rest ih =>
    obtain ⟨k, v⟩ := first
    rw [get?, List.lookup_cons] at h
    by_cases hk : k = key
    · subst hk
      simp only [beq_self_eq_true, Option.some.injEq] at h
      rw [set, if_pos rfl, h]
    · have hb : (key == k) = false := by simpa using Ne.symm hk
      rw [hb] at h
      rw [set, if_neg hk, ih h]

theorem foldl_set_eq_append (fields : Fields) : ∀ merged : Fields,
    (merged.keys ++ fields.keys).Nodup →
      fields.foldl (fun merged (key, value) => merged.set key value) merged = merged ++ fields := by
  induction fields with
  | nil => simp
  | cons first rest ih =>
    intro merged h
    obtain ⟨key, value⟩ := first
    have hkey : key ∉ merged.keys := fun hmem =>
      (List.nodup_append.1 h).2.2 key hmem key List.mem_cons_self rfl
    simp only [List.foldl_cons]
    rw [set_of_not_mem hkey, ih _ (by simpa using h), List.append_assoc]
    rfl

/-- Merging changes nothing where no key stands twice. -/
theorem merge_of_nodup {fields : Fields} (h : fields.keys.Nodup) : fields.merge = fields := by
  rw [merge, foldl_set_eq_append fields [] (by simpa using h), List.nil_append]

theorem keys_set (fields : Fields) (key : String) (value : Value) :
    (fields.set key value).keys = if key ∈ fields.keys then fields.keys else fields.keys ++ [key] := by
  induction fields with
  | nil => rfl
  | cons first rest ih =>
    obtain ⟨k, v⟩ := first
    rw [set]
    by_cases hk : k = key
    · simp [hk]
    · rw [if_neg hk, keys_cons, ih, keys_cons]
      by_cases hrest : key ∈ keys rest <;> simp [hrest, Ne.symm hk]

theorem mem_of_mem_set {fields : Fields} {key : String} {value : Value} {field : String × Value}
    (h : field ∈ fields.set key value) : field = (key, value) ∨ field ∈ fields := by
  induction fields with
  | nil => exact Or.inl (List.mem_singleton.1 h)
  | cons first rest ih =>
    obtain ⟨k, v⟩ := first
    rw [set] at h
    split at h
    case isTrue hk =>
      rcases List.mem_cons.1 h with rfl | h
      · exact Or.inl (by rw [hk])
      · exact Or.inr (List.mem_cons_of_mem _ h)
    case isFalse =>
      rcases List.mem_cons.1 h with rfl | h
      · exact Or.inr List.mem_cons_self
      · exact (ih h).imp_right (List.mem_cons_of_mem _)

/-- Merging leaves every key once, with a value that it was given. -/
theorem merge_invariant (fields : Fields) :
    fields.merge.keys.Nodup ∧ ∀ field ∈ fields.merge, field ∈ fields := by
  refine List.foldlRecOn fields _
    (motive := fun merged : Fields => merged.keys.Nodup ∧ ∀ field ∈ merged, field ∈ fields)
    ⟨List.nodup_nil, List.forall_mem_nil _⟩ ?_
  rintro merged ⟨hkeys, hfields⟩ ⟨key, value⟩ hmem
  constructor
  · rw [keys_set]
    split
    case isTrue => exact hkeys
    case isFalse hkey => exact hkeys.append (List.nodup_singleton key) (by simpa using hkey)
  · intro field hfield
    rcases mem_of_mem_set hfield with rfl | hfield
    · exact hmem
    · exact hfields field hfield

end Fields

/-- The values that a setting has: texts, exact numbers, yes or no. -/
def Value.Scalar : Value → Prop
  | .bool _ | .string _ => True
  | .number n => n.Exact
  | .null | .array _ | .object _ => False

namespace Value

mutual

/-- Every number is exact, and no object has a key twice. -/
def Exact : Value → Prop
  | null | bool _ | string _ => True
  | number n => n.Exact
  | array items => ExactItems items
  | object fields => (Fields.keys fields).Nodup ∧ ExactFields fields

def ExactItems : List Value → Prop
  | [] => True
  | item :: rest => Exact item ∧ ExactItems rest

def ExactFields : List (String × Value) → Prop
  | [] => True
  | (_, value) :: rest => Exact value ∧ ExactFields rest

end

theorem exactItems_iff (items : List Value) : ExactItems items ↔ ∀ item ∈ items, item.Exact := by
  induction items with
  | nil => simp [ExactItems]
  | cons item rest ih => simp [ExactItems, ih]

theorem exactFields_iff (fields : Fields) :
    ExactFields fields ↔ ∀ field ∈ fields, field.2.Exact := by
  induction fields with
  | nil => simp [ExactFields]
  | cons field rest ih => simp [ExactFields, ih]

theorem Scalar.exact {value : Value} (h : value.Scalar) : value.Exact := by
  cases value <;> simp_all [Scalar, Exact]

mutual

/-- A value in which no key stands twice is settled already. -/
theorem settle_of_exact : ∀ value : Value, value.Exact → value.settle = value
  | null, _ | bool _, _ | number _, _ | string _, _ => rfl
  | array items, h => by
    rw [Exact] at h
    rw [settle, settleItems_of_exact items h]
  | object fields, h => by
    rw [Exact] at h
    rw [settle, settleFields_of_exact fields h.2, Fields.merge_of_nodup h.1]

theorem settleItems_of_exact : ∀ items : List Value, ExactItems items → settleItems items = items
  | [], _ => rfl
  | item :: rest, h => by
    rw [ExactItems] at h
    rw [settleItems, settle_of_exact item h.1, settleItems_of_exact rest h.2]

theorem settleFields_of_exact : ∀ fields : List (String × Value), ExactFields fields →
    settleFields fields = fields
  | [], _ => rfl
  | (key, value) :: rest, h => by
    rw [ExactFields] at h
    rw [settleFields, settle_of_exact value h.1, settleFields_of_exact rest h.2]

end

mutual

/-- How deep lists and objects nest in a value. -/
def height : Value → Nat
  | null | bool _ | number _ | string _ => 0
  | array items => heightItems items + 1
  | object fields => heightFields fields + 1

def heightItems : List Value → Nat
  | [] => 0
  | item :: rest => max (height item) (heightItems rest)

def heightFields : List (String × Value) → Nat
  | [] => 0
  | (_, value) :: rest => max (height value) (heightFields rest)

end

theorem heightItems_le_iff (items : List Value) (n : Nat) :
    heightItems items ≤ n ↔ ∀ item ∈ items, item.height ≤ n := by
  induction items with
  | nil => simp [heightItems]
  | cons item rest ih => rw [heightItems, Nat.max_le, ih, List.forall_mem_cons]

theorem heightFields_le_iff (fields : Fields) (n : Nat) :
    heightFields fields ≤ n ↔ ∀ field ∈ fields, field.2.height ≤ n := by
  induction fields with
  | nil => simp [heightFields]
  | cons field rest ih => rw [heightFields, Nat.max_le, ih, List.forall_mem_cons]

mutual

/-- Settling a value nests nothing deeper. -/
theorem height_settle_le : ∀ value : Value, value.settle.height ≤ value.height
  | null | bool _ | number _ | string _ => Nat.le_refl 0
  | array items => by
    rw [settle, height, height]
    exact Nat.succ_le_succ (heightItems_settleItems_le items)
  | object fields => by
    rw [settle, height, height]
    have hmerge := (heightFields_le_iff (Fields.merge (settleFields fields)) _).2 fun field hfield =>
      (heightFields_le_iff (settleFields fields) _).1 (Nat.le_refl _) field
        ((Fields.merge_invariant _).2 field hfield)
    exact Nat.succ_le_succ (hmerge.trans (heightFields_settleFields_le fields))

theorem heightItems_settleItems_le : ∀ items : List Value,
    heightItems (settleItems items) ≤ heightItems items
  | [] => Nat.le_refl 0
  | item :: rest => by
    rw [settleItems, heightItems, heightItems]
    exact max_le_max (height_settle_le item) (heightItems_settleItems_le rest)

theorem heightFields_settleFields_le : ∀ fields : List (String × Value),
    heightFields (settleFields fields) ≤ heightFields fields
  | [] => Nat.le_refl 0
  | (key, value) :: rest => by
    rw [settleFields, heightFields, heightFields]
    exact max_le_max (height_settle_le value) (heightFields_settleFields_le rest)

end

/-- An exact value in which lists and objects nest at most `n` deep. -/
structure Fits (n : Nat) (value : Value) : Prop where
  exact : value.Exact
  height : value.height ≤ n

theorem Fits.mono {m n : Nat} {value : Value} (h : value.Fits m) (hle : m ≤ n) : value.Fits n :=
  ⟨h.exact, Nat.le_trans h.height hle⟩

theorem Scalar.fits {value : Value} (h : value.Scalar) (n : Nat) : value.Fits n := by
  refine ⟨h.exact, ?_⟩
  cases value <;> first | exact absurd h id | simp [Value.height]

theorem fits_string (s : String) (n : Nat) : (string s).Fits n :=
  ⟨trivial, Nat.zero_le n⟩

theorem fits_array {n : Nat} {items : List Value} (h : ∀ item ∈ items, item.Fits n) :
    (array items).Fits (n + 1) where
  exact := by
    rw [Exact, exactItems_iff]
    exact fun item hitem => (h item hitem).exact
  height := by
    rw [Value.height]
    exact Nat.succ_le_succ ((heightItems_le_iff items n).2 fun item hitem => (h item hitem).height)

theorem fits_object {n : Nat} {fields : Fields} (hkeys : fields.keys.Nodup)
    (h : ∀ field ∈ fields, field.2.Fits n) : (object fields).Fits (n + 1) where
  exact := by
    rw [Exact, exactFields_iff]
    exact ⟨hkeys, fun field hfield => (h field hfield).exact⟩
  height := by
    rw [Value.height]
    exact Nat.succ_le_succ ((heightFields_le_iff fields n).2 fun field hfield =>
      (h field hfield).height)

theorem fits_ofStrings (texts : List String) (n : Nat) : (ofStrings texts).Fits (n + 1) :=
  fits_array <| List.forall_mem_map.2 fun text _ => fits_string text n

end Value

end ThemeSection.Json
