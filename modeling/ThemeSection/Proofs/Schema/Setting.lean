import ThemeSection.Proofs.Json.Value
import ThemeSection.Schema.Default
import ThemeSection.Schema.Setting

/-!
Settings that hold what a schema can: every value that they declare is scalar. Whatever text a
default is made from, it is of that form.
-/

namespace ThemeSection

/-- A rating that stands in a schema has one decimal place. -/
theorem exact_clampRating (rating : Float) : Json.Number.Exact (.float (clampRating rating)) := by
  unfold clampRating
  split
  · have hfive : (5.0 : Float) = Float.ofNat 50 / 10.0 := by decide +kernel
    exact hfive ▸ Json.exact_tenths (Nat.le_refl 50)
  · exact Json.exact_tenths (by omega)

theorem scalar_sanitizeDefault (kind : SettingKind) (found : Option String) (fallback : String) :
    (sanitizeDefault kind found fallback).Scalar := by
  cases kind <;> first | exact trivial | exact exact_clampRating _

namespace Setting

/-- The values that a setting declares are scalar. -/
structure Plain (setting : Setting) : Prop where
  default : ∀ value ∈ setting.default, value.Scalar
  min : ∀ value ∈ setting.min, value.Scalar
  max : ∀ value ∈ setting.max, value.Scalar
  step : ∀ value ∈ setting.step, value.Scalar

section Ids

variable (kind : SettingKind) (id label : String)

@[simp] theorem id_make : (make kind id label).id = id := rfl

@[simp] theorem id_withDefault (setting : Setting) (value : Json.Value) :
    (setting.withDefault value).id = setting.id := rfl

@[simp] theorem id_withInfo (setting : Setting) (info : String) :
    (setting.withInfo info).id = setting.id := rfl

@[simp] theorem id_text (default : String) : (text id label default).id = id := rfl

@[simp] theorem id_richText (default : String) : (richText id label default).id = id := rfl

@[simp] theorem id_url (default : String) : (url id label default).id = id := rfl

@[simp] theorem id_image : (image id label).id = id := rfl

@[simp] theorem id_checkbox (default : Bool) : (checkbox id label default).id = id := rfl

@[simp] theorem id_range (min max step default : Json.Value) :
    (range id label min max step default).id = id := rfl

@[simp] theorem id_rating (default : Float) : (rating id label default).id = id := rfl

end Ids

@[simp] theorem plain_make (kind : SettingKind) (id label : String) : (make kind id label).Plain where
  default := by simp [make]
  min := by simp [make]
  max := by simp [make]
  step := by simp [make]

theorem Plain.withDefault {setting : Setting} (h : setting.Plain) {value : Json.Value}
    (hvalue : value.Scalar) : (setting.withDefault value).Plain :=
  { h with default := by rintro _ ⟨⟩; exact hvalue }

theorem Plain.withInfo {setting : Setting} (h : setting.Plain) (info : String) :
    (setting.withInfo info).Plain :=
  { h with }

@[simp] theorem plain_text (id label default : String) : (text id label default).Plain :=
  (plain_make .text id label).withDefault trivial

@[simp] theorem plain_richText (id label default : String) : (richText id label default).Plain :=
  (plain_make .richText id label).withDefault trivial

@[simp] theorem plain_url (id label default : String) : (url id label default).Plain :=
  (plain_make .url id label).withDefault trivial

@[simp] theorem plain_checkbox (id label : String) (default : Bool) :
    (checkbox id label default).Plain :=
  (plain_make .checkbox id label).withDefault trivial

@[simp] theorem plain_image (id label : String) : (image id label).Plain :=
  plain_make .imagePicker id label

theorem plain_range (id label : String) {min max step default : Json.Value} (hmin : min.Scalar)
    (hmax : max.Scalar) (hstep : step.Scalar) (hdefault : default.Scalar) :
    (range id label min max step default).Plain where
  default := by rintro _ ⟨⟩; exact hdefault
  min := by rintro _ ⟨⟩; exact hmin
  max := by rintro _ ⟨⟩; exact hmax
  step := by rintro _ ⟨⟩; exact hstep

/-- Counts that fit into 64 bits are scalar. -/
theorem scalar_ofNat {n : Nat} (h : n ≤ 0xFFFFFFFFFFFFFFFF) : (Json.Value.ofNat n).Scalar :=
  Json.exact_ofNat h

theorem plain_rating (id label : String) {default : Float}
    (h : Json.Number.Exact (.float default)) : (rating id label default).Plain := by
  have htenth : (0.1 : Float) = Float.ofNat 1 / 10.0 := by decide +kernel
  have hstep : Json.Number.Exact (.float 0.1) := htenth ▸ Json.exact_tenths (by decide)
  exact plain_range id label (scalar_ofNat (by decide)) (scalar_ofNat (by decide)) hstep h

section Values

variable {settings : List Setting} (value? : Setting → Option Json.Value)

/-- The fields that give settings values. -/
def fieldsOf (value? : Setting → Option Json.Value) (settings : List Setting) : Json.Fields :=
  settings.filterMap fun setting => (value? setting).map fun value => (setting.id, value)

theorem defaults_eq (settings : List Setting) :
    defaults settings = (fieldsOf (·.default) settings).merge := rfl

theorem keys_fieldsOf_sublist (settings : List Setting) :
    (fieldsOf value? settings).keys.Sublist (settings.map id) := by
  induction settings with
  | nil => exact List.Sublist.refl _
  | cons setting rest ih =>
    rw [fieldsOf, List.filterMap_cons]
    cases value? setting with
    | none => exact ih.cons _
    | some value => exact ih.cons_cons _

theorem id_mem_keys_fieldsOf {setting : Setting} (hmem : setting ∈ settings)
    (hvalue : (value? setting).isSome) : setting.id ∈ (fieldsOf value? settings).keys := by
  obtain ⟨value, hvalue⟩ := Option.isSome_iff_exists.1 hvalue
  exact List.mem_map.2 ⟨(setting.id, value), List.mem_filterMap.2 ⟨setting, hmem, by simp [hvalue]⟩,
    rfl⟩

/-- Where no two settings share an id, their fields keep themselves. -/
theorem merge_fieldsOf (hids : (settings.map id).Nodup) :
    (fieldsOf value? settings).merge = fieldsOf value? settings :=
  Json.Fields.merge_of_nodup ((keys_fieldsOf_sublist value? settings).nodup hids)

theorem scalar_of_mem_fieldsOf (hvalue : ∀ setting ∈ settings, ∀ value ∈ value? setting,
    value.Scalar) : ∀ field ∈ fieldsOf value? settings, field.2.Scalar := by
  intro field hfield
  obtain ⟨setting, hmem, hsome⟩ := List.mem_filterMap.1 hfield
  obtain ⟨value, hv, rfl⟩ := Option.map_eq_some_iff.1 hsome
  exact hvalue setting hmem value hv

end Values

end Setting

end ThemeSection
