import Std.Data.String.ToNat
import ThemeSection.Block.Definition
import ThemeSection.Proofs.Schema.Setting

/-!
What holds of the definition of a block type whatever the first element says: no two settings share
an id, and every setting is plain. The settings of a block follow the definition: their keys stand
in its order, and none is missing that has a default.
-/

namespace ThemeSection

namespace BlockDefinition

section Ids

variable {α : Type} {id : String} {ids : List String}

/-- A setting that may be there adds at most its id. -/
theorem ids_toList_map (found : Option α) {setting : α → Setting}
    (h : ∀ a, (setting a).id = id) : ((found.toList.map setting).map Setting.id).Sublist [id] := by
  cases found with
  | none => exact List.nil_sublist _
  | some a => simp [h a]

/-- Settings that may be there together add at most their ids. -/
theorem ids_toList_flatMap (found : Option α) {settings : α → List Setting}
    (h : ∀ a, (settings a).map Setting.id = ids) :
    ((found.toList.flatMap settings).map Setting.id).Sublist ids := by
  cases found with
  | none => exact List.nil_sublist _
  | some a => simp [h a]

theorem ids_ite (c : Bool) {settings : List Setting}
    (h : (settings.map Setting.id).Sublist ids) :
    ((if c then settings else []).map Setting.id).Sublist ids := by
  cases c with
  | true => exact h
  | false => exact List.nil_sublist _

theorem ids_ite_not (c : Bool) {settings : List Setting}
    (h : (settings.map Setting.id).Sublist ids) :
    ((if c then [] else settings).map Setting.id).Sublist ids := by
  cases c with
  | true => exact List.nil_sublist _
  | false => exact h

end Ids

@[simp] theorem id_optionalDefault (setting : Setting) (default : Option String) :
    (optionalDefault setting default).id = setting.id := by
  cases default <;> rfl

/-- The ids that a generic block may have settings for, in order. -/
def genericIds : List String :=
  ["heading"] ++ ["subheading"] ++ ["author"] ++ ["price"] ++ ["rating"] ++ ["description"]
    ++ ["image", "image_src", "image_alt"] ++ ["icon"] ++ ["button_text", "button_url"]
    ++ ["background_image", "background_image_src"]

theorem ids_genericSettings (first : BlockInstance) :
    ((genericSettings first).map Setting.id).Sublist genericIds := by
  simp only [genericSettings, genericIds, List.map_append]
  repeat' apply List.Sublist.append
  all_goals first
    | exact ids_toList_map _ fun _ => rfl
    | exact ids_toList_flatMap _ fun _ => rfl

/-- The ids of the settings of `count` links in a header. -/
def navIds (count : Nat) : List String :=
  (List.range' 1 count).flatMap fun n => [navTextId n, navUrlId n]

/-- Settings that are made for each of some data, by their ids. -/
theorem ids_flatMap {α : Type} {f : α → List Setting} (idsOf : α → List String)
    (h : ∀ a, (f a).map Setting.id = idsOf a) (items : List α) :
    (items.flatMap f).map Setting.id = items.flatMap idsOf := by
  rw [List.map_flatMap]
  exact List.flatMap_congr fun a _ => h a

/-- Settings whose ids are numbered as the data are. -/
theorem ids_numbered {α : Type} {f : α × Nat → List Setting} (idsOf : Nat → List String)
    (h : ∀ numbered, (f numbered).map Setting.id = idsOf numbered.2) (items : List α) :
    ((items.zipIdx 1).flatMap f).map Setting.id = (List.range' 1 items.length).flatMap idsOf := by
  rw [ids_flatMap _ h, ← List.zipIdx_map_snd 1 items, List.flatMap_map]

theorem ids_headerSettings (first : BlockInstance) :
    ((headerSettings first).map Setting.id).Sublist
      (["logo", "logo_src"] ++ ["logo_text"] ++ navIds first.links.length
        ++ ["show_mobile_menu"]) := by
  simp only [headerSettings, List.map_append]
  rw [ids_numbered (fun n => [navTextId n, navUrlId n]) fun _ => rfl]
  refine .append (.append (.append ?_ ?_) (.refl _)) ?_
  · exact ids_toList_flatMap _ fun _ => rfl
  · exact ids_toList_map _ fun _ => rfl
  · exact ids_ite _ (.refl _)

/-- The ids that a footer column may have settings for, in order. -/
def footerColumnIds : List String :=
  ["heading"] ++ ["description"]
    ++ (List.range' 1 BlockInstance.linkSlots).flatMap (fun n => [linkTextId n, linkUrlId n])
    ++ FooterParts.platforms.map footerSocialId

theorem ids_socialSettings (idOf : String → String) (platforms : List String)
    (first : BlockInstance) :
    (socialSettings idOf platforms first).map Setting.id = platforms.map idOf := by
  simp [socialSettings]

theorem ids_linkSettings (links : List LinkRef) : (linkSettings links).map Setting.id =
    (List.range' 1 BlockInstance.linkSlots).flatMap fun n => [linkTextId n, linkUrlId n] := by
  simp [linkSettings, List.map_flatMap]

theorem ids_footerColumnSettings (first : BlockInstance) :
    ((footerColumnSettings first).map Setting.id).Sublist footerColumnIds := by
  simp only [footerColumnSettings, footerColumnIds, List.map_append]
  refine .append (.append (.append ?_ ?_) ?_) ?_
  · exact ids_toList_map _ fun _ => rfl
  · exact ids_toList_map _ fun _ => rfl
  · exact ids_ite_not _ (ids_linkSettings first.links ▸ .refl _)
  · exact ids_ite_not _ (ids_socialSettings footerSocialId FooterParts.platforms first ▸ .refl _)

/-- The ids that a team member may have settings for, in order. -/
def teamMemberIds : List String :=
  ["name", "position"] ++ ["bio"] ++ ["image", "image_src", "image_alt"]
    ++ teamPlatforms.map teamSocialId

theorem ids_teamMemberSettings (first : BlockInstance) :
    ((teamMemberSettings first).map Setting.id).Sublist teamMemberIds := by
  simp only [teamMemberSettings, teamMemberIds, List.map_append, ids_socialSettings]
  refine .append (.append (.append (.refl _) ?_) ?_) (.refl _)
  · exact ids_toList_map _ fun _ => rfl
  · exact ids_toList_flatMap _ fun _ => rfl

/-- The ids that a comparison may have settings for, in order. -/
def beforeAfterIds : List String :=
  ["heading"] ++ sides.flatMap (fun (id, _) => [id, id ++ "_src"])
    ++ ["before_label"] ++ ["after_label"]

theorem ids_beforeAfterSettings (first : BlockInstance) :
    ((beforeAfterSettings first).map Setting.id).Sublist beforeAfterIds := by
  simp only [beforeAfterSettings, beforeAfterIds, List.map_append]
  refine .append (.append (.append ?_ ?_) ?_) ?_
  · exact ids_toList_map _ fun _ => rfl
  · rw [ids_flatMap (fun paired => [paired.1.1, paired.1.1 ++ "_src"]) fun _ => rfl]
    rcases first.images with _ | ⟨before, _ | ⟨after, rest⟩⟩ <;> simp [sides]
  · exact ids_toList_map _ fun _ => rfl
  · exact ids_toList_map _ fun _ => rfl

theorem navTextId_injective : Function.Injective navTextId := fun a b h => by
  simp only [navTextId, String.append_left_inj, String.append_right_inj] at h
  exact Nat.repr_injective h

theorem navUrlId_injective : Function.Injective navUrlId := fun a b h => by
  simp only [navUrlId, String.append_left_inj, String.append_right_inj] at h
  exact Nat.repr_injective h

theorem navTextId_ne_navUrlId (m n : Nat) : navTextId m ≠ navUrlId n := by
  intro h
  have hlast := congrArg (fun id : String => id.toList.reverse.head?) h
  simp [navTextId, navUrlId] at hlast

theorem nodup_navIds (count : Nat) : (navIds count).Nodup := by
  refine List.nodup_flatMap.2 ⟨fun n _ => ?_, (List.nodup_range' 1).imp fun {m n} hne => ?_⟩
  · simpa using navTextId_ne_navUrlId n n
  · simp only [Function.onFun, List.disjoint_left, List.mem_cons, List.not_mem_nil, or_false]
    rintro _ (rfl | rfl) (h | h)
    · exact hne (navTextId_injective h)
    · exact navTextId_ne_navUrlId m n h
    · exact navTextId_ne_navUrlId n m h.symm
    · exact hne (navUrlId_injective h)

theorem head_of_mem_navIds {count : Nat} {id : String} (h : id ∈ navIds count) :
    id.toList.head? = some 'n' := by
  obtain ⟨n, -, hid⟩ := List.mem_flatMap.1 h
  simp only [List.mem_cons, List.not_mem_nil, or_false] at hid
  rcases hid with rfl | rfl <;> simp [navTextId, navUrlId]

/-- No two settings of a block have the same id, whatever the first element says. -/
theorem nodup_ids_settingsOf (role : BlockRole) (first : BlockInstance) :
    ((settingsOf role first).map Setting.id).Nodup := by
  cases role with
  | generic => exact (ids_genericSettings first).nodup (by decide +kernel)
  | header =>
    refine (ids_headerSettings first).nodup ?_
    have hfixed : ∀ id ∈ ["logo", "logo_src", "logo_text", "show_mobile_menu"],
        id.toList.head? ≠ some 'n' := by decide +kernel
    refine List.nodup_append.2 ⟨List.nodup_append.2 ⟨by decide, nodup_navIds _, ?_⟩, by decide, ?_⟩
    · rintro id hid _ hnav rfl
      exact hfixed id (by revert hid; simp; tauto) (head_of_mem_navIds hnav)
    · rintro id hid _ hmenu rfl
      obtain rfl := List.mem_singleton.1 hmenu
      rcases List.mem_append.1 hid with hid | hid
      · revert hid
        decide
      · exact hfixed _ (by simp) (head_of_mem_navIds hid)
  | footerColumn => exact (ids_footerColumnSettings first).nodup (by decide +kernel)
  | teamMember => exact (ids_teamMemberSettings first).nodup (by decide +kernel)
  | beforeAfter => exact (ids_beforeAfterSettings first).nodup (by decide +kernel)

@[simp] theorem plain_optionalDefault (kind : SettingKind) (id label : String)
    (default : Option String) : (optionalDefault (.make kind id label) default).Plain := by
  cases default with
  | none => exact Setting.plain_make kind id label
  | some text => exact (Setting.plain_make kind id label).withDefault trivial

/-- Every setting of a block is plain, whatever the first element says. -/
theorem plain_settingsOf (role : BlockRole) (first : BlockInstance) :
    ∀ setting ∈ settingsOf role first, setting.Plain := by
  cases role with
  | generic =>
    have hrating (rating : Float) : (Setting.rating "rating" "Rating" (clampRating rating)).Plain :=
      Setting.plain_rating _ _ (exact_clampRating rating)
    simp only [settingsOf, genericSettings, imageSettings, List.forall_mem_append,
      List.forall_mem_flatMap, List.forall_mem_map]
    simp [hrating, Setting.Plain.withInfo]
  | header =>
    simp only [settingsOf, headerSettings, imageSettings, List.forall_mem_append,
      List.forall_mem_flatMap, List.forall_mem_map]
    simp
  | footerColumn =>
    simp only [settingsOf, footerColumnSettings, linkSettings, socialSettings,
      List.forall_mem_append, List.forall_mem_map]
    refine ⟨⟨⟨by simp, by simp⟩, ?_⟩, ?_⟩
    · split
      · simp
      · simp only [List.forall_mem_flatMap]
        simp
    · split <;> simp
  | teamMember =>
    simp only [settingsOf, teamMemberSettings, imageSettings, socialSettings,
      List.forall_mem_append, List.forall_mem_flatMap, List.forall_mem_map]
    simp
  | beforeAfter =>
    simp only [settingsOf, beforeAfterSettings, imageSettings, List.forall_mem_append,
      List.forall_mem_flatMap, List.forall_mem_map]
    simp

end BlockDefinition

namespace BlockInstance

variable (said : BlockInstance) (role : BlockRole)

theorem record_eq (definition : BlockDefinition) :
    said.record role definition =
      (Setting.fieldsOf (said.settingValue? role) definition.settings).merge := rfl

/-- A setting that has a default has a value in every block. -/
theorem isSome_settingValue? {setting : Setting} (h : setting.default.isSome) :
    (said.settingValue? role setting).isSome := by
  unfold settingValue?
  split
  · exact h
  · split
    · exact h
    · rfl

theorem scalar_settingValue? {setting : Setting} (h : setting.Plain) :
    ∀ value ∈ said.settingValue? role setting, value.Scalar := by
  unfold settingValue?
  split
  · exact h.default
  · split
    · exact h.default
    · rintro _ ⟨⟩
      exact scalar_sanitizeDefault _ _ _

variable {definition : BlockDefinition}

/-- The keys of a block stand in the order of its definition. -/
theorem keys_record_sublist (hids : (definition.settings.map Setting.id).Nodup) :
    (said.record role definition).keys.Sublist (definition.settings.map Setting.id) := by
  rw [record_eq, Setting.merge_fieldsOf _ hids]
  exact Setting.keys_fieldsOf_sublist _ _

/-- No key is missing that has a default. -/
theorem id_mem_keys_record (hids : (definition.settings.map Setting.id).Nodup)
    {setting : Setting} (hmem : setting ∈ definition.settings) (h : setting.default.isSome) :
    setting.id ∈ (said.record role definition).keys := by
  rw [record_eq, Setting.merge_fieldsOf _ hids]
  exact Setting.id_mem_keys_fieldsOf _ hmem (said.isSome_settingValue? role h)

theorem scalar_of_mem_record (hids : (definition.settings.map Setting.id).Nodup)
    (hplain : ∀ setting ∈ definition.settings, setting.Plain) :
    ∀ field ∈ said.record role definition, field.2.Scalar := by
  rw [record_eq, Setting.merge_fieldsOf _ hids]
  exact Setting.scalar_of_mem_fieldsOf _ fun setting hmem =>
    said.scalar_settingValue? role (hplain setting hmem)

end BlockInstance

end ThemeSection
