import ThemeSection.Proofs.Block.Definition
import ThemeSection.Proofs.Liquid.Written

/-!
The ids of a block's settings as names. Every id of a setting is a name, so that it ends where its
path ends; and where a definition has the setting that a part of the markup is bound to, it has those
settings too that are bound with it.
-/

namespace ThemeSection

open Liquid

namespace BlockDefinition

/-- The ids of the settings of a definition. -/
def ids (definition : BlockDefinition) : List String :=
  definition.settings.map Setting.id

theorem has_iff {definition : BlockDefinition} {id : String} :
    definition.has id ↔ id ∈ definition.ids := by
  simp [has, ids]

theorem has_ofInstance {pattern : BlockPattern} {first : BlockInstance} {id : String} :
    (ofInstance pattern first).has id ↔ id ∈ (settingsOf pattern.role first).map Setting.id :=
  has_iff

theorem isName_navTextId (n : Nat) : IsName (navTextId n) :=
  IsName.append (IsName.append (by decide) (isName_toString n)) (by decide)

theorem isName_navUrlId (n : Nat) : IsName (navUrlId n) :=
  IsName.append (IsName.append (by decide) (isName_toString n)) (by decide)

/-- The id of every setting of a block is a name. -/
theorem isName_of_mem_settingsOf {role : BlockRole} {first : BlockInstance} :
    ∀ id ∈ (settingsOf role first).map Setting.id, IsName id := by
  intro id hid
  cases role with
  | generic =>
    have hall : ∀ id ∈ genericIds, IsName id := by decide +kernel
    exact hall id ((ids_genericSettings first).subset hid)
  | header =>
    have hfixed : ∀ id ∈ ["logo", "logo_src", "logo_text", "show_mobile_menu"], IsName id := by
      decide
    have hmem := (ids_headerSettings first).subset hid
    simp only [List.mem_append, or_assoc] at hmem
    rcases hmem with hmem | hmem | hmem | hmem
    · exact hfixed id (List.mem_append_left ["logo_text", "show_mobile_menu"] hmem)
    · exact hfixed id (by simp_all)
    · obtain ⟨n, -, hmem⟩ := List.mem_flatMap.1 hmem
      simp only [List.mem_cons, List.not_mem_nil, or_false] at hmem
      rcases hmem with rfl | rfl
      · exact isName_navTextId n
      · exact isName_navUrlId n
    · exact hfixed id (by simp_all)
  | footerColumn =>
    have hall : ∀ id ∈ footerColumnIds, IsName id := by decide +kernel
    exact hall id ((ids_footerColumnSettings first).subset hid)
  | teamMember =>
    have hall : ∀ id ∈ teamMemberIds, IsName id := by decide +kernel
    exact hall id ((ids_teamMemberSettings first).subset hid)
  | beforeAfter =>
    have hall : ∀ id ∈ beforeAfterIds, IsName id := by decide +kernel
    exact hall id ((ids_beforeAfterSettings first).subset hid)

section

variable {α : Type} {first : BlockInstance} {id : String}

theorem mem_ids_toList_map (found : Option α) {setting : α → Setting}
    (h : ∀ a, (setting a).id = id) {other : String} :
    other ∈ (found.toList.map setting).map Setting.id ↔ found.isSome ∧ other = id := by
  cases found with
  | none => simp
  | some a => simp [h a]

theorem mem_ids_toList_flatMap (found : Option α) {settings : α → List Setting}
    {ids : List String} (h : ∀ a, (settings a).map Setting.id = ids) {other : String} :
    other ∈ (found.toList.flatMap settings).map Setting.id ↔ found.isSome ∧ other ∈ ids := by
  cases found with
  | none => simp
  | some a => simp [h a]

theorem mem_ids_ite_isEmpty (found : List α) {settings : List Setting} {ids : List String}
    (h : settings.map Setting.id = ids) {other : String} :
    other ∈ (if found.isEmpty then [] else settings).map Setting.id ↔ found ≠ [] ∧ other ∈ ids := by
  cases found with
  | nil => simp
  | cons a rest => simp [← h]

theorem mem_ids_genericSettings :
    id ∈ (genericSettings first).map Setting.id ↔
      first.heading.isSome ∧ id = "heading" ∨ first.subheading.isSome ∧ id = "subheading" ∨
      first.author.isSome ∧ id = "author" ∨ first.price.isSome ∧ id = "price" ∨
      first.rating.isSome ∧ id = "rating" ∨ first.description.isSome ∧ id = "description" ∨
      first.image.isSome ∧ id ∈ ["image", "image_src", "image_alt"] ∨
      first.icon.isSome ∧ id = "icon" ∨
      first.button.isSome ∧ id ∈ ["button_text", "button_url"] ∨
      first.backgroundImage.isSome ∧ id ∈ ["background_image", "background_image_src"] := by
  simp only [genericSettings, List.map_append, List.mem_append, or_assoc]
  refine or_congr (mem_ids_toList_map _ fun _ => by rfl) (or_congr (mem_ids_toList_map _ fun _ => by rfl)
    (or_congr (mem_ids_toList_map _ fun _ => by rfl) (or_congr (mem_ids_toList_map _ fun _ => by rfl)
    (or_congr (mem_ids_toList_map _ fun _ => by rfl) (or_congr (mem_ids_toList_map _ fun _ => by rfl)
    (or_congr (mem_ids_toList_flatMap _ fun _ => by rfl)
    (or_congr (mem_ids_toList_map _ fun _ => by rfl)
    (or_congr (mem_ids_toList_flatMap _ fun _ => by rfl)
    (mem_ids_toList_flatMap _ fun _ => by rfl)))))))))

/-- An image has the settings that go with it, a button its address, a background its own. -/
theorem companions_genericSettings :
    ∀ pair ∈ [("image", "image_src"), ("image", "image_alt"), ("button_text", "button_url"),
        ("background_image", "background_image_src")],
      pair.1 ∈ (genericSettings first).map Setting.id →
        pair.2 ∈ (genericSettings first).map Setting.id := by
  simp [mem_ids_genericSettings]

theorem mem_ids_headerSettings :
    id ∈ (headerSettings first).map Setting.id ↔
      first.image.isSome ∧ id ∈ ["logo", "logo_src"] ∨ first.logoText.isSome ∧ id = "logo_text" ∨
      (∃ n ∈ List.range' 1 first.links.length, id = navTextId n ∨ id = navUrlId n) ∨
      first.hasMobileMenu ∧ id = "show_mobile_menu" := by
  simp only [headerSettings, List.map_append, List.mem_append, or_assoc]
  refine or_congr (mem_ids_toList_flatMap _ fun _ => by rfl)
    (or_congr (mem_ids_toList_map _ fun _ => by rfl) (or_congr ?_ ?_))
  · rw [ids_numbered (fun n => [navTextId n, navUrlId n]) fun _ => rfl]
    simp only [List.mem_flatMap, List.mem_cons, List.not_mem_nil, or_false]
  · cases first.hasMobileMenu <;> simp [Setting.checkbox, Setting.withDefault, Setting.make]

theorem companion_logo (h : "logo" ∈ (headerSettings first).map Setting.id) :
    "logo_src" ∈ (headerSettings first).map Setting.id := by
  have hhead : ∀ n, "logo" ≠ navTextId n ∧ "logo" ≠ navUrlId n := by
    intro n
    constructor
    · intro heq
      have := congrArg (fun s : String => s.toList.head?) heq
      simp [navTextId] at this
    · intro heq
      have := congrArg (fun s : String => s.toList.head?) heq
      simp [navUrlId] at this
  rw [mem_ids_headerSettings] at h ⊢
  rcases h with ⟨himage, -⟩ | ⟨-, heq⟩ | ⟨n, -, heq | heq⟩ | ⟨-, heq⟩
  · exact Or.inl ⟨himage, by decide⟩
  · exact absurd heq (by decide)
  · exact absurd heq (hhead n).1
  · exact absurd heq (hhead n).2
  · exact absurd heq (by decide)

/-- Where the text of a link has a setting, its address has one. -/
theorem companion_navUrlId {n : Nat} (h : navTextId n ∈ (headerSettings first).map Setting.id) :
    navUrlId n ∈ (headerSettings first).map Setting.id := by
  have hhead : (navTextId n).toList.head? = some 'n' := by simp [navTextId]
  have hother : ∀ other ∈ ["logo", "logo_src", "logo_text", "show_mobile_menu"],
      navTextId n ≠ other := by
    rintro other hmem rfl
    have hall : ∀ other ∈ ["logo", "logo_src", "logo_text", "show_mobile_menu"],
      other.toList.head? ≠ some 'n' := by decide
    exact hall _ hmem hhead
  rw [mem_ids_headerSettings] at h ⊢
  rcases h with ⟨-, heq⟩ | ⟨-, heq⟩ | ⟨m, hmem, heq | heq⟩ | ⟨-, heq⟩
  · exact absurd rfl (hother _ (List.mem_append_left ["logo_text", "show_mobile_menu"] heq))
  · exact absurd heq (hother _ (by decide))
  · rw [navTextId_injective heq]
    exact Or.inr (Or.inr (Or.inl ⟨m, hmem, Or.inr rfl⟩))
  · exact absurd heq (navTextId_ne_navUrlId n m)
  · exact absurd heq (hother _ (by decide))

/-- The ids of the settings of the links in a footer column. -/
def footerLinkIds : List String :=
  (List.range' 1 BlockInstance.linkSlots).flatMap fun n => [linkTextId n, linkUrlId n]

theorem mem_ids_footerColumnSettings :
    id ∈ (footerColumnSettings first).map Setting.id ↔
      first.heading.isSome ∧ id = "heading" ∨ first.description.isSome ∧ id = "description" ∨
      first.links ≠ [] ∧ id ∈ footerLinkIds ∨
      first.socialLinks ≠ [] ∧ id ∈ FooterParts.platforms.map footerSocialId := by
  simp only [footerColumnSettings, List.map_append, List.mem_append, or_assoc]
  refine or_congr (mem_ids_toList_map _ fun _ => by rfl) (or_congr (mem_ids_toList_map _ fun _ => by rfl)
    (or_congr ?_ ?_))
  · exact mem_ids_ite_isEmpty _ (ids_linkSettings _)
  · exact mem_ids_ite_isEmpty _ (ids_socialSettings _ _ _)

/-- Which kinds of settings a footer column has. -/
theorem has_footerColumnSettings :
    ("heading" ∈ (footerColumnSettings first).map Setting.id ↔ first.heading.isSome) ∧
      ("description" ∈ (footerColumnSettings first).map Setting.id ↔ first.description.isSome) ∧
      (linkTextId 1 ∈ (footerColumnSettings first).map Setting.id ↔ first.links ≠ []) ∧
      (footerSocialId "facebook" ∈ (footerColumnSettings first).map Setting.id ↔
        first.socialLinks ≠ []) := by
  have hlink : linkTextId 1 ∈ footerLinkIds ∧ footerSocialId "facebook" ∉ footerLinkIds ∧
      ∀ id ∈ ["heading", "description"], id ∉ footerLinkIds ∧ id ≠ linkTextId 1 ∧
        id ≠ footerSocialId "facebook" := by
    decide +kernel
  have hsocial : footerSocialId "facebook" ∈ FooterParts.platforms.map footerSocialId ∧
      ∀ id ∈ ["heading", "description", linkTextId 1], id ∉ FooterParts.platforms.map footerSocialId := by
    decide +kernel
  simp only [List.forall_mem_cons] at hlink hsocial
  simp only [mem_ids_footerColumnSettings]
  grind

/-- A footer column with one link setting has all of them. -/
theorem companions_linkTextId
    (h : linkTextId 1 ∈ (footerColumnSettings first).map Setting.id) :
    ∀ n ∈ List.range' 1 BlockInstance.linkSlots,
      linkTextId n ∈ (footerColumnSettings first).map Setting.id ∧
        linkUrlId n ∈ (footerColumnSettings first).map Setting.id := by
  have hsome : first.links ≠ [] := has_footerColumnSettings.2.2.1.1 h
  intro n hn
  have hmem : ∀ id ∈ [linkTextId n, linkUrlId n], id ∈ (footerColumnSettings first).map Setting.id :=
    fun id hid => mem_ids_footerColumnSettings.2
      (Or.inr (Or.inr (Or.inl ⟨hsome, List.mem_flatMap.2 ⟨n, hn, hid⟩⟩)))
  exact ⟨hmem _ (by simp), hmem _ (by simp)⟩

/-- A footer column with one social setting has all of them. -/
theorem companions_footerSocialId
    (h : footerSocialId "facebook" ∈ (footerColumnSettings first).map Setting.id) :
    ∀ platform ∈ FooterParts.platforms,
      footerSocialId platform ∈ (footerColumnSettings first).map Setting.id :=
  fun _ hplatform => mem_ids_footerColumnSettings.2 (Or.inr (Or.inr (Or.inr
    ⟨has_footerColumnSettings.2.2.2.1 h, List.mem_map_of_mem hplatform⟩)))

theorem mem_ids_teamMemberSettings :
    id ∈ (teamMemberSettings first).map Setting.id ↔
      id ∈ ["name", "position"] ∨ first.description.isSome ∧ id = "bio" ∨
      first.image.isSome ∧ id ∈ ["image", "image_src", "image_alt"] ∨
      id ∈ teamPlatforms.map teamSocialId := by
  simp only [teamMemberSettings, List.map_append, List.mem_append, or_assoc, ids_socialSettings]
  exact or_congr Iff.rfl (or_congr (mem_ids_toList_map _ fun _ => by rfl)
    (or_congr (mem_ids_toList_flatMap _ fun _ => by rfl) Iff.rfl))

theorem companions_teamImage (h : "image" ∈ (teamMemberSettings first).map Setting.id) :
    "image_src" ∈ (teamMemberSettings first).map Setting.id ∧
      "image_alt" ∈ (teamMemberSettings first).map Setting.id := by
  have hother : "image" ∉ teamPlatforms.map teamSocialId := by decide +kernel
  simp only [mem_ids_teamMemberSettings] at h ⊢
  rcases h with h | ⟨-, h⟩ | ⟨himage, -⟩ | h
  · exact absurd h (by decide)
  · exact absurd h (by decide)
  · exact ⟨Or.inr (Or.inr (Or.inl ⟨himage, by decide⟩)),
      Or.inr (Or.inr (Or.inl ⟨himage, by decide⟩))⟩
  · exact absurd h hother

theorem mem_ids_beforeAfterSettings :
    id ∈ (beforeAfterSettings first).map Setting.id ↔
      first.heading.isSome ∧ id = "heading" ∨
      (∃ paired ∈ sides.zip first.images, id = paired.1.1 ∨ id = paired.1.1 ++ "_src") ∨
      first.labelBefore.isSome ∧ id = "before_label" ∨
      first.labelAfter.isSome ∧ id = "after_label" := by
  simp only [beforeAfterSettings, List.map_append, List.mem_append, or_assoc]
  refine or_congr (mem_ids_toList_map _ fun _ => by rfl) (or_congr ?_
    (or_congr (mem_ids_toList_map _ fun _ => by rfl) (mem_ids_toList_map _ fun _ => by rfl)))
  rw [ids_flatMap (fun paired => [paired.1.1, paired.1.1 ++ "_src"]) fun _ => rfl]
  simp only [List.mem_flatMap, List.mem_cons, List.not_mem_nil, or_false]

theorem companion_side {side : String × String} (hside : side ∈ sides)
    (h : side.1 ∈ (beforeAfterSettings first).map Setting.id) :
    side.1 ++ "_src" ∈ (beforeAfterSettings first).map Setting.id := by
  have hfixed : ∀ side ∈ sides, side.1 ≠ "heading" ∧ side.1 ≠ "before_label" ∧
      side.1 ≠ "after_label" ∧ ∀ other ∈ sides, side.1 ≠ other.1 ++ "_src" := by decide
  obtain ⟨hheading, hbefore, hafter, hsrc⟩ := hfixed side hside
  rw [mem_ids_beforeAfterSettings] at h ⊢
  rcases h with ⟨-, h⟩ | ⟨paired, hpaired, h | h⟩ | ⟨-, h⟩ | ⟨-, h⟩
  · exact absurd h hheading
  · exact Or.inr (Or.inl ⟨paired, hpaired, Or.inr (h ▸ rfl)⟩)
  · exact absurd h (hsrc paired.1 (List.of_mem_zip hpaired).1)
  · exact absurd h hbefore
  · exact absurd h hafter

end

end BlockDefinition

end ThemeSection
