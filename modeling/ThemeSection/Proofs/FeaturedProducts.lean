import ThemeSection.Proofs.Block.Binding

/-!
What replacing products does to the markup. The card that is kept shows the product of the loop
around it, and the loop refers to the settings that come with it and to no others.
-/

namespace ThemeSection

open Markup Liquid Document

namespace FeaturedPass

/-- The settings that the loop over products may refer to: those that come with it. -/
def Allows (pageType : PageType) (owner : Owner) (id : String) : Prop :=
  owner = .whole ∧ id ∈ (if pageType == .collection then [] else [collectionSetting]) ++
    [countSetting]

theorem ids_settingsFor (pageType : PageType) (count : Nat) :
    (settingsFor pageType count).map Setting.id =
      (if pageType == .collection then [] else [collectionSetting]) ++ [countSetting] := by
  rw [settingsFor, List.map_append]
  split <;> rfl

variable {allowed : Owner → String → Prop} {scope : NodeId → Prop} {styled : List NodeId}
  {start d : Document} {pageType : PageType}

/-- What stands between the marks of the tag that opens the loop. -/
def loopContent (pageType : PageType) : List Char :=
  tagContent ("for product in " ++ pageType.productSource ++ " limit: "
    ++ settingPath .whole countSetting)

/-- How the tag that opens the loop is read, on a page of any type. -/
theorem loopContent_spec : ∀ pageType ∈ PageType.all, Bare (loopContent pageType) ∧
    (Liquid.Token.tag (loopContent pageType)).keyword = "for".toList ∧
    pathIds .whole (loopContent pageType) =
      (if pageType == .collection then [] else [collectionSetting]) ++ [countSetting] ∧
    pathIds .block (loopContent pageType) = [] := by
  intro pageType _
  have hcontent : loopContent pageType = '-' :: ' ' :: ("for product in ".toList ++
      pageType.productSource.toList ++ " limit: ".toList ++
      (Owner.path .whole ++ countSetting.toList) ++ [' ', '-']) := by
    rw [loopContent, tagContent, String.toList_append, String.toList_append, String.toList_append,
      toList_settingPath]
  -- Characters, as the literals are slow to evaluate.
  rw [hcontent, String.toList_ofList, String.toList_ofList]
  cases pageType
  all_goals
    simp only [PageType.productSource]
    rw [String.toList_ofList]
    decide +kernel

theorem mem_all (pageType : PageType) : pageType ∈ PageType.all := by
  cases pageType <;> decide

theorem says_loopOpen (pageType : PageType) :
    Says (loopOpen pageType) [.tag (loopContent pageType)] := by
  have hbare := (loopContent_spec pageType (mem_all pageType)).1
  refine says_tag _ fun c hc => hbare c ?_
  exact List.mem_cons_of_mem _ (List.mem_cons_of_mem _ (List.mem_append_left _ hc))

/-- The settings that the loop refers to are those that come with it. -/
theorem references_loop (pageType : PageType) (count : Nat) :
    references .whole (loopOpen pageType) ++ references .whole endFor =
      (settingsFor pageType count).map Setting.id := by
  have hclose : references .whole endFor = [] := by
    rw [references, says_endFor.tokens]
    decide
  rw [hclose, List.append_nil, references, (says_loopOpen pageType).tokens, List.flatMap_singleton,
    ids_settingsFor]
  exact (loopContent_spec pageType (mem_all pageType)).2.2.1

theorem soundAround_loop (pageType : PageType) :
    SoundAround (Allows pageType) (loopOpen pageType) endFor := by
  obtain ⟨-, hkeyword, hwhole, hblock⟩ := loopContent_spec pageType (mem_all pageType)
  refine (says_loopOpen pageType).soundAround says_endFor (fun stack => ?_)
    (List.forall_mem_singleton.2 fun owner id hid => ?_)
    (List.forall_mem_singleton.2 (fits_of_silent (by decide)))
  · rw [List.singleton_append, run, hkeyword]
    rfl
  · cases owner with
    | whole => exact ⟨rfl, hwhole ▸ hid⟩
    | block =>
      rw [Liquid.Token.content, hblock] at hid
      cases hid

/-- Outputs of the product of the loop name no setting. -/
theorem sound_product {expression : String}
    (h : Silent (' ' :: (expression.toList ++ [' '])) ∧ Bare expression.toList) :
    Sound allowed (output expression) :=
  sound_output h.1 h.2

theorem turns_bindImage (h : Turns allowed scope (fun _ => True) styled start styled d)
    (image : NodeId) :
    Turns allowed scope (fun _ => True) styled start styled (bindImage d image) := by
  have h := h.next (.setAttribute image "src" (output "product.featured_image | image_url: width: 600"))
    ⟨by decide, by decide, sound_product (by decide)⟩ trivial
  have h := h.next (.setAttribute image "alt" (output "product.featured_image.alt | escape"))
    ⟨by decide, by decide, sound_product (by decide)⟩ trivial
  exact List.foldlRecOn (motive := Turns allowed scope (fun _ => True) styled start styled)
    ["srcset", "data-src", "data-srcset", "sizes"] (·.removeAttribute image ·) h
    fun _ h name _ => h.next (.removeAttribute image name) trivial trivial

theorem turns_detachAll (h : Turns allowed scope (fun _ => True) styled start styled d)
    (hstart : start.Distinct) {places : List Place}
    (hplaces : ∀ p ∈ places, p ∈ start.places ∧ p.isElement) :
    Turns allowed scope (fun _ => True) styled start styled (d.detachAll (places.map (·.id))) := by
  unfold Document.detachAll
  rw [List.foldl_map]
  refine List.foldlRecOn (motive := Turns allowed scope (fun _ => True) styled start styled)
    places _ h fun d h p hp => ?_
  obtain ⟨hmem, helement⟩ := hplaces p hp
  obtain ⟨touched, hevolves⟩ := h.evolves hstart
  exact h.next (.detach p.id) trivial
    ((hstart.isElement_of_place hmem helement).of_evolves hevolves (hstart.lt_next_of_place hmem))

theorem turns_bindDescription (h : Turns allowed scope (fun _ => True) styled start styled d)
    (hstart : start.Distinct) {paragraphs : List Place}
    (hparagraphs : ∀ p ∈ paragraphs, p ∈ start.places ∧ p.isElement) :
    Turns allowed scope (fun _ => True) styled start styled (bindDescription d paragraphs) := by
  unfold bindDescription
  split
  case h_1 => exact h
  case h_2 first rest =>
    have h := h.next (.setText first.id (output "product.description | strip_html | truncate: 120"))
      (sound_product (by decide)) trivial
    exact turns_detachAll h hstart fun p hp => hparagraphs p (List.mem_cons_of_mem _ hp)

/-- A card comes to show the product of the loop, whichever parts it has. -/
theorem turns_bindProduct (hstart : start.Distinct) {card : Place} (hcard : card ∈ start.places) :
    Turns allowed scope (fun _ => True) styled start styled (bindProduct start card) := by
  have hdescription : ∀ p ∈ (BlockParts.locate card).description,
      p ∈ start.places ∧ p.isElement := by
    intro p hp
    have hselected := List.mem_filter.1 (List.mem_of_mem_filter hp)
    exact ⟨mem_places_descend hcard hselected.1, Place.isElement_of_holds hselected.2⟩
  have hstart' : Turns allowed scope (fun _ => True) styled start styled start :=
    .refl ⟨trivial, fun _ _ => trivial⟩
  unfold bindProduct
  extract_lets parts titled priced pictured described
  have htitled : Turns allowed scope (fun _ => True) styled start styled titled := by
    unfold titled
    split
    · exact hstart'.next (.setText _ _) (sound_product (by decide)) trivial
    · exact hstart'
  have hpriced : Turns allowed scope (fun _ => True) styled start styled priced := by
    unfold priced
    split
    · exact htitled.next (.setText _ _) (sound_product (by decide)) trivial
    · exact htitled
  have hpictured : Turns allowed scope (fun _ => True) styled start styled pictured := by
    unfold pictured
    split
    · exact turns_bindImage hpriced _
    · exact hpriced
  have hdescribed := turns_bindDescription hpictured hstart hdescription
  exact List.foldlRecOn (motive := Turns allowed scope (fun _ => True) styled start styled) _
    (fun d (a : Place) => d.setAttribute a.id "href" (output "product.url")) hdescribed
    fun _ h (a : Place) _ => h.next (.setAttribute a.id "href" _)
      ⟨by decide, by decide, sound_product (by decide)⟩ trivial

/-- The products that are found are siblings, in their order, that look alike and like products. -/
theorem alike_of_products? {root : Place} {minConfidence : Float} {products : List Place}
    (h : products? root minConfidence = some products) :
    ∃ parent ∈ root.descend, products.Sublist parent.children ∧ minProducts ≤ products.length ∧
      (∃ look, ∀ p ∈ products, Fragment.signature? p.tree = some look) ∧
      ∀ p ∈ products, isProduct minConfidence p := by
  have hseveral := List.find?_some h
  obtain ⟨group, hgroup, rfl⟩ := List.mem_map.1 (List.mem_of_find?_eq_some h)
  obtain ⟨parent, hparent, hchildren, look, halike⟩ := Fragment.alike_of_mem_siblingGroups hgroup
  exact ⟨parent, hparent, List.filter_sublist.trans hchildren, of_decide_eq_true hseveral,
    ⟨look, fun p hp => halike p (List.mem_of_mem_filter hp)⟩, fun p hp => (List.mem_filter.1 hp).2⟩

/-- The products that are found are elements below the node that is searched. -/
theorem mem_products? {root : Place} {minConfidence : Float} {products : List Place}
    (h : products? root minConfidence = some products) :
    ∀ p ∈ products, p ∈ root.descend ∧ p.isElement := by
  obtain ⟨parent, hparent, hchildren, -, ⟨look, halike⟩, -⟩ := alike_of_products? h
  exact fun p hp =>
    ⟨Place.descend_trans hparent (parent.children_sublist.subset (hchildren.subset hp)),
      Fragment.isElement_of_signature? (halike p hp)⟩

/-- Replacing products refers to the settings that it adds, and to no others. -/
theorem turns_replace (hstart : start.Distinct) {root : Place} (hroot : root ∈ start.places)
    (pageType : PageType) (options : Options) :
    Turns (fun owner id => owner = .whole ∧
        id ∈ (replace root pageType options start).2.settings.map Setting.id)
      scope (fun _ => True) styled start styled (replace root pageType options start).1 := by
  unfold replace
  split
  case h_1 => exact .refl ⟨trivial, fun _ _ => trivial⟩
  case h_2 => exact .refl ⟨trivial, fun _ _ => trivial⟩
  case h_3 kept others hproducts =>
    have hmem : ∀ p ∈ kept :: others, p ∈ start.places ∧ p.isElement := fun p hp =>
      (mem_products? hproducts p hp).imp_left fun hbelow => mem_places_descend hroot hbelow
    obtain ⟨hkept, hothers⟩ := List.forall_mem_cons.1 hmem
    have hbound : Turns (Allows pageType) scope (fun _ => True) styled start styled
        (bindProduct start kept) := turns_bindProduct hstart hkept.1
    have hdetached := turns_detachAll hbound hstart hothers
    obtain ⟨touched, hevolves⟩ := hdetached.evolves hstart
    have hwrapped := hdetached.next (.wrap kept.id (loopOpen pageType) endFor)
      (soundAround_loop pageType) ((hstart.isElement_of_place hkept.1 hkept.2).of_evolves hevolves
        (hstart.lt_next_of_place hkept.1))
    refine hwrapped.mono fun owner id hid => ?_
    rw [ids_settingsFor]
    exact hid

end FeaturedPass

end ThemeSection
