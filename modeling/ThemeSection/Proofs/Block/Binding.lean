import ThemeSection.Proofs.Block.Detection
import ThemeSection.Proofs.Block.Keys
import ThemeSection.Proofs.Markup.Reading

/-!
What binding an element writes. Whatever the role of a block, and whichever of its parts are there,
the markup is changed by edits that refer to settings of the block's own definition and to nothing
else, and every tag that is opened is closed next to the same element.
-/

namespace ThemeSection

open Markup Liquid Document

namespace Document

theorem mem_places_of_parent? {d : Document} {p q : Place} (hp : p ∈ d.places)
    (h : p.parent? = some q) : q ∈ d.places := by
  obtain ⟨tree, above⟩ := p
  cases above with
  | nil => cases h
  | cons level rest =>
    obtain rfl := Option.some.inj h
    obtain ⟨t, ht, hp⟩ := mem_places.1 hp
    obtain ⟨levels, habove, hclose⟩ := (mem_placesUnder _ t []).1 hp
    refine mem_places.2 ⟨t, ht, (mem_placesUnder _ t []).2 ⟨rest, (List.append_nil rest).symm, ?_⟩⟩
    rw [List.append_nil] at habove
    subst habove
    exact hclose

/-- The item of a link is the link, or the item of a list around it that holds one element. -/
theorem linkItem_eq_or (d : Document) (x : NodeId) : d.linkItem x = x ∨
    ∃ p parent, d.place? x = some p ∧ p.parent? = some parent ∧ d.linkItem x = parent.id ∧
      parent.tree.isTag ["li"] ∧ ∀ t ∈ parent.tree.children, ∀ u ∈ parent.tree.children,
        t.isElement → u.isElement → t = u := by
  unfold linkItem
  split
  case h_1 => exact Or.inl rfl
  case h_2 parent hparent =>
    split
    case isFalse => exact Or.inl rfl
    case isTrue hitem =>
      obtain ⟨p, hp, hparent⟩ := Option.bind_eq_some_iff.1 hparent
      obtain ⟨hli, hone⟩ := Bool.and_eq_true_iff.1 hitem
      obtain ⟨only, honly⟩ := List.length_eq_one_iff.1 (beq_iff_eq.1 hone)
      have hmem : ∀ t ∈ parent.tree.children, t.isElement → t = only := fun t ht helement =>
        List.mem_singleton.1 (honly ▸ List.mem_filter.2 ⟨ht, helement⟩)
      exact Or.inr ⟨p, parent, hp, hparent, rfl, hli, fun t ht u hu htelement huelement =>
        (hmem t ht htelement).trans (hmem u hu huelement).symm⟩

/-- What is taken out or repeated for a link is an element. -/
theorem isElement_linkItem {d : Document} (hd : d.Distinct) {anchor : NodeId}
    (h : d.IsElement anchor) : d.IsElement (d.linkItem anchor) := by
  rcases d.linkItem_eq_or anchor with heq | ⟨p, parent, hp, hparent, heq, hitem, -⟩ <;> rw [heq]
  · exact h
  · exact hd.isElement_of_place (mem_places_of_parent? (mem_places_of_place? hp) hparent)
      (Tree.isElement_of_isTag hitem)

end Document

namespace BlockDefinition

/-- A document is rewritten for one block of a type, by edits that refer to its settings only. -/
def Binds (definition : BlockDefinition) (scope : NodeId → Prop) (pending : List String)
    (styled : List NodeId) (d : Document) (styled' : List NodeId) (d' : Document) : Prop :=
  Turns definition.Allows scope
    (fun log => KeysFit definition.ids pending (log.flatMap Edit.texts)) styled d styled' d'

/-- An element in which nothing has been bound yet. -/
structure Bindable (scope : NodeId → Prop) (styled : List NodeId) (d : Document) (root : Place) :
    Prop where
  distinct : d.Distinct
  mem : root ∈ d.places
  scope : ∀ i ∈ root.tree.ids, scope i
  unstyled : ∀ i ∈ root.tree.ids, i ∉ styled

/-- An element at or below another. -/
def IsPart (root p : Place) : Prop :=
  p ∈ root.descend ∧ p.isElement

variable {definition : BlockDefinition} {scope : NodeId → Prop} {pending : List String}
  {styled styled' : List NodeId} {start d : Document} {root p : Place} {setting : String}

theorem isPart_of_mem_select {selector : Selector} (h : p ∈ root.select selector) :
    IsPart root p :=
  ⟨(List.mem_filter.1 h).1, Place.isElement_of_holds (List.mem_filter.1 h).2⟩

theorem isPart_of_first? {selector : Selector} (h : p ∈ root.first? selector) : IsPart root p :=
  ⟨List.mem_of_find?_eq_some h, Place.isElement_of_holds (List.find?_some h)⟩

theorem IsPart.trans {q : Place} (h : IsPart root p) (hq : IsPart p q) : IsPart root q :=
  ⟨Place.descend_trans h.1 hq.1, hq.2⟩

theorem Bindable.scope_of_isPart (h : Bindable scope styled start root) (hp : IsPart root p) :
    scope p.id ∧ p.id ∉ styled :=
  have hid := Place.id_mem_of_mem_descend hp.1
  ⟨h.scope _ hid, h.unstyled _ hid⟩

namespace Binds

theorem refl : definition.Binds scope pending styled start styled start :=
  Turns.refl KeysFit.additive

theorem evolves (h : definition.Binds scope pending styled start styled' d)
    (hstart : start.Distinct) : ∃ touched, start.Evolves touched d :=
  Turns.evolves h hstart

/-- The parts of an element stay elements while it is bound. -/
theorem isElement (h : definition.Binds scope pending styled start styled' d)
    (hroot : Bindable scope styled start root) (hp : IsPart root p) : d.IsElement p.id := by
  obtain ⟨touched, hevolves⟩ := h.evolves hroot.distinct
  have hmem := mem_places_descend hroot.mem hp.1
  exact (hroot.distinct.isElement_of_place hmem hp.2).of_evolves hevolves
    (hroot.distinct.lt_next_of_place hmem)

theorem isElement_linkItem (h : definition.Binds scope pending styled start styled' d)
    (hroot : Bindable scope styled start root) (hp : IsPart root p) :
    d.IsElement (d.linkItem p.id) := by
  obtain ⟨touched, hevolves⟩ := h.evolves hroot.distinct
  exact Document.isElement_linkItem hevolves.distinct (h.isElement hroot hp)

/-- One more edit, whose texts use no keys. -/
theorem still (h : definition.Binds scope pending styled start styled' d) (e : Edit)
    (hfits : e.Fits definition.Allows) (hsuits : e.Suits scope styled' d)
    (hstill : ∀ text ∈ e.texts, Still text) :
    definition.Binds scope pending styled start (e.styled ++ styled') (d.apply e) :=
  Turns.step h KeysFit.additive e hfits hsuits
    (KeysFit.of_still (List.flatMap_singleton Edit.texts e ▸ hstill))

/-- One more edit, whose texts keep the keys right. -/
theorem keyed (h : definition.Binds scope pending styled start styled' d) (e : Edit)
    (hfits : e.Fits definition.Allows) (hsuits : e.Suits scope styled' d)
    (hkeys : KeysFit definition.ids pending e.texts) :
    definition.Binds scope pending styled start (e.styled ++ styled') (d.apply e) :=
  Turns.step h KeysFit.additive e hfits hsuits (by rwa [List.flatMap_singleton])

/-- The edit that computes the keys which are used inside. -/
theorem close (h : definition.Binds scope pending styled start styled' d) (e : Edit)
    (hfits : e.Fits definition.Allows) (hsuits : e.Suits scope styled' d)
    (hkeys : KeysFit definition.ids [] e.texts)
    (hgiven : pending ⊆ (keysGiven e.texts).map Prod.fst) :
    definition.Binds scope [] styled start (e.styled ++ styled') (d.apply e) := by
  obtain ⟨log, hrewrites, hlog, hsub⟩ := h
  refine ⟨log ++ [e], hrewrites.snoc hfits (hsuits.anti hsub), ?_, ?_⟩
  · have hall := KeysFit.close hlog hkeys hgiven
    rwa [← List.flatMap_singleton Edit.texts e, ← List.flatMap_append] at hall
  · intro x hx
    rw [List.flatMap_append, List.flatMap_singleton] at hx
    simp only [List.mem_append] at hx ⊢
    rcases hx with (hx | hx) | hx
    · exact Or.inr (hsub (List.mem_append_left _ hx))
    · exact Or.inl hx
    · exact Or.inr (hsub (List.mem_append_right _ hx))

theorem weaken {more : List NodeId} (h : definition.Binds scope pending styled start styled' d)
    (hsub : styled' ⊆ more) : definition.Binds scope pending styled start more d :=
  Turns.weaken h hsub

theorem mono (h : definition.Binds scope pending styled start styled' d) (more : List String)
    (hsub : pending ⊆ more) : definition.Binds scope more styled start styled' d := by
  obtain ⟨log, hrewrites, hlog, hstyled⟩ := h
  exact ⟨log, hrewrites, hlog.mono hsub, hstyled⟩

section

variable (h : definition.Binds scope pending styled start styled d)
  (hnames : ∀ id ∈ definition.ids, IsName id)

include h hnames

theorem showSetting (x : NodeId) (hid : setting ∈ definition.ids) :
    definition.Binds scope pending styled start styled (d.showSetting x setting) :=
  h.still (.setText x (reference .block setting))
    (sound_reference .block (hnames setting hid) ⟨rfl, hid⟩) trivial
    (List.forall_mem_singleton.2 (still_reference .block (hnames setting hid)))

theorem showInAttribute (x : NodeId) (name : String) (hstyle : name ≠ "style")
    (hname : Braceless name.toList) (hid : setting ∈ definition.ids) :
    definition.Binds scope pending styled start styled (d.showInAttribute x name setting) :=
  h.still (.setAttribute x name (reference .block setting))
    ⟨hstyle, hname, sound_reference .block (hnames setting hid) ⟨rfl, hid⟩⟩ trivial
    (List.forall_mem_singleton.2 (still_reference .block (hnames setting hid)))

theorem showPart (part : Option Place) (setting : String) :
    definition.Binds scope pending styled start styled (d.showPart definition part setting) := by
  unfold Document.showPart
  split
  · exact h
  · split
    case isTrue hhas => exact h.showSetting hnames _ (has_iff.1 hhas)
    case isFalse => exact h

omit hnames in
theorem removeAttributes (x : NodeId) (names : List String) :
    definition.Binds scope pending styled start styled (d.removeAttributes x names) :=
  List.foldlRecOn names _ h fun _ h name _ =>
    h.still (.removeAttribute x name) trivial trivial (List.forall_mem_nil _)

theorem showImage (x : NodeId) (hid : setting ∈ definition.ids)
    (hsource : setting ++ "_src" ∈ definition.ids) :
    definition.Binds scope pending styled start styled (d.showImage x setting) := by
  have hname := hnames setting hid
  have hfallback : Sound definition.Allows (reference .block (setting ++ "_src")) :=
    sound_reference .block (hnames _ hsource) ⟨rfl, hsource⟩
  refine removeAttributes (h.still (.setAttribute x "src" _) ⟨by decide, by decide, ?_⟩ trivial
    (List.forall_mem_singleton.2 ?_)) x otherSources
  · exact sound_imageSource hname ⟨rfl, hid⟩ hfallback (by decide)
  · exact still_imageSource hname (still_reference .block (hnames _ hsource)) hfallback.settled
      (by decide)

theorem showDescribedImage (x : NodeId) (hid : setting ∈ definition.ids)
    (hsource : setting ++ "_src" ∈ definition.ids) (halt : setting ++ "_alt" ∈ definition.ids) :
    definition.Binds scope pending styled start styled (d.showDescribedImage x setting) := by
  have hname := hnames _ halt
  have hdescribed := h.still (.setAttribute x "alt" (escapedReference .block (setting ++ "_alt")))
    ⟨by decide, by decide, sound_escapedReference .block hname ⟨rfl, halt⟩⟩ trivial
    (List.forall_mem_singleton.2 (still_escapedReference .block hname))
  exact showImage hdescribed hnames x hid hsource

omit hnames in
theorem detach (hroot : Bindable scope styled start root) (hp : IsPart root p) :
    definition.Binds scope pending styled start styled (d.detach p.id) :=
  h.still (.detach p.id) trivial (h.isElement hroot hp) (List.forall_mem_nil _)

omit hnames in
theorem detachLink (hroot : Bindable scope styled start root) (hp : IsPart root p) :
    definition.Binds scope pending styled start styled (d.detachLink p) :=
  h.still (.detach (d.linkItem p.id)) trivial (h.isElement_linkItem hroot hp) (List.forall_mem_nil _)

/-- One paragraph comes to show rich text, whichever of them are there. -/
theorem showRichText (hroot : Bindable scope styled start root) {paragraphs : List Place}
    (hparagraphs : ∀ p ∈ paragraphs, IsPart root p) (hid : setting ∈ definition.ids) :
    definition.Binds scope pending styled start styled (d.showRichText paragraphs setting) := by
  unfold Document.showRichText
  split
  case h_1 => exact h
  case h_2 first rest =>
    obtain ⟨hfirst, hrest⟩ := List.forall_mem_cons.1 hparagraphs
    have hrenewed := h.still (.renew first.id (reference .block setting))
      (sound_reference .block (hnames setting hid) ⟨rfl, hid⟩) (hroot.scope_of_isPart hfirst)
      (List.forall_mem_singleton.2 (still_reference .block (hnames setting hid)))
    unfold Document.detachAll
    rw [List.foldl_map]
    exact List.foldlRecOn rest _ hrenewed fun _ h p hp => h.detach hroot (hrest p hp)

omit hnames in
/-- A part for which there may be a setting. -/
theorem ofPart (part : Option Place) (id : String) (change : Document → Place → Document) :
    (∀ p ∈ part, id ∈ definition.ids →
      definition.Binds scope pending styled start styled (change d p)) →
    definition.Binds scope pending styled start styled
      (match part with
        | some p => if definition.has id then change d p else d
        | none => d) := by
  intro hchange
  cases part with
  | none => exact h
  | some p =>
    dsimp only
    split
    case isTrue hhas => exact hchange p rfl (has_iff.1 hhas)
    case isFalse => exact h

end

end Binds

section

variable {first : BlockInstance} (hroot : Bindable scope styled start root)
  (hnames : ∀ id ∈ definition.ids, IsName id)

theorem Binds.bindRating (h : definition.Binds scope pending styled start styled d)
    (hnames : ∀ id ∈ definition.ids, IsName id) (rating : Place)
    (hid : "rating" ∈ definition.ids) :
    definition.Binds scope pending styled start styled (bindRating d rating) := by
  have hshown : definition.Binds scope pending styled start styled
      (if (rating.tree.attribute? "data-rating").isSome then
        d.showInAttribute rating.id "data-rating" "rating" else d) := by
    split
    · exact h.showInAttribute hnames _ _ (by decide) (by decide) hid
    · exact h
  exact hshown.keyed (.setText rating.id ratingStars) (sound_ratingStars ⟨rfl, hid⟩) trivial
    (keysFit_ratingStars _ _)

theorem Binds.bindButton (h : definition.Binds scope pending styled start styled d)
    (hnames : ∀ id ∈ definition.ids, IsName id) (button : Place)
    (htext : "button_text" ∈ definition.ids) (hurl : "button_url" ∈ definition.ids) :
    definition.Binds scope pending styled start styled (bindButton d button) := by
  have hshown := h.showSetting hnames button.id htext
  unfold BlockDefinition.bindButton
  dsimp only
  split
  · exact hshown.showInAttribute hnames _ _ (by decide) (by decide) hurl
  · exact hshown

/-- The source of a background is put into a style that has no template syntax yet. -/
theorem Binds.bindBackground (h : definition.Binds scope pending styled start styled d)
    (hroot : Bindable scope styled start root) (hnames : ∀ id ∈ definition.ids, IsName id)
    (hid : "background_image" ∈ definition.ids) (hsource : "background_image_src" ∈ definition.ids) :
    definition.Binds scope pending styled start (root.id :: styled) (bindBackground d root.id) := by
  have hfallback : Sound definition.Allows (reference .block "background_image_src") :=
    sound_reference .block (hnames _ hsource) ⟨rfl, hsource⟩
  have hself : IsPart root root → scope root.id ∧ root.id ∉ styled := hroot.scope_of_isPart
  have hid' := root.tree.id_mem_ids
  exact h.still (.background root.id _)
    (sound_imageSource (hnames _ hid) ⟨rfl, hid⟩ hfallback (by decide))
    ⟨hroot.scope _ hid', hroot.unstyled _ hid'⟩
    (List.forall_mem_singleton.2 (still_imageSource (hnames _ hid)
      (still_reference .block (hnames _ hsource)) hfallback.settled (by decide)))

include hroot hnames

theorem binds_bindGeneric (hids : definition.settings = genericSettings first) :
    definition.Binds scope [] styled start (root.id :: styled)
      (bindGeneric definition root start) := by
  have hpair : ∀ pair ∈ [("image", "image_src"), ("image", "image_alt"),
      ("button_text", "button_url"), ("background_image", "background_image_src")],
      pair.1 ∈ definition.ids → pair.2 ∈ definition.ids := by
    rw [ids, hids]
    exact companions_genericSettings
  simp only [List.forall_mem_cons] at hpair
  obtain ⟨hsource, halt, hurl, hbackground, -⟩ := hpair
  have hdescription : ∀ p ∈ (BlockParts.locate root).description, IsPart root p := fun p hp =>
    isPart_of_mem_select (List.mem_of_mem_filter hp)
  have h : definition.Binds scope [] styled start styled start := .refl
  have h := h.showPart hnames (BlockParts.locate root).heading "heading"
  have h := h.showPart hnames (BlockParts.locate root).subheading "subheading"
  have h := h.showPart hnames (BlockParts.locate root).author "author"
  have h := h.showPart hnames (BlockParts.locate root).price "price"
  have h := h.ofPart (BlockParts.locate root).rating "rating" BlockDefinition.bindRating
    fun p _ hid => h.bindRating hnames p hid
  have h := h.ofPart (BlockParts.locate root).icon "icon"
    (fun d icon => d.showInAttribute icon.id "class" "icon")
    fun p _ hid => h.showInAttribute hnames p.id _ (by decide) (by decide) hid
  have h := h.ofPart (BlockParts.locate root).button "button_text"
    BlockDefinition.bindButton fun p _ hid => h.bindButton hnames p hid (hurl hid)
  have h := h.ofPart (BlockParts.locate root).image "image"
    (fun d image => d.showDescribedImage image.id "image")
    fun p _ hid => h.showDescribedImage hnames p.id hid (hsource hid) (halt hid)
  have hrich : ∀ {d : Document}, definition.Binds scope [] styled start styled d →
      definition.Binds scope [] styled start styled
        (if definition.has "description" then
          d.showRichText (BlockParts.locate root).description "description" else d) := by
    intro d h
    split
    case isTrue hhas => exact h.showRichText hnames hroot hdescription (has_iff.1 hhas)
    case isFalse => exact h
  have h := hrich h
  unfold bindGeneric
  dsimp only
  split
  case isTrue hhas =>
    exact h.bindBackground hroot hnames (has_iff.1 hhas) (hbackground (has_iff.1 hhas))
  case isFalse => exact h.weaken (List.subset_cons_self _ _)

/-- Links of a header show their settings, or are taken out if there are none. -/
theorem Binds.bindNavLinks (hids : definition.settings = headerSettings first)
    (h : definition.Binds scope [] styled start styled d) {links : List Place}
    (hlinks : ∀ p ∈ links, IsPart root p) :
    definition.Binds scope [] styled start styled (bindNavLinks definition d links) := by
  refine List.foldlRecOn _ _ h fun d h numbered hnumbered => ?_
  obtain ⟨anchor, n⟩ := numbered
  have hpart := hlinks anchor (List.fst_mem_of_mem_zipIdx hnumbered)
  dsimp only
  split
  case isTrue hhas =>
    have htext : navTextId n ∈ definition.ids := has_iff.1 hhas
    have hurl : navUrlId n ∈ definition.ids := by
      rw [ids, hids] at htext ⊢
      exact companion_navUrlId htext
    have h := h.showSetting hnames anchor.id htext
    have h := h.showInAttribute hnames anchor.id "href" (by decide) (by decide) hurl
    exact h.still (.wrap _ (ifPresent (navTextId n)) endIf)
      (soundAround_ifPresent (isName_navTextId n) ⟨rfl, htext⟩) (h.isElement_linkItem hroot hpart)
      (List.forall_mem_cons.2 ⟨still_ifPresent (isName_navTextId n),
        List.forall_mem_singleton.2 still_endIf⟩)
  case isFalse => exact h.detachLink hroot hpart

theorem binds_bindHeader (hids : definition.settings = headerSettings first) :
    definition.Binds scope [] styled start styled (bindHeader definition root start) := by
  have hlogo : "logo" ∈ definition.ids → "logo_src" ∈ definition.ids := by
    rw [ids, hids]
    exact companion_logo
  have hlinks : ∀ {p : Place}, ∀ q ∈ HeaderParts.textLinks p, IsPart p q := fun q hq =>
    isPart_of_mem_select (List.mem_of_mem_filter hq)
  have hnav : ∀ p ∈ (HeaderParts.locate root).nav, IsPart root p := fun p hp =>
    hlinks p (List.mem_of_mem_filter hp)
  have h : definition.Binds scope [] styled start styled start := .refl
  have h := h.ofPart (HeaderParts.locate root).logoImage "logo"
    (fun d image => d.showImage image.id "logo")
    fun p _ hid => h.showImage hnames p.id hid (hlogo hid)
  have h := h.showPart hnames (HeaderParts.locate root).logo "logo_text"
  have h := Binds.bindNavLinks hroot hnames hids h hnav
  unfold bindHeader
  dsimp only
  split
  case h_1 => exact h
  case h_2 menu hmenu =>
    have hpart : IsPart root menu := isPart_of_first? hmenu
    have hmobile : ∀ p ∈ (HeaderParts.locate root).mobileLinks, IsPart root p := by
      intro p hp
      obtain ⟨q, hq, hp⟩ := List.mem_flatMap.1 hp
      exact (isPart_of_first? (Option.mem_toList.1 hq)).trans (hlinks p hp)
    split
    case isTrue hhas =>
      have h := Binds.bindNavLinks hroot hnames hids h hmobile
      exact h.still (.wrap menu.id _ endIf) (soundAround_mobileMenu ⟨rfl, has_iff.1 hhas⟩)
        (h.isElement hroot hpart) (List.forall_mem_cons.2 ⟨still_mobileMenuIf,
          List.forall_mem_singleton.2 still_endIf⟩)
    case isFalse => exact h

omit hnames in
/-- One link is left, in the loop that computes the keys it shows. -/
theorem Binds.bindLinks (h : definition.Binds scope [] styled start styled d)
    (hids : ∀ n ∈ List.range' 1 BlockInstance.linkSlots,
      linkTextId n ∈ definition.ids ∧ linkUrlId n ∈ definition.ids)
    {links : List Place} (hlinks : ∀ p ∈ links, IsPart root p) :
    definition.Binds scope [] styled start styled (bindLinks d links) := by
  unfold BlockDefinition.bindLinks
  split
  case h_1 => exact h
  case h_2 first rest =>
    obtain ⟨hfirst, hrest⟩ := List.forall_mem_cons.1 hlinks
    have htextKey : "link_text_key" ∈ keyNames := by decide
    have hurlKey : "link_url_key" ∈ keyNames := by decide
    have htext : "block.settings[link_text_key]" = "block.settings[" ++ "link_text_key" ++ "]" := by
      decide
    have hurl : "block.settings[link_url_key]" = "block.settings[" ++ "link_url_key" ++ "]" := by
      decide
    rw [htext, hurl]
    have h : definition.Binds scope [] styled start styled (rest.foldl Document.detachLink d) :=
      List.foldlRecOn rest _ h fun _ h p hp => h.detachLink hroot (hrest p hp)
    have h := h.mono ["link_text_key", "link_url_key"] (List.nil_subset _)
    have h := h.keyed (.setText first.id _) (sound_computed htextKey) trivial
      (keysFit_computed _ htextKey (by decide))
    have h := h.keyed (.setAttribute first.id "href" _)
      ⟨by decide, by decide, sound_computed hurlKey⟩ trivial
      (keysFit_computed _ hurlKey (by decide))
    exact h.close (.wrap _ linkLoopOpen loopClose) soundAround_linkLoop
      (h.isElement_linkItem hroot hfirst) (keysFit_linkLoop hids) given_linkLoop

omit hnames in
/-- One social link is left, in the loop that computes the key it leads to. -/
theorem Binds.bindSocialLinks (h : definition.Binds scope [] styled start styled d)
    (hids : ∀ platform ∈ FooterParts.platforms, footerSocialId platform ∈ definition.ids)
    {links : List Place} (hlinks : ∀ p ∈ links, IsPart root p) :
    definition.Binds scope [] styled start styled (bindSocialLinks d links) := by
  unfold BlockDefinition.bindSocialLinks
  split
  case h_1 => exact h
  case h_2 first rest =>
    obtain ⟨hfirst, hrest⟩ := List.forall_mem_cons.1 hlinks
    have hname : "social_key" ∈ keyNames := by decide
    have hkey : "block.settings[social_key]" = "block.settings[" ++ "social_key" ++ "]" := by
      decide
    have hsilent : Silent " platform | capitalize ".toList ∧ Silent " platform ".toList := by decide
    have hicon : Sound definition.Allows ("fab fa-" ++ output "platform") ∧
        Still ("fab fa-" ++ output "platform") := by
      have hfab : Braceless "fab fa-".toList := by decide
      exact ⟨(sound_of_braceless hfab).append (sound_output hsilent.2 (by decide)),
        (still_of_braceless hfab).append (still_output_text hsilent.2 (by decide)) hfab.settled⟩
    rw [hkey]
    have h : definition.Binds scope [] styled start styled (rest.foldl Document.detachLink d) :=
      List.foldlRecOn rest _ h fun _ h p hp => h.detachLink hroot (hrest p hp)
    have h := h.mono ["social_key"] (List.nil_subset _)
    have h := h.keyed (.setAttribute first.id "href" _)
      ⟨by decide, by decide, sound_computed hname⟩ trivial
      (keysFit_computed _ hname (by decide))
    have h := h.still (.setAttribute first.id "aria-label" (output "platform | capitalize"))
      ⟨by decide, by decide, sound_output hsilent.1 (by decide)⟩ trivial
      (List.forall_mem_singleton.2 (still_output_text hsilent.1 (by decide)))
    have hicons : ∀ icons : List Place, definition.Binds scope ["social_key"] styled start styled
        (icons.foldl (fun d icon => d.setAttribute icon.id "class" ("fab fa-" ++ output "platform"))
          _) := fun icons =>
      List.foldlRecOn icons _ h fun _ h icon _ =>
        h.still (.setAttribute icon.id "class" _) ⟨by decide, by decide, hicon.1⟩ trivial
          (List.forall_mem_singleton.2 hicon.2)
    exact (hicons _).close (.wrap _ socialLoopOpen loopClose) soundAround_socialLoop
      ((hicons _).isElement_linkItem hroot hfirst) (keysFit_socialLoop hids) given_socialLoop

theorem binds_bindFooterColumn (hids : definition.settings = footerColumnSettings first) :
    definition.Binds scope [] styled start styled (bindFooterColumn definition root start) := by
  have hparagraphs : ∀ p ∈ (FooterParts.locate root).paragraphs, IsPart root p := fun p hp =>
    isPart_of_mem_select (List.mem_of_mem_filter hp)
  have hlinks : ∀ p ∈ (FooterParts.locate root).links, IsPart root p := fun p hp =>
    isPart_of_mem_select (List.mem_of_mem_filter hp)
  have hsocial : ∀ p ∈ (FooterParts.locate root).social.map (·.1), IsPart root p := by
    intro p hp
    obtain ⟨link, hlink, rfl⟩ := List.mem_map.1 hp
    obtain ⟨a, ha, hlink⟩ := List.mem_filterMap.1 hlink
    obtain ⟨name, -, rfl⟩ := Option.map_eq_some_iff.1 hlink
    exact isPart_of_mem_select ha
  have hheading : definition.Binds scope [] styled start styled start := .refl
  have hheading := hheading.showPart hnames (FooterParts.locate root).heading "heading"
  have htext : definition.Binds scope [] styled start styled
      (if definition.has "description" then
        (start.showPart definition (FooterParts.locate root).heading "heading").showRichText
          (FooterParts.locate root).paragraphs "description"
      else start.showPart definition (FooterParts.locate root).heading "heading") := by
    split
    case isTrue hhas => exact hheading.showRichText hnames hroot hparagraphs (has_iff.1 hhas)
    case isFalse => exact hheading
  have hlinked : ∀ {d : Document}, definition.Binds scope [] styled start styled d →
      definition.Binds scope [] styled start styled
        (if definition.has (linkTextId 1) then
          BlockDefinition.bindLinks d (FooterParts.locate root).links else d) := by
    intro d h
    split
    case isTrue hhas =>
      refine Binds.bindLinks hroot h ?_ hlinks
      have hfirst := has_iff.1 hhas
      rw [ids, hids] at hfirst ⊢
      exact companions_linkTextId hfirst
    case isFalse => exact h
  have h := hlinked htext
  unfold bindFooterColumn
  dsimp only
  split
  case isTrue hhas =>
    refine Binds.bindSocialLinks hroot h ?_ hsocial
    have hfirst := has_iff.1 hhas
    rw [ids, hids] at hfirst ⊢
    exact companions_footerSocialId hfirst
  case isFalse => exact h

theorem binds_bindTeamMember (hids : definition.settings = teamMemberSettings first) :
    definition.Binds scope [] styled start styled (bindTeamMember definition root start) := by
  have hmem : ∀ {id}, id ∈ definition.ids ↔ id ∈ (teamMemberSettings first).map Setting.id := by
    rw [ids, hids]
  have hfixed : ∀ id ∈ ["name", "position"], id ∈ definition.ids := fun id hid =>
    hmem.2 (mem_ids_teamMemberSettings.2 (Or.inl hid))
  have hsocial : ∀ link ∈ teamLinks root,
      IsPart root link.1 ∧ teamSocialId link.2 ∈ definition.ids := by
    intro link hlink
    obtain ⟨a, ha, hlink⟩ := List.mem_filterMap.1 hlink
    obtain ⟨name, hname, rfl⟩ := Option.map_eq_some_iff.1 hlink
    have hplatform : name ∈ teamPlatforms := by
      rw [platform?] at hname
      exact List.mem_of_find?_eq_some hname
    refine ⟨isPart_of_mem_select ha, hmem.2 (mem_ids_teamMemberSettings.2 ?_)⟩
    exact Or.inr (Or.inr (Or.inr (List.mem_map_of_mem hplatform)))
  have hpart : ∀ {d : Document} (part : Option Place) {id : String}, id ∈ definition.ids →
      definition.Binds scope [] styled start styled d →
      definition.Binds scope [] styled start styled
        (d.forPart part fun d x => d.showSetting x id) := by
    intro d part id hid h
    cases part with
    | none => exact h
    | some p => exact h.showSetting hnames p.id hid
  have hbio : ∀ {d : Document} (paragraphs : List Place), (∀ p ∈ paragraphs, IsPart root p) →
      definition.Binds scope [] styled start styled d →
      definition.Binds scope [] styled start styled
        (if definition.has "bio" then d.showRichText paragraphs "bio" else d) := by
    intro d paragraphs hparagraphs h
    split
    case isTrue hhas => exact h.showRichText hnames hroot hparagraphs (has_iff.1 hhas)
    case isFalse => exact h
  have h : definition.Binds scope [] styled start styled start := .refl
  have h := hpart (BlockParts.locate root).heading (hfixed "name" (by decide)) h
  have h := hpart (BlockParts.locate root).subheading (hfixed "position" (by decide)) h
  have h := h.ofPart (BlockParts.locate root).image "image"
    (fun d image => d.showDescribedImage image.id "image") fun p _ hid => by
      have hcompanions := companions_teamImage (hmem.1 hid)
      exact h.showDescribedImage hnames p.id hid (hmem.2 hcompanions.1) (hmem.2 hcompanions.2)
  have h := hbio ((BlockParts.locate root).description.filter fun p =>
      !(teamLinks root).any (p.overlaps ·.1))
    (fun p hp => isPart_of_mem_select (List.mem_of_mem_filter (List.mem_of_mem_filter hp))) h
  refine List.foldlRecOn (teamLinks root) _ h fun d h link hlink => ?_
  obtain ⟨hlinkPart, hid⟩ := hsocial link hlink
  have h := h.showInAttribute hnames link.1.id "href" (by decide) (by decide) hid
  exact h.still (.wrap link.1.id (ifPresent (teamSocialId link.2)) endIf)
    (soundAround_ifPresent (hnames _ hid) ⟨rfl, hid⟩) (h.isElement hroot hlinkPart)
    (List.forall_mem_cons.2 ⟨still_ifPresent (hnames _ hid),
      List.forall_mem_singleton.2 still_endIf⟩)

omit hroot in
theorem binds_bindBeforeAfter (hids : definition.settings = beforeAfterSettings first) :
    definition.Binds scope [] styled start styled (bindBeforeAfter definition root start) := by
  have h : definition.Binds scope [] styled start styled start := .refl
  have h := h.showPart hnames (ComparisonParts.locate root).heading "heading"
  unfold bindBeforeAfter
  refine Binds.showPart (Binds.showPart ?images hnames _ "before_label") hnames _ "after_label"
  case images =>
    refine List.foldlRecOn _ _ h fun d h paired hpaired => ?_
    obtain ⟨⟨id, title⟩, image⟩ := paired
    have hside := (List.of_mem_zip hpaired).1
    dsimp only
    split
    case isTrue hhas =>
      refine h.showImage hnames image.id (has_iff.1 hhas) ?_
      have hid := has_iff.1 hhas
      rw [ids, hids] at hid ⊢
      exact companion_side hside hid
    case isFalse => exact h

end

/-- Binding an element as a block of any role. At most the style of the element itself comes to have
template syntax in it. -/
theorem binds_bind (hroot : Bindable scope styled start root) {role : BlockRole}
    {first : BlockInstance} (hids : definition.settings = settingsOf role first) :
    definition.Binds scope [] styled start (root.id :: styled)
      (definition.bind role root start) := by
  have hnames : ∀ id ∈ definition.ids, IsName id := by
    rw [ids, hids]
    exact isName_of_mem_settingsOf
  have hsub := List.subset_cons_self root.id styled
  cases role with
  | generic => exact binds_bindGeneric hroot hnames hids
  | header => exact (binds_bindHeader hroot hnames hids).weaken hsub
  | footerColumn => exact (binds_bindFooterColumn hroot hnames hids).weaken hsub
  | teamMember => exact (binds_bindTeamMember hroot hnames hids).weaken hsub
  | beforeAfter => exact (binds_bindBeforeAfter hnames hids).weaken hsub

end BlockDefinition

end ThemeSection
