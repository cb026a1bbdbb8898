import ThemeSection.Proofs.Block.Faithful
import ThemeSection.Proofs.Block.Spared
import ThemeSection.Proofs.Document.Held

/-!
Binding an element in its place. Whatever the role of a block, the parts of the element are given
new contents and new attributes where they are, and only a few are replaced, taken out or put
between texts. An element that is none of these is held in its place while it is bound.
-/

namespace ThemeSection

open Markup Document BlockDefinition

namespace Document.Held

variable {start d : Document} {g : Gap} {element : Tree} {taken : List NodeId} {x : NodeId}
  {part : Option Place}

section

variable (h : Held start g element taken d)
include h

theorem showSetting (hx : x ∉ g.ids) (setting : String) :
    Held start g element taken (d.showSetting x setting) :=
  h.apply (e := .setText x _) hx

theorem setAttribute (hx : x ∉ g.ids) (name value : String) :
    Held start g element taken (d.setAttribute x name value) :=
  h.apply (e := .setAttribute x name value) hx

theorem showPart (definition : BlockDefinition) (part : Option Place) (setting : String)
    (hpart : ∀ p ∈ part, setting ∈ definition.ids → p.id ∉ g.ids) :
    Held start g element taken (d.showPart definition part setting) := by
  unfold Document.showPart
  split
  case h_1 => exact h
  case h_2 p =>
    split
    case isTrue hhas => exact h.showSetting (hpart p rfl (has_iff.1 hhas)) setting
    case isFalse => exact h

theorem forPart (hpart : ∀ p ∈ part, p.id ∉ g.ids) (setting : String) :
    Held start g element taken (d.forPart part fun d x => d.showSetting x setting) := by
  cases part with
  | none => exact h
  | some p => exact h.showSetting (hpart p rfl) setting

theorem showImage (hx : x ∉ g.ids) (setting : String) :
    Held start g element taken (d.showImage x setting) :=
  List.foldlRecOn (motive := Held start g element taken) otherSources (·.removeAttribute x ·)
    (h.setAttribute hx "src" _) fun _ h name _ => h.apply (e := .removeAttribute x name) hx

theorem showDescribedImage (hx : x ∉ g.ids) (setting : String) :
    Held start g element taken (d.showDescribedImage x setting) :=
  (h.setAttribute hx "alt" _).showImage hx setting

theorem showRichText {paragraphs : List Place}
    (hparts : ∀ p ∈ paragraphs, p.id ∉ g.ids ∧ p.id ≠ element.id)
    (htaken : ∀ p ∈ paragraphs.tail, p.id ∈ taken) (setting : String) :
    Held start g element taken (d.showRichText paragraphs setting) := by
  unfold Document.showRichText
  split
  case h_1 => exact h
  case h_2 first rest =>
    obtain ⟨hfirst, hrest⟩ := List.forall_mem_cons.1 hparts
    have hrenewed := h.apply (e := .renew first.id (Liquid.reference .block setting)) hfirst
    unfold Document.detachAll
    rw [List.foldl_map]
    exact List.foldlRecOn rest _ hrenewed fun _ h p hp =>
      h.apply (e := .detach p.id) ⟨hrest p hp, Or.inl (htaken p hp)⟩

theorem ite (asked : Bool) {d' : Document} (h' : Held start g element taken d') :
    Held start g element taken (if asked then d else d') := by
  cases asked with
  | true => exact h
  | false => exact h'

/-- A part for which there may be a setting. -/
theorem ofPart (definition : BlockDefinition) (part : Option Place) (id : String)
    (change : Document → Place → Document) : (∀ p ∈ part, Held start g element taken (change d p)) →
    Held start g element taken
      (match part with
        | some p => if definition.has id then change d p else d
        | none => d) := by
  intro hchange
  cases part with
  | none => exact h
  | some p => exact (hchange p rfl).ite _ h

end

end Document.Held

/-- What a link takes along is the link or an item of a list. -/
theorem Document.Distinct.goes_linkItem {d : Document} (hd : d.Distinct) {taken : List NodeId}
    {x : NodeId} (htaken : x ∈ taken) : d.Goes taken (d.linkItem x) := by
  rcases d.linkItem_eq_or x with heq | ⟨p, parent, hp, hparent, heq, hli, -⟩ <;> rw [heq]
  · exact Or.inl htaken
  · refine Or.inr fun n hn hid => ?_
    have hmem := tree_mem_nodes (mem_places_of_parent? (mem_places_of_place? hp) hparent)
    rw [hd.eq_of_id_eq hn hmem hid]
    exact hli

/-- A header has a setting for its mobile menu only where that holds links. -/
theorem BlockDefinition.mobileLinks_ne_nil {definition : BlockDefinition} {root : Place}
    (hsettings : definition.settings = headerSettings (.read .header root))
    (hid : "show_mobile_menu" ∈ definition.ids) :
    (HeaderParts.locate root).mobileLinks.isEmpty ≠ true := by
  have hnav : ∀ n, "show_mobile_menu" ≠ navTextId n ∧ "show_mobile_menu" ≠ navUrlId n := fun n => by
    have hhead : "show_mobile_menu".toList.head? ≠ some 'n' := by decide
    simpa using not_mem_navIds hhead n
  rw [ids, hsettings, mem_ids_headerSettings] at hid
  rcases hid with ⟨-, heq⟩ | ⟨-, heq⟩ | ⟨n, -, heq | heq⟩ | ⟨hmenu, -⟩
  · exact absurd heq (by decide)
  · exact absurd heq (by decide)
  · exact absurd heq (hnav n).1
  · exact absurd heq (hnav n).2
  · intro hempty
    have hnone : (!(HeaderParts.locate root).mobileLinks.isEmpty) = true := hmenu
    rw [hempty] at hnone
    cases hnone

/-- A navigation link of a header without a setting comes after those that there are settings for. -/
theorem BlockDefinition.mem_drop_nav {definition : BlockDefinition} {root p : Place} {n : Nat}
    (hsettings : definition.settings = headerSettings (.read .header root))
    (hp : (p, n) ∈ (HeaderParts.locate root).nav.zipIdx 1) (hnone : navTextId n ∉ definition.ids) :
    p ∈ (HeaderParts.locate root).nav.drop BlockInstance.maxNavLinks := by
  obtain ⟨i, hi, heq⟩ := List.getElem_of_mem hp
  rw [List.getElem_zipIdx] at heq
  obtain ⟨rfl, rfl⟩ := Prod.mk.inj heq
  rw [List.length_zipIdx] at hi
  by_contra hnot
  have hfew : i < BlockInstance.maxNavLinks := by
    by_contra hmany
    refine hnot (List.mem_drop_iff_getElem.2 ⟨i - BlockInstance.maxNavLinks, by omega, ?_⟩)
    congr 1
    omega
  refine hnone ?_
  rw [ids, hsettings, mem_ids_headerSettings]
  refine Or.inr (Or.inr (Or.inl ⟨1 + i, List.mem_range'_1.2 ⟨Nat.le_add_right 1 i, ?_⟩, Or.inl rfl⟩))
  change 1 + i < 1 + (((HeaderParts.locate root).nav.take BlockInstance.maxNavLinks).map linkRef).length
  rw [List.length_map, List.length_take]
  omega

namespace BlockRole

variable {role : BlockRole} {root p : Place} {start d : Document} {g : Gap}

theorem mem_descend_of_links (hp : p ∈ role.links root) : p ∈ root.descend := by
  cases role with
  | header =>
    rcases List.mem_append.1 hp with hp | hp
    · exact mem_descend_of_textLinks (List.mem_of_mem_filter hp)
    · obtain ⟨menu, hmenu, hp⟩ := List.mem_flatMap.1 hp
      exact Place.descend_trans (List.mem_of_find?_eq_some (Option.mem_toList.1 hmenu))
        (mem_descend_of_textLinks hp)
  | footerColumn => exact List.mem_of_mem_filter (FooterParts.mem_select_of_anchors hp)
  | _ => cases hp

theorem isElement_of_links (hp : p ∈ role.links root) : p.isElement := by
  cases role with
  | header =>
    rcases List.mem_append.1 hp with hp | hp
    · have hselect := List.mem_of_mem_filter (List.mem_of_mem_filter hp)
      exact Place.isElement_of_holds (List.mem_filter.1 hselect).2
    · obtain ⟨menu, -, hp⟩ := List.mem_flatMap.1 hp
      exact Place.isElement_of_holds (List.mem_filter.1 (List.mem_of_mem_filter hp)).2
  | footerColumn => exact (isPart_of_anchors hp).1.2
  | _ => cases hp

theorem mem_descend_of_moved (hp : p ∈ role.moved root) : p ∈ root.descend := by
  cases role with
  | generic => exact List.mem_of_mem_filter (List.mem_of_mem_filter hp)
  | header =>
    have hmenu : p ∈ (HeaderParts.locate root).mobileMenu.toList := by
      rw [moved] at hp
      split at hp
      · cases hp
      · exact hp
    exact List.mem_of_find?_eq_some (Option.mem_toList.1 hmenu)
  | footerColumn => exact (FooterParts.paragraphs_sublist root).subset hp
  | teamMember =>
    rcases List.mem_append.1 hp with hp | hp
    · exact List.mem_of_mem_filter (List.mem_of_mem_filter (List.mem_of_mem_filter hp))
    · obtain ⟨link, hlink, rfl⟩ := List.mem_map.1 hp
      obtain ⟨a, ha, hlink⟩ := List.mem_filterMap.1 hlink
      obtain ⟨name, -, rfl⟩ := Option.map_eq_some_iff.1 hlink
      exact List.mem_of_mem_filter ha
  | beforeAfter => cases hp

theorem mem_descend_of_takenOut (hp : p ∈ role.takenOut root) : p ∈ root.descend := by
  suffices h : p ∈ role.moved root ∨ p ∈ role.links root from
    h.elim mem_descend_of_moved mem_descend_of_links
  cases role with
  | generic => exact Or.inl (List.mem_of_mem_tail hp)
  | header =>
    exact Or.inr (List.mem_append.2 ((List.mem_append.1 hp).imp_left List.mem_of_mem_drop))
  | footerColumn =>
    refine (List.mem_append.1 hp).imp List.mem_of_mem_tail fun hp => ?_
    exact List.mem_append.2 ((List.mem_append.1 hp).imp List.mem_of_mem_tail List.mem_of_mem_tail)
  | teamMember => exact Or.inl (List.mem_append_left _ (List.mem_of_mem_tail hp))
  | beforeAfter => cases hp

/-- An element that binding leaves in its place, in the gap that it stands in. -/
structure Seated (role : BlockRole) (start : Document) (g : Gap) (root : Place) : Prop where
  distinct : start.Distinct
  mem : root ∈ start.places
  outside : ∀ i ∈ root.tree.ids, i ∉ g.ids
  spares : role.Spares root

namespace Seated

variable (hroot : role.Seated start g root)
include hroot

theorem not_mem (hp : p ∈ root.descend) : p.id ∉ g.ids :=
  hroot.outside _ (Place.id_mem_of_mem_descend hp)

theorem moved (hp : p ∈ role.moved root) : p.id ∉ g.ids ∧ p.id ≠ root.tree.id :=
  ⟨hroot.not_mem (mem_descend_of_moved hp), hroot.spares.moved p hp⟩

/-- The nodes that are taken out were in the element. -/
theorem taken_lt : ∀ y ∈ role.takenIds root, y < start.next :=
  List.forall_mem_map.2 fun _ hp =>
    hroot.distinct.lt_next_of_place (mem_places_descend hroot.mem (mem_descend_of_takenOut hp))

/-- The item that a link takes along is no node around the element, and is not the element. -/
theorem linkItem (h : Held start g root.tree (role.takenIds root) d)
    (hp : p ∈ role.links root) : d.linkItem p.id ∉ g.ids ∧ d.linkItem p.id ≠ root.tree.id := by
  have hout := hroot.not_mem (mem_descend_of_links hp)
  obtain ⟨hne, hitem⟩ := hroot.spares.links p hp
  rcases d.linkItem_eq_or p.id with heq | ⟨q, parent, hq, hparent, heq, hli, hone⟩ <;> rw [heq]
  · exact ⟨hout, hne⟩
  · have hmem := mem_places_of_place? hq
    have hid : q.id = p.id := id_of_place? hq
    obtain ⟨haway, hchild⟩ := h.parent hmem (hid ▸ hout) (hid ▸ hne) hparent
    refine ⟨haway, fun hself => ?_⟩
    obtain ⟨htended, hin⟩ := hchild hself
    have hplace := mem_places_descend hroot.mem (mem_descend_of_links hp)
    have hold : q.id < start.next := hid ▸ hroot.distinct.lt_next_of_place hplace
    -- The element is an item of a list, so another element was left in it beside the link.
    have hroottag : root.tree.isTag ["li"] := by
      have hparentmem := tree_mem_nodes (mem_places_of_parent? hmem hparent)
      rw [Tree.isTag, ← h.tag?_eq hroot.distinct hroot.mem hparentmem hself]
      exact hli
    obtain ⟨s, hs, hsitem, hsne, hstays⟩ := hitem hroottag (hid ▸ htended.own q.tree hin hold)
    obtain ⟨c, hc, hcitem, hcid⟩ := htended.left ⟨q.tree, hin, hold⟩ s hs hsitem hstays
    have hqelement : q.tree.isElement := by
      have hlink : p.isElement := isElement_of_links hp
      rw [Place.isElement, Tree.isElement_eq_isSome] at hlink
      rwa [Tree.isElement_eq_isSome, h.tag?_eq hroot.distinct hplace (tree_mem_nodes hmem) hid]
    have hsame : c.id = p.id := (congrArg Tree.id
      (hone c hc q.tree hin (Tree.isElement_of_isNoItem hcitem) hqelement)).trans hid
    rcases hcid with hcid | hnew
    · exact hsne (hcid.symm.trans hsame)
    · exact Nat.not_le.2 hold (hid.trans hsame.symm ▸ hnew)

end Seated

end BlockRole

namespace Document.Held

variable {start d : Document} {g : Gap} {root p : Place} {definition : BlockDefinition}
  {taken : List NodeId}

section

variable {role : BlockRole} (hroot : role.Seated start g root)
  (h : Held start g root.tree (role.takenIds root) d)
include hroot h

theorem detachLink (hp : p ∈ role.links root) (htaken : p ∈ role.takenOut root) :
    Held start g root.tree (role.takenIds root) (d.detachLink p) :=
  h.apply (e := .detach (d.linkItem p.id))
    ⟨hroot.linkItem h hp, h.distinct.goes_linkItem (List.mem_map_of_mem htaken)⟩

theorem detachLinks {links : List Place}
    (hlinks : ∀ p ∈ links, p ∈ role.links root ∧ p ∈ role.takenOut root) :
    Held start g root.tree (role.takenIds root) (links.foldl Document.detachLink d) :=
  List.foldlRecOn links _ h fun _ h p hp => h.detachLink hroot (hlinks p hp).1 (hlinks p hp).2

theorem wrapLink (hp : p ∈ role.links root) (before after : String) :
    Held start g root.tree (role.takenIds root) (d.wrapLink p before after) :=
  h.apply (e := .wrap (d.linkItem p.id) before after) (hroot.linkItem h hp)

end

theorem bindRating (h : Held start g root.tree taken d) (hp : p.id ∉ g.ids) :
    Held start g root.tree taken (bindRating d p) := by
  refine apply (e := .setText p.id _) ?_ hp
  split
  case isTrue => exact h.setAttribute hp _ _
  case isFalse => exact h

theorem bindButton (h : Held start g root.tree taken d) (hp : p.id ∉ g.ids) :
    Held start g root.tree taken (bindButton d p) := by
  have hshown := h.showSetting hp "button_text"
  unfold BlockDefinition.bindButton
  dsimp only
  split
  case isTrue => exact hshown.setAttribute hp _ _
  case isFalse => exact hshown

theorem bindGeneric (hroot : BlockRole.Seated .generic start g root)
    (h : Held start g root.tree (BlockRole.takenIds .generic root) d) :
    Held start g root.tree (BlockRole.takenIds .generic root) (bindGeneric definition root d) := by
  have hparts := BlockParts.mem_descend_locate root
  simp only [List.forall_mem_cons] at hparts
  obtain ⟨hheading, hsubheading, hauthor, hprice, hbutton, himage, -⟩ := hparts
  have h := h.showPart definition _ "heading" fun p hp _ => hroot.not_mem (hheading p hp)
  have h := h.showPart definition _ "subheading" fun p hp _ => hroot.not_mem (hsubheading p hp)
  have h := h.showPart definition _ "author" fun p hp _ => hroot.not_mem (hauthor p hp)
  have h := h.showPart definition _ "price" fun p hp _ => hroot.not_mem (hprice p hp)
  have h := h.ofPart definition (BlockParts.locate root).rating "rating" BlockDefinition.bindRating
    fun p hp => h.bindRating (hroot.not_mem (List.mem_of_mem_filter (List.mem_of_find?_eq_some hp)))
  have h := h.ofPart definition (BlockParts.locate root).icon "icon"
    (fun d icon => d.showInAttribute icon.id "class" "icon") fun p hp =>
      h.setAttribute (hroot.not_mem (List.mem_of_mem_filter (List.mem_of_find?_eq_some hp))) _ _
  have h := h.ofPart definition (BlockParts.locate root).button "button_text"
    BlockDefinition.bindButton fun p hp => h.bindButton (hroot.not_mem (hbutton p hp))
  have h := h.ofPart definition (BlockParts.locate root).image "image"
    (fun d image => d.showDescribedImage image.id "image")
    fun p hp => h.showDescribedImage (hroot.not_mem (himage p hp)) "image"
  have hrich : ∀ p ∈ (BlockParts.locate root).description, p.id ∉ g.ids ∧ p.id ≠ root.tree.id :=
    fun p hp => hroot.moved hp
  have h := (h.showRichText hrich (fun p hp => List.mem_map_of_mem hp) "description").ite
    (definition.has "description") h
  have hbackground := h.apply (e := .background root.id (Liquid.imageSource .block
    "background_image" (Liquid.reference .block "background_image_src") backgroundWidth))
      (hroot.not_mem (Place.self_mem_descend root))
  exact hbackground.ite (definition.has "background_image") h

theorem bindNavLinks (definition : BlockDefinition) (hroot : BlockRole.Seated .header start g root)
    (h : Held start g root.tree (BlockRole.takenIds .header root) d) {links : List Place}
    (hlinks : ∀ p n, (p, n) ∈ links.zipIdx 1 → p ∈ BlockRole.links .header root ∧
      (navTextId n ∉ definition.ids → p ∈ BlockRole.takenOut .header root)) :
    Held start g root.tree (BlockRole.takenIds .header root) (bindNavLinks definition d links) := by
  refine List.foldlRecOn _ _ h fun d h numbered hnumbered => ?_
  obtain ⟨p, n⟩ := numbered
  obtain ⟨hlink, htaken⟩ := hlinks p n hnumbered
  have hp := hroot.not_mem (BlockRole.mem_descend_of_links hlink)
  have hshown := (h.showSetting hp (navTextId n)).setAttribute hp "href"
    (Liquid.reference .block (navUrlId n))
  have hwrapped := hshown.wrapLink hroot hlink (Liquid.ifPresent (navTextId n)) Liquid.endIf
  dsimp only
  split
  case isTrue => exact hwrapped
  case isFalse hnone => exact h.detachLink hroot hlink (htaken fun hid => hnone (has_iff.2 hid))

theorem bindHeader (hroot : BlockRole.Seated .header start g root)
    (h : Held start g root.tree (BlockRole.takenIds .header root) d)
    (hsettings : definition.settings = headerSettings (.read .header root)) :
    Held start g root.tree (BlockRole.takenIds .header root) (bindHeader definition root d) := by
  have h := h.ofPart definition (HeaderParts.locate root).logoImage "logo"
    (fun d image => d.showImage image.id "logo")
    fun p hp => h.showImage (hroot.not_mem (List.mem_of_find?_eq_some hp)) "logo"
  have h := h.showPart definition _ "logo_text" fun p hp hid =>
    hroot.not_mem (tells_logoText hsettings hp hid).1
  have h := h.bindNavLinks definition hroot fun p n hp =>
    ⟨List.mem_append_left _ (List.fst_mem_of_mem_zipIdx hp), fun hnone =>
      List.mem_append_left _ (mem_drop_nav hsettings hp hnone)⟩
  unfold BlockDefinition.bindHeader
  dsimp only
  split
  case h_1 => exact h
  case h_2 menu hmenu =>
    split
    case isTrue hhas =>
      have h := h.bindNavLinks definition hroot fun p n hp =>
        ⟨List.mem_append_right _ (List.fst_mem_of_mem_zipIdx hp), fun _ =>
          List.mem_append_right _ (List.fst_mem_of_mem_zipIdx hp)⟩
      refine h.apply (e := .wrap menu.id _ _) (hroot.moved ?_)
      rw [BlockRole.moved, hmenu, if_neg (mobileLinks_ne_nil hsettings (has_iff.1 hhas))]
      exact List.mem_singleton_self _
    case isFalse => exact h

theorem bindLinks (hroot : BlockRole.Seated .footerColumn start g root)
    (h : Held start g root.tree (BlockRole.takenIds .footerColumn root) d) {links : List Place}
    (hlinks : ∀ p ∈ links, p ∈ BlockRole.links .footerColumn root)
    (htaken : ∀ p ∈ links.tail, p ∈ BlockRole.takenOut .footerColumn root) :
    Held start g root.tree (BlockRole.takenIds .footerColumn root) (bindLinks d links) := by
  unfold BlockDefinition.bindLinks
  split
  case h_1 => exact h
  case h_2 first rest =>
    obtain ⟨hfirst, hrest⟩ := List.forall_mem_cons.1 hlinks
    have hout := hroot.not_mem (BlockRole.mem_descend_of_links hfirst)
    have h := h.detachLinks hroot fun p hp => ⟨hrest p hp, htaken p hp⟩
    have h := h.apply (e := .setText first.id (Liquid.output "block.settings[link_text_key]")) hout
    have h := h.setAttribute hout "href" (Liquid.output "block.settings[link_url_key]")
    exact h.wrapLink hroot hfirst _ _

theorem bindSocialLinks (hroot : BlockRole.Seated .footerColumn start g root)
    (h : Held start g root.tree (BlockRole.takenIds .footerColumn root) d) {links : List Place}
    (hlinks : ∀ p ∈ links, p ∈ BlockRole.links .footerColumn root)
    (htaken : ∀ p ∈ links.tail, p ∈ BlockRole.takenOut .footerColumn root) :
    Held start g root.tree (BlockRole.takenIds .footerColumn root) (bindSocialLinks d links) := by
  unfold BlockDefinition.bindSocialLinks
  split
  case h_1 => exact h
  case h_2 first rest =>
    obtain ⟨hfirst, hrest⟩ := List.forall_mem_cons.1 hlinks
    have hout := hroot.not_mem (BlockRole.mem_descend_of_links hfirst)
    have h := h.detachLinks hroot fun p hp => ⟨hrest p hp, htaken p hp⟩
    have h := h.setAttribute hout "href" (Liquid.output "block.settings[social_key]")
    have h := h.setAttribute hout "aria-label" (Liquid.output "platform | capitalize")
    refine wrapLink hroot (List.foldlRecOn _ _ h fun d h' icon hicon => ?_) hfirst _ _
    obtain ⟨p, hp, hicon⟩ := List.mem_flatMap.1 hicon
    have hp := Option.mem_toList.1 hp
    have hid : p.id = first.id := id_of_place? hp
    exact h'.setAttribute (h.not_mem_ids (mem_places_of_place? hp) (hid ▸ hout)
      (List.mem_of_mem_filter hicon)) _ _

theorem bindFooterColumn (hroot : BlockRole.Seated .footerColumn start g root)
    (h : Held start g root.tree (BlockRole.takenIds .footerColumn root) d) :
    Held start g root.tree (BlockRole.takenIds .footerColumn root) (bindFooterColumn definition root d) := by
  have h := h.showPart definition _ "heading" fun p hp _ =>
    hroot.not_mem (FooterParts.mem_descend_of_heading hp)
  have hrich : ∀ p ∈ (FooterParts.locate root).paragraphs, p.id ∉ g.ids ∧ p.id ≠ root.tree.id :=
    fun p hp => hroot.moved hp
  have h := (h.showRichText hrich (fun p hp => List.mem_map_of_mem (List.mem_append_left _ hp))
    "description").ite (definition.has "description") h
  have h := (h.bindLinks hroot (fun p hp => List.mem_append_left _ hp) fun p hp =>
    List.mem_append_right _ (List.mem_append_left _ hp)).ite (definition.has (linkTextId 1)) h
  exact (h.bindSocialLinks hroot (fun p hp => List.mem_append_right _ hp) fun p hp =>
    List.mem_append_right _ (List.mem_append_right _ hp)).ite
      (definition.has (footerSocialId "facebook")) h

theorem bindTeamMember (hroot : BlockRole.Seated .teamMember start g root)
    (h : Held start g root.tree (BlockRole.takenIds .teamMember root) d) :
    Held start g root.tree (BlockRole.takenIds .teamMember root) (bindTeamMember definition root d) := by
  have hparts := BlockParts.mem_descend_locate root
  simp only [List.forall_mem_cons] at hparts
  obtain ⟨hheading, hsubheading, -, -, -, himage, -⟩ := hparts
  have h := h.forPart (fun p hp => hroot.not_mem (hheading p hp)) "name"
  have h := h.forPart (fun p hp => hroot.not_mem (hsubheading p hp)) "position"
  have h := h.ofPart definition (BlockParts.locate root).image "image"
    (fun d image => d.showDescribedImage image.id "image")
    fun p hp => h.showDescribedImage (hroot.not_mem (himage p hp)) "image"
  have h := (h.showRichText (fun p hp => hroot.moved (List.mem_append_left _ hp))
    (fun p hp => List.mem_map_of_mem hp) "bio").ite (definition.has "bio") h
  refine List.foldlRecOn (teamLinks root) _ h fun d h link hlink => ?_
  have hmoved := hroot.moved (List.mem_append_right _ (List.mem_map_of_mem hlink))
  exact (h.setAttribute hmoved.1 "href" _).apply (e := .wrap link.1.id _ _) hmoved

theorem bindBeforeAfter (hroot : BlockRole.Seated .beforeAfter start g root)
    (h : Held start g root.tree (BlockRole.takenIds .beforeAfter root) d) :
    Held start g root.tree (BlockRole.takenIds .beforeAfter root) (bindBeforeAfter definition root d) := by
  have hfound : ∀ {selector}, ∀ p ∈ root.first? selector, p.id ∉ g.ids := fun p hp =>
    hroot.not_mem (List.mem_of_find?_eq_some hp)
  have h := h.showPart definition (ComparisonParts.locate root).heading "heading" fun p hp _ =>
    hfound p hp
  refine showPart (showPart (List.foldlRecOn _ _ h fun d h paired hpaired => ?_) definition _ _
    fun p hp _ => hfound p hp) definition _ _ fun p hp _ => hfound p hp
  obtain ⟨⟨id, title⟩, image⟩ := paired
  have himage := (List.of_mem_zip hpaired).2
  exact (h.showImage (hroot.not_mem (List.mem_of_mem_filter (List.mem_of_mem_filter
    (List.mem_of_mem_take himage)))) id).ite (definition.has id) h

/-- An element that is none of the parts which are moved stays where it is when it is bound. -/
theorem bind {role : BlockRole} (hroot : role.Seated start g root)
    (h : Held start g root.tree (role.takenIds root) d)
    (hheader : role = .header → definition.settings = headerSettings (.read .header root)) :
    Held start g root.tree (role.takenIds root) (definition.bind role root d) := by
  cases role with
  | generic => exact h.bindGeneric hroot
  | header => exact h.bindHeader hroot (hheader rfl)
  | footerColumn => exact h.bindFooterColumn hroot
  | teamMember => exact h.bindTeamMember hroot
  | beforeAfter => exact h.bindBeforeAfter hroot

end Document.Held

end ThemeSection
