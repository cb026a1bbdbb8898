import ThemeSection.Proofs.Assets
import ThemeSection.Proofs.Block.Fidelity

/-!
The five roles. Binding an element of any role puts references into slots only where the record of the
element tells what the slot held.
-/

namespace ThemeSection

open Markup Liquid Document

namespace BlockParts

variable {root p : Place}

/-- A heading and a subheading that are found have a text. -/
theorem ne_empty_of_firstFree? {taken : List Place} {selector : Selector}
    (h : firstFree? root taken selector = some p) : p.tree.plainText ≠ "" := by
  have hfound := List.find?_some h
  simp only [Bool.and_eq_true, bne_iff_ne] at hfound
  exact hfound.2

variable (root) in
theorem ne_empty_locate : ∀ part ∈ [(locate root).heading, (locate root).subheading],
    ∀ p ∈ part, p.tree.plainText ≠ "" := by
  simp only [List.forall_mem_cons]
  refine ⟨fun p hp => ?_, fun p hp => ?_, List.forall_mem_nil _⟩
  · exact (Option.or_eq_some_iff.1 hp).elim ne_empty_of_firstFree?
      fun h => ne_empty_of_firstFree? h.2
  · exact (Option.or_eq_some_iff.1 hp).elim ne_empty_of_firstFree?
      fun h => ne_empty_of_firstFree? h.2

end BlockParts

namespace BlockDefinition

variable {definition : BlockDefinition} {role : BlockRole} {root p : Place} {start d : Document}

theorem head?_navIds (n : Nat) :
    (navTextId n).toList.head? = some 'n' ∧ (navUrlId n).toList.head? = some 'n' := by
  simp [navTextId, navUrlId]

/-- An id that does not begin as those of links do is of no link. -/
theorem not_mem_navIds {id : String} (h : id.toList.head? ≠ some 'n') (n : Nat) :
    id ∉ [navTextId n, navUrlId n] := by
  simp only [List.mem_cons, List.not_mem_nil, or_false, not_or]
  exact ⟨fun heq => h (heq ▸ (head?_navIds n).1), fun heq => h (heq ▸ (head?_navIds n).2)⟩

/-- A header has a logo setting only for what it shows. -/
theorem isSome_logo (hsettings : definition.settings = headerSettings (.read .header root)) :
    ("logo" ∈ definition.ids → (BlockInstance.read .header root).image.isSome) ∧
      ("logo_text" ∈ definition.ids → (BlockInstance.read .header root).logoText.isSome) := by
  have hnav : ∀ {id}, id.toList.head? ≠ some 'n' → ∀ n, id ≠ navTextId n ∧ id ≠ navUrlId n :=
    fun h n => by simpa using not_mem_navIds h n
  constructor
  · intro hid
    rw [ids, hsettings, mem_ids_headerSettings] at hid
    rcases hid with ⟨himage, -⟩ | ⟨-, heq⟩ | ⟨n, -, heq | heq⟩ | ⟨-, heq⟩
    · exact himage
    · exact absurd heq (by decide)
    · exact absurd heq (hnav (by decide) n).1
    · exact absurd heq (hnav (by decide) n).2
    · exact absurd heq (by decide)
  · intro hid
    rw [ids, hsettings, mem_ids_headerSettings] at hid
    rcases hid with ⟨-, hmem⟩ | ⟨htext, -⟩ | ⟨n, -, heq | heq⟩ | ⟨-, heq⟩
    · exact absurd hmem (by decide)
    · exact htext
    · exact absurd heq (hnav (by decide) n).1
    · exact absurd heq (hnav (by decide) n).2
    · exact absurd heq (by decide)

/-- The text of a logo has a setting only where a node is marked as the logo and there is no image. -/
theorem tells_logoText (hsettings : definition.settings = headerSettings (.read .header root))
    (hp : p ∈ (HeaderParts.locate root).logo) (hid : "logo_text" ∈ definition.ids) :
    p ∈ root.descend ∧
      definition.Tells .header (.read .header root) "logo_text" (Slot.text.value p) := by
  have hsome := (isSome_logo hsettings).2 hid
  have htext : (BlockInstance.read .header root).logoText =
      if (HeaderParts.locate root).logoImage.isSome then none
      else (HeaderParts.locate root).logo.bind nonemptyText? := rfl
  cases himage : (HeaderParts.locate root).logoImage with
  | some image =>
    rw [htext, himage] at hsome
    cases hsome
  | none =>
    rw [himage] at htext
    have hmarked : (root.first? HeaderParts.logos).or
        ((HeaderParts.locate root).logoImage.bind fun image =>
          image.ancestors.find? (·.tree.isTag ["a"])) = some p := hp
    rw [himage, Option.bind_none, Option.or_none] at hmarked
    refine ⟨List.mem_of_find?_eq_some hmarked, tells_text hsettings hid (by decide) hp ?_ ?_⟩
    · exact htext
    · exact hsome

theorem fills_bindHeader (hroot : root.Distinct)
    (hsettings : definition.settings = headerSettings (.read .header root)) :
    Fills (definition.Fillings .header root) d (bindHeader definition root d) := by
  have hfixed : ∀ {p : Place} {id : String}, id.toList.head? ≠ some 'n' →
      ∀ n, IsMobileLink .header root p n → id ∉ [navTextId n, navUrlId n] :=
    fun h n _ => not_mem_navIds h n
  have hsource : "logo" ∈ definition.ids → "logo_src" ∈ definition.ids := by
    rw [ids, hsettings]
    exact companion_logo
  have hlogo : "logo" ∈ definition.ids →
      ((BlockInstance.read .header root).valueOf? .header "logo_src").isSome := by
    intro hid
    have hsome := (isSome_logo hsettings).1 hid
    rwa [BlockInstance.valueOf?, BlockInstance.headerValue?, Option.isSome_map]
  have h : Fills (definition.Fillings .header root) d d := .refl
  have h := fills_ofPart h (HeaderParts.locate root).logoImage "logo"
    (fun d image => d.showImage image.id "logo") fun p hp hid =>
      fills_showImage hroot h (List.mem_of_find?_eq_some hp) (faithful_own (by decide)
        (tells_src hsettings (hsource hid) (by decide) hp rfl (hlogo hid)) (hfixed (by decide)))
  have h := fills_showPart hroot h fun p (hp : p ∈ (HeaderParts.locate root).logo) hid => by
    obtain ⟨hdescend, htells⟩ := tells_logoText hsettings hp hid
    exact ⟨hdescend, faithful_own (by decide) htells (hfixed (by decide))⟩
  have h := fills_bindNavLinks hroot h fun p n hp hid =>
    ⟨List.mem_of_mem_filter (List.mem_of_mem_filter (List.mem_of_mem_filter
      (List.fst_mem_of_mem_zipIdx hp))), faithful_nav hroot hsettings hp hid⟩
  unfold bindHeader
  dsimp only
  split
  case h_1 => exact h
  case h_2 menu hmenu =>
    split
    case isTrue =>
      have h := fills_bindNavLinks hroot h fun p n hp hid => by
        obtain ⟨menu, hmenu, hin⟩ := List.mem_flatMap.1 (List.fst_mem_of_mem_zipIdx hp)
        exact ⟨Place.descend_trans (List.mem_of_find?_eq_some (Option.mem_toList.1 hmenu))
          (mem_descend_of_textLinks hin), faithful_mobile hsettings ⟨rfl, hp⟩ hid⟩
      exact fills_wrap h _ (second_tag _) (second_tag _)
    case isFalse => exact h

/-- The link that a footer column keeps is the first one, and the record tells of it. -/
theorem tells_firstLink (hsettings : definition.settings = footerColumnSettings (.read .footerColumn root))
    {rest : List Place} (hlinks : (FooterParts.locate root).links = p :: rest)
    (hid : linkTextId 1 ∈ definition.ids) :
    definition.Tells .footerColumn (.read .footerColumn root) (linkTextId 1) (Slot.text.value p) ∧
      definition.Tells .footerColumn (.read .footerColumn root) (linkUrlId 1) (Slot.href.value p) := by
  have hurl : linkUrlId 1 ∈ definition.ids := by
    rw [ids, hsettings] at hid ⊢
    exact (companions_linkTextId hid 1 (by decide)).2
  have hread : (BlockInstance.read .footerColumn root).links =
      ((FooterParts.locate root).links.take BlockInstance.linkSlots).map linkRef := rfl
  have hfirst : (BlockInstance.read .footerColumn root).links[1 - 1]? = some (linkRef p) := by
    rw [hread, hlinks]
    rfl
  obtain ⟨htext, haddress⟩ := footerColumnValue?_slot (.read .footerColumn root) (n := 1) (by decide)
  rw [hfirst] at htext haddress
  have hother : linkTextId 1 ∉ otherIds ∧ linkUrlId 1 ∉ otherIds := by decide +kernel
  have htells : definition.Tells .footerColumn (.read .footerColumn root) (linkUrlId 1)
      (Text.trim (Slot.href.value p)) := tells_of_valueOf? hsettings hurl hother.2 haddress
  exact ⟨tells_of_valueOf? hsettings hid hother.1 htext, htells.of_trim⟩

theorem mem_of_platform? {platforms : List String} {platform : String}
    (h : platform? platforms p = some platform) : platform ∈ platforms := by
  rw [platform?] at h
  exact List.mem_of_find?_eq_some h

/-- The address that is found for a platform is that of the first link to it. -/
theorem social?_of_find? {said : BlockInstance} {links : List (Place × String)} {platform : String}
    (hlinks : said.socialLinks = BlockInstance.socialLinksOf links)
    (hp : links.find? (·.2 == platform) = some (p, platform)) :
    said.social? platform = some (Text.trim (Slot.href.value p)) := by
  rw [BlockInstance.social?, hlinks, BlockInstance.socialLinksOf, List.find?_map]
  have hsame : ((fun s : SocialLink => s.platform == platform) ∘
      fun link : Place × String => (⟨link.2, (linkRef link.1).url⟩ : SocialLink)) =
        fun link => link.2 == platform := rfl
  rw [hsame, hp]
  rfl

/-- The social link that a footer column keeps is the first one, and the record tells of it. -/
theorem tells_firstSocial
    (hsettings : definition.settings = footerColumnSettings (.read .footerColumn root))
    {platform : String} {rest : List (Place × String)}
    (hsocial : (FooterParts.locate root).social = (p, platform) :: rest)
    (hid : footerSocialId "facebook" ∈ definition.ids) :
    platform? FooterParts.platforms p = some platform ∧
      definition.Tells .footerColumn (.read .footerColumn root) (footerSocialId platform)
        (Slot.href.value p) := by
  have hin : (p, platform) ∈ (FooterParts.locate root).social := hsocial ▸ List.mem_cons_self
  obtain ⟨a, -, hfound⟩ := List.mem_filterMap.1 hin
  obtain ⟨name, hname, heq⟩ := Option.map_eq_some_iff.1 hfound
  obtain ⟨rfl, rfl⟩ := Prod.mk.inj heq
  have hplatform : name ∈ FooterParts.platforms := mem_of_platform? hname
  have hids : footerSocialId name ∈ definition.ids := by
    rw [ids, hsettings] at hid ⊢
    exact companions_footerSocialId hid name hplatform
  have hother : ∀ platform ∈ FooterParts.platforms, footerSocialId platform ∉ otherIds := by decide
  have hfirst : (FooterParts.locate root).social.find? (·.2 == name) = some (a, name) := by
    rw [hsocial, List.find?_cons_of_pos (by simp)]
  have hvalue : (BlockInstance.read .footerColumn root).valueOf? .footerColumn
      (footerSocialId name) = some (Text.trim (Slot.href.value a)) :=
    (footerColumnValue?_of_platform hplatform).trans (social?_of_find? rfl hfirst)
  exact ⟨hname, (tells_of_valueOf? hsettings hids (hother name hplatform) hvalue).of_trim⟩

theorem second_loopClose : loopClose.toList[1]? = some '%' := by
  decide

section

variable (hroot : root.Distinct) (h : Fills (definition.Fillings .footerColumn root) start d)
  (hsettings : definition.settings = footerColumnSettings (.read .footerColumn root))
include hroot h hsettings

theorem fills_bindLinks (hid : linkTextId 1 ∈ definition.ids) :
    Fills (definition.Fillings .footerColumn root) start
      (bindLinks d (FooterParts.locate root).links) := by
  unfold bindLinks
  split
  case h_1 => exact h
  case h_2 p rest hlinks =>
    have hp : p ∈ (FooterParts.locate root).links := hlinks ▸ List.mem_cons_self
    have hdescend : p ∈ root.descend := List.mem_of_mem_filter (List.mem_of_mem_filter hp)
    obtain ⟨htext, haddress⟩ := tells_firstLink hsettings hlinks hid
    have htextKey : definition.Faithful .footerColumn root p .text
        (output ("block.settings[" ++ "link_text_key" ++ "]")) := by
      refine faithful_computed (by decide) (fun looped hlooped hslot _ => ?_) fun hslot => by cases hslot
      simp only [List.mem_cons, List.not_mem_nil, or_false] at hlooped
      rcases hlooped with rfl | rfl
      · exact htext
      · cases hslot
    have hurlKey : definition.Faithful .footerColumn root p .href
        (output ("block.settings[" ++ "link_url_key" ++ "]")) := by
      refine faithful_computed (by decide) (fun looped hlooped hslot _ => ?_)
        fun _ heq => absurd heq (by decide)
      simp only [List.mem_cons, List.not_mem_nil, or_false] at hlooped
      rcases hlooped with rfl | rfl
      · cases hslot
      · exact haddress
    have hleft : Fills (definition.Fillings .footerColumn root) start
        (rest.foldl Document.detachLink d) :=
      List.foldlRecOn rest _ h fun _ h _ _ => h.trans (.detach _)
    have hshown := hleft.trans (.setText (fillings_of_faithful hroot hdescend htextKey))
    have hloop : linkLoopOpen.toList[1]? = some '%' :=
      second_append (second_append (second_append (second_tag _)))
    exact fills_wrap (fills_setHref hroot hshown hdescend hurlKey) _ hloop second_loopClose

theorem fills_bindSocialLinks (hid : footerSocialId "facebook" ∈ definition.ids) :
    Fills (definition.Fillings .footerColumn root) start
      (bindSocialLinks d ((FooterParts.locate root).social.map (·.1))) := by
  unfold bindSocialLinks
  split
  case h_1 => exact h
  case h_2 p rest hlinks =>
    obtain ⟨⟨q, platform⟩, others, hsocial, rfl, rfl⟩ := List.map_eq_cons_iff.1 hlinks
    have hin : (q, platform) ∈ (FooterParts.locate root).social := hsocial ▸ List.mem_cons_self
    obtain ⟨a, ha, hfound⟩ := List.mem_filterMap.1 hin
    obtain ⟨name, -, heq⟩ := Option.map_eq_some_iff.1 hfound
    obtain ⟨rfl, rfl⟩ := Prod.mk.inj heq
    have hdescend : a ∈ root.descend := List.mem_of_mem_filter ha
    have hkey : definition.Faithful .footerColumn root a .href
        (output ("block.settings[" ++ "social_key" ++ "]")) := by
      have hkeys : ∀ looped ∈ [(Slot.text, "link_text_key", linkTextId 1),
          (Slot.href, "link_url_key", linkUrlId 1)], looped.2.1 ≠ "social_key" := by simp
      exact faithful_computed (by decide)
        (fun looped hlooped _ heq => absurd heq.symm (hkeys looped hlooped))
        fun _ _ => ⟨name, tells_firstSocial hsettings hsocial hid⟩
    have hleft : Fills (definition.Fillings .footerColumn root) start
        ((others.map (·.1)).foldl Document.detachLink d) :=
      List.foldlRecOn _ _ h fun _ h _ _ => h.trans (.detach _)
    have hshown := fills_setHref hroot hleft hdescend hkey
    have hlabel := fills_setAttribute hshown a.id (show "aria-label" ∉ Slot.attributes by decide)
      (output "platform | capitalize")
    have hicons : ∀ icons : List Place, Fills (definition.Fillings .footerColumn root) start
        (icons.foldl (fun d icon => d.setAttribute icon.id "class" ("fab fa-" ++ output "platform"))
          _) := fun icons =>
      List.foldlRecOn icons _ hlabel fun _ h icon _ => fills_setAttribute h icon.id (by decide) _
    have hloop : socialLoopOpen.toList[1]? = some '%' :=
      second_append (second_append (second_append (second_tag _)))
    exact fills_wrap (hicons _) _ hloop second_loopClose

end

/-- A setting of a footer column that is there for a heading is of its heading. -/
theorem tells_footerHeading
    (hsettings : definition.settings = footerColumnSettings (.read .footerColumn root))
    (hp : p ∈ (FooterParts.locate root).heading) (hid : "heading" ∈ definition.ids) :
    p ∈ root.descend ∧
      definition.Tells .footerColumn (.read .footerColumn root) "heading" (Slot.text.value p) := by
  have hvalue : (BlockInstance.read .footerColumn root).valueOf? .footerColumn "heading" =
      (FooterParts.locate root).heading.map (·.tree.plainText) := rfl
  rw [hp, Option.map_some] at hvalue
  have hfound := (Option.filter_eq_some_iff.1 hp).1
  exact ⟨List.mem_of_find?_eq_some hfound, tells_of_valueOf? hsettings hid (by decide) hvalue⟩

theorem fills_bindFooterColumn (hroot : root.Distinct)
    (hsettings : definition.settings = footerColumnSettings (.read .footerColumn root)) :
    Fills (definition.Fillings .footerColumn root) d (bindFooterColumn definition root d) := by
  have hmobile : ∀ {p : Place} (id : String), ∀ n, IsMobileLink .footerColumn root p n →
      id ∉ [navTextId n, navUrlId n] := fun id => not_isMobileLink (by decide) id
  have h : Fills (definition.Fillings .footerColumn root) d d := .refl
  have h := fills_showPart hroot h fun p hp hid => by
    obtain ⟨hdescend, htells⟩ := tells_footerHeading hsettings hp hid
    exact ⟨hdescend, faithful_own (by decide) htells (hmobile _)⟩
  have hrich : ∀ {d' : Document}, Fills (definition.Fillings .footerColumn root) d d' →
      Fills (definition.Fillings .footerColumn root) d
        (if definition.has "description" then
          d'.showRichText (FooterParts.locate root).paragraphs "description" else d') := by
    intro d' h
    split
    · exact fills_showRichText h _ _
    · exact h
  have hlinked : ∀ {d' : Document}, Fills (definition.Fillings .footerColumn root) d d' →
      Fills (definition.Fillings .footerColumn root) d
        (if definition.has (linkTextId 1) then bindLinks d' (FooterParts.locate root).links
          else d') := by
    intro d' h
    split
    case isTrue hhas => exact fills_bindLinks hroot h hsettings (has_iff.1 hhas)
    case isFalse => exact h
  have h := hlinked (hrich h)
  unfold bindFooterColumn
  dsimp only
  split
  case isTrue hhas => exact fills_bindSocialLinks hroot h hsettings (has_iff.1 hhas)
  case isFalse => exact h

section

variable (hsettings : definition.settings = teamMemberSettings (.read .teamMember root))
include hsettings

/-- The name and the position are always settings. -/
theorem tells_fixed {id : String} (hfixed : id ∈ ["name", "position"]) {part : Option Place}
    (hp : p ∈ part) (htext : p.tree.plainText ≠ "")
    (hvalue : (BlockInstance.read .teamMember root).valueOf? .teamMember id = part.bind nonemptyText?) :
    definition.Tells .teamMember (.read .teamMember root) id (Slot.text.value p) := by
  have hid : id ∈ definition.ids := by
    rw [ids, hsettings]
    exact mem_ids_teamMemberSettings.2 (Or.inl hfixed)
  have hother : ∀ id ∈ ["name", "position"], id ∉ otherIds := by decide
  have hshown : nonemptyText? p = some p.tree.plainText := nonemptyText?_eq_some.2 ⟨rfl, htext⟩
  rw [hp, Option.bind_some, hshown] at hvalue
  exact tells_of_valueOf? hsettings hid (hother id hfixed) hvalue

/-- The image of a team member that has a setting. -/
theorem tells_photo (hp : p ∈ (BlockParts.locate root).image) (hid : "image" ∈ definition.ids) :
    definition.Tells .teamMember (.read .teamMember root) "image_src" (Slot.src.value p) := by
  have hsource : "image_src" ∈ definition.ids := by
    rw [ids, hsettings] at hid ⊢
    exact (companions_teamImage hid).1
  have hother : "image" ∉ teamPlatforms.map teamSocialId := by decide +kernel
  have hsome : (BlockInstance.read .teamMember root).image.isSome := by
    rw [ids, hsettings, mem_ids_teamMemberSettings] at hid
    rcases hid with hid | ⟨-, hid⟩ | ⟨himage, -⟩ | hid
    · exact absurd hid (by decide)
    · exact absurd hid (by decide)
    · exact himage
    · exact absurd hid hother
  refine tells_src hsettings hsource (by decide) hp rfl ?_
  rwa [BlockInstance.valueOf?, BlockInstance.teamMemberValue?, Option.isSome_map]

/-- All links to a platform show the setting of the platform, which tells of the first of them. -/
theorem faithful_teamLink {platform : String} (hlink : (p, platform) ∈ teamLinks root) :
    definition.Faithful .teamMember root p .href (Slot.href.reference (teamSocialId platform)) := by
  have hfirst : ∃ first, (teamLinks root).find? (·.2 == platform) = some (first, platform) := by
    have hsome : ((teamLinks root).find? (·.2 == platform)).isSome :=
      List.find?_isSome.2 ⟨_, hlink, by simp⟩
    obtain ⟨⟨first, other⟩, hfound⟩ := Option.isSome_iff_exists.1 hsome
    have hsame : other = platform := by simpa using List.find?_some hfound
    exact ⟨first, hsame ▸ hfound⟩
  obtain ⟨first, hfound⟩ := hfirst
  have hplatform : platform ∈ teamPlatforms := by
    obtain ⟨a, -, hmade⟩ := List.mem_filterMap.1 hlink
    obtain ⟨name, hname, heq⟩ := Option.map_eq_some_iff.1 hmade
    exact (Prod.mk.inj heq).2 ▸ mem_of_platform? hname
  have hid : teamSocialId platform ∈ definition.ids := by
    rw [ids, hsettings]
    exact mem_ids_teamMemberSettings.2 (Or.inr (Or.inr (Or.inr (List.mem_map_of_mem hplatform))))
  have hother : ∀ platform ∈ teamPlatforms, teamSocialId platform ∉ otherIds := by decide
  have hvalue : (BlockInstance.read .teamMember root).valueOf? .teamMember (teamSocialId platform) =
      some (Text.trim (Slot.href.value first)) :=
    (teamMemberValue?_of_platform hplatform).trans (social?_of_find? rfl hfound)
  have htells : definition.Tells .teamMember (.read .teamMember root) (teamSocialId platform)
      (Slot.href.value first) :=
    (tells_of_valueOf? hsettings hid (hother platform hplatform) hvalue).of_trim
  have hids : ∀ {id : String}, Slot.href.reference (teamSocialId platform) = Slot.href.reference id →
      id = teamSocialId platform := fun heq => (Slot.href.reference_injective heq).symm
  have hcomputed : ∀ name, Slot.href.reference (teamSocialId platform) ≠
      output ("block.settings[" ++ name ++ "]") := reference_ne_computed (by decide) _
  constructor
  case own =>
    intro id heq _ hsecond
    obtain rfl := hids heq
    have hown : (teamLinks root).find? (·.2 == platform) = some (p, platform) := by
      by_contra hnot
      exact hsecond rfl platform ⟨rfl, hlink, hnot⟩ rfl
    obtain rfl := (Prod.mk.inj (Option.some.inj (hfound.symm.trans hown))).1
    exact htells
  case mobile => exact fun _ _ _ hmobile => absurd hmobile.1 (by decide)
  case second =>
    intro _ _ other _ heq
    obtain rfl := teamSocialId_injective (hids heq)
    exact ⟨first, hfound, htells⟩
  case looped => exact fun _ _ _ heq => absurd heq (hcomputed _)
  case social => exact fun _ heq => absurd heq (hcomputed _)

theorem fills_bindTeamMember (hroot : root.Distinct) :
    Fills (definition.Fillings .teamMember root) d (bindTeamMember definition root d) := by
  have hmobile : ∀ {p : Place} (id : String), ∀ n, IsMobileLink .teamMember root p n →
      id ∉ [navTextId n, navUrlId n] := fun id => not_isMobileLink (by decide) id
  have hparts := BlockParts.mem_descend_locate root
  have htexts := BlockParts.ne_empty_locate root
  simp only [List.forall_mem_cons] at hparts htexts
  obtain ⟨hheading, hsubheading, -, -, -, himage, -⟩ := hparts
  obtain ⟨hheadingText, hsubheadingText, -⟩ := htexts
  have hpart : ∀ {d' : Document} (part : Option Place) (id : String),
      (∀ p ∈ part, p ∈ root.descend ∧ definition.Tells .teamMember (.read .teamMember root) id
        (Slot.text.value p)) → Fills (definition.Fillings .teamMember root) d d' →
      Fills (definition.Fillings .teamMember root) d
        (d'.forPart part fun d x => d.showSetting x id) := by
    intro d' part id htells h
    cases part with
    | none => exact h
    | some p =>
      obtain ⟨hdescend, htells⟩ := htells p rfl
      exact fills_showSetting hroot h hdescend (faithful_own (by decide) htells (hmobile _))
  have h : Fills (definition.Fillings .teamMember root) d d := .refl
  have h := hpart (BlockParts.locate root).heading "name" (fun p hp => ⟨hheading p hp,
    tells_fixed hsettings (by decide) hp (hheadingText p hp) rfl⟩) h
  have h := hpart (BlockParts.locate root).subheading "position" (fun p hp => ⟨hsubheading p hp,
    tells_fixed hsettings (by decide) hp (hsubheadingText p hp) rfl⟩) h
  have h := fills_ofPart h (BlockParts.locate root).image "image"
    (fun d image => d.showDescribedImage image.id "image") fun p hp hid =>
      fills_showDescribedImage hroot h (himage p hp)
        (faithful_own (by decide) (tells_photo hsettings hp hid) (hmobile _))
  have hrich : ∀ {d' : Document} (paragraphs : List Place),
      Fills (definition.Fillings .teamMember root) d d' →
      Fills (definition.Fillings .teamMember root) d
        (if definition.has "bio" then d'.showRichText paragraphs "bio" else d') := by
    intro d' paragraphs h
    split
    · exact fills_showRichText h _ _
    · exact h
  have h := hrich ((BlockParts.locate root).description.filter fun p =>
    !(teamLinks root).any (p.overlaps ·.1)) h
  refine List.foldlRecOn (teamLinks root) _ h fun d' h link hlink => ?_
  obtain ⟨p, platform⟩ := link
  obtain ⟨a, ha, hfound⟩ := List.mem_filterMap.1 hlink
  obtain ⟨name, -, heq⟩ := Option.map_eq_some_iff.1 hfound
  obtain ⟨rfl, rfl⟩ := Prod.mk.inj heq
  have hshown := fills_showInHref hroot h (List.mem_of_mem_filter ha)
    (faithful_teamLink hsettings hlink)
  exact fills_wrap hshown _ (second_tag _) (second_tag _)

end

theorem fills_bind (hroot : root.Distinct)
    (hsettings : definition.settings = settingsOf role (.read role root)) :
    Fills (definition.Fillings role root) d (definition.bind role root d) := by
  cases role with
  | generic => exact fills_bindGeneric hroot hsettings
  | header => exact fills_bindHeader hroot hsettings
  | footerColumn => exact fills_bindFooterColumn hroot hsettings
  | teamMember => exact fills_bindTeamMember hsettings hroot
  | beforeAfter => exact fills_bindBeforeAfter hroot hsettings

/-- Binding an element fills the slots of its nodes, the text, the address and the source of an image,
only with references to settings of which the record of the element tells what the node showed there.
A link of the mobile menu of a header shows the navigation link with its number, and a further link of a
team member to a platform the first one. -/
theorem faithful_bind (pattern : BlockPattern) {d : Document} (hd : d.Distinct) {root : Place}
    (hroot : root ∈ d.places) {p : Place} (hp : p ∈ root.descend) {n : Tree} :
    let definition := ofInstance pattern (.read pattern.role root)
    n ∈ (definition.bind pattern.role root d).nodes → n.id = p.id → ∀ (slot : Slot) (content : String),
      slot.Holds n content → slot.Holds p.tree content ∨
        definition.Faithful pattern.role root p slot content := by
  intro definition hn hid slot content hholds
  have hfills : Fills (definition.Fillings pattern.role root) d
      (definition.bind pattern.role root d) := fills_bind (hd.place_distinct hroot) rfl
  have hmem := mem_places_descend hroot hp
  obtain ⟨m, hm, hmid, hheld⟩ := hfills.source n hn (hid ▸ hd.lt_next_of_place hmem)
  obtain rfl := hd.eq_of_id_eq hm (tree_mem_nodes hmem) (hmid.trans hid)
  exact (hheld slot content hholds).imp_right fun hallowed => hallowed p hp hid.symm

/-- A header with a navigation link and another link in its mobile menu. -/
def menuPage : Document :=
  Document.ofMarkup ("<header><a href=\"/tea\">Tea</a><div class=\"mobile-menu\">" ++
    "<a href=\"/coffee\">Coffee</a></div></header>")

def menuHeader : Place := (menuPage.rootPlace.first? (.tags ["header"])).getD menuPage.rootPlace

def menuPattern : BlockPattern :=
  { type := "header", name := "Header", selector := "header", min := 1, max := 1, role := .header }

/-- A member of a team with two links to one platform. -/
def teamPage : Document :=
  Document.ofMarkup ("<div class=\"team-member\"><h3>Ann</h3>" ++
    "<a href=\"https://linkedin.com/ann\">Work</a>" ++
    "<a href=\"https://linkedin.com/shop\">Shop</a></div>")

def teamElement : Place := (teamPage.rootPlace.first? (.classes ["team-member"])).getD teamPage.rootPlace

def teamPattern : BlockPattern :=
  { type := "team_member", name := "Team member", selector := ".team-member", min := 1, max := 8
    role := .teamMember }

/-- The navigation link of a header shows its own text. -/
theorem faithful_bind_menu : ∃ p ∈ menuHeader.descend,
    Slot.text.value p = "Tea" ∧
      (ofInstance menuPattern (.read .header menuHeader)).Faithful .header menuHeader p .text
        (Slot.text.reference (navTextId 1)) := by
  have hshown : ∃ p ∈ menuHeader.descend, Slot.text.value p = "Tea" ∧
      ∃ n ∈ ((ofInstance menuPattern (.read .header menuHeader)).bind .header menuHeader
        menuPage).nodes, n.id = p.id ∧ Slot.text.Holds n (Slot.text.reference (navTextId 1)) ∧
          ¬ Slot.text.Holds p.tree (Slot.text.reference (navTextId 1)) := by
    decide +kernel
  obtain ⟨p, hp, htext, n, hn, hid, hholds, hnew⟩ := hshown
  have h := faithful_bind menuPattern (Document.distinct_ofMarkup _)
    (menuPage.first?_mem_places (.tags ["header"])) hp hn hid .text _ hholds
  exact ⟨p, hp, htext, h.resolve_left hnew⟩

/-- Of an element that is bound: the record tells of every new reference what its node had there. -/
def ShowsOwn (pattern : BlockPattern) (d : Document) (root : Place) : Prop :=
  ∀ p ∈ root.descend, ∀ n ∈ ((ofInstance pattern (.read pattern.role root)).bind pattern.role root
    d).nodes, n.id = p.id → ∀ (slot : Slot) (id : String), slot.Holds n (slot.reference id) →
      ¬ slot.Holds p.tree (slot.reference id) →
        (ofInstance pattern (.read pattern.role root)).Tells pattern.role (.read pattern.role root)
          (slot.key id) (slot.own p)

theorem not_tells {said : BlockInstance} {id text : String}
    (h : ∀ setting ∈ definition.settings, setting.id = id →
      ((said.record role definition).get? id).bind (·.str?) ≠
        (sanitizeDefault setting.kind (some text) ((setting.default.bind (·.str?)).getD "")).str?) :
    ¬ definition.Tells role said id text := by
  rintro ⟨setting, hmem, hid, hvalue⟩
  refine h setting hmem hid ?_
  rw [hvalue, Option.bind_some]

/-- It is enough that one node comes to show a setting for which the record has another text. -/
theorem not_showsOwn_of {pattern : BlockPattern} (slot : Slot) (id : String)
    (h : let definition := ofInstance pattern (.read pattern.role root)
      let record := (BlockInstance.read pattern.role root).record pattern.role definition
      ∃ p ∈ root.descend, ∃ n ∈ (definition.bind pattern.role root d).nodes, n.id = p.id ∧
        slot.Holds n (slot.reference id) ∧ ¬ slot.Holds p.tree (slot.reference id) ∧
        ∀ setting ∈ definition.settings, setting.id = slot.key id →
          (record.get? (slot.key id)).bind (·.str?) ≠
            (sanitizeDefault setting.kind (some (slot.own p))
              ((setting.default.bind (·.str?)).getD "")).str?) :
    ¬ ShowsOwn pattern d root := by
  obtain ⟨p, hp, n, hn, hid, hholds, hnew, htold⟩ := h
  exact fun hshows => not_tells htold (hshows p hp n hn hid slot id hholds hnew)

/-- The links of a mobile menu and further links to one platform show what other links showed. -/
theorem not_showsOwn : ¬ ShowsOwn menuPattern menuPage menuHeader ∧
    ¬ ShowsOwn teamPattern teamPage teamElement :=
  ⟨not_showsOwn_of .text (navTextId 1) (by decide +kernel),
    not_showsOwn_of .href (teamSocialId "linkedin") (by decide +kernel)⟩

end BlockDefinition

end ThemeSection
