import ThemeSection.Proofs.Block.Binding
import ThemeSection.Proofs.Block.Parts
import ThemeSection.Proofs.Block.Records
import ThemeSection.Proofs.Document.Slots

/-!
The element that stays shows what its own record tells. Reading an element and binding it are two
walks: one makes the values of settings, the other puts references to settings into nodes. Wherever
binding puts a reference into a node that stays, the record gives the setting just what the node
showed before. Links of a mobile menu show the settings of the navigation link with the same number.
-/

namespace ThemeSection

open Markup Liquid Document

namespace Markup.Slot

/-- What a slot holds that shows a block setting. -/
def reference : Slot → String → String
  | src, id => imageSource .block id (Liquid.reference .block (id ++ "_src")) blockImageWidth
  | _, id => Liquid.reference .block id

/-- The setting that has the value; an image is picked by hand, and its address has a setting. -/
def key : Slot → String → String
  | src, id => id ++ "_src"
  | _, id => id

/-- What a node has in a slot. -/
def own : Slot → Place → String
  | text, p => p.tree.plainText
  | href, p => (p.tree.attribute? "href").getD ""
  | src, p => (p.tree.attribute? "src").getD ""

/-- What a node shows in a slot, which is what it has there. Only an image that has no `src` shows its
`data-src`, where the source is kept until the image is loaded. -/
def value : Slot → Place → String
  | src, p => ((p.tree.attribute? "src").or (p.tree.attribute? "data-src")).getD ""
  | slot, p => slot.own p

theorem reference_injective (slot : Slot) : Function.Injective slot.reference := by
  intro a b h
  have hpath : ∀ a b, Liquid.reference .block a = Liquid.reference .block b → a = b := by
    intro a b h
    simpa [Liquid.reference, output, settingPath, String.append_left_inj, String.append_right_inj]
      using h
  cases slot with
  | text => exact hpath a b h
  | href => exact hpath a b h
  | src =>
    -- The id stands three times in the source, so two sources of one length have ids of one length.
    have hlist := congrArg String.toList h
    simp only [reference, imageSource, output, settingPath, Liquid.reference, String.toList_append,
      List.append_assoc, List.append_cancel_left_eq] at hlist
    have hlength := congrArg List.length hlist
    simp only [List.length_append, String.length_toList] at hlength
    refine String.toList_injective (List.append_inj_left hlist ?_)
    rw [String.length_toList, String.length_toList]
    omega

end Markup.Slot

theorem src_of_imageRef? {p : Place} {image : ImageRef} (h : imageRef? p = some image) :
    image.src = Text.trim (Slot.src.value p) := by
  unfold imageRef? at h
  split at h
  · cases h
  · cases h
  case h_3 src _ hsrc =>
    obtain ⟨source, hsource, rfl⟩ := Option.map_eq_some_iff.1 hsrc
    obtain rfl := Option.some.inj h
    rw [Slot.value, hsource]
    rfl

namespace BlockDefinition

/-- A link with this number in the mobile menu of a header, counted from one. -/
def IsMobileLink (role : BlockRole) (root p : Place) (n : Nat) : Prop :=
  role = .header ∧ (p, n) ∈ (HeaderParts.locate root).mobileLinks.zipIdx 1

/-- A link of a team member to a platform to which an earlier link leads. -/
def IsSecondLink (role : BlockRole) (root p : Place) (platform : String) : Prop :=
  role = .teamMember ∧ (p, platform) ∈ teamLinks root ∧
    (teamLinks root).find? (·.2 == platform) ≠ some (p, platform)

/-- A reference in a slot of a node is to a setting for which the record of the element tells what
the node showed there. -/
structure Faithful (definition : BlockDefinition) (role : BlockRole) (root p : Place) (slot : Slot)
    (content : String) : Prop where
  /-- Of the links of a mobile menu this is not said where they show settings of the navigation, nor
  of a second link to a platform where it shows the setting of the platform. -/
  own : ∀ id, content = slot.reference id →
    (∀ n, IsMobileLink role root p n → id ∉ [navTextId n, navUrlId n]) →
    (slot = .href → ∀ platform, IsSecondLink role root p platform → id ≠ teamSocialId platform) →
      definition.Tells role (.read role root) (slot.key id) (slot.value p)
  /-- The links of a mobile menu show what the navigation links with their numbers showed. -/
  mobile : ∀ id n, content = slot.reference id → IsMobileLink role root p n →
    id ∈ [navTextId n, navUrlId n] → ∃ link, (HeaderParts.locate root).nav[n - 1]? = some link ∧
      definition.Tells role (.read role root) (slot.key id) (slot.value link)
  /-- All links to one platform show what the first of them led to. -/
  second : slot = .href → role = .teamMember → ∀ platform, (p, platform) ∈ teamLinks root →
    content = slot.reference (teamSocialId platform) →
      ∃ first, (teamLinks root).find? (·.2 == platform) = some (first, platform) ∧
        definition.Tells role (.read role root) (teamSocialId platform) (slot.value first)
  /-- The link that a footer column keeps is the first one that its loop shows. -/
  looped : ∀ looped ∈ [(Slot.text, "link_text_key", linkTextId 1),
      (Slot.href, "link_url_key", linkUrlId 1)],
    slot = looped.1 → content = output ("block.settings[" ++ looped.2.1 ++ "]") →
      definition.Tells role (.read role root) looped.2.2 (slot.value p)
  /-- The social link that it keeps is the one that its loop shows for the platform. -/
  social : slot = .href → content = output ("block.settings[" ++ "social_key" ++ "]") →
    ∃ platform, platform? FooterParts.platforms p = some platform ∧
      definition.Tells role (.read role root) (footerSocialId platform) (slot.value p)

/-- What the slots of the nodes of an element may be filled with. -/
def Fillings (definition : BlockDefinition) (role : BlockRole) (root : Place) (id : NodeId)
    (slot : Slot) (content : String) : Prop :=
  ∀ p ∈ root.descend, p.id = id → definition.Faithful role root p slot content

theorem reference_ne_computed {slot : Slot} (hslot : slot ≠ .src) (id name : String) :
    slot.reference id ≠ output ("block.settings[" ++ name ++ "]") := by
  have hne : Liquid.reference .block id ≠ output ("block.settings[" ++ name ++ "]") := by
    intro h
    have hlist := congrArg (fun s : String => s.toList[17]?) h
    simp [Liquid.reference, output, settingPath, Owner.name] at hlist
  cases slot with
  | src => exact absurd rfl hslot
  | text => exact hne
  | href => exact hne

section

variable {definition : BlockDefinition} {role : BlockRole} {root p : Place} {slot : Slot}
  {id content : String}

/-- A text that is no output shows no setting. -/
theorem faithful_text (h : ∀ expression, content ≠ output expression) :
    definition.Faithful role root p .text content where
  own := fun _ heq => absurd heq (h _)
  mobile := fun _ _ heq => absurd heq (h _)
  second := fun hslot => by cases hslot
  looped := fun _ _ _ heq => absurd heq (h _)
  social := fun _ heq => absurd heq (h _)

/-- A reference to a setting, by its id, but for links of team members. -/
theorem faithful_reference (hteam : slot = .href → role ≠ .teamMember)
    (hown : (∀ n, IsMobileLink role root p n → id ∉ [navTextId n, navUrlId n]) →
      (slot = .href → ∀ platform, IsSecondLink role root p platform → id ≠ teamSocialId platform) →
        definition.Tells role (.read role root) (slot.key id) (slot.value p))
    (hmobile : ∀ n, IsMobileLink role root p n → id ∈ [navTextId n, navUrlId n] →
      ∃ link, (HeaderParts.locate root).nav[n - 1]? = some link ∧
        definition.Tells role (.read role root) (slot.key id) (slot.value link)) :
    definition.Faithful role root p slot (slot.reference id) where
  own := fun _ heq => slot.reference_injective heq ▸ hown
  mobile := fun _ n heq => slot.reference_injective heq ▸ hmobile n
  second := fun hslot hrole => absurd hrole (hteam hslot)
  looped := by
    have hsrc : ∀ looped ∈ [(Slot.text, "link_text_key", linkTextId 1),
        (Slot.href, "link_url_key", linkUrlId 1)], looped.1 ≠ .src := by simp
    intro looped hlooped hslot heq
    exact absurd heq (reference_ne_computed (hslot ▸ hsrc looped hlooped) id _)
  social := fun hslot heq => absurd heq (reference_ne_computed (by simp [hslot]) id _)

/-- A reference whose key is computed. -/
theorem faithful_computed {name : String} (hslot : slot ≠ .src)
    (hlooped : ∀ looped ∈ [(Slot.text, "link_text_key", linkTextId 1),
      (Slot.href, "link_url_key", linkUrlId 1)], slot = looped.1 → name = looped.2.1 →
        definition.Tells role (.read role root) looped.2.2 (slot.value p))
    (hsocial : slot = .href → name = "social_key" →
      ∃ platform, platform? FooterParts.platforms p = some platform ∧
        definition.Tells role (.read role root) (footerSocialId platform) (slot.value p)) :
    definition.Faithful role root p slot (output ("block.settings[" ++ name ++ "]")) := by
  have hname : ∀ other, output ("block.settings[" ++ name ++ "]") =
      output ("block.settings[" ++ other ++ "]") → name = other := by
    intro other h
    simpa [output, String.append_left_inj, String.append_right_inj] using h
  exact {
    own := fun id heq => absurd heq.symm (reference_ne_computed hslot id name)
    mobile := fun id _ heq => absurd heq.symm (reference_ne_computed hslot id name)
    second := fun _ _ _ _ heq => absurd heq.symm (reference_ne_computed hslot _ name)
    looped := fun looped hlooped' hslot' heq => hlooped looped hlooped' hslot' (hname _ heq)
    social := fun hslot' heq => hsocial hslot' (hname _ heq) }

/-- A node shows its own setting. -/
theorem faithful_own (hteam : slot = .href → role ≠ .teamMember)
    (htells : definition.Tells role (.read role root) (slot.key id) (slot.value p))
    (hmobile : ∀ n, IsMobileLink role root p n → id ∉ [navTextId n, navUrlId n]) :
    definition.Faithful role root p slot (slot.reference id) :=
  faithful_reference hteam (fun _ _ => htells) fun n hlink hid => absurd hid (hmobile n hlink)

end

theorem ne_output {content : String} (h : content.toList[1]? = some '%') (expression : String) :
    content ≠ output expression := by
  rintro rfl
  simp [output] at h

theorem second_append {a b : String} (h : a.toList[1]? = some '%') :
    (a ++ b).toList[1]? = some '%' := by
  rw [String.toList_append, List.getElem?_append_left (List.getElem?_eq_some_iff.1 h).1, h]

theorem second_tag (content : String) : (tag content).toList[1]? = some '%' := by
  simp [tag]

section

variable {definition : BlockDefinition} {role : BlockRole} {root p : Place} {start d : Document}
  {setting : String}

theorem fillings_of_faithful (hroot : root.Distinct) (hp : p ∈ root.descend) {slot : Slot}
    {content : String} (h : definition.Faithful role root p slot content) :
    definition.Fillings role root p.id slot content := by
  intro q hq hid
  obtain rfl := hroot.eq_of_id_eq hq hp hid
  exact h

/-- Tags around a node show nothing. -/
theorem fills_wrap (h : Fills (definition.Fillings role root) start d) (x : NodeId)
    {before after : String} (hbefore : before.toList[1]? = some '%')
    (hafter : after.toList[1]? = some '%') :
    Fills (definition.Fillings role root) start (d.wrap x before after) :=
  h.trans (.wrap fun _ => ⟨fun _ _ _ => faithful_text (ne_output hbefore),
    fun _ _ _ => faithful_text (ne_output hafter)⟩)

/-- Other attributes than those that are slots may hold anything. -/
theorem fills_setAttribute (h : Fills (definition.Fillings role root) start d) (x : NodeId)
    {name : String} (hname : name ∉ Slot.attributes) (value : String) :
    Fills (definition.Fillings role root) start (d.setAttribute x name value) :=
  h.trans (.setAttribute fun _ hslot => absurd (Slot.mem_attributes hslot) hname)

theorem fills_showRichText (h : Fills (definition.Fillings role root) start d)
    (paragraphs : List Place) (setting : String) :
    Fills (definition.Fillings role root) start (d.showRichText paragraphs setting) := by
  unfold showRichText
  split
  case h_1 => exact h
  case h_2 first rest =>
    have hrenewed : Fills (definition.Fillings role root) start
        (d.apply (.renew first.id (Liquid.reference .block setting))) := h.trans (.renew _ _)
    unfold detachAll
    exact List.foldlRecOn _ _ hrenewed fun _ h id _ => h.trans (.detach id)

/-- A part for which there may be a setting. -/
theorem fills_ofPart (h : Fills (definition.Fillings role root) start d) (part : Option Place)
    (id : String) (change : Document → Place → Document) :
    (∀ p ∈ part, id ∈ definition.ids →
      Fills (definition.Fillings role root) start (change d p)) →
    Fills (definition.Fillings role root) start
      (match part with
        | some p => if definition.has id then change d p else d
        | none => d) := by
  intro hchange
  cases part with
  | none => exact h
  | some p =>
    dsimp only
    split
    case isTrue hhas => exact hchange p rfl (has_iff.1 hhas)
    case isFalse => exact h

section

variable (hroot : root.Distinct) (h : Fills (definition.Fillings role root) start d)
include hroot h

theorem fills_showSetting (hp : p ∈ root.descend)
    (hfaithful : definition.Faithful role root p .text (Slot.text.reference setting)) :
    Fills (definition.Fillings role root) start (d.showSetting p.id setting) :=
  h.trans (.setText (fillings_of_faithful hroot hp hfaithful))

/-- A part shows its setting, where there is one for it. -/
theorem fills_showPart {part : Option Place}
    (hpart : ∀ p ∈ part, setting ∈ definition.ids → p ∈ root.descend ∧
      definition.Faithful role root p .text (Slot.text.reference setting)) :
    Fills (definition.Fillings role root) start (d.showPart definition part setting) := by
  unfold showPart
  split
  case h_1 => exact h
  case h_2 p =>
    split
    case isTrue hhas =>
      obtain ⟨hp, hfaithful⟩ := hpart p rfl (has_iff.1 hhas)
      exact fills_showSetting hroot h hp hfaithful
    case isFalse => exact h

theorem fills_setHref (hp : p ∈ root.descend) {content : String}
    (hfaithful : definition.Faithful role root p .href content) :
    Fills (definition.Fillings role root) start (d.setAttribute p.id "href" content) := by
  refine h.trans (.setAttribute fun slot hslot => fillings_of_faithful hroot hp ?_)
  cases slot with
  | href => exact hfaithful
  | text => cases hslot
  | src => exact absurd hslot (by decide)

theorem fills_showInHref (hp : p ∈ root.descend)
    (hfaithful : definition.Faithful role root p .href (Slot.href.reference setting)) :
    Fills (definition.Fillings role root) start (d.showInAttribute p.id "href" setting) :=
  fills_setHref hroot h hp hfaithful

theorem fills_showImage (hp : p ∈ root.descend)
    (hfaithful : definition.Faithful role root p .src (Slot.src.reference setting)) :
    Fills (definition.Fillings role root) start (d.showImage p.id setting) := by
  have hshown : Fills (definition.Fillings role root) start
      (d.setAttribute p.id "src" (Slot.src.reference setting)) := by
    refine h.trans (.setAttribute fun slot hslot => fillings_of_faithful hroot hp ?_)
    cases slot with
    | src => exact hfaithful
    | text => cases hslot
    | href => exact absurd hslot (by decide)
  have hsources : ∀ name ∈ otherSources, name ∉ Slot.attributes := by decide
  exact List.foldlRecOn otherSources _ hshown fun _ h name hname =>
    h.trans (.removeAttribute (hsources name hname))

theorem fills_showDescribedImage (hp : p ∈ root.descend)
    (hfaithful : definition.Faithful role root p .src (Slot.src.reference setting)) :
    Fills (definition.Fillings role root) start (d.showDescribedImage p.id setting) :=
  fills_showImage hroot (fills_setAttribute h p.id (by decide) _) hp hfaithful

end

end

section

variable {definition : BlockDefinition} {role : BlockRole} {root p : Place} {start d : Document}
  {id : String}

/-- A part whose text has a setting. -/
theorem tells_text (hsettings : definition.settings = settingsOf role (.read role root))
    (hid : id ∈ definition.ids) (hother : id ∉ otherIds) {part : Option Place} (hp : p ∈ part)
    (hvalue : (BlockInstance.read role root).valueOf? role id = part.bind nonemptyText?)
    (hsome : ((BlockInstance.read role root).valueOf? role id).isSome) :
    definition.Tells role (.read role root) id (Slot.text.value p) := by
  obtain ⟨text, htext⟩ := Option.isSome_iff_exists.1 hsome
  refine tells_of_valueOf? hsettings hid hother (htext.trans (congrArg some ?_))
  rw [hvalue, hp, Option.bind_some] at htext
  exact ((nonemptyText?_eq_some.1 htext).1).symm

/-- An image whose address has a setting. -/
theorem tells_src (hsettings : definition.settings = settingsOf role (.read role root))
    (hid : id ∈ definition.ids) (hother : id ∉ otherIds) {part : Option Place} (hp : p ∈ part)
    (hvalue : (BlockInstance.read role root).valueOf? role id =
      (part.bind imageRef?).map (·.src))
    (hsome : ((BlockInstance.read role root).valueOf? role id).isSome) :
    definition.Tells role (.read role root) id (Slot.src.value p) := by
  obtain ⟨src, hsrc⟩ := Option.isSome_iff_exists.1 hsome
  refine (tells_of_valueOf? hsettings hid hother (hsrc.trans (congrArg some ?_))).of_trim
  rw [hvalue, hp, Option.bind_some] at hsrc
  obtain ⟨image, himage, rfl⟩ := Option.map_eq_some_iff.1 hsrc
  exact src_of_imageRef? himage

theorem not_isMobileLink (hrole : role ≠ .header) (id : String) :
    ∀ n, IsMobileLink role root p n → id ∉ [navTextId n, navUrlId n] :=
  fun _ h => absurd h.1 hrole

/-- The text and the address of a button that has settings. -/
theorem tells_button (hsettings : definition.settings = genericSettings (.read .generic root))
    (hp : p ∈ (BlockParts.locate root).button) (hid : "button_text" ∈ definition.ids) :
    definition.Tells .generic (.read .generic root) "button_text" (Slot.text.value p) ∧
      definition.Tells .generic (.read .generic root) "button_url" (Slot.href.value p) := by
  have hboth := hid
  rw [ids, hsettings] at hboth
  have hurl : "button_url" ∈ definition.ids := by
    rw [ids, hsettings]
    exact companions_genericSettings ("button_text", "button_url") (by simp) hboth
  have hsome : (BlockInstance.read .generic root).button.isSome := by
    simpa [mem_ids_genericSettings] using hboth
  obtain ⟨button, hbutton⟩ := Option.isSome_iff_exists.1 hsome
  have hfilter : ((BlockParts.locate root).button.map linkRef).filter (·.text != "") =
      some button := hbutton
  rw [hp, Option.map_some] at hfilter
  obtain ⟨hlink, -⟩ := Option.filter_eq_some_iff.1 hfilter
  obtain rfl := Option.some.inj hlink
  have hother : "button_text" ∉ otherIds ∧ "button_url" ∉ otherIds := by decide
  have hvalue : (BlockInstance.read .generic root).valueOf? .generic "button_text" =
        some (Slot.text.value p) ∧
      (BlockInstance.read .generic root).valueOf? .generic "button_url" =
        some (Text.trim (Slot.href.value p)) := by
    simp [BlockInstance.valueOf?, BlockInstance.genericValue?, hbutton, linkRef, Slot.value,
      Slot.own]
  exact ⟨tells_of_valueOf? hsettings hid hother.1 hvalue.1,
    (tells_of_valueOf? hsettings hurl hother.2 hvalue.2).of_trim⟩

theorem fills_bindRating (h : Fills (definition.Fillings role root) start d) (rating : Place) :
    Fills (definition.Fillings role root) start (bindRating d rating) := by
  have hstars : ratingStars.toList[1]? = some '%' :=
    second_append (second_append (second_append (second_tag _)))
  have hshown : Fills (definition.Fillings role root) start
      (if (rating.tree.attribute? "data-rating").isSome then
        d.showInAttribute rating.id "data-rating" "rating" else d) := by
    split
    · exact fills_setAttribute h _ (by decide) _
    · exact h
  exact hshown.trans (.setText fun _ _ _ => faithful_text (ne_output hstars))

theorem fills_bindButton (hroot : root.Distinct)
    (hsettings : definition.settings = genericSettings (.read .generic root))
    (h : Fills (definition.Fillings .generic root) start d)
    (hp : p ∈ (BlockParts.locate root).button) (hid : "button_text" ∈ definition.ids) :
    Fills (definition.Fillings .generic root) start (bindButton d p) := by
  have hdescend := BlockParts.mem_descend_locate root (BlockParts.locate root).button
    (by simp) p hp
  have hmobile (id : String) : ∀ n, IsMobileLink .generic root p n →
      id ∉ [navTextId n, navUrlId n] := not_isMobileLink (by decide) id
  obtain ⟨htext, hurl⟩ := tells_button hsettings hp hid
  have hshown := fills_showSetting hroot h hdescend (faithful_own (by decide) htext (hmobile _))
  unfold bindButton
  dsimp only
  split
  · exact fills_showInHref hroot hshown hdescend (faithful_own (by decide) hurl (hmobile _))
  · exact hshown

theorem fills_bindBackground (h : Fills (definition.Fillings role root) start d) (x : NodeId) :
    Fills (definition.Fillings role root) start (bindBackground d x) := by
  unfold bindBackground
  split
  · exact h
  · exact fills_setAttribute h x (by decide) _

/-- A generic block has settings for texts and for an image only where it shows them. -/
theorem isSome_genericValue (hsettings : definition.settings = genericSettings (.read .generic root)) :
    ∀ id ∈ ["heading", "subheading", "author", "price", "image_src"], id ∈ definition.ids →
      ((BlockInstance.read .generic root).valueOf? .generic id).isSome := by
  rw [ids, hsettings]
  simp [mem_ids_genericSettings, BlockInstance.valueOf?, BlockInstance.genericValue?]

theorem fills_bindGeneric (hroot : root.Distinct)
    (hsettings : definition.settings = genericSettings (.read .generic root)) :
    Fills (definition.Fillings .generic root) d (bindGeneric definition root d) := by
  have hmobile : ∀ {p : Place} (id : String), ∀ n, IsMobileLink .generic root p n →
      id ∉ [navTextId n, navUrlId n] := fun id => not_isMobileLink (by decide) id
  have hparts := BlockParts.mem_descend_locate root
  simp only [List.forall_mem_cons] at hparts
  obtain ⟨hheading, hsubheading, hauthor, hprice, -, himage, -⟩ := hparts
  have hsome := isSome_genericValue hsettings
  simp only [List.forall_mem_cons] at hsome
  obtain ⟨hsome₁, hsome₂, hsome₃, hsome₄, hsome₅, -⟩ := hsome
  have hsource : "image" ∈ definition.ids → "image_src" ∈ definition.ids := by
    rw [ids, hsettings]
    exact companions_genericSettings ("image", "image_src") (by simp)
  have h : Fills (definition.Fillings .generic root) d d := .refl
  have h := fills_showPart hroot h fun p hp hid => ⟨hheading p hp,
    faithful_own (by decide) (tells_text hsettings hid (by decide) hp rfl (hsome₁ hid)) (hmobile _)⟩
  have h := fills_showPart hroot h fun p hp hid => ⟨hsubheading p hp,
    faithful_own (by decide) (tells_text hsettings hid (by decide) hp rfl (hsome₂ hid)) (hmobile _)⟩
  have h := fills_showPart hroot h fun p hp hid => ⟨hauthor p hp,
    faithful_own (by decide) (tells_text hsettings hid (by decide) hp rfl (hsome₃ hid)) (hmobile _)⟩
  have h := fills_showPart hroot h fun p hp hid => ⟨hprice p hp,
    faithful_own (by decide) (tells_text hsettings hid (by decide) hp rfl (hsome₄ hid)) (hmobile _)⟩
  have h := fills_ofPart h (BlockParts.locate root).rating "rating" bindRating
    fun p _ _ => fills_bindRating h p
  have h := fills_ofPart h (BlockParts.locate root).icon "icon"
    (fun d icon => d.showInAttribute icon.id "class" "icon")
    fun p _ _ => fills_setAttribute h p.id (by decide) _
  have h := fills_ofPart h (BlockParts.locate root).button "button_text" bindButton
    fun p hp hid => fills_bindButton hroot hsettings h hp hid
  have h := fills_ofPart h (BlockParts.locate root).image "image"
    (fun d image => d.showDescribedImage image.id "image") fun p hp hid =>
      fills_showDescribedImage hroot h (himage p hp) (faithful_own (by decide)
        (tells_src hsettings (hsource hid) (by decide) hp rfl (hsome₅ (hsource hid))) (hmobile _))
  have hrich : ∀ {d' : Document}, Fills (definition.Fillings .generic root) d d' →
      Fills (definition.Fillings .generic root) d
        (if definition.has "description" then
          d'.showRichText (BlockParts.locate root).description "description" else d') := by
    intro d' h
    split
    · exact fills_showRichText h _ _
    · exact h
  have h := hrich h
  unfold bindGeneric
  dsimp only
  split
  · exact fills_bindBackground h root.id
  · exact h

/-- The two images of a comparison, each with the id of its side. -/
theorem tells_side (hsettings : definition.settings = beforeAfterSettings (.read .beforeAfter root))
    {side : String × String} (hp : (side, p) ∈ sides.zip (ComparisonParts.locate root).images)
    (hid : side.1 ∈ definition.ids) :
    p ∈ root.descend ∧
      definition.Tells .beforeAfter (.read .beforeAfter root) (Slot.src.key side.1)
        (Slot.src.value p) := by
  have himage : p ∈ imagesOf root := List.mem_of_mem_take (List.of_mem_zip hp).2
  obtain ⟨hselect, hsome⟩ := List.mem_filter.1 himage
  refine ⟨List.mem_of_mem_filter hselect, ?_⟩
  obtain ⟨image, hread⟩ := Option.isSome_iff_exists.1 hsome
  have hsource : side.1 ++ "_src" ∈ definition.ids := by
    rw [ids, hsettings] at hid ⊢
    exact companion_side (List.of_mem_zip hp).1 hid
  have hother : ∀ side ∈ sides, side.1 ++ "_src" ∉ otherIds := by decide
  have hvalue : (BlockInstance.read .beforeAfter root).valueOf? .beforeAfter (side.1 ++ "_src") =
      some (Text.trim (Slot.src.value p)) := by
    have hall : ∀ q ∈ (ComparisonParts.locate root).images, (imageRef? q).isSome := fun q hq =>
      (List.mem_filter.1 (List.mem_of_mem_take hq)).2
    have himages : (BlockInstance.read .beforeAfter root).images =
        (ComparisonParts.locate root).images.filterMap imageRef? := rfl
    rw [← src_of_imageRef? hread]
    rcases hlocated : (ComparisonParts.locate root).images with _ | ⟨before, _ | ⟨after, rest⟩⟩
    all_goals
      rw [hlocated] at hp hall himages
      simp only [sides, List.zip_cons_cons, List.zip_nil_right, List.zip_nil_left, List.mem_cons,
        List.not_mem_nil, or_false, Prod.mk.injEq] at hp
    · obtain ⟨rfl, rfl⟩ := hp
      simp [BlockInstance.valueOf?, BlockInstance.beforeAfterValue?, himages, hread]
    · obtain ⟨first, hfirst⟩ := Option.isSome_iff_exists.1 (hall before List.mem_cons_self)
      rcases hp with ⟨rfl, rfl⟩ | ⟨rfl, rfl⟩
      · simp [BlockInstance.valueOf?, BlockInstance.beforeAfterValue?, himages, hread]
      · simp [BlockInstance.valueOf?, BlockInstance.beforeAfterValue?, himages, hread, hfirst]
  exact (tells_of_valueOf? hsettings hsource (hother side (List.of_mem_zip hp).1) hvalue).of_trim

theorem fills_bindBeforeAfter (hroot : root.Distinct)
    (hsettings : definition.settings = beforeAfterSettings (.read .beforeAfter root)) :
    Fills (definition.Fillings .beforeAfter root) d (bindBeforeAfter definition root d) := by
  have hmobile : ∀ {p : Place} (id : String), ∀ n, IsMobileLink .beforeAfter root p n →
      id ∉ [navTextId n, navUrlId n] := fun id => not_isMobileLink (by decide) id
  have hsome : ∀ id ∈ ["heading", "before_label", "after_label"], id ∈ definition.ids →
      ((BlockInstance.read .beforeAfter root).valueOf? .beforeAfter id).isSome := by
    have hside : ∀ id ∈ ["heading", "before_label", "after_label"], ∀ side ∈ sides,
        id ≠ side.1 ∧ id ≠ side.1 ++ "_src" := by decide
    intro id hid hmem
    rw [ids, hsettings, mem_ids_beforeAfterSettings] at hmem
    rcases hmem with ⟨hsome, rfl⟩ | ⟨paired, hpaired, heq⟩ | ⟨hsome, rfl⟩ | ⟨hsome, rfl⟩
    · exact hsome
    · obtain ⟨hne, hnot⟩ := hside id hid paired.1 (List.of_mem_zip hpaired).1
      exact absurd heq (not_or.2 ⟨hne, hnot⟩)
    · exact hsome
    · exact hsome
  simp only [List.forall_mem_cons] at hsome
  obtain ⟨hsome₁, hsome₂, hsome₃, -⟩ := hsome
  have h : Fills (definition.Fillings .beforeAfter root) d d := .refl
  have h := fills_showPart hroot h fun p hp hid => ⟨List.mem_of_find?_eq_some hp,
    faithful_own (by decide) (tells_text hsettings hid (by decide) hp rfl (hsome₁ hid)) (hmobile _)⟩
  have himages : ∀ (images : List ((String × String) × Place)),
      (∀ paired ∈ images, paired ∈ sides.zip (ComparisonParts.locate root).images) →
      ∀ {d' : Document}, Fills (definition.Fillings .beforeAfter root) d d' →
      Fills (definition.Fillings .beforeAfter root) d (images.foldl
        (fun d paired => if definition.has paired.1.1 then d.showImage paired.2.id paired.1.1 else d)
          d') := by
    intro images hzip d' h
    refine List.foldlRecOn _ _ h fun d' h paired hpaired => ?_
    split
    case isTrue hhas =>
      obtain ⟨hp, htells⟩ := tells_side hsettings (hzip _ hpaired) (has_iff.1 hhas)
      exact fills_showImage hroot h hp (faithful_own (by decide) htells (hmobile _))
    case isFalse => exact h
  have h := himages _ (fun _ h => h) h
  have h := fills_showPart hroot h fun p hp hid => ⟨List.mem_of_find?_eq_some hp,
    faithful_own (by decide) (tells_text hsettings hid (by decide) hp rfl (hsome₂ hid)) (hmobile _)⟩
  exact fills_showPart hroot h fun p hp hid => ⟨List.mem_of_find?_eq_some hp,
    faithful_own (by decide) (tells_text hsettings hid (by decide) hp rfl (hsome₃ hid)) (hmobile _)⟩

/-- The links of a header that have settings are navigation links, and the record tells of them. -/
theorem tells_nav (hsettings : definition.settings = headerSettings (.read .header root)) {n : Nat}
    (hid : navTextId n ∈ definition.ids) :
    ∃ link, (HeaderParts.locate root).nav[n - 1]? = some link ∧
      definition.Tells .header (.read .header root) (navTextId n) (Slot.text.value link) ∧
      definition.Tells .header (.read .header root) (navUrlId n) (Slot.href.value link) := by
  have hurl : navUrlId n ∈ definition.ids := by
    rw [ids, hsettings] at hid ⊢
    exact companion_navUrlId hid
  obtain ⟨m, hm, hnm⟩ : ∃ m ∈ List.range' 1 (BlockInstance.read .header root).links.length,
      navTextId n = navTextId m := by
    rw [ids, hsettings, mem_ids_headerSettings] at hid
    have hhead : (navTextId n).toList.head? = some 'n' := by simp [navTextId]
    have hfixed : ∀ id ∈ ["logo", "logo_src", "logo_text", "show_mobile_menu"],
        id.toList.head? ≠ some 'n' := by decide
    rcases hid with ⟨-, hid⟩ | ⟨-, hid⟩ | ⟨m, hm, heq | heq⟩ | ⟨-, hid⟩
    · exact absurd hhead (hfixed _ (List.mem_append_left ["logo_text", "show_mobile_menu"] hid))
    · exact absurd hhead (hid ▸ hfixed _ (by simp))
    · exact ⟨m, hm, heq⟩
    · exact absurd heq (navTextId_ne_navUrlId n m)
    · exact absurd hhead (hid ▸ hfixed _ (by simp))
  obtain rfl := navTextId_injective hnm
  obtain ⟨hpos, hlt⟩ := List.mem_range'_1.1 hm
  have hlinks : (BlockInstance.read .header root).links =
      ((HeaderParts.locate root).nav.take BlockInstance.maxNavLinks).map linkRef := rfl
  obtain ⟨link, hlink⟩ : ∃ link, (BlockInstance.read .header root).links[n - 1]? = some link :=
    ⟨_, List.getElem?_eq_getElem (by omega)⟩
  obtain ⟨htext, haddress⟩ := headerValue?_nav (.read .header root) hpos
  rw [hlink] at htext haddress
  rw [hlinks, List.getElem?_map] at hlink
  obtain ⟨p, hp, rfl⟩ := Option.map_eq_some_iff.1 hlink
  rw [List.getElem?_take] at hp
  split at hp
  case isFalse => cases hp
  have hother : ∀ id ∈ otherIds, id.toList.head? ≠ some 'n' := by decide
  have hnav : navTextId n ∉ otherIds ∧ navUrlId n ∉ otherIds :=
    ⟨fun h => hother _ h (by simp [navTextId]), fun h => hother _ h (by simp [navUrlId])⟩
  have htells : definition.Tells .header (.read .header root) (navUrlId n)
      (Text.trim (Slot.href.value p)) := tells_of_valueOf? hsettings hurl hnav.2 haddress
  exact ⟨p, hp, tells_of_valueOf? hsettings hid hnav.1 htext, htells.of_trim⟩

theorem fills_bindNavLinks (hroot : root.Distinct)
    (h : Fills (definition.Fillings .header root) start d) {links : List Place}
    (hlinks : ∀ p n, (p, n) ∈ links.zipIdx 1 → navTextId n ∈ definition.ids → p ∈ root.descend ∧
      definition.Faithful .header root p .text (Slot.text.reference (navTextId n)) ∧
      definition.Faithful .header root p .href (Slot.href.reference (navUrlId n))) :
    Fills (definition.Fillings .header root) start (bindNavLinks definition d links) := by
  refine List.foldlRecOn _ _ h fun d h numbered hnumbered => ?_
  obtain ⟨p, n⟩ := numbered
  dsimp only
  split
  case isTrue hhas =>
    obtain ⟨hp, htext, hhref⟩ := hlinks p n hnumbered (has_iff.1 hhas)
    have hshown := fills_showInHref hroot (fills_showSetting hroot h hp htext) hp hhref
    exact fills_wrap hshown _ (second_tag _) (second_tag _)
  case isFalse => exact h.trans (.detach _)

theorem mem_descend_of_textLinks {menu : Place} (hp : p ∈ HeaderParts.textLinks menu) :
    p ∈ menu.descend :=
  List.mem_of_mem_filter (List.mem_of_mem_filter hp)

/-- A link outside the mobile menu is no link in it. -/
theorem not_isMobileLink_of_nav (hroot : root.Distinct) (hp : p ∈ (HeaderParts.locate root).nav)
    (n : Nat) : ¬ IsMobileLink .header root p n := by
  rintro ⟨-, hmobile⟩
  obtain ⟨menu, hmenu, hin⟩ := List.mem_flatMap.1 (List.fst_mem_of_mem_zipIdx hmobile)
  have hmenu' : menu ∈ (HeaderParts.locate root).mobileMenu := Option.mem_toList.1 hmenu
  obtain ⟨hlink, hout⟩ := List.mem_filter.1 hp
  have hwithin : p.isWithin menu.id := (hroot.isWithin_iff (mem_descend_of_textLinks hlink)
    (List.mem_of_find?_eq_some hmenu')).2 (mem_descend_of_textLinks hin)
  rw [Bool.not_eq_true', Place.isWithinAny, List.any_eq_false] at hout
  refine hout menu.id (List.mem_map_of_mem ?_) hwithin
  exact List.mem_append_left _ (List.mem_append_right _ hmenu)

/-- A link of a mobile menu shows the settings with its number. -/
theorem faithful_mobile (hsettings : definition.settings = headerSettings (.read .header root))
    {n : Nat} (hp : IsMobileLink .header root p n) (hid : navTextId n ∈ definition.ids) :
    definition.Faithful .header root p .text (Slot.text.reference (navTextId n)) ∧
      definition.Faithful .header root p .href (Slot.href.reference (navUrlId n)) := by
  obtain ⟨link, hlink, htext, hhref⟩ := tells_nav hsettings hid
  constructor
  · refine faithful_reference (by decide) (fun hnot _ => absurd (by simp) (hnot n hp)) fun m _ hm => ?_
    simp only [List.mem_cons, List.not_mem_nil, or_false] at hm
    rcases hm with hm | hm
    · exact ⟨link, navTextId_injective hm ▸ hlink, htext⟩
    · exact absurd hm (navTextId_ne_navUrlId n m)
  · refine faithful_reference (by decide) (fun hnot _ => absurd (by simp) (hnot n hp)) fun m _ hm => ?_
    simp only [List.mem_cons, List.not_mem_nil, or_false] at hm
    rcases hm with hm | hm
    · exact absurd hm.symm (navTextId_ne_navUrlId m n)
    · exact ⟨link, navUrlId_injective hm ▸ hlink, hhref⟩

/-- A link of the navigation shows its own settings. -/
theorem faithful_nav (hroot : root.Distinct)
    (hsettings : definition.settings = headerSettings (.read .header root)) {n : Nat}
    (hp : (p, n) ∈ (HeaderParts.locate root).nav.zipIdx 1) (hid : navTextId n ∈ definition.ids) :
    definition.Faithful .header root p .text (Slot.text.reference (navTextId n)) ∧
      definition.Faithful .header root p .href (Slot.href.reference (navUrlId n)) := by
  have hmobile := not_isMobileLink_of_nav hroot (List.fst_mem_of_mem_zipIdx hp)
  obtain ⟨link, hlink, htext, hhref⟩ := tells_nav hsettings hid
  obtain rfl : p = link := Option.some.inj
    ((List.mem_zipIdx_iff_le_and_getElem?_sub.1 hp).2.symm.trans hlink)
  exact ⟨faithful_own (by decide) htext fun m h => absurd h (hmobile m),
    faithful_own (by decide) hhref fun m h => absurd h (hmobile m)⟩

end

end BlockDefinition

end ThemeSection
