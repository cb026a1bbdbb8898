import ThemeSection.Proofs.Assets
import ThemeSection.Proofs.Block.Defaults
import ThemeSection.Proofs.Block.Standing
import ThemeSection.Proofs.Text.Rich

/-!
No text of a generic block is lost. Binding takes texts away only where it shows a setting instead, and
the record of the element tells that setting all the texts that were there, unless it is the rating: of
a rating a record has the number only.
-/

namespace ThemeSection

open Markup Liquid Document

namespace BlockDefinition

variable {definition : BlockDefinition} {root p : Place} {start d : Document}

/-- The parts of an element that show a setting as their text, each with the setting. -/
def textParts (root : Place) : List (String × Option Place) :=
  let parts := BlockParts.locate root
  [("heading", parts.heading), ("subheading", parts.subheading), ("author", parts.author),
    ("price", parts.price), ("button_text", parts.button)]

/-- Binding a generic block takes away what stands in the parts that show a text or the rating, and the
paragraphs of the description, each only where the block has the setting. -/
def genericLeeway (definition : BlockDefinition) (root : Place) : Leeway where
  lost line :=
    (∃ shown ∈ textParts root, definition.has shown.1 ∧ ∃ p ∈ shown.2, p.id ∈ line.tail) ∨
      (definition.has "rating" ∧ ∃ p ∈ (BlockParts.locate root).rating, p.id ∈ line.tail) ∨
      (definition.has "description" ∧ ∃ p ∈ (BlockParts.locate root).description, p.id ∈ line)
  parted _ _ := True
  touched _ _ := True

theorem keeps_bindGeneric (hd : d.Distinct) :
    Keeps (definition.genericLeeway root) d (bindGeneric definition root d) := by
  have htext : ∀ shown ∈ textParts root, ∀ p ∈ shown.2, definition.has shown.1 →
      (definition.genericLeeway root).Empties p.id := fun shown hshown p hp hhas =>
    ⟨fun _ hline => Or.inl ⟨shown, hshown, hhas, p, hp, hline⟩, fun _ => trivial⟩
  simp only [textParts, List.forall_mem_cons] at htext
  obtain ⟨hheading, hsubheading, hauthor, hprice, hbutton, -⟩ := htext
  have hrating : ∀ p ∈ (BlockParts.locate root).rating, definition.has "rating" →
      (definition.genericLeeway root).Empties p.id :=
    fun p hp hhas => ⟨fun _ hline => Or.inr (Or.inl ⟨hhas, p, hp, hline⟩), fun _ => trivial⟩
  have hattribute : ∀ {d' : Document}, Keeps (definition.genericLeeway root) d d' →
      ∀ x name value, Keeps (definition.genericLeeway root) d (d'.setAttribute x name value) :=
    fun h _ _ _ => h.step (Leeway.within_setAttribute trivial _)
  have h : Keeps (definition.genericLeeway root) d d := .refl hd
  have h := h.showPart hheading
  have h := h.showPart hsubheading
  have h := h.showPart hauthor
  have h := h.showPart hprice
  have h := h.ofPart definition (BlockParts.locate root).rating "rating" bindRating
    fun p hp hhas => by
      unfold bindRating
      dsimp only
      split
      · exact (hattribute h _ _ _).step (Leeway.within_setText (hrating p hp hhas) _)
      · exact h.step (Leeway.within_setText (hrating p hp hhas) _)
  have h := h.ofPart definition (BlockParts.locate root).icon "icon"
    (fun d icon => d.showInAttribute icon.id "class" "icon") fun p _ _ => hattribute h _ _ _
  have h := h.ofPart definition (BlockParts.locate root).button "button_text" bindButton
    fun p hp hhas => by
      have hshown := h.showSetting (hbutton p hp hhas) "button_text"
      unfold bindButton
      dsimp only
      split
      · exact hattribute hshown _ _ _
      · exact hshown
  have h := h.ofPart definition (BlockParts.locate root).image "image"
    (fun d image => d.showDescribedImage image.id "image")
    fun p _ _ => h.showDescribedImage (fun _ _ => trivial) "image"
  have hrich : ∀ {d' : Document}, Keeps (definition.genericLeeway root) d d' →
      Keeps (definition.genericLeeway root) d (if definition.has "description" then
        d'.showRichText (BlockParts.locate root).description "description" else d') := by
    intro d' h
    split
    case isTrue hhas =>
      refine h.showRichText (fun p hp => ⟨fun _ hline => ?_, fun _ _ _ => trivial⟩) "description"
      exact Or.inr (Or.inr ⟨hhas, p, hp, hline⟩)
    case isFalse => exact h
  have h := hrich h
  unfold bindGeneric
  dsimp only
  split
  · unfold bindBackground
    split
    · exact h
    · exact hattribute h _ _ _
  · exact h

/-- A text as it stands in a setting of a kind. -/
def written (kind : SettingKind) (text : String) : String :=
  if kind = .richText then Text.escapeHtml text else text

/-- A string in the record holds a text, its words apart by one space. -/
def Recounts (definition : BlockDefinition) (role : BlockRole) (said : BlockInstance) (text : String) :
    Prop :=
  ∃ setting ∈ definition.settings, ∃ value : String,
    (said.record role definition).get? setting.id = some (.string value) ∧
      (written setting.kind (Text.squeeze text)).toList <:+: value.toList

/-- The settings that a generic block may have, each with its kind. -/
def genericKinds : List (String × SettingKind) :=
  [("heading", .text), ("subheading", .text), ("author", .text), ("price", .text), ("rating", .range),
    ("description", .richText), ("image", .imagePicker), ("image_src", .text), ("image_alt", .text),
    ("icon", .text), ("button_text", .text), ("button_url", .url), ("background_image", .imagePicker),
    ("background_image_src", .text)]

theorem kind_genericSettings (first : BlockInstance) : ∀ setting ∈ genericSettings first,
    (setting.id, setting.kind) ∈ genericKinds := by
  simp only [genericSettings, imageSettings, List.forall_mem_append, List.forall_mem_flatMap,
    List.forall_mem_map]
  simp [genericKinds, Setting.text, Setting.richText, Setting.url, Setting.image, Setting.rating,
    Setting.range, Setting.make, Setting.withDefault, Setting.withInfo]

theorem braceless_plainText {t : Tree} (h : Braceless t.text.toList) : Braceless t.plainText.toList := by
  rw [Tree.plainText, Text.squeeze, Text.toList_onChars]
  exact h.squeeze

theorem richText?_of_mem {paragraphs : List Place} (hp : p ∈ paragraphs) (hne : p.tree.plainText ≠ "") :
    richText? paragraphs = some (Text.rich (paragraphs.filterMap nonemptyText?)) := by
  have htold : p.tree.plainText ∈ paragraphs.filterMap nonemptyText? :=
    List.mem_filterMap.2 ⟨p, hp, nonemptyText?_eq_some.2 ⟨rfl, hne⟩⟩
  unfold richText?
  split
  case h_1 hnone =>
    rw [hnone] at htold
    cases htold
  case h_2 => rfl

theorem hasMarks_rich {paragraphs : List Place} (h : ∀ p ∈ paragraphs, Braceless p.tree.text.toList) :
    hasMarks (Text.rich (paragraphs.filterMap nonemptyText?)) = false := by
  refine hasMarks_of_braceless (Text.braceless_rich fun text htext => ?_)
  obtain ⟨p, hp, hshown⟩ := List.mem_filterMap.1 htext
  exact (nonemptyText?_eq_some.1 hshown).1 ▸ braceless_plainText (h p hp)

section

variable {said : BlockInstance} {role : BlockRole} {id text part : String}

/-- The record gives a setting a clean value of the element. -/
theorem get?_record_of_clean (hsettings : definition.settings = settingsOf role said) {setting : Setting}
    (hmem : setting ∈ definition.settings) (hvalue : said.valueOf? role setting.id = some text)
    (hkind : setting.kind ≠ .imagePicker) (hmarks : hasMarks text = false) :
    (said.record role definition).get? setting.id =
      some (sanitizeDefault setting.kind (some text) ((setting.default.bind (·.str?)).getD "")) := by
  have hids : (definition.settings.map Setting.id).Nodup := by
    rw [hsettings]
    exact nodup_ids_settingsOf role said
  rw [BlockInstance.record_eq, Setting.merge_fieldsOf _ hids, Setting.get?_fieldsOf hids _ hmem,
    BlockInstance.settingValue?, hvalue]
  dsimp only
  rw [if_neg (by simp [hkind, hmarks])]

/-- A record that tells a text tells every part of it. -/
theorem Tells.recounts (h : definition.Tells role said id text)
    (hkind : ∀ setting ∈ definition.settings, setting.id = id → setting.kind = .text)
    (hsqueezed : Text.squeeze text = text) (hmarks : hasMarks text = false)
    (hpart : (Text.squeeze part).toList <:+: text.toList) : definition.Recounts role said part := by
  obtain ⟨setting, hmem, rfl, hvalue⟩ := h
  have htrim : Text.trim text = text := by rw [← hsqueezed, Text.trim_squeeze]
  rw [hkind setting hmem rfl] at hvalue
  simp only [sanitizeDefault, Option.getD_some, htrim, hmarks, hsqueezed, Bool.false_eq_true,
    if_false] at hvalue
  refine ⟨setting, hmem, _, hvalue, ?_⟩
  rw [hkind setting hmem rfl, written, if_neg (by decide)]
  split
  case isTrue hempty =>
    rw [String.isEmpty_iff.1 hempty] at hpart
    rw [List.infix_nil.1 hpart]
    exact List.nil_infix
  case isFalse => exact hpart

variable (hsettings : definition.settings = genericSettings (.read .generic root))
include hsettings

theorem tells_textParts : ∀ shown ∈ textParts root, definition.has shown.1 → ∀ p ∈ shown.2,
    definition.Tells .generic (.read .generic root) shown.1 p.tree.plainText := by
  have hsome := isSome_genericValue hsettings
  simp only [textParts, List.forall_mem_cons] at hsome ⊢
  obtain ⟨hsome₁, hsome₂, hsome₃, hsome₄, -, -⟩ := hsome
  refine ⟨fun h p hp => ?_, fun h p hp => ?_, fun h p hp => ?_, fun h p hp => ?_, fun h p hp => ?_,
    List.forall_mem_nil _⟩
  · exact tells_text hsettings (has_iff.1 h) (by decide) hp rfl (hsome₁ (has_iff.1 h))
  · exact tells_text hsettings (has_iff.1 h) (by decide) hp rfl (hsome₂ (has_iff.1 h))
  · exact tells_text hsettings (has_iff.1 h) (by decide) hp rfl (hsome₃ (has_iff.1 h))
  · exact tells_text hsettings (has_iff.1 h) (by decide) hp rfl (hsome₄ (has_iff.1 h))
  · exact (tells_button hsettings hp (has_iff.1 h)).1

/-- A text in a part that shows a text. -/
theorem recounts_textParts {shown : String × Option Place} (hshown : shown ∈ textParts root)
    (hhas : definition.has shown.1) (hp : p ∈ shown.2) (hmarks : hasMarks p.tree.plainText = false)
    (hpart : part.toList <:+: p.tree.text.toList) :
    definition.Recounts .generic (.read .generic root) part := by
  refine (tells_textParts hsettings shown hshown hhas p hp).recounts (fun setting hmem hid => ?_)
    (squeeze_plainText p.tree) hmarks (Text.squeeze_infix hpart)
  have hids : shown.1 ∈ ["heading", "subheading", "author", "price", "button_text"] :=
    List.mem_map_of_mem (f := Prod.fst) hshown
  have hkinds : ∀ kinded ∈ genericKinds, kinded.1 ∈ ["heading", "subheading", "author", "price",
      "button_text"] → kinded.2 = .text := by decide
  exact hkinds _ (kind_genericSettings _ setting (hsettings ▸ hmem)) (hid ▸ hids)

/-- A text in a paragraph of the description. -/
theorem recounts_description (hhas : definition.has "description")
    (hplain : ∀ p ∈ (BlockParts.locate root).description, Braceless p.tree.text.toList)
    (hp : p ∈ (BlockParts.locate root).description) (hpart : part.toList <:+: p.tree.text.toList) :
    definition.Recounts .generic (.read .generic root) part := by
  obtain ⟨setting, hmem, hid⟩ := List.mem_map.1 (has_iff.1 hhas)
  have hkinds : ∀ kinded ∈ genericKinds, kinded.1 = "description" → kinded.2 = .richText := by decide
  have hkind : setting.kind = .richText :=
    hkinds _ (kind_genericSettings _ setting (hsettings ▸ hmem)) hid
  have hne : p.tree.plainText ≠ "" := by
    have hfound := (List.mem_filter.1 hp).2
    simp only [Bool.and_eq_true, bne_iff_ne] at hfound
    exact hfound.2
  have hread := richText?_of_mem hp hne
  have hmarks := hasMarks_rich hplain
  have hown : definition.settings = settingsOf .generic (.read .generic root) := hsettings
  have hvalue := get?_record_of_clean hown hmem
    (by rw [hid]; exact hread) (by simp [hkind]) hmarks
  rw [hkind, sanitizeDefault_richText (head?_of_richText? hread) (by decide) hmarks, Text.trim_rich]
    at hvalue
  refine ⟨setting, hmem, _, hvalue, ?_⟩
  rw [hkind, written, if_pos rfl]
  exact (Text.escapeHtml_infix (Text.squeeze_infix hpart)).trans
    (Text.rich_infix (List.mem_filterMap.2 ⟨p, hp, nonemptyText?_eq_some.2 ⟨rfl, hne⟩⟩)
      (squeeze_plainText p.tree) hne)

end

variable (root) in
theorem mem_descend_textParts : ∀ shown ∈ textParts root, ∀ p ∈ shown.2, p ∈ root.descend := by
  have hparts := BlockParts.mem_descend_locate root
  simp only [textParts, List.forall_mem_cons] at hparts ⊢
  obtain ⟨hheading, hsubheading, hauthor, hprice, hbutton, -, -⟩ := hparts
  exact ⟨hheading, hsubheading, hauthor, hprice, hbutton, List.forall_mem_nil _⟩

/-- A text of an element without braces is still there after binding, below the same nodes, or the
record of the element tells it. Only what stands in the part that shows the rating, which the element
itself may be, gives way to the stars. -/
theorem says_bind_or_recounts (pattern : BlockPattern) (hrole : pattern.role = .generic)
    (hd : d.Distinct) (hroot : root ∈ d.places)
    (hplain : Braceless root.tree.text.toList) (hp : p ∈ root.descend) {content : String}
    (hkind : p.tree.kind = .text content)
    (hrating : (ofInstance pattern (.read pattern.role root)).has "rating" →
      ∀ r ∈ (BlockParts.locate root).rating, ¬ p.isWithin r.id) :
    let definition := ofInstance pattern (.read pattern.role root)
    (definition.bind pattern.role root d).Says p.line content ∨
      definition.Recounts pattern.role (.read pattern.role root) content := by
  intro definition
  have hsettings : definition.settings = genericSettings (.read .generic root) := by
    change settingsOf pattern.role (.read pattern.role root) = _
    rw [hrole]
    rfl
  have hdistinct := hd.place_distinct hroot
  have hnodes : ∀ q ∈ root.descend, q.tree ∈ root.tree.nodes := fun q hq =>
    Place.map_tree_descend root ▸ List.mem_map_of_mem hq
  have hbelow : ∀ q ∈ root.descend, Braceless q.tree.text.toList := fun q hq c hc =>
    hplain c ((Tree.infix_text_of_mem_nodes (hnodes q hq)).subset hc)
  have hinside : ∀ q ∈ root.descend, q.id ∈ p.line → content.toList <:+: q.tree.text.toList := by
    intro q hq hline
    have hin := (hdistinct.isWithin_iff hp hq).1 (Place.isWithin_iff_mem_line.2 hline)
    have htree : p.tree ∈ q.tree.nodes := Place.map_tree_descend q ▸ List.mem_map_of_mem hin
    exact (Tree.infix_text_of_kind hkind).trans (Tree.infix_text_of_mem_nodes htree)
  rw [hrole]
  have hkeeps : Keeps (definition.genericLeeway root) d (bindGeneric definition root d) :=
    keeps_bindGeneric hd
  by_cases hlost : (definition.genericLeeway root).lost p.line
  · refine Or.inr ?_
    rcases hlost with ⟨shown, hshown, hhas, q, hq, hline⟩ | ⟨hhas, q, hq, hline⟩ | ⟨hhas, q, hq, hline⟩
    · have hqroot := mem_descend_textParts root shown hshown q hq
      exact recounts_textParts hsettings hshown hhas hq
        (hasMarks_of_braceless (braceless_plainText (hbelow q hqroot)))
        (hinside q hqroot (List.mem_of_mem_tail hline))
    · have hwithin := Place.isWithin_iff_mem_line.2 (List.mem_of_mem_tail hline)
      exact absurd hwithin (hrating hhas q hq)
    · have hdescription : ∀ q ∈ (BlockParts.locate root).description, q ∈ root.descend := fun q hq =>
        List.mem_of_mem_filter (List.mem_of_mem_filter hq)
      exact recounts_description hsettings hhas (fun q hq => hbelow q (hdescription q hq)) hq
        (hinside q (hdescription q hq) hline)
  · exact Or.inl (Says.keeps ⟨p, mem_places_descend hroot hp, rfl, hkind⟩ hkeeps hlost)

/-- A card with a paragraph and a rating. -/
def teaPage : Document :=
  Document.ofMarkup
    "<div class=\"card\"><p>Green <b>tea</b></p><span class=\"rating\">5</span></div>"

def teaCard : Place := (teaPage.rootPlace.first? (.classes ["card"])).getD teaPage.rootPlace

def cardPattern : BlockPattern :=
  { type := "card", name := "Card", selector := ".card", min := 2, max := 12, role := .generic }

/-- The record tells the text that the paragraph of a card has before its bold word. -/
theorem recounts_teaCard : ∃ p ∈ teaCard.descend, p.tree.kind = .text "Green " ∧
    (ofInstance cardPattern (.read .generic teaCard)).Recounts .generic (.read .generic teaCard)
      "Green " := by
  have hshown : Braceless teaCard.tree.text.toList ∧ ∃ p ∈ teaCard.descend,
      (p.tree.kind = .text "Green " ∧ teaCard.id ∈ p.line) ∧
        (∀ r ∈ (BlockParts.locate teaCard).rating, ¬ p.isWithin r.id) ∧
        ∀ q ∈ ((ofInstance cardPattern (.read .generic teaCard)).bind .generic teaCard teaPage).places,
          q.isWithin teaCard.id → q.tree.kind ≠ .text "Green " := by
    decide +kernel
  obtain ⟨hplain, p, hp, ⟨hkind, hline⟩, hrating, hgone⟩ := hshown
  have h := says_bind_or_recounts cardPattern rfl (Document.distinct_ofMarkup _)
    (teaPage.first?_mem_places (.classes ["card"])) hplain hp hkind fun _ => hrating
  refine ⟨p, hp, hkind, h.resolve_left ?_⟩
  rintro ⟨q, hq, hsame, hsays⟩
  exact hgone q hq (Place.isWithin_iff_mem_line.2 (hsame ▸ hline)) hsays

/-- A card that is a rating itself. -/
def ratedPage : Document :=
  Document.ofMarkup "<div class=\"card rating\"><p>5 great</p></div>"

def ratedCard : Place := (ratedPage.rootPlace.first? (.classes ["card"])).getD ratedPage.rootPlace

/-- Stars take the place of its paragraph, which the record does not tell. -/
example : (∃ p ∈ ratedCard.descend, p.tree.kind = .text "5 great") ∧
    (ofInstance cardPattern (.read .generic ratedCard)).ids = ["rating"] ∧
    ∀ q ∈ ((ofInstance cardPattern (.read .generic ratedCard)).bind .generic ratedCard ratedPage).places,
      q.isWithin ratedCard.id → q.tree.kind ≠ .text "5 great" := by
  decide +kernel

end BlockDefinition

end ThemeSection
