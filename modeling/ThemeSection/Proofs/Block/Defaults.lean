import ThemeSection.Proofs.Block.Records
import ThemeSection.Proofs.Chars.Squeeze
import ThemeSection.Proofs.Json.Number
import ThemeSection.Proofs.Schema.Default

/-!
The record of the first element is the defaults of its definition. A definition is made from what the
first element of its type says, and records are made from the definition: for that first element both
come to the same values, whatever it says.
-/

namespace ThemeSection

open Markup

theorem squeeze_plainText (tree : Tree) : Text.squeeze tree.plainText = tree.plainText :=
  Text.squeeze_squeeze tree.text

/-- Rich text starts with a paragraph if its first text says something. -/
theorem head?_rich {text : String} (hsqueezed : Text.squeeze text = text) (hne : text ≠ "")
    (rest : List String) : (Text.rich (text :: rest)).toList.head? = some '<' := by
  have hkept : (!text.isEmpty) = true := by simpa using hne
  simp [Text.rich, hsqueezed, hkept]

theorem head?_of_richText? {paragraphs : List Place} {text : String}
    (h : richText? paragraphs = some text) : text.toList.head? = some '<' := by
  unfold richText? at h
  cases htexts : paragraphs.filterMap nonemptyText? with
  | nil =>
    rw [htexts] at h
    cases h
  | cons first rest =>
    rw [htexts] at h
    obtain rfl := Option.some.inj h
    obtain ⟨p, -, hp⟩ := List.mem_filterMap.1 (htexts ▸ List.mem_cons_self (a := first) (l := rest))
    obtain ⟨rfl, hne⟩ := nonemptyText?_eq_some.1 hp
    exact head?_rich (squeeze_plainText p.tree) hne rest

/-- A description starts with a paragraph. -/
theorem BlockInstance.head?_description {role : BlockRole} {p : Place} {text : String}
    (h : (BlockInstance.read role p).description = some text) : text.toList.head? = some '<' := by
  cases role with
  | generic => exact head?_of_richText? h
  | header => cases h
  | footerColumn => exact head?_of_richText? h
  | teamMember => exact head?_of_richText? h
  | beforeAfter => cases h

/-- Cleaned rich text that starts with a visible character needs no fallback. -/
theorem sanitizeDefault_richText {text : String} {c : Char} (hhead : text.toList.head? = some c)
    (hc : Chars.isBlank c = false) (hmarks : Liquid.hasMarks text = false)
    (fallback : String) :
    sanitizeDefault .richText (some text) fallback = .string (Text.trim text) := by
  have hne : (Text.trim text).isEmpty = false := by
    rw [← Bool.not_eq_true, String.isEmpty_iff, ← String.toList_eq_nil_iff, Text.trim,
      Text.toList_onChars, Chars.trim_eq_nil_iff]
    intro hall
    rw [hall c (List.mem_of_mem_head? hhead)] at hc
    cases hc
  simp [sanitizeDefault, Liquid.hasMarks_trim, hmarks, hne]

theorem Decimal.isBlank_positional (d : Decimal.Digits) :
    ∀ c ∈ d.positional.toList, Chars.isBlank c = false := by
  intro c hc
  by_cases h : d.exponent ≥ 0
  · exact Chars.isBlank_of_isDigit ((Json.whole_positional h).digits c hc)
  · rcases (Json.numberText_positional h).chars c hc with hdigit | hother
    · exact Chars.isBlank_of_isDigit hdigit
    · exact (by decide : ∀ c ∈ ['.', 'e', '+', '-'], Chars.isBlank c = false) c hother

theorem Decimal.trim_plain (x : Float) : Text.trim (Decimal.plain x) = Decimal.plain x := by
  have hall : ∀ c ∈ (Decimal.plain x).toList, Chars.isBlank c = false := by
    have hmagnitude : ∀ c ∈ (if x.isInf then "inf" else (ofFloat x).positional).toList,
        Chars.isBlank c = false := by
      split
      · decide
      · exact isBlank_positional _
    unfold plain
    split
    · decide
    · dsimp only
      split
      · rw [String.toList_append]
        exact List.forall_mem_append.2 ⟨by decide, hmagnitude⟩
      · exact hmagnitude
  rw [Text.trim, Text.onChars, Chars.trim_of_forall hall, String.ofList_toList]

namespace BlockInstance

open BlockDefinition

variable {said : BlockInstance} {role : BlockRole} {setting : Setting}

/-- An instance gives a setting the value of its default. -/
def Restores (said : BlockInstance) (role : BlockRole) (setting : Setting) : Prop :=
  said.settingValue? role setting = setting.default

theorem restores_of_none (h : said.valueOf? role setting.id = none) : said.Restores role setting := by
  rw [Restores, settingValue?, h]

/-- Only a text without template syntax and that is no picture counts. -/
theorem restores_of_some {text : String} (h : said.valueOf? role setting.id = some text)
    (hclean : setting.kind ≠ .imagePicker → Liquid.hasMarks text = false →
      setting.default = some (sanitizeDefault setting.kind (some text)
        ((setting.default.bind (·.str?)).getD ""))) : said.Restores role setting := by
  rw [Restores, settingValue?, h]
  dsimp only
  split
  case isTrue => rfl
  case isFalse hsays =>
    simp only [Bool.or_eq_true, beq_iff_eq, not_or, Bool.not_eq_true] at hsays
    exact (hclean hsays.1 hsays.2).symm

theorem restores_of_echoes (h : Echoes (said.valueOf? role) setting) (hid : setting.id ∉ otherIds) :
    said.Restores role setting := by
  cases hvalue : said.valueOf? role setting.id with
  | none => exact restores_of_none hvalue
  | some text =>
    obtain ⟨hkind, fallback, hdefault⟩ := h hid text hvalue
    refine restores_of_some hvalue fun _ _ => ?_
    rw [hdefault, Option.bind_some, sanitizeDefault_again hkind]

theorem restores_image (id label : String) : said.Restores role (.image id label) := by
  cases hvalue : said.valueOf? role id with
  | none => exact restores_of_none hvalue
  | some text => exact restores_of_some hvalue fun hkind => absurd rfl hkind

theorem restores_richText {id text : String} (hvalue : said.valueOf? role id = some text)
    (hhead : text.toList.head? = some '<') (label fallback : String) :
    said.Restores role (.richText id label (defaultRichText (some text) fallback)) := by
  refine restores_of_some hvalue fun _ hmarks => ?_
  have hclean := sanitizeDefault_richText hhead (by decide) hmarks
  rw [show (Setting.richText id label _).kind = .richText from rfl, hclean, ← hclean fallback]
  rfl

theorem restores_checkbox {id : String} (hvalue : said.valueOf? role id = some "true")
    (label : String) : said.Restores role (.checkbox id label true) :=
  restores_of_some hvalue fun _ _ => rfl

theorem restores_rating {id : String} {rating : Float}
    (hvalue : said.valueOf? role id = some (Decimal.plain rating))
    (hread : Decimal.read? (Decimal.plain rating) = some rating) (label : String) :
    said.Restores role (.rating id label (clampRating rating)) := by
  refine restores_of_some hvalue fun _ hmarks => ?_
  have htext : sanitizeDefault .range (some (Decimal.plain rating)) "" =
      .number (.float (clampRating rating)) := by
    simp [sanitizeDefault, Decimal.trim_plain, hmarks, hread]
  exact congrArg some htext.symm

/-- Settings of a role whose ids are among texts, addresses and images have nothing else to restore. -/
theorem restores_of_sublist {settings : List Setting} {ids : List String}
    (h : (settings.map Setting.id).Sublist ids) (hids : ∀ id ∈ ids, id ∉ otherIds) :
    ∀ setting ∈ settings, setting.id ∈ otherIds → said.Restores role setting :=
  fun _ hmem hid => absurd hid (hids _ (h.subset (List.mem_map_of_mem hmem)))

theorem restores_genericSettings
    (hrating : ∀ rating ∈ said.rating, Decimal.read? (Decimal.plain rating) = some rating)
    (hdescription : ∀ text, said.description = some text → text.toList.head? = some '<') :
    ∀ setting ∈ genericSettings said, setting.id ∈ otherIds → said.Restores .generic setting := by
  simp only [genericSettings, List.forall_mem_append]
  refine ⟨⟨⟨⟨⟨⟨⟨⟨⟨?_, ?_⟩, ?_⟩, ?_⟩, ?_⟩, ?_⟩, ?_⟩, ?_⟩, ?_⟩, ?_⟩
  case refine_5 =>
    simp only [List.forall_mem_map, Option.mem_toList]
    intro rating h _
    exact restores_rating (by simp [valueOf?, genericValue?, h]) (hrating rating h) _
  case refine_6 =>
    simp only [List.forall_mem_map, Option.mem_toList]
    intro text h _
    exact restores_richText (show said.valueOf? .generic "description" = _ from h) (hdescription text h) _ _
  · exact restores_of_sublist (ids_toList_map _ fun _ => rfl) (by decide : ∀ id ∈ ["heading"], _)
  · exact restores_of_sublist (ids_toList_map _ fun _ => rfl) (by decide : ∀ id ∈ ["subheading"], _)
  · exact restores_of_sublist (ids_toList_map _ fun _ => rfl) (by decide : ∀ id ∈ ["author"], _)
  · exact restores_of_sublist (ids_toList_map _ fun _ => rfl) (by decide : ∀ id ∈ ["price"], _)
  · exact restores_of_sublist (ids_toList_flatMap _ fun _ => rfl)
      (by decide : ∀ id ∈ ["image", "image_src", "image_alt"], _)
  · exact restores_of_sublist (ids_toList_map _ fun _ => rfl) (by decide : ∀ id ∈ ["icon"], _)
  · exact restores_of_sublist (ids_toList_flatMap _ fun _ => rfl)
      (by decide : ∀ id ∈ ["button_text", "button_url"], _)
  · exact restores_of_sublist (ids_toList_flatMap _ fun _ => rfl)
      (by decide : ∀ id ∈ ["background_image", "background_image_src"], _)

theorem not_mem_otherIds_of_nav {count : Nat} : ∀ id ∈ navIds count, id ∉ otherIds := by
  have hothers : ∀ id ∈ otherIds, id.toList.head? ≠ some 'n' := by decide
  intro id hid hother
  obtain ⟨n, -, hid⟩ := List.mem_flatMap.1 hid
  refine hothers id hother ?_
  simp only [List.mem_cons, List.not_mem_nil, or_false] at hid
  rcases hid with rfl | rfl
  · simp [navTextId]
  · simp [navUrlId]

theorem restores_headerSettings :
    ∀ setting ∈ headerSettings said, setting.id ∈ otherIds → said.Restores .header setting := by
  simp only [headerSettings, List.forall_mem_append]
  refine ⟨⟨⟨?_, ?_⟩, ?_⟩, ?_⟩
  · simp only [List.forall_mem_flatMap, Option.mem_toList]
    exact fun image _ => List.forall_mem_cons.2 ⟨fun _ => restores_image _ _,
      restores_of_sublist (List.Sublist.refl ["logo_src"]) (by decide)⟩
  · exact restores_of_sublist (ids_toList_map _ fun _ => rfl) (by decide : ∀ id ∈ ["logo_text"], _)
  · refine restores_of_sublist (.refl _) ?_
    rw [ids_numbered (fun n => [navTextId n, navUrlId n]) fun _ => rfl]
    exact not_mem_otherIds_of_nav
  · split
    case isTrue hmenu =>
      exact List.forall_mem_singleton.2 fun _ =>
        restores_checkbox (by simp [valueOf?, headerValue?, hmenu]) _
    case isFalse => exact List.forall_mem_nil _

theorem restores_footerColumnSettings
    (hdescription : ∀ text, said.description = some text → text.toList.head? = some '<') :
    ∀ setting ∈ footerColumnSettings said, setting.id ∈ otherIds →
      said.Restores .footerColumn setting := by
  simp only [footerColumnSettings, List.forall_mem_append]
  refine ⟨⟨⟨?_, ?_⟩, ?_⟩, ?_⟩
  · exact restores_of_sublist (ids_toList_map _ fun _ => rfl) (by decide : ∀ id ∈ ["heading"], _)
  · simp only [List.forall_mem_map, Option.mem_toList]
    intro text h _
    exact restores_richText (show said.valueOf? .footerColumn "description" = _ from h)
      (hdescription text h) _ _
  · split
    · exact List.forall_mem_nil _
    · refine restores_of_sublist (.refl _) ?_
      rw [ids_linkSettings]
      decide
  · split
    · exact List.forall_mem_nil _
    · refine restores_of_sublist (.refl _) ?_
      rw [ids_socialSettings]
      decide

theorem restores_teamMemberSettings
    (hdescription : ∀ text, said.description = some text → text.toList.head? = some '<') :
    ∀ setting ∈ teamMemberSettings said, setting.id ∈ otherIds →
      said.Restores .teamMember setting := by
  simp only [teamMemberSettings, List.forall_mem_append]
  refine ⟨⟨⟨?_, ?_⟩, ?_⟩, ?_⟩
  · exact restores_of_sublist (List.Sublist.refl ["name", "position"]) (by decide)
  · simp only [List.forall_mem_map, Option.mem_toList]
    intro text h _
    exact restores_richText (show said.valueOf? .teamMember "bio" = _ from h) (hdescription text h) _ _
  · exact restores_of_sublist (ids_toList_flatMap _ fun _ => rfl)
      (by decide : ∀ id ∈ ["image", "image_src", "image_alt"], _)
  · refine restores_of_sublist (.refl _) ?_
    rw [ids_socialSettings]
    decide

theorem restores_beforeAfterSettings : ∀ setting ∈ beforeAfterSettings said,
    setting.id ∈ otherIds → said.Restores .beforeAfter setting :=
  restores_of_sublist (ids_beforeAfterSettings said) (by decide)

/-- What an element says restores every default of its own definition. -/
theorem restores_settingsOf {role : BlockRole} {p : Place}
    (hrating : ∀ rating ∈ (read role p).rating,
      Decimal.read? (Decimal.plain rating) = some rating) :
    ∀ setting ∈ settingsOf role (read role p), (read role p).Restores role setting := by
  intro setting hmem
  by_cases hid : setting.id ∈ otherIds
  case neg => exact restores_of_echoes (echoes_settingsOf role setting hmem) hid
  case pos =>
    have hdescription : ∀ text, (read role p).description = some text →
        text.toList.head? = some '<' := fun _ h => head?_description h
    cases role with
    | generic => exact restores_genericSettings hrating hdescription setting hmem hid
    | header => exact restores_headerSettings setting hmem hid
    | footerColumn => exact restores_footerColumnSettings hdescription setting hmem hid
    | teamMember => exact restores_teamMemberSettings hdescription setting hmem hid
    | beforeAfter => exact restores_beforeAfterSettings setting hmem hid

end BlockInstance

namespace BlockDefinition

open BlockInstance

/-- The record of the element that a definition is made from holds the defaults of its settings, in
their order: for every role and every element, with whatever texts, addresses and template syntax. Of
decimal numbers it is asked only that the rating of the element can be read back from its digits. -/
theorem record_ofInstance (pattern : BlockPattern) (p : Place)
    (hrating : ∀ rating ∈ (read pattern.role p).rating,
      Decimal.read? (Decimal.plain rating) = some rating) :
    (read pattern.role p).record pattern.role (ofInstance pattern (read pattern.role p)) =
      Setting.defaults (ofInstance pattern (read pattern.role p)).settings := by
  rw [record_eq, Setting.defaults_eq]
  refine congrArg Json.Fields.merge (List.filterMap_congr fun setting hmem => ?_)
  rw [restores_settingsOf hrating setting hmem]

/-- A review with a rating, a name that is template syntax and a link that leads nowhere. -/
def reviewPage : Document :=
  Document.ofMarkup ("<div class=\"review\"><h3>\x7b\x7b shop.name \x7d\x7d</h3>" ++
    "<div class=\"rating\" data-rating=\"4.5\"></div><p>Great  <b>stuff</b></p>" ++
    "<a class=\"btn\" href=\"#\">More</a></div>")

def reviewPattern : BlockPattern :=
  { type := "review", name := "Review", selector := ".review", min := 1, max := 6 }

theorem record_ofInstance_review : ∃ p, reviewPage.body.first? (.classes ["review"]) = some p ∧
    (read .generic p).rating = some 4.5 ∧
    (read .generic p).record .generic (ofInstance reviewPattern (read .generic p)) =
      Setting.defaults (ofInstance reviewPattern (read .generic p)).settings := by
  have hp : ((reviewPage.body.first? (.classes ["review"])).map fun p =>
      (read .generic p).rating) = some (some 4.5) := by decide +kernel
  obtain ⟨p, hp, hrating⟩ := Option.map_eq_some_iff.1 hp
  refine ⟨p, hp, hrating, record_ofInstance reviewPattern p ?_⟩
  rw [show (read reviewPattern.role p).rating = some 4.5 from hrating]
  decide +kernel

end BlockDefinition

end ThemeSection
