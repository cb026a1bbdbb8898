import ThemeSection.Proofs.Block.Naming
import ThemeSection.Proofs.Chars.Blank
import ThemeSection.Proofs.Json.Shape

/-!
What the record of an element tells. A setting for a text or for an address has a default that is made
from the very value which the element shows, so the record of that element gives the setting just what
the value comes to once it is cleaned.
-/

namespace ThemeSection

/-- Blanks around a value do not count. -/
theorem sanitizeDefault_trim (kind : SettingKind) (text fallback : String) :
    sanitizeDefault kind (some (Text.trim text)) fallback =
      sanitizeDefault kind (some text) fallback := by
  have htrim : Text.trim (Text.trim text) = Text.trim text := by
    simp only [Text.trim, Text.onChars, String.toList_ofList, Chars.trim_trim]
  simp only [sanitizeDefault, Option.getD_some, htrim]

/-- The cleaned value falls back to itself. -/
theorem sanitizeDefault_again {kind : SettingKind} (hkind : kind = .text ∨ kind = .url)
    (found : Option String) (fallback : String) :
    sanitizeDefault kind found (((sanitizeDefault kind found fallback).str?).getD "") =
      sanitizeDefault kind found fallback := by
  rcases hkind with rfl | rfl
  case inr =>
    have hsame : ∀ a b, sanitizeDefault .url found a = sanitizeDefault .url found b :=
      fun _ _ => rfl
    exact hsame _ _
  obtain ⟨text, htext⟩ : ∃ text : String, ∀ fallback, sanitizeDefault .text found fallback =
      .string (if text.isEmpty then fallback else text) := ⟨_, fun _ => rfl⟩
  simp only [htext, Json.Value.str?, Option.getD_some]
  cases text.isEmpty <;> rfl

theorem nonemptyText?_eq_some {p : Markup.Place} {text : String} :
    nonemptyText? p = some text ↔ p.tree.plainText = text ∧ text ≠ "" := by
  unfold nonemptyText?
  split
  case h_1 hempty =>
    rw [hempty]
    constructor
    · exact fun h => by cases h
    · rintro ⟨rfl, hne⟩
      exact absurd rfl hne
  case h_2 hne =>
    constructor
    · exact fun h => ⟨Option.some.inj h, Option.some.inj h ▸ hne⟩
    · exact fun h => congrArg some h.1

/-- The fields of settings give each its value. -/
theorem Setting.get?_fieldsOf {settings : List Setting} (hids : (settings.map Setting.id).Nodup)
    (value? : Setting → Option Json.Value) {setting : Setting} (hmem : setting ∈ settings) :
    (fieldsOf value? settings).get? setting.id = value? setting := by
  induction settings with
  | nil => cases hmem
  | cons first rest ih =>
    rw [List.map_cons, List.nodup_cons] at hids
    have hcons : fieldsOf value? (first :: rest) =
        ((value? first).map fun value => (first.id, value)).toList ++ fieldsOf value? rest := by
      rw [fieldsOf, List.filterMap_cons]
      cases value? first <;> rfl
    rw [hcons, Json.Fields.get?_append]
    rcases List.mem_cons.1 hmem with rfl | hrest
    · cases value? setting with
      | none =>
        refine Json.Fields.get?_eq_none_of_not_mem fun hkey => hids.1 ?_
        exact (keys_fieldsOf_sublist value? rest).subset hkey
      | some value => simp [Json.Fields.get?]
    · have hne : setting.id ≠ first.id := fun heq => hids.1 (heq ▸ List.mem_map_of_mem hrest)
      cases value? first with
      | none => exact ih hids.2 hrest
      | some value =>
        rw [Option.map_some, Option.toList_some, Json.Fields.get?_cons, if_neg hne]
        exact ih hids.2 hrest

namespace BlockInstance

/-- Among numbered items, the one with a number is found. -/
theorem findSome?_zipIdx {α β : Type} {f : α × Nat → Option β} {g : α → β} {n : Nat}
    (hself : ∀ a, f (a, n) = some (g a)) (hother : ∀ a m, m ≠ n → f (a, m) = none)
    (items : List α) {k : Nat} (hk : k ≤ n) :
    (items.zipIdx k).findSome? f = (items[n - k]?).map g := by
  induction items generalizing k with
  | nil => rfl
  | cons a rest ih =>
    rw [List.zipIdx_cons, List.findSome?_cons]
    by_cases heq : k = n
    · subst heq
      simp [hself]
    · have hnext : n - k = n - (k + 1) + 1 := by omega
      rw [hother a k heq, hnext, List.getElem?_cons_succ]
      exact ih (by omega)

section

variable {textId urlId : Nat → String} (hne : ∀ m n, textId m ≠ urlId n)
include hne

theorem linkValue?_text (htext : Function.Injective textId) (links : List LinkRef) {n : Nat}
    (hn : 0 < n) :
    linkValue? textId urlId links (textId n) = (links[n - 1]?).map (·.text) := by
  refine findSome?_zipIdx (fun link => ?_) (fun link m hm => ?_) links hn
  · simp
  · have hid : textId n ≠ textId m := fun heq => hm (htext heq).symm
    simp [hid, hne n m]

theorem linkValue?_url (hurl : Function.Injective urlId) (links : List LinkRef) {n : Nat}
    (hn : 0 < n) :
    linkValue? textId urlId links (urlId n) = (links[n - 1]?).map (·.url) := by
  refine findSome?_zipIdx (fun link => ?_) (fun link m hm => ?_) links hn
  · simp [(hne n n).symm]
  · have hid : urlId n ≠ urlId m := fun heq => hm (hurl heq).symm
    simp [hid, (hne m n).symm]

end

end BlockInstance

namespace BlockDefinition

open BlockInstance

/-- The ids of settings that are neither a text nor an address, and of the logo. -/
def otherIds : List String :=
  ["rating", "description", "bio", "show_mobile_menu", "logo"]

/-- The default of a text or of an address is what `value?` says, cleaned. -/
def Echoes (value? : String → Option String) (setting : Setting) : Prop :=
  setting.id ∉ otherIds → ∀ text, value? setting.id = some text →
    (setting.kind = .text ∨ setting.kind = .url) ∧
      ∃ fallback, setting.default = some (sanitizeDefault setting.kind (some text) fallback)

section

variable {first : BlockInstance} {value? : String → Option String} {setting : Setting}

theorem echoes_text {id label fallback : String} {found : Option String} (h : value? id = found) :
    Echoes value? (.text id label (defaultText found fallback)) := by
  intro _ text htext
  obtain rfl : found = some text := h.symm.trans htext
  exact ⟨Or.inl rfl, fallback, rfl⟩

theorem echoes_url {id label text : String} (h : value? id = some text) :
    Echoes value? (.url id label (defaultUrl (some text))) := by
  intro _ text' htext
  obtain rfl := Option.some.inj (h.symm.trans htext)
  exact ⟨Or.inr rfl, "", rfl⟩

theorem echoes_withInfo (h : Echoes value? setting) (info : String) :
    Echoes value? (setting.withInfo info) := h

theorem echoes_of_none (h : value? setting.id = none) : Echoes value? setting := by
  intro _ text htext
  rw [h] at htext
  cases htext

theorem echoes_of_other (h : setting.id ∈ otherIds) : Echoes value? setting :=
  fun hid => absurd h hid

theorem echoes_imageSettings {id label addressLabel address : String}
    (hid : id ∈ otherIds ∨ value? id = none)
    (h : value? (id ++ "_src") = some address) :
    ∀ setting ∈ imageSettings id label addressLabel address, Echoes value? setting :=
  List.forall_mem_cons.2 ⟨hid.elim (fun h => echoes_of_other h) fun h => echoes_of_none h,
    List.forall_mem_singleton.2 (echoes_text h)⟩

theorem echoes_genericSettings :
    ∀ setting ∈ genericSettings first, Echoes first.genericValue? setting := by
  have hrating : "rating" ∈ otherIds ∧ "description" ∈ otherIds := by decide
  simp only [genericSettings, List.forall_mem_append, List.forall_mem_flatMap,
    List.forall_mem_map, Option.mem_toList]
  refine ⟨⟨⟨⟨⟨⟨⟨⟨⟨?_, ?_⟩, ?_⟩, ?_⟩, ?_⟩, ?_⟩, ?_⟩, ?_⟩, ?_⟩, ?_⟩
  · exact fun _ h => echoes_text h
  · exact fun _ h => echoes_text h
  · exact fun _ h => echoes_text h
  · exact fun _ h => echoes_text h
  · exact fun _ _ => echoes_of_other hrating.1
  · exact fun _ _ => echoes_of_other hrating.2
  · intro image h
    exact ⟨echoes_imageSettings (Or.inr rfl) (by simp [genericValue?, h]),
      List.forall_mem_singleton.2 (echoes_text (by simp [genericValue?, h]))⟩
  · exact fun icon h => echoes_withInfo (echoes_text h) _
  · intro button h
    exact List.forall_mem_cons.2 ⟨echoes_text (by simp [genericValue?, h]),
      List.forall_mem_singleton.2 (echoes_url (by simp [genericValue?, h]))⟩
  · exact fun address h => echoes_imageSettings (Or.inr rfl) (by simp [genericValue?, h])

/-- The id of a link in a header is no other id. -/
theorem headerValue?_of_head {id : String} (h : id.toList.head? = some 'n') :
    first.headerValue? id = linkValue? navTextId navUrlId first.links id := by
  unfold headerValue?
  split
  · exact absurd h (by decide)
  · exact absurd h (by decide)
  · exact absurd h (by decide)
  · rfl

variable (first) in
/-- A link of the navigation shows itself in the settings with its number. -/
theorem headerValue?_nav {n : Nat} (hn : 0 < n) :
    first.headerValue? (navTextId n) = (first.links[n - 1]?).map (·.text) ∧
      first.headerValue? (navUrlId n) = (first.links[n - 1]?).map (·.url) := by
  have htext : (navTextId n).toList.head? = some 'n' := by simp [navTextId]
  have hurl : (navUrlId n).toList.head? = some 'n' := by simp [navUrlId]
  rw [headerValue?_of_head htext, headerValue?_of_head hurl]
  exact ⟨linkValue?_text navTextId_ne_navUrlId navTextId_injective _ hn,
    linkValue?_url navTextId_ne_navUrlId navUrlId_injective _ hn⟩

theorem echoes_headerSettings :
    ∀ setting ∈ headerSettings first, Echoes first.headerValue? setting := by
  have hother : "logo" ∈ otherIds ∧ "show_mobile_menu" ∈ otherIds := by decide
  simp only [headerSettings, List.forall_mem_append, List.forall_mem_flatMap,
    List.forall_mem_map, Option.mem_toList]
  refine ⟨⟨⟨?_, ?_⟩, ?_⟩, ?_⟩
  · exact fun image h => echoes_imageSettings (Or.inl hother.1) (by simp [headerValue?, h])
  · exact fun _ h => echoes_text h
  · intro numbered h
    obtain ⟨hn, hlink⟩ := List.mem_zipIdx_iff_le_and_getElem?_sub.1 h
    obtain ⟨htext, hurl⟩ := headerValue?_nav first hn
    rw [hlink] at htext hurl
    exact List.forall_mem_cons.2 ⟨echoes_text htext, List.forall_mem_singleton.2 (echoes_url hurl)⟩
  · split
    · exact List.forall_mem_singleton.2 (echoes_of_other hother.2)
    · exact List.forall_mem_nil _

theorem echoes_beforeAfterSettings :
    ∀ setting ∈ beforeAfterSettings first, Echoes first.beforeAfterValue? setting := by
  simp only [beforeAfterSettings, List.forall_mem_append, List.forall_mem_flatMap,
    List.forall_mem_map, Option.mem_toList]
  refine ⟨⟨⟨fun _ h => echoes_text h, ?_⟩, fun _ h => echoes_text h⟩, fun _ h => echoes_text h⟩
  rcases himages : first.images with _ | ⟨before, _ | ⟨after, rest⟩⟩
  · exact List.forall_mem_nil _
  · exact List.forall_mem_singleton.2
      (echoes_imageSettings (Or.inr rfl) (by simp [beforeAfterValue?, himages]))
  · exact List.forall_mem_cons.2
      ⟨echoes_imageSettings (Or.inr rfl) (by simp [beforeAfterValue?, himages]),
        List.forall_mem_singleton.2
          (echoes_imageSettings (Or.inr rfl) (by simp [beforeAfterValue?, himages]))⟩

theorem socialValue?_of_mem {idOf : String → String} (hinj : Function.Injective idOf)
    {platforms : List String} {platform : String} (h : platform ∈ platforms) :
    socialValue? idOf platforms first (idOf platform) = first.social? platform := by
  have hfound : platforms.find? (fun other => idOf platform == idOf other) = some platform := by
    induction platforms with
    | nil => cases h
    | cons other rest ih =>
      rw [List.find?_cons]
      by_cases heq : platform = other
      · simp [heq]
      · rw [beq_eq_false_iff_ne.2 fun hid => heq (hinj hid)]
        exact ih ((List.mem_cons.1 h).resolve_left heq)
  rw [socialValue?, hfound, Option.bind_some]

theorem teamSocialId_injective : Function.Injective teamSocialId := fun a b h => by
  simpa only [teamSocialId, String.append_left_inj] using h

theorem footerSocialId_injective : Function.Injective footerSocialId := fun a b h => by
  simpa only [footerSocialId, String.append_right_inj] using h

/-- The setting of a platform, whatever else the role has settings for. -/
theorem echoes_socialSettings {idOf : String → String} {platforms : List String}
    (h : ∀ platform ∈ platforms, value? (idOf platform) = first.social? platform) :
    ∀ setting ∈ socialSettings idOf platforms first, Echoes value? setting := by
  intro setting hsetting
  obtain ⟨platform, hplatform, rfl⟩ := List.mem_map.1 hsetting
  intro _ text htext
  rw [id_optionalDefault, Setting.id_make, h platform hplatform] at htext
  rw [htext]
  exact ⟨Or.inr rfl, "", rfl⟩

theorem teamMemberValue?_of_platform {platform : String} (h : platform ∈ teamPlatforms) :
    first.teamMemberValue? (teamSocialId platform) = first.social? platform := by
  have hid : ∀ platform ∈ teamPlatforms, first.teamMemberValue? (teamSocialId platform) =
      socialValue? teamSocialId teamPlatforms first (teamSocialId platform) := by
    simp only [teamPlatforms, List.forall_mem_cons]
    exact ⟨rfl, rfl, rfl, rfl, List.forall_mem_nil _⟩
  rw [hid platform h, socialValue?_of_mem teamSocialId_injective h]

theorem echoes_teamMemberSettings :
    ∀ setting ∈ teamMemberSettings first, Echoes first.teamMemberValue? setting := by
  have hother : "bio" ∈ otherIds := by decide
  have hnone : first.teamMemberValue? "image" = none := rfl
  simp only [teamMemberSettings, List.forall_mem_append, List.forall_mem_flatMap,
    List.forall_mem_map, Option.mem_toList]
  refine ⟨⟨⟨?_, fun _ _ => echoes_of_other hother⟩, fun image h => ⟨?_, ?_⟩⟩,
    echoes_socialSettings fun _ => teamMemberValue?_of_platform⟩
  · exact List.forall_mem_cons.2 ⟨echoes_text rfl, List.forall_mem_singleton.2 (echoes_text rfl)⟩
  · exact echoes_imageSettings (Or.inr hnone) (by simp [teamMemberValue?, h])
  · exact List.forall_mem_singleton.2 (echoes_text (by simp [teamMemberValue?, h]))

theorem linkTextId_injective : Function.Injective linkTextId := fun a b h => by
  simp only [linkTextId, String.append_left_inj, String.append_right_inj] at h
  exact Nat.repr_injective h

theorem linkUrlId_injective : Function.Injective linkUrlId := fun a b h => by
  simp only [linkUrlId, String.append_left_inj, String.append_right_inj] at h
  exact Nat.repr_injective h

theorem linkTextId_ne_linkUrlId (m n : Nat) : linkTextId m ≠ linkUrlId n := by
  intro h
  have hlast := congrArg (fun id : String => id.toList.reverse.head?) h
  simp [linkTextId, linkUrlId] at hlast

theorem footerColumnValue?_of_link {id : String} (h : id.toList.head? = some 'l') :
    first.footerColumnValue? id = linkValue? linkTextId linkUrlId first.links id := by
  have hnone : socialValue? footerSocialId FooterParts.platforms first id = none := by
    have hfind : FooterParts.platforms.find? (fun platform => id == footerSocialId platform) =
        none := by
      refine List.find?_eq_none.2 fun platform _ heq => ?_
      rw [beq_iff_eq.1 heq] at h
      simp [footerSocialId] at h
    rw [socialValue?, hfind, Option.bind_none]
  unfold footerColumnValue?
  split
  · exact absurd h (by decide)
  · exact absurd h (by decide)
  · rw [hnone, Option.none_or]

theorem footerColumnValue?_of_platform {platform : String} (h : platform ∈ FooterParts.platforms) :
    first.footerColumnValue? (footerSocialId platform) = first.social? platform := by
  have hlinks : linkValue? linkTextId linkUrlId first.links (footerSocialId platform) = none := by
    refine List.findSome?_eq_none_iff.2 fun numbered _ => ?_
    have htext : footerSocialId platform ≠ linkTextId numbered.2 := fun heq => by
      have := congrArg (fun id : String => id.toList.head?) heq
      simp [footerSocialId, linkTextId] at this
    have hurl : footerSocialId platform ≠ linkUrlId numbered.2 := fun heq => by
      have := congrArg (fun id : String => id.toList.head?) heq
      simp [footerSocialId, linkUrlId] at this
    simp [htext, hurl]
  have hid : first.footerColumnValue? (footerSocialId platform) =
      (socialValue? footerSocialId FooterParts.platforms first (footerSocialId platform)).or
        (linkValue? linkTextId linkUrlId first.links (footerSocialId platform)) := by
    unfold footerColumnValue?
    split
    case h_1 heq =>
      have := congrArg (fun id : String => id.toList.head?) heq
      simp [footerSocialId] at this
    case h_2 heq =>
      have := congrArg (fun id : String => id.toList.head?) heq
      simp [footerSocialId] at this
    case h_3 => rfl
  rw [hid, hlinks, Option.or_none, socialValue?_of_mem footerSocialId_injective h]

variable (first) in
/-- A slot shows the link with its number, if there is one. -/
theorem footerColumnValue?_slot {n : Nat} (hn : 0 < n) :
    first.footerColumnValue? (linkTextId n) = (first.links[n - 1]?).map (·.text) ∧
      first.footerColumnValue? (linkUrlId n) = (first.links[n - 1]?).map (·.url) := by
  have htext : (linkTextId n).toList.head? = some 'l' := by simp [linkTextId]
  have hurl : (linkUrlId n).toList.head? = some 'l' := by simp [linkUrlId]
  rw [footerColumnValue?_of_link htext, footerColumnValue?_of_link hurl]
  exact ⟨linkValue?_text linkTextId_ne_linkUrlId linkTextId_injective _ hn,
    linkValue?_url linkTextId_ne_linkUrlId linkUrlId_injective _ hn⟩

theorem echoes_footerColumnSettings :
    ∀ setting ∈ footerColumnSettings first, Echoes first.footerColumnValue? setting := by
  have hother : "description" ∈ otherIds := by decide
  simp only [footerColumnSettings, List.forall_mem_append, List.forall_mem_map, Option.mem_toList]
  refine ⟨⟨⟨fun _ h => echoes_text h, fun _ _ => echoes_of_other hother⟩, ?_⟩, ?_⟩
  · split
    · exact List.forall_mem_nil _
    · simp only [linkSettings, List.forall_mem_flatMap, List.forall_mem_cons]
      intro n hn
      have hslot := footerColumnValue?_slot first (List.mem_range'_1.1 hn).1
      refine ⟨fun _ text htext => ?_, fun _ text htext => ?_, List.forall_mem_nil _⟩
      · rw [id_optionalDefault, Setting.id_make, hslot.1] at htext
        obtain ⟨link, hlink, rfl⟩ := Option.map_eq_some_iff.1 htext
        rw [hlink]
        exact ⟨Or.inl rfl, "", rfl⟩
      · rw [id_optionalDefault, Setting.id_make, hslot.2] at htext
        obtain ⟨link, hlink, rfl⟩ := Option.map_eq_some_iff.1 htext
        rw [hlink]
        exact ⟨Or.inr rfl, "", rfl⟩
  · split
    · exact List.forall_mem_nil _
    · exact echoes_socialSettings fun platform => footerColumnValue?_of_platform

/-- Whatever the role, a default is what the element shows. -/
theorem echoes_settingsOf (role : BlockRole) :
    ∀ setting ∈ settingsOf role first, Echoes (first.valueOf? role) setting := by
  cases role with
  | generic => exact echoes_genericSettings
  | header => exact echoes_headerSettings
  | footerColumn => exact echoes_footerColumnSettings
  | teamMember => exact echoes_teamMemberSettings
  | beforeAfter => exact echoes_beforeAfterSettings

end

/-- A record gives a setting what a text comes to once it is cleaned. -/
def Tells (definition : BlockDefinition) (role : BlockRole) (said : BlockInstance)
    (id text : String) : Prop :=
  ∃ setting ∈ definition.settings, setting.id = id ∧
    (said.record role definition).get? id =
      some (sanitizeDefault setting.kind (some text) ((setting.default.bind (·.str?)).getD ""))

section

variable {definition : BlockDefinition} {role : BlockRole} {said : BlockInstance} {id text : String}

theorem Tells.of_trim (h : definition.Tells role said id (Text.trim text)) :
    definition.Tells role said id text := by
  obtain ⟨setting, hmem, hid, hvalue⟩ := h
  exact ⟨setting, hmem, hid, by rw [hvalue, sanitizeDefault_trim]⟩

/-- The record of the element that a definition was made from tells what the element shows. -/
theorem tells_of_valueOf? (hsettings : definition.settings = settingsOf role said)
    (hid : id ∈ definition.ids) (hother : id ∉ otherIds)
    (hvalue : said.valueOf? role id = some text) : definition.Tells role said id text := by
  obtain ⟨setting, hmem, rfl⟩ := List.mem_map.1 hid
  have hids : (definition.settings.map Setting.id).Nodup := by
    rw [hsettings]
    exact nodup_ids_settingsOf role said
  have hechoes := echoes_settingsOf role setting (hsettings ▸ hmem)
  obtain ⟨hkind, fallback, hdefault⟩ := hechoes hother text hvalue
  refine ⟨setting, hmem, rfl, ?_⟩
  rw [record_eq, Setting.merge_fieldsOf _ hids, Setting.get?_fieldsOf hids _ hmem]
  unfold settingValue?
  rw [hvalue]
  dsimp only
  split
  case isTrue => rw [hdefault, Option.bind_some, sanitizeDefault_again hkind]
  case isFalse => rfl

end

end BlockDefinition

end ThemeSection
