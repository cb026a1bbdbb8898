import ThemeSection.Proofs.Block.Naming
import ThemeSection.Proofs.Document.Rewrite

/-!
The keys that the markup of a block uses. The loops of a footer column compute the ids of settings
from numbers and platforms; every key that they can come to is the id of a setting of the column. What
is written for one block is collected text by text, and a key may be used in one text that a loop in
another text around it computes.
-/

namespace ThemeSection

open Liquid

/-- The variables in which loops compute the ids of settings. -/
def keyNames : List String := ["link_text_key", "link_url_key", "social_key"]

def keysUsed (texts : List String) : List String :=
  texts.flatMap fun text => (tokens text.toList).flatMap fun t => keyVariables t.content

def keysGiven (texts : List String) : Values :=
  texts.flatMap Values.afterText

/-- The keys used in some texts are computed in them, or in texts to come, and can only be `ids`. -/
structure KeysFit (ids pending texts : List String) : Prop where
  used : ∀ name ∈ keysUsed texts, name ∈ keyNames ∧
    (name ∈ pending ∨ name ∈ (keysGiven texts).map Prod.fst)
  given : ∀ value ∈ keysGiven texts, value.1 ∈ keyNames → ∃ id ∈ ids, value.2 = some id

namespace KeysFit

variable {ids pending pending' a b texts : List String}

theorem nil : KeysFit ids pending [] where
  used := List.forall_mem_nil _
  given := List.forall_mem_nil _

theorem append (ha : KeysFit ids pending a) (hb : KeysFit ids pending b) :
    KeysFit ids pending (a ++ b) where
  used := by
    intro name hname
    rw [keysUsed, List.flatMap_append, List.mem_append] at hname
    rw [keysGiven, List.flatMap_append, List.map_append, List.mem_append]
    rcases hname with hname | hname
    · exact (ha.used name hname).imp_right fun h => h.imp_right Or.inl
    · exact (hb.used name hname).imp_right fun h => h.imp_right Or.inr
  given := by
    intro value hvalue
    rw [keysGiven, List.flatMap_append, List.mem_append] at hvalue
    rcases hvalue with hvalue | hvalue
    · exact ha.given value hvalue
    · exact hb.given value hvalue

theorem mono (h : KeysFit ids pending texts) (hsub : pending ⊆ pending') :
    KeysFit ids pending' texts :=
  { h with used := fun name hname => (h.used name hname).imp_right fun h => h.imp_left (hsub ·) }

/-- The texts that compute the pending keys come last. -/
theorem close (ha : KeysFit ids pending a) (hb : KeysFit ids [] b)
    (hgiven : pending ⊆ (keysGiven b).map Prod.fst) : KeysFit ids [] (a ++ b) where
  used := by
    intro name hname
    rw [keysUsed, List.flatMap_append, List.mem_append] at hname
    rw [keysGiven, List.flatMap_append, List.map_append, List.mem_append]
    rcases hname with hname | hname
    · obtain ⟨hkey, hpending | hfound⟩ := ha.used name hname
      · exact ⟨hkey, Or.inr (Or.inr (hgiven hpending))⟩
      · exact ⟨hkey, Or.inr (Or.inl hfound)⟩
    · obtain ⟨hkey, hpending | hfound⟩ := hb.used name hname
      · cases hpending
      · exact ⟨hkey, Or.inr (Or.inr hfound)⟩
  given := (ha.append (hb.mono (List.nil_subset _))).given

theorem additive : Document.Additive fun log => KeysFit ids pending (log.flatMap Edit.texts) where
  nil := .nil
  append := fun ha hb => List.flatMap_append ▸ ha.append hb

/-- Texts that use no key and compute none. -/
theorem of_still (h : ∀ text ∈ texts, Still text) : KeysFit ids pending texts where
  used := by
    intro name hname
    obtain ⟨text, htext, hname⟩ := List.mem_flatMap.1 hname
    obtain ⟨t, ht, hname⟩ := List.mem_flatMap.1 hname
    rw [(h text htext t ht).keys] at hname
    cases hname
  given := by
    intro value hvalue
    obtain ⟨text, htext, hvalue⟩ := List.mem_flatMap.1 hvalue
    have hnothing : ∀ ts : List Liquid.Token, (∀ t ∈ ts, t.Still) →
        ∀ values : Values, ts.foldl Values.afterToken values = values := by
      intro ts hts
      induction ts with
      | nil => exact fun _ => rfl
      | cons t ts ih =>
        intro values
        obtain ⟨ht, hts⟩ := List.forall_mem_cons.1 hts
        rw [List.foldl_cons, Values.afterToken, if_neg ht.loop, if_neg ht.assignment, ih hts]
    rw [Values.afterText, hnothing _ (h text htext)] at hvalue
    cases hvalue

end KeysFit

/-- What an edit writes is as it is meant, text by text. -/
theorem Edit.Fits.fits_of_mem_texts {allowed : Owner → String → Prop} {e : Edit}
    (h : e.Fits allowed) : ∀ text ∈ e.texts, ∀ t ∈ tokens text.toList, t.Fits allowed := by
  intro text htext
  cases e with
  | setAttribute id name value => exact List.mem_singleton.1 htext ▸ h.2.2.fits
  | removeAttribute id name => cases htext
  | background id source => exact List.mem_singleton.1 htext ▸ Sound.fits h
  | setText id content => exact List.mem_singleton.1 htext ▸ Sound.fits h
  | renew id content => exact List.mem_singleton.1 htext ▸ Sound.fits h
  | wrap id before after =>
    simp only [Edit.texts, List.mem_cons, List.not_mem_nil, or_false] at htext
    rcases htext with rfl | rfl
    · exact SoundAround.fitsBefore h
    · exact SoundAround.fitsAfter h
  | detach id => cases htext
  | append id tree =>
    obtain ⟨n, hn, htext⟩ := List.mem_flatMap.1 htext
    have hkind := (h.2 n hn).kind
    split at htext
    case h_1 heq =>
      rw [heq] at hkind
      exact List.mem_singleton.1 htext ▸ hkind.2
    case h_2 heq =>
      rw [heq] at hkind
      obtain ⟨a, ha, rfl⟩ := List.mem_map.1 htext
      exact (hkind.2 a ha).2.fits
    case h_3 => cases htext

namespace BlockDefinition

/-- The settings that the markup of a block of this type may refer to: those of its own. -/
def Allows (definition : BlockDefinition) (owner : Owner) (id : String) : Prop :=
  owner = .block ∧ id ∈ definition.ids

/-- Whatever the texts for a block refer to is the id of a setting of the block. -/
theorem keys_of_fits {definition : BlockDefinition} {texts : List String}
    (hfits : ∀ text ∈ texts, ∀ t ∈ tokens text.toList, t.Fits definition.Allows)
    (hkeys : KeysFit definition.ids [] texts) :
    ∀ key ∈ blockKeys texts, ∃ id ∈ definition.ids, key = some id := by
  intro key hkey
  rcases List.mem_append.1 hkey with hkey | hkey
  · obtain ⟨id, hid, rfl⟩ := List.mem_map.1 hkey
    obtain ⟨text, htext, hid⟩ := List.mem_flatMap.1 hid
    obtain ⟨t, ht, hid⟩ := List.mem_flatMap.1 hid
    exact ⟨id, (hfits text htext t ht .block id hid).2, rfl⟩
  · obtain ⟨name, hname, hkey⟩ := List.mem_flatMap.1 hkey
    obtain ⟨hkeyName, hpending | hgiven⟩ := hkeys.used name hname
    · cases hpending
    obtain ⟨value, hvalue, hfst⟩ := List.mem_map.1 hgiven
    have hmem : value ∈ (keysGiven texts).filter (·.1 == name) :=
      List.mem_filter.2 ⟨hvalue, beq_iff_eq.2 hfst⟩
    rw [Values.of] at hkey
    split at hkey
    case h_1 hnone =>
      rw [show texts.flatMap Values.afterText = keysGiven texts from rfl] at hnone
      rw [hnone] at hmem
      cases hmem
    case h_2 =>
      obtain ⟨found, hfound, rfl⟩ := List.mem_map.1 hkey
      obtain ⟨hfound, heq⟩ := List.mem_filter.1 hfound
      exact hkeys.given found hfound (beq_iff_eq.1 heq ▸ hkeyName)

section

variable {allowed : Owner → String → Prop}

/-- A token that names no setting of the page, and allowed settings of blocks only. -/
theorem fits_of_pathIds {t : Liquid.Token} (hwhole : pathIds .whole t.content = [])
    (hblock : ∀ id ∈ pathIds .block t.content, allowed .block id) : t.Fits allowed := by
  intro owner id hid
  cases owner with
  | whole =>
    rw [hwhole] at hid
    cases hid
  | block => exact hblock id hid

theorem says_ratingStars :
    Says ratingStars [.tag (tagContent "assign rating_stars = block.settings.rating | round"),
      .tag (tagContent "for i in (1..rating_stars)"), .tag (tagContent "endfor")] := by
  have hassign := says_tag
    "assign rating_stars = block.settings.rating | round"
    (by rw [String.toList_ofList]; decide)
  have hloop := says_tag "for i in (1..rating_stars)" (by rw [String.toList_ofList]; decide)
  have hstar : Says "★" [] := .plain (by decide)
  exact ((hassign.append hloop).append hstar).append says_endFor

theorem sound_ratingStars (h : allowed .block "rating") : Sound allowed ratingStars := by
  refine says_ratingStars.sound (fun stack => ?_) ?_
  · repeat rw [tagContent_ofList]
    rfl
  have hids : pathIds .block (tagContent "assign rating_stars = block.settings.rating | round") =
      ["rating"] := by
    rw [tagContent_ofList]
    decide
  simp only [List.forall_mem_cons]
  refine ⟨fits_of_pathIds ?_ ?_, fits_of_silent ?_, fits_of_silent (by decide),
    (List.forall_mem_nil _)⟩
  · rw [Liquid.Token.content, tagContent_ofList]
    decide
  rotate_left
  · rw [Liquid.Token.content, tagContent_ofList]
    decide
  rw [Liquid.Token.content, hids]
  exact List.forall_mem_singleton.2 h

/-- A rating is read from its own setting, not from one whose id is computed. -/
theorem keysFit_ratingStars (ids pending : List String) : KeysFit ids pending [ratingStars] where
  used := by
    have hnone : keysUsed [ratingStars] = [] := by
      simp only [keysUsed, List.flatMap_cons, List.flatMap_nil, says_ratingStars.tokens]
      repeat rw [tagContent_ofList]
      decide
    rw [hnone]
    exact List.forall_mem_nil _
  given := by
    have hnames : ∀ value ∈ keysGiven [ratingStars], value.1 ∉ keyNames := by
      simp only [keysGiven, List.flatMap_cons, List.flatMap_nil, Values.afterText,
        says_ratingStars.tokens]
      repeat rw [tagContent_ofList]
      decide +kernel
    exact fun value hvalue hname => absurd hname (hnames value hvalue)

theorem says_linkLoopOpen :
    Says linkLoopOpen [.tag (tagContent "for i in (1..6)"),
      .tag (tagContent "assign link_text_key = 'link_' | append: i | append: '_text'"),
      .tag (tagContent "assign link_url_key = 'link_' | append: i | append: '_url'"),
      .tag (tagContent "if block.settings[link_text_key] != blank")] := by
  have hloop := says_tag "for i in (1..6)" (by decide)
  have htext := says_tag "assign link_text_key = 'link_' | append: i | append: '_text'"
    (by rw [String.toList_ofList]; decide)
  have hurl := says_tag "assign link_url_key = 'link_' | append: i | append: '_url'"
    (by rw [String.toList_ofList]; decide)
  have hif := says_tag "if block.settings[link_text_key] != blank"
    (by rw [String.toList_ofList]; decide)
  exact ((hloop.append htext).append hurl).append hif

theorem soundAround_linkLoop : SoundAround allowed linkLoopOpen loopClose := by
  refine says_linkLoopOpen.soundAround says_loopClose (fun stack => ?_) ?_ ?_
  · repeat rw [tagContent_ofList]
    rfl
  · have hkey : pathIds .block (tagContent "if block.settings[link_text_key] != blank") = [] := by
      rw [tagContent_ofList]
      decide
    simp only [List.forall_mem_cons]
    refine ⟨fits_of_silent ?_, fits_of_silent ?_, fits_of_silent ?_, fits_of_pathIds ?_ ?_,
      List.forall_mem_nil _⟩
    case refine_5 =>
      rw [Liquid.Token.content, hkey]
      exact List.forall_mem_nil _
    all_goals
      rw [Liquid.Token.content, tagContent_ofList]
      decide
  · simp only [List.forall_mem_cons]
    exact ⟨fits_of_silent (by decide), fits_of_silent (by decide), List.forall_mem_nil _⟩

theorem says_socialLoopOpen :
    Says socialLoopOpen [
      .tag (tagContent
        "assign social_platforms = 'facebook,instagram,twitter,linkedin,youtube' | split: ','"),
      .tag (tagContent "for platform in social_platforms"),
      .tag (tagContent "assign social_key = 'social_' | append: platform"),
      .tag (tagContent "if block.settings[social_key] != blank")] := by
  have hplatforms := says_tag
    "assign social_platforms = 'facebook,instagram,twitter,linkedin,youtube' | split: ','"
    (by rw [String.toList_ofList]; decide)
  have hloop := says_tag "for platform in social_platforms"
    (by rw [String.toList_ofList]; decide)
  have hkey := says_tag "assign social_key = 'social_' | append: platform"
    (by rw [String.toList_ofList]; decide)
  have hif := says_tag "if block.settings[social_key] != blank"
    (by rw [String.toList_ofList]; decide)
  have hjoin : "assign social_platforms = '" ++ Text.join "," FooterParts.platforms ++
      "' | split: ','" =
        "assign social_platforms = 'facebook,instagram,twitter,linkedin,youtube' | split: ','" := by
    decide +kernel
  have hall := ((hplatforms.append hloop).append hkey).append hif
  rw [← hjoin] at hall
  exact hall

theorem soundAround_socialLoop : SoundAround allowed socialLoopOpen loopClose := by
  refine says_socialLoopOpen.soundAround says_loopClose (fun stack => ?_) ?_ ?_
  · repeat rw [tagContent_ofList]
    rfl
  · have hkey : pathIds .block (tagContent "if block.settings[social_key] != blank") = [] := by
      rw [tagContent_ofList]
      decide
    simp only [List.forall_mem_cons]
    refine ⟨fits_of_silent ?_, fits_of_silent ?_, fits_of_silent ?_, fits_of_pathIds ?_ ?_,
      List.forall_mem_nil _⟩
    case refine_5 =>
      rw [Liquid.Token.content, hkey]
      exact List.forall_mem_nil _
    all_goals
      rw [Liquid.Token.content, tagContent_ofList]
      decide +kernel
  · simp only [List.forall_mem_cons]
    exact ⟨fits_of_silent (by decide), fits_of_silent (by decide), List.forall_mem_nil _⟩

theorem says_computed {name : String} (hname : name ∈ keyNames) :
    Says (output ("block.settings[" ++ name ++ "]"))
      [.output (' ' :: (("block.settings[" ++ name ++ "]").toList ++ [' ']))] := by
  have hbare : ∀ name ∈ keyNames, Bare ("block.settings[" ++ name ++ "]").toList := by decide
  exact says_output (hbare name hname)

/-- An output of the setting whose id is the value of a variable. -/
theorem sound_computed {name : String} (hname : name ∈ keyNames) :
    Sound allowed (output ("block.settings[" ++ name ++ "]")) := by
  have hpaths : ∀ name ∈ keyNames, ∀ owner ∈ [Owner.whole, .block],
      pathIds owner (' ' :: (("block.settings[" ++ name ++ "]").toList ++ [' '])) = [] := by
    decide
  refine (says_computed hname).sound (neutral_output _)
    (List.forall_mem_singleton.2 (fits_of_pathIds (hpaths name hname .whole (by decide)) ?_))
  rw [Liquid.Token.content, hpaths name hname .block (by decide)]
  exact List.forall_mem_nil _

theorem keysFit_computed (ids : List String) {name : String} (hname : name ∈ keyNames)
    {pending : List String} (hpending : name ∈ pending) :
    KeysFit ids pending [output ("block.settings[" ++ name ++ "]")] where
  used := by
    have hused : ∀ name ∈ keyNames,
        keyVariables (' ' :: (("block.settings[" ++ name ++ "]").toList ++ [' '])) = [name] := by
      decide
    have hkeys : keysUsed [output ("block.settings[" ++ name ++ "]")] = [name] := by
      rw [keysUsed, List.flatMap_singleton, (says_computed hname).tokens, List.flatMap_singleton]
      exact hused name hname
    rw [hkeys]
    exact List.forall_mem_singleton.2 ⟨hname, Or.inl hpending⟩
  given := by
    have hgiven : keysGiven [output ("block.settings[" ++ name ++ "]")] = [] := by
      rw [keysGiven, List.flatMap_singleton, Values.afterText, (says_computed hname).tokens]
      rfl
    rw [hgiven]
    exact List.forall_mem_nil _

/-- The loop over links reads one key. Its numbers, and the two keys that are computed from each. -/
theorem keys_linkLoop :
    keysUsed [linkLoopOpen, loopClose] = ["link_text_key"] ∧
      keysGiven [linkLoopOpen, loopClose] =
        (List.range' 1 BlockInstance.linkSlots).map (fun n => ("i", some (toString n))) ++
          ((List.range' 1 BlockInstance.linkSlots).map
              (fun n => ("link_text_key", some (linkTextId n))) ++
            (List.range' 1 BlockInstance.linkSlots).map
              (fun n => ("link_url_key", some (linkUrlId n)))) := by
  simp only [keysUsed, keysGiven, List.flatMap_cons, List.flatMap_nil, Values.afterText,
    says_linkLoopOpen.tokens, says_loopClose.tokens]
  repeat rw [tagContent_ofList]
  decide +kernel

theorem given_linkLoop :
    ["link_text_key", "link_url_key"] ⊆ (keysGiven [linkLoopOpen, loopClose]).map Prod.fst := by
  have hfirst : 1 ∈ List.range' 1 BlockInstance.linkSlots := by decide
  intro name hname
  rw [keys_linkLoop.2, List.map_append, List.map_append, List.mem_append, List.mem_append]
  simp only [List.mem_cons, List.not_mem_nil, or_false] at hname
  rcases hname with rfl | rfl
  · exact Or.inr (Or.inl (List.mem_map_of_mem (List.mem_map_of_mem hfirst)))
  · exact Or.inr (Or.inr (List.mem_map_of_mem (List.mem_map_of_mem hfirst)))

/-- The keys of the loop over links are the ids of the settings of numbered links. -/
theorem keysFit_linkLoop {ids : List String}
    (h : ∀ n ∈ List.range' 1 BlockInstance.linkSlots, linkTextId n ∈ ids ∧ linkUrlId n ∈ ids) :
    KeysFit ids [] [linkLoopOpen, loopClose] where
  used := by
    rw [keys_linkLoop.1]
    exact List.forall_mem_singleton.2 ⟨by decide, Or.inr (given_linkLoop List.mem_cons_self)⟩
  given := by
    intro value hvalue hname
    rw [keys_linkLoop.2, List.mem_append, List.mem_append] at hvalue
    rcases hvalue with hvalue | hvalue | hvalue
    · obtain ⟨n, -, rfl⟩ := List.mem_map.1 hvalue
      exact absurd hname (by decide : "i" ∉ keyNames)
    · obtain ⟨n, hn, rfl⟩ := List.mem_map.1 hvalue
      exact ⟨_, (h n hn).1, rfl⟩
    · obtain ⟨n, hn, rfl⟩ := List.mem_map.1 hvalue
      exact ⟨_, (h n hn).2, rfl⟩

/-- The loop over platforms reads one key. The platforms, one after the other, and the key that is
computed from each. -/
theorem keys_socialLoop :
    keysUsed [socialLoopOpen, loopClose] = ["social_key"] ∧
      keysGiven [socialLoopOpen, loopClose] =
        FooterParts.platforms.map (fun platform => ("social_platforms", some platform)) ++
          (FooterParts.platforms.map (fun platform => ("platform", some platform)) ++
            FooterParts.platforms.map
              (fun platform => ("social_key", some (footerSocialId platform)))) := by
  simp only [keysUsed, keysGiven, List.flatMap_cons, List.flatMap_nil, Values.afterText,
    says_socialLoopOpen.tokens, says_loopClose.tokens]
  repeat rw [tagContent_ofList]
  decide +kernel

theorem given_socialLoop :
    ["social_key"] ⊆ (keysGiven [socialLoopOpen, loopClose]).map Prod.fst := by
  have hfirst : "facebook" ∈ FooterParts.platforms := by decide
  rw [List.cons_subset, keys_socialLoop.2, List.map_append, List.map_append]
  exact ⟨List.mem_append_right _ (List.mem_append_right _
    (List.mem_map_of_mem (List.mem_map_of_mem hfirst))), List.nil_subset _⟩

/-- The keys of the loop over platforms are the ids of their settings. -/
theorem keysFit_socialLoop {ids : List String}
    (h : ∀ platform ∈ FooterParts.platforms, footerSocialId platform ∈ ids) :
    KeysFit ids [] [socialLoopOpen, loopClose] where
  used := by
    rw [keys_socialLoop.1]
    exact List.forall_mem_singleton.2 ⟨by decide, Or.inr (given_socialLoop List.mem_cons_self)⟩
  given := by
    intro value hvalue hname
    rw [keys_socialLoop.2, List.mem_append, List.mem_append] at hvalue
    rcases hvalue with hvalue | hvalue | hvalue
    · obtain ⟨platform, -, rfl⟩ := List.mem_map.1 hvalue
      exact absurd hname (by decide : "social_platforms" ∉ keyNames)
    · obtain ⟨platform, -, rfl⟩ := List.mem_map.1 hvalue
      exact absurd hname (by decide : "platform" ∉ keyNames)
    · obtain ⟨platform, hplatform, rfl⟩ := List.mem_map.1 hvalue
      exact ⟨_, h platform hplatform, rfl⟩

/-- The condition on a mobile menu. -/
theorem says_mobileMenuIf :
    Says (tag ("if " ++ settingPath .block "show_mobile_menu"))
      [.tag (tagContent "if block.settings.show_mobile_menu")] :=
  says_tag "if block.settings.show_mobile_menu" (by decide)

theorem soundAround_mobileMenu (h : allowed .block "show_mobile_menu") :
    SoundAround allowed (tag ("if " ++ settingPath .block "show_mobile_menu")) endIf := by
  refine says_mobileMenuIf.soundAround says_endIf (fun stack => rfl)
    (List.forall_mem_singleton.2 (fits_of_pathIds (by decide) ?_))
    (List.forall_mem_singleton.2 (fits_of_silent (by decide)))
  have hids : pathIds .block (tagContent "if block.settings.show_mobile_menu") =
      ["show_mobile_menu"] := by decide
  rw [Liquid.Token.content, hids]
  exact List.forall_mem_singleton.2 h

theorem still_mobileMenuIf : Still (tag ("if " ++ settingPath .block "show_mobile_menu")) :=
  says_mobileMenuIf.still (List.forall_mem_singleton.2
    (still_tag (by decide) (by decide) (by decide)))

end

end BlockDefinition

end ThemeSection
