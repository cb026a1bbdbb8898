import ThemeSection.Block.Binding
import ThemeSection.FeaturedProducts
import ThemeSection.Proofs.Liquid.Reference

/-!
The texts that passes write. Each of them is scanned in the same way wherever it stands, opens no tag
that it does not close, or closes it in the text that goes with it, and refers to those settings
alone that it was written for.
-/

namespace ThemeSection.Liquid

/-- Between the marks, settings are named only if they are allowed. -/
def Token.Fits (allowed : Owner → String → Prop) (t : Token) : Prop :=
  ∀ owner, ∀ id ∈ pathIds owner t.content, allowed owner id

/-- No key is used and no variable gets a value. -/
structure Token.Still (t : Token) : Prop where
  keys : keyVariables t.content = []
  loop : t.keyword ≠ "for".toList
  assignment : t.keyword ≠ "assign".toList

/-- A stretch between marks in which nothing is named. -/
structure Silent (s : List Char) : Prop where
  bare : Bare s
  whole : pathIds .whole s = []
  block : pathIds .block s = []
  keys : '[' ∉ s

instance (s : List Char) : Decidable (Silent s) :=
  decidable_of_iff (Bare s ∧ pathIds .whole s = [] ∧ pathIds .block s = [] ∧ '[' ∉ s)
    ⟨fun ⟨bare, whole, block, keys⟩ => ⟨bare, whole, block, keys⟩,
      fun h => ⟨h.bare, h.whole, h.block, h.keys⟩⟩

variable {allowed : Owner → String → Prop} {s pre post : List Char} {id : String} {owner : Owner}

theorem Silent.pathIds (h : Silent s) (owner : Owner) : pathIds owner s = [] := by
  cases owner with
  | whole => exact h.whole
  | block => exact h.block

theorem keyVariables_of_not_mem (h : '[' ∉ s) : keyVariables s = [] := by
  induction s with
  | nil => rfl
  | cons c s ih =>
    have hstrip : Chars.strip? "block.settings[".toList (c :: s) = none := by
      refine Option.eq_none_iff_forall_not_mem.2 fun rest hrest => h ?_
      rw [Chars.strip?_eq_some.1 hrest]
      exact List.mem_append_left _ (by decide)
    rw [keyVariables, hstrip, ih fun hin => h (List.mem_cons_of_mem _ hin)]
    rfl

/-- A setting named by its path between two stretches. -/
def naming (pre : List Char) (owner : Owner) (id : String) (post : List Char) : List Char :=
  pre ++ ' ' :: ((settingPath owner id).toList ++ ' ' :: post)

theorem toList_settingPath (owner : Owner) (id : String) :
    (settingPath owner id).toList = owner.path ++ id.toList := by
  simp [settingPath, Owner.path]

theorem bare_settingPath (h : IsName id) (owner : Owner) : Bare (settingPath owner id).toList := by
  rw [toList_settingPath]
  refine Bare.append ?_ h.bare
  cases owner <;> decide

theorem pathIds_naming (h : IsName id) (hpre : Silent pre) (hpost : Silent post) (owner' : Owner) :
    pathIds owner' (naming pre owner id post) = if owner' = owner then [id] else [] := by
  rw [naming, pathIds_append_cons (by decide), pathIds_append_cons (by decide), hpre.pathIds,
    hpost.pathIds, pathIds_path h, List.nil_append, List.append_nil]

theorem fits_naming (h : IsName id) (hallowed : allowed owner id) (hpre : Silent pre)
    (hpost : Silent post) {t : Token} (ht : t.content = naming pre owner id post) :
    t.Fits allowed := by
  intro owner' id' hid'
  rw [ht, pathIds_naming h hpre hpost] at hid'
  split at hid'
  case isTrue heq =>
    obtain rfl := List.mem_singleton.1 hid'
    exact heq ▸ hallowed
  case isFalse => cases hid'

theorem fits_of_silent {t : Token} (h : Silent t.content) : t.Fits allowed := by
  intro owner id hid
  rw [h.pathIds] at hid
  cases hid

theorem not_mem_naming (h : IsName id) (hpre : Silent pre) (hpost : Silent post) :
    '[' ∉ naming pre owner id post := by
  rw [naming, toList_settingPath]
  simp only [List.mem_append, List.mem_cons, not_or]
  refine ⟨hpre.keys, by decide, ⟨?_, fun hin => ?_⟩, by decide, hpost.keys⟩
  · cases owner <;> decide
  · exact absurd (h _ hin) (by decide)

/-- A text that can stand anywhere by itself and names allowed settings only. -/
structure Sound (allowed : Owner → String → Prop) (text : String) : Prop where
  settled : Settled text.toList
  neutral : Neutral (tokens text.toList)
  fits : ∀ t ∈ tokens text.toList, t.Fits allowed

/-- Two texts that can stand around anything and name allowed settings only. -/
structure SoundAround (allowed : Owner → String → Prop) (before after : String) : Prop where
  settledBefore : Settled before.toList
  settledAfter : Settled after.toList
  neutral : Neutral (tokens before.toList ++ tokens after.toList)
  fitsBefore : ∀ t ∈ tokens before.toList, t.Fits allowed
  fitsAfter : ∀ t ∈ tokens after.toList, t.Fits allowed

/-- A text that uses no key and gives no variable a value. -/
def Still (text : String) : Prop :=
  ∀ t ∈ tokens text.toList, t.Still

theorem Sound.mono {allowed' : Owner → String → Prop} {text : String} (h : Sound allowed text)
    (hsub : ∀ owner id, allowed owner id → allowed' owner id) : Sound allowed' text :=
  { h with fits := fun t ht owner id hid => hsub owner id (h.fits t ht owner id hid) }

theorem SoundAround.mono {allowed' : Owner → String → Prop} {before after : String}
    (h : SoundAround allowed before after)
    (hsub : ∀ owner id, allowed owner id → allowed' owner id) : SoundAround allowed' before after :=
  { h with
    fitsBefore := fun t ht owner id hid => hsub owner id (h.fitsBefore t ht owner id hid)
    fitsAfter := fun t ht owner id hid => hsub owner id (h.fitsAfter t ht owner id hid) }

theorem Says.sound {text : String} {ts : List Token} (h : Says text ts) (hneutral : Neutral ts)
    (hfits : ∀ t ∈ ts, t.Fits allowed) : Sound allowed text where
  settled := h.settled
  neutral := h.tokens ▸ hneutral
  fits := h.tokens ▸ hfits

theorem Says.still {text : String} {ts : List Token} (h : Says text ts)
    (hstill : ∀ t ∈ ts, t.Still) : Still text := by
  rw [Still, h.tokens]
  exact hstill

theorem Sound.toSays {text : String} (h : Sound allowed text) : Says text (tokens text.toList) :=
  ⟨h.settled, rfl⟩

theorem Sound.append {a b : String} (ha : Sound allowed a) (hb : Sound allowed b) :
    Sound allowed (a ++ b) :=
  (ha.toSays.append hb.toSays).sound (ha.neutral.append hb.neutral)
    (List.forall_mem_append.2 ⟨ha.fits, hb.fits⟩)

theorem sound_of_braceless {text : String} (h : Braceless text.toList) : Sound allowed text :=
  (Says.plain h).sound .nil (List.forall_mem_nil _)

theorem still_of_braceless {text : String} (h : Braceless text.toList) : Still text :=
  (Says.plain h).still (List.forall_mem_nil _)

theorem Still.append {a b : String} (ha : Still a) (hb : Still b) (hsettled : Settled a.toList) :
    Still (a ++ b) := by
  rw [Still, String.toList_append, hsettled.tokens_append]
  exact List.forall_mem_append.2 ⟨ha, hb⟩

theorem neutral_output (content : List Char) : Neutral [.output content] := fun _ => rfl

theorem still_output {content : List Char} (h : '[' ∉ content) : (Token.output content).Still where
  keys := keyVariables_of_not_mem h
  loop := by simp [Token.keyword]
  assignment := by simp [Token.keyword]

section

variable (owner)

theorem says_reference (h : IsName id) :
    Says (reference owner id) [.output (naming [] owner id [])] :=
  says_output (bare_settingPath h owner)

theorem sound_reference (h : IsName id) (hallowed : allowed owner id) :
    Sound allowed (reference owner id) :=
  (says_reference owner h).sound (neutral_output _)
    (List.forall_mem_singleton.2 (fits_naming h hallowed (by decide) (by decide) rfl))

theorem still_reference (h : IsName id) : Still (reference owner id) :=
  (says_reference owner h).still (List.forall_mem_singleton.2
    (still_output (not_mem_naming h (by decide) (by decide))))

theorem says_escapedReference (h : IsName id) :
    Says (escapedReference owner id) [.output (naming [] owner id "| escape ".toList)] := by
  have hbare : Bare (settingPath owner id ++ " | escape").toList := by
    rw [String.toList_append]
    exact (bare_settingPath h owner).append (by decide)
  have hsays := says_output hbare
  rw [String.toList_append, List.append_assoc] at hsays
  exact hsays

theorem sound_escapedReference (h : IsName id) (hallowed : allowed owner id) :
    Sound allowed (escapedReference owner id) :=
  (says_escapedReference owner h).sound (neutral_output _)
    (List.forall_mem_singleton.2 (fits_naming h hallowed (by decide) (by decide) rfl))

theorem still_escapedReference (h : IsName id) : Still (escapedReference owner id) :=
  (says_escapedReference owner h).still (List.forall_mem_singleton.2
    (still_output (not_mem_naming h (by decide) (by decide))))

end

/-- An output in which no setting is named. -/
theorem sound_output {expression : String} (h : Silent (' ' :: (expression.toList ++ [' '])))
    (hbare : Bare expression.toList) : Sound allowed (output expression) :=
  (says_output hbare).sound (neutral_output _) (List.forall_mem_singleton.2 (fits_of_silent h))

theorem still_output_text {expression : String} (h : Silent (' ' :: (expression.toList ++ [' '])))
    (hbare : Bare expression.toList) : Still (output expression) :=
  (says_output hbare).still (List.forall_mem_singleton.2 (still_output h.keys))

/-- The width at the end of an image address. -/
def atWidth (width : Nat) : List Char :=
  ("| image_url: width: " ++ toString width ++ " ").toList

/-- The condition that an image source begins with. -/
theorem says_imageIf (h : IsName id) :
    Says ("\x7b% if " ++ settingPath owner id ++ " != blank %\x7d")
      [.tag (naming " if".toList owner id "!= blank ".toList)] := by
  have hcontent : Bare (" if " ++ settingPath owner id ++ " != blank ").toList := by
    rw [String.toList_append, String.toList_append]
    exact (Bare.append (by decide) (bare_settingPath h owner)).append (by decide)
  have hsays := says_rawTag _ hcontent
  have htext : "\x7b%" ++ (" if " ++ settingPath owner id ++ " != blank ") ++ "%\x7d" =
      "\x7b% if " ++ settingPath owner id ++ " != blank %\x7d" := by
    simp [← String.toList_inj]
  rw [htext] at hsays
  simpa [naming] using hsays

/-- The tokens of an image source: a condition with the picked image before its `else` and the
fallback after it. -/
theorem says_imageSource {fallback : String} {ts : List Token} {width : Nat} (h : IsName id)
    (hfallback : Says fallback ts) (hwidth : Silent (atWidth width)) :
    Says (imageSource owner id fallback width)
      (.tag (naming " if".toList owner id "!= blank ".toList) ::
        .output (naming [] owner id (atWidth width)) :: .tag " else ".toList ::
          (ts ++ [.tag " endif ".toList])) := by
  have hbare := bare_settingPath h owner
  have hpicked : Says (output (settingPath owner id ++ " | image_url: width: " ++ toString width))
      [.output (naming [] owner id (atWidth width))] := by
    have hend : Bare (" | image_url: width: " ++ toString width).toList := by
      have hall := hwidth.bare
      simp only [atWidth, String.toList_append, Bare, List.forall_mem_append] at hall ⊢
      refine ⟨?_, hall.1.2⟩
      decide
    have hexpression : Bare (settingPath owner id ++ " | image_url: width: " ++
        toString width).toList := by
      rw [String.append_assoc, String.toList_append]
      exact hbare.append hend
    have hsays := says_output hexpression
    simpa [naming, atWidth] using hsays
  have helse : Says "\x7b% else %\x7d" [.tag " else ".toList] :=
    says_rawTag " else " (by decide)
  have hclose : Says "\x7b% endif %\x7d" [.tag " endif ".toList] :=
    says_rawTag " endif " (by decide)
  have hif := @says_imageIf _ owner h
  have hall := (((hif.append hpicked).append helse).append hfallback).append hclose
  have htext : imageSource owner id fallback width =
      "\x7b% if " ++ settingPath owner id ++ " != blank %\x7d" ++
        output (settingPath owner id ++ " | image_url: width: " ++ toString width) ++
        "\x7b% else %\x7d" ++ fallback ++ "\x7b% endif %\x7d" := by
    simp [imageSource]
  rw [htext]
  simpa using hall

theorem keyword_if (owner : Owner) (id : String) (post : List Char) :
    (Token.tag (naming " if".toList owner id post)).keyword = "if".toList := rfl

theorem keyword_presentIf (owner : Owner) (id : String) (post : List Char) :
    (Token.tag (naming "- if".toList owner id post)).keyword = "if".toList := rfl

theorem still_tag {content : List Char} (h : '[' ∉ content)
    (hloop : (Token.tag content).keyword ≠ "for".toList)
    (hassignment : (Token.tag content).keyword ≠ "assign".toList) : (Token.tag content).Still where
  keys := keyVariables_of_not_mem h
  loop := hloop
  assignment := hassignment

theorem sound_imageSource {fallback : String} {width : Nat} (h : IsName id)
    (hallowed : allowed owner id) (hfallback : Sound allowed fallback)
    (hwidth : Silent (atWidth width)) : Sound allowed (imageSource owner id fallback width) := by
  refine (says_imageSource h hfallback.toSays hwidth).sound (fun stack => ?_) ?_
  · -- The fallback stands in the second half of the condition.
    have hend : run (tokens fallback.toList ++ [.tag " endif ".toList])
        (.condition true :: stack) = some stack := by
      rw [hfallback.neutral.run_append]
      rfl
    rw [run, keyword_if]
    exact hend
  · simp only [List.forall_mem_cons, List.forall_mem_append]
    exact ⟨fits_naming h hallowed (by decide) (by decide) rfl,
      fits_naming h hallowed (by decide) hwidth rfl, fits_of_silent (by decide), hfallback.fits,
      fits_of_silent (by decide), List.forall_mem_nil _⟩

theorem still_imageSource {fallback : String} {width : Nat} (h : IsName id)
    (hfallback : Still fallback) (hsettled : Settled fallback.toList)
    (hwidth : Silent (atWidth width)) : Still (imageSource owner id fallback width) := by
  have hsays : Says (imageSource owner id fallback width) _ :=
    says_imageSource h ⟨hsettled, rfl⟩ hwidth
  refine hsays.still ?_
  simp only [List.forall_mem_cons, List.forall_mem_append]
  have hkeyword := keyword_if owner id "!= blank ".toList
  exact ⟨still_tag (not_mem_naming h (by decide) (by decide)) (hkeyword ▸ by decide)
      (hkeyword ▸ by decide),
    still_output (not_mem_naming h (by decide) hwidth),
    still_tag (by decide) (by decide) (by decide), hfallback,
    still_tag (by decide) (by decide) (by decide), List.forall_mem_nil _⟩

theorem mem_references {text : String} {t : Token} (h : IsName id) (ht : t ∈ tokens text.toList)
    (hcontent : t.content = naming pre owner id post) (hpre : Silent pre) (hpost : Silent post) :
    id ∈ references owner text := by
  refine List.mem_flatMap.2 ⟨t, ht, ?_⟩
  rw [hcontent, pathIds_naming h hpre hpost, if_pos rfl]
  exact List.mem_singleton_self id

theorem mem_references_reference (h : IsName id) : id ∈ references owner (reference owner id) :=
  mem_references h ((says_reference owner h).tokens ▸ List.mem_singleton_self _) rfl (by decide)
    (by decide)

theorem mem_references_escapedReference (h : IsName id) :
    id ∈ references owner (escapedReference owner id) :=
  mem_references h ((says_escapedReference owner h).tokens ▸ List.mem_singleton_self _) rfl
    (by decide) (by decide)

/-- Whatever the fallback is, an image source refers to its setting. -/
theorem mem_references_imageSource (h : IsName id) (fallback : String) (width : Nat) :
    id ∈ references owner (imageSource owner id fallback width) := by
  have hif := @says_imageIf _ owner h
  have htext : imageSource owner id fallback width =
      "\x7b% if " ++ settingPath owner id ++ " != blank %\x7d" ++
        (output (settingPath owner id ++ " | image_url: width: " ++ toString width) ++
          "\x7b% else %\x7d" ++ fallback ++ "\x7b% endif %\x7d") := by
    simp only [imageSource, String.append_assoc]
  have htokens : .tag (naming " if".toList owner id "!= blank ".toList) ∈
      tokens (imageSource owner id fallback width).toList := by
    rw [htext, String.toList_append, hif.settled.tokens_append, hif.tokens]
    exact List.mem_cons_self
  exact mem_references h htokens rfl (by decide) (by decide)

theorem says_ifPresent (h : IsName id) :
    Says (ifPresent id) [.tag (naming "- if".toList .block id "!= blank -".toList)] := by
  have hcontent : Bare ("if " ++ settingPath .block id ++ " != blank").toList := by
    rw [String.toList_append, String.toList_append]
    exact (Bare.append (by decide) (bare_settingPath h .block)).append (by decide)
  have hsays := says_tag _ hcontent
  simpa [naming, tagContent, ifPresent] using hsays

theorem says_endIf : Says endIf [.tag (tagContent "endif")] :=
  says_tag _ (by decide)

theorem says_endFor : Says endFor [.tag (tagContent "endfor")] :=
  says_tag _ (by decide)

theorem says_loopClose : Says loopClose [.tag (tagContent "endif"), .tag (tagContent "endfor")] :=
  says_endIf.append says_endFor

theorem Says.soundAround {before after : String} {s t : List Token} (hbefore : Says before s)
    (hafter : Says after t) (hneutral : Neutral (s ++ t)) (hs : ∀ k ∈ s, k.Fits allowed)
    (ht : ∀ k ∈ t, k.Fits allowed) : SoundAround allowed before after where
  settledBefore := hbefore.settled
  settledAfter := hafter.settled
  neutral := by rwa [hbefore.tokens, hafter.tokens]
  fitsBefore := hbefore.tokens ▸ hs
  fitsAfter := hafter.tokens ▸ ht

theorem soundAround_ifPresent (h : IsName id) (hallowed : allowed .block id) :
    SoundAround allowed (ifPresent id) endIf :=
  (says_ifPresent h).soundAround says_endIf (fun _ => rfl)
    (List.forall_mem_singleton.2 (fits_naming h hallowed (by decide) (by decide) rfl))
    (List.forall_mem_singleton.2 (fits_of_silent (by decide)))

theorem still_ifPresent (h : IsName id) : Still (ifPresent id) := by
  have hkeyword := keyword_presentIf .block id "!= blank -".toList
  exact (says_ifPresent h).still (List.forall_mem_singleton.2
    (still_tag (not_mem_naming h (by decide) (by decide)) (hkeyword ▸ by decide)
      (hkeyword ▸ by decide)))

theorem still_endIf : Still endIf :=
  says_endIf.still (List.forall_mem_singleton.2
    (still_tag (by decide) (by decide) (by decide)))

/-- The condition on the type of a block. -/
def typeCondition (type : String) : List Char :=
  '-' :: ' ' :: 'i' :: 'f' :: ' ' :: ("block.type == '".toList ++ (type.toList ++ "' -".toList))

theorem says_loopOpen {type : String} (h : IsName type) :
    Says (loopOpen type)
      [.tag (tagContent "for block in section.blocks"), .tag (typeCondition type)] := by
  have hcontent : Bare ("if block.type == '" ++ type ++ "'").toList := by
    rw [String.toList_append, String.toList_append]
    exact (Bare.append (by decide) h.bare).append (by decide)
  have hfor : Says (tag "for block in section.blocks")
      [.tag (tagContent "for block in section.blocks")] := says_tag _ (by decide)
  have hsays := hfor.append (says_tag _ hcontent)
  simpa [typeCondition, tagContent, loopOpen] using hsays

theorem keyword_typeCondition (type : String) :
    (Token.tag (typeCondition type)).keyword = "if".toList := rfl

theorem pathIds_typeCondition {type : String} (h : IsName type) (owner : Owner) :
    pathIds owner (typeCondition type) = [] := by
  have hsplit : typeCondition type =
      "- if block.type == ".toList ++ '\'' :: (type.toList ++ '\'' :: " -".toList) := by
    simp [typeCondition]
  have htype : pathIds owner type.toList = [] := by
    have hpath : ∀ c ∈ type.toList, (!isPathChar c) = false := fun c hc => by
      simp [isPathChar, h c hc]
    have hstrip : Chars.strip? owner.path type.toList = none := by
      -- A name has no dot in it.
      refine Option.eq_none_iff_forall_not_mem.2 fun rest hrest => ?_
      have hdot : '.' ∈ type.toList := by
        rw [Chars.strip?_eq_some.1 hrest]
        exact List.mem_append_left _ (by cases owner <;> decide)
      exact absurd (h _ hdot) (by decide)
    rw [pathIds, Chars.splitWhere_eq_singleton hpath, List.filterMap_cons, hstrip]
    rfl
  rw [hsplit, pathIds_append_cons (by decide), pathIds_append_cons (by decide), htype]
  cases owner <;> decide

theorem soundAround_loop {type : String} (h : IsName type) :
    SoundAround allowed (loopOpen type) loopClose := by
  refine (says_loopOpen h).soundAround says_loopClose (fun stack => ?_) ?_ ?_
  · rfl
  · simp only [List.forall_mem_cons]
    refine ⟨fits_of_silent (by decide), fun owner id hid => ?_, List.forall_mem_nil _⟩
    rw [Token.content, pathIds_typeCondition h] at hid
    cases hid
  · simp only [List.forall_mem_cons]
    exact ⟨fits_of_silent (by decide), fits_of_silent (by decide), List.forall_mem_nil _⟩

/-- A piece of a text without template syntax has none. -/
theorem hasMarks_of_infix {piece text : String} (h : piece.toList <:+: text.toList)
    (htext : hasMarks text = false) : hasMarks piece = false := by
  refine List.any_eq_false.2 fun mark hmark hpiece => ?_
  refine List.any_eq_false.1 htext mark hmark ?_
  exact Chars.contains_iff.2 ((Chars.contains_iff.1 hpiece).trans h)

theorem hasMarks_imageSource (owner : Owner) (id fallback : String) (width : Nat) :
    hasMarks (imageSource owner id fallback width) := by
  have hmark : "\x7b%".toList <+: (imageSource owner id fallback width).toList := by
    simp only [imageSource, String.toList_append, List.append_assoc]
    exact (by decide : "\x7b%".toList <+: "\x7b% if ".toList).trans (List.prefix_append _ _)
  exact List.any_eq_true.2 ⟨"\x7b%", by decide, Chars.contains_iff.2 hmark.isInfix⟩

end ThemeSection.Liquid
