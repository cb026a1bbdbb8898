import ThemeSection.Proofs.Block.Binding
import ThemeSection.Proofs.Block.Collapse

/-!
What collapsing and adding blocks does to the markup of a page. Each block is bound on its own, in
elements that no earlier block has changed, since no element of a block holds one of another; and
each type that is added brings its own markup. The texts that are written for a block refer to the
settings of its definition, and every loop is closed next to the element that it is opened at.
-/

namespace ThemeSection

open Markup Liquid Document

theorem isName_key (text : String) : IsName (Text.key text) := by
  have hruns : ∀ (after : Bool) (s : List Char), ∀ c ∈ Text.keyRuns after s, isNameChar c := by
    intro after s
    induction s generalizing after with
    | nil => exact List.forall_mem_nil _
    | cons d s ih =>
      rw [Text.keyRuns]
      split
      case isTrue hkey =>
        refine List.forall_mem_cons.2 ⟨?_, ih _⟩
        simp only [Text.isKeyChar, Bool.or_eq_true] at hkey
        rcases hkey with hlower | hdigit
        · have halpha : d.isAlpha := Bool.or_eq_true_iff.2 (Or.inr hlower)
          simp [isNameChar, Char.isAlphanum, halpha]
        · simp [isNameChar, Char.isAlphanum, hdigit]
      case isFalse =>
        split
        · exact ih _
        · exact List.forall_mem_cons.2 ⟨by decide, ih _⟩
  intro c hc
  rw [Text.key, Text.toList_onChars, List.mem_reverse] at hc
  exact hruns true _ c (List.mem_reverse.1 ((List.dropWhile_sublist _).subset hc))

/-- The type of every block is a name. -/
theorem Detection.isName_of_known {options : Options} {pattern : BlockPattern}
    (h : Known options pattern) : IsName pattern.type := by
  have hcatalog : ∀ pattern ∈ BlockPattern.catalog, IsName pattern.type := by decide
  rcases h with h | ⟨members, rfl⟩
  · simp only [List.mem_append, List.mem_singleton] at h
    rcases h with (h | h) | rfl
    · exact hcatalog pattern h
    · obtain ⟨custom, -, rfl⟩ := List.mem_map.1 h
      exact isName_key custom.type
    · decide
  · unfold BlockPattern.ofGroup
    dsimp only
    split
    case h_1 => decide
    case h_2 key rest hkeys =>
      have hkey := List.mem_of_mem_filter (hkeys ▸ List.mem_cons_self)
      obtain ⟨text, -, rfl⟩ := List.mem_map.1 hkey
      exact isName_key text

/-- The loop over the blocks of a type uses no computed id. -/
theorem keysUsed_loop {type : String} (h : IsName type) :
    keysUsed [loopOpen type, loopClose] = [] := by
  have hcondition : keyVariables (typeCondition type) = [] := by
    refine keyVariables_of_not_mem fun hin => ?_
    simp only [typeCondition, List.mem_cons, List.mem_append] at hin
    have hother : '[' ∉ "block.type == '".toList ∧ '[' ∉ "' -".toList := by decide
    rcases hin with hin | hin | hin | hin | hin | hin | hin | hin
    · exact absurd hin (by decide)
    · exact absurd hin (by decide)
    · exact absurd hin (by decide)
    · exact absurd hin (by decide)
    · exact absurd hin (by decide)
    · exact hother.1 hin
    · exact absurd (h _ hin) (by decide)
    · exact hother.2 hin
  simp only [keysUsed, List.flatMap_cons, List.flatMap_nil, (says_loopOpen h).tokens,
    says_loopClose.tokens, Liquid.Token.content, hcondition]
  decide

/-- The loop over the blocks of a type computes no id of a setting. -/
theorem keysFit_loop {type : String} (h : IsName type) (ids pending : List String) :
    KeysFit ids pending [loopOpen type, loopClose] where
  used := by
    rw [keysUsed_loop h]
    exact List.forall_mem_nil _
  given := by
    have hloop : Values.afterToken [] (.tag (tagContent "for block in section.blocks")) =
        [("block", none)] := by decide +kernel
    have hgiven : keysGiven [loopOpen type, loopClose] = [("block", none)] := by
      simp only [keysGiven, List.flatMap_cons, List.flatMap_nil, Values.afterText,
        (says_loopOpen h).tokens, says_loopClose.tokens, List.foldl_cons, List.foldl_nil, hloop]
      rw [Values.afterToken, keyword_typeCondition, if_neg (by decide), if_neg (by decide)]
      decide +kernel
    rw [hgiven]
    exact List.forall_mem_singleton.2 fun hname => absurd hname (by decide : "block" ∉ keyNames)

namespace BlockDefinition

variable {definition : BlockDefinition} {scope : NodeId → Prop} {styled : List NodeId}
  {start d : Document}

/-- An element of a document that earlier edits have kept clear of can still be bound. -/
theorem bindable_of_evolves {touched : List (NodeId × String)} {p root : Place}
    (hstart : start.Distinct) (hp : p ∈ start.places) (hevolves : start.Evolves touched d)
    (hscope : ∀ i ∈ p.tree.ids, scope i) (hnew : ∀ i, start.next ≤ i → scope i)
    (hstyled : ∀ i ∈ styled, i < start.next ∧ i ∉ p.tree.ids) (hroot : d.place? p.id = some root) :
    Bindable scope styled d root := by
  have hmem := mem_places_of_place? hroot
  have hid : root.tree.id = p.tree.id := id_of_place? hroot
  obtain ⟨m, hm, hbecomes⟩ := (hevolves.source root.tree (tree_mem_nodes hmem)).old
    (hid ▸ hstart.lt_next_of_place hp)
  obtain rfl := hstart.eq_of_id_eq hm (tree_mem_nodes hp) (hbecomes.id.symm.trans hid)
  constructor
  case distinct => exact hevolves.distinct
  case mem => exact hmem
  case scope =>
    intro i hi
    by_cases hold : i < start.next
    · exact hscope i (hbecomes.below i hi hold)
    · exact hnew i (Nat.not_lt.1 hold)
  case unstyled =>
    intro i hi hin
    obtain ⟨hold, hout⟩ := hstyled i hin
    exact hout (hbecomes.below i hi hold)

/-- One element is bound, the others are taken out, and a loop is put around the one. -/
theorem binds_collapseMarkup {block : DetectedBlock} {first : BlockInstance} {kept : NodeId}
    {others : List NodeId} (hd : d.Distinct) (htype : IsName block.type)
    (hids : definition.settings = settingsOf block.pattern.role first)
    (hroot : ∀ root, d.place? kept = some root → Bindable scope styled d root)
    (hkept : kept < d.next ∧ d.IsElement kept)
    (hothers : ∀ other ∈ others, other < d.next ∧ d.IsElement other) :
    definition.Binds scope [] styled d (kept :: styled)
      (BlockPass.collapseMarkup block definition kept others d) := by
  have helement : ∀ {d' : Document} {x : NodeId}, x < d.next ∧ d.IsElement x →
      definition.Binds scope [] styled d (kept :: styled) d' → d'.IsElement x := by
    intro d' x hx h
    obtain ⟨touched, hevolves⟩ := h.evolves hd
    exact hx.2.of_evolves hevolves hx.1
  have hloop : ∀ bound, definition.Binds scope [] styled d (kept :: styled) bound →
      definition.Binds scope [] styled d (kept :: styled)
        ((bound.detachAll others).wrap kept (loopOpen block.type) loopClose) := by
    intro bound hbound
    have hdetached := List.foldlRecOn
      (motive := definition.Binds scope [] styled d (kept :: styled)) others Document.detach hbound
      fun d' h other hother =>
        h.still (.detach other) trivial (helement (hothers other hother) h) (List.forall_mem_nil _)
    exact hdetached.keyed (.wrap kept (loopOpen block.type) loopClose) (soundAround_loop htype)
      (helement hkept hdetached) (keysFit_loop htype _ _)
  refine hloop _ ?_
  split
  case h_1 root heq =>
    rw [← id_of_place? heq]
    exact binds_bind (hroot root heq) hids
  case h_2 => exact Binds.refl.weaken (List.subset_cons_self _ _)

end BlockDefinition

/-- The id of the element that is kept of a block. -/
def DetectedBlock.keptIds (block : DetectedBlock) : List NodeId :=
  block.places.head?.toList.map Place.id

/-- Blocks whose elements stand apart from one another in a document. -/
structure BlocksApart (scope : NodeId → Prop) (d : Document) (blocks : List DetectedBlock) : Prop where
  distinct : d.Distinct
  new : ∀ i, d.next ≤ i → scope i
  elements : ∀ block ∈ blocks, ∀ p ∈ block.places,
    p ∈ d.places ∧ p.isElement ∧ ∀ i ∈ p.tree.ids, scope i
  types : ∀ block ∈ blocks, IsName block.type
  apart : blocks.Pairwise fun a b => ∀ p ∈ a.places, ∀ q ∈ b.places, p.id ∉ q.tree.ids

/-- What is found on a page stands apart. -/
theorem blocksApart_of_sound {scope : NodeId → Prop} {d : Document} {root : Place}
    {detection : Detection} {excluded : List NodeId} (hd : d.Distinct) (hroot : root ∈ d.places)
    (h : detection.Sound root excluded) (htypes : ∀ block ∈ detection.blocks, IsName block.type)
    (hscope : ∀ i ∈ root.tree.ids, scope i) (hnew : ∀ i, d.next ≤ i → scope i) :
    BlocksApart scope d detection.blocks where
  distinct := hd
  new := hnew
  elements := by
    intro block hblock p hp
    have hmem : p ∈ detection.places := Detection.mem_places.2 ⟨block, hblock, hp⟩
    have hbelow := h.mem_descend hmem
    refine ⟨mem_places_descend hroot hbelow, h.elements p hmem, fun i hi => hscope i ?_⟩
    obtain ⟨q, hq, rfl⟩ := Place.exists_mem_descend hi
    exact Place.id_mem_of_mem_descend (Place.descend_trans hbelow hq)
  types := htypes
  apart := by
    have hdistinct := hd.place_distinct hroot
    have hpairwise := h.pairwise hdistinct
    rw [Detection.places, List.pairwise_flatMap] at hpairwise
    refine hpairwise.2.imp_of_mem fun {a b} ha hb hab p hp q hq hid => hab p hp q hq ?_
    have hp' := h.mem_descend (Detection.mem_places.2 ⟨a, ha, hp⟩)
    have hq' := h.mem_descend (Detection.mem_places.2 ⟨b, hb, hq⟩)
    rw [Place.overlaps, (hdistinct.mem_ids_iff hp' hq').1 hid, Bool.true_or]

namespace BlockPass

variable {scope : NodeId → Prop} {start d : Document} {blocks before after : List DetectedBlock}
  {block : DetectedBlock}

theorem collapseAll_append (slug : String) (blocks : List DetectedBlock) (block : DetectedBlock)
    (d : Document) : collapseAll slug (blocks ++ [block]) d =
      collapse slug (collapseAll slug blocks d) block := by
  rw [collapseAll, List.foldl_append]
  rfl

theorem collapse_regions (slug : String) (state : Document × BlockPass) (block : DetectedBlock) :
    (collapse slug state block).2.regions = state.2.regions ++ block.keptIds := by
  unfold collapse DetectedBlock.keptIds
  split <;> simp_all

theorem collapseAll_regions (slug : String) (blocks : List DetectedBlock) (d : Document) :
    (collapseAll slug blocks d).2.regions = blocks.flatMap DetectedBlock.keptIds := by
  induction blocks using List.reverseRecOn with
  | nil => rfl
  | append_singleton blocks block ih =>
    rw [collapseAll_append, collapse_regions, ih, List.flatMap_append, List.flatMap_singleton]

/-- What collapsing a block does to a document that earlier edits have kept clear of its elements. -/
theorem binds_collapse (h : BlocksApart scope start blocks) (hblock : block ∈ blocks)
    {touched : List (NodeId × String)} {styled : List NodeId} {state : Document × BlockPass}
    (hevolves : start.Evolves touched state.1)
    (hstyled : ∀ i ∈ styled, i < start.next ∧ ∀ p ∈ block.places, i ∉ p.tree.ids) (slug : String) :
    (collapse slug state block).1 = state.1 ∧ block.places = [] ∨
      ∃ definition ∈ block.definition?, definition.Binds scope [] styled state.1
        (block.keptIds ++ styled) (collapse slug state block).1 := by
  unfold collapse DetectedBlock.definition? DetectedBlock.keptIds
  split
  case h_1 hnone => exact Or.inl ⟨rfl, hnone⟩
  case h_2 first others hplaces =>
    refine Or.inr ⟨_, by rw [hplaces]; rfl, ?_⟩
    have helements := h.elements block hblock
    have hold : ∀ p ∈ block.places, p.id < state.1.next ∧ state.1.IsElement p.id := by
      intro p hp
      obtain ⟨hmem, helement, -⟩ := helements p hp
      have hlt := h.distinct.lt_next_of_place hmem
      exact ⟨Nat.lt_of_lt_of_le hlt hevolves.next_le,
        (h.distinct.isElement_of_place hmem helement).of_evolves hevolves hlt⟩
    have hfirst : first ∈ block.places := hplaces ▸ List.mem_cons_self
    obtain ⟨hmem, -, hscope⟩ := helements first hfirst
    rw [hplaces]
    refine BlockDefinition.binds_collapseMarkup hevolves.distinct (h.types block hblock) rfl
      (fun root hroot => ?_) (hold first hfirst) fun other hother => ?_
    · exact BlockDefinition.bindable_of_evolves h.distinct hmem hevolves hscope h.new
        (fun i hi => (hstyled i hi).imp_right fun hout => hout first hfirst) hroot
    · obtain ⟨p, hp, rfl⟩ := List.mem_map.1 hother
      exact hold p (hplaces ▸ List.mem_cons_of_mem _ hp)

/-- What collapsing the next block of those that stand apart does. -/
theorem binds_collapseAll_append (slug : String) (h : BlocksApart scope start (before ++ block :: after))
    {touched : List (NodeId × String)}
    (hevolves : start.Evolves touched (collapseAll slug before start).1) :
    (collapseAll slug (before ++ [block]) start).1 = (collapseAll slug before start).1 ∧
        block.places = [] ∨
      ∃ definition ∈ block.definition?, definition.Binds scope [] (before.flatMap DetectedBlock.keptIds)
        (collapseAll slug before start).1 (block.keptIds ++ before.flatMap DetectedBlock.keptIds)
        (collapseAll slug (before ++ [block]) start).1 := by
  have hblock : block ∈ before ++ block :: after := by simp
  have hstyled : ∀ i ∈ before.flatMap DetectedBlock.keptIds,
      i < start.next ∧ ∀ p ∈ block.places, i ∉ p.tree.ids := by
    intro i hi
    obtain ⟨earlier, hearlier, hi⟩ := List.mem_flatMap.1 hi
    obtain ⟨q, hq, rfl⟩ := List.mem_map.1 hi
    have hq : q ∈ earlier.places := List.mem_of_mem_head? (Option.mem_toList.1 hq)
    have hmem := h.elements earlier (List.mem_append_left _ hearlier) q hq
    refine ⟨h.distinct.lt_next_of_place hmem.1, fun p hp => ?_⟩
    exact (List.pairwise_append.1 h.apart).2.2 earlier hearlier block List.mem_cons_self q hq p hp
  rw [collapseAll_append]
  exact binds_collapse h hblock hevolves hstyled slug

/-- All blocks up to any one of them: the document is rewritten with references to block settings
only, and just the elements that were kept may have template syntax in their styles. -/
theorem turns_collapseAll (slug : String) (h : BlocksApart scope start (before ++ after)) :
    Turns (fun owner _ => owner = .block) scope (fun _ => True) [] start
      (before.flatMap DetectedBlock.keptIds) (collapseAll slug before start).1 := by
  induction before using List.reverseRecOn generalizing after with
  | nil => exact Turns.refl ⟨trivial, fun _ _ => trivial⟩
  | append_singleton before block ih =>
    have hshifted : BlocksApart scope start (before ++ block :: after) := by simpa using h
    have hturns := ih hshifted
    obtain ⟨touched, hevolves⟩ := hturns.evolves h.distinct
    rw [List.flatMap_append, List.flatMap_singleton]
    rcases binds_collapseAll_append slug hshifted hevolves with
      ⟨heq, hnone⟩ | ⟨definition, -, hbinds⟩
    · rw [heq, DetectedBlock.keptIds, hnone]
      simpa using hturns
    · have hblockTurns := Turns.mono hbinds fun owner id hid => hid.1
      refine (hturns.trans hblockTurns.forget ⟨trivial, fun _ _ => trivial⟩).weaken fun i hi => ?_
      simp only [List.mem_append] at hi ⊢
      exact hi.symm

/-- The markup of a single setting is an element that shows settings of its definition only. -/
theorem leaf_of_settingMarkup? {definition : BlockDefinition} {setting : Setting} {tree : Tree}
    (hsetting : setting ∈ definition.settings) (h : settingMarkup? definition setting = some tree) :
    ∃ tag ∈ ["div", "h3", "a", "span"], ∃ links : List String,
      tree = leaf tag (links.map fun id => ⟨.plain "href", reference .block id⟩)
          (reference .block setting.id) ∧
        ∀ shown ∈ setting.id :: links, shown ∈ definition.ids := by
  have hid : setting.id ∈ definition.ids := List.mem_map_of_mem hsetting
  have halone : ∀ tag ∈ ["div", "h3", "a", "span"],
      some (leaf tag [] (reference .block setting.id)) = some tree →
      ∃ tag ∈ ["div", "h3", "a", "span"], ∃ links : List String,
        tree = leaf tag (links.map fun id => ⟨.plain "href", reference .block id⟩)
            (reference .block setting.id) ∧
          ∀ shown ∈ setting.id :: links, shown ∈ definition.ids := by
    intro tag htag heq
    exact ⟨tag, htag, [], (Option.some.inj heq).symm, List.forall_mem_singleton.2 hid⟩
  unfold settingMarkup? at h
  dsimp only at h
  split at h
  case h_1 => exact halone "div" (by decide) h
  case h_2 =>
    split at h
    · exact halone "h3" (by decide) h
    · split at h
      case h_1 urlId hurl =>
        refine ⟨"a", by decide, [urlId], (Option.some.inj h).symm, ?_⟩
        have hhas := (Option.filter_eq_some_iff.1 hurl).2
        exact List.forall_mem_cons.2 ⟨hid,
          List.forall_mem_singleton.2 (BlockDefinition.has_iff.1 hhas)⟩
      case h_2 =>
        split at h
        · cases h
        · exact halone "span" (by decide) h
  case h_3 => cases h

theorem nodes_leaf (tag : String) (attributes : Attributes) (text : String) :
    (leaf tag attributes text).nodes = [leaf tag attributes text, .ofText 0 text] := by
  rw [leaf, Tree.nodes_node]
  rfl

section

variable {definition : BlockDefinition} (hnames : ∀ id ∈ definition.ids, IsName id)
  (hclass : Braceless (Text.replaceAll "_" "-" definition.type).toList)

include hnames

theorem sound_leaf {tag : String} (htag : Braceless tag.toList) {id : String} {links : List String}
    (hids : ∀ shown ∈ id :: links, shown ∈ definition.ids) :
    ∀ n ∈ (leaf tag (links.map fun id => ⟨.plain "href", reference .block id⟩)
      (reference .block id)).nodes, n.SoundNode definition.Allows (fun _ => True) [] := by
  obtain ⟨hid, hlinks⟩ := List.forall_mem_cons.1 hids
  have htext : Sound definition.Allows (reference .block id) :=
    sound_reference .block (hnames id hid) ⟨rfl, hid⟩
  rw [nodes_leaf]
  refine List.forall_mem_cons.2 ⟨?_, List.forall_mem_singleton.2 ?_⟩
  · constructor
    case kind =>
      refine ⟨htag, List.forall_mem_map.2 fun link hlink =>
        ⟨(by decide : Braceless "href".toList), ?_⟩⟩
      exact sound_reference .block (hnames link (hlinks link hlink)) ⟨rfl, hlinks link hlink⟩
    case style =>
      intro _ style hstyle
      have hnone : ∀ links : List String, Attributes.get?
          (links.map fun id => ⟨.plain "href", reference .block id⟩) (.plain "style") = none := by
        intro links
        rw [Attributes.get?, Option.map_eq_none_iff, List.find?_eq_none]
        refine List.forall_mem_map.2 fun link _ => ?_
        simp [AttributeName.plain]
      have hattribute : (leaf tag (links.map fun id => ⟨.plain "href", reference .block id⟩)
          (reference .block id)).attribute? "style" = none := hnone links
      rw [hattribute] at hstyle
      cases hstyle
    case row =>
      have hrow : (leaf tag (links.map fun id => ⟨.plain "href", reference .block id⟩)
          (reference .block id)).children.flatMap Tree.ownTokens =
            tokens (reference .block id).toList := by
        rw [leaf, Tree.children_node, List.flatMap_singleton, Tree.ownTokens_ofText]
      rw [hrow]
      exact htext.neutral
    case inside => exact fun _ _ => trivial
  · exact Tree.soundNode_ofText htext.settled htext.fits

theorem still_leaf {tag : String} {id : String} {links : List String}
    (hids : ∀ shown ∈ id :: links, shown ∈ definition.ids) :
    ∀ text ∈ (leaf tag (links.map fun id => ⟨.plain "href", reference .block id⟩)
      (reference .block id)).writtenTexts, Still text := by
  have htexts : (leaf tag (links.map fun id => ⟨.plain "href", reference .block id⟩)
      (reference .block id)).writtenTexts =
        links.map (reference .block) ++ [reference .block id] := by
    rw [Tree.writtenTexts, nodes_leaf]
    simp [leaf, Tree.ofText]
  rw [htexts]
  obtain ⟨hid, hlinks⟩ := List.forall_mem_cons.1 hids
  refine List.forall_mem_append.2 ⟨List.forall_mem_map.2 fun link hlink => ?_,
    List.forall_mem_singleton.2 (still_reference .block (hnames id hid))⟩
  exact still_reference .block (hnames link (hlinks link hlink))

include hclass

/-- The markup of a type that is added shows settings of its definition only. -/
theorem fits_definitionMarkup (x : NodeId) :
    (Edit.append x (definitionMarkup definition)).Fits definition.Allows := by
  refine ⟨rfl, fun n hn => ?_⟩
  rw [definitionMarkup, Tree.nodes_node] at hn
  have hleaf : ∀ t ∈ definition.settings.filterMap (settingMarkup? definition),
      t.isElement ∧ ∀ n ∈ t.nodes, n.SoundNode definition.Allows (fun _ => True) [] := by
    intro t ht
    obtain ⟨setting, hsetting, ht⟩ := List.mem_filterMap.1 ht
    obtain ⟨tag, htag, links, rfl, hids⟩ := leaf_of_settingMarkup? hsetting ht
    have htags : ∀ tag ∈ ["div", "h3", "a", "span"], Braceless tag.toList := by decide
    exact ⟨rfl, sound_leaf hnames (htags tag htag) hids⟩
  rcases List.mem_cons.1 hn with rfl | hn
  · constructor
    case kind =>
      exact ⟨by decide, List.forall_mem_singleton.2
        ⟨(by decide : Braceless "class".toList), sound_of_braceless hclass⟩⟩
    case style =>
      intro _ _ hstyle
      cases hstyle
    case row =>
      refine Neutral.flatMap fun t ht => ?_
      rw [Tree.ownTokens_of_isElement (hleaf t ht).1]
      exact .nil
    case inside => exact fun _ _ => trivial
  · obtain ⟨t, ht, hn⟩ := List.mem_flatMap.1 hn
    exact (hleaf t ht).2 n hn

theorem still_definitionMarkup : ∀ text ∈ (definitionMarkup definition).writtenTexts, Still text := by
  intro text htext
  obtain ⟨n, hn, htext⟩ := List.mem_flatMap.1 htext
  rw [definitionMarkup, Tree.nodes_node] at hn
  rcases List.mem_cons.1 hn with rfl | hn
  · exact List.mem_singleton.1 htext ▸ still_of_braceless hclass
  · obtain ⟨t, ht, hn⟩ := List.mem_flatMap.1 hn
    obtain ⟨setting, hsetting, ht⟩ := List.mem_filterMap.1 ht
    obtain ⟨tag, -, links, rfl, hids⟩ := leaf_of_settingMarkup? hsetting ht
    exact still_leaf hnames hids text (List.mem_flatMap.2 ⟨n, hn, htext⟩)

end

/-- The root of a tree that is added is the only node with the first new id. -/
theorem isElement_append {d : Document} (hd : d.Distinct) (x : NodeId) {tree : Tree}
    (htree : tree.isElement) : (d.apply (.append x tree)).IsElement d.next := by
  intro n hn hid
  have hold : ∀ {m : Tree}, m ∈ d.nodes → m.id ≠ d.next := fun hm =>
    Nat.ne_of_lt (hd.fresh _ (id_mem_ids hm))
  obtain ⟨t', ht', hn⟩ := mem_nodes.1 hn
  obtain ⟨t, ht, rfl⟩ : ∃ t ∈ d.trees, _ = t' := List.mem_map.1 ht'
  have hmem : ∀ {m : Tree}, m ∈ t.nodes → m ∈ d.nodes := fun hm => mem_nodes.2 ⟨t, ht, hm⟩
  rcases Tree.mem_nodes_update hn with ⟨m, hm, hne, rfl⟩ | ⟨m, hm, -, hn⟩
  · rw [Tree.update_of_ne hne, Tree.id_node] at hid
    exact absurd hid (hold (hmem hm))
  · rcases Tree.mem_nodes_iff.1 hn with rfl | ⟨c, hc, hn⟩
    · rw [Tree.id_withChildren] at hid
      exact absurd hid (hold (hmem hm))
    · rw [Tree.children_withChildren, List.mem_append, List.mem_singleton] at hc
      rcases hc with hc | rfl
      · have hchild := Tree.nodes_trans hm (Tree.mem_nodes_of_mem_children hc)
        exact absurd hid (hold (hmem (Tree.nodes_trans hchild hn)))
      · have hids : (d.adopt tree).1.ids = _ := (ids_renumber d.next tree).2
        have hnodup : (d.adopt tree).1.ids.Nodup := hids ▸ List.nodup_range'
        have hroot : (d.adopt tree).1.id = d.next ∧ (d.adopt tree).1.kind = tree.kind := by
          cases tree
          exact ⟨rfl, rfl⟩
        rw [List.inj_on_of_nodup_map hnodup hn (Tree.self_mem_nodes _) (hid.trans hroot.1.symm)]
        rw [Tree.isElement, Tree.element?] at htree ⊢
        rwa [hroot.2]

/-- Adding a type leaves the document as it is, or binds new markup to the definition that it adds. -/
theorem binds_inject (scope : NodeId → Prop) (styled : List NodeId) (container : NodeId)
    {state : Document × BlockPass}
    (hd : state.1.Distinct) (name : String) :
    (inject container state name).1 = state.1 ∧
        (inject container state name).2.definitions = state.2.definitions ∨
      ∃ definition : BlockDefinition,
        (inject container state name).2.definitions = state.2.definitions ++ [definition] ∧
        definition.Binds scope [] styled state.1 styled (inject container state name).1 := by
  obtain ⟨d, pass⟩ := state
  unfold inject
  dsimp only
  split
  case isTrue => exact Or.inl ⟨rfl, rfl⟩
  case isFalse =>
    split
    case h_1 => exact Or.inl ⟨rfl, rfl⟩
    case h_2 pattern hpattern =>
      have hclass : ∀ pattern ∈ BlockPattern.catalog,
          Braceless (Text.replaceAll "_" "-" pattern.type).toList := by decide +kernel
      have hmem : pattern ∈ BlockPattern.catalog := List.mem_of_find?_eq_some hpattern
      let definition := BlockDefinition.ofInstance pattern .sample
      have hnames : ∀ id ∈ definition.ids, IsName id := BlockDefinition.isName_of_mem_settingsOf
      refine Or.inr ⟨definition, rfl, ?_⟩
      have hstart : definition.Binds scope [] styled d styled d := .refl
      have happended := hstart.still (.append container (definitionMarkup definition))
        (fits_definitionMarkup hnames (hclass pattern hmem) container) trivial
        (still_definitionMarkup hnames (hclass pattern hmem))
      exact happended.keyed (.wrap d.next (loopOpen (Text.key name)) loopClose)
        (soundAround_loop (isName_key name)) (isElement_append hd container rfl)
        (keysFit_loop (isName_key name) _ _)

theorem injectAll_append (container : NodeId) (names : List String) (name : String)
    (state : Document × BlockPass) : injectAll container (names ++ [name]) state =
      inject container (injectAll container names state) name := by
  rw [injectAll, List.foldl_append]
  rfl

/-- What was kept before is left alone after adding types as well. -/
theorem regions_subset_injectAll (container : NodeId) (names : List String)
    (state : Document × BlockPass) :
    state.2.regions ⊆ (injectAll container names state).2.regions := by
  refine List.foldlRecOn (motive := fun s : Document × BlockPass => state.2.regions ⊆ s.2.regions)
    names _ (List.Subset.refl _) fun s h name _ => ?_
  unfold inject
  dsimp only
  split
  · exact h
  · split
    · exact h
    · exact List.subset_append_of_subset_left _ h

theorem turns_injectAll {styled : List NodeId} (container : NodeId) (names : List String)
    {state : Document × BlockPass} (hd : state.1.Distinct) :
    Turns (fun owner _ => owner = .block) scope (fun _ => True) styled state.1 styled
      (injectAll container names state).1 := by
  induction names using List.reverseRecOn with
  | nil => exact Turns.refl ⟨trivial, fun _ _ => trivial⟩
  | append_singleton names name ih =>
    obtain ⟨touched, hevolves⟩ := ih.evolves hd
    rw [injectAll_append]
    rcases binds_inject scope styled container hevolves.distinct name with
      ⟨heq, -⟩ | ⟨definition, -, hbinds⟩
    · rwa [heq]
    · have hturns := Turns.mono hbinds fun owner id hid => hid.1
      exact ih.trans hturns.forget ⟨trivial, fun _ _ => trivial⟩

end BlockPass

end ThemeSection
