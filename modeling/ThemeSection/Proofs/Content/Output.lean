import ThemeSection.Proofs.Assets
import ThemeSection.Proofs.Block.Pass
import ThemeSection.Proofs.Content
import ThemeSection.Proofs.FeaturedProducts
import ThemeSection.Proofs.PageSettings.References

/-!
What the markup of a page says once its content is bound. Where the page has no braces of its own, all
template syntax in it comes from the passes. It is well nested, it refers to settings of the page that
are there in the end, and what is written for a block refers to the settings of that block.
-/

namespace ThemeSection

open Markup Liquid Document

namespace Markup

/-- Nothing that a node of a kind writes has a brace. -/
def NodeKind.Braceless : NodeKind → Prop
  | .document => True
  | .doctype name => Liquid.Braceless name.toList
  | .text content => Liquid.Braceless content.toList
  | .comment content => Liquid.Braceless content.toList
  | .element name attributes => Liquid.Braceless name.name.toList ∧
      ∀ a ∈ attributes, Liquid.Braceless a.name.name.toList ∧ Liquid.Braceless a.value.toList

instance : DecidablePred NodeKind.Braceless
  | .document => .isTrue trivial
  | .doctype name => inferInstanceAs (Decidable (Liquid.Braceless name.toList))
  | .text content => inferInstanceAs (Decidable (Liquid.Braceless content.toList))
  | .comment content => inferInstanceAs (Decidable (Liquid.Braceless content.toList))
  | .element name attributes => inferInstanceAs (Decidable (Liquid.Braceless name.name.toList ∧
      ∀ a ∈ attributes, Liquid.Braceless a.name.name.toList ∧ Liquid.Braceless a.value.toList))

/-- Nothing that a tree writes has a brace. -/
def Tree.Braceless (t : Tree) : Prop :=
  ∀ n ∈ t.nodes, n.kind.Braceless

instance : DecidablePred Tree.Braceless := fun t =>
  inferInstanceAs (Decidable (∀ n ∈ t.nodes, n.kind.Braceless))

/-- No text, comment or attribute has a brace; the names of elements may have some. -/
def NodeKind.BracelessContent : NodeKind → Prop
  | .text content => Liquid.Braceless content.toList
  | .comment content => Liquid.Braceless content.toList
  | .element _ attributes =>
      ∀ a ∈ attributes, Liquid.Braceless a.name.name.toList ∧ Liquid.Braceless a.value.toList
  | _ => True

instance : DecidablePred NodeKind.BracelessContent
  | .document => .isTrue trivial
  | .doctype _ => .isTrue trivial
  | .text content => inferInstanceAs (Decidable (Liquid.Braceless content.toList))
  | .comment content => inferInstanceAs (Decidable (Liquid.Braceless content.toList))
  | .element _ attributes => inferInstanceAs (Decidable (∀ a ∈ attributes,
      Liquid.Braceless a.name.name.toList ∧ Liquid.Braceless a.value.toList))

theorem NodeKind.Braceless.sound {kind : NodeKind} (h : kind.Braceless)
    (allowed : Owner → String → Prop) : kind.Sound allowed := by
  cases kind with
  | text content =>
    refine ⟨Liquid.Braceless.settled h, fun t ht => ?_⟩
    rw [Liquid.Braceless.tokens h] at ht
    cases ht
  | element name attributes =>
    exact ⟨h.1, fun a ha => ⟨(h.2 a ha).1, sound_of_braceless (h.2 a ha).2⟩⟩
  | _ => exact h

theorem NodeKind.Braceless.ownTokens {t : Tree} (h : t.kind.Braceless) : t.ownTokens = [] := by
  unfold Tree.ownTokens
  split
  case h_1 content heq =>
    rw [heq] at h
    exact Liquid.Braceless.tokens h
  case h_2 => rfl

end Markup

/-- The nodes below a place of a document and all nodes that are still to come. -/
def Document.Reach (d : Document) (root : Place) (i : NodeId) : Prop :=
  i ∈ root.tree.ids ∨ d.next ≤ i

/-- A place without braces is sound whatever may be referred to. -/
theorem Document.Distinct.soundIn_reach {d : Document} (hd : d.Distinct) {root : Place}
    (hroot : root ∈ d.places) (hplain : root.tree.Braceless) (allowed : Owner → String → Prop) :
    d.SoundIn allowed (d.Reach root) [] := by
  intro n hn hscope
  have hbelow : n ∈ root.tree.nodes := by
    rcases hscope with hin | hge
    · obtain ⟨m, hm, hid⟩ := List.mem_map.1 hin
      rwa [hd.eq_of_id_eq hn (nodes_trans (tree_mem_nodes hroot) hm) hid.symm]
    · exact absurd (hd.fresh _ (id_mem_ids hn)) (Nat.not_lt.2 hge)
  have hchildren : ∀ c ∈ n.children, c ∈ root.tree.nodes := fun c hc =>
    Tree.nodes_trans hbelow (Tree.mem_nodes_of_mem_children hc)
  constructor
  case kind => exact (hplain n hbelow).sound _
  case style =>
    intro _ style hstyle
    obtain ⟨⟨name, attributes⟩, helement, hget⟩ := Option.bind_eq_some_iff.1 hstyle
    obtain ⟨a, ha, rfl⟩ := Option.map_eq_some_iff.1 hget
    have hkind := hplain n hbelow
    rw [Tree.kind_of_element? helement] at hkind
    exact (hkind.2 a (List.mem_of_find?_eq_some ha)).2
  case row =>
    have hnone : n.children.flatMap Tree.ownTokens = [] := List.flatMap_eq_nil_iff.2 fun c hc =>
      (hplain c (hchildren c hc)).ownTokens
    exact hnone ▸ .nil
  case inside =>
    exact fun c hc => Or.inl (Tree.id_mem_ids_of_mem_nodes (hchildren c hc))

theorem Document.Distinct.clean {d : Document} (hd : d.Distinct) {root : Place}
    (hroot : root ∈ d.places) (hplain : root.tree.Braceless) : Sweep.Clean (d.Reach root) d where
  distinct := hd
  new := fun _ => Or.inr
  sound := fun _ => hd.soundIn_reach hroot hplain _

/-- A document is rewritten for a block: whatever setting of a block the written texts refer to, by
its path or by a key that loops compute, is a setting of the definition. -/
def BlockDefinition.WritesOwn (definition : BlockDefinition) (d d' : Document) : Prop :=
  ∃ log : List Edit, d' = log.foldl Document.apply d ∧
    ∀ key ∈ blockKeys (log.flatMap Edit.texts), ∃ id ∈ definition.ids, key = some id

theorem BlockDefinition.writesOwn_of_binds {definition : BlockDefinition} {scope : NodeId → Prop}
    {styled styled' : List NodeId} {d d' : Document}
    (h : definition.Binds scope [] styled d styled' d') : definition.WritesOwn d d' := by
  obtain ⟨log, hrewrites, hkeys, -⟩ := h
  refine ⟨log, hrewrites.eq_foldl, keys_of_fits (fun text htext => ?_) hkeys⟩
  obtain ⟨e, he, htext⟩ := List.mem_flatMap.1 htext
  exact (hrewrites.fits e he).fits_of_mem_texts text htext

namespace SectionContent

/-- Two cards and a heading. -/
def cardPage : Document :=
  (Assets.extract (Document.ofMarkup
    "<div class=\"card\"><h3>Tea</h3></div><div class=\"card\"><h3>Rice</h3></div><h1>Shop</h1>")).1

theorem distinct_cardPage : cardPage.Distinct :=
  Assets.distinct_extract (Document.distinct_ofMarkup _)

theorem braceless_cardPage : cardPage.body.tree.Braceless := by
  decide +kernel

section

variable (slug : String) (pageType : PageType) (options : Options) {root : Place} {d : Document}

theorem document_ofDocument (root : Place) (d : Document) :
    (ofDocument slug pageType options root d).document =
      (PageSettings.extract root.id
        ((bound slug pageType options root d).2.regions ++ excluded pageType options root d)
        options (replaceProducts pageType options root d).2.settings
        (bound slug pageType options root d).1).1 := by
  simp only [ofDocument, bound, collapsed, detected, searched, excluded]

variable (hd : d.Distinct) (hroot : root ∈ d.places)
include hd hroot

theorem turns_searched (scope : NodeId → Prop) :
    Turns (fun owner id => owner = .whole ∧
        id ∈ (replaceProducts pageType options root d).2.settings.map Setting.id)
      scope (fun _ => True) [] d [] (searched pageType options root d) := by
  unfold searched replaceProducts
  split
  · exact FeaturedPass.turns_replace hd hroot pageType options
  · exact .refl ⟨trivial, fun _ _ => trivial⟩

/-- The elements of the blocks that are found stand apart. -/
theorem blocksApart_searched :
    BlocksApart (d.Reach root) (searched pageType options root d)
      (detected pageType options root d).blocks := by
  obtain ⟨touched, hevolves⟩ :=
    (turns_searched pageType options hd hroot (d.Reach root)).evolves hd
  have hnew : ∀ i, (searched pageType options root d).next ≤ i → d.Reach root i := fun i hi =>
    Or.inr (Nat.le_trans hevolves.next_le hi)
  rcases detected_cases pageType options root d with ⟨top, htop, _, hsound⟩ | hnone
  · have hmem := mem_places_of_place? htop
    have hid : top.tree.id = root.tree.id := id_of_place? htop
    obtain ⟨m, hm, hbecomes⟩ := (hevolves.source top.tree (tree_mem_nodes hmem)).old
      (hid ▸ hd.lt_next_of_place hroot)
    obtain rfl := hd.eq_of_id_eq hm (tree_mem_nodes hroot) (hbecomes.id.symm.trans hid)
    refine blocksApart_of_sound hevolves.distinct hmem hsound (fun block hblock => ?_) (fun i hi => ?_)
      hnew
    · exact Detection.isName_of_known (known_of_mem_detected pageType options root d hblock)
    · by_cases hold : i < d.next
      · exact Or.inl (hbecomes.below i hi hold)
      · exact Or.inr (Nat.not_lt.1 hold)
  · rw [hnone]
    exact ⟨hevolves.distinct, hnew, (List.forall_mem_nil _), (List.forall_mem_nil _), .nil⟩

theorem turns_collapsed :
    Turns (Names ((replaceProducts pageType options root d).2.settings.map Setting.id))
      (d.Reach root) (fun _ => True) [] d (collapsed slug pageType options root d).2.regions
      (collapsed slug pageType options root d).1 := by
  have hsearched := Turns.mono (turns_searched pageType options hd hroot (d.Reach root))
    fun owner id h => (fun _ => h.2 : Names _ owner id)
  have hblocks := blocksApart_searched pageType options hd hroot
  rw [← List.append_nil (detected pageType options root d).blocks] at hblocks
  have hcollapsed := BlockPass.turns_collapseAll slug hblocks
  rw [collapsed, BlockPass.collapseAll_regions]
  refine hsearched.trans (hcollapsed.mono fun owner id h howner => ?_) ⟨trivial, fun _ _ => trivial⟩
  exact absurd (h.symm.trans howner) (by decide)

theorem turns_bound :
    Turns (Names ((replaceProducts pageType options root d).2.settings.map Setting.id))
      (d.Reach root) (fun _ => True) [] d ((bound slug pageType options root d).2.regions
        ++ excluded pageType options root d) (bound slug pageType options root d).1 := by
  have hcollapsed := turns_collapsed slug pageType options hd hroot
  obtain ⟨touched, hevolves⟩ := hcollapsed.evolves hd
  have hinjected : Turns _ (d.Reach root) _ (collapsed slug pageType options root d).2.regions _ _ _ :=
    BlockPass.turns_injectAll root.id options.injectBlocks hevolves.distinct
  refine (hcollapsed.trans (hinjected.mono fun owner id h howner => ?_)
    ⟨trivial, fun _ _ => trivial⟩).weaken ?_
  · exact absurd (h.symm.trans howner) (by decide)
  · exact List.subset_append_of_subset_left _ (BlockPass.regions_subset_injectAll _ _ _)

section

variable (hplain : root.tree.Braceless)
include hplain

theorem turns_ofDocument :
    ∃ styled, Turns (Names ((ofDocument slug pageType options root d).settings.map Setting.id))
      (d.Reach root) (fun _ => True) [] d styled (ofDocument slug pageType options root d).document := by
  have hbound := turns_bound slug pageType options hd hroot
  have hroot' : d.Reach root root.id := Or.inl root.tree.id_mem_ids
  have hextracted := PageSettings.turns_extract (hd.clean hroot hplain) hroot' _ options _ hbound
  rw [document_ofDocument, settings_ofDocument]
  exact hextracted

/-- The node that was bound is still there, and is sound in all its nodes. -/
theorem allSound_ofDocument :
    ∃ p, (ofDocument slug pageType options root d).document.place? root.id = some p ∧
      p.tree.AllSound (Names ((ofDocument slug pageType options root d).settings.map Setting.id)) := by
  obtain ⟨styled, hturns⟩ := turns_ofDocument slug pageType options hd hroot hplain
  obtain ⟨touched, hevolves⟩ := hturns.evolves hd
  obtain ⟨p, hp⟩ := exists_place? (hevolves.ids (id_mem_ids (tree_mem_nodes hroot)))
  have hclean := hd.clean hroot hplain
  refine ⟨p, hp, Tree.allSound_of_soundIn (hturns.soundIn hd (hclean.sound _) hclean.new)
    (tree_mem_nodes (mem_places_of_place? hp)) (Or.inl ?_)⟩
  rw [show p.tree.id = root.tree.id from id_of_place? hp]
  exact root.tree.id_mem_ids

/-- In what the node holds once its content is bound, every loop and every condition is closed by its
own closing tag, and nothing is closed that was not opened. -/
theorem wellNested_ofDocument :
    ∃ p, (ofDocument slug pageType options root d).document.place? root.id = some p ∧
      WellNested (tokens p.tree.inner.toList) := by
  obtain ⟨p, hp, hsound⟩ := allSound_ofDocument slug pageType options hd hroot hplain
  exact ⟨p, hp, Tree.wellNested_inner hsound⟩

omit hd hroot hplain in
theorem wellNested_ofDocument_cardPage :
    cardPage.Distinct ∧ cardPage.body ∈ cardPage.places ∧ cardPage.body.tree.Braceless ∧
      ∃ p, (ofDocument "home" .page {} cardPage.body cardPage).document.place? cardPage.body.id =
          some p ∧ WellNested (tokens p.tree.inner.toList) :=
  ⟨distinct_cardPage, body_mem_places _, braceless_cardPage,
    wellNested_ofDocument "home" .page {} distinct_cardPage (body_mem_places _) braceless_cardPage⟩

omit hd hroot hplain in
/-- The name of an element is template syntax too, if it has braces. -/
theorem not_wellNested_ofDocument_tagName :
    let page := (Assets.extract (Document.ofMarkup "<x\x7b%endif%\x7d></x\x7b%endif%\x7d>")).1
    page.Distinct ∧ page.body ∈ page.places ∧
      (∀ n ∈ page.body.tree.nodes, n.kind.BracelessContent) ∧
      ∃ p, (ofDocument "home" .page {} page.body page).document.place? page.body.id = some p ∧
        ¬ WellNested (tokens p.tree.inner.toList) := by
  intro page
  have hcontent : ∀ n ∈ page.body.tree.nodes, n.kind.BracelessContent := by decide +kernel
  have hnested : ((ofDocument "home" .page {} page.body page).document.place? page.body.id).map
      (fun p => decide (WellNested (tokens p.tree.inner.toList))) = some false := by decide +kernel
  obtain ⟨p, hp, hnot⟩ := Option.map_eq_some_iff.1 hnested
  exact ⟨Assets.distinct_extract (Document.distinct_ofMarkup _), body_mem_places _, hcontent, p, hp,
    of_decide_eq_false hnot⟩

/-- No reference dangles. In what the node holds once its content is bound, every setting of the page
that an output or a tag names is among the settings; and whatever is written to collapse a block or
to add a type refers to settings of its own definition. -/
theorem referenced_ofDocument :
    let content := ofDocument slug pageType options root d
    let searched := searched pageType options root d
    let collapsed := collapsed slug pageType options root d
    (∃ p, content.document.place? root.id = some p ∧
      ∀ id ∈ references .whole p.tree.inner, id ∈ content.settings.map Setting.id) ∧
    (∀ before block after, (detected pageType options root d).blocks = before ++ block :: after →
      ∃ definition, block.definition? = some definition ∧
        definition.WritesOwn (BlockPass.collapseAll slug before searched).1
          (BlockPass.collapseAll slug (before ++ [block]) searched).1) ∧
    (∀ before name after, options.injectBlocks = before ++ name :: after →
      let state := BlockPass.injectAll root.id before collapsed
      let added := BlockPass.inject root.id state name
      added.1 = state.1 ∧ added.2.definitions = state.2.definitions ∨
        ∃ definition : BlockDefinition, added.2.definitions = state.2.definitions ++ [definition] ∧
          definition.WritesOwn state.1 added.1) := by
  intro content searched collapsed
  refine ⟨?_, fun before block after hblocks => ?_, fun before name after _ => ?_⟩
  · obtain ⟨p, hp, hsound⟩ := allSound_ofDocument slug pageType options hd hroot hplain
    refine ⟨p, hp, fun id hid => ?_⟩
    obtain ⟨t, ht, hid⟩ := List.mem_flatMap.1 hid
    exact Tree.fits_of_mem_tokens_inner hsound t ht .whole id hid rfl
  · have hapart := blocksApart_searched pageType options hd hroot
    have hmem : block ∈ (detected pageType options root d).blocks := by simp [hblocks]
    have hplaces := (places_of_mem_detected pageType options root d hmem).1
    rw [hblocks] at hapart
    obtain ⟨touched, hevolves⟩ :=
      (BlockPass.turns_collapseAll slug hapart).evolves hapart.distinct
    rcases BlockPass.binds_collapseAll_append slug hapart hevolves with
      ⟨-, hnone⟩ | ⟨definition, hdefinition, hbinds⟩
    · exact absurd hnone hplaces
    · exact ⟨definition, hdefinition, BlockDefinition.writesOwn_of_binds hbinds⟩
  · intro state added
    obtain ⟨_, hcollapsed⟩ := (turns_collapsed slug pageType options hd hroot).evolves hd
    have hinjected : Turns _ (d.Reach root) _ [] collapsed.1 _ state.1 :=
      BlockPass.turns_injectAll root.id before hcollapsed.distinct
    obtain ⟨_, hevolves⟩ := hinjected.evolves hcollapsed.distinct
    rcases BlockPass.binds_inject (d.Reach root) [] root.id hevolves.distinct name with
      hsame | ⟨definition, hadded, hbinds⟩
    · exact Or.inl hsame
    · exact Or.inr ⟨definition, hadded, BlockDefinition.writesOwn_of_binds hbinds⟩

omit hd hroot hplain in
theorem referenced_ofDocument_cardPage :
    cardPage.Distinct ∧ cardPage.body ∈ cardPage.places ∧ cardPage.body.tree.Braceless ∧
      ∃ p, (ofDocument "home" .page {} cardPage.body cardPage).document.place? cardPage.body.id =
          some p ∧
        ∀ id ∈ references .whole p.tree.inner,
          id ∈ (ofDocument "home" .page {} cardPage.body cardPage).settings.map Setting.id :=
  ⟨distinct_cardPage, body_mem_places _, braceless_cardPage,
    (referenced_ofDocument "home" .page {} distinct_cardPage (body_mem_places _)
      braceless_cardPage).1⟩

end

end

end SectionContent

end ThemeSection
