import ThemeSection.Proofs.Block.Looped

/-!
What the loops of a page enclose. Where a page has no braces of its own, all template syntax in it
is that of the rows which the elements of the blocks gave way to; so whatever refers to a setting of
a block is printed in the loop of that block.
-/

namespace ThemeSection

open Markup Liquid Document

namespace Liquid

/-- A token of a text, with what is before and after it, is one of a part of the text. -/
def IsIn (part before : List Token) (k : Token) (after : List Token) : Prop :=
  ∃ s t first last, part = s ++ k :: t ∧ before = first ++ s ∧ after = t ++ last

/-- A token refers to a setting of a block, by its path or by a computed key. -/
def Token.RefersToBlock (k : Token) : Prop :=
  pathIds .block k.content ≠ [] ∨ keyVariables k.content ≠ []

/-- A token stands in a loop over the blocks of a type, and is in no tag that is opened or closed in
the loop only in part. -/
def InLoop (type : String) (before : List Token) (k : Token) (after : List Token) : Prop :=
  ∃ s t first last, before = first ++ (tokens (loopOpen type).toList ++ s) ∧
    after = t ++ (tokens loopClose.toList ++ last) ∧ Neutral (s ++ k :: t)

variable {a b part s t before after : List Token} {k : Token} {type : String}

theorem append_eq_append_cons (h : a ++ b = s ++ k :: t) :
    (∃ c, t = c ++ b ∧ a = s ++ k :: c) ∨ ∃ c, s = a ++ c ∧ b = c ++ k :: t := by
  rcases List.append_eq_append_iff.1 h with ⟨c, hs, hb⟩ | ⟨c, rfl, hrest⟩
  · exact Or.inr ⟨c, hs, hb⟩
  · cases c with
    | nil => exact Or.inr ⟨[], by simp, hrest.symm⟩
    | cons k' c =>
      obtain ⟨rfl, rfl⟩ := List.cons.inj hrest
      exact Or.inl ⟨c, rfl, rfl⟩

theorem isIn_self (h : part = before ++ k :: after) : IsIn part before k after :=
  ⟨before, after, [], [], h, rfl, (List.append_nil _).symm⟩

theorem not_isIn_nil : ¬ IsIn [] before k after := by
  rintro ⟨s, t, _, _, heq, -⟩
  exact List.append_ne_nil_of_right_ne_nil s (List.cons_ne_nil k t) heq.symm

theorem IsIn.append_cases (h : IsIn (a ++ b) before k after) :
    IsIn a before k after ∨ IsIn b before k after := by
  obtain ⟨s, t, first, last, heq, rfl, rfl⟩ := h
  rcases append_eq_append_cons heq with ⟨c, rfl, ha⟩ | ⟨c, rfl, hb⟩
  · exact Or.inl ⟨s, c, first, b ++ last, ha, rfl, List.append_assoc _ _ _⟩
  · exact Or.inr ⟨c, t, first ++ a, last, hb, (List.append_assoc _ _ _).symm, rfl⟩

theorem IsIn.exists_of_flatMap {α : Type} {items : List α} {f : α → List Token}
    (h : IsIn (items.flatMap f) before k after) : ∃ item ∈ items, IsIn (f item) before k after := by
  induction items with
  | nil => exact absurd h not_isIn_nil
  | cons item items ih =>
    rcases h.append_cases with h | h
    · exact ⟨item, List.mem_cons_self, h⟩
    · obtain ⟨other, hother, h⟩ := ih h
      exact ⟨other, List.mem_cons_of_mem _ hother, h⟩

/-- The loop over the blocks of a type refers to no setting of a block. -/
theorem not_refersToBlock_loop (h : IsName type) : ∀ text ∈ [loopOpen type, loopClose],
    ∀ k ∈ tokens text.toList, ¬ k.RefersToBlock := by
  have hsound : SoundAround (fun _ _ => False) (loopOpen type) loopClose := soundAround_loop h
  have hpaths : ∀ text ∈ [loopOpen type, loopClose], ∀ k ∈ tokens text.toList,
      k.Fits fun _ _ => False :=
    List.forall_mem_cons.2 ⟨hsound.fitsBefore, List.forall_mem_singleton.2 hsound.fitsAfter⟩
  rintro text htext k hk (hpath | hkey)
  · obtain ⟨id, hid⟩ := List.exists_mem_of_ne_nil _ hpath
    exact hpaths text htext k hk .block id hid
  · obtain ⟨name, hname⟩ := List.exists_mem_of_ne_nil _ hkey
    have hused : name ∈ keysUsed [loopOpen type, loopClose] :=
      List.mem_flatMap.2 ⟨text, htext, List.mem_flatMap.2 ⟨k, hk, hname⟩⟩
    rw [keysUsed_loop h] at hused
    cases hused

end Liquid

namespace Markup.Tree

variable {t : Tree} {rows : Rows} {before after : List Liquid.Token} {k : Liquid.Token}

/-- A tree without braces prints nothing but the rows in it. -/
theorem exists_row_of_isIn (hplain : t.Braceless) : ∀ inVoid,
    IsIn ((t.exchange rows).flatMap (printedTokens inVoid)) before k after →
      ∃ i row inVoid', rows i = some row ∧
        IsIn (row.flatMap (printedTokens inVoid')) before k after := by
  induction t using Tree.bottomUp with
  | node id kind children ih =>
    intro inVoid h
    cases hrow : rows id with
    | some row =>
      rw [exchange_of_some (t := node id kind children) hrow] at h
      exact ⟨id, row, inVoid, hrow, h⟩
    | none =>
      have hchildren : ∀ inVoid, IsIn (printedTokensOf inVoid (children.flatMap (exchange rows)))
          before k after → ∃ i row inVoid', rows i = some row ∧
            IsIn (row.flatMap (printedTokens inVoid')) before k after := by
        intro inVoid h
        rw [printedTokensOf_eq_flatMap, List.flatMap_assoc] at h
        obtain ⟨c, hc, h⟩ := h.exists_of_flatMap
        have hchild : c.Braceless := fun n hn =>
          hplain n (nodes_trans (mem_nodes_of_mem_children hc) hn)
        exact ih c hc hchild inVoid h
      have hkind := hplain _ (self_mem_nodes _)
      rw [exchange_of_none (t := node id kind children) hrow, List.flatMap_singleton] at h
      cases kind with
      | document => exact hchildren false h
      | doctype name => exact absurd h not_isIn_nil
      | comment content => exact absurd h not_isIn_nil
      | text content =>
        have h : IsIn (tokens content.toList) before k after := h
        rw [Liquid.Braceless.tokens hkind] at h
        exact absurd h not_isIn_nil
      | element name attributes =>
        cases inVoid with
        | true => exact hchildren true h
        | false =>
          have hnone : (attributes.flatMap fun a => tokens a.value.toList) = [] :=
            List.flatMap_eq_nil_iff.2 fun a ha => Liquid.Braceless.tokens (hkind.2 a ha).2
          exact hchildren name.isVoid (h.append_cases.resolve_left (hnone ▸ not_isIn_nil))

end Markup.Tree

/-- What refers to a setting of a block in the row of a loop stands in the loop, and the setting is
one of its block. -/
theorem Loop.inLoop_of_isIn {next : NodeId} {definition : BlockDefinition} {old : Tree}
    (loop : Loop next definition old) (hplain : old.Braceless) (htype : IsName definition.type)
    {before after : List Liquid.Token} {k : Liquid.Token} (hk : k.RefersToBlock) {inVoid : Bool}
    (h : IsIn (loop.row.flatMap (Tree.printedTokens inVoid)) before k after) :
    InLoop definition.type before k after ∧
      ∀ id ∈ pathIds .block k.content, id ∈ definition.ids := by
  have hsound := loop.card.sound hplain
  have hnot := not_refersToBlock_loop htype
  simp only [List.forall_mem_cons] at hnot
  have hrow : loop.row.flatMap (Tree.printedTokens inVoid) =
      tokens (loopOpen definition.type).toList ++
        (loop.card.tree.printedTokens inVoid ++ tokens loopClose.toList) := by
    simp only [row, List.flatMap_cons, List.flatMap_nil, List.append_nil]
    rfl
  obtain ⟨s, t, first, last, heq, rfl, rfl⟩ := h
  rw [hrow] at heq
  rcases append_eq_append_cons heq with ⟨c, -, hopen⟩ | ⟨s, rfl, hrest⟩
  · exact absurd hk (hnot.1 k (by rw [hopen]; simp))
  · rcases append_eq_append_cons hrest with ⟨t, rfl, hcard⟩ | ⟨c, -, hclose⟩
    · have hneutral : Neutral (loop.card.tree.printedTokens inVoid) := by
        intro stack
        rw [Tree.run_printedTokens hsound inVoid, Tree.ownTokens_of_isElement loop.card.isElement]
        rfl
      refine ⟨⟨s, t, first, last, by simp, by simp, hcard ▸ hneutral⟩, fun id hid => ?_⟩
      exact (Tree.fits_of_mem_printedTokens hsound inVoid k (by rw [hcard]; simp) .block id hid).2
    · exact absurd hk (hnot.2.1 k (by rw [hclose]; simp))

/-- What a block comes to in a page. The elements after the first are out of the tree that the page
stands in, and the first stands in the page, right between the opening and the closing of its loop.
-/
structure DetectedBlock.Collapsed (block : DetectedBlock) (page : Place) : Prop where
  gone : ∀ p ∈ block.places.tail, p.id ∉ page.whole.ids
  kept : ∀ first ∈ block.places.head?, ∃ parent ∈ page.tree.nodes,
    ∃ before opening card closing after, card.id = first.id ∧ parent.children =
      before ++ [.ofText opening (loopOpen block.type), card, .ofText closing loopClose] ++ after

namespace Detection.Collapsible

variable {d : Document} {root p : Place} {excluded : List NodeId} {detection : Detection}
  {block : DetectedBlock} {rows : Tree.Rows} {g : Gap} (h : detection.Collapsible d root excluded)
include h

variable (hrows : Looped d.next detection.blocks rows)
include h hrows

/-- An element that goes is in none of the rows. -/
theorem not_mem_row (hblock : block ∈ detection.blocks) (hp : p ∈ block.places.tail) {j : NodeId}
    {row : List Tree} (hrow : rows j = some row) : p.id ∉ row.flatMap Tree.ids := by
  have hfound : p ∈ detection.places := mem_places.2 ⟨block, hblock, List.mem_of_mem_tail hp⟩
  intro hin
  rcases hrows.row_cases hrow with
    rfl | ⟨other, hother, first, hfirst, definition, hdefinition, loop, rfl⟩
  · cases hin
  · have hkept : first ∈ detection.places :=
      mem_places.2 ⟨other, hother, List.mem_of_mem_head? hfirst⟩
    have hne : p.id ≠ first.id := by
      intro heq
      obtain ⟨loop', hloop⟩ := hrows.kept other hother first hfirst definition hdefinition
      cases (hrows.gone block hblock p hp).symm.trans (heq ▸ hloop)
    rcases loop.of_mem_ids_row hin with hge | hin
    · exact Nat.not_le.2 (h.lt_next hfound) hge
    · exact (h.apart hkept (h.sound.mem_descend hfound) (h.sound.claimed p hfound).1 hne).2 hin

theorem collapsed (hfill : d.trees = g.fill root.tree) (hblock : block ∈ detection.blocks) :
    block.Collapsed ⟨root.tree.exchangeBelow rows, g.above⟩ where
  gone := by
    intro p hp hin
    have hfound : p ∈ detection.places := mem_places.2 ⟨block, hblock, List.mem_of_mem_tail hp⟩
    rcases List.mem_append.1 ((ids_closeAll _ _).mem_iff.1 hin) with hin | hin
    · rcases Tree.mem_ids_iff.1 hin with heq | ⟨c', hc', hin⟩
      · exact h.ne_root hfound heq
      · obtain ⟨c, -, hc⟩ := List.mem_flatMap.1 hc'
        rcases Tree.of_mem_ids_exchange (List.mem_flatMap.2 ⟨c', hc, hin⟩) with
          ⟨-, hnone⟩ | ⟨j, -, row, hrow, hin⟩
        · cases (hrows.gone block hblock p hp).symm.trans hnone
        · exact h.not_mem_row hrows hblock hp hrow hin
    · exact h.not_mem_gap hfill hfound (List.mem_append_left _ hin)
  kept := by
    intro first hfirst
    have hfound : first ∈ detection.places :=
      mem_places.2 ⟨block, hblock, List.mem_of_mem_head? hfirst⟩
    obtain ⟨definition, hdefinition⟩ : ∃ definition, block.definition? = some definition :=
      ⟨_, by rw [DetectedBlock.definition?, hfirst]; rfl⟩
    obtain ⟨loop, hloop⟩ := hrows.kept block hblock first hfirst definition hdefinition
    have hne : first.tree ≠ root.tree := fun heq => h.ne_root hfound (congrArg Tree.id heq)
    have hout : ∀ m ∈ root.tree.nodes, first.tree ∈ m.nodes → m ≠ first.tree →
        rows m.id = none := by
      intro m hm hin hother
      by_contra hsome
      obtain ⟨row, hrow⟩ := Option.ne_none_iff_exists'.1 hsome
      obtain ⟨other, hmem, q, hq, heq⟩ := hrows.source m.id row hrow
      have hq : q ∈ detection.places := mem_places.2 ⟨other, hmem, hq⟩
      obtain rfl := h.tree_eq hq hm heq.symm
      have hne : first.id ≠ q.id := fun heq => hother (h.tree_eq hfound hm heq.symm)
      exact (h.apart hq (h.sound.mem_descend hfound) (h.sound.claimed first hfound).1 hne).2
        (Tree.id_mem_ids_of_mem_nodes hin)
    obtain ⟨parent, hparent, before, after, hchildren⟩ :=
      Tree.exists_parent_of_row (h.mem_nodes hfound) hne hloop hout
    have htype := DetectedBlock.type_of_mem_definition? hdefinition
    exact ⟨parent, hparent, before, loop.opening, loop.card.tree, loop.closing, after, loop.card.id,
      htype ▸ hchildren⟩

/-- What refers to a setting of a block is printed in the loop of the block. -/
theorem inLoop (hplain : root.tree.Braceless) {allowed : Owner → String → Prop}
    (hsound : (root.tree.exchangeBelow rows).AllSound allowed) {before after : List Liquid.Token}
    {k : Liquid.Token} (hk : k.RefersToBlock)
    (htokens : tokens (root.tree.exchangeBelow rows).inner.toList = before ++ k :: after) :
    ∃ block ∈ detection.blocks, ∃ definition ∈ block.definition?, InLoop block.type before k after ∧
      ∀ id ∈ pathIds .block k.content, id ∈ definition.ids := by
  rw [Tree.tokens_inner hsound, Tree.children_exchangeBelow, List.flatMap_assoc] at htokens
  obtain ⟨c, hc, hin⟩ := (isIn_self htokens).exists_of_flatMap
  have hchild : c.Braceless := fun n hn =>
    hplain n (Tree.nodes_trans (Tree.mem_nodes_of_mem_children hc) hn)
  obtain ⟨i, row, inVoid, hrow, hin⟩ := Tree.exists_row_of_isIn hchild false hin
  rcases hrows.row_cases hrow with
    rfl | ⟨block, hblock, first, hfirst, definition, hdefinition, loop, rfl⟩
  · exact absurd hin not_isIn_nil
  · have hfound : first ∈ detection.places :=
      mem_places.2 ⟨block, hblock, List.mem_of_mem_head? hfirst⟩
    have htype := DetectedBlock.type_of_mem_definition? hdefinition
    have hold : first.tree.Braceless := fun n hn =>
      hplain n (Tree.nodes_trans (h.mem_nodes hfound) hn)
    have hlooped := loop.inLoop_of_isIn hold (htype ▸ h.types block hblock) hk hin
    exact ⟨block, hblock, definition, hdefinition, htype ▸ hlooped⟩

end Detection.Collapsible

/-- What is found from a node of a document down can be collapsed, if binding leaves each element
that is kept in its place. -/
theorem Detection.collapsible_detect {d : Document} {root : Place} (hd : d.Distinct)
    (hroot : root ∈ d.places) (options : Options) (excluded : List NodeId)
    (hspares : ∀ block ∈ (detect root options excluded).blocks, ∀ first ∈ block.places.head?,
      first.id ≠ root.id ∧ block.pattern.role.Spares first) :
    (detect root options excluded).Collapsible d root excluded where
  distinct := hd
  mem := hroot
  sound := sound_detect root options excluded
  types := fun _ hblock => isName_of_known (known_of_mem_detect hblock)
  headers := role_ne_header
  spares := hspares

namespace BlockPass

/-- Whatever the options are and whatever is excluded: where binding leaves each element that is
kept in its place, every block that is found has one record for each of its elements, in document
order. The elements after the first are out of the tree, the first stands between the opening and
the closing of its loop, and what was matched beyond the maximum stays. If the page has no braces,
every reference to a setting of a block is in the loop of that block. -/
theorem collapsed_collapseAll {d : Document} {root : Place} (slug : String) (options : Options)
    (excluded : List NodeId) (hd : d.Distinct) (hroot : root ∈ d.places)
    (hspares : ∀ block ∈ (Detection.detect root options excluded).blocks,
      ∀ first ∈ block.places.head?, first.id ≠ root.id ∧ block.pattern.role.Spares first) :
    let detection := Detection.detect root options excluded
    let collapsed := collapseAll slug detection.blocks d
    ∃ page, collapsed.1.place? root.id = some page ∧
      (∀ block ∈ detection.blocks, block.Collapsed page ∧ block.places.Sublist root.descend ∧
        collapsed.2.records.filter (·.type == block.type) = block.records slug ∧
        (block.records slug).length = block.places.length) ∧
      (∃ matched, detection.Matches root excluded matched ∧
        ∀ p ∈ matched.flatten, p ∉ detection.places → p.tree ∈ page.tree.nodes) ∧
      (root.tree.Braceless → ∀ before k after,
        tokens page.tree.inner.toList = before ++ k :: after → k.RefersToBlock →
          ∃ block ∈ detection.blocks, ∃ definition ∈ block.definition?,
            InLoop block.type before k after ∧
              ∀ id ∈ pathIds .block k.content, id ∈ definition.ids) := by
  intro detection collapsed
  have h : detection.Collapsible d root excluded :=
    Detection.collapsible_detect hd hroot options excluded hspares
  obtain ⟨g, -, hfill⟩ := exists_fill hroot
  obtain ⟨rows, out, hrows, htrees⟩ := h.exists_looped slug hfill (List.append_nil _).symm
  obtain ⟨touched, hevolves⟩ := h.evolves slug (List.append_nil _).symm
  have hpage : (⟨root.tree.exchangeBelow rows, g.above⟩ : Place) ∈ collapsed.1.places :=
    mem_places_fill htrees
  refine ⟨⟨root.tree.exchangeBelow rows, g.above⟩, hevolves.distinct.place? hpage,
    fun block hblock => ?_, ?_, fun hplain before k after htokens hk => ?_⟩
  · refine ⟨h.collapsed hrows hfill hblock, h.sound.ordered block hblock, ?_,
      DetectedBlock.length_records⟩
    rw [collapseAll_records]
    exact DetectedBlock.filter_flatMap_records slug h.sound.types hblock
  · obtain ⟨matched, hmatched⟩ := Detection.exists_matches_detect root options excluded
    refine ⟨matched, hmatched, fun p hp hnot => ?_⟩
    obtain ⟨found, hfound, hin⟩ := List.mem_flatten.1 hp
    have hbelow := hmatched.below found hfound hin
    refine h.mem_exchangeBelow hrows (fun _ => id) hbelow ?_ fun block hblock q hq heq => ?_
    · show p.id ∈ (Detection.detect root options excluded).claimed
      rw [hmatched.claimed]
      exact List.mem_append_right _ (List.mem_map_of_mem hp)
    · have hq' : q ∈ detection.places := Detection.mem_places.2 ⟨block, hblock, hq⟩
      exact hnot (h.root_distinct.eq_of_id_eq hbelow (h.sound.mem_descend hq') heq ▸ hq')
  · have hapart : BlocksApart (d.Reach root) d detection.blocks :=
      h.blocksApart (fun _ => Or.inl) fun _ => Or.inr
    rw [← List.append_nil detection.blocks] at hapart
    have hturns := turns_collapseAll slug hapart
    have hsound := Tree.allSound_of_soundIn (hturns.soundIn hd (hd.soundIn_reach hroot hplain _)
      fun _ => Or.inr) (tree_mem_nodes hpage) (Or.inl root.tree.id_mem_ids)
    exact h.inLoop hrows hplain hsound hk htokens

/-- The two cards of a page come to one, in a loop that all references stand in. -/
theorem collapsed_cardPage :
    let page := SectionContent.cardPage
    let detection := Detection.detect page.body {} []
    let collapsed := collapseAll "home" detection.blocks page
    page.Distinct ∧ page.body ∈ page.places ∧ page.body.tree.Braceless ∧
      (detection.blocks.map fun block => (block.type, block.places.length)) = [("card", 2)] ∧
      (∀ block ∈ detection.blocks, ∀ first ∈ block.places.head?,
        first.id ≠ page.body.id ∧ block.pattern.role.Spares first) ∧
      ∃ body, collapsed.1.place? page.body.id = some body ∧
        (∀ block ∈ detection.blocks, block.Collapsed body) ∧
        ∀ before k after, tokens body.tree.inner.toList = before ++ k :: after → k.RefersToBlock →
          ∃ block ∈ detection.blocks, InLoop block.type before k after := by
  obtain ⟨hfound, hspares⟩ : ((Detection.detect SectionContent.cardPage.body {} []).blocks.map
        fun block => (block.type, block.places.length)) = [("card", 2)] ∧
      ∀ block ∈ (Detection.detect SectionContent.cardPage.body {} []).blocks,
        ∀ first ∈ block.places.head?, first.id ≠ SectionContent.cardPage.body.id ∧
          block.pattern.role.Spares first := by
    decide +kernel
  obtain ⟨body, hbody, hblocks, -, hloops⟩ := collapsed_collapseAll "home" {} []
    SectionContent.distinct_cardPage (body_mem_places _) hspares
  refine ⟨SectionContent.distinct_cardPage, body_mem_places _, SectionContent.braceless_cardPage,
    hfound, hspares, body, hbody, fun block hblock => (hblocks block hblock).1,
    fun before k after htokens hk => ?_⟩
  obtain ⟨block, hblock, definition, -, hloop, -⟩ :=
    hloops SectionContent.braceless_cardPage before k after htokens hk
  exact ⟨block, hblock, hloop⟩

end BlockPass

end ThemeSection
