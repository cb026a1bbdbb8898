import ThemeSection.Proofs.Block.Held
import ThemeSection.Proofs.Block.Detection
import ThemeSection.Proofs.Content.Output
import ThemeSection.Proofs.Markup.Exchange

/-!
Where the loops of a page stand. Where binding leaves the kept elements in their places, collapsing
all blocks comes to one change of the page: every kept element gives way to a row of the opening of
its loop, the element as it is bound, and the closing, and the other elements go. So each loop is in
the page, and what is written for a block stands inside of its loop.
-/

namespace ThemeSection

open Markup Liquid Document BlockDefinition

namespace Document

variable {d : Document} {g : Gap} {t : Tree} {x : NodeId} {out : List Tree}

theorem exists_trees_detachAll {ys : List NodeId} (hd : d.Distinct)
    (hfill : d.trees = g.fill t ++ out) (hys : ∀ y ∈ ys, y ∉ g.ids ∧ t.id ≠ y) :
    ∃ out', (d.detachAll ys).trees = g.fill (t.exchangeBelow (.gone ys)) ++ out' := by
  induction ys generalizing d t out with
  | nil =>
    have hnone : t.exchangeBelow (.gone []) = t := Tree.exchangeBelow_of_forall fun _ _ => rfl
    exact ⟨out, by rwa [hnone]⟩
  | cons y ys ih =>
    obtain ⟨hy, hys⟩ := List.forall_mem_cons.1 hys
    obtain ⟨more, htrees⟩ := hd.exists_trees_detach y
    obtain ⟨out', hfill'⟩ := trees_splice_fill hfill htrees hy.1 hy.2
    rw [Tree.splice_eq_exchangeBelow] at hfill'
    obtain ⟨rest, hrest⟩ := ih (evolves_detach hd y).distinct hfill' hys
    rw [Tree.exchangeBelow_exchangeBelow, Tree.andThen_only_gone] at hrest
    exact ⟨rest, hrest⟩

end Document

/-- An element as it is bound, in place of what stood there. -/
structure Card (next : NodeId) (definition : BlockDefinition) (old : Tree) where
  tree : Tree
  id : tree.id = old.id
  isElement : tree.isElement
  ids : ∀ i ∈ tree.ids, i < next → i ∈ old.ids
  sound : old.Braceless → tree.AllSound definition.Allows

/-- The loop that an element is put into when it is kept of a block. -/
structure Loop (next : NodeId) (definition : BlockDefinition) (old : Tree) where
  opening : NodeId
  card : Card next definition old
  closing : NodeId
  new : next ≤ opening ∧ next ≤ closing

namespace Loop

variable {next next' : NodeId} {definition : BlockDefinition} {old : Tree}

def row (loop : Loop next definition old) : List Tree :=
  [.ofText loop.opening (loopOpen definition.type), loop.card.tree, .ofText loop.closing loopClose]

/-- The row in the place of the element, and none in those of the other elements of the block. -/
def rows (loop : Loop next definition old) (others : List NodeId) : Tree.Rows :=
  fun i => if i = old.id then some loop.row else if i ∈ others then some [] else none

/-- The loop as one that was there before ids came into use. -/
def since (loop : Loop next' definition old) (hle : next ≤ next') : Loop next definition old where
  opening := loop.opening
  card := { loop.card with ids := fun i hi hlt => loop.card.ids i hi (Nat.lt_of_lt_of_le hlt hle) }
  closing := loop.closing
  new := loop.new.imp (Nat.le_trans hle) (Nat.le_trans hle)

theorem of_mem_ids_row {loop : Loop next definition old} {i : NodeId}
    (h : i ∈ loop.row.flatMap Tree.ids) : next ≤ i ∨ i ∈ old.ids := by
  obtain ⟨t, ht, hi⟩ := List.mem_flatMap.1 h
  simp only [row, List.mem_cons, List.not_mem_nil, or_false] at ht
  rcases ht with rfl | rfl | rfl
  · exact Or.inl (List.mem_singleton.1 hi ▸ loop.new.1)
  · exact (Nat.lt_or_ge i next).elim (fun hlt => Or.inr (loop.card.ids i hi hlt)) Or.inl
  · exact Or.inl (List.mem_singleton.1 hi ▸ loop.new.2)

/-- The element gives way to its bound form, the others go, and the loop comes to stand around it.
-/
theorem rows_eq (loop : Loop next definition old) {others : List NodeId}
    (hothers : ∀ y ∈ others, y < next ∧ y ∉ old.ids) :
    (fun i => ((Tree.Rows.only old.id [loop.card.tree]).andThen (.gone others) i).map
      (·.flatMap (Tree.spliced old.id fun t => [.ofText loop.opening (loopOpen definition.type), t,
        .ofText loop.closing loopClose]))) = loop.rows others := by
  have hcard : loop.card.tree.exchange (.gone others) = [loop.card.tree] :=
    Tree.exchange_of_forall fun i hi => if_neg fun hmem =>
      (hothers i hmem).2 (loop.card.ids i hi (hothers i hmem).1)
  funext i
  by_cases hid : i = old.id
  · simp [Tree.Rows.andThen, Tree.Rows.only, rows, row, hid, hcard, Tree.spliced, loop.card.id]
  · by_cases hmem : i ∈ others <;>
      simp [Tree.Rows.andThen, Tree.Rows.only, Tree.Rows.gone, rows, hid, hmem]

end Loop

section

variable {d : Document} {g : Gap} {t : Tree} {out : List Tree} {kept : Place}
  {definition : BlockDefinition} {first : BlockInstance}

/-- Binding an element that is spared puts the bound element in its place. -/
theorem exists_card {role : BlockRole} (hd : d.Distinct) (hkept : kept ∈ d.places)
    (helement : kept.isElement) (hspares : role.Spares kept)
    (hsettings : definition.settings = settingsOf role first)
    (hheader : role = .header → definition.settings = headerSettings (.read .header kept)) :
    (definition.bind role kept d).Distinct ∧ d.next ≤ (definition.bind role kept d).next ∧
      ∃ card : Card d.next definition kept.tree, ∃ more,
        (definition.bind role kept d).trees =
          (d.update kept.id fun _ => card.tree).trees ++ more := by
  obtain ⟨g, -, hfill⟩ := exists_fill hkept
  rw [← List.append_nil (g.fill _)] at hfill
  have hdisjoint := (List.nodup_append.1 (hd.nodup_fill hfill)).2.2
  have hout : ∀ i ∈ kept.tree.ids, i ∉ g.ids := fun i hi hin =>
    hdisjoint i hi i (List.mem_append_left _ hin) rfl
  have hseated : role.Seated d g kept := ⟨hd, hkept, hout, hspares⟩
  have hheld := (Held.refl hd hseated.taken_lt hfill).bind hseated hheader
  obtain ⟨card, more, ⟨hid, -, -⟩, hbound⟩ := hheld.exists_fill
  obtain ⟨touched, hevolves⟩ := hheld.evolves
  have hcard : card ∈ (definition.bind role kept d).nodes := tree_mem_nodes (mem_places_fill hbound)
  obtain ⟨m, hm, hbecomes⟩ := (hevolves.source card hcard).old (hid ▸ hd.lt_next_of_place hkept)
  obtain rfl := hd.eq_of_id_eq hm (tree_mem_nodes hkept) (hbecomes.id.symm.trans hid)
  refine ⟨hheld.distinct, hheld.next_le, ⟨card, hid, ?_, hbecomes.below, fun hplain => ?_⟩, more,
    ?_⟩
  · exact hbecomes.isElement.trans helement
  · have hbindable : BlockDefinition.Bindable (d.Reach kept) [] d kept :=
      ⟨hd, hkept, fun _ => Or.inl, fun _ _ => List.not_mem_nil⟩
    have hsound := Turns.soundIn (BlockDefinition.binds_bind hbindable hsettings) hd
      (hd.soundIn_reach hkept hplain _) fun _ => Or.inr
    exact Tree.allSound_of_soundIn hsound hcard (Or.inl (hid ▸ kept.tree.id_mem_ids))
  · have hupdate : (g.fill kept.tree).map (Tree.update kept.id fun _ => card) = g.fill card := by
      have hself : kept.tree.id = kept.id := rfl
      rw [Gap.map_update_fill (hout kept.id kept.tree.id_mem_ids), Tree.update_of_eq hself]
    rw [hbound, trees_update, hfill, List.append_nil]
    exact congrArg (· ++ more) hupdate.symm

/-- Collapsing a block whose kept element is spared puts the loop in the place of the element and
takes the others out. -/
theorem exists_loop {block : DetectedBlock} (hd : d.Distinct) (hfill : d.trees = g.fill t ++ out)
    (hkept : kept ∈ d.places) (hin : kept.tree ∈ t.nodes) (hne : kept.id ≠ t.id)
    (helement : kept.isElement) (hspares : block.pattern.role.Spares kept)
    (htype : definition.type = block.type)
    (hsettings : definition.settings = settingsOf block.pattern.role first)
    (hheader : block.pattern.role = .header →
      definition.settings = headerSettings (.read .header kept))
    {others : List NodeId} (hothers : ∀ y ∈ others,
      y < d.next ∧ y ∉ g.ids ∧ y ≠ t.id ∧ y ∉ kept.tree.ids) :
    ∃ loop : Loop d.next definition kept.tree, ∃ out',
      (BlockPass.collapseMarkup block definition kept.id others d).trees =
        g.fill (t.exchangeBelow (loop.rows others)) ++ out' := by
  obtain ⟨hd', hnext, card, more, hbound⟩ := exists_card hd hkept helement hspares hsettings hheader
  have hdisjoint := (List.nodup_append.1 (hd.nodup_fill hfill)).2.2
  have hout : kept.id ∉ g.ids := fun hmem =>
    hdisjoint _ (Tree.id_mem_ids_of_mem_nodes hin) _ (List.mem_append_left _ hmem) rfl
  obtain ⟨out₁, hfill₁⟩ := trees_update_fill hfill hbound hout
  rw [Tree.update_eq_exchangeBelow (Ne.symm hne)] at hfill₁
  obtain ⟨out₂, hfill₂⟩ := exists_trees_detachAll hd' hfill₁ fun y hy =>
    ⟨(hothers y hy).2.1, (hothers y hy).2.2.1.symm⟩
  rw [Tree.exchangeBelow_exchangeBelow] at hfill₂
  have hmarkup : BlockPass.collapseMarkup block definition kept.id others d =
      ((definition.bind block.pattern.role kept d).detachAll others).wrap kept.id
        (loopOpen block.type) loopClose := by
    rw [BlockPass.collapseMarkup, hd.place? hkept]
  have hnext' : d.next ≤ ((definition.bind block.pattern.role kept d).detachAll others).next := by
    rwa [next_detachAll]
  let loop : Loop d.next definition kept.tree :=
    ⟨_, card, _, hnext', Nat.le_succ_of_le hnext'⟩
  have hwrap : (((definition.bind block.pattern.role kept d).detachAll others).wrap kept.id
      (loopOpen block.type) loopClose).trees = (((definition.bind block.pattern.role kept
        d).detachAll others).splice kept.id fun t => [.ofText loop.opening (loopOpen block.type), t,
          .ofText loop.closing loopClose]).trees ++ [] := (List.append_nil _).symm
  obtain ⟨out₃, hfill₃⟩ := trees_splice_fill hfill₂ hwrap hout (Ne.symm hne)
  have hrow : ((Tree.Rows.only kept.id [card.tree]).andThen (.gone others)) kept.id ≠ none := by
    simp [Tree.Rows.andThen, Tree.Rows.only]
  rw [Tree.splice_exchangeBelow hrow, ← htype] at hfill₃
  refine ⟨loop, out₃, ?_⟩
  rw [hmarkup, ← htype, hfill₃, ← loop.rows_eq fun y hy => ⟨(hothers y hy).1, (hothers y hy).2.2.2⟩]
  rfl

end

/-- The rows that the elements of some blocks give way to. -/
structure Looped (next : NodeId) (blocks : List DetectedBlock) (rows : Tree.Rows) : Prop where
  source : ∀ i row, rows i = some row → ∃ block ∈ blocks, ∃ p ∈ block.places, p.id = i
  kept : ∀ block ∈ blocks, ∀ first ∈ block.places.head?, ∀ definition ∈ block.definition?,
    ∃ loop : Loop next definition first.tree, rows first.id = some loop.row
  gone : ∀ block ∈ blocks, ∀ p ∈ block.places.tail, rows p.id = some []

namespace Looped

variable {next : NodeId} {blocks : List DetectedBlock} {block : DetectedBlock} {rows : Tree.Rows}
  {definition : BlockDefinition} {first : Place} {others : List Place}

theorem nil (next : NodeId) : Looped next [] fun _ => none where
  source := fun _ _ h => nomatch h
  kept := List.forall_mem_nil _
  gone := List.forall_mem_nil _

/-- A row is the loop around an element that was kept, or is empty. -/
theorem row_cases (h : Looped next blocks rows) {i : NodeId} {row : List Tree}
    (hrow : rows i = some row) :
    row = [] ∨ ∃ block ∈ blocks, ∃ first ∈ block.places.head?, ∃ definition ∈ block.definition?,
      ∃ loop : Loop next definition first.tree, row = loop.row := by
  obtain ⟨block, hblock, p, hp, rfl⟩ := h.source i row hrow
  cases hplaces : block.places with
  | nil =>
    rw [hplaces] at hp
    cases hp
  | cons first others =>
    have hhead : first ∈ block.places.head? := by rw [hplaces]; rfl
    rcases List.mem_cons.1 (hplaces ▸ hp) with rfl | hother
    · obtain ⟨definition, hdefinition⟩ : ∃ definition, block.definition? = some definition :=
        ⟨_, by rw [DetectedBlock.definition?, hplaces]; rfl⟩
      obtain ⟨loop, hloop⟩ := h.kept block hblock _ hhead _ hdefinition
      exact Or.inr ⟨block, hblock, _, hhead, _, hdefinition, loop,
        Option.some.inj (hrow.symm.trans hloop)⟩
    · have hgone := h.gone block hblock p (by rwa [hplaces])
      exact Or.inl (Option.some.inj (hrow.symm.trans hgone))

/-- One more block, whose elements stand apart from those of the others. -/
theorem snoc (h : Looped next blocks rows) (hplaces : block.places = first :: others)
    (hdefinition : block.definition? = some definition) (loop : Loop next definition first.tree)
    (hnodup : (block.places.map Place.id).Nodup) (hold : ∀ p ∈ block.places, p.id < next)
    (hapart : ∀ p ∈ block.places, ∀ earlier ∈ blocks, ∀ q ∈ earlier.places, p.id ∉ q.tree.ids) :
    Looped next (blocks ++ [block]) (rows.andThen (loop.rows (others.map Place.id))) := by
  rw [hplaces] at hnodup hold hapart
  have hnew : ∀ i row, loop.rows (others.map Place.id) i = some row →
      ∃ p ∈ first :: others, p.id = i := by
    intro i row hrow
    rw [Loop.rows] at hrow
    split at hrow
    case isTrue heq => exact ⟨first, List.mem_cons_self, heq.symm⟩
    case isFalse =>
      split at hrow
      · obtain ⟨p, hp, heq⟩ := List.mem_map.1 ‹_›
        exact ⟨p, List.mem_cons_of_mem _ hp, heq⟩
      · cases hrow
  have hearlier : ∀ {i row}, rows i = some row →
      rows.andThen (loop.rows (others.map Place.id)) i = some row := by
    intro i row hrow
    have hrest : row.flatMap (Tree.exchange (loop.rows (others.map Place.id))) = row := by
      refine Tree.flatMap_exchange_of_forall fun j hj => ?_
      by_contra hsome
      obtain ⟨row', hrow'⟩ := Option.ne_none_iff_exists'.1 hsome
      obtain ⟨p, hp, rfl⟩ := hnew j row' hrow'
      rcases h.row_cases hrow with rfl | ⟨earlier, hmem, q, hq, _, -, loop', rfl⟩
      · cases hj
      · rcases loop'.of_mem_ids_row hj with hge | hin
        · exact Nat.not_le.2 (hold p hp) hge
        · exact hapart p hp earlier hmem q (List.mem_of_mem_head? hq) hin
    rw [Tree.Rows.andThen, hrow]
    exact congrArg some hrest
  have hnone : ∀ p ∈ first :: others, rows p.id = none := by
    intro p hp
    by_contra hsome
    obtain ⟨row, hrow⟩ := Option.ne_none_iff_exists'.1 hsome
    obtain ⟨earlier, hmem, q, hq, heq⟩ := h.source _ row hrow
    exact hapart p hp earlier hmem q hq (heq ▸ q.tree.id_mem_ids)
  have hlater : ∀ p ∈ first :: others, rows.andThen (loop.rows (others.map Place.id)) p.id =
      loop.rows (others.map Place.id) p.id := fun p hp => by rw [Tree.Rows.andThen, hnone p hp]
  constructor
  case source =>
    intro i row hrow
    cases hsome : rows i with
    | some row' =>
      obtain ⟨earlier, hmem, hsource⟩ := h.source i row' hsome
      exact ⟨earlier, List.mem_append_left _ hmem, hsource⟩
    | none =>
      rw [Tree.Rows.andThen, hsome] at hrow
      obtain ⟨p, hp, heq⟩ := hnew i row hrow
      exact ⟨block, List.mem_append_right _ (List.mem_singleton_self _), p, hplaces ▸ hp, heq⟩
  case kept =>
    intro b hb q hq definition' hdefinition'
    rcases List.mem_append.1 hb with hb | hb
    · obtain ⟨loop', hrow⟩ := h.kept b hb q hq definition' hdefinition'
      exact ⟨loop', hearlier hrow⟩
    · obtain rfl := List.mem_singleton.1 hb
      rw [hplaces] at hq
      obtain rfl := Option.some.inj hq
      obtain rfl := Option.some.inj (hdefinition.symm.trans hdefinition')
      exact ⟨loop, (hlater first List.mem_cons_self).trans (if_pos rfl)⟩
  case gone =>
    intro b hb p hp
    rcases List.mem_append.1 hb with hb | hb
    · exact hearlier (h.gone b hb p hp)
    · obtain rfl := List.mem_singleton.1 hb
      rw [hplaces] at hp
      have hid := List.mem_map_of_mem (f := Place.id) hp
      have hne : p.id ≠ first.id := fun heq => (List.nodup_cons.1 hnodup).1 (heq ▸ hid)
      exact (hlater p (List.mem_cons_of_mem _ hp)).trans ((if_neg hne).trans (if_pos hid))

end Looped

/-- What was found from a node of a document down, where binding leaves each element that is kept in
its place and none is the node itself. -/
structure Detection.Collapsible (d : Document) (root : Place) (excluded : List NodeId)
    (detection : Detection) : Prop where
  distinct : d.Distinct
  mem : root ∈ d.places
  sound : detection.Sound root excluded
  types : ∀ block ∈ detection.blocks, IsName block.type
  headers : ∀ block ∈ detection.blocks.tail, block.pattern.role ≠ .header
  spares : ∀ block ∈ detection.blocks, ∀ first ∈ block.places.head?,
    first.id ≠ root.id ∧ block.pattern.role.Spares first

namespace Detection.Collapsible

variable {d : Document} {root p q : Place} {excluded : List NodeId} {detection : Detection}
  {before after : List DetectedBlock} {block : DetectedBlock} {rows : Tree.Rows} {g : Gap}
  (h : detection.Collapsible d root excluded)
include h

theorem root_distinct : root.Distinct :=
  h.distinct.place_distinct h.mem

theorem mem_nodes (hp : p ∈ detection.places) : p.tree ∈ root.tree.nodes :=
  Place.map_tree_descend root ▸ List.mem_map_of_mem (h.sound.mem_descend hp)

theorem lt_next (hp : p ∈ detection.places) : p.id < d.next :=
  h.distinct.lt_next_of_place (mem_places_descend h.mem (h.sound.mem_descend hp))

theorem not_mem_gap (hfill : d.trees = g.fill root.tree) (hp : p ∈ detection.places) :
    p.id ∉ g.ids := by
  rw [← List.append_nil (g.fill _)] at hfill
  have hdisjoint := (List.nodup_append.1 (h.distinct.nodup_fill hfill)).2.2
  exact fun hin => hdisjoint _ (Place.id_mem_of_mem_descend (h.sound.mem_descend hp)) _
    (List.mem_append_left _ hin) rfl

/-- A node with the id of an element is the element. -/
theorem tree_eq (hp : p ∈ detection.places) {m : Tree} (hm : m ∈ root.tree.nodes)
    (heq : m.id = p.id) : m = p.tree :=
  h.distinct.eq_of_id_eq (nodes_trans (tree_mem_nodes h.mem) hm)
    (tree_mem_nodes (mem_places_descend h.mem (h.sound.mem_descend hp))) heq

/-- Something that is claimed stands in no element of a block, and holds none, unless it is that. -/
theorem apart (hp : p ∈ detection.places) (hq : q ∈ root.descend)
    (hclaimed : q.id ∈ detection.claimed) (hne : q.id ≠ p.id) :
    p.id ∉ q.tree.ids ∧ q.id ∉ p.tree.ids := by
  obtain ⟨hwithin, hbelow⟩ := h.sound.apart h.root_distinct p hp q.id hclaimed hne
  refine ⟨fun hin => hwithin ?_, hbelow⟩
  exact (h.root_distinct.mem_ids_iff (h.sound.mem_descend hp) hq).1 hin

/-- What is claimed and is no element of the blocks so far is as it was. -/
theorem mem_exchangeBelow (hrows : Looped d.next before rows)
    (hbefore : ∀ earlier ∈ before, earlier ∈ detection.blocks) (hq : q ∈ root.descend)
    (hclaimed : q.id ∈ detection.claimed)
    (hnot : ∀ earlier ∈ before, ∀ p ∈ earlier.places, q.id ≠ p.id) :
    q.tree ∈ (root.tree.exchangeBelow rows).nodes := by
  have hsource : ∀ i, rows i ≠ none → ∃ p ∈ detection.places, p.id = i ∧ q.id ≠ p.id := by
    intro i hsome
    obtain ⟨row, hrow⟩ := Option.ne_none_iff_exists'.1 hsome
    obtain ⟨earlier, hmem, p, hp, heq⟩ := hrows.source i row hrow
    exact ⟨p, mem_places.2 ⟨earlier, hbefore earlier hmem, hp⟩, heq, hnot earlier hmem p hp⟩
  refine Tree.mem_exchangeBelow ?_ (fun i hi => ?_) fun m hm hin => ?_
  · rw [← Place.map_tree_descend]
    exact List.mem_map_of_mem hq
  · by_contra hsome
    obtain ⟨p, hp, rfl, hne⟩ := hsource i hsome
    exact (h.apart hp hq hclaimed hne).1 hi
  · by_contra hsome
    obtain ⟨p, hp, heq, hne⟩ := hsource m.id hsome
    obtain rfl := h.tree_eq hp hm heq.symm
    exact (h.apart hp hq hclaimed hne).2 (Tree.id_mem_ids_of_mem_nodes hin)

/-- The node itself is no element of a block. -/
theorem ne_root (hp : p ∈ detection.places) : p.id ≠ root.id := by
  intro heq
  obtain rfl :=
    h.root_distinct.eq_of_id_eq (h.sound.mem_descend hp) (Place.self_mem_descend root) heq
  obtain ⟨block, hblock, hmem⟩ := mem_places.1 hp
  obtain ⟨first, others, hplaces⟩ := List.exists_cons_of_ne_nil (h.sound.nonempty block hblock)
  have hfirst : first ∈ detection.places :=
    mem_places.2 ⟨block, hblock, hplaces ▸ List.mem_cons_self⟩
  have hne := (h.spares block hblock first (by rw [hplaces]; rfl)).1
  exact (h.apart hp (h.sound.mem_descend hfirst) (h.sound.claimed first hfirst).1 hne).2
    (Place.id_mem_of_mem_descend (h.sound.mem_descend hfirst))

theorem blocksApart {scope : NodeId → Prop} (hscope : ∀ i ∈ root.tree.ids, scope i)
    (hnew : ∀ i, d.next ≤ i → scope i) : BlocksApart scope d detection.blocks :=
  blocksApart_of_sound h.distinct h.mem h.sound h.types hscope hnew

theorem evolves (slug : String) (hblocks : detection.blocks = before ++ after) :
    ∃ touched, d.Evolves touched (BlockPass.collapseAll slug before d).1 := by
  have hapart : BlocksApart (fun _ => True) d detection.blocks :=
    h.blocksApart (fun _ _ => trivial) fun _ _ => trivial
  rw [hblocks] at hapart
  exact (BlockPass.turns_collapseAll slug hapart).evolves h.distinct

/-- The elements of a block stand apart from those of the blocks before it. -/
theorem ne_earlier (hblocks : detection.blocks = before ++ block :: after) (hp : p ∈ block.places)
    {earlier : DetectedBlock} (hearlier : earlier ∈ before) (hq : q ∈ earlier.places) :
    p.id ≠ q.id := by
  have hids := h.sound.ids h.root_distinct
  rw [places, hblocks, List.flatMap_append, List.flatMap_cons, List.map_append,
    List.map_append] at hids
  refine Ne.symm ((List.nodup_append.1 hids).2.2 _ ?_ _ (List.mem_append_left _ ?_))
  · exact List.mem_map_of_mem (List.mem_flatMap.2 ⟨earlier, hearlier, hq⟩)
  · exact List.mem_map_of_mem hp

/-- The element that is kept of the next block is as it was, and it is spared where it stands now.
-/
theorem exists_kept (slug : String) (hblocks : detection.blocks = before ++ block :: after)
    {first : Place} (hfirst : first ∈ block.places.head?)
    (hmem : first.tree ∈ (BlockPass.collapseAll slug before d).1.nodes) :
    ∃ kept ∈ (BlockPass.collapseAll slug before d).1.places, kept.tree = first.tree ∧
      block.pattern.role.Spares kept ∧ (block.pattern.role = .header → kept = first) := by
  have hblock : block ∈ detection.blocks := by simp [hblocks]
  have hplace : first ∈ d.places := mem_places_descend h.mem
    (h.sound.mem_descend (mem_places.2 ⟨block, hblock, List.mem_of_mem_head? hfirst⟩))
  obtain ⟨-, hspares⟩ := h.spares block hblock first hfirst
  cases before with
  | nil => exact ⟨first, hplace, rfl, hspares, fun _ => rfl⟩
  | cons earlier before =>
    have hrole : block.pattern.role ≠ .header := h.headers block (by simp [hblocks])
    obtain ⟨touched, hevolves⟩ := h.evolves slug hblocks
    obtain ⟨kept, hkept⟩ := exists_place? (id_mem_ids hmem)
    have hin := mem_places_of_place? hkept
    have htree := hevolves.distinct.eq_of_id_eq (tree_mem_nodes hin) hmem (id_of_place? hkept)
    exact ⟨kept, hin, htree, hspares.of_tree_eq hrole (h.distinct.place_distinct hplace)
      (hevolves.distinct.place_distinct hin) htree, fun heq => absurd heq hrole⟩

/-- What collapsing one more block comes to. -/
theorem exists_looped_snoc (slug : String) (hfill : d.trees = g.fill root.tree)
    (hblocks : detection.blocks = before ++ block :: after) (hrows : Looped d.next before rows)
    {out : List Tree} (htrees : (BlockPass.collapseAll slug before d).1.trees =
      g.fill (root.tree.exchangeBelow rows) ++ out) :
    ∃ rows' out', Looped d.next (before ++ [block]) rows' ∧
      (BlockPass.collapseAll slug (before ++ [block]) d).1.trees =
        g.fill (root.tree.exchangeBelow rows') ++ out' := by
  have hblock : block ∈ detection.blocks := by simp [hblocks]
  obtain ⟨first, others, hplaces⟩ := List.exists_cons_of_ne_nil (h.sound.nonempty block hblock)
  have hhead : first ∈ block.places.head? := by rw [hplaces]; rfl
  have hfirst : first ∈ block.places := List.mem_of_mem_head? hhead
  have hfound : ∀ p ∈ block.places, p ∈ detection.places := fun p hp =>
    mem_places.2 ⟨block, hblock, hp⟩
  have hbelow : ∀ p ∈ block.places, p ∈ root.descend := fun p hp =>
    h.sound.mem_descend (hfound p hp)
  have hclaimed : ∀ p ∈ block.places, p.id ∈ detection.claimed := fun p hp =>
    (h.sound.claimed p (hfound p hp)).1
  have hbefore : ∀ earlier ∈ before, earlier ∈ detection.blocks := fun earlier hearlier =>
    hblocks ▸ List.mem_append_left _ hearlier
  obtain ⟨touched, hevolves⟩ := h.evolves slug hblocks
  have hold : ∀ p ∈ block.places, p.id < d.next := fun p hp => h.lt_next (hfound p hp)
  -- The element is where it was in the page as it is now.
  have hin := h.mem_exchangeBelow hrows hbefore (hbelow first hfirst) (hclaimed first hfirst)
    fun earlier hearlier q hq => h.ne_earlier hblocks hfirst hearlier hq
  have hpage : root.tree.exchangeBelow rows ∈ (BlockPass.collapseAll slug before d).1.nodes :=
    tree_mem_nodes (mem_places_fill htrees)
  obtain ⟨⟨tree, above⟩, hkept, htree, hspares, hheader⟩ :=
    h.exists_kept slug hblocks hhead (nodes_trans hpage hin)
  obtain rfl : tree = first.tree := htree
  have helement : first.isElement := h.sound.elements first (hfound first hfirst)
  have hnodup := h.root_distinct.nodup_of_sublist (h.sound.ordered block hblock)
  have hothers : ∀ y ∈ others.map Place.id, y < (BlockPass.collapseAll slug before d).1.next ∧
      y ∉ g.ids ∧ y ≠ (root.tree.exchangeBelow rows).id ∧ y ∉ first.tree.ids := by
    rw [hplaces, List.map_cons, List.nodup_cons] at hnodup
    refine List.forall_mem_map.2 fun p hp => ?_
    have hp' : p ∈ block.places := hplaces ▸ List.mem_cons_of_mem _ hp
    have hne : first.id ≠ p.id := fun heq => hnodup.1 (heq ▸ List.mem_map_of_mem hp)
    exact ⟨Nat.lt_of_lt_of_le (hold p hp') hevolves.next_le,
      h.not_mem_gap hfill (hfound p hp'), h.ne_root (hfound p hp'),
      (h.apart (hfound p hp') (hbelow first hfirst) (hclaimed first hfirst) hne).1⟩
  let definition := BlockDefinition.ofInstance block.pattern (.read block.pattern.role first)
  have hsettings : definition.settings =
      settingsOf block.pattern.role (.read block.pattern.role first) := rfl
  have htype : definition.type = block.type := rfl
  obtain ⟨loop, out', htrees'⟩ := exists_loop hevolves.distinct htrees hkept hin
    (h.spares block hblock first hhead).1 helement hspares htype hsettings
    (fun hrole => by
      rw [hheader hrole, hsettings, hrole]
      rfl) hothers
  refine ⟨_, out', hrows.snoc hplaces (by rw [DetectedBlock.definition?, hplaces]; rfl)
    (loop.since hevolves.next_le) hnodup hold fun p hp earlier hearlier q hq => ?_, ?_⟩
  · have hq' : q ∈ detection.places := mem_places.2 ⟨earlier, hbefore earlier hearlier, hq⟩
    exact (h.apart hq' (hbelow p hp) (hclaimed p hp) (h.ne_earlier hblocks hp hearlier hq)).2
  · have hcollapse : (BlockPass.collapseAll slug (before ++ [block]) d).1 =
        BlockPass.collapseMarkup block definition first.id (others.map Place.id)
          (BlockPass.collapseAll slug before d).1 := by
      rw [BlockPass.collapseAll_append, BlockPass.collapse, hplaces]
    rw [hcollapse, ← Tree.exchangeBelow_exchangeBelow]
    exact htrees'

/-- Collapsing some of the blocks, in their order, changes the node by rows in the places of their
elements. -/
theorem exists_looped (slug : String) (hfill : d.trees = g.fill root.tree)
    (hblocks : detection.blocks = before ++ after) :
    ∃ rows out, Looped d.next before rows ∧
      (BlockPass.collapseAll slug before d).1.trees =
        g.fill (root.tree.exchangeBelow rows) ++ out := by
  induction before using List.reverseRecOn generalizing after with
  | nil =>
    have hnone : root.tree.exchangeBelow (fun _ => none) = root.tree :=
      Tree.exchangeBelow_of_forall fun _ _ => rfl
    exact ⟨_, [], .nil _, by rw [hnone, List.append_nil]; exact hfill⟩
  | append_singleton before block ih =>
    have hblocks' : detection.blocks = before ++ block :: after := by
      rw [hblocks, List.append_assoc, List.singleton_append]
    obtain ⟨rows, out, hrows, htrees⟩ := ih hblocks'
    exact h.exists_looped_snoc slug hfill hblocks' hrows htrees

end Detection.Collapsible

end ThemeSection
