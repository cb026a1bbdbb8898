import ThemeSection.Block.Detection
import ThemeSection.Proofs.Fragment.Siblings

/-!
What holds of the blocks that are found on a page, whatever the patterns are. Every step of the
detection, be it a pattern or a group of siblings, offers elements that are free and of which none
stands in another; `Detection.Sound` is what a step keeps, and with it the whole detection. The
claimed nodes carry the argument: they include the elements above a pattern's maximum, which become
no blocks. `Detection.Matches` tells them apart by the step that claimed them.
-/

namespace ThemeSection

open Markup

theorem Markup.Place.isElement_of_holds {selector : Selector} {p : Place}
    (h : selector.holds p) : p.isElement := by
  obtain ⟨complex, -, hcomplex⟩ := List.any_eq_true.1 h
  have hmeets := (Bool.and_eq_true_iff.1 hcomplex).1
  unfold Selector.meets at hmeets
  rw [Place.isElement, Tree.isElement]
  split at hmeets <;> simp_all

namespace Detection

/-- The elements of all blocks, block by block. -/
def places (d : Detection) : List Place :=
  d.blocks.flatMap (·.places)

/-- What every step of a detection from `root` down keeps. Elements are told apart by their ids, so
that they are different and apart is said of trees in which ids are distinct. -/
structure Sound (root : Place) (excluded : List NodeId) (d : Detection) : Prop where
  types : (d.blocks.map (·.type)).Nodup
  excluded_claimed : ∀ id ∈ excluded, id ∈ d.claimed
  /-- Whatever is claimed, and not excluded from the start, stands below the root. -/
  claimed_below : ∀ id ∈ d.claimed, id ∈ excluded ∨ id ∈ root.tree.ids
  ordered : ∀ block ∈ d.blocks, block.places.Sublist root.descend
  elements : ∀ p ∈ d.places, p.isElement
  ids : root.Distinct → (d.places.map Place.id).Nodup
  claimed : ∀ p ∈ d.places, p.id ∈ d.claimed ∧ p.id ∉ excluded
  /-- An element neither stands in another claimed node nor holds one. -/
  apart : root.Distinct →
    ∀ p ∈ d.places, ∀ id ∈ d.claimed, id ≠ p.id → ¬ p.isWithin id ∧ id ∉ p.tree.ids
  nonempty : ∀ block ∈ d.blocks, block.places ≠ []
  atMost : ∀ block ∈ d.blocks, block.places.length ≤ block.pattern.max
  atLeast : ∀ block ∈ d.blocks,
    block.pattern.min ≤ block.places.length ∨ block.places.length = block.pattern.max

/-- Elements that a step may claim: free ones in document order, of which none stands in another. -/
structure Offered (root : Place) (d : Detection) (offered : List Place) : Prop where
  ordered : offered.Sublist root.descend
  elements : ∀ p ∈ offered, p.isElement
  free : ∀ p ∈ offered, d.isFree p
  apart : root.Distinct → ∀ p ∈ offered, ∀ q ∈ offered, q.id ≠ p.id → ¬ p.isWithin q.id

variable {root : Place} {excluded : List NodeId} {d : Detection}

theorem mem_places {p : Place} : p ∈ d.places ↔ ∃ block ∈ d.blocks, p ∈ block.places :=
  List.mem_flatMap

theorem isFree_iff {p : Place} :
    d.isFree p ↔ ∀ id ∈ d.claimed, ¬ p.isWithin id ∧ id ∉ p.tree.ids := by
  simp [isFree]

theorem Sound.mem_descend (h : d.Sound root excluded) {p : Place} (hp : p ∈ d.places) :
    p ∈ root.descend := by
  obtain ⟨block, hblock, hp⟩ := mem_places.1 hp
  exact (h.ordered block hblock).subset hp

/-- At the start nothing but the excluded nodes is claimed. -/
theorem sound_start : ({ claimed := excluded } : Detection).Sound root excluded where
  types := List.nodup_nil
  excluded_claimed := fun _ h => h
  claimed_below := fun _ h => Or.inl h
  ordered := List.forall_mem_nil _
  elements := List.forall_mem_nil _
  ids := fun _ => List.nodup_nil
  claimed := List.forall_mem_nil _
  apart := fun _ => List.forall_mem_nil _
  nonempty := List.forall_mem_nil _
  atMost := List.forall_mem_nil _
  atLeast := List.forall_mem_nil _

/-- Warnings are no part of what is kept. -/
theorem Sound.withWarnings (h : d.Sound root excluded) (warnings : List DetectionWarning) :
    ({ d with warnings } : Detection).Sound root excluded :=
  { h with }

/-- Either nothing but the warnings changes, or the type is new and there are enough elements: then
the block takes the first of them and all are claimed. -/
theorem claim_cases (d : Detection) (pattern : BlockPattern) (offered : List Place) :
    (∃ warnings, d.claim pattern offered = { d with warnings }) ∨
      pattern.min ≤ offered.length ∧ pattern.type ∉ d.blocks.map (·.type) ∧
        ∃ warnings, d.claim pattern offered =
          { blocks := d.blocks ++ [⟨pattern, offered.take pattern.max⟩]
            warnings
            claimed := d.claimed ++ offered.map Place.id } := by
  unfold claim
  split
  · exact Or.inl ⟨d.warnings, rfl⟩
  · split
    · exact Or.inl ⟨_, rfl⟩
    · rename_i hfew hold
      refine Or.inr ⟨by omega, ?_, _, rfl⟩
      simpa [List.mem_map] using hold

/-- A free element is none of the claimed ones. -/
theorem id_ne_of_isFree {p : Place} (hp : d.isFree p) {id : NodeId} (hid : id ∈ d.claimed) :
    id ≠ p.id := by
  rintro rfl
  exact (isFree_iff.1 hp _ hid).1 (by simp [Place.isWithin])

/-- Taking free elements of which none stands in another keeps everything, for a new type whose
bounds are positive. -/
theorem Sound.take (h : d.Sound root excluded) {pattern : BlockPattern}
    {offered : List Place} (ho : Offered root d offered) (hmin : 1 ≤ pattern.min)
    (hmax : 1 ≤ pattern.max) (hlength : pattern.min ≤ offered.length)
    (hnew : pattern.type ∉ d.blocks.map (·.type)) (warnings : List DetectionWarning) :
    ({ blocks := d.blocks ++ [⟨pattern, offered.take pattern.max⟩]
       warnings
       claimed := d.claimed ++ offered.map Place.id } : Detection).Sound root excluded := by
  have htaken : (offered.take pattern.max).Sublist offered := List.take_sublist _ _
  have hplaces : ∀ p, p ∈ (⟨d.blocks ++ [⟨pattern, offered.take pattern.max⟩], warnings,
      d.claimed ++ offered.map Place.id⟩ : Detection).places ↔
        p ∈ d.places ∨ p ∈ offered.take pattern.max := by
    simp [places]
  have hfree : ∀ p ∈ offered, ∀ id ∈ d.claimed, id ≠ p.id := fun p hp _ hid =>
    id_ne_of_isFree (ho.free p hp) hid
  constructor
  case types =>
    simp only [List.map_append, List.map_cons, List.map_nil]
    exact List.nodup_append.2 ⟨h.types, List.nodup_singleton _, by
      rintro _ ha _ hb rfl
      obtain rfl := List.mem_singleton.1 hb
      exact hnew ha⟩
  case excluded_claimed =>
    exact fun id hid => List.mem_append_left _ (h.excluded_claimed id hid)
  case claimed_below =>
    intro id hid
    rcases List.mem_append.1 hid with hid | hid
    · exact h.claimed_below id hid
    · obtain ⟨p, hp, rfl⟩ := List.mem_map.1 hid
      exact Or.inr (Place.id_mem_of_mem_descend (ho.ordered.subset hp))
  case ordered =>
    intro block hblock
    rcases List.mem_append.1 hblock with hblock | hblock
    · exact h.ordered block hblock
    · obtain rfl := List.mem_singleton.1 hblock
      exact htaken.trans ho.ordered
  case elements =>
    intro p hp
    rcases (hplaces p).1 hp with hp | hp
    · exact h.elements p hp
    · exact ho.elements p (htaken.subset hp)
  case ids =>
    intro hroot
    have hoffered : (offered.map Place.id).Nodup := hroot.nodup_of_sublist ho.ordered
    simp only [places, List.flatMap_append, List.flatMap_singleton, List.map_append]
    refine List.nodup_append.2 ⟨h.ids hroot, hoffered.sublist (htaken.map Place.id), ?_⟩
    rintro _ ha _ hb rfl
    obtain ⟨p, hp, hid⟩ := List.mem_map.1 ha
    obtain ⟨q, hq, rfl⟩ := List.mem_map.1 hb
    exact hfree q (htaken.subset hq) p.id (h.claimed p hp).1 hid
  case claimed =>
    intro p hp
    rcases (hplaces p).1 hp with hp | hp
    · exact ⟨List.mem_append_left _ (h.claimed p hp).1, (h.claimed p hp).2⟩
    · have hp := htaken.subset hp
      exact ⟨List.mem_append_right _ (List.mem_map_of_mem hp), fun hid =>
        hfree p hp p.id (h.excluded_claimed _ hid) rfl⟩
  case apart =>
    intro hroot p hp id hid hne
    rcases (hplaces p).1 hp with hp | hp <;> rcases List.mem_append.1 hid with hid | hid
    · exact h.apart hroot p hp id hid hne
    · obtain ⟨q, hq, rfl⟩ := List.mem_map.1 hid
      have hpq := isFree_iff.1 (ho.free q hq) p.id (h.claimed p hp).1
      have hpd := h.mem_descend hp
      have hqd := ho.ordered.subset hq
      exact ⟨fun hw => hpq.2 ((hroot.mem_ids_iff hpd hqd).2 hw),
        fun hm => hpq.1 ((hroot.mem_ids_iff hqd hpd).1 hm)⟩
    · exact isFree_iff.1 (ho.free p (htaken.subset hp)) id hid
    · obtain ⟨q, hq, rfl⟩ := List.mem_map.1 hid
      have hp := htaken.subset hp
      exact ⟨ho.apart hroot p hp q hq hne, fun hm => ho.apart hroot q hq p hp hne.symm
        ((hroot.mem_ids_iff (ho.ordered.subset hq) (ho.ordered.subset hp)).1 hm)⟩
  case nonempty =>
    intro block hblock
    rcases List.mem_append.1 hblock with hblock | hblock
    · exact h.nonempty block hblock
    · obtain rfl := List.mem_singleton.1 hblock
      intro hnil
      have := congrArg List.length hnil
      simp only [List.length_take, List.length_nil] at this
      omega
  case atMost =>
    intro block hblock
    rcases List.mem_append.1 hblock with hblock | hblock
    · exact h.atMost block hblock
    · obtain rfl := List.mem_singleton.1 hblock
      exact List.length_take_le _ _
  case atLeast =>
    intro block hblock
    rcases List.mem_append.1 hblock with hblock | hblock
    · exact h.atLeast block hblock
    · obtain rfl := List.mem_singleton.1 hblock
      simp only [List.length_take]
      omega

/-- A step that may not find enough elements, or finds its type taken, keeps everything as well. -/
theorem Sound.claim (h : d.Sound root excluded) {pattern : BlockPattern}
    {offered : List Place} (ho : Offered root d offered) (hmin : 1 ≤ pattern.min)
    (hmax : 1 ≤ pattern.max) : (d.claim pattern offered).Sound root excluded := by
  rcases claim_cases d pattern offered with ⟨warnings, heq⟩ | ⟨hlength, hnew, warnings, heq⟩
  · rw [heq]
    exact h.withWarnings warnings
  · rw [heq]
    exact h.take ho hmin hmax hlength hnew warnings

/-- The outermost of some selected elements, as far as they are free. -/
theorem offered_of_select (selector : Selector) (accepts : Place → Bool) :
    Offered root d (Fragment.outermost
      ((root.select selector).filter fun p => d.isFree p && accepts p)) where
  ordered := List.filter_sublist.trans
    (List.filter_sublist.trans (Place.select_sublist root selector))
  elements := by
    intro p hp
    have hp := List.mem_of_mem_filter (List.mem_of_mem_filter hp)
    exact Place.isElement_of_holds (List.of_mem_filter hp)
  free := by
    intro p hp
    have hp := List.of_mem_filter (List.mem_of_mem_filter hp)
    exact (Bool.and_eq_true_iff.1 hp).1
  apart := by
    intro _ p hp q hq hne hw
    have hq := List.mem_of_mem_filter hq
    have hp := List.of_mem_filter hp
    simp only [Bool.not_eq_true', List.any_eq_false, Bool.not_eq_true, beq_eq_false_iff_ne] at hp
    simp only [Place.isWithin, Bool.or_eq_true, beq_iff_eq, List.any_eq_true] at hw
    rcases hw with hid | ⟨level, hlevel, hid⟩
    · exact hne hid.symm
    · exact hp level hlevel q hq hid.symm

/-- Free elements among the children of one node. -/
theorem offered_of_children {parent : Place} (hparent : parent ∈ root.descend) {group : List Place}
    (hgroup : group.Sublist parent.children)
    (helements : ∀ p ∈ group, p.isElement) : Offered root d (group.filter d.isFree) where
  ordered := List.filter_sublist.trans
    (hgroup.trans (parent.children_sublist.trans (Place.descend_sublist hparent)))
  elements := fun p hp => helements p (List.mem_of_mem_filter hp)
  free := fun _ hp => List.of_mem_filter hp
  apart := fun hroot _ hp _ hq hne =>
    (hroot.descend hparent).not_isWithin_sibling (hgroup.subset (List.mem_of_mem_filter hp))
      (hgroup.subset (List.mem_of_mem_filter hq)) hne.symm

theorem Sound.consider (h : d.Sound root excluded) {pattern : BlockPattern}
    (hmin : 1 ≤ pattern.min) (hmax : 1 ≤ pattern.max) :
    (consider root d pattern).Sound root excluded := by
  unfold Detection.consider
  split
  · exact h.withWarnings _
  · exact h.claim (offered_of_select _ _) hmin hmax

/-- The groups that look like blocks are made of children of one node, in their order. -/
theorem mem_shapedGroups {group : List Place} (hgroup : group ∈ shapedGroups root) :
    ∃ parent ∈ root.descend, group.Sublist parent.children ∧ ∀ p ∈ group, p.isElement := by
  obtain ⟨siblings, hsiblings, rfl⟩ := List.mem_map.1 (List.mem_of_mem_filter hgroup)
  obtain ⟨parent, hparent, hchildren, helements⟩ := Fragment.mem_siblingGroups hsiblings
  exact ⟨parent, hparent, List.filter_sublist.trans hchildren,
    fun p hp => helements p (List.mem_of_mem_filter hp)⟩

theorem Sound.considerGroup (h : d.Sound root excluded) {group : List Place}
    (hgroup : group ∈ shapedGroups root) :
    (considerGroup d group).Sound root excluded := by
  obtain ⟨parent, hparent, hchildren, helements⟩ := mem_shapedGroups hgroup
  unfold Detection.considerGroup
  dsimp only
  split
  · exact h.claim (offered_of_children hparent hchildren helements)
      (by simp [BlockPattern.ofGroup]) (by simp [BlockPattern.ofGroup])
  · exact h

theorem Sound.considerGroups (h : d.Sound root excluded) :
    (considerGroups root d).Sound root excluded :=
  List.foldlRecOn _ _ h fun _ hd _ hgroup =>
    hd.considerGroup (List.mem_of_mem_filter hgroup)

theorem catalog_bounds_pos :
    ∀ pattern ∈ BlockPattern.catalog, 1 ≤ pattern.min ∧ 1 ≤ pattern.max := by
  simp [BlockPattern.catalog]

/-- Every pattern that is looked for asks for at least one element and takes at least one. -/
theorem bounds_pos (options : Options) {pattern : BlockPattern}
    (hpattern : pattern ∈ BlockPattern.catalog ++ options.customPatterns.map BlockPattern.ofCustom ++
      [BlockPattern.slide]) : 1 ≤ pattern.min ∧ 1 ≤ pattern.max := by
  rcases List.mem_append.1 hpattern with hpattern | hpattern
  · rcases List.mem_append.1 hpattern with hpattern | hpattern
    · exact catalog_bounds_pos pattern hpattern
    · obtain ⟨custom, -, rfl⟩ := List.mem_map.1 hpattern
      exact ⟨Nat.le_max_left _ _, Nat.le_max_left _ _⟩
  · obtain rfl := List.mem_singleton.1 hpattern
    simp [BlockPattern.slide]

/-- Whatever the options are and whatever is excluded, detection keeps its invariant. -/
theorem sound_detect (root : Place) (options : Options) (excluded : List NodeId) :
    (detect root options excluded).Sound root excluded := by
  have hfound : ((BlockPattern.catalog ++ options.customPatterns.map BlockPattern.ofCustom ++
      [BlockPattern.slide]).foldl (consider root) { claimed := excluded }).Sound root excluded :=
    List.foldlRecOn _ _ sound_start fun _ hd _ hpattern =>
      hd.consider (bounds_pos options hpattern).1 (bounds_pos options hpattern).2
  unfold detect
  split
  · exact hfound.considerGroups
  · exact hfound

/-- The patterns that are asked for, or made for siblings that look alike. -/
def Known (options : Options) (pattern : BlockPattern) : Prop :=
  pattern ∈ BlockPattern.catalog ++ options.customPatterns.map BlockPattern.ofCustom ++
    [BlockPattern.slide] ∨ ∃ members, pattern = .ofGroup members

theorem pattern_of_mem_claim {block : DetectedBlock} {pattern : BlockPattern} {offered : List Place}
    (h : block ∈ (d.claim pattern offered).blocks) : block ∈ d.blocks ∨ block.pattern = pattern := by
  rcases claim_cases d pattern offered with ⟨_, heq⟩ | ⟨-, -, _, heq⟩
  · rw [heq] at h
    exact Or.inl h
  · rw [heq] at h
    refine (List.mem_append.1 h).imp_right fun h => ?_
    rw [List.mem_singleton.1 h]

/-- Every block that is detected comes from a pattern that was looked for. -/
theorem known_of_mem_detect {options : Options} {block : DetectedBlock}
    (h : block ∈ (detect root options excluded).blocks) : Known options block.pattern := by
  have hfound : ∀ block ∈ ((BlockPattern.catalog ++
      options.customPatterns.map BlockPattern.ofCustom ++ [BlockPattern.slide]).foldl (consider root)
        { claimed := excluded }).blocks, Known options block.pattern := by
    refine List.foldlRecOn (motive := fun d : Detection => ∀ block ∈ d.blocks,
      Known options block.pattern) _ _ (List.forall_mem_nil _) fun d hd pattern hpattern block hblock => ?_
    unfold consider at hblock
    split at hblock
    · exact hd block hblock
    · rcases pattern_of_mem_claim hblock with hblock | rfl
      · exact hd block hblock
      · exact Or.inl hpattern
  unfold detect at h
  split at h
  · revert h block
    refine List.foldlRecOn (motive := fun d : Detection => ∀ {block}, block ∈ d.blocks →
      Known options block.pattern) _ _ (hfound _) fun d hd group _ block hblock => ?_
    unfold considerGroup at hblock
    dsimp only at hblock
    split at hblock
    · rcases pattern_of_mem_claim hblock with hblock | heq
      · exact hd hblock
      · exact Or.inr ⟨_, heq⟩
    · exact hd hblock
  · exact hfound block h

/-- The elements of all blocks are different and none stands in another. -/
theorem Sound.pairwise (h : d.Sound root excluded) (hroot : root.Distinct) :
    d.places.Pairwise fun p q => ¬ p.overlaps q := by
  refine (List.pairwise_map.1 (h.ids hroot)).imp_of_mem fun {p q} hp hq hne => ?_
  have hpq := (h.apart hroot p hp q.id (h.claimed q hq).1 (Ne.symm hne)).1
  have hqp := (h.apart hroot q hq p.id (h.claimed p hp).1 hne).1
  simp [Place.overlaps, hpq, hqp]

/-- The elements of all blocks keep clear of the excluded nodes. -/
theorem Sound.clear (h : d.Sound root excluded) (hroot : root.Distinct) {p : Place}
    (hp : p ∈ d.places) {id : NodeId} (hid : id ∈ excluded) : ¬ p.isWithin id ∧ id ∉ p.tree.ids :=
  h.apart hroot p hp id (h.excluded_claimed id hid) fun heq => (h.claimed p hp).2 (heq ▸ hid)

/-- What is detected from any node of a document down, whatever is asked for and excluded: types
differ; no element of a block holds, or is, an element of a block or an excluded node; and every
block has its elements in document order, within the bounds of its pattern, each with what it
says. -/
theorem blocks_of_detect {tree : Tree} (hids : tree.ids.Nodup) {root : Place}
    (hroot : root ∈ tree.places) (options : Options) (excluded : List NodeId) :
    let d := detect root options excluded
    (d.blocks.map (·.type)).Nodup ∧
      (d.blocks.flatMap (·.places)).Pairwise (fun p q => ¬ p.overlaps q) ∧
      (∀ block ∈ d.blocks, ∀ p ∈ block.places, ∀ id ∈ excluded,
        ¬ p.isWithin id ∧ id ∉ p.tree.ids) ∧
      (∀ block ∈ d.blocks,
        block.places.Sublist root.descend ∧ (block.places.map Place.id).Nodup ∧
          block.places.length ≤ block.pattern.max ∧
          (block.pattern.min ≤ block.places.length ∨ block.places.length = block.pattern.max)) ∧
      ∀ block ∈ d.blocks, block.instances.length = block.places.length ∧
        ∀ (i : Nat) (p : Place), block.places[i]? = some p →
          block.instances[i]? = some (BlockInstance.read block.pattern.role p) := by
  intro d
  have hdistinct := Tree.distinct_of_mem_places hids hroot
  have h : d.Sound root excluded := sound_detect root options excluded
  refine ⟨h.types, h.pairwise hdistinct, ?_, ?_, ?_⟩
  · intro block hblock p hp id hid
    exact h.clear hdistinct (mem_places.2 ⟨block, hblock, hp⟩) hid
  · intro block hblock
    have hordered := h.ordered block hblock
    have hnodup : (block.places.map Place.id).Nodup :=
      (Place.map_id_descend root ▸ hdistinct.nodup_ids).sublist (hordered.map Place.id)
    exact ⟨hordered, hnodup, h.atMost block hblock, h.atLeast block hblock⟩
  · intro block _
    refine ⟨List.length_map _, fun i p hp => ?_⟩
    rw [DetectedBlock.instances, List.getElem?_map, hp]
    rfl

/-- Two cards side by side, each with a heading. -/
def twoCards : Tree :=
  let card (id : NodeId) (title : String) : Tree :=
    .node id (.element (.html "div") [⟨.plain "class", "card"⟩])
      [.node (id + 1) (.element (.html "h3") []) [.node (id + 2) (.text title) []]]
  .node 0 .document [card 1 "One", card 4 "Two"]

/-- Of two cards the detection makes one block type. -/
theorem blocks_of_twoCards :
    let d := detect ⟨twoCards, []⟩ {} []
    (d.blocks.map fun block => (block.type, block.places.map Place.id)) = [("card", [1, 4])] ∧
      (d.blocks.flatMap (·.places)).Pairwise (fun p q => ¬ p.overlaps q) := by
  have hids : twoCards.ids.Nodup := by decide
  have hroot : (⟨twoCards, []⟩ : Place) ∈ twoCards.places := List.mem_cons_self
  have h := blocks_of_detect hids hroot {} []
  exact ⟨by decide +kernel, h.2.1⟩

end Detection

namespace Detection

variable {root : Place} {excluded : List NodeId} {options : Options} {d : Detection}

/-- A step takes some of the elements below the root for a pattern, or nothing but the warnings
changes. -/
theorem consider_cases (root : Place) (d : Detection) (pattern : BlockPattern) :
    (∃ warnings, consider root d pattern = { d with warnings }) ∨
      ∃ offered ⊆ root.descend, consider root d pattern = d.claim pattern offered := by
  unfold consider
  split
  case h_1 => exact Or.inl ⟨_, rfl⟩
  case h_2 selector _ =>
    exact Or.inr ⟨_, (offered_of_select selector pattern.accepts).ordered.subset, rfl⟩

theorem considerGroup_cases {group : List Place} (hgroup : group ∈ shapedGroups root)
    (d : Detection) : considerGroup d group = d ∨
      ∃ offered ⊆ root.descend, considerGroup d group = d.claim (.ofGroup offered) offered := by
  obtain ⟨parent, hparent, hchildren, helements⟩ := mem_shapedGroups hgroup
  unfold considerGroup
  dsimp only
  split
  · exact Or.inr ⟨_, (offered_of_children hparent hchildren helements).ordered.subset, rfl⟩
  · exact Or.inl rfl

/-- The patterns that are looked for after the first one. -/
def later (options : Options) : List BlockPattern :=
  BlockPattern.catalog.tail ++ options.customPatterns.map .ofCustom ++ [BlockPattern.slide]

/-- What the first step comes to and every further one keeps, the detection comes to. -/
theorem induction {motive : Detection → Prop}
    (hfirst : ∀ pattern ∈ BlockPattern.catalog.head?,
      motive (consider root { claimed := excluded } pattern))
    (hwarnings : ∀ {d : Detection} warnings, motive d → motive { d with warnings })
    (hclaim : ∀ {d : Detection} pattern offered,
      pattern ∈ later options ∨ pattern = .ofGroup offered → offered ⊆ root.descend → motive d →
        motive (d.claim pattern offered)) :
    motive (detect root options excluded) := by
  obtain ⟨first, hcatalog⟩ : ∃ first, BlockPattern.catalog = first :: BlockPattern.catalog.tail :=
    ⟨_, rfl⟩
  have hpatterns : BlockPattern.catalog ++ options.customPatterns.map BlockPattern.ofCustom ++
      [BlockPattern.slide] = first :: later options := by
    conv_lhs => rw [hcatalog, List.cons_append, List.cons_append]
    rfl
  have hfound : motive ((later options).foldl (consider root)
      (consider root { claimed := excluded } first)) := by
    refine List.foldlRecOn (motive := motive) _ _ (hfirst first (by rw [hcatalog]; rfl))
      fun d hd pattern hpattern => ?_
    rcases consider_cases root d pattern with ⟨warnings, heq⟩ | ⟨offered, hoffered, heq⟩
    · rw [heq]
      exact hwarnings warnings hd
    · rw [heq]
      exact hclaim pattern offered (Or.inl hpattern) hoffered hd
  rw [detect, hpatterns, List.foldl_cons]
  generalize (later options).foldl (consider root) _ = found at hfound
  split
  · refine List.foldlRecOn (motive := motive) _ _ hfound fun d hd group hgroup => ?_
    rcases considerGroup_cases (List.mem_of_mem_filter hgroup) d with heq | ⟨offered, hoffered, heq⟩
    · rw [heq]
      exact hd
    · rw [heq]
      exact hclaim _ offered (Or.inr rfl) hoffered hd
  · exact hfound

/-- Only the first block can be one of a header. -/
theorem role_ne_header :
    ∀ block ∈ (detect root options excluded).blocks.tail, block.pattern.role ≠ .header := by
  refine induction (motive := fun d => ∀ block ∈ d.blocks.tail, block.pattern.role ≠ .header)
    ?first (fun _ h => h) ?claim
  case first =>
    intro pattern _
    rcases consider_cases root { claimed := excluded } pattern with ⟨_, heq⟩ | ⟨offered, -, heq⟩
    · rw [heq]
      exact List.forall_mem_nil _
    · rcases claim_cases { claimed := excluded } pattern offered with ⟨_, heq'⟩ | ⟨-, -, _, heq'⟩
      · rw [heq, heq']
        exact List.forall_mem_nil _
      · rw [heq, heq']
        exact List.forall_mem_nil _
  case claim =>
    intro d pattern offered hpattern _ h
    have hrole : pattern.role ≠ .header := by
      have hcatalog : ∀ pattern ∈ BlockPattern.catalog.tail, pattern.role ≠ .header := by decide
      rcases hpattern with hpattern | rfl
      · simp only [later, List.mem_append, List.mem_singleton] at hpattern
        rcases hpattern with (hpattern | hpattern) | rfl
        · exact hcatalog pattern hpattern
        · obtain ⟨custom, -, rfl⟩ := List.mem_map.1 hpattern
          exact nofun
        · exact nofun
      · exact nofun
    rcases claim_cases d pattern offered with ⟨_, heq⟩ | ⟨-, -, _, heq⟩
    · rw [heq]
      exact h
    · rw [heq]
      intro block hblock
      cases hblocks : d.blocks with
      | nil =>
        rw [hblocks] at hblock
        cases hblock
      | cons first rest =>
        rw [hblocks] at hblock h
        rcases List.mem_append.1 hblock with hblock | hblock
        · exact h block hblock
        · exact List.mem_singleton.1 hblock ▸ hrole

/-- The elements that were matched for each of the blocks. The first of them make the block, and all
are claimed. -/
structure Matches (root : Place) (excluded : List NodeId) (d : Detection)
    (matched : List (List Place)) : Prop where
  taken : List.Forall₂ (fun block found => block.places = found.take block.pattern.max)
    d.blocks matched
  claimed : d.claimed = excluded ++ matched.flatten.map Place.id
  below : ∀ found ∈ matched, found ⊆ root.descend

theorem exists_matches_claim (h : ∃ matched, Matches root excluded d matched)
    (pattern : BlockPattern) {offered : List Place} (hoffered : offered ⊆ root.descend) :
    ∃ matched, Matches root excluded (d.claim pattern offered) matched := by
  obtain ⟨matched, h⟩ := h
  rcases claim_cases d pattern offered with ⟨_, heq⟩ | ⟨-, -, _, heq⟩
  · rw [heq]
    exact ⟨matched, { h with }⟩
  · rw [heq]
    refine ⟨matched ++ [offered], ?_, ?_, ?_⟩
    · exact List.rel_append h.taken (List.Forall₂.cons rfl .nil)
    · simp [h.claimed]
    · exact List.forall_mem_append.2 ⟨h.below, List.forall_mem_singleton.2 hoffered⟩

/-- Whatever is claimed by a detection, apart from what is excluded, was matched for one of the
blocks. -/
theorem exists_matches_detect (root : Place) (options : Options) (excluded : List NodeId) :
    ∃ matched, Matches root excluded (detect root options excluded) matched := by
  have hstart : ∃ matched, Matches root excluded { claimed := excluded } matched :=
    ⟨[], .nil, (List.append_nil _).symm, List.forall_mem_nil _⟩
  refine induction (motive := fun d => ∃ matched, Matches root excluded d matched)
    (fun pattern _ => ?_) (fun _ ⟨matched, h⟩ => ⟨matched, { h with }⟩)
    fun pattern _ _ hoffered h => exists_matches_claim h pattern hoffered
  rcases consider_cases root { claimed := excluded } pattern with
    ⟨_, heq⟩ | ⟨offered, hoffered, heq⟩
  · rw [heq]
    exact ⟨[], .nil, (List.append_nil _).symm, List.forall_mem_nil _⟩
  · rw [heq]
    exact exists_matches_claim hstart pattern hoffered

end Detection

end ThemeSection
