import Mathlib.Data.List.Perm.Subperm
import Mathlib.Data.List.Nodup
import ThemeSection.Markup.Place
import ThemeSection.Selector.Match

/-!
Where the nodes of a tree stand. A place below a tree is a focus: closing its levels around its own
tree gives the whole tree back, and every such focus is one of the tree's places. What the module
says on ancestors, siblings and document order is read off that one fact. Ids tell nodes apart only
in trees in which no two nodes share one, and statements that need this say so.

Of two nodes with a node below both, one stands below the other, so that nodes of which none holds
the other have no node in common.
-/

namespace ThemeSection.Markup

/-- A property of all trees holds if every node has it whose children have it. -/
@[elab_as_elim]
theorem Tree.bottomUp {motive : Tree → Prop}
    (node : ∀ id kind children, (∀ t ∈ children, motive t) → motive (.node id kind children))
    (tree : Tree) : motive tree :=
  Tree.rec (motive_1 := motive) (motive_2 := fun children => ∀ t ∈ children, motive t)
    (fun id kind children ih => node id kind children ih)
    (fun _ h => nomatch h)
    (fun _ _ hd tl => List.forall_mem_cons.2 ⟨hd, tl⟩) tree

namespace Tree

@[simp] theorem nodesOf_eq_flatMap (children : List Tree) :
    nodesOf children = children.flatMap nodes := by
  induction children with
  | nil => rfl
  | cons t rest ih => simp [nodesOf, ih]

theorem nodes_node (id : NodeId) (kind : NodeKind) (children : List Tree) :
    (node id kind children).nodes = node id kind children :: children.flatMap nodes := by
  simp [nodes]

theorem ids_node (id : NodeId) (kind : NodeKind) (children : List Tree) :
    (node id kind children).ids = id :: children.flatMap ids := by
  simp [ids, nodes_node, List.map_flatMap, Tree.id]
  rfl

theorem id_mem_ids (tree : Tree) : tree.id ∈ tree.ids := by
  cases tree with
  | node id kind children => simp [ids_node, Tree.id]

/-- In document order a node comes before all that stand below it. -/
theorem not_mem_tail_ids {tree : Tree} (h : tree.ids.Nodup) : tree.id ∉ tree.ids.tail := by
  obtain ⟨id, kind, children⟩ := tree
  rw [ids_node] at h ⊢
  exact (List.nodup_cons.1 h).1

/-- Where no two nodes share an id, the node itself does not stand below it. -/
theorem not_mem_ids_child {tree child : Tree} (h : tree.ids.Nodup) (hchild : child ∈ tree.children) :
    tree.id ∉ child.ids := by
  obtain ⟨id, kind, children⟩ := tree
  rw [ids_node] at h
  exact fun hin => (List.nodup_cons.1 h).1 (List.mem_flatMap.2 ⟨child, hchild, hin⟩)

end Tree

/-- The ids that a level brings to the tree it closes. -/
def Level.ids (level : Level) : List NodeId :=
  level.id :: (level.before.reverse ++ level.after).flatMap Tree.ids

/-- The tree around a tree once all the levels are closed, the nearest first. -/
def closeAll (levels : List Level) (tree : Tree) : Tree :=
  levels.foldl (fun t level => level.close t) tree

@[simp] theorem closeAll_nil (tree : Tree) : closeAll [] tree = tree := rfl

@[simp] theorem closeAll_cons (level : Level) (levels : List Level) (tree : Tree) :
    closeAll (level :: levels) tree = closeAll levels (level.close tree) := rfl

theorem closeAll_append (inner outer : List Level) (tree : Tree) :
    closeAll (inner ++ outer) tree = closeAll outer (closeAll inner tree) :=
  List.foldl_append

theorem Level.ids_close (level : Level) (tree : Tree) :
    (level.close tree).ids.Perm (tree.ids ++ level.ids) := by
  simp only [Level.close, Tree.ids_node, Level.ids, List.flatMap_append, List.flatMap_cons]
  rw [List.perm_iff_count]
  intro i
  simp only [List.count_cons, List.count_append]
  omega

/-- The ids of a closed tree are those of the tree inside and those of all the levels. -/
theorem ids_closeAll (levels : List Level) (tree : Tree) :
    (closeAll levels tree).ids.Perm (tree.ids ++ levels.flatMap Level.ids) := by
  induction levels generalizing tree with
  | nil => simp
  | cons level rest ih =>
    calc (closeAll rest (level.close tree)).ids
        |>.Perm ((level.close tree).ids ++ rest.flatMap Level.ids) := ih _
      _ |>.Perm ((tree.ids ++ level.ids) ++ rest.flatMap Level.ids) :=
          (level.ids_close tree).append_right _
      _ = tree.ids ++ (level :: rest).flatMap Level.ids := by simp

mutual

/-- The places from a tree downward are the foci that close to it. -/
theorem mem_placesUnder (q : Place) : ∀ (tree : Tree) (above : List Level),
    q ∈ tree.placesUnder above ↔
      ∃ levels, q.above = levels ++ above ∧ closeAll levels q.tree = tree
  | .node id kind children, above => by
    rw [Tree.placesUnder, List.mem_cons, mem_placesAmong q children id kind above []]
    constructor
    · rintro (rfl | ⟨seen, t, rest, levels, hchildren, habove, hclose⟩)
      · exact ⟨[], rfl, rfl⟩
      · refine ⟨levels ++ [⟨id, kind, seen.reverse, rest⟩], by simp [habove], ?_⟩
        simp [closeAll_append, hclose, Level.close, hchildren]
    · rintro ⟨levels, habove, hclose⟩
      -- The outermost level, if there is one, is the root without one of its children.
      rcases levels.eq_nil_or_concat' with rfl | ⟨inner, level, rfl⟩
      · exact Or.inl (by cases q; simp_all)
      · right
        simp only [closeAll_append, closeAll_cons, closeAll_nil, Level.close,
          Tree.node.injEq] at hclose
        obtain ⟨rfl, rfl, rfl⟩ := hclose
        exact ⟨level.before.reverse, _, level.after, inner, rfl, by simp [habove], rfl⟩

theorem mem_placesAmong (q : Place) : ∀ (trees : List Tree) (id : NodeId) (kind : NodeKind)
    (above : List Level) (before : List Tree),
    q ∈ Tree.placesAmong id kind above before trees ↔
      ∃ seen t rest levels, trees = seen ++ t :: rest ∧
        q.above = levels ++ ⟨id, kind, seen.reverse ++ before, rest⟩ :: above ∧
        closeAll levels q.tree = t
  | [], id, kind, above, before => by simp [Tree.placesAmong]
  | tree :: trees, id, kind, above, before => by
    rw [Tree.placesAmong, List.mem_append, mem_placesUnder q tree,
      mem_placesAmong q trees id kind above (tree :: before)]
    constructor
    · rintro (⟨levels, habove, hclose⟩ | ⟨seen, t, rest, levels, rfl, habove, hclose⟩)
      · exact ⟨[], tree, trees, levels, rfl, by simpa using habove, hclose⟩
      · exact ⟨tree :: seen, t, rest, levels, rfl, by simpa using habove, hclose⟩
    · rintro ⟨seen, t, rest, levels, htrees, habove, hclose⟩
      cases seen with
      | nil =>
        obtain ⟨rfl, rfl⟩ := List.cons.inj htrees
        exact Or.inl ⟨levels, by simpa using habove, hclose⟩
      | cons first seen =>
        obtain ⟨rfl, rfl⟩ := List.cons.inj htrees
        exact Or.inr ⟨seen, t, rest, levels, rfl, by simpa using habove, hclose⟩

end

namespace Place

theorem mem_descend {p q : Place} :
    q ∈ p.descend ↔ ∃ levels, q.above = levels ++ p.above ∧ closeAll levels q.tree = p.tree :=
  mem_placesUnder q p.tree p.above

theorem self_mem_descend (p : Place) : p ∈ p.descend :=
  mem_descend.2 ⟨[], rfl, rfl⟩

theorem descend_trans {p q r : Place} (hq : q ∈ p.descend) (hr : r ∈ q.descend) :
    r ∈ p.descend := by
  obtain ⟨outer, hqabove, hqclose⟩ := mem_descend.1 hq
  obtain ⟨inner, hrabove, hrclose⟩ := mem_descend.1 hr
  exact mem_descend.2 ⟨inner ++ outer, by simp [hrabove, hqabove],
    by rw [closeAll_append, hrclose, hqclose]⟩

end Place

mutual

theorem map_tree_placesUnder : ∀ (tree : Tree) (above : List Level),
    (tree.placesUnder above).map Place.tree = tree.nodes
  | .node id kind children, above => by
    rw [Tree.placesUnder, List.map_cons, map_tree_placesAmong children, Tree.nodes_node]

theorem map_tree_placesAmong : ∀ (trees : List Tree) (id : NodeId) (kind : NodeKind)
    (above : List Level) (before : List Tree),
    (Tree.placesAmong id kind above before trees).map Place.tree = trees.flatMap Tree.nodes
  | [], _, _, _, _ => rfl
  | tree :: trees, id, kind, above, before => by
    rw [Tree.placesAmong, List.map_append, map_tree_placesUnder tree,
      map_tree_placesAmong trees, List.flatMap_cons]

end

namespace Place

theorem map_tree_descend (p : Place) : p.descend.map Place.tree = p.tree.nodes :=
  map_tree_placesUnder p.tree p.above

theorem map_id_descend (p : Place) : p.descend.map Place.id = p.tree.ids := by
  rw [Tree.ids, ← map_tree_descend, List.map_map]
  rfl

end Place

mutual

theorem sublist_placesUnder (q : Place) : ∀ (tree : Tree) (above : List Level),
    q ∈ tree.placesUnder above → q.descend.Sublist (tree.placesUnder above)
  | .node id kind children, above, hq => by
    rw [Tree.placesUnder, List.mem_cons] at hq
    rcases hq with rfl | hq
    · exact List.Sublist.refl _
    · exact (sublist_placesAmong q children id kind above [] hq).cons _

theorem sublist_placesAmong (q : Place) : ∀ (trees : List Tree) (id : NodeId) (kind : NodeKind)
    (above : List Level) (before : List Tree),
    q ∈ Tree.placesAmong id kind above before trees →
      q.descend.Sublist (Tree.placesAmong id kind above before trees)
  | [], _, _, _, _, hq => by simp [Tree.placesAmong] at hq
  | tree :: trees, id, kind, above, before, hq => by
    rw [Tree.placesAmong, List.mem_append] at hq
    rcases hq with hq | hq
    · exact (sublist_placesUnder q tree _ hq).trans (List.sublist_append_left _ _)
    · exact (sublist_placesAmong q trees id kind above _ hq).trans
        (List.sublist_append_right _ _)

end

namespace Place

/-- Document order below a node is document order around it. -/
theorem descend_sublist {p q : Place} (hq : q ∈ p.descend) : q.descend.Sublist p.descend :=
  sublist_placesUnder q p.tree p.above hq

theorem select_sublist (p : Place) (selector : Selector) :
    (p.select selector).Sublist p.descend :=
  List.filter_sublist

theorem children_go_sublist (p : Place) (before rest : List Tree) :
    (children.go p before rest).Sublist
      (Tree.placesAmong p.tree.id p.tree.kind p.above before rest) := by
  induction rest generalizing before with
  | nil => exact List.Sublist.refl _
  | cons t rest ih =>
    rw [children.go, Tree.placesAmong]
    cases t with
    | node id kind children =>
      rw [Tree.placesUnder, List.cons_append]
      exact ((ih _).trans (List.sublist_append_right _ _)).cons_cons _

/-- The children of a node stand below it in document order. -/
theorem children_sublist (p : Place) : p.children.Sublist p.descend := by
  obtain ⟨⟨id, kind, children⟩, above⟩ := p
  exact (children_go_sublist ⟨.node id kind children, above⟩ [] children).cons _

theorem above_of_mem_children_go (p : Place) (before rest : List Tree) {c : Place}
    (hc : c ∈ children.go p before rest) :
    ∃ level, level.id = p.id ∧ c.above = level :: p.above := by
  induction rest generalizing before with
  | nil => simp [children.go] at hc
  | cons t rest ih =>
    rw [children.go, List.mem_cons] at hc
    rcases hc with rfl | hc
    · exact ⟨_, rfl, rfl⟩
    · exact ih _ hc

/-- Right above a child stands its parent. -/
theorem above_of_mem_children {p c : Place} (hc : c ∈ p.children) :
    ∃ level, level.id = p.id ∧ c.above = level :: p.above :=
  above_of_mem_children_go p [] p.tree.children hc

/-- A child and the level above it make up their parent. -/
theorem close_of_mem_children {p c : Place} (hc : c ∈ p.children) :
    ∃ level, c.above = level :: p.above ∧ level.close c.tree = p.tree := by
  obtain ⟨level, -, habove⟩ := above_of_mem_children hc
  obtain ⟨levels, hlevels, hclose⟩ := mem_descend.1 (p.children_sublist.subset hc)
  have hone : levels = [level] := List.append_cancel_right (hlevels.symm.trans habove)
  rw [hone] at hclose
  exact ⟨level, habove, hclose⟩

theorem map_tree_children (p : Place) : p.children.map Place.tree = p.tree.children := by
  have hgo : ∀ rest before : List Tree, (children.go p before rest).map Place.tree = rest := by
    intro rest
    induction rest with
    | nil => exact fun _ => rfl
    | cons t rest ih => exact fun before => congrArg (t :: ·) (ih (t :: before))
  exact hgo p.tree.children []

theorem mem_children_close (level : Level) (tree : Tree) : tree ∈ (level.close tree).children :=
  List.mem_append_right _ List.mem_cons_self

/-- The whole tree that a place is a focus in. -/
def whole (p : Place) : Tree :=
  closeAll p.above p.tree

/-- No two nodes of the whole tree share an id. -/
def Distinct (p : Place) : Prop :=
  p.whole.ids.Nodup

theorem whole_eq_of_mem_descend {p q : Place} (hq : q ∈ p.descend) : q.whole = p.whole := by
  obtain ⟨levels, habove, hclose⟩ := mem_descend.1 hq
  rw [whole, whole, habove, closeAll_append, hclose]

theorem Distinct.descend {p q : Place} (h : p.Distinct) (hq : q ∈ p.descend) : q.Distinct := by
  rwa [Distinct, whole_eq_of_mem_descend hq]

theorem Distinct.nodup {p : Place} (h : p.Distinct) :
    (p.tree.ids ++ p.above.flatMap Level.ids).Nodup :=
  (ids_closeAll p.above p.tree).nodup_iff.1 h

theorem Distinct.nodup_ids {p : Place} (h : p.Distinct) : p.tree.ids.Nodup :=
  (List.nodup_append.1 h.nodup).1

theorem id_mem_of_mem_descend {p q : Place} (hq : q ∈ p.descend) : q.id ∈ p.tree.ids :=
  map_id_descend p ▸ List.mem_map_of_mem hq

theorem exists_mem_descend {p : Place} {id : NodeId} (h : id ∈ p.tree.ids) :
    ∃ q ∈ p.descend, q.id = id := by
  rw [← map_id_descend] at h
  exact List.mem_map.1 h

theorem level_id_mem {p : Place} {level : Level} (h : level ∈ p.above) :
    level.id ∈ p.above.flatMap Level.ids :=
  List.mem_flatMap.2 ⟨level, h, List.mem_cons_self⟩

/-- A node does not stand above itself. -/
theorem Distinct.ne_level {p : Place} (h : p.Distinct) {id : NodeId} (hid : id ∈ p.tree.ids)
    {level : Level} (hlevel : level ∈ p.above) : level.id ≠ id := fun he =>
  (List.nodup_append.1 h.nodup).2.2 id hid _ (level_id_mem hlevel) he.symm

/-- Where ids tell nodes apart, a place is known by the id of its node. -/
theorem Distinct.eq_of_id_eq {p q r : Place} (h : p.Distinct) (hq : q ∈ p.descend)
    (hr : r ∈ p.descend) (hid : q.id = r.id) : q = r :=
  List.inj_on_of_nodup_map (map_id_descend p ▸ h.nodup_ids) hq hr hid

/-- Where ids tell nodes apart, nodes below a place that come in document order have an id each. -/
theorem Distinct.nodup_of_sublist {p : Place} (h : p.Distinct) {places : List Place}
    (hplaces : places.Sublist p.descend) : (places.map Place.id).Nodup :=
  (map_id_descend p ▸ h.nodup_ids).sublist (hplaces.map Place.id)

theorem isWithin_of_mem_descend {p q : Place} (hq : q ∈ p.descend) : q.isWithin p.id := by
  obtain ⟨levels, habove, hclose⟩ := mem_descend.1 hq
  simp only [isWithin, Bool.or_eq_true, beq_iff_eq, List.any_eq_true]
  rcases levels.eq_nil_or_concat' with rfl | ⟨inner, level, rfl⟩
  · left
    rw [closeAll_nil] at hclose
    exact congrArg Tree.id hclose
  · right
    refine ⟨level, by simp [habove], ?_⟩
    rw [Place.id, ← hclose, closeAll_append]
    rfl

/-- Standing within a node is being one of the places below it. -/
theorem Distinct.isWithin_iff {p q r : Place} (h : p.Distinct) (hq : q ∈ p.descend)
    (hr : r ∈ p.descend) : q.isWithin r.id ↔ q ∈ r.descend := by
  refine ⟨fun hwithin => ?_, isWithin_of_mem_descend⟩
  simp only [isWithin, Bool.or_eq_true, beq_iff_eq, List.any_eq_true] at hwithin
  rcases hwithin with hid | ⟨level, hlevel, hid⟩
  · rw [h.eq_of_id_eq hq hr hid]
    exact self_mem_descend r
  · obtain ⟨levels, habove, hclose⟩ := mem_descend.1 hq
    rw [habove, List.mem_append] at hlevel
    rcases hlevel with hlevel | hlevel
    · obtain ⟨inner, outer, rfl⟩ := List.append_of_mem hlevel
      -- The node of the level is itself a place below `p`, and by its id it is `r`.
      have houter : (⟨level.close (closeAll inner q.tree), outer ++ p.above⟩ : Place) ∈
          p.descend :=
        mem_descend.2 ⟨outer, rfl, by simpa [closeAll_append] using hclose⟩
      obtain rfl := h.eq_of_id_eq houter hr hid
      exact mem_descend.2 ⟨inner ++ [level], by simp [habove], by simp [closeAll_append]⟩
    · exact absurd hid (h.ne_level (id_mem_of_mem_descend hr) hlevel)

/-- A node's id stands in the tree at a place exactly if the node stands within it. -/
theorem Distinct.mem_ids_iff {p q r : Place} (h : p.Distinct) (hq : q ∈ p.descend)
    (hr : r ∈ p.descend) : q.id ∈ r.tree.ids ↔ q.isWithin r.id := by
  rw [h.isWithin_iff hq hr]
  constructor
  · intro hid
    obtain ⟨q', hq', hid'⟩ := exists_mem_descend hid
    rwa [← h.eq_of_id_eq (descend_trans hr hq') hq hid']
  · exact id_mem_of_mem_descend

/-- A child stands within none of its siblings. -/
theorem Distinct.not_isWithin_sibling {p a b : Place} (h : p.Distinct) (ha : a ∈ p.children)
    (hb : b ∈ p.children) (hne : a.id ≠ b.id) : ¬ a.isWithin b.id := by
  obtain ⟨level, hlevel, habove⟩ := above_of_mem_children ha
  obtain ⟨level', hlevel', habove'⟩ := above_of_mem_children hb
  have hb' : ∀ l ∈ b.above, l.id ≠ b.id := fun l hl =>
    (h.descend ((children_sublist p).subset hb)).ne_level (Tree.id_mem_ids b.tree) hl
  have hp : p.id ≠ b.id := hlevel' ▸ hb' level' (habove' ▸ List.mem_cons_self)
  simp only [isWithin, habove, Bool.or_eq_true, beq_iff_eq, List.any_cons, List.any_eq_true,
    not_or, not_exists, not_and, hlevel]
  exact ⟨hne, hp, fun l hl => hb' l (habove' ▸ List.mem_cons_of_mem _ hl)⟩

end Place

/-- Every place of a tree is a focus in that tree. -/
theorem Tree.whole_of_mem_places {tree : Tree} {p : Place} (hp : p ∈ tree.places) :
    p.whole = tree := by
  obtain ⟨levels, habove, hclose⟩ := (mem_placesUnder p tree []).1 hp
  rw [Place.whole, habove, List.append_nil, hclose]

theorem Tree.distinct_of_mem_places {tree : Tree} (h : tree.ids.Nodup) {p : Place}
    (hp : p ∈ tree.places) : p.Distinct := by
  rwa [Place.Distinct, Tree.whole_of_mem_places hp]

namespace Place

variable {p q r : Place}

theorem map_id_ancestors (p : Place) : p.ancestors.map Place.id = p.above.map Level.id := by
  have hgo : ∀ (above : List Level) (tree : Tree),
      (ancestors.go tree above).map Place.id = above.map Level.id := by
    intro above
    induction above with
    | nil => exact fun _ => rfl
    | cons level rest ih => exact fun tree => congrArg (level.id :: ·) (ih (level.close tree))
  exact hgo p.above p.tree

theorem isWithin_iff_ancestors {id : NodeId} :
    p.isWithin id ↔ p.id = id ∨ ∃ a ∈ p.ancestors, a.id = id := by
  rw [← List.mem_map, map_id_ancestors, List.mem_map]
  simp [isWithin]

/-- Of two nodes above a third one, or the same as it, one stands in the other. -/
theorem mem_descend_or_mem_descend (hp : r ∈ p.descend) (hq : r ∈ q.descend) :
    p ∈ q.descend ∨ q ∈ p.descend := by
  obtain ⟨levels, habove, hclose⟩ := mem_descend.1 hp
  obtain ⟨levels', habove', hclose'⟩ := mem_descend.1 hq
  rcases List.append_eq_append_iff.1 (habove.symm.trans habove') with ⟨m, rfl, hm⟩ | ⟨m, rfl, hm⟩
  · exact Or.inl (mem_descend.2 ⟨m, hm, by rw [← hclose', closeAll_append, hclose]⟩)
  · exact Or.inr (mem_descend.2 ⟨m, hm, by rw [← hclose, closeAll_append, hclose']⟩)

/-- Nodes that stand in each other are the same. -/
theorem eq_of_mem_descend (hq : q ∈ p.descend) (hp : p ∈ q.descend) : q = p := by
  obtain ⟨levels, habove, hclose⟩ := mem_descend.1 hq
  obtain ⟨levels', habove', -⟩ := mem_descend.1 hp
  have hlength : levels.length + levels'.length = 0 := by
    have h := congrArg List.length habove
    have h' := congrArg List.length habove'
    simp only [List.length_append] at h h'
    omega
  obtain rfl : levels = [] := List.eq_nil_of_length_eq_zero (by omega)
  obtain ⟨tree, above⟩ := q
  obtain ⟨tree', above'⟩ := p
  exact congrArg₂ Place.mk hclose habove

/-- A node has one parent. -/
theorem eq_of_mem_children (hp : r ∈ p.children) (hq : r ∈ q.children) : p = q := by
  obtain ⟨level, habove, hclose⟩ := close_of_mem_children hp
  obtain ⟨level', habove', hclose'⟩ := close_of_mem_children hq
  obtain ⟨rfl, hlevels⟩ := List.cons.inj (habove.symm.trans habove')
  obtain ⟨tree, above⟩ := p
  obtain ⟨tree', above'⟩ := q
  exact congrArg₂ Place.mk (hclose.symm.trans hclose') hlevels

/-- There are fewer nodes below a node than below any other one around it. -/
theorem length_descend_lt (hq : q ∈ p.descend) (hne : q ≠ p) :
    q.descend.length < p.descend.length := by
  refine Nat.lt_of_le_of_ne (descend_sublist hq).length_le fun hlength => hne ?_
  have hsame := (descend_sublist hq).eq_of_length hlength
  exact eq_of_mem_descend hq (hsame ▸ self_mem_descend p)

/-- Two nodes stand apart: they are different, neither stands above the other, and no node stands in
both. -/
structure Apart (p q : Place) : Prop where
  ne : p.id ≠ q.id
  notBelow : ∀ a ∈ p.ancestors, a.id ≠ q.id
  notAbove : ∀ a ∈ q.ancestors, a.id ≠ p.id
  disjoint : p.descend.Disjoint q.descend

theorem apart_iff : p.Apart q ↔ ¬ p.overlaps q := by
  rw [overlaps, Bool.or_eq_true, not_or]
  constructor
  · intro h
    rw [isWithin_iff_ancestors, isWithin_iff_ancestors, not_or, not_or]
    exact ⟨⟨h.ne, fun ⟨a, ha, hid⟩ => h.notBelow a ha hid⟩,
      h.ne.symm, fun ⟨a, ha, hid⟩ => h.notAbove a ha hid⟩
  · rintro ⟨hp, hq⟩
    have hp' := mt isWithin_iff_ancestors.2 hp
    have hq' := mt isWithin_iff_ancestors.2 hq
    refine ⟨fun hid => hp' (Or.inl hid), fun a ha hid => hp' (Or.inr ⟨a, ha, hid⟩),
      fun a ha hid => hq' (Or.inr ⟨a, ha, hid⟩), fun r hrp hrq => ?_⟩
    rcases mem_descend_or_mem_descend hrp hrq with h | h
    · exact hp (isWithin_of_mem_descend h)
    · exact hq (isWithin_of_mem_descend h)

theorem Apart.symm (h : p.Apart q) : q.Apart p :=
  ⟨h.ne.symm, h.notAbove, h.notBelow, fun _ hq hp => h.disjoint hp hq⟩

theorem holds_everything (p : Place) : Selector.everything.holds p = p.isElement := by
  cases helement : p.tree.element? <;>
    simp [Selector.everything, Selector.of, Selector.holds, Selector.Complex.holds, Selector.meets,
      Selector.contextHolds, Selector.Simple.passes, isElement, Tree.isElement, helement]

/-- Selecting everything selects the elements. -/
theorem mem_select_everything : q ∈ p.select .everything ↔ q ∈ p.descend ∧ q.isElement := by
  rw [select, List.mem_filter, holds_everything]

end Place

end ThemeSection.Markup
