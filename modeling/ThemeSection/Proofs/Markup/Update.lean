import ThemeSection.Document.Edit
import ThemeSection.Proofs.Markup.Places

/-!
What changing a tree in one of its nodes does to all the other nodes. The nodes of the changed tree
are either nodes of the old one with the change carried into them, or come from what the changed node
has become. Where ids tell nodes apart, the change is confined to one place: closing the levels of
that place around the changed node gives the changed tree.
-/

namespace ThemeSection.Markup

namespace Tree

@[simp] theorem id_node (id : NodeId) (kind : NodeKind) (children : List Tree) :
    (node id kind children).id = id := rfl

@[simp] theorem kind_node (id : NodeId) (kind : NodeKind) (children : List Tree) :
    (node id kind children).kind = kind := rfl

@[simp] theorem children_node (id : NodeId) (kind : NodeKind) (children : List Tree) :
    (node id kind children).children = children := rfl

theorem self_mem_nodes (t : Tree) : t ∈ t.nodes := by
  cases t
  simp [nodes_node]

theorem mem_nodes_iff {t n : Tree} :
    n ∈ t.nodes ↔ n = t ∨ ∃ c ∈ t.children, n ∈ c.nodes := by
  cases t
  simp [nodes_node]

theorem mem_nodes_of_mem_children {t c : Tree} (hc : c ∈ t.children) : c ∈ t.nodes :=
  mem_nodes_iff.2 (Or.inr ⟨c, hc, c.self_mem_nodes⟩)

theorem nodes_trans {a b c : Tree} (hbc : b ∈ c.nodes) (hab : a ∈ b.nodes) : a ∈ c.nodes := by
  induction c using Tree.bottomUp with
  | node id kind children ih =>
    rcases mem_nodes_iff.1 hbc with rfl | ⟨child, hchild, hb⟩
    · exact hab
    · exact mem_nodes_iff.2 (Or.inr ⟨child, hchild, ih child hchild hb⟩)

theorem id_mem_ids_of_mem_nodes {t n : Tree} (h : n ∈ t.nodes) : n.id ∈ t.ids :=
  List.mem_map_of_mem h

theorem ids_subset_of_mem_nodes {t n : Tree} (h : n ∈ t.nodes) : n.ids ⊆ t.ids := by
  intro i hi
  obtain ⟨m, hm, rfl⟩ := List.mem_map.1 hi
  exact id_mem_ids_of_mem_nodes (nodes_trans h hm)

theorem mem_ids_iff {t : Tree} {i : NodeId} :
    i ∈ t.ids ↔ i = t.id ∨ ∃ c ∈ t.children, i ∈ c.ids := by
  cases t
  simp [ids_node]

/-- Where no two nodes share an id, no two nodes stand below each other. -/
theorem eq_of_mem_nodes {t u : Tree} (h : t.ids.Nodup) (hu : u ∈ t.nodes) (ht : t ∈ u.nodes) :
    u = t := by
  rcases mem_nodes_iff.1 hu with rfl | ⟨c, hc, hin⟩
  · rfl
  · exact absurd (id_mem_ids_of_mem_nodes (nodes_trans hin ht)) (not_mem_ids_child h hc)

section

variable {x : NodeId} {f : Tree → Tree} {t n : Tree}

@[simp] theorem updateAll_eq_map (x : NodeId) (f : Tree → Tree) (trees : List Tree) :
    updateAll x f trees = trees.map (update x f) := by
  induction trees with
  | nil => rfl
  | cons t rest ih => rw [updateAll, ih, List.map_cons]

theorem update_of_eq (h : t.id = x) : t.update x f = f t := by
  cases t
  exact if_pos h

theorem update_of_ne (h : t.id ≠ x) :
    t.update x f = .node t.id t.kind (t.children.map (update x f)) := by
  cases t
  rw [← updateAll_eq_map]
  exact if_neg h

theorem update_of_not_mem (h : x ∉ t.ids) : t.update x f = t := by
  induction t using Tree.bottomUp with
  | node id kind children ih =>
    rw [mem_ids_iff, not_or] at h
    have hchildren : ∀ c ∈ children, c.update x f = c := fun c hc =>
      ih c hc fun hx => h.2 ⟨c, hc, hx⟩
    rw [update_of_ne fun heq => h.1 heq.symm, children_node, List.map_congr_left hchildren,
      List.map_id']
    rfl

theorem map_update_of_not_mem {trees : List Tree} (h : x ∉ trees.flatMap ids) :
    trees.map (update x f) = trees := by
  have hid : ∀ t ∈ trees, t.update x f = t := fun t ht =>
    update_of_not_mem fun hx => h (List.mem_flatMap.2 ⟨t, ht, hx⟩)
  rw [List.map_congr_left hid, List.map_id']

theorem id_update (hf : ∀ m, (f m).id = m.id) (t : Tree) : (t.update x f).id = t.id := by
  by_cases h : t.id = x
  · rw [update_of_eq h, hf]
  · rw [update_of_ne h, id_node]

/-- A node of a changed tree is an old one with the change carried into it, or comes from what the
changed node has become. -/
theorem mem_nodes_update (h : n ∈ (t.update x f).nodes) :
    (∃ m ∈ t.nodes, m.id ≠ x ∧ n = m.update x f) ∨ ∃ m ∈ t.nodes, m.id = x ∧ n ∈ (f m).nodes := by
  induction t using Tree.bottomUp with
  | node id kind children ih =>
    by_cases hid : (node id kind children).id = x
    · rw [update_of_eq hid] at h
      exact Or.inr ⟨_, self_mem_nodes _, hid, h⟩
    · rw [mem_nodes_iff] at h
      rcases h with rfl | ⟨c, hc, hn⟩
      · exact Or.inl ⟨_, self_mem_nodes _, hid, rfl⟩
      · rw [update_of_ne hid, children_node, children_node] at hc
        obtain ⟨child, hchild, rfl⟩ := List.mem_map.1 hc
        have hbelow : child ∈ (node id kind children).nodes := mem_nodes_of_mem_children hchild
        rcases ih child hchild hn with ⟨m, hm, hne, rfl⟩ | ⟨m, hm, heq, hn⟩
        · exact Or.inl ⟨m, nodes_trans hbelow hm, hne, rfl⟩
        · exact Or.inr ⟨m, nodes_trans hbelow hm, heq, hn⟩

/-- A node that does not stand below a changed one is carried along. -/
theorem update_mem_nodes (hn : n ∈ t.nodes)
    (hout : ∀ m ∈ t.nodes, m.id = x → ∀ c ∈ m.children, n ∉ c.nodes) :
    n.update x f ∈ (t.update x f).nodes := by
  induction t using Tree.bottomUp with
  | node id kind children ih =>
    rcases mem_nodes_iff.1 hn with rfl | ⟨c, hc, hnc⟩
    · exact self_mem_nodes _
    · have hid : (node id kind children).id ≠ x := fun heq => hout _ (self_mem_nodes _) heq c hc hnc
      have hbelow : c ∈ (node id kind children).nodes := mem_nodes_of_mem_children hc
      refine mem_nodes_iff.2 (Or.inr ⟨c.update x f, ?_, ?_⟩)
      · rw [update_of_ne hid]
        exact List.mem_map_of_mem hc
      · exact ih c hc hnc fun m hm => hout m (nodes_trans hbelow hm)

/-- Where ids tell nodes apart, the changed node stands in the changed tree. -/
theorem mem_nodes_update_self (hids : t.ids.Nodup) (hn : n ∈ t.nodes) (hid : n.id = x) :
    f n ∈ (t.update x f).nodes := by
  induction t using Tree.bottomUp with
  | node id kind children ih =>
    have hself : (node id kind children).id = x → node id kind children = n := fun heq =>
      List.inj_on_of_nodup_map hids (self_mem_nodes _) hn (heq.trans hid.symm)
    by_cases heq : (node id kind children).id = x
    · rw [update_of_eq heq, hself heq]
      exact self_mem_nodes _
    · rcases mem_nodes_iff.1 hn with rfl | ⟨c, hc, hnc⟩
      · exact absurd hid heq
      · have hchild : c.ids.Nodup := by
          rw [ids_node] at hids
          exact (List.nodup_flatMap.1 (List.nodup_cons.1 hids).2).1 c hc
        refine mem_nodes_iff.2 (Or.inr ⟨c.update x f, ?_, ih c hc hchild hnc⟩)
        rw [update_of_ne heq]
        exact List.mem_map_of_mem hc

/-- A change that leaves the children of a node alone carries all nodes along. -/
theorem update_mem_nodes_of_children (hf : ∀ m : Tree, (f m).children = m.children)
    (hids : t.ids.Nodup) (hn : n ∈ t.nodes) : n.update x f ∈ (t.update x f).nodes := by
  induction t using Tree.bottomUp with
  | node id kind children ih =>
    rcases mem_nodes_iff.1 hn with rfl | ⟨c, hc, hnc⟩
    · exact self_mem_nodes _
    · rw [ids_node] at hids
      obtain ⟨hroot, hchildren⟩ := List.nodup_cons.1 hids
      by_cases heq : (node id kind children).id = x
      · have hx : x ∉ n.ids := fun hin => by
          have hbelow := ids_subset_of_mem_nodes hnc hin
          rw [← heq] at hbelow
          exact hroot (List.mem_flatMap.2 ⟨c, hc, hbelow⟩)
        rw [update_of_not_mem hx, update_of_eq heq]
        exact mem_nodes_iff.2 (Or.inr ⟨c, by rwa [hf], hnc⟩)
      · refine mem_nodes_iff.2 (Or.inr ⟨c.update x f, ?_, ih c hc ?_ hnc⟩)
        · rw [update_of_ne heq]
          exact List.mem_map_of_mem hc
        · exact (List.nodup_flatMap.1 hchildren).1 c hc

end

section

variable {x : NodeId} {row : Tree → List Tree} {t n : Tree}

/-- What stands in the row of a node's siblings in its place, and what in that of any other node. -/
def spliced (x : NodeId) (row : Tree → List Tree) (t : Tree) : List Tree :=
  if t.id = x then row t else [t.splice x row]

@[simp] theorem spliceAll_eq_flatMap (x : NodeId) (row : Tree → List Tree) (trees : List Tree) :
    spliceAll x row trees = trees.flatMap (spliced x row) := by
  induction trees with
  | nil => rfl
  | cons t rest ih => rw [spliceAll, ih, List.flatMap_cons, spliced]

@[simp] theorem id_splice (x : NodeId) (row : Tree → List Tree) (t : Tree) :
    (t.splice x row).id = t.id := by
  cases t
  rfl

@[simp] theorem kind_splice (x : NodeId) (row : Tree → List Tree) (t : Tree) :
    (t.splice x row).kind = t.kind := by
  cases t
  rfl

@[simp] theorem children_splice (x : NodeId) (row : Tree → List Tree) (t : Tree) :
    (t.splice x row).children = t.children.flatMap (spliced x row) := by
  cases t
  rw [splice, spliceAll_eq_flatMap]
  rfl

theorem splice_of_not_mem (h : ∀ c ∈ t.children, x ∉ c.ids) : t.splice x row = t := by
  induction t using Tree.bottomUp with
  | node id kind children ih =>
    have hchildren : ∀ c ∈ children, spliced x row c = [c] := by
      intro c hc
      have hid : c.id ≠ x := fun heq => h c hc (heq ▸ c.id_mem_ids)
      have hbelow : ∀ c' ∈ c.children, x ∉ c'.ids := fun c' hc' hx =>
        h c hc (mem_ids_iff.2 (Or.inr ⟨c', hc', hx⟩))
      rw [spliced, if_neg hid, ih c hc hbelow]
    rw [splice, spliceAll_eq_flatMap, List.flatMap_congr hchildren, List.flatMap_singleton']

theorem map_splice_of_not_mem {trees : List Tree} (h : x ∉ trees.flatMap ids) :
    trees.map (splice x row) = trees := by
  have hself : ∀ t ∈ trees, t.splice x row = t := fun t ht => splice_of_not_mem
    fun c hc hin => h (List.mem_flatMap.2 ⟨t, ht, mem_ids_iff.2 (Or.inr ⟨c, hc, hin⟩)⟩)
  rw [List.map_congr_left hself, List.map_id']

theorem flatMap_spliced_of_not_mem {trees : List Tree} (h : x ∉ trees.flatMap ids) :
    trees.flatMap (spliced x row) = trees := by
  have hid : ∀ t ∈ trees, spliced x row t = [t] := by
    intro t ht
    have hx : x ∉ t.ids := fun hx => h (List.mem_flatMap.2 ⟨t, ht, hx⟩)
    have hid : t.id ≠ x := fun heq => hx (heq ▸ t.id_mem_ids)
    rw [spliced, if_neg hid, splice_of_not_mem fun c hc hin =>
      hx (mem_ids_iff.2 (Or.inr ⟨c, hc, hin⟩))]
  rw [List.flatMap_congr hid, List.flatMap_singleton']

/-- A node of a tree with a row put into it is an old one with the row carried into it, or comes from
the row. -/
theorem mem_nodes_splice (h : n ∈ (t.splice x row).nodes) :
    (∃ m ∈ t.nodes, n = m.splice x row) ∨
      ∃ m ∈ t.nodes, m.id = x ∧ ∃ r ∈ row m, n ∈ r.nodes := by
  induction t using Tree.bottomUp with
  | node id kind children ih =>
    rw [mem_nodes_iff] at h
    rcases h with rfl | ⟨c, hc, hn⟩
    · exact Or.inl ⟨_, self_mem_nodes _, rfl⟩
    · rw [children_splice, List.mem_flatMap] at hc
      obtain ⟨child, hchild, hc⟩ := hc
      have hbelow : child ∈ (node id kind children).nodes := mem_nodes_of_mem_children hchild
      rw [spliced] at hc
      split at hc
      case isTrue hid => exact Or.inr ⟨child, hbelow, hid, c, hc, hn⟩
      case isFalse =>
        obtain rfl := List.mem_singleton.1 hc
        rcases ih child hchild hn with ⟨m, hm, rfl⟩ | ⟨m, hm, hid, hn⟩
        · exact Or.inl ⟨m, nodes_trans hbelow hm, rfl⟩
        · exact Or.inr ⟨m, nodes_trans hbelow hm, hid, hn⟩

/-- A node that is neither replaced nor below a replaced one is carried along. -/
theorem splice_mem_nodes (hn : n ∈ t.nodes) (hout : ∀ m ∈ t.nodes, m.id = x → n ∉ m.nodes) :
    n.splice x row ∈ (t.splice x row).nodes := by
  induction t using Tree.bottomUp with
  | node id kind children ih =>
    rcases mem_nodes_iff.1 hn with rfl | ⟨c, hc, hnc⟩
    · exact self_mem_nodes _
    · have hbelow : c ∈ (node id kind children).nodes := mem_nodes_of_mem_children hc
      have hid : c.id ≠ x := fun heq => hout c hbelow heq hnc
      refine mem_nodes_iff.2 (Or.inr ⟨c.splice x row, ?_, ?_⟩)
      · rw [children_splice]
        exact List.mem_flatMap.2 ⟨c, hc, by rw [spliced, if_neg hid]; exact List.mem_singleton_self _⟩
      · exact ih c hc hnc fun m hm => hout m (nodes_trans hbelow hm)

/-- Where ids tell nodes apart, the row stands in the tree in the place of the node. -/
theorem mem_nodes_splice_self (hids : t.ids.Nodup) (hn : n ∈ t.nodes) (hid : n.id = x)
    (hne : t.id ≠ x) {r : Tree} (hr : r ∈ row n) : r ∈ (t.splice x row).nodes := by
  induction t using Tree.bottomUp with
  | node id kind children ih =>
    rcases mem_nodes_iff.1 hn with rfl | ⟨c, hc, hnc⟩
    · exact absurd hid hne
    · rw [ids_node] at hids
      have hchild : c.ids.Nodup := (List.nodup_flatMap.1 (List.nodup_cons.1 hids).2).1 c hc
      by_cases heq : c.id = x
      · have hself : c = n :=
          List.inj_on_of_nodup_map hchild (self_mem_nodes _) hnc (heq.trans hid.symm)
        refine mem_nodes_iff.2 (Or.inr ⟨r, ?_, self_mem_nodes _⟩)
        rw [children_splice]
        exact List.mem_flatMap.2 ⟨c, hc, by rw [spliced, if_pos heq, hself]; exact hr⟩
      · refine mem_nodes_iff.2 (Or.inr ⟨c.splice x row, ?_, ih c hc hchild hnc heq⟩)
        rw [children_splice]
        exact List.mem_flatMap.2 ⟨c, hc, by rw [spliced, if_neg heq]; exact List.mem_singleton_self _⟩

end

/-- Two changes of one node, one after the other. -/
theorem update_update {x : NodeId} {f g : Tree → Tree} (hf : ∀ m, (f m).id = m.id) (t : Tree) :
    (t.update x f).update x g = t.update x fun m => g (f m) := by
  induction t using Tree.bottomUp with
  | node id kind children ih =>
    by_cases hid : (node id kind children).id = x
    · rw [update_of_eq hid, update_of_eq hid, update_of_eq ((hf _).trans hid)]
    · have hid' : id ≠ x := hid
      simp only [update, if_neg hid', updateAll_eq_map, List.map_map]
      exact congrArg _ (List.map_congr_left ih)

/-- Changing a new node of a row changes it in the row. -/
theorem update_splice {x y : NodeId} {row : Tree → List Tree} {g : Tree → Tree} {t : Tree}
    (hy : y ∉ t.ids) :
    (t.splice x row).update y g = t.splice x fun m => (row m).map (update y g) := by
  induction t using Tree.bottomUp with
  | node id kind children ih =>
    rw [mem_ids_iff, not_or] at hy
    have hid : (splice x row (node id kind children)).id ≠ y := by
      rw [id_splice]
      exact fun heq => hy.1 heq.symm
    rw [update_of_ne hid]
    simp only [splice, spliceAll_eq_flatMap, id_node, kind_node, children_node, List.map_flatMap]
    refine congrArg _ (List.flatMap_congr fun c hc => ?_)
    rw [spliced, spliced]
    split
    · rfl
    · rw [List.map_singleton, ih c hc fun hin => hy.2 ⟨c, hc, hin⟩]

@[simp] theorem id_withChildren (children : List Tree) (t : Tree) :
    (t.withChildren children).id = t.id := by
  cases t
  rfl

@[simp] theorem kind_withChildren (children : List Tree) (t : Tree) :
    (t.withChildren children).kind = t.kind := by
  cases t
  rfl

@[simp] theorem children_withChildren (children : List Tree) (t : Tree) :
    (t.withChildren children).children = children := by
  cases t
  rfl

@[simp] theorem id_mapAttributes (change : Attributes → Attributes) (t : Tree) :
    (t.mapAttributes change).id = t.id := by
  unfold mapAttributes
  split <;> rfl

@[simp] theorem children_mapAttributes (change : Attributes → Attributes) (t : Tree) :
    (t.mapAttributes change).children = t.children := by
  unfold mapAttributes
  split <;> rfl

@[simp] theorem ids_mapAttributes (change : Attributes → Attributes) (t : Tree) :
    (t.mapAttributes change).ids = t.ids := by
  unfold mapAttributes
  split
  · simp only [ids_node]
  · rfl

@[simp] theorem nodes_ofText (id : NodeId) (content : String) :
    (ofText id content).nodes = [ofText id content] := rfl

@[simp] theorem ids_ofText (id : NodeId) (content : String) : (ofText id content).ids = [id] := rfl

end Tree

theorem update_closeAll {x : NodeId} {levels : List Level} (h : x ∉ levels.flatMap Level.ids)
    (f : Tree → Tree) (t : Tree) :
    (closeAll levels t).update x f = closeAll levels (t.update x f) := by
  induction levels generalizing t with
  | nil => rfl
  | cons level rest ih =>
    simp only [List.flatMap_cons, List.mem_append, not_or, Level.ids, List.mem_cons,
      List.flatMap_append] at h
    obtain ⟨⟨hid, hbefore, hafter⟩, hrest⟩ := h
    have hlevel : (level.close t).update x f = level.close (t.update x f) := by
      rw [Tree.update_of_ne (show (level.close t).id ≠ x from fun heq => hid heq.symm)]
      simp only [Level.close, Tree.children_node, List.map_append, List.map_cons,
        Tree.map_update_of_not_mem hbefore, Tree.map_update_of_not_mem hafter, Tree.id_node,
        Tree.kind_node]
    rw [closeAll_cons, closeAll_cons, ih hrest, hlevel]

theorem splice_closeAll {x : NodeId} {levels : List Level} (h : x ∉ levels.flatMap Level.ids)
    (row : Tree → List Tree) (t : Tree) (hne : t.id ≠ x) :
    (closeAll levels t).splice x row = closeAll levels (t.splice x row) := by
  induction levels generalizing t with
  | nil => rfl
  | cons level rest ih =>
    simp only [List.flatMap_cons, List.mem_append, not_or, Level.ids, List.mem_cons,
      List.flatMap_append] at h
    obtain ⟨⟨hid, hbefore, hafter⟩, hrest⟩ := h
    have hlevel : (level.close t).splice x row = level.close (t.splice x row) := by
      simp only [Level.close, Tree.splice, Tree.spliceAll_eq_flatMap, List.flatMap_append,
        List.flatMap_cons, Tree.flatMap_spliced_of_not_mem hbefore,
        Tree.flatMap_spliced_of_not_mem hafter, Tree.spliced, if_neg hne, List.cons_append,
        List.nil_append]
    have hne' : (level.close t).id ≠ x := fun heq => hid heq.symm
    rw [closeAll_cons, closeAll_cons, ih hrest _ hne', hlevel]

/-- The level with a row of trees in the place of its child. -/
def Level.closeRow (level : Level) (row : List Tree) : Tree :=
  .node level.id level.kind (level.before.reverse ++ row ++ level.after)

theorem splice_closeAll_cons {level : Level} {rest : List Level} {t : Tree}
    (h : t.id ∉ (level :: rest).flatMap Level.ids) (row : Tree → List Tree) :
    (closeAll (level :: rest) t).splice t.id row = closeAll rest (level.closeRow (row t)) := by
  simp only [List.flatMap_cons, List.mem_append, not_or, Level.ids, List.mem_cons,
    List.flatMap_append] at h
  obtain ⟨⟨hid, hbefore, hafter⟩, hrest⟩ := h
  have hlevel : (level.close t).splice t.id row = level.closeRow (row t) := by
    simp only [Level.close, Level.closeRow, Tree.splice, Tree.spliceAll_eq_flatMap,
      List.flatMap_append, List.flatMap_cons, Tree.flatMap_spliced_of_not_mem hbefore,
      Tree.flatMap_spliced_of_not_mem hafter, Tree.spliced, if_true, List.append_assoc]
  have hne : (level.close t).id ≠ t.id := fun heq => hid heq.symm
  rw [closeAll_cons, splice_closeAll hrest row _ hne, hlevel]

end ThemeSection.Markup
