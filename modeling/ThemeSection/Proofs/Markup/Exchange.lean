import ThemeSection.Proofs.Markup.Update

/-!
Several nodes of a tree that give way to rows of trees at once. What a node gives way to is told by
its id. Rows that are put in one after the other come to rows that are put in at once, so that a run
of changes to different parts of a tree can be seen as one change of the tree that was there first.
-/

namespace ThemeSection.Markup.Tree

/-- The trees that nodes give way to, for those that do. -/
abbrev Rows := NodeId → Option (List Tree)

mutual

/-- What stands in the place of a tree once its nodes have given way. -/
def exchange (rows : Rows) : Tree → List Tree
  | node own kind children =>
    match rows own with
    | some row => row
    | none => [node own kind (exchangeAll rows children)]

def exchangeAll (rows : Rows) : List Tree → List Tree
  | [] => []
  | tree :: rest => exchange rows tree ++ exchangeAll rows rest

end

/-- The tree once nodes below its root have given way. -/
def exchangeBelow (rows : Rows) (t : Tree) : Tree :=
  node t.id t.kind (t.children.flatMap (exchange rows))

namespace Rows

/-- One node gives way. -/
def only (x : NodeId) (row : List Tree) : Rows :=
  fun i => if i = x then some row else none

/-- Some nodes go. -/
def gone (xs : List NodeId) : Rows :=
  fun i => if i ∈ xs then some [] else none

/-- Nodes give way to rows in which nodes give way after that. -/
def andThen (rows rows' : Rows) : Rows :=
  fun i => match rows i with
    | some row => some (row.flatMap (exchange rows'))
    | none => rows' i

end Rows

variable {rows rows' : Rows} {t n : Tree} {x : NodeId} {row : List Tree}

@[simp] theorem exchangeAll_eq_flatMap (rows : Rows) (trees : List Tree) :
    exchangeAll rows trees = trees.flatMap (exchange rows) := by
  induction trees with
  | nil => rfl
  | cons t rest ih => rw [exchangeAll, ih, List.flatMap_cons]

theorem exchange_of_some (h : rows t.id = some row) : t.exchange rows = row := by
  obtain ⟨id, kind, children⟩ := t
  rw [id_node] at h
  rw [exchange, h]

theorem exchange_of_none (h : rows t.id = none) : t.exchange rows = [t.exchangeBelow rows] := by
  obtain ⟨id, kind, children⟩ := t
  rw [id_node] at h
  rw [exchange, h, exchangeAll_eq_flatMap]
  rfl

@[simp] theorem id_exchangeBelow (rows : Rows) (t : Tree) : (t.exchangeBelow rows).id = t.id := rfl

@[simp] theorem children_exchangeBelow (rows : Rows) (t : Tree) :
    (t.exchangeBelow rows).children = t.children.flatMap (exchange rows) := rfl

/-- A tree in which no node gives way stays as it is. -/
theorem exchange_of_forall (h : ∀ i ∈ t.ids, rows i = none) : t.exchange rows = [t] := by
  induction t using Tree.bottomUp with
  | node id kind children ih =>
    have hchildren : ∀ c ∈ children, c.exchange rows = [c] := fun c hc =>
      ih c hc fun i hi => h i (mem_ids_iff.2 (Or.inr ⟨c, hc, hi⟩))
    rw [exchange_of_none (h _ (id_mem_ids _)), exchangeBelow, children_node,
      List.flatMap_congr hchildren, List.flatMap_singleton']
    rfl

theorem flatMap_exchange_of_forall {trees : List Tree}
    (h : ∀ i ∈ trees.flatMap ids, rows i = none) : trees.flatMap (exchange rows) = trees := by
  have hself : ∀ t ∈ trees, t.exchange rows = [t] := fun t ht =>
    exchange_of_forall fun i hi => h i (List.mem_flatMap.2 ⟨t, ht, hi⟩)
  rw [List.flatMap_congr hself, List.flatMap_singleton']

theorem exchangeBelow_of_forall (h : ∀ i ∈ t.ids, rows i = none) : t.exchangeBelow rows = t := by
  have hsingle := exchange_of_forall h
  rw [exchange_of_none (h _ t.id_mem_ids)] at hsingle
  exact List.singleton_inj.1 hsingle

/-- Giving way twice is giving way once. -/
theorem flatMap_exchange (rows rows' : Rows) (t : Tree) :
    (t.exchange rows).flatMap (exchange rows') = t.exchange (rows.andThen rows') := by
  induction t using Tree.bottomUp with
  | node id kind children ih =>
    cases hrow : rows id with
    | some row =>
      have hthen : rows.andThen rows' id = some (row.flatMap (exchange rows')) := by
        rw [Rows.andThen, hrow]
      rw [exchange_of_some (t := node id kind children) hrow,
        exchange_of_some (t := node id kind children) hthen]
    | none =>
      have hthen : rows.andThen rows' id = rows' id := by rw [Rows.andThen, hrow]
      rw [exchange_of_none (t := node id kind children) hrow, List.flatMap_singleton]
      cases hrow' : rows' id with
      | some row =>
        have hagain : rows' (exchangeBelow rows (node id kind children)).id = some row := hrow'
        rw [exchange_of_some hagain,
          exchange_of_some (t := node id kind children) (hthen.trans hrow')]
      | none =>
        have hagain : rows' (exchangeBelow rows (node id kind children)).id = none := hrow'
        rw [exchange_of_none hagain,
          exchange_of_none (t := node id kind children) (hthen.trans hrow')]
        simp only [exchangeBelow, children_node, id_node, kind_node, List.flatMap_assoc]
        rw [List.flatMap_congr ih]

theorem exchangeBelow_exchangeBelow (rows rows' : Rows) (t : Tree) :
    (t.exchangeBelow rows).exchangeBelow rows' = t.exchangeBelow (rows.andThen rows') := by
  simp only [exchangeBelow, children_node, id_node, kind_node, List.flatMap_assoc, flatMap_exchange]

/-- Putting another tree in the place of a node. -/
theorem update_eq_exchange (x : NodeId) (new t : Tree) :
    [t.update x fun _ => new] = t.exchange (.only x [new]) := by
  induction t using Tree.bottomUp with
  | node id kind children ih =>
    by_cases hid : id = x
    · rw [update_of_eq (t := node id kind children) hid,
        exchange_of_some (t := node id kind children) (if_pos hid)]
    · rw [update_of_ne (t := node id kind children) hid,
        exchange_of_none (t := node id kind children) (if_neg hid), exchangeBelow, children_node,
        ← List.flatMap_congr ih, List.map_eq_flatMap]

theorem update_eq_exchangeBelow (h : t.id ≠ x) (new : Tree) :
    (t.update x fun _ => new) = t.exchangeBelow (.only x [new]) := by
  have hsingle := update_eq_exchange x new t
  rw [exchange_of_none (if_neg h)] at hsingle
  exact List.singleton_inj.1 hsingle

/-- Putting a row of trees in the place of a node below the root. -/
theorem splice_eq_exchangeBelow (x : NodeId) (row : List Tree) (t : Tree) :
    (t.splice x fun _ => row) = t.exchangeBelow (.only x row) := by
  induction t using Tree.bottomUp with
  | node id kind children ih =>
    rw [splice, spliceAll_eq_flatMap, exchangeBelow]
    refine congrArg (node id kind) (List.flatMap_congr fun c hc => ?_)
    rw [spliced]
    split
    case isTrue hid => rw [exchange_of_some (if_pos hid)]
    case isFalse hid => rw [exchange_of_none (if_neg hid), ih c hc]

/-- Nodes that go one after the other. -/
theorem andThen_only_gone (x : NodeId) (xs : List NodeId) :
    (Rows.only x []).andThen (.gone xs) = .gone (x :: xs) := by
  funext i
  by_cases h : i = x <;> simp [Rows.andThen, Rows.only, Rows.gone, h]

/-- A row put in the place of a node that has given way before. -/
theorem flatMap_spliced_exchange (hx : rows x ≠ none) (row : Tree → List Tree) (t : Tree) :
    (t.exchange rows).flatMap (spliced x row) =
      t.exchange fun i => (rows i).map (·.flatMap (spliced x row)) := by
  induction t using Tree.bottomUp with
  | node id kind children ih =>
    cases hrow : rows id with
    | some trees =>
      rw [exchange_of_some (t := node id kind children) hrow,
        exchange_of_some (by rw [id_node, hrow]; rfl)]
    | none =>
      have hid : id ≠ x := fun heq => hx (heq ▸ hrow)
      rw [exchange_of_none (t := node id kind children) hrow,
        exchange_of_none (by rw [id_node, hrow]; rfl),
        List.flatMap_singleton, spliced,
        if_neg (show (exchangeBelow rows (node id kind children)).id ≠ x from hid)]
      simp only [exchangeBelow, children_node, id_node, kind_node, splice, spliceAll_eq_flatMap,
        List.flatMap_assoc]
      rw [List.flatMap_congr ih]

theorem splice_exchangeBelow (hx : rows x ≠ none) (row : Tree → List Tree) (t : Tree) :
    (t.exchangeBelow rows).splice x row =
      t.exchangeBelow fun i => (rows i).map (·.flatMap (spliced x row)) := by
  simp only [exchangeBelow, splice, spliceAll_eq_flatMap, List.flatMap_assoc,
    flatMap_spliced_exchange hx]

/-- The ids afterwards are those of nodes that have not given way, and those of the rows. -/
theorem of_mem_ids_exchange {i : NodeId} (h : i ∈ (t.exchange rows).flatMap ids) :
    i ∈ t.ids ∧ rows i = none ∨ ∃ j ∈ t.ids, ∃ row, rows j = some row ∧ i ∈ row.flatMap ids := by
  induction t using Tree.bottomUp with
  | node id kind children ih =>
    cases hrow : rows id with
    | some row =>
      rw [exchange_of_some (t := node id kind children) hrow] at h
      exact Or.inr ⟨id, id_mem_ids _, row, hrow, h⟩
    | none =>
      rw [exchange_of_none (t := node id kind children) hrow, List.flatMap_singleton, mem_ids_iff,
        children_exchangeBelow] at h
      rcases h with rfl | ⟨c', hc', hi⟩
      · exact Or.inl ⟨id_mem_ids _, hrow⟩
      · obtain ⟨c, hc, hc'⟩ := List.mem_flatMap.1 hc'
        have hbelow : c.ids ⊆ (node id kind children).ids := fun j hj =>
          mem_ids_iff.2 (Or.inr ⟨c, hc, hj⟩)
        exact (ih c hc (List.mem_flatMap.2 ⟨c', hc', hi⟩)).imp (And.imp_left (@hbelow i))
          fun ⟨j, hj, hrow⟩ => ⟨j, hbelow hj, hrow⟩

/-- A tree in which no node gives way, and that stands in none that does, is left. -/
theorem exists_mem_exchange (hn : n ∈ t.nodes) (hin : ∀ i ∈ n.ids, rows i = none)
    (hout : ∀ m ∈ t.nodes, n ∈ m.nodes → rows m.id = none) :
    ∃ t' ∈ t.exchange rows, n ∈ t'.nodes := by
  induction t using Tree.bottomUp with
  | node id kind children ih =>
    rcases mem_nodes_iff.1 hn with rfl | ⟨c, hc, hnc⟩
    · exact ⟨_, exchange_of_forall hin ▸ List.mem_singleton_self _, self_mem_nodes _⟩
    · have hbelow : c ∈ (node id kind children).nodes := mem_nodes_of_mem_children hc
      obtain ⟨c', hc', hnc'⟩ := ih c hc hnc fun m hm => hout m (nodes_trans hbelow hm)
      have hid := hout _ (self_mem_nodes _) hn
      refine ⟨_, exchange_of_none hid ▸ List.mem_singleton_self _, ?_⟩
      exact mem_nodes_iff.2 (Or.inr ⟨c', List.mem_flatMap.2 ⟨c, hc, hc'⟩, hnc'⟩)

theorem mem_exchangeBelow (hn : n ∈ t.nodes) (hin : ∀ i ∈ n.ids, rows i = none)
    (hout : ∀ m ∈ t.nodes, n ∈ m.nodes → rows m.id = none) : n ∈ (t.exchangeBelow rows).nodes := by
  obtain ⟨t', ht', hn'⟩ := exists_mem_exchange hn hin hout
  rw [exchange_of_none (hout t t.self_mem_nodes hn)] at ht'
  exact List.mem_singleton.1 ht' ▸ hn'

/-- Where a node gives way and none around it does, its row stands among the children of one node.
-/
theorem exists_parent_of_row (hn : n ∈ t.nodes) (hne : n ≠ t) (hrow : rows n.id = some row)
    (hout : ∀ m ∈ t.nodes, n ∈ m.nodes → m ≠ n → rows m.id = none) :
    ∃ parent ∈ (t.exchangeBelow rows).nodes, ∃ before after,
      parent.children = before ++ row ++ after := by
  induction t using Tree.bottomUp with
  | node id kind children ih =>
    obtain ⟨c, hc, hnc⟩ := (mem_nodes_iff.1 hn).resolve_left hne
    by_cases heq : n = c
    · obtain ⟨before, after, hchildren⟩ : ∃ before after, children = before ++ c :: after :=
        List.append_of_mem hc
      refine ⟨_, self_mem_nodes _, before.flatMap (exchange rows), after.flatMap (exchange rows),
        ?_⟩
      rw [children_exchangeBelow, children_node, hchildren, List.flatMap_append, List.flatMap_cons,
        ← heq, exchange_of_some hrow, List.append_assoc]
    · have hbelow : c ∈ (node id kind children).nodes := mem_nodes_of_mem_children hc
      obtain ⟨parent, hparent, hchildren⟩ := ih c hc hnc heq fun m hm =>
        hout m (nodes_trans hbelow hm)
      have hid := hout c hbelow hnc (Ne.symm heq)
      have hchild : c.exchangeBelow rows ∈ (exchangeBelow rows (node id kind children)).children :=
        List.mem_flatMap.2 ⟨c, hc, exchange_of_none hid ▸ List.mem_singleton_self _⟩
      exact ⟨parent, nodes_trans (mem_nodes_of_mem_children hchild) hparent, hchildren⟩

end ThemeSection.Markup.Tree
