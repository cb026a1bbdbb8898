import ThemeSection.Proofs.Markup.Update

/-!
Documents in which ids tell nodes apart. The trees that have been taken out count as much as the
document's own tree: an id names one node in all of them. Where a node stands, there the document
can be cut open, and every change to the node is seen to leave the rest as it is.
-/

namespace ThemeSection

open Markup

namespace Document

/-- The document's own tree and those that have been taken out. -/
def trees (d : Document) : List Tree :=
  d.root :: d.loose

def nodes (d : Document) : List Tree :=
  d.trees.flatMap Tree.nodes

def ids (d : Document) : List NodeId :=
  d.trees.flatMap Tree.ids

/-- No two nodes share an id, and the ids that have not been used are still to be had. -/
structure Distinct (d : Document) : Prop where
  nodup : d.ids.Nodup
  fresh : ∀ i ∈ d.ids, i < d.next

variable {d : Document} {x : NodeId} {p : Place}

theorem ids_eq_map (d : Document) : d.ids = d.nodes.map Tree.id := by
  rw [ids, nodes, List.map_flatMap]
  rfl

theorem mem_nodes {n : Tree} : n ∈ d.nodes ↔ ∃ t ∈ d.trees, n ∈ t.nodes :=
  List.mem_flatMap

theorem mem_ids : x ∈ d.ids ↔ ∃ n ∈ d.nodes, n.id = x := by
  rw [ids_eq_map, List.mem_map]

theorem id_mem_ids {n : Tree} (h : n ∈ d.nodes) : n.id ∈ d.ids :=
  mem_ids.2 ⟨n, h, rfl⟩

theorem nodes_trans {n m : Tree} (hn : n ∈ d.nodes) (hm : m ∈ n.nodes) : m ∈ d.nodes := by
  obtain ⟨t, ht, hn⟩ := mem_nodes.1 hn
  exact mem_nodes.2 ⟨t, ht, Tree.nodes_trans hn hm⟩

theorem mem_nodes_of_mem_children {n c : Tree} (hn : n ∈ d.nodes) (hc : c ∈ n.children) :
    c ∈ d.nodes :=
  nodes_trans hn (Tree.mem_nodes_of_mem_children hc)

theorem ids_subset_of_mem_nodes {n : Tree} (h : n ∈ d.nodes) : n.ids ⊆ d.ids := by
  intro i hi
  obtain ⟨m, hm, rfl⟩ := List.mem_map.1 hi
  exact id_mem_ids (nodes_trans h hm)

theorem mem_places : p ∈ d.places ↔ ∃ t ∈ d.trees, p ∈ t.places := by
  simp [places, trees]

theorem map_tree_places (d : Document) : d.places.map Place.tree = d.nodes := by
  have hplaces : ∀ t : Tree, t.places.map Place.tree = t.nodes := fun t =>
    map_tree_placesUnder t []
  simp [places, nodes, trees, List.map_flatMap, hplaces]

theorem mem_places_of_place? (h : d.place? x = some p) : p ∈ d.places :=
  List.mem_of_find?_eq_some h

theorem id_of_place? (h : d.place? x = some p) : p.id = x :=
  beq_iff_eq.1 (List.find?_some (p := fun q : Place => q.id == x) h)

theorem tree_mem_nodes (h : p ∈ d.places) : p.tree ∈ d.nodes :=
  map_tree_places d ▸ List.mem_map_of_mem h

theorem exists_place? (h : x ∈ d.ids) : ∃ p, d.place? x = some p := by
  obtain ⟨n, hn, rfl⟩ := mem_ids.1 h
  rw [← map_tree_places] at hn
  obtain ⟨p, hp, rfl⟩ := List.mem_map.1 hn
  exact Option.isSome_iff_exists.1 (List.find?_isSome.2 ⟨p, hp, beq_iff_eq.2 rfl⟩)

theorem not_mem_ids_of_place? (h : d.place? x = none) : x ∉ d.ids := fun hx => by
  obtain ⟨p, hp⟩ := exists_place? hx
  rw [hp] at h
  cases h

theorem mem_places_descend {q : Place} (hp : p ∈ d.places) (hq : q ∈ p.descend) :
    q ∈ d.places := by
  obtain ⟨t, ht, hp⟩ := mem_places.1 hp
  refine mem_places.2 ⟨t, ht, ?_⟩
  exact Place.descend_trans (p := ⟨t, []⟩) hp hq

/-- The node above a place of a document is at a place of it too. -/
theorem mem_places_close {tree : Tree} {level : Level} {rest : List Level}
    (hp : ⟨tree, level :: rest⟩ ∈ d.places) : ⟨level.close tree, rest⟩ ∈ d.places := by
  obtain ⟨t, ht, hp⟩ := mem_places.1 hp
  obtain ⟨levels, habove, hclose⟩ := Place.mem_descend (p := ⟨t, []⟩).1 hp
  rw [List.append_nil] at habove
  refine mem_places.2 ⟨t, ht, Place.mem_descend (p := ⟨t, []⟩).2 ⟨rest, (List.append_nil _).symm, ?_⟩⟩
  rw [← hclose, ← habove]
  rfl

theorem mem_places_ancestors {a : Place} (hp : p ∈ d.places) (ha : a ∈ p.ancestors) :
    a ∈ d.places := by
  obtain ⟨tree, above⟩ := p
  have hgo : ∀ (above : List Level) (tree : Tree), ⟨tree, above⟩ ∈ d.places →
      a ∈ Place.ancestors.go tree above → a ∈ d.places := by
    intro above
    induction above with
    | nil => exact fun _ _ h => absurd h List.not_mem_nil
    | cons level rest ih =>
      intro tree hp h
      rcases List.mem_cons.1 h with rfl | h
      · exact mem_places_close hp
      · exact ih _ (mem_places_close hp) h
  exact hgo above tree hp ha

theorem whole_mem_trees (hp : p ∈ d.places) : p.whole ∈ d.trees := by
  obtain ⟨t, ht, hp⟩ := mem_places.1 hp
  exact Tree.whole_of_mem_places hp ▸ ht

theorem mem_places_of_whole (h : p.whole ∈ d.trees) : p ∈ d.places :=
  mem_places.2 ⟨p.whole, h,
    Place.mem_descend (p := ⟨p.whole, []⟩).2 ⟨p.above, (List.append_nil _).symm, rfl⟩⟩

namespace Distinct

theorem nodup_ids (h : d.Distinct) {n : Tree} (hn : n ∈ d.nodes) : n.ids.Nodup := by
  obtain ⟨t, ht, hn⟩ := mem_nodes.1 hn
  have htree : t.ids.Nodup := (List.nodup_flatMap.1 h.nodup).1 t ht
  obtain ⟨p, hp, rfl⟩ : ∃ p ∈ t.places, p.tree = n := by
    rw [← map_tree_placesUnder t []] at hn
    exact List.mem_map.1 hn
  exact (Tree.distinct_of_mem_places htree hp).nodup_ids

theorem eq_of_id_eq (h : d.Distinct) {n m : Tree} (hn : n ∈ d.nodes) (hm : m ∈ d.nodes)
    (hid : n.id = m.id) : n = m :=
  List.inj_on_of_nodup_map (ids_eq_map d ▸ h.nodup) hn hm hid

theorem place_eq_of_id_eq (h : d.Distinct) {q : Place} (hp : p ∈ d.places) (hq : q ∈ d.places)
    (hid : p.id = q.id) : p = q := by
  have hids : d.places.map Place.id = d.ids := by
    rw [ids_eq_map, ← map_tree_places, List.map_map]
    rfl
  exact List.inj_on_of_nodup_map (hids ▸ h.nodup) hp hq hid

theorem place? (h : d.Distinct) (hp : p ∈ d.places) : d.place? p.id = some p := by
  obtain ⟨q, hq⟩ := exists_place? (id_mem_ids (tree_mem_nodes hp))
  rw [show p.tree.id = p.id from rfl] at hq
  rw [hq, h.place_eq_of_id_eq (mem_places_of_place? hq) hp (id_of_place? hq)]

theorem place_distinct (h : d.Distinct) (hp : p ∈ d.places) : p.Distinct := by
  obtain ⟨t, ht, hp⟩ := mem_places.1 hp
  exact Tree.distinct_of_mem_places ((List.nodup_flatMap.1 h.nodup).1 t ht) hp

/-- A node whose tree has the id of a place is one that the place stands within. -/
theorem isWithin_of_mem_ids (h : d.Distinct) (hp : p ∈ d.places) {n : Tree} (hn : n ∈ d.nodes)
    (hin : p.id ∈ n.ids) : p.isWithin n.id := by
  rw [← map_tree_places] at hn
  obtain ⟨q, hq, rfl⟩ := List.mem_map.1 hn
  obtain ⟨r, hr, hid⟩ := Place.exists_mem_descend hin
  obtain rfl := h.place_eq_of_id_eq (mem_places_descend hq hr) hp hid
  obtain ⟨t, ht, hq⟩ := mem_places.1 hq
  have ht : (⟨t, []⟩ : Place).Distinct := (List.nodup_flatMap.1 h.nodup).1 t ht
  exact (ht.isWithin_iff (Place.descend_trans hq hr) hq).2 hr

theorem exists_of_isWithin (h : d.Distinct) (hp : p ∈ d.places) {i : NodeId} (hi : p.isWithin i) :
    ∃ n ∈ d.nodes, n.id = i ∧ p.id ∈ n.ids := by
  obtain ⟨t, ht, hpt⟩ := mem_places.1 hp
  have htop : (⟨t, []⟩ : Place).Distinct := (List.nodup_flatMap.1 h.nodup).1 t ht
  have hin : i ∈ t.ids := by
    obtain rfl := Tree.whole_of_mem_places hpt
    refine (ids_closeAll p.above p.tree).mem_iff.2 (List.mem_append.2 ?_)
    simp only [Place.isWithin, Bool.or_eq_true, beq_iff_eq, List.any_eq_true] at hi
    rcases hi with rfl | ⟨level, hlevel, rfl⟩
    · exact Or.inl p.tree.id_mem_ids
    · exact Or.inr (Place.level_id_mem hlevel)
  obtain ⟨q, hq, rfl⟩ := Place.exists_mem_descend (p := ⟨t, []⟩) hin
  exact ⟨q.tree, tree_mem_nodes (mem_places.2 ⟨t, ht, hq⟩), rfl, (htop.mem_ids_iff hpt hq).2 hi⟩

end Distinct

@[simp] theorem next_update (d : Document) (x : NodeId) (f : Tree → Tree) :
    (d.update x f).next = d.next := rfl

@[simp] theorem trees_update (d : Document) (x : NodeId) (f : Tree → Tree) :
    (d.update x f).trees = d.trees.map (·.update x f) := rfl

@[simp] theorem next_splice (d : Document) (x : NodeId) (row : Tree → List Tree) :
    (d.splice x row).next = d.next := rfl

@[simp] theorem trees_splice (d : Document) (x : NodeId) (row : Tree → List Tree) :
    (d.splice x row).trees = d.trees.map (·.splice x row) := rfl

theorem trees_update_of_not_mem (h : x ∉ d.ids) (f : Tree → Tree) :
    (d.update x f).trees = d.trees := by
  rw [trees_update]
  exact Tree.map_update_of_not_mem h

theorem trees_splice_of_not_mem (h : x ∉ d.ids) (row : Tree → List Tree) :
    (d.splice x row).trees = d.trees := by
  have hid : ∀ t ∈ d.trees, t.splice x row = t := fun t ht => Tree.splice_of_not_mem
    fun c hc hx => h (List.mem_flatMap.2 ⟨t, ht, Tree.mem_ids_iff.2 (Or.inr ⟨c, hc, hx⟩)⟩)
  rw [trees_splice, List.map_congr_left hid, List.map_id']

/-- A document cut open at a node: the trees before and after the one that the node stands in. -/
theorem Distinct.cut (h : d.Distinct) (hp : d.place? x = some p) :
    ∃ before after, d.trees = before ++ p.whole :: after ∧
      (∀ f, (d.update x f).trees = before ++ closeAll p.above (f p.tree) :: after) ∧
      (∀ row, (d.splice x row).trees = before ++ p.whole.splice x row :: after) := by
  obtain ⟨t, ht, hpt⟩ := mem_places.1 (mem_places_of_place? hp)
  obtain rfl := Tree.whole_of_mem_places hpt
  obtain rfl := id_of_place? hp
  obtain ⟨before, after, htrees⟩ := List.append_of_mem ht
  have hids := h.nodup
  rw [ids, htrees, List.flatMap_append, List.flatMap_cons] at hids
  have hx : p.id ∈ p.whole.ids :=
    Tree.ids_subset_of_mem_nodes (map_tree_placesUnder p.whole [] ▸ List.mem_map_of_mem hpt)
      p.tree.id_mem_ids
  have hbefore : p.id ∉ before.flatMap Tree.ids := fun hin =>
    (List.nodup_append.1 hids).2.2 _ hin _ (List.mem_append_left _ hx) rfl
  have hafter : p.id ∉ after.flatMap Tree.ids := fun hin =>
    (List.nodup_append.1 (List.nodup_append.1 hids).2.1).2.2 _ hx _ hin rfl
  have habove : p.id ∉ p.above.flatMap Level.ids := fun hin =>
    (List.nodup_append.1 (h.place_distinct (mem_places_of_place? hp)).nodup).2.2 _
      p.tree.id_mem_ids _ hin rfl
  refine ⟨before, after, htrees, fun f => ?_, fun row => ?_⟩
  · rw [trees_update, htrees, List.map_append, List.map_cons, Tree.map_update_of_not_mem hbefore,
      Tree.map_update_of_not_mem hafter, Place.whole, update_closeAll habove,
      Tree.update_of_eq (show p.tree.id = p.id from rfl)]
  · have hkeep : ∀ trees : List Tree, p.id ∉ trees.flatMap Tree.ids →
        trees.map (·.splice p.id row) = trees := by
      intro trees hnot
      have hid : ∀ t ∈ trees, t.splice p.id row = t := fun t ht => Tree.splice_of_not_mem
        fun c hc hx => hnot (List.mem_flatMap.2 ⟨t, ht, Tree.mem_ids_iff.2 (Or.inr ⟨c, hc, hx⟩)⟩)
      rw [List.map_congr_left hid, List.map_id']
    rw [trees_splice, htrees, List.map_append, List.map_cons, hkeep _ hbefore, hkeep _ hafter]

/-- The ids of a document are those at a node and others; a change to the node keeps the others. -/
theorem Distinct.ids_around (h : d.Distinct) (hp : d.place? x = some p) :
    ∃ others : List NodeId, d.ids.Perm (p.tree.ids ++ others) ∧
      (∀ f, (d.update x f).ids.Perm ((f p.tree).ids ++ others)) ∧
      (p.above ≠ [] → ∀ row, (d.splice x row).ids.Perm ((row p.tree).flatMap Tree.ids ++ others)) := by
  obtain ⟨before, after, htrees, hupdate, hsplice⟩ := h.cut hp
  obtain rfl := id_of_place? hp
  have haround : ∀ (inner : List NodeId) (t : Tree),
      t.ids.Perm (inner ++ p.above.flatMap Level.ids) →
        ((before ++ t :: after).flatMap Tree.ids).Perm
          (inner ++ (p.above.flatMap Level.ids ++ before.flatMap Tree.ids
            ++ after.flatMap Tree.ids)) := by
    intro inner t ht
    rw [List.flatMap_append, List.flatMap_cons]
    rw [List.perm_iff_count] at ht ⊢
    intro i
    have := ht i
    simp only [List.count_append] at this ⊢
    omega
  refine ⟨p.above.flatMap Level.ids ++ before.flatMap Tree.ids ++ after.flatMap Tree.ids, ?_,
    fun f => ?_, fun habove row => ?_⟩
  · rw [ids, htrees]
    exact haround _ _ (ids_closeAll p.above p.tree)
  · rw [ids, hupdate]
    exact haround _ _ (ids_closeAll p.above (f p.tree))
  · rw [ids, hsplice]
    refine haround _ _ ?_
    obtain ⟨level, rest, heq⟩ := List.exists_cons_of_ne_nil habove
    have hx : p.tree.id ∉ (level :: rest).flatMap Level.ids := fun hin =>
      (List.nodup_append.1 (h.place_distinct (mem_places_of_place? hp)).nodup).2.2 _
        p.tree.id_mem_ids _ (heq ▸ hin) rfl
    rw [Place.whole, heq, show p.id = p.tree.id from rfl, splice_closeAll_cons hx]
    have hrow : (level.closeRow (row p.tree)).ids.Perm
        ((row p.tree).flatMap Tree.ids ++ level.ids) := by
      simp only [Level.closeRow, Tree.ids_node, Level.ids, List.flatMap_append]
      rw [List.perm_iff_count]
      intro i
      simp only [List.count_cons, List.count_append]
      omega
    calc (closeAll rest (level.closeRow (row p.tree))).ids
        |>.Perm ((level.closeRow (row p.tree)).ids ++ rest.flatMap Level.ids) := ids_closeAll _ _
      _ |>.Perm (((row p.tree).flatMap Tree.ids ++ level.ids) ++ rest.flatMap Level.ids) :=
          hrow.append_right _
      _ = (row p.tree).flatMap Tree.ids ++ (level :: rest).flatMap Level.ids := by simp

/-- Where a node stands below no other, no row is put in its place. -/
theorem Distinct.trees_splice_of_above (h : d.Distinct) (hp : d.place? x = some p)
    (habove : p.above = []) (row : Tree → List Tree) : (d.splice x row).trees = d.trees := by
  obtain ⟨before, after, htrees, -, hsplice⟩ := h.cut hp
  obtain rfl := id_of_place? hp
  have hwhole : p.whole = p.tree := by
    rw [Place.whole, habove]
    rfl
  have hnodup := h.nodup_ids (tree_mem_nodes (mem_places_of_place? hp))
  have hchild : ∀ c ∈ p.tree.children, p.id ∉ c.ids := fun c hc => Tree.not_mem_ids_child hnodup hc
  rw [hsplice, htrees, hwhole, Tree.splice_of_not_mem hchild]

end Document

end ThemeSection
