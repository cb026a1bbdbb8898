import ThemeSection.Proofs.Document.Edit
import ThemeSection.Proofs.Markup.Reading

/-!
What an edit at one node leaves of all others. An edit to attributes carries every node along; other
content for a node, or a new element in its place, carries those that do not stand below it. Whatever
is carried keeps its id, its kind and its place among the children of its parent, and no text is lost
but for one that shows the start of an output.
-/

namespace ThemeSection

open Markup

namespace Document

variable {d d' : Document} {x : NodeId} {p : Place}

theorem trees_setText (hd : d.Distinct) (hp : d.place? x = some p) (content : String) :
    (d.setText x content).trees =
      (d.update x (·.withChildren [.ofText d.next content])).trees ++ p.tree.children := by
  obtain ⟨hclear, hnext⟩ := clear_of_place? hp
  have hmem := tree_mem_nodes (mem_places_of_place? hp)
  have haway : x ∉ p.tree.children.flatMap Tree.ids := by
    rw [← id_of_place? hp]
    intro hin
    obtain ⟨c, hc, hin⟩ := List.mem_flatMap.1 hin
    exact Tree.not_mem_ids_child (hd.nodup_ids hmem) hc hin
  rw [setText, appendText, append]
  change ((d.clear x).trees.map _) = _
  rw [hclear, hnext, List.map_append, Tree.map_update_of_not_mem haway, trees_update, trees_update,
    List.map_map]
  congr 1
  refine List.map_congr_left fun t _ => ?_
  rw [Function.comp_apply, Tree.update_update (Tree.id_withChildren [])]
  congr 1
  funext m
  obtain ⟨id, kind, children⟩ := m
  rfl

/-- The `div` that takes the place of an element, with its text. -/
def renewed (d : Document) (attributes : Attributes) (content : String) : Tree :=
  .node d.next (.element (.html "div") attributes) [.ofText (d.next + 1) content]

theorem trees_renew (hd : d.Distinct) (hp : d.place? x = some p) {name : ElementName}
    {attributes : Attributes} (helement : p.tree.element? = some (name, attributes))
    (content : String) :
    (d.apply (.renew x content)).trees =
      (d.splice x fun _ => [d.renewed attributes content]).trees ++
        [if p.above = [] then d.renewed attributes content else p.tree] := by
  have hretag : (d.retag? x "div").isSome := by
    simp [retag?, hp, helement, newElement?_div]
  obtain ⟨⟨made, d'⟩, hretag⟩ := Option.isSome_iff_exists.1 hretag
  obtain ⟨p', name', attributes', hp', helement', rfl, hnext, hroot, hbelow⟩ := retag?_div hretag
  obtain rfl := Option.some.inj (hp.symm.trans hp')
  obtain ⟨-, rfl⟩ := Prod.mk.inj (Option.some.inj (helement.symm.trans helement'))
  have hfresh : d.next ∉ d.ids := fun hin => Nat.lt_irrefl _ (hd.fresh _ hin)
  have hmade : (d.newDiv attributes).update d.next
      (fun t => t.withChildren (t.children ++ [.ofText d'.next content])) =
        d.renewed attributes content := by
    rw [Tree.update_of_eq (show (d.newDiv attributes).id = d.next from rfl), hnext]
    rfl
  rw [apply, hretag]
  change d'.trees.map (Tree.update d.next _) = _
  by_cases habove : p.above = []
  · rw [hroot habove, List.map_append, Tree.map_update_of_not_mem hfresh, List.map_singleton, hmade,
      if_pos habove, hd.trees_splice_of_above hp habove]
  · have htree : d.next ∉ p.tree.ids := fun hin => hfresh
      (ids_subset_of_mem_nodes (tree_mem_nodes (mem_places_of_place? hp)) hin)
    rw [hbelow habove, List.map_append, List.map_singleton, Tree.update_of_not_mem htree,
      if_neg habove, trees_splice, trees_splice, List.map_map]
    congr 1
    refine List.map_congr_left fun t ht => ?_
    rw [Function.comp_apply, Tree.update_splice fun hin => hfresh (List.mem_flatMap.2 ⟨t, ht, hin⟩)]
    congr 1
    funext m
    rw [List.map_singleton, hmade]

/-- What a document reads as shows the start of an output, or the document it has come from reads so
at that node. -/
def Retold (d d' : Document) : Prop :=
  ∀ n' ∈ d'.nodes, n'.isMarked ∨ ∃ n ∈ d.nodes, n.id = n'.id ∧ n'.text = n.text

/-- Each tree goes over into one of the changed document, and a node goes along with its parent unless
it is cut off from it. -/
structure Moves (d d' : Document) (cut : Tree → Tree → Prop) (carry : Tree → Tree) : Prop where
  trees : ∀ t ∈ d.trees, carry t ∈ d'.trees
  id : ∀ n, (carry n).id = n.id
  children : ∀ n ∈ d.nodes, ∀ c ∈ n.children, ¬ cut n c → carry c ∈ (carry n).children

theorem exists_place_of_mem_children {c : Tree} (hp : p ∈ d.places) (hc : c ∈ p.tree.children) :
    ∃ q ∈ d.places, q.tree = c ∧ q.above.map Level.id = p.id :: p.above.map Level.id := by
  rw [← Place.map_tree_children] at hc
  obtain ⟨q, hq, rfl⟩ := List.mem_map.1 hc
  obtain ⟨level, hlevel, habove⟩ := Place.above_of_mem_children hq
  refine ⟨q, mem_places_descend hp (p.children_sublist.subset hq), rfl, ?_⟩
  rw [habove, List.map_cons, hlevel]

/-- A place goes along if nothing is cut off on the way down to its node. -/
theorem Moves.place {cut : Tree → Tree → Prop} {carry : Tree → Tree} (h : d.Moves d' cut carry)
    (hp : p ∈ d.places) (hkept : ∀ n ∈ d.nodes, ∀ c ∈ n.children, p.tree ∈ c.nodes → ¬ cut n c) :
    ∃ p' ∈ d'.places, p'.tree = carry p.tree ∧ p'.above.map Level.id = p.above.map Level.id := by
  obtain ⟨tree, above⟩ := p
  induction above generalizing tree with
  | nil =>
    have htree : tree ∈ d.trees := whole_mem_trees hp
    exact ⟨⟨carry tree, []⟩, mem_places.2 ⟨carry tree, h.trees tree htree, Place.self_mem_descend _⟩,
      rfl, rfl⟩
  | cons level rest ih =>
    have hparent := mem_places_close hp
    have hchild := Place.mem_children_close level tree
    obtain ⟨q, hq, hqtree, hqabove⟩ := ih _ hparent fun n hn c hc hin =>
      hkept n hn c hc (Tree.nodes_trans hin (Tree.mem_nodes_of_mem_children hchild))
    have hcarried : carry tree ∈ q.tree.children := hqtree ▸ h.children _ (tree_mem_nodes hparent) _
      hchild (hkept _ (tree_mem_nodes hparent) _ hchild tree.self_mem_nodes)
    obtain ⟨p', hp', hptree, habove⟩ := exists_place_of_mem_children hq hcarried
    have hid : q.id = level.id := (congrArg Tree.id hqtree).trans (h.id _)
    exact ⟨p', hp', hptree, by rw [habove, hid, hqabove]; rfl⟩

/-- The document has changed at one node. Nodes that are not lost are carried along, and those that
are lost are still to be found. -/
structure Carries (d d' : Document) (x : NodeId) (lost : Tree → Prop) (carry : Tree → Tree) :
    Prop where
  root : d'.root = carry d.root
  trees : ∀ t ∈ d.trees, carry t ∈ d'.trees
  nodes : ∀ t ∈ d.nodes, ∀ n ∈ t.nodes, ¬ lost n → carry n ∈ (carry t).nodes
  id : ∀ n, (carry n).id = n.id
  kind : ∀ n, n.id ≠ x → (carry n).kind = n.kind
  children : ∀ n ∈ d.nodes, ¬ lost n → ∀ c ∈ n.children, ¬ lost c → carry c ∈ (carry n).children
  away : ∀ n, x ∉ n.ids → carry n = n
  lost : ∀ n ∈ d.nodes, lost n → x ∉ n.ids → n ∈ d'.nodes
  retold : d.Retold d'

namespace Carries

variable {lost : Tree → Prop} {carry : Tree → Tree} (h : d.Carries d' x lost carry)
include h

theorem mem_nodes {n : Tree} (hn : n ∈ d.nodes) (hout : ¬ lost n) : carry n ∈ d'.nodes := by
  obtain ⟨t, ht, hn⟩ := Document.mem_nodes.1 hn
  exact Document.mem_nodes.2 ⟨carry t, h.trees t ht,
    h.nodes t (Document.mem_nodes.2 ⟨t, ht, t.self_mem_nodes⟩) n hn hout⟩

/-- A place goes along if neither its node nor any above it is lost. -/
theorem place {p : Place} (hp : p ∈ d.places) (hkept : ∀ n ∈ d.nodes, p.tree ∈ n.nodes → ¬ lost n) :
    ∃ p' ∈ d'.places, p'.tree = carry p.tree ∧ p'.above.map Level.id = p.above.map Level.id := by
  have hmoves : d.Moves d' (fun n c => lost n ∨ lost c) carry :=
    { trees := h.trees
      id := h.id
      children := fun n hn c hc hkept => h.children n hn (hkept ∘ Or.inl) c hc (hkept ∘ Or.inr) }
  refine hmoves.place hp fun n hn c hc hin hlost => hlost.elim (hkept n hn ?_) (hkept c ?_ hin)
  · exact Tree.nodes_trans (Tree.mem_nodes_of_mem_children hc) hin
  · exact mem_nodes_of_mem_children hn hc

/-- A node that the changed one does not stand in is still there, as it was. -/
theorem mem_nodes_of_away {n : Tree} (hn : n ∈ d.nodes) (hx : x ∉ n.ids) : n ∈ d'.nodes := by
  by_cases hlost : lost n
  · exact h.lost n hn hlost hx
  · exact h.away n hx ▸ h.mem_nodes hn hlost

end Carries

theorem Retold.trans {d'' : Document} (h : d.Retold d') (h' : d'.Retold d'') : d.Retold d'' := by
  intro n'' hn''
  rcases h' n'' hn'' with hmarked | ⟨n', hn', hid', htext'⟩
  · exact Or.inl hmarked
  · rcases h n' hn' with hmarked | ⟨n, hn, hid, htext⟩
    · exact Or.inl ((Tree.isMarked_congr htext').trans hmarked)
    · exact Or.inr ⟨n, hn, hid.trans hid', htext'.trans htext⟩

/-- A marked node stays marked. -/
theorem Retold.isMarked (h : d.Retold d') (hd : d.Distinct) {n n' : Tree} (hn : n ∈ d.nodes)
    (hn' : n' ∈ d'.nodes) (hid : n'.id = n.id) (hmarked : n.isMarked) : n'.isMarked := by
  rcases h n' hn' with hmarked' | ⟨m, hm, hmid, htext⟩
  · exact hmarked'
  · obtain rfl := hd.eq_of_id_eq hm hn (hmid.trans hid)
    exact (Tree.isMarked_congr htext).trans hmarked

theorem retold_of_trees {changed : Document} {more : List Tree}
    (htrees : d'.trees = changed.trees ++ more) (hchanged : d.Retold changed)
    (hmore : ∀ t ∈ more, t ∈ d.nodes ∨ ∀ n ∈ t.nodes, n.isMarked) : d.Retold d' := by
  intro n hn
  obtain ⟨t, ht, hn⟩ := Document.mem_nodes.1 hn
  rw [htrees, List.mem_append] at ht
  rcases ht with ht | ht
  · exact hchanged n (Document.mem_nodes.2 ⟨t, ht, hn⟩)
  · rcases hmore t ht with hold | hnew
    · exact Or.inr ⟨n, nodes_trans hold hn, rfl, rfl⟩
    · exact Or.inl (hnew n hn)

theorem retold_update {f : Tree → Tree}
    (hf : ∀ m ∈ d.nodes, m.id = x → m.Retells (f m) ∧
      ∀ n ∈ (f m).nodes, n = f m ∨ n ∈ d.nodes ∨ n.isMarked)
    (hid : ∀ m, (f m).id = m.id) : d.Retold (d.update x f) := by
  intro n hn
  obtain ⟨t', ht', hn⟩ := Document.mem_nodes.1 hn
  obtain ⟨t, ht, rfl⟩ : ∃ t ∈ d.trees, _ = t' := List.mem_map.1 ht'
  have hmem : ∀ {m : Tree}, m ∈ t.nodes → m ∈ d.nodes := fun hm => Document.mem_nodes.2 ⟨t, ht, hm⟩
  have hretells : ∀ {m m' : Tree}, m ∈ d.nodes → m.Retells m' → m'.id = m.id →
      m'.isMarked ∨ ∃ n ∈ d.nodes, n.id = m'.id ∧ m'.text = n.text := fun hm h hid =>
    h.imp_right fun htext => ⟨_, hm, hid.symm, htext⟩
  rcases Tree.mem_nodes_update hn with ⟨m, hm, -, rfl⟩ | ⟨m, hm, heq, hn⟩
  · refine hretells (hmem hm) (Tree.retells_update fun k hk heq => ?_) (Tree.id_update hid m)
    exact (hf k (hmem (Tree.nodes_trans hm hk)) heq).1
  · obtain ⟨hroot, hnodes⟩ := hf m (hmem hm) heq
    rcases hnodes n hn with rfl | hold | hmarked
    · exact hretells (hmem hm) hroot (hid m)
    · exact Or.inr ⟨n, hold, rfl, rfl⟩
    · exact Or.inl hmarked

theorem retold_splice {made : Tree} (hmade : ∀ n ∈ made.nodes, n.isMarked) :
    d.Retold (d.splice x fun _ => [made]) := by
  intro n hn
  obtain ⟨t', ht', hn⟩ := Document.mem_nodes.1 hn
  obtain ⟨t, ht, rfl⟩ : ∃ t ∈ d.trees, _ = t' := List.mem_map.1 ht'
  rcases Tree.mem_nodes_splice hn with ⟨m, hm, rfl⟩ | ⟨m, hm, heq, r, hr, hnr⟩
  · have hretells : m.Retells (m.splice x fun _ => [made]) := Tree.retells_splice fun k _ _ =>
      ⟨made, rfl, Or.inl (hmade made made.self_mem_nodes)⟩
    exact hretells.imp_right fun htext =>
      ⟨m, Document.mem_nodes.2 ⟨t, ht, hm⟩, (Tree.id_splice _ _ _).symm, htext⟩
  · obtain rfl := List.mem_singleton.1 hr
    exact Or.inl (hmade n hnr)

/-- Changing attributes carries everything along. -/
theorem carries_mapAttributes (hd : d.Distinct) (x : NodeId) (change : Attributes → Attributes) :
    d.Carries (d.update x (·.mapAttributes change)) x (fun _ => False)
      (Tree.update x (·.mapAttributes change)) where
  root := rfl
  trees := fun t ht => List.mem_map_of_mem ht
  nodes := fun t ht n hn _ =>
    Tree.update_mem_nodes_of_children (Tree.children_mapAttributes change) (hd.nodup_ids ht) hn
  id := Tree.id_update (Tree.id_mapAttributes change)
  kind := fun n hne => by rw [Tree.update_of_ne hne, Tree.kind_node]
  children := by
    intro n hn _ c hc _
    by_cases hid : n.id = x
    · have haway : x ∉ c.ids := hid ▸ Tree.not_mem_ids_child (hd.nodup_ids hn) hc
      rw [Tree.update_of_not_mem haway, Tree.update_of_eq hid, Tree.children_mapAttributes]
      exact hc
    · rw [Tree.update_of_ne hid]
      exact List.mem_map_of_mem hc
  away := fun n hx => Tree.update_of_not_mem hx
  lost := fun _ _ h => h.elim
  retold := by
    refine retold_update (fun m hm _ =>
      ⟨Or.inr (Tree.text_mapAttributes change m), fun n hn => ?_⟩) (Tree.id_mapAttributes change)
    rcases Tree.mem_nodes_iff.1 hn with rfl | ⟨c, hc, hn⟩
    · exact Or.inl rfl
    · rw [Tree.children_mapAttributes] at hc
      exact Or.inr (Or.inl (nodes_trans (mem_nodes_of_mem_children hm hc) hn))

section

variable (hd : d.Distinct) (hp : d.place? x = some p)
include hd hp

theorem eq_of_place? {m : Tree} (hm : m ∈ d.nodes) (hid : m.id = x) : m = p.tree :=
  hd.eq_of_id_eq hm (tree_mem_nodes (mem_places_of_place? hp)) (hid.trans (id_of_place? hp).symm)

/-- What is said of the node of a place is said of all nodes with its id. -/
theorem forall_of_id_eq {motive : Tree → Prop} (h : motive p.tree) {t : Tree} (ht : t ∈ d.nodes) :
    ∀ m ∈ t.nodes, m.id = x → motive m := by
  intro m hm hid
  rwa [eq_of_place? hd hp (nodes_trans ht hm) hid]

variable {content : String} (hmarked : ∀ id, (Tree.ofText id content).isMarked)
include hmarked

/-- A new text for a node carries all nodes along but those that it held. -/
theorem carries_setText :
    d.Carries (d.setText x content) x (fun n => ∃ c ∈ p.tree.children, n ∈ c.nodes)
      (Tree.update x (·.withChildren [.ofText d.next content])) := by
  have htrees := trees_setText hd hp content
  have hmem := tree_mem_nodes (mem_places_of_place? hp)
  constructor
  case root => exact (List.cons.inj htrees).1
  case trees =>
    intro t ht
    rw [htrees]
    exact List.mem_append_left _ (List.mem_map_of_mem ht)
  case nodes =>
    intro t ht n hn hout
    refine Tree.update_mem_nodes hn (forall_of_id_eq hd hp (fun c hc hnc => ?_) ht)
    exact hout ⟨c, hc, hnc⟩
  case id => exact Tree.id_update (Tree.id_withChildren _)
  case kind => exact fun n hne => by rw [Tree.update_of_ne hne, Tree.kind_node]
  case children =>
    intro n hn _ c hc hkept
    have hne : n.id ≠ x := by
      rintro rfl
      obtain rfl := eq_of_place? hd hp hn rfl
      exact hkept ⟨c, hc, c.self_mem_nodes⟩
    rw [Tree.update_of_ne hne]
    exact List.mem_map_of_mem hc
  case away => exact fun n hx => Tree.update_of_not_mem hx
  case lost =>
    rintro n - ⟨c, hc, hn⟩ -
    exact Document.mem_nodes.2 ⟨c, htrees ▸ List.mem_append_right _ hc, hn⟩
  case retold =>
    refine retold_of_trees htrees (retold_update (fun m hm hid => ⟨Or.inl ?_, fun n hn => ?_⟩)
      (Tree.id_withChildren _)) fun t ht => Or.inl (mem_nodes_of_mem_children hmem ht)
    · exact Tree.isMarked_withText (hmarked d.next)
    · rcases Tree.mem_nodes_iff.1 hn with rfl | ⟨c, hc, hn⟩
      · exact Or.inl rfl
      · rw [Tree.children_withChildren] at hc
        obtain rfl := List.mem_singleton.1 hc
        obtain rfl := List.mem_singleton.1 hn
        exact Or.inr (Or.inr (hmarked d.next))

/-- A new element in the place of another carries all nodes along but the old element with all that
it held. -/
theorem carries_renew {name : ElementName} {attributes : Attributes}
    (helement : p.tree.element? = some (name, attributes)) :
    d.Carries (d.apply (.renew x content)) x (· ∈ p.tree.nodes)
      (Tree.splice x fun _ => [d.renewed attributes content]) := by
  have htrees := trees_renew hd hp helement content
  have hmem := tree_mem_nodes (mem_places_of_place? hp)
  have hnodes : (d.renewed attributes content).nodes =
      [d.renewed attributes content, .ofText (d.next + 1) content] := rfl
  have hmade : ∀ n ∈ (d.renewed attributes content).nodes, n.isMarked := by
    have htext : (d.renewed attributes content).isMarked :=
      Tree.isMarked_of_mem_nodes (hnodes ▸ List.mem_cons_of_mem _ (List.mem_singleton_self _))
        (hmarked (d.next + 1))
    rw [hnodes, List.forall_mem_cons]
    exact ⟨htext, List.forall_mem_singleton.2 (hmarked _)⟩
  constructor
  case root => exact (List.cons.inj htrees).1
  case trees =>
    intro t ht
    rw [htrees]
    exact List.mem_append_left _ (List.mem_map_of_mem ht)
  case nodes =>
    exact fun t ht n hn hout => Tree.splice_mem_nodes hn
      (forall_of_id_eq hd hp (motive := fun m => n ∉ m.nodes) hout ht)
  case id => exact Tree.id_splice _ _
  case kind => exact fun n _ => Tree.kind_splice _ _ n
  case children =>
    intro n hn _ c hc hkept
    have hne : c.id ≠ x := by
      rintro rfl
      obtain rfl := eq_of_place? hd hp (mem_nodes_of_mem_children hn hc) rfl
      exact hkept p.tree.self_mem_nodes
    rw [Tree.children_splice]
    refine List.mem_flatMap.2 ⟨c, hc, ?_⟩
    rw [Tree.spliced, if_neg hne]
    exact List.mem_singleton_self _
  case away =>
    exact fun n hx => Tree.splice_of_not_mem fun c hc hin => hx
      (Tree.mem_ids_iff.2 (Or.inr ⟨c, hc, hin⟩))
  case lost =>
    intro n hn hlost _
    by_cases habove : p.above = []
    · obtain ⟨t, ht, hn⟩ := Document.mem_nodes.1 hn
      rw [hd.trees_splice_of_above hp habove] at htrees
      exact Document.mem_nodes.2 ⟨t, htrees ▸ List.mem_append_left _ ht, hn⟩
    · rw [if_neg habove] at htrees
      exact Document.mem_nodes.2 ⟨p.tree, htrees ▸ List.mem_append_right _ (List.mem_singleton_self _),
        hlost⟩
  case retold =>
    refine retold_of_trees htrees (retold_splice hmade) fun t ht => ?_
    obtain rfl := List.mem_singleton.1 ht
    split
    · exact Or.inr hmade
    · exact Or.inl hmem

end

end Document

end ThemeSection
