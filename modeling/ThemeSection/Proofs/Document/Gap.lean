import Mathlib.Data.List.Pairwise
import ThemeSection.Proofs.Document.Frame
import ThemeSection.Proofs.Document.Rewrite

/-!
Edits that stay in one place. Cut open at a node, a document is what stands around a gap and the
tree in it. An edit of a node that does not stand around the gap changes the tree in it, or trees
that have been taken out, and nothing else. Where the gap is that of a parent, edits of its children
change the row of them.
-/

namespace ThemeSection

open Markup

namespace Markup.Tree

variable {t : Tree} {x : NodeId} {f : Tree → Tree} {good : String → Prop}

theorem filter_id_ne (x : NodeId) (trees : List Tree) :
    trees.filter (·.id ≠ x) = trees.flatMap fun t => if t.id = x then [] else [t] := by
  induction trees with
  | nil => rfl
  | cons t rest ih =>
    rw [List.filter_cons, List.flatMap_cons, ih]
    by_cases hid : t.id = x <;> simp [hid]

/-- All texts that are written in a tree have a property. -/
def AllTexts (good : String → Prop) (t : Tree) : Prop :=
  ∀ s ∈ t.writtenTexts, good s

theorem allTexts_node {id : NodeId} {kind : NodeKind} {children : List Tree} :
    (node id kind children).AllTexts good ↔
      (node id kind []).AllTexts good ∧ ∀ c ∈ children, c.AllTexts good := by
  have hsplit : (node id kind children).writtenTexts =
      (node id kind []).writtenTexts ++ children.flatMap writtenTexts := by
    simp only [writtenTexts, nodes_node, List.flatMap_cons, List.flatMap_nil, List.append_nil,
      List.flatMap_assoc]
    rfl
  simp only [AllTexts, hsplit, List.mem_append, List.mem_flatMap, or_imp, forall_and,
    forall_exists_index, and_imp]
  exact and_congr_right fun _ => ⟨fun h c hc s hs => h s c hc hs, fun h s c hc hs => h c hc s hs⟩

theorem AllTexts.update (h : t.AllTexts good)
    (hf : ∀ m : Tree, m.AllTexts good → (f m).AllTexts good) : (t.update x f).AllTexts good := by
  induction t using Tree.bottomUp with
  | node id kind children ih =>
    by_cases hid : (node id kind children).id = x
    · rw [update_of_eq hid]
      exact hf _ h
    · obtain ⟨hown, hchildren⟩ := allTexts_node.1 h
      rw [update_of_ne hid]
      exact allTexts_node.2 ⟨hown, List.forall_mem_map.2 fun c hc => ih c hc (hchildren c hc)⟩

theorem AllTexts.splice (h : t.AllTexts good) : (t.splice x fun _ => []).AllTexts good := by
  induction t using Tree.bottomUp with
  | node id kind children ih =>
    obtain ⟨hown, hchildren⟩ := allTexts_node.1 h
    rw [Tree.splice, spliceAll_eq_flatMap]
    refine allTexts_node.2 ⟨hown, fun c hc => ?_⟩
    obtain ⟨child, hchild, hc⟩ := List.mem_flatMap.1 hc
    rw [spliced] at hc
    split at hc
    · cases hc
    · obtain rfl := List.mem_singleton.1 hc
      exact ih child hchild (hchildren child hchild)

theorem AllTexts.withChildren (h : t.AllTexts good) {children : List Tree}
    (hchildren : ∀ c ∈ children, c.AllTexts good) : (t.withChildren children).AllTexts good := by
  obtain ⟨id, kind, old⟩ := t
  exact allTexts_node.2 ⟨(allTexts_node.1 h).1, hchildren⟩

theorem allTexts_ofText {id : NodeId} {content : String} (h : good content) :
    (ofText id content).AllTexts good :=
  fun _ hs => List.mem_singleton.1 hs ▸ h

theorem AllTexts.mapAttributes (h : t.AllTexts good) {change : Attributes → Attributes}
    (hchange : ∀ attributes : Attributes, (∀ a ∈ attributes, good a.value) →
      ∀ a ∈ change attributes, good a.value) : (t.mapAttributes change).AllTexts good := by
  obtain ⟨id, kind, children⟩ := t
  obtain ⟨hown, hchildren⟩ := allTexts_node.1 h
  cases kind with
  | element name attributes =>
    have hvalues : ∀ attributes : Attributes, (node id (.element name attributes) []).writtenTexts =
        attributes.map (·.value) := fun attributes => by simp [writtenTexts, nodes_node]
    rw [AllTexts, hvalues, List.forall_mem_map] at hown
    refine allTexts_node.2 ⟨?_, hchildren⟩
    rw [AllTexts, hvalues, List.forall_mem_map]
    exact hchange attributes hown
  | _ => exact h

end Markup.Tree

/-- What stands around a gap in one of the trees of a document. -/
structure Gap where
  /-- The trees before the one with the gap. -/
  before : List Tree
  /-- The nodes above the gap, the nearest first. -/
  above : List Level
  /-- The trees after the one with the gap. -/
  after : List Tree

namespace Gap

variable {g : Gap} {x : NodeId} {t : Tree}

/-- All trees, with one in the gap. -/
def fill (g : Gap) (t : Tree) : List Tree :=
  g.before ++ closeAll g.above t :: g.after

/-- The ids around the gap. -/
def ids (g : Gap) : List NodeId :=
  g.above.flatMap Level.ids ++ (g.before ++ g.after).flatMap Tree.ids

/-- The gap of a child in the gap of its parent. -/
def below (g : Gap) (level : Level) : Gap :=
  { g with above := level :: g.above }

theorem fill_below (g : Gap) (level : Level) (t : Tree) :
    (g.below level).fill t = g.fill (level.close t) := rfl

theorem ids_fill (g : Gap) (t : Tree) : ((g.fill t).flatMap Tree.ids).Perm (t.ids ++ g.ids) := by
  have hclosed := ids_closeAll g.above t
  rw [fill, ids, List.flatMap_append, List.flatMap_cons, List.flatMap_append]
  rw [List.perm_iff_count] at hclosed ⊢
  intro i
  have := hclosed i
  simp only [List.count_append] at this ⊢
  omega

theorem map_update_fill (hx : x ∉ g.ids) (f : Tree → Tree) (t : Tree) :
    (g.fill t).map (Tree.update x f) = g.fill (t.update x f) := by
  rw [ids, List.flatMap_append, List.mem_append, List.mem_append, not_or, not_or] at hx
  rw [fill, List.map_append, List.map_cons, Tree.map_update_of_not_mem hx.2.1,
    Tree.map_update_of_not_mem hx.2.2, update_closeAll hx.1, fill]

theorem map_splice_fill (hx : x ∉ g.ids) (row : Tree → List Tree) (hne : t.id ≠ x) :
    (g.fill t).map (Tree.splice x row) = g.fill (t.splice x row) := by
  rw [ids, List.flatMap_append, List.mem_append, List.mem_append, not_or, not_or] at hx
  rw [fill, List.map_append, List.map_cons, Tree.map_splice_of_not_mem hx.2.1,
    Tree.map_splice_of_not_mem hx.2.2, splice_closeAll hx.1 row t hne, fill]

end Gap

namespace Document

variable {d d' : Document} {g : Gap} {x y : NodeId} {t : Tree} {out : List Tree}

theorem exists_fill {p : Place} (hp : p ∈ d.places) :
    ∃ g : Gap, g.above = p.above ∧ d.trees = g.fill p.tree := by
  obtain ⟨before, after, htrees⟩ := List.append_of_mem (whole_mem_trees hp)
  exact ⟨⟨before, p.above, after⟩, rfl, htrees⟩

theorem mem_places_fill (htrees : d.trees = g.fill t ++ out) : ⟨t, g.above⟩ ∈ d.places := by
  refine mem_places_of_whole ?_
  rw [htrees]
  exact List.mem_append_left _ (List.mem_append_right _ List.mem_cons_self)

/-- Where ids tell nodes apart, the tree in a gap has none that stands around it or in the other
trees. -/
theorem Distinct.nodup_fill (h : d.Distinct) (htrees : d.trees = g.fill t ++ out) :
    (t.ids ++ (g.ids ++ out.flatMap Tree.ids)).Nodup := by
  have hids := h.nodup
  rw [Document.ids, htrees, List.flatMap_append] at hids
  rw [← List.append_assoc]
  exact ((g.ids_fill t).append_right _).nodup_iff.1 hids

/-- Detaching a node takes its tree out, or changes nothing. -/
theorem trees_detach_cases (d : Document) (y : NodeId) :
    (∃ c, (d.detach y).trees = (d.splice y fun _ => []).trees ++ [c]) ∨ d.detach y = d := by
  rw [Document.detach]
  split
  case h_1 c level rest hp => exact .inl ⟨c, rfl⟩
  case h_2 => exact .inr rfl

theorem next_detachAll (d : Document) (ys : List NodeId) : (d.detachAll ys).next = d.next := by
  refine List.foldlRecOn (motive := fun d' : Document => d'.next = d.next) ys Document.detach rfl
    fun b hb y _ => ?_
  rw [← hb, Document.detach]
  split <;> rfl

/-- A document that has a tree with a given id in a gap, and all of whose other trees but those
around the gap have been taken out. What is written in the tree in the gap has a property. -/
structure Confined (g : Gap) (x : NodeId) (good : String → Prop) (d : Document) : Prop where
  distinct : d.Distinct
  exists_fill : ∃ t out, t.id = x ∧ t.AllTexts good ∧ d.trees = g.fill t ++ out

variable {good : String → Prop}

namespace Confined

theorem of_update (h : Confined g x good d) (hd' : d'.Distinct) {f : Tree → Tree} {more : List Tree}
    (htrees : d'.trees = (d.update y f).trees ++ more) (hy : y ∉ g.ids) (hf : ∀ m, (f m).id = m.id)
    (hgood : ∀ m : Tree, m.AllTexts good → (f m).AllTexts good) : Confined g x good d' := by
  obtain ⟨t, out, hid, ht, hfill⟩ := h.exists_fill
  refine ⟨hd', t.update y f, out.map (Tree.update y f) ++ more, ?_, ht.update hgood, ?_⟩
  · rw [Tree.id_update hf, hid]
  · rw [htrees, trees_update, hfill, List.map_append, Gap.map_update_fill hy, List.append_assoc]

theorem of_splice (h : Confined g x good d) (hd' : d'.Distinct) {more : List Tree}
    (htrees : d'.trees = (d.splice y fun _ => []).trees ++ more) (hy : y ∉ g.ids) (hne : y ≠ x) :
    Confined g x good d' := by
  obtain ⟨t, out, hid, ht, hfill⟩ := h.exists_fill
  refine ⟨hd', t.splice y fun _ => [], out.map (Tree.splice y fun _ => []) ++ more, ?_, ht.splice,
    ?_⟩
  · rw [Tree.id_splice, hid]
  · have hne' : t.id ≠ y := fun heq => hne (heq.symm.trans hid)
    rw [htrees, trees_splice, hfill, List.map_append, Gap.map_splice_fill hy _ hne',
      List.append_assoc]

theorem of_trees (h : Confined g x good d) (hd' : d'.Distinct) (htrees : d'.trees = d.trees) :
    Confined g x good d' :=
  ⟨hd', htrees ▸ h.exists_fill⟩

theorem setAttribute (h : Confined g x good d) (hy : y ∉ g.ids) (name : String) {value : String}
    (hvalue : good value) : Confined g x good (d.setAttribute y name value) := by
  refine h.of_update (evolves_setAttribute h.distinct y name value).distinct
    (List.append_nil _).symm hy (Tree.id_mapAttributes _) fun m hm =>
      hm.mapAttributes fun attributes hold a ha => ?_
  rcases mem_set ha with rfl | ha
  · exact hvalue
  · exact hold a ha

theorem removeAttribute (h : Confined g x good d) (hy : y ∉ g.ids) (name : String) :
    Confined g x good (d.removeAttribute y name) :=
  h.of_update (evolves_removeAttribute h.distinct y name).distinct (List.append_nil _).symm hy
    (Tree.id_mapAttributes _) fun _ hm => hm.mapAttributes fun _ hold a ha =>
      hold a (List.mem_of_mem_filter ha)

theorem setText (h : Confined g x good d) (hy : y ∉ g.ids) {content : String}
    (hcontent : good content) : Confined g x good (d.setText y content) := by
  have hdistinct := (evolves_setText h.distinct y content).distinct
  cases hp : d.place? y with
  | none =>
    refine h.of_trees hdistinct ?_
    have hclear : d.clear y = d := by rw [clear, hp]
    rw [Document.setText, hclear]
    exact trees_update_of_not_mem (not_mem_ids_of_place? hp) _
  | some p =>
    exact h.of_update hdistinct (trees_setText h.distinct hp content) hy (Tree.id_withChildren _)
      fun m hm => hm.withChildren (List.forall_mem_singleton.2 (Tree.allTexts_ofText hcontent))

theorem detach (h : Confined g x good d) (hy : y ∉ g.ids) (hne : y ≠ x) :
    Confined g x good (d.detach y) := by
  have hdistinct := (evolves_detach h.distinct y).distinct
  rcases trees_detach_cases d y with ⟨c, htrees⟩ | heq
  · exact h.of_splice hdistinct htrees hy hne
  · rw [heq]
    exact h

theorem removeAttributes (h : Confined g x good d) (hy : y ∉ g.ids) (names : List String) :
    Confined g x good (d.removeAttributes y names) :=
  List.foldlRecOn (motive := Confined g x good) names (·.removeAttribute y ·) h
    fun _ h name _ => h.removeAttribute hy name

theorem detachAll (h : Confined g x good d) {ys : List NodeId}
    (hys : ∀ y ∈ ys, y ∉ g.ids ∧ y ≠ x) : Confined g x good (d.detachAll ys) :=
  List.foldlRecOn (motive := Confined g x good) ys Document.detach h
    fun _ h y hy => h.detach (hys y hy).1 (hys y hy).2

/-- What is found in the tree in the gap does not stand around it. -/
theorem not_mem_ids (h : Confined g x good d) {p q : Place} (hp : d.place? x = some p)
    (hq : q ∈ p.descend) : q.id ∉ g.ids := by
  obtain ⟨t, out, hid, -, hfill⟩ := h.exists_fill
  have hmem : t ∈ d.nodes := tree_mem_nodes (mem_places_fill hfill)
  have htree : p.tree = t := h.distinct.eq_of_id_eq (tree_mem_nodes (mem_places_of_place? hp)) hmem
    ((id_of_place? hp).trans hid.symm)
  have hin : q.id ∈ t.ids := htree ▸ Place.id_mem_of_mem_descend hq
  have hnodup := List.nodup_append.1 (h.distinct.nodup_fill hfill)
  exact fun hg => hnodup.2.2 _ hin _ (List.mem_append_left _ hg) rfl

end Confined

section Row

variable {id : NodeId} {kind : NodeKind} {children : List Tree}

/-- A row in the place of a child changes the row of the children, and nothing else. -/
theorem Distinct.trees_splice_child (h : d.Distinct)
    (htrees : d.trees = g.fill (.node id kind children) ++ out) {c : Tree} (hc : c ∈ children)
    (row : Tree → List Tree) :
    (d.splice c.id row).trees = g.fill (.node id kind
      (children.flatMap fun t => if t.id = c.id then row t else [t])) ++ out := by
  have hnodup := h.nodup_fill htrees
  rw [Tree.ids_node, List.cons_append] at hnodup
  obtain ⟨hroot, hnodup⟩ := List.nodup_cons.1 hnodup
  obtain ⟨hchildren, -, hdisjoint⟩ := List.nodup_append.1 hnodup
  have hin : c.id ∈ children.flatMap Tree.ids := List.mem_flatMap.2 ⟨c, hc, c.id_mem_ids⟩
  have hid : (Markup.Tree.node id kind children).id ≠ c.id := fun heq => by
    rw [Tree.id_node] at heq
    exact hroot (heq ▸ List.mem_append_left _ hin)
  have haway : c.id ∉ g.ids ++ out.flatMap Tree.ids := fun hin' => hdisjoint c.id hin c.id hin' rfl
  rw [List.mem_append, not_or] at haway
  rw [trees_splice, htrees, List.map_append, Tree.map_splice_of_not_mem haway.2,
    Gap.map_splice_fill haway.1 row hid, Tree.splice, Tree.spliceAll_eq_flatMap]
  congr 3
  refine List.flatMap_congr fun t ht => ?_
  rw [Tree.spliced]
  split
  · rfl
  case isFalse hne =>
    have hne' : c ≠ t := fun heq => hne (heq ▸ rfl)
    have : Std.Symm (Function.onFun List.Disjoint Tree.ids) := ⟨fun _ _ h _ ht hc => h hc ht⟩
    have hapart : List.Disjoint c.ids t.ids := (List.nodup_flatMap.1 hchildren).2.forall hc ht hne'
    have hout : c.id ∉ t.ids := fun hin => hapart c.id_mem_ids hin
    rw [Tree.splice_of_not_mem fun b hb hinb => hout (Tree.mem_ids_iff.2 (Or.inr ⟨b, hb, hinb⟩))]

theorem Distinct.trees_detach_child (h : d.Distinct)
    (htrees : d.trees = g.fill (.node id kind children) ++ out) {c : Tree} (hc : c ∈ children) :
    (d.detach c.id).trees =
      g.fill (.node id kind (children.filter (·.id ≠ c.id))) ++ (out ++ [c]) := by
  have hrow := h.trees_splice_child htrees hc fun _ => []
  have hplace : ∃ level, ⟨c, level :: g.above⟩ ∈ d.places := by
    obtain ⟨before, after, rfl⟩ := List.append_of_mem hc
    let level : Level := ⟨id, kind, before.reverse, after⟩
    have hopen : d.trees = (g.below level).fill c ++ out := by
      rw [htrees, Gap.fill_below, Level.close, List.reverse_reverse]
    exact ⟨level, mem_places_fill hopen⟩
  obtain ⟨level, hplace⟩ := hplace
  have hfound := h.place? hplace
  rw [Place.id] at hfound
  have hdetach : (d.detach c.id).trees = (d.splice c.id fun _ => []).trees ++ [c] := by
    rw [detach, hfound]
    rfl
  rw [hdetach, hrow, Tree.filter_id_ne, List.append_assoc]

/-- Children that are taken out one after the other stand on their own behind the other trees. -/
theorem Distinct.trees_detachAll_children (h : d.Distinct)
    (htrees : d.trees = g.fill (.node id kind children) ++ out) {cs : List Tree}
    (hcs : cs ⊆ children) (hnodup : (cs.map Tree.id).Nodup) :
    (d.detachAll (cs.map Tree.id)).trees =
      g.fill (.node id kind (children.filter (·.id ∉ cs.map Tree.id))) ++ (out ++ cs) := by
  induction cs generalizing d children out with
  | nil => simpa [Document.detachAll] using htrees
  | cons c rest ih =>
    obtain ⟨hc, hrest⟩ := List.cons_subset.1 hcs
    obtain ⟨hnew, hnodup⟩ := List.nodup_cons.1 hnodup
    have hleft : rest ⊆ children.filter (·.id ≠ c.id) := fun t ht => by
      have hne : t.id ≠ c.id := fun heq => hnew (heq ▸ List.mem_map_of_mem ht)
      exact List.mem_filter.2 ⟨hrest ht, decide_eq_true hne⟩
    have hdetached :=
      ih (evolves_detach h c.id).distinct (h.trees_detach_child htrees hc) hleft hnodup
    have hfilter : (children.filter (·.id ≠ c.id)).filter (·.id ∉ rest.map Tree.id) =
        children.filter (·.id ∉ (c :: rest).map Tree.id) := by
      rw [List.filter_filter]
      refine List.filter_congr fun t _ => ?_
      simp [eq_comm, Bool.and_comm]
    rw [hfilter, List.append_assoc] at hdetached
    exact hdetached

end Row

end Document

end ThemeSection
