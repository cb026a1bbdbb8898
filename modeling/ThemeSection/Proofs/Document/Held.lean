import ThemeSection.Proofs.Document.Gap

/-!
Elements that are held in their place. An edit that is not about a node around an element, and that
neither takes the element out nor puts anything next to it, changes what stands in the element or
what has been taken out before. After any number of such edits the element stands in the same gap, and
the elements in it that were not to be taken out are left or have been replaced, unless it was emptied.
-/

namespace ThemeSection

open Markup

namespace Markup.Tree

variable {t t' : Tree}

/-- An element that is no item of a list. -/
def isNoItem (t : Tree) : Bool :=
  t.tag?.any (· != "li")

theorem isElement_eq_isSome (t : Tree) : t.isElement = t.tag?.isSome :=
  Option.isSome_map.symm

theorem isElement_of_isNoItem (h : t.isNoItem) : t.isElement := by
  obtain ⟨tag, htag, -⟩ := (Option.any_eq_true _ _).1 h
  rw [isElement_eq_isSome, htag]
  rfl

theorem not_isNoItem (h : t.isTag ["li"]) : t.isNoItem = false := by
  unfold isTag at h
  unfold isNoItem
  cases htag : t.tag? with
  | none => rfl
  | some tag =>
    rw [htag, Option.any_some] at h
    rw [Option.any_some, List.mem_singleton.1 (List.contains_iff_mem.1 h)]
    rfl

theorem isNoItem_congr (h : t'.tag? = t.tag?) : t'.isNoItem = t.isNoItem := by
  rw [isNoItem, isNoItem, h]

theorem tag?_of_name (h : t'.element?.map Prod.fst = t.element?.map Prod.fst) : t'.tag? = t.tag? := by
  have hname : ∀ t : Tree, t.tag? = (t.element?.map Prod.fst).map fun name => Text.lower name.name := by
    intro t
    rw [tag?, Option.map_map]
    rfl
  rw [hname, hname, h]

theorem tag?_of_kind (h : t'.kind = t.kind) : t'.tag? = t.tag? := by
  rw [tag?, tag?, element?, element?, h]

theorem tag?_update {x : NodeId} {f : Tree → Tree} (hf : ∀ m, (f m).tag? = m.tag?) (t : Tree) :
    (t.update x f).tag? = t.tag? := by
  by_cases h : t.id = x
  · rw [update_of_eq h, hf]
  · rw [update_of_ne h]
    exact tag?_of_kind rfl

end Markup.Tree

/-- A node that may be taken out: it is one of some nodes, or the item of a list. -/
def Document.Goes (taken : List NodeId) (d : Document) (y : NodeId) : Prop :=
  y ∈ taken ∨ ∀ n ∈ d.nodes, n.id = y → n.isTag ["li"]

namespace Edit

/-- An edit is made inside the element with the id, which stands in the gap. -/
def Inside (g : Gap) (x : NodeId) (taken : List NodeId) (d : Document) : Edit → Prop
  | setAttribute y _ _ | removeAttribute y _ | background y _ | setText y _ => y ∉ g.ids
  | renew y _ | wrap y _ _ => y ∉ g.ids ∧ y ≠ x
  | detach y => (y ∉ g.ids ∧ y ≠ x) ∧ d.Goes taken y
  | append _ _ => False

end Edit

namespace Document

variable {start d d' : Document} {g : Gap} {root b t : Tree} {x y : NodeId} {out : List Tree}
  {taken : List NodeId}

theorem trees_update_fill {f : Tree → Tree} {more : List Tree} (hfill : d.trees = g.fill t ++ out)
    (htrees : d'.trees = (d.update y f).trees ++ more) (hy : y ∉ g.ids) :
    ∃ out', d'.trees = g.fill (t.update y f) ++ out' := by
  refine ⟨out.map (Tree.update y f) ++ more, ?_⟩
  rw [htrees, trees_update, hfill, List.map_append, Gap.map_update_fill hy, List.append_assoc]

theorem trees_splice_fill {row : Tree → List Tree} {more : List Tree}
    (hfill : d.trees = g.fill t ++ out) (htrees : d'.trees = (d.splice y row).trees ++ more)
    (hy : y ∉ g.ids) (hne : t.id ≠ y) : ∃ out', d'.trees = g.fill (t.splice y row) ++ out' := by
  refine ⟨out.map (Tree.splice y row) ++ more, ?_⟩
  rw [htrees, trees_splice, hfill, List.map_append, Gap.map_splice_fill hy row hne,
    List.append_assoc]

/-- Taking a node out leaves the trees without it. -/
theorem Distinct.exists_trees_detach (hd : d.Distinct) (y : NodeId) :
    ∃ more, (d.detach y).trees = (d.splice y fun _ => []).trees ++ more := by
  cases hp : d.place? y with
  | none =>
    refine ⟨[], ?_⟩
    rw [trees_splice_of_not_mem (not_mem_ids_of_place? hp), detach, hp, List.append_nil]
  | some p =>
    obtain ⟨tree, above⟩ := p
    cases above with
    | nil =>
      refine ⟨[], ?_⟩
      rw [hd.trees_splice_of_above hp rfl, detach, hp, List.append_nil]
    | cons level rest =>
      refine ⟨[tree], ?_⟩
      rw [detach, hp]
      rfl

theorem Distinct.exists_trees_renew (hd : d.Distinct) (y : NodeId) (content : String) :
    (d.apply (.renew y content)).trees = d.trees ∨ ∃ new more, d.next ≤ new.id ∧ new.isNoItem ∧
      (d.apply (.renew y content)).trees = (d.splice y fun _ => [new]).trees ++ more := by
  cases hp : d.place? y with
  | none =>
    refine Or.inl ?_
    rw [apply, retag?, hp]
    rfl
  | some p =>
    cases helement : p.tree.element? with
    | none =>
      refine Or.inl ?_
      rw [apply, retag?, hp, Option.bind_eq_bind, Option.bind_some, helement]
      rfl
    | some element =>
      have hdiv : (d.renewed element.2 content).isNoItem := by
        have htag : (d.renewed element.2 content).tag? = some (Text.lower "div") := rfl
        rw [Tree.isNoItem, htag]
        decide
      exact Or.inr ⟨_, _, Nat.le_refl _, hdiv, trees_renew hd hp helement content⟩

theorem Distinct.exists_trees_setText (hd : d.Distinct) (y : NodeId) (content : String) :
    (d.setText y content).trees = d.trees ∨ ∃ more, (d.setText y content).trees =
      (d.update y (·.withChildren [.ofText d.next content])).trees ++ more := by
  cases hp : d.place? y with
  | none =>
    have hclear : d.clear y = d := by rw [clear, hp]
    rw [Document.setText, hclear]
    exact Or.inl (trees_update_of_not_mem (not_mem_ids_of_place? hp) _)
  | some p => exact Or.inr ⟨_, trees_setText hd hp content⟩

/-- What an element has become that was changed from within. It has no children that were there before
but its own, and as long as any of these is left, each element among them that is not to be taken out is
left too, or a new one has come for it. -/
structure Tended (start : Document) (root : Tree) (taken : List NodeId) (t : Tree) : Prop where
  id : t.id = root.id
  own : ∀ c ∈ t.children, c.id < start.next → c.id ∈ root.children.map Tree.id
  left : (∃ c ∈ t.children, c.id < start.next) → ∀ s ∈ root.children, s.isNoItem → s.id ∉ taken →
    ∃ c ∈ t.children, c.isNoItem ∧ (c.id = s.id ∨ start.next ≤ c.id)

/-- A document that an element has been changed in, inside the gap in which it stands. -/
structure Held (start : Document) (g : Gap) (root : Tree) (taken : List NodeId) (d : Document) :
    Prop where
  evolves : ∃ touched, start.Evolves touched d
  taken_lt : ∀ y ∈ taken, y < start.next
  exists_fill : ∃ t out, Tended start root taken t ∧ d.trees = g.fill t ++ out

namespace Held

theorem refl (hd : start.Distinct) (htaken : ∀ y ∈ taken, y < start.next)
    (hfill : start.trees = g.fill root ++ out) : Held start g root taken start where
  evolves := ⟨[], .refl hd⟩
  taken_lt := htaken
  exists_fill := by
    refine ⟨root, out, ⟨rfl, fun _ hc _ => List.mem_map_of_mem hc, fun _ s hs hitem _ => ?_⟩, hfill⟩
    exact ⟨s, hs, hitem, Or.inl rfl⟩

variable (h : Held start g root taken d)
include h

theorem distinct : d.Distinct := by
  obtain ⟨touched, hevolves⟩ := h.evolves
  exact hevolves.distinct

theorem next_le : start.next ≤ d.next := by
  obtain ⟨touched, hevolves⟩ := h.evolves
  exact hevolves.next_le

/-- What was there before has its name. -/
theorem tag?_eq (hstart : start.Distinct) {r : Place} (hr : r ∈ start.places) (ht : t ∈ d.nodes)
    (hid : t.id = r.id) : t.tag? = r.tree.tag? := by
  obtain ⟨touched, hevolves⟩ := h.evolves
  obtain ⟨n, hn, hbecomes⟩ := hevolves.exists_becomes hstart (tree_mem_nodes hr)
  rw [h.distinct.eq_of_id_eq ht hn (hid.trans hbecomes.id.symm), hbecomes.tag?]

/-- A change of one node that leaves its children as they are, or gives it new ones. -/
theorem of_update (hd' : ∃ touched, start.Evolves touched d') {f : Tree → Tree} {more : List Tree}
    (htrees : d'.trees = (d.update y f).trees ++ more) (hy : y ∉ g.ids)
    (hf : ∀ m, (f m).id = m.id ∧ (f m).tag? = m.tag?)
    (hchildren : ∀ m, (f m).children = m.children ∨ ∀ c ∈ (f m).children, start.next ≤ c.id) :
    Held start g root taken d' := by
  obtain ⟨t, out, htended, hfill⟩ := h.exists_fill
  obtain ⟨out', hfill'⟩ := trees_update_fill hfill htrees hy
  have hid : ∀ m : Tree, (m.update y f).id = m.id := Tree.id_update fun m => (hf m).1
  refine ⟨hd', h.taken_lt, t.update y f, out', ?_, hfill'⟩
  by_cases heq : t.id = y
  · rcases hchildren t with hsame | hnew
    · have hsame : (t.update y f).children = t.children :=
        (congrArg Tree.children (Tree.update_of_eq heq)).trans hsame
      exact ⟨(hid t).trans htended.id, hsame ▸ htended.own, hsame ▸ htended.left⟩
    · have heq : t.update y f = f t := Tree.update_of_eq heq
      rw [← heq] at hnew
      exact ⟨(hid t).trans htended.id, fun c hc hlt => absurd (hnew c hc) (Nat.not_le.2 hlt),
        fun ⟨c, hc, hlt⟩ => absurd (hnew c hc) (Nat.not_le.2 hlt)⟩
  · have hmap : (t.update y f).children = t.children.map (Tree.update y f) := by
      rw [Tree.update_of_ne heq, Tree.children_node]
    refine ⟨(hid t).trans htended.id, ?_, ?_⟩
    · rw [hmap, List.forall_mem_map]
      exact fun c hc hlt => hid c ▸ htended.own c hc (hid c ▸ hlt)
    · rintro ⟨c, hc, hlt⟩ s hs hitem hstays
      obtain ⟨child, hchild, rfl⟩ := List.mem_map.1 (hmap ▸ hc)
      obtain ⟨k, hk, hkitem, hkid⟩ := htended.left ⟨child, hchild, hid child ▸ hlt⟩ s hs hitem hstays
      refine ⟨k.update y f, hmap ▸ List.mem_map_of_mem hk, ?_, (hid k).symm ▸ hkid⟩
      rwa [Tree.isNoItem_congr (Tree.tag?_update (fun m => (hf m).2) k)]

/-- A change that puts a row in the place of one node, in which it is left or a new element is there for
it. -/
theorem of_splice (hd' : ∃ touched, start.Evolves touched d') {row : Tree → List Tree}
    {more : List Tree} (htrees : d'.trees = (d.splice y row).trees ++ more) (hy : y ∉ g.ids)
    (hne : y ≠ root.id) (hrow : ∀ m, ∀ r ∈ row m, r.id = m.id ∨ start.next ≤ r.id)
    (hleft : ∀ m ∈ d.nodes, m.id = y → m.isNoItem → m.id ∉ taken →
      ∃ r ∈ row m, r.isNoItem ∧ (r.id = m.id ∨ start.next ≤ r.id)) :
    Held start g root taken d' := by
  obtain ⟨t, out, htended, hfill⟩ := h.exists_fill
  obtain ⟨out', hfill'⟩ := trees_splice_fill hfill htrees hy fun heq => hne (heq.symm.trans htended.id)
  have hold : ∀ c ∈ (t.splice y row).children, c.id < start.next → ∃ b ∈ t.children, c.id = b.id := by
    intro c hc hlt
    rw [Tree.children_splice] at hc
    obtain ⟨b, hb, hc⟩ := List.mem_flatMap.1 hc
    refine ⟨b, hb, ?_⟩
    rw [Tree.spliced] at hc
    split at hc
    · exact (hrow b c hc).resolve_right (Nat.not_le.2 hlt)
    · rw [List.mem_singleton.1 hc, Tree.id_splice]
  refine ⟨hd', h.taken_lt, t.splice y row, out', ⟨(Tree.id_splice y row t).trans htended.id, ?_, ?_⟩,
    hfill'⟩
  · intro c hc hlt
    obtain ⟨b, hb, heq⟩ := hold c hc hlt
    exact heq ▸ htended.own b hb (heq ▸ hlt)
  · rintro ⟨c, hc, hlt⟩ s hs hitem hstays
    obtain ⟨b, hb, heq⟩ := hold c hc hlt
    obtain ⟨k, hk, hkitem, hkid⟩ := htended.left ⟨b, hb, heq ▸ hlt⟩ s hs hitem hstays
    have hin : ∀ r ∈ Tree.spliced y row k, r ∈ (t.splice y row).children := fun r hr => by
      rw [Tree.children_splice]
      exact List.mem_flatMap.2 ⟨k, hk, hr⟩
    rw [Tree.spliced] at hin
    split at hin
    case isTrue hky =>
      have hnode : k ∈ d.nodes := nodes_trans (tree_mem_nodes (mem_places_fill hfill))
        (Tree.mem_nodes_of_mem_children hk)
      have hkept : k.id ∉ taken := fun hin => hkid.elim (fun heq => hstays (heq ▸ hin))
        fun hnew => Nat.not_le.2 (h.taken_lt _ hin) hnew
      obtain ⟨r, hr, hritem, hrid⟩ := hleft k hnode hky hkitem hkept
      refine ⟨r, hin r hr, hritem, hrid.elim (fun heq => ?_) Or.inr⟩
      exact heq ▸ hkid
    case isFalse hky =>
      refine ⟨k.splice y row, hin _ (List.mem_singleton_self _), ?_, (Tree.id_splice y row k).symm ▸ hkid⟩
      rwa [Tree.isNoItem_congr (Tree.tag?_of_kind (Tree.kind_splice y row k))]

theorem of_trees (hd' : ∃ touched, start.Evolves touched d') (htrees : d'.trees = d.trees) :
    Held start g root taken d' :=
  ⟨hd', h.taken_lt, htrees ▸ h.exists_fill⟩

/-- An element is held by every edit that is made inside it. -/
theorem apply {e : Edit} (he : e.Inside g root.id taken d) : Held start g root taken (d.apply e) := by
  obtain ⟨touched, hevolves⟩ := h.evolves
  have hd := hevolves.distinct
  have hnext := hevolves.next_le
  have hd' : ∃ touched, start.Evolves touched (d.apply e) :=
    ⟨_, hevolves.trans (evolves_apply hd e)⟩
  have hattributes (y : NodeId) (hy : y ∉ g.ids) (change : Attributes → Attributes) (d' : Document)
      (hd' : ∃ touched, start.Evolves touched d')
      (hsame : d' = d.update y (·.mapAttributes change)) : Held start g root taken d' := by
    subst hsame
    exact h.of_update hd' (List.append_nil _).symm hy
      (fun m => ⟨Tree.id_mapAttributes change m, Tree.tag?_of_name (Tree.name_mapAttributes change m)⟩)
      fun m => Or.inl (Tree.children_mapAttributes change m)
  cases e with
  | setAttribute y name value => exact hattributes y he _ _ hd' rfl
  | removeAttribute y name => exact hattributes y he _ _ hd' rfl
  | background y source =>
    rw [Document.apply] at hd' ⊢
    split at hd'
    · exact h
    · exact hattributes y he _ _ hd' rfl
  | setText y content =>
    rcases hd.exists_trees_setText y content with hsame | ⟨more, htrees⟩
    · exact h.of_trees hd' hsame
    · refine h.of_update hd' htrees he
        (fun m => ⟨Tree.id_withChildren _ m, Tree.tag?_of_kind (Tree.kind_withChildren _ m)⟩)
        fun m => Or.inr fun c hc => ?_
      rw [Tree.children_withChildren] at hc
      exact List.mem_singleton.1 hc ▸ hnext
  | renew y content =>
    rcases hd.exists_trees_renew y content with hsame | ⟨new, more, hnew, hitem, htrees⟩
    · exact h.of_trees hd' hsame
    · have hlater := Nat.le_trans hnext hnew
      refine h.of_splice hd' htrees he.1 he.2 (fun m r hr => Or.inr ?_) fun _ _ _ _ _ =>
        ⟨new, List.mem_singleton_self _, hitem, Or.inr hlater⟩
      exact List.mem_singleton.1 hr ▸ hlater
  | wrap y before after =>
    refine h.of_splice hd' (List.append_nil _).symm he.1 he.2 (fun m r hr => ?_) fun m _ _ hitem _ =>
      ⟨m, List.mem_cons_of_mem _ List.mem_cons_self, hitem, Or.inl rfl⟩
    simp only [List.mem_cons, List.not_mem_nil, or_false] at hr
    rcases hr with rfl | rfl | rfl
    · exact Or.inr hnext
    · exact Or.inl rfl
    · exact Or.inr (Nat.le_succ_of_le hnext)
  | detach y =>
    obtain ⟨more, htrees⟩ := hd.exists_trees_detach y
    obtain ⟨⟨hy, hne⟩, hgoes⟩ := he
    refine h.of_splice hd' htrees hy hne (fun _ _ hr => absurd hr List.not_mem_nil)
      fun m hm hid hitem hstays => ?_
    rcases hgoes with htaken | hli
    · exact absurd (hid ▸ htaken) hstays
    · rw [Tree.not_isNoItem (hli m hm hid)] at hitem
      cases hitem
  | append y tree => exact he.elim

/-- A node that does not stand around the gap stands in the element or in a tree that was taken out.
-/
theorem exists_part {n : Tree} (hn : n ∈ d.nodes) (hout : n.id ∉ g.ids) :
    ∃ p ∈ d.places, n ∈ p.tree.nodes ∧ (∀ i ∈ p.tree.ids, i ∉ g.ids) ∧
      (p.above = [] ∧ root.id ∉ p.tree.ids ∨ Tended start root taken p.tree) := by
  obtain ⟨t, out, htended, hfill⟩ := h.exists_fill
  have hd := h.distinct
  obtain ⟨-, hrest, hinside⟩ := List.nodup_append.1 (hd.nodup_fill hfill)
  obtain ⟨-, -, haround⟩ := List.nodup_append.1 hrest
  have hids : n.id ∈ t.ids ++ g.ids ++ out.flatMap Tree.ids := by
    have hmem := id_mem_ids hn
    rw [Document.ids, hfill, List.flatMap_append] at hmem
    exact ((g.ids_fill t).append_right _).mem_iff.1 hmem
  have hsame {m : Tree} (hm : m ∈ d.nodes) (hmid : m.id = n.id) : m = n := hd.eq_of_id_eq hm hn hmid
  rcases List.mem_append.1 hids with hids | hids
  · obtain ⟨m, hm, hmid⟩ := List.mem_map.1 ((List.mem_append.1 hids).resolve_right hout)
    have hp : (⟨t, g.above⟩ : Place) ∈ d.places := mem_places_fill hfill
    refine ⟨_, hp, hsame (nodes_trans (tree_mem_nodes hp) hm) hmid ▸ hm, fun i hi hin => ?_,
      Or.inr htended⟩
    exact hinside i hi i (List.mem_append_left _ hin) rfl
  · obtain ⟨u, hu, hin⟩ := List.mem_flatMap.1 hids
    obtain ⟨m, hm, hmid⟩ := List.mem_map.1 hin
    have hp : (⟨u, []⟩ : Place) ∈ d.places := mem_places.2
      ⟨u, hfill ▸ List.mem_append_right _ hu, Place.self_mem_descend _⟩
    refine ⟨_, hp, hsame (nodes_trans (tree_mem_nodes hp) hm) hmid ▸ hm, fun i hi hin => ?_,
      Or.inl ⟨rfl, fun hin => ?_⟩⟩
    · exact haround i hin i (List.mem_flatMap.2 ⟨u, hu, hi⟩) rfl
    · exact hinside _ (htended.id ▸ t.id_mem_ids) _
        (List.mem_append_right _ (List.mem_flatMap.2 ⟨u, hu, hin⟩)) rfl

/-- What stands below a node that is not around the gap is not around it either. -/
theorem not_mem_ids {p q : Place} (hp : p ∈ d.places) (hout : p.id ∉ g.ids) (hq : q ∈ p.descend) :
    q.id ∉ g.ids := by
  obtain ⟨part, -, hin, haway, -⟩ := h.exists_part (tree_mem_nodes hp) hout
  exact haway _ (Tree.ids_subset_of_mem_nodes hin (Place.id_mem_of_mem_descend hq))

/-- The parent of a node in the element stands in the element as well, or is what the element has become.
-/
theorem parent {p parent : Place} (hp : p ∈ d.places) (hout : p.id ∉ g.ids) (hne : p.id ≠ root.id)
    (hparent : p.parent? = some parent) :
    parent.id ∉ g.ids ∧ (parent.id = root.id → Tended start root taken parent.tree ∧
      p.tree ∈ parent.tree.children) := by
  obtain ⟨part, hpart, hin, haway, hcase⟩ := h.exists_part (tree_mem_nodes hp) hout
  have hd := h.distinct
  obtain ⟨tree, above⟩ := p
  cases above with
  | nil => cases hparent
  | cons level rest =>
    obtain rfl := Option.some.inj hparent
    rw [← Place.map_tree_descend] at hin
    obtain ⟨q, hq, hqtree⟩ := List.mem_map.1 hin
    obtain rfl := hd.place_eq_of_id_eq (mem_places_descend hpart hq) hp (congrArg Tree.id hqtree)
    obtain ⟨levels, habove, hclose⟩ := Place.mem_descend.1 hq
    cases levels with
    | nil =>
      -- The node is the root of the tree that was taken out, or the element.
      rcases hcase with ⟨hroot, -⟩ | htended
      · rw [hroot] at habove
        cases habove
      · exact absurd ((congrArg Tree.id hclose).trans htended.id) hne
    | cons inner outer =>
      obtain ⟨rfl, rfl⟩ := List.cons.inj habove
      have hbelow : (⟨level.close tree, outer ++ part.above⟩ : Place) ∈ part.descend :=
        Place.mem_descend.2 ⟨outer, rfl, hclose⟩
      have hids := Place.id_mem_of_mem_descend hbelow
      refine ⟨haway _ hids, fun heq => ⟨?_, Place.mem_children_close level tree⟩⟩
      rcases hcase with ⟨-, hnot⟩ | htended
      · exact absurd (heq ▸ hids) hnot
      · have hsame := hd.place_eq_of_id_eq (mem_places_descend hpart hbelow) hpart
          (heq.trans htended.id.symm)
        exact hsame ▸ htended

end Held

end Document

end ThemeSection
