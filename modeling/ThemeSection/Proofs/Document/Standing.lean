import ThemeSection.Proofs.Document.Frame

/-!
What edits leave standing. Where a node stands is told by its line, the ids from the node up to the root
of its tree. Of a run of edits it is enough to know which lines it may cut off, which rows of children it
may part and which attributes it may change: whatever else was there is there afterwards.
-/

namespace ThemeSection

open Markup

namespace Markup.Place

/-- The ids from a node up to the root of its tree. -/
def line (p : Place) : List NodeId :=
  p.id :: p.above.map Level.id

variable {p q : Place}

theorem isWithin_iff_mem_line {x : NodeId} : p.isWithin x ↔ x ∈ p.line := by
  rw [isWithin, line, List.mem_cons, List.mem_map, Bool.or_eq_true, beq_iff_eq, List.any_eq_true,
    eq_comm]
  exact or_congr_right (exists_congr fun level => and_congr_right fun _ => beq_iff_eq)

theorem not_overlaps_iff : ¬ p.overlaps q ↔ q.id ∉ p.line ∧ p.id ∉ q.line := by
  rw [overlaps, Bool.or_eq_true, not_or, isWithin_iff_mem_line, isWithin_iff_mem_line]

theorem line_eq_iff : p.line = q.line ↔
    p.id = q.id ∧ p.above.map Level.id = q.above.map Level.id := by
  rw [line, line, List.cons.injEq]

/-- A node does not stand above itself. -/
theorem Distinct.id_not_mem_tail (hp : p.Distinct) : p.id ∉ p.line.tail := by
  intro hin
  obtain ⟨level, hlevel, hid⟩ := List.mem_map.1 hin
  exact hp.ne_level p.tree.id_mem_ids hlevel hid

section

variable {r : Place} (hr : r.Distinct) (hp : p ∈ r.descend)
include hr hp

theorem Distinct.id_mem_line : r.id ∈ p.line :=
  isWithin_iff_mem_line.1 ((hr.isWithin_iff hp (self_mem_descend r)).2 hp)

/-- A node of an element other than the element itself has a parent there. -/
theorem Distinct.exists_parent_of_ne (hne : p.id ≠ r.id) :
    ∃ parent above, p.line = p.id :: parent :: above ∧ r.id ∈ parent :: above := by
  have hin := (List.mem_cons.1 (hr.id_mem_line hp)).resolve_left (Ne.symm hne)
  obtain ⟨parent, above, habove⟩ := List.exists_cons_of_ne_nil (List.ne_nil_of_mem hin)
  exact ⟨parent, above, by rw [line, habove], habove ▸ hin⟩

/-- A node of an element has a parent there if the element is not named as the node is. -/
theorem Distinct.exists_parent {names : List String} (htag : p.tree.isTag names)
    (hother : r.tree.isTag names = false) :
    ∃ parent above, p.line = p.id :: parent :: above ∧ r.id ∈ parent :: above := by
  refine hr.exists_parent_of_ne hp fun heq => ?_
  obtain rfl := hr.eq_of_id_eq hp (self_mem_descend r) heq
  rw [hother] at htag
  cases htag

end

/-- In a list without repetitions one of two items comes first. -/
theorem not_sublist_swap {α : Type} {l : List α} (hl : l.Nodup) {a b : α} (h : [a, b].Sublist l) :
    ¬ [b, a].Sublist l := by
  intro h'
  obtain ⟨before, after, rfl, ha, hb⟩ := List.cons_sublist_iff.1 h
  obtain ⟨before', after', heq, hb', ha'⟩ := List.cons_sublist_iff.1 h'
  have hb := List.singleton_sublist.1 hb
  have ha' := List.singleton_sublist.1 ha'
  have hapart := (List.nodup_append.1 hl).2.2
  rcases List.append_eq_append_iff.1 heq with ⟨between, rfl, rfl⟩ | ⟨between, rfl, rfl⟩
  · exact hapart a ha a (List.mem_append_right _ ha') rfl
  · exact hapart b (List.mem_append_left _ hb') b hb rfl

/-- A node does not stand in one that comes after it. -/
theorem Distinct.not_mem_line_of_sublist {r : Place} (hr : r.Distinct) {rest : List Place}
    (h : (p :: rest).Sublist r.descend) : ∀ q ∈ rest, q.id ∉ p.line := by
  intro q hq
  replace h := (List.cons_sublist_cons.2 (List.singleton_sublist.2 hq)).trans h
  rw [← isWithin_iff_mem_line]
  have hnodup : r.descend.Nodup := List.Nodup.of_map Place.id (map_id_descend r ▸ hr.nodup_ids)
  have hp := h.subset (List.mem_cons_self (a := p))
  have hq := h.subset (List.mem_cons_of_mem p (List.mem_singleton_self q))
  intro hwithin
  have hin := (hr.isWithin_iff hp hq).1 hwithin
  have hne : p ≠ q := by
    rintro rfl
    simpa using hnodup.sublist h
  obtain ⟨rest, hrest⟩ : ∃ rest, q.descend = q :: rest := by
    obtain ⟨⟨id, kind, children⟩, above⟩ := q
    exact ⟨_, rfl⟩
  have hswap : [q, p].Sublist q.descend := by
    rw [hrest] at hin ⊢
    exact List.cons_sublist_cons.2 (List.singleton_sublist.2 ((List.mem_cons.1 hin).resolve_left hne))
  exact not_sublist_swap hnodup h (hswap.trans (descend_sublist hq))

end Markup.Place

namespace Edit

/-- Whether an edit takes the node at the beginning of a line out of its place. -/
def Loses : Edit → List NodeId → Prop
  | setText x _, line => x ∈ line.tail
  | renew x _, line | detach x, line => x ∈ line
  | _, _ => False

/-- Whether an edit may part children of a node that stand in a row. -/
def Parts : Edit → NodeId → List NodeId → Prop
  | setText x _, parent, _ => x = parent
  | renew x _, _, row | detach x, _, row | wrap x _ _, _, row => x ∈ row
  | _, _, _ => False

end Edit

/-- What edits may do to the nodes that were there: the lines that they may cut off, the rows of children
that they may part, and the attributes that they may change. -/
structure Leeway where
  lost : List NodeId → Prop
  parted : NodeId → List NodeId → Prop
  touched : NodeId → String → Prop

/-- An edit does no more than it may. -/
structure Edit.Within (e : Edit) (leeway : Leeway) : Prop where
  lost : ∀ line, e.Loses line → leeway.lost line
  parted : ∀ parent row, e.Parts parent row → leeway.parted parent row
  touched : ∀ a ∈ e.touched, leeway.touched a.1 a.2

namespace Markup.Tree

variable {leeway : Leeway} {t t' t'' : Tree} {x : NodeId}

/-- What edits leave of a node that stays. -/
structure Lasts (leeway : Leeway) (t t' : Tree) : Prop where
  name : t'.element?.map Prod.fst = t.element?.map Prod.fst
  value : ∀ name, ¬ leeway.touched t.id name → t'.attribute? name = t.attribute? name
  text : ∀ content, t.kind = .text content → t'.kind = .text content
  row : ∀ row, row <:+: t.children.map id → ¬ leeway.parted t.id row → row <:+: t'.children.map id

theorem Lasts.refl (t : Tree) : t.Lasts leeway t where
  name := rfl
  value := fun _ _ => rfl
  text := fun _ h => h
  row := fun _ h _ => h

theorem Lasts.trans (h : t.Lasts leeway t') (h' : t'.Lasts leeway t'') (hid : t'.id = t.id) :
    t.Lasts leeway t'' where
  name := h'.name.trans h.name
  value := fun name hname => (h'.value name (hid ▸ hname)).trans (h.value name hname)
  text := fun content hkind => h'.text content (h.text content hkind)
  row := fun row hrow hparted => h'.row row (h.row row hrow hparted) (hid ▸ hparted)

/-- Texts stay texts, and children in a row stay in a row. -/
def Abides (parted : List NodeId → Prop) (t t' : Tree) : Prop :=
  (∀ content, t.kind = .text content → t'.kind = .text content) ∧
    ∀ row, row <:+: t.children.map id → ¬ parted row → row <:+: t'.children.map id

theorem abides_refl (parted : List NodeId → Prop) (t : Tree) : t.Abides parted t :=
  ⟨fun _ h => h, fun _ h _ => h⟩

theorem abides_update {parted : List NodeId → Prop} {f : Tree → Tree} (hf : ∀ m, (f m).id = m.id)
    (hself : t.id = x → t.Abides parted (f t)) : t.Abides parted (t.update x f) := by
  by_cases hid : t.id = x
  · rw [update_of_eq hid]
    exact hself hid
  · rw [update_of_ne hid]
    have hids : (t.children.map (update x f)).map id = t.children.map id := by
      rw [List.map_map]
      exact List.map_congr_left fun c _ => id_update hf c
    exact ⟨fun _ h => h, fun row h _ => hids.symm ▸ h⟩

/-- A row in the place of a node leaves rows without that node. -/
theorem abides_splice (row : Tree → List Tree) : t.Abides (x ∈ ·) (t.splice x row) := by
  refine ⟨fun content h => (kind_splice x row t).trans h, ?_⟩
  rintro ids ⟨before, after, hsplit⟩ hx
  obtain ⟨left, last, hchildren, hleft, hlast⟩ := List.append_eq_map_iff.1 hsplit
  obtain ⟨first, middle, rfl, hfirst, hmiddle⟩ := List.append_eq_map_iff.1 hleft.symm
  have hkept : middle.flatMap (spliced x row) = middle.map (splice x row) := by
    rw [List.map_eq_flatMap]
    refine List.flatMap_congr fun c hc => ?_
    have hne : c.id ≠ x := fun heq => hx (hmiddle ▸ heq ▸ List.mem_map_of_mem hc)
    rw [spliced, if_neg hne]
  have hids : (middle.map (splice x row)).map id = ids := by
    rw [List.map_map, ← hmiddle]
    exact List.map_congr_left fun c _ => id_splice x row c
  rw [children_splice, hchildren, List.flatMap_append, List.flatMap_append, hkept, List.map_append,
    List.map_append, hids]
  exact List.infix_append _ _ _

end Markup.Tree

namespace Document

variable {d d' d'' start : Document} {x : NodeId} {p : Place} {leeway : Leeway}

/-- The parent of a node on the way down to another stands above that. -/
theorem Distinct.id_mem_above (hd : d.Distinct) (hp : p ∈ d.places) {n c : Tree} (hn : n ∈ d.nodes)
    (hc : c ∈ n.children) (hin : p.tree ∈ c.nodes) : n.id ∈ p.above.map Level.id := by
  have hmem := Tree.nodes_trans (Tree.mem_nodes_of_mem_children hc) hin
  have hwithin := hd.isWithin_of_mem_ids hp hn (Tree.id_mem_ids_of_mem_nodes hmem)
  rcases List.mem_cons.1 (Place.isWithin_iff_mem_line.1 hwithin) with hself | habove
  · obtain rfl := hd.eq_of_id_eq hn (tree_mem_nodes hp) hself
    exact absurd (Tree.id_mem_ids_of_mem_nodes hin) (Tree.not_mem_ids_child (hd.nodup_ids hn) hc)
  · exact habove

theorem Distinct.id_mem_line (hd : d.Distinct) (hp : p ∈ d.places) {n c : Tree} (hn : n ∈ d.nodes)
    (hc : c ∈ n.children) (hin : p.tree ∈ c.nodes) : c.id ∈ p.line :=
  Place.isWithin_iff_mem_line.1 (hd.isWithin_of_mem_ids hp (mem_nodes_of_mem_children hn hc)
    (Tree.id_mem_ids_of_mem_nodes hin))

/-- A node changed in its place carries all others along, those below it if their parents stay theirs. -/
theorem Distinct.place_update (hd : d.Distinct) {f : Tree → Tree} (hf : ∀ m, (f m).id = m.id)
    (htrees : (d.update x f).trees ⊆ d'.trees) (hp : p ∈ d.places)
    (hbelow : x ∈ p.above.map Level.id → ∀ m, m.children ⊆ (f m).children) :
    ∃ p' ∈ d'.places, p'.line = p.line ∧ p'.tree = p.tree.update x f := by
  have hmoves : d.Moves d' (fun n _ => n.id = x ∧ x ∉ p.above.map Level.id) (Tree.update x f) :=
    { trees := fun t ht => htrees (List.mem_map_of_mem ht)
      id := Tree.id_update hf
      children := by
        intro n hn c hc hcut
        by_cases hid : n.id = x
        · have haway : x ∉ c.ids := hid ▸ Tree.not_mem_ids_child (hd.nodup_ids hn) hc
          have hin := Classical.not_not.1 fun hnot => hcut ⟨hid, hnot⟩
          rw [Tree.update_of_not_mem haway, Tree.update_of_eq hid]
          exact hbelow hin n hc
        · rw [Tree.update_of_ne hid]
          exact List.mem_map_of_mem hc }
  obtain ⟨p', hp', htree, habove⟩ := hmoves.place hp fun n hn c hc hin ⟨hid, hnot⟩ =>
    hnot (hid ▸ hd.id_mem_above hp hn hc hin)
  have hid : p'.id = p.id := (congrArg Tree.id htree).trans (Tree.id_update hf p.tree)
  exact ⟨p', hp', Place.line_eq_iff.2 ⟨hid, habove⟩, htree⟩

/-- A row in the place of a node carries along what does not stand at or below it, or all if the node is
in the row itself. -/
theorem Distinct.place_splice (hd : d.Distinct) {row : Tree → List Tree}
    (htrees : (d.splice x row).trees ⊆ d'.trees) (hp : p ∈ d.places)
    (hrow : x ∈ p.line → ∀ m, m ∈ row m) :
    ∃ p' ∈ d'.places, p'.line = p.line ∧ p'.tree = p.tree.splice x row := by
  have hmoves : d.Moves d' (fun _ c => c.id = x ∧ x ∉ p.line) (Tree.splice x row) :=
    { trees := fun t ht => htrees (List.mem_map_of_mem ht)
      id := Tree.id_splice x row
      children := by
        intro n hn c hc hcut
        rw [Tree.children_splice]
        refine List.mem_flatMap.2 ⟨c, hc, ?_⟩
        rw [Tree.spliced]
        split
        case isTrue hid =>
          have hin := Classical.not_not.1 fun hnot => hcut ⟨hid, hnot⟩
          have hnodup := hd.nodup_ids (mem_nodes_of_mem_children hn hc)
          rw [Tree.splice_of_not_mem fun b hb => hid ▸ Tree.not_mem_ids_child hnodup hb]
          exact hrow hin c
        case isFalse => exact List.mem_singleton_self _ }
  obtain ⟨p', hp', htree, habove⟩ := hmoves.place hp fun n hn c hc hin hcut =>
    hcut.2 (hcut.1 ▸ hd.id_mem_line hp hn hc hin)
  have hid : p'.id = p.id := (congrArg Tree.id htree).trans (Tree.id_splice x row p.tree)
  exact ⟨p', hp', Place.line_eq_iff.2 ⟨hid, habove⟩, htree⟩

/-- A node that is not taken out stands where it stood, its texts and rows as they were. -/
def Rests (parted : List NodeId → Prop) (d' : Document) (p : Place) : Prop :=
  ∃ p' ∈ d'.places, p'.line = p.line ∧ p.tree.Abides parted p'.tree

theorem rests_of_trees (h : d.trees ⊆ d'.trees) (hp : p ∈ d.places) (parted : List NodeId → Prop) :
    d'.Rests parted p := by
  obtain ⟨t, ht, hpt⟩ := mem_places.1 hp
  exact ⟨p, mem_places.2 ⟨t, h ht, hpt⟩, rfl, Tree.abides_refl parted p.tree⟩

theorem Distinct.rests_update (hd : d.Distinct) {f : Tree → Tree} (hf : ∀ m, (f m).id = m.id)
    (htrees : (d.update x f).trees ⊆ d'.trees) (hp : p ∈ d.places) {parted : List NodeId → Prop}
    (hbelow : x ∈ p.above.map Level.id → ∀ m, m.children ⊆ (f m).children)
    (hself : p.id = x → p.tree.Abides parted (f p.tree)) : d'.Rests parted p := by
  obtain ⟨p', hp', hline, htree⟩ := hd.place_update hf htrees hp hbelow
  exact ⟨p', hp', hline, htree ▸ Tree.abides_update hf hself⟩

theorem Distinct.rests_splice (hd : d.Distinct) {row : Tree → List Tree}
    (htrees : (d.splice x row).trees ⊆ d'.trees) (hp : p ∈ d.places)
    (hrow : x ∈ p.line → ∀ m, m ∈ row m) : d'.Rests (x ∈ ·) p := by
  obtain ⟨p', hp', hline, htree⟩ := hd.place_splice htrees hp hrow
  exact ⟨p', hp', hline, htree ▸ Tree.abides_splice row⟩

theorem abides_mapAttributes (parted : List NodeId → Prop) (change : Attributes → Attributes)
    (t : Tree) : t.Abides parted (t.mapAttributes change) := by
  refine ⟨fun content hkind => ?_, fun row hrow _ => ?_⟩
  · unfold Tree.mapAttributes
    split
    case h_1 => cases hkind
    case h_2 => exact hkind
  · rwa [Tree.children_mapAttributes]

theorem Distinct.rests_mapAttributes (hd : d.Distinct) (x : NodeId) (change : Attributes → Attributes)
    (hp : p ∈ d.places) (parted : List NodeId → Prop) :
    (d.update x (·.mapAttributes change)).Rests parted p :=
  hd.rests_update (Tree.id_mapAttributes change) (List.Subset.refl _) hp
    (fun _ m => (Tree.children_mapAttributes change m).symm ▸ List.Subset.refl _)
    fun _ => abides_mapAttributes parted change p.tree

/-- The trees of a document in which a text has become the only child of a node. -/
theorem Distinct.update_subset_setText (hd : d.Distinct) (x : NodeId) (content : String) :
    (d.update x (·.withChildren [.ofText d.next content])).trees ⊆ (d.setText x content).trees := by
  cases hp : d.place? x with
  | some p =>
    rw [trees_setText hd hp]
    exact List.subset_append_left _ _
  | none =>
    have hx := not_mem_ids_of_place? hp
    have hclear : d.clear x = d := by rw [clear, hp]
    have hsame : (d.setText x content).trees = d.trees := by
      rw [setText, hclear]
      exact trees_update_of_not_mem hx _
    rw [hsame, trees_update_of_not_mem hx]
    exact List.Subset.refl _

/-- An edit leaves every node standing that it does not take out. -/
theorem Distinct.rests_apply (hd : d.Distinct) (e : Edit) (hp : p ∈ d.places) (h : ¬ e.Loses p.line) :
    (d.apply e).Rests (e.Parts p.id) p := by
  cases e with
  | setAttribute id name value => exact hd.rests_mapAttributes id _ hp _
  | removeAttribute id name => exact hd.rests_mapAttributes id _ hp _
  | background id source =>
    rw [apply]
    split
    · exact rests_of_trees (List.Subset.refl _) hp _
    · exact hd.rests_mapAttributes id _ hp _
  | setText id content =>
    refine hd.rests_update (Tree.id_withChildren _) (hd.update_subset_setText id content) hp
      (fun hin => absurd hin h) fun hid => ⟨fun text hkind => ?_, fun row _ hparted => ?_⟩
    · rwa [Tree.kind_withChildren]
    · exact absurd hid.symm hparted
  | renew id content =>
    cases hp' : d.place? id with
    | none =>
      have hsame : d.apply (.renew id content) = d := by
        rw [apply, retag?, hp']
        rfl
      rw [hsame]
      exact rests_of_trees (List.Subset.refl _) hp _
    | some place =>
      cases helement : place.tree.element? with
      | none =>
        have hsame : d.apply (.renew id content) = d := by
          rw [apply, retag?, hp', Option.bind_eq_bind, Option.bind_some, helement]
          rfl
        rw [hsame]
        exact rests_of_trees (List.Subset.refl _) hp _
      | some element =>
        have htrees := trees_renew hd hp' helement content
        exact hd.rests_splice (htrees ▸ List.subset_append_left _ _) hp fun hin => absurd hin h
  | wrap id before after =>
    exact hd.rests_splice (List.Subset.refl _) hp fun _ m => by simp
  | detach id =>
    rw [apply, detach]
    split
    case h_1 tree level rest hplace =>
      exact hd.rests_splice (List.subset_append_left (d.splice id fun _ => []).trees [tree]) hp
        fun hin => absurd hin h
    case h_2 => exact rests_of_trees (List.Subset.refl _) hp _
  | append id tree =>
    refine hd.rests_update (f := fun t => t.withChildren (t.children ++ [(d.adopt tree).1]))
      (fun m => Tree.id_withChildren _ m) (List.Subset.refl _) hp (fun _ m => ?_)
      fun _ => ⟨fun text hkind => ?_, fun row hrow _ => ?_⟩
    · rw [Tree.children_withChildren]
      exact List.subset_append_left _ _
    · rwa [Tree.kind_withChildren]
    · rw [Tree.children_withChildren, List.map_append]
      exact hrow.trans (List.prefix_append _ _).isInfix

/-- A document has been changed within a leeway: what may not be lost stands where it stood. -/
structure Keeps (leeway : Leeway) (d d' : Document) : Prop where
  evolves : ∃ touched, d.Evolves touched d' ∧ ∀ a ∈ touched, leeway.touched a.1 a.2
  stays : ∀ p ∈ d.places, ¬ leeway.lost p.line →
    ∃ p' ∈ d'.places, p'.line = p.line ∧ p.tree.Lasts leeway p'.tree

namespace Keeps

theorem distinct (h : Keeps leeway d d') : d'.Distinct := by
  obtain ⟨touched, hevolves, -⟩ := h.evolves
  exact hevolves.distinct

theorem next_le (h : Keeps leeway d d') : d.next ≤ d'.next := by
  obtain ⟨touched, hevolves, -⟩ := h.evolves
  exact hevolves.next_le

theorem refl (hd : d.Distinct) : Keeps leeway d d where
  evolves := ⟨[], .refl hd, List.forall_mem_nil _⟩
  stays := fun p hp _ => ⟨p, hp, rfl, .refl p.tree⟩

theorem trans (h : Keeps leeway d d') (h' : Keeps leeway d' d'') : Keeps leeway d d'' where
  evolves := by
    obtain ⟨touched, hevolves, htouched⟩ := h.evolves
    obtain ⟨touched', hevolves', htouched'⟩ := h'.evolves
    exact ⟨_, hevolves.trans hevolves', List.forall_mem_append.2 ⟨htouched, htouched'⟩⟩
  stays := by
    intro p hp hkept
    obtain ⟨p', hp', hline, hlasts⟩ := h.stays p hp hkept
    obtain ⟨p'', hp'', hline', hlasts'⟩ := h'.stays p' hp' (hline.symm ▸ hkept)
    exact ⟨p'', hp'', hline'.trans hline, hlasts.trans hlasts' (Place.line_eq_iff.1 hline).1⟩

/-- What keeps within a leeway keeps within a wider one. -/
theorem mono {leeway' : Leeway} (h : Keeps leeway d d')
    (hlost : ∀ line, leeway.lost line → leeway'.lost line)
    (hparted : ∀ parent row, leeway.parted parent row → leeway'.parted parent row)
    (htouched : ∀ x name, leeway.touched x name → leeway'.touched x name) : Keeps leeway' d d' where
  evolves := by
    obtain ⟨touched, hevolves, hin⟩ := h.evolves
    exact ⟨touched, hevolves, fun a ha => htouched _ _ (hin a ha)⟩
  stays := by
    intro p hp hkept
    obtain ⟨p', hp', hline, hlasts⟩ := h.stays p hp fun hin => hkept (hlost _ hin)
    exact ⟨p', hp', hline, ⟨hlasts.name, fun name hname => hlasts.value name fun hin =>
      hname (htouched _ _ hin), hlasts.text, fun row hrow hparts => hlasts.row row hrow fun hin =>
        hparts (hparted _ _ hin)⟩⟩

theorem apply (hd : d.Distinct) {e : Edit} (he : e.Within leeway) : Keeps leeway d (d.apply e) where
  evolves := ⟨_, evolves_apply hd e, he.touched⟩
  stays := by
    intro p hp hkept
    obtain ⟨p', hp', hline, htext, hrow⟩ := hd.rests_apply e hp fun hloses => hkept (he.lost _ hloses)
    have hid : p'.tree.id = p.tree.id := (Place.line_eq_iff.1 hline).1
    have hevolves := evolves_apply hd e
    obtain ⟨n, hn, hbecomes⟩ := (hevolves.source p'.tree (tree_mem_nodes hp')).old
      (hid ▸ hd.fresh _ (id_mem_ids (tree_mem_nodes hp)))
    obtain rfl := hd.eq_of_id_eq hn (tree_mem_nodes hp) (hbecomes.id.symm.trans hid)
    refine ⟨p', hp', hline, ⟨hbecomes.name, fun name hname => ?_, htext, fun row h hparted => ?_⟩⟩
    · exact hbecomes.value name fun hin => hname (he.touched _ hin)
    · exact hrow row h fun hparts => hparted (he.parted _ _ hparts)

/-- One more edit. -/
theorem step (h : Keeps leeway start d) {e : Edit} (he : e.Within leeway) :
    Keeps leeway start (d.apply e) :=
  h.trans (.apply h.distinct he)

end Keeps

/-- A node stands at the beginning of a line. -/
def Stands (d : Document) (line : List NodeId) : Prop :=
  ∃ p ∈ d.places, p.line = line

/-- An element with one of these names stands at the beginning of a line. -/
def Tagged (d : Document) (line : List NodeId) (names : List String) : Prop :=
  ∃ p ∈ d.places, p.line = line ∧ p.tree.isTag names

/-- A text stands at the beginning of a line. -/
def Says (d : Document) (line : List NodeId) (content : String) : Prop :=
  ∃ p ∈ d.places, p.line = line ∧ p.tree.kind = .text content

/-- A text stands somewhere in a node. -/
def SaysIn (d : Document) (x : NodeId) (content : String) : Prop :=
  ∃ line, x ∈ line ∧ d.Says line content

/-- Nodes stand in a row among the children of the node at the beginning of a line. -/
def HasRow (d : Document) (line row : List NodeId) : Prop :=
  ∃ p ∈ d.places, p.line = line ∧ row <:+: p.tree.children.map Tree.id

/-- The element at the beginning of a line has an attribute with this value. -/
def Bears (d : Document) (line : List NodeId) (name value : String) : Prop :=
  ∃ p ∈ d.places, p.line = line ∧ p.tree.attribute? name = some value

variable {line row above : List NodeId} {names : List String} {content name value : String}
  {parent : NodeId}

theorem Tagged.stands (h : d.Tagged line names) : d.Stands line := by
  obtain ⟨p, hp, hline, -⟩ := h
  exact ⟨p, hp, hline⟩

theorem Stands.keeps (h : d.Stands line) (hkeeps : Keeps leeway d d') (hkept : ¬ leeway.lost line) :
    d'.Stands line := by
  obtain ⟨p, hp, rfl⟩ := h
  obtain ⟨p', hp', hline, -⟩ := hkeeps.stays p hp hkept
  exact ⟨p', hp', hline⟩

theorem Tagged.keeps (h : d.Tagged line names) (hkeeps : Keeps leeway d d')
    (hkept : ¬ leeway.lost line) : d'.Tagged line names := by
  obtain ⟨p, hp, rfl, htag⟩ := h
  obtain ⟨p', hp', hline, hlasts⟩ := hkeeps.stays p hp hkept
  have hname : p'.tree.tag? = p.tree.tag? := by
    have hlower := congrArg (Option.map fun name : ElementName => Text.lower name.name) hlasts.name
    rwa [Option.map_map, Option.map_map] at hlower
  exact ⟨p', hp', hline, by rwa [Tree.isTag, hname]⟩

theorem Says.keeps (h : d.Says line content) (hkeeps : Keeps leeway d d') (hkept : ¬ leeway.lost line) :
    d'.Says line content := by
  obtain ⟨p, hp, rfl, hkind⟩ := h
  obtain ⟨p', hp', hline, hlasts⟩ := hkeeps.stays p hp hkept
  exact ⟨p', hp', hline, hlasts.text content hkind⟩

theorem HasRow.keeps (h : d.HasRow (parent :: line) row) (hkeeps : Keeps leeway d d')
    (hkept : ¬ leeway.lost (parent :: line)) (hrow : ¬ leeway.parted parent row) :
    d'.HasRow (parent :: line) row := by
  obtain ⟨p, hp, hline, hin⟩ := h
  obtain ⟨p', hp', hline', hlasts⟩ := hkeeps.stays p hp (hline.symm ▸ hkept)
  have hid : p.tree.id = parent := (List.cons.inj hline).1
  exact ⟨p', hp', hline'.trans hline, hlasts.row row hin (hid.symm ▸ hrow)⟩

theorem Bears.keeps (h : d.Bears (x :: line) name value) (hkeeps : Keeps leeway d d')
    (hkept : ¬ leeway.lost (x :: line)) (hname : ¬ leeway.touched x name) :
    d'.Bears (x :: line) name value := by
  obtain ⟨p, hp, hline, hvalue⟩ := h
  obtain ⟨p', hp', hline', hlasts⟩ := hkeeps.stays p hp (hline.symm ▸ hkept)
  have hid : p.tree.id = x := (List.cons.inj hline).1
  exact ⟨p', hp', hline'.trans hline, (hlasts.value name (hid.symm ▸ hname)).trans hvalue⟩

/-- A new text of a node stands in it. -/
theorem says_setText (hd : d.Distinct) (h : d.Stands (x :: above)) (content : String) :
    (d.setText x content).Says (d.next :: x :: above) content := by
  obtain ⟨p, hp, hline⟩ := h
  obtain ⟨rfl, rfl⟩ := List.cons.inj hline
  have hself : p.id ∉ p.above.map Level.id := (hd.place_distinct hp).id_not_mem_tail
  obtain ⟨p', hp', hline, htree⟩ := hd.place_update (Tree.id_withChildren _)
    (hd.update_subset_setText p.id content) hp fun hin => absurd hin hself
  rw [Tree.update_of_eq (show p.tree.id = p.id from rfl)] at htree
  obtain ⟨q, hq, hqtree, habove⟩ := exists_place_of_mem_children (c := .ofText d.next content) hp' (by
    rw [htree, Tree.children_withChildren]
    exact List.mem_singleton_self _)
  refine ⟨q, hq, ?_, congrArg Tree.kind hqtree⟩
  change q.line = d.next :: p.line
  rw [← hline, Place.line, habove, Place.id, hqtree]
  rfl

/-- An attribute that an element in the document is given. -/
theorem bears_setAttribute (hd : d.Distinct) (h : d.Tagged (x :: above) names) (name value : String) :
    (d.setAttribute x name value).Bears (x :: above) name value := by
  obtain ⟨p, hp, hline, htag⟩ := h
  obtain ⟨rfl, rfl⟩ := List.cons.inj hline
  have htrees : (d.update p.id (·.mapAttributes (·.set ⟨.plain name, value⟩))).trees ⊆
      (d.setAttribute p.id name value).trees := List.Subset.refl _
  obtain ⟨p', hp', hline, htree⟩ := hd.place_update (Tree.id_mapAttributes _) htrees hp
    fun _ m => (Tree.children_mapAttributes _ m).symm ▸ List.Subset.refl _
  rw [Tree.update_of_eq (show p.tree.id = p.id from rfl)] at htree
  exact ⟨p', hp', hline, htree ▸ Tree.attribute?_set_self (Tree.isElement_of_isTag htag) name value⟩

/-- The parent of a node goes along when a row is put in the place of the node, and has the row. -/
theorem Distinct.parent_splice (hd : d.Distinct) {row : Tree → List Tree}
    (htrees : (d.splice p.id row).trees ⊆ d'.trees) (hp : p ∈ d.places)
    (habove : p.above.map Level.id = parent :: above) :
    ∃ q ∈ d'.places, q.line = parent :: above ∧ row p.tree <:+: q.tree.children := by
  obtain ⟨tree, levels⟩ := p
  obtain ⟨level, rest, rfl, hid, hrest⟩ := List.map_eq_cons_iff.1 habove
  have hparent := mem_places_close hp
  have hself : tree.id ∉ (⟨level.close tree, rest⟩ : Place).line := by
    intro hin
    have hin : tree.id ∈ (level :: rest).map Level.id := hin
    obtain ⟨l, hl, hlid⟩ := List.mem_map.1 hin
    exact (hd.place_distinct hp).ne_level tree.id_mem_ids hl hlid
  obtain ⟨q, hq, hline, htree⟩ := hd.place_splice (p := ⟨level.close tree, rest⟩) htrees hparent
    fun hin => absurd hin hself
  refine ⟨q, hq, ?_, ?_⟩
  · rw [hline, ← hid, ← hrest]
    rfl
  · have hspliced : Tree.spliced tree.id row tree = row tree := by rw [Tree.spliced, if_pos rfl]
    rw [htree, Tree.children_splice]
    change row tree <:+: (level.before.reverse ++ tree :: level.after).flatMap (Tree.spliced tree.id row)
    rw [List.flatMap_append, List.flatMap_cons, hspliced]
    exact List.infix_append' _ _ _

/-- Texts around a node that stands below another are in one row with it. -/
theorem row_wrap (hd : d.Distinct) (h : d.Stands (x :: parent :: above)) (before after : String) :
    (d.wrap x before after).HasRow (parent :: above) [d.next, x, d.next + 1] ∧
      (d.wrap x before after).Says (d.next :: parent :: above) before ∧
      (d.wrap x before after).Says ((d.next + 1) :: parent :: above) after := by
  obtain ⟨p, hp, hline⟩ := h
  obtain ⟨rfl, habove⟩ := List.cons.inj hline
  have htrees : (d.splice p.id fun t => [.ofText d.next before, t, .ofText (d.next + 1) after]).trees ⊆
      (d.wrap p.id before after).trees := List.Subset.refl _
  obtain ⟨q, hq, hline, hrow⟩ := hd.parent_splice htrees hp habove
  have hsays (i : NodeId) (content : String) (hmem : Tree.ofText i content ∈ q.tree.children) :
      (d.wrap p.id before after).Says (i :: parent :: above) content := by
    obtain ⟨r, hr, hrtree, hrabove⟩ := exists_place_of_mem_children hq hmem
    refine ⟨r, hr, ?_, congrArg Tree.kind hrtree⟩
    rw [Place.line, hrabove, ← hline, Place.id, hrtree]
    rfl
  refine ⟨⟨q, hq, hline, hrow.map Tree.id⟩, hsays _ _ (hrow.subset ?_), hsays _ _ (hrow.subset ?_)⟩
  · exact List.mem_cons_self
  · simp

/-- The element that takes the place of another one stands below the same nodes, with its text. -/
theorem stands_renew (hd : d.Distinct) (h : d.Tagged (x :: parent :: above) names) (content : String) :
    (d.apply (.renew x content)).Tagged (d.next :: parent :: above) ["div"] ∧
      (d.apply (.renew x content)).Says ((d.next + 1) :: d.next :: parent :: above) content := by
  obtain ⟨p, hp, hline, htag⟩ := h
  obtain ⟨rfl, habove⟩ := List.cons.inj hline
  obtain ⟨⟨name, attributes⟩, helement⟩ :=
    Option.isSome_iff_exists.1 (Tree.isElement_of_isTag htag)
  have htrees : (d.splice p.id fun _ => [d.renewed attributes content]).trees ⊆
      (d.apply (.renew p.id content)).trees :=
    trees_renew hd (hd.place? hp) helement content ▸ List.subset_append_left _ _
  obtain ⟨q, hq, hline, hrow⟩ := hd.parent_splice htrees hp habove
  obtain ⟨r, hr, hrtree, hrabove⟩ := exists_place_of_mem_children hq (hrow.subset List.mem_cons_self)
  have hrline : r.line = d.next :: parent :: above := by
    rw [Place.line, hrabove, ← hline, Place.id, hrtree]
    rfl
  obtain ⟨t, ht, httree, htabove⟩ := exists_place_of_mem_children (c := .ofText (d.next + 1) content) hr
    (by rw [hrtree]; exact List.mem_singleton_self _)
  refine ⟨⟨r, hr, hrline, hrtree ▸ rfl⟩, t, ht, ?_, congrArg Tree.kind httree⟩
  rw [Place.line, htabove, ← hrline, Place.id, httree]
  rfl

end Document

end ThemeSection
