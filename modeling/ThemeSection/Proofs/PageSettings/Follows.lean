import ThemeSection.Proofs.Assets
import ThemeSection.Proofs.Block.Detection
import ThemeSection.Proofs.PageSettings.Kept

/-!
What a visit leaves of a page. Nodes keep their names and classes, and none becomes open that was not,
since whatever comes to show a setting stands outside all regions.
-/

namespace ThemeSection

open Markup Document

namespace Sweep

variable {context : Context} {p q : Place} {d d' d'' : Document} {lost : Tree → Prop}
  {manner : Manner} {s s' : Sweep} {nodes : List NodeId}

/-- A node stands inside no region. -/
def Outside (context : Context) (d : Document) (x : NodeId) : Prop :=
  ∀ n ∈ d.nodes, n.id ∈ context.regions → x ∉ n.ids

theorem outside_of_place (hd : d.Distinct) (hp : p ∈ d.places)
    (h : p.isWithinAny context.regions = false) : Outside context d p.id := by
  intro n hn hregion hin
  have hnot := List.any_eq_false.1 h n.id hregion
  exact hnot (hd.isWithin_of_mem_ids hp hn hin)

theorem Outside.of_evolves {x : NodeId} {touched : List (NodeId × String)} (h : Outside context d x)
    (hx : x < d.next) (hevolves : d.Evolves touched d') : Outside context d' x := by
  intro n' hn' hregion hin
  by_cases hold : n'.id < d.next
  · obtain ⟨n, hn, hbecomes⟩ := (hevolves.source n' hn').old hold
    exact h n hn (hbecomes.id ▸ hregion) (hbecomes.below x hin hx)
  · exact absurd hx (Nat.not_lt.2 ((hevolves.source n' hn').new (Nat.not_lt.1 hold) x hin))

/-- What visits leave of a document: its elements keep their names and classes, and a node that is open
was there and open before. -/
structure Follows (context : Context) (d d' : Document) : Prop where
  evolves : ∃ touched, d.Evolves touched d' ∧ ∀ a ∈ touched, a.2 ∈ shownAttributes
  opened : ∀ p' ∈ d'.places, isOpenText context p' →
    ∃ p ∈ d.places, p.id = p'.id ∧ isOpenText context p

namespace Follows

theorem refl (hd : d.Distinct) : Follows context d d where
  evolves := ⟨[], .refl hd, List.forall_mem_nil _⟩
  opened := fun p hp hopen => ⟨p, hp, rfl, hopen⟩

theorem distinct (h : Follows context d d') : d'.Distinct := by
  obtain ⟨touched, hevolves, -⟩ := h.evolves
  exact hevolves.distinct

theorem trans (h : Follows context d d') (h' : Follows context d' d'') : Follows context d d'' where
  evolves := by
    obtain ⟨touched, hevolves, hshown⟩ := h.evolves
    obtain ⟨touched', hevolves', hshown'⟩ := h'.evolves
    exact ⟨_, hevolves.trans hevolves', List.forall_mem_append.2 ⟨hshown, hshown'⟩⟩
  opened := by
    intro p'' hp'' hopen
    obtain ⟨p', hp', hid', hopen⟩ := h'.opened p'' hp'' hopen
    obtain ⟨p, hp, hid, hopen⟩ := h.opened p' hp' hopen
    exact ⟨p, hp, hid.trans hid', hopen⟩

/-- What a node of the document has become. -/
theorem becomes (h : Follows context d d') (hd : d.Distinct) (hp : p ∈ d.places)
    (hq : q ∈ d'.places) (hid : q.id = p.id) : ∃ touched, p.tree.Becomes d.next touched q.tree ∧
      ∀ a ∈ touched, a.2 ∈ shownAttributes := by
  obtain ⟨touched, hevolves, hshown⟩ := h.evolves
  have hold : q.tree.id < d.next := by
    rw [show q.tree.id = p.id from hid]
    exact hd.fresh _ (id_mem_ids (tree_mem_nodes hp))
  obtain ⟨n, hn, hbecomes⟩ := (hevolves.source q.tree (tree_mem_nodes hq)).old hold
  obtain rfl := hd.eq_of_id_eq hn (tree_mem_nodes hp) (hbecomes.id.symm.trans hid)
  exact ⟨touched, hbecomes, hshown⟩

/-- Selectors that ask for names and classes hold of the same nodes as before. -/
theorem holds_eq (h : Follows context d d') (hd : d.Distinct) (hp : p ∈ d.places)
    (hq : q ∈ d'.places) (hid : q.id = p.id) {selector : Selector} (hplain : selector.isPlain) :
    selector.holds q = selector.holds p := by
  obtain ⟨touched, hbecomes, hshown⟩ := h.becomes hd hp hq hid
  have hclass : "class" ∉ shownAttributes := by decide
  exact Selector.holds_congr hplain hbecomes.name
    (hbecomes.value "class" fun hin => hclass (hshown _ hin))

end Follows

theorem Changes.opened (h : Changes context p manner lost d d') (hd : d.Distinct)
    (hout : Outside context d p.id) (hq : q ∈ d'.places) (hopen : isOpenText context q) :
    ∃ q' ∈ d.places, q'.id = q.id ∧ isOpenText context q' := by
  obtain ⟨carry, hcarries⟩ := h.carries
  simp only [isOpenText, isOpen, Bool.and_eq_true, Bool.not_eq_true', bne_iff_ne] at hopen ⊢
  obtain ⟨htext, hregions, hunmarked⟩ := hopen
  rcases hcarries.retold q.tree (tree_mem_nodes hq) with hmarked | ⟨n, hn, hid, hntext⟩
  · exact absurd hunmarked (by rw [show Text.contains _ _ = true from hmarked]; decide)
  · rw [← map_tree_places] at hn
    obtain ⟨q', hq', rfl⟩ := List.mem_map.1 hn
    have hsame : q'.tree.plainText = q.tree.plainText := by
      rw [Tree.plainText, Tree.plainText, hntext]
    refine ⟨q', hq', hid, hsame ▸ htext, ?_, hsame ▸ hunmarked⟩
    -- A region around the node is still around it, since nothing inside a region changes.
    refine List.any_eq_false.2 fun region hregion hwithin => ?_
    obtain ⟨n, hn, rfl, hin⟩ := hd.exists_of_isWithin hq' hwithin
    have haway := hcarries.mem_nodes_of_away hn (hout n hn hregion)
    exact List.any_eq_false.1 hregions n.id hregion (h.distinct.isWithin_of_mem_ids hq haway
      (show q.tree.id ∈ n.ids from hid ▸ hin))

theorem Changes.follows (h : Changes context p manner lost d d') (hd : d.Distinct)
    (hout : Outside context d p.id) : Follows context d d' where
  evolves := by
    obtain ⟨touched, hevolves, htouched⟩ := h.evolves
    exact ⟨touched, hevolves, fun a ha => manner.attributes_subset (htouched a ha).2⟩
  opened := fun _ hq => h.opened hd hout hq

theorem Chain.follows (h : Chain context p manner d d') (hd : d.Distinct) (hp : p.id < d.next)
    (hout : Outside context d p.id) : Follows context d d' := by
  induction h with
  | refl => exact .refl hd
  | snoc _ hchanges ih =>
    obtain ⟨touched, hevolves, -⟩ := ih.evolves
    exact ih.trans (hchanges.follows ih.distinct (hout.of_evolves hp hevolves))

theorem Writes.outside {ids : List String} {edits : List Edit} (h : Writes context p manner ids edits) :
    p.isWithinAny context.regions = false := by
  have hopened : isOpenText context p → p.isWithinAny context.regions = false := by
    intro hopen
    simp only [isOpenText, isOpen, Bool.and_eq_true, Bool.not_eq_true'] at hopen
    exact hopen.2.1
  cases h with
  | text _ hopen => exact hopened hopen
  | link _ _ hopen => exact hopened hopen
  | paragraph _ hopen => exact hopened hopen
  | image _ _ _ _ hregions => exact hregions
  | describedImage _ _ _ _ _ hregions => exact hregions
  | background _ _ _ _ _ hregions => exact hregions

/-- A visit changes the document at the visited node, outside all regions. -/
theorem Step.chain (h : Step context s p manner s') (hd : s.document.Distinct)
    (hp : s.document.place? p.id = some p) (helement : p.isElement) :
    s'.document = s.document ∨ p.isWithinAny context.regions = false ∧
      Chain context p manner s.document s'.document := by
  cases h with
  | pass => exact Or.inl rfl
  | write settings edits hwrites _ hdocument _ =>
    rw [hdocument]
    exact Or.inr ⟨hwrites.outside, hwrites.chain hd hp helement⟩

theorem Step.follows (h : Step context s p manner s') (hd : s.document.Distinct)
    (hp : s.document.place? p.id = some p) (helement : p.isElement) :
    Follows context s.document s'.document := by
  have hmem := mem_places_of_place? hp
  rcases h.chain hd hp helement with hsame | ⟨hregions, hchain⟩
  · rw [hsame]
    exact .refl hd
  · exact hchain.follows hd (hd.fresh _ (id_mem_ids (tree_mem_nodes hmem)))
      (outside_of_place hd hmem hregions)

theorem mem_selected {root id : NodeId} {selector : Selector} (h : id ∈ s.selected root selector) :
    ∃ p ∈ s.document.places, p.id = id ∧ selector.holds p := by
  obtain ⟨top, htop, hid⟩ := List.mem_flatMap.1 h
  obtain ⟨p, hp, rfl⟩ := List.mem_map.1 hid
  obtain ⟨hbelow, hholds⟩ := List.mem_filter.1 hp
  exact ⟨p, mem_places_descend (mem_places_of_place? (Option.mem_toList.1 htop)) hbelow, rfl, hholds⟩

end Sweep

end ThemeSection
