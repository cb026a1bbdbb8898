import ThemeSection.Proofs.PageSettings.Visit
import ThemeSection.Proofs.Style.Replaced

/-!
Content that has been collected is not collected again. A visit that is ready for a node makes the
node show settings, so that it is not ready for it again, and no later visit of any sweep changes that:
a node that is still open reads as it did and has lost nothing.
-/

namespace ThemeSection

open Markup Liquid Document

namespace Sweep

variable {context : Context} {p q : Place} {d d' d'' : Document} {manner : Manner} {s s' : Sweep}
  {top x : NodeId} {n : Tree} {ids : List String} {edits : List Edit}

/-- What visits leave of a document: regions stay as they were, and the nodes that are still open read
as they did and have lost nothing. -/
structure Recalls (context : Context) (d d' : Document) : Prop extends Follows context d d' where
  regions : ∀ n ∈ d.nodes, n.id ∈ context.regions → n ∈ d'.nodes
  text : ∀ p ∈ d.places, ∀ q ∈ d'.places, q.id = p.id → isOpenText context q →
    q.tree.text = p.tree.text
  ids : ∀ p ∈ d.places, ∀ q ∈ d'.places, q.id = p.id → isOpenText context q →
    p.tree.ids ⊆ q.tree.ids

theorem Recalls.refl (hd : d.Distinct) : Recalls context d d where
  toFollows := .refl hd
  regions := fun _ hn _ => hn
  text := fun p hp q hq hid _ => by rw [hd.place_eq_of_id_eq hq hp hid]
  ids := fun p hp q hq hid _ => by
    rw [hd.place_eq_of_id_eq hq hp hid]
    exact List.Subset.refl _

theorem Recalls.trans (h : Recalls context d d') (h' : Recalls context d' d'') :
    Recalls context d d'' where
  toFollows := h.toFollows.trans h'.toFollows
  regions := fun n hn hregion => h'.regions n (h.regions n hn hregion) hregion
  text := by
    intro p hp q hq hid hopen
    obtain ⟨m, hm, hmid, hmopen⟩ := h'.opened q hq hopen
    exact (h'.text m hm q hq hmid.symm hopen).trans (h.text p hp m hm (hmid.trans hid) hmopen)
  ids := by
    intro p hp q hq hid hopen
    obtain ⟨m, hm, hmid, hmopen⟩ := h'.opened q hq hopen
    exact List.Subset.trans (h.ids p hp m hm (hmid.trans hid) hmopen) (h'.ids m hm q hq hmid.symm hopen)

/-- What does not hold the visited node is there as it was. -/
theorem Chain.mem_nodes_of_away (h : Chain context p manner d d') (hn : n ∈ d.nodes)
    (haway : p.id ∉ n.ids) : n ∈ d'.nodes := by
  induction h with
  | refl => exact hn
  | snoc _ hchanges ih =>
    obtain ⟨carry, hcarries⟩ := hchanges.carries
    exact hcarries.mem_nodes_of_away ih haway

theorem isOpenText_not_isMarked (h : isOpenText context p) : p.tree.isMarked = false := by
  simp only [isOpenText, isOpen, Bool.and_eq_true, Bool.not_eq_true'] at h
  exact h.2.2

/-- A paragraph that has given way to a new element is still to be found, on its own. -/
theorem mem_trees_renew (hd : d.Distinct) (hp : d.place? p.id = some p) (helement : p.isElement)
    (content : String) : p.tree ∈ (d.apply (.renew p.id content)).trees := by
  obtain ⟨⟨name, attributes⟩, helement⟩ := Option.isSome_iff_exists.1 helement
  rw [trees_renew hd hp helement]
  by_cases habove : p.above = []
  · rw [hd.trees_splice_of_above hp habove]
    obtain ⟨tree, above⟩ := p
    subst habove
    exact List.mem_append_left _ (whole_mem_trees (mem_places_of_place? hp))
  · rw [if_neg habove]
    exact List.mem_append_right _ (List.mem_singleton_self _)

section

variable (hd : d.Distinct) (hp : d.place? p.id = some p) (helement : p.isElement)
include hd hp helement

theorem Writes.ids_subset (h : Writes context p manner ids edits) {r : Place} (hr : r ∈ d.places)
    (hq : q ∈ (edits.foldl Document.apply d).places) (hid : q.id = r.id) (hopen : isOpenText context q) :
    r.tree.ids ⊆ q.tree.ids := by
  have hchain := h.chain hd hp helement
  obtain ⟨touched, hevolves, -⟩ := hchain.evolves hd
  have hd' := hevolves.distinct
  have hmem := mem_places_of_place? hp
  have hqmem := tree_mem_nodes hq
  have hsame : ∀ {t : Tree}, t ∈ (edits.foldl Document.apply d).nodes → t.id = r.id → q.tree = t :=
    fun ht htid => hd'.eq_of_id_eq hqmem ht (hid.trans htid.symm)
  -- A marked node does not stand below an open one.
  have hnone : ∀ y, (∀ n ∈ (edits.foldl Document.apply d).nodes, n.id = y → n.isMarked) →
      ¬ (edits.foldl Document.apply d).IsUnder r.id y := by
    rintro y hmarked ⟨t, ht, htid, hy⟩
    obtain rfl := hsame ht htid
    obtain ⟨n, hn, rfl⟩ := List.mem_map.1 hy
    exact not_mem_ids_of_isMarked hd' hq hopen (nodes_trans ht hn)
      (hmarked n (nodes_trans ht hn) rfl) hy
  by_cases hin : p.id ∈ r.tree.ids
  case neg => rw [hsame (hchain.mem_nodes_of_away (tree_mem_nodes hr) hin) rfl]; exact List.Subset.refl _
  have hunder : d.IsUnder r.id p.id := ⟨r.tree, tree_mem_nodes hr, rfl, hin⟩
  have hattributes : manner.overwrites = false → r.tree.ids ⊆ q.tree.ids := by
    intro hmanner y hy
    obtain ⟨t, ht, htid, hyt⟩ := hchain.isUnder (hd.nodup_ids (tree_mem_nodes hmem))
      ⟨r.tree, tree_mem_nodes hr, rfl, hy⟩ (spares_of_attributes hmanner _)
      (spares_of_attributes hmanner _)
    rwa [hsame ht htid]
  cases manner with
  | image => exact hattributes rfl
  | style => exact hattributes rfl
  | content =>
    refine absurd (hchain.isUnder (hd.nodup_ids (tree_mem_nodes hmem)) hunder
      (spares_top hd hmem hunder fun heq => by cases heq) fun _ _ => ⟨rfl, by decide⟩) ?_
    exact hnone p.id fun n hn hnid => h.isMarked hd hp helement hn hnid
  | renewal =>
    cases h with
    | paragraph id _ _ _ =>
      by_cases htop : p.id = r.id
      · obtain rfl := hd.place_eq_of_id_eq hr hmem htop.symm
        obtain hkept := mem_trees_renew hd hp helement (reference .whole id)
        rw [hsame (mem_nodes.2 ⟨_, hkept, Tree.self_mem_nodes _⟩) rfl]
        exact List.Subset.refl _
      · obtain ⟨⟨name, attributes⟩, hsome⟩ := Option.isSome_iff_exists.1 helement
        obtain ⟨hmade, hbelow⟩ := mem_nodes_renew hd hp hsome hunder htop id
        have hmarked := Tree.isMarked_withText (t := d.newDiv attributes)
          (isMarked_reference id (d.next + 1))
        refine absurd hbelow (hnone _ fun n hn hnid => ?_)
        rw [hd'.eq_of_id_eq hn hmade hnid]
        exact hmarked

theorem Writes.recalls (h : Writes context p manner ids edits) :
    Recalls context d (edits.foldl Document.apply d) where
  toFollows := by
    have hmem := mem_places_of_place? hp
    exact (h.chain hd hp helement).follows hd (hd.fresh _ (id_mem_ids (tree_mem_nodes hmem)))
      (outside_of_place hd hmem h.outside)
  regions := fun n hn hregion => (h.chain hd hp helement).mem_nodes_of_away hn
    (outside_of_place hd (mem_places_of_place? hp) h.outside n hn hregion)
  text := by
    intro r hr q hq hid hopen
    rcases (h.chain hd hp helement).retold q.tree (tree_mem_nodes hq) with hmarked | ⟨n, hn, hnid, htext⟩
    · rw [isOpenText_not_isMarked hopen] at hmarked
      cases hmarked
    · obtain rfl := hd.eq_of_id_eq hn (tree_mem_nodes hr) (hnid.trans hid)
      exact htext
  ids := fun _ hr _ hq hid hopen => h.ids_subset hd hp helement hr hq hid hopen

end

/-- A visit leaves the nodes that are still open as they were. -/
theorem Step.recalls (h : Step context s p manner s') (hd : s.document.Distinct)
    (hp : s.document.place? p.id = some p) (helement : p.isElement) :
    Recalls context s.document s'.document := by
  cases h with
  | pass => exact .refl hd
  | write settings edits hwrites _ hdocument _ =>
    rw [hdocument]
    exact hwrites.recalls hd hp helement

/-- At or below a node there is none that a visit is ready for. -/
def Settled (context : Context) (v : Visit) (top : NodeId) (d : Document) : Prop :=
  ∀ q ∈ d.places, d.IsUnder top q.id → v.selector.holds q → v.ready context q = false

/-- An open node has below it what it had. -/
theorem Recalls.has (h : Recalls context d d') (hd : d.Distinct) (hp : p ∈ d.places)
    (hq : q ∈ d'.places) (hid : q.id = p.id) (hopen : isOpenText context q) {selector : Selector}
    (hplain : selector.isPlain) (hhas : p.has selector) : q.has selector := by
  obtain ⟨m, hm, hholds⟩ := List.find?_isSome.1 hhas
  have hin := h.ids p hp q hq hid hopen (Place.id_mem_of_mem_descend hm)
  obtain ⟨m', hm', hmid⟩ := Place.exists_mem_descend hin
  refine List.find?_isSome.2 ⟨m', hm', ?_⟩
  rw [h.holds_eq hd (mem_places_descend hp hm) (mem_places_descend hq hm') hmid hplain]
  exact hholds

/-- A node that is ready to give up its content was so before. -/
theorem Recalls.ready (h : Recalls context d d') (hd : d.Distinct) {v : Visit}
    (hoverwrites : v.manner.overwrites) (hp : p ∈ d.places) (hq : q ∈ d'.places) (hid : q.id = p.id)
    (hready : v.ready context q) : v.ready context p := by
  have hopen := Visit.isOpenText_of_ready hoverwrites hready
  obtain ⟨m, hm, hmid, hbefore⟩ := h.opened q hq hopen
  obtain rfl := hd.place_eq_of_id_eq hm hp (hmid.trans hid)
  cases v with
  | navTitle =>
    refine Bool.and_eq_true_iff.2 ⟨hbefore, ?_⟩
    rw [Bool.not_eq_true', ← Bool.not_eq_true]
    intro hhas
    simp only [Visit.ready, Bool.and_eq_true, Bool.not_eq_true'] at hready
    rw [h.has hd hp hq hid hopen (by decide) hhas] at hready
    cases hready.2
  | navLink | heading | button => exact hbefore
  | paragraph =>
    have htext : q.tree.plainText = m.tree.plainText := by
      rw [Tree.plainText, Tree.plainText, h.text m hp q hq hid hopen]
    simp only [Visit.ready, Bool.and_eq_true] at hready ⊢
    rw [htext] at hready
    simp only [isOpenText, Bool.and_eq_true] at hbefore
    exact ⟨⟨hready.1.1, hbefore.2⟩, hready.2⟩
  | image | background => cases hoverwrites

/-- A node that is ready to give up its content was so before, and stood below the same nodes. -/
theorem Recalls.exists_ready (h : Recalls context d d') (hd : d.Distinct) {v : Visit}
    (hoverwrites : v.manner.overwrites) (hq : q ∈ d'.places) (hunder : d'.IsUnder top q.id)
    (hholds : v.selector.holds q) (hready : v.ready context q) :
    ∃ p ∈ d.places, p.id = q.id ∧ d.IsUnder top p.id ∧ v.selector.holds p ∧ v.ready context p := by
  obtain ⟨p, hp, hid, -⟩ := h.opened q hq (Visit.isOpenText_of_ready hoverwrites hready)
  refine ⟨p, hp, hid, ?_, ?_, h.ready hd hoverwrites hp hq hid.symm hready⟩
  · obtain ⟨touched, hevolves, -⟩ := h.evolves
    exact isUnder_of_evolves hevolves (hd.lt_next_of_place hp) (hid ▸ hunder)
  · rw [← h.holds_eq hd hp hq hid.symm (Visit.isPlain_selector hoverwrites)]
    exact hholds

theorem Settled.recalls {v : Visit} (h : Settled context v top d) (hd : d.Distinct)
    (hoverwrites : v.manner.overwrites) (hrecalls : Recalls context d d') :
    Settled context v top d' := by
  intro q hq hunder hholds
  by_contra hready
  rw [Bool.not_eq_false] at hready
  obtain ⟨p, hp, -, hunder, hholds, hready⟩ :=
    hrecalls.exists_ready hd hoverwrites hq hunder hholds hready
  rw [h p hp hunder hholds] at hready
  cases hready

section

variable (hd : s.document.Distinct) (hp : s.document.place? p.id = some p)
  (helement : p.isElement) {v : Visit}
include hd hp helement

/-- A visit is not ready again for the node that it has come to. -/
theorem Visit.not_ready_run (hoverwrites : v.manner.overwrites) (htop : v.manner = .renewal → p.id ≠ top)
    (hready : v.ready context p) (hq : q ∈ (v.run context s p).document.places) (hid : q.id = p.id)
    (hunder : (v.run context s p).document.IsUnder top q.id) : v.ready context q = false := by
  have hwrites := writes_bound hready helement s
  have hrun : (v.run context s p).document =
      ((v.bound s p).flatMap (·.edits)).foldl Document.apply s.document := by
    rw [run_eq context hp helement, if_pos hready]
    rfl
  rw [hrun] at hq hunder
  generalize (v.bound s p).flatMap (·.edits) = edits at hwrites hq hunder
  obtain ⟨touched, hevolves, -⟩ := (hwrites.chain hd hp helement).evolves hd
  cases hmanner : v.manner with
  | content =>
    rw [hmanner] at hwrites
    have hmarked := hwrites.isMarked hd hp helement (tree_mem_nodes hq) hid
    by_contra hagain
    rw [Bool.not_eq_false] at hagain
    rw [isOpenText_not_isMarked (isOpenText_of_ready hoverwrites hagain)] at hmarked
    cases hmarked
  | renewal =>
    rw [hmanner] at hwrites
    generalize (v.bound s p).map (·.setting.id) = ids at hwrites
    cases hwrites with
    | paragraph id _ _ _ =>
      have hplace : (⟨p.tree, []⟩ : Place) ∈ (s.document.apply (.renew p.id (reference .whole id))).places :=
        mem_places.2 ⟨p.tree, mem_trees_renew hd hp helement _, Place.self_mem_descend _⟩
      obtain rfl := hevolves.distinct.place_eq_of_id_eq hq hplace hid
      obtain ⟨t, ht, rfl, hin⟩ := hunder
      have hwithin := hevolves.distinct.isWithin_of_mem_ids hq ht hin
      simp only [Place.isWithin, List.any_nil, Bool.or_false, beq_iff_eq] at hwithin
      exact absurd hwithin (htop hmanner)
  | image =>
    rw [hmanner] at hoverwrites
    cases hoverwrites
  | style =>
    rw [hmanner] at hoverwrites
    cases hoverwrites

end

/-- Going over elements leaves those that are still open as they were. -/
theorem recalls_forEach (context : Context) (v : Visit) {nodes : List NodeId} (hd : s.document.Distinct)
    (hnodes : AreElements s.document nodes) :
    Recalls context s.document (s.forEach nodes (v.run context)).document := by
  refine forEach_induct (motive := fun s' => Recalls context s.document s'.document) (.refl hd) ?_
  intro s' p hid hp hrecalls
  have hd' := hrecalls.toFollows.distinct
  obtain ⟨q, hq, hqid, helement⟩ := hrecalls.toFollows.areElements hd hnodes p.id hid
  obtain rfl := hd'.place_eq_of_id_eq hq (mem_places_of_place? hp) hqid
  exact hrecalls.trans ((v.step_run context hp helement).recalls hd' hp helement)

/-- A sweep leaves none of the nodes that it goes over ready for it. -/
theorem not_ready_forEach {v : Visit} (hoverwrites : v.manner.overwrites) {nodes : List NodeId}
    (hd : s.document.Distinct) (hnodes : AreElements s.document nodes)
    (hroot : v.manner = .renewal → top ∉ nodes)
    (hq : q ∈ (s.forEach nodes (v.run context)).document.places) (hin : q.id ∈ nodes)
    (hunder : (s.forEach nodes (v.run context)).document.IsUnder top q.id)
    (hholds : v.selector.holds q) : v.ready context q = false := by
  induction nodes generalizing s with
  | nil => cases hin
  | cons id rest ih =>
    obtain ⟨p, hmem, rfl, helement⟩ := hnodes id List.mem_cons_self
    have hp := hd.place? hmem
    have hstep := v.step_run context hp helement
    have hnext := hstep.recalls hd hp helement
    have hd' := hnext.toFollows.distinct
    have hnodes' : AreElements (v.run context s p).document rest :=
      hnext.toFollows.areElements hd fun id hid => hnodes id (List.mem_cons_of_mem _ hid)
    rw [forEach_cons, hp] at hq hunder
    dsimp only at hq hunder
    by_cases hrest : q.id ∈ rest
    · exact ih hd' hnodes' (fun hrenewal hin => hroot hrenewal
        (List.mem_cons_of_mem _ hin)) hq hrest hunder
    · have hid : q.id = p.id := (List.mem_cons.1 hin).resolve_right hrest
      have hlater := recalls_forEach context v hd' hnodes'
      by_contra hready
      rw [Bool.not_eq_false] at hready
      -- The node was ready after the visit, so it was before, and the visit has settled it.
      obtain ⟨m, hm, hmid, hmunder, hmholds, hmready⟩ :=
        hlater.exists_ready hd' hoverwrites hq hunder hholds hready
      have hbefore := hnext.ready hd hoverwrites hmem hm (hmid.trans hid) hmready
      rw [Visit.not_ready_run hd hp helement hoverwrites (fun hrenewal heq => hroot hrenewal
        (heq ▸ List.mem_cons_self)) hbefore hm (hmid.trans hid) hmunder] at hmready
      cases hmready

/-- A selector selects every node at or below the one given that it holds of. -/
theorem mem_selected_of_isUnder (hd : s.document.Distinct) {selector : Selector}
    (hp : p ∈ s.document.places) (hunder : s.document.IsUnder top p.id) (hholds : selector.holds p) :
    p.id ∈ s.selected top selector := by
  obtain ⟨t, ht, rfl, hin⟩ := hunder
  rw [← map_tree_places] at ht
  obtain ⟨r, hr, rfl⟩ := List.mem_map.1 ht
  exact List.mem_flatMap.2 ⟨r, Option.mem_toList.2 (hd.place? hr),
    List.mem_map.2 ⟨p, List.mem_filter.2 ⟨mem_descend_of_id_mem hd hr hp hin, hholds⟩, rfl⟩⟩

/-- A sweep settles all that it goes over from a node down. -/
theorem settled_forEach {v : Visit} (hoverwrites : v.manner.overwrites) (hd : s.document.Distinct)
    (hroot : v.manner = .renewal → ∀ p ∈ s.document.places, p.id = top → v.selector.holds p = false) :
    Settled context v top (s.forEach (s.selected top v.selector) (v.run context)).document := by
  intro q hq hunder hholds
  by_contra hready
  rw [Bool.not_eq_false] at hready
  have hnodes : AreElements s.document (s.selected top v.selector) := areElements_selected _ _
  have hrecalls := recalls_forEach context v hd hnodes
  obtain ⟨p, hp, hid, hunder₀, hholds₀, -⟩ :=
    hrecalls.exists_ready hd hoverwrites hq hunder hholds hready
  have hin : q.id ∈ s.selected top v.selector := hid ▸ mem_selected_of_isUnder hd hp hunder₀ hholds₀
  have hnot := not_ready_forEach hoverwrites hd hnodes (fun hrenewal hin => ?_) hq hin
    hunder hholds
  · rw [hnot] at hready
    cases hready
  · obtain ⟨r, hr, hrid, hholds⟩ := mem_selected hin
    rw [hroot hrenewal r hr hrid] at hholds
    cases hholds

end Sweep

end ThemeSection
