import ThemeSection.Proofs.Block.Standing

/-!
The items of links. What is repeated or taken out for a link is the link itself or the item of a list that
holds no other element. So it takes nothing along of a line of elements that stands apart from the link,
and what the edits for some links leave is known by the lines that are to be spared.
-/

namespace ThemeSection

open Markup

namespace Document

variable {d d' : Document} {x y parent : NodeId} {line rest above : List NodeId}
  {names : List String} {leeway : Leeway}

/-- The nodes on a line stand on the ends of it. -/
theorem exists_place_of_suffix {p : Place} (hp : p ∈ d.places) (h : y :: rest <:+ p.line) :
    ∃ q ∈ d.places, q.line = y :: rest ∧ p.tree ∈ q.tree.nodes := by
  obtain ⟨tree, levels⟩ := p
  induction levels generalizing tree with
  | nil => exact ⟨_, hp, (h.eq_of_length (Nat.le_antisymm h.length_le (by simp [Place.line]))).symm,
      tree.self_mem_nodes⟩
  | cons level levels ih =>
    rcases List.suffix_cons_iff.1 h with heq | h
    · exact ⟨_, hp, heq.symm, tree.self_mem_nodes⟩
    · obtain ⟨q, hq, hline, hin⟩ := ih (level.close tree) (mem_places_close hp) h
      exact ⟨q, hq, hline, Tree.nodes_trans hin
        (Tree.mem_nodes_of_mem_children (Place.mem_children_close level tree))⟩

theorem Stands.of_suffix (h : d.Stands line) (hsuffix : y :: rest <:+ line) : d.Stands (y :: rest) := by
  obtain ⟨p, hp, rfl⟩ := h
  obtain ⟨q, hq, hline, -⟩ := exists_place_of_suffix hp hsuffix
  exact ⟨q, hq, hline⟩

/-- A node stands at the beginning of one line. -/
theorem Stands.eq (hd : d.Distinct) (h : d.Stands (y :: rest)) (h' : d.Stands (y :: above)) :
    rest = above := by
  obtain ⟨p, hp, hline⟩ := h
  obtain ⟨q, hq, hline'⟩ := h'
  obtain rfl := hd.place_eq_of_id_eq hp hq ((List.cons.inj hline).1.trans (List.cons.inj hline').1.symm)
  exact (List.cons.inj (hline.symm.trans hline')).2

theorem Stands.not_mem (hd : d.Distinct) (h : d.Stands (y :: rest)) : y ∉ rest := by
  obtain ⟨p, hp, hline⟩ := h
  obtain ⟨rfl, rfl⟩ := List.cons.inj hline
  exact (hd.place_distinct hp).id_not_mem_tail

theorem Stands.lt_next (hd : d.Distinct) (h : d.Stands line) : ∀ i ∈ line, i < d.next := by
  obtain ⟨p, hp, rfl⟩ := h
  intro i hi
  obtain ⟨n, hn, rfl, -⟩ := hd.exists_of_isWithin hp (Place.isWithin_iff_mem_line.2 hi)
  exact hd.fresh _ (id_mem_ids hn)

/-- The nodes of a line below `x` are elements. -/
def Firm (d : Document) (x : NodeId) (line : List NodeId) : Prop :=
  ∀ y rest, y :: rest <:+ line → x ∈ rest → d.IsElement y

/-- A line of elements down from `x`. -/
structure Runs (d : Document) (x : NodeId) (line : List NodeId) : Prop where
  stands : d.Stands line
  firm : d.Firm x line

theorem Runs.firm_keeps (h : d.Runs x line) (hd : d.Distinct) (hkeeps : Keeps leeway d d') :
    d'.Firm x line := by
  intro y rest hsuffix hx
  obtain ⟨touched, hevolves, -⟩ := hkeeps.evolves
  exact (h.firm y rest hsuffix hx).of_evolves hevolves
    (h.stands.lt_next hd y (hsuffix.subset List.mem_cons_self))

theorem Runs.keeps (h : d.Runs x line) (hd : d.Distinct) (hkeeps : Keeps leeway d d')
    (hkept : ¬ leeway.lost line) : d'.Runs x line where
  stands := h.stands.keeps hkeeps hkept
  firm := h.firm_keeps hd hkeeps

/-- Neither of two lines leads to the beginning of the other. -/
structure LinesApart (l l' : List NodeId) : Prop where
  left : ∀ i ∈ l.head?, i ∉ l'
  right : ∀ i ∈ l'.head?, i ∉ l

theorem LinesApart.symm {l l' : List NodeId} (h : LinesApart l l') : LinesApart l' l :=
  ⟨h.right, h.left⟩

theorem linesApart_of_not_overlaps {p q : Place} (h : ¬ p.overlaps q) : LinesApart p.line q.line := by
  obtain ⟨hq, hp⟩ := Place.not_overlaps_iff.1 h
  exact ⟨fun _ hi => Option.some.inj hi ▸ hp, fun _ hi => Option.some.inj hi ▸ hq⟩

/-- The item is the link, or the item of a list around it in which no other element stands. -/
theorem linkItem_cases (hd : d.Distinct) (h : d.Tagged (y :: parent :: above) names) :
    d.linkItem y = y ∨ d.linkItem y = parent ∧ d.Tagged (parent :: above) ["li"] ∧
      ∀ c, d.Stands (c :: parent :: above) → d.IsElement c → c = y := by
  obtain ⟨⟨tree, levels⟩, hp, hline, htag⟩ := h
  obtain ⟨rfl, habove⟩ := List.cons.inj hline
  obtain ⟨level, levels, rfl, rfl, rfl⟩ := List.map_eq_cons_iff.1 habove
  have hparent := mem_places_close hp
  rcases d.linkItem_eq_or tree.id with heq | ⟨p, parent, hplace, habove, heq, hli, hone⟩
  · exact Or.inl heq
  · obtain rfl := Option.some.inj (hplace.symm.trans (hd.place? hp))
    obtain rfl := Option.some.inj habove
    refine Or.inr ⟨heq, ⟨_, hparent, rfl, hli⟩, ?_⟩
    rintro c ⟨⟨child, levels'⟩, hc, hline'⟩ helement
    obtain ⟨rfl, habove'⟩ := List.cons.inj hline'
    obtain ⟨level', levels', rfl, hid, -⟩ := List.map_eq_cons_iff.1 habove'
    have hsame : level'.close child = level.close tree :=
      congrArg Place.tree (hd.place_eq_of_id_eq (mem_places_close hc) hparent hid)
    exact congrArg Tree.id (hone child (hsame ▸ Place.mem_children_close level' child) tree
      (Place.mem_children_close level tree) (helement child (tree_mem_nodes hc) rfl)
      (Tree.isElement_of_isTag htag))

/-- An anchor below `x` on a line of elements, where `x` is not the item of a list itself. -/
structure Links (d : Document) (x : NodeId) (line : List NodeId) : Prop where
  runs : d.Runs x line
  tagged : d.Tagged line ["a"]
  below : x ∈ line.tail
  outer : ∀ n ∈ d.nodes, n.id = x → n.isTag ["li"] = false

theorem Links.keeps (h : d.Links x line) (hd : d.Distinct) (hkeeps : Keeps leeway d d')
    (hkept : ¬ leeway.lost line) : d'.Links x line where
  runs := h.runs.keeps hd hkeeps hkept
  tagged := h.tagged.keeps hkeeps hkept
  below := h.below
  outer := by
    rintro n hn rfl
    obtain ⟨touched, hevolves, -⟩ := hkeeps.evolves
    have hx := h.runs.stands.lt_next hd n.id (List.mem_of_mem_tail h.below)
    obtain ⟨m, hm, hbecomes⟩ := (hevolves.source n hn).old hx
    rw [Tree.isTag, hbecomes.tag?]
    exact h.outer m hm hbecomes.id.symm

/-- The item of a link is on its line, with a node above it that is `x` or below `x`. -/
theorem Links.exists_item (h : d.Links x (y :: above)) (hd : d.Distinct) :
    ∃ parent rest, x ∈ parent :: rest ∧ d.Stands (d.linkItem y :: parent :: rest) ∧
      (y :: above = d.linkItem y :: parent :: rest ∨ above = d.linkItem y :: parent :: rest) := by
  obtain ⟨parent, above, rfl⟩ := List.exists_cons_of_ne_nil (List.ne_nil_of_mem h.below)
  rcases linkItem_cases hd h.tagged with heq | ⟨heq, hitem, -⟩ <;> rw [heq]
  · exact ⟨parent, above, h.below, h.runs.stands, Or.inl rfl⟩
  · have hstands := hitem.stands
    obtain ⟨p, hp, hline, hli⟩ := hitem
    have hne : x ≠ parent := by
      rintro rfl
      have hout := h.outer p.tree (tree_mem_nodes hp) (List.cons.inj hline).1
      rw [hli] at hout
      cases hout
    have hx := (List.mem_cons.1 h.below).resolve_left hne
    obtain ⟨next, rest, rfl⟩ := List.exists_cons_of_ne_nil (List.ne_nil_of_mem hx)
    exact ⟨next, rest, hx, hstands, Or.inr rfl⟩

theorem Links.linkItem_mem (h : d.Links x (y :: above)) (hd : d.Distinct) :
    d.linkItem y ∈ y :: above := by
  obtain ⟨parent, rest, -, -, heq | heq⟩ := h.exists_item hd
  · exact heq ▸ List.mem_cons_self
  · exact List.mem_cons_of_mem _ (heq ▸ List.mem_cons_self)

/-- The item of a link is not on a line of elements that is apart from the link. -/
theorem Links.linkItem_not_mem (h : d.Links x (y :: above)) (hd : d.Distinct) (hline : d.Runs x line)
    (hapart : LinesApart (y :: above) line) : d.linkItem y ∉ line := by
  have hout : y ∉ line := hapart.left y rfl
  obtain ⟨parent, above, rfl⟩ := List.exists_cons_of_ne_nil (List.ne_nil_of_mem h.below)
  rcases linkItem_cases hd h.tagged with heq | ⟨heq, hitem, hone⟩
  · rwa [heq]
  rw [heq]
  intro hin
  obtain ⟨before, after, rfl⟩ := List.append_of_mem hin
  rcases before.eq_nil_or_concat' with rfl | ⟨before, c, rfl⟩
  · exact hapart.right parent rfl (List.mem_cons_of_mem _ List.mem_cons_self)
  · -- The line goes through the item, so the next node down on it is the link.
    rw [List.append_assoc, List.singleton_append] at hline hout
    have hparent : d.Stands (parent :: after) :=
      hline.stands.of_suffix ((List.suffix_cons c _).trans (List.suffix_append before _))
    obtain rfl := hparent.eq hd hitem.stands
    have hchild := List.suffix_append before (c :: parent :: after)
    have hc := hone c (hline.stands.of_suffix hchild) (hline.firm c _ hchild h.below)
    exact hout (hc ▸ hchild.subset List.mem_cons_self)

end Document

namespace Leeway

variable {old x : NodeId} {lines more : List (List NodeId)} {line : List NodeId}

/-- Old nodes that are on none of some lines. -/
def Spends (old : NodeId) (lines : List (List NodeId)) (x : NodeId) : Prop :=
  x < old ∧ ∀ line ∈ lines, x ∉ line

/-- Old nodes may go that are on none of some lines, and their links may lead elsewhere. -/
def sparing (old : NodeId) (lines : List (List NodeId)) : Leeway where
  lost line := ∃ x ∈ line, Spends old lines x
  parted parent row := ∃ x ∈ parent :: row, Spends old lines x
  touched x name := name = "href" → Spends old lines x

/-- Anything may go, and some attributes may be changed. -/
def free (touched : NodeId → String → Prop) : Leeway where
  lost _ := True
  parted _ _ := True
  touched := touched

theorem removes_sparing (h : Spends old lines x) : (sparing old lines).Removes x where
  lost := fun _ hline => ⟨x, hline, h⟩
  parted := fun _ _ hrow => ⟨x, List.mem_cons_of_mem _ hrow, h⟩

theorem empties_sparing (h : Spends old lines x) : (sparing old lines).Empties x where
  lost := fun _ hline => ⟨x, List.mem_of_mem_tail hline, h⟩
  parted := fun _ => ⟨x, List.mem_cons_self, h⟩

theorem surrounds_sparing (h : Spends old lines x) : (sparing old lines).Surrounds x :=
  (removes_sparing h).parted

/-- What stands on a line that is spared, up to a new node. -/
theorem not_lost_sparing {part : List NodeId} (h : ∀ x ∈ part, old ≤ x ∨ ∃ line ∈ lines, x ∈ line) :
    ¬ (sparing old lines).lost part := by
  rintro ⟨x, hx, hlt, hout⟩
  rcases h x hx with hle | ⟨line, hline, hin⟩
  · exact Nat.not_lt.2 hle hlt
  · exact hout line hline hin

theorem not_lost_of_mem (h : line ∈ lines) : ¬ (sparing old lines).lost line :=
  not_lost_sparing fun _ hx => Or.inr ⟨line, h, hx⟩

end Leeway

namespace Document

variable {d d' : Document} {x old : NodeId} {lines more : List (List NodeId)} {a first : Place}
  {links : List Place} {leeway : Leeway}

theorem Keeps.spare (h : Keeps (.sparing old (lines ++ more)) d d') : Keeps (.sparing old lines) d d' := by
  have hspends : ∀ x, Leeway.Spends old (lines ++ more) x → Leeway.Spends old lines x :=
    fun x h => ⟨h.1, fun line hline => h.2 line (List.mem_append_left _ hline)⟩
  exact h.mono (fun _ ⟨x, hx, h⟩ => ⟨x, hx, hspends x h⟩) (fun _ _ ⟨x, hx, h⟩ => ⟨x, hx, hspends x h⟩)
    fun x _ h hname => hspends x (h hname)

theorem Keeps.free {touched : NodeId → String → Prop} {start : Document}
    (h : Keeps (.free touched) start d) (e : Edit) (he : ∀ a ∈ e.touched, touched a.1 a.2) :
    Keeps (.free touched) start (d.apply e) :=
  h.step ⟨fun _ _ => trivial, fun _ _ _ => trivial, he⟩

/-- A node does not stand in another. -/
def Gone (d : Document) (x y : NodeId) : Prop :=
  ∀ n ∈ d.nodes, n.id = x → y ∉ n.ids

theorem Gone.keeps {y : NodeId} (h : d.Gone x y) (hkeeps : Keeps leeway d d') (hx : x < d.next)
    (hy : y < d.next) : d'.Gone x y := by
  rintro n hn rfl hin
  obtain ⟨touched, hevolves, -⟩ := hkeeps.evolves
  obtain ⟨m, hm, hbecomes⟩ := (hevolves.source n hn).old hx
  exact h m hm hbecomes.id.symm (hbecomes.below y hin hy)

theorem Gone.not_mem_line {y : NodeId} (h : d.Gone x y) (hd : d.Distinct) {p : Place} (hp : p ∈ d.places)
    (hid : p.id = y) : x ∉ p.line := by
  intro hin
  obtain ⟨n, hn, hnx, hpn⟩ := hd.exists_of_isWithin hp (Place.isWithin_iff_mem_line.2 hin)
  exact h n hn hnx (hid ▸ hpn)

/-- What stands in a node that is taken out does not stand in the nodes above it any more. -/
theorem gone_detach (hd : d.Distinct) {p q : Place} (hp : p ∈ d.places) (hx : x ∈ p.line.tail)
    (hq : q ∈ d.places) (hin : p.id ∈ q.line) : (d.detach p.id).Gone x q.id := by
  obtain ⟨tree, levels⟩ := p
  obtain ⟨level, levels, rfl⟩ : ∃ level rest, levels = level :: rest := by
    cases levels with
    | nil => cases hx
    | cons level rest => exact ⟨level, rest, rfl⟩
  change (d.detach tree.id).Gone x q.id
  have hplace : d.place? tree.id = some ⟨tree, level :: levels⟩ := hd.place? hp
  have htrees : (d.detach tree.id).trees = (d.splice tree.id fun _ => []).trees ++ [tree] := by
    rw [detach, hplace]
    rfl
  have hbelow : q.id ∈ tree.ids := by
    obtain ⟨n, hn, hid, hqn⟩ := hd.exists_of_isWithin hq (Place.isWithin_iff_mem_line.2 hin)
    rwa [hd.eq_of_id_eq hn (tree_mem_nodes hp) hid] at hqn
  have hnodup := (evolves_detach hd tree.id).distinct.nodup
  rw [ids, htrees, List.flatMap_append, List.flatMap_singleton] at hnodup
  rintro n hn rfl hqn
  obtain ⟨t, ht, hnt⟩ := mem_nodes.1 hn
  rw [htrees, List.mem_append, List.mem_singleton] at ht
  rcases ht with ht | heq
  · exact (List.nodup_append.1 hnodup).2.2 q.id
      (List.mem_flatMap.2 ⟨t, ht, Tree.ids_subset_of_mem_nodes hnt hqn⟩) q.id hbelow rfl
  · obtain ⟨l, hl, hid⟩ := List.mem_map.1 hx
    exact (hd.place_distinct hp).ne_level (heq ▸ Tree.id_mem_ids_of_mem_nodes hnt) hl hid

theorem Links.gone_detachLink (h : d.Links x a.line) (hd : d.Distinct) :
    (d.detachLink a).Gone x a.id := by
  obtain ⟨parent, rest, hx, ⟨p, hp, hpline⟩, -⟩ := h.exists_item hd
  obtain ⟨q, hq, hqline⟩ := h.runs.stands
  have hpid : p.id = d.linkItem a.id := (List.cons.inj hpline).1
  have hqid : q.id = a.id := (List.cons.inj hqline).1
  have hgone : (d.detach p.id).Gone x q.id := by
    refine gone_detach hd hp ?_ hq ?_
    · rwa [hpline, List.tail_cons]
    · rw [hqline, hpid]
      exact h.linkItem_mem hd
  rwa [hpid, hqid] at hgone

/-- A link that is to be taken out or kept, on a line of old nodes. -/
structure OldLink (d : Document) (x old : NodeId) (a : Place) : Prop where
  links : d.Links x a.line
  old : ∀ i ∈ a.line, i < old

theorem OldLink.keeps (h : d.OldLink x old a) (hd : d.Distinct) (hkeeps : Keeps leeway d d')
    (hkept : ¬ leeway.lost a.line) : d'.OldLink x old a where
  links := h.links.keeps hd hkeeps hkept
  old := h.old

theorem OldLink.spends (h : d.OldLink x old a) (hd : d.Distinct)
    (hlines : ∀ line ∈ lines, d.Runs x line ∧ LinesApart a.line line) :
    Leeway.Spends old lines (d.linkItem a.id) :=
  ⟨h.old _ (h.links.linkItem_mem hd), fun line hline =>
    h.links.linkItem_not_mem hd (hlines line hline).1 (hlines line hline).2⟩

/-- Links that are taken out, each with its item, leave all lines that are apart from them. -/
theorem keeps_detachLinks (hd : d.Distinct) (hlinks : ∀ a ∈ links, d.OldLink x old a)
    (hlines : ∀ line ∈ lines, d.Runs x line ∧ ∀ a ∈ links, LinesApart a.line line)
    (hpairs : links.Pairwise fun a b => LinesApart a.line b.line) :
    Keeps (.sparing old lines) d (links.foldl detachLink d) ∧
      ∀ a ∈ links, (links.foldl detachLink d).Gone x a.id := by
  induction links generalizing d with
  | nil => exact ⟨.refl hd, List.forall_mem_nil _⟩
  | cons a rest ih =>
    obtain ⟨ha, hrest⟩ := List.forall_mem_cons.1 hlinks
    obtain ⟨hfirst, hpairs⟩ := List.pairwise_cons.1 hpairs
    -- The lines of the links that are still there are spared as well.
    have hspared : ∀ line ∈ lines ++ rest.map Place.line, d.Runs x line ∧ LinesApart a.line line := by
      refine List.forall_mem_append.2 ⟨fun line hline => ?_, List.forall_mem_map.2 fun b hb => ?_⟩
      · exact ⟨(hlines line hline).1, (hlines line hline).2 a List.mem_cons_self⟩
      · exact ⟨(hrest b hb).links.runs, hfirst b hb⟩
    have hstep : Keeps (.sparing old (lines ++ rest.map Place.line)) d (d.detachLink a) :=
      (Keeps.refl hd).step (Leeway.within_detach (Leeway.removes_sparing (ha.spends hd hspared)))
    have hkept : ∀ line ∈ lines ++ rest.map Place.line,
        ¬ (Leeway.sparing old (lines ++ rest.map Place.line)).lost line :=
      fun line hline => Leeway.not_lost_of_mem hline
    obtain ⟨hkeeps, hgone⟩ := ih hstep.distinct
      (fun b hb => (hrest b hb).keeps hd hstep
        (hkept _ (List.mem_append_right _ (List.mem_map_of_mem hb))))
      (fun line hline => ⟨(hlines line hline).1.keeps hd hstep
        (hkept line (List.mem_append_left _ hline)), fun b hb =>
          (hlines line hline).2 b (List.mem_cons_of_mem _ hb)⟩) hpairs
    refine ⟨hstep.spare.trans hkeeps, List.forall_mem_cons.2 ⟨?_, hgone⟩⟩
    have hstands := ha.links.runs.stands
    have hlt : ∀ i ∈ a.line, i < (d.detachLink a).next :=
      fun i hi => Nat.lt_of_lt_of_le (hstands.lt_next hd i hi) hstep.next_le
    exact (ha.links.gone_detachLink hd).keeps hkeeps
      (hlt x (List.mem_of_mem_tail ha.links.below)) (hlt a.id List.mem_cons_self)

end Document

end ThemeSection
