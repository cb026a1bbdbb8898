import ThemeSection.Proofs.Block.Loops

/-!
The parts of a footer column. Its heading and its paragraphs come to show their settings on lines that no
link is on, and its links stay as they are until then.
-/

namespace ThemeSection

open Markup Liquid Document

namespace FooterParts

variable {root p a : Place}

/-- The links to platforms, without the names of these. -/
def socials (parts : FooterParts) : List Place :=
  parts.social.map (·.1)

/-- The links of a column, to pages and to platforms. -/
def anchors (parts : FooterParts) : List Place :=
  parts.links ++ parts.socials

/-- No link of a column overlaps its heading or another link, and no paragraph stands in a link. -/
structure Apart (parts : FooterParts) : Prop where
  heading : ∀ p ∈ parts.heading, ∀ a ∈ parts.anchors, ¬ a.overlaps p
  paragraph : ∀ p ∈ parts.paragraphs, ∀ a ∈ parts.anchors, ¬ p.isWithin a.id
  link : parts.anchors.Pairwise fun a b => ¬ a.overlaps b

theorem mem_descend_of_heading (hp : p ∈ (locate root).heading) : p ∈ root.descend := by
  have hfound := (Option.filter_eq_some_iff.1 hp).1
  exact List.mem_of_find?_eq_some hfound

theorem mem_select_of_anchors (ha : a ∈ (locate root).anchors) : a ∈ root.select (.tags ["a"]) := by
  rcases List.mem_append.1 ha with ha | ha
  · exact List.mem_of_mem_filter ha
  · obtain ⟨link, hlink, rfl⟩ := List.mem_map.1 ha
    obtain ⟨b, hb, hmade⟩ := List.mem_filterMap.1 hlink
    obtain ⟨name, -, rfl⟩ := Option.map_eq_some_iff.1 hmade
    exact hb

theorem paragraphs_sublist (root : Place) : (locate root).paragraphs.Sublist root.descend :=
  List.filter_sublist.trans List.filter_sublist

/-- A paragraph says something, holds no link and does not overlap the heading. -/
theorem of_mem_paragraphs (hp : p ∈ (locate root).paragraphs) :
    p ∈ root.select (.tags ["p"]) ∧ p.has (.tags ["a"]) = false ∧ p.tree.plainText ≠ "" ∧
      ∀ q ∈ (locate root).heading, ¬ p.overlaps q := by
  obtain ⟨hselect, hfound⟩ := List.mem_filter.1 hp
  simp only [Bool.and_eq_true, Bool.not_eq_true', bne_iff_ne] at hfound
  obtain ⟨⟨hlinks, htext⟩, hheading⟩ := hfound
  refine ⟨hselect, hlinks, htext, fun q hq hoverlaps => ?_⟩
  have hnot := (Option.all_eq_true _ _).1 hheading q hq
  rw [hoverlaps] at hnot
  cases hnot

end FooterParts

namespace Document

variable {d start : Document} {x old : NodeId} {line : List NodeId} {root p : Place} {content : String}
  {leeway : Leeway}

/-- What stands in the element now and was there before was in the element. -/
theorem mem_nodes_of_line (hstart : start.Distinct) (hroot : root ∈ start.places)
    (hkeeps : Keeps leeway start d) (hp : p ∈ d.places) (hx : root.id ∈ p.line) {m : Tree}
    (hm : m ∈ start.nodes)
    (hid : m.id = p.id) : m ∈ root.tree.nodes := by
  obtain ⟨n, hn, hnid, hpn⟩ := hkeeps.distinct.exists_of_isWithin hp (Place.isWithin_iff_mem_line.2 hx)
  obtain ⟨touched, hevolves, -⟩ := hkeeps.evolves
  obtain ⟨k, hk, hbecomes⟩ := (hevolves.source n hn).old (hnid ▸ hstart.lt_next_of_place hroot)
  obtain rfl := hstart.eq_of_id_eq hk (tree_mem_nodes hroot) (hbecomes.id.symm.trans hnid)
  have hin := hbecomes.below p.id hpn (hid ▸ hstart.fresh _ (id_mem_ids hm))
  obtain ⟨q, hq, hqid⟩ := Place.exists_mem_descend hin
  rw [hstart.eq_of_id_eq hm (tree_mem_nodes (mem_places_descend hroot hq)) (hid.trans hqid.symm)]
  exact Place.map_tree_descend root ▸ List.mem_map_of_mem hq

/-- A new text stands on a line of elements that is apart from some links. -/
structure Spot (d : Document) (x old : NodeId) (links : List Place) (line : List NodeId)
    (content : String) : Prop where
  runs : d.Runs x line
  inside : x ∈ line
  shown : ∃ t, old ≤ t ∧ d.Says (t :: line) content
  apart : ∀ a ∈ links, LinesApart a.line line

variable {d' : Document} {links : List Place} {lines : List (List NodeId)}

theorem Spot.saysIn (h : d.Spot x old links line content) : d.SaysIn x content := by
  obtain ⟨t, -, hsays⟩ := h.shown
  exact ⟨t :: line, List.mem_cons_of_mem _ h.inside, hsays⟩

theorem Spot.spared (h : d.Spot x old links line content) (hd : d.Distinct)
    (hkeeps : Keeps (.sparing old lines) d d') (hline : line ∈ lines) :
    d'.Spot x old links line content where
  runs := h.runs.keeps hd hkeeps (Leeway.not_lost_of_mem hline)
  inside := h.inside
  shown := by
    obtain ⟨t, ht, hsays⟩ := h.shown
    exact ⟨t, ht, hsays.spared hkeeps hline ht⟩
  apart := h.apart

theorem exists_spots_of {asked : Prop} (h : asked → ∃ line, d.Spot x old links line content) :
    ∃ spots : List (List NodeId × String), (∀ spot ∈ spots, d.Spot x old links spot.1 spot.2) ∧
      (asked → content ∈ spots.map Prod.snd) := by
  by_cases hasked : asked
  · obtain ⟨line, hspot⟩ := h hasked
    exact ⟨[(line, content)], List.forall_mem_singleton.2 hspot, fun _ => List.mem_singleton_self _⟩
  · exact ⟨[], List.forall_mem_nil _, fun hyes => absurd hyes hasked⟩

end Document

namespace BlockDefinition

variable {d : Document} {root p a : Place}

theorem isPart_of_anchors (ha : a ∈ (FooterParts.locate root).anchors) :
    IsPart root a ∧ a.tree.isTag ["a"] := by
  have hselect := FooterParts.mem_select_of_anchors ha
  exact ⟨isPart_of_mem_select hselect, Tree.isTag_of_holds (by decide) (List.mem_filter.1 hselect).2⟩

theorem isPart_of_paragraphs (hp : p ∈ (FooterParts.locate root).paragraphs) :
    IsPart root p ∧ p.tree.isTag ["p"] := by
  have hselect := (FooterParts.of_mem_paragraphs hp).1
  exact ⟨isPart_of_mem_select hselect, Tree.isTag_of_holds (by decide) (List.mem_filter.1 hselect).2⟩

/-- An element that is bound as a footer column whose parts stand apart. -/
structure Column (d : Document) (root : Place) : Prop where
  distinct : d.Distinct
  mem : root ∈ d.places
  /-- Only elements hold other nodes. -/
  solid : ∀ n ∈ root.tree.nodes, n.children ≠ [] → n.isElement
  other : ∀ name ∈ ["a", "li"], root.tree.isTag [name] = false
  /-- The element is no paragraph of its own description, as one with a link never is. -/
  whole : ∀ p ∈ (FooterParts.locate root).paragraphs, p.id ≠ root.id
  apart : (FooterParts.locate root).Apart

namespace Column

variable (h : Column d root)
include h

/-- From the element down to a node in it there are elements only. -/
theorem runs (hp : p ∈ root.descend) (helement : p.isElement) : d.Runs root.id p.line where
  stands := ⟨p, mem_places_descend h.mem hp, rfl⟩
  firm := by
    intro y rest hsuffix hx
    obtain ⟨q, hq, hline, hin⟩ := exists_place_of_suffix (mem_places_descend h.mem hp) hsuffix
    obtain rfl : q.id = y := (List.cons.inj hline).1
    refine h.distinct.isElement_of_place hq ?_
    rcases Tree.mem_nodes_iff.1 hin with heq | ⟨c, hc, -⟩
    · rwa [Place.isElement, ← heq]
    · have hself : Keeps (.free fun _ _ => False) d d := .refl h.distinct
      exact h.solid q.tree (mem_nodes_of_line h.distinct h.mem hself hq
        (hline ▸ List.mem_cons_of_mem _ hx) (tree_mem_nodes hq) rfl) (List.ne_nil_of_mem hc)

theorem lt_next (hp : p ∈ root.descend) : ∀ i ∈ p.line, i < d.next :=
  Stands.lt_next h.distinct ⟨p, mem_places_descend h.mem hp, rfl⟩

/-- The links of the column as they are before it is bound. -/
theorem oldLink (ha : a ∈ (FooterParts.locate root).anchors) : d.OldLink root.id d.next a := by
  obtain ⟨⟨hdescend, helement⟩, htag⟩ := isPart_of_anchors ha
  obtain ⟨parent, above, hline, hin⟩ :=
    (h.distinct.place_distinct h.mem).exists_parent hdescend htag (h.other _ (by simp))
  refine ⟨⟨h.runs hdescend helement, ⟨a, mem_places_descend h.mem hdescend, rfl, htag⟩, ?_, ?_⟩,
    h.lt_next hdescend⟩
  · rwa [hline]
  · intro n hn hid
    rw [h.distinct.eq_of_id_eq hn (tree_mem_nodes h.mem) hid]
    exact h.other "li" (by simp)

theorem paragraph_not_mem (hp : p ∈ (FooterParts.locate root).paragraphs)
    (ha : a ∈ (FooterParts.locate root).anchors) : p.id ∉ a.line := by
  intro hin
  have hdescend := (isPart_of_paragraphs hp).1.1
  have hselect := List.mem_filter.1 (FooterParts.mem_select_of_anchors ha)
  have hbelow : a ∈ p.descend := ((h.distinct.place_distinct h.mem).isWithin_iff hselect.1 hdescend).1
    (Place.isWithin_iff_mem_line.2 hin)
  have hnone := (FooterParts.of_mem_paragraphs hp).2.1
  have hfound : (p.descend.find? (Selector.holds (.tags ["a"]))).isSome :=
    List.find?_isSome.2 ⟨a, hbelow, hselect.2⟩
  rw [show p.has (.tags ["a"]) = true from hfound] at hnone
  cases hnone

end Column

/-- The first steps of binding a column: its heading and its paragraphs show their settings. -/
def bindTexts (root : Place) (d : Document) : Document :=
  (d.forPart (FooterParts.locate root).heading fun d x => d.showSetting x "heading").showRichText
    (FooterParts.locate root).paragraphs "description"

def headingIds (root : Place) : List NodeId :=
  (FooterParts.locate root).heading.toList.map Place.id

def paragraphIds (root : Place) : List NodeId :=
  (FooterParts.locate root).paragraphs.map Place.id

theorem keeps_paragraphs (hd : d.Distinct) (root : Place) :
    Keeps (.upTo [] (paragraphIds root) [] fun _ _ => False) d
      (d.showRichText (FooterParts.locate root).paragraphs "description") :=
  (Keeps.refl hd).showRichText (fun _ hp => Leeway.removes_upTo (List.mem_map_of_mem hp)) _

/-- What stands on a line without paragraphs stands there after the paragraphs are gone. -/
theorem spot_showRichText {x old : NodeId} {links : List Place} {line : List NodeId} {content : String}
    (h : d.Spot x old links line content) (hd : d.Distinct)
    (hout : ∀ p ∈ (FooterParts.locate root).paragraphs, p.id ∉ line ∧ p.id < old) :
    (d.showRichText (FooterParts.locate root).paragraphs "description").Spot x old links line content := by
  have hkeeps := keeps_paragraphs hd root
  have hlost : ∀ line', (∀ p ∈ (FooterParts.locate root).paragraphs, p.id ∉ line') →
      ¬ (Leeway.upTo [] (paragraphIds root) [] fun _ _ => False).lost line' := fun line' hline' =>
    Leeway.not_lost_upTo (List.forall_mem_nil _) (List.forall_mem_map.2 hline')
  obtain ⟨t, ht, hsays⟩ := h.shown
  exact { h with
    runs := h.runs.keeps hd hkeeps (hlost line fun p hp => (hout p hp).1)
    shown := ⟨t, ht, hsays.keeps hkeeps (hlost (t :: line) fun p hp hin => (List.mem_cons.1 hin).elim
      (fun heq => Nat.not_lt.2 ht (heq ▸ (hout p hp).2)) (hout p hp).1)⟩ }

namespace Column

variable (h : Column d root)
include h

theorem keeps_heading : Keeps (.upTo (headingIds root) [] [] fun _ _ => False) d
    (d.forPart (FooterParts.locate root).heading fun d x => d.showSetting x "heading") :=
  (Keeps.refl h.distinct).forPart (fun _ hp => Leeway.empties_upTo
    (List.mem_map_of_mem (Option.mem_toList.2 hp))) "heading"

theorem lt_next_of_paragraphs (hp : p ∈ (FooterParts.locate root).paragraphs) : p.id < d.next :=
  h.lt_next (isPart_of_paragraphs hp).1.1 _ List.mem_cons_self

/-- The heading comes to show its setting. -/
theorem spot_heading (hp : p ∈ (FooterParts.locate root).heading) :
    (bindTexts root d).Spot root.id d.next (FooterParts.locate root).anchors p.line
      (Liquid.reference .block "heading") := by
  have hdescend := FooterParts.mem_descend_of_heading hp
  have helement : p.isElement := by
    have hfound := List.find?_some (Option.filter_eq_some_iff.1 hp).1
    exact Place.isElement_of_holds hfound
  have hruns := h.runs hdescend helement
  have hshow := h.keeps_heading
  rw [Option.mem_def.1 hp] at hshow
  have hself : ∀ x ∈ headingIds root, x ∉ p.line.tail := by
    rw [headingIds, Option.mem_def.1 hp]
    exact List.forall_mem_singleton.2 (hruns.stands.not_mem h.distinct)
  have hspot : (d.showSetting p.id "heading").Spot root.id d.next (FooterParts.locate root).anchors
      p.line (Liquid.reference .block "heading") :=
    { runs := hruns.keeps h.distinct hshow (Leeway.not_lost_upTo hself (List.forall_mem_nil _))
      inside := (h.distinct.place_distinct h.mem).id_mem_line hdescend
      shown := ⟨d.next, Nat.le_refl _, says_setText h.distinct hruns.stands _⟩
      apart := fun a ha => linesApart_of_not_overlaps (h.apart.heading p hp a ha) }
  rw [bindTexts, Option.mem_def.1 hp]
  refine spot_showRichText hspot hshow.distinct fun q hq => ⟨?_, h.lt_next_of_paragraphs hq⟩
  exact (Place.not_overlaps_iff.1 ((FooterParts.of_mem_paragraphs hq).2.2.2 p hp)).2

/-- The first paragraph comes to show the setting for the text. -/
theorem spot_paragraphs {first : Place} {rest : List Place}
    (hparagraphs : (FooterParts.locate root).paragraphs = first :: rest) :
    ∃ line, (bindTexts root d).Spot root.id d.next (FooterParts.locate root).anchors line
      (Liquid.reference .block "description") := by
  have hfirst : first ∈ (FooterParts.locate root).paragraphs := hparagraphs ▸ List.mem_cons_self
  obtain ⟨⟨hdescend, helement⟩, htag⟩ := isPart_of_paragraphs hfirst
  obtain ⟨parent, above, hline, hin⟩ :=
    (h.distinct.place_distinct h.mem).exists_parent_of_ne hdescend (h.whole first hfirst)
  have hheading := h.keeps_heading
  have htagged : d.Tagged first.line ["p"] := ⟨first, mem_places_descend h.mem hdescend, rfl, htag⟩
  have hkept : ¬ (Leeway.upTo (headingIds root) [] [] fun _ _ => False).lost first.line := by
    refine Leeway.not_lost_upTo (List.forall_mem_map.2 fun q hq hin => ?_) (List.forall_mem_nil _)
    exact (Place.not_overlaps_iff.1 ((FooterParts.of_mem_paragraphs hfirst).2.2.2 q
      (Option.mem_toList.1 hq))).1 (List.mem_of_mem_tail hin)
  have htagged := htagged.keeps hheading hkept
  have hruns := (h.runs hdescend helement).keeps h.distinct hheading hkept
  have hrest : ∀ q ∈ rest, q.id ∉ parent :: above ∧ q.id < d.next := by
    intro q hq
    have hout := (h.distinct.place_distinct h.mem).not_mem_line_of_sublist
      (hparagraphs ▸ FooterParts.paragraphs_sublist root) q hq
    exact ⟨fun hin => hout (hline ▸ List.mem_cons_of_mem _ hin),
      h.lt_next_of_paragraphs (hparagraphs ▸ List.mem_cons_of_mem _ hq)⟩
  unfold bindTexts
  generalize d.forPart (FooterParts.locate root).heading _ = d₁ at hheading htagged hruns ⊢
  have hshown := keeps_paragraphs hheading.distinct root
  rw [hline] at htagged hruns
  rw [hparagraphs] at hshown ⊢
  obtain ⟨hdiv, hsays⟩ := stands_showRichText hheading.distinct htagged
    (fun q hq => ⟨(hrest q hq).1, Nat.lt_of_lt_of_le (hrest q hq).2 hheading.next_le⟩) "description"
  refine ⟨d₁.next :: parent :: above, ⟨hdiv.stands, ?_⟩, List.mem_cons_of_mem _ hin,
    ⟨d₁.next + 1, Nat.le_succ_of_le hheading.next_le, hsays⟩, fun a ha => ⟨?_, ?_⟩⟩
  · intro y above' hsuffix hx
    rcases List.suffix_cons_iff.1 hsuffix with heq | hsuffix
    · obtain ⟨rfl, rfl⟩ := List.cons.inj heq
      obtain ⟨q, hq, hqline, hqtag⟩ := hdiv
      have hid : q.id = d₁.next := (List.cons.inj hqline).1
      exact hid ▸ hshown.distinct.isElement_of_place hq (Tree.isElement_of_isTag hqtag)
    · exact hruns.firm_keeps hheading.distinct hshown y above' (hsuffix.trans (List.suffix_cons _ _)) hx
  · rintro _ ⟨⟩
    have hout := h.apart.paragraph first hfirst a ha
    rw [Place.isWithin_iff_mem_line, hline] at hout
    have hlt := Nat.lt_of_lt_of_le (h.lt_next (isPart_of_anchors ha).1.1 _ List.mem_cons_self)
      hheading.next_le
    rw [List.mem_cons, not_or]
    exact ⟨Nat.ne_of_lt hlt, fun hin => hout (List.mem_cons_of_mem _ hin)⟩
  · rintro _ ⟨⟩
    have ha := (isPart_of_anchors ha).1.1
    exact fun hin => Nat.not_lt.2 hheading.next_le (h.lt_next ha _ hin)

/-- The settings of the heading and the text stand on lines that no link is on. -/
theorem exists_spots : ∃ spots : List (List NodeId × String),
    (∀ spot ∈ spots, (bindTexts root d).Spot root.id d.next (FooterParts.locate root).anchors
      spot.1 spot.2) ∧
    ((FooterParts.locate root).heading.isSome →
      Liquid.reference .block "heading" ∈ spots.map Prod.snd) ∧
    ((FooterParts.locate root).paragraphs ≠ [] →
      Liquid.reference .block "description" ∈ spots.map Prod.snd) := by
  obtain ⟨spots, hspots, hheading⟩ := exists_spots_of fun hsome => by
    obtain ⟨p, hp⟩ := Option.isSome_iff_exists.1 hsome
    exact ⟨p.line, h.spot_heading hp⟩
  obtain ⟨spots', hspots', hdescription⟩ := exists_spots_of fun hne => by
    obtain ⟨first, rest, hparagraphs⟩ := List.exists_cons_of_ne_nil hne
    exact h.spot_paragraphs hparagraphs
  refine ⟨spots ++ spots', List.forall_mem_append.2 ⟨hspots, hspots'⟩, fun hsome => ?_, fun hne => ?_⟩
  · exact List.map_append ▸ List.mem_append_left _ (hheading hsome)
  · exact List.map_append ▸ List.mem_append_right _ (hdescription hne)

/-- The links of the column are there when its texts have been bound. -/
theorem oldLink_bindTexts (ha : a ∈ (FooterParts.locate root).anchors) :
    (bindTexts root d).OldLink root.id d.next a := by
  have hheading := h.keeps_heading
  have hold := (h.oldLink ha).keeps h.distinct hheading (Leeway.not_lost_upTo
    (List.forall_mem_map.2 fun p hp hin => (Place.not_overlaps_iff.1
      (h.apart.heading p (Option.mem_toList.1 hp) a ha)).1 (List.mem_of_mem_tail hin))
    (List.forall_mem_nil _))
  exact hold.keeps hheading.distinct (keeps_paragraphs hheading.distinct root) (Leeway.not_lost_upTo
    (List.forall_mem_nil _) (List.forall_mem_map.2 fun p hp => h.paragraph_not_mem hp ha))

theorem keeps_bindTexts {touched : NodeId → String → Prop} :
    Keeps (.free touched) d (bindTexts root d) := by
  have hany : ∀ x, (Leeway.free touched).Empties x ∧ (Leeway.free touched).Removes x := fun _ =>
    ⟨⟨fun _ _ => trivial, fun _ => trivial⟩, ⟨fun _ _ => trivial, fun _ _ _ => trivial⟩⟩
  exact ((Keeps.refl h.distinct).forPart (fun p _ => (hany p.id).1) "heading").showRichText
    (fun p _ => (hany p.id).2) "description"

end Column

end BlockDefinition

end ThemeSection
