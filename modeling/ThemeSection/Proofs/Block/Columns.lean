import ThemeSection.Proofs.Assets
import ThemeSection.Proofs.Block.ColumnParts
import ThemeSection.Proofs.Block.Paragraphs
import ThemeSection.Proofs.Content.Output

/-!
What a footer column shows. Its heading and its paragraphs come to show their settings, and of its links
one stays for each kind, in the loop that stands for all of them. Each of these is in the column once, and
the other links are gone.
-/

namespace ThemeSection

open Markup Liquid Document

namespace Liquid

theorem not_braceless_append {a b : String} (h : ¬ Braceless a.toList) :
    ¬ Braceless (a ++ b).toList := fun hboth => h fun c hc => hboth c (by simp [hc])

theorem not_braceless_output (expression : String) : ¬ Braceless (output expression).toList := by
  rw [output, String.append_assoc]
  exact not_braceless_append (by decide)

theorem not_braceless_tag (content : String) : ¬ Braceless (tag content).toList := by
  rw [tag, String.append_assoc]
  exact not_braceless_append (by decide)

end Liquid

namespace Document

variable {d start : Document} {x : NodeId} {root p : Place} {content target : String}
  {texts : List String} {leeway : Leeway}

/-- A text stands in a node once. -/
structure SaysOnce (d : Document) (x : NodeId) (content : String) : Prop where
  shown : d.SaysIn x content
  once : ∀ line line', x ∈ line → x ∈ line' → d.Says line content → d.Says line' content → line = line'

/-- The first of some links stands in a loop, the only one of its kind in a node, and is the only link
there that leads where the loop says. The other links are not in the node any more. -/
structure LoopsOver (d : Document) (x : NodeId) (first : Place) (rest : List Place)
    (opening target : String) : Prop where
  looped : d.Looped x first.line opening target
  once : d.SaysOnce x opening
  only : ∀ p ∈ d.places, x ∈ p.line → p.tree.isTag ["a"] → p.tree.attribute? "href" = some target →
    p.id = first.id
  gone : ∀ a ∈ rest, ∀ p ∈ d.places, p.id = a.id → x ∉ p.line

/-- A column shows each setting that it has for its heading, its text and its links. -/
structure ShowsColumn (d : Document) (definition : BlockDefinition) (root : Place) : Prop where
  heading : definition.has "heading" → d.SaysOnce root.id (Liquid.reference .block "heading")
  description : definition.has "description" →
    d.SaysOnce root.id (Liquid.reference .block "description")
  links : definition.has (BlockDefinition.linkTextId 1) → ∃ first rest,
    (FooterParts.locate root).links = first :: rest ∧
      d.LoopsOver root.id first rest BlockDefinition.linkLoopOpen BlockDefinition.linkTarget ∧
      d.SaysOnce root.id BlockDefinition.linkText ∧ d.SaysIn first.id BlockDefinition.linkText
  social : definition.has (BlockDefinition.footerSocialId "facebook") → ∃ first rest,
    (FooterParts.locate root).socials = first :: rest ∧
      d.LoopsOver root.id first rest BlockDefinition.socialLoopOpen BlockDefinition.socialTarget

section

variable (hstart : start.Distinct) (hroot : root ∈ start.places) (hkeeps : Keeps leeway start d)
  (hadds : Adds texts start d) (hplain : root.tree.Braceless)
include hstart hroot hkeeps hadds hplain

/-- A text with braces that is written once stands in the element once. -/
theorem saysOnce (hbrace : ¬ Braceless content.toList) (hcount : texts.count content ≤ 1)
    (h : d.SaysIn root.id content) : d.SaysOnce root.id content where
  shown := h
  once := by
    rintro _ _ hx hx' ⟨p, hp, rfl, hkind⟩ ⟨q, hq, rfl, hkind'⟩
    have hid : p.id = q.id := by
      refine hadds.id_eq hcount (tree_mem_nodes hp) (tree_mem_nodes hq) hkind hkind' fun m hm hid htext => ?_
      have hin : m ∈ root.tree.nodes := hid.elim (mem_nodes_of_line hstart hroot hkeeps hp hx hm)
        (mem_nodes_of_line hstart hroot hkeeps hq hx' hm)
      have hbraceless := hplain m hin
      rw [htext] at hbraceless
      exact hbrace hbraceless
    rw [hkeeps.distinct.place_eq_of_id_eq hp hq hid]

/-- A link of the element that leads to template syntax has been led there. -/
theorem touched_of_target (hbrace : ¬ Braceless target.toList) (hp : p ∈ d.places)
    (hx : root.id ∈ p.line) (htag : p.tree.isTag ["a"])
    (hhref : p.tree.attribute? "href" = some target) : leeway.touched p.id "href" := by
  obtain ⟨m, hm, hid⟩ := hadds.exists_of_isTag (tree_mem_nodes hp) htag (by decide)
  have hid : m.id = p.id := hid
  have hin := mem_nodes_of_line hstart hroot hkeeps hp hx hm hid
  obtain ⟨touched, hevolves, htouched⟩ := hkeeps.evolves
  obtain ⟨k, hk, hbecomes⟩ := (hevolves.source p.tree (tree_mem_nodes hp)).old
    (show p.id < start.next from hid ▸ hstart.fresh _ (id_mem_ids hm))
  obtain rfl := hstart.eq_of_id_eq hk hm (hbecomes.id.symm.trans hid.symm)
  by_contra hnot
  rw [hbecomes.value "href" fun hmem => hnot (hid ▸ htouched _ hmem)] at hhref
  obtain ⟨⟨name, attributes⟩, helement, hvalue⟩ := Option.bind_eq_some_iff.1 hhref
  obtain ⟨leading, hleading, rfl⟩ := Option.map_eq_some_iff.1 hvalue
  have hbraceless := hplain k hin
  rw [Tree.kind_of_element? helement] at hbraceless
  exact hbrace (hbraceless.2 leading (List.mem_of_find?_eq_some hleading)).2

end

end Document

namespace BlockDefinition

variable {d : Document} {root : Place}

/-- The next step of binding a column: its links. -/
def bindTextLinks (root : Place) (d : Document) : Document :=
  bindLinks (bindTexts root d) (FooterParts.locate root).links

/-- The last step: its links to platforms. -/
def bindColumn (root : Place) (d : Document) : Document :=
  bindSocialLinks (bindTextLinks root d) (FooterParts.locate root).socials

namespace Column

variable (h : Column d root)
include h

theorem apart_anchors : (FooterParts.locate root).anchors.Pairwise fun a b => LinesApart a.line b.line :=
  h.apart.link.imp linesApart_of_not_overlaps

variable {lines : List (List NodeId)}
  (hlines : (bindTexts root d).Spared root.id lines (FooterParts.locate root).anchors)
include hlines

/-- The links of the column are bound while its texts and its links to platforms stay. -/
theorem keeps_bindTextLinks :
    Keeps (.sparing d.next (lines ++ (FooterParts.locate root).socials.map Place.line))
        (bindTexts root d) (bindTextLinks root d) ∧
      ∀ first rest, (FooterParts.locate root).links = first :: rest →
        (bindTextLinks root d).NewlyLooped root.id d.next first.line linkLoopOpen linkTarget ∧
        (∃ t, d.next ≤ t ∧ (bindTextLinks root d).Says (t :: first.line) linkText) ∧
        ∀ a ∈ rest, (bindTextLinks root d).Gone root.id a.id := by
  have hfree : Keeps (.free fun _ _ => True) d (bindTexts root d) := h.keeps_bindTexts
  obtain ⟨-, -, hcross⟩ := List.pairwise_append.1 h.apart_anchors
  unfold bindTextLinks
  cases hlinks : (FooterParts.locate root).links with
  | nil => exact ⟨.refl hfree.distinct, fun _ _ hnot => by cases hnot⟩
  | cons first rest =>
    have hsub : first :: rest ⊆ (FooterParts.locate root).anchors :=
      hlinks ▸ List.subset_append_left _ _
    have hspared : (bindTexts root d).Spared root.id
        (lines ++ (FooterParts.locate root).socials.map Place.line) (first :: rest) := by
      refine List.forall_mem_append.2 ⟨fun line hline => ?_, List.forall_mem_map.2 fun b hb => ?_⟩
      · exact ⟨(hlines line hline).1, fun a ha => (hlines line hline).2 a (hsub ha)⟩
      · exact ⟨(h.oldLink_bindTexts (List.mem_append_right _ hb)).links.runs,
          fun a ha => hcross a (hlinks ▸ ha) b hb⟩
    obtain ⟨hkeeps, hlooped, htext, hgone⟩ := looped_bindLinks hfree.distinct
      (fun a ha => h.oldLink_bindTexts (hsub ha)) hspared
      (h.apart_anchors.sublist (hlinks ▸ List.sublist_append_left _ _)) hfree.next_le
    refine ⟨hkeeps, ?_⟩
    rintro _ _ ⟨⟩
    exact ⟨hlooped, htext, hgone⟩

/-- The links to platforms are bound while the texts and the first link of the column stay. -/
theorem keeps_bindSocials :
    Keeps (.sparing d.next (lines ++ (FooterParts.locate root).links.head?.toList.map Place.line))
        (bindTextLinks root d) (bindColumn root d) ∧
      ∀ first rest, (FooterParts.locate root).socials = first :: rest →
        (bindColumn root d).NewlyLooped root.id d.next first.line socialLoopOpen socialTarget ∧
        ∀ a ∈ rest, (bindColumn root d).Gone root.id a.id := by
  have hfree : Keeps (.free fun _ _ => True) d (bindTexts root d) := h.keeps_bindTexts
  obtain ⟨hbefore, hloops⟩ := h.keeps_bindTextLinks hlines
  obtain ⟨-, hpairs, hcross⟩ := List.pairwise_append.1 h.apart_anchors
  unfold bindColumn
  cases hsocials : (FooterParts.locate root).socials with
  | nil => exact ⟨.refl hbefore.distinct, fun _ _ hnot => by cases hnot⟩
  | cons first rest =>
    rw [hsocials] at hbefore hpairs hcross
    have hsub : first :: rest ⊆ (FooterParts.locate root).anchors :=
      hsocials ▸ List.subset_append_right _ _
    have hspared : (bindTextLinks root d).Spared root.id
        (lines ++ (FooterParts.locate root).links.head?.toList.map Place.line) (first :: rest) := by
      refine List.forall_mem_append.2 ⟨fun line hline => ?_, List.forall_mem_map.2 fun b hb => ?_⟩
      · exact ⟨(hlines line hline).1.keeps hfree.distinct hbefore
          (Leeway.not_lost_of_mem (List.mem_append_left _ hline)),
          fun a ha => (hlines line hline).2 a (hsub ha)⟩
      · obtain ⟨links, hlinks⟩ := List.head?_eq_some_iff.1 (Option.mem_toList.1 hb)
        have hb : b ∈ (FooterParts.locate root).links := hlinks ▸ List.mem_cons_self
        have hruns := (h.oldLink_bindTexts (List.mem_append_left _ hb)).links.runs
        exact ⟨⟨(hloops b links hlinks).1.anchor.stands, hruns.firm_keeps hfree.distinct hbefore⟩,
          fun a ha => (hcross b hb a ha).symm⟩
    obtain ⟨hkeeps, hlooped, hgone⟩ := looped_bindSocialLinks hbefore.distinct
      (fun a ha => (h.oldLink_bindTexts (hsub ha)).keeps hfree.distinct hbefore
        (Leeway.not_lost_of_mem (List.mem_append_right _ (List.mem_map_of_mem ha))))
      hspared hpairs (Nat.le_trans hfree.next_le hbefore.next_le)
    refine ⟨hkeeps, ?_⟩
    rintro _ _ ⟨⟩
    exact ⟨hlooped, hgone⟩

end Column

/-- The texts that binding a column may write. -/
def columnTexts : List String :=
  [Liquid.reference .block "heading", Liquid.reference .block "description", linkText, linkLoopOpen,
    loopClose, socialLoopOpen, loopClose]

theorem adds_bindColumn (hd : d.Distinct) : Adds columnTexts d (bindColumn root d) := by
  have hheading : Adds [Liquid.reference .block "heading"] d
      (d.forPart (FooterParts.locate root).heading fun d x => d.showSetting x "heading") := by
    cases (FooterParts.locate root).heading with
    | none => exact .refl d
    | some p => exact (logs_setText _ _).adds
  have hkeeps : Keeps (.free fun _ _ => True) d
      (d.forPart (FooterParts.locate root).heading fun d x => d.showSetting x "heading") :=
    (Keeps.refl hd).forPart (fun _ _ => ⟨fun _ _ => trivial, fun _ => trivial⟩) "heading"
  exact ((hheading.trans (adds_showRichText hkeeps.distinct _ _)).trans (adds_bindLinks _ _)).trans
    (adds_bindSocialLinks _ _)

/-- A link is led elsewhere only if it is the first of its kind. -/
def IsLed (root : Place) (x : NodeId) (name : String) : Prop :=
  name = "href" → x ∈ ((FooterParts.locate root).links.head?.toList ++
    (FooterParts.locate root).socials.head?.toList).map Place.id

namespace Column

variable (h : Column d root)
include h

theorem keeps_bindColumn : Keeps (.free (IsLed root)) d (bindColumn root d) :=
  keeps_free_bindSocialLinks
    (keeps_free_bindLinks h.keeps_bindTexts fun _ hfirst _ => List.mem_map_of_mem
      (List.mem_append_left _ (Option.mem_toList.2 hfirst)))
    (fun _ hfirst _ => List.mem_map_of_mem (List.mem_append_right _ (Option.mem_toList.2 hfirst)))
    fun _ _ hname heq => absurd heq hname

/-- What the column says in the texts of the binding it says once. -/
theorem saysOnce_bindColumn (hplain : root.tree.Braceless) {content : String}
    (hcontent : content ∈ [Liquid.reference .block "heading", Liquid.reference .block "description",
      linkText, linkLoopOpen, socialLoopOpen])
    (htold : (bindColumn root d).SaysIn root.id content) :
    (bindColumn root d).SaysOnce root.id content := by
  have hcounts : ∀ content ∈ [Liquid.reference .block "heading", Liquid.reference .block "description",
      linkText, linkLoopOpen, socialLoopOpen], columnTexts.count content ≤ 1 := by
    decide +kernel
  have hcount := hcounts content hcontent
  have hbrace : ¬ Braceless content.toList := by
    simp only [List.mem_cons, List.not_mem_nil, or_false] at hcontent
    rcases hcontent with rfl | rfl | rfl | rfl | rfl
    · exact not_braceless_output _
    · exact not_braceless_output _
    · exact not_braceless_output _
    · exact not_braceless_append (not_braceless_append (not_braceless_append (not_braceless_tag _)))
    · exact not_braceless_append (not_braceless_append (not_braceless_append (not_braceless_tag _)))
  exact saysOnce h.distinct h.mem h.keeps_bindColumn (adds_bindColumn h.distinct) hplain hbrace hcount
    htold

/-- A loop stands for all links of its kind if the first link of the other kind leads elsewhere. -/
theorem loopsOver (hplain : root.tree.Braceless) {first : Place} {rest : List Place}
    {opening target other : String} (hfirst : first ∈ (FooterParts.locate root).anchors)
    (hlooped : (bindColumn root d).NewlyLooped root.id d.next first.line opening target)
    (hgone : ∀ a ∈ rest, (bindColumn root d).Gone root.id a.id)
    (hopening : opening ∈ [linkLoopOpen, socialLoopOpen]) (htarget : ¬ Braceless target.toList)
    (hne : other ≠ target)
    (hothers : ∀ a ∈ (FooterParts.locate root).links.head?.toList ++
      (FooterParts.locate root).socials.head?.toList, a = first ∨
        (bindColumn root d).Bears a.line "href" other) :
    (bindColumn root d).LoopsOver root.id first rest opening target where
  looped := hlooped.looped
  once := by
    refine h.saysOnce_bindColumn hplain ?_ hlooped.looped.saysIn
    exact List.mem_append_right [Liquid.reference .block "heading", Liquid.reference .block "description",
      linkText] hopening
  only := by
    intro p hp hx htag hhref
    have hkeeps := h.keeps_bindColumn
    have hled := touched_of_target h.distinct h.mem hkeeps (adds_bindColumn h.distinct) hplain htarget
      hp hx htag hhref rfl
    obtain ⟨a, ha, hid⟩ := List.mem_map.1 hled
    rcases hothers a ha with rfl | ⟨q, hq, hline, hother⟩
    · exact hid.symm
    · have hqid : q.id = a.id := (List.cons.inj hline).1
      obtain rfl := hkeeps.distinct.place_eq_of_id_eq hq hp (hqid.trans hid)
      exact absurd (Option.some.inj (hother.symm.trans hhref)) hne
  gone := fun a ha p hp hid => (hgone a ha).not_mem_line h.keeps_bindColumn.distinct hp hid

/-- The links of a column are in their loop in the end. -/
theorem loops_links (hplain : root.tree.Braceless) {first : Place} {rest : List Place}
    (hlinks : (FooterParts.locate root).links = first :: rest) :
    (bindColumn root d).LoopsOver root.id first rest linkLoopOpen linkTarget ∧
      (bindColumn root d).SaysOnce root.id linkText ∧ (bindColumn root d).SaysIn first.id linkText := by
  have hnone : (bindTexts root d).Spared root.id [] (FooterParts.locate root).anchors :=
    List.forall_mem_nil _
  obtain ⟨hbefore, hloops⟩ := h.keeps_bindTextLinks hnone
  obtain ⟨hafter, hsocial⟩ := h.keeps_bindSocials hnone
  obtain ⟨hlooped, ⟨t, ht, htext⟩, hgone⟩ := hloops first rest hlinks
  have hsub : first :: rest ⊆ (FooterParts.locate root).anchors := hlinks ▸ List.subset_append_left _ _
  have hfirst := hsub List.mem_cons_self
  have hkept : first.line ∈ [] ++ (FooterParts.locate root).links.head?.toList.map Place.line := by
    rw [hlinks]
    exact List.mem_singleton_self _
  have htext := htext.spared hafter hkept ht
  have hin : root.id ∈ first.line := List.mem_of_mem_tail (h.oldLink hfirst).links.below
  have htexts : Keeps (.free (IsLed root)) d (bindTexts root d) := h.keeps_bindTexts
  have hnext : d.next ≤ (bindTextLinks root d).next := Nat.le_trans htexts.next_le hbefore.next_le
  refine ⟨h.loopsOver hplain hfirst (hlooped.spared hafter hkept) (fun a ha => ?_) (by simp)
    (not_braceless_output _) (show socialTarget ≠ linkTarget by decide) fun a ha => ?_,
    h.saysOnce_bindColumn hplain (by simp) ⟨_, List.mem_cons_of_mem _ hin, htext⟩,
    _, List.mem_cons_of_mem _ List.mem_cons_self, htext⟩
  · have hold := h.oldLink (hsub (List.mem_cons_of_mem _ ha))
    exact (hgone a ha).keeps hafter (Nat.lt_of_lt_of_le (h.distinct.lt_next_of_place h.mem) hnext)
      (Nat.lt_of_lt_of_le (hold.old _ List.mem_cons_self) hnext)
  · rw [hlinks] at ha
    rcases List.mem_append.1 ha with ha | ha
    · exact Or.inl (List.mem_singleton.1 ha)
    · obtain ⟨others, hothers⟩ := List.head?_eq_some_iff.1 (Option.mem_toList.1 ha)
      exact Or.inr (hsocial a others hothers).1.leads

/-- The links to platforms are in their loop in the end. -/
theorem loops_socials (hplain : root.tree.Braceless) {first : Place} {rest : List Place}
    (hsocials : (FooterParts.locate root).socials = first :: rest) :
    (bindColumn root d).LoopsOver root.id first rest socialLoopOpen socialTarget := by
  have hnone : (bindTexts root d).Spared root.id [] (FooterParts.locate root).anchors :=
    List.forall_mem_nil _
  obtain ⟨hafter, hsocial⟩ := h.keeps_bindSocials hnone
  obtain ⟨hlooped, hgone⟩ := hsocial first rest hsocials
  have hfirst : first ∈ (FooterParts.locate root).anchors :=
    List.mem_append_right _ (hsocials ▸ List.mem_cons_self)
  refine h.loopsOver hplain hfirst hlooped hgone (by simp) (not_braceless_output _)
    (show linkTarget ≠ socialTarget by decide) fun a ha => ?_
  rw [hsocials] at ha
  rcases List.mem_append.1 ha with ha | ha
  · obtain ⟨others, hothers⟩ := List.head?_eq_some_iff.1 (Option.mem_toList.1 ha)
    have hkept : a.line ∈ [] ++ (FooterParts.locate root).links.head?.toList.map Place.line := by
      rw [hothers]
      exact List.mem_singleton_self _
    exact Or.inr (((h.keeps_bindTextLinks hnone).2 a others hothers).1.spared hafter hkept).leads
  · exact Or.inl (List.mem_singleton.1 ha)

/-- The settings of the heading and the text are there in the end. -/
theorem saysIn_bindColumn :
    ((FooterParts.locate root).heading.isSome →
      (bindColumn root d).SaysIn root.id (Liquid.reference .block "heading")) ∧
    ((FooterParts.locate root).paragraphs ≠ [] →
      (bindColumn root d).SaysIn root.id (Liquid.reference .block "description")) := by
  obtain ⟨spots, hspots, hheading, hdescription⟩ := h.exists_spots
  have hlines : (bindTexts root d).Spared root.id (spots.map Prod.fst)
      (FooterParts.locate root).anchors :=
    List.forall_mem_map.2 fun spot hspot => ⟨(hspots spot hspot).runs, (hspots spot hspot).apart⟩
  have hbefore := (h.keeps_bindTextLinks hlines).1
  have hafter := (h.keeps_bindSocials hlines).1
  have htexts : Keeps (.free (IsLed root)) d (bindTexts root d) := h.keeps_bindTexts
  have hshown : ∀ content ∈ spots.map Prod.snd, (bindColumn root d).SaysIn root.id content := by
    refine List.forall_mem_map.2 fun spot hspot => ?_
    have hline := List.mem_map_of_mem (f := Prod.fst) hspot
    have hlinked := (hspots spot hspot).spared htexts.distinct hbefore (List.mem_append_left _ hline)
    exact (hlinked.spared hbefore.distinct hafter (List.mem_append_left _ hline)).saysIn
  exact ⟨fun hsome => hshown _ (hheading hsome), fun hsome => hshown _ (hdescription hsome)⟩

end Column

/-- What a column has settings for by its own definition. -/
theorem has_column (pattern : BlockPattern) (hrole : pattern.role = .footerColumn) (root : Place) :
    ((ofInstance pattern (.read pattern.role root)).has "heading" ↔
      (FooterParts.locate root).heading.isSome) ∧
    ((ofInstance pattern (.read pattern.role root)).has "description" ↔
      (FooterParts.locate root).paragraphs ≠ []) ∧
    ((ofInstance pattern (.read pattern.role root)).has (linkTextId 1) ↔
      (FooterParts.locate root).links ≠ []) ∧
    ((ofInstance pattern (.read pattern.role root)).has (footerSocialId "facebook") ↔
      (FooterParts.locate root).socials ≠ []) := by
  simp only [has_ofInstance, hrole]
  obtain ⟨hheading, hdescription, hlinks, hsocials⟩ :=
    @has_footerColumnSettings (.read .footerColumn root)
  refine ⟨hheading.trans ?_, hdescription.trans ?_, hlinks.trans ?_, hsocials.trans ?_⟩
  · exact Bool.eq_iff_iff.1 Option.isSome_map
  · change (richText? (FooterParts.locate root).paragraphs).isSome ↔ _
    constructor
    · intro hsome hnil
      rw [hnil] at hsome
      cases hsome
    · intro hne
      obtain ⟨p, hp⟩ := List.exists_mem_of_ne_nil _ hne
      rw [richText?_of_mem hp (FooterParts.of_mem_paragraphs hp).2.2.1]
      rfl
  · change ((FooterParts.locate root).links.take BlockInstance.linkSlots).map linkRef ≠ [] ↔ _
    simp [BlockInstance.linkSlots]
  · change BlockInstance.socialLinksOf (FooterParts.locate root).social ≠ [] ↔ _
    simp [BlockInstance.socialLinksOf, FooterParts.socials]

/-- To bind no parts changes nothing, so whether there are any need not be asked. -/
theorem ite_of_ne_nil (change : Document → List Place → Document) (hnil : ∀ d, change d [] = d)
    {asked : Prop} [Decidable asked] {parts : List Place} (h : asked ↔ parts ≠ []) (d : Document) :
    (if asked then change d parts else d) = change d parts := by
  split
  case isTrue => rfl
  case isFalse hnot =>
    rw [h, not_not] at hnot
    rw [hnot, hnil]

/-- A column that is bound by its own definition shows all parts that it has. -/
theorem bind_column (pattern : BlockPattern) (hrole : pattern.role = .footerColumn) (root : Place)
    (d : Document) :
    (ofInstance pattern (.read pattern.role root)).bind pattern.role root d = bindColumn root d := by
  obtain ⟨hheading, hdescription, hlinks, hsocials⟩ := has_column pattern hrole root
  generalize ofInstance pattern (.read pattern.role root) = definition at *
  rw [hrole]
  change bindFooterColumn definition root d = _
  have hfirst : d.showPart definition (FooterParts.locate root).heading "heading" =
      d.forPart (FooterParts.locate root).heading fun d x => d.showSetting x "heading" := by
    cases hpart : (FooterParts.locate root).heading with
    | none => rfl
    | some p => exact if_pos (hheading.2 (hpart ▸ rfl))
  unfold bindFooterColumn
  dsimp only
  rw [hfirst, ite_of_ne_nil (fun d parts => d.showRichText parts "description") (fun _ => rfl)
    hdescription, ite_of_ne_nil bindLinks (fun _ => rfl) hlinks]
  exact ite_of_ne_nil bindSocialLinks (fun _ => rfl) hsocials _

/-- A column with its own definition shows what it has settings for, its links in their loops, whatever
else is in the page. -/
theorem showsColumn_bind (pattern : BlockPattern) (hrole : pattern.role = .footerColumn)
    (h : Column d root) (hplain : root.tree.Braceless) :
    ((ofInstance pattern (.read pattern.role root)).bind pattern.role root d).ShowsColumn
      (ofInstance pattern (.read pattern.role root)) root := by
  obtain ⟨hheading, hdescription, hlinks, hsocials⟩ := has_column pattern hrole root
  rw [bind_column pattern hrole]
  constructor
  case heading => exact fun hhas =>
    h.saysOnce_bindColumn hplain (by simp) (h.saysIn_bindColumn.1 (hheading.1 hhas))
  case description => exact fun hhas =>
    h.saysOnce_bindColumn hplain (by simp) (h.saysIn_bindColumn.2 (hdescription.1 hhas))
  case links =>
    intro hhas
    obtain ⟨first, rest, hcons⟩ := List.exists_cons_of_ne_nil (hlinks.1 hhas)
    exact ⟨first, rest, hcons, h.loops_links hplain hcons⟩
  case social =>
    intro hhas
    obtain ⟨first, rest, hcons⟩ := List.exists_cons_of_ne_nil (hsocials.1 hhas)
    exact ⟨first, rest, hcons, h.loops_socials hplain hcons⟩

def columnPattern : BlockPattern :=
  { type := "footer_column", name := "Footer column", selector := ".footer-col", min := 2, max := 6
    role := .footerColumn, requirement := some .links }

/-- A footer column with a heading, a text, two links and a link to a platform. -/
def shopPage : Document :=
  Document.ofMarkup ("<div class=\"footer-col\"><h3>Shop</h3><p>Tea</p><ul><li><a>A</a></li>" ++
    "<li><a>B</a></li></ul><a href=\"//facebook.com/t\">F</a></div>")

def shopColumn : Place := (shopPage.rootPlace.first? (.classes ["footer-col"])).getD shopPage.rootPlace

theorem showsColumn_bind_shop :
    let definition := ofInstance columnPattern (.read .footerColumn shopColumn)
    (definition.bind .footerColumn shopColumn shopPage).ShowsColumn definition shopColumn ∧
      definition.has "heading" ∧ definition.has "description" ∧ definition.has (linkTextId 1) ∧
      definition.has (footerSocialId "facebook") := by
  have hpage : (∀ n ∈ shopColumn.tree.nodes, n.children ≠ [] → n.isElement) ∧
      (∀ name ∈ ["a", "li"], shopColumn.tree.isTag [name] = false) ∧
      (∀ p ∈ (FooterParts.locate shopColumn).paragraphs, p.id ≠ shopColumn.id) ∧
      shopColumn.tree.Braceless ∧
      (∀ p ∈ (FooterParts.locate shopColumn).heading,
        ∀ a ∈ (FooterParts.locate shopColumn).anchors, ¬ a.overlaps p) ∧
      (∀ p ∈ (FooterParts.locate shopColumn).paragraphs,
        ∀ a ∈ (FooterParts.locate shopColumn).anchors, ¬ p.isWithin a.id) ∧
      ((FooterParts.locate shopColumn).anchors.Pairwise fun a b => ¬ a.overlaps b) ∧
      (FooterParts.locate shopColumn).heading.isSome ∧
      (FooterParts.locate shopColumn).paragraphs ≠ [] ∧
      (FooterParts.locate shopColumn).links ≠ [] ∧ (FooterParts.locate shopColumn).socials ≠ [] := by
    decide +kernel
  obtain ⟨hsolid, hother, hwhole, hplain, hapart, hparagraph, hlink, htitle, htext, hanchors,
    hplatforms⟩ := hpage
  have hcolumn : Column shopPage shopColumn :=
    { distinct := Document.distinct_ofMarkup _
      mem := shopPage.first?_mem_places (.classes ["footer-col"])
      solid := hsolid
      other := hother
      whole := hwhole
      apart := ⟨hapart, hparagraph, hlink⟩ }
  obtain ⟨hheading, hdescription, hlinks, hsocials⟩ := has_column columnPattern rfl shopColumn
  exact ⟨showsColumn_bind columnPattern rfl hcolumn hplain, hheading.2 htitle, hdescription.2 htext,
    hlinks.2 hanchors, hsocials.2 hplatforms⟩

/-- A footer column whose heading is a link. -/
def linkedPage : Document :=
  Document.ofMarkup "<div class=\"footer-col\"><h3><a>Shop</a></h3></div>"

def linkedColumn : Place :=
  (linkedPage.rootPlace.first? (.classes ["footer-col"])).getD linkedPage.rootPlace

/-- The link goes with what the heading held. -/
example : (FooterParts.locate linkedColumn).links ≠ [] ∧
    ∀ p ∈ ((ofInstance columnPattern (.read .footerColumn linkedColumn)).bind .footerColumn linkedColumn
      linkedPage).places, p.isWithin linkedColumn.id → p.tree.isTag ["a"] = false := by
  decide +kernel

end BlockDefinition

end ThemeSection
