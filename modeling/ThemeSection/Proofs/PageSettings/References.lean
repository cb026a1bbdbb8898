import ThemeSection.Proofs.Block.Detection
import ThemeSection.Proofs.PageSettings.Step

/-!
What sweeps refer to. Every reference that a sweep writes is to a setting that it has collected, and
what it takes over from the page, such as the source of an image, carries no template syntax. So the
document stays sound while it comes to refer to more and more settings of the page.
-/

namespace ThemeSection

open Markup Liquid Document

namespace Liquid

/-- The settings of the whole page that are referred to are among these. -/
def Names (ids : List String) (owner : Owner) (id : String) : Prop :=
  owner = .whole → id ∈ ids

/-- A text without marks holds neither outputs nor tags. -/
theorem tokens_of_not_hasMarks {text : String} (h : hasMarks text = false) :
    tokens text.toList = [] := by
  have hmark : ∀ mark ∈ marks, ¬ mark.toList <:+: text.toList := by
    intro mark hmem
    have hnot := List.any_eq_false.1 h mark hmem
    rwa [Text.contains, Bool.not_eq_true, Chars.contains_eq_false_iff] at hnot
  have houtput : ¬ ['\x7b', '\x7b'] <:+: text.toList := hmark "\x7b\x7b" (by decide)
  have htag : ¬ ['\x7b', '%'] <:+: text.toList := hmark "\x7b%" (by decide)
  generalize text.toList = s at houtput htag
  rw [tokens]
  induction s with
  | nil => rfl
  | cons c s ih =>
    have hrest := ih (fun hin => houtput (hin.trans (List.suffix_cons c s).isInfix))
      (fun hin => htag (hin.trans (List.suffix_cons c s).isInfix))
    rw [scan.eq_def]
    split
    case h_1 rest _ hcons =>
      rw [hcons] at houtput
      exact absurd (List.prefix_append ['\x7b', '\x7b'] rest).isInfix houtput
    case h_2 rest _ hcons =>
      rw [hcons] at htag
      exact absurd (List.prefix_append ['\x7b', '%'] rest).isInfix htag
    case h_3 hcons =>
      obtain ⟨-, rfl⟩ := List.cons.inj hcons
      exact hrest
    all_goals simp_all

end Liquid

/-- Nodes of a scope that are there and are elements. -/
def Document.Elements (scope : NodeId → Prop) (d : Document) (nodes : List NodeId) : Prop :=
  ∀ id ∈ nodes, scope id ∧ id < d.next ∧ d.IsElement id

namespace Sweep

variable {context : Context} {s s' : Sweep} {p : Place} {ids : List String} {edits : List Edit}
  {allowed : Owner → String → Prop} {scope : NodeId → Prop} {styled : List NodeId}
  {manner : Manner} {nodes : List NodeId} {start : Document}

theorem not_mem_regions (h : p.isWithinAny context.regions = false) : p.id ∉ context.regions := by
  intro hin
  have hnot := List.any_eq_false.1 h p.id hin
  simp [Place.isWithin] at hnot

/-- What makes a sound node show some settings refers to these only. -/
theorem Writes.fits (h : Writes context p manner ids edits) (hsound : p.tree.SoundNode allowed scope styled)
    (hstyled : p.id ∈ styled → p.id ∈ context.regions) (hnames : ∀ id ∈ ids, IsName id) :
    ∀ e ∈ edits, e.Fits (Names ids) := by
  have hwidths : Silent (atWidth imageWidth) ∧ Silent (atWidth backgroundWidth) := by
    decide +kernel
  have hhref : "href" ≠ "style" ∧ Braceless "href".toList := by decide
  have hsrcset : "src" ≠ "style" ∧ Braceless "src".toList := by decide
  have halt : "alt" ≠ "style" ∧ Braceless "alt".toList := by decide
  have hreference : ∀ id ∈ ids, Liquid.Sound (Names ids) (reference .whole id) := fun id hid =>
    sound_reference .whole (hnames id hid) fun _ => hid
  have hsource : ∀ id ∈ ids, ∀ src, p.tree.attribute? "src" = some src → hasMarks src = false →
      Liquid.Sound (Names ids) (imageSource .whole id (Text.trim src) imageWidth) := by
    intro id hid src hsrc hmarks
    have hplain := (hsound.sound_of_attribute? hsrc).settled.braceless
      (tokens_of_not_hasMarks hmarks)
    refine sound_imageSource (hnames id hid) (fun _ => hid) (sound_of_braceless fun c hc => ?_)
      hwidths.1
    rw [Text.trim, Text.toList_onChars] at hc
    exact hplain c (Chars.trim_subset _ hc)
  cases h with
  | text id _ => exact List.forall_mem_singleton.2 (hreference id List.mem_cons_self)
  | link textId urlId _ =>
    simp only [List.forall_mem_cons]
    exact ⟨hreference textId (by simp), ⟨hhref.1, hhref.2, hreference urlId (by simp)⟩,
      List.forall_mem_nil _⟩
  | paragraph id _ _ _ => exact List.forall_mem_singleton.2 (hreference id List.mem_cons_self)
  | image id src hsrc hmarks _ =>
    simp only [List.forall_mem_cons]
    exact ⟨⟨hsrcset.1, hsrcset.2, hsource id (by simp) src hsrc hmarks⟩, trivial, List.forall_mem_nil _⟩
  | describedImage id altId src hsrc hmarks _ =>
    simp only [List.forall_mem_cons]
    exact ⟨⟨hsrcset.1, hsrcset.2, hsource id (by simp) src hsrc hmarks⟩, trivial,
      ⟨halt.1, halt.2, sound_escapedReference .whole (hnames altId (by simp)) fun _ => by simp⟩,
      (List.forall_mem_nil _)⟩
  | background id style url hstyle hurl hregions =>
    have hplain := hsound.style (fun hin => not_mem_regions hregions (hstyled hin)) style hstyle
    exact List.forall_mem_singleton.2 (sound_imageSource (hnames id (by simp)) (fun _ => by simp)
      (sound_of_braceless (Style.braceless_backgroundUrl? hplain hurl)) hwidths.2)

/-- The node that is visited is one that the edits are meant for. -/
theorem Writes.turns (h : Writes context p manner ids edits) (hfits : ∀ e ∈ edits, e.Fits allowed)
    (hscope : scope p.id) (hstyled : p.id ∈ styled → p.id ∈ context.regions) (d : Document) :
    Turns allowed scope (fun _ => True) styled d (manner.styled p ++ styled)
      (edits.foldl Document.apply d) := by
  have hfree (hregions : p.isWithinAny context.regions = false) : p.id ∉ styled := fun hin =>
    not_mem_regions hregions (hstyled hin)
  have hstart : Turns allowed scope (fun _ => True) styled d styled d :=
    .refl ⟨trivial, fun _ _ => trivial⟩
  cases h with
  | text id _ =>
    exact hstart.next _ (List.forall_mem_singleton.1 hfits) trivial
  | link textId urlId _ =>
    simp only [List.forall_mem_cons] at hfits
    exact (hstart.next _ hfits.1 trivial).next _ hfits.2.1 trivial
  | paragraph id hopen _ _ =>
    simp only [isOpenText, isOpen, Bool.and_eq_true, Bool.not_eq_true'] at hopen
    exact hstart.next _ (List.forall_mem_singleton.1 hfits) ⟨hscope, hfree hopen.2.1⟩
  | image id src _ _ _ =>
    simp only [List.forall_mem_cons] at hfits
    exact (hstart.next _ hfits.1 trivial).next _ hfits.2.1 trivial
  | describedImage id altId src _ _ _ =>
    simp only [List.forall_mem_cons] at hfits
    exact ((hstart.next _ hfits.1 trivial).next _ hfits.2.1 trivial).next _ hfits.2.2.1 trivial
  | background id style url _ _ hregions =>
    exact hstart.next _ (List.forall_mem_singleton.1 hfits) ⟨hscope, hfree hregions⟩

theorem Step.ids_subset (h : Step context s p manner s') : s.scope.ids ⊆ s'.scope.ids := by
  cases h with
  | pass => exact List.Subset.refl _
  | write settings edits _ _ _ hsettings =>
    intro id hid
    rw [SettingScope.ids, hsettings]
    exact SettingScope.mem_ids_pushAll.2 (Or.inl hid)

/-- A visit rewrites the document with references to the settings that are there after it. -/
theorem Step.turns (h : Step context s p manner s') (hsound : s.document.SoundIn allowed scope styled)
    (hp : s.document.place? p.id = some p) (hscope : scope p.id)
    (hstyled : p.id ∈ styled → p.id ∈ context.regions) :
    Turns (Names s'.scope.ids) scope (fun _ => True) styled s.document (manner.styled p ++ styled)
      s'.document := by
  cases h with
  | pass => exact (Turns.refl ⟨trivial, fun _ _ => trivial⟩).weaken (List.subset_append_right _ _)
  | write settings edits hwrites hnames hdocument hsettings =>
    have hnode := hsound p.tree (tree_mem_nodes (mem_places_of_place? hp)) hscope
    have hids : settings.map Setting.id ⊆ s'.scope.ids := by
      intro id hid
      rw [SettingScope.ids, hsettings]
      exact SettingScope.mem_ids_pushAll.2 (Or.inr hid)
    have hfits := hwrites.fits hnode hstyled (List.forall_mem_map.2 hnames)
    rw [hdocument]
    exact Turns.mono (hwrites.turns hfits hscope hstyled _) fun owner id h howner => hids (h howner)

/-- A sweep has come from a document by edits that refer to the settings that are there, and at most
these nodes have template syntax in their styles. -/
def Stands (scope : NodeId → Prop) (start : Document) (styled : List NodeId) (s : Sweep) : Prop :=
  Turns (Names s.scope.ids) scope (fun _ => True) [] start styled s.document

/-- A document that is sound whatever settings there are. -/
structure Clean (scope : NodeId → Prop) (d : Document) : Prop where
  distinct : d.Distinct
  sound : ∀ ids, d.SoundIn (Names ids) scope []
  new : ∀ i, d.next ≤ i → scope i

namespace Stands

theorem distinct (h : Stands scope start styled s) (hstart : Clean scope start) :
    s.document.Distinct := by
  obtain ⟨touched, hevolves⟩ := h.evolves hstart.distinct
  exact hevolves.distinct

theorem soundIn (h : Stands scope start styled s) (hstart : Clean scope start) :
    s.document.SoundIn (Names s.scope.ids) scope styled :=
  Turns.soundIn h hstart.distinct (hstart.sound _) hstart.new

theorem step (h : Stands scope start styled s) (hstart : Clean scope start)
    (hp : s.document.place? p.id = some p) (hscope : scope p.id)
    (hstyled : p.id ∈ styled → p.id ∈ context.regions) (hstep : Step context s p manner s') :
    Stands scope start (manner.styled p ++ styled) s' := by
  have hbefore := Turns.mono h fun owner id hid howner => hstep.ids_subset (hid howner)
  exact hbefore.trans (hstep.turns (h.soundIn hstart) hp hscope hstyled)
    ⟨trivial, fun _ _ => trivial⟩

end Stands

theorem Step.elements (h : Step context s p manner s') (hd : s.document.Distinct)
    (hsound : s.document.SoundIn allowed scope styled) (hp : s.document.place? p.id = some p)
    (hscope : scope p.id) (hstyled : p.id ∈ styled → p.id ∈ context.regions)
    (hnodes : s.document.Elements scope nodes) : s'.document.Elements scope nodes := by
  obtain ⟨touched, hevolves⟩ := (h.turns hsound hp hscope hstyled).evolves hd
  intro id hid
  obtain ⟨hscope, hlt, helement⟩ := hnodes id hid
  exact ⟨hscope, Nat.lt_of_lt_of_le hlt hevolves.next_le, helement.of_evolves hevolves hlt⟩

theorem elements_selected (hd : s.document.Distinct)
    (hsound : s.document.SoundIn allowed scope styled) {root : NodeId} (hroot : scope root)
    (selector : Selector) : s.document.Elements scope (s.selected root selector) := by
  intro id hid
  obtain ⟨top, htop, hid⟩ := List.mem_flatMap.1 hid
  obtain ⟨p, hp, rfl⟩ := List.mem_map.1 hid
  have htop := Option.mem_toList.1 htop
  have hmem := mem_places_of_place? htop
  obtain ⟨hbelow, hholds⟩ := List.mem_filter.1 hp
  have hp := mem_places_descend hmem hbelow
  refine ⟨?_, hd.lt_next_of_place hp, hd.isElement_of_place hp (Place.isElement_of_holds hholds)⟩
  exact hsound.scope_of_mem_ids (tree_mem_nodes hmem)
    (show scope top.id from id_of_place? htop ▸ hroot) _
    (Place.id_mem_of_mem_descend hbelow)

/-- Visits that leave styles alone, to nodes of any number. -/
theorem Stands.forEach (h : Stands scope start styled s) (hstart : Clean scope start)
    (hstyled : styled ⊆ context.regions) (hnodes : s.document.Elements scope nodes)
    {visit : Sweep → Place → Sweep} (hmanner : ∀ p, manner.styled p = [])
    (hvisit : ∀ s p, s.document.place? p.id = some p → p.isElement →
      Step context s p manner (visit s p)) :
    Stands scope start styled (s.forEach nodes visit) := by
  refine (forEach_induct (motive := fun s => Stands scope start styled s ∧
    s.document.Elements scope nodes) ⟨h, hnodes⟩ fun s p hid hp ⟨h, hnodes⟩ => ?_).1
  obtain ⟨hscope, -, helement⟩ := hnodes p.id hid
  have hstep := hvisit s p hp (helement p.tree (tree_mem_nodes (mem_places_of_place? hp)) rfl)
  have hafter := h.step hstart hp hscope (fun hin => hstyled hin) hstep
  rw [hmanner, List.nil_append] at hafter
  exact ⟨hafter, hstep.elements (h.distinct hstart) (h.soundIn hstart) hp hscope
    (fun hin => hstyled hin) hnodes⟩

/-- Visits that may each give a source to the style of the node, to different nodes. -/
theorem Stands.forEach_styled (h : Stands scope start styled s) (hstart : Clean scope start)
    (hdistinct : nodes.Nodup) (hstyled : ∀ id ∈ nodes, id ∈ styled → id ∈ context.regions)
    (hnodes : s.document.Elements scope nodes) {visit : Sweep → Place → Sweep}
    (hvisit : ∀ s p, s.document.place? p.id = some p → Step context s p .style (visit s p)) :
    ∃ styled', Stands scope start styled' (s.forEach nodes visit) := by
  induction nodes generalizing s styled with
  | nil => exact ⟨styled, h⟩
  | cons id rest ih =>
    obtain ⟨hnew, hrestDistinct⟩ := List.nodup_cons.1 hdistinct
    obtain ⟨hid, hrest⟩ := List.forall_mem_cons.1 hstyled
    obtain ⟨hscope, -⟩ := hnodes id List.mem_cons_self
    have hrestNodes : s.document.Elements scope rest := fun id hid =>
      hnodes id (List.mem_cons_of_mem _ hid)
    rw [forEach_cons]
    split
    case h_1 p hp =>
      obtain rfl := id_of_place? hp
      have hstep := hvisit s p hp
      refine ih (h.step hstart hp hscope hid hstep) hrestDistinct (fun other hother hin => ?_)
        (hstep.elements (h.distinct hstart) (h.soundIn hstart) hp hscope hid hrestNodes)
      rcases List.mem_cons.1 hin with rfl | hin
      · exact absurd hother hnew
      · exact hrest other hother hin
    case h_2 => exact ih h hrestDistinct hrest hrestNodes

theorem selected_nodup (hd : s.document.Distinct) (root : NodeId) (selector : Selector) :
    (s.selected root selector).Nodup := by
  unfold selected
  cases hp : s.document.place? root with
  | none => exact List.nodup_nil
  | some p =>
    rw [Option.toList_some, List.flatMap_singleton]
    have hids : (p.descend.map Place.id).Nodup := by
      rw [Place.map_id_descend]
      exact hd.nodup_ids (tree_mem_nodes (mem_places_of_place? hp))
    exact hids.sublist ((p.select_sublist selector).map _)

section

variable (h : Stands scope start styled s) (hstart : Clean scope start)
  (hroot : scope context.root) (hstyled : styled ⊆ context.regions)
include h hstart hroot hstyled

theorem Stands.navigation : Stands scope start styled (Sweep.navigation context s) := by
  have hcontainers : ∀ container ∈ (s.document.place? context.root).toList.flatMap fun root =>
      ((root.select navContainers).filter (!·.isWithinAny context.regions)).map (·.id),
      scope container := by
    intro container hcontainer
    obtain ⟨top, htop, hcontainer⟩ := List.mem_flatMap.1 hcontainer
    obtain ⟨p, hp, rfl⟩ := List.mem_map.1 hcontainer
    refine (elements_selected (h.distinct hstart) (h.soundIn hstart) hroot navContainers _ ?_).1
    exact List.mem_flatMap.2 ⟨top, htop, List.mem_map_of_mem (List.mem_of_mem_filter hp)⟩
  refine List.foldlRecOn _ _ h fun s h container hcontainer => ?_
  have helements {s : Sweep} (h : Stands scope start styled s) (selector : Selector) :
      s.document.Elements scope (s.selected container selector) :=
    elements_selected (h.distinct hstart) (h.soundIn hstart) (hcontainers container hcontainer) selector
  have htitles := h.forEach hstart hstyled (helements h navTitles)
    (fun _ => rfl) fun s p _ _ => step_visitNavTitle context s p
  exact htitles.forEach hstart hstyled (helements htitles _)
    (fun _ => rfl) fun s p _ _ => step_visitNavLink context s p

theorem Stands.headings : Stands scope start styled (Sweep.headings context s) :=
  h.forEach hstart hstyled (elements_selected (h.distinct hstart) (h.soundIn hstart) hroot _)
    (fun _ => rfl) fun s p _ _ => step_visitHeading context s p

theorem Stands.paragraphs : Stands scope start styled (Sweep.paragraphs context s) :=
  h.forEach hstart hstyled (elements_selected (h.distinct hstart) (h.soundIn hstart) hroot _)
    (fun _ => rfl) fun _ _ hp helement => step_visitParagraph context hp helement

theorem Stands.buttons : Stands scope start styled (Sweep.buttons context s) :=
  h.forEach hstart hstyled (elements_selected (h.distinct hstart) (h.soundIn hstart) hroot _)
    (fun _ => rfl) fun s p _ _ => step_visitButton context s p

theorem Stands.images : Stands scope start styled (Sweep.images context s) :=
  h.forEach hstart hstyled (elements_selected (h.distinct hstart) (h.soundIn hstart) hroot _)
    (fun _ => rfl) fun s p _ _ => step_visitImage context s p

theorem Stands.backgrounds : ∃ styled', Stands scope start styled' (Sweep.backgrounds context s) :=
  h.forEach_styled hstart (selected_nodup (h.distinct hstart) _ _) (fun _ _ hin => hstyled hin)
    (elements_selected (h.distinct hstart) (h.soundIn hstart) hroot _)
    fun _ _ hp => step_visitBackground context hp

variable (context) in
/-- All sweeps, one after the other. -/
theorem Stands.all : ∃ styled', Stands scope start styled'
    ([Sweep.navigation, Sweep.headings, Sweep.paragraphs, Sweep.buttons, Sweep.images,
      Sweep.backgrounds].foldl (fun s sweep => sweep context s) s) := by
  simp only [List.foldl_cons, List.foldl_nil]
  have hnavigation := h.navigation hstart hroot hstyled
  have hheadings := hnavigation.headings hstart hroot hstyled
  have hparagraphs := hheadings.paragraphs hstart hroot hstyled
  have hbuttons := hparagraphs.buttons hstart hroot hstyled
  have himages := hbuttons.images hstart hroot hstyled
  exact himages.backgrounds hstart hroot hstyled

end

end Sweep

/-- Collecting the settings of a page refers to these settings only, besides what was referred to
before. -/
theorem PageSettings.turns_extract {scope : NodeId → Prop} {start d : Document}
    (hstart : Sweep.Clean scope start) {root : NodeId} (hroot : scope root) (regions : List NodeId)
    (options : Options) (seed : List Setting)
    (hbefore : Turns (Names (seed.map Setting.id)) scope (fun _ => True) [] start regions d) :
    ∃ styled, Turns (Names ((extract root regions options seed d).2.settings.map Setting.id)) scope
      (fun _ => True) [] start styled (extract root regions options seed d).1 := by
  have h : Sweep.Stands scope start regions ⟨d, SettingScope.start.pushAll seed⟩ :=
    hbefore.mono fun owner id hid howner => SettingScope.mem_ids_pushAll.2 (Or.inr (hid howner))
  have hall := h.all ⟨root, regions, options⟩ hstart hroot (List.Subset.refl regions)
  simp only [extract]
  exact hall

end ThemeSection
