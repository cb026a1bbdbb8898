import ThemeSection.Proofs.Document.Standing
import ThemeSection.Proofs.PageSettings.Repeat

/-!
What stays in its place while the settings of a page are collected. Sweeps look upwards for regions, not
downwards, and only titles of navigation are left alone if there is an image in them. So a region or a
picture stays where it is if none of the elements around it gives up what it holds.
-/

namespace ThemeSection

open Markup Document

namespace Sweep

variable {context : Context} {p q : Place} {d d' : Document} {manner : Manner} {s start : Sweep}
  {log : List Binding}

/-- A sweep that puts a setting in the place of contents comes by the element, is meant for it and is
ready to take what it holds. -/
def GivesWay (context : Context) (p : Place) : Prop :=
  ∃ v ∈ Visit.all, v.manner.overwrites ∧ v.selector.holds p ∧ v.reaches context p ∧ v.ready context p

instance decidableGivesWay (context : Context) (p : Place) : Decidable (GivesWay context p) :=
  inferInstanceAs (Decidable (∃ v ∈ Visit.all, v.manner.overwrites ∧ v.selector.holds p ∧
    v.reaches context p ∧ v.ready context p))

theorem GivesWay.isOpenText (h : GivesWay context p) : isOpenText context p := by
  obtain ⟨v, -, hoverwrites, -, -, hready⟩ := h
  exact Visit.isOpenText_of_ready hoverwrites hready

/-- An element that is overwritten in a run was there from the start and gave way then. -/
theorem Visit.exists_givesWay (hrecalls : Recalls context d d') (hd : d.Distinct) (hq : q ∈ d'.places)
    {v : Visit} (hoverwrites : v.manner.overwrites) (hholds : v.selector.holds q)
    (hreaches : ∀ a ∈ d.places, a.id = q.id → v.reaches context a) (hready : v.ready context q) :
    ∃ a ∈ d.places, a.id = q.id ∧ GivesWay context a := by
  obtain ⟨a, ha, hid, -⟩ := hrecalls.opened q hq (isOpenText_of_ready hoverwrites hready)
  refine ⟨a, ha, hid, v, v.mem_all, hoverwrites, ?_, hreaches a ha hid,
    hrecalls.ready hd hoverwrites ha hq hid.symm hready⟩
  rw [← hrecalls.holds_eq hd ha hq hid.symm (isPlain_selector hoverwrites)]
  exact hholds

/-- Changes at one node leave every place that they do not overwrite the node around. -/
theorem Chain.stays_place (h : Chain context p manner d d') (hd : d.Distinct) (hp : p ∈ d.places)
    (hq : q ∈ d.places) (hclear : manner.overwrites → ¬ q.isWithin p.id) :
    ∃ q' ∈ d'.places, q'.id = q.id ∧ q'.above.map Level.id = q.above.map Level.id := by
  induction h with
  | refl => exact ⟨q, hq, rfl, rfl⟩
  | snoc _ hchanges ih =>
    obtain ⟨m, hm, hid, habove⟩ := ih
    obtain ⟨carry, hcarries⟩ := hchanges.carries
    obtain ⟨q', hq', htree, habove'⟩ := hcarries.place hm fun n _ hin hlost => by
      obtain ⟨-, hoverwrites, hbelow, -⟩ := hchanges.lost n hlost
      have hmem := Tree.id_mem_ids_of_mem_nodes (Tree.nodes_trans hbelow hin)
      rw [show m.tree.id = q.id from hid] at hmem
      exact hclear hoverwrites (hd.isWithin_of_mem_ids hq (tree_mem_nodes hp) hmem)
    refine ⟨q', hq', ?_, habove'.trans habove⟩
    rw [← hid, Place.id, htree, hcarries.id m.tree]
    rfl

/-- The node stands where it stood. -/
def InPlace (d : Document) (p : Place) : Prop :=
  ∃ p' ∈ d.places, p'.id = p.id ∧ p'.above.map Level.id = p.above.map Level.id

theorem isWithin_congr (hid : q.id = p.id) (habove : q.above.map Level.id = p.above.map Level.id)
    (x : NodeId) : q.isWithin x ↔ p.isWithin x := by
  rw [Place.isWithin_iff_mem_line, Place.isWithin_iff_mem_line, Place.line_eq_iff.2 ⟨hid, habove⟩]

/-- A visit leaves a node in its place if neither it nor anything around it gave way from the start. -/
theorem Visit.inPlace_run (hrecalls : Recalls context d s.document) (hd : d.Distinct) (hp : p ∈ d.places)
    (hclear : ∀ a ∈ p :: p.ancestors, ¬ GivesWay context a) (hq : s.document.place? q.id = some q)
    (helement : q.isElement) {v : Visit} (hholds : v.manner.overwrites → v.selector.holds q)
    (hreaches : ∀ a ∈ d.places, a.id = q.id → v.reaches context a) (h : InPlace s.document p) :
    InPlace (v.run context s q).document p := by
  obtain ⟨m, hm, hid, habove⟩ := h
  rw [Visit.run_eq context hq helement]
  split
  case isFalse => exact ⟨m, hm, hid, habove⟩
  case isTrue hready =>
    have hmem := mem_places_of_place? hq
    have hd' := hrecalls.toFollows.distinct
    have hchain := (Visit.writes_bound hready helement s).chain hd' hq helement
    have hclear' : v.manner.overwrites → ¬ m.isWithin q.id := by
      intro hoverwrites hwithin
      obtain ⟨a, ha, haid, hgives⟩ := Visit.exists_givesWay hrecalls hd hmem hoverwrites
        (hholds hoverwrites) hreaches hready
      rw [isWithin_congr hid habove, ← haid] at hwithin
      refine hclear a ?_ hgives
      rcases Place.isWithin_iff_ancestors.1 hwithin with hself | ⟨b, hb, hbid⟩
      · exact hd.place_eq_of_id_eq ha hp hself.symm ▸ List.mem_cons_self
      · exact hd.place_eq_of_id_eq (mem_places_ancestors hp hb) ha hbid ▸ List.mem_cons_of_mem _ hb
    obtain ⟨m', hm', hid', habove'⟩ := hchain.stays_place hd' hmem hm hclear'
    exact ⟨m', hm', hid'.trans hid, habove'.trans habove⟩

/-- What a run of visits keeps: the nodes that are still open are as they were, and so is the place of a
node that nothing around it gives way for. -/
theorem Run.inPlace (h : Run context start log s) (hd : start.document.Distinct)
    (hp : p ∈ start.document.places) (hclear : ∀ a ∈ p :: p.ancestors, ¬ GivesWay context a) :
    Recalls context start.document s.document ∧ InPlace s.document p := by
  induction h with
  | nil => exact ⟨.refl hd, p, hp, rfl, rfl⟩
  | visit v _ hq helement hholds hreaches _ ih =>
    obtain ⟨hrecalls, hplace⟩ := ih
    have hd' := hrecalls.toFollows.distinct
    exact ⟨hrecalls.trans ((v.step_run context hq helement).recalls hd' hq helement),
      Visit.inPlace_run hrecalls hd hp hclear hq helement hholds hreaches hplace⟩

/-- A region is not open. -/
theorem not_givesWay_of_region (h : p.id ∈ context.regions) : ¬ GivesWay context p := by
  intro hgives
  have hopen := hgives.isOpenText
  simp only [isOpenText, isOpen, Bool.and_eq_true, Bool.not_eq_true'] at hopen
  refine List.any_eq_false.1 hopen.2.1 p.id h ?_
  simp [Place.isWithin]

def pictures : Selector := .tags ["img"]

/-- A picture is none of the elements that give up what they hold, or a title with an image. -/
theorem not_givesWay_of_picture (h : pictures.holds p) : ¬ GivesWay context p := by
  have hapart : ∀ isHtml : Bool, ∀ a ∈ ["img"], ∀ b ∈ ["h1", "h2", "h3", "h4", "h5", "h6", "p", "a",
      "button"], Selector.localName isHtml a ≠ Selector.localName isHtml b := by decide
  have hkinds : ∀ v ∈ Visit.all, v.manner.overwrites → v = .navTitle ∨
      v.selector ⊆ .tags ["h1", "h2", "h3", "h4", "h5", "h6", "p", "a", "button"] := by decide
  rintro ⟨v, hv, hoverwrites, hholds, -, hready⟩
  rcases hkinds v hv hoverwrites with rfl | hkind
  · have hhas : p.has pictures := List.find?_isSome.2 ⟨p, Place.self_mem_descend p, h⟩
    have hnone : p.has pictures = false := by
      simpa [Visit.ready, pictures] using (Bool.and_eq_true_iff.1 hready).2
    exact absurd (hhas.symm.trans hnone) (by decide)
  · exact Selector.not_holds_tags hapart h (Selector.holds_of_subset hkind hholds)

end Sweep

namespace PageSettings

open Sweep

/-- Collecting the settings of a page leaves a region below the same nodes, with all that it holds,
unless it stands in an element that gives up what it holds for a setting. -/
theorem region_extract (root : NodeId) (options : Options) (seed : List Setting) {d : Document}
    (hd : d.Distinct) {regions : List NodeId} {r : NodeId} (hregion : r ∈ regions) {p : Place}
    (hp : d.place? r = some p)
    (hclear : ∀ a ∈ p.ancestors, ¬ GivesWay ⟨root, regions, options⟩ a) :
    ∃ p', (extract root regions options seed d).1.place? r = some p' ∧ p'.tree = p.tree ∧
      p'.above.map Level.id = p.above.map Level.id := by
  obtain rfl := Document.id_of_place? hp
  have hmem := Document.mem_places_of_place? hp
  obtain ⟨log, hrun⟩ := run_all ⟨root, regions, options⟩
    (s := ⟨d, SettingScope.start.pushAll seed⟩) hd
  obtain ⟨hrecalls, p', hp', hid, habove⟩ := hrun.inPlace hd hmem
    (List.forall_mem_cons.2 ⟨not_givesWay_of_region hregion, hclear⟩)
  have hd' := hrecalls.toFollows.distinct
  rw [document_extract]
  refine ⟨p', hid ▸ hd'.place? hp', ?_, habove⟩
  exact hd'.eq_of_id_eq (tree_mem_nodes hp') (hrecalls.regions _ (tree_mem_nodes hmem) hregion) hid

/-- A title and, below a name that is not in navigation, a part with a title of its own. -/
def titlePage : Document :=
  Document.ofMarkup "<h2>Title</h2><div class=\"brand\">Shop<div><h2>Kept</h2></div></div>"

/-- The title comes to show a setting, and the part, which is a region, is as it was. -/
theorem region_extract_titlePage :
    (extract titlePage.body.id [8] {} [] titlePage).1.bodyMarkup =
        "<h2>\x7b\x7b section.settings.heading_1 \x7d\x7d</h2>" ++
          "<div class=\"brand\">Shop<div><h2>Kept</h2></div></div>" ∧
      ∃ p p', titlePage.place? 8 = some p ∧
        (extract titlePage.body.id [8] {} [] titlePage).1.place? 8 = some p' ∧ p'.tree = p.tree ∧
          p'.above.map Level.id = p.above.map Level.id := by
  have hclear : (titlePage.place? 8).map (fun p => decide (∀ a ∈ p.ancestors,
      ¬ GivesWay ⟨titlePage.body.id, [8], {}⟩ a)) = some true := by decide +kernel
  obtain ⟨p, hp, hclear⟩ := Option.map_eq_some_iff.1 hclear
  obtain ⟨p', h⟩ := region_extract titlePage.body.id {} [] (Document.distinct_ofMarkup _)
    (List.mem_singleton.2 rfl) hp (of_decide_eq_true hclear)
  exact ⟨by decide +kernel, p, p', hp, h⟩

/-- Collecting the settings of a page leaves a picture below the same nodes, unless it stands in an
element that gives up what it holds for a setting: a heading, a paragraph, a link or a button, since a
title of navigation with an image in it does not. -/
theorem picture_extract (root : NodeId) (options : Options) (seed : List Setting) {d : Document}
    (hd : d.Distinct) {regions : List NodeId} {p : Place} (hp : p ∈ d.places)
    (himage : pictures.holds p) (hclear : ∀ a ∈ p.ancestors, ¬ GivesWay ⟨root, regions, options⟩ a) :
    ∃ p' ∈ (extract root regions options seed d).1.places, p'.id = p.id ∧ pictures.holds p' ∧
      p'.above.map Level.id = p.above.map Level.id := by
  obtain ⟨log, hrun⟩ := run_all ⟨root, regions, options⟩
    (s := ⟨d, SettingScope.start.pushAll seed⟩) hd
  obtain ⟨hrecalls, p', hp', hid, habove⟩ := hrun.inPlace hd hp
    (List.forall_mem_cons.2 ⟨not_givesWay_of_picture himage, hclear⟩)
  rw [document_extract]
  refine ⟨p', hp', hid, ?_, habove⟩
  rw [hrecalls.toFollows.holds_eq hd hp hp' hid (by decide)]
  exact himage

/-- A picture beside the words of a title goes with them. -/
example : (extract 0 [] {} [] (Document.ofMarkup "<h1>Title<img src=\"a.png\"></h1>")).1.bodyMarkup =
    "<h1>\x7b\x7b section.settings.heading_1 \x7d\x7d</h1>" := by
  decide +kernel

/-- A title and a picture apart from it. -/
def picturePage : Document :=
  Document.ofMarkup "<h2>Title</h2><div><img src=\"a.png\"></div>"

/-- The title comes to show a setting, and the picture is still on the page. -/
theorem picture_extract_picturePage :
    (extract picturePage.body.id [] {} [] picturePage).2.settings.length = 4 ∧
      ∃ p ∈ picturePage.places, pictures.holds p ∧
        ∃ p' ∈ (extract picturePage.body.id [] {} [] picturePage).1.places, p'.id = p.id ∧
          pictures.holds p' ∧ p'.above.map Level.id = p.above.map Level.id := by
  have hpage : ∃ p ∈ picturePage.places, pictures.holds p ∧
      ∀ a ∈ p.ancestors, ¬ GivesWay ⟨picturePage.body.id, [], {}⟩ a := by
    decide +kernel
  obtain ⟨p, hp, himage, hclear⟩ := hpage
  exact ⟨by decide +kernel, p, hp, himage, picture_extract picturePage.body.id {} []
    (Document.distinct_ofMarkup _) hp himage hclear⟩

end PageSettings

end ThemeSection
