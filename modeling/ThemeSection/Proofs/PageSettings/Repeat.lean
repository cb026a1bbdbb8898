import ThemeSection.Proofs.Markup.Places
import ThemeSection.Proofs.PageSettings.Allocation
import ThemeSection.Proofs.PageSettings.Settled
import ThemeSection.Proofs.Style.Replaced

/-!
Why collecting the settings of a page a second time finds nothing. What a sweep collects from contents
it does not collect again. Images and styles are visited last: these visits change attributes only, each
node stays below the same ones, and the attributes that a visit reads are changed by the visit of that
node alone, after which they show a setting.
-/

namespace ThemeSection

open Markup Liquid Document

namespace Sweep

variable {context : Context} {p q : Place} {d d' d'' : Document} {manner : Manner} {s s' : Sweep}
  {top x : NodeId} {nodes nodes' : List NodeId} {names : List String} {ids : List String}
  {edits : List Edit}

/-- Only attributes of these names have changed, at these nodes. -/
structure Rests (nodes : List NodeId) (names : List String) (d d' : Document) : Prop where
  evolves : ∃ touched, d.Evolves touched d' ∧ ∀ a ∈ touched, a.1 ∈ nodes ∧ a.2 ∈ names
  next : d'.next = d.next
  above : ∀ p ∈ d.places, ∀ q ∈ d'.places, q.id = p.id → q.above.map Level.id = p.above.map Level.id
  kind : ∀ p ∈ d.places, ∀ q ∈ d'.places, q.id = p.id → p.id ∉ nodes → q.tree.kind = p.tree.kind

namespace Rests

theorem refl (hd : d.Distinct) : Rests nodes names d d where
  evolves := ⟨[], .refl hd, List.forall_mem_nil _⟩
  next := rfl
  above := fun p hp q hq hid => by rw [hd.place_eq_of_id_eq hq hp hid]
  kind := fun p hp q hq hid _ => by rw [hd.place_eq_of_id_eq hq hp hid]

variable (h : Rests nodes names d d')
include h

theorem distinct : d'.Distinct := by
  obtain ⟨touched, hevolves, -⟩ := h.evolves
  exact hevolves.distinct

theorem mono (hsub : nodes ⊆ nodes') : Rests nodes' names d d' where
  evolves := by
    obtain ⟨touched, hevolves, htouched⟩ := h.evolves
    exact ⟨touched, hevolves, fun a ha => ⟨hsub (htouched a ha).1, (htouched a ha).2⟩⟩
  next := h.next
  above := h.above
  kind := fun p hp q hq hid hout => h.kind p hp q hq hid fun hin => hout (hsub hin)

/-- No node is new. -/
theorem exists_place (hq : q ∈ d'.places) : ∃ p ∈ d.places, p.id = q.id := by
  obtain ⟨touched, hevolves, -⟩ := h.evolves
  obtain ⟨n, hn, hbecomes⟩ :=
    (hevolves.source q.tree (tree_mem_nodes hq)).old (h.next ▸ hevolves.distinct.lt_next_of_place hq)
  rw [← map_tree_places] at hn
  obtain ⟨p, hp, rfl⟩ := List.mem_map.1 hn
  exact ⟨p, hp, hbecomes.id.symm⟩

theorem trans (h' : Rests nodes names d' d'') : Rests nodes names d d'' where
  evolves := by
    obtain ⟨touched, hevolves, htouched⟩ := h.evolves
    obtain ⟨touched', hevolves', htouched'⟩ := h'.evolves
    exact ⟨_, hevolves.trans hevolves', List.forall_mem_append.2 ⟨htouched, htouched'⟩⟩
  next := h'.next.trans h.next
  above := by
    intro p hp q hq hid
    obtain ⟨m, hm, hmid⟩ := h'.exists_place hq
    exact (h'.above m hm q hq hmid.symm).trans (h.above p hp m hm (hmid.trans hid))
  kind := by
    intro p hp q hq hid hout
    obtain ⟨m, hm, hmid⟩ := h'.exists_place hq
    have hsame := hmid.trans hid
    exact (h'.kind m hm q hq hmid.symm (hsame ▸ hout)).trans (h.kind p hp m hm hsame hout)

theorem isUnder_of (hunder : d'.IsUnder top x) : d.IsUnder top x := by
  obtain ⟨touched, hevolves, -⟩ := h.evolves
  obtain ⟨t, ht, hid, hin⟩ := hunder
  exact isUnder_of_evolves hevolves
    (h.next ▸ hevolves.distinct.fresh _ (ids_subset_of_mem_nodes ht hin)) ⟨t, ht, hid, hin⟩

variable (hd : d.Distinct)
include hd

theorem areElements {others : List NodeId} (hothers : AreElements d others) :
    AreElements d' others := by
  intro id hid
  obtain ⟨p, hp, rfl, helement⟩ := hothers id hid
  obtain ⟨touched, hevolves, -⟩ := h.evolves
  obtain ⟨n', hn', hbecomes⟩ := hevolves.exists_becomes hd (tree_mem_nodes hp)
  rw [← map_tree_places] at hn'
  obtain ⟨q, hq, rfl⟩ := List.mem_map.1 hn'
  exact ⟨q, hq, hbecomes.id, hbecomes.isElement.trans helement⟩

variable (hp : p ∈ d.places) (hq : q ∈ d'.places) (hid : q.id = p.id)
include hp hq hid

theorem becomes : ∃ touched, p.tree.Becomes d.next touched q.tree ∧
    ∀ a ∈ touched, a.1 ∈ nodes ∧ a.2 ∈ names := by
  obtain ⟨touched, hevolves, htouched⟩ := h.evolves
  obtain ⟨n, hn, hbecomes⟩ := hevolves.exists_becomes hd (tree_mem_nodes hp)
  obtain rfl := hevolves.distinct.eq_of_id_eq hn (tree_mem_nodes hq) (hbecomes.id.trans hid.symm)
  exact ⟨touched, hbecomes, htouched⟩

theorem attribute?_eq {name : String} (hout : p.id ∈ nodes → name ∉ names) :
    q.tree.attribute? name = p.tree.attribute? name := by
  obtain ⟨touched, hbecomes, htouched⟩ := h.becomes hd hp hq hid
  exact hbecomes.value name fun hin => hout (htouched _ hin).1 (htouched _ hin).2

omit hd in
theorem isWithinAny_eq (regions : List NodeId) : q.isWithinAny regions = p.isWithinAny regions := by
  have hwithin (r : Place) (region : NodeId) : r.isWithin region =
      (r.id == region || (r.above.map Level.id).any (· == region)) := by
    rw [List.any_map]
    rfl
  rw [Place.isWithinAny, Place.isWithinAny]
  congr 1
  funext region
  rw [hwithin, hwithin, hid, h.above p hp q hq hid]

/-- What is asked of the classes of the nodes above has the same answer. -/
theorem any_ancestors_eq (hclass : "class" ∉ names) (ask : Tree → Bool)
    (hask : ∀ t t', t'.attribute? "class" = t.attribute? "class" → ask t' = ask t) :
    q.ancestors.any (ask ·.tree) = p.ancestors.any (ask ·.tree) := by
  have hids : q.ancestors.map Place.id = p.ancestors.map Place.id := by
    rw [q.map_id_ancestors, p.map_id_ancestors, h.above p hp q hq hid]
  have hsame : ∀ a ∈ p.ancestors, ∀ b ∈ q.ancestors, b.id = a.id → ask b.tree = ask a.tree :=
    fun a ha b hb hid => hask _ _ (h.attribute?_eq hd (mem_places_ancestors hp ha)
      (mem_places_ancestors hq hb) hid fun _ => hclass)
  rw [Bool.eq_iff_iff, List.any_eq_true, List.any_eq_true]
  constructor
  · rintro ⟨b, hb, hholds⟩
    obtain ⟨a, ha, haid⟩ := List.mem_map.1 (hids ▸ List.mem_map_of_mem hb)
    exact ⟨a, ha, hsame a ha b hb haid.symm ▸ hholds⟩
  · rintro ⟨a, ha, hholds⟩
    obtain ⟨b, hb, hbid⟩ := List.mem_map.1 (hids.symm ▸ List.mem_map_of_mem ha)
    exact ⟨b, hb, (hsame a ha b hb hbid).trans hholds⟩

end Rests

/-- The attributes of a node that a visit reads and that change, but for visits that give up contents. -/
def Visit.reads : Visit → List String
  | .image => ["src", "alt"]
  | .background => ["style"]
  | _ => []

section

variable {v : Visit} (hmanner : v.manner.overwrites = false)
include hmanner

/-- A visit is ready for a node as before, if the attributes that it reads have not changed. -/
theorem Rests.ready_eq (h : Rests nodes names d d') (hd : d.Distinct) (hp : p ∈ d.places)
    (hq : q ∈ d'.places) (hid : q.id = p.id) (hclass : "class" ∉ names)
    (hreads : p.id ∈ nodes → ∀ name ∈ v.reads, name ∉ names) :
    v.ready context q = v.ready context p := by
  have hvalue : ∀ name ∈ v.reads, q.tree.attribute? name = p.tree.attribute? name := fun name hname =>
    h.attribute?_eq hd hp hq hid fun hin => hreads hin name hname
  have hregions := h.isWithinAny_eq hp hq hid context.regions
  have hclasses : ∀ t t' : Tree, t'.attribute? "class" = t.attribute? "class" →
      t'.classNames = t.classNames := fun t t' hsame => by rw [Tree.classNames, Tree.classNames, hsame]
  cases v with
  | image =>
    have hsrc := hvalue "src" (by decide)
    have halt := hvalue "alt" (by decide)
    have hown := hclasses _ _ (h.attribute?_eq hd hp hq hid fun _ => hclass)
    have habove := h.any_ancestors_eq hd hp hq hid hclass
      (fun t => t.classContains "logo" || t.classContains "brand") fun t t' hsame => by
        rw [Tree.classContains, Tree.classContains, Tree.classContains, Tree.classContains,
          hclasses t t' hsame]
    have hlogo : isLogo q = isLogo p := by
      have hnamed : q.tree.classContains "logo" = p.tree.classContains "logo" := by
        rw [Tree.classContains, Tree.classContains, hown]
      rw [isLogo, isLogo, habove, hnamed]
      simp only [hsrc, halt]
    rw [Visit.ready, Visit.ready, hsrc, hregions, hlogo]
  | background =>
    rw [Visit.ready, Visit.ready, Visit.backgroundUrl?, Visit.backgroundUrl?,
      hvalue "style" (by decide), hregions]
  | _ => cases hmanner

/-- The selector of the visit holds of a node as before, if the node has not changed itself. -/
theorem Visit.holds_eq (h : q.tree.kind = p.tree.kind) : v.selector.holds q = v.selector.holds p := by
  have helement : q.tree.element? = p.tree.element? := by rw [Tree.element?, Tree.element?, h]
  have hmeets (test : Selector.Simple) (hpasses : ∀ name attributes,
      test.passes name attributes q = test.passes name attributes p) :
      (Selector.of [test]).holds q = (Selector.of [test]).holds p := by
    have hholds (r : Place) : (Selector.of [test]).holds r = (Selector.meets [test] r && true || false) :=
      rfl
    rw [hholds, hholds, Selector.meets, Selector.meets, helement]
    cases p.tree.element? with
    | none => rfl
    | some element => exact congrArg (· && true && true || false) (hpasses element.1 element.2)
  cases v with
  | image => exact hmeets (.tag "img") fun _ _ => rfl
  | background => exact hmeets (.value "style" .contains "background") fun _ _ => rfl
  | _ => cases hmanner

end

/-- A visit that changes attributes leaves every node below the same ones, and all others as they
are. -/
theorem Chain.place (h : Chain context p manner d d') (hmanner : manner.overwrites = false)
    (hq : q ∈ d.places) : ∃ q' ∈ d'.places, q'.id = q.id ∧
      q'.above.map Level.id = q.above.map Level.id ∧ (q.id ≠ p.id → q'.tree.kind = q.tree.kind) := by
  induction h with
  | refl => exact ⟨q, hq, rfl, rfl, fun _ => rfl⟩
  | snoc _ hchanges ih =>
    obtain ⟨m, hm, hid, habove, hkind⟩ := ih
    obtain ⟨carry, hcarries⟩ := hchanges.carries
    obtain ⟨q', hq', htree, habove'⟩ := hcarries.place hm fun n _ _ hlost => by
      obtain ⟨-, hoverwrites, -⟩ := hchanges.lost n hlost
      rw [hmanner] at hoverwrites
      cases hoverwrites
    refine ⟨q', hq', ?_, habove'.trans habove, fun hne => ?_⟩
    · rw [← hid, Place.id, htree, hcarries.id m.tree]
      rfl
    · rw [htree, hcarries.kind m.tree (show m.id ≠ p.id from hid ▸ hne), hkind hne]

theorem Writes.next_eq (h : Writes context p manner ids edits) (hmanner : manner.overwrites = false)
    (d : Document) : (edits.foldl Document.apply d).next = d.next := by
  cases h with
  | text | link | paragraph => cases hmanner
  | image | describedImage => rfl
  | background =>
    rw [List.foldl_cons, List.foldl_nil, Document.apply]
    split
    · rfl
    · rfl

theorem Step.rests (h : Step context s p manner s') (hmanner : manner.overwrites = false)
    (hd : s.document.Distinct) (hp : s.document.place? p.id = some p) (helement : p.isElement) :
    Rests [p.id] manner.attributes s.document s'.document := by
  cases h with
  | pass => exact .refl hd
  | write settings edits hwrites _ hdocument _ =>
    have hchain := hwrites.chain hd hp helement
    rw [hdocument]
    obtain ⟨touched, hevolves, htouched⟩ := hchain.evolves hd
    have hsame : ∀ {q r q' : Place}, r ∈ (edits.foldl Document.apply s.document).places →
        q' ∈ (edits.foldl Document.apply s.document).places → r.id = q.id → q'.id = q.id → r = q' :=
      fun hr hq' hid hid' => hevolves.distinct.place_eq_of_id_eq hr hq' (hid.trans hid'.symm)
    constructor
    case evolves =>
      exact ⟨touched, hevolves, fun a ha =>
        ⟨List.mem_singleton.2 (htouched a ha).1, (htouched a ha).2⟩⟩
    case next => exact hwrites.next_eq hmanner s.document
    case above =>
      intro q hq r hr hid
      obtain ⟨q', hq', hid', habove, -⟩ := hchain.place hmanner hq
      rw [hsame hr hq' hid hid', habove]
    case kind =>
      intro q hq r hr hid hout
      obtain ⟨q', hq', hid', -, hkind⟩ := hchain.place hmanner hq
      rw [hsame hr hq' hid hid', hkind fun heq => hout (List.mem_singleton.2 heq)]

section

variable {v : Visit} (hmanner : v.manner.overwrites = false)
include hmanner

/-- Going over elements to change attributes changes them at these elements only. -/
theorem rests_forEach (context : Context) (hd : s.document.Distinct)
    (hnodes : AreElements s.document nodes) :
    Rests nodes v.manner.attributes s.document (s.forEach nodes (v.run context)).document := by
  refine forEach_induct
    (motive := fun s' => Rests nodes v.manner.attributes s.document s'.document) (.refl hd) ?_
  intro s' p hin hp h
  obtain ⟨q, hq, hqid, helement⟩ := h.areElements hd hnodes p.id hin
  obtain rfl := h.distinct.place_eq_of_id_eq hq (mem_places_of_place? hp) hqid
  exact h.trans (((v.step_run context hp helement).rests hmanner h.distinct hp helement).mono
    (List.forall_mem_singleton.2 hin))

end

/-- All nodes with an id have the value for an attribute. -/
def Gives (d : Document) (x : NodeId) (name value : String) : Prop :=
  ∀ n ∈ d.nodes, n.id = x → n.attribute? name = some value

theorem gives_setAttribute (hd : d.Distinct) (hp : d.place? p.id = some p) (helement : p.isElement)
    (name value : String) : Gives (d.setAttribute p.id name value) p.id name value := by
  intro n hn hid
  obtain ⟨m, hm, hmid, -, hhas, -⟩ :=
    hasAt_setAttribute hd (tree_mem_nodes (mem_places_of_place? hp)) helement name value
  obtain rfl := (evolves_setAttribute hd p.id name value).distinct.eq_of_id_eq hn hm (hid.trans hmid.symm)
  exact hhas

theorem Gives.evolves {name value : String} {touched : List (NodeId × String)} (h : Gives d x name value)
    (hevolves : d.Evolves touched d') (hx : x < d.next) (hout : (x, name) ∉ touched) :
    Gives d' x name value := by
  rintro n hn rfl
  obtain ⟨m, hm, hbecomes⟩ := (hevolves.source n hn).old hx
  rw [hbecomes.value name (hbecomes.id ▸ hout)]
  exact h m hm hbecomes.id.symm

/-- A visited image has a source that depends on a setting. -/
theorem Writes.gives_source (h : Writes context p .image ids edits) (hd : d.Distinct)
    (hp : d.place? p.id = some p) (helement : p.isElement) : ∃ source, hasMarks source ∧
      Gives (edits.foldl Document.apply d) p.id "src" source := by
  have hsource (source : String) :
      Gives ((d.setAttribute p.id "src" source).removeAttribute p.id "srcset") p.id "src" source := by
    refine (gives_setAttribute hd hp helement "src" source).evolves
      (evolves_removeAttribute (evolves_setAttribute hd _ _ _).distinct p.id "srcset")
      (hd.lt_next_of_place (mem_places_of_place? hp)) (by simp)
  cases h with
  | image id src => exact ⟨_, hasMarks_imageSource .whole id (Text.trim src) imageWidth, hsource _⟩
  | describedImage id altId src =>
    refine ⟨_, hasMarks_imageSource .whole id (Text.trim src) imageWidth, (hsource _).evolves
      (evolves_setAttribute (evolves_removeAttribute (evolves_setAttribute hd _ _ _).distinct
        p.id "srcset").distinct p.id "alt" _) (hd.lt_next_of_place (mem_places_of_place? hp)) (by simp)⟩

section

variable {v : Visit} (hmanner : v.manner.overwrites = false)
include hmanner

/-- A visit is not ready again for the node whose attributes it has changed. -/
theorem Visit.not_ready_shown (hd : s.document.Distinct) (hp : s.document.place? p.id = some p)
    (helement : p.isElement) (hready : v.ready context p)
    (hq : q ∈ (v.run context s p).document.places) (hid : q.id = p.id) :
    v.ready context q = false := by
  rw [run_eq context hp helement, if_pos hready] at hq
  cases v with
  | image =>
    obtain ⟨source, hmarks, hgives⟩ := (writes_bound hready helement s).gives_source hd hp helement
    have hsrc := hgives q.tree (tree_mem_nodes hq) hid
    simp [ready, hsrc, hmarks]
  | background =>
    simp only [ready, Bool.and_eq_true] at hready
    obtain ⟨url, hurl⟩ := Option.isSome_iff_exists.1 hready.1
    have hfound := (Option.filter_eq_some_iff.1 hurl).1
    cases hstyle : p.tree.attribute? "style" with
    | none =>
      rw [hstyle] at hfound
      cases hfound
    | some style =>
      rw [hstyle, Option.getD_some] at hfound
      have hmade : (made s p background).document = s.document.setAttribute p.id "style"
          (Style.replaceBackgroundUrl style
            (imageSource .whole (s.backgroundId p).1 url backgroundWidth)) := by
        rw [made, bound, hurl]
        simp only [List.flatMap_cons, List.flatMap_nil, List.append_nil, List.foldl_cons,
          List.foldl_nil, Document.apply, hp, Option.bind_some, hstyle, Option.getD_some]
      rw [hmade] at hq
      have hstyle' := gives_setAttribute hd hp helement _ _ q.tree (tree_mem_nodes hq) hid
      have hnone : backgroundUrl? q = none := by
        rw [backgroundUrl?, hstyle', Option.getD_some, Option.filter_eq_none_iff]
        intro url' hurl'
        rw [Style.hasMarks_backgroundUrl?_replace (backgroundId_cases s p).1 hfound hurl']
        decide
      rw [ready, hnone]
      rfl
  | _ => cases hmanner

/-- Going over elements leaves none of them ready. -/
theorem not_ready_forEach_attributes (hd : s.document.Distinct) (hnodes : AreElements s.document nodes)
    (hq : q ∈ (s.forEach nodes (v.run context)).document.places) (hin : q.id ∈ nodes) :
    v.ready context q = false := by
  induction nodes generalizing s with
  | nil => cases hin
  | cons id rest ih =>
    obtain ⟨p, hmem, rfl, helement⟩ := hnodes id List.mem_cons_self
    have hp := hd.place? hmem
    have hnext := (v.step_run context hp helement).rests hmanner hd hp helement
    have hd' := hnext.distinct
    have hnodes' : AreElements (v.run context s p).document rest :=
      hnext.areElements hd fun id hid => hnodes id (List.mem_cons_of_mem _ hid)
    rw [forEach_cons, hp] at hq
    dsimp only at hq
    by_cases hrest : q.id ∈ rest
    · exact ih hd' hnodes' hq hrest
    · have hid : q.id = p.id := (List.mem_cons.1 hin).resolve_right hrest
      have hlater := rests_forEach hmanner context hd' hnodes'
      obtain ⟨m, hm, hmid⟩ := hlater.exists_place hq
      have hclass : "class" ∉ v.manner.attributes := by cases v <;> decide
      rw [hlater.ready_eq hmanner hd' hm hq hmid.symm hclass fun hin => absurd (hmid ▸ hin) hrest]
      cases hready : v.ready context p with
      | true => exact Visit.not_ready_shown hmanner hd hp helement hready hm (hmid.trans hid)
      | false =>
        rw [v.run_eq context hp helement, hready] at hm
        obtain rfl := hd.place_eq_of_id_eq hm hmem (hmid.trans hid)
        exact hready

/-- A sweep over attributes settles all that it goes over. -/
theorem settled_forEach_attributes (hd : s.document.Distinct) (top : NodeId) :
    Settled context v top (s.forEach (s.selected top v.selector) (v.run context)).document := by
  intro q hq hunder hholds
  have hnodes : AreElements s.document (s.selected top v.selector) := areElements_selected _ _
  by_cases hin : q.id ∈ s.selected top v.selector
  case pos => exact not_ready_forEach_attributes hmanner hd hnodes hq hin
  case neg =>
    have hrests := rests_forEach hmanner context hd hnodes
    obtain ⟨p, hp, hid⟩ := hrests.exists_place hq
    have hkind := hrests.kind p hp q hq hid.symm (hid ▸ hin)
    rw [Visit.holds_eq hmanner hkind] at hholds
    exact absurd (hid ▸ mem_selected_of_isUnder hd hp (hrests.isUnder_of (hid ▸ hunder)) hholds) hin

end

/-- Images are settled for good: no other sweep changes what is read of them. -/
theorem Settled.rests (h : Settled context .image top d) (hd : d.Distinct)
    (hrests : Rests nodes Manner.style.attributes d d') : Settled context .image top d' := by
  intro q hq hunder hholds
  obtain ⟨p, hp, hid⟩ := hrests.exists_place hq
  obtain ⟨touched, hbecomes, htouched⟩ := hrests.becomes hd hp hq hid.symm
  have hclass : q.tree.attribute? "class" = p.tree.attribute? "class" :=
    hrests.attribute?_eq hd hp hq hid.symm fun _ => by decide
  have hplain : Visit.image.selector.isPlain := by decide
  rw [Selector.holds_congr hplain hbecomes.name hclass] at hholds
  rw [hrests.ready_eq rfl hd hp hq hid.symm (by decide) fun _ => by decide]
  exact h p hp (hrests.isUnder_of (hid ▸ hunder)) hholds

def sweepAll (context : Context) (s : Sweep) : Sweep :=
  [navigation, headings, paragraphs, buttons, images, backgrounds].foldl
    (fun s sweep => sweep context s) s

/-- The visits of the titles and links of one container of navigation. -/
def visitContainer (context : Context) (s : Sweep) (c : NodeId) : Sweep :=
  let s := s.forEach (s.selected c Visit.navTitle.selector) (Visit.navTitle.run context)
  s.forEach (s.selected c Visit.navLink.selector) (Visit.navLink.run context)

theorem navigation_eq {root : Place} (hroot : s.document.place? context.root = some root) :
    navigation context s = ((containers context root).map (·.id)).foldl (visitContainer context) s := by
  rw [navigation, hroot, Option.toList_some, List.flatMap_singleton]
  rfl

/-- Nothing on the page is ready for a visit. -/
structure Spent (context : Context) (root : Place) (d : Document) : Prop where
  containers : ∀ c ∈ containers context root,
    Settled context .navTitle c.id d ∧ Settled context .navLink c.id d
  root : ∀ v, v ≠ .navTitle → v ≠ .navLink → Settled context v context.root d

/-- Where nothing is ready, going over elements changes nothing. -/
theorem Settled.forEach_eq {v : Visit} (h : Settled context v top s.document)
    (hd : s.document.Distinct) :
    s.forEach (s.selected top v.selector) (v.run context) = s := by
  refine forEach_induct (motive := (· = s)) rfl ?_
  rintro _ p hin hp rfl
  obtain ⟨q, hq, hid, hholds⟩ := mem_selected hin
  obtain rfl := hd.place_eq_of_id_eq hq (mem_places_of_place? hp) hid
  rw [v.run_eq context hp (Place.isElement_of_holds hholds), h q hq (isUnder_selected hin) hholds]
  rfl

theorem Spent.sweeps_eq {root : Place} (h : Spent context root s.document) (hd : s.document.Distinct)
    (hroot : s.document.place? context.root = some root) : sweepAll context s = s := by
  have hnavigation : navigation context s = s := by
    rw [navigation_eq hroot]
    refine List.foldlRecOn (motive := (· = s)) _ _ rfl fun s' hs id hid => ?_
    obtain ⟨c, hc, rfl⟩ := List.mem_map.1 hid
    obtain ⟨htitles, hlinks⟩ := h.containers c hc
    rw [hs, visitContainer, htitles.forEach_eq hd, hlinks.forEach_eq hd]
  have heach {v : Visit} (hv : v ≠ .navTitle) (hv' : v ≠ .navLink) :
      s.forEach (s.selected context.root v.selector) (v.run context) = s :=
    (h.root v hv hv').forEach_eq hd
  have hheadings : headings context s = s := heach (v := .heading) (by decide) (by decide)
  have hparagraphs : paragraphs context s = s := heach (v := .paragraph) (by decide) (by decide)
  have hbuttons : buttons context s = s := heach (v := .button) (by decide) (by decide)
  have himages : images context s = s := heach (v := .image) (by decide) (by decide)
  have hbackgrounds : backgrounds context s = s := heach (v := .background) (by decide) (by decide)
  simp only [sweepAll, List.foldl_cons, List.foldl_nil, hnavigation, hheadings, hparagraphs, hbuttons,
    himages, hbackgrounds]

/-- A sweep settles what it goes over. -/
theorem settles_forEach (v : Visit) (hd : s.document.Distinct)
    (hroot : v.manner = .renewal → ∀ p ∈ s.document.places, p.id = top → v.selector.holds p = false) :
    Recalls context s.document (s.forEach (s.selected top v.selector) (v.run context)).document ∧
      Settled context v top (s.forEach (s.selected top v.selector) (v.run context)).document := by
  have hnodes : AreElements s.document (s.selected top v.selector) := areElements_selected _ _
  refine ⟨recalls_forEach context v hd hnodes, ?_⟩
  cases hmanner : v.manner.overwrites with
  | true => exact settled_forEach hmanner hd hroot
  | false => exact settled_forEach_attributes hmanner hd top

theorem settles_visitContainer (hd : s.document.Distinct) :
    Recalls context s.document (visitContainer context s top).document ∧
      Settled context .navTitle top (visitContainer context s top).document ∧
        Settled context .navLink top (visitContainer context s top).document := by
  rw [visitContainer]
  obtain ⟨htitles, hsettled₁⟩ : Recalls context _ _ ∧ _ :=
    settles_forEach .navTitle hd fun h => by cases h
  obtain ⟨hlinks, hsettled₂⟩ : Recalls context _ _ ∧ _ :=
    settles_forEach .navLink htitles.distinct fun h => by cases h
  exact ⟨htitles.trans hlinks, hsettled₁.recalls htitles.distinct rfl hlinks, hsettled₂⟩

/-- The sweep over navigation settles all containers. -/
theorem settles_foldl {containers : List NodeId} (hd : s.document.Distinct) :
    Recalls context s.document (containers.foldl (visitContainer context) s).document ∧
      ∀ c ∈ containers,
        Settled context .navTitle c (containers.foldl (visitContainer context) s).document ∧
          Settled context .navLink c (containers.foldl (visitContainer context) s).document := by
  induction containers generalizing s with
  | nil => exact ⟨.refl hd, List.forall_mem_nil _⟩
  | cons c rest ih =>
    obtain ⟨hfirst, htitles, hlinks⟩ : Recalls context _ _ ∧ _ := settles_visitContainer hd
    have hd' := hfirst.distinct
    obtain ⟨hrest, hsettled⟩ := ih hd'
    exact ⟨hfirst.trans hrest, List.forall_mem_cons.2
      ⟨⟨htitles.recalls hd' rfl hrest, hlinks.recalls hd' rfl hrest⟩, hsettled⟩⟩

section

variable {root root' : Place} (hd : d.Distinct) (hroot : d.place? context.root = some root)
include hd hroot

/-- Containers that were there before are containers; in others there is nothing left to visit. -/
theorem Settled.containers {v : Visit} (hoverwrites : v.manner.overwrites) (h : Recalls context d d')
    (hroot' : d'.place? context.root = some root')
    (hsettled : ∀ c ∈ containers context root, Settled context v c.id d') :
    ∀ c ∈ containers context root', Settled context v c.id d' := by
  intro c' hc'
  obtain ⟨touched, hevolves, -⟩ := h.evolves
  obtain ⟨hselected, hregions⟩ := List.mem_filter.1 hc'
  obtain ⟨hbelow, hholds⟩ := List.mem_filter.1 hselected
  have hmem' := mem_places_descend (mem_places_of_place? hroot') hbelow
  have hmem := mem_places_of_place? hroot
  by_cases hold : c'.id < d.next
  case pos =>
    obtain ⟨n, hn, hbecomes⟩ := (hevolves.source c'.tree (tree_mem_nodes hmem')).old hold
    rw [← map_tree_places] at hn
    obtain ⟨c, hc, rfl⟩ := List.mem_map.1 hn
    have hid : c'.id = c.id := hbecomes.id
    have hunder : d.IsUnder context.root c.id := by
      exact isUnder_of_evolves hevolves (hd.lt_next_of_place hc) ⟨root'.tree,
        tree_mem_nodes (mem_places_of_place? hroot'), id_of_place? hroot',
        hid ▸ Place.id_mem_of_mem_descend hbelow⟩
    rw [hid]
    refine hsettled c (List.mem_filter.2 ⟨List.mem_filter.2 ⟨?_, ?_⟩, ?_⟩)
    · obtain ⟨t, ht, htid, hin⟩ := hunder
      obtain rfl := hd.eq_of_id_eq ht (tree_mem_nodes hmem) (htid.trans (id_of_place? hroot).symm)
      exact mem_descend_of_id_mem hd hmem hc hin
    · rw [← h.holds_eq hd hc hmem' hid (by decide)]
      exact hholds
    · -- A region around it is still there.
      refine Bool.not_eq_true' _ ▸ List.any_eq_false.2 fun region hregion hwithin => ?_
      obtain ⟨n, hn, rfl, hin⟩ := hd.exists_of_isWithin hc hwithin
      have hwithin' := hevolves.distinct.isWithin_of_mem_ids hmem' (h.regions n hn hregion) (hid ▸ hin)
      rw [Bool.not_eq_true'] at hregions
      exact List.any_eq_false.1 hregions n.id hregion hwithin'
  case neg =>
    rintro q hq ⟨t, ht, htid, hin⟩ -
    by_contra hready
    rw [Bool.not_eq_false] at hready
    obtain ⟨p, hp, hid, -⟩ := h.opened q hq (Visit.isOpenText_of_ready hoverwrites hready)
    have hnew := (hevolves.source t ht).new (htid ▸ Nat.not_lt.1 hold) q.id hin
    exact absurd (hid ▸ hd.lt_next_of_place hp) (Nat.not_lt.2 hnew)

end

theorem settles_navigation {root : Place} (hd : s.document.Distinct)
    (hroot : s.document.place? context.root = some root) :
    Recalls context s.document (navigation context s).document ∧ ∀ c ∈ containers context root,
        Settled context .navTitle c.id (navigation context s).document ∧
          Settled context .navLink c.id (navigation context s).document := by
  rw [navigation_eq hroot]
  obtain ⟨hrecalls, hsettled⟩ : Recalls context _ _ ∧ _ := settles_foldl hd
  exact ⟨hrecalls, fun c hc => hsettled c.id (List.mem_map_of_mem hc)⟩

/-- After all sweeps nothing on the page is ready for a visit. -/
theorem spent_sweeps (context : Context) {root root' : Place} (hd : s.document.Distinct)
    (hroot : s.document.place? context.root = some root)
    (hwhole : (Selector.tags ["p"]).holds root = false)
    (hroot' : (sweepAll context s).document.place? context.root = some root') :
    Spent context root' (sweepAll context s).document := by
  have hmem := mem_places_of_place? hroot
  have hid := id_of_place? hroot
  simp only [sweepAll, List.foldl_cons, List.foldl_nil] at hroot' ⊢
  obtain ⟨hr₁, hcontainers⟩ : Recalls context _ (navigation context s).document ∧ _ :=
    settles_navigation hd hroot
  obtain ⟨hr₂, hheadings⟩ : Recalls context _ (headings context _).document ∧
      Settled context .heading context.root (headings context _).document :=
    settles_forEach .heading hr₁.distinct fun h => by cases h
  obtain ⟨hr₃, hparagraphs⟩ : Recalls context _ (paragraphs context _).document ∧
      Settled context .paragraph context.root (paragraphs context _).document := by
    refine settles_forEach .paragraph hr₂.distinct fun _ p hp hpid => ?_
    exact ((hr₁.trans hr₂).holds_eq hd hmem hp (hpid.trans hid.symm) (by decide)).trans hwhole
  obtain ⟨hr₄, hbuttons⟩ : Recalls context _ (buttons context _).document ∧
      Settled context .button context.root (buttons context _).document :=
    settles_forEach .button hr₃.distinct fun h => by cases h
  obtain ⟨hr₅, himages⟩ : Recalls context _ (images context _).document ∧
      Settled context .image context.root (images context _).document :=
    settles_forEach .image hr₄.distinct fun h => by cases h
  obtain ⟨hr₆, hbackgrounds⟩ : Recalls context _ (backgrounds context _).document ∧
      Settled context .background context.root (backgrounds context _).document :=
    settles_forEach .background hr₅.distinct fun h => by cases h
  have hstyles : Rests _ Manner.style.attributes _ (backgrounds context _).document :=
    rests_forEach (v := .background) rfl context hr₅.distinct (areElements_selected _ _)
  have hr₅₆ := hr₅.trans hr₆
  have hr₃₆ := hr₃.trans (hr₄.trans hr₅₆)
  have hr₂₆ := hr₂.trans hr₃₆
  constructor
  case containers =>
    have hstay {v : Visit} (hv : v.manner.overwrites) (hsettled : ∀ c ∈ containers context root,
        Settled context v c.id (navigation context s).document) :=
      Settled.containers hd hroot hv (hr₁.trans hr₂₆) hroot' fun c hc =>
        (hsettled c hc).recalls hr₁.distinct hv hr₂₆
    exact fun c hc => ⟨hstay rfl (fun c hc => (hcontainers c hc).1) c hc,
      hstay rfl (fun c hc => (hcontainers c hc).2) c hc⟩
  case root =>
    intro v hv hv'
    cases v with
    | navTitle => exact absurd rfl hv
    | navLink => exact absurd rfl hv'
    | heading => exact hheadings.recalls hr₂.distinct rfl hr₃₆
    | paragraph => exact hparagraphs.recalls hr₃.distinct rfl (hr₄.trans hr₅₆)
    | button => exact hbuttons.recalls hr₄.distinct rfl hr₅₆
    | image => exact himages.rests hr₅.distinct hstyles
    | background => exact hbackgrounds

theorem exists_spent (context : Context) {root : Place} (hd : s.document.Distinct)
    (hroot : s.document.place? context.root = some root)
    (hwhole : (Selector.tags ["p"]).holds root = false) : (sweepAll context s).document.Distinct ∧
      ∃ root', (sweepAll context s).document.place? context.root = some root' ∧
        Spent context root' (sweepAll context s).document := by
  obtain ⟨log, hrun⟩ := run_all context hd
  have hfollows : Follows context s.document (sweepAll context s).document := hrun.follows hd
  obtain ⟨touched, hevolves, -⟩ := hfollows.evolves
  have hid : root.tree.id = context.root := id_of_place? hroot
  have hin := id_mem_ids (tree_mem_nodes (mem_places_of_place? hroot))
  obtain ⟨root', hroot'⟩ := exists_place? (hevolves.ids (hid ▸ hin))
  exact ⟨hfollows.distinct, root', hroot', spent_sweeps context hd hroot hwhole hroot'⟩

end Sweep

namespace PageSettings

theorem document_extract (root : NodeId) (regions : List NodeId) (options : Options)
    (seed : List Setting) (d : Document) : (extract root regions options seed d).1 =
      (Sweep.sweepAll ⟨root, regions, options⟩ ⟨d, SettingScope.start.pushAll seed⟩).document := by
  simp only [extract, Sweep.sweepAll]

/-- Where nothing is ready for a visit, only the colours that every page has are collected. -/
theorem extract_of_spent {id : NodeId} {regions : List NodeId} {options : Options} {root : Place}
    {d : Document} (hd : d.Distinct) (hroot : d.place? id = some root)
    (h : Sweep.Spent ⟨id, regions, options⟩ root d) :
    extract id regions options [] d = (d, ⟨SettingScope.colors, []⟩) := by
  have hsweeps := Sweep.Spent.sweeps_eq (s := ⟨d, SettingScope.start.pushAll []⟩) h hd hroot
  rw [Sweep.sweepAll] at hsweeps
  simp only [extract, hsweeps, Nat.sub_self]
  rfl

/-- Collecting the settings of a page that has been through it once changes no node, and returns the two
colours only. -/
theorem extract_extract (options : Options) (seed : List Setting) (regions : List NodeId) {d : Document}
    (hd : d.Distinct) {root : Place} (hroot : root ∈ d.places)
    (hwhole : (Selector.tags ["p"]).holds root = false) :
    let once := extract root.id regions options seed d
    extract root.id regions options [] once.1 = (once.1, ⟨SettingScope.colors, []⟩) := by
  obtain ⟨hdistinct, root', hroot', hspent⟩ := Sweep.exists_spent ⟨root.id, regions, options⟩
    (s := ⟨d, SettingScope.start.pushAll seed⟩) hd (hd.place? hroot) hwhole
  dsimp only
  rw [document_extract]
  exact extract_of_spent hdistinct hroot' hspent

theorem extract_extract_shopPage :
    let once := extract shopPage.body.id [] {} [] shopPage
    once.2.settings.length = 6 ∧
      extract shopPage.body.id [] {} [] once.1 = (once.1, ⟨SettingScope.colors, []⟩) := by
  have hwhole : (Selector.tags ["p"]).holds shopPage.body = false := by decide +kernel
  exact ⟨by decide +kernel, extract_extract {} [] [] (Document.distinct_ofMarkup _)
    (Document.body_mem_places _) hwhole⟩

end PageSettings

end ThemeSection
