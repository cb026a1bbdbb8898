import ThemeSection.Proofs.Document.Frame
import ThemeSection.Proofs.PageSettings.Step

/-!
What one visit keeps of a page. Each change that it makes is at the visited node, and it takes nodes
away only if the text of that node, which shows no setting yet, gives way to settings.
-/

namespace ThemeSection

open Markup Liquid Document

namespace Selector

/-- Asks for the name or for a class of an element. -/
def Simple.isPlain : Simple → Bool
  | .tag _ | .className _ => true
  | _ => false

/-- Asks only for names and classes of the element itself, not for what stands around it. -/
def isPlain (selector : Selector) : Bool :=
  selector.all fun complex : Complex => complex.context.isEmpty && complex.subject.all (·.isPlain)

theorem meets_congr {tests : Compound} (h : tests.all (·.isPlain)) {p q : Place}
    (hname : p.tree.element?.map Prod.fst = q.tree.element?.map Prod.fst)
    (hclass : p.tree.attribute? "class" = q.tree.attribute? "class") :
    meets tests p = meets tests q := by
  rw [meets, meets]
  cases hp : p.tree.element? with
  | none =>
    rw [hp, Option.map_none, eq_comm, Option.map_eq_none_iff] at hname
    rw [hname]
  | some element =>
    obtain ⟨name, attributes⟩ := element
    rw [hp, Option.map_some, eq_comm] at hname
    obtain ⟨⟨other, attributes'⟩, hq, hother⟩ := Option.map_eq_some_iff.1 hname
    obtain rfl : other = name := hother
    rw [Tree.attribute?, Tree.attribute?, hp, hq] at hclass
    rw [hq]
    have htest : ∀ test ∈ tests, test.passes other attributes p = test.passes other attributes' q := by
      intro test htest
      have hplain := List.all_eq_true.1 h test htest
      cases test with
      | tag => rfl
      | className wanted => exact congrArg (Option.any _) hclass
      | _ => cases hplain
    exact Bool.eq_iff_iff.2 (by
      rw [List.all_eq_true, List.all_eq_true]
      exact forall₂_congr fun test hmem => by rw [htest test hmem])

theorem holds_congr {selector : Selector} (h : selector.isPlain) {p q : Place}
    (hname : p.tree.element?.map Prod.fst = q.tree.element?.map Prod.fst)
    (hclass : p.tree.attribute? "class" = q.tree.attribute? "class") :
    selector.holds p = selector.holds q := by
  have hcomplex : ∀ complex ∈ selector, Complex.holds complex p = Complex.holds complex q := by
    intro complex hcomplex
    have hplain := List.all_eq_true.1 h complex hcomplex
    simp only [Bool.and_eq_true, List.isEmpty_iff] at hplain
    obtain ⟨hcontext, hsubject⟩ := hplain
    rw [Complex.holds, Complex.holds, hcontext, contextHolds, contextHolds, Bool.and_true,
      Bool.and_true]
    exact meets_congr hsubject hname hclass
  rw [holds, holds, Bool.eq_iff_iff, List.any_eq_true, List.any_eq_true]
  exact exists_congr fun complex => and_congr_right fun hmem => by rw [hcomplex complex hmem]

theorem holds_of_subset {selector other : Selector} (h : selector ⊆ other) {p : Place}
    (hholds : selector.holds p) : other.holds p := by
  obtain ⟨complex, hmem, hholds⟩ := List.any_eq_true.1 hholds
  exact List.any_eq_true.2 ⟨complex, h hmem, hholds⟩

end Selector

namespace Sweep

/-- The attributes that sweeps change. -/
def shownAttributes : List String := ["href", "src", "srcset", "alt", "style"]

theorem Manner.attributes_subset (manner : Manner) : manner.attributes ⊆ shownAttributes := by
  cases manner <;> decide

/-- One change of a document at the node of a place. What is lost stands below the node, or is the node
itself where a new one takes its place. -/
structure Changes (context : Context) (p : Place) (manner : Manner) (lost : Tree → Prop)
    (d d' : Document) : Prop where
  carries : ∃ carry, d.Carries d' p.id lost carry
  evolves : ∃ touched, d.Evolves touched d' ∧ ∀ a ∈ touched, a.1 = p.id ∧ a.2 ∈ manner.attributes
  lost : ∀ n, lost n → isOpenText context p ∧ manner.overwrites ∧ n ∈ p.tree.nodes ∧
    (n = p.tree → manner = .renewal)

/-- Changes at one node, one after the other. -/
inductive Chain (context : Context) (p : Place) (manner : Manner) (d : Document) : Document → Prop
  | refl : Chain context p manner d d
  | snoc {d' d'' : Document} {lost : Tree → Prop} : Chain context p manner d d' →
      Changes context p manner lost d' d'' → Chain context p manner d d''

variable {context : Context} {p : Place} {d d' start : Document} {lost : Tree → Prop}
  {ids : List String} {edits : List Edit} {manner : Manner} {s s' : Sweep}

theorem isMarked_reference (id : String) (i : NodeId) :
    (Tree.ofText i (reference .whole id)).isMarked := by
  refine Tree.isMarked_iff.2 (List.IsPrefix.isInfix ?_)
  rw [Tree.text_ofText, reference, output, String.toList_append, String.toList_append,
    List.filter_append, List.filter_append,
    List.append_assoc]
  exact ⟨_, rfl⟩

theorem changes_mapAttributes (hd : d.Distinct) {name : String} (hname : name ∈ manner.attributes)
    {change : Attributes → Attributes}
    (hevolves : d.Evolves [(p.id, name)] (d.update p.id (·.mapAttributes change))) :
    Changes context p manner (fun _ => False) d (d.update p.id (·.mapAttributes change)) where
  carries := ⟨_, carries_mapAttributes hd p.id change⟩
  evolves := ⟨_, hevolves, List.forall_mem_singleton.2 ⟨rfl, hname⟩⟩
  lost := fun _ h => h.elim

theorem changes_setAttribute (hd : d.Distinct) {name : String} (hname : name ∈ manner.attributes)
    (value : String) : Changes context p manner (fun _ => False) d (d.setAttribute p.id name value) :=
  changes_mapAttributes hd hname (evolves_setAttribute hd p.id name value)

theorem changes_removeAttribute (hd : d.Distinct) {name : String}
    (hname : name ∈ manner.attributes) :
    Changes context p manner (fun _ => False) d (d.removeAttribute p.id name) :=
  changes_mapAttributes hd hname (evolves_removeAttribute hd p.id name)

theorem changes_setText (hd : d.Distinct) (hp : d.place? p.id = some p)
    (hopen : isOpenText context p) (id : String) :
    Changes context p .content (fun n => ∃ c ∈ p.tree.children, n ∈ c.nodes) d
      (d.setText p.id (reference .whole id)) where
  carries := ⟨_, carries_setText hd hp (isMarked_reference id)⟩
  evolves := ⟨[], evolves_setText hd p.id _, List.forall_mem_nil _⟩
  lost := by
    rintro n ⟨c, hc, hn⟩
    refine ⟨hopen, rfl, Tree.nodes_trans (Tree.mem_nodes_of_mem_children hc) hn, fun hself => ?_⟩
    exact absurd (hself ▸ Tree.id_mem_ids_of_mem_nodes hn) (Tree.not_mem_ids_child
      (hd.nodup_ids (tree_mem_nodes (mem_places_of_place? hp))) hc)

theorem changes_renew (hd : d.Distinct) (hp : d.place? p.id = some p) (helement : p.isElement)
    (hopen : isOpenText context p) (id : String) :
    Changes context p .renewal (· ∈ p.tree.nodes) d (d.apply (.renew p.id (reference .whole id))) := by
  obtain ⟨element, helement⟩ := Option.isSome_iff_exists.1 helement
  exact ⟨⟨_, carries_renew hd hp (isMarked_reference id) helement⟩,
    ⟨[], evolves_renew hd p.id _, List.forall_mem_nil _⟩, fun _ h => ⟨hopen, rfl, h, fun _ => rfl⟩⟩

theorem Changes.distinct (h : Changes context p manner lost d d') : d'.Distinct := by
  obtain ⟨touched, hevolves, -⟩ := h.evolves
  exact hevolves.distinct

theorem Changes.chain (h : Changes context p manner lost d d') : Chain context p manner d d' :=
  .snoc .refl h

theorem Chain.evolves (h : Chain context p manner d d') (hd : d.Distinct) :
    ∃ touched, d.Evolves touched d' ∧ ∀ a ∈ touched, a.1 = p.id ∧ a.2 ∈ manner.attributes := by
  induction h with
  | refl => exact ⟨[], .refl hd, List.forall_mem_nil _⟩
  | snoc _ hchanges ih =>
    obtain ⟨touched, hevolves, htouched⟩ := ih
    obtain ⟨touched', hevolves', htouched'⟩ := hchanges.evolves
    exact ⟨_, hevolves.trans hevolves', List.forall_mem_append.2 ⟨htouched, htouched'⟩⟩

/-- Whatever a visit writes, it writes by changes at the visited node. -/
theorem Writes.chain (h : Writes context p manner ids edits) (hd : d.Distinct)
    (hp : d.place? p.id = some p) (helement : p.isElement) :
    Chain context p manner d (edits.foldl Document.apply d) := by
  cases h with
  | text id hopen => exact (changes_setText hd hp hopen id).chain
  | link textId urlId hopen =>
    have htext := changes_setText hd hp hopen textId
    exact htext.chain.snoc (changes_setAttribute htext.distinct (by decide) _)
  | paragraph id hopen => exact (changes_renew hd hp helement hopen id).chain
  | image id src _ _ _ =>
    have hsrc : Changes context p .image _ d _ :=
      changes_setAttribute hd (by decide : "src" ∈ Manner.image.attributes)
        (imageSource .whole id (Text.trim src) imageWidth)
    exact hsrc.chain.snoc (changes_removeAttribute hsrc.distinct (by decide))
  | describedImage id altId src _ _ _ =>
    have hsrc : Changes context p .image _ d _ :=
      changes_setAttribute hd (by decide : "src" ∈ Manner.image.attributes)
        (imageSource .whole id (Text.trim src) imageWidth)
    have hsrcset : Changes context p .image _ _ _ :=
      changes_removeAttribute hsrc.distinct (by decide : "srcset" ∈ Manner.image.attributes)
    exact (hsrc.chain.snoc hsrcset).snoc (changes_setAttribute hsrcset.distinct (by decide) _)
  | background id style url hstyle _ _ =>
    rw [List.foldl_cons, List.foldl_nil, Document.apply, hp, Option.bind_some, hstyle]
    exact (changes_setAttribute hd (by decide) _).chain

end Sweep

end ThemeSection
