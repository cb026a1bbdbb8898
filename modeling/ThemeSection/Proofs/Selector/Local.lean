import Mathlib.Data.List.Find
import ThemeSection.Proofs.Markup.Places
import ThemeSection.Selector.Match

/-!
Selectors that look at an element only. What such a selector selects in a node is told by the
subtree of the node: it is what is selected in that subtree when it stands on its own.
-/

namespace ThemeSection

open Markup

namespace Markup

mutual

theorem placesUnder_append (above outer : List Level) : ∀ t : Tree,
    t.placesUnder (above ++ outer) =
      (t.placesUnder above).map fun p => ⟨p.tree, p.above ++ outer⟩
  | .node id kind children => by
    rw [Tree.placesUnder, Tree.placesUnder, List.map_cons, placesAmong_append]

theorem placesAmong_append (id : NodeId) (kind : NodeKind) (above outer : List Level)
    (before : List Tree) : ∀ trees : List Tree,
    Tree.placesAmong id kind (above ++ outer) before trees =
      (Tree.placesAmong id kind above before trees).map fun p => ⟨p.tree, p.above ++ outer⟩
  | [] => rfl
  | t :: rest => by
    rw [Tree.placesAmong, Tree.placesAmong, List.map_append, ← List.cons_append,
      placesUnder_append (⟨id, kind, before, rest⟩ :: above) outer t, placesAmong_append]

end

namespace Place

/-- A place of a tree below levels that stand around the tree. -/
def under (outer : List Level) (p : Place) : Place :=
  ⟨p.tree, p.above ++ outer⟩

/-- A node as if it stood below no other. -/
def alone (p : Place) : Place :=
  ⟨p.tree, []⟩

variable {p q root : Place} {outer : List Level}

@[simp] theorem id_under (outer : List Level) (p : Place) : (p.under outer).id = p.id := rfl

@[simp] theorem tree_under (outer : List Level) (p : Place) : (p.under outer).tree = p.tree := rfl

theorem descend_under (outer : List Level) (p : Place) :
    (p.under outer).descend = p.descend.map (under outer) :=
  placesUnder_append p.above outer p.tree

theorem descend_alone (p : Place) : p.descend = p.alone.descend.map (under p.above) :=
  placesUnder_append [] p.above p.tree

/-- Nodes of an element overlap there if they do when the element stands on its own. -/
theorem Distinct.overlaps_under (hroot : root.Distinct) (hp : p ∈ root.alone.descend)
    (hq : q ∈ root.alone.descend) :
    (p.under root.above).overlaps (q.under root.above) = p.overlaps q := by
  have hwithin : ∀ {p q : Place}, q ∈ root.alone.descend →
      (p.under root.above).isWithin q.id = p.isWithin q.id := by
    intro p q hq
    have hnone : root.above.any (·.id == q.id) = false :=
      List.any_eq_false.2 fun level hlevel heq =>
        hroot.ne_level (id_mem_of_mem_descend (p := root.alone) hq) hlevel (beq_iff_eq.1 heq)
    rw [isWithin, isWithin, under, List.any_append, hnone, Bool.or_false]
    rfl
  rw [overlaps, overlaps, id_under, id_under, hwithin hq, hwithin hp]

end Place

end Markup

namespace Selector

/-- Whether a test looks at nothing but the element. -/
def Simple.isLocal : Simple → Bool
  | .root | .place _ _ _ _ | .only _ => false
  | .not test => test.isLocal
  | _ => true

/-- Whether a selector looks at nothing but the element. -/
def isLocal (selector : Selector) : Bool :=
  selector.all fun complex : Complex =>
    complex.context.isEmpty && complex.subject.all Simple.isLocal

variable {selector : Selector} {p q : Place}

theorem passes_congr {test : Simple} (h : test.isLocal) (htree : p.tree = q.tree)
    (name : ElementName) (attributes : Attributes) :
    test.passes name attributes p = test.passes name attributes q := by
  induction test with
  | not test ih => simp only [Simple.passes, ih h]
  | empty => simp only [Simple.passes, htree]
  | root | place | only => cases h
  | _ => rfl

/-- A selector that looks at the element only selects it wherever it stands. -/
theorem holds_eq_of_isLocal (h : selector.isLocal) (htree : p.tree = q.tree) :
    selector.holds p = selector.holds q := by
  have hcomplex : ∀ complex ∈ selector, Complex.holds complex p = Complex.holds complex q := by
    intro complex hmem
    have hlocal := List.all_eq_true.1 h complex hmem
    rw [Bool.and_eq_true, List.isEmpty_iff, List.all_eq_true] at hlocal
    rw [Complex.holds, Complex.holds, hlocal.1, contextHolds, contextHolds, meets, meets, htree]
    cases q.tree.element? with
    | none => rfl
    | some element =>
      have hpasses : ∀ test ∈ complex.subject, test.passes element.1 element.2 p =
          test.passes element.1 element.2 q := fun test htest =>
        passes_congr (hlocal.2 test htest) htree _ _
      have hall : complex.subject.all (·.passes element.1 element.2 p) =
          complex.subject.all (·.passes element.1 element.2 q) := by
        rw [Bool.eq_iff_iff, List.all_eq_true, List.all_eq_true]
        exact forall₂_congr fun test htest => by rw [hpasses test htest]
      exact congrArg (· && true) hall
  rw [holds, holds, Bool.eq_iff_iff, List.any_eq_true, List.any_eq_true]
  exact exists_congr fun complex => and_congr_right fun hmem => by rw [hcomplex complex hmem]

end Selector

namespace Markup.Place

variable {p : Place} {selector : Selector}

theorem select_alone (h : selector.isLocal) (p : Place) :
    p.select selector = (p.alone.select selector).map (under p.above) := by
  rw [select, select, descend_alone, List.filter_map]
  exact congrArg _ (List.filter_congr fun q _ => Selector.holds_eq_of_isLocal h rfl)

theorem first?_alone (h : selector.isLocal) (p : Place) :
    p.first? selector = (p.alone.first? selector).map (under p.above) := by
  rw [first?, first?, descend_alone, List.find?_map]
  exact congrArg _ (List.find?_congr fun q _ => Selector.holds_eq_of_isLocal h rfl)

theorem has_under (h : selector.isLocal) (outer : List Level) (p : Place) :
    (p.under outer).has selector = p.has selector := by
  have hholds : p.descend.find? (selector.holds ∘ under outer) = p.descend.find? selector.holds :=
    List.find?_congr fun q _ => Selector.holds_eq_of_isLocal h rfl
  rw [has, has, first?, first?, descend_under, List.find?_map, Option.isSome_map, hholds]

end Markup.Place

end ThemeSection
