import ThemeSection.PageType.Classify
import ThemeSection.Proofs.Markup.Places

/-!
The innermost of some elements. They are the minimal ones: an element that passes a test is left out
exactly if a passing element stands in it, and then one of the innermost does as well. Cards and
articles on a page are counted in this way, so that what is around them is not counted with them.
-/

namespace ThemeSection

open Markup

namespace Fragment

variable {root p : Place} {places : List Place}

/-- The innermost members are those with no other member below them. -/
theorem mem_innermost_iff (hroot : root.Distinct) (hplaces : places ⊆ root.descend) :
    p ∈ innermost places ↔ p ∈ places ∧ ∀ q ∈ places, q ∈ p.descend → q = p := by
  rw [innermost, List.mem_filter, Bool.not_eq_true', List.any_eq_false]
  refine and_congr_right fun hp => forall₂_congr fun q hq => ?_
  have hbelow := hroot.isWithin_iff (hplaces hq) (hplaces hp)
  have hsame : q.id = p.id ↔ q = p :=
    ⟨hroot.eq_of_id_eq (hplaces hq) (hplaces hp), congrArg Place.id⟩
  rw [Bool.and_eq_true, bne_iff_ne, hbelow, Ne, hsame]
  exact ⟨fun h hin => not_not.1 fun hne => h ⟨hne, hin⟩, fun h hboth => hboth.1 (h hboth.2)⟩

/-- Below every member there is an innermost one: while there is another member below, that one has
fewer nodes below it. -/
theorem exists_mem_innermost (hroot : root.Distinct) (hplaces : places ⊆ root.descend)
    (hp : p ∈ places) : ∃ q ∈ innermost places, q ∈ p.descend := by
  induction hsize : p.descend.length using Nat.strongRecOn generalizing p with
  | _ size ih =>
    by_cases hother : ∃ q ∈ places, q ∈ p.descend ∧ q ≠ p
    · obtain ⟨q, hq, hin, hne⟩ := hother
      have hless := Place.length_descend_lt hin hne
      obtain ⟨r, hr, hbelow⟩ := ih q.descend.length (hsize ▸ hless) hq rfl
      exact ⟨r, hr, Place.descend_trans hin hbelow⟩
    · refine ⟨p, (mem_innermost_iff hroot hplaces).2 ⟨hp, fun q hq hin => ?_⟩, p.self_mem_descend⟩
      exact not_not.1 fun hne => hother ⟨q, hq, hin, hne⟩

theorem pairwise_innermost (hroot : root.Distinct) (hplaces : places.Sublist root.descend) :
    (innermost places).Pairwise Place.Apart := by
  have hfound : (innermost places).Sublist places := List.filter_sublist
  have hids : ((innermost places).map Place.id).Nodup :=
    hroot.nodup_of_sublist (hfound.trans hplaces)
  refine (List.pairwise_map.1 hids).imp_of_mem fun {p q} hp hq hne => Place.apart_iff.2 ?_
  obtain ⟨hp, hpmin⟩ := (mem_innermost_iff hroot hplaces.subset).1 hp
  obtain ⟨hq, hqmin⟩ := (mem_innermost_iff hroot hplaces.subset).1 hq
  have hproot := hplaces.subset hp
  have hqroot := hplaces.subset hq
  rw [Place.overlaps, Bool.or_eq_true, hroot.isWithin_iff hproot hqroot,
    hroot.isWithin_iff hqroot hproot]
  rintro (hin | hin)
  · exact hne (congrArg Place.id (hqmin p hp hin))
  · exact hne (congrArg Place.id (hpmin q hq hin).symm)

end Fragment

namespace PageType

/-- An element from `root` down that passes the test. -/
structure Passes (test : Place → Bool) (root p : Place) : Prop where
  below : p ∈ root.descend
  element : p.isElement
  passes : test p

variable {test : Place → Bool} {root p : Place}

theorem mem_candidates : p ∈ (root.select .everything).filter test ↔ Passes test root p := by
  rw [List.mem_filter, Place.mem_select_everything]
  exact ⟨fun ⟨⟨hbelow, helement⟩, hpasses⟩ => ⟨hbelow, helement, hpasses⟩,
    fun h => ⟨⟨h.below, h.element⟩, h.passes⟩⟩

/-- Whatever the test is, the innermost elements that pass it come in document order and once each,
they are the passing elements with no other passing element below, they stand apart from each other,
and every passing element holds one of them or is one. -/
theorem minimal_innermostElements (hroot : root.Distinct) (test : Place → Bool) :
    let found := innermostElements test root
    found.Sublist root.descend ∧ (found.map Place.id).Nodup ∧
      (∀ p, p ∈ found ↔
        Passes test root p ∧ ∀ q ∈ p.descend, Passes test root q → q = p) ∧
      found.Pairwise Place.Apart ∧
      ∀ p, Passes test root p → ∃ q ∈ found, q ∈ p.descend := by
  intro found
  have hcandidates : ((root.select .everything).filter test).Sublist root.descend :=
    List.filter_sublist.trans (root.select_sublist .everything)
  have hfound : found.Sublist root.descend := List.filter_sublist.trans hcandidates
  refine ⟨hfound, hroot.nodup_of_sublist hfound, fun p => ?_,
    Fragment.pairwise_innermost hroot hcandidates, fun p hp => ?_⟩
  · refine (Fragment.mem_innermost_iff hroot hcandidates.subset).trans ?_
    simp only [mem_candidates]
    exact and_congr_right fun _ => forall_congr' fun q => imp.swap
  · exact Fragment.exists_mem_innermost hroot hcandidates.subset (mem_candidates.2 hp)

/-- A section with two stories, each a heading and a paragraph. -/
def news : Tree :=
  let piece (id : NodeId) (name : String) (children : List Tree) : Tree :=
    .node id (.element (.html name) []) children
  let words (id : NodeId) (text : String) : Tree := .node id (.text text) []
  let story (id : NodeId) (title body : String) : Tree :=
    piece id "div" [piece (id + 1) "h2" [words (id + 2) title], piece (id + 3) "p" [words (id + 4) body]]
  piece 0 "section" [story 1 "Tea" "It came.", story 6 "Rain" "It fell."]

/-- The section passes for an article, as it holds headings and paragraphs, but only the stories
count. -/
theorem minimal_innermostElements_news :
    (⟨news, []⟩ : Place).Distinct ∧ isArticle ⟨news, []⟩ ∧
      (innermostElements isArticle ⟨news, []⟩).map Place.id = [1, 6] ∧
      (innermostElements isArticle ⟨news, []⟩).Pairwise Place.Apart ∧
      ∃ q ∈ innermostElements isArticle ⟨news, []⟩, q ∈ (⟨news, []⟩ : Place).descend := by
  have hroot : (⟨news, []⟩ : Place).Distinct := by
    show news.ids.Nodup
    decide
  have harticle : isArticle ⟨news, []⟩ := by decide +kernel
  obtain ⟨-, -, -, hapart, hholds⟩ := minimal_innermostElements hroot isArticle
  exact ⟨hroot, harticle, by decide +kernel, hapart,
    hholds _ ⟨Place.self_mem_descend _, rfl, harticle⟩⟩

end PageType

end ThemeSection
