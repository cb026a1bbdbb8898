import ThemeSection.Assets
import ThemeSection.Proofs.Document.Edit

/-!
Pages as they are read. Reading a markup text numbers the nodes one by one, and taking the assets out
only moves nodes, so ids tell the nodes of every page apart before anything is bound in it.
-/

namespace ThemeSection

open Markup

namespace Document

theorem lt_next_of_mem {ids : List NodeId} {i : NodeId} (h : i ∈ ids) : i < ids.foldl max 0 + 1 := by
  have hle : ∀ (ids : List NodeId) (most : NodeId), most ≤ ids.foldl max most ∧
      ∀ i ∈ ids, i ≤ ids.foldl max most := by
    intro ids
    induction ids with
    | nil => exact fun most => ⟨Nat.le_refl _, List.forall_mem_nil _⟩
    | cons id ids ih =>
      intro most
      obtain ⟨hmost, hids⟩ := ih (max most id)
      rw [List.foldl_cons]
      exact ⟨Nat.le_trans (Nat.le_max_left _ _) hmost, List.forall_mem_cons.2
        ⟨Nat.le_trans (Nat.le_max_right _ _) hmost, hids⟩⟩
  exact Nat.lt_succ_of_le ((hle ids 0).2 i h)

/-- The nodes of a page that is read have ids of their own. -/
theorem distinct_ofMarkup (markup : String) : (ofMarkup markup).Distinct := by
  have hids : (ofMarkup markup).ids = (Markup.parse markup).ids := List.append_nil _
  constructor
  case nodup =>
    obtain ⟨t, ht⟩ : ∃ t : Tree, Markup.parse markup = (t.renumber 0).1 := ⟨_, rfl⟩
    rw [hids, ht, (ids_renumber 0 t).2]
    exact List.nodup_range'
  case fresh =>
    intro i hi
    rw [hids] at hi
    exact lt_next_of_mem hi

theorem Distinct.detachAll {d : Document} (h : d.Distinct) (ids : List NodeId) :
    (d.detachAll ids).Distinct :=
  List.foldlRecOn ids detach h fun _ h id _ => (evolves_detach h id).distinct

theorem rootPlace_mem_places (d : Document) : d.rootPlace ∈ d.places :=
  mem_places.2 ⟨d.root, List.mem_cons_self, Place.self_mem_descend d.rootPlace⟩

/-- What is selected in a document is in it, and so is its root. -/
theorem first?_mem_places (d : Document) (selector : Selector) :
    (d.rootPlace.first? selector).getD d.rootPlace ∈ d.places := by
  cases hfirst : d.rootPlace.first? selector with
  | none => exact d.rootPlace_mem_places
  | some p => exact mem_places_descend d.rootPlace_mem_places (List.mem_of_find?_eq_some hfirst)

theorem body_mem_places (d : Document) : d.body ∈ d.places :=
  d.first?_mem_places (Selector.tags ["body"])

end Document

namespace Assets

theorem distinct_takeOut {d : Document} (h : d.Distinct) (selector : Selector) :
    (takeOut d selector).2.Distinct :=
  h.detachAll _

/-- Taking the assets out of a page keeps its nodes apart. -/
theorem distinct_extract {d : Document} (h : d.Distinct) : (extract d).1.Distinct :=
  distinct_takeOut (distinct_takeOut (distinct_takeOut (distinct_takeOut h _) _) _) _

end Assets

end ThemeSection
