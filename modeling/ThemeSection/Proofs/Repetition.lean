import Mathlib.Data.List.Induction
import Mathlib.Data.List.Nodup
import Mathlib.Data.List.Perm.Subperm

/-!
Lists without repetition. What is left of a list when each entry is kept only where it comes first, and
how a part of a list that repeats nothing is known by its members.
-/

namespace ThemeSection

variable {α : Type}

theorem eraseDups_concat [DecidableEq α] (l : List α) (a : α) :
    (l ++ [a]).eraseDups = if a ∈ l then l.eraseDups else l.eraseDups ++ [a] := by
  rw [List.eraseDups_append, List.removeAll]
  by_cases h : a ∈ l <;> simp [h, List.eraseDups_cons]

theorem nodup_eraseDups [DecidableEq α] (l : List α) : l.eraseDups.Nodup := by
  induction l using List.reverseRecOn with
  | nil => exact List.nodup_nil
  | append_singleton l a ih =>
    rw [eraseDups_concat]
    split
    case isTrue => exact ih
    case isFalse h =>
      exact List.concat_eq_append ▸ ih.concat (mt List.mem_eraseDups.1 h)

theorem eraseDups_append_eq [DecidableEq α] (a b : List α) :
    (a ++ b).eraseDups = a.eraseDups ++ b.eraseDups.filter (· ∉ a) := by
  induction b using List.reverseRecOn with
  | nil => simp
  | append_singleton b x ih =>
    rw [← List.append_assoc, eraseDups_concat, eraseDups_concat, ih]
    by_cases hxa : x ∈ a <;> by_cases hxb : x ∈ b <;> simp [hxa, hxb]

theorem eraseDups_append_congr [DecidableEq α] {a a' b b' : List α}
    (ha : a.eraseDups = a'.eraseDups) (hb : b.eraseDups = b'.eraseDups) :
    (a ++ b).eraseDups = (a' ++ b').eraseDups := by
  have hmem : ∀ x, x ∈ a ↔ x ∈ a' := fun x => by
    rw [← List.mem_eraseDups, ha, List.mem_eraseDups]
  simp only [eraseDups_append_eq, ha, hb, hmem]

theorem eraseDups_of_nodup [DecidableEq α] {l : List α} (h : l.Nodup) :
    l.eraseDups = l := by
  induction l using List.reverseRecOn with
  | nil => rfl
  | append_singleton l x ih =>
    obtain ⟨hl, -, hx⟩ := List.nodup_append.1 h
    have hnot : x ∉ l := fun hmem => hx x hmem x (List.mem_singleton_self x) rfl
    rw [eraseDups_concat, if_neg hnot, ih hl]

/-- A part of a list without repetition is what is left of the list by a test that its members pass and
the others fail. -/
theorem eq_filter_of_sublist {l m : List α} {p : α → Bool} (h : l.Sublist m) (hm : m.Nodup)
    (hp : ∀ a ∈ m, a ∈ l ↔ p a) : l = m.filter p := by
  have hall : l.filter p = l := List.filter_eq_self.2 fun a ha => (hp a (h.subset ha)).1 ha
  have hpart : l.Sublist (m.filter p) := hall ▸ h.filter p
  have hsubset : m.filter p ⊆ l := fun a ha =>
    (hp a (List.mem_filter.1 ha).1).2 (List.mem_filter.1 ha).2
  exact hpart.eq_of_length_le ((hm.filter p).subperm hsubset).length_le

end ThemeSection
