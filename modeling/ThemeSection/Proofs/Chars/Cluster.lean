import Mathlib.Data.List.Infix
import ThemeSection.Chars.Cluster

/-!
Clusters as pieces of a text. One more character at the end of a text is a cluster of its own or belongs to
the last one, and the clusters before are left as they are. So the clusters make up the text, those of a
part of it that ends where a cluster ends are its first ones, and a longer text never has fewer.
-/

namespace ThemeSection.Chars

/-- What one more character does to the pieces of a text. -/
inductive Grows (c : Char) : List (List Char) → List (List Char) → Prop
  | apart (pieces : List (List Char)) : Grows c pieces (pieces ++ [[c]])
  | joined (front : List (List Char)) (last : List Char) :
    Grows c (front ++ [last]) (front ++ [last ++ [c]])

/-- Pieces with one more character before the first one. -/
def attach (breaks : Bool) (c : Char) : List (List Char) → List (List Char)
  | [] => [[c]]
  | piece :: pieces => if breaks then [c] :: piece :: pieces else (c :: piece) :: pieces

namespace Grows

variable {c : Char} {before after : List (List Char)}

theorem attach (h : Grows c before after) (breaks : Bool) (d : Char) :
    Grows c (attach breaks d before) (attach breaks d after) := by
  cases h with
  | apart =>
    cases before with
    | nil =>
      cases breaks with
      | true => exact .apart [[d]]
      | false => exact .joined [] [d]
    | cons piece pieces =>
      cases breaks with
      | true => exact .apart ([d] :: piece :: pieces)
      | false => exact .apart ((d :: piece) :: pieces)
  | joined front last =>
    cases front with
    | nil =>
      cases breaks with
      | true => exact .joined [[d]] last
      | false => exact .joined [] (d :: last)
    | cons piece front =>
      cases breaks with
      | true => exact .joined ([d] :: piece :: front) last
      | false => exact .joined ((d :: piece) :: front) last

theorem flatten (h : Grows c before after) : after.flatten = before.flatten ++ [c] := by
  cases h with
  | apart => rw [List.flatten_append, List.flatten_singleton]
  | joined front last =>
    rw [List.flatten_append, List.flatten_append, List.flatten_singleton, List.flatten_singleton,
      List.append_assoc]

theorem length (h : Grows c before after) :
    before.length ≤ after.length ∧ after.length ≤ before.length + 1 := by
  cases h <;> simp

/-- The pieces before the last one stay. -/
theorem take (h : Grows c before after) {k : Nat} (hk : k < after.length) :
    after.take k = before.take k := by
  cases h with
  | apart =>
    rw [List.length_append, List.length_singleton] at hk
    exact List.take_append_of_le_length (Nat.le_of_lt_succ hk)
  | joined front last =>
    rw [List.length_append, List.length_singleton] at hk
    have hfront := Nat.le_of_lt_succ hk
    rw [List.take_append_of_le_length hfront, List.take_append_of_le_length hfront]

end Grows

theorem grows_go (c : Char) (state : Option ClusterState) (s : List Char) :
    Grows c (clusters.go state s) (clusters.go state (s ++ [c])) := by
  induction s generalizing state with
  | nil => exact .apart []
  | cons d s ih =>
    have hrest := ih (some (ClusterState.next state d))
    cases s with
    | nil => exact hrest.attach ((ClusterState.next state d).breaks c) d
    | cons e s => exact hrest.attach ((ClusterState.next state d).breaks e) d

theorem grows_clusters (c : Char) (s : List Char) : Grows c (clusters s) (clusters (s ++ [c])) :=
  grows_go c none s

/-- The clusters of a text are consecutive pieces of it. -/
theorem flatten_clusters (s : List Char) : (clusters s).flatten = s := by
  induction s using List.reverseRecOn with
  | nil => rfl
  | append_singleton s c ih => rw [(grows_clusters c s).flatten, ih]

/-- The first clusters of a text are those of the part that they make up. -/
theorem clusters_flatten_take (k : Nat) (s : List Char) :
    clusters ((clusters s).take k).flatten = (clusters s).take k := by
  induction s using List.reverseRecOn with
  | nil => cases k <;> rfl
  | append_singleton s c ih =>
    by_cases hk : k < (clusters (s ++ [c])).length
    · rw [(grows_clusters c s).take hk, ih]
    · rw [List.take_of_length_le (Nat.le_of_not_lt hk), flatten_clusters]

/-- Each further character adds at most one cluster and takes none away. -/
theorem length_clusters_append (s t : List Char) :
    (clusters s).length ≤ (clusters (s ++ t)).length ∧
      (clusters (s ++ t)).length ≤ (clusters s).length + t.length := by
  induction t using List.reverseRecOn with
  | nil => simp
  | append_singleton t c ih =>
    have hstep := (grows_clusters c (s ++ t)).length
    rw [List.append_assoc] at hstep
    rw [List.length_append, List.length_singleton]
    omega

theorem length_clusters_of_prefix {s t : List Char} (h : s <+: t) :
    (clusters s).length ≤ (clusters t).length := by
  obtain ⟨rest, rfl⟩ := h
  exact (length_clusters_append s rest).1

theorem flatten_take_clusters_prefix (k : Nat) (s : List Char) : ((clusters s).take k).flatten <+: s := by
  refine ⟨((clusters s).drop k).flatten, ?_⟩
  rw [← List.flatten_append, List.take_append_drop, flatten_clusters]

/-- The first cluster of a text has characters. -/
theorem flatten_take_clusters_ne_nil {k : Nat} (hk : k ≠ 0) {s : List Char} (hs : s ≠ []) :
    ((clusters s).take k).flatten ≠ [] := by
  intro hnil
  have hclusters := clusters_flatten_take k s
  rw [hnil] at hclusters
  have hnone : clusters s = [] := (List.take_eq_nil_iff.1 hclusters.symm).resolve_left hk
  exact hs (by rw [← flatten_clusters s, hnone, List.flatten_nil])

end ThemeSection.Chars
