import Mathlib.Data.Nat.Digits.Defs
import Mathlib.Order.Lattice.Nat
import ThemeSection.Head.Version
import ThemeSection.Proofs.Chars.Search

/-!
Versions are in a total preorder: any two texts compare, in opposite ways from both sides, and the
comparison is transitive. Texts that differ can be equal as versions. Versions of dotted numbers compare
like the rows of their numbers, the shorter one with zeros after it, as long as no number is too large
for a segment. A number that is counts as zero.
-/

namespace ThemeSection

namespace Chars

/-- The number that decimal digits name, the lowest place last. -/
def numberOf (digits : List Char) : Nat :=
  Nat.ofDigits 10 (digits.reverse.map fun c => c.toNat - '0'.toNat)

theorem numeral_eq_numberOf {digits : List Char} (h : ∀ c ∈ digits, c.isDigit) :
    numeral 10 digits = numberOf digits := by
  induction digits using List.reverseRecOn with
  | nil => rfl
  | append_singleton digits c ih =>
    rw [List.forall_mem_append, List.forall_mem_singleton] at h
    have hdigit : (hexDigit? c).getD 0 = c.toNat - '0'.toNat := by rw [hexDigit?, if_pos h.2]; rfl
    rw [numeral, List.foldl_concat, ← numeral, ih h.1, hdigit, numberOf, numberOf,
      List.reverse_concat, List.map_cons, Nat.ofDigits_cons]
    omega

end Chars

namespace Head

open Chars (numberOf)

/-- One step of the comparison, whichever of the lists have ended. -/
theorem comparePadded_eq (as bs : List Nat) :
    comparePadded as bs =
      (compare (as.headD 0) (bs.headD 0)).then (comparePadded as.tail bs.tail) := by
  cases as with
  | nil =>
    cases bs with
    | nil => rw [List.tail_nil, comparePadded]; rfl
    | cons b bs => rw [comparePadded]; rfl
  | cons a as =>
    cases bs with
    | nil => rw [comparePadded]; rfl
    | cons b bs => rw [comparePadded]; rfl

theorem swap_comparePadded (as bs : List Nat) :
    (comparePadded as bs).swap = comparePadded bs as := by
  fun_induction comparePadded as bs with
  | case1 => rw [comparePadded]; rfl
  | case2 a as ih => rw [Ordering.swap_then, Nat.compare_swap, ih, comparePadded]
  | case3 b bs ih => rw [Ordering.swap_then, Nat.compare_swap, ih, comparePadded]
  | case4 a as b bs ih => rw [Ordering.swap_then, Nat.compare_swap, ih, comparePadded]

theorem isLE_then_iff (a b : Nat) (next : Ordering) :
    ((compare a b).then next).isLE ↔ a < b ∨ a = b ∧ next.isLE := by
  rcases Nat.lt_trichotomy a b with h | h | h
  · simp [Nat.compare_eq_lt.2 h, h]
  · simp [h]
  · simp only [Nat.compare_eq_gt.2 h, Ordering.then, Ordering.isLE, Bool.false_eq_true, false_iff]
    omega

theorem isLE_comparePadded_iff (as bs : List Nat) :
    (comparePadded as bs).isLE ↔ as.headD 0 < bs.headD 0 ∨
      as.headD 0 = bs.headD 0 ∧ (comparePadded as.tail bs.tail).isLE := by
  rw [comparePadded_eq, isLE_then_iff]

theorem isLE_comparePadded_trans (as bs cs : List Nat) (hab : (comparePadded as bs).isLE)
    (hbc : (comparePadded bs cs).isLE) : (comparePadded as cs).isLE := by
  by_cases hend : as.length + cs.length = 0
  · obtain ⟨ha, hc⟩ : as = [] ∧ cs = [] := by simpa using hend
    rw [ha, hc, comparePadded]
    rfl
  · rw [isLE_comparePadded_iff] at hab hbc ⊢
    rcases hab with hab | ⟨hab, habTail⟩
    · rcases hbc with hbc | ⟨hbc, -⟩ <;> exact Or.inl (by omega)
    · rcases hbc with hbc | ⟨hbc, hbcTail⟩
      · exact Or.inl (by omega)
      · exact Or.inr ⟨hab.trans hbc, isLE_comparePadded_trans _ _ _ habTail hbcTail⟩
termination_by as.length + cs.length
decreasing_by
  simp only [List.length_tail]
  omega

/-- Versions are totally preordered. -/
instance : Std.TransCmp compareVersions where
  eq_swap := (swap_comparePadded _ _).symm
  isLE_trans := isLE_comparePadded_trans _ _ _

/-- Rows of numbers in lexicographic order, the shorter one with zeros after it. -/
def compareRows (these those : List Nat) : Ordering :=
  let length := max these.length those.length
  compare (these.rightpad length 0) (those.rightpad length 0)

theorem rightpad_succ {length : Nat} {row : List Nat} (h : row.length ≤ length + 1) :
    row.rightpad (length + 1) 0 = row.headD 0 :: row.tail.rightpad length 0 := by
  cases row with
  | nil => simp [List.rightpad, List.replicate_succ]
  | cons n row => simp [List.rightpad]

theorem compare_rightpad {length : Nat} {these those : List Nat} (hthese : these.length ≤ length)
    (hthose : those.length ≤ length) :
    compare (these.rightpad length 0) (those.rightpad length 0) = comparePadded these those := by
  induction length generalizing these those with
  | zero =>
    obtain rfl := List.eq_nil_of_length_eq_zero (Nat.le_zero.1 hthese)
    obtain rfl := List.eq_nil_of_length_eq_zero (Nat.le_zero.1 hthose)
    rw [comparePadded]
    rfl
  | succ length ih =>
    rw [rightpad_succ hthese, rightpad_succ hthose, List.compare_cons_cons, comparePadded_eq,
      ih (by simpa using hthese) (by simpa using hthose)]

theorem comparePadded_eq_compareRows (these those : List Nat) :
    comparePadded these those = compareRows these those :=
  (compare_rightpad (Nat.le_max_left _ _) (Nat.le_max_right _ _)).symm

/-- A version that is made of runs of digits, with a dot between two of them. -/
structure IsDotted (version : String) (runs : List (List Char)) : Prop where
  nonempty : runs ≠ []
  digits : ∀ run ∈ runs, ∀ c ∈ run, c.isDigit
  text : version.toList = ['.'].intercalate runs

/-- What a run of digits counts for: its number, unless that takes more than 64 bits. -/
def countedNumber (run : List Char) : Nat :=
  if numberOf run < 2 ^ 64 then numberOf run else 0

theorem segments_of_isDotted {version : String} {runs : List (List Char)} (h : IsDotted version runs) :
    segments version = runs.map countedNumber := by
  have hdot : ∀ run ∈ runs, ∀ c ∈ run, (c == '.') = false := by
    intro run hrun c hc
    rw [beq_eq_false_iff_ne]
    rintro rfl
    exact absurd (h.digits run hrun '.' hc) (by decide)
  rw [segments, h.text, Chars.splitWhere_intercalate (by decide) h.nonempty hdot]
  refine List.map_congr_left fun run hrun => ?_
  have hdigits := h.digits run hrun
  rw [segmentValue, List.takeWhile_eq_self_iff.2 hdigits, Chars.numeral_eq_numberOf hdigits, countedNumber]
  refine if_congr (?_ : _ ≤ maxSegment ↔ _) rfl rfl
  rw [maxSegment]
  omega

/-- Dotted versions compare as the rows of their numbers, in which a number of more than 64 bits counts
as zero. So they compare as numbers if none is that large. -/
theorem compareVersions_of_isDotted {a b : String} {these those : List (List Char)}
    (ha : IsDotted a these) (hb : IsDotted b those) :
    compareVersions a b = compareRows (these.map countedNumber) (those.map countedNumber) ∧
      ((∀ run ∈ these ++ those, numberOf run < 2 ^ 64) →
        compareVersions a b = compareRows (these.map numberOf) (those.map numberOf)) := by
  have hcounted : compareVersions a b =
      compareRows (these.map countedNumber) (those.map countedNumber) := by
    rw [compareVersions, segments_of_isDotted ha, segments_of_isDotted hb, comparePadded_eq_compareRows]
  refine ⟨hcounted, fun hsmall => ?_⟩
  have hsame : ∀ run ∈ these ++ those, countedNumber run = numberOf run := fun run hrun =>
    if_pos (hsmall run hrun)
  rw [List.forall_mem_append] at hsame
  rw [hcounted, List.map_congr_left hsame.1, List.map_congr_left hsame.2]

/-- A version with more segments is compared with zeros, whatever zeros its numbers start with. -/
theorem compareVersions_of_isDotted_releases :
    IsDotted "1.010" ["1".toList, "010".toList] ∧ IsDotted "1.9.3" ["1".toList, "9".toList, "3".toList] ∧
      compareVersions "1.010" "1.9.3" = compareRows [1, 10] [1, 9, 3] ∧
      compareRows [1, 10] [1, 9, 3] = .gt := by
  have ha : IsDotted "1.010" ["1".toList, "010".toList] := ⟨by decide, by decide, by decide⟩
  have hb : IsDotted "1.9.3" ["1".toList, "9".toList, "3".toList] := ⟨by decide, by decide, by decide⟩
  exact ⟨ha, hb, (compareVersions_of_isDotted ha hb).2 (by decide), by decide⟩

-- The smallest number that takes more than 64 bits.
example : compareVersions "18446744073709551616" "1" = .lt := by cbv

end Head

end ThemeSection
