import ThemeSection.Proofs.Chars.Cluster
import ThemeSection.Proofs.Chars.Separated
import ThemeSection.Proofs.Chars.Squeeze
import ThemeSection.Text.Label

/-!
Labels. A squeezed text is a row of words with one space between two of them. Where it is too long it is
cut after a word, or within the first word if that alone is too long. What is left with its dots is
squeezed and short enough, so that it is not cut again.
-/

namespace ThemeSection.Chars

variable {s : List Char}

/-- A character that a squeezed text may have besides spaces. -/
def isVisible (c : Char) : Bool :=
  !isBlank c && !isZeroWidth c

theorem isVisible_iff {c : Char} : isVisible c ↔ isBlank c = false ∧ isZeroWidth c = false := by
  simp [isVisible]

/-- The texts with nothing to squeeze are rows of words. -/
theorem squeeze_eq_self_iff : squeeze s = s ↔ s = [] ∨ Separated isVisible ' ' s := by
  constructor
  · intro h
    refine or_iff_not_imp_left.2 fun hne => (separated_iff (by decide)).2
      ⟨words (s.filter (!isZeroWidth ·)), fun hwords => hne ?_, fun w hw => ?_, h.symm⟩
    · rw [← h, squeeze, hwords]
      rfl
    · refine ⟨(isWord_of_mem_words hw).nonempty, fun c hc => isVisible_iff.2 ?_⟩
      have hkept := (List.mem_filter.1 (subset_of_mem_words hw hc)).2
      exact ⟨(isWord_of_mem_words hw).visible c hc, by simpa using hkept⟩
  · rintro (rfl | h)
    · rfl
    · have hfilter : s.filter (!isZeroWidth ·) = s := List.filter_eq_self.2 fun c hc => by
        rcases h.chars c hc with hvisible | rfl
        · rw [(isVisible_iff.1 hvisible).2]
          rfl
        · decide
      obtain ⟨runs, -, hruns, hs⟩ := (separated_iff (by decide)).1 h
      rw [squeeze, hfilter, hs, words_intercalate]
      exact fun w hw => ⟨(hruns w hw).1, fun c hc => (isVisible_iff.1 ((hruns w hw).2 c hc)).1⟩

/-- A row of words ends in a character that is not trimmed. -/
theorem Separated.trimEnd_eq (h : Separated isVisible ' ' s) : trimEnd s = s := by
  rcases List.eq_nil_or_concat s with rfl | ⟨front, c, rfl⟩
  · rfl
  · have hspace : c ≠ ' ' := fun hc => h.ends (by simp [hc])
    have hvisible := (h.chars c (by simp)).resolve_right hspace
    rw [List.concat_eq_append, trimEnd_concat, (isVisible_iff.1 hvisible).1]
    rfl

end ThemeSection.Chars

namespace ThemeSection.Text

open Chars (Separated isVisible)

/-- A label is cut before the last space that leaves room for the dots, or where room ends if there is
none. -/
theorem exists_cutLabel {label : List Char} (h : Separated isVisible ' ' label) :
    ∃ kept, cutLabel label = kept ++ "...".toList ∧ Separated isVisible ' ' kept ∧
      let head := ((Chars.clusters label).take (maxLabelLength - 3)).flatten
      kept <+: head ∧ (' ' ∈ head → kept ++ [' '] <+: head) := by
  have hprefix := Chars.flatten_take_clusters_prefix (maxLabelLength - 3) label
  have hne : ((Chars.clusters label).take (maxLabelLength - 3)).flatten ≠ [] :=
    Chars.flatten_take_clusters_ne_nil (by decide) h.nonempty
  unfold cutLabel
  generalize ((Chars.clusters label).take (maxLabelLength - 3)).flatten = head at hprefix hne ⊢
  have hstart := h.head?_of_prefix hprefix hne
  cases hbefore : Chars.beforeLast? (· == ' ') head with
  | none =>
    have hnone : ' ' ∉ head := fun hmem => by
      simpa using Chars.beforeLast?_eq_none hbefore ' ' hmem
    have hkept := h.of_prefix hprefix hne fun hlast => hnone (List.mem_of_getLast? hlast)
    refine ⟨head, ?_, hkept, List.prefix_rfl, fun hmem => absurd hmem hnone⟩
    simp only [hbefore, hkept.trimEnd_eq]
    rfl
  | some before =>
    obtain ⟨c, after, rfl, hc, -⟩ := Chars.beforeLast?_eq_some hbefore
    obtain rfl : c = ' ' := by simpa using hc
    cases before with
    | nil => exact absurd rfl hstart
    | cons first before =>
      -- No space stands before the one that is cut away, as the label is squeezed.
      have hlast : (first :: before).getLast? ≠ some ' ' := by
        intro hlast
        obtain ⟨rest, rfl⟩ := hprefix
        have hapart := (List.isChain_append.1 h.apart.left_of_append).2.2 ' ' hlast ' ' rfl
        simp at hapart
      have hkept := h.of_prefix ((List.prefix_append _ _).trans hprefix) (List.cons_ne_nil _ _) hlast
      refine ⟨first :: before, ?_, hkept, List.prefix_append _ _, fun _ => ⟨after, by simp⟩⟩
      simp only [hbefore, hkept.trimEnd_eq]
      rfl

variable {text : String}

theorem truncateLabel_of_le (h : clusterCount (squeeze text) ≤ maxLabelLength) :
    truncateLabel text = squeeze text := by
  simp only [truncateLabel, if_pos h]

theorem truncateLabel_of_lt (h : maxLabelLength < clusterCount (squeeze text)) :
    truncateLabel text = onChars cutLabel (squeeze text) := by
  simp only [truncateLabel, if_neg (Nat.not_le.2 h)]

/-- What is short and has nothing to squeeze is its own label. -/
theorem truncateLabel_eq_self (hsqueezed : squeeze text = text) (h : clusterCount text ≤ maxLabelLength) :
    truncateLabel text = text := by
  rw [truncateLabel_of_le (by rwa [hsqueezed]), hsqueezed]

/-- A text that is too long is cut behind a word, or where only room for the dots is left if that is within
the first word. What is kept is squeezed. -/
theorem exists_truncateLabel (h : maxLabelLength < clusterCount (squeeze text)) :
    ∃ kept, truncateLabel text = kept ++ "..." ∧ Separated isVisible ' ' kept.toList ∧
      let head := ((Chars.clusters (squeeze text).toList).take (maxLabelLength - 3)).flatten
      kept.toList <+: head ∧ (' ' ∈ head → kept.toList ++ [' '] <+: head) := by
  have hne : (squeeze text).toList ≠ [] := by
    intro hnil
    rw [clusterCount, hnil] at h
    exact Nat.not_lt_zero _ h
  have hwords : Separated isVisible ' ' (squeeze text).toList :=
    (Chars.squeeze_eq_self_iff.1 (by simp [squeeze, Chars.squeeze_squeeze])).resolve_left hne
  obtain ⟨kept, hcut, hkept⟩ := exists_cutLabel hwords
  refine ⟨String.ofList kept, ?_, by rwa [String.toList_ofList]⟩
  rw [truncateLabel_of_lt h, onChars, hcut, String.ofList_append, String.ofList_toList]

theorem clusterCount_truncateLabel_le (text : String) :
    clusterCount (truncateLabel text) ≤ maxLabelLength := by
  by_cases hshort : clusterCount (squeeze text) ≤ maxLabelLength
  · rwa [truncateLabel_of_le hshort]
  · obtain ⟨kept, hlabel, -, hhead, -⟩ := exists_truncateLabel (Nat.not_le.1 hshort)
    have hroom := Chars.length_clusters_of_prefix hhead
    rw [Chars.clusters_flatten_take] at hroom
    have hdots : "...".toList.length = 3 := by decide
    calc clusterCount (truncateLabel text)
      _ = (Chars.clusters (kept.toList ++ "...".toList)).length := by
        rw [hlabel, clusterCount, String.toList_append]
      _ ≤ (Chars.clusters kept.toList).length + 3 := hdots ▸ (Chars.length_clusters_append _ _).2
      _ ≤ (maxLabelLength - 3) + 3 :=
        Nat.add_le_add_right (hroom.trans (List.length_take_le _ _)) 3
      _ = maxLabelLength := by decide

theorem squeeze_truncateLabel (text : String) : squeeze (truncateLabel text) = truncateLabel text := by
  by_cases hshort : clusterCount (squeeze text) ≤ maxLabelLength
  · rw [truncateLabel_of_le hshort, squeeze_squeeze]
  · obtain ⟨kept, hlabel, hkept, -⟩ := exists_truncateLabel (Nat.not_le.1 hshort)
    have hwords := hkept.append_run (by decide) (t := "...".toList) (by decide)
    rw [hlabel, ← String.toList_inj, squeeze, toList_onChars, String.toList_append]
    exact Chars.squeeze_eq_self_iff.2 (Or.inr hwords)

/-- A label is short, is cut only if the text is too long, then within it and before a space if there is
one, and is not cut again. -/
theorem fits_truncateLabel (text : String) :
    let squeezed := squeeze text
    let label := truncateLabel text
    clusterCount label ≤ 70 ∧ (clusterCount squeezed ≤ 70 → label = squeezed) ∧
      (70 < clusterCount squeezed → ∃ kept, kept ≠ "" ∧ label = kept ++ "..." ∧
        kept.toList <+: squeezed.toList ∧
          (' ' ∈ ((Chars.clusters squeezed.toList).take 67).flatten →
            kept.toList ++ [' '] <+: squeezed.toList)) ∧
      truncateLabel label = label := by
  intro squeezed label
  refine ⟨clusterCount_truncateLabel_le text, truncateLabel_of_le, fun hlong => ?_,
    truncateLabel_eq_self (squeeze_truncateLabel text) (clusterCount_truncateLabel_le text)⟩
  obtain ⟨kept, hlabel, hkept, hhead, hspace⟩ := exists_truncateLabel hlong
  have hprefix := Chars.flatten_take_clusters_prefix (maxLabelLength - 3) squeezed.toList
  exact ⟨kept, fun hnil => hkept.nonempty (String.toList_eq_nil_iff.2 hnil), hlabel,
    hhead.trans hprefix, fun hmem => (hspace hmem).trans hprefix⟩

end ThemeSection.Text
