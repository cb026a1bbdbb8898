import Mathlib.Data.List.TakeWhile
import ThemeSection.Chars.Blank
import ThemeSection.Proofs.Chars.Search

/-!
What trimming and squeezing leave of a text. Trimming makes up no characters, and squeezing keeps
the words, so that a needle without blanks is found in a squeezed text if and only if it is found in
the text without its zero-width characters.
-/

namespace ThemeSection.Chars

theorem isBlank_of_isDigit {c : Char} (h : c.isDigit) : isBlank c = false := by
  have hrange : 48 ≤ c.toNat ∧ c.toNat ≤ 57 := Char.isDigit_iff_toNat.1 h
  simp [isBlank]
  omega

theorem exists_trimEnd (s : List Char) :
    ∃ blanks, s = trimEnd s ++ blanks ∧ ∀ c ∈ blanks, isBlank c := by
  refine ⟨(s.reverse.takeWhile isBlank).reverse, ?_, fun c hc => ?_⟩
  · rw [trimEnd, ← List.reverse_append, List.takeWhile_append_dropWhile, List.reverse_reverse]
  · exact List.all_eq_true.1 List.all_takeWhile c (List.mem_reverse.1 hc)

/-- What is trimmed from a text are blanks. -/
theorem exists_trim (s : List Char) : ∃ front back, s = front ++ (trim s ++ back) ∧
    (∀ c ∈ front, isBlank c) ∧ ∀ c ∈ back, isBlank c := by
  obtain ⟨back, hback, hblanks⟩ := exists_trimEnd (trimStart s)
  refine ⟨s.takeWhile isBlank, back, ?_, List.all_eq_true.1 List.all_takeWhile, hblanks⟩
  rw [trim, ← hback, trimStart, List.takeWhile_append_dropWhile]

theorem trim_isInfix (s : List Char) : trim s <:+: s := by
  obtain ⟨front, back, hs, -, -⟩ := exists_trim s
  exact ⟨front, back, by rw [List.append_assoc, ← hs]⟩

theorem trim_subset (s : List Char) : trim s ⊆ s :=
  (trim_isInfix s).subset

theorem trimEnd_concat (s : List Char) (c : Char) :
    trimEnd (s ++ [c]) = if isBlank c then trimEnd s else s ++ [c] := by
  rw [trimEnd, List.reverse_append, List.reverse_singleton, List.singleton_append,
    List.dropWhile_cons]
  split
  · rfl
  · rw [List.reverse_cons, List.reverse_reverse]

/-- Blanks after a character that is none are what is trimmed from the end. -/
theorem trimEnd_append_blanks {c : Char} (hc : isBlank c = false) (s : List Char)
    {blanks : List Char} (hblanks : ∀ c ∈ blanks, isBlank c) :
    trimEnd (s ++ c :: blanks) = s ++ [c] := by
  have hall : ∀ d ∈ blanks.reverse, isBlank d := fun d hd => hblanks d (List.mem_reverse.1 hd)
  rw [trimEnd, List.reverse_append, List.reverse_cons, List.append_assoc,
    List.dropWhile_append_of_pos hall, List.singleton_append,
    List.dropWhile_cons_of_neg (by simp [hc]), List.reverse_cons, List.reverse_reverse]

theorem trim_of_ends {c d : Char} {s : List Char} (hc : isBlank c = false) (hd : isBlank d = false) :
    trim (c :: (s ++ [d])) = c :: (s ++ [d]) := by
  have hstart : trimStart (c :: (s ++ [d])) = c :: (s ++ [d]) := by
    rw [trimStart, List.dropWhile_cons_of_neg (by simp [hc])]
  rw [trim, hstart, ← List.cons_append, trimEnd_concat, hd]
  rfl

theorem trim_of_forall {s : List Char} (h : ∀ c ∈ s, isBlank c = false) : trim s = s := by
  rcases s with _ | ⟨c, s⟩
  · rfl
  rcases s.eq_nil_or_concat' with rfl | ⟨s, d, rfl⟩
  · have hc := h c (List.mem_singleton_self c)
    simp [trim, trimStart, trimEnd, hc]
  · exact trim_of_ends (h c (by simp)) (h d (by simp))

theorem isBlank_of_head?_trimStart {c : Char} {s : List Char} (h : (trimStart s).head? = some c) :
    isBlank c = false := by
  have hnot := List.head?_dropWhile_not isBlank s
  rw [trimStart] at h
  rw [h] at hnot
  exact hnot

theorem isBlank_of_getLast?_trimEnd {c : Char} {s : List Char} (h : (trimEnd s).getLast? = some c) :
    isBlank c = false := by
  rw [trimEnd, List.getLast?_reverse] at h
  exact isBlank_of_head?_trimStart h

theorem isBlank_of_getLast?_trim {c : Char} {s : List Char} (h : (trim s).getLast? = some c) :
    isBlank c = false :=
  isBlank_of_getLast?_trimEnd h

theorem isBlank_of_head?_trim {c : Char} {s : List Char} (h : (trim s).head? = some c) :
    isBlank c = false := by
  obtain ⟨blanks, hblanks, -⟩ := exists_trimEnd (trimStart s)
  refine isBlank_of_head?_trimStart (s := s) ?_
  rw [hblanks, List.head?_append]
  rw [trim] at h
  rw [h]
  rfl

/-- A text with no blank at its ends is trimmed. -/
theorem trim_eq_self {s : List Char} (hhead : ∀ c, s.head? = some c → isBlank c = false)
    (hlast : ∀ c, s.getLast? = some c → isBlank c = false) : trim s = s := by
  have hstart : ∀ t : List Char, (∀ c, t.head? = some c → isBlank c = false) →
      t.dropWhile isBlank = t := by
    intro t ht
    cases t with
    | nil => rfl
    | cons c t => exact List.dropWhile_cons_of_neg (by simp [ht c rfl])
  rw [trim, trimStart, hstart s hhead, trimEnd, hstart s.reverse (by simpa using hlast),
    List.reverse_reverse]

theorem trim_concat {c : Char} (hc : isBlank c) (s : List Char) : trim (s ++ [c]) = trim s := by
  rw [trim, trim, trimStart, trimStart, List.dropWhile_append]
  split
  case isTrue hempty => rw [List.isEmpty_iff.1 hempty, List.dropWhile_cons_of_pos hc, List.dropWhile_nil]
  case isFalse => rw [trimEnd_concat, if_pos hc]

theorem trim_eq_nil_iff {s : List Char} : trim s = [] ↔ ∀ c ∈ s, isBlank c := by
  rw [trim, trimEnd, List.reverse_eq_nil_iff, List.dropWhile_eq_nil_iff]
  constructor
  · intro h
    cases hstart : trimStart s with
    | nil => exact List.dropWhile_eq_nil_iff.1 hstart
    | cons c rest =>
      have hc : isBlank c := h c (by simp [hstart])
      rw [isBlank_of_head?_trimStart (s := s) (by rw [hstart]; rfl)] at hc
      cases hc
  · intro h c hc
    have hstart : trimStart s = [] := List.dropWhile_eq_nil_iff.2 h
    rw [hstart] at hc
    cases hc

theorem trim_trim (s : List Char) : trim (trim s) = trim s :=
  trim_eq_self (fun _ => isBlank_of_head?_trim) fun _ => isBlank_of_getLast?_trim

variable {needle : List Char}

/-- A needle without separators lies in one of the pieces between them. -/
theorem contains_splitWhere {p : Char → Bool} (hneedle : ∀ c ∈ needle, p c = false)
    (s : List Char) : contains needle s = (splitWhere p s).any (contains needle) := by
  by_cases hseparator : ∃ c ∈ s, p c
  · obtain ⟨c, hc, hp⟩ := hseparator
    obtain ⟨a, b, rfl⟩ := List.append_of_mem hc
    have hnot : c ∉ needle := fun hin => by
      rw [hneedle c hin] at hp
      cases hp
    rw [contains_append_cons hnot, splitWhere_append_cons hp, List.any_append,
      contains_splitWhere hneedle a, contains_splitWhere hneedle b]
  · have hnone : ∀ c ∈ s, p c = false := fun c hc =>
      Bool.not_eq_true _ ▸ fun hp => hseparator ⟨c, hc, hp⟩
    rw [splitWhere_eq_singleton hnone, List.any_cons, List.any_nil, Bool.or_false]
termination_by s.length
decreasing_by all_goals simp_all +arith

/-- A needle without the separator lies in one of the texts that are put one after the other. -/
theorem contains_intercalate {c : Char} (hc : c ∉ needle) (hne : needle ≠ [])
    (texts : List (List Char)) :
    contains needle ([c].intercalate texts) = texts.any (contains needle) := by
  have hnil : contains needle [] = false :=
    contains_eq_false_iff.2 fun h => hne (List.infix_nil.1 h)
  induction texts with
  | nil => exact hnil
  | cons text rest ih =>
    cases rest with
    | nil => simp [List.intercalate]
    | cons next rest =>
      rw [List.intercalate_cons_cons, List.append_assoc, List.singleton_append,
        contains_append_cons hc, ih]
      rfl

/-- A needle without blanks lies in one of the words. -/
theorem contains_eq_any_words (hne : needle ≠ []) (hneedle : ∀ c ∈ needle, isBlank c = false)
    (s : List Char) : contains needle s = (words s).any (contains needle) := by
  have hnil : contains needle [] = false :=
    contains_eq_false_iff.2 fun h => hne (List.infix_nil.1 h)
  rw [contains_splitWhere hneedle, words, List.any_filter]
  congr 1
  funext word
  cases word with
  | nil => simp [hnil]
  | cons c word => simp

/-- A needle without blanks is found in a squeezed text just where it is found without zero-width
characters. -/
theorem contains_squeeze (hne : needle ≠ []) (hneedle : ∀ c ∈ needle, isBlank c = false)
    (s : List Char) :
    contains needle (squeeze s) = contains needle (s.filter (!isZeroWidth ·)) := by
  have hspace : ' ' ∉ needle := fun hin => absurd (hneedle _ hin) (by decide)
  rw [squeeze, contains_intercalate hspace hne, contains_eq_any_words hne hneedle]

end ThemeSection.Chars
