import ThemeSection.Chars.Blank
import ThemeSection.Chars.Case

/-!
What lower case does to ASCII text. Small letters, digits and marks stay as they are, and apart from the
two small sigmas the characters of a lower-case text are those that its characters are mapped to, one by
one.
-/

namespace ThemeSection.Chars

variable {s : List Char}

theorem lower_go_cons {c : Char} (hc : c ≠ '\u03A3') (before s : List Char) :
    lower.go before (c :: s) = lowerChar c ++ lower.go (c :: before) s := by
  rw [lower.go, if_neg (by simpa using hc)]

/-- ASCII text without capitals is in lower case. -/
theorem lower_eq_self (h : ∀ c ∈ s, c.toNat < 0x80 ∧ c.toLower = c) : lower s = s := by
  suffices hgo : ∀ before, lower.go before s = s from hgo []
  induction s with
  | nil => exact fun before => rfl
  | cons c s ih =>
    intro before
    obtain ⟨⟨hascii, hsmall⟩, hs⟩ := List.forall_mem_cons.1 h
    have hsigma : c ≠ '\u03A3' := by
      rintro rfl
      exact absurd hascii (by decide)
    rw [lower_go_cons hsigma, ih hs, lowerChar, if_pos hascii, hsmall, List.singleton_append]

/-- An ASCII character of a lower-case text is the small form of some character. -/
theorem mem_lower_iff {c : Char} (hc : c.toNat < 0x80) :
    c ∈ lower s ↔ ∃ d ∈ s, c ∈ lowerChar d := by
  have hsigma : ∀ d ∈ ['\u03C2', '\u03C3'], c ≠ d := by
    rintro d hd rfl
    simp only [List.mem_cons, List.not_mem_nil, or_false] at hd
    rcases hd with rfl | rfl <;> exact absurd hc (by decide)
  suffices hgo : ∀ before, c ∈ lower.go before s ↔ ∃ d ∈ s, c ∈ lowerChar d from hgo []
  induction s with
  | nil => simp [lower.go]
  | cons d s ih =>
    intro before
    simp only [List.mem_cons, exists_eq_or_imp]
    by_cases hd : d = '\u03A3'
    · have himage : lowerChar d = ['\u03C3'] := by
        rw [hd]
        decide +kernel
      rw [lower.go, if_pos (by simpa using hd), List.mem_append, ih, himage]
      refine or_congr_left ?_
      simp only [List.mem_singleton]
      split
      · exact iff_of_false (hsigma _ (by simp)) (hsigma _ (by simp))
      · rfl
    · rw [lower_go_cons hd, List.mem_append, ih]

/-- Blanks have no letter case. -/
theorem lowerChar_of_isBlank {c : Char} (h : isBlank c) : lowerChar c = [c] := by
  let blanks : List Nat := List.range' 9 5 ++ [0x20, 0x85, 0xA0, 0x1680] ++ List.range' 0x2000 11 ++
    [0x2028, 0x2029, 0x202F, 0x205F, 0x3000]
  have hall : ∀ n ∈ blanks, lowerChar (Char.ofNat n) = [Char.ofNat n] := by decide +kernel
  have hmem : c.toNat ∈ blanks := by
    simp only [isBlank, Bool.or_eq_true, Bool.and_eq_true, beq_iff_eq, decide_eq_true_eq] at h
    simp only [blanks, List.mem_append, List.mem_range'_1, List.mem_cons, List.not_mem_nil]
    omega
  have hc := hall _ hmem
  rwa [Char.ofNat_toNat] at hc

end ThemeSection.Chars
