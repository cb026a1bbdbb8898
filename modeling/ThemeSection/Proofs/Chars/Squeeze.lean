import ThemeSection.Proofs.Chars.Blank
import ThemeSection.Text.Basic

/-!
Words and squeezed texts. A squeezed text has the words of the text that it was made from, apart by one
space, so that there is nothing left to squeeze. What is a part of a text is so when both are squeezed.
-/

namespace ThemeSection.Chars

variable {s w : List Char}

/-- A word has characters, and none of them is blank. -/
structure IsWord (w : List Char) : Prop where
  nonempty : w ≠ []
  visible : ∀ c ∈ w, isBlank c = false

theorem isWord_of_mem_words (h : w ∈ words s) : IsWord w := by
  obtain ⟨hpiece, hne⟩ := List.mem_filter.1 h
  exact ⟨by simpa using hne, fun c hc => (of_mem_splitWhere hpiece hc).2⟩

/-- The words of a text have no other characters than the text. -/
theorem subset_of_mem_words (h : w ∈ words s) : w ⊆ s :=
  fun _ hc => (of_mem_splitWhere (List.mem_of_mem_filter h) hc).1

theorem words_of_isWord (h : IsWord w) : words w = [w] := by
  rw [words, splitWhere_eq_singleton h.visible]
  simp [h.nonempty]

theorem words_append_cons {c : Char} (hc : isBlank c) (s t : List Char) :
    words (s ++ c :: t) = words s ++ words t := by
  rw [words, splitWhere_append_cons hc, List.filter_append]
  rfl

theorem words_blanks_append {blanks : List Char} (h : ∀ c ∈ blanks, isBlank c) (s : List Char) :
    words (blanks ++ s) = words s := by
  induction blanks with
  | nil => rfl
  | cons c blanks ih =>
    obtain ⟨hc, hblanks⟩ := List.forall_mem_cons.1 h
    have hfirst : words (c :: (blanks ++ s)) = words [] ++ words (blanks ++ s) :=
      words_append_cons hc [] _
    rw [List.cons_append, hfirst, ih hblanks]
    rfl

theorem words_append_blanks {blanks : List Char} (h : ∀ c ∈ blanks, isBlank c) (s : List Char) :
    words (s ++ blanks) = words s := by
  cases blanks with
  | nil => rw [List.append_nil]
  | cons c blanks =>
    obtain ⟨hc, hblanks⟩ := List.forall_mem_cons.1 h
    have hrest : words blanks = [] := by
      have happend := words_blanks_append hblanks []
      rwa [List.append_nil] at happend
    rw [words_append_cons hc, hrest, List.append_nil]

theorem words_trim (s : List Char) : words (trim s) = words s := by
  obtain ⟨front, back, hs, hfront, hback⟩ := exists_trim s
  conv_rhs => rw [hs]
  rw [words_blanks_append hfront, words_append_blanks hback]

/-- Words that are put one after the other with a space between them are found again. -/
theorem words_intercalate {ws : List (List Char)} (h : ∀ w ∈ ws, IsWord w) :
    words ([' '].intercalate ws) = ws := by
  induction ws with
  | nil => rfl
  | cons w rest ih =>
    obtain ⟨hw, hrest⟩ := List.forall_mem_cons.1 h
    cases rest with
    | nil => simpa [List.intercalate] using words_of_isWord hw
    | cons next rest =>
      rw [List.intercalate_cons_cons, List.append_assoc, List.singleton_append,
        words_append_cons (by decide), words_of_isWord hw, ih hrest, List.singleton_append]

theorem mem_intercalate {c : Char} {ws : List (List Char)} (h : c ∈ [' '].intercalate ws) :
    c = ' ' ∨ ∃ w ∈ ws, c ∈ w := by
  induction ws with
  | nil => cases h
  | cons w rest ih =>
    cases rest with
    | nil => exact Or.inr ⟨w, by simp, by simpa [List.intercalate] using h⟩
    | cons next rest =>
      rw [List.intercalate_cons_cons, List.mem_append, List.mem_append] at h
      rcases h with (h | h) | h
      · exact Or.inr ⟨w, by simp, h⟩
      · exact Or.inl (List.mem_singleton.1 h)
      · exact (ih h).imp_right fun ⟨w, hw, hc⟩ => ⟨w, List.mem_cons_of_mem _ hw, hc⟩

theorem isZeroWidth_of_mem_squeeze {c : Char} (h : c ∈ squeeze s) : isZeroWidth c = false := by
  rcases mem_intercalate h with rfl | ⟨w, hw, hc⟩
  · decide
  · simpa using (List.mem_filter.1 (subset_of_mem_words hw hc)).2

theorem words_squeeze (s : List Char) : words (squeeze s) = words (s.filter (!isZeroWidth ·)) :=
  words_intercalate fun _ => isWord_of_mem_words

theorem squeeze_squeeze (s : List Char) : squeeze (squeeze s) = squeeze s := by
  have hall : (squeeze s).filter (!isZeroWidth ·) = squeeze s :=
    List.filter_eq_self.2 fun c hc => by simp [isZeroWidth_of_mem_squeeze hc]
  rw [squeeze, hall, words_squeeze]
  rfl

theorem squeeze_trim (s : List Char) : squeeze (trim s) = squeeze s := by
  have hkept : ∀ {blanks : List Char}, (∀ c ∈ blanks, isBlank c) →
      ∀ c ∈ blanks.filter (!isZeroWidth ·), isBlank c := fun h c hc => h c (List.mem_of_mem_filter hc)
  obtain ⟨front, back, hs, hfront, hback⟩ := exists_trim s
  conv_rhs => rw [hs]
  rw [squeeze, squeeze, List.filter_append, List.filter_append, words_blanks_append (hkept hfront),
    words_append_blanks (hkept hback)]

theorem contains_trim {needle : List Char} (hne : needle ≠ [])
    (hneedle : ∀ c ∈ needle, isBlank c = false) (s : List Char) :
    contains needle (trim s) = contains needle s := by
  rw [contains_eq_any_words hne hneedle, words_trim, ← contains_eq_any_words hne hneedle]

/-- The words of a text, apart by one space. -/
def joined (s : List Char) : List Char :=
  [' '].intercalate (words s)

/-- What stands between a visible character and the words of the text behind it. -/
def gap (s : List Char) : List Char :=
  if s.head?.any (!isBlank ·) || (joined s).isEmpty then [] else [' ']

theorem joined_cons_of_isBlank {c : Char} (hc : isBlank c) (s : List Char) :
    joined (c :: s) = joined s := by
  have hwords : words (c :: s) = words s := words_append_cons hc [] s
  rw [joined, hwords, joined]

/-- The first of some words begins what they are joined to. -/
theorem intercalate_cons (w : List Char) (ws : List (List Char)) :
    ∃ rest, [' '].intercalate (w :: ws) = w ++ rest ∧
      ∀ c, [' '].intercalate ((c :: w) :: ws) = c :: (w ++ rest) := by
  cases ws with
  | nil => exact ⟨[], by simp [List.intercalate], fun c => by simp [List.intercalate]⟩
  | cons next ws =>
    refine ⟨' ' :: [' '].intercalate (next :: ws), ?_, fun c => ?_⟩
    · rw [List.intercalate_cons_cons, List.append_assoc, List.singleton_append]
    · rw [List.intercalate_cons_cons, List.append_assoc, List.singleton_append, List.cons_append]

theorem joined_cons {c : Char} (hc : isBlank c = false) (s : List Char) :
    joined (c :: s) = c :: (gap s ++ joined s) := by
  have hsingle : words [c] = [[c]] :=
    words_of_isWord ⟨List.cons_ne_nil _ _, List.forall_mem_singleton.2 hc⟩
  rcases s with _ | ⟨x, s⟩
  · rw [joined, hsingle]
    rfl
  cases hx : isBlank x with
  | true =>
    have hwords : words (c :: x :: s) = [c] :: words s := by
      rw [← List.singleton_append, words_append_cons hx, hsingle, List.singleton_append]
    have hgap : gap (x :: s) = if (joined s).isEmpty then [] else [' '] := by
      rw [gap, joined_cons_of_isBlank hx]
      simp [hx]
    rw [hgap, joined_cons_of_isBlank hx, joined, hwords]
    cases hrest : words s with
    | nil => simp [joined, hrest, List.intercalate]
    | cons w ws =>
      have hw : IsWord w := isWord_of_mem_words (hrest ▸ List.mem_cons_self)
      obtain ⟨rest, hjoined, -⟩ := intercalate_cons w ws
      have hne : (joined s).isEmpty = false := by
        rw [joined, hrest, hjoined]
        simp [hw.nonempty]
      rw [hne, List.intercalate_cons_cons, joined, hrest]
      rfl
  | false =>
    have hgap : gap (x :: s) = [] := by simp [gap, hx]
    obtain ⟨piece, pieces, hpieces⟩ : ∃ piece pieces, splitWhere isBlank s = piece :: pieces :=
      List.exists_cons_of_ne_nil (splitWhere_ne_nil _ _)
    have hwords : words (x :: s) = (x :: piece) :: pieces.filter (!·.isEmpty) := by
      simp [words, splitWhere, hx, hpieces]
    have hlonger : words (c :: x :: s) = (c :: x :: piece) :: pieces.filter (!·.isEmpty) := by
      simp [words, splitWhere, hx, hc, hpieces]
    obtain ⟨rest, hjoined, hcons⟩ := intercalate_cons (x :: piece) (pieces.filter (!·.isEmpty))
    rw [hgap, joined, hlonger, hcons, joined, hwords, hjoined, List.nil_append]

theorem joined_suffix_cons (c : Char) (s : List Char) : joined s <:+ joined (c :: s) := by
  cases hc : isBlank c with
  | true =>
    rw [joined_cons_of_isBlank hc]
  | false =>
    rw [joined_cons hc]
    exact (List.suffix_append _ _).trans (List.suffix_cons _ _)

theorem joined_prefix_append (s t : List Char) : joined s <+: joined (s ++ t) := by
  induction s with
  | nil => exact List.nil_prefix
  | cons c s ih =>
    rw [List.cons_append]
    cases hc : isBlank c with
    | true => rwa [joined_cons_of_isBlank hc, joined_cons_of_isBlank hc]
    | false =>
      rw [joined_cons hc, joined_cons hc, List.cons_prefix_cons]
      refine ⟨rfl, ?_⟩
      cases hempty : joined s with
      | nil => simp [gap, hempty]
      | cons d rest =>
        obtain ⟨e, rest', hlonger⟩ : ∃ e rest', joined (s ++ t) = e :: rest' :=
          List.exists_cons_of_ne_nil fun h => by simp [h, hempty] at ih
        have hgap : gap (s ++ t) = gap s := by
          rw [gap, gap, hempty, hlonger]
          cases s with
          | nil => cases hempty
          | cons x s => rfl
        rw [hgap, ← hempty]
        exact (List.prefix_append_right_inj _).2 ih

/-- A part of a text is a part of the text once both are squeezed. -/
theorem squeeze_infix {part s : List Char} (h : part <:+: s) : squeeze part <:+: squeeze s := by
  have hsuffix : ∀ before t, joined t <:+ joined (before ++ t) := by
    intro before t
    induction before with
    | nil => exact List.suffix_refl _
    | cons c before ih => exact ih.trans (joined_suffix_cons c _)
  obtain ⟨before, after, rfl⟩ := h
  have hparts : squeeze (before ++ part ++ after) = joined (before.filter (!isZeroWidth ·) ++
      (part.filter (!isZeroWidth ·) ++ after.filter (!isZeroWidth ·))) := by
    rw [squeeze, List.filter_append, List.filter_append, List.append_assoc, joined]
  rw [hparts]
  exact (joined_prefix_append _ _).isInfix.trans (hsuffix _ _).isInfix

theorem ends_joined (s : List Char) : (∀ c, (joined s).head? = some c → isBlank c = false) ∧
    ∀ c, (joined s).getLast? = some c → isBlank c = false := by
  induction s with
  | nil => exact ⟨fun _ h => (by cases h), fun _ h => by cases h⟩
  | cons c s ih =>
    cases hc : isBlank c with
    | true => rwa [joined_cons_of_isBlank hc]
    | false =>
      rw [joined_cons hc]
      refine ⟨fun d hd => Option.some.inj hd ▸ hc, fun d hd => ?_⟩
      cases hrest : joined s with
      | nil =>
        have hgap : gap s = [] := by simp [gap, hrest]
        rw [hgap, hrest] at hd
        exact Option.some.inj hd ▸ hc
      | cons e rest =>
        refine ih.2 d ?_
        rwa [← List.cons_append, List.getLast?_append_of_ne_nil _ (by simp [hrest])] at hd

/-- A squeezed text has no blanks at its ends. -/
theorem trim_squeeze (s : List Char) : trim (squeeze s) = squeeze s :=
  trim_eq_self (ends_joined _).1 (ends_joined _).2

end ThemeSection.Chars

namespace ThemeSection.Text

theorem squeeze_squeeze (s : String) : squeeze (squeeze s) = squeeze s := by
  simp only [squeeze, onChars, String.toList_ofList, Chars.squeeze_squeeze]

theorem trim_squeeze (s : String) : trim (squeeze s) = squeeze s := by
  simp only [squeeze, trim, onChars, String.toList_ofList, Chars.trim_squeeze]

/-- A part of a text is a part of the text once both are squeezed. -/
theorem squeeze_infix {part s : String} (h : part.toList <:+: s.toList) :
    (squeeze part).toList <:+: (squeeze s).toList := by
  simpa only [squeeze, toList_onChars] using Chars.squeeze_infix h

end ThemeSection.Text
