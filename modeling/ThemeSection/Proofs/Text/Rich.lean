import ThemeSection.Proofs.Chars.Squeeze
import ThemeSection.Proofs.Liquid.Written
import ThemeSection.Text.Basic

/-!
Rich text tells its paragraphs. Each of them stands in it, escaped, and where no paragraph has a brace
there is no template syntax in all of it. As no escaped text has an angle bracket, the tags of a rich
text are those that were put around its paragraphs, and each comes out of its escapes as it went in:
rich text loses nothing but white space.
-/

namespace ThemeSection

namespace Chars

variable {needle piece : List Char}

theorem replaceAll_go_append (a s : List Char) :
    replaceAll.go needle piece a.length (a ++ s) = replaceAll.go needle piece 0 s := by
  induction a with
  | nil => rfl
  | cons c a ih => exact ih

/-- A needle at the start of a text is replaced. -/
theorem replaceAll_append (hne : needle ≠ []) (s : List Char) :
    replaceAll needle piece (needle ++ s) = piece ++ replaceAll needle piece s := by
  cases needle with
  | nil => exact absurd rfl hne
  | cons c cs =>
    have hprefix : (c :: cs).isPrefixOf (c :: (cs ++ s)) :=
      List.isPrefixOf_iff_prefix.2 (List.prefix_append (c :: cs) s)
    rw [replaceAll, List.cons_append, replaceAll.go, if_pos hprefix]
    exact congrArg (piece ++ ·) (replaceAll_go_append cs s)

/-- A character with which no needle starts stays. -/
theorem replaceAll_cons {c : Char} {s : List Char} (h : ¬ needle <+: c :: s) :
    replaceAll needle piece (c :: s) = c :: replaceAll needle piece s := by
  rw [replaceAll, replaceAll.go, if_neg (mt List.isPrefixOf_iff_prefix.1 h)]
  rfl

theorem replaceAll_append_of_not_mem {c : Char} {cs a : List Char} (h : c ∉ a) (s : List Char) :
    replaceAll (c :: cs) piece (a ++ s) = a ++ replaceAll (c :: cs) piece s := by
  induction a with
  | nil => rfl
  | cons d a ih =>
    obtain ⟨hd, ha⟩ := List.ne_and_not_mem_of_not_mem_cons h
    have hstart : ¬ c :: cs <+: d :: (a ++ s) := fun hprefix =>
      hd (List.cons_prefix_cons.1 hprefix).1
    rw [List.cons_append, replaceAll_cons hstart, ih ha, List.cons_append]

/-- Where it is known what becomes of the image of each character, it is known of a whole text. -/
theorem replaceAll_flatMap {f g : Char → List Char}
    (h : ∀ c rest, replaceAll needle piece (f c ++ rest) = g c ++ replaceAll needle piece rest)
    (s : List Char) : replaceAll needle piece (s.flatMap f) = s.flatMap g := by
  induction s with
  | nil => rfl
  | cons c s ih => rw [List.flatMap_cons, h, ih, List.flatMap_cons]

end Chars

namespace Liquid

theorem hasMarks_of_braceless {text : String} (h : Braceless text.toList) : hasMarks text = false := by
  have hbrace : ∀ mark ∈ marks, mark.toList.any isBrace := by decide
  refine List.any_eq_false.2 fun mark hmark hin => ?_
  obtain ⟨c, hc, hc'⟩ := List.any_eq_true.1 (hbrace mark hmark)
  rw [h c ((Chars.contains_iff.1 hin).subset hc)] at hc'
  cases hc'

theorem Braceless.squeeze {s : List Char} (h : Braceless s) : Braceless (Chars.squeeze s) := by
  intro c hc
  rcases Chars.mem_intercalate hc with rfl | ⟨w, hw, hcw⟩
  · decide
  · exact h c (List.mem_of_mem_filter (Chars.subset_of_mem_words hw hcw))

theorem escapes_html : Escapes Text.escapeHtmlChar where
  braceless := by
    intro c hc
    unfold Text.escapeHtmlChar
    split
    · decide
    · split
      · decide
      · split
        · decide
        · simpa [Braceless] using hc
  brace := by
    intro c hc
    have hcases : c = '\x7b' ∨ c = '\x7d' := by simpa [isBrace] using hc
    rcases hcases with rfl | rfl <;> rfl
  bare := by
    intro c hc
    obtain ⟨hamp, hless, hgreater, -, -⟩ := isBare_of hc
    simp [Text.escapeHtmlChar, hamp, hless, hgreater]

end Liquid

namespace Text

variable {part text : String} {paragraphs : List String}

/-- A part of a text is escaped with it. -/
theorem escapeHtml_infix (h : part.toList <:+: text.toList) :
    (escapeHtml part).toList <:+: (escapeHtml text).toList := by
  obtain ⟨before, after, heq⟩ := h
  rw [escapeHtml, toList_onChars, toList_onChars, ← heq, List.flatMap_append, List.flatMap_append]
  exact ⟨_, _, rfl⟩

/-- The paragraphs that rich text is made of. -/
theorem toList_rich (paragraphs : List String) : (rich paragraphs).toList =
    ((paragraphs.map squeeze).filter (!·.isEmpty)).flatMap fun paragraph =>
      '<' :: ("p>".toList ++ (escapeHtml paragraph).toList ++ "</p".toList ++ ['>']) := by
  rw [rich, String.toList_join, List.flatMap_map]
  refine List.flatMap_congr fun paragraph _ => ?_
  simp

theorem trim_rich (paragraphs : List String) : trim (rich paragraphs) = rich paragraphs := by
  have htrim : Chars.trim (rich paragraphs).toList = (rich paragraphs).toList := by
    rw [toList_rich]
    refine Chars.trim_eq_self (fun c hc => ?_) fun c hc => ?_
    · rw [List.head?_flatMap] at hc
      obtain ⟨paragraph, -, hfirst⟩ := List.exists_of_findSome?_eq_some hc
      exact Option.some.inj hfirst ▸ (by decide)
    · rw [List.getLast?_flatMap] at hc
      obtain ⟨paragraph, -, hlast⟩ := List.exists_of_findSome?_eq_some hc
      rw [← List.cons_append, List.getLast?_concat] at hlast
      exact Option.some.inj hlast ▸ (by decide)
  rw [trim, onChars, htrim, String.ofList_toList]

/-- A paragraph that says something stands in the rich text. -/
theorem rich_infix (hmem : text ∈ paragraphs) (hsqueezed : squeeze text = text) (hne : text ≠ "") :
    (escapeHtml text).toList <:+: (rich paragraphs).toList := by
  have hkept : text ∈ (paragraphs.map squeeze).filter (!·.isEmpty) :=
    List.mem_filter.2 ⟨List.mem_map.2 ⟨text, hmem, hsqueezed⟩, by simpa using hne⟩
  obtain ⟨before, after, heq⟩ := List.append_of_mem hkept
  rw [toList_rich, heq, List.flatMap_append, List.flatMap_cons]
  refine List.IsInfix.trans ?_ (List.infix_append' _ _ _)
  refine ⟨'<' :: "p>".toList, "</p".toList ++ ['>'], ?_⟩
  simp

theorem braceless_rich (h : ∀ text ∈ paragraphs, Liquid.Braceless text.toList) :
    Liquid.Braceless (rich paragraphs).toList := by
  have hescaped : ∀ paragraph ∈ paragraphs.map squeeze,
      Liquid.Braceless (escapeHtml paragraph).toList := by
    refine List.forall_mem_map.2 fun text htext => ?_
    rw [escapeHtml, toList_onChars, squeeze, toList_onChars]
    exact Liquid.escapes_html.flatMap_braceless (h text htext).squeeze
  intro c hc
  rw [toList_rich] at hc
  obtain ⟨paragraph, hkept, hc⟩ := List.mem_flatMap.1 hc
  have hmarkup : Liquid.Braceless "p>".toList ∧ Liquid.Braceless "</p".toList ∧
      Liquid.Braceless ['>'] ∧ Liquid.Braceless ['<'] := by decide
  obtain ⟨hopen, hclose, hlast, hfirst⟩ := hmarkup
  exact (hfirst.append (((hopen.append (hescaped _ (List.mem_of_mem_filter hkept))).append
    hclose).append hlast)) c hc

/-- The text that an escaped text stands for. The ampersand comes last: what it brings back is no escape
that is still to be replaced. -/
def unescapeHtml (s : String) : String :=
  replaceAll "&amp;" "&" (replaceAll "&gt;" ">" (replaceAll "&lt;" "<" s))

/-- The characters that have an escape. -/
def escaped : List Char := ['<', '>', '&']

/-- The escape of a character, if it is one of those that are still to be brought back. -/
def escapeOnly (left : List Char) (c : Char) : List Char :=
  if c ∈ left then escapeHtmlChar c else [c]

theorem escapeOnly_escaped : escapeOnly escaped = escapeHtmlChar := by
  funext c
  unfold escapeOnly
  split
  · rfl
  case isFalse h =>
    simp only [escaped, List.mem_cons, List.not_mem_nil, or_false, not_or] at h
    simp [escapeHtmlChar, h]

theorem escapeOnly_nil (s : List Char) : s.flatMap (escapeOnly []) = s := by
  have hsame : escapeOnly [] = fun c => [c] := by
    funext c
    exact if_neg List.not_mem_nil
  rw [hsame, List.flatMap_singleton']

/-- An escape is an ampersand with a name, in which there is no other one. -/
theorem exists_escapeHtmlChar {c : Char} (h : c ∈ escaped) :
    ∃ name, escapeHtmlChar c = '&' :: name ∧ '&' ∉ name := by
  have hall : ∀ c ∈ escaped, escapeHtmlChar c = '&' :: (escapeHtmlChar c).tail ∧
      '&' ∉ (escapeHtmlChar c).tail := by decide
  exact ⟨_, hall c h⟩

/-- No escape starts like that of another character. -/
theorem not_prefix_escapeHtmlChar {c d : Char} (hc : c ∈ escaped) (hd : d ∈ escaped) (hne : c ≠ d)
    (rest : List Char) : ¬ escapeHtmlChar c <+: escapeHtmlChar d ++ rest := by
  have hall : ∀ c ∈ escaped, ∀ d ∈ escaped, c ≠ d →
      (escapeHtmlChar c).take 2 ≠ (escapeHtmlChar d).take 2 ∧ 2 ≤ (escapeHtmlChar c).length ∧
        2 ≤ (escapeHtmlChar d).length := by decide
  obtain ⟨hstart, hlong, hlong'⟩ := hall c hc d hd hne
  rintro ⟨more, hmore⟩
  have htake := congrArg (List.take 2) hmore
  rw [List.take_append_of_le_length hlong, List.take_append_of_le_length hlong'] at htake
  exact hstart htake

/-- One kind of escape is brought back, and nothing else, while ampersands are still escaped. -/
theorem replaceAll_escapeOnly {c : Char} {left : List Char} (hc : c ∈ escaped)
    (hleft : ∀ d ∈ left, d ∈ escaped ∧ c ≠ d) (hand : '&' ∈ c :: left) (s : List Char) :
    Chars.replaceAll (escapeHtmlChar c) [c] (s.flatMap (escapeOnly (c :: left))) =
      s.flatMap (escapeOnly left) := by
  obtain ⟨name, hname, -⟩ := exists_escapeHtmlChar hc
  refine Chars.replaceAll_flatMap (fun d rest => ?_) s
  by_cases hd : d ∈ left
  · obtain ⟨hescaped, hne⟩ := hleft d hd
    obtain ⟨name', hname', hbare⟩ := exists_escapeHtmlChar hescaped
    have hstart := not_prefix_escapeHtmlChar hc hescaped hne rest
    rw [escapeOnly, if_pos (List.mem_cons_of_mem c hd), escapeOnly, if_pos hd]
    rw [hname', List.cons_append] at hstart ⊢
    rw [Chars.replaceAll_cons hstart, hname, Chars.replaceAll_append_of_not_mem hbare,
      List.cons_append]
  · rw [escapeOnly, escapeOnly, if_neg hd]
    by_cases hdc : d = c
    · rw [hdc, if_pos List.mem_cons_self, Chars.replaceAll_append (by simp [hname])]
    · have hall : d ∉ c :: left := List.not_mem_cons_of_ne_of_not_mem hdc hd
      have hplain : '&' ∉ [d] := fun h => hall (List.mem_singleton.1 h ▸ hand)
      rw [if_neg hall, hname, Chars.replaceAll_append_of_not_mem hplain]

/-- Escaping loses nothing. -/
theorem unescapeHtml_escapeHtml (s : String) : unescapeHtml (escapeHtml s) = s := by
  have hless : Chars.replaceAll (escapeHtmlChar '<') ['<'] (s.toList.flatMap (escapeOnly escaped)) =
      s.toList.flatMap (escapeOnly ['>', '&']) :=
    replaceAll_escapeOnly (by decide) (by decide) (by decide) s.toList
  have hgreater : Chars.replaceAll (escapeHtmlChar '>') ['>']
      (s.toList.flatMap (escapeOnly ['>', '&'])) = s.toList.flatMap (escapeOnly ['&']) :=
    replaceAll_escapeOnly (by decide) (by decide) (by decide) s.toList
  have hand : Chars.replaceAll (escapeHtmlChar '&') ['&'] (s.toList.flatMap (escapeOnly ['&'])) =
      s.toList.flatMap (escapeOnly []) :=
    replaceAll_escapeOnly (by decide) (by decide) (by decide) s.toList
  rw [← String.toList_inj]
  simp only [unescapeHtml, replaceAll, toList_onChars, escapeHtml, ← escapeOnly_escaped]
  calc _ = Chars.replaceAll (escapeHtmlChar '&') ['&'] (Chars.replaceAll (escapeHtmlChar '>') ['>']
          (Chars.replaceAll (escapeHtmlChar '<') ['<'] (s.toList.flatMap (escapeOnly escaped)))) := rfl
    _ = s.toList.flatMap (escapeOnly []) := by rw [hless, hgreater, hand]
    _ = s.toList := escapeOnly_nil s.toList

/-- The paragraphs of a rich text: what stands up to each closing tag, without the opening tag and out of
its escapes. -/
def readRich (markup : List Char) : List String :=
  match _hfirst : Chars.splitFirst "</p>".toList markup with
  | none => []
  | some (text, rest) =>
    unescapeHtml (String.ofList ((Chars.strip? "<p>".toList text).getD text)) :: readRich rest
termination_by markup.length
decreasing_by
  have htag : 0 < "</p>".toList.length := by decide
  rw [Chars.eq_of_splitFirst _hfirst, List.length_append, List.length_append]
  omega

theorem bracket_not_mem_escapeHtml (s : String) : '<' ∉ (escapeHtml s).toList := by
  rw [escapeHtml, toList_onChars, List.mem_flatMap]
  rintro ⟨c, -, hc⟩
  by_cases hescaped : c ∈ escaped
  · have hall : ∀ c ∈ escaped, '<' ∉ escapeHtmlChar c := by decide
    exact hall c hescaped hc
  · rw [← escapeOnly_escaped, escapeOnly, if_neg hescaped, List.mem_singleton] at hc
    exact hescaped (hc ▸ (by decide))

/-- A text without a bracket is read back from between the tags. -/
theorem readRich_append {text : List Char} (h : '<' ∉ text) (rest : List Char) :
    readRich ("<p>".toList ++ (text ++ ("</p>".toList ++ rest))) =
      unescapeHtml (String.ofList text) :: readRich rest := by
  have hinside : Chars.contains "</p>".toList ("<p>".toList ++ text) = false := by
    have hstart : ¬ '<' :: "/p>".toList <+: '<' :: ("p>".toList ++ text) := by simp
    have hplain : '<' ∉ "p>".toList ++ text := by simpa using h
    have hnone : Chars.contains "</p>".toList ("p>".toList ++ text ++ []) = false :=
      Chars.contains_append_left hplain
    rw [List.append_nil] at hnone
    exact (Chars.contains_cons_of_not_start hstart).trans hnone
  have hfirst : Chars.splitFirst "</p>".toList ("<p>".toList ++ (text ++ ("</p>".toList ++ rest))) =
      some ("<p>".toList ++ text, rest) := by
    rw [← List.append_assoc]
    exact (Chars.splitFirst_append_iff (by decide)).2 hinside
  have hopen : Chars.strip? "<p>".toList ("<p>".toList ++ text) = some text := Chars.strip?_eq_some.2 rfl
  rw [readRich]
  split
  case h_1 hnone =>
    rw [hfirst] at hnone
    cases hnone
  case h_2 hsome =>
    obtain ⟨rfl, rfl⟩ := Prod.mk.inj (Option.some.inj (hfirst.symm.trans hsome))
    rw [hopen, Option.getD_some]

/-- Each paragraph that is put between tags is read back. -/
theorem readRich_flatMap (texts : List String) :
    readRich (texts.flatMap fun text =>
      "<p>".toList ++ ((escapeHtml text).toList ++ "</p>".toList)) = texts := by
  induction texts with
  | nil =>
    rw [List.flatMap_nil, readRich]
    rfl
  | cons text texts ih =>
    rw [List.flatMap_cons, List.append_assoc, List.append_assoc,
      readRich_append (bracket_not_mem_escapeHtml text), String.ofList_toList,
      unescapeHtml_escapeHtml, ih]

/-- Rich text tells its paragraphs up to white space: two rich texts are the same exactly if the same
paragraphs say something in both, and these are what is read back. -/
theorem rich_lossless (these those : List String) :
    (rich these = rich those ↔
      (these.map squeeze).filter (!·.isEmpty) = (those.map squeeze).filter (!·.isEmpty)) ∧
    readRich (rich these).toList = (these.map squeeze).filter (!·.isEmpty) := by
  have hread (texts : List String) :
      readRich (rich texts).toList = (texts.map squeeze).filter (!·.isEmpty) := by
    have htext := readRich_flatMap ((texts.map squeeze).filter (!·.isEmpty))
    rw [toList_rich]
    refine Eq.trans (congrArg readRich (List.flatMap_congr fun text _ => ?_)) htext
    simp
  refine ⟨⟨fun h => ?_, fun h => ?_⟩, hread these⟩
  · rw [← hread these, ← hread those, h]
  · rw [rich, rich, h]

-- What looks like a tag or an escape is text like any other.
example : rich ["&lt;p>", " ", "a  b"] = "<p>&amp;lt;p&gt;</p><p>a b</p>" := by decide +kernel

end Text

end ThemeSection
