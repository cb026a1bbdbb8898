import Mathlib.Data.List.Forall2
import Mathlib.Data.List.Induction
import ThemeSection.Proofs.Chars.Blank

/-!
Lines. A line is what stands between two line feeds, less a carriage return at its end. What holds
of all that stands between line feeds, and goes on to hold when blanks are taken from the ends,
holds of the trimmed text too.
-/

namespace ThemeSection.Chars

theorem splitFirst_singleton_of_not_mem {c : Char} {s : List Char} (hc : c ∉ s)
    (rest : List Char) : splitFirst [c] (s ++ c :: rest) = some (s, rest) := by
  have hnone : contains [c] s = false :=
    contains_eq_false_iff.2 fun h => hc (h.subset (List.mem_singleton_self c))
  exact (splitFirst_append_iff List.not_mem_nil).2 hnone

theorem strip?_concat {needle : List Char} {c : Char} (hc : c ∉ needle) (s : List Char) :
    strip? needle (s ++ [c]) = (strip? needle s).map (· ++ [c]) := by
  induction needle generalizing s with
  | nil => rfl
  | cons d needle ih =>
    obtain ⟨hd, hneedle⟩ := List.ne_and_not_mem_of_not_mem_cons hc
    cases s with
    | nil => simp [strip?, List.isPrefixOf?, hd.symm]
    | cons e s =>
      by_cases hde : d = e
      · simpa [strip?, List.isPrefixOf?, hde] using ih hneedle s
      · simp [strip?, List.isPrefixOf?, hde]

/-- A character that is not in a needle, at the end of a text, does not matter for where the needle
is found. -/
theorem splitFirst_concat {needle : List Char} {c : Char} (hc : c ∉ needle) (hne : needle ≠ [])
    (s : List Char) :
    splitFirst needle (s ++ [c]) =
      (splitFirst needle s).map fun (before, rest) => (before, rest ++ [c]) := by
  have hnil : strip? needle [] = none := by
    cases needle with
    | nil => exact absurd rfl hne
    | cons => rfl
  induction s with
  | nil =>
    have hone := strip?_concat hc []
    rw [List.nil_append, hnil, Option.map_none] at hone
    rw [List.nil_append, splitFirst, hnil, splitFirst, hone, splitFirst, hnil]
    rfl
  | cons d s ih =>
    have hstrip := strip?_concat hc (d :: s)
    rw [List.cons_append] at hstrip
    rw [List.cons_append, splitFirst, hstrip, splitFirst, ih]
    cases strip? needle (d :: s) with
    | some rest => rfl
    | none => cases splitFirst needle s <;> rfl

/-- Where a needle is first found does not depend on what comes after it. -/
theorem splitFirst_append_of_some {needle before rest : List Char}
    (h : splitFirst needle (before ++ (needle ++ rest)) = some (before, rest)) (other : List Char) :
    splitFirst needle (before ++ (needle ++ other)) = some (before, other) := by
  obtain ⟨first, more, hfirst, hlength⟩ := exists_splitFirst needle before other
  rw [hfirst]
  have heq := eq_of_splitFirst hfirst
  obtain ⟨gap, rfl⟩ : first <+: before := by
    rw [List.prefix_iff_eq_take]
    have htake := congrArg (List.take first.length) heq
    rwa [List.take_append_of_le_length hlength, List.take_left, eq_comm] at htake
  -- An earlier occurrence would end before `rest` starts.
  have hearlier : needle <+: gap ++ needle := by
    rw [List.append_assoc, List.append_cancel_left_eq] at heq
    rw [List.prefix_iff_eq_take]
    have htake := congrArg (List.take needle.length) heq
    rwa [← List.append_assoc, List.take_append_of_le_length (by simp), List.take_left,
      eq_comm] at htake
  obtain ⟨tail, htail⟩ := hearlier
  obtain ⟨found, _, hfound, hle⟩ := exists_splitFirst needle first (tail ++ rest)
  have hsame : first ++ (needle ++ (tail ++ rest)) = first ++ gap ++ (needle ++ rest) := by
    rw [← List.append_assoc needle, htail]
    simp
  rw [hsame, h] at hfound
  obtain ⟨rfl, -⟩ := Prod.mk.inj (Option.some.inj hfound)
  obtain rfl : gap = [] := List.eq_nil_of_length_eq_zero (by
    rw [List.length_append] at hle
    omega)
  rw [List.append_nil] at heq ⊢
  rw [List.append_cancel_left (List.append_cancel_left heq)]

/-- What stands between the line feeds of a text. -/
def pieces (s : List Char) : List (List Char) :=
  splitWhere (· == '\n') s

theorem pieces_append_newline (a b : List Char) :
    pieces (a ++ '\n' :: b) = pieces a ++ pieces b :=
  splitWhere_append_cons (by decide) a b

theorem pieces_of_not_mem {s : List Char} (h : '\n' ∉ s) : pieces s = [s] :=
  splitWhere_eq_singleton fun c hc => by
    rw [beq_eq_false_iff_ne]
    rintro rfl
    exact h hc

theorem pieces_cons_newline (s : List Char) : pieces ('\n' :: s) = [] :: pieces s :=
  pieces_append_newline [] s

/-- A character that is no line feed stands on the first piece. -/
theorem exists_pieces_cons {c : Char} (hc : c ≠ '\n') (s : List Char) :
    ∃ piece others, pieces s = piece :: others ∧ pieces (c :: s) = (c :: piece) :: others := by
  cases hs : pieces s with
  | nil => exact absurd hs (splitWhere_ne_nil _ s)
  | cons piece others =>
    refine ⟨piece, others, rfl, ?_⟩
    rw [pieces] at hs ⊢
    rw [splitWhere, if_neg (by simpa using hc), hs]

/-- A character that is no line feed, at the end, stands on the last piece. -/
theorem exists_pieces_concat {c : Char} (hc : c ≠ '\n') (s : List Char) :
    ∃ others piece, pieces s = others ++ [piece] ∧
      pieces (s ++ [c]) = others ++ [piece ++ [c]] := by
  induction s with
  | nil => exact ⟨[], [], rfl, pieces_of_not_mem (by simpa using hc.symm)⟩
  | cons d s ih =>
    obtain ⟨others, piece, hs, hconcat⟩ := ih
    by_cases hd : d = '\n'
    · subst hd
      refine ⟨[] :: others, piece, ?_, ?_⟩
      · rw [pieces_cons_newline, hs, List.cons_append]
      · rw [List.cons_append, pieces_cons_newline, hconcat, List.cons_append]
    · obtain ⟨first, rest, hfirst, hcons⟩ := exists_pieces_cons hd s
      obtain ⟨first', rest', hfirst', hcons'⟩ := exists_pieces_cons hd (s ++ [c])
      rw [hs] at hfirst
      rw [hconcat] at hfirst'
      cases others with
      | nil =>
        obtain ⟨rfl, rfl⟩ := List.cons.inj hfirst
        obtain ⟨rfl, rfl⟩ := List.cons.inj hfirst'
        exact ⟨[], d :: piece, hcons, hcons'⟩
      | cons other others =>
        obtain ⟨rfl, rfl⟩ := List.cons.inj hfirst
        obtain ⟨rfl, rfl⟩ := List.cons.inj hfirst'
        exact ⟨(d :: other) :: others, piece, hcons, hcons'⟩

/-- Texts joined by line feeds have the pieces of all of them. -/
theorem pieces_intercalate_eq_flatMap {texts : List (List Char)} (hne : texts ≠ []) :
    pieces (['\n'].intercalate texts) = texts.flatMap pieces :=
  splitWhere_intercalate_eq_flatMap (by decide) hne

/-- Texts without line feeds are the pieces of what they make when they are joined by line feeds. -/
theorem pieces_intercalate {texts : List (List Char)} (hne : texts ≠ [])
    (h : ∀ text ∈ texts, '\n' ∉ text) : pieces (['\n'].intercalate texts) = texts := by
  refine splitWhere_intercalate (by decide) hne fun text htext c hc => ?_
  rw [beq_eq_false_iff_ne]
  rintro rfl
  exact h text htext hc

/-- The pieces of a text make the text when they are joined by line feeds. -/
theorem intercalate_pieces (s : List Char) : ['\n'].intercalate (pieces s) = s := by
  induction s with
  | nil => rfl
  | cons c s ih =>
    by_cases hc : c = '\n'
    · have hne : pieces s ≠ [] := splitWhere_ne_nil _ s
      rw [hc, pieces_cons_newline, List.intercalate_cons_of_ne_nil hne]
      exact congrArg ('\n' :: ·) ih
    · obtain ⟨piece, others, hs, hcons⟩ := exists_pieces_cons hc s
      rw [hs] at ih
      rw [hcons, ← ih]
      cases others with
      | nil => simp
      | cons other others => simp [List.intercalate_cons_cons]

theorem eq_nil_of_lines_eq_nil {s : List Char} (h : lines s = []) : s = [] := by
  unfold lines at h
  split at h
  case h_1 => rfl
  case h_2 => cases h
  case h_3 => cases h
  case h_4 => split at h <;> cases h

/-- Whether a line is what a piece gives: the piece, less a carriage return at its end. -/
def IsLineOf (line piece : List Char) : Prop :=
  piece = line ∨ piece = line ++ ['\r']

/-- The lines of a text come from its pieces, one from each; only an empty last piece makes no line.
-/
theorem exists_pieces_of_lines (s : List Char) :
    ∃ others rest, pieces s = others ++ rest ∧ (∀ piece ∈ rest, piece = []) ∧
      List.Forall₂ IsLineOf (lines s) others := by
  fun_induction lines s with
  | case1 => exact ⟨[], [[]], rfl, by simp, .nil⟩
  | case2 s ih =>
    obtain ⟨others, rest, hpieces, hrest, hlines⟩ := ih
    exact ⟨[] :: others, rest, by rw [pieces_cons_newline, hpieces, List.cons_append], hrest,
      .cons (Or.inl rfl) hlines⟩
  | case3 s ih =>
    obtain ⟨others, rest, hpieces, hrest, hlines⟩ := ih
    have hfirst : pieces ('\r' :: '\n' :: s) = ['\r'] :: pieces s :=
      pieces_append_newline ['\r'] s
    exact ⟨['\r'] :: others, rest, by rw [hfirst, hpieces, List.cons_append], hrest,
      .cons (Or.inr rfl) hlines⟩
  | case4 c s hfeed hreturn hs ih =>
    obtain rfl := eq_nil_of_lines_eq_nil hs
    have hc : '\n' ∉ [c] := fun hmem => hfeed (List.mem_singleton.1 hmem).symm
    exact ⟨[[c]], [], pieces_of_not_mem hc, List.forall_mem_nil _, .cons (Or.inl rfl) .nil⟩
  | case5 c s hfeed hreturn first lines hs ih =>
    obtain ⟨others, rest, hpieces, hrest, hlines⟩ := ih
    rw [hs] at hlines
    obtain ⟨piece, others, hfirst, hothers, rfl⟩ := List.forall₂_cons_left_iff.1 hlines
    obtain ⟨piece', others', hpieces', hcons⟩ := exists_pieces_cons (c := c) (fun hc => hfeed hc) s
    rw [hpieces, List.cons_append] at hpieces'
    obtain ⟨rfl, rfl⟩ := List.cons.inj hpieces'
    refine ⟨(c :: piece) :: others, rest, hcons, hrest, .cons ?_ hothers⟩
    exact hfirst.imp (congrArg (c :: ·)) (congrArg (c :: ·))

theorem exists_of_mem_of_forall₂ {α β : Type} {R : α → β → Prop} {as : List α} {bs : List β} {a : α}
    (h : List.Forall₂ R as bs) (ha : a ∈ as) : ∃ b ∈ bs, R a b := by
  induction h with
  | nil => cases ha
  | cons hR _ ih =>
    rcases List.mem_cons.1 ha with rfl | ha
    · exact ⟨_, List.mem_cons_self, hR⟩
    · obtain ⟨b, hb, hR⟩ := ih ha
      exact ⟨b, List.mem_cons_of_mem _ hb, hR⟩

theorem exists_piece_of_mem_lines {line s : List Char} (h : line ∈ lines s) :
    ∃ piece ∈ pieces s, IsLineOf line piece := by
  obtain ⟨others, rest, hpieces, -, hlines⟩ := exists_pieces_of_lines s
  obtain ⟨piece, hpiece, hline⟩ := exists_of_mem_of_forall₂ hlines h
  exact ⟨piece, hpieces ▸ List.mem_append_left _ hpiece, hline⟩

/-- Each piece has no line feed; one stands before it, unless it starts the text, and one after it,
unless it ends the text. -/
theorem exists_append_of_mem_pieces {piece s : List Char} (h : piece ∈ pieces s) :
    '\n' ∉ piece ∧ ∃ a b, s = a ++ (piece ++ b) ∧ (a = [] ∨ a.getLast? = some '\n') ∧
      (b = [] ∨ b.head? = some '\n') := by
  by_cases hfeed : '\n' ∈ s
  · obtain ⟨first, rest, rfl, hfirst⟩ := List.eq_append_cons_of_mem hfeed
    rw [pieces_append_newline, pieces_of_not_mem hfirst, List.singleton_append] at h
    rcases List.mem_cons.1 h with rfl | h
    · exact ⟨hfirst, [], '\n' :: rest, rfl, Or.inl rfl, Or.inr rfl⟩
    · obtain ⟨hpiece, a, b, rfl, ha, hb⟩ := exists_append_of_mem_pieces h
      refine ⟨hpiece, first ++ '\n' :: a, b, by simp, Or.inr ?_, hb⟩
      rw [List.getLast?_append, List.getLast?_cons]
      rcases ha with rfl | ha
      · rfl
      · rw [ha]
        rfl
  · rw [pieces_of_not_mem hfeed] at h
    obtain rfl := List.mem_singleton.1 h
    exact ⟨hfeed, [], [], by simp, Or.inl rfl, Or.inl rfl⟩
termination_by s.length
decreasing_by simp_all +arith

theorem infix_of_mem_pieces {piece s : List Char} (h : piece ∈ pieces s) : piece <:+: s := by
  obtain ⟨-, a, b, rfl, -⟩ := exists_append_of_mem_pieces h
  exact ⟨a, b, by simp⟩

theorem IsLineOf.isPrefix {line piece : List Char} (h : IsLineOf line piece) : line <+: piece := by
  rcases h with rfl | rfl
  · exact List.prefix_rfl
  · exact List.prefix_append _ _

theorem infix_of_mem_lines {line s : List Char} (h : line ∈ lines s) : line <:+: s := by
  obtain ⟨piece, hpiece, hline⟩ := exists_piece_of_mem_lines h
  exact hline.isPrefix.isInfix.trans (infix_of_mem_pieces hpiece)

theorem newline_not_mem_of_mem_lines {line s : List Char} (h : line ∈ lines s) : '\n' ∉ line := by
  obtain ⟨piece, hpiece, hline⟩ := exists_piece_of_mem_lines h
  exact fun hmem => (exists_append_of_mem_pieces hpiece).1 (hline.isPrefix.subset hmem)

/-- A line feed ends a line that has none, and no carriage return at its end. -/
theorem lines_append_newline_of_getLast? {line : List Char} (hfeed : '\n' ∉ line)
    (hreturn : line.getLast? ≠ some '\r') (rest : List Char) :
    lines (line ++ '\n' :: rest) = line :: lines rest := by
  induction line with
  | nil => rw [List.nil_append, lines]
  | cons c line ih =>
    obtain ⟨hc, hline⟩ := List.ne_and_not_mem_of_not_mem_cons hfeed
    have hlast : line.getLast? ≠ some '\r' := by
      cases line with
      | nil => simp
      | cons d line => simpa using hreturn
    rw [List.cons_append, lines.eq_def]
    split
    case h_1 hnil => cases hnil
    case h_2 hcons => exact absurd (List.cons.inj hcons).1.symm hc
    case h_3 hcons =>
      -- The line feed after the return is not in the line, so the line is the return.
      obtain ⟨rfl, hrest⟩ := List.cons.inj hcons
      cases line with
      | nil => exact absurd rfl hreturn
      | cons d line => exact absurd (List.cons.inj hrest).1 (by rintro rfl; simp at hline)
    case h_4 hcons =>
      obtain ⟨rfl, rfl⟩ := List.cons.inj hcons
      rw [ih hline hlast]

theorem lines_of_not_mem {line : List Char} (hne : line ≠ []) (hfeed : '\n' ∉ line) :
    lines line = [line] := by
  induction line with
  | nil => exact absurd rfl hne
  | cons c line ih =>
    obtain ⟨hc, hline⟩ := List.ne_and_not_mem_of_not_mem_cons hfeed
    rw [lines.eq_def]
    split
    case h_1 hnil => cases hnil
    case h_2 hcons => exact absurd (List.cons.inj hcons).1.symm hc
    case h_3 hcons =>
      obtain ⟨rfl, rfl⟩ := List.cons.inj hcons
      simp at hline
    case h_4 hcons =>
      obtain ⟨rfl, rfl⟩ := List.cons.inj hcons
      cases line with
      | nil => simp [lines]
      | cons d line => rw [ih (List.cons_ne_nil _ _) hline]

/-- Texts that are lines are the lines of what they make when they are joined by line feeds. -/
theorem lines_intercalate {texts : List (List Char)} (hne : ∀ text ∈ texts, text ≠ [])
    (hfeed : ∀ text ∈ texts, '\n' ∉ text) (hreturn : ∀ text ∈ texts, text.getLast? ≠ some '\r') :
    lines (['\n'].intercalate texts) = texts := by
  induction texts with
  | nil => simp [List.intercalate, lines]
  | cons text rest ih =>
    obtain ⟨hneText, hneRest⟩ := List.forall_mem_cons.1 hne
    obtain ⟨hfeedText, hfeedRest⟩ := List.forall_mem_cons.1 hfeed
    obtain ⟨hreturnText, hreturnRest⟩ := List.forall_mem_cons.1 hreturn
    cases rest with
    | nil => simpa [List.intercalate] using lines_of_not_mem hneText hfeedText
    | cons next rest =>
      rw [List.intercalate_cons_cons, List.append_assoc, List.singleton_append,
        lines_append_newline_of_getLast? hfeedText hreturnText, ih hneRest hfeedRest hreturnRest]

theorem IsLineOf.trim_eq {line piece : List Char} (h : IsLineOf line piece) :
    trim line = trim piece := by
  rcases h with rfl | rfl
  · rfl
  · exact (trim_concat (by decide) line).symm

/-- Trimmed lines and trimmed pieces are the same, but for empty ones. -/
theorem filter_trim_lines (s : List Char) :
    ((lines s).map trim).filter (!·.isEmpty) = ((pieces s).map trim).filter (!·.isEmpty) := by
  obtain ⟨others, rest, hpieces, hrest, hlines⟩ := exists_pieces_of_lines s
  have hsame : (lines s).map trim = others.map trim := by
    rw [← List.forall₂_eq_eq_eq, List.forall₂_map_left_iff, List.forall₂_map_right_iff]
    exact hlines.imp fun _ _ hline => hline.trim_eq
  have hempty : (rest.map trim).filter (!·.isEmpty) = [] :=
    List.filter_eq_nil_iff.2 (List.forall_mem_map.2 fun piece hpiece => by
      rw [hrest piece hpiece]
      decide)
  rw [hpieces, List.map_append, List.filter_append, hempty, List.append_nil, hsame]

section

variable {P : List Char → Prop} (hstart : ∀ c line, isBlank c → P (c :: line) → P line)
  (hend : ∀ line c, isBlank c → P (line ++ [c]) → P line)

include hstart in
theorem forall_pieces_trimStart {s : List Char} (h : ∀ piece ∈ pieces s, P piece) :
    ∀ piece ∈ pieces (trimStart s), P piece := by
  induction s with
  | nil => exact h
  | cons c s ih =>
    rw [trimStart, List.dropWhile_cons]
    split
    case isFalse => exact h
    case isTrue hblank =>
      refine ih ?_
      by_cases hc : c = '\n'
      · rw [hc, pieces_cons_newline] at h
        exact (List.forall_mem_cons.1 h).2
      · obtain ⟨piece, others, hpieces, hcons⟩ := exists_pieces_cons hc s
        rw [hcons] at h
        obtain ⟨hpiece, hothers⟩ := List.forall_mem_cons.1 h
        rw [hpieces]
        exact List.forall_mem_cons.2 ⟨hstart c piece hblank hpiece, hothers⟩

include hend in
theorem forall_pieces_trimEnd {s : List Char} (h : ∀ piece ∈ pieces s, P piece) :
    ∀ piece ∈ pieces (trimEnd s), P piece := by
  induction s using List.reverseRecOn with
  | nil => exact h
  | append_singleton s c ih =>
    rw [trimEnd_concat]
    split
    case isFalse => exact h
    case isTrue hblank =>
      refine ih ?_
      by_cases hc : c = '\n'
      · rw [hc, pieces_append_newline] at h
        exact (List.forall_mem_append.1 h).1
      · obtain ⟨others, piece, hpieces, hconcat⟩ := exists_pieces_concat hc s
        rw [hconcat] at h
        obtain ⟨hothers, hpiece⟩ := List.forall_mem_append.1 h
        rw [hpieces]
        refine List.forall_mem_append.2 ⟨hothers, ?_⟩
        rw [List.forall_mem_singleton] at hpiece ⊢
        exact hend piece c hblank hpiece

include hstart hend in
/-- What goes on to hold of a piece when blanks are taken from its ends holds of the pieces of the
trimmed text. -/
theorem forall_pieces_trim {s : List Char} (h : ∀ piece ∈ pieces s, P piece) :
    ∀ piece ∈ pieces (trim s), P piece :=
  forall_pieces_trimEnd hend (forall_pieces_trimStart hstart h)

end

end ThemeSection.Chars
