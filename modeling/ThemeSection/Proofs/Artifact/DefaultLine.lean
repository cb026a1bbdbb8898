import ThemeSection.Artifact.QuoteRepair
import ThemeSection.Proofs.Chars.Lines

/-!
Lines that hold the string value of a default: how they are cut, and what becomes of them when their
quotes are escaped. A line whose quotes have been escaped has none left to escape, with or without
blanks at its ends, and it says nothing that it did not say before but backslashes.
-/

namespace ThemeSection.Artifact

theorem escapeQuotes_idempotent (odd : Bool) (s : List Char) :
    escapeQuotes odd (escapeQuotes odd s) = escapeQuotes odd s := by
  fun_induction escapeQuotes odd s with
  | case1 => rfl
  | case2 odd c rest h ih =>
    have hodd : odd = false := by simpa using (Bool.and_eq_true_iff.1 h).2
    subst hodd
    rw [escapeQuotes, if_neg (by decide), escapeQuotes, if_neg (by decide)]
    exact congrArg ('\\' :: '"' :: ·) ih
  | case3 odd c rest h ih => rw [escapeQuotes, if_neg h, ih]

/-- A text without a quote to escape has none in its first part. -/
theorem escapeQuotes_of_prefix {odd : Bool} {p s : List Char} (h : escapeQuotes odd s = s)
    (hp : p <+: s) : escapeQuotes odd p = p := by
  induction p generalizing odd s with
  | nil => rfl
  | cons c p ih =>
    obtain ⟨rest, rfl⟩ := hp
    rw [List.cons_append, escapeQuotes] at h
    rw [escapeQuotes]
    split at h
    case isTrue hquote =>
      obtain rfl := (List.cons.inj h).1
      exact absurd hquote (by simp)
    case isFalse hquote => rw [if_neg hquote, ih (List.cons.inj h).2 (List.prefix_append p rest)]

theorem mem_of_mem_escapeQuotes {c : Char} (hc : c ≠ '\\') {odd : Bool} {s : List Char}
    (h : c ∈ escapeQuotes odd s) : c ∈ s := by
  fun_induction escapeQuotes odd s with
  | case1 => cases h
  | case2 odd d rest hquote ih =>
    obtain rfl : d = '"' := by simpa using (Bool.and_eq_true_iff.1 hquote).1
    rcases List.mem_cons.1 h with rfl | h
    · exact absurd rfl hc
    · exact List.mem_cons.2 ((List.mem_cons.1 h).imp_right ih)
  | case3 odd d rest hquote ih => exact List.mem_cons.2 ((List.mem_cons.1 h).imp_right ih)

section

variable {needle : List Char} (hquote : '"' ∉ needle) (hslash : '\\' ∉ needle)
include hquote hslash

theorem prefix_of_prefix_escapeQuotes {odd : Bool} {s : List Char}
    (h : needle <+: escapeQuotes odd s) : needle <+: s := by
  induction needle generalizing odd s with
  | nil => exact List.nil_prefix
  | cons n needle ih =>
    obtain ⟨hn, hneedle⟩ := List.ne_and_not_mem_of_not_mem_cons hquote
    obtain ⟨hn', hneedle'⟩ := List.ne_and_not_mem_of_not_mem_cons hslash
    cases s with
    | nil => simp [escapeQuotes] at h
    | cons c s =>
      rw [escapeQuotes] at h
      split at h
      · exact absurd (List.cons_prefix_cons.1 h).1.symm hn'
      · obtain ⟨rfl, h⟩ := List.cons_prefix_cons.1 h
        exact List.cons_prefix_cons.2 ⟨rfl, ih hneedle hneedle' h⟩

theorem infix_of_infix_escapeQuotes {odd : Bool} {s : List Char}
    (h : needle <:+: escapeQuotes odd s) : needle <:+: s := by
  induction s generalizing odd with
  | nil => exact h
  | cons c s ih =>
    by_cases hne : needle = []
    · rw [hne]
      exact List.nil_infix
    obtain ⟨n, others, rfl⟩ := List.exists_cons_of_ne_nil hne
    rw [escapeQuotes] at h
    split at h
    case isTrue =>
      -- An occurrence does not start at the backslash, nor at the quote after it.
      rcases List.infix_cons_iff.1 h with h | h
      · exact absurd (List.cons_prefix_cons.1 h).1.symm
          (List.ne_and_not_mem_of_not_mem_cons hslash).1
      rcases List.infix_cons_iff.1 h with h | h
      · exact absurd (List.cons_prefix_cons.1 h).1.symm
          (List.ne_and_not_mem_of_not_mem_cons hquote).1
      · exact (ih h).trans (List.suffix_cons c s).isInfix
    case isFalse =>
      rcases List.infix_cons_iff.1 h with h | h
      · obtain ⟨rfl, h⟩ := List.cons_prefix_cons.1 h
        obtain ⟨-, hquote'⟩ := List.ne_and_not_mem_of_not_mem_cons hquote
        obtain ⟨-, hslash'⟩ := List.ne_and_not_mem_of_not_mem_cons hslash
        exact (List.cons_prefix_cons.2
          ⟨rfl, prefix_of_prefix_escapeQuotes hquote' hslash' h⟩).isInfix
      · exact (ih h).trans (List.suffix_cons c s).isInfix

end

/-- What stands before the value of a default. -/
def defaultName : List Char :=
  "\"default\":".toList

/-- How a line is cut around the string after the first name of a default on it: there are only
blanks between the name and the string, and only a comma and blanks after the string. -/
structure IsCut (line : List Char) (parts : DefaultLine) (start gap blanks : List Char) : Prop where
  first : Chars.splitFirst defaultName line =
    some (start, gap ++ '"' :: (parts.inner ++ '"' :: (parts.after ++ blanks)))
  before : parts.before = start ++ defaultName ++ gap
  gap : ∀ c ∈ gap, Chars.isBlank c
  comma : parts.after = [] ∨ parts.after = [',']
  blanks : ∀ c ∈ blanks, Chars.isBlank c

theorem IsCut.eq_append {line start gap blanks : List Char} {parts : DefaultLine}
    (h : IsCut line parts start gap blanks) :
    line = parts.before ++ '"' :: (parts.inner ++ '"' :: (parts.after ++ blanks)) := by
  rw [Chars.eq_of_splitFirst h.first, h.before]
  simp

/-- A quote that perhaps a comma and blanks come after, cut off as the repair does. -/
theorem splitComma_trimEnd (s : List Char) {comma blanks : List Char}
    (hcomma : comma = [] ∨ comma = [',']) (hblanks : ∀ c ∈ blanks, Chars.isBlank c) :
    splitComma (Chars.trimEnd (s ++ '"' :: (comma ++ blanks))) = (s ++ ['"'], comma) := by
  rcases hcomma with rfl | rfl
  · have hnone : Chars.stripEnd? [','] (s ++ ['"']) = none := by
      refine Option.eq_none_iff_forall_ne_some.2 fun body hbody => ?_
      have hlast := congrArg List.getLast? (Chars.stripEnd?_eq_some.1 hbody)
      simp at hlast
    rw [List.nil_append, Chars.trimEnd_append_blanks (by decide) s hblanks, splitComma, hnone]
  · have happend : s ++ '"' :: ([','] ++ blanks) = (s ++ ['"']) ++ ',' :: blanks := by simp
    rw [happend, Chars.trimEnd_append_blanks (by decide) _ hblanks, splitComma,
      Chars.stripEnd?_append]

theorem splitComma_append (s : List Char) :
    s = (splitComma s).1 ++ (splitComma s).2 ∧
      ((splitComma s).2 = [] ∨ (splitComma s).2 = [',']) := by
  unfold splitComma
  split
  case h_1 body hbody => exact ⟨Chars.stripEnd?_eq_some.1 hbody, Or.inr rfl⟩
  case h_2 => exact ⟨(List.append_nil s).symm, Or.inl rfl⟩

theorem defaultLine?_eq_some_iff {line : List Char} {parts : DefaultLine} :
    defaultLine? line = some parts ↔ ∃ start gap blanks, IsCut line parts start gap blanks := by
  constructor
  · intro h
    simp only [defaultLine?, bind, Option.bind_eq_some_iff, Prod.exists] at h
    obtain ⟨start, rest, hname, gap, rest', hquote, h⟩ := h
    split at h
    case isTrue => cases h
    case isFalse hgap =>
      obtain ⟨inner, hinner, hparts⟩ := Option.bind_eq_some_iff.1 h
      obtain ⟨blanks, hrest, hblanks⟩ := Chars.exists_trimEnd rest'
      obtain ⟨hbody, hcomma⟩ := splitComma_append (Chars.trimEnd rest')
      rw [Chars.stripEnd?_eq_some.1 hinner] at hbody
      rw [hbody] at hrest
      obtain rfl := Option.some.inj hparts
      refine ⟨start, gap, blanks, ?_, rfl, by simpa using hgap, hcomma, hblanks⟩
      have hname : Chars.splitFirst defaultName line = some (start, rest) := hname
      rw [hname, Chars.eq_of_splitFirst hquote]
      simpa using hrest
  · rintro ⟨start, gap, blanks, h⟩
    have hfirst : Chars.splitFirst "\"default\":".toList line =
        some (start, gap ++ '"' :: (parts.inner ++ '"' :: (parts.after ++ blanks))) := h.first
    have hbefore : parts.before = start ++ "\"default\":".toList ++ gap := h.before
    have hquote := Chars.splitFirst_singleton_of_not_mem (c := '"') (s := gap)
      (fun hmem => absurd (h.gap _ hmem) (by decide)) (parts.inner ++ '"' :: (parts.after ++ blanks))
    have hall : gap.all Chars.isBlank = true := List.all_eq_true.2 h.gap
    simp only [defaultLine?, bind, hfirst, hquote, hall, Option.bind_some, Bool.not_true,
      Bool.false_eq_true, if_false, splitComma_trimEnd _ h.comma h.blanks, Chars.stripEnd?_append,
      ← hbefore]
    rfl

theorem repairLine?_eq_some_iff {line fixed : List Char} :
    repairLine? line = some fixed ↔ ∃ parts, defaultLine? line = some parts ∧
      escapeQuotes false parts.inner ≠ parts.inner ∧
      fixed = parts.before ++ '"' :: (escapeQuotes false parts.inner ++ '"' :: parts.after) := by
  simp only [repairLine?, bind, Option.bind_eq_some_iff]
  refine exists_congr fun parts => and_congr_right fun _ => ?_
  by_cases h : escapeQuotes false parts.inner = parts.inner
  · simp [h]
  · simp [h, eq_comm]

theorem repairLine?_eq_none_iff {line : List Char} :
    repairLine? line = none ↔
      ∀ parts, defaultLine? line = some parts → escapeQuotes false parts.inner = parts.inner := by
  rw [Option.eq_none_iff_forall_ne_some]
  constructor
  · intro h parts hparts
    by_contra hne
    exact h _ (repairLine?_eq_some_iff.2 ⟨parts, hparts, hne, rfl⟩)
  · rintro h fixed hfixed
    obtain ⟨parts, hparts, hne, -⟩ := repairLine?_eq_some_iff.1 hfixed
    exact hne (h parts hparts)

/-- A repaired line needs no repair. -/
theorem repairLine?_of_repairLine? {line fixed : List Char} (h : repairLine? line = some fixed) :
    repairLine? fixed = none := by
  obtain ⟨parts, hparts, -, rfl⟩ := repairLine?_eq_some_iff.1 h
  obtain ⟨start, gap, blanks, hcut⟩ := defaultLine?_eq_some_iff.1 hparts
  have hsame : defaultLine? (parts.before ++ '"' ::
      (escapeQuotes false parts.inner ++ '"' :: parts.after)) =
        some { parts with inner := escapeQuotes false parts.inner } := by
    refine defaultLine?_eq_some_iff.2 ⟨start, gap, [], ?_, hcut.before, hcut.gap, hcut.comma,
      List.forall_mem_nil _⟩
    have hfirst := hcut.first
    rw [Chars.eq_of_splitFirst hcut.first] at hfirst
    rw [hcut.before]
    simpa using Chars.splitFirst_append_of_some hfirst
      (gap ++ '"' :: (escapeQuotes false parts.inner ++ '"' :: parts.after))
  refine repairLine?_eq_none_iff.2 fun found hfound => ?_
  obtain rfl := Option.some.inj (hsame.symm.trans hfound)
  exact escapeQuotes_idempotent false parts.inner

/-- A repaired line says nothing new but backslashes. -/
theorem mem_of_mem_repairLine? {c : Char} (hc : c ≠ '\\') {line fixed : List Char}
    (h : repairLine? line = some fixed) (hmem : c ∈ fixed) : c ∈ line := by
  obtain ⟨parts, hparts, -, rfl⟩ := repairLine?_eq_some_iff.1 h
  obtain ⟨start, gap, blanks, hcut⟩ := defaultLine?_eq_some_iff.1 hparts
  rw [hcut.eq_append]
  have hinner : c ∈ escapeQuotes false parts.inner → c ∈ parts.inner := mem_of_mem_escapeQuotes hc
  simp only [List.mem_append, List.mem_cons] at hmem ⊢
  tauto

/-- A repaired line holds no text that it did not hold before, as far as that has no quotes and no
backslashes. -/
theorem contains_of_contains_repairLine? {needle line fixed : List Char} (hquote : '"' ∉ needle)
    (hslash : '\\' ∉ needle) (h : repairLine? line = some fixed)
    (hcontains : Chars.contains needle fixed) : Chars.contains needle line := by
  obtain ⟨parts, hparts, -, rfl⟩ := repairLine?_eq_some_iff.1 h
  obtain ⟨start, gap, blanks, hcut⟩ := defaultLine?_eq_some_iff.1 hparts
  rw [hcut.eq_append]
  rw [Chars.contains_append_cons hquote, Chars.contains_append_cons hquote, Bool.or_eq_true,
    Bool.or_eq_true] at hcontains ⊢
  refine hcontains.imp id (Or.imp (fun hinner => ?_) fun hafter => ?_)
  · exact Chars.contains_iff.2
      (infix_of_infix_escapeQuotes hquote hslash (Chars.contains_iff.1 hinner))
  · exact Chars.contains_iff.2
      ((Chars.contains_iff.1 hafter).trans (List.prefix_append _ _).isInfix)

theorem not_mem_defaultName {c : Char} (h : Chars.isBlank c) : c ∉ defaultName := by
  have hnone : ∀ c ∈ defaultName, Chars.isBlank c = false := by decide
  exact fun hmem => absurd h (by simp [hnone c hmem])

section

variable {line start gap blanks : List Char} {parts : DefaultLine} {c : Char}

theorem IsCut.concat (h : IsCut line parts start gap blanks) (hc : Chars.isBlank c) :
    IsCut (line ++ [c]) parts start gap (blanks ++ [c]) where
  first := by
    rw [Chars.splitFirst_concat (not_mem_defaultName hc) (by decide), h.first]
    simp
  before := h.before
  gap := h.gap
  comma := h.comma
  blanks := List.forall_mem_append.2 ⟨h.blanks, by simpa using hc⟩

theorem IsCut.cons (h : IsCut line parts start gap blanks) (hc : Chars.isBlank c) :
    IsCut (c :: line) { parts with before := c :: parts.before } (c :: start) gap blanks where
  first := by
    have hnone : Chars.strip? defaultName (c :: line) = none := by
      refine Option.eq_none_iff_forall_ne_some.2 fun rest hrest => ?_
      obtain rfl := (List.cons.inj (Chars.strip?_eq_some.1 hrest)).1
      exact absurd hc (by decide)
    rw [Chars.splitFirst, hnone, h.first]
    rfl
  before := by
    rw [h.before]
    rfl
  gap := h.gap
  comma := h.comma
  blanks := h.blanks

end

theorem repairLine?_eq_none_of_concat {line : List Char} {c : Char} (hc : Chars.isBlank c)
    (h : repairLine? (line ++ [c]) = none) : repairLine? line = none := by
  refine repairLine?_eq_none_iff.2 fun parts hparts => repairLine?_eq_none_iff.1 h parts ?_
  obtain ⟨start, gap, blanks, hcut⟩ := defaultLine?_eq_some_iff.1 hparts
  exact defaultLine?_eq_some_iff.2 ⟨start, gap, _, hcut.concat hc⟩

theorem repairLine?_eq_none_of_cons {line : List Char} {c : Char} (hc : Chars.isBlank c)
    (h : repairLine? (c :: line) = none) : repairLine? line = none := by
  refine repairLine?_eq_none_iff.2 fun parts hparts =>
    repairLine?_eq_none_iff.1 h { parts with before := c :: parts.before } ?_
  obtain ⟨start, gap, blanks, hcut⟩ := defaultLine?_eq_some_iff.1 hparts
  exact defaultLine?_eq_some_iff.2 ⟨c :: start, gap, blanks, hcut.cons hc⟩

end ThemeSection.Artifact
