import Mathlib.Data.List.Infix
import Mathlib.Data.List.TakeWhile
import ThemeSection.Chars.Search

/-!
What searching a text finds. The first occurrence of a needle is known by what stands around it, and
where the needle occurs in a text that is put together from pieces is known from the pieces, as long
as none of its occurrences can lie across a seam.
-/

namespace ThemeSection.Chars

/-- What is said of the characters of a text is decided by going over the text, not over all
characters that there are. -/
instance (priority := high) decidableForallMem (p : Char → Prop) [DecidablePred p] (s : List Char) :
    Decidable (∀ c ∈ s, p c) :=
  List.decidableBAll p s

variable {needle s : List Char}

theorem strip?_eq_some {rest : List Char} : strip? needle s = some rest ↔ s = needle ++ rest := by
  unfold strip?
  induction needle generalizing s with
  | nil => simp [List.isPrefixOf?, eq_comm]
  | cons c needle ih =>
    cases s with
    | nil => simp [List.isPrefixOf?]
    | cons d s =>
      by_cases hcd : c = d
      · simp [List.isPrefixOf?, hcd, ih]
      · simp [List.isPrefixOf?, hcd, Ne.symm hcd]

theorem stripEnd?_eq_some {body : List Char} :
    stripEnd? needle s = some body ↔ s = body ++ needle := by
  have hstrip : stripEnd? needle s = (strip? needle.reverse s.reverse).map List.reverse := rfl
  rw [hstrip, Option.map_eq_some_iff]
  constructor
  · rintro ⟨rest, hrest, rfl⟩
    rw [← List.reverse_reverse s, strip?_eq_some.1 hrest, List.reverse_append, List.reverse_reverse]
  · rintro rfl
    exact ⟨body.reverse, strip?_eq_some.2 List.reverse_append, List.reverse_reverse body⟩

theorem stripEnd?_append (needle s : List Char) : stripEnd? needle (s ++ needle) = some s :=
  stripEnd?_eq_some.2 rfl

theorem eq_of_splitFirst {before rest : List Char} (h : splitFirst needle s = some (before, rest)) :
    s = before ++ (needle ++ rest) := by
  induction s generalizing before with
  | nil =>
    obtain ⟨rest', hstrip, heq⟩ := Option.map_eq_some_iff.1 h
    obtain ⟨rfl, rfl⟩ := Prod.mk.inj heq
    rw [List.nil_append]
    exact strip?_eq_some.1 hstrip
  | cons c s ih =>
    unfold splitFirst at h
    split at h
    case h_1 hstrip =>
      obtain ⟨rfl, rfl⟩ := Prod.mk.inj (Option.some.inj h)
      rw [List.nil_append]
      exact strip?_eq_some.1 hstrip
    case h_2 =>
      obtain ⟨⟨before', rest'⟩, hfirst, heq⟩ := Option.map_eq_some_iff.1 h
      obtain ⟨rfl, rfl⟩ := Prod.mk.inj heq
      rw [ih hfirst, List.cons_append]

/-- What is found is the leftmost occurrence. -/
theorem exists_splitFirst (needle x y : List Char) :
    ∃ before rest, splitFirst needle (x ++ (needle ++ y)) = some (before, rest) ∧
      before.length ≤ x.length := by
  induction x with
  | nil =>
    have hstrip : strip? needle (needle ++ y) = some y := strip?_eq_some.2 rfl
    refine ⟨[], y, ?_, Nat.le_refl _⟩
    rw [List.nil_append]
    cases hneedle : needle ++ y with
    | nil => rw [hneedle] at hstrip; rw [splitFirst, hstrip]; rfl
    | cons c cs => rw [hneedle] at hstrip; rw [splitFirst, hstrip]
  | cons c x ih =>
    obtain ⟨before, rest, hfirst, hlength⟩ := ih
    rw [List.cons_append, splitFirst]
    split
    case h_1 rest' _ => exact ⟨[], rest', rfl, Nat.zero_le _⟩
    case h_2 => exact ⟨c :: before, rest, by rw [hfirst]; rfl, Nat.succ_le_succ hlength⟩

theorem contains_iff : contains needle s ↔ needle <:+: s := by
  rw [contains, Option.isSome_iff_exists]
  constructor
  · rintro ⟨⟨before, rest⟩, h⟩
    exact ⟨before, rest, by rw [eq_of_splitFirst h, List.append_assoc]⟩
  · rintro ⟨before, rest, rfl⟩
    obtain ⟨before', rest', h, -⟩ := exists_splitFirst needle before rest
    exact ⟨(before', rest'), by rw [List.append_assoc, h]⟩

theorem contains_eq_false_iff : contains needle s = false ↔ ¬ needle <:+: s := by
  rw [← contains_iff, Bool.not_eq_true]

/-- Where the needle does not start, it is in what comes after. -/
theorem contains_cons_of_not_start {c : Char} (h : ¬ needle <+: c :: s) :
    contains needle (c :: s) = contains needle s := by
  have hnone : strip? needle (c :: s) = none :=
    Option.eq_none_iff_forall_not_mem.2 fun rest hrest => h ⟨rest, (strip?_eq_some.1 hrest).symm⟩
  rw [contains, splitFirst, hnone, contains, Option.isSome_map]

section

variable {c : Char} {cs a b : List Char}

/-- A needle is found at a place exactly if it does not occur before, as it cannot overlap itself. -/
theorem splitFirst_append_iff (hc : c ∉ cs) :
    splitFirst (c :: cs) (a ++ (c :: cs ++ b)) = some (a, b) ↔ contains (c :: cs) a = false := by
  constructor
  · intro h
    refine contains_eq_false_iff.2 ?_
    rintro ⟨x, y, rfl⟩
    obtain ⟨before, rest, hfirst, hlength⟩ :=
      exists_splitFirst (c :: cs) x (y ++ (c :: cs ++ b))
    simp only [List.append_assoc] at h hfirst
    rw [h] at hfirst
    obtain ⟨rfl, rfl⟩ := Prod.mk.inj (Option.some.inj hfirst)
    simp only [List.length_append, List.length_cons] at hlength
    omega
  · intro h
    obtain ⟨before, rest, hfirst, hlength⟩ := exists_splitFirst (c :: cs) a b
    rw [hfirst]
    have heq := eq_of_splitFirst hfirst
    rcases List.append_eq_append_iff.1 heq with ⟨m, rfl, hm⟩ | ⟨m, rfl, hm⟩
    · -- The leftmost occurrence is not behind the given one.
      obtain rfl : m = [] := List.eq_nil_of_length_eq_zero (by
        simp only [List.length_append] at hlength
        omega)
      rw [List.nil_append] at hm
      rw [List.append_nil, List.append_cancel_left hm]
    · -- Nor before it: it would lie in `a`, or start there and end in the given one.
      rcases List.append_eq_append_iff.1 hm with ⟨n, rfl, -⟩ | ⟨n, hn, hrest⟩
      · exact absurd ⟨before, n, by simp⟩ (contains_eq_false_iff.1 h)
      · cases m with
        | nil =>
          rw [List.nil_append] at hn
          rw [← hn] at hrest
          rw [List.append_nil, List.append_cancel_left hrest]
        | cons d m =>
          obtain ⟨-, rfl⟩ := List.cons.inj hn
          cases n with
          | nil =>
            exact absurd ⟨before, [], by simp_all⟩ (contains_eq_false_iff.1 h)
          | cons e n =>
            obtain ⟨rfl, -⟩ := List.cons.inj hrest
            exact absurd (by simp) hc

/-- A text is free of a needle up to its first occurrence, or to its end. -/
theorem exists_clear_append (hc : c ∉ cs) (s : List Char) : ∃ start rest, s = start ++ rest ∧
    contains (c :: cs) start = false ∧ (rest = [] ∨ c :: cs <+: rest) := by
  cases hfirst : splitFirst (c :: cs) s with
  | none => exact ⟨s, [], (List.append_nil s).symm, by rw [contains, hfirst]; rfl, .inl rfl⟩
  | some found =>
    obtain rfl := eq_of_splitFirst hfirst
    exact ⟨found.1, _, rfl, (splitFirst_append_iff hc).1 hfirst, .inr (List.prefix_append _ _)⟩

/-- No occurrence starts where the first character of the needle does not come. -/
theorem contains_append_left (ha : c ∉ a) :
    contains (c :: cs) (a ++ b) = contains (c :: cs) b := by
  rw [Bool.eq_iff_iff, contains_iff, contains_iff]
  constructor
  · rintro ⟨x, y, h⟩
    rw [List.append_assoc] at h
    rcases List.append_eq_append_iff.1 h with ⟨m, rfl, hm⟩ | ⟨m, rfl, hm⟩
    · cases m with
      | nil => exact ⟨[], y, by simpa using hm⟩
      | cons d m =>
        obtain ⟨rfl, -⟩ := List.cons.inj hm
        exact absurd (by simp) ha
    · exact ⟨m, y, by rw [List.append_assoc, hm]⟩
  · rintro ⟨x, y, rfl⟩
    exact ⟨a ++ x, y, by simp⟩

end

/-- A character that is not in a needle parts a text for it. -/
theorem contains_append_cons {c : Char} (hc : c ∉ needle) (a b : List Char) :
    contains needle (a ++ c :: b) = (contains needle a || contains needle b) := by
  rw [Bool.eq_iff_iff, Bool.or_eq_true, contains_iff, contains_iff, contains_iff]
  constructor
  · rintro ⟨x, y, h⟩
    rw [List.append_assoc] at h
    rcases List.append_eq_append_iff.1 h with ⟨m, rfl, hm⟩ | ⟨m, rfl, hm⟩
    · rcases List.append_eq_append_iff.1 hm with ⟨n, rfl, -⟩ | ⟨n, rfl, hn⟩
      · exact Or.inl ⟨x, n, by simp⟩
      · cases n with
        | nil => exact Or.inl ⟨x, [], by simp⟩
        | cons d n =>
          obtain ⟨rfl, -⟩ := List.cons.inj hn
          exact absurd (by simp) hc
    · cases m with
      | nil =>
        cases needle with
        | nil => exact Or.inl List.nil_infix
        | cons d needle =>
          obtain ⟨rfl, -⟩ := List.cons.inj hm
          exact absurd List.mem_cons_self hc
      | cons d m =>
        obtain ⟨-, rfl⟩ := List.cons.inj hm
        exact Or.inr ⟨m, y, by simp⟩
  · rintro (⟨x, y, rfl⟩ | ⟨x, y, rfl⟩)
    · exact ⟨x, y ++ c :: b, by simp⟩
    · exact ⟨a ++ c :: x, y, by simp⟩

/-- A line ends at its line feed. -/
theorem lines_append_newline {line : List Char} (h : ∀ c ∈ line, c ≠ '\n' ∧ c ≠ '\r')
    (rest : List Char) : lines (line ++ '\n' :: rest) = line :: lines rest := by
  induction line with
  | nil => rw [List.nil_append, lines]
  | cons c line ih =>
    obtain ⟨hc, hline⟩ := List.forall_mem_cons.1 h
    rw [List.cons_append, lines.eq_def]
    split
    case h_1 hnil => cases hnil
    case h_2 hcons => exact absurd (List.cons.inj hcons).1 hc.1
    case h_3 hcons => exact absurd (List.cons.inj hcons).1 hc.2
    case h_4 hcons =>
      obtain ⟨rfl, rfl⟩ := List.cons.inj hcons
      rw [ih hline]

theorem beforeLast?_eq_some {p : Char → Bool} {before : List Char} (h : beforeLast? p s = some before) :
    ∃ c after, s = before ++ c :: after ∧ p c ∧ ∀ d ∈ after, p d = false := by
  unfold beforeLast? at h
  split at h
  case h_1 => cases h
  case h_2 c front hfront =>
    obtain rfl := Option.some.inj h
    have hnot := List.head?_dropWhile_not (!p ·) s.reverse
    have hc : p c := by simpa [hfront] using hnot
    refine ⟨c, (s.reverse.takeWhile (!p ·)).reverse, ?_, hc, fun d hd => ?_⟩
    · have hparts := List.takeWhile_append_dropWhile (p := (!p ·)) (l := s.reverse)
      rw [hfront] at hparts
      have hs := congrArg List.reverse hparts
      simpa using hs.symm
    · simpa using List.mem_takeWhile_imp (List.mem_reverse.1 hd)

theorem beforeLast?_eq_none {p : Char → Bool} (h : beforeLast? p s = none) : ∀ c ∈ s, p c = false := by
  unfold beforeLast? at h
  split at h
  case h_1 hnil =>
    intro c hc
    simpa using List.dropWhile_eq_nil_iff.1 hnil c (List.mem_reverse.2 hc)
  case h_2 => cases h

/-- The first piece is what stands before the first separator. -/
theorem exists_splitWhere (p : Char → Bool) (s : List Char) :
    ∃ pieces, splitWhere p s = s.takeWhile (!p ·) :: pieces := by
  induction s with
  | nil => exact ⟨[], rfl⟩
  | cons c s ih =>
    obtain ⟨pieces, hpieces⟩ := ih
    rw [splitWhere, hpieces]
    cases hc : p c with
    | true => exact ⟨s.takeWhile (!p ·) :: pieces, by simp [hc]⟩
    | false => exact ⟨pieces, by simp [hc]⟩

theorem splitWhere_ne_nil (p : Char → Bool) (s : List Char) : splitWhere p s ≠ [] := by
  obtain ⟨pieces, hpieces⟩ := exists_splitWhere p s
  rw [hpieces]
  exact List.cons_ne_nil _ _

theorem splitWhere_append_cons {p : Char → Bool} {c : Char} (hc : p c) (a b : List Char) :
    splitWhere p (a ++ c :: b) = splitWhere p a ++ splitWhere p b := by
  induction a with
  | nil => simp [splitWhere, hc]
  | cons d a ih =>
    rw [List.cons_append, splitWhere, splitWhere, ih]
    split
    · rfl
    · cases hpieces : splitWhere p a with
      | nil => exact absurd hpieces (splitWhere_ne_nil p a)
      | cons piece pieces => rfl

/-- A text without separators goes with the first piece of what follows it. -/
theorem splitWhere_append_left {p : Char → Bool} {a : List Char} (ha : ∀ c ∈ a, p c = false)
    (b : List Char) :
    splitWhere p (a ++ b) = (a ++ b.takeWhile (!p ·)) :: (splitWhere p b).tail := by
  induction a with
  | nil =>
    obtain ⟨pieces, hpieces⟩ := exists_splitWhere p b
    simp [hpieces]
  | cons c a ih =>
    obtain ⟨hc, ha⟩ := List.forall_mem_cons.1 ha
    rw [List.cons_append, splitWhere, ih ha]
    simp [hc]

theorem splitWhere_eq_singleton {p : Char → Bool} {s : List Char} (h : ∀ c ∈ s, p c = false) :
    splitWhere p s = [s] := by
  simpa [splitWhere] using splitWhere_append_left h []

section

variable {p : Char → Bool} {c : Char} (hc : p c) {texts : List (List Char)} (hne : texts ≠ [])
include hc hne

/-- Texts joined by a separator have the pieces of all of them. -/
theorem splitWhere_intercalate_eq_flatMap :
    splitWhere p ([c].intercalate texts) = texts.flatMap (splitWhere p) := by
  induction texts with
  | nil => exact absurd rfl hne
  | cons text rest ih =>
    cases rest with
    | nil => simp [List.intercalate]
    | cons next rest =>
      rw [List.intercalate_cons_cons, List.append_assoc, List.singleton_append,
        splitWhere_append_cons hc, ih (List.cons_ne_nil _ _)]
      rfl

/-- Texts without separators are the pieces of what they make when they are joined by one. -/
theorem splitWhere_intercalate (h : ∀ text ∈ texts, ∀ d ∈ text, p d = false) :
    splitWhere p ([c].intercalate texts) = texts := by
  have hone : texts.flatMap (splitWhere p) = texts.flatMap fun text => [text] :=
    List.flatMap_congr fun text htext => splitWhere_eq_singleton (h text htext)
  rw [splitWhere_intercalate_eq_flatMap hc hne, hone, List.flatMap_singleton']

end

/-- The pieces between separators hold the characters that are none. -/
theorem of_mem_splitWhere {p : Char → Bool} {c : Char} {s piece : List Char}
    (h : piece ∈ splitWhere p s) (hc : c ∈ piece) : c ∈ s ∧ p c = false := by
  induction s generalizing piece with
  | nil =>
    obtain rfl := List.mem_singleton.1 h
    cases hc
  | cons d s ih =>
    rw [splitWhere] at h
    split at h
    case isTrue =>
      rcases List.mem_cons.1 h with rfl | h
      · cases hc
      · exact (ih h hc).imp_left (List.mem_cons_of_mem d)
    case isFalse hd =>
      cases hpieces : splitWhere p s with
      | nil => exact absurd hpieces (splitWhere_ne_nil p s)
      | cons first rest =>
        rw [hpieces] at h
        rw [hpieces] at ih
        rcases List.mem_cons.1 h with rfl | h
        · rcases List.mem_cons.1 hc with rfl | hc
          · exact ⟨List.mem_cons_self, by simpa using hd⟩
          · exact (ih List.mem_cons_self hc).imp_left (List.mem_cons_of_mem d)
        · exact (ih (List.mem_cons_of_mem first h) hc).imp_left (List.mem_cons_of_mem d)

end ThemeSection.Chars
