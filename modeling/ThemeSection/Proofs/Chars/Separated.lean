import Mathlib.Data.List.Chain
import Mathlib.Data.List.DropRight
import ThemeSection.Proofs.Chars.Search

/-!
Names made of runs. A name has characters of one kind in runs, and between two runs there is one
separator. Where separators in a row are made one and those at the ends are dropped, such a name is left,
or nothing; and a name stays as it is.
-/

namespace ThemeSection.Chars

/-- Runs of characters of a kind with one separator between two of them. -/
structure Separated (kind : Char → Bool) (separator : Char) (s : List Char) : Prop where
  nonempty : s ≠ []
  chars : ∀ c ∈ s, kind c ∨ c = separator
  starts : s.head? ≠ some separator
  ends : s.getLast? ≠ some separator
  apart : s.IsChain fun c d => c ≠ separator ∨ d ≠ separator

variable {kind : Char → Bool} {separator : Char} {s t : List Char}

instance decidableSeparated (kind : Char → Bool) (separator : Char) (s : List Char) :
    Decidable (Separated kind separator s) :=
  decidable_of_iff (s ≠ [] ∧ (∀ c ∈ s, kind c ∨ c = separator) ∧ s.head? ≠ some separator ∧
      s.getLast? ≠ some separator ∧ s.IsChain fun c d => c ≠ separator ∨ d ≠ separator)
    ⟨fun ⟨nonempty, chars, starts, ends, apart⟩ => ⟨nonempty, chars, starts, ends, apart⟩,
      fun h => ⟨h.nonempty, h.chars, h.starts, h.ends, h.apart⟩⟩

/-- Separators do not stand beside each other exactly if there are no two in a row. -/
theorem isChain_iff_not_infix : s.IsChain (fun c d => c ≠ separator ∨ d ≠ separator) ↔
    ¬ [separator, separator] <:+: s := by
  rw [List.isChain_iff_forall_rel_of_append_cons_cons]
  constructor
  · rintro h ⟨a, b, rfl⟩
    have hsplit : a ++ [separator, separator] ++ b = a ++ separator :: separator :: b :=
      List.append_assoc a _ b
    rcases h hsplit with hne | hne
    · exact hne rfl
    · exact hne rfl
  · intro h c d a b hs
    by_contra hboth
    obtain ⟨rfl, rfl⟩ := not_or.1 hboth |>.imp not_not.1 not_not.1
    exact h ⟨a, b, by rw [hs, List.append_assoc]; rfl⟩

/-- A run is a name. -/
theorem Separated.of_forall (hkind : kind separator = false) (hne : s ≠ []) (h : ∀ c ∈ s, kind c) :
    Separated kind separator s := by
  have hother : ∀ c ∈ s, c ≠ separator := by
    rintro c hc rfl
    exact absurd (h c hc) (by simp [hkind])
  refine ⟨hne, fun c hc => Or.inl (h c hc), fun hhead => ?_, fun hlast => ?_, ?_⟩
  · exact hother _ (List.mem_of_head? hhead) rfl
  · exact hother _ (List.mem_of_getLast? hlast) rfl
  · exact (List.pairwise_of_forall_mem_list fun c hc _ _ => Or.inl (hother c hc)).isChain

theorem Separated.append (hs : Separated kind separator s) (ht : Separated kind separator t) :
    Separated kind separator (s ++ separator :: t) where
  nonempty := by simp
  chars c hc := by
    rcases List.mem_append.1 hc with hc | hc
    · exact hs.chars c hc
    · rcases List.mem_cons.1 hc with rfl | hc
      · exact Or.inr rfl
      · exact ht.chars c hc
  starts := by
    rw [List.head?_append_of_ne_nil _ hs.nonempty]
    exact hs.starts
  ends := by
    rw [List.getLast?_append_of_ne_nil _ (List.cons_ne_nil _ _), List.getLast?_cons_of_ne_nil ht.nonempty]
    exact ht.ends
  apart := by
    refine hs.apart.append (ht.apart.cons fun d hd => Or.inr ?_) fun c hc _ _ => Or.inl ?_
    · rintro rfl
      exact ht.starts hd
    · rintro rfl
      exact hs.ends hc

/-- The end of a name is a name, unless it starts with a separator. -/
theorem Separated.of_append (h : Separated kind separator (s ++ t)) (hne : t ≠ [])
    (ht : t.head? ≠ some separator) : Separated kind separator t where
  nonempty := hne
  chars c hc := h.chars c (List.mem_append_right s hc)
  starts := ht
  ends := by
    rw [← List.getLast?_append_of_ne_nil s hne]
    exact h.ends
  apart := h.apart.right_of_append

theorem Separated.head?_of_prefix (h : Separated kind separator t) (hs : s <+: t) (hne : s ≠ []) :
    s.head? ≠ some separator := by
  obtain ⟨rest, rfl⟩ := hs
  have hhead := h.starts
  rwa [List.head?_append_of_ne_nil s hne] at hhead

/-- The start of a name is a name, unless it ends with a separator. -/
theorem Separated.of_prefix (h : Separated kind separator t) (hs : s <+: t) (hne : s ≠ [])
    (hend : s.getLast? ≠ some separator) : Separated kind separator s where
  nonempty := hne
  chars c hc := h.chars c (hs.subset hc)
  starts := h.head?_of_prefix hs hne
  ends := hend
  apart := by
    obtain ⟨rest, rfl⟩ := hs
    exact h.apart.left_of_append

/-- Other characters than separators may be put to the end of a name. -/
theorem Separated.append_run (h : Separated kind separator s) (hkind : kind separator = false)
    (ht : ∀ c ∈ t, kind c) : Separated kind separator (s ++ t) := by
  by_cases hne : t = []
  · rwa [hne, List.append_nil]
  have hrun : Separated kind separator t := .of_forall hkind hne ht
  refine ⟨List.append_ne_nil_of_left_ne_nil h.nonempty t, fun c hc => ?_, ?_, ?_, ?_⟩
  · exact (List.mem_append.1 hc).elim (h.chars c) (hrun.chars c)
  · rw [List.head?_append_of_ne_nil _ h.nonempty]
    exact h.starts
  · rw [List.getLast?_append_of_ne_nil _ hne]
    exact hrun.ends
  · refine h.apart.append hrun.apart fun c _ d hd => Or.inr ?_
    rintro rfl
    exact hrun.starts hd

/-- A name falls into runs. -/
theorem Separated.exists_runs : ∀ {s : List Char}, Separated kind separator s → ∃ run runs,
    (∀ piece ∈ run :: runs, piece ≠ [] ∧ ∀ c ∈ piece, kind c) ∧
      s = [separator].intercalate (run :: runs)
  | [], h => absurd rfl h.nonempty
  | [c], h => by
    have hc : kind c := (h.chars c List.mem_cons_self).resolve_right (by simpa using h.starts)
    exact ⟨[c], [], by simpa using hc, by simp [List.intercalate]⟩
  | c :: d :: s, h => by
    have hc : kind c := (h.chars c List.mem_cons_self).resolve_right (by simpa using h.starts)
    by_cases hd : d = separator
    · have hne : s ≠ [] := by
        rintro rfl
        exact h.ends (congrArg some hd)
      have hs : s.head? ≠ some separator := by
        intro hhead
        have hapart := (List.isChain_cons_cons.1 h.apart).2.rel_head? hhead
        simp [hd] at hapart
      obtain ⟨run, runs, hruns, hjoined⟩ :=
        Separated.exists_runs (of_append (s := [c, d]) h hne hs)
      refine ⟨[c], run :: runs, List.forall_mem_cons.2 ⟨by simpa using hc, hruns⟩, ?_⟩
      rw [List.intercalate_cons_cons, ← hjoined, hd]
      rfl
    · obtain ⟨run, runs, hruns, hjoined⟩ :=
        (h.of_append (s := [c]) (List.cons_ne_nil d s) (by simpa using hd)).exists_runs
      obtain ⟨⟨-, hrun⟩, hruns⟩ := List.forall_mem_cons.1 hruns
      refine ⟨c :: run, runs, List.forall_mem_cons.2
        ⟨⟨List.cons_ne_nil c run, List.forall_mem_cons.2 ⟨hc, hrun⟩⟩, hruns⟩, ?_⟩
      rw [hjoined]
      cases runs with
      | nil => simp [List.intercalate]
      | cons next runs => simp [List.intercalate_cons_cons]

/-- Names are runs with one separator between two of them. -/
theorem separated_iff (hkind : kind separator = false) :
    Separated kind separator s ↔ ∃ runs, runs ≠ [] ∧ (∀ run ∈ runs, run ≠ [] ∧ ∀ c ∈ run, kind c) ∧
      s = [separator].intercalate runs := by
  constructor
  · intro h
    obtain ⟨run, runs, hruns, hjoined⟩ := h.exists_runs
    exact ⟨run :: runs, List.cons_ne_nil run runs, hruns, hjoined⟩
  · rintro ⟨runs, hne, hruns, rfl⟩
    induction runs with
    | nil => exact absurd rfl hne
    | cons run runs ih =>
      obtain ⟨⟨hrun, hkinds⟩, hruns⟩ := List.forall_mem_cons.1 hruns
      have hfirst : Separated kind separator run := .of_forall hkind hrun hkinds
      cases runs with
      | nil => simpa [List.intercalate] using hfirst
      | cons next runs =>
        rw [List.intercalate_cons_cons, List.append_assoc, List.singleton_append]
        exact hfirst.append (ih (List.cons_ne_nil next runs) hruns)

/-- A text in which no separator stands right after another one, or at the start if `after` holds. -/
def collapse (separator : Char) (after : Bool) : List Char → List Char
  | [] => []
  | c :: s =>
    if c = separator ∧ after then collapse separator true s
    else c :: collapse separator (c == separator) s

/-- A text without the separators at its ends. -/
def strip (separator : Char) (s : List Char) : List Char :=
  (s.dropWhile (· == separator)).rdropWhile (· == separator)

theorem collapse_subset : ∀ {after : Bool} {s : List Char}, collapse separator after s ⊆ s
  | _, [] => List.Subset.refl []
  | after, c :: s => by
    rw [collapse]
    split
    · exact List.Subset.trans collapse_subset (List.subset_cons_self c s)
    · exact List.cons_subset_cons c collapse_subset

/-- No two separators are left beside each other, nor one after a separator that came before. -/
theorem isChain_collapse (after : Bool) (s : List Char) :
    (collapse separator after s).IsChain (fun c d => c ≠ separator ∨ d ≠ separator) ∧
      (after → (collapse separator after s).head? ≠ some separator) := by
  induction s generalizing after with
  | nil => exact ⟨List.isChain_nil, fun _ => by simp [collapse]⟩
  | cons c s ih =>
    rw [collapse]
    split
    case isTrue => exact ⟨(ih true).1, fun _ => (ih true).2 rfl⟩
    case isFalse hkept =>
      obtain ⟨hchain, hhead⟩ := ih (c == separator)
      refine ⟨hchain.cons fun d hd => ?_, fun hafter hc => hkept ⟨Option.some.inj hc, hafter⟩⟩
      by_cases hc : c = separator
      · refine Or.inr ?_
        rintro rfl
        exact hhead (by simpa using hc) hd
      · exact Or.inl hc

/-- A text without separators beside each other stays as it is. -/
theorem collapse_eq_self {after : Bool}
    (h : s.IsChain fun c d => c ≠ separator ∨ d ≠ separator)
    (hstart : after → s.head? ≠ some separator) : collapse separator after s = s := by
  induction s generalizing after with
  | nil => rfl
  | cons c s ih =>
    have hkept : ¬ (c = separator ∧ after) := fun hc => hstart hc.2 (congrArg some hc.1)
    rw [collapse, if_neg hkept, ih h.of_cons]
    intro hc hhead
    rcases h.rel_head? hhead with hne | hne
    · exact hne (by simpa using hc)
    · exact hne rfl

/-- Other characters than separators are neither lost nor made. -/
theorem mem_collapse {c : Char} (hc : c ≠ separator) (after : Bool) (s : List Char) :
    c ∈ collapse separator after s ↔ c ∈ s := by
  induction s generalizing after with
  | nil => rfl
  | cons d s ih =>
    rw [collapse]
    split
    case isTrue hd => rw [ih, List.mem_cons, hd.1, or_iff_right hc]
    case isFalse => rw [List.mem_cons, List.mem_cons, ih]

theorem strip_isInfix (s : List Char) : strip separator s <:+: s :=
  (List.rdropWhile_prefix _ _).isInfix.trans (List.dropWhile_suffix _).isInfix

theorem mem_strip {c : Char} (hc : c ≠ separator) : c ∈ strip separator s ↔ c ∈ s := by
  have hdrop : ∀ t : List Char, c ∈ t.dropWhile (· == separator) ↔ c ∈ t := by
    intro t
    conv_rhs => rw [← List.takeWhile_append_dropWhile (p := (· == separator)) (l := t), List.mem_append]
    refine (or_iff_right fun hmem => hc ?_).symm
    simpa using List.mem_takeWhile_imp hmem
  rw [strip, List.rdropWhile, List.mem_reverse, hdrop, List.mem_reverse, hdrop]

/-- What is left of a text in which separators stand alone is a name, or nothing. -/
theorem separated_strip (hchars : ∀ c ∈ s, kind c ∨ c = separator)
    (hapart : s.IsChain fun c d => c ≠ separator ∨ d ≠ separator) (hne : strip separator s ≠ []) :
    Separated kind separator (strip separator s) where
  nonempty := hne
  chars c hc := hchars c ((strip_isInfix s).subset hc)
  starts := by
    intro hhead
    obtain ⟨rest, hrest⟩ := List.rdropWhile_prefix (· == separator) (s.dropWhile (· == separator))
    have hkept : (strip separator s ++ rest).head? = some separator := by
      rw [List.head?_append_of_ne_nil _ hne, hhead]
    have hnot := List.head?_dropWhile_not (· == separator) s
    rw [strip, hrest] at hkept
    simp [hkept] at hnot
  ends := by
    intro hlast
    have hnot := List.rdropWhile_last_not _ _ hne
    rw [List.getLast?_eq_some_getLast hne] at hlast
    exact hnot (beq_iff_eq.2 (Option.some.inj hlast))
  apart := by
    obtain ⟨front, back, hs⟩ := strip_isInfix s
    rw [← hs] at hapart
    exact hapart.left_of_append.right_of_append

/-- A name has nothing to drop at its ends. -/
theorem Separated.strip_eq (h : Separated kind separator s) : strip separator s = s := by
  have hstart : s.dropWhile (· == separator) = s := by
    obtain ⟨c, t, rfl⟩ := List.exists_cons_of_ne_nil h.nonempty
    exact List.dropWhile_cons_of_neg (by simpa using h.starts)
  rw [strip, hstart, List.rdropWhile_eq_self_iff]
  intro hne hlast
  refine h.ends ?_
  rw [List.getLast?_eq_some_getLast hne, beq_iff_eq.1 hlast]

end ThemeSection.Chars
