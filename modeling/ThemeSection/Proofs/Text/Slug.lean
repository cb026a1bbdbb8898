import ThemeSection.Proofs.Chars.Blank
import ThemeSection.Proofs.Chars.Case
import ThemeSection.Proofs.Chars.Separated
import ThemeSection.Text.Slug

/-!
Which characters a slug is made of, whatever name it comes from, and which texts are slugs: those
that stay as they are when a slug is made of them. A key is made of runs of small ASCII letters and
digits with one `_` between two of them. Every text has a key or, if there is no letter or digit in
it, the empty text in place of one; a key is its own key.
-/

namespace ThemeSection.Text

theorem mem_of_mem_collapseHyphens {c : Char} {s : List Char} :
    ∀ {after : Bool}, c ∈ collapseHyphens after s → c ∈ s := by
  induction s with
  | nil => exact id
  | cons d s ih =>
    intro after h
    rw [collapseHyphens] at h
    split at h
    case isTrue => exact List.mem_cons_of_mem _ (ih h)
    case isFalse =>
      rcases List.mem_cons.1 h with rfl | h
      · exact List.mem_cons_self
      · exact List.mem_cons_of_mem _ (ih h)

theorem mem_of_mem_trimHyphens {c : Char} {s : List Char} (h : c ∈ trimHyphens s) : c ∈ s := by
  have hend := (List.dropWhile_sublist _).mem (List.mem_reverse.1 h)
  exact (List.dropWhile_sublist _).mem (List.mem_reverse.1 hend)

/-- A slug has no other characters than slug characters and hyphens. -/
theorem isSlugChar_or_hyphen_of_mem_slug {name : String} {c : Char} (h : c ∈ (slug name).toList) :
    isSlugChar c ∨ c = '-' := by
  unfold slug at h
  split at h
  case h_1 =>
    have hall : "section".toList.all isSlugChar := by decide
    exact Or.inl (List.all_eq_true.1 hall c h)
  case h_2 body _ =>
    rw [String.toList_ofList, slugBody] at h
    have hmapped := mem_of_mem_collapseHyphens (mem_of_mem_trimHyphens h)
    obtain ⟨d, -, rfl⟩ := List.mem_map.1 hmapped
    by_cases hd : isSlugChar d
    · rw [if_pos hd]
      exact Or.inl hd
    · rw [if_neg hd]
      exact Or.inr rfl

/-- A name that leaves nothing gets a slug all the same. -/
theorem slug_ne_empty (name : String) : slug name ≠ "" := by
  unfold slug
  split
  case h_1 => decide
  case h_2 body hbody =>
    intro h
    rw [← String.toList_inj, String.toList_ofList] at h
    exact hbody h

theorem brace_not_mem_slug (name : String) : '\x7b' ∉ (slug name).toList := by
  intro h
  rcases isSlugChar_or_hyphen_of_mem_slug h with h | h <;> revert h <;> decide

open Chars (Separated)

/-- Runs of slug characters with one hyphen between two of them. -/
def IsSlug (s : String) : Prop :=
  Separated isSlugChar '-' s.toList

theorem collapseHyphens_eq (after : Bool) (s : List Char) :
    collapseHyphens after s = Chars.collapse '-' after s := by
  induction s generalizing after with
  | nil => rfl
  | cons c s ih => simp [collapseHyphens, Chars.collapse, ih]

theorem trimHyphens_eq (s : List Char) : trimHyphens s = Chars.strip '-' s :=
  rfl

/-- What is left of a name is a slug, if anything is. -/
theorem separated_slugBody {name : List Char} (hne : slugBody name ≠ []) :
    Separated isSlugChar '-' (slugBody name) := by
  rw [slugBody, collapseHyphens_eq, trimHyphens_eq] at hne ⊢
  refine Chars.separated_strip (fun c hc => ?_) (Chars.isChain_collapse false _).1 hne
  obtain ⟨d, -, rfl⟩ := List.mem_map.1 (Chars.collapse_subset hc)
  by_cases hd : isSlugChar d <;> simp [hd]

theorem isSlug_slug (name : String) : IsSlug (slug name) := by
  unfold slug
  split
  case h_1 => exact .of_forall (by decide) (by decide) (by decide)
  case h_2 body hbody =>
    rw [IsSlug, String.toList_ofList]
    exact separated_slugBody hbody

theorem toNat_lt_of_isSlugChar {c : Char} (h : isSlugChar c ∨ c = '-') : c.toNat < 0x80 := by
  simp only [isSlugChar, Bool.or_eq_true, beq_iff_eq] at h
  rcases h with ((h | h) | rfl) | rfl
  · have hlast : c.val ≤ 'z'.val := of_decide_eq_true (Bool.and_eq_true_iff.1 h).2
    exact Nat.lt_of_le_of_lt (UInt32.le_iff_toNat_le.1 hlast) (by decide)
  · exact Nat.lt_of_le_of_lt (Char.isDigit_iff_toNat.1 h).2 (by decide)
  · decide
  · decide

theorem isSlugChar_of_isKeyChar {c : Char} (h : isKeyChar c ∨ c = '_') : isSlugChar c := by
  rcases h with h | rfl
  · exact Bool.or_eq_true_iff.2 (Or.inl h)
  · decide

/-- The characters of slugs are in lower case, and none of them is a blank or a point. -/
theorem plain_of_isSlugChar {c : Char} (h : isSlugChar c ∨ c = '-') :
    (c.toNat < 0x80 ∧ c.toLower = c) ∧ Chars.isBlank c = false ∧ c ≠ '.' := by
  have hall : ∀ n : Fin 0x80, isSlugChar (Char.ofNat n) ∨ Char.ofNat n = '-' →
      (Char.ofNat n).toLower = Char.ofNat n ∧ Chars.isBlank (Char.ofNat n) = false ∧
        Char.ofNat n ≠ '.' := by
    decide
  have hlt := toNat_lt_of_isSlugChar h
  have hc := hall ⟨c.toNat, hlt⟩
  rw [Char.ofNat_toNat] at hc
  obtain ⟨hlower, hrest⟩ := hc h
  exact ⟨⟨hlt, hlower⟩, hrest⟩

theorem dropEnding_eq_self {endings : List String} {s : List Char}
    (h : ∀ ending ∈ endings, ¬ ending.toList <:+ s) : dropEnding endings s = s := by
  have hnone : endings.findSome? (fun ending => Chars.stripEnd? ending.toList s) = none := by
    refine List.findSome?_eq_none_iff.2 fun ending hending => ?_
    refine Option.eq_none_iff_forall_not_mem.2 fun body hbody => h ending hending ?_
    exact ⟨body, (Chars.stripEnd?_eq_some.1 hbody).symm⟩
  rw [dropEnding, hnone, Option.getD_none]

/-- A slug is its own slug. -/
theorem slugBody_of_separated {s : List Char} (h : Separated isSlugChar '-' s) : slugBody s = s := by
  have hplain := fun c hc => plain_of_isSlugChar (h.chars c hc)
  have hending : ∀ ending ∈ [".html", ".htm", ".liquid"], ¬ ending.toList <:+ s := by
    have hpoint : ∀ ending ∈ [".html", ".htm", ".liquid"], '.' ∈ ending.toList := by decide
    exact fun ending hmem hsuffix => (hplain _ (hsuffix.subset (hpoint ending hmem))).2.2 rfl
  have hmap : (s.map fun c => if isSlugChar c then c else '-') = s := by
    conv_rhs => rw [← List.map_id s]
    refine List.map_congr_left fun c hc => ?_
    rcases h.chars c hc with hslug | rfl
    · rw [if_pos hslug, id]
    · rfl
  rw [slugBody, Chars.trim_of_forall fun c hc => (hplain c hc).2.1,
    Chars.lower_eq_self fun c hc => (hplain c hc).1, dropEnding_eq_self hending, hmap,
    collapseHyphens_eq, Chars.collapse_eq_self h.apart (by simp), trimHyphens_eq, h.strip_eq]

theorem slug_of_isSlug {s : String} (h : IsSlug s) : slug s = s := by
  unfold slug
  rw [slugBody_of_separated h]
  split
  case h_1 hnil => exact absurd hnil h.nonempty
  case h_2 => exact String.ofList_toList

/-- Slugs are the texts that are their own slugs: making a slug twice changes nothing more, every such
text is the slug of a name, and the others are not. They are the texts of small ASCII letters, digits,
`_` and `-`, not empty, in which no hyphen stands first, last or beside another. -/
theorem range_slug (s : String) :
    slug (slug s) = slug s ∧ ((∃ name, slug name = s) ↔ slug s = s) ∧
      (slug s = s ↔ s ≠ "" ∧ (∀ c ∈ s.toList, isSlugChar c ∨ c = '-') ∧
        s.toList.head? ≠ some '-' ∧ s.toList.getLast? ≠ some '-' ∧ ¬ ['-', '-'] <:+: s.toList) := by
  have hfixed : slug s = s ↔ IsSlug s := ⟨fun h => h ▸ isSlug_slug s, slug_of_isSlug⟩
  refine ⟨slug_of_isSlug (isSlug_slug s), ⟨?_, fun h => ⟨s, h⟩⟩, hfixed.trans ⟨fun h => ?_, ?_⟩⟩
  · rintro ⟨name, rfl⟩
    exact slug_of_isSlug (isSlug_slug name)
  · have hne : s ≠ "" := fun hs => h.nonempty (String.toList_eq_nil_iff.2 hs)
    exact ⟨hne, h.chars, h.starts, h.ends, Chars.isChain_iff_not_infix.1 h.apart⟩
  · rintro ⟨hne, hchars, hstarts, hends, happart⟩
    exact ⟨fun hs => hne (String.toList_eq_nil_iff.1 hs), hchars, hstarts, hends,
      Chars.isChain_iff_not_infix.2 happart⟩

/-- Runs of letters and digits with one `_` between two of them. -/
def IsKey (s : String) : Prop :=
  ∃ runs, runs ≠ [] ∧ (∀ run ∈ runs, run ≠ [] ∧ ∀ c ∈ run, isKeyChar c) ∧
    s.toList = ['_'].intercalate runs

variable {s text : String}

theorem isKey_iff : IsKey s ↔ Separated isKeyChar '_' s.toList :=
  (Chars.separated_iff (by decide)).symm

instance decidableIsKey (s : String) : Decidable (IsKey s) :=
  decidable_of_iff _ isKey_iff.symm

theorem keyRuns_eq (after : Bool) (s : List Char) : keyRuns after s =
    Chars.collapse '_' after (s.map fun c => if isKeyChar c then c else '_') := by
  have hunderscore : isKeyChar '_' = false := by decide
  induction s generalizing after with
  | nil => rfl
  | cons c s ih =>
    rw [keyRuns, List.map_cons, Chars.collapse]
    by_cases hc : isKeyChar c
    · have hne : c ≠ '_' := by
        rintro rfl
        exact absurd hc (by simp [hunderscore])
      simp [hc, hne, ih, beq_eq_false_iff_ne.2 hne]
    · cases after <;> simp [hc, ih]

/-- A run of other characters leaves nothing at the start, so that dropping the last `_` is dropping
those at both ends. -/
theorem toList_key (text : String) : (key text).toList =
    Chars.strip '_' (keyRuns true (Chars.lower (Chars.trim text.toList))) := by
  rw [key, toList_onChars, keyRuns_eq]
  generalize (Chars.lower (Chars.trim text.toList)).map _ = runs
  have hstart : (Chars.collapse '_' true runs).head? ≠ some '_' :=
    (Chars.isChain_collapse true runs).2 rfl
  have hdrop : (Chars.collapse '_' true runs).dropWhile (· == '_') = Chars.collapse '_' true runs := by
    cases hruns : Chars.collapse '_' true runs with
    | nil => rfl
    | cons c rest =>
      rw [hruns] at hstart
      exact List.dropWhile_cons_of_neg (by simpa using hstart)
  rw [Chars.strip, hdrop]
  rfl

/-- Every text has a key, or nothing is left of it. -/
theorem isKey_key (h : key text ≠ "") : IsKey (key text) := by
  rw [isKey_iff, toList_key, keyRuns_eq]
  refine Chars.separated_strip (fun c hc => ?_) (Chars.isChain_collapse true _).1 ?_
  · obtain ⟨d, -, rfl⟩ := List.mem_map.1 (Chars.collapse_subset hc)
    by_cases hd : isKeyChar d <;> simp [hd]
  · rw [← keyRuns_eq, ← toList_key]
    exact fun hnil => h (String.toList_eq_nil_iff.1 hnil)

/-- A key is its own key. -/
theorem key_of_isKey (h : IsKey s) : key s = s := by
  have hs := isKey_iff.1 h
  have hplain := fun c hc =>
    plain_of_isSlugChar (Or.inl (isSlugChar_of_isKeyChar (hs.chars c hc)))
  have hmap : (s.toList.map fun c => if isKeyChar c then c else '_') = s.toList := by
    conv_rhs => rw [← List.map_id s.toList]
    refine List.map_congr_left fun c hc => ?_
    rcases hs.chars c hc with hkey | rfl
    · rw [if_pos hkey, id]
    · rfl
  rw [← String.toList_inj, toList_key, Chars.trim_of_forall fun c hc => (hplain c hc).2.1,
    Chars.lower_eq_self fun c hc => (hplain c hc).1, keyRuns_eq, hmap,
    Chars.collapse_eq_self hs.apart fun _ => hs.starts, hs.strip_eq]

theorem key_key (text : String) : key (key text) = key text := by
  by_cases h : key text = ""
  · rw [h]
    decide
  · exact key_of_isKey (isKey_key h)

/-- The letters and digits of a key are those that the characters of the text have in lower case. -/
theorem mem_key_iff {c : Char} (hc : isKeyChar c) :
    c ∈ (key text).toList ↔ ∃ d ∈ text.toList, c ∈ Chars.lowerChar d := by
  have hne : c ≠ '_' := by
    rintro rfl
    exact absurd hc (by decide)
  obtain ⟨⟨hascii, -⟩, hvisible, -⟩ := plain_of_isSlugChar (Or.inl (isSlugChar_of_isKeyChar (Or.inl hc)))
  have hblank : ∀ d, Chars.isBlank d → c ∉ Chars.lowerChar d := by
    intro d hd hmem
    rw [Chars.lowerChar_of_isBlank hd, List.mem_singleton] at hmem
    rw [← hmem, hvisible] at hd
    cases hd
  have hrun : ∀ s : List Char, c ∈ (s.map fun d => if isKeyChar d then d else '_') ↔ c ∈ s := by
    intro s
    rw [List.mem_map]
    constructor
    · rintro ⟨d, hd, hmapped⟩
      split at hmapped
      · rwa [← hmapped]
      · exact absurd hmapped.symm hne
    · exact fun hmem => ⟨c, hmem, if_pos hc⟩
  rw [toList_key, Chars.mem_strip hne, keyRuns_eq, Chars.mem_collapse hne, hrun,
    Chars.mem_lower_iff hascii]
  constructor
  · rintro ⟨d, hd, hmem⟩
    exact ⟨d, Chars.trim_subset _ hd, hmem⟩
  · rintro ⟨d, hd, hmem⟩
    obtain ⟨front, back, htext, hfront, hback⟩ := Chars.exists_trim text.toList
    rw [htext, List.mem_append, List.mem_append] at hd
    rcases hd with hd | hd | hd
    · exact absurd hmem (hblank d (hfront d hd))
    · exact ⟨d, hd, hmem⟩
    · exact absurd hmem (hblank d (hback d hd))

/-- Nothing is left of a text exactly if no character of it has an ASCII letter or digit in lower
case. -/
theorem key_eq_empty_iff :
    key text = "" ↔ ∀ d ∈ text.toList, ∀ c ∈ Chars.lowerChar d, isKeyChar c = false := by
  constructor
  · intro h d hd c hc
    refine Bool.not_eq_true _ ▸ fun hkey => ?_
    have hmem := (mem_key_iff hkey).2 ⟨d, hd, hc⟩
    rw [h] at hmem
    cases hmem
  · intro h
    by_contra hne
    have hkey := isKey_iff.1 (isKey_key hne)
    obtain ⟨c, rest, hfirst⟩ := List.exists_cons_of_ne_nil hkey.nonempty
    have hc : isKeyChar c := by
      refine (hkey.chars c (hfirst ▸ List.mem_cons_self)).resolve_right fun hunderscore => ?_
      exact hkey.starts (by rw [hfirst, hunderscore]; rfl)
    obtain ⟨d, hd, hmem⟩ := (mem_key_iff hc).1 (hfirst ▸ List.mem_cons_self)
    rw [h d hd c hmem] at hc
    cases hc

end ThemeSection.Text
