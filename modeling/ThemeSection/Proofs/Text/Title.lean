import ThemeSection.Proofs.Chars.Blank
import ThemeSection.Proofs.Text.Slug
import ThemeSection.Text.Label

/-!
The titles of slugs. A title is made of ASCII letters, digits and spaces, so that each of them is a
user-perceived character of its own and none opens a tag; it starts with a capital letter or a digit,
and it is no longer than titles may be.
-/

namespace ThemeSection.Chars

/-- The ASCII characters from the space to the last small letter. -/
def isBasic (c : Char) : Bool :=
  0x20 ≤ c.toNat && c.toNat ≤ 0x7A

theorem ofChar_of_isBasic {c : Char} (h : isBasic c) :
    ClusterClass.ofChar c = .other := by
  simp only [isBasic, Bool.and_eq_true, decide_eq_true_eq] at h
  obtain ⟨hlow, hhigh⟩ := h
  have hreturn : c.toNat ≠ 0x0D := by omega
  have hfeed : c.toNat ≠ 0x0A := by omega
  have hdelete : c.toNat < 0x7F := by omega
  simp [ClusterClass.ofChar, hreturn, hfeed, hlow, hdelete]

theorem contains_conjunctLinkers_of_isBasic {c : Char} (h : isBasic c) :
    conjunctLinkers.contains c.toNat = false := by
  have hall : ∀ n ∈ conjunctLinkers, 0x80 ≤ n := by decide
  simp only [isBasic, Bool.and_eq_true, decide_eq_true_eq] at h
  rw [← Bool.not_eq_true, List.contains_iff_mem]
  intro hmem
  have hlinker := hall _ hmem
  omega

theorem breaks_of_isBasic (state : Option ClusterState) {c d : Char} (hc : isBasic c)
    (hd : isBasic d) : (ClusterState.next state c).breaks d := by
  have hpictograph : ((ClusterState.next state c).pictograph == .joined) = false := by
    simp only [ClusterState.next, ofChar_of_isBasic hc]
    split <;> rfl
  have hconjunct : ((ClusterState.next state c).conjunct == .linked) = false := by
    simp only [ClusterState.next, ofChar_of_isBasic hc,
      contains_conjunctLinkers_of_isBasic hc]
    split <;> rfl
  have hlast : (ClusterState.next state c).last = .other := ofChar_of_isBasic hc
  have hregional : (ClusterState.next state c).oddRegional = false := by
    simp [ClusterState.next, ofChar_of_isBasic hc]
  simp [ClusterState.breaks, hlast, ofChar_of_isBasic hd, hpictograph, hconjunct, hregional]

/-- Each basic character is a cluster of its own. -/
theorem clusters_of_isBasic {s : List Char} (h : ∀ c ∈ s, isBasic c) :
    clusters s = s.map fun c => [c] := by
  suffices hgo : ∀ state, clusters.go state s = s.map fun c => [c] from hgo none
  induction s with
  | nil => exact fun state => rfl
  | cons c s ih =>
    intro state
    obtain ⟨hc, hs⟩ := List.forall_mem_cons.1 h
    cases s with
    | nil => rfl
    | cons d rest =>
      rw [clusters.go, ih hs]
      simp only [List.map_cons]
      rw [if_pos (breaks_of_isBasic state hc (hs d List.mem_cons_self))]

/-- A character that is not blank stays when blanks are trimmed from the end. -/
theorem mem_trimEnd {c : Char} {s : List Char} (hc : isBlank c = false) (h : c ∈ s) :
    c ∈ trimEnd s := by
  obtain ⟨blanks, hs, hblanks⟩ := exists_trimEnd s
  rw [hs, List.mem_append] at h
  rcases h with h | h
  · exact h
  · cases hc.symm.trans (hblanks c h)

end ThemeSection.Chars

namespace ThemeSection.Text

open Chars (isBasic)

theorem clusterCount_of_isBasic {s : String} (h : ∀ c ∈ s.toList, isBasic c) :
    clusterCount s = s.toList.length := by
  rw [clusterCount, Chars.clusters_of_isBasic h, List.length_map]

theorem toNat_lt_of_isKeyChar {c : Char} (h : isKeyChar c) : c.toNat < 0x80 :=
  toNat_lt_of_isSlugChar (Or.inl (isSlugChar_of_isKeyChar (Or.inl h)))

/-- The capital form of a letter, or a digit, is one visible character. -/
theorem upperChar_of_isKeyChar {c : Char} (h : isKeyChar c) :
    Chars.upperChar c = [c.toUpper] ∧ isBasic c.toUpper ∧
      Chars.isBlank c.toUpper = false := by
  have hall : ∀ n : Fin 0x80, isKeyChar (Char.ofNat n) →
      isBasic (Char.ofNat n).toUpper ∧ Chars.isBlank (Char.ofNat n).toUpper = false := by
    decide
  have hc := hall ⟨c.toNat, toNat_lt_of_isKeyChar h⟩
  rw [Char.ofNat_toNat] at hc
  exact ⟨if_pos (toNat_lt_of_isKeyChar h), hc h⟩

theorem isBasic_of_isKeyChar {c : Char} (h : isKeyChar c) : isBasic c := by
  have hall : ∀ n : Fin 0x80, isKeyChar (Char.ofNat n) → isBasic (Char.ofNat n) := by decide
  have hc := hall ⟨c.toNat, toNat_lt_of_isKeyChar h⟩
  rw [Char.ofNat_toNat] at hc
  exact hc h

/-- A word of a title: a capital letter or a digit, and basic characters after it. -/
def IsTitleWord (word : List Char) : Prop :=
  (∀ c ∈ word, isBasic c) ∧ ∃ first rest, word = first :: rest ∧ Chars.isBlank first = false

theorem isTitleWord_of_isKeyChar {c : Char} {word : List Char} (h : ∀ d ∈ c :: word, isKeyChar d) :
    IsTitleWord (Chars.upperChar c ++ word) := by
  obtain ⟨hc, hword⟩ := List.forall_mem_cons.1 h
  obtain ⟨hupper, hbasic, hblank⟩ := upperChar_of_isKeyChar hc
  rw [hupper]
  refine ⟨List.forall_mem_cons.2 ⟨hbasic, fun d hd => ?_⟩, _, _, rfl, hblank⟩
  exact isBasic_of_isKeyChar (hword d hd)

/-- The words of a title with spaces between them. -/
theorem isTitleWord_intercalate {words : List (List Char)} (hne : words ≠ [])
    (h : ∀ word ∈ words, IsTitleWord word) : IsTitleWord ([' '].intercalate words) := by
  induction words with
  | nil => exact absurd rfl hne
  | cons word rest ih =>
    obtain ⟨hword, hrest⟩ := List.forall_mem_cons.1 h
    cases rest with
    | nil =>
      rw [List.intercalate_singleton]
      exact hword
    | cons next rest =>
      obtain ⟨hbasic, first, others, rfl, hblank⟩ := hword
      obtain ⟨hmore, -⟩ := ih (List.cons_ne_nil next rest) hrest
      rw [List.intercalate_cons_cons]
      refine ⟨fun c hc => ?_, first, _, rfl, hblank⟩
      rw [List.mem_append, List.mem_append, List.mem_singleton] at hc
      rcases hc with (hc | rfl) | hc
      · exact hbasic c hc
      · decide
      · exact hmore c hc

theorem isTitleWord_titleCase {slug : String} (h : ∀ c ∈ slug.toList, isSlugChar c ∨ c = '-')
    (hne : titleCase slug ≠ "") : IsTitleWord (titleCase slug).toList := by
  rw [titleCase] at hne ⊢
  generalize hwords : (Chars.splitWhere (fun c => c == '-' || c == '_' || Chars.isBlank c)
    slug.toList).filter (!·.isEmpty) = words at hne ⊢
  have hkeys : ∀ word ∈ words, word ≠ [] ∧ ∀ c ∈ word, isKeyChar c := by
    intro word hword
    obtain ⟨hmem, hword⟩ := List.mem_filter.1 (hwords ▸ hword)
    refine ⟨by simpa using hword, fun c hc => ?_⟩
    obtain ⟨hslug, hseparator⟩ := Chars.of_mem_splitWhere hmem hc
    have hc := h c hslug
    simp only [Bool.or_eq_false_iff, beq_eq_false_iff_ne] at hseparator
    simpa [isSlugChar, isKeyChar, hseparator.1.1, hseparator.1.2] using hc
  rw [join, String.toList_intercalate, List.map_map]
  refine isTitleWord_intercalate (fun hnil => hne ?_) (List.forall_mem_map.2 fun word hword => ?_)
  · rw [List.map_eq_nil_iff.1 hnil]
    rfl
  · obtain ⟨hnonempty, hchars⟩ := hkeys word hword
    cases word with
    | nil => exact absurd rfl hnonempty
    | cons c rest => simpa using isTitleWord_of_isKeyChar hchars

/-- A title that is cut off keeps its first character, and no blank is left at its end. -/
theorem isTitleWord_trimEnd_take {title : List Char} (h : IsTitleWord title) :
    IsTitleWord (Chars.trimEnd (title.take maxTitleLength)) := by
  obtain ⟨hbasic, first, rest, rfl, hblank⟩ := h
  obtain ⟨blanks, hcut, -⟩ := Chars.exists_trimEnd ((first :: rest).take maxTitleLength)
  have hsubset : ∀ c ∈ Chars.trimEnd ((first :: rest).take maxTitleLength), c ∈ first :: rest := by
    intro c hc
    apply List.mem_of_mem_take
    rw [hcut]
    exact List.mem_append_left blanks hc
  refine ⟨fun c hc => hbasic c (hsubset c hc), ?_⟩
  have hfirst : first ∈ Chars.trimEnd ((first :: rest).take maxTitleLength) :=
    Chars.mem_trimEnd hblank List.mem_cons_self
  cases htrim : Chars.trimEnd ((first :: rest).take maxTitleLength) with
  | nil =>
    rw [htrim] at hfirst
    cases hfirst
  | cons c others =>
    rw [htrim] at hcut
    obtain rfl := (List.cons.inj hcut).1
    exact ⟨_, _, rfl, hblank⟩

theorem toList_schemaTitle {slug title : String}
    (htitle : (if (titleCase slug).isEmpty then "Section" else titleCase slug) = title)
    (h : IsTitleWord title.toList) :
    (schemaTitle slug).toList = Chars.trimEnd (title.toList.take maxTitleLength) := by
  rw [schemaTitle, htitle, toList_onChars, Chars.clusters_of_isBasic h.1, ← List.map_take,
    ← List.flatMap_def, List.flatMap_singleton']

/-- The title of a slug is visible and not too long. -/
theorem isTitleWord_schemaTitle (name : String) :
    IsTitleWord (schemaTitle (slug name)).toList ∧
      clusterCount (schemaTitle (slug name)) ≤ maxTitleLength := by
  obtain ⟨title, htitle, hword⟩ : ∃ title, (if (titleCase (slug name)).isEmpty then "Section"
      else titleCase (slug name)) = title ∧ IsTitleWord title.toList := by
    split
    case isTrue => exact ⟨_, rfl, by decide, _, _, rfl, by decide⟩
    case isFalse hne =>
      refine ⟨_, rfl, isTitleWord_titleCase (fun c => isSlugChar_or_hyphen_of_mem_slug) ?_⟩
      simpa [String.isEmpty_iff] using hne
  have hcut := isTitleWord_trimEnd_take hword
  rw [← toList_schemaTitle htitle hword] at hcut
  refine ⟨hcut, ?_⟩
  rw [clusterCount_of_isBasic hcut.1, toList_schemaTitle htitle hword]
  obtain ⟨blanks, htake, -⟩ := Chars.exists_trimEnd (title.toList.take maxTitleLength)
  have hlength := congrArg List.length htake
  rw [List.length_append] at hlength
  have hmax := List.length_take_le maxTitleLength title.toList
  omega

end ThemeSection.Text
