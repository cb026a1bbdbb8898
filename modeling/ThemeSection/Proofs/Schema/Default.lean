import ThemeSection.Proofs.Text.Rich
import ThemeSection.Schema.Default

/-!
Template syntax in defaults. A text is looked at as it was found, but what becomes the default has been
squeezed in between, and squeezing takes out zero-width characters. So the default is free of template
syntax unless such characters kept its marks apart, and then it is not.
-/

namespace ThemeSection

namespace Chars

variable {needle s : List Char} {p : Char → Bool} {f : Char → List Char}
  (hkept : ∀ c, p c → f c = [c])
  (hother : ∀ c, p c = false → f c ≠ [] ∧ ∀ d ∈ f c, p d = false)
include hkept hother

/-- Where only other characters are escaped, a text begins with a needle just as it did. -/
theorem prefix_flatMap_iff (hneedle : ∀ c ∈ needle, p c) :
    needle <+: s.flatMap f ↔ needle <+: s := by
  induction needle generalizing s with
  | nil => simp
  | cons a needle ih =>
    obtain ⟨ha, hrest⟩ := List.forall_mem_cons.1 hneedle
    cases s with
    | nil => simp
    | cons c s =>
      rw [List.flatMap_cons]
      cases hc : p c with
      | true =>
        rw [hkept c hc, List.singleton_append, List.cons_prefix_cons, List.cons_prefix_cons, ih hrest]
      | false =>
        obtain ⟨hne, hescaped⟩ := hother c hc
        obtain ⟨d, rest, hd⟩ := List.exists_cons_of_ne_nil hne
        have hpd : p d = false := hescaped d (hd ▸ List.mem_cons_self)
        rw [hd, List.cons_append, List.cons_prefix_cons, List.cons_prefix_cons]
        constructor
        · rintro ⟨rfl, -⟩
          rw [ha] at hpd
          cases hpd
        · rintro ⟨rfl, -⟩
          rw [ha] at hc
          cases hc

/-- Escaping other characters neither makes up an occurrence of a needle nor loses one. -/
theorem contains_flatMap (hne : needle ≠ []) (hneedle : ∀ c ∈ needle, p c) (s : List Char) :
    contains needle (s.flatMap f) = contains needle s := by
  have hskip : ∀ front t : List Char, (∀ c ∈ front, p c = false) →
      (needle <:+: front ++ t ↔ needle <:+: t) := by
    intro front t hfront
    induction front with
    | nil => rfl
    | cons c front ih =>
      obtain ⟨hc, hfront⟩ := List.forall_mem_cons.1 hfront
      have hstart : ¬ needle <+: c :: (front ++ t) := by
        obtain ⟨a, rest, rfl⟩ := List.exists_cons_of_ne_nil hne
        rw [List.cons_prefix_cons]
        rintro ⟨rfl, -⟩
        rw [hneedle a List.mem_cons_self] at hc
        cases hc
      rw [List.cons_append, List.infix_cons_iff, or_iff_right hstart, ih hfront]
  rw [Bool.eq_iff_iff, contains_iff, contains_iff]
  induction s with
  | nil => rfl
  | cons c s ih =>
    have hstart := prefix_flatMap_iff hkept hother (s := c :: s) hneedle
    rw [List.flatMap_cons] at hstart ⊢
    cases hc : p c with
    | true =>
      rw [hkept c hc, List.singleton_append] at hstart ⊢
      rw [List.infix_cons_iff, List.infix_cons_iff, hstart, ih]
    | false =>
      have hsame := hskip [c] s (List.forall_mem_singleton.2 hc)
      rw [hskip (f c) _ (hother c hc).2, ih, ← hsame]
      rfl

end Chars

namespace Text

/-- A text as it shows, without its zero-width characters. -/
def visible : String → String :=
  onChars (·.filter (!Chars.isZeroWidth ·))

end Text

namespace Liquid

/-- Whether a text has no template syntax but shows some: zero-width characters keep marks apart. -/
def HidesMarks (text : String) : Prop :=
  hasMarks text = false ∧ hasMarks (Text.visible text) = true

instance decidableHidesMarks (text : String) : Decidable (HidesMarks text) :=
  inferInstanceAs (Decidable (_ ∧ _))

/-- A character that marks are made of. -/
def isMarkChar (c : Char) : Bool :=
  c == '\x7b' || c == '\x7d' || c == '%'

theorem isMarkChar_of_mem : ∀ mark ∈ marks, mark.toList ≠ [] ∧
    ∀ c ∈ mark.toList, isMarkChar c ∧ Chars.isBlank c = false := by decide

theorem hasMarks_congr {a b : String}
    (h : ∀ mark ∈ marks, Text.contains mark a = Text.contains mark b) : hasMarks a = hasMarks b := by
  rw [hasMarks, hasMarks, Text.containsAny, Text.containsAny, Bool.eq_iff_iff, List.any_eq_true,
    List.any_eq_true]
  exact exists_congr fun mark => and_congr_right fun hmark => by rw [h mark hmark]

theorem hasMarks_trim (text : String) : hasMarks (Text.trim text) = hasMarks text := by
  refine hasMarks_congr fun mark hmark => ?_
  obtain ⟨hne, hchars⟩ := isMarkChar_of_mem mark hmark
  rw [Text.contains, Text.trim, Text.toList_onChars,
    Chars.contains_trim hne fun c hc => (hchars c hc).2, Text.contains]

theorem hasMarks_squeeze (text : String) :
    hasMarks (Text.squeeze text) = hasMarks (Text.visible text) := by
  refine hasMarks_congr fun mark hmark => ?_
  obtain ⟨hne, hchars⟩ := isMarkChar_of_mem mark hmark
  rw [Text.contains, Text.squeeze, Text.toList_onChars,
    Chars.contains_squeeze hne fun c hc => (hchars c hc).2, Text.contains, Text.visible,
    Text.toList_onChars]

theorem hasMarks_visible_trim (text : String) :
    hasMarks (Text.visible (Text.trim text)) = hasMarks (Text.visible text) := by
  have hsqueeze : Text.squeeze (Text.trim text) = Text.squeeze text := by
    rw [Text.squeeze, Text.trim, Text.onChars, Text.toList_onChars, Chars.squeeze_trim]
    rfl
  rw [← hasMarks_squeeze, hsqueeze, hasMarks_squeeze]

theorem hasMarks_escapeHtml (text : String) : hasMarks (Text.escapeHtml text) = hasMarks text := by
  have hkept : ∀ c, isMarkChar c → Text.escapeHtmlChar c = [c] := by
    intro c hc
    have hcases : (c = '\x7b' ∨ c = '\x7d') ∨ c = '%' := by simpa [isMarkChar] using hc
    rcases hcases with (rfl | rfl) | rfl <;> rfl
  have hother : ∀ c, isMarkChar c = false →
      Text.escapeHtmlChar c ≠ [] ∧ ∀ d ∈ Text.escapeHtmlChar c, isMarkChar d = false := by
    intro c hc
    unfold Text.escapeHtmlChar
    split
    · decide
    · split
      · decide
      · split
        · decide
        · exact ⟨List.cons_ne_nil _ _, List.forall_mem_singleton.2 hc⟩
  refine hasMarks_congr fun mark hmark => ?_
  obtain ⟨hne, hchars⟩ := isMarkChar_of_mem mark hmark
  rw [Text.contains, Text.escapeHtml, Text.toList_onChars,
    Chars.contains_flatMap hkept hother hne fun c hc => (hchars c hc).1, Text.contains]

/-- A paragraph has the template syntax that its text shows. -/
theorem hasMarks_rich_singleton (text : String) :
    hasMarks (Text.rich [text]) = hasMarks (Text.visible text) := by
  by_cases hempty : (Text.squeeze text).isEmpty
  · have hrich : Text.rich [text] = "" := by simp [Text.rich, hempty]
    rw [hrich, ← hasMarks_squeeze, String.isEmpty_iff.1 hempty]
  · have hlist : (Text.rich [text]).toList = [] ++ '<' :: ("p".toList ++ '>' ::
        ((Text.escapeHtml (Text.squeeze text)).toList ++ '<' :: "/p>".toList)) := by
      simp [Text.toList_rich, hempty]
    have hmark : ∀ mark ∈ marks, '<' ∉ mark.toList ∧ '>' ∉ mark.toList ∧
        ∀ piece ∈ [[], "p".toList, "/p>".toList], Chars.contains mark.toList piece = false := by
      decide
    rw [← hasMarks_squeeze, ← hasMarks_escapeHtml (Text.squeeze text)]
    refine hasMarks_congr fun mark hmem => ?_
    obtain ⟨hless, hgreater, hpieces⟩ := hmark mark hmem
    rw [Text.contains, hlist, Chars.contains_append_cons hless, Chars.contains_append_cons hgreater,
      Chars.contains_append_cons hless, hpieces [] (by simp), hpieces "p".toList (by simp),
      hpieces "/p>".toList (by simp), Bool.false_or, Bool.false_or, Bool.or_false, Text.contains]

end Liquid

/-- Whether the text that is found for a setting of this kind is squeezed. -/
def SettingKind.isSqueezed : SettingKind → Bool
  | text | textarea | color | imagePicker | collection => true
  | richText | url | number | range | checkbox => false

open Liquid

section Found

variable {found : Option String} {kind : SettingKind} {fallback default : String}

/-- The text that a default is made of: what was found, unless it has template syntax. -/
def cleanText (found : Option String) : String :=
  if hasMarks (Text.trim (found.getD "")) then "" else Text.trim (found.getD "")

theorem hasMarks_cleanText (found : Option String) : hasMarks (cleanText found) = false := by
  unfold cleanText
  split
  · decide
  · next h => exact Bool.eq_false_iff.2 h

/-- What a clean text shows is what the text that was found hides. -/
theorem hasMarks_visible_cleanText (found : Option String) :
    hasMarks (Text.visible (cleanText found)) ↔ ∃ text ∈ found, HidesMarks text := by
  cases found with
  | none => simp only [cleanText, Option.getD_none]; decide
  | some text =>
    simp only [cleanText, Option.getD_some, Option.mem_some_iff, exists_eq_left', HidesMarks,
      hasMarks_trim]
    cases hmarks : hasMarks text with
    | true => simp only [if_true, Bool.true_eq_false, false_and, iff_false]; decide
    | false => simp [hasMarks_visible_trim]

theorem cleanText_eq_empty_iff (found : Option String) :
    cleanText found = "" ↔ ∀ text ∈ found, Text.isBlank text ∨ hasMarks text := by
  have hempty : ∀ text : String, Text.trim text = "" ↔ Text.isBlank text := fun text => by
    rw [Text.trim, Text.onChars, String.ofList_eq_empty_iff, Chars.trim_eq_nil_iff, Text.isBlank,
      List.all_eq_true]
  cases found with
  | none => simp only [cleanText, Option.getD_none]; decide
  | some text =>
    simp only [cleanText, Option.getD_some, Option.mem_some_iff, forall_eq', hasMarks_trim]
    cases hasMarks text with
    | true => simp
    | false => simp [hempty]

theorem sanitizeDefault_squeezed (hkind : kind.isSqueezed) :
    sanitizeDefault kind found fallback = .string (if (Text.squeeze (cleanText found)).isEmpty
      then fallback else Text.squeeze (cleanText found)) := by
  cases kind with
  | text | textarea | color | imagePicker | collection => rfl
  | richText | url | number | range | checkbox => cases hkind

/-- With a fallback free of template syntax, a default has some exactly if zero-width characters kept
it apart: in the text that was found, for a kind whose text is squeezed, or in the fallback, where rich
text has to be made of it. -/
theorem hasMarks_sanitizeDefault_iff (hfallback : hasMarks fallback = false)
    (hdefault : sanitizeDefault kind found fallback = .string default) :
    hasMarks default ↔ (kind.isSqueezed ∧ ∃ text ∈ found, HidesMarks text) ∨
      (kind = .richText ∧ HidesMarks fallback ∧ ∀ text ∈ found, Text.isBlank text ∨ hasMarks text) := by
  have hclean := hasMarks_cleanText found
  by_cases hsqueezed : kind.isSqueezed
  · have hrich : kind ≠ .richText := by rintro rfl; cases hsqueezed
    rw [sanitizeDefault_squeezed hsqueezed] at hdefault
    simp only [hsqueezed, hrich, true_and, false_and, or_false, ← hasMarks_visible_cleanText,
      ← hasMarks_squeeze, ← Json.Value.string.inj hdefault]
    split
    · next hempty => rw [String.isEmpty_iff.1 hempty, hfallback]; decide
    · rfl
  · simp only [hsqueezed, false_and, false_or, ← cleanText_eq_empty_iff, Bool.false_eq_true]
    cases kind with
    | richText =>
      have hrich : (if (cleanText found).isEmpty then Text.rich [fallback] else cleanText found) =
          default := Json.Value.string.inj hdefault
      rw [← hrich]
      by_cases hempty : cleanText found = ""
      · simp [hempty, hasMarks_rich_singleton, HidesMarks, hfallback]
      · simp [hempty, hclean]
    | url =>
      have hnone : hasMarks "/" = false := by decide
      have hurl : (if (cleanText found).isEmpty || cleanText found == "#" ||
          Text.startsWith "javascript:" (cleanText found) then "/" else cleanText found) = default :=
        Json.Value.string.inj hdefault
      rw [← hurl]
      split <;> simp [hnone, hclean]
    | number | range | checkbox => simp only [sanitizeDefault, reduceCtorEq] at hdefault
    | text | textarea | color | imagePicker | collection => exact absurd rfl hsqueezed

/-- Zero-width characters keep the braces of a name apart, and the default of a text setting joins
them. -/
theorem hasMarks_sanitizeDefault_text :
    sanitizeDefault .text (some "\x7b\u200B\x7b shop \x7d\u200B\x7d") "Heading" =
        .string "\x7b\x7b shop \x7d\x7d" ∧
      hasMarks "Heading" = false ∧ hasMarks "\x7b\x7b shop \x7d\x7d" := by
  have hdefault : sanitizeDefault .text (some "\x7b\u200B\x7b shop \x7d\u200B\x7d") "Heading" =
      .string "\x7b\x7b shop \x7d\x7d" :=
    (sanitizeDefault_squeezed rfl).trans (congrArg _ (by decide))
  refine ⟨hdefault, by decide, (hasMarks_sanitizeDefault_iff (by decide) hdefault).2 (.inl ?_)⟩
  exact ⟨rfl, _, rfl, by decide⟩

end Found

end ThemeSection
