import ThemeSection.Liquid.Template
import ThemeSection.Proofs.Markup.Tag
import ThemeSection.Proofs.Selector.ClassName
import ThemeSection.Proofs.Text.Slug

/-!
How the style sheet and the script of a section find it on a page. Both name the class of the element
that is put around the body. That name comes from a slug, which may start with a digit, and then the
selector that is written for it is none.
-/

namespace ThemeSection.Liquid

open Markup Text

/-- The class of the element around the body of a section. -/
def sectionClass (slug : String) : String :=
  slug ++ "-section"

/-- The selector by which a section is found. -/
def hook (slug : String) : String :=
  "." ++ sectionClass slug

theorem exists_stylesheet (slug css : String) :
    ∃ before after, stylesheet slug css = before ++ hook slug ++ " \x7b" ++ after := by
  have hrule : "-section \x7b\n\x7d\n\n." = "-section" ++ (" \x7b" ++ "\n\x7d\n\n.") := by rfl
  refine ⟨segmentTag "stylesheet" ++ "\n" ++ (if css.isEmpty then "" else css ++ "\n\n"),
    "\n\x7d\n\n." ++ slug ++ "-section__inner \x7b\n\x7d\n" ++ segmentTag "endstylesheet", ?_⟩
  rw [stylesheet, hrule]
  simp only [hook, sectionClass, String.append_assoc]

theorem exists_readyHook (slug : String) : ∃ before between after, readyHook slug =
    before ++ ".querySelector('" ++ hook slug ++ "')" ++ between ++
      ".querySelector('" ++ hook slug ++ "')" ++ after := by
  have hlookup : ".querySelector('." ++ slug ++ "-section')" = ".querySelector('" ++ hook slug ++ "')" := by
    have hopen : ".querySelector('." = ".querySelector('" ++ "." := by rfl
    have hclose : "-section')" = "-section" ++ "')" := by rfl
    simp only [hopen, hclose, hook, sectionClass, String.append_assoc]
  obtain ⟨before, between, after, hready⟩ : ∃ before between after, readyHook slug =
      before ++ (".querySelector('." ++ slug ++ "-section')") ++ between ++
        (".querySelector('." ++ slug ++ "-section')") ++ after := ⟨_, _, _, rfl⟩
  refine ⟨before, between, after, ?_⟩
  rw [hready, hlookup]
  simp only [String.append_assoc]

theorem exists_javascript (slug : String) (scripts external : List String) :
    ∃ before between after, javascript slug scripts external =
      before ++ ".querySelector('" ++ hook slug ++ "')" ++ between ++
        ".querySelector('" ++ hook slug ++ "')" ++ after := by
  obtain ⟨head, hhead⟩ : ∃ head, javascript slug scripts external =
      head ++ readyHook slug ++ segmentTag "endjavascript" := ⟨_, rfl⟩
  obtain ⟨before, between, after, hready⟩ := exists_readyHook slug
  refine ⟨head ++ before, between, after ++ segmentTag "endjavascript", ?_⟩
  rw [hhead, hready]
  simp only [String.append_assoc]

/-- The characters of a class stand for themselves in selectors and in attributes. -/
theorem plain_of_isSlugChar_or_hyphen {c : Char} (h : isSlugChar c ∨ c = '-') :
    (Selector.Token.isNameChar c ∧ c ≠ '\x00') ∧ Selector.isSeparator c = false ∧ c ≠ '&' ∧ c ≠ '"' := by
  have hall : ∀ n : Fin 0x80, isSlugChar (Char.ofNat n) ∨ Char.ofNat n = '-' →
      (Selector.Token.isNameChar (Char.ofNat n) ∧ Char.ofNat n ≠ '\x00') ∧
        Selector.isSeparator (Char.ofNat n) = false ∧ Char.ofNat n ≠ '&' ∧ Char.ofNat n ≠ '"' := by
    decide
  have hc := hall ⟨c.toNat, toNat_lt_of_isSlugChar h⟩
  rw [Char.ofNat_toNat] at hc
  exact hc h

variable {slug : String}

theorem isSlugChar_or_hyphen_of_mem_sectionClass (h : IsSlug slug) {c : Char}
    (hc : c ∈ (sectionClass slug).toList) : isSlugChar c ∨ c = '-' := by
  rw [sectionClass, String.toList_append, List.mem_append] at hc
  rcases hc with hc | hc
  · exact h.chars c hc
  · have hall : ∀ c ∈ "-section".toList, isSlugChar c ∨ c = '-' := by decide
    exact hall c hc

theorem sectionClass_ne_empty (slug : String) : sectionClass slug ≠ "" := by
  rw [sectionClass, ne_eq, String.append_eq_empty_iff]
  exact fun h => absurd h.2 (by decide)

/-- A selector of the class of a section, unless its slug starts with a digit. Then it is none. -/
theorem read?_hook (h : IsSlug slug) : Selector.read? (hook slug) =
    if slug.toList.head?.any Char.isDigit then none else some (Selector.classes [sectionClass slug]) := by
  obtain ⟨c, s, hs⟩ := List.exists_cons_of_ne_nil h.nonempty
  have hclass : (sectionClass slug).toList = c :: (s ++ "-section".toList) := by
    rw [sectionClass, String.toList_append, hs]
    rfl
  have hhook : hook slug = String.ofList ('.' :: c :: (s ++ "-section".toList)) := by
    rw [← String.toList_inj, String.toList_ofList, ← hclass, hook, String.toList_append]
    rfl
  rw [hhook, hs, List.head?_cons, Option.any_some]
  split
  case isTrue hdigit => exact Selector.read?_point_digit hdigit _
  case isFalse hdigit =>
    have hchars : ∀ d ∈ c :: (s ++ "-section".toList), Selector.Token.isNameChar d ∧ d ≠ '\x00' :=
      fun d hd => (plain_of_isSlugChar_or_hyphen
        (isSlugChar_or_hyphen_of_mem_sectionClass h (hclass ▸ hd))).1
    have hstart : Selector.Token.isNameStart c := by
      have hname := (hchars c List.mem_cons_self).1
      have hhyphen : c ≠ '-' := fun heq => h.starts (by rw [hs, heq]; rfl)
      simpa [Selector.Token.isNameChar, hdigit, hhyphen] using hname
    rw [Selector.read?_class hstart hchars, ← hclass, String.ofList_toList]

/-- The tag of a wrapper after its class. -/
def wrapperRest : String :=
  " id=\"section-" ++ output "section.id" ++ "\"" ++ colorStyle ++ ">"

theorem wrapper_eq (slug body : String) : ∃ content, wrapper slug body =
    "<div class=\"" ++ sectionClass slug ++ "\"" ++ wrapperRest ++ content := by
  have hid : "-section\" id=\"section-" = "-section" ++ ("\"" ++ " id=\"section-") := by rfl
  have hend : ">\n  <div class=\"" = ">" ++ "\n  <div class=\"" := by rfl
  unfold wrapper wrapperRest
  refine ⟨"\n  <div class=\"" ++ slug ++ "-section__inner\">\n" ++ trim body ++ "\n  </div>\n</div>", ?_⟩
  rw [hid, hend, sectionClass]
  simp only [String.append_assoc]

theorem tagRest?_wrapperRest : ∃ attributes,
    tagRest? wrapperRest.toList.length [] wrapperRest.toList = some (attributes, false, []) := by
  have hread : (tagRest? wrapperRest.toList.length [] wrapperRest.toList).map (·.2) =
      some (false, []) := by
    unfold wrapperRest colorStyle segmentTag reference settingPath output Owner.name
    simp only [String.toList_append]
    decide +kernel
  obtain ⟨⟨attributes, _⟩, hread, heq⟩ := Option.map_eq_some_iff.1 hread
  exact ⟨attributes, by rw [hread, ← heq]⟩

theorem toList_div (word rest content : String) :
    ("<div class=\"" ++ word ++ "\"" ++ rest ++ content).toList =
      '<' :: 'd' :: (['i', 'v'] ++ ' ' :: 'c' :: (['l', 'a', 's', 's'] ++ '=' :: '"' ::
        (word.toList ++ '"' :: (rest.toList ++ content.toList)))) := by
  have hopen : "<div class=\"".toList =
      '<' :: 'd' :: (['i', 'v'] ++ ' ' :: 'c' :: (['l', 'a', 's', 's'] ++ ['=', '"'])) := by rfl
  have hquote : "\"".toList = ['"'] := by rfl
  rw [String.toList_append, String.toList_append, String.toList_append, String.toList_append, hopen,
    hquote]
  simp only [List.append_assoc, List.cons_append, List.nil_append]

/-- The text of a wrapper starts with a `div` whose first attribute is the class of the section. -/
theorem read_wrapper (h : IsSlug slug) (body : String) :
    ∃ more left, Token.read false (wrapper slug body).toList =
        ([.startTag ⟨"div", ("class", sectionClass slug) :: more, false⟩], left) ∧
      ∀ item ∈ more, item.1 ≠ "class" := by
  have hplain := fun c hc =>
    plain_of_isSlugChar_or_hyphen (isSlugChar_or_hyphen_of_mem_sectionClass (c := c) h hc)
  obtain ⟨content, hwrapper⟩ := wrapper_eq slug body
  obtain ⟨attributes, hrest⟩ := tagRest?_wrapperRest
  have hquote : '"' ∉ (sectionClass slug).toList := fun hmem => (hplain _ hmem).2.2.2 rfl
  have hname : ∀ c ∈ 'd' :: ['i', 'v'], endsTagName c = false := by decide
  have hfirst : endsTagName 'c' = false := by decide
  have hkey : ∀ c ∈ ['l', 'a', 's', 's'], endsAttributeName c = false := by decide
  obtain ⟨more, hread, hmore⟩ :=
    read_startTag_quoted (by decide) hname hfirst hkey hquote hrest false content.toList
  rw [attributeText_eq fun c hc => ⟨(hplain c hc).2.2.1, (hplain c hc).1.2⟩, String.ofList_toList] at hread
  refine ⟨more, content.toList, ?_, hmore⟩
  rw [hwrapper, toList_div]
  exact hread

/-- The style sheet and the script of an assembled section find it by a point before the class of the
wrapper. That is a selector exactly if the slug does not start with a digit. Then it selects every
element that has the tag which the text of the wrapper starts with. -/
theorem hook_selects_wrapper (name : String) (parts : Parts) :
    let slug := Text.slug name
    (∃ head schema, assemble { parts with slug := slug } =
      head ++ wrapper slug parts.body ++ schema ++ stylesheet slug parts.css ++ "\n\n" ++
        javascript slug parts.scripts parts.externalScripts ++ "\n") ∧
      (∃ before after, stylesheet slug parts.css = before ++ hook slug ++ " \x7b" ++ after) ∧
      (∃ before between after, javascript slug parts.scripts parts.externalScripts =
        before ++ ".querySelector('" ++ hook slug ++ "')" ++ between ++
          ".querySelector('" ++ hook slug ++ "')" ++ after) ∧
      Selector.read? (hook slug) = (if slug.toList.head?.any Char.isDigit then none
        else some (Selector.classes [sectionClass slug])) ∧
      ∃ more left, Token.read false (wrapper slug parts.body).toList =
          ([.startTag ⟨"div", ("class", sectionClass slug) :: more, false⟩], left) ∧
        ∀ p : Place, p.tree.element? =
            some (.html "div", Draft.plainAttributes (("class", sectionClass slug) :: more)) →
          Selector.holds (Selector.classes [sectionClass slug]) p := by
  intro slug
  have hslug : IsSlug slug := isSlug_slug name
  obtain ⟨more, left, hread, hmore⟩ := read_wrapper hslug parts.body
  refine ⟨?_, exists_stylesheet slug parts.css,
    exists_javascript slug parts.scripts parts.externalScripts, read?_hook hslug, more, left, hread, ?_⟩
  · refine ⟨comment slug parts.sourceName ++ "\n\n" ++ prologue ++ "\n\n",
      "\n\n" ++ schemaSegment parts.schema ++ "\n\n", ?_⟩
    simp [assemble, join, String.append_assoc]
  · intro p helement
    exact Selector.holds_class (sectionClass_ne_empty slug)
      (fun c hc => (plain_of_isSlugChar_or_hyphen
        (isSlugChar_or_hyphen_of_mem_sectionClass hslug hc)).2.1)
      helement (get?_plainAttributes hmore)

-- The name of a layout with two columns: nothing puts an escape before its digit.
example : hook (Text.slug "2-col.html") = ".2-col-section" ∧
    Selector.read? ".2-col-section" = none := by
  decide +kernel

end ThemeSection.Liquid
