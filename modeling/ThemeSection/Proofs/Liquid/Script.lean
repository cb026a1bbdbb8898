import ThemeSection.Proofs.Artifact.RepairTwice
import ThemeSection.Proofs.Conversion
import ThemeSection.Proofs.Liquid.Reference

/-!
The script of a section, line by line. It is put together from lines of the section's own, from the code
of the page, which may have several lines, and from remarks, of which one names each external script.
A remark is a comment as far as its line goes, and an address that ends a line takes the rest of itself
out of the comment.
-/

namespace ThemeSection

namespace Chars

/-- What follows the first occurrence of a needle goes on with what follows any other. -/
theorem suffix_of_splitFirst {needle x y before rest : List Char}
    (h : splitFirst needle (x ++ (needle ++ y)) = some (before, rest)) :
    needle ++ y <:+ needle ++ rest ∧ y <:+ rest := by
  obtain ⟨before', rest', hfirst, hlength⟩ := exists_splitFirst needle x y
  obtain ⟨rfl, rfl⟩ := Prod.mk.inj (Option.some.inj (h.symm.trans hfirst))
  have heq := eq_of_splitFirst h
  have hle : y.length ≤ rest.length := by
    have hsame := congrArg List.length heq
    simp only [List.length_append] at hsame
    omega
  have hsuffix : needle ++ y <:+ needle ++ rest :=
    List.suffix_of_suffix_length_le (List.suffix_append x _) ⟨before, heq.symm⟩
      (by simpa only [List.length_append] using Nat.add_le_add_left hle _)
  exact ⟨hsuffix, List.suffix_of_suffix_length_le ((List.suffix_append needle y).trans hsuffix)
    (List.suffix_append needle rest) hle⟩

end Chars

namespace Liquid

/-- Whether a text goes on with `tail` right after a place where a schema is closed. -/
def GoesOn (tail liquid : String) : Prop :=
  ∃ head middle, liquid = head ++ (schemaOpen ++ (middle ++ (schemaClose ++ tail)))

theorem GoesOn.suffix {tail liquid : String} (h : GoesOn tail liquid) :
    ∃ front, liquid = front ++ tail := by
  obtain ⟨head, middle, rfl⟩ := h
  exact ⟨head ++ schemaOpen ++ middle ++ schemaClose, by simp only [String.append_assoc]⟩

/-- The segment that is replaced lies before the place where a schema is closed. -/
theorem GoesOn.replaceSegment? {tail liquid segment replaced : String} (h : GoesOn tail liquid)
    (hreplaced : replaceSegment? liquid segment = some replaced) : GoesOn tail replaced := by
  obtain ⟨head, middle, rfl⟩ := h
  obtain ⟨cut, hcut, rfl⟩ := Option.map_eq_some_iff.1 hreplaced
  obtain ⟨⟨before, rest⟩, hopen, hcut⟩ := Option.bind_eq_some_iff.1 hcut
  obtain ⟨⟨found, after⟩, hclose, hcut⟩ := Option.bind_eq_some_iff.1 hcut
  obtain rfl := Option.some.inj hcut
  simp only [String.toList_append] at hopen
  obtain ⟨skipped, rfl⟩ := (Chars.suffix_of_splitFirst hopen).2
  rw [← List.append_assoc] at hclose
  obtain ⟨more, hmore⟩ := (Chars.suffix_of_splitFirst hclose).1
  refine ⟨String.ofList before, "\n" ++ Text.trim segment ++ "\n" ++ String.ofList more, ?_⟩
  rw [← String.toList_inj]
  simp [← hmore]

/-- What the script of a section is put together from. -/
inductive ScriptPart
  /-- What is the same in all sections but for the slug. -/
  | frame (text : String)
  /-- The code of a script of the page. -/
  | code (text : String)
  /-- A comment, or nothing on a line of its own. -/
  | remark (text : String)
  /-- The comment that names an external script. -/
  | source (url : String)

namespace ScriptPart

def text : ScriptPart → String
  | frame text | code text | remark text => text
  | source url => "// " ++ url

/-- The address that a part names. -/
def url? : ScriptPart → Option String
  | source url => some url
  | _ => none

/-- The code of the page that a part holds. -/
def code? : ScriptPart → Option String
  | code text => some text
  | _ => none

/-- Whether a part is neither of the section's own nor code of the page. -/
def isRemark : ScriptPart → Bool
  | frame _ | code _ => false
  | remark _ | source _ => true

end ScriptPart

section

variable (slug : String) (scripts external : List String)

/-- A script of the page with the number that it is given. -/
def numberedParts (numbered : String × Nat) : List ScriptPart :=
  [.remark ("// Inline script " ++ toString numbered.2), .code numbered.1, .remark ""]

def externalParts : List ScriptPart :=
  if external.isEmpty then []
  else .remark ("// External scripts referenced by the source page "
    ++ "(load them from the theme layout):") :: (external.map .source ++ [.remark ""])

/-- The parts of a script in their order, with a line feed between two of them. -/
def scriptParts : List ScriptPart :=
  .frame (segmentTag "javascript") :: ((scripts.zipIdx 1).flatMap numberedParts
    ++ externalParts external ++ [.frame (readyHook slug ++ segmentTag "endjavascript")])

/-- Texts that are joined by line feeds have one after each but the last. -/
theorem toList_join_concat (texts : List String) (last : String) :
    (Text.join "\n" (texts ++ [last])).toList =
      texts.flatMap (fun text => text.toList ++ ['\n']) ++ last.toList := by
  induction texts with
  | nil => simp [Text.join]
  | cons text texts ih =>
    obtain ⟨next, rest, hrest⟩ := List.exists_cons_of_ne_nil (List.concat_ne_nil last texts)
    rw [hrest] at ih
    rw [List.cons_append, hrest, Text.join, String.intercalate_cons_cons, ← Text.join,
      String.toList_append, String.toList_append, ih, List.flatMap_cons]
    simp

/-- A script is its parts, joined by line feeds. -/
theorem javascript_eq_join :
    javascript slug scripts external = Text.join "\n" ((scriptParts slug scripts external).map (·.text)) := by
  have hinline : (scripts.zipIdx 1).flatMap (fun numbered => ("// Inline script " ++
      toString numbered.2 ++ "\n" ++ numbered.1 ++ "\n\n").toList) =
        (((scripts.zipIdx 1).flatMap numberedParts).map (·.text)).flatMap
          (fun text => text.toList ++ ['\n']) := by
    rw [List.flatMap_map, List.flatMap_assoc]
    refine List.flatMap_congr fun numbered _ => ?_
    simp [numberedParts, ScriptPart.text]
  have hexternal : (if external.isEmpty then ""
      else "// External scripts referenced by the source page "
        ++ "(load them from the theme layout):\n"
        ++ String.join (external.map fun url => "// " ++ url ++ "\n") ++ "\n").toList =
      ((externalParts external).map (·.text)).flatMap (fun text => text.toList ++ ['\n']) := by
    rw [externalParts]
    split
    case isTrue => rfl
    case isFalse =>
      simp [ScriptPart.text, String.toList_join, List.flatMap_map, Function.comp_def]
  rw [← String.toList_inj, scriptParts, ← List.cons_append, List.map_append, List.map_singleton,
    toList_join_concat, List.map_cons, List.map_append, List.flatMap_cons, List.flatMap_append,
    ← hinline, ← hexternal]
  have hfeed : "\n".toList = ['\n'] := rfl
  simp only [javascript, ScriptPart.text, String.toList_append, String.toList_join, List.flatMap_map,
    hfeed, List.append_assoc]

end

/-- The characters that end a line of a script, and a comment with it. -/
def isLineEnd (c : Char) : Bool :=
  c == '\n' || c == '\r' || c == '\u2028' || c == '\u2029'

def scriptLines (text : String) : List (List Char) :=
  Chars.splitWhere isLineEnd text.toList

/-- Each part brings its own lines. -/
theorem scriptLines_javascript (slug : String) (scripts external : List String) :
    scriptLines (javascript slug scripts external) =
      (scriptParts slug scripts external).flatMap fun part => scriptLines part.text := by
  have hne : ((scriptParts slug scripts external).map (·.text)).map String.toList ≠ [] := by
    simp [scriptParts]
  rw [scriptLines, javascript_eq_join, Text.join, String.toList_intercalate]
  exact (Chars.splitWhere_intercalate_eq_flatMap (by decide) hne).trans (by
    rw [List.flatMap_map, List.flatMap_map]
    rfl)

/-- A line that runs nothing: it is empty or a comment. -/
def IsSilent (line : List Char) : Prop :=
  line = [] ∨ ['/', '/'] <+: line

instance : DecidablePred IsSilent := fun line =>
  inferInstanceAs (Decidable (line = [] ∨ ['/', '/'] <+: line))

/-- The comment that names an address takes in the address up to its first line end. What follows
stands on lines as it is. -/
theorem scriptLines_source (url : String) :
    scriptLines (ScriptPart.source url).text =
      ("// ".toList ++ url.toList.takeWhile (!isLineEnd ·)) :: (scriptLines url).tail := by
  rw [scriptLines, ScriptPart.text, String.toList_append]
  exact Chars.splitWhere_append_left (by decide) _

/-- The comment that names an address is one line exactly if nothing in the address ends a line. -/
theorem scriptLines_source_iff (url : String) :
    scriptLines (ScriptPart.source url).text = [("// " ++ url).toList] ↔
      ∀ c ∈ url.toList, isLineEnd c = false := by
  rw [scriptLines_source, String.toList_append]
  constructor
  · intro h c hc
    have hwhole := List.append_cancel_left (List.cons.inj h).1
    simpa using List.takeWhile_eq_self_iff.1 hwhole c hc
  · intro h
    rw [scriptLines, Chars.splitWhere_eq_singleton h,
      List.takeWhile_eq_self_iff.2 fun c hc => by simp [h c hc]]
    rfl

/-- The comment that names an address runs nothing exactly if no line that the address goes on
with does. -/
theorem isSilent_source_iff (url : String) :
    (∀ line ∈ scriptLines (ScriptPart.source url).text, IsSilent line) ↔
      ∀ line ∈ (scriptLines url).tail, IsSilent line := by
  rw [scriptLines_source, List.forall_mem_cons]
  exact and_iff_right (.inr ⟨_, rfl⟩)

theorem isLineEnd_of_isNameChar {c : Char} (h : isNameChar c) : isLineEnd c = false := by
  have hends : ∀ d ∈ ['\n', '\r', '\u2028', '\u2029'], isNameChar d = false := by decide
  cases hc : isLineEnd c with
  | false => rfl
  | true =>
    simp only [isLineEnd, Bool.or_eq_true, beq_iff_eq, or_assoc] at hc
    rw [hends c (by simpa using hc)] at h
    cases h

/-- The heading of a script is a comment. -/
theorem isSilent_heading (n : Nat) :
    ∀ line ∈ scriptLines ("// Inline script " ++ toString n), IsSilent line := by
  have hfirst : ∀ c ∈ "// Inline script ".toList, isLineEnd c = false := by decide
  have hline : ∀ c ∈ ("// Inline script " ++ toString n).toList, isLineEnd c = false := by
    rw [String.toList_append]
    exact List.forall_mem_append.2
      ⟨hfirst, fun c hc => isLineEnd_of_isNameChar (isName_toString n c hc)⟩
  rw [scriptLines, Chars.splitWhere_eq_singleton hline, List.forall_mem_singleton]
  exact .inr ⟨" Inline script ".toList ++ (toString n).toList, by rw [String.toList_append]; rfl⟩

section

variable (slug : String) (scripts external : List String)

/-- What is read off code and addresses alone goes with the scripts in their order. -/
theorem filterMap_scriptParts {α : Type} {read : ScriptPart → Option α}
    (hframe : ∀ text, read (.frame text) = none) (hremark : ∀ text, read (.remark text) = none) :
    (scriptParts slug scripts external).filterMap read =
      scripts.filterMap (fun text => read (.code text)) ++
        external.filterMap (fun url => read (.source url)) := by
  have hnumbered : ((scripts.zipIdx 1).flatMap numberedParts).filterMap read =
      scripts.filterMap fun text => read (.code text) := by
    have hone (numbered : String × Nat) :
        (numberedParts numbered).filterMap read = (read (.code numbered.1)).toList := by
      cases hread : read (.code numbered.1) <;> simp [numberedParts, hremark, hread]
    rw [List.filterMap_flatMap, List.flatMap_congr fun numbered _ => hone numbered]
    conv => rhs; rw [← List.zipIdx_map_fst 1 scripts, List.filterMap_map, List.filterMap_eq_flatMap_toList]
    rfl
  have hexternal : (externalParts external).filterMap read =
      external.filterMap fun url => read (.source url) := by
    cases external with
    | nil => rfl
    | cons url external =>
      simp [externalParts, hremark, List.filterMap_cons, List.filterMap_map]
  rw [scriptParts, List.filterMap_cons, List.filterMap_append, List.filterMap_append, hnumbered,
    hexternal, hframe]
  simp [hframe]

/-- The code of a script is that of the page. -/
theorem filterMap_code?_scriptParts :
    (scriptParts slug scripts external).filterMap (·.code?) = scripts := by
  rw [filterMap_scriptParts slug scripts external (fun _ => rfl) fun _ => rfl]
  simp [ScriptPart.code?]

/-- Each external script is named once. -/
theorem filterMap_url?_scriptParts :
    (scriptParts slug scripts external).filterMap (·.url?) = external := by
  rw [filterMap_scriptParts slug scripts external (fun _ => rfl) fun _ => rfl]
  simp [ScriptPart.url?]

/-- A remark is a heading, a blank line, the line above the addresses, or names an address. -/
theorem isRemark_cases {part : ScriptPart} (h : part ∈ scriptParts slug scripts external)
    (hremark : part.isRemark) :
    (∃ n : Nat, part = .remark ("// Inline script " ++ toString n)) ∨ part = .remark "" ∨
      part = .remark ("// External scripts referenced by the source page "
        ++ "(load them from the theme layout):") ∨
      ∃ url ∈ external, part = .source url := by
  rw [scriptParts, List.mem_cons, List.mem_append, List.mem_append, List.mem_singleton] at h
  rcases h with rfl | (h | h) | rfl
  · cases hremark
  · obtain ⟨numbered, -, h⟩ := List.mem_flatMap.1 h
    rw [numberedParts, List.mem_cons, List.mem_cons, List.mem_singleton] at h
    rcases h with rfl | rfl | rfl
    · exact .inl ⟨_, rfl⟩
    · cases hremark
    · exact .inr (.inl rfl)
  · rw [externalParts] at h
    split at h
    case isTrue => cases h
    case isFalse =>
      rw [List.mem_cons, List.mem_append, List.mem_map, List.mem_singleton] at h
      rcases h with rfl | ⟨url, hurl, rfl⟩ | rfl
      · exact .inr (.inr (.inl rfl))
      · exact .inr (.inr (.inr ⟨url, hurl, rfl⟩))
      · exact .inr (.inl rfl)
  · cases hremark

/-- Apart from what is the same in all sections and the code of the page, a script runs nothing
exactly if nothing runs that an address goes on with after its first line. -/
theorem isSilent_remarks_iff :
    (∀ part ∈ scriptParts slug scripts external, part.isRemark →
        ∀ line ∈ scriptLines part.text, IsSilent line) ↔
      ∀ url ∈ external, ∀ line ∈ (scriptLines url).tail, IsSilent line := by
  have hblank : ∀ line ∈ scriptLines "", IsSilent line := by decide
  have hlist : ∀ line ∈ scriptLines ("// External scripts referenced by the source page "
      ++ "(load them from the theme layout):"), IsSilent line := by decide +kernel
  simp only [← isSilent_source_iff]
  constructor
  · intro h url hurl
    refine h (.source url) ?_ rfl
    have hnamed : url ∈ (scriptParts slug scripts external).filterMap (·.url?) := by
      rwa [filterMap_url?_scriptParts]
    obtain ⟨part, hpart, hread⟩ := List.mem_filterMap.1 hnamed
    cases part with
    | source other => exact Option.some.inj hread ▸ hpart
    | frame | code | remark => cases hread
  · intro h part hpart hremark
    rcases isRemark_cases slug scripts external hpart hremark with
      ⟨n, rfl⟩ | rfl | rfl | ⟨url, hurl, rfl⟩
    · exact isSilent_heading n
    · exact hblank
    · exact hlist
    · exact h url hurl

end

end Liquid

namespace Artifact

open Liquid (GoesOn)

theorem goesOn_enforceSection {tail liquid : String} (slug : String) (h : GoesOn tail liquid) :
    GoesOn tail (enforceSection slug liquid).liquid := by
  have houtcome := outcome_enforceSection slug liquid
  generalize enforceSection slug liquid = result at houtcome ⊢
  cases houtcome with
  | unusable | named => exact h
  | corrected _ _ _ hreplaced => exact h.replaceSegment? hreplaced

theorem goesOn_enforce {tail liquid : String} (fileName pageText : String) (h : GoesOn tail liquid) :
    GoesOn tail (enforce fileName liquid pageText).liquid := by
  rw [enforce_eq]
  exact goesOn_enforceSection _ h

theorem goesOn_repairQuotes {tail liquid : String} (h : GoesOn tail liquid) :
    GoesOn tail (repairQuotes liquid).liquid := by
  have houtcome := outcome_repairQuotes liquid
  generalize repairQuotes liquid = result at houtcome ⊢
  cases houtcome with
  | same => exact h
  | printed _ _ _ hreplaced | joined _ _ _ hreplaced => exact h.replaceSegment? hreplaced

end Artifact

namespace Conversion

/-- A section ends with its script, whatever is corrected before it. -/
theorem exists_finish_liquid (name : String) (pageType : PageType) (assets : Assets) (body : String)
    (content : SectionContent) : ∃ front, (finish name pageType assets body content).liquid =
      front ++ Liquid.javascript (Text.slug name) assets.scripts assets.externalScripts ++ "\n" := by
  have hwritten : Liquid.GoesOn (Liquid.tail (partsOf name pageType assets body content))
      (textOf name pageType assets body content) :=
    ⟨_, _, Liquid.assemble_eq _⟩
  obtain ⟨front, hfront⟩ := (Artifact.goesOn_repairQuotes
    (Artifact.goesOn_enforce name (pageOf name content).toJson.pretty hwritten)).suffix
  refine ⟨front ++ "\n\n" ++ Liquid.stylesheet (Text.slug name) assets.css ++ "\n\n", ?_⟩
  simp only [finish, hfront, Liquid.tail, partsOf, String.append_assoc]

/-- The script of a converted page has lines of the section's own, the code of the page, and remarks,
and each external script is named by one of the remarks. Such a remark is one comment line exactly if
nothing in the address ends a line, and what the address goes on with otherwise is no part of a
comment: the remarks run nothing exactly if those lines do not. -/
theorem scriptLines_of_convert {markup name : String} {options : Options} {conversion : Conversion}
    (h : convert markup name options = .ok conversion) :
    let slug := Text.slug name
    let assets := (stripped markup).2
    let parts := Liquid.scriptParts slug assets.scripts assets.externalScripts
    (∃ front, conversion.liquid =
      front ++ Liquid.javascript slug assets.scripts assets.externalScripts ++ "\n") ∧
    Liquid.scriptLines (Liquid.javascript slug assets.scripts assets.externalScripts) =
      parts.flatMap (fun part => Liquid.scriptLines part.text) ∧
    parts.filterMap (·.code?) = assets.scripts ∧
    parts.filterMap (·.url?) = assets.externalScripts ∧
    (∀ url ∈ assets.externalScripts,
      Liquid.scriptLines (Liquid.ScriptPart.source url).text = [("// " ++ url).toList] ↔
        ∀ c ∈ url.toList, Liquid.isLineEnd c = false) ∧
    ((∀ part ∈ parts, part.isRemark → ∀ line ∈ Liquid.scriptLines part.text, Liquid.IsSilent line) ↔
      ∀ url ∈ assets.externalScripts, ∀ line ∈ (Liquid.scriptLines url).tail,
        Liquid.IsSilent line) := by
  intro slug assets parts
  refine ⟨?_, Liquid.scriptLines_javascript .., Liquid.filterMap_code?_scriptParts ..,
    Liquid.filterMap_url?_scriptParts .., fun url _ => Liquid.scriptLines_source_iff url,
    Liquid.isSilent_remarks_iff ..⟩
  rw [eq_ofPage_of_convert h, ofPage_eq]
  exact exists_finish_liquid ..

/-- The second line of an address is code of the section. -/
theorem scriptLines_of_convert_brokenAddress :
    ∃ conversion, convert "<p>Hi</p><script src=\"a\ngo()\"></script>" "home" {} = .ok conversion ∧
      (∃ front, conversion.liquid = front ++ Liquid.javascript "home" [] ["a\ngo()"] ++ "\n") ∧
      "go()".toList ∈ Liquid.scriptLines (Liquid.javascript "home" [] ["a\ngo()"]) ∧
      ¬ ∀ part ∈ Liquid.scriptParts "home" [] ["a\ngo()"], part.isRemark →
        ∀ line ∈ Liquid.scriptLines part.text, Liquid.IsSilent line := by
  have hslug : Text.slug "home" = "home" := by decide
  have hassets : (stripped "<p>Hi</p><script src=\"a\ngo()\"></script>").2 =
      { externalScripts := ["a\ngo()"] } := by
    decide +kernel
  obtain ⟨hliquid, hlines, -, -, -, hsilent⟩ :=
    scriptLines_of_convert (convert_eq_ofPage {} (by decide) (by decide) :
      convert "<p>Hi</p><script src=\"a\ngo()\"></script>" "home" {} = _)
  rw [hslug, hassets] at hliquid hlines hsilent
  refine ⟨_, convert_eq_ofPage {} (by decide) (by decide), hliquid, ?_, fun h => ?_⟩
  · rw [hlines]
    decide +kernel
  · exact absurd (hsilent.1 h) (by decide)

end Conversion

end ThemeSection
