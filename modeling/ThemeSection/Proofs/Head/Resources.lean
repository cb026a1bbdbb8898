import ThemeSection.Proofs.Conversion
import ThemeSection.Proofs.Head.Remerge

/-!
The head resources of a batch. The resources of a page are put one below the other and taken apart
into lines again before they are merged. A resource whose markup is one line comes through whole, and
is then kept unless a line that is kept stands for it. A resource of several lines is never kept
whole: its lines are merged one by one.
-/

namespace ThemeSection

open Markup

namespace Head

/-- Whether a line may be kept in place of another: it is the same text, loads the same font, or loads
the same library with the same kind of tag. -/
def Replaces (kept line : String) : Prop :=
  kept = line ∨ (∃ key, fontKey? kept = some key ∧ fontKey? line = some key) ∨
    ∃ key, libraryKey? kept = some key ∧ libraryKey? line = some key

section

variable {κ : Type} [DecidableEq κ] {key? : String → Option κ} {pick : List String → Option String}
  {lines : List String} {rows : List (κ × String)}

theorem Indexes.exists_row (h : Indexes key? pick lines rows) {line : String} {key : κ}
    (hline : line ∈ lines) (hkey : key? line = some key) : ∃ row ∈ rows, row.1 = key := by
  have hmem : key ∈ rows.map (·.1) := by
    rw [h.keys]
    exact List.mem_eraseDups.2 (List.mem_filterMap.2 ⟨line, hline, hkey⟩)
  exact List.mem_map.1 hmem

end

/-- For every line that a merger is given it keeps a line. -/
theorem Merger.Holds.exists_replaces {lines : List String} {merger : Merger}
    (h : Holds lines merger) {line : String} (hline : line ∈ lines) :
    ∃ kept ∈ merger.kept, Replaces kept line := by
  cases hclass : classify line with
  | font source family =>
    have hkey : fontKey? line = some (source, family) := by rw [fontKey?, hclass]
    obtain ⟨row, hrow, hrowKey⟩ := h.fonts.exists_row hline hkey
    obtain ⟨entry, hentry, rfl⟩ := List.mem_map.1 hrow
    have hkept : entry.line ∈ merger.fontLines := List.mem_map_of_mem hentry
    exact ⟨entry.line, List.mem_append_left _ (List.mem_append_left _ hkept),
      Or.inr (Or.inl ⟨_, (h.mem_font hentry).2, hkey.trans (congrArg some hrowKey.symm)⟩)⟩
  | library name version =>
    have hkey : libraryKey? line = some (name, assetKind line) := by rw [libraryKey?, hclass]
    obtain ⟨row, hrow, hrowKey⟩ := h.libraries.exists_row hline hkey
    obtain ⟨entry, hentry, rfl⟩ := List.mem_map.1 hrow
    have hkept : entry.line ∈ merger.libraryLines := List.mem_map_of_mem hentry
    exact ⟨entry.line, List.mem_append_left _ (List.mem_append_right _ hkept),
      Or.inr (Or.inr ⟨_, (h.mem_library hentry).2, hkey.trans (congrArg some hrowKey.symm)⟩)⟩
  | other =>
    have hkept : line ∈ merger.other := by
      rw [h.other, List.mem_eraseDups, otherLines, List.mem_filter]
      exact ⟨hline, decide_eq_true hclass⟩
    exact ⟨line, List.mem_append_right _ hkept, Or.inl rfl⟩

/-- The lines that count among the pieces between line feeds. -/
def countedAmong (pieces : List (List Char)) : List String :=
  (((pieces.map Chars.trim).filter (!·.isEmpty)).map String.ofList).filter (!isHeader ·)

theorem countedIn_singleton (text : String) :
    countedIn [text] = countedAmong (Chars.pieces text.toList) := by
  have hlines : [Input.texts [text]].flatMap Input.lines = Text.lines text := by
    simp [Input.lines]
  have htrim : (Text.lines text).map Text.trim =
      ((Chars.lines text.toList).map Chars.trim).map String.ofList := by
    rw [Text.lines, List.map_map, List.map_map]
    refine List.map_congr_left fun chars _ => ?_
    rw [Function.comp_apply, Function.comp_apply, Text.trim, Text.onChars, String.toList_ofList]
  have hempty : (fun line : String => !line.isEmpty) ∘ String.ofList = (!·.isEmpty) := by
    funext chars
    cases chars <;> simp
  rw [countedIn, countedLines, hlines, htrim, countedAmong, ← Chars.filter_trim_lines, ← hempty,
    ← List.filter_map, List.filter_filter]
  exact List.filter_congr fun line _ => Bool.and_comm _ _

theorem countedIn_eq_countedAmong (texts : List String) :
    countedIn texts = countedAmong (texts.flatMap fun text => Chars.pieces text.toList) := by
  induction texts with
  | nil => rfl
  | cons text texts ih =>
    have happend := countedIn_append [text] texts
    rw [List.singleton_append] at happend
    rw [happend, ih, countedIn_singleton, List.flatMap_cons]
    simp only [countedAmong, List.map_append, List.filter_append]

/-- Texts one below the other have the lines of all of them that count. -/
theorem countedIn_join (texts : List String) :
    countedIn [Text.join "\n" texts] = countedIn texts := by
  by_cases hne : texts = []
  · subst hne
    decide
  · have hmap : texts.map String.toList ≠ [] := mt List.map_eq_nil_iff.1 hne
    have hpieces := Chars.pieces_intercalate_eq_flatMap hmap
    have hfeed : "\n".toList = ['\n'] := by decide
    rw [countedIn_singleton, countedIn_eq_countedAmong, Text.join, String.toList_intercalate, hfeed,
      hpieces, List.flatMap_map]

section

variable {texts : List String} {text line : String}

theorem map_trim_lines_of_isLine (h : IsLine text) : (Text.lines text).map Text.trim = [text] := by
  have hlines : Text.lines text = [text] := by
    simpa [Text.join] using lines_join (List.forall_mem_singleton.2 h)
  rw [hlines, List.map_singleton, h.trimmed]

theorem mem_countedIn_iff : line ∈ countedIn texts ↔
    (∃ text ∈ texts, line ∈ (Text.lines text).map Text.trim) ∧ line ≠ "" ∧ isHeader line = false := by
  have hlines : [Input.texts texts].flatMap Input.lines = texts.flatMap Text.lines := by
    simp [Input.lines]
  rw [countedIn, countedLines, hlines, List.map_flatMap, List.mem_filter, List.mem_flatMap]
  simp

/-- A text that is a line, and no header, counts. -/
theorem mem_countedIn (h : IsLine text) (hheader : isHeader text = false) (htext : text ∈ texts) :
    text ∈ countedIn texts := by
  have hself : text ∈ (Text.lines text).map Text.trim := by
    rw [map_trim_lines_of_isLine h]
    exact List.mem_singleton_self text
  exact mem_countedIn_iff.2 ⟨⟨text, htext, hself⟩, h.nonempty, hheader⟩

/-- What counts comes from a text, and is all of it if that is a line. -/
theorem exists_text_of_mem_countedIn (h : line ∈ countedIn texts) :
    ∃ text ∈ texts, line ∈ (Text.lines text).map Text.trim ∧ (IsLine text → line = text) := by
  obtain ⟨⟨text, htext, hline⟩, -⟩ := mem_countedIn_iff.1 h
  refine ⟨text, htext, hline, fun hwhole => ?_⟩
  rw [map_trim_lines_of_isLine hwhole] at hline
  exact List.mem_singleton.1 hline

end

end Head

namespace Markup.Tree

variable {tree : Tree} {name : ElementName} {attributes : Attributes}

theorem exists_node_of_element? (h : tree.element? = some (name, attributes)) :
    ∃ id children, tree = node id (.element name attributes) children := by
  obtain ⟨id, kind, children⟩ := tree
  cases kind with
  | element name' attributes' =>
    obtain ⟨rfl, rfl⟩ := Prod.mk.inj (Option.some.inj h)
    exact ⟨id, children, rfl⟩
  | _ => cases h

/-- An element is written from its name on. -/
theorem exists_outer (h : tree.element? = some (name, attributes)) :
    ∃ more, tree.outer.toList = '<' :: (name.name.toList ++ more) := by
  obtain ⟨id, children, rfl⟩ := exists_node_of_element? h
  exact ⟨_, by simp [outer, renderUnder, startTag]; rfl⟩

/-- Whether a tree holds nothing if it is an element without an end tag. -/
def IsClosed (tree : Tree) : Prop :=
  ∀ name attributes, tree.element? = some (name, attributes) → name.isVoid → tree.children = []

theorem getLast?_outer (h : tree.element? = some (name, attributes)) (hclosed : tree.IsClosed) :
    tree.outer.toList.getLast? = some '>' := by
  obtain ⟨id, children, rfl⟩ := exists_node_of_element? h
  cases hname : name.isVoid with
  | true =>
    obtain rfl : children = [] := hclosed _ _ h hname
    simp [outer, renderUnder, renderAll, startTag, hname, List.getLast?_cons, List.getLast?_append]
  | false =>
    simp [outer, renderUnder, startTag, endTag, hname, List.getLast?_cons, List.getLast?_append]

/-- The markup of an element is one line exactly if it has no line feed. -/
theorem isLine_outer_iff (h : tree.element? = some (name, attributes)) (hclosed : tree.IsClosed) :
    Head.IsLine tree.outer ↔ '\n' ∉ tree.outer.toList := by
  obtain ⟨more, houter⟩ := exists_outer h
  refine ⟨Head.IsLine.unbroken, fun hfeed => ⟨?_, ?_, hfeed⟩⟩
  · intro hempty
    rw [hempty] at houter
    cases houter
  · have htrim : Chars.trim tree.outer.toList = tree.outer.toList := by
      refine Chars.trim_eq_self (fun c hc => ?_) fun c hc => ?_
      · rw [houter, List.head?_cons, Option.some.injEq] at hc
        subst hc
        decide
      · rw [getLast?_outer h hclosed, Option.some.injEq] at hc
        subst hc
        decide
    rw [Text.trim, Text.onChars, htrim, String.ofList_toList]

end Markup.Tree

namespace Assets

/-- The nodes that are taken out of a document for the head. -/
def resourcesOf (d : Document) : List Place :=
  (takeOut (takeOut d (.tags ["style"])).2 headResources).1

theorem headContent_extract (d : Document) :
    (extract d).2.headContent = Text.join "\n" ((resourcesOf d).map (·.tree.outer)) :=
  rfl

/-- Whether a tree is a link, or a script that has a source. -/
def IsResource (tree : Tree) : Prop :=
  ∃ name attributes, tree.element? = some (name, attributes) ∧
    (name.name = "link" ∨ name.name = "script" ∧ (attributes.get? (.plain "src")).isSome)

theorem isResource_of_mem {d : Document} {p : Place} (h : p ∈ resourcesOf d) :
    IsResource p.tree := by
  obtain ⟨complex, hcomplex, hholds⟩ := List.any_eq_true.1 (List.mem_filter.1 h).2
  have hmeets : Selector.meets complex.subject p := (Bool.and_eq_true_iff.1 hholds).1
  have hlocal : ∀ isHtml, ∀ name ∈ ["link", "script", "src"],
      Selector.localName isHtml name = name := by decide
  rw [Selector.meets] at hmeets
  cases helement : p.tree.element? with
  | none =>
    rw [helement] at hmeets
    cases hmeets
  | some element =>
    obtain ⟨name, attributes⟩ := element
    rw [helement] at hmeets
    dsimp only at hmeets
    refine ⟨name, attributes, helement, ?_⟩
    simp only [headResources, Selector.below, List.cons_append, List.nil_append, List.mem_cons,
      List.not_mem_nil, or_false] at hcomplex
    rcases hcomplex with rfl | rfl | rfl
    case inl | inr.inr =>
      simp only [List.all_cons, Selector.Simple.passes, Bool.and_eq_true, beq_iff_eq,
        hlocal _ "link" (by decide)] at hmeets
      exact Or.inl hmeets.1
    case inr.inl =>
      simp only [List.all_cons, Selector.Simple.passes, Selector.Simple.has, List.all_nil,
        Selector.AttributeTest.holds, Bool.and_eq_true, beq_iff_eq, List.any_eq_true,
        hlocal _ "script" (by decide), hlocal _ "src" (by decide)] at hmeets
      obtain ⟨hscript, ⟨a, ha, ⟨hspace, hsrc⟩, -⟩, -⟩ := hmeets
      have hname : a.name = .plain "src" := by
        obtain ⟨⟨space, name⟩, value⟩ := a
        simp_all [AttributeName.plain]
      refine Or.inr ⟨hscript, ?_⟩
      rw [Attributes.get?, Option.isSome_map, List.find?_isSome]
      exact ⟨a, ha, beq_iff_eq.2 hname⟩

/-- A resource is no header of a group. -/
theorem isHeader_outer {tree : Tree} (h : IsResource tree) : Head.isHeader tree.outer = false := by
  obtain ⟨name, attributes, helement, hname⟩ := h
  obtain ⟨more, houter⟩ := Tree.exists_outer helement
  rw [Bool.eq_false_iff]
  intro hheader
  have hheaders : ∀ header ∈ [Head.fontsHeader, Head.librariesHeader, Head.otherHeader],
      header.toList[1]? = some '!' := by decide
  have hmark : tree.outer.toList[1]? = some '!' :=
    hheaders _ (by simpa [Head.isHeader, or_assoc] using hheader)
  rw [houter] at hmark
  rcases hname with hname | ⟨hname, -⟩ <;> simp [hname] at hmark

end Assets

namespace Batch

/-- The head resources of pages, page by page. -/
def resourcesOf (pages : List SourcePage) : List Place :=
  pages.flatMap fun page => Assets.resourcesOf (.ofMarkup page.markup)

theorem isResource_of_mem {pages : List SourcePage} {p : Place} (h : p ∈ resourcesOf pages) :
    Assets.IsResource p.tree := by
  obtain ⟨page, -, hp⟩ := List.mem_flatMap.1 h
  exact Assets.isResource_of_mem hp

theorem countedIn_pages (pages : List SourcePage) (options : Options) :
    Head.countedIn (pages.map fun page =>
        (Conversion.ofPage page.markup page.name options).headContent) =
      Head.countedIn ((resourcesOf pages).map (·.tree.outer)) := by
  induction pages with
  | nil => rfl
  | cons page pages ih =>
    have hpage := Head.countedIn_join
      ((Assets.resourcesOf (.ofMarkup page.markup)).map (·.tree.outer))
    rw [← Assets.headContent_extract] at hpage
    have happend := Head.countedIn_append
      [(Conversion.ofPage page.markup page.name options).headContent]
      (pages.map fun page => (Conversion.ofPage page.markup page.name options).headContent)
    rw [List.singleton_append] at happend
    rw [List.map_cons, happend, ih, Conversion.headContent_ofPage, Conversion.stripped, hpage,
      ← Head.countedIn_append, ← List.map_append, resourcesOf, resourcesOf, List.flatMap_cons]

/-- What becomes of the head resources of a batch. Each is a link or a script with a source. Each line
that is kept is a line of one of them, and is the whole resource if that is one line; for each
resource that is one line, it or a line in its place is kept. A resource of several lines is never
kept whole. -/
theorem resources_whole {pages : List SourcePage} {options : Options} {batch : Batch}
    (h : convert pages options = .ok batch) :
    let merger := Head.Merger.extend {} (batch.conversions.map (·.headContent))
    batch.headContent = merger.render ∧
    (∀ resource ∈ resourcesOf pages, Assets.IsResource resource.tree ∧
      (resource.tree.IsClosed →
        (Head.IsLine resource.tree.outer ↔ '\n' ∉ resource.tree.outer.toList))) ∧
    (∀ line ∈ merger.kept, ∃ resource ∈ resourcesOf pages,
      line ∈ (Text.lines resource.tree.outer).map Text.trim ∧
        (Head.IsLine resource.tree.outer → line = resource.tree.outer)) ∧
    ∀ resource ∈ resourcesOf pages,
      (Head.IsLine resource.tree.outer →
        ∃ line ∈ merger.kept, Head.Replaces line resource.tree.outer) ∧
      (resource.tree.outer ∈ merger.kept → Head.IsLine resource.tree.outer) := by
  intro merger
  obtain ⟨hconversions, hhead⟩ := eq_of_convert h
  have hmerger : merger =
      (Head.countedIn ((resourcesOf pages).map (·.tree.outer))).foldl Head.Merger.add {} := by
    rw [← countedIn_pages pages options, Head.countedIn, ← Head.Merger.run_eq]
    exact congrArg (Head.Merger.extend {}) (by rw [hconversions, List.map_map]; rfl)
  have hholds := Head.Merger.holds_foldl_add
    (Head.countedIn ((resourcesOf pages).map (·.tree.outer)))
  rw [← hmerger] at hholds
  refine ⟨hhead, fun resource hresource => ?_, fun line hline => ?_, fun resource hresource => ?_⟩
  · have hkind := isResource_of_mem hresource
    obtain ⟨name, attributes, helement, -⟩ := id hkind
    exact ⟨hkind, fun hclosed => Tree.isLine_outer_iff helement hclosed⟩
  · obtain ⟨text, htext, hlines, hwhole⟩ := Head.exists_text_of_mem_countedIn (hholds.mem_of_mem_kept hline)
    obtain ⟨resource, hresource, rfl⟩ := List.mem_map.1 htext
    exact ⟨resource, hresource, hlines, hwhole⟩
  · refine ⟨fun hline => hholds.exists_replaces ?_, fun hkept => ?_⟩
    · exact Head.mem_countedIn hline (Assets.isHeader_outer (isResource_of_mem hresource))
        (List.mem_map_of_mem hresource)
    · exact (Head.isLine_of_mem_countedIn (hholds.mem_of_mem_kept hkept)).1

/-- Two pages that load one library, in two versions. -/
def twoVersions : List SourcePage :=
  [⟨"<head><script src=\"/jquery-3.6.0.js\"></script></head><p>Hi</p>", "a"⟩,
    ⟨"<head><script src=\"/jquery-3.7.1.js\"></script></head><p>Ho</p>", "b"⟩]

/-- Of two versions of a library a batch keeps a line that stands for the lower one. -/
theorem resources_whole_twoVersions :
    ∃ batch, convert twoVersions {} = .ok batch ∧
      (resourcesOf twoVersions).map (·.tree.outer) =
        ["<script src=\"/jquery-3.6.0.js\"></script>", "<script src=\"/jquery-3.7.1.js\"></script>"] ∧
      ∃ line ∈ (Head.Merger.extend {} (batch.conversions.map (·.headContent))).kept,
        Head.Replaces line "<script src=\"/jquery-3.6.0.js\"></script>" := by
  have hfilled : ∀ page ∈ twoVersions,
      Text.isBlank page.markup = false ∧ Text.isBlank page.name = false := by decide
  obtain ⟨batch, hconvert⟩ := exists_convert {} hfilled
  have hresources : (resourcesOf twoVersions).map (·.tree.outer) =
      ["<script src=\"/jquery-3.6.0.js\"></script>",
        "<script src=\"/jquery-3.7.1.js\"></script>"] := by
    decide +kernel
  obtain ⟨-, -, -, hkept⟩ := resources_whole hconvert
  obtain ⟨resource, hresource, houter⟩ := List.mem_map.1 (hresources ▸ List.mem_cons_self)
  have hline : Head.IsLine resource.tree.outer := by
    rw [houter]
    exact ⟨by decide, by decide, by decide⟩
  exact ⟨batch, hconvert, hresources, houter ▸ (hkept resource hresource).1 hline⟩

end Batch

end ThemeSection
