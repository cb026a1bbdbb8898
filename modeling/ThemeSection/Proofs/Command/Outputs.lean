import Mathlib.Logic.Function.Basic
import ThemeSection.Command.Run
import ThemeSection.Proofs.Conversion
import ThemeSection.Proofs.Chars.Lines

/-!
What stands on the disk after a run. Files are written one after the other, so of two files of one
path only the later stays. The path of a section comes from its slug, that of its page configuration
from the type of the page and the slug; they never meet each other or the file of the head resources.
A run therefore loses nothing exactly if pages with one slug come to the same texts.
-/

namespace ThemeSection.Command

/-- What stands at each path. -/
abbrev Disk := String → Option String

def pathBelow (directory name : String) : String :=
  directory ++ "/" ++ name

namespace Disk

def write (disk : Disk) (path content : String) : Disk :=
  Function.update disk path (some content)

/-- The disk once files have been written below a directory, one after the other. -/
def receive (disk : Disk) (directory : String) (files : List (String × String)) : Disk :=
  files.foldl (fun disk file => disk.write (pathBelow directory file.1) file.2) disk

variable {d : Disk} {directory : String} {files : List (String × String)}

theorem pathBelow_inj {name name' : String} :
    pathBelow directory name = pathBelow directory name' ↔ name = name' := by
  rw [pathBelow, pathBelow, ← String.toList_inj]
  simp [String.toList_inj]

theorem receive_append (files more : List (String × String)) :
    d.receive directory (files ++ more) = (d.receive directory files).receive directory more :=
  List.foldl_append

theorem receive_concat (file : String × String) (name : String) :
    d.receive directory (files ++ [file]) (pathBelow directory name) =
      if name = file.1 then some file.2 else d.receive directory files (pathBelow directory name) := by
  rw [receive_append]
  by_cases h : name = file.1
  · rw [if_pos h, h]
    exact Function.update_self ..
  · rw [if_neg h]
    exact Function.update_of_ne (mt pathBelow_inj.1 h) ..

theorem receive_of_not_mem {name : String} (h : name ∉ files.map (·.1)) :
    d.receive directory files (pathBelow directory name) = d (pathBelow directory name) := by
  induction files using List.reverseRecOn with
  | nil => rfl
  | append_singleton files file ih =>
    rw [List.map_append, List.mem_append, not_or] at h
    rw [receive_concat, if_neg (by simpa using h.2), ih h.1]

/-- At the path of a file that was written stands one of the files of that path. -/
theorem exists_received {file : String × String} (h : file ∈ files) :
    ∃ other ∈ files, other.1 = file.1 ∧
      d.receive directory files (pathBelow directory file.1) = some other.2 := by
  induction files using List.reverseRecOn with
  | nil => cases h
  | append_singleton files last ih =>
    rw [receive_concat]
    by_cases hlast : file.1 = last.1
    · exact ⟨last, by simp, hlast.symm, if_pos hlast⟩
    · have hfile : file ∈ files := by
        rcases List.mem_append.1 h with hfile | hfile
        · exact hfile
        · exact absurd (congrArg Prod.fst (List.mem_singleton.1 hfile)) hlast
      obtain ⟨other, hother, hname, hreceived⟩ := ih hfile
      exact ⟨other, List.mem_append_left _ hother, hname, (if_neg hlast).trans hreceived⟩

/-- All files stay exactly if those of one path are the same. -/
theorem received_iff :
    (∀ file ∈ files, d.receive directory files (pathBelow directory file.1) = some file.2) ↔
      ∀ file ∈ files, ∀ other ∈ files, file.1 = other.1 → file.2 = other.2 := by
  constructor
  case mp =>
    intro h file hfile other hother hname
    have hboth := h file hfile
    rw [hname, h other hother] at hboth
    exact (Option.some.inj hboth).symm
  case mpr =>
    intro h file hfile
    obtain ⟨other, hother, hname, hreceived⟩ := exists_received (d := d) hfile
    rw [hreceived, h other hother file hfile hname]

end Disk

theorem sectionFileName_inj {c c' : Conversion} :
    c.sectionFileName = c'.sectionFileName ↔ c.slug = c'.slug := by
  rw [Conversion.sectionFileName, Conversion.sectionFileName, ← String.toList_inj]
  simp [String.toList_inj]

theorem template_injective : Function.Injective PageType.template := by
  intro a b
  cases a <;> cases b <;> decide

/-- The name of a template has no dot, so the slug begins after the first one. -/
theorem templateFileName_inj {c c' : Conversion} :
    c.templateFileName = c'.templateFileName ↔ c.pageType = c'.pageType ∧ c.slug = c'.slug := by
  constructor
  case mpr =>
    rintro ⟨htype, hslug⟩
    rw [Conversion.templateFileName, Conversion.templateFileName, htype, hslug]
  case mp =>
    intro h
    have hdot : ∀ pageType : PageType, '.' ∉ pageType.template.toList := by
      intro pageType
      cases pageType <;> decide
    have hchars : c.pageType.template.toList ++ '.' :: (c.slug ++ ".json").toList =
        c'.pageType.template.toList ++ '.' :: (c'.slug ++ ".json").toList := by
      rw [Conversion.templateFileName, Conversion.templateFileName, ← String.toList_inj] at h
      simpa using h
    have hsplit := Chars.splitFirst_singleton_of_not_mem (hdot c.pageType) (c.slug ++ ".json").toList
    rw [hchars, Chars.splitFirst_singleton_of_not_mem (hdot c'.pageType)] at hsplit
    obtain ⟨htemplate, hrest⟩ := Prod.mk.inj (Option.some.inj hsplit)
    refine ⟨template_injective (String.toList_inj.1 htemplate.symm), String.toList_inj.1 ?_⟩
    simpa using hrest.symm

theorem sectionFileName_ne_templateFileName (c c' : Conversion) :
    c.sectionFileName ≠ c'.templateFileName := by
  rw [Conversion.sectionFileName, Conversion.templateFileName, ne_eq, ← String.toList_inj]
  simp

/-- The files of the conversions of a batch. -/
def conversionOutputs (conversions : List Conversion) : List (String × String) :=
  conversions.flatMap fun c => [(c.sectionFileName, c.liquid), (c.templateFileName, c.pageText)]

theorem mem_conversionOutputs {conversions : List Conversion} {file : String × String} :
    file ∈ conversionOutputs conversions ↔ ∃ c ∈ conversions,
      file = (c.sectionFileName, c.liquid) ∨ file = (c.templateFileName, c.pageText) := by
  simp [conversionOutputs]

theorem headFileName_not_mem (conversions : List Conversion) :
    "head-resources.html" ∉ (conversionOutputs conversions).map (·.1) := by
  intro h
  obtain ⟨file, hfile, hname⟩ := List.mem_map.1 h
  obtain ⟨c, -, rfl | rfl⟩ := mem_conversionOutputs.1 hfile
  · rw [Conversion.sectionFileName, ← String.toList_inj] at hname
    simp at hname
  · rw [Conversion.templateFileName, ← String.toList_inj] at hname
    simp at hname

/-- The file of the head resources takes the place of no other. -/
theorem receive_outputs {disk : Disk} {directory : String} {batch : Batch} {file : String × String}
    (h : file ∈ conversionOutputs batch.conversions) :
    disk.receive directory (outputs batch) (pathBelow directory file.1) =
      disk.receive directory (conversionOutputs batch.conversions) (pathBelow directory file.1) := by
  have hne : file.1 ≠ "head-resources.html" := fun heq =>
    headFileName_not_mem batch.conversions (heq ▸ List.mem_map_of_mem h)
  rw [outputs, ← conversionOutputs, Disk.receive_append]
  split
  case isTrue => rfl
  case isFalse => exact Disk.receive_of_not_mem (by simpa using hne)

/-- No output of a conversion is at the path of another output with another text exactly if
conversions with one slug have the same texts. -/
theorem conversionOutputs_clash_iff (conversions : List Conversion) :
    (∀ file ∈ conversionOutputs conversions, ∀ other ∈ conversionOutputs conversions,
        file.1 = other.1 → file.2 = other.2) ↔
      ∀ c ∈ conversions, ∀ c' ∈ conversions, c.slug = c'.slug →
        c.liquid = c'.liquid ∧ (c.pageType = c'.pageType → c.pageText = c'.pageText) := by
  constructor
  case mp =>
    intro h c hc c' hc' hslug
    refine ⟨h _ (mem_conversionOutputs.2 ⟨c, hc, Or.inl rfl⟩) _
      (mem_conversionOutputs.2 ⟨c', hc', Or.inl rfl⟩) (sectionFileName_inj.2 hslug), fun htype => ?_⟩
    exact h _ (mem_conversionOutputs.2 ⟨c, hc, Or.inr rfl⟩) _
      (mem_conversionOutputs.2 ⟨c', hc', Or.inr rfl⟩) (templateFileName_inj.2 ⟨htype, hslug⟩)
  case mpr =>
    intro h file hfile other hother hname
    obtain ⟨c, hc, rfl | rfl⟩ := mem_conversionOutputs.1 hfile <;>
      obtain ⟨c', hc', rfl | rfl⟩ := mem_conversionOutputs.1 hother
    · exact (h c hc c' hc' (sectionFileName_inj.1 hname)).1
    · exact absurd hname (sectionFileName_ne_templateFileName c c')
    · exact absurd hname.symm (sectionFileName_ne_templateFileName c' c)
    · obtain ⟨htype, hslug⟩ := templateFileName_inj.1 hname
      exact (h c hc c' hc' hslug).2 htype

/-- All outputs of the conversions stay exactly if conversions with one slug have the same texts. -/
theorem received_outputs_iff (disk : Disk) (directory : String) (batch : Batch) :
    (∀ c ∈ batch.conversions,
        disk.receive directory (outputs batch) (pathBelow directory c.sectionFileName) =
            some c.liquid ∧
          disk.receive directory (outputs batch) (pathBelow directory c.templateFileName) =
            some c.pageText) ↔
      ∀ c ∈ batch.conversions, ∀ c' ∈ batch.conversions, c.slug = c'.slug →
        c.liquid = c'.liquid ∧ (c.pageType = c'.pageType → c.pageText = c'.pageText) := by
  have hfiles : ∀ c ∈ batch.conversions,
      (c.sectionFileName, c.liquid) ∈ conversionOutputs batch.conversions ∧
        (c.templateFileName, c.pageText) ∈ conversionOutputs batch.conversions := fun c hc =>
    ⟨mem_conversionOutputs.2 ⟨c, hc, Or.inl rfl⟩, mem_conversionOutputs.2 ⟨c, hc, Or.inr rfl⟩⟩
  rw [← conversionOutputs_clash_iff, ← Disk.received_iff (d := disk)]
  constructor
  case mp =>
    intro h file hfile
    rw [← receive_outputs hfile]
    obtain ⟨c, hc, rfl | rfl⟩ := mem_conversionOutputs.1 hfile
    · exact (h c hc).1
    · exact (h c hc).2
  case mpr =>
    intro h c hc
    obtain ⟨hsection, hpage⟩ := hfiles c hc
    exact ⟨(receive_outputs hsection).trans (h _ hsection), (receive_outputs hpage).trans (h _ hpage)⟩

/-- The pages of a run have the names of its files. -/
theorem exists_pages_of_convert {s : Surroundings} {arguments : Arguments} {batch : Batch}
    (h : convert s arguments = .ok batch) : ∃ pages options,
      pages.map (·.name) = arguments.files.map fileName ∧ Batch.convert pages options = .ok batch := by
  rw [convert] at h
  obtain ⟨options, -, h⟩ := exists_of_bind_ok h
  obtain ⟨pages, hpages, h⟩ := exists_of_bind_ok h
  generalize (if arguments.featuredProducts then { options with featuredProducts := true }
    else options) = options at h
  have heach : List.Forall₂ (fun path (page : SourcePage) => fileName path = page.name)
      arguments.files pages := by
    refine (forall₂_of_mapM_eq_ok hpages).imp fun path page hpage => ?_
    obtain ⟨markup, -, hpage⟩ := exists_of_bind_ok hpage
    exact congrArg SourcePage.name (Except.ok.inj hpage)
  have hnames : List.Forall₂ (· = ·) (arguments.files.map fileName) (pages.map (·.name)) :=
    List.forall₂_map_left_iff.2 (List.forall₂_map_right_iff.2 heach)
  rw [List.forall₂_eq_eq_eq] at hnames
  cases hbatch : Batch.convert pages options with
  | error e =>
    rw [hbatch] at h
    cases h
  | ok converted =>
    rw [hbatch] at h
    obtain rfl := Except.ok.inj h
    exact ⟨pages, options, hnames.symm, hbatch⟩

theorem slugs_of_convert {s : Surroundings} {arguments : Arguments} {batch : Batch}
    (h : convert s arguments = .ok batch) :
    batch.conversions.map (·.slug) = arguments.files.map fun path => Text.slug (fileName path) := by
  obtain ⟨pages, options, hnames, hbatch⟩ := exists_pages_of_convert h
  calc batch.conversions.map (·.slug)
      = pages.map fun page => Text.slug page.name := by
        rw [(Batch.eq_of_convert hbatch).1, List.map_map]
        exact List.map_congr_left fun page _ => Conversion.slug_ofPage
    _ = (pages.map (·.name)).map Text.slug := by rw [List.map_map, Function.comp_def]
    _ = (arguments.files.map fileName).map Text.slug := by rw [hnames]
    _ = arguments.files.map fun path => Text.slug (fileName path) := by
        rw [List.map_map, Function.comp_def]

/-- What stands on the disk after a run that converts its files. The slug of each conversion is that
of the name of its file. All outputs stand at their paths exactly if conversions with one slug have
the same section, and the same page configuration where their pages are of one type too; so they do
if the slugs differ. -/
theorem outputs_kept_iff {s : Surroundings} {given : List String} {arguments : Arguments}
    {batch : Batch} (hread : Arguments.read given = .ok (.convert arguments))
    (hconvert : convert s arguments = .ok batch) (disk : Disk) :
    let directory := arguments.outDirectory
    let after := disk.receive directory (run s given).files
    let kept := ∀ c ∈ batch.conversions,
      after (pathBelow directory c.sectionFileName) = some c.liquid ∧
        after (pathBelow directory c.templateFileName) = some c.pageText
    let slugs := arguments.files.map fun path => Text.slug (fileName path)
    batch.conversions.map (·.slug) = slugs ∧
      (kept ↔ ∀ c ∈ batch.conversions, ∀ c' ∈ batch.conversions, c.slug = c'.slug →
        c.liquid = c'.liquid ∧ (c.pageType = c'.pageType → c.pageText = c'.pageText)) ∧
      (slugs.Nodup → kept) := by
  have hfiles : (run s given).files = outputs batch := by
    rw [run, hread]
    dsimp only
    rw [hconvert]
  rw [hfiles]
  intro directory after kept slugs
  have hslugs : batch.conversions.map (·.slug) = slugs := slugs_of_convert hconvert
  have hkept := received_outputs_iff disk directory batch
  refine ⟨hslugs, hkept, fun hnodup => hkept.2 fun c hc c' hc' hslug => ?_⟩
  obtain rfl := List.inj_on_of_nodup_map (hslugs ▸ hnodup) hc hc' hslug
  exact ⟨rfl, fun _ => rfl⟩

/-- A disk with the same page at every path. -/
def samePage : Surroundings where
  defaultConfig := none
  look _ := .content "<p>Hi</p>".toUTF8

theorem readText_samePage (path : String) : readText samePage path = .ok "<p>Hi</p>" := by
  have hbytes : String.fromUTF8? "<p>Hi</p>".toUTF8 = some "<p>Hi</p>" :=
    dif_pos (String.isValidUTF8 "<p>Hi</p>")
  rw [readText, samePage]
  dsimp only
  rw [hbytes]

/-- Two files of other names, from two directories, come to two sections and two pages. -/
theorem outputs_kept_twoFiles :
    ∃ batch, Arguments.read ["en/a.html", "de/b.html"] =
        .ok (.convert { files := ["en/a.html", "de/b.html"] }) ∧
      convert samePage { files := ["en/a.html", "de/b.html"] } = .ok batch ∧
      (["a", "b"] : List String).Nodup ∧ batch.conversions.map (·.slug) = ["a", "b"] ∧
      ∀ c ∈ batch.conversions, (Disk.receive (fun _ => none) "out"
        (run samePage ["en/a.html", "de/b.html"]).files) (pathBelow "out" c.sectionFileName) =
          some c.liquid := by
  have hread : Arguments.read ["en/a.html", "de/b.html"] =
      .ok (.convert { files := ["en/a.html", "de/b.html"] }) := by decide
  have hconvert : ∃ batch, convert samePage { files := ["en/a.html", "de/b.html"] } = .ok batch := by
    have hoptions : loadOptions samePage none = .ok {} := rfl
    rw [convert, hoptions]
    simp only [bind, Except.bind, List.mapM_cons, List.mapM_nil, readText_samePage, pure,
      Except.pure]
    exact ⟨_, rfl⟩
  obtain ⟨batch, hconvert⟩ := hconvert
  obtain ⟨hslugs, -, hkept⟩ := outputs_kept_iff hread hconvert (fun _ => none)
  have hnames : ["en/a.html", "de/b.html"].map (fun path => Text.slug (fileName path)) =
      ["a", "b"] := by decide
  refine ⟨batch, hread, hconvert, by decide, hslugs.trans hnames, fun c hc => ?_⟩
  exact (hkept (by rw [hnames]; decide) c hc).1

end ThemeSection.Command
