import ThemeSection.Head.Merger
import ThemeSection.Proofs.Head.Version
import ThemeSection.Proofs.Repetition

/-!
What a merger holds after any sequence of inputs, said of the lines that went in: of each font the
first line, of each library and kind of tag the earliest line among those of the highest version,
and every other line once. Each group is in the order in which its keys first appeared, so a library
that is replaced by a higher version keeps its place.
-/

namespace ThemeSection.Head

/-- What a merger is given: one line, or texts whose lines are taken one after the other. -/
inductive Input
  | line (text : String)
  | texts (several : List String)

def Input.lines : Input → List String
  | .line text => [text]
  | .texts several => several.flatMap Text.lines

def Merger.feed (merger : Merger) : Input → Merger
  | .line text => merger.push text
  | .texts several => merger.extend several

/-- A new merger after a sequence of inputs. -/
def Merger.run (inputs : List Input) : Merger :=
  inputs.foldl Merger.feed {}

/-- The lines that count: trimmed, and neither empty nor the header of a group. -/
def countedLines (inputs : List Input) : List String :=
  ((inputs.flatMap Input.lines).map Text.trim).filter fun line => !line.isEmpty && !isHeader line

theorem Merger.feed_eq (merger : Merger) (input : Input) :
    merger.feed input = input.lines.foldl push merger := by
  cases input with
  | line text => rw [feed, Input.lines, List.foldl_cons, List.foldl_nil]
  | texts several => rw [feed, Input.lines, extend]

theorem Merger.foldl_push (merger : Merger) (lines : List String) :
    lines.foldl push merger = ((lines.map Text.trim).filter fun line =>
      !line.isEmpty && !isHeader line).foldl add merger := by
  induction lines generalizing merger with
  | nil => rw [List.map_nil, List.filter_nil, List.foldl_nil, List.foldl_nil]
  | cons line rest ih =>
    rw [List.foldl_cons, ih, push, List.map_cons, List.filter_cons]
    by_cases h : (Text.trim line).isEmpty || isHeader (Text.trim line)
    · rw [if_pos h, if_neg (by rw [← Bool.not_or, h]; decide)]
    · rw [if_neg h, if_pos (by rw [← Bool.not_or, (Bool.not_eq_true _).mp h]; rfl),
        List.foldl_cons]

/-- Only the lines that count matter. -/
theorem Merger.run_eq (inputs : List Input) :
    run inputs = (countedLines inputs).foldl add {} := by
  have hfeed : (feed : Merger → Input → Merger) = fun merger input =>
      input.lines.foldl push merger := by
    funext merger input
    exact merger.feed_eq input
  rw [run, hfeed, ← List.foldl_flatMap, foldl_push, countedLines]

section Index

variable {κ : Type} [DecidableEq κ] (key? : String → Option κ)

/-- The distinct keys of lines, in order of first appearance. -/
def keysOf (lines : List String) : List κ :=
  (lines.filterMap key?).eraseDups

/-- The lines with a given key. -/
def linesOf (lines : List String) (key : κ) : List String :=
  lines.filter (key? · = some key)

variable {key?} {lines : List String} {line : String}

theorem keysOf_concat : keysOf key? (lines ++ [line]) =
    match key? line with
    | none => keysOf key? lines
    | some key =>
      if key ∈ keysOf key? lines then keysOf key? lines else keysOf key? lines ++ [key] := by
  rw [keysOf, List.filterMap_append]
  cases h : key? line with
  | none => simp [h, keysOf]
  | some key =>
    rw [List.filterMap_cons_some h, List.filterMap_nil, eraseDups_concat]
    simp [keysOf, List.mem_eraseDups]

theorem linesOf_concat (key : κ) : linesOf key? (lines ++ [line]) key =
    if key? line = some key then linesOf key? lines key ++ [line] else linesOf key? lines key := by
  rw [linesOf, List.filter_append]
  by_cases h : key? line = some key <;> simp [h, linesOf]

theorem linesOf_eq_nil {key : κ} (h : key ∉ keysOf key? lines) : linesOf key? lines key = [] := by
  refine List.filter_eq_nil_iff.2 fun line hline heq => h ?_
  exact List.mem_eraseDups.2 (List.mem_filterMap.2 ⟨line, hline, by simpa using heq⟩)

variable (key?) (pick : List String → Option String)

/-- Rows that give each key of the lines, in order of first appearance, the line that is picked from
those with the key. -/
structure Indexes (lines : List String) (rows : List (κ × String)) : Prop where
  keys : rows.map (·.1) = keysOf key? lines
  picked : ∀ row ∈ rows, pick (linesOf key? lines row.1) = some row.2

variable {key?} {pick} {rows : List (κ × String)}

theorem Indexes.nil : Indexes key? pick [] [] :=
  ⟨rfl, List.forall_mem_nil _⟩

theorem Indexes.map_picked (h : Indexes key? pick lines rows) :
    rows.map (fun row => some row.2) =
      (keysOf key? lines).map fun key => pick (linesOf key? lines key) := by
  rw [← h.keys, List.map_map]
  exact List.map_congr_left fun row hrow => (h.picked row hrow).symm

/-- A line without a key is in no row. -/
theorem Indexes.skip (h : Indexes key? pick lines rows) (hline : key? line = none) :
    Indexes key? pick (lines ++ [line]) rows where
  keys := by rw [keysOf_concat, hline, h.keys]
  picked := fun row hrow => by
    rw [linesOf_concat, if_neg (by simp [hline])]
    exact h.picked row hrow

/-- A line with a new key gets the last row. -/
theorem Indexes.add (h : Indexes key? pick lines rows) {key : κ} (hline : key? line = some key)
    (hnew : key ∉ rows.map (·.1)) (hpick : pick [line] = some line) :
    Indexes key? pick (lines ++ [line]) (rows ++ [(key, line)]) where
  keys := by
    rw [h.keys] at hnew
    simp only [keysOf_concat, hline]
    rw [if_neg hnew, List.map_append, h.keys]
    rfl
  picked := fun row hrow => by
    rcases List.mem_append.1 hrow with hrow | hrow
    · have hne : key ≠ row.1 := fun heq => hnew (heq ▸ List.mem_map_of_mem hrow)
      rw [linesOf_concat, if_neg (by simpa [hline] using hne)]
      exact h.picked row hrow
    · obtain rfl := List.mem_singleton.1 hrow
      rw [linesOf_concat, if_pos hline, linesOf_eq_nil (h.keys ▸ hnew)]
      exact hpick

/-- A line whose key is there can only change what is picked for its key. -/
theorem Indexes.change (h : Indexes key? pick lines rows) {key : κ} (hline : key? line = some key)
    (hkey : key ∈ rows.map (·.1)) (choose : String → String)
    (hpick : ∀ lines kept, pick lines = some kept → pick (lines ++ [line]) = some (choose kept)) :
    Indexes key? pick (lines ++ [line])
      (rows.map fun row => if row.1 = key then (row.1, choose row.2) else row) where
  keys := by
    rw [h.keys] at hkey
    have hfst : ∀ row : κ × String,
        (if row.1 = key then (row.1, choose row.2) else row).1 = row.1 := by
      intro row
      split <;> rfl
    simp only [keysOf_concat, hline]
    rw [if_pos hkey, List.map_map, ← h.keys]
    exact List.map_congr_left fun row _ => hfst row
  picked := List.forall_mem_map.2 fun row hrow => by
    have hpicked := h.picked row hrow
    by_cases heq : row.1 = key
    · simp only [if_pos heq]
      rw [linesOf_concat, if_pos (heq ▸ hline)]
      exact hpick _ _ hpicked
    · rw [if_neg heq, linesOf_concat, if_neg (by simpa [hline] using Ne.symm heq)]
      exact hpicked

/-- Where the first line with a key stands for the key, no line changes a row. -/
theorem Indexes.keep (h : Indexes key? List.head? lines rows) {key : κ} (hline : key? line = some key)
    (hkey : key ∈ rows.map (·.1)) : Indexes key? List.head? (lines ++ [line]) rows := by
  have hchange := h.change hline hkey id fun lines kept hkept => by
    rw [List.head?_append, hkept]
    rfl
  simpa using hchange

end Index

def fontKey? (line : String) : Option (FontSource × String) :=
  match classify line with
  | .font source family => some (source, family)
  | _ => none

def FontEntry.row (entry : FontEntry) : (FontSource × String) × String :=
  ((entry.source, entry.family), entry.line)

def libraryKey? (line : String) : Option (String × AssetKind) :=
  match classify line with
  | .library name _ => some (name, assetKind line)
  | _ => none

/-- The version of the library that a line loads. -/
def versionOf (line : String) : String :=
  match classify line with
  | .library _ version => version
  | _ => ""

/-- The earliest line among those whose version is highest. -/
def highest? (lines : List String) : Option String :=
  lines.find? fun line => lines.all fun other =>
    (compareVersions (versionOf other) (versionOf line)).isLE

def LibraryEntry.row (entry : LibraryEntry) : (String × AssetKind) × String :=
  ((entry.name, entry.kind), entry.line)

theorem highest?_singleton (line : String) : highest? [line] = some line := by
  have hself : (compareVersions (versionOf line) (versionOf line)).isLE :=
    Std.ReflCmp.isLE_rfl
  simp [highest?, hself]

/-- A line after the others takes the place of the highest only if its version is higher. -/
theorem highest?_concat {lines : List String} {kept : String} (h : highest? lines = some kept)
    (line : String) :
    highest? (lines ++ [line]) =
      some (if compareVersions (versionOf line) (versionOf kept) = .gt then line else kept) := by
  obtain ⟨hkept, before, after, rfl, hbefore⟩ := List.find?_eq_some_iff_append.1 h
  have hall : ∀ other ∈ before ++ kept :: after,
      (compareVersions (versionOf other) (versionOf kept)).isLE := List.all_eq_true.1 hkept
  split
  case isTrue hgt =>
    have hlt : compareVersions (versionOf kept) (versionOf line) = .lt :=
      Std.OrientedCmp.lt_of_gt hgt
    refine List.find?_eq_some_iff_append.2 ⟨?_, _, [], rfl, ?_⟩
    · refine List.all_eq_true.2 fun other hother => ?_
      rcases List.mem_append.1 hother with hother | hother
      · exact Std.TransCmp.isLE_trans (hall other hother) (by rw [hlt]; rfl)
      · obtain rfl := List.mem_singleton.1 hother
        exact Std.ReflCmp.isLE_rfl
    · intro other hother
      have hless : compareVersions (versionOf other) (versionOf line) = .lt :=
        Std.TransCmp.lt_of_isLE_of_lt (hall other hother) hlt
      have hmore : compareVersions (versionOf line) (versionOf other) = .gt :=
        Std.OrientedCmp.gt_of_lt hless
      simp [hmore]
  case isFalse hle =>
    refine List.find?_eq_some_iff_append.2 ⟨?_, before, after ++ [line], by simp, ?_⟩
    · refine List.all_eq_true.2 fun other hother => ?_
      rcases List.mem_append.1 hother with hother | hother
      · exact hall other hother
      · obtain rfl := List.mem_singleton.1 hother
        exact Ordering.ne_gt_iff_isLE.1 hle
    · intro other hother
      have hnot := hbefore other hother
      simp only [Bool.not_eq_true', List.all_eq_false] at hnot ⊢
      obtain ⟨higher, hmem, hhigher⟩ := hnot
      exact ⟨higher, List.mem_append_left _ hmem, hhigher⟩

theorem keepLibrary_of_not_mem {new : LibraryEntry} {entries : List LibraryEntry}
    (h : new.row.1 ∉ entries.map (·.row.1)) : keepLibrary new entries = entries ++ [new] := by
  induction entries with
  | nil => rfl
  | cons entry rest ih =>
    obtain ⟨hne, hrest⟩ := List.ne_and_not_mem_of_not_mem_cons h
    have hother : ¬ (entry.name == new.name && entry.kind == new.kind) := by
      rw [Bool.and_eq_true, beq_iff_eq, beq_iff_eq]
      rintro ⟨hname, hkind⟩
      exact hne (Prod.ext hname.symm hkind.symm)
    rw [keepLibrary, if_neg hother, ih hrest, List.cons_append]

/-- Where a library is kept already, its entry is replaced by a higher version, in its place. -/
theorem keepLibrary_of_mem {new : LibraryEntry} {entries : List LibraryEntry}
    (hnodup : (entries.map (·.row.1)).Nodup) (h : new.row.1 ∈ entries.map (·.row.1)) :
    keepLibrary new entries = entries.map fun entry =>
      if entry.row.1 = new.row.1 ∧ compareVersions new.version entry.version = .gt then new
      else entry := by
  induction entries with
  | nil => cases h
  | cons entry rest ih =>
    obtain ⟨hentry, hrest⟩ := List.nodup_cons.1 hnodup
    have hiff : (entry.name == new.name && entry.kind == new.kind) = true ↔
        entry.row.1 = new.row.1 := by
      simp [LibraryEntry.row]
    rw [keepLibrary, List.map_cons]
    by_cases heq : entry.row.1 = new.row.1
    · have hsame : rest.map (fun entry =>
          if entry.row.1 = new.row.1 ∧ compareVersions new.version entry.version = .gt then new
          else entry) = rest := by
        refine (List.map_congr_left fun other hother => ?_).trans (List.map_id _)
        have hne : other.row.1 ≠ new.row.1 := fun he =>
          hentry (List.mem_map.2 ⟨other, hother, he.trans heq.symm⟩)
        rw [if_neg fun hand => hne hand.1]
        rfl
      rw [if_pos (hiff.2 heq), hsame]
      by_cases hgt : compareVersions new.version entry.version = .gt <;> simp [heq, hgt]
    · have hmem : new.row.1 ∈ rest.map (·.row.1) := by
        rcases List.mem_cons.1 h with he | hmem
        · exact absurd he.symm heq
        · exact hmem
      rw [if_neg (mt hiff.1 heq), if_neg fun hand => heq hand.1, ih hrest hmem]

/-- The lines that load neither a font nor a library. -/
def otherLines (lines : List String) : List String :=
  lines.filter (classify · = .other)

/-- What a merger holds is what the lines say that it was given. -/
structure Merger.Holds (lines : List String) (merger : Merger) : Prop where
  fonts : Indexes fontKey? List.head? lines (merger.fonts.map FontEntry.row)
  libraries : Indexes libraryKey? highest? lines (merger.libraries.map LibraryEntry.row)
  versions : ∀ entry ∈ merger.libraries, entry.version = versionOf entry.line
  other : merger.other = (otherLines lines).eraseDups

variable {lines : List String} {merger : Merger}

theorem Merger.Holds.empty : Holds [] {} where
  fonts := .nil
  libraries := .nil
  versions := List.forall_mem_nil _
  other := rfl

/-- A line that loads a font counts only if no line before it loads the font. -/
theorem Merger.Holds.addFont (h : Holds lines merger) {line family : String} {source : FontSource}
    (hline : classify line = .font source family) : Holds (lines ++ [line]) (merger.add line) := by
  have hfont : fontKey? line = some (source, family) := by rw [fontKey?, hline]
  have hlibrary : libraryKey? line = none := by rw [libraryKey?, hline]
  have hother : otherLines (lines ++ [line]) = otherLines lines := by simp [otherLines, hline]
  have hkey : (merger.fonts.any fun e => e.source == source && e.family == family) = true ↔
      (source, family) ∈ (merger.fonts.map FontEntry.row).map (·.1) := by
    simp [FontEntry.row]
  rw [add, hline]
  dsimp only
  split
  case isTrue hmem =>
    exact ⟨h.fonts.keep hfont (hkey.1 hmem), h.libraries.skip hlibrary, h.versions,
      hother ▸ h.other⟩
  case isFalse hnew =>
    refine ⟨?_, h.libraries.skip hlibrary, h.versions, hother ▸ h.other⟩
    rw [List.map_append]
    exact h.fonts.add hfont (mt hkey.2 hnew) rfl

/-- The entry that a line which loads a library makes, kept or not, keeps every row right. -/
theorem indexes_keepLibrary {entries : List LibraryEntry} (new : LibraryEntry)
    (h : Indexes libraryKey? highest? lines (entries.map LibraryEntry.row))
    (hversions : ∀ entry ∈ entries, entry.version = versionOf entry.line)
    (hline : libraryKey? new.line = some new.row.1) (hnew : new.version = versionOf new.line) :
    Indexes libraryKey? highest? (lines ++ [new.line])
      ((keepLibrary new entries).map LibraryEntry.row) := by
  have hkeys : (entries.map LibraryEntry.row).map (·.1) = entries.map (·.row.1) := List.map_map
  by_cases hmem : new.row.1 ∈ entries.map (·.row.1)
  · have hnodup : (entries.map (·.row.1)).Nodup := hkeys ▸ h.keys ▸ nodup_eraseDups _
    have hchange := h.change hline (hkeys ▸ hmem) _ fun lines kept hkept =>
      highest?_concat hkept new.line
    rw [keepLibrary_of_mem hnodup hmem, List.map_map]
    rw [List.map_map] at hchange
    refine (congrArg _ (List.map_congr_left fun entry hentry => ?_)).mp hchange
    simp only [Function.comp_apply, hnew, hversions entry hentry]
    by_cases hkey : entry.row.1 = new.row.1
    · by_cases hgt : compareVersions (versionOf new.line) (versionOf entry.line) = .gt
      · rw [if_pos hkey, if_pos (c := _ ∧ _) ⟨hkey, hgt⟩]
        exact Prod.ext hkey (if_pos hgt)
      · rw [if_pos hkey, if_neg (c := _ ∧ _) fun hand => hgt hand.2]
        exact Prod.ext rfl (if_neg hgt)
    · rw [if_neg hkey, if_neg (c := _ ∧ _) fun hand => hkey hand.1]
  · rw [keepLibrary_of_not_mem hmem, List.map_append]
    exact h.add hline (hkeys ▸ hmem) (highest?_singleton new.line)

theorem mem_keepLibrary {new entry : LibraryEntry} {entries : List LibraryEntry}
    (h : entry ∈ keepLibrary new entries) : entry = new ∨ entry ∈ entries := by
  induction entries with
  | nil => exact Or.inl (List.mem_singleton.1 h)
  | cons first rest ih =>
    rw [keepLibrary] at h
    grind

theorem Merger.Holds.addLibrary (h : Holds lines merger) {line name version : String}
    (hline : classify line = .library name version) :
    Holds (lines ++ [line]) (merger.add line) := by
  have hfont : fontKey? line = none := by rw [fontKey?, hline]
  have hlibrary : libraryKey? line = some (name, assetKind line) := by rw [libraryKey?, hline]
  have hversion : version = versionOf line := by rw [versionOf, hline]
  have hother : otherLines (lines ++ [line]) = otherLines lines := by simp [otherLines, hline]
  have hadd : merger.add line = { merger with
      libraries := keepLibrary ⟨name, assetKind line, version, line⟩ merger.libraries } := by
    rw [Merger.add, hline]
  rw [hadd]
  refine ⟨h.fonts.skip hfont, ?_, fun entry hentry => ?_, hother ▸ h.other⟩
  · refine indexes_keepLibrary (.mk name (assetKind line) version line) h.libraries h.versions ?_ ?_
    · rw [hlibrary, LibraryEntry.row]
    · exact hversion
  · rcases mem_keepLibrary hentry with rfl | hentry
    · exact hversion
    · exact h.versions entry hentry

theorem Merger.Holds.addOther (h : Holds lines merger) {line : String}
    (hline : classify line = .other) : Holds (lines ++ [line]) (merger.add line) := by
  have hfont : fontKey? line = none := by rw [fontKey?, hline]
  have hlibrary : libraryKey? line = none := by rw [libraryKey?, hline]
  have hother : otherLines (lines ++ [line]) = otherLines lines ++ [line] := by
    simp [otherLines, hline]
  rw [add, hline]
  dsimp only
  split
  case isTrue hmem =>
    refine ⟨h.fonts.skip hfont, h.libraries.skip hlibrary, h.versions, ?_⟩
    rw [hother, eraseDups_concat, if_pos, h.other]
    simpa [h.other] using hmem
  case isFalse hnew =>
    refine ⟨h.fonts.skip hfont, h.libraries.skip hlibrary, h.versions, ?_⟩
    rw [hother, eraseDups_concat, if_neg, h.other]
    simpa [h.other] using hnew

theorem Merger.Holds.add (h : Holds lines merger) (line : String) :
    Holds (lines ++ [line]) (merger.add line) := by
  cases hline : classify line with
  | font source family => exact h.addFont hline
  | library name version => exact h.addLibrary hline
  | other => exact h.addOther hline

theorem Merger.holds_foldl_add (lines : List String) :
    Holds lines (lines.foldl Merger.add {}) := by
  induction lines using List.reverseRecOn with
  | nil => exact .empty
  | append_singleton lines line ih =>
    rw [List.foldl_append, List.foldl_cons, List.foldl_nil]
    exact ih.add line

/-- A new merger after any inputs: of each font the first line that loads it, of each library and
kind of tag the earliest line among those of the highest version, and the other lines each once, all
in order of first appearance, where versions are totally preordered. -/
theorem Merger.run_spec (inputs : List Input) :
    (run inputs).fontLines.map some = (keysOf fontKey? (countedLines inputs)).map (fun key =>
        (linesOf fontKey? (countedLines inputs) key).head?) ∧
      (run inputs).libraryLines.map some = (keysOf libraryKey? (countedLines inputs)).map (fun key =>
        highest? (linesOf libraryKey? (countedLines inputs) key)) ∧
      (run inputs).other = (otherLines (countedLines inputs)).eraseDups ∧
      Std.TransCmp compareVersions := by
  have hholds : Holds (countedLines inputs) (run inputs) := run_eq inputs ▸ holds_foldl_add _
  refine ⟨?_, ?_, hholds.other, inferInstance⟩
  · rw [← hholds.fonts.map_picked, fontLines, List.map_map, List.map_map]
    rfl
  · rw [← hholds.libraries.map_picked, libraryLines, List.map_map, List.map_map]
    rfl

end ThemeSection.Head
