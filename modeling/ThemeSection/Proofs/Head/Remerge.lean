import ThemeSection.Proofs.Chars.Lines
import ThemeSection.Proofs.Head.Merger

/-!
Merging in parts. What a merger keeps stands for all that it was given: it has the same keys in the
same order, and the same line is picked for each. Printed and read again, the kept lines are the
lines that count. So merging what was merged comes to the same as merging it all at once.
-/

namespace ThemeSection.Head

section Index

variable {κ : Type} [DecidableEq κ] (key? : String → Option κ)
  (pick : List String → Option String)

/-- Whether two lists of lines have the same keys in the same order and the same picks. -/
structure SameIndex (lines lines' : List String) : Prop where
  keys : keysOf key? lines = keysOf key? lines'
  picks : ∀ key, pick (linesOf key? lines key) = pick (linesOf key? lines' key)

variable {key?} {pick} {lines lines' more more' : List String} {rows : List (κ × String)}

/-- Lists can be exchanged part by part if what is picked from two lists together comes from what is
picked from each. -/
theorem SameIndex.append {both : Option String → Option String → Option String}
    (hpick : ∀ a b, pick (a ++ b) = both (pick a) (pick b)) (h : SameIndex key? pick lines lines')
    (hmore : SameIndex key? pick more more') :
    SameIndex key? pick (lines ++ more) (lines' ++ more') where
  keys := by
    rw [keysOf, keysOf, List.filterMap_append, List.filterMap_append]
    exact eraseDups_append_congr h.keys hmore.keys
  picks key := by
    have happend : ∀ l l', linesOf key? (l ++ l') key = linesOf key? l key ++ linesOf key? l' key :=
      fun _ _ => List.filter_append ..
    rw [happend, happend, hpick, hpick, h.picks, hmore.picks]

/-- Lines without a key do not matter. -/
theorem SameIndex.of_forall_none (h : ∀ line ∈ lines, key? line = none) :
    SameIndex key? pick lines [] where
  keys := by rw [keysOf, List.filterMap_eq_nil_iff.2 h, keysOf, List.filterMap_nil]
  picks key := by
    have hnone : linesOf key? lines key = [] :=
      List.filter_eq_nil_iff.2 fun line hline => by simp [h line hline]
    rw [hnone]
    rfl

/-- The picked lines of an index stand for all lines. -/
theorem Indexes.sameIndex (h : Indexes key? pick lines rows)
    (hkey : ∀ row ∈ rows, key? row.2 = some row.1) (hnil : pick [] = none)
    (hone : ∀ line, pick [line] = some line) :
    SameIndex key? pick (rows.map (·.2)) lines := by
  have hnodup : (rows.map (·.1)).Nodup := h.keys ▸ nodup_eraseDups _
  constructor
  case keys =>
    have hmap : (rows.map (·.2)).filterMap key? = rows.map (·.1) := by
      rw [List.filterMap_map, ← List.filterMap_eq_map]
      exact List.filterMap_congr hkey
    rw [keysOf, hmap, eraseDups_of_nodup hnodup, h.keys]
  case picks =>
    intro key
    by_cases hmem : key ∈ rows.map (·.1)
    · obtain ⟨row, hrow, rfl⟩ := List.mem_map.1 hmem
      have honly : linesOf key? (rows.map (·.2)) row.1 = [row.2] := by
        have hfilter : rows.filter (fun other => key? other.2 = some row.1) =
            rows.filter (· = row) := by
          refine List.filter_congr fun other hother => ?_
          rw [hkey other hother, decide_eq_decide, Option.some.injEq]
          exact ⟨fun heq => List.inj_on_of_nodup_map hnodup hother hrow heq,
            fun heq => heq ▸ rfl⟩
        rw [linesOf, List.filter_map, Function.comp_def, hfilter,
          List.filter_eq, List.count_eq_one_of_mem hnodup.of_map hrow]
        rfl
      rw [honly, hone, h.picked row hrow]
    · have hnone : linesOf key? (rows.map (·.2)) key = [] := by
        refine List.filter_eq_nil_iff.2 (List.forall_mem_map.2 fun row hrow => ?_)
        rw [hkey row hrow, decide_eq_true_iff, Option.some.injEq]
        exact fun heq => hmem (heq ▸ List.mem_map_of_mem hrow)
      rw [hnone, linesOf_eq_nil (h.keys ▸ hmem), hnil]

/-- Lines with the same index have the same rows. -/
theorem Indexes.unique {rows' : List (κ × String)} (h : Indexes key? pick lines rows)
    (h' : Indexes key? pick lines' rows') (hsame : SameIndex key? pick lines lines') :
    rows = rows' := by
  have hpicks : rows.map (fun row => some row.2) = rows'.map fun row => some row.2 := by
    rw [h.map_picked, h'.map_picked, hsame.keys]
    exact List.map_congr_left fun key _ => hsame.picks key
  have hkeys : rows.map (·.1) = rows'.map (·.1) := by rw [h.keys, h'.keys, hsame.keys]
  have hlines : rows.map (·.2) = rows'.map (·.2) := by
    refine List.map_injective_iff.2 (fun _ _ => Option.some.inj) ?_
    rw [List.map_map, List.map_map]
    exact hpicks
  rw [← List.zip_unzip rows, ← List.zip_unzip rows', List.unzip_eq_map, List.unzip_eq_map]
  exact congrArg₂ List.zip hkeys hlines

theorem key?_eq_of_mem_linesOf {line : String} {key : κ} (h : line ∈ linesOf key? lines key) :
    line ∈ lines ∧ key? line = some key := by
  rw [linesOf, List.mem_filter, decide_eq_true_iff] at h
  exact h

end Index

/-- A line, or one that comes after it if that has a higher version. -/
def newer (kept line : String) : String :=
  if compareVersions (versionOf line) (versionOf kept) = .gt then line else kept

theorem newer_assoc (a b c : String) : newer (newer a b) c = newer a (newer b c) := by
  rw [newer, newer, newer, newer]
  by_cases hab : compareVersions (versionOf b) (versionOf a) = .gt <;>
    by_cases hbc : compareVersions (versionOf c) (versionOf b) = .gt
  · have hac : compareVersions (versionOf c) (versionOf a) = .gt :=
      Std.TransCmp.gt_trans hbc hab
    simp [hab, hbc, hac]
  · simp [hab, hbc]
  · simp [hab, hbc]
  · have hac : compareVersions (versionOf c) (versionOf a) ≠ .gt := by
      rw [Ordering.ne_gt_iff_isLE] at hab hbc
      exact Ordering.ne_gt_iff_isLE.2 (Std.TransCmp.isLE_trans hbc hab)
    simp [hab, hbc, hac]

theorem exists_highest? {lines : List String} (h : lines ≠ []) :
    ∃ kept, highest? lines = some kept := by
  induction lines using List.reverseRecOn with
  | nil => exact absurd rfl h
  | append_singleton lines line ih =>
    by_cases hlines : lines = []
    · subst hlines
      exact ⟨line, highest?_singleton line⟩
    · obtain ⟨kept, hkept⟩ := ih hlines
      exact ⟨_, highest?_concat hkept line⟩

theorem highest?_append (lines more : List String) :
    highest? (lines ++ more) = Option.merge newer (highest? lines) (highest? more) := by
  by_cases hlines : lines = []
  · have hnone : highest? [] = none := rfl
    rw [hlines, hnone, List.nil_append, Option.merge_none_left]
  obtain ⟨kept, hkept⟩ := exists_highest? hlines
  induction more using List.reverseRecOn with
  | nil => rw [List.append_nil, hkept]; rfl
  | append_singleton more line ih =>
    by_cases hmore : more = []
    · subst hmore
      rw [List.nil_append, highest?_singleton, highest?_concat hkept, hkept]
      rfl
    · obtain ⟨next, hnext⟩ := exists_highest? hmore
      rw [hkept, hnext] at ih
      rw [← List.append_assoc, highest?_concat ih, highest?_concat hnext, hkept]
      exact congrArg some (newer_assoc kept next line)

/-- Whether two lists of lines make the same merger. -/
structure Alike (lines lines' : List String) : Prop where
  fonts : SameIndex fontKey? List.head? lines lines'
  libraries : SameIndex libraryKey? highest? lines lines'
  other : (otherLines lines).eraseDups = (otherLines lines').eraseDups

theorem Alike.append {lines lines' more more' : List String} (h : Alike lines lines')
    (hmore : Alike more more') : Alike (lines ++ more) (lines' ++ more') where
  fonts := h.fonts.append (fun _ _ => List.head?_append) hmore.fonts
  libraries := h.libraries.append highest?_append hmore.libraries
  other := by
    rw [otherLines, otherLines, List.filter_append, List.filter_append]
    exact eraseDups_append_congr h.other hmore.other

/-- All lines that a merger keeps, group after group. -/
def Merger.kept (merger : Merger) : List String :=
  merger.fontLines ++ merger.libraryLines ++ merger.other

section

variable {lines lines' : List String} {merger merger' : Merger}

theorem Merger.Holds.mem_font (h : Holds lines merger) {entry : FontEntry}
    (hentry : entry ∈ merger.fonts) :
    entry.line ∈ lines ∧ fontKey? entry.line = some (entry.source, entry.family) :=
  key?_eq_of_mem_linesOf
    (List.mem_of_head? (h.fonts.picked _ (List.mem_map_of_mem hentry)))

theorem Merger.Holds.mem_library (h : Holds lines merger) {entry : LibraryEntry}
    (hentry : entry ∈ merger.libraries) :
    entry.line ∈ lines ∧ libraryKey? entry.line = some (entry.name, entry.kind) :=
  key?_eq_of_mem_linesOf
    (List.mem_of_find?_eq_some (h.libraries.picked _ (List.mem_map_of_mem hentry)))

theorem Merger.Holds.mem_other (h : Holds lines merger) {line : String} (hline : line ∈ merger.other) :
    line ∈ lines ∧ classify line = .other := by
  rw [h.other, List.mem_eraseDups, otherLines, List.mem_filter, decide_eq_true_iff] at hline
  exact hline

/-- A merger makes up no line. -/
theorem Merger.Holds.mem_of_mem_kept (h : Holds lines merger) {line : String}
    (hline : line ∈ merger.kept) : line ∈ lines := by
  rw [kept, List.mem_append, List.mem_append] at hline
  rcases hline with (hline | hline) | hline
  · obtain ⟨entry, hentry, rfl⟩ := List.mem_map.1 hline
    exact (h.mem_font hentry).1
  · obtain ⟨entry, hentry, rfl⟩ := List.mem_map.1 hline
    exact (h.mem_library hentry).1
  · exact (h.mem_other hline).1

theorem libraryKey?_of_fontKey? {line : String} {key : FontSource × String}
    (h : fontKey? line = some key) : libraryKey? line = none ∧ classify line ≠ .other := by
  rw [fontKey?] at h
  rw [libraryKey?]
  cases hline : classify line <;> simp_all

theorem fontKey?_of_libraryKey? {line : String} {key : String × AssetKind}
    (h : libraryKey? line = some key) : fontKey? line = none ∧ classify line ≠ .other := by
  rw [libraryKey?] at h
  rw [fontKey?]
  cases hline : classify line <;> simp_all

/-- What a merger keeps stands for all that it was given. -/
theorem Merger.Holds.alike_kept (h : Holds lines merger) : Alike merger.kept lines := by
  have hfonts : ∀ line ∈ merger.fontLines, libraryKey? line = none ∧ classify line ≠ .other :=
    List.forall_mem_map.2 fun entry hentry => libraryKey?_of_fontKey? (h.mem_font hentry).2
  have hlibraries : ∀ line ∈ merger.libraryLines, fontKey? line = none ∧ classify line ≠ .other :=
    List.forall_mem_map.2 fun entry hentry => fontKey?_of_libraryKey? (h.mem_library hentry).2
  have hother : ∀ line ∈ merger.other, fontKey? line = none ∧ libraryKey? line = none := by
    intro line hline
    have hclass := (h.mem_other hline).2
    exact ⟨by rw [fontKey?, hclass], by rw [libraryKey?, hclass]⟩
  constructor
  case fonts =>
    have hindex := h.fonts.sameIndex
      (List.forall_mem_map.2 fun entry hentry => (h.mem_font hentry).2) rfl fun _ => rfl
    rw [List.map_map] at hindex
    have hrest : SameIndex fontKey? List.head? (merger.libraryLines ++ merger.other) [] :=
      .of_forall_none (List.forall_mem_append.2
        ⟨fun line hline => (hlibraries line hline).1, fun line hline => (hother line hline).1⟩)
    have hall := hindex.append (fun _ _ => List.head?_append) hrest
    rw [List.append_nil] at hall
    rw [kept, List.append_assoc]
    exact hall
  case libraries =>
    have hindex := h.libraries.sameIndex
      (List.forall_mem_map.2 fun entry hentry => (h.mem_library hentry).2) rfl highest?_singleton
    rw [List.map_map] at hindex
    have hstart : SameIndex libraryKey? highest? merger.fontLines [] :=
      .of_forall_none fun line hline => (hfonts line hline).1
    have hend : SameIndex libraryKey? highest? merger.other [] :=
      .of_forall_none fun line hline => (hother line hline).2
    have hall := (hstart.append highest?_append hindex).append highest?_append hend
    rw [List.append_nil] at hall
    exact hall
  case other =>
    have hstart : otherLines merger.fontLines = [] :=
      List.filter_eq_nil_iff.2 fun line hline => by simp [(hfonts line hline).2]
    have hmiddle : otherLines merger.libraryLines = [] :=
      List.filter_eq_nil_iff.2 fun line hline => by simp [(hlibraries line hline).2]
    have hend : otherLines merger.other = merger.other :=
      List.filter_eq_self.2 fun line hline => by simp [(h.mem_other hline).2]
    have hall : otherLines merger.kept = merger.other := by
      rw [kept, otherLines, List.filter_append, List.filter_append]
      exact (congrArg₂ _ (congrArg₂ _ hstart hmiddle) hend).trans (List.nil_append _)
    rw [hall, h.other, eraseDups_of_nodup (nodup_eraseDups _)]

/-- Lines that stand for each other make the same merger. -/
theorem Merger.Holds.unique (h : Holds lines merger) (h' : Holds lines' merger')
    (halike : Alike lines lines') : merger = merger' := by
  have hfonts : merger.fonts = merger'.fonts := by
    have hrow : Function.Injective FontEntry.row := by
      rintro ⟨source, family, line⟩ ⟨source', family', line'⟩ heq
      cases heq
      rfl
    exact List.map_injective_iff.2 hrow (h.fonts.unique h'.fonts halike.fonts)
  have hlibraries : merger.libraries = merger'.libraries := by
    have hrows := h.libraries.unique h'.libraries halike.libraries
    -- The version of an entry is that of its line.
    have hentry : ∀ entries : List LibraryEntry,
        (∀ entry ∈ entries, entry.version = versionOf entry.line) →
        entries = (entries.map LibraryEntry.row).map fun row =>
          ⟨row.1.1, row.1.2, versionOf row.2, row.2⟩ := by
      intro entries hversions
      rw [List.map_map]
      refine (List.map_id entries).symm.trans (List.map_congr_left fun entry hmem => ?_)
      rw [Function.comp_apply, id, LibraryEntry.row, ← hversions entry hmem]
    rw [hentry _ h.versions, hrows, ← hentry _ h'.versions]
  have hother : merger.other = merger'.other := by rw [h.other, h'.other, halike.other]
  exact congr (congrArg₂ Merger.mk hfonts hlibraries) hother

end

/-- The lines of texts that count. -/
def countedIn (texts : List String) : List String :=
  countedLines [.texts texts]

theorem mergeLines_eq (texts : List String) :
    mergeLines texts = ((countedIn texts).foldl Merger.add {}).render :=
  congrArg Merger.render (Merger.run_eq [.texts texts])

theorem countedIn_append (a b : List String) : countedIn (a ++ b) = countedIn a ++ countedIn b := by
  simp [countedIn, countedLines, Input.lines]

/-- A line that stays as it is when it is printed and read again. -/
structure IsLine (line : String) : Prop where
  nonempty : line ≠ ""
  trimmed : Text.trim line = line
  unbroken : '\n' ∉ line.toList

theorem isLine_of_mem_countedIn {texts : List String} {line : String} (h : line ∈ countedIn texts) :
    IsLine line ∧ isHeader line = false := by
  rw [countedIn, countedLines, List.mem_filter, Bool.and_eq_true, Bool.not_eq_true',
    Bool.not_eq_true'] at h
  obtain ⟨hmem, hempty, hheader⟩ := h
  obtain ⟨whole, hwhole, rfl⟩ := List.mem_map.1 hmem
  simp only [List.flatMap_cons, List.flatMap_nil, List.append_nil, Input.lines] at hwhole
  obtain ⟨text, -, hwhole⟩ := List.mem_flatMap.1 hwhole
  obtain ⟨chars, hchars, rfl⟩ := List.mem_map.1 hwhole
  refine ⟨⟨?_, ?_, ?_⟩, hheader⟩
  · rintro heq
    rw [heq] at hempty
    exact absurd hempty (by decide)
  · exact String.toList_inj.1 (by simp [Text.trim, Chars.trim_trim])
  · rw [Text.trim, Text.toList_onChars, String.toList_ofList]
    exact fun hmem => Chars.newline_not_mem_of_mem_lines hchars (Chars.trim_subset chars hmem)

/-- Texts that are lines are the lines of what they make one below the other. -/
theorem lines_join {lines : List String} (h : ∀ line ∈ lines, IsLine line) :
    Text.lines (Text.join "\n" lines) = lines := by
  have hchars : Chars.lines (Text.join "\n" lines).toList = lines.map String.toList := by
    rw [Text.join, String.toList_intercalate]
    refine Chars.lines_intercalate ?_ ?_ ?_
    · exact List.forall_mem_map.2 fun line hline hnil =>
        (h line hline).nonempty (String.toList_eq_nil_iff.1 hnil)
    · exact List.forall_mem_map.2 fun line hline => (h line hline).unbroken
    · refine List.forall_mem_map.2 fun line hline hlast => ?_
      have htrim : Chars.trim line.toList = line.toList :=
        (Text.toList_onChars Chars.trim line).symm.trans
          (congrArg String.toList (h line hline).trimmed)
      rw [← htrim] at hlast
      exact absurd (Chars.isBlank_of_getLast?_trim hlast) (by decide)
  rw [Text.lines, hchars, List.map_map]
  simp

theorem isLine_of_isHeader {line : String} (h : isHeader line) : IsLine line := by
  have hheaders : ∀ line ∈ [fontsHeader, librariesHeader, otherHeader], IsLine line := by
    simp only [List.forall_mem_cons]
    exact ⟨⟨by decide, by decide, by decide⟩, ⟨by decide, by decide, by decide⟩,
      ⟨by decide, by decide, by decide⟩, List.forall_mem_nil _⟩
  refine hheaders line ?_
  simpa [isHeader, or_assoc] using h

theorem filter_group {header : String} (h : isHeader header) {lines : List String}
    (hlines : ∀ line ∈ lines, isHeader line = false) :
    (Merger.group header lines).filter (fun line => !isHeader line) = lines := by
  have hself : lines.filter (fun line => !isHeader line) = lines :=
    List.filter_eq_self.2 fun line hline => by simp [hlines line hline]
  rw [Merger.group]
  split
  case isTrue hempty => rw [List.isEmpty_iff.1 hempty, List.filter_nil]
  case isFalse => rw [List.filter_cons_of_neg (by simp [h]), hself]

theorem mem_group {header line : String} {lines : List String}
    (h : line ∈ Merger.group header lines) : line = header ∨ line ∈ lines := by
  rw [Merger.group] at h
  split at h
  case isTrue => cases h
  case isFalse => exact List.mem_cons.1 h

/-- The lines that count in what a merger prints are those that it keeps. -/
theorem countedIn_render {merger : Merger}
    (h : ∀ line ∈ merger.kept, IsLine line ∧ isHeader line = false) :
    countedIn [merger.render] = merger.kept := by
  let printed := Merger.group fontsHeader merger.fontLines ++
    Merger.group librariesHeader merger.libraryLines ++ Merger.group otherHeader merger.other
  have hheaders : isHeader fontsHeader ∧ isHeader librariesHeader ∧ isHeader otherHeader := by
    decide
  have hkept : ∀ line, line ∈ merger.fontLines ∨ line ∈ merger.libraryLines ∨ line ∈ merger.other →
      IsLine line ∧ isHeader line = false := fun line hline =>
    h line (by rwa [Merger.kept, List.mem_append, List.mem_append, or_assoc])
  have hlines : ∀ line ∈ printed, IsLine line := by
    refine List.forall_mem_append.2 ⟨List.forall_mem_append.2 ⟨?_, ?_⟩, ?_⟩ <;> intro line hline
    · rcases mem_group hline with rfl | hline
      · exact isLine_of_isHeader hheaders.1
      · exact (hkept line (Or.inl hline)).1
    · rcases mem_group hline with rfl | hline
      · exact isLine_of_isHeader hheaders.2.1
      · exact (hkept line (Or.inr (Or.inl hline))).1
    · rcases mem_group hline with rfl | hline
      · exact isLine_of_isHeader hheaders.2.2
      · exact (hkept line (Or.inr (Or.inr hline))).1
  have hread : [Input.texts [merger.render]].flatMap Input.lines = printed := by
    have hjoin : Text.lines merger.render = printed := lines_join hlines
    simpa [Input.lines] using hjoin
  have htrim : printed.map Text.trim = printed :=
    (List.map_congr_left fun line hline => (hlines line hline).trimmed).trans (List.map_id _)
  have hfilter : printed.filter (fun line => !line.isEmpty && !isHeader line) =
      printed.filter fun line => !isHeader line := by
    refine List.filter_congr fun line hline => ?_
    have hne : line.isEmpty = false := by
      simpa using (hlines line hline).nonempty
    rw [hne]
    rfl
  rw [countedIn, countedLines, hread, htrim, hfilter, List.filter_append, List.filter_append,
    filter_group hheaders.1 fun line hline => (hkept line (Or.inl hline)).2,
    filter_group hheaders.2.1 fun line hline => (hkept line (Or.inr (Or.inl hline))).2,
    filter_group hheaders.2.2 fun line hline => (hkept line (Or.inr (Or.inr hline))).2, Merger.kept]

/-- Texts can be merged in parts: the merged parts, merged, are the merged whole. So merging what is
merged already changes nothing. -/
theorem mergeLines_mergeLines (a b : List String) :
    mergeLines [mergeLines a, mergeLines b] = mergeLines (a ++ b) ∧
      mergeLines [mergeLines a] = mergeLines a := by
  have hread : ∀ texts, Alike (countedIn [mergeLines texts]) (countedIn texts) := by
    intro texts
    have hholds := Merger.holds_foldl_add (countedIn texts)
    have hkept := countedIn_render fun line hline =>
      isLine_of_mem_countedIn (hholds.mem_of_mem_kept hline)
    rw [mergeLines_eq, hkept]
    exact hholds.alike_kept
  have hmerge : ∀ texts texts', Alike (countedIn texts) (countedIn texts') →
      mergeLines texts = mergeLines texts' := by
    intro texts texts' halike
    rw [mergeLines_eq, mergeLines_eq]
    exact congrArg Merger.render ((Merger.holds_foldl_add _).unique (Merger.holds_foldl_add _) halike)
  refine ⟨hmerge _ _ ?_, hmerge _ _ (hread a)⟩
  have hparts : [mergeLines a, mergeLines b] = [mergeLines a] ++ [mergeLines b] := rfl
  rw [hparts, countedIn_append, countedIn_append]
  exact (hread a).append (hread b)

end ThemeSection.Head
