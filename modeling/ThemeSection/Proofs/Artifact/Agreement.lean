import ThemeSection.Proofs.Artifact.Reprint
import ThemeSection.Proofs.Artifact.Untouched

/-!
Where enforcement ends. Afterwards the class of the schema and the type of the page are the slug of
the file name, the schema has a title, and every block of the page has a type that the schema
defines. What is changed for that is reported, and nothing else is changed, as long as the numbers in
the two texts come back from their printed forms.
-/

namespace ThemeSection.Artifact

open Json (Fields Value)
open Liquid (Segmented segmented? segment? replaceSegment? schemaClose closesSchema)

/-- The text of a section, cut at its schema, with the fields that are read from there. -/
structure ReadSection (liquid : String) (cut : Segmented) (fields : Fields) : Prop where
  found : segmented? liquid = some cut
  read : Json.read cut.segment = .ok (.object fields)

/-- The text of a page, with the main section that is read from it. -/
structure ReadPage (pageText : String) (page : Value) (path : PagePath) : Prop where
  read : Json.read pageText = .ok page
  path : pagePath? page = some path

/-- What a checked field holds. -/
def actual (fields main : Fields) : Checked → String
  | .schemaType => textField fields "class"
  | .schemaName => textField fields "name"
  | .pageType => textField main "type"

/-- What a checked field is given if it cannot stay. -/
def expected (slug : String) : Checked → String
  | .schemaType | .pageType => slug
  | .schemaName => Text.schemaTitle slug

/-- Whether a text can stay in a checked field. -/
def allows (slug : String) : Checked → String → Bool
  | .schemaType | .pageType => (· == slug)
  | .schemaName => isTitle

/-- One mismatch for each checked field that holds what cannot stay. -/
def violations (slug : String) (fields main : Fields) : List Mismatch :=
  ([.schemaType, .schemaName, .pageType].filter fun field =>
    !allows slug field (actual fields main field)).map fun field =>
      ⟨field, expected slug field, actual fields main field⟩

theorem correct_snd (field : Checked) (key expected : String) (holds : String → Bool)
    (fields : Fields) : (correct field key expected holds fields).2 =
      if holds (textField fields key) then [] else [⟨field, expected, textField fields key⟩] := by
  rw [correct, apply_ite Prod.snd]

theorem field_of_mem_correct {field : Checked} {key expected : String} {holds : String → Bool}
    {fields : Fields} {m : Mismatch} (h : m ∈ (correct field key expected holds fields).2) :
    m.field = field := by
  rw [correct_snd] at h
  split at h
  case isTrue => cases h
  case isFalse => rw [List.mem_singleton.1 h]

/-- A section is reported for its schema only. -/
theorem field_of_mem_correctSchema {slug : String} {fields : Fields} {m : Mismatch}
    (h : m ∈ (correctSchema slug fields).2) : m.field ≠ .pageType := by
  rw [correctSchema_eq, List.mem_append] at h
  rcases h with h | h <;> rw [field_of_mem_correct h] <;> decide

/-- A page is reported for its type only. -/
theorem field_of_mem_correctMain {slug : String} {known : Option (List String)} {main : Fields}
    {m : Mismatch} (h : m ∈ (correctMain slug known main).2.1) : m.field = .pageType := by
  rw [correctMain] at h
  exact field_of_mem_correct h

/-- What is reported of a section and of its page are their violations. -/
theorem mismatches_eq_violations (slug : String) (known : Option (List String))
    (fields main : Fields) : (correctSchema slug fields).2 ++ (correctMain slug known main).2.1 =
      violations slug fields main := by
  have hname : textField (correct .schemaType "class" slug (· == slug) fields).1 "name" =
      textField fields "name" := textField_correct_of_ne (by decide)
  rw [correctSchema_eq, correctMain]
  dsimp only
  rw [correct_snd, correct_snd, correct_snd, hname, violations]
  have hclass : allows slug .schemaType (actual fields main .schemaType) =
    (textField fields "class" == slug) := rfl
  have htitle : allows slug .schemaName (actual fields main .schemaName) =
    isTitle (textField fields "name") := rfl
  have htype : allows slug .pageType (actual fields main .pageType) =
    (textField main "type" == slug) := rfl
  rw [List.filter_cons, List.filter_cons, List.filter_cons, hclass, htitle, htype]
  by_cases hclass' : (textField fields "class" == slug) <;>
    by_cases htitle' : isTitle (textField fields "name") <;>
      by_cases htype' : (textField main "type" == slug) <;>
        simp [hclass', htitle', htype', actual, expected]

theorem brace_not_mem_schemaTitle (fileName : String) :
    '\x7b' ∉ (Text.schemaTitle (Text.slug fileName)).toList := by
  intro hmem
  exact absurd ((Text.isTitleWord_schemaTitle fileName).1.1 _ hmem) (by decide)

theorem mentionsFields_set_string {needle : List Char} {fields : Fields} {key text : String}
    (h : Value.mentionsFields needle fields = false)
    (hkey : Chars.contains needle key.toList = false)
    (htext : Chars.contains needle text.toList = false) :
    Value.mentionsFields needle (fields.set key (.string text)) = false := by
  induction fields with
  | nil => simp [Fields.set, Value.mentionsFields, Value.mentions, hkey, htext]
  | cons first rest ih =>
    obtain ⟨k, v⟩ := first
    rw [Value.mentionsFields, Bool.or_eq_false_iff, Bool.or_eq_false_iff] at h
    obtain ⟨⟨hk, hv⟩, hrest⟩ := h
    rw [Fields.set]
    split
    case isTrue => simp [Value.mentionsFields, Value.mentions, hk, htext, hrest]
    case isFalse => simp [Value.mentionsFields, hk, hv, ih hrest]

theorem contains_schemaClose_of_not_mem {s : List Char} (h : '\x7b' ∉ s) :
    Chars.contains schemaClose.toList s = false := by
  have hnil := Liquid.isTag_schemaClose.contains_append h []
  rw [List.append_nil] at hnil
  rw [hnil]
  decide

theorem mentionsFields_correct (field : Checked) (key : String) {expected : String} (holds : String → Bool)
    {fields : Fields} (hkey : '\x7b' ∉ key.toList) (hexpected : '\x7b' ∉ expected.toList)
    (h : Value.mentionsFields schemaClose.toList fields = false) :
    Value.mentionsFields schemaClose.toList (correct field key expected holds fields).1 = false := by
  by_cases hholds : holds (textField fields key)
  · rw [correct_of_holds_actual hholds]
    exact h
  · rw [correct_of_not_holds hholds]
    exact mentionsFields_set_string h (contains_schemaClose_of_not_mem hkey)
      (contains_schemaClose_of_not_mem hexpected)

/-- The names that are set do not close the schema. -/
theorem mentions_correctSchema (fileName : String) {fields : Fields}
    (h : (Value.object fields).mentions schemaClose.toList = false) :
    (Value.object (correctSchema (Text.slug fileName) fields).1).mentions schemaClose.toList =
      false := by
  have hslug : '\x7b' ∉ (Text.slug fileName).toList := Text.brace_not_mem_slug fileName
  have htitle := brace_not_mem_schemaTitle fileName
  generalize Text.slug fileName = slug at hslug htitle
  generalize htitle' : Text.schemaTitle slug = title at htitle
  rw [Value.mentions] at h ⊢
  have hclass : Value.mentionsFields schemaClose.toList
      (correct .schemaType "class" slug (· == slug) fields).1 = false :=
    mentionsFields_correct .schemaType "class" (· == slug) (by decide) hslug h
  have hname : Value.mentionsFields schemaClose.toList (correct .schemaName "name" title isTitle
      (correct .schemaType "class" slug (· == slug) fields).1).1 = false :=
    mentionsFields_correct .schemaName "name" isTitle (by decide) htitle hclass
  rw [correctSchema_eq, htitle']
  exact hname

section

variable {liquid pageText : String} {cut : Segmented} {fields : Fields} {page : Value}
  {path : PagePath}

/-- A schema that was put in the place of the old one is read from there. -/
theorem readSection_replaced {others : Fields} {replaced : String}
    (h : ReadSection liquid cut fields) (htidy : (Value.object others).Tidy Json.maxHeight)
    (hexact : (Value.object others).Exact)
    (hunclosed : (Value.object others).mentions schemaClose.toList = false)
    (hreplaced : replaceSegment? liquid (Value.object others).pretty = some replaced) :
    ∃ cut', ReadSection replaced cut' others ∧ cut'.before = cut.before ∧
      cut'.after = cut.after := by
  generalize hschema : Value.object others = schema at *
  have hclose : closesSchema ("\n" ++ schema.pretty ++ "\n") = false :=
    (closesSchema_lines_pretty schema).trans hunclosed
  have hput := Liquid.segmented?_put h.found hclose
  have hagain := Json.toOption_read_pretty htidy (Or.inr rfl) (Or.inr rfl)
  rw [Value.again?_of_exact _ hexact, ← hschema] at hagain
  rw [replaceSegment?, h.found, Option.map_some, Value.trim_pretty, Option.some.injEq] at hreplaced
  refine ⟨{ cut with segment := "\n" ++ schema.pretty ++ "\n" }, ⟨?_, ?_⟩, rfl, rfl⟩
  · rw [← hput, ← hreplaced]
    simp only [String.append_assoc]
  · rw [hschema] at hagain
    rw [hschema]
    exact Value.eq_ok_of_toOption hagain

/-- The schema that is read from an enforced section is the corrected one, in the place of the old
one. -/
theorem readSection_enforceSection {slug : String} (h : ReadSection liquid cut fields)
    (hexact : ¬ Named slug fields → (Value.object fields).Exact)
    (hunclosed : (Value.object (correctSchema slug fields).1).mentions schemaClose.toList = false) :
    let part := enforceSection slug liquid
    (∃ cut', ReadSection part.liquid cut' (correctSchema slug fields).1 ∧
      cut'.before = cut.before ∧ cut'.after = cut.after) ∧
      part.mismatches = (correctSchema slug fields).2 ∧ part.known = some (blockTypes fields) ∧
        (part.liquid ≠ liquid → part.mismatches ≠ []) := by
  intro part
  have hsegment : segment? liquid = some cut.segment := by rw [segment?, h.found, Option.map_some]
  have houtcome : SectionOutcome slug liquid part := outcome_enforceSection slug liquid
  clear_value part
  cases houtcome with
  | unusable warnings hnone => exact absurd h.read (hnone _ hsegment fields)
  | @named segment others hsegment' hread hnamed =>
    obtain rfl := Option.some.inj (hsegment.symm.trans hsegment')
    obtain rfl := Value.object.inj (Except.ok.inj (h.read.symm.trans hread))
    rw [correctSchema_of_named hnamed]
    exact ⟨⟨cut, h, rfl, rfl⟩, rfl, rfl, fun hne => absurd rfl hne⟩
  | @corrected segment replaced others hsegment' hread hnamed hreplaced =>
    obtain rfl := Option.some.inj (hsegment.symm.trans hsegment')
    obtain rfl := Value.object.inj (Except.ok.inj (h.read.symm.trans hread))
    have htidy := Json.tidy_of_read hread
    have hkept := (hereditary_correctSchema Value.hereditary_exact slug
      ⟨hexact hnamed, htidy.2⟩).1
    exact ⟨readSection_replaced h (hereditary_correctSchema Value.hereditary_tidy slug htidy) hkept
      hunclosed hreplaced, rfl, rfl, fun _ hnil => hnamed (correctSchema_eq_nil_iff.1 hnil)⟩

theorem warnings_enforceSection (slug : String) (h : ReadSection liquid cut fields) :
    (enforceSection slug liquid).warnings = [] := by
  rw [enforceSection, segment?, h.found, Option.map_some]
  dsimp only
  rw [h.read]

/-- A page with its own main section is the page. -/
theorem withMain_main (h : pagePath? page = some path) : path.withMain path.main = page := by
  obtain ⟨rfl, hsections, hmain⟩ := PagePath.of_pagePath? h
  rw [PagePath.withMain, Fields.set_of_get? hmain, Fields.set_of_get? hsections]

/-- The page that is read from an enforced text is the one with the corrected main section. -/
theorem readPage_enforcePage (slug : String) (known : Option (List String))
    (h : ReadPage pageText page path) (hexact : ¬ Kept slug known path.main → page.Exact) :
    let part := enforcePage slug known pageText
    let result := correctMain slug known path.main
    ReadPage part.text (path.withMain result.1)
        ⟨path.top.set "sections" (.object (path.sections.set "main" (.object result.1))),
          path.sections.set "main" (.object result.1), result.1⟩ ∧
      part.mismatches = result.2.1 ∧ part.removed = result.2.2 ∧
        (part.text ≠ pageText → result.2 ≠ ([], [])) := by
  intro part
  have houtcome : PageOutcome slug known pageText part := outcome_enforcePage slug known pageText
  clear_value part
  cases houtcome with
  | same warnings hkept =>
    rw [correctMain_of_kept (hkept page path h.read h.path)]
    refine ⟨⟨?_, pagePath?_withMain path path.main⟩, rfl, rfl, fun hne => absurd rfl hne⟩
    rw [withMain_main h.path]
    exact h.read
  | @corrected page' path' hread hpath hkept =>
    obtain rfl := Except.ok.inj (h.read.symm.trans hread)
    obtain rfl := Option.some.inj (h.path.symm.trans hpath)
    refine ⟨⟨?_, pagePath?_withMain path _⟩, rfl, rfl,
      fun _ hnil => hkept (correctMain_eq_nil_iff.1 hnil)⟩
    have htidy := hereditary_withMain Value.hereditary_tidy (Json.tidy_of_read hread) hpath slug known
    have hexact' := (hereditary_withMain Value.hereditary_exact
      ⟨hexact hkept, (Json.tidy_of_read hread).2⟩ hpath slug known).1
    have hagain := Json.toOption_read_pretty htidy (Or.inl rfl) (Or.inl rfl)
    rw [String.empty_append, String.append_empty, Value.again?_of_exact _ hexact'] at hagain
    exact Value.eq_ok_of_toOption hagain

theorem warnings_enforcePage (slug : String) (known : Option (List String))
    (h : ReadPage pageText page path) : (enforcePage slug known pageText).warnings = [] := by
  rw [enforcePage, h.read]
  dsimp only
  rw [correctPage?_eq, h.path, Option.map_some]

end

/-- A schema after enforcement: it names the slug and has a title, and the rest of it and of the
text around it is as before. -/
structure SectionAgrees (slug : String) (before after : Segmented) (fields agreed : Fields) :
    Prop where
  outside : after.before = before.before ∧ after.after = before.after
  className : agreed.get? "class" = some (.string slug)
  title : ∃ title, agreed.get? "name" = some (.string title) ∧ ¬ Text.isBlank title ∧
    Text.clusterCount title ≤ 25
  others : others ["class", "name"] agreed = others ["class", "name"] fields

/-- A page after enforcement: the type of its main section is the slug, each block has one of the
types, and nothing went but the blocks of other types and their places in the order. -/
structure PageAgrees (slug : String) (types : List String) (before after : PagePath) : Prop where
  typeName : after.main.get? "type" = some (.string slug)
  knows : ∀ blocks, blocksOf? after.main = some blocks → ∀ block ∈ blocks,
    ∃ type ∈ types, (block.2.get? "type").bind (·.str?) = some type
  top : others ["sections"] after.top = others ["sections"] before.top
  sections : others ["main"] after.sections = others ["main"] before.sections
  main : Trimmed types before.main after.main
  dropped : ∀ id ∈ removedIds types before.main, ∀ ids, orderOf? after.main = some ids →
    .string id ∉ ids
  order : ∀ ids, orderOf? after.main = some ids → ∃ old, orderOf? before.main = some old ∧
    ids.Sublist old
  listed : Listed before.main → Listed after.main

theorem get?_of_textField {fields : Fields} {key text : String} (h : textField fields key = text)
    (hne : text ≠ "") : fields.get? key = some (.string text) := by
  rw [textField] at h
  cases hget : fields.get? key with
  | none =>
    rw [hget] at h
    exact absurd h.symm hne
  | some value =>
    rw [hget] at h
    cases value with
    | string s => exact congrArg (fun s => some (Value.string s)) h
    | _ => exact absurd h.symm hne

theorem sectionAgrees_correctSchema {slug : String} (hslug : slug ≠ "")
    (htitle : isTitle (Text.schemaTitle slug)) {before after : Segmented}
    (houtside : after.before = before.before ∧ after.after = before.after) (fields : Fields) :
    SectionAgrees slug before after fields (correctSchema slug fields).1 := by
  have hnamed : Named slug (correctSchema slug fields).1 := named_correctSchema htitle
  obtain ⟨hclass, hname⟩ := hnamed
  rw [isTitle, Bool.and_eq_true, Bool.not_eq_true', decide_eq_true_eq] at hname
  have hne : textField (correctSchema slug fields).1 "name" ≠ "" := by
    intro hempty
    rw [hempty] at hname
    exact absurd hname.1 (by decide)
  exact {
    outside := houtside
    className := get?_of_textField hclass hslug
    title := ⟨_, get?_of_textField rfl hne, by simp [hname.1], hname.2⟩
    others := others_correctSchema slug fields }

theorem pageAgrees_correctMain {slug : String} (hslug : slug ≠ "") (types : List String)
    {path : PagePath} {n : Nat} (htidy : (Value.object path.main).Tidy n) :
    let main := (correctMain slug (some types) path.main).1
    PageAgrees slug types path ⟨path.top.set "sections" (.object (path.sections.set "main"
      (.object main))), path.sections.set "main" (.object main), main⟩ := by
  intro main
  obtain ⟨htype, hknows⟩ := kept_correctMain slug (some types) path.main
  have htrimmed : Trimmed types path.main main := (trimmed_correctMain slug types path.main).1
  exact {
    typeName := get?_of_textField htype hslug
    knows := fun blocks hblocks block hblock => by
      have hknown := hknows types rfl blocks hblocks block hblock
      obtain ⟨type, htype, hmem⟩ := (Option.any_eq_true _ _).1 hknown
      exact ⟨type, List.contains_iff_mem.1 hmem, htype⟩
    top := others_set (by decide) _
    sections := others_set (by decide) _
    main := htrimmed
    dropped := fun id hid ids => htrimmed.not_mem_order hid
    order := fun ids => htrimmed.sublist_order
    listed := htrimmed.listed htidy }

/-- Enforcement makes the schema and the page agree with the file name, changes nothing else and
reports each violation once, provided that the numbers of a text that is printed again come back from
their printed form. -/
theorem enforce_agrees {fileName liquid pageText : String} {cut : Segmented} {fields : Fields}
    {page : Value} {path : PagePath} (hsection : ReadSection liquid cut fields)
    (hpage : ReadPage pageText page path)
    (hunclosed : (Value.object fields).mentions schemaClose.toList = false)
    (hfields : ¬ Named (Text.slug fileName) fields → (Value.object fields).Exact)
    (hvalue : ¬ Kept (Text.slug fileName) (some (blockTypes fields)) path.main → page.Exact) :
    let slug := Text.slug fileName
    let result := enforce fileName liquid pageText
    let removed := removedIds (blockTypes fields) path.main
    (∃ cut' fields', ReadSection result.liquid cut' fields' ∧
      SectionAgrees slug cut cut' fields fields') ∧
    (∃ page' path', ReadPage result.pageText page' path' ∧
      PageAgrees slug (blockTypes fields) path path') ∧
    result.report.mismatches = violations slug fields path.main ∧
    result.report.warnings = removed.map (fun id =>
      s!"Removed block '{id}' with a type the schema does not define") ∧
    result.changes = (violations slug fields path.main).map Mismatch.change ++
      removed.map (fun id => s!"Removed block '{id}' with unknown type") ∧
    (result.liquid ≠ liquid → ∃ m ∈ result.report.mismatches, m.field ≠ .pageType) ∧
    (result.pageText ≠ pageText → removed ≠ [] ∨
      ∃ m ∈ result.report.mismatches, m.field = .pageType) := by
  intro slug result removed
  have hslug : slug ≠ "" := Text.slug_ne_empty fileName
  have htitle : isTitle (Text.schemaTitle slug) := isTitle_schemaTitle fileName
  obtain ⟨⟨cut', hcut', houtside⟩, hmismatches, hknown, hliquid⟩ :=
    readSection_enforceSection hsection hfields (mentions_correctSchema fileName hunclosed)
  obtain ⟨hpage', hmain, hremoved, htext⟩ :=
    readPage_enforcePage slug (some (blockTypes fields)) hpage hvalue
  have hdropped : (correctMain slug (some (blockTypes fields)) path.main).2.2 = removed :=
    (trimmed_correctMain slug (blockTypes fields) path.main).2
  have hviolations := mismatches_eq_violations slug (some (blockTypes fields)) fields path.main
  have hresult : result = _ := enforce_eq fileName liquid pageText
  rw [hknown] at hresult
  rw [hresult]
  dsimp only
  rw [hmismatches, hmain, hremoved, warnings_enforceSection slug hsection,
    warnings_enforcePage slug _ hpage, hviolations, hdropped]
  obtain ⟨n, htidy⟩ :=
    hereditary_main Value.hereditary_tidy (Json.tidy_of_read hpage.read) hpage.path
  refine ⟨⟨cut', _, hcut', sectionAgrees_correctSchema hslug htitle houtside fields⟩,
    ⟨_, _, hpage', pageAgrees_correctMain hslug _ htidy⟩, rfl, rfl, rfl, fun hne => ?_,
    fun hne => ?_⟩
  · obtain ⟨m, hm⟩ := List.exists_mem_of_ne_nil _ (hliquid hne)
    rw [hmismatches] at hm
    rw [← hviolations]
    exact ⟨m, List.mem_append_left _ hm, field_of_mem_correctSchema hm⟩
  · have hreported := htext hne
    rw [or_iff_not_imp_left, not_not]
    intro hnil
    have hsome : (correctMain slug (some (blockTypes fields)) path.main).2.1 ≠ [] := fun h =>
      hreported (Prod.ext h (hdropped.trans hnil))
    obtain ⟨m, hm⟩ := List.exists_mem_of_ne_nil _ hsome
    rw [← hviolations]
    exact ⟨m, List.mem_append_right _ hm, field_of_mem_correctMain hm⟩

/-- A section that names another slug and has one block type. -/
def staleSection : String :=
  "\x7b% schema %\x7d\x7b\"class\": \"b\", \"blocks\": [\x7b\"type\": \"t\"\x7d]\x7d\x7b% endschema %\x7d"

/-- A page with a block of that type and one of another. -/
def stalePage : String :=
  "\x7b\"sections\": \x7b\"main\": \x7b\"type\": \"a\", \"blocks\": \x7b\"x\": \x7b\"type\": \"t\"\x7d, "
    ++ "\"y\": \x7b\"type\": \"u\"\x7d\x7d, \"block_order\": [\"x\", \"y\"]\x7d\x7d\x7d"

def staleFields : Fields :=
  [("class", .string "b"), ("blocks", .array [.object [("type", .string "t")]])]

def staleMain : Fields :=
  [("type", .string "a"),
    ("blocks", .object
      [("x", .object [("type", .string "t")]), ("y", .object [("type", .string "u")])]),
    ("block_order", .array [.string "x", .string "y"])]

/-- A section of another name gets the class and a title, and the page loses the block of unknown
type. -/
theorem enforce_agrees_stale :
    let result := enforce "a" staleSection stalePage
    (∃ cut, ReadSection staleSection cut staleFields) ∧
    (∃ page path, ReadPage stalePage page path ∧ path.main = staleMain) ∧
    result.report.mismatches =
      [⟨.schemaType, "a", "b"⟩, ⟨.schemaName, "A", ""⟩] ∧
    result.report.warnings = ["Removed block 'y' with a type the schema does not define"] := by
  have hsection : ReadSection staleSection
      ⟨"\x7b% schema %\x7d", "\x7b\"class\": \"b\", \"blocks\": [\x7b\"type\": \"t\"\x7d]\x7d",
        "\x7b% endschema %\x7d"⟩ staleFields := ⟨by cbv, by cbv⟩
  have hpage : ReadPage stalePage (.object [("sections", .object [("main", .object staleMain)])])
      ⟨[("sections", .object [("main", .object staleMain)])], [("main", .object staleMain)],
        staleMain⟩ := ⟨by cbv, by rfl⟩
  have hfields : (Value.object staleFields).Exact := by
    simp [staleFields, Value.Exact, Value.ExactFields, Value.ExactItems, Fields.keys]
  have hvalue : (Value.object [("sections", .object [("main", .object staleMain)])]).Exact := by
    simp [staleMain, Value.Exact, Value.ExactFields, Value.ExactItems, Fields.keys]
  have hslug : Text.slug "a" = "a" := by decide
  obtain ⟨-, -, hmismatches, hwarnings, -⟩ :=
    @enforce_agrees "a" _ _ _ _ _ _ hsection hpage (by decide) (fun _ => hfields) fun _ => hvalue
  refine ⟨⟨_, hsection⟩, ⟨_, _, hpage, rfl⟩, ?_, ?_⟩
  · rw [hmismatches, hslug]
    decide
  · rw [hwarnings]
    decide

end ThemeSection.Artifact
