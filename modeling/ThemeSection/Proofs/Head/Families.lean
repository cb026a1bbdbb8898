import Mathlib.Data.List.Infix
import ThemeSection.Proofs.Chars.Squeeze
import ThemeSection.Proofs.Head.Resources

/-!
The font families that lines ask a host for. One address may ask for several, but a line is kept or
dropped for one of them, its key: a family that only dropped lines ask for is lost.
-/

namespace ThemeSection.Head

variable {s query parameter value name : List Char} {c p : Char}

/-- The address at the start of a text. -/
def address (s : List Char) : List Char :=
  s.takeWhile (!endsAddress ·)

/-- The query that follows the name of a style sheet. -/
def queryOf? : List Char → Option (List Char)
  | '2' :: '?' :: query => some query
  | '?' :: query => some query
  | _ => none

/-- The query of a hosted style sheet, read from the start of its address. -/
def hostedQuery? (s : List Char) : Option (List Char) :=
  (Chars.stripFolded? "fonts.googleapis.com/css".toList s).bind queryOf?

/-- The parts of a query after each separator. -/
def separatedParameters : List Char → List (List Char)
  | [] => []
  | c :: rest =>
    if c == '?' || c == '&' || c == ';' then rest :: separatedParameters rest
    else separatedParameters rest

/-- The names that a value lists, each without the styles that are asked of it. A value that does not
begin with a name lists none. -/
def namesIn (value : List Char) : List (List Char) :=
  match (Chars.splitWhere (· == '|') value).map (List.takeWhile (· != ':')) with
  | [] :: _ => []
  | names => names.filter (!·.isEmpty)

/-- The names in the value of a family parameter at the start of a text. -/
def namesOf (parameter : List Char) : List (List Char) :=
  match Chars.stripFolded? "family=".toList parameter with
  | none => []
  | some rest => namesIn (rest.takeWhile fun c => !(c == '&' || c == ';'))

/-- The names in all family parameters of the hosted style sheet whose address is at the start of a
text. -/
def namesHere (s : List Char) : List (List Char) :=
  (hostedQuery? (address s)).toList.flatMap fun query =>
    (query :: separatedParameters query).flatMap namesOf

/-- The family that a name in an address stands for. -/
def familyOf (name : List Char) : String :=
  Text.lower <| String.ofList <| Chars.replaceAll "%20".toList [' '] <|
    name.map fun c => if c == '+' then ' ' else c

/-- The families that the hosted style sheets in a line are asked for. -/
def families (line : String) : List String :=
  (line.toList.tails.flatMap namesHere).map familyOf

theorem folds_eq_false (hc : endsAddress c) (hp : endsAddress p = false) :
    Chars.folds p c = false := by
  have hquote : c = '"' ∨ c = '\'' ∨ c = '>' ∨ Chars.isBlank c := by
    simpa [endsAddress, or_assoc] using hc
  have hlower : c.toLower = c := by
    have hcapital : ¬ (65 ≤ c.toNat ∧ c.toNat ≤ 90) := by
      rcases hquote with rfl | rfl | rfl | hblank
      · decide
      · decide
      · decide
      · simp [Chars.isBlank] at hblank
        omega
    exact dif_neg hcapital
  have hother : ∀ d ∈ [p, '\u212A', '\u017F'], endsAddress d = false := by
    simp [hp]
    decide
  have hne : ∀ d ∈ [p, '\u212A', '\u017F'], c ≠ d := by
    rintro d hd rfl
    rw [hother c hd] at hc
    cases hc
  simp [Chars.folds, hlower, hne]

theorem address_cons (hc : endsAddress c = false) (s : List Char) :
    address (c :: s) = c :: address s := by
  simp [address, hc]

/-- A pattern that stays within an address is found in a text as in the address. -/
theorem stripFolded?_address {pattern : List Char} (h : ∀ p ∈ pattern, endsAddress p = false)
    (s : List Char) : Chars.stripFolded? pattern (address s) =
      (Chars.stripFolded? pattern s).map address := by
  induction pattern generalizing s with
  | nil => rfl
  | cons p pattern ih =>
    obtain ⟨hp, hrest⟩ := List.forall_mem_cons.1 h
    cases s with
    | nil => rfl
    | cons c s =>
      cases hc : endsAddress c with
      | true => simp [address, hc, Chars.stripFolded?, folds_eq_false hc hp]
      | false =>
        rw [address_cons hc, Chars.stripFolded?, Chars.stripFolded?, ih hrest]
        split <;> rfl

theorem familyValue?_address (s : List Char) : familyValue? (address s) = familyValue? s := by
  have hends : ∀ rest : List Char,
      (address rest).takeWhile (!endsFamily ·) = rest.takeWhile (!endsFamily ·) := by
    intro rest
    rw [address, List.takeWhile_takeWhile]
    congr 1
    funext c
    have hwider : endsAddress c → endsFamily c := fun hc => by simp [endsFamily, hc]
    cases hf : endsFamily c with
    | true => simp
    | false => simpa using mt hwider (by simp [hf])
  rw [familyValue?, familyValue?, stripFolded?_address (by decide)]
  cases Chars.stripFolded? "family=".toList s with
  | none => rfl
  | some rest => rw [Option.map_some]; dsimp only; rw [hends]

/-- A query mark or another separator stands within an address. -/
theorem ne_of_endsAddress (hc : endsAddress c) (hp : endsAddress p = false) : c ≠ p := by
  rintro rfl
  rw [hc] at hp
  cases hp

theorem separatedFamily?_address (s : List Char) :
    separatedFamily? (address s) = separatedFamily? s := by
  induction s with
  | nil => rfl
  | cons c s ih =>
    cases hc : endsAddress c with
    | true =>
      have hne := fun p => ne_of_endsAddress (p := p) hc
      simp [address, separatedFamily?, hc, hne '?' (by decide), hne '&' (by decide),
        hne ';' (by decide)]
    | false =>
      rw [address_cons hc, separatedFamily?, separatedFamily?, familyValue?_address, ih]

theorem queryOf?_address (s : List Char) : queryOf? (address s) = (queryOf? s).map address := by
  rcases s with _ | ⟨a, s⟩
  · rfl
  cases ha : endsAddress a with
  | true =>
    have hne := fun p => ne_of_endsAddress (p := p) ha
    simp [address, ha, queryOf?, hne '2' (by decide), hne '?' (by decide)]
  | false =>
    rw [address_cons ha]
    by_cases hmark : a = '?'
    · rw [hmark]
      rfl
    by_cases htwo : a = '2'
    · rw [htwo]
      rcases s with _ | ⟨b, s⟩
      · rfl
      cases hb : endsAddress b with
      | true => simp [address, hb, queryOf?, ne_of_endsAddress (p := '?') hb (by decide)]
      | false =>
        rw [address_cons hb]
        by_cases hnext : b = '?' <;> simp [queryOf?, hnext]
    · simp [queryOf?, hmark, htwo]

theorem hostedQuery?_address (s : List Char) :
    hostedQuery? (address s) = (hostedQuery? s).map address := by
  rw [hostedQuery?, hostedQuery?, stripFolded?_address (by decide), Option.bind_map, Option.map_bind]
  exact congrArg _ (funext queryOf?_address)

theorem hostedFamilyHere?_eq (s : List Char) : hostedFamilyHere? s =
    (hostedQuery? (address s)).bind fun query =>
      (separatedFamily? query).or (familyValue? query) := by
  have hread : hostedFamilyHere? s = (hostedQuery? s).bind fun query =>
      (separatedFamily? query).or (familyValue? query) := by
    rw [hostedFamilyHere?, hostedQuery?, Option.bind_assoc]
    refine congrArg _ (funext fun rest => ?_)
    unfold queryOf?
    split <;> simp_all
  rw [hread, hostedQuery?_address, Option.bind_map]
  refine congrArg _ (funext fun query => ?_)
  rw [Function.comp_apply, separatedFamily?_address, familyValue?_address]

/-- The first of the names in a parameter is the one that is read. -/
theorem head?_namesOf (s : List Char) : (namesOf (address s)).head? = familyValue? s := by
  rw [namesOf, familyValue?, stripFolded?_address (by decide)]
  cases Chars.stripFolded? "family=".toList s with
  | none => rfl
  | some rest =>
    have hfirst : (((address rest).takeWhile fun c => !(c == '&' || c == ';')).takeWhile
        fun c => !(c == '|')).takeWhile (· != ':') = rest.takeWhile (!endsFamily ·) := by
      rw [address, List.takeWhile_takeWhile, List.takeWhile_takeWhile, List.takeWhile_takeWhile]
      congr 1
      funext c
      rw [Bool.eq_iff_iff]
      simp [endsFamily]
      grind
    obtain ⟨pieces, hpieces⟩ := Chars.exists_splitWhere (· == '|')
      ((address rest).takeWhile fun c => !(c == '&' || c == ';'))
    rw [Option.map_some]
    dsimp only
    rw [namesIn, hpieces, List.map_cons, hfirst]
    cases rest.takeWhile (!endsFamily ·) with
    | nil => rfl
    | cons c name => simp

theorem separatedFamily?_eq (h : ∀ c ∈ query, endsAddress c = false) :
    separatedFamily? query = (separatedParameters query).findSome? familyValue? := by
  induction query with
  | nil => rfl
  | cons c rest ih =>
    obtain ⟨hc, hrest⟩ := List.forall_mem_cons.1 h
    rw [separatedFamily?, separatedParameters, ih hrest, hc]
    cases hsep : (c == '?' || c == '&' || c == ';') with
    | false => simp
    | true => cases hvalue : familyValue? rest <;> simp [hvalue]

theorem subset_of_mem_separatedParameters (h : parameter ∈ separatedParameters query) :
    parameter ⊆ query := by
  induction query with
  | nil => cases h
  | cons c rest ih =>
    rw [separatedParameters] at h
    split at h
    · rcases List.mem_cons.1 h with rfl | h
      · exact List.subset_cons_self _ _
      · exact List.subset_cons_of_subset _ (ih h)
    · exact List.subset_cons_of_subset _ (ih h)

/-- Where a family is read its name is one of those asked for, and where none is read none is. -/
theorem hostedFamilyHere?_cases (s : List Char) :
    (∃ name ∈ namesHere s, hostedFamilyHere? s = some name) ∨
      (namesHere s = [] ∧ hostedFamilyHere? s = none) := by
  rw [hostedFamilyHere?_eq, namesHere]
  cases hquery : hostedQuery? (address s) with
  | none => exact .inr ⟨rfl, rfl⟩
  | some query =>
    have hends : ∀ c ∈ query, endsAddress c = false := by
      rw [hostedQuery?_address] at hquery
      obtain ⟨whole, -, rfl⟩ := Option.map_eq_some_iff.1 hquery
      intro c hc
      simpa using List.mem_takeWhile_imp hc
    have hhead : ∀ parameter ∈ query :: separatedParameters query,
        (namesOf parameter).head? = familyValue? parameter := by
      intro parameter hmem
      have hsubset : parameter ⊆ query := by
        rcases List.mem_cons.1 hmem with rfl | hmem
        · exact List.Subset.refl _
        · exact subset_of_mem_separatedParameters hmem
      have haddress : address parameter = parameter :=
        List.takeWhile_eq_self_iff.2 fun c hc => by simp [hends c (hsubset hc)]
      have hread := head?_namesOf parameter
      rwa [haddress] at hread
    rw [Option.toList_some, List.flatMap_singleton, Option.bind_some, separatedFamily?_eq hends]
    cases hread : ((separatedParameters query).findSome? familyValue?).or (familyValue? query) with
    | some name =>
      obtain ⟨parameter, hmem, hvalue⟩ : ∃ parameter ∈ query :: separatedParameters query,
          familyValue? parameter = some name := by
        rcases Option.or_eq_some_iff.1 hread with hread | ⟨-, hread⟩
        · obtain ⟨parameter, hmem, hvalue⟩ := List.exists_of_findSome?_eq_some hread
          exact ⟨parameter, List.mem_cons_of_mem _ hmem, hvalue⟩
        · exact ⟨query, List.mem_cons_self, hread⟩
      have hname : name ∈ namesOf parameter :=
        List.mem_of_mem_head? ((hhead parameter hmem).trans hvalue)
      exact .inl ⟨name, List.mem_flatMap.2 ⟨parameter, hmem, hname⟩, rfl⟩
    | none =>
      obtain ⟨hseparated, hfirst⟩ := Option.or_eq_none_iff.1 hread
      refine .inr ⟨List.flatMap_eq_nil_iff.2 fun parameter hmem => ?_, rfl⟩
      rw [← List.head?_eq_none_iff, hhead parameter hmem]
      rcases List.mem_cons.1 hmem with rfl | hmem
      · exact hfirst
      · exact List.findSome?_eq_none_iff.1 hseparated parameter hmem

theorem firstMatch_eq {α : Type} (read : List Char → Option α) (s : List Char) :
    firstMatch read s = s.tails.findSome? read := by
  induction s with
  | nil => cases hread : read [] <;> simp [firstMatch, hread]
  | cons c s ih =>
    rw [firstMatch, List.tails_cons, List.findSome?_cons, ih]
    rfl

theorem library?_ne_font (line : String) (source : FontSource) (family : String) :
    library? line ≠ some (.font source family) := by
  intro h
  obtain ⟨name, -, hname⟩ := List.exists_of_findSome?_eq_some h
  split at hname
  · cases hname
  · cases hname

/-- The font of a line is the one that is read from it. -/
theorem fontKey?_eq_some_iff {line family : String} {source : FontSource} :
    fontKey? line = some (source, family) ↔ font? line = some (.font source family) := by
  have hclass : fontKey? line = some (source, family) ↔ classify line = .font source family := by
    rw [fontKey?]
    cases classify line <;> simp
  rw [hclass, classify]
  cases hfont : font? line with
  | some resource => simp
  | none =>
    cases hlibrary : library? line with
    | none => simp
    | some resource =>
      simp only [Option.none_or, Option.getD_some, reduceCtorEq, iff_false]
      rintro rfl
      exact library?_ne_font line source family hlibrary

/-- A line that asks for families loads one of them, and a hosted font that a line loads is one that
it asks for. -/
theorem fontKey?_cases (line : String) :
    (∃ key ∈ families line, fontKey? line = some (.hosted, key)) ∨
      (families line = [] ∧ ∀ key, fontKey? line ≠ some (.hosted, key)) := by
  have hsame : ∀ s name, hostedFamilyHere? s = some name → name ∈ namesHere s := by
    intro s name hread
    rcases hostedFamilyHere?_cases s with ⟨name', hname, hsome⟩ | ⟨-, hnone⟩
    · exact Option.some.inj (hsome.symm.trans hread) ▸ hname
    · rw [hnone] at hread
      cases hread
  cases hread : firstMatch hostedFamilyHere? line.toList with
  | some name =>
    have hfont : font? line = some (.font .hosted (familyOf name)) := by
      rw [font?, hread]
      rfl
    refine .inl ⟨familyOf name, ?_, fontKey?_eq_some_iff.2 hfont⟩
    rw [firstMatch_eq] at hread
    obtain ⟨s, hs, hname⟩ := List.exists_of_findSome?_eq_some hread
    exact List.mem_map_of_mem (List.mem_flatMap.2 ⟨s, hs, hsame s name hname⟩)
  | none =>
    refine .inr ⟨?_, fun key hkey => ?_⟩
    · rw [firstMatch_eq, List.findSome?_eq_none_iff] at hread
      rw [families, List.map_eq_nil_iff, List.flatMap_eq_nil_iff]
      intro s hs
      rcases hostedFamilyHere?_cases s with ⟨name, -, hsome⟩ | ⟨hnil, -⟩
      · rw [hread s hs] at hsome
        cases hsome
      · exact hnil
    · rw [fontKey?_eq_some_iff, font?, hread] at hkey
      dsimp only at hkey
      split at hkey
      · cases hkey
      · split at hkey
        · cases hkey
        · obtain ⟨name, -, hname⟩ := Option.map_eq_some_iff.1 hkey
          cases hname

theorem exists_fontKey? {line : String} (h : families line ≠ []) :
    ∃ key, fontKey? line = some (.hosted, key) := by
  rcases fontKey?_cases line with ⟨key, -, hkey⟩ | ⟨hnil, -⟩
  · exact ⟨key, hkey⟩
  · exact absurd hnil h

theorem mem_families_of_fontKey? {line key : String} (h : fontKey? line = some (.hosted, key)) :
    key ∈ families line := by
  rcases fontKey?_cases line with ⟨key', hmem, hkey⟩ | ⟨-, hnone⟩
  · obtain ⟨rfl⟩ := Option.some.inj (hkey.symm.trans h)
    exact hmem
  · exact absurd h (hnone key)

theorem address_append_blanks {blanks : List Char} (h : ∀ c ∈ blanks, Chars.isBlank c)
    (s : List Char) : address (s ++ blanks) = address s := by
  have hnil : address blanks = [] :=
    List.takeWhile_eq_nil_iff.2 fun hlt => by simp [endsAddress, h]
  induction s with
  | nil => exact hnil
  | cons c s ih =>
    rw [List.cons_append]
    cases hc : endsAddress c with
    | true => simp [address, hc]
    | false => rw [address_cons hc, address_cons hc, ih]

theorem namesHere_blank (hc : Chars.isBlank c) (s : List Char) : namesHere (c :: s) = [] := by
  have haddress : address (c :: s) = [] := by simp [address, endsAddress, hc]
  rw [namesHere, haddress]
  rfl

theorem flatMap_namesHere_blanks {blanks : List Char} (h : ∀ c ∈ blanks, Chars.isBlank c)
    (s : List Char) : (blanks ++ s).tails.flatMap namesHere = s.tails.flatMap namesHere := by
  induction blanks with
  | nil => rfl
  | cons c blanks ih =>
    obtain ⟨hc, hblanks⟩ := List.forall_mem_cons.1 h
    rw [List.cons_append, List.tails_cons, List.flatMap_cons, namesHere_blank hc, List.nil_append,
      ih hblanks]

theorem flatMap_namesHere_append {blanks : List Char} (h : ∀ c ∈ blanks, Chars.isBlank c)
    (s : List Char) : (s ++ blanks).tails.flatMap namesHere = s.tails.flatMap namesHere := by
  induction s with
  | nil =>
    have hblanks := flatMap_namesHere_blanks h []
    rwa [List.append_nil] at hblanks
  | cons c s ih =>
    rw [List.cons_append, List.tails_cons, List.flatMap_cons, ih, List.tails_cons, List.flatMap_cons,
      namesHere, ← List.cons_append, address_append_blanks h]
    rfl

/-- Trimming a line takes no family away and adds none. -/
theorem families_trim (line : String) : families (Text.trim line) = families line := by
  obtain ⟨front, back, hline, hfront, hback⟩ := Chars.exists_trim line.toList
  rw [families, families, Text.trim, Text.toList_onChars]
  conv_rhs => rw [hline]
  rw [flatMap_namesHere_blanks hfront, flatMap_namesHere_append hback]

/-- Whether a line that is kept asks for a family. -/
def Merger.Asks (merger : Merger) (family : String) : Prop :=
  ∃ line ∈ merger.kept, family ∈ families line

section

variable {lines : List String} {merger : Merger} {line : String} {key : FontSource × String}

theorem Merger.Holds.mem_kept_of_head? (h : Holds lines merger)
    (hline : line ∈ (linesOf fontKey? lines key).head?) :
    line ∈ merger.kept := by
  obtain ⟨hmem, hkey⟩ := key?_eq_of_mem_linesOf (List.mem_of_mem_head? hline)
  obtain ⟨row, hrow, rfl⟩ := h.fonts.exists_row hmem hkey
  have hpicked : row.2 = line := Option.some.inj ((h.fonts.picked row hrow).symm.trans hline)
  obtain ⟨entry, hentry, rfl⟩ := List.mem_map.1 hrow
  exact List.mem_append_left _ (List.mem_append_left _ (List.mem_map.2 ⟨entry, hentry, hpicked⟩))

theorem Merger.Holds.head?_of_mem_kept (h : Holds lines merger)
    (hline : line ∈ merger.kept) (hkey : fontKey? line = some key) :
    line ∈ (linesOf fontKey? lines key).head? := by
  obtain ⟨hlibrary, hother⟩ := libraryKey?_of_fontKey? hkey
  rw [kept, List.mem_append, List.mem_append] at hline
  rcases hline with (hline | hline) | hline
  · obtain ⟨entry, hentry, rfl⟩ := List.mem_map.1 hline
    have hpicked := h.fonts.picked _ (List.mem_map_of_mem hentry)
    obtain rfl := Option.some.inj ((h.mem_font hentry).2.symm.trans hkey)
    exact hpicked
  · obtain ⟨entry, hentry, rfl⟩ := List.mem_map.1 hline
    rw [(h.mem_library hentry).2] at hlibrary
    cases hlibrary
  · exact absurd (h.mem_other hline).2 hother

/-- The first line of each hosted font says which families a merger asks for. -/
theorem Merger.Holds.asks_iff (h : Holds lines merger) {family : String} : merger.Asks family ↔
    ∃ key, ∃ line ∈ (linesOf fontKey? lines (.hosted, key)).head?, family ∈ families line := by
  constructor
  · rintro ⟨line, hline, hfamily⟩
    obtain ⟨key, hkey⟩ := exists_fontKey? (List.ne_nil_of_mem hfamily)
    exact ⟨key, line, h.head?_of_mem_kept hline hkey, hfamily⟩
  · rintro ⟨key, line, hline, hfamily⟩
    exact ⟨line, h.mem_kept_of_head? hline, hfamily⟩

/-- The first line of a font, which is kept, asks for it. -/
theorem exists_first (hline : line ∈ lines) (hkey : fontKey? line = some key) :
    ∃ first ∈ (linesOf fontKey? lines key).head?, first ∈ lines ∧ fontKey? first = some key := by
  have hmem : line ∈ linesOf fontKey? lines key := List.mem_filter.2 ⟨hline, decide_eq_true hkey⟩
  obtain ⟨first, hfirst⟩ := Option.isSome_iff_exists.1 (List.isSome_head?.2 (List.ne_nil_of_mem hmem))
  exact ⟨first, hfirst, key?_eq_of_mem_linesOf (List.mem_of_mem_head? hfirst)⟩

end

/-- A line that asks for families counts. -/
theorem trim_mem_countedLines {inputs : List Input} {line : String}
    (hline : line ∈ inputs.flatMap Input.lines) (hne : families line ≠ []) :
    Text.trim line ∈ countedLines inputs := by
  have hnone : ∀ text ∈ ["", fontsHeader, librariesHeader, otherHeader], families text = [] := by
    decide
  have hkeep : ∀ text ∈ ["", fontsHeader, librariesHeader, otherHeader], Text.trim line ≠ text := by
    rintro text htext rfl
    exact hne (families_trim line ▸ hnone _ htext)
  refine List.mem_filter.2 ⟨List.mem_map_of_mem hline, ?_⟩
  simp [isHeader, hkeep]

/-- The families that a merger asks for after any inputs are those of the first line of each hosted
font. So of the families that a line asks for one is never lost, the one that is the key of the line,
and none of them is lost where lines of one key ask for the same families. -/
theorem Merger.asks_run (inputs : List Input) :
    (∀ family, (run inputs).Asks family ↔ ∃ key,
        ∃ line ∈ (linesOf fontKey? (countedLines inputs) (.hosted, key)).head?,
          family ∈ families line) ∧
      (∀ line ∈ inputs.flatMap Input.lines, families line ≠ [] → ∃ key ∈ families line,
        fontKey? (Text.trim line) = some (.hosted, key) ∧ (run inputs).Asks key) ∧
      ((∀ a ∈ inputs.flatMap Input.lines, ∀ b ∈ inputs.flatMap Input.lines,
          fontKey? (Text.trim a) = fontKey? (Text.trim b) → families a ⊆ families b) →
        ∀ line ∈ inputs.flatMap Input.lines, ∀ family ∈ families line, (run inputs).Asks family) := by
  have hholds : Holds (countedLines inputs) (run inputs) := run_eq inputs ▸ holds_foldl_add _
  -- Each line that asks for families has a key, and the first line with the key is kept.
  have hfirst : ∀ line ∈ inputs.flatMap Input.lines, families line ≠ [] → ∃ key first,
      fontKey? (Text.trim line) = some (.hosted, key) ∧ fontKey? first = some (.hosted, key) ∧
        first ∈ countedLines inputs ∧ first ∈ (run inputs).kept := by
    intro line hline hne
    have htrimmed : families (Text.trim line) ≠ [] := by rwa [families_trim]
    obtain ⟨key, hkey⟩ := exists_fontKey? htrimmed
    obtain ⟨first, hhead, hmem, hfirst⟩ := exists_first (trim_mem_countedLines hline hne) hkey
    exact ⟨key, first, hkey, hfirst, hmem, hholds.mem_kept_of_head? hhead⟩
  refine ⟨fun family => hholds.asks_iff, ?_, ?_⟩
  · intro line hline hne
    obtain ⟨key, first, hkey, hfirst, -, hkept⟩ := hfirst line hline hne
    have hfamily : key ∈ families line := by
      rw [← families_trim]
      exact mem_families_of_fontKey? hkey
    exact ⟨key, hfamily, hkey, first, hkept, mem_families_of_fontKey? hfirst⟩
  · intro hsame line hline family hfamily
    obtain ⟨key, first, hkey, hfirst, hmem, hkept⟩ := hfirst line hline (List.ne_nil_of_mem hfamily)
    obtain ⟨text, htext, rfl⟩ := List.mem_map.1 (List.mem_of_mem_filter hmem)
    have hasked : family ∈ families text :=
      hsame line hline text htext (hkey.trans hfirst.symm) hfamily
    refine ⟨Text.trim text, hkept, ?_⟩
    rwa [families_trim]

instance decidableAsks (merger : Merger) (family : String) : Decidable (merger.Asks family) :=
  inferInstanceAs (Decidable (∃ line ∈ merger.kept, family ∈ families line))

/-- A style sheet for two families. -/
def twoFamilies (first second : String) : String :=
  "<link href='https://fonts.googleapis.com/css2?family=" ++ first ++ "&family=" ++ second ++ "'>"

/-- Of two style sheets with the same last family the second is dropped. That family is not lost, but
the other one is. -/
theorem Merger.asks_run_lato :
    let inputs := [.line (twoFamilies "Roboto" "Lato"), .line (twoFamilies "Inter" "Lato")]
    families (twoFamilies "Inter" "Lato") = ["inter", "lato"] ∧ (run inputs).Asks "lato" ∧
      ¬ (run inputs).Asks "inter" := by
  have hfamilies : families (twoFamilies "Inter" "Lato") = ["inter", "lato"] := by decide +kernel
  have hlato : fontKey? (Text.trim (twoFamilies "Inter" "Lato")) = some (.hosted, "lato") := by
    decide +kernel
  refine ⟨hfamilies, ?_, by decide +kernel⟩
  obtain ⟨key, -, hkey, hasks⟩ := (asks_run [.line (twoFamilies "Roboto" "Lato"),
    .line (twoFamilies "Inter" "Lato")]).2.1 (twoFamilies "Inter" "Lato") (by simp [Input.lines])
    (by simp [hfamilies])
  obtain ⟨rfl⟩ := Option.some.inj (hlato.symm.trans hkey)
  exact hasks

end ThemeSection.Head
