import ThemeSection.Proofs.Artifact.RepairTwice
import ThemeSection.Proofs.Json.LineEnds

/-!
Schemas that are JSON before the repair. The repair takes all that stands between the first quote
after the name of a default and the last quote on the line for the value of the default, so it leaves
such a schema alone exactly if on no line another string comes last after the string of a default.
-/

namespace ThemeSection.Artifact

open Json (Mode Lexed Readable)
open Liquid (segment?)

/-- What stands between the quotes of a string: a quote or a backslash only after a backslash. -/
inductive StringText : List Char → Prop
  | nil : StringText []
  | char {c : Char} {s : List Char} (hquote : c ≠ '"') (hslash : c ≠ '\\') (h : StringText s) :
    StringText (c :: s)
  | escape (c : Char) {s : List Char} (h : StringText s) : StringText ('\\' :: c :: s)

/-- There is nothing to escape in a string, whatever comes after it. -/
theorem StringText.escapeQuotes_append {s : List Char} (h : StringText s) (rest : List Char) :
    escapeQuotes false (s ++ rest) = s ++ escapeQuotes false rest := by
  induction h with
  | nil => rfl
  | @char c s hquote hslash _ ih =>
    have hodd : (c == '\\' && !false) = false := by simpa using hslash
    rw [List.cons_append, escapeQuotes, if_neg (by simpa using hquote), hodd, ih, List.cons_append]
  | @escape c s _ ih =>
    have heven : (c == '\\' && !true) = false := by simp
    rw [List.cons_append, escapeQuotes, if_neg (by decide), List.cons_append]
    rw [show ('\\' == '\\' && !false) = true from rfl, escapeQuotes, if_neg (by simp), heven, ih]
    rfl

/-- Where there is a quote to escape, a string ends at the first one. -/
theorem exists_stringText {s : List Char} (h : escapeQuotes false s ≠ s) :
    ∃ value rest, s = value ++ '"' :: rest ∧ StringText value := by
  match s with
  | [] => exact absurd rfl h
  | c :: s =>
    by_cases hquote : c = '"'
    · subst hquote
      exact ⟨[], s, rfl, .nil⟩
    by_cases hslash : c = '\\'
    · subst hslash
      match s with
      | [] => exact absurd (by decide) h
      | d :: s =>
        have hinner : escapeQuotes false s ≠ s := by
          intro heq
          refine h ?_
          have hodd : escapeQuotes false ('\\' :: d :: s) = '\\' :: d :: escapeQuotes false s := by
            have heven : (d == '\\' && !true) = false := by simp
            rw [escapeQuotes, if_neg (by decide)]
            rw [show ('\\' == '\\' && !false) = true from rfl, escapeQuotes, if_neg (by simp), heven]
          rw [hodd, heq]
        obtain ⟨value, rest, rfl, hvalue⟩ := exists_stringText hinner
        exact ⟨'\\' :: d :: value, rest, rfl, hvalue.escape d⟩
    · have hinner : escapeQuotes false s ≠ s := by
        intro heq
        refine h ?_
        have hodd : (c == '\\' && !false) = false := by simpa using hslash
        rw [escapeQuotes, if_neg (by simpa using hquote), hodd, heq]
      obtain ⟨value, rest, rfl, hvalue⟩ := exists_stringText hinner
      exact ⟨c :: value, rest, rfl, hvalue.char hquote hslash⟩

/-- A line on which the string of a default is not the last one: more text comes after it, and with
it another string, which ends the line but for a comma and blanks. -/
def Crowded (line : List Char) : Prop :=
  ∃ start gap value between comma blanks,
    Chars.splitFirst defaultName line = some (start, gap ++ '"' :: (value ++ '"' :: (between ++
      '"' :: (comma ++ blanks)))) ∧
    (∀ c ∈ gap, Chars.isBlank c) ∧ StringText value ∧
    Mode.outside.scan between = some .inside ∧
    (comma = [] ∨ comma = [',']) ∧ ∀ c ∈ blanks, Chars.isBlank c

theorem Crowded.isSome_repairLine? {line : List Char} (h : Crowded line) :
    (repairLine? line).isSome := by
  obtain ⟨start, gap, value, between, comma, blanks, hfirst, hgap, hvalue, -, hcomma, hblanks⟩ := h
  have hcut : IsCut line ⟨start ++ defaultName ++ gap, value ++ '"' :: between, comma⟩
      start gap blanks :=
    ⟨by simpa using hfirst, rfl, hgap, hcomma, hblanks⟩
  have hparts := defaultLine?_eq_some_iff.2 ⟨_, _, _, hcut⟩
  refine Option.isSome_iff_exists.2 ⟨_, repairLine?_eq_some_iff.2 ⟨_, hparts, ?_, rfl⟩⟩
  dsimp only
  rw [hvalue.escapeQuotes_append, escapeQuotes, if_pos (by decide)]
  intro heq
  have hhead := (List.cons.inj (List.append_cancel_left heq)).1
  exact absurd hhead (by decide)

theorem eq_outside_of_step {mode next : Mode} {c : Char} (hc : c = '\n' ∨ c = '\r')
    (h : mode.step c = some next) : mode = .outside ∧ next = .outside := by
  rcases hc with rfl | rfl <;> cases mode <;> revert h <;> cases next <;> decide

/-- Without quotes and backslashes a text does not leave the mode it starts in. -/
theorem eq_of_scan {mode next : Mode} {s : List Char} (hmode : mode ≠ .escaped)
    (hs : ∀ c ∈ s, c ≠ '"' ∧ c ≠ '\\') (h : mode.scan s = some next) : next = mode := by
  induction s with
  | nil => exact (Option.some.inj h).symm
  | cons c s ih =>
    obtain ⟨⟨hquote, hslash⟩, hs⟩ := List.forall_mem_cons.1 hs
    obtain ⟨after, hstep, hafter⟩ := Mode.scan_cons_eq_some_iff.1 h
    have hsame : after = mode := by
      cases mode with
      | outside =>
        have hplain : Json.isPlain c ∧ Mode.outside = after := by
          simpa [Mode.step, hquote] using hstep
        exact hplain.2.symm
      | inside =>
        have htext : 0x20 ≤ c.toNat ∧ Mode.inside = after := by
          simpa [Mode.step, hquote, hslash] using hstep
        exact htext.2.symm
      | escaped => exact absurd rfl hmode
    exact ih hs (hsame ▸ hafter)

theorem StringText.eq_inside_of_scan {s : List Char} (h : StringText s) {next : Mode}
    (hscan : Mode.inside.scan s = some next) : next = .inside := by
  induction h with
  | nil => exact (Option.some.inj hscan).symm
  | @char c s hquote hslash _ ih =>
    rw [← List.singleton_append] at hscan
    obtain ⟨after, hstep, hafter⟩ := Mode.scan_append_eq_some_iff.1 hscan
    have hsame := eq_of_scan (by decide) (by simp [hquote, hslash]) hstep
    exact ih (hsame ▸ hafter)
  | @escape c s _ ih =>
    obtain ⟨_, ⟨⟩, hscan⟩ := Mode.scan_cons_eq_some_iff.1 hscan
    obtain ⟨after, hstep, hafter⟩ := Mode.scan_cons_eq_some_iff.1 hscan
    have htext : 0x20 ≤ c.toNat ∧ Mode.inside = after := by simpa [Mode.step] using hstep
    exact ih (htext.2 ▸ hafter)

/-- A line break in JSON stands outside its strings, so that each line has its strings whole. -/
theorem lexed_of_mem_lines {s : List Char} (h : Lexed s) : ∀ line ∈ Chars.lines s, Lexed line := by
  intro line hline
  obtain ⟨piece, hpiece, hends⟩ := Chars.exists_piece_of_mem_lines hline
  obtain ⟨-, before, rest, rfl, hbefore, hrest⟩ := Chars.exists_append_of_mem_pieces hpiece
  obtain ⟨start, hstart, h⟩ := Mode.scan_append_eq_some_iff.1 h
  obtain ⟨last, hlast, h⟩ := Mode.scan_append_eq_some_iff.1 h
  have hstart' : start = .outside := by
    rcases hbefore with rfl | hbefore
    · exact (Option.some.inj hstart).symm
    · obtain ⟨front, rfl⟩ := List.getLast?_eq_some_iff.1 hbefore
      obtain ⟨mode, -, hfeed⟩ := Mode.scan_append_eq_some_iff.1 hstart
      obtain ⟨next, hstep, hnext⟩ := Mode.scan_cons_eq_some_iff.1 hfeed
      exact (Option.some.inj hnext).symm.trans (eq_outside_of_step (.inl rfl) hstep).2
  have hlast' : last = .outside := by
    rcases hrest with rfl | hrest
    · exact Option.some.inj h
    · obtain ⟨others, rfl⟩ := List.head?_eq_some_iff.1 hrest
      obtain ⟨next, hstep, -⟩ := Mode.scan_cons_eq_some_iff.1 h
      exact (eq_outside_of_step (.inl rfl) hstep).1
  rw [hstart', hlast'] at hlast
  rcases hends with rfl | rfl
  · exact hlast
  · obtain ⟨mode, hmode, hreturn⟩ := Mode.scan_append_eq_some_iff.1 hlast
    obtain ⟨next, hstep, -⟩ := Mode.scan_cons_eq_some_iff.1 hreturn
    rw [(eq_outside_of_step (.inr rfl) hstep).1] at hmode
    exact hmode

theorem eq_outside_of_scan_defaultName {mode next : Mode} (h : mode.scan defaultName = some next) :
    next = .outside := by
  have hall : ∀ mode : Mode, mode.scan defaultName = none ∨
      mode.scan defaultName = some .outside := by
    intro mode
    cases mode <;> decide
  rcases hall mode with hnone | hsome
  · rw [hnone] at h
    cases h
  · exact Option.some.inj (h.symm.trans hsome)

/-- The last quote of a line of JSON closes a string. -/
theorem eq_inside_of_scan_quote {mode : Mode} {s : List Char}
    (hs : ∀ c ∈ s, c ≠ '"' ∧ c ≠ '\\') (h : mode.scan ('"' :: s) = some .outside) :
    mode = .inside := by
  obtain ⟨next, hstep, hnext⟩ := Mode.scan_cons_eq_some_iff.1 h
  cases mode with
  | inside => rfl
  | outside | escaped =>
    obtain rfl := Option.some.inj hstep
    cases eq_of_scan (by decide) hs hnext

theorem ne_of_isBlank {c : Char} (h : Chars.isBlank c) : c ≠ '"' ∧ c ≠ '\\' := by
  constructor <;> rintro rfl <;> exact absurd h (by decide)

/-- On a line of JSON, what the repair would escape belongs to another string. -/
theorem crowded_of_lexed {line : List Char} (h : Lexed line) (hrepair : (repairLine? line).isSome) :
    Crowded line := by
  obtain ⟨fixed, hfixed⟩ := Option.isSome_iff_exists.1 hrepair
  obtain ⟨parts, hparts, hquotes, -⟩ := repairLine?_eq_some_iff.1 hfixed
  obtain ⟨start, gap, blanks, hcut⟩ := defaultLine?_eq_some_iff.1 hparts
  obtain ⟨value, between, hinner, hvalue⟩ := exists_stringText hquotes
  have hends : ∀ c ∈ parts.after ++ blanks, c ≠ '"' ∧ c ≠ '\\' := by
    refine List.forall_mem_append.2 ⟨?_, fun c hc => ne_of_isBlank (hcut.blanks c hc)⟩
    rcases hcut.comma with hcomma | hcomma <;> rw [hcomma] <;> decide
  have hline : line = start ++ (defaultName ++ (gap ++ '"' :: (value ++ '"' :: (between ++
      '"' :: (parts.after ++ blanks))))) := by
    rw [hcut.eq_append, hcut.before, hinner]
    simp
  refine ⟨start, gap, value, between, parts.after, blanks, ?_, hcut.gap, hvalue, ?_, hcut.comma,
    hcut.blanks⟩
  · rw [hcut.first, hinner]
    simp
  -- The mode at the end of each part, up to the quote that ends the line.
  rw [Lexed, hline] at h
  obtain ⟨_, -, h⟩ := Mode.scan_append_eq_some_iff.1 h
  obtain ⟨_, hname, h⟩ := Mode.scan_append_eq_some_iff.1 h
  obtain rfl := eq_outside_of_scan_defaultName hname
  obtain ⟨_, hgap, h⟩ := Mode.scan_append_eq_some_iff.1 h
  obtain rfl := eq_of_scan (by decide) (fun c hc => ne_of_isBlank (hcut.gap c hc)) hgap
  obtain ⟨_, ⟨⟩, h⟩ := Mode.scan_cons_eq_some_iff.1 h
  obtain ⟨_, hscan, h⟩ := Mode.scan_append_eq_some_iff.1 h
  obtain rfl := hvalue.eq_inside_of_scan hscan
  obtain ⟨_, ⟨⟩, h⟩ := Mode.scan_cons_eq_some_iff.1 h
  obtain ⟨mode, hbetween, hlast⟩ := Mode.scan_append_eq_some_iff.1 h
  obtain rfl := eq_inside_of_scan_quote hends hlast
  exact hbetween

/-- Lines that need no repair read as before when they are put together again. -/
theorem toOption_readRaw_repairedText {segment : String} (h : repairCount segment = 0) :
    (Json.readRaw (repairedText segment)).toOption = (Json.readRaw segment).toOption := by
  have hlines : (Chars.lines segment.toList).map repairedLine = Chars.lines segment.toList := by
    refine (List.map_congr_left fun line hline => ?_).trans (List.map_id _)
    rw [repairedLine, repairCount_eq_zero_iff.1 h line hline, Option.getD_none, id]
  refine (Json.toOption_readRaw_of_sameLines ?_).symm
  rw [toList_repairedText, hlines]
  exact Json.sameLines_join _

/-- The repair leaves a schema that is JSON before it alone exactly if no line of it is crowded. -/
theorem repairQuotes_eq_iff_of_readable {liquid segment : String}
    (hsegment : segment? liquid = some segment) (hread : Readable segment) :
    repairQuotes liquid = ⟨liquid, 0, true⟩ ↔
      ∀ line ∈ Chars.lines segment.toList, ¬ Crowded line := by
  have hcount : repairCount segment = 0 ↔ ∀ line ∈ Chars.lines segment.toList, ¬ Crowded line := by
    rw [repairCount_eq_zero_iff]
    refine forall₂_congr fun line hline => ?_
    rw [← Option.not_isSome_iff_eq_none, not_iff_not]
    exact ⟨crowded_of_lexed (lexed_of_mem_lines hread.lexed line hline), Crowded.isSome_repairLine?⟩
  rw [← hcount, repairQuotes_of_segment? hsegment]
  constructor
  · intro h
    split at h
    case h_1 =>
      split at h
      case isTrue => exact congrArg QuoteRepair.repaired h
      case isFalse hzero => exact Nat.eq_zero_of_not_pos hzero
    case h_2 => exact congrArg QuoteRepair.repaired h
  · intro hzero
    have hsome := Json.readable_iff_isSome.1 hread
    rw [← toOption_readRaw_repairedText hzero] at hsome
    obtain ⟨schema, hschema⟩ := Json.readable_iff_isSome.2 hsome
    rw [hschema, hzero]
    rfl

/-- A default and a label on one line: the repair takes the label for a part of the default. -/
theorem repairQuotes_labelAfterDefault :
    let segment := "\x7b \"default\": \"a\", \"label\": \"b\"\n\x7d"
    let liquid := "\x7b% schema %\x7d" ++ segment ++ "\x7b% endschema %\x7d"
    segment? liquid = some segment ∧ Readable segment ∧
      repairQuotes liquid ≠ ⟨liquid, 0, true⟩ := by
  intro segment liquid
  have hsegment : segment? liquid = some segment := by decide +kernel
  have hread : Readable segment := Json.readable_iff_isSome.2 (by decide +kernel)
  refine ⟨hsegment, hread, fun h => ?_⟩
  have hcrowded : Crowded "\x7b \"default\": \"a\", \"label\": \"b\"".toList :=
    crowded_of_lexed (by decide +kernel) (by decide +kernel)
  exact (repairQuotes_eq_iff_of_readable hsegment hread).1 h _ (by decide +kernel) hcrowded

end ThemeSection.Artifact
