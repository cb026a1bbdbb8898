import Mathlib.Data.List.Chain
import ThemeSection.Proofs.Artifact.DefaultLine
import ThemeSection.Proofs.Json.RoundTrip

/-!
The repair of quotes leaves printed JSON alone. A line of printed JSON holds at most a key and the
start of a value, and every quote inside their strings has a backslash before it, so whatever a line
says about defaults, there is nothing to escape.
-/

namespace ThemeSection.Artifact

open Json

/-- Every quote comes right after a backslash. -/
def Guarded (s : List Char) : Prop :=
  s.IsChain fun a b => b = '"' → a = '\\'

theorem guarded_of_not_mem {s : List Char} (h : '"' ∉ s) : Guarded s := by
  induction s with
  | nil => exact List.isChain_nil
  | cons c s ih =>
    obtain ⟨-, hs⟩ := not_or.1 (List.mem_cons.not.1 h)
    refine List.isChain_cons.2 ⟨?_, ih hs⟩
    rintro _ hd rfl
    exact absurd (List.mem_of_mem_head? hd) hs

theorem guarded_escapeChar (c : Char) :
    Guarded (escapeChar c) ∧ (escapeChar c).head? ≠ some '"' := by
  rcases escapeChar_cases c with ⟨heq, hquote, -, -⟩ | ⟨letter, digits, heq, hbody, -⟩
  · rw [heq]
    exact ⟨List.isChain_singleton c, by simpa using hquote⟩
  · rw [heq]
    have hdigits : '"' ∉ digits := fun h => (hbody.digits _ h).1 rfl
    refine ⟨List.isChain_cons_cons.2 ⟨fun _ => rfl, List.isChain_cons.2 ⟨?_, ?_⟩⟩, by simp⟩
    · rintro _ hd rfl
      exact absurd (List.mem_of_mem_head? hd) hdigits
    · exact guarded_of_not_mem hdigits

theorem guarded_escape (s : List Char) :
    Guarded (s.flatMap escapeChar) ∧ (s.flatMap escapeChar).head? ≠ some '"' := by
  induction s with
  | nil => exact ⟨List.isChain_nil, by simp⟩
  | cons c s ih =>
    obtain ⟨hc, hhead⟩ := guarded_escapeChar c
    rw [List.flatMap_cons]
    refine ⟨List.isChain_append.2 ⟨hc, ih.1, ?_⟩, ?_⟩
    · rintro _ - _ hd rfl
      exact absurd hd ih.2
    · rw [List.head?_append]
      cases h : (escapeChar c).head? with
      | none => exact ih.2
      | some d =>
        rw [h] at hhead
        exact hhead

theorem escapeQuotes_of_plain {s : List Char} (h : ∀ c ∈ s, c ≠ '"' ∧ c ≠ '\\')
    (rest : List Char) : escapeQuotes false (s ++ rest) = s ++ escapeQuotes false rest := by
  induction s with
  | nil => rfl
  | cons c s ih =>
    obtain ⟨hc, hs⟩ := List.forall_mem_cons.1 h
    have hslash : (c == '\\' && !false) = false := by simp [hc.2]
    rw [List.cons_append, escapeQuotes, if_neg (by simp [hc.1]), hslash, ih hs, List.cons_append]

/-- There is nothing to escape in a printed character, whatever comes after it. -/
theorem escapeQuotes_escapeChar (c : Char) (rest : List Char) :
    escapeQuotes false (escapeChar c ++ rest) = escapeChar c ++ escapeQuotes false rest := by
  rcases escapeChar_cases c with ⟨heq, hquote, hslash, -⟩ | ⟨letter, digits, heq, hbody, -⟩
  · rw [heq, escapeQuotes_of_plain (by simpa using ⟨hquote, hslash⟩)]
  · have hodd : (letter == '"' && !true) = false := by simp
    have heven : (letter == '\\' && !true) = false := by simp
    rw [heq, List.cons_append, escapeQuotes, if_neg (by decide), List.cons_append]
    rw [show ('\\' == '\\' && !false) = true from rfl, escapeQuotes, if_neg (by simp), heven,
      escapeQuotes_of_plain hbody.digits]
    rfl

/-- Escaping the quotes of a printed string changes nothing. -/
theorem escapeQuotes_escape (s : List Char) :
    escapeQuotes false (s.flatMap escapeChar) = s.flatMap escapeChar := by
  induction s with
  | nil => rfl
  | cons c s ih => rw [List.flatMap_cons, escapeQuotes_escapeChar, ih]

/-- The mark that a line about a default has before its value. -/
def Marked (s rest : List Char) : Prop :=
  ∃ before, s = before ++ 't' :: '"' :: ':' :: rest

/-- A mark in two pieces, of which the first has no bare quote, lies in the second, or starts with
the last character of the first. -/
theorem Marked.of_append {a b rest : List Char} (ha : Guarded a) (h : Marked (a ++ b) rest) :
    (a.getLast? = some 't' ∧ b = '"' :: ':' :: rest) ∨ Marked b rest := by
  obtain ⟨before, h⟩ := h
  have h : a ++ b = (before ++ ['t']) ++ ('"' :: ':' :: rest) := by simpa using h
  rcases List.append_eq_append_iff.1 h with ⟨m, hm, rfl⟩ | ⟨m, rfl, hm⟩
  · rcases m.eq_nil_or_concat' with rfl | ⟨m, c, rfl⟩
    · left
      rw [List.append_nil] at hm
      exact ⟨by simp [← hm], rfl⟩
    · right
      rw [← List.append_assoc] at hm
      obtain ⟨-, hc⟩ := List.append_inj' hm rfl
      obtain rfl := (List.cons.inj hc).1
      exact ⟨m, by simp⟩
  · cases m with
    | nil => exact Or.inl ⟨by simp, by simpa using hm.symm⟩
    | cons c m =>
      obtain ⟨rfl, -⟩ := List.cons.inj hm
      have hchain := (List.isChain_append.1 ha).2.2 't' (by simp) '"' (by simp) rfl
      exact absurd hchain (by decide)

/-- What stands last on a line: a string with its quotes, or a piece without quotes; a comma may
follow. -/
inductive LineEnd : List Char → Prop
  | plain {s : List Char} (h : '"' ∉ s) : LineEnd s
  | string (s comma : List Char) (h : comma = [] ∨ comma = [',']) :
    LineEnd ('"' :: (s.flatMap escapeChar ++ '"' :: comma))

/-- The lines of printed JSON: blanks, perhaps a key, and a last piece. -/
inductive JsonLine : List Char → Prop
  | bare (n : Nat) {last : List Char} (h : LineEnd last) : JsonLine (List.replicate n ' ' ++ last)
  | keyed (n : Nat) (key : List Char) {last : List Char} (h : LineEnd last) :
    JsonLine (List.replicate n ' ' ++
      '"' :: (key.flatMap escapeChar ++ '"' :: ':' :: ' ' :: last))

theorem not_marked_of_lineEnd {last rest : List Char} (h : LineEnd last) : ¬ Marked last rest := by
  intro hmark
  cases h with
  | plain h =>
    obtain ⟨before, rfl⟩ := hmark
    simp at h
  | string s comma hcomma =>
    have hopen : Guarded ['"'] := List.isChain_singleton _
    rcases (show Marked (['"'] ++ _) rest from hmark).of_append hopen with ⟨hlast, -⟩ | hmark
    · exact absurd hlast (by decide)
    rcases hmark.of_append (guarded_escape s).1 with ⟨-, heq⟩ | ⟨before, heq⟩
    · obtain rfl := (List.cons.inj heq).2
      rcases hcomma with h | h <;> simp at h
    · have hlength := congrArg List.length heq
      rcases hcomma with rfl | rfl <;> simp at hlength <;> omega

theorem Marked.of_blanks {n : Nat} {s rest : List Char}
    (h : Marked (List.replicate n ' ' ++ s) rest) : Marked s rest := by
  have hblanks : Guarded (List.replicate n ' ') :=
    guarded_of_not_mem fun hmem => absurd (List.eq_of_mem_replicate hmem) (by decide)
  rcases h.of_append hblanks with ⟨hlast, -⟩ | h
  · have := List.eq_of_mem_replicate (List.mem_of_getLast? hlast)
    exact absurd this (by decide)
  · exact h

/-- The only mark on a line of printed JSON stands at the end of a key. -/
theorem JsonLine.of_marked {line rest : List Char} (h : JsonLine line) (hmark : Marked line rest) :
    ∃ last, LineEnd last ∧ rest = ' ' :: last := by
  cases h with
  | bare n h => exact absurd hmark.of_blanks (not_marked_of_lineEnd h)
  | keyed n key h =>
    have hopen : Guarded ['"'] := List.isChain_singleton _
    have hcolon : Guarded ['"', ':', ' '] := List.isChain_cons_cons.2
      ⟨by decide, guarded_of_not_mem (by decide)⟩
    rcases (show Marked (['"'] ++ _) rest from hmark.of_blanks).of_append hopen with
      ⟨hlast, -⟩ | hmark
    · exact absurd hlast (by decide)
    rcases hmark.of_append (guarded_escape key).1 with ⟨-, heq⟩ | hmark
    · exact ⟨_, h, by simpa using heq.symm⟩
    rcases (show Marked (['"', ':', ' '] ++ _) rest from hmark).of_append hcolon with
      ⟨hlast, -⟩ | hmark
    · exact absurd hlast (by decide)
    · exact absurd hmark (not_marked_of_lineEnd h)

/-- What the repair would escape on a line of printed JSON, or on the first part of one, is escaped
already. -/
theorem escapeQuotes_of_defaultLine? {line whole : List Char} (h : JsonLine whole)
    (hline : line <+: whole) {parts : DefaultLine} (hparts : defaultLine? line = some parts) :
    escapeQuotes false parts.inner = parts.inner := by
  obtain ⟨start, gap, blanks, hcut⟩ := defaultLine?_eq_some_iff.1 hparts
  obtain ⟨more, rfl⟩ := hline
  have hmark : Marked (line ++ more)
      (gap ++ '"' :: (parts.inner ++ '"' :: (parts.after ++ blanks)) ++ more) := by
    have hname : defaultName = "\"defaul".toList ++ ['t', '"', ':'] := by decide
    refine ⟨start ++ "\"defaul".toList, ?_⟩
    rw [Chars.eq_of_splitFirst hcut.first, hname]
    simp only [List.append_assoc, List.cons_append, List.nil_append]
  obtain ⟨last, hlast, heq⟩ := h.of_marked hmark
  cases hlast with
  | plain hplain =>
    have hmem : '"' ∈ ' ' :: last := heq ▸ by simp
    exact absurd hmem (by simpa using hplain)
  | string s comma hcomma =>
    have hinner : parts.inner ++ '"' :: (parts.after ++ blanks ++ more) =
        s.flatMap escapeChar ++ '"' :: comma := by
      rcases gap with _ | ⟨d, _ | ⟨e, gap⟩⟩
      · simp at heq
      · simpa using (List.cons.inj heq).2
      · have he : e = '"' := by simp at heq; exact heq.2.1
        exact absurd (hcut.gap e (by simp)) (by rw [he]; decide)
    refine escapeQuotes_of_prefix (escapeQuotes_escape s) ?_
    rcases List.append_eq_append_iff.1 hinner with ⟨m, hm, -⟩ | ⟨m, hm, hrest⟩
    · exact ⟨m, hm.symm⟩
    · cases m with
      | nil => exact ⟨[], by rw [hm, List.append_nil, List.append_nil]⟩
      | cons d m =>
        have hmem : '"' ∈ comma := (List.cons.inj hrest).2 ▸ by simp
        rcases hcomma with rfl | rfl <;> simp at hmem

/-- Nothing is repaired on a line of printed JSON, even if it is cut off. -/
theorem repairLine?_of_jsonLine {line whole : List Char} (h : JsonLine whole)
    (hline : line <+: whole) : repairLine? line = none :=
  repairLine?_eq_none_iff.2 fun _ hparts => escapeQuotes_of_defaultLine? h hline hparts

/-- A text made of lines of printed JSON. -/
inductive JsonText : List Char → Prop
  | nil : JsonText []
  | line {line rest : List Char} (h : JsonLine line) (hbreak : ∀ c ∈ line, c ≠ '\n' ∧ c ≠ '\r')
    (hrest : JsonText rest) : JsonText (line ++ '\n' :: rest)

theorem JsonText.lines {s : List Char} (h : JsonText s) : ∀ line ∈ Chars.lines s, JsonLine line := by
  induction h with
  | nil => exact List.forall_mem_nil _
  | line h hbreak _ ih =>
    rw [Chars.lines_append_newline hbreak]
    exact List.forall_mem_cons.2 ⟨h, ih⟩

theorem prefix_of_mem_lines {line s whole : List Char} (hs : s <+: whole) (hwhole : '\n' ∉ whole)
    (h : line ∈ Chars.lines s) : line <+: whole := by
  obtain ⟨piece, hpiece, hline⟩ := Chars.exists_piece_of_mem_lines h
  rw [Chars.pieces_of_not_mem fun hmem => hwhole (hs.subset hmem)] at hpiece
  obtain rfl := List.mem_singleton.1 hpiece
  exact hline.isPrefix.trans hs

/-- The lines of the first part of such a text are lines of printed JSON, of which the last may be
cut off. -/
theorem JsonText.exists_of_prefix {p s : List Char} (h : JsonText s) (hp : p <+: s) :
    ∀ line ∈ Chars.lines p, ∃ whole, JsonLine whole ∧ line <+: whole := by
  induction h generalizing p with
  | nil =>
    obtain rfl := List.prefix_nil.1 hp
    exact List.forall_mem_nil _
  | @line whole rest h hbreak _ ih =>
    have hfeed : '\n' ∉ whole := fun hmem => (hbreak _ hmem).1 rfl
    obtain ⟨more, hmore⟩ := hp
    rcases List.append_eq_append_iff.1 hmore with ⟨m, rfl, -⟩ | ⟨m, rfl, hm⟩
    · exact fun line hline => ⟨_, h, prefix_of_mem_lines (List.prefix_append p m) hfeed hline⟩
    · cases m with
      | nil =>
        rw [List.append_nil]
        exact fun line hline => ⟨_, h, prefix_of_mem_lines List.prefix_rfl hfeed hline⟩
      | cons c m =>
        obtain ⟨rfl, rfl⟩ := List.cons.inj hm
        rw [Chars.lines_append_newline hbreak]
        exact List.forall_mem_cons.2 ⟨⟨_, h, List.prefix_rfl⟩, ih (List.prefix_append m more)⟩

/-- The lines of such a text, each with its end, are the whole text. -/
theorem JsonText.flatMap_lines {s : List Char} (h : JsonText s) :
    (Chars.lines s).flatMap (· ++ ['\n']) = s := by
  induction h with
  | nil => rfl
  | line h hbreak _ ih =>
    rw [Chars.lines_append_newline hbreak, List.flatMap_cons, ih, List.append_assoc]
    rfl

/-- A line up to its last piece. -/
structure Opening (start : List Char) : Prop where
  line : ∀ {last : List Char}, LineEnd last → JsonLine (start ++ last)
  unbroken : ∀ c ∈ start, c ≠ '\n' ∧ c ≠ '\r'

/-- What stands after a value: perhaps a comma, and then more lines. -/
inductive Follows : List Char → Prop
  | of (comma : List Char) {rest : List Char} (hcomma : comma = [] ∨ comma = [','])
    (hrest : JsonText rest) : Follows (comma ++ '\n' :: rest)

theorem unbroken_replicate (n : Nat) : ∀ c ∈ List.replicate n ' ', c ≠ '\n' ∧ c ≠ '\r' := by
  intro c hc
  obtain rfl := List.eq_of_mem_replicate hc
  decide

theorem unbroken_escape (s : List Char) :
    ∀ c ∈ s.flatMap escapeChar, c ≠ '\n' ∧ c ≠ '\r' := by
  intro c hc
  obtain ⟨d, -, hd⟩ := List.mem_flatMap.1 hc
  rcases escapeChar_cases d with ⟨heq, -, -, hcontrol⟩ | ⟨letter, digits, heq, hbody, -⟩
  · rw [heq] at hd
    obtain rfl := List.mem_singleton.1 hd
    constructor <;> rintro rfl <;> exact hcontrol (by decide)
  · rw [heq] at hd
    rcases List.mem_cons.1 hd with rfl | hd
    · decide
    · exact hbody.lines c hd

theorem opening_blanks (n : Nat) : Opening (List.replicate n ' ') :=
  ⟨.bare n, unbroken_replicate n⟩

theorem opening_key (n : Nat) (key : List Char) :
    Opening (List.replicate n ' ' ++ '"' :: (key.flatMap escapeChar ++ ['"', ':', ' '])) where
  line := fun {last} h => by simpa using JsonLine.keyed n key h
  unbroken := by
    intro c hc
    rcases List.mem_append.1 hc with hc | hc
    · exact unbroken_replicate n c hc
    rcases List.mem_cons.1 hc with rfl | hc
    · decide
    rcases List.mem_append.1 hc with hc | hc
    · exact unbroken_escape key c hc
    · simp only [List.mem_cons, List.not_mem_nil, or_false] at hc
      rcases hc with rfl | rfl | rfl <;> decide

/-- A line that ends in a value that stands on it alone. -/
theorem jsonText_last {start rest : List Char} (last : List Char) (hstart : Opening start)
    (hbreak : ∀ c ∈ last, c ≠ '\n' ∧ c ≠ '\r')
    (hlast : ∀ comma, comma = [] ∨ comma = [','] → LineEnd (last ++ comma))
    (hrest : Follows rest) : JsonText (start ++ (last ++ rest)) := by
  obtain ⟨comma, hcomma, hrest⟩ := hrest
  have hline : ∀ c ∈ start ++ (last ++ comma), c ≠ '\n' ∧ c ≠ '\r' := by
    intro c hc
    rcases List.mem_append.1 hc with hc | hc
    · exact hstart.unbroken c hc
    rcases List.mem_append.1 hc with hc | hc
    · exact hbreak c hc
    · rcases hcomma with rfl | rfl
      · cases hc
      · obtain rfl := List.mem_singleton.1 hc
        decide
  simpa using JsonText.line (hstart.line (hlast comma hcomma)) hline hrest

theorem jsonText_plain {start rest : List Char} (last : List Char) (hstart : Opening start)
    (hlast : ∀ c ∈ last, c ≠ '"' ∧ c ≠ '\n' ∧ c ≠ '\r') (hrest : Follows rest) :
    JsonText (start ++ (last ++ rest)) := by
  refine jsonText_last last hstart (fun c hc => (hlast c hc).2) (fun comma hcomma => .plain ?_) hrest
  intro hquote
  rcases List.mem_append.1 hquote with hquote | hquote
  · exact (hlast _ hquote).1 rfl
  · rcases hcomma with rfl | rfl <;> simp at hquote

theorem unquoted_render (n : Number) :
    ∀ c ∈ n.render.toList, c ≠ '"' ∧ c ≠ '\n' ∧ c ≠ '\r' := by
  intro c hc
  have hall := chars_render n (p := fun c => c != '"' && (c != '\n' && c != '\r'))
    (fun c hc => by
      simp only [Bool.and_eq_true, bne_iff_ne]
      refine ⟨?_, ?_, ?_⟩ <;> rintro rfl <;> simp at hc) (by decide)
  simpa only [Bool.and_eq_true, bne_iff_ne] using hall c hc

theorem follows_newline {level : Nat} {rest : List Char}
    (hrest : JsonText (List.replicate (2 * level) ' ' ++ rest)) :
    Follows ((Value.newline level).toList ++ rest) := by
  rw [Value.newline, String.toList_ofList, List.cons_append]
  exact .of [] (Or.inl rfl) hrest

mutual

/-- A value that is printed after the start of a line makes lines of printed JSON. -/
theorem jsonText_prettyAt : ∀ (v : Value) (level : Nat) {start rest : List Char},
    Opening start → Follows rest → JsonText (start ++ ((v.prettyAt level).toList ++ rest))
  | .null, level, start, rest, hstart, hrest => by
    rw [Value.toList_null]
    exact jsonText_plain _ hstart (by simp) hrest
  | .bool true, level, start, rest, hstart, hrest => by
    rw [Value.toList_true]
    exact jsonText_plain _ hstart (by simp) hrest
  | .bool false, level, start, rest, hstart, hrest => by
    rw [Value.toList_false]
    exact jsonText_plain _ hstart (by simp) hrest
  | .number n, level, start, rest, hstart, hrest => by
    rw [Value.toList_number]
    exact jsonText_plain _ hstart (unquoted_render n) hrest
  | .string s, level, start, rest, hstart, hrest => by
    rw [Value.toList_string]
    refine jsonText_last _ hstart ?_ (fun comma hcomma => ?_) hrest
    · intro c hc
      rcases List.mem_cons.1 hc with rfl | hc
      · decide
      rcases List.mem_append.1 hc with hc | hc
      · exact unbroken_escape _ c hc
      · obtain rfl := List.mem_singleton.1 hc
        decide
    · simpa using LineEnd.string s.toList comma hcomma
  | .array [], level, start, rest, hstart, hrest => by
    rw [Value.toList_array_nil]
    exact jsonText_plain _ hstart (by simp) hrest
  | .array (item :: others), level, start, rest, hstart, hrest => by
    have hclose := jsonText_plain [']'] (opening_blanks (2 * level)) (by simp) hrest
    have hmore := follows_prettyItems others (level + 1) (follows_newline hclose)
    have hitem := jsonText_prettyAt item (level + 1) (opening_blanks (2 * (level + 1))) hmore
    rw [Value.toList_array_cons]
    simpa using jsonText_plain ['['] hstart (by simp) (follows_newline hitem)
  | .object [], level, start, rest, hstart, hrest => by
    rw [Value.toList_object_nil]
    exact jsonText_plain _ hstart (by simp) hrest
  | .object ((key, v) :: others), level, start, rest, hstart, hrest => by
    have hclose := jsonText_plain ['\x7d'] (opening_blanks (2 * level)) (by simp) hrest
    have hmore := follows_prettyFields others (level + 1) (follows_newline hclose)
    have hfield := jsonText_prettyAt v (level + 1) (opening_key (2 * (level + 1)) key.toList)
      hmore
    rw [Value.toList_object_cons]
    rw [List.append_assoc] at hfield
    simpa [Value.fieldChars] using
      jsonText_plain ['\x7b'] hstart (by simp) (follows_newline hfield)

theorem follows_prettyItems : ∀ (items : List Value) (level : Nat) {rest : List Char},
    Follows rest → Follows ((Value.prettyItems level items).toList ++ rest)
  | [], level, rest, hrest => by
    rw [Value.prettyItems]
    exact hrest
  | item :: others, level, rest, hrest => by
    have hmore := follows_prettyItems others level hrest
    have hitem := jsonText_prettyAt item level (opening_blanks (2 * level)) hmore
    rw [Value.toList_items_cons]
    simpa [Value.newline] using Follows.of [','] (Or.inr rfl) hitem

theorem follows_prettyFields : ∀ (fields : List (String × Value)) (level : Nat)
    {rest : List Char}, Follows rest → Follows ((Value.prettyFields level fields).toList ++ rest)
  | [], level, rest, hrest => by
    rw [Value.prettyFields]
    exact hrest
  | (key, v) :: others, level, rest, hrest => by
    have hmore := follows_prettyFields others level hrest
    have hfield := jsonText_prettyAt v level (opening_key (2 * level) key.toList) hmore
    rw [Value.toList_fields_cons]
    simpa [Value.newline, Value.fieldChars] using Follows.of [','] (Or.inr rfl) hfield

end

theorem jsonText_pretty (v : Value) :
    JsonText ('\n' :: (v.pretty.toList ++ ['\n'])) := by
  have hvalue := jsonText_prettyAt v 0 (opening_blanks 0) (.of [] (Or.inl rfl) .nil)
  exact JsonText.line (.bare 0 (.plain List.not_mem_nil)) (List.forall_mem_nil _) hvalue

/-- Joining lines by line feeds leaves out the last line feed. -/
theorem intercalate_append_newline {lines : List (List Char)} (h : lines ≠ []) :
    ['\n'].intercalate lines ++ ['\n'] = lines.flatMap (· ++ ['\n']) := by
  induction lines with
  | nil => exact absurd rfl h
  | cons line rest ih =>
    cases rest with
    | nil => simp
    | cons next rest =>
      rw [List.intercalate_cons_cons, List.flatMap_cons, ← ih (by simp)]
      simp

/-- The lines of a printed value on lines of its own are joined to the value without a last line feed. -/
theorem intercalate_lines_pretty (v : Value) :
    ['\n'].intercalate (Chars.lines ('\n' :: (v.pretty.toList ++ ['\n']))) =
      '\n' :: v.pretty.toList := by
  have hwhole := (jsonText_pretty v).flatMap_lines
  rw [← intercalate_append_newline (by simp [Chars.lines]), ← List.cons_append] at hwhole
  exact List.append_cancel_right hwhole

/-- A schema segment that is printed JSON on lines of its own needs no repair. -/
theorem repairQuotes_of_segment {liquid : String} {v : Value} (h : v.Exact)
    (hheight : v.height < depthLimit)
    (hsegment : Liquid.segment? liquid = some ("\n" ++ v.pretty ++ "\n")) :
    repairQuotes liquid = ⟨liquid, 0, true⟩ := by
  have hchars : ("\n" ++ v.pretty ++ "\n").toList = '\n' :: (v.pretty.toList ++ ['\n']) := by simp
  have htext := jsonText_pretty v
  have hnone : ∀ line ∈ Chars.lines ("\n" ++ v.pretty ++ "\n").toList, repairLine? line = none := by
    rw [hchars]
    exact fun line hline => repairLine?_of_jsonLine (htext.lines line hline) List.prefix_rfl
  have hcount : (Chars.lines ("\n" ++ v.pretty ++ "\n").toList).filter
      (fun line => (repairLine? line).isSome) = [] :=
    List.filter_eq_nil_iff.2 fun line hline => by simp [hnone line hline]
  have hlines : (Chars.lines ("\n" ++ v.pretty ++ "\n").toList).map
      (fun line => String.ofList ((repairLine? line).getD line)) =
        (Chars.lines ("\n" ++ v.pretty ++ "\n").toList).map String.ofList :=
    List.map_congr_left fun line hline => by rw [hnone line hline, Option.getD_none]
  have hjoin : Text.join "\n" ((Chars.lines ("\n" ++ v.pretty ++ "\n").toList).map String.ofList) =
      "\n" ++ v.pretty ++ "" := by
    apply String.toList_inj.1
    simpa [Text.join, String.toList_intercalate] using intercalate_lines_pretty v
  simp only [repairQuotes, hsegment, hcount, hlines, hjoin,
    Value.read_pretty h hheight (Or.inr rfl) (Or.inl rfl)]
  rfl

end ThemeSection.Artifact
