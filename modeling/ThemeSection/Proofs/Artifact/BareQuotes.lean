import ThemeSection.Proofs.Artifact.RepairTwice
import ThemeSection.Proofs.Json.Tidy

/-!
The damage that the repair is meant for. In printed JSON, where every line holds at most a key and the
start of a value, the strings of defaults have lost the backslashes before their quotes. Such a quote
always has an even number of backslashes before it, so the repair puts back the backslashes that were
lost and no others.
-/

namespace ThemeSection

namespace Json.Value

/-- Whether a value is a string with a quote in it. -/
def holdsQuote : Value → Bool
  | string s => s.toList.contains '"'
  | _ => false

mutual

/-- The number of fields called `default` in a value, at any depth, that hold a string with a quote in
it. -/
def quotedDefaults : Value → Nat
  | array items => quotedInItems items
  | object fields => quotedInFields fields
  | _ => 0

def quotedInItems : List Value → Nat
  | [] => 0
  | item :: rest => item.quotedDefaults + quotedInItems rest

def quotedInFields : List (String × Value) → Nat
  | [] => 0
  | (key, value) :: rest =>
    (if key = "default" ∧ value.holdsQuote then 1 else 0) + value.quotedDefaults +
      quotedInFields rest

end

end Json.Value

open Json

namespace Artifact

/-- Escaped quotes in a text become bare ones. -/
def bareQuotes : List Char → List Char :=
  Chars.replaceAll ['\\', '"'] ['"']

/-- A printed character, if quotes are printed as they are. -/
def bareChar (c : Char) : List Char :=
  if c = '"' then ['"'] else escapeChar c

theorem bareChar_of_ne {c : Char} (h : c ≠ '"') : bareChar c = escapeChar c :=
  if_neg h

theorem bareQuotes_quote (rest : List Char) :
    bareQuotes ('\\' :: '"' :: rest) = '"' :: bareQuotes rest := rfl

theorem bareQuotes_cons {c : Char} {rest : List Char} (h : c = '\\' → rest.head? ≠ some '"') :
    bareQuotes (c :: rest) = c :: bareQuotes rest := by
  have hprefix : ['\\', '"'].isPrefixOf (c :: rest) = false := by
    refine Bool.eq_false_iff.2 fun hprefix => ?_
    obtain ⟨more, hmore⟩ := List.isPrefixOf_iff_prefix.1 hprefix
    obtain ⟨rfl, rfl⟩ := List.cons.inj hmore
    exact h rfl rfl
  rw [bareQuotes, Chars.replaceAll, Chars.replaceAll.go, hprefix]
  rfl

theorem bareQuotes_plain {s rest : List Char} (h : ∀ c ∈ s, c ≠ '\\') :
    bareQuotes (s ++ rest) = s ++ bareQuotes rest := by
  induction s with
  | nil => rfl
  | cons c s ih =>
    obtain ⟨hc, hs⟩ := List.forall_mem_cons.1 h
    rw [List.cons_append, bareQuotes_cons fun heq => absurd heq hc, ih hs, List.cons_append]

/-- A quote is the only character whose escape names a quote. -/
theorem escapeChar_cases_of_ne {c : Char} (h : c ≠ '"') :
    (escapeChar c = [c] ∧ c ≠ '\\') ∨ ∃ letter digits, escapeChar c = '\\' :: letter :: digits ∧
      letter ≠ '"' ∧ ∀ d ∈ digits, d ≠ '"' ∧ d ≠ '\\' := by
  rcases escapeChar_cases c with ⟨heq, -, hslash, -⟩ | ⟨letter, digits, heq, hbody, hescape⟩
  · exact Or.inl ⟨heq, hslash⟩
  · refine Or.inr ⟨letter, digits, heq, ?_, hbody.digits⟩
    rintro rfl
    have hread : escape ('"' :: digits ++ []) = .ok ('"', 1) := rfl
    exact h (Prod.mk.inj (Except.ok.inj ((hescape []).symm.trans hread))).1

/-- A printed string loses its backslashes before quotes, and only those. -/
theorem bareQuotes_escape (s : List Char) :
    bareQuotes (s.flatMap escapeChar) = s.flatMap bareChar := by
  induction s with
  | nil => rfl
  | cons c s ih =>
    rw [List.flatMap_cons, List.flatMap_cons]
    by_cases hc : c = '"'
    · subst hc
      exact (bareQuotes_quote _).trans (congrArg ('"' :: ·) ih)
    rw [bareChar_of_ne hc]
    rcases escapeChar_cases_of_ne hc with ⟨heq, hslash⟩ | ⟨letter, digits, heq, hletter, hdigits⟩
    · rw [heq, bareQuotes_plain (by simpa using hslash), ih]
    · have hlast : letter = '\\' → (digits ++ s.flatMap escapeChar).head? ≠ some '"' := by
        intro _ hhead
        cases digits with
        | nil => exact (guarded_escape s).2 hhead
        | cons d digits => exact (hdigits d List.mem_cons_self).1 (by simpa using hhead)
      rw [heq, List.cons_append, List.cons_append, bareQuotes_cons (fun _ => by simpa using hletter),
        bareQuotes_cons hlast, bareQuotes_plain fun d hd => (hdigits d hd).2, ih]
      rfl

/-- Escaping brings the backslashes back. -/
theorem escapeQuotes_bareChar (s : List Char) :
    escapeQuotes false (s.flatMap bareChar) = s.flatMap escapeChar := by
  induction s with
  | nil => rfl
  | cons c s ih =>
    rw [List.flatMap_cons, List.flatMap_cons]
    by_cases hc : c = '"'
    · subst hc
      exact congrArg ('\\' :: '"' :: ·) ih
    · rw [bareChar_of_ne hc, escapeQuotes_escapeChar, ih]

/-- There is a backslash to lose for each quote. -/
theorem length_bareChar (s : List Char) :
    (s.flatMap escapeChar).length = (s.flatMap bareChar).length + s.count '"' := by
  induction s with
  | nil => rfl
  | cons c s ih =>
    rw [List.flatMap_cons, List.flatMap_cons, List.length_append, List.length_append, ih]
    by_cases hc : c = '"'
    · subst hc
      rw [List.count_cons_self]
      simp only [bareChar, escapeChar]
      simp
      omega
    · rw [bareChar_of_ne hc, List.count_cons_of_ne hc]
      omega

theorem escape_eq_bareChar_iff (s : List Char) :
    s.flatMap escapeChar = s.flatMap bareChar ↔ '"' ∉ s := by
  constructor
  · intro h
    have hlength := length_bareChar s
    rw [h, Nat.left_eq_add] at hlength
    exact List.count_eq_zero.1 hlength
  · intro h
    refine List.flatMap_congr fun c hc => (bareChar_of_ne ?_).symm
    rintro rfl
    exact h hc

theorem quote_mem_escape {s : List Char} : '"' ∈ s.flatMap escapeChar ↔ '"' ∈ s := by
  constructor
  · intro h
    obtain ⟨c, hc, hmem⟩ := List.mem_flatMap.1 h
    by_cases hquote : c = '"'
    · exact hquote ▸ hc
    rcases escapeChar_cases_of_ne hquote with ⟨heq, -⟩ | ⟨letter, digits, heq, hletter, hdigits⟩
    · rw [heq, List.mem_singleton] at hmem
      exact absurd hmem.symm hquote
    · rw [heq, List.mem_cons, List.mem_cons] at hmem
      rcases hmem with hmem | hmem | hmem
      · exact absurd hmem (by decide)
      · exact absurd hmem.symm hletter
      · exact absurd rfl (hdigits _ hmem).1
  · exact fun h => List.mem_flatMap.2 ⟨'"', h, by decide +kernel⟩

theorem bareChar_sublist (s : List Char) :
    (s.flatMap bareChar).Sublist (s.flatMap escapeChar) := by
  induction s with
  | nil => exact .refl _
  | cons c s ih =>
    rw [List.flatMap_cons, List.flatMap_cons]
    by_cases hc : c = '"'
    · rw [hc]
      exact (List.sublist_append_right ['\\'] ['"']).append ih
    · rw [bareChar_of_ne hc]
      exact (List.Sublist.refl _).append ih

/-- What stands on a line of printed JSON between its blanks and the string of a default. -/
def defaultKey : List Char :=
  "\"default\": ".toList

/-- Cuts a line whose key is `default` around the string that comes after it. -/
def keyedDefault? (line : List Char) : Option DefaultLine := do
  let rest ← Chars.strip? (defaultKey ++ ['"']) (line.dropWhile (· == ' '))
  let (body, comma) := splitComma rest
  let inner ← Chars.stripEnd? ['"'] body
  return ⟨line.takeWhile (· == ' ') ++ defaultKey, inner, comma⟩

/-- A line on which escaped quotes in the string of a default become bare ones. -/
def bareLine (line : List Char) : List Char :=
  match keyedDefault? line with
  | some parts => parts.before ++ '"' :: (bareQuotes parts.inner ++ '"' :: parts.after)
  | none => line

/-- Whether a line gives the key `default` a string with a quote in it. -/
def holdsQuote (line : List Char) : Bool :=
  (keyedDefault? line).any (·.inner.contains '"')

section

variable {n : Nat} {key s comma last line : List Char}

theorem dropWhile_blanks (hlast : last.head? ≠ some ' ') :
    (List.replicate n ' ' ++ last).dropWhile (· == ' ') = last ∧
      (List.replicate n ' ' ++ last).takeWhile (· == ' ') = List.replicate n ' ' := by
  have hblank : ∀ c ∈ List.replicate n ' ', (c == ' ') = true := fun c hc => by
    simp [List.eq_of_mem_replicate hc]
  rw [List.dropWhile_append_of_pos hblank, List.takeWhile_append_of_pos hblank]
  cases last with
  | nil => simp
  | cons c last =>
    have hc : (c == ' ') = false := by simpa using hlast
    simp [hc]

/-- Two texts in quotes that start alike are the same text. -/
theorem escape_inj {a b x y : List Char}
    (h : a.flatMap escapeChar ++ '"' :: x = b.flatMap escapeChar ++ '"' :: y) : a = b ∧ x = y := by
  have hread := (stringBody_escape a x).symm.trans ((congrArg stringBody h).trans (stringBody_escape b y))
  exact Prod.mk.inj (Except.ok.inj hread)

theorem defaultKey_eq :
    defaultKey = '"' :: ("default".toList.flatMap escapeChar ++ ['"', ':', ' ']) := by
  decide +kernel

/-- What a text in quotes has to be for the key `default` to stand at its start. -/
theorem strip?_quoted {text rest more : List Char}
    (h : Chars.strip? (defaultKey ++ ['"']) ('"' :: (text.flatMap escapeChar ++ '"' :: more)) =
      some rest) : text = "default".toList ∧ more = ':' :: ' ' :: '"' :: rest := by
  have heq := Chars.strip?_eq_some.1 h
  rw [defaultKey_eq, List.cons_append, List.cons_append, List.append_assoc, List.append_assoc] at heq
  exact escape_inj (List.cons.inj heq).2

theorem keyedDefault?_of_not_mem (h : '"' ∉ line) : keyedDefault? line = none := by
  have hnone : Chars.strip? (defaultKey ++ ['"']) (line.dropWhile (· == ' ')) = none := by
    refine Option.eq_none_iff_forall_ne_some.2 fun rest hrest => h ?_
    refine (List.dropWhile_suffix (· == ' ')).subset ?_
    rw [Chars.strip?_eq_some.1 hrest]
    simp
  rw [keyedDefault?, hnone]
  rfl

/-- A string that stands on a line without a key is no default, whatever it says. -/
theorem keyedDefault?_bare (h : LineEnd last) : keyedDefault? (List.replicate n ' ' ++ last) = none := by
  cases h with
  | plain h =>
    refine keyedDefault?_of_not_mem fun hmem => ?_
    rcases List.mem_append.1 hmem with hmem | hmem
    · exact absurd (List.eq_of_mem_replicate hmem) (by decide)
    · exact h hmem
  | string s comma hcomma =>
    have hhead : ('"' :: (s.flatMap escapeChar ++ '"' :: comma)).head? ≠ some ' ' := by simp
    obtain ⟨hdrop, -⟩ := dropWhile_blanks (n := n) hhead
    have hnone : Chars.strip? (defaultKey ++ ['"'])
        ('"' :: (s.flatMap escapeChar ++ '"' :: comma)) = none := by
      refine Option.eq_none_iff_forall_ne_some.2 fun rest hrest => ?_
      have hmore := (strip?_quoted hrest).2
      rcases hcomma with rfl | rfl <;> simp at hmore
    rw [keyedDefault?, hdrop, hnone]
    rfl

/-- A line with a key up to its last piece. -/
def keyedStart (n : Nat) (key : List Char) : List Char :=
  List.replicate n ' ' ++ '"' :: (key.flatMap escapeChar ++ ['"', ':', ' '])

theorem keyedStart_append (n : Nat) (key last : List Char) : keyedStart n key ++ last =
    List.replicate n ' ' ++ '"' :: (key.flatMap escapeChar ++ '"' :: ':' :: ' ' :: last) := by
  simp [keyedStart]

theorem exists_of_keyedDefault? {parts : DefaultLine}
    (h : keyedDefault? (keyedStart n key ++ last) = some parts) :
    key = "default".toList ∧ ∃ rest, last = '"' :: rest := by
  obtain ⟨rest, hrest, -⟩ := Option.bind_eq_some_iff.1 h
  rw [keyedStart_append, (dropWhile_blanks (by simp)).1] at hrest
  obtain ⟨hkey, hmore⟩ := strip?_quoted hrest
  exact ⟨hkey, rest, by simpa using hmore⟩

theorem splitComma_quoted (s : List Char) (hcomma : comma = [] ∨ comma = [',']) :
    splitComma (s ++ '"' :: comma) = (s ++ ['"'], comma) := by
  have hcut := splitComma_trimEnd s hcomma (List.forall_mem_nil _)
  rw [List.append_nil] at hcut
  have htrim : Chars.trimEnd (s ++ '"' :: comma) = s ++ '"' :: comma := by
    rcases hcomma with rfl | rfl
    · rw [Chars.trimEnd_concat]
      rfl
    · rw [List.append_cons, Chars.trimEnd_concat]
      rfl
  rwa [htrim] at hcut

theorem keyedStart_default (n : Nat) :
    keyedStart n "default".toList = List.replicate n ' ' ++ defaultKey := by
  rw [keyedStart, defaultKey_eq]

theorem keyedDefault?_default (hcomma : comma = [] ∨ comma = [',']) :
    keyedDefault? (keyedStart n "default".toList ++ '"' :: (s ++ '"' :: comma)) =
      some ⟨List.replicate n ' ' ++ defaultKey, s, comma⟩ := by
  have hhead : ((defaultKey ++ ['"']) ++ (s ++ '"' :: comma)).head? ≠ some ' ' := by
    rw [defaultKey_eq]
    simp
  obtain ⟨hdrop, htake⟩ := dropWhile_blanks (n := n) hhead
  rw [keyedStart_default, List.append_assoc, List.append_cons defaultKey, keyedDefault?, hdrop, htake,
    Chars.strip?_eq_some.2 rfl]
  simp [splitComma_quoted s hcomma, Chars.stripEnd?_append]

theorem bareLine_default (hcomma : comma = [] ∨ comma = [',']) :
    bareLine (keyedStart n "default".toList ++ '"' :: (s.flatMap escapeChar ++ '"' :: comma)) =
      List.replicate n ' ' ++ defaultKey ++ '"' :: (s.flatMap bareChar ++ '"' :: comma) := by
  rw [bareLine, keyedDefault?_default hcomma]
  dsimp only
  rw [bareQuotes_escape]

theorem holdsQuote_default (hcomma : comma = [] ∨ comma = [',']) :
    holdsQuote (keyedStart n "default".toList ++ '"' :: (s.flatMap escapeChar ++ '"' :: comma)) =
      s.contains '"' := by
  rw [holdsQuote, keyedDefault?_default hcomma, Option.any_some, Bool.eq_iff_iff,
    List.contains_iff_mem, List.contains_iff_mem, quote_mem_escape]

/-- A line of printed JSON has no string for the key `default`, or it is such a string that stands
last on it. -/
theorem JsonLine.keyedDefault?_cases (h : JsonLine line) : keyedDefault? line = none ∨
    ∃ (n : Nat) (s comma : List Char), (comma = [] ∨ comma = [',']) ∧
      line = keyedStart n "default".toList ++ '"' :: (s.flatMap escapeChar ++ '"' :: comma) := by
  cases h with
  | bare n h => exact Or.inl (keyedDefault?_bare h)
  | keyed n key h =>
    rw [← keyedStart_append]
    refine (Option.eq_none_or_eq_some (keyedDefault? _)).imp id ?_
    rintro ⟨parts, hparts⟩
    obtain ⟨rfl, rest, rfl⟩ := exists_of_keyedDefault? hparts
    cases h with
    | plain h => exact absurd List.mem_cons_self h
    | string s comma hcomma => exact ⟨n, s, comma, hcomma, rfl⟩

/-- The repair cuts a line of a default as the damage does. -/
theorem isCut_default (n : Nat) (inner : List Char) (hcomma : comma = [] ∨ comma = [',']) :
    IsCut (List.replicate n ' ' ++ defaultKey ++ '"' :: (inner ++ '"' :: comma))
      ⟨List.replicate n ' ' ++ defaultKey, inner, comma⟩ (List.replicate n ' ') [' '] [] := by
  have hkey : defaultKey = defaultName ++ [' '] := by decide
  induction n with
  | zero =>
    refine ⟨?_, by simp [hkey], by decide, hcomma, List.forall_mem_nil _⟩
    have hstrip : ∀ rest, Chars.splitFirst defaultName (defaultName ++ rest) = some ([], rest) :=
      fun _ => rfl
    simpa [hkey] using hstrip (' ' :: '"' :: (inner ++ '"' :: comma))
  | succ n ih => exact ih.cons (by decide)

/-- A damaged line of printed JSON is repaired to what it was, and it is repaired if it lost something. -/
theorem JsonLine.repaired_bareLine (h : JsonLine line) :
    repairedLine (bareLine line) = line ∧ (repairLine? (bareLine line)).isSome = holdsQuote line := by
  rcases h.keyedDefault?_cases with hnone | ⟨n, s, comma, hcomma, rfl⟩
  · have hsame : bareLine line = line := by rw [bareLine, hnone]
    rw [hsame, repairedLine, repairLine?_of_jsonLine h List.prefix_rfl, holdsQuote, hnone]
    exact ⟨rfl, rfl⟩
  · have hcut := defaultLine?_eq_some_iff.2 ⟨_, _, _, isCut_default n (s.flatMap bareChar) hcomma⟩
    rw [bareLine_default hcomma, holdsQuote_default hcomma, keyedStart_default]
    by_cases hquote : '"' ∈ s
    · have hfixed : repairLine? _ = some _ := repairLine?_eq_some_iff.2 ⟨_, hcut, by
        rw [escapeQuotes_bareChar]
        exact fun heq => (escape_eq_bareChar_iff s).1 heq hquote, rfl⟩
      rw [repairedLine, hfixed, escapeQuotes_bareChar]
      exact ⟨rfl, by simpa using hquote⟩
    · have hfixed : repairLine? (List.replicate n ' ' ++ defaultKey ++
          '"' :: (s.flatMap bareChar ++ '"' :: comma)) = none := by
        refine repairLine?_eq_none_iff.2 fun parts hparts => ?_
        obtain rfl := Option.some.inj (hcut.symm.trans hparts)
        rw [escapeQuotes_bareChar]
        exact (escape_eq_bareChar_iff s).2 hquote
      rw [repairedLine, hfixed, Option.getD_none, (escape_eq_bareChar_iff s).2 hquote]
      exact ⟨rfl, by simpa using hquote⟩

theorem JsonLine.bareLine_of_not_holdsQuote (h : JsonLine line) (hquote : holdsQuote line = false) :
    bareLine line = line := by
  obtain ⟨hrepaired, hcount⟩ := h.repaired_bareLine
  rw [hquote, Option.isSome_eq_false_iff, Option.isNone_iff_eq_none] at hcount
  rwa [repairedLine, hcount, Option.getD_none] at hrepaired

/-- A damaged line lost some of its characters. -/
theorem JsonLine.bareLine_sublist (h : JsonLine line) : (bareLine line).Sublist line := by
  rcases h.keyedDefault?_cases with hnone | ⟨n, s, comma, hcomma, rfl⟩
  · rw [bareLine, hnone]
  · have hinner := bareChar_sublist s
    rw [bareLine_default hcomma, keyedStart_default]
    exact (List.Sublist.refl _).append ((hinner.append (.refl _)).cons_cons _)

section

variable {needle : List Char} (hquote : '"' ∉ needle)
include hquote

theorem prefix_escapeQuotes {odd : Bool} {s : List Char} (h : needle <+: s) :
    needle <+: escapeQuotes odd s := by
  induction needle generalizing odd s with
  | nil => exact List.nil_prefix
  | cons c needle ih =>
    obtain ⟨hc, hneedle⟩ := List.ne_and_not_mem_of_not_mem_cons hquote
    obtain ⟨rest, rfl⟩ := h
    rw [List.cons_append, escapeQuotes, if_neg (by simp [hc.symm])]
    exact List.cons_prefix_cons.2 ⟨rfl, ih hneedle (List.prefix_append needle rest)⟩

theorem infix_escapeQuotes {odd : Bool} {s : List Char} (h : needle <:+: s) :
    needle <:+: escapeQuotes odd s := by
  induction s generalizing odd with
  | nil => exact h
  | cons c s ih =>
    rcases List.infix_cons_iff.1 h with h | h
    · exact (prefix_escapeQuotes hquote h).isInfix
    · rw [escapeQuotes]
      split
      · exact (ih h).trans (List.suffix_append ['\\', '"'] _).isInfix
      · exact (ih h).trans (List.suffix_cons _ _).isInfix

/-- A damaged line holds no text that it did not hold before, as far as that has no quotes. -/
theorem JsonLine.contains_of_contains_bareLine (h : JsonLine line)
    (hcontains : Chars.contains needle (bareLine line)) : Chars.contains needle line := by
  rcases h.keyedDefault?_cases with hnone | ⟨n, s, comma, hcomma, rfl⟩
  · rwa [bareLine, hnone] at hcontains
  · rw [bareLine_default hcomma] at hcontains
    rw [keyedStart_default]
    rw [Chars.contains_append_cons hquote, Chars.contains_append_cons hquote, Bool.or_eq_true,
      Bool.or_eq_true] at hcontains ⊢
    refine hcontains.imp id (Or.imp (fun hinner => ?_) id)
    rw [← escapeQuotes_bareChar]
    exact Chars.contains_iff.2 (infix_escapeQuotes hquote (Chars.contains_iff.1 hinner))

end

end

/-- A text with bare quotes in the strings of its defaults, line by line. -/
def bareText (text : String) : String :=
  Text.join "\n" ((Chars.pieces text.toList).map fun line => String.ofList (bareLine line))

theorem toList_bareText (text : String) :
    (bareText text).toList = ['\n'].intercalate ((Chars.pieces text.toList).map bareLine) := by
  simp [bareText, Text.join, String.toList_intercalate, Function.comp_def]

/-- The damage stays within the lines. -/
theorem JsonText.lines_bare {s : List Char} (h : JsonText s) :
    Chars.lines (['\n'].intercalate ((Chars.pieces s).map bareLine)) = (Chars.lines s).map bareLine := by
  induction h with
  | nil => rfl
  | @line line rest hline hbreak _ ih =>
    have hpieces : Chars.pieces (line ++ '\n' :: rest) = line :: Chars.pieces rest := by
      rw [Chars.pieces_append_newline, Chars.pieces_of_not_mem fun hmem => (hbreak _ hmem).1 rfl]
      rfl
    have hne : (Chars.pieces rest).map bareLine ≠ [] :=
      List.map_eq_nil_iff.not.2 (Chars.splitWhere_ne_nil _ rest)
    have hbroken : ∀ c ∈ bareLine line, c ≠ '\n' ∧ c ≠ '\r' :=
      fun c hc => hbreak c (hline.bareLine_sublist.subset hc)
    rw [hpieces, List.map_cons, List.intercalate_cons_of_ne_nil hne, Chars.lines_append_newline hbreak,
      List.map_cons, ← ih]
    simpa using Chars.lines_append_newline hbroken _

theorem JsonText.pieces_eq {s : List Char} (h : JsonText s) :
    Chars.pieces s = Chars.lines s ++ [[]] := by
  induction h with
  | nil => rfl
  | line _ hbreak _ ih =>
    rw [Chars.pieces_append_newline, Chars.pieces_of_not_mem fun hmem => (hbreak _ hmem).1 rfl, ih,
      Chars.lines_append_newline hbreak]
    rfl

section

variable {key : Option String} {start last comma rest : List Char} {n : Nat}

/-- The number of lines of a text that give the key `default` a string with a quote in it. -/
def quotedLines (s : List Char) : Nat :=
  (Chars.lines s).countP holdsQuote

/-- The start of a line on which a value is printed, with the key that the value is printed after. -/
inductive Starts : Option String → List Char → Prop
  | bare (n : Nat) : Starts none (List.replicate n ' ')
  | keyed (n : Nat) (key : String) : Starts (some key) (keyedStart n key.toList)

theorem Starts.opening (h : Starts key start) : Opening start := by
  cases h with
  | bare n => exact opening_blanks n
  | keyed n key => exact opening_key n key.toList

/-- What stands after a value that is printed: perhaps a comma, and more lines, some of them quoted. -/
inductive Tail (n : Nat) : List Char → Prop
  | of (comma : List Char) {rest : List Char} (hcomma : comma = [] ∨ comma = [','])
    (hrest : quotedLines rest = n) : Tail n (comma ++ '\n' :: rest)

theorem tail_newline {level : Nat} (h : quotedLines (List.replicate (2 * level) ' ' ++ rest) = n) :
    Tail n ((Value.newline level).toList ++ rest) := by
  rw [Value.newline, String.toList_ofList, List.cons_append]
  exact .of [] (Or.inl rfl) h

theorem quotedLines_line {line : List Char} (h : ∀ c ∈ line, c ≠ '\n' ∧ c ≠ '\r') :
    quotedLines (line ++ '\n' :: rest) = quotedLines rest + if holdsQuote line then 1 else 0 := by
  rw [quotedLines, Chars.lines_append_newline h, List.countP_cons]
  rfl

theorem quotedLines_last (hstart : Starts key start) (hbreak : ∀ c ∈ last, c ≠ '\n' ∧ c ≠ '\r')
    (here : Bool) (hhere : ∀ comma, comma = [] ∨ comma = [','] →
      holdsQuote (start ++ (last ++ comma)) = here) (hrest : Tail n rest) :
    quotedLines (start ++ (last ++ rest)) = n + if here then 1 else 0 := by
  obtain ⟨comma, hcomma, rfl⟩ := hrest
  have hline : ∀ c ∈ start ++ (last ++ comma), c ≠ '\n' ∧ c ≠ '\r' := by
    refine List.forall_mem_append.2 ⟨hstart.opening.unbroken, List.forall_mem_append.2 ⟨hbreak, ?_⟩⟩
    rcases hcomma with rfl | rfl
    · exact List.forall_mem_nil _
    · decide
  rw [← hhere comma hcomma, ← quotedLines_line hline]
  simp only [List.append_assoc]

/-- A bracket is no quote and breaks no line. -/
theorem unquoted_bracket (bracket : Char) (h : bracket ∈ ['[', ']', '\x7b', '\x7d']) :
    ∀ c ∈ [bracket], c ≠ '"' ∧ c ≠ '\n' ∧ c ≠ '\r' := by
  have hall : ∀ c ∈ ['[', ']', '\x7b', '\x7d'], c ≠ '"' ∧ c ≠ '\n' ∧ c ≠ '\r' := by decide
  exact List.forall_mem_singleton.2 (hall bracket h)

theorem quotedLines_plain (hstart : Starts key start)
    (hlast : ∀ c ∈ last, c ≠ '"' ∧ c ≠ '\n' ∧ c ≠ '\r') (hrest : Tail n rest) :
    quotedLines (start ++ (last ++ rest)) = n := by
  refine quotedLines_last hstart (fun c hc => (hlast c hc).2) false (fun comma hcomma => ?_) hrest
  have hplain : '"' ∉ last ++ comma := by
    intro hquote
    rcases List.mem_append.1 hquote with hquote | hquote
    · exact (hlast _ hquote).1 rfl
    · rcases hcomma with rfl | rfl <;> simp at hquote
  cases hstart with
  | bare n => rw [holdsQuote, keyedDefault?_bare (.plain hplain), Option.any_none]
  | keyed n key =>
    cases hparts : keyedDefault? (keyedStart n key.toList ++ (last ++ comma)) with
    | none => rw [holdsQuote, hparts, Option.any_none]
    | some parts =>
      obtain ⟨-, rest, hrest⟩ := exists_of_keyedDefault? hparts
      exact absurd (hrest ▸ List.mem_cons_self) hplain

/-- Whether a value is one of those that lose a backslash where they stand after a key. -/
def quotedHere (key : Option String) (v : Value) : Bool :=
  key = some "default" ∧ v.holdsQuote

theorem quotedLines_string (hstart : Starts key start) (s : String) (hrest : Tail n rest) :
    quotedLines (start ++ ('"' :: (s.toList.flatMap escapeChar ++ ['"']) ++ rest)) =
      n + if quotedHere key (.string s) then 1 else 0 := by
  refine quotedLines_last hstart ?_ _ (fun comma hcomma => ?_) hrest
  · refine List.forall_mem_cons.2 ⟨by decide, List.forall_mem_append.2 ⟨unbroken_escape _, by decide⟩⟩
  have hlast : '"' :: (s.toList.flatMap escapeChar ++ ['"']) ++ comma =
      '"' :: (s.toList.flatMap escapeChar ++ '"' :: comma) := by simp
  rw [hlast]
  cases hstart with
  | bare n => simp [holdsQuote, keyedDefault?_bare (.string s.toList comma hcomma), quotedHere]
  | keyed n key =>
    by_cases hkey : key = "default"
    · subst hkey
      rw [holdsQuote_default hcomma]
      simp [quotedHere, Value.holdsQuote]
    · cases hparts : keyedDefault? (keyedStart n key.toList ++
          '"' :: (s.toList.flatMap escapeChar ++ '"' :: comma)) with
      | none => simp [holdsQuote, hparts, quotedHere, hkey]
      | some parts =>
        exact absurd (String.toList_inj.1 (exists_of_keyedDefault? hparts).1) hkey

end

mutual

/-- A value that is printed after the start of a line makes as many quoted lines as it has quoted
defaults, and one more if it is the string of a default itself. -/
theorem quotedLines_prettyAt : ∀ (v : Value) (level : Nat) {key : Option String}
    {start rest : List Char} {n : Nat}, Starts key start → Tail n rest →
    quotedLines (start ++ ((v.prettyAt level).toList ++ rest)) =
      (if quotedHere key v then 1 else 0) + v.quotedDefaults + n
  | .null, level, key, start, rest, n, hstart, hrest => by
    rw [Value.toList_null, quotedLines_plain hstart (by simp) hrest]
    simp [quotedHere, Value.holdsQuote, Value.quotedDefaults]
  | .bool true, level, key, start, rest, n, hstart, hrest => by
    rw [Value.toList_true, quotedLines_plain hstart (by simp) hrest]
    simp [quotedHere, Value.holdsQuote, Value.quotedDefaults]
  | .bool false, level, key, start, rest, n, hstart, hrest => by
    rw [Value.toList_false, quotedLines_plain hstart (by simp) hrest]
    simp [quotedHere, Value.holdsQuote, Value.quotedDefaults]
  | .number m, level, key, start, rest, n, hstart, hrest => by
    rw [Value.toList_number, quotedLines_plain hstart (unquoted_render m) hrest]
    simp [quotedHere, Value.holdsQuote, Value.quotedDefaults]
  | .string s, level, key, start, rest, n, hstart, hrest => by
    have hnone : (Value.string s).quotedDefaults = 0 := by simp [Value.quotedDefaults]
    rw [Value.toList_string, quotedLines_string hstart s hrest, hnone]
    omega
  | .array [], level, key, start, rest, n, hstart, hrest => by
    rw [Value.toList_array_nil, quotedLines_plain hstart (by simp) hrest]
    simp [quotedHere, Value.holdsQuote, Value.quotedDefaults, Value.quotedInItems]
  | .array (item :: others), level, key, start, rest, n, hstart, hrest => by
    have hclose := quotedLines_plain (.bare (2 * level)) (unquoted_bracket ']' (by simp)) hrest
    have hmore := tail_prettyItems others (level + 1) (tail_newline hclose)
    have hitem := quotedLines_prettyAt item (level + 1) (.bare (2 * (level + 1))) hmore
    have hopen := quotedLines_plain hstart (unquoted_bracket '[' (by simp)) (tail_newline hitem)
    rw [Value.toList_array_cons]
    simp only [List.append_assoc, List.cons_append, List.nil_append] at hopen ⊢
    rw [hopen]
    simp [quotedHere, Value.holdsQuote, Value.quotedDefaults, Value.quotedInItems]
    omega
  | .object [], level, key, start, rest, n, hstart, hrest => by
    rw [Value.toList_object_nil, quotedLines_plain hstart (by simp) hrest]
    simp [quotedHere, Value.holdsQuote, Value.quotedDefaults, Value.quotedInFields]
  | .object ((name, v) :: others), level, key, start, rest, n, hstart, hrest => by
    have hclose := quotedLines_plain (.bare (2 * level)) (unquoted_bracket '\x7d' (by simp)) hrest
    have hmore := tail_prettyFields others (level + 1) (tail_newline hclose)
    have hfield := quotedLines_prettyAt v (level + 1) (.keyed (2 * (level + 1)) name) hmore
    rw [keyedStart, List.append_assoc] at hfield
    have hopen := quotedLines_plain hstart (unquoted_bracket '\x7b' (by simp)) (tail_newline hfield)
    rw [Value.toList_object_cons]
    simp only [Value.fieldChars, List.append_assoc, List.cons_append, List.nil_append] at hopen ⊢
    rw [hopen]
    simp [quotedHere, Value.holdsQuote, Value.quotedDefaults, Value.quotedInFields]
    omega

theorem tail_prettyItems : ∀ (items : List Value) (level : Nat) {rest : List Char} {n : Nat},
    Tail n rest → Tail (Value.quotedInItems items + n) ((Value.prettyItems level items).toList ++ rest)
  | [], level, rest, n, hrest => by
    rw [Value.prettyItems, Value.quotedInItems, Nat.zero_add]
    exact hrest
  | item :: others, level, rest, n, hrest => by
    have hmore := tail_prettyItems others level hrest
    have hitem := quotedLines_prettyAt item level (.bare (2 * level)) hmore
    have hcount : Value.quotedInItems (item :: others) + n =
        (if quotedHere none item then 1 else 0) + item.quotedDefaults +
          (Value.quotedInItems others + n) := by
      simp [quotedHere, Value.quotedInItems]
      omega
    rw [Value.toList_items_cons, hcount]
    simpa [Value.newline] using Tail.of [','] (Or.inr rfl) hitem

theorem tail_prettyFields : ∀ (fields : List (String × Value)) (level : Nat) {rest : List Char}
    {n : Nat}, Tail n rest →
    Tail (Value.quotedInFields fields + n) ((Value.prettyFields level fields).toList ++ rest)
  | [], level, rest, n, hrest => by
    rw [Value.prettyFields, Value.quotedInFields, Nat.zero_add]
    exact hrest
  | (name, v) :: others, level, rest, n, hrest => by
    have hmore := tail_prettyFields others level hrest
    have hfield := quotedLines_prettyAt v level (.keyed (2 * level) name) hmore
    have hcount : Value.quotedInFields ((name, v) :: others) + n =
        (if quotedHere (some name) v then 1 else 0) + v.quotedDefaults +
          (Value.quotedInFields others + n) := by
      simp [quotedHere, Value.quotedInFields]
      omega
    rw [keyedStart] at hfield
    rw [Value.toList_fields_cons, hcount]
    simpa [Value.newline, Value.fieldChars] using Tail.of [','] (Or.inr rfl) hfield

end

/-- The segment of a schema has as many quoted lines as the schema has quoted defaults. -/
theorem quotedLines_pretty (v : Value) :
    quotedLines ('\n' :: (v.pretty.toList ++ ['\n'])) = v.quotedDefaults := by
  have hvalue := quotedLines_prettyAt v 0 (.bare 0) (.of [] (Or.inl rfl) (rfl : quotedLines [] = 0))
  have hfirst : quotedLines ([] ++ '\n' :: (v.pretty.toList ++ ['\n'])) = _ :=
    quotedLines_line (List.forall_mem_nil _)
  have hblank : holdsQuote [] = false := by decide
  rw [List.nil_append, hblank] at hfirst
  rw [hfirst, Value.pretty]
  have hrest : quotedLines [] = 0 := rfl
  simpa [quotedHere, hrest] using hvalue

section

variable {segment : String}

/-- The repair takes back the damage line by line. -/
theorem repairedText_bareText (h : JsonText segment.toList) :
    (repairedText (bareText segment)).toList = ['\n'].intercalate (Chars.lines segment.toList) := by
  rw [toList_repairedText, toList_bareText, h.lines_bare, List.map_map]
  refine congrArg (List.intercalate ['\n']) ?_
  exact Value.map_eq_self_iff.2 fun line hline => (h.lines line hline).repaired_bareLine.1

theorem repairCount_bareText (h : JsonText segment.toList) :
    repairCount (bareText segment) = quotedLines segment.toList := by
  rw [repairCount, toList_bareText, h.lines_bare, List.filter_map, List.length_map, quotedLines,
    List.countP_eq_length_filter]
  refine congrArg List.length (List.filter_congr fun line hline => ?_)
  exact (h.lines line hline).repaired_bareLine.2

/-- Where no default has a quote in it, there is no damage. -/
theorem bareText_of_quotedLines (h : JsonText segment.toList) (hquoted : quotedLines segment.toList = 0) :
    bareText segment = segment := by
  apply String.toList_inj.1
  have hsame : (Chars.pieces segment.toList).map bareLine = Chars.pieces segment.toList := by
    rw [h.pieces_eq, Value.map_eq_self_iff]
    refine List.forall_mem_append.2 ⟨fun line hline => ?_, List.forall_mem_singleton.2 rfl⟩
    refine (h.lines line hline).bareLine_of_not_holdsQuote ?_
    simpa using List.countP_eq_zero.1 hquoted line hline
  rw [toList_bareText, hsame, Chars.intercalate_pieces]

/-- The damage brings no closing delimiter. -/
theorem not_closesSchema_bareText (h : JsonText segment.toList)
    (hclose : Liquid.closesSchema segment = false) : Liquid.closesSchema (bareText segment) = false := by
  rw [Liquid.closesSchema, Text.contains, toList_bareText,
    Chars.contains_intercalate (by decide) (by decide), List.any_eq_false]
  refine List.forall_mem_map.2 fun piece hpiece hcontains => ?_
  have hline : JsonLine piece := by
    rw [h.pieces_eq, List.mem_append, List.mem_singleton] at hpiece
    rcases hpiece with hpiece | rfl
    · exact h.lines piece hpiece
    · exact .bare 0 (.plain List.not_mem_nil)
  have hpiece' := hline.contains_of_contains_bareLine (by decide) hcontains
  rw [Liquid.closesSchema, Text.contains, Chars.contains_eq_false_iff] at hclose
  exact hclose ((Chars.contains_iff.1 hpiece').trans (Chars.infix_of_mem_pieces hpiece))

end

/-- The repair undoes the damage that it is meant for. Take a template whose schema segment is a printed
value on lines of its own, and the same template with bare quotes in the strings of its defaults, where
the value is one that is read from its own print: the repair of the damaged template is the template
itself, and it counts the defaults that hold a string with a quote in it. Bare quotes never bring a
closing delimiter into the segment. -/
theorem repairQuotes_bareText {v : Value} (hread : Json.read v.pretty = .ok v) {liquid : String}
    {cut : Liquid.Segmented} (hcut : Liquid.segmented? liquid = some cut)
    (hsegment : cut.segment = "\n" ++ v.pretty ++ "\n") :
    repairQuotes (cut.before ++ bareText cut.segment ++ cut.after) =
      ⟨liquid, v.quotedDefaults, true⟩ := by
  obtain ⟨-, -, -, -, -, hliquid, -, hclose⟩ := Liquid.exists_of_segmented? hcut
  have hchars : cut.segment.toList = '\n' :: (v.pretty.toList ++ ['\n']) := by simp [hsegment]
  have htext : JsonText cut.segment.toList := hchars ▸ jsonText_pretty v
  -- The lines of the repaired segment are those of the template, so it reads as the same value.
  have hrepaired : repairedText (bareText cut.segment) = "\n" ++ v.pretty := by
    apply String.toList_inj.1
    rw [repairedText_bareText htext, hchars, intercalate_lines_pretty]
    simp
  have hreread : Json.read ("\n" ++ v.pretty) = .ok v := by
    have hagain := toOption_read_pretty (tidy_of_read hread) (Or.inr rfl) (Or.inl rfl)
    rw [← toOption_read_pretty (tidy_of_read hread) (Or.inl rfl) (Or.inl rfl)] at hagain
    simp only [String.append_empty, String.empty_append] at hagain
    rw [hread] at hagain
    exact Value.eq_ok_of_toOption hagain
  have hcount : repairCount (bareText cut.segment) = quotedLines cut.segment.toList :=
    repairCount_bareText htext
  have hquoted : quotedLines cut.segment.toList = v.quotedDefaults := by
    rw [hchars, quotedLines_pretty]
  have hput := Liquid.segmented?_put hcut (not_closesSchema_bareText htext hclose)
  have hfound : Liquid.segment? (cut.before ++ bareText cut.segment ++ cut.after) =
      some (bareText cut.segment) := congrArg (Option.map _) hput
  rw [repairQuotes_of_segment? hfound, hrepaired, hreread, hcount, hquoted]
  dsimp only
  split
  case isTrue =>
    rw [Liquid.replaceSegment?, hput, Option.map_some, Option.getD_some, Value.trim_pretty, hliquid,
      hsegment]
    simp only [String.append_assoc]
  case isFalse hzero =>
    have hnone : v.quotedDefaults = 0 := Nat.eq_zero_of_not_pos hzero
    rw [bareText_of_quotedLines htext (hquoted.trans hnone), ← hliquid, hnone]

/-- A default whose text ends in a quote and a comma, with backslashes before another quote. -/
def shopSchema : Value :=
  .object [("name", .string "Shop"), ("default", .string "C:\\\"best\" shop\",")]

def shopTemplate : Liquid.Segmented :=
  ⟨"<div></div>\n" ++ Liquid.schemaOpen, "\n" ++ shopSchema.pretty ++ "\n", Liquid.schemaClose ++ "\n"⟩

theorem repairQuotes_bareText_shop :
    bareText shopTemplate.segment =
        "\n\x7b\n  \"name\": \"Shop\",\n  \"default\": \"C:\\\\\"best\" shop\",\"\n\x7d\n" ∧
      repairQuotes (shopTemplate.before ++ bareText shopTemplate.segment ++ shopTemplate.after) =
        ⟨shopTemplate.before ++ shopTemplate.segment ++ shopTemplate.after, 1, true⟩ := by
  have hexact : shopSchema.Exact := by simp [shopSchema, Value.Exact, Value.ExactFields, Json.Fields.keys]
  have hread : Json.read shopSchema.pretty = .ok shopSchema := by
    simpa using Value.read_pretty hexact (by decide +kernel) (Or.inl rfl) (Or.inl rfl)
  have hcut : Liquid.segmented? (shopTemplate.before ++ shopTemplate.segment ++ shopTemplate.after) =
      some shopTemplate := by
    have hclear : Liquid.opensSchema "<div></div>\n" = false ∧
        Liquid.closesSchema shopTemplate.segment = false := by decide +kernel
    have hsplit : Liquid.segmented? ("<div></div>\n" ++ (Liquid.schemaOpen ++
        (shopTemplate.segment ++ (Liquid.schemaClose ++ "\n")))) = _ :=
      Liquid.segmented?_iff.2 hclear
    simpa only [shopTemplate, String.append_assoc] using hsplit
  exact ⟨by decide +kernel, repairQuotes_bareText hread hcut rfl⟩

end Artifact

end ThemeSection
