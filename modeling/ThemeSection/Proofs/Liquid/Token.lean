import ThemeSection.Liquid.Basic
import ThemeSection.Markup.Printer
import ThemeSection.Proofs.Chars.Search

/-!
Where template syntax stands in a text. Scanning from the left, an output or a tag starts at its
opening mark and goes to the first closing mark of its kind. Texts put together from whole outputs,
whole tags and stretches without braces are scanned piece by piece, whatever stands around them and
however markup escapes them.
-/

namespace ThemeSection.Liquid

/-- An output or a tag, with what stands between its marks. -/
inductive Token
  | output (content : List Char)
  | tag (content : List Char)
  deriving DecidableEq, Repr

def Token.content : Token → List Char
  | output content => content
  | tag content => content

/-- What is being read: a stretch without template syntax, or an output or a tag of which some
characters are read, the last one first. -/
inductive Reading
  | between
  | output (read : List Char)
  | tag (read : List Char)

/-- The outputs and tags of a text. One that does not end is none. -/
def scan : Reading → List Char → List Token
  | .between, '\x7b' :: '\x7b' :: rest => scan (.output []) rest
  | .between, '\x7b' :: '%' :: rest => scan (.tag []) rest
  | .between, _ :: rest => scan .between rest
  | .output read, '\x7d' :: '\x7d' :: rest => .output read.reverse :: scan .between rest
  | .output read, c :: rest => scan (.output (c :: read)) rest
  | .tag read, '%' :: '\x7d' :: rest => .tag read.reverse :: scan .between rest
  | .tag read, c :: rest => scan (.tag (c :: read)) rest
  | _, [] => []

/-- The outputs and tags of a text, from the left. -/
def tokens (text : List Char) : List Token :=
  scan .between text

def isBrace (c : Char) : Bool :=
  c == '\x7b' || c == '\x7d'

/-- Characters that stand for themselves in markup and in template syntax. -/
def isBare (c : Char) : Bool :=
  !isBrace c && c != '&' && c != '<' && c != '>' && c != '"' && c != '\u00A0'

def Braceless (s : List Char) : Prop :=
  ∀ c ∈ s, isBrace c = false

def Bare (s : List Char) : Prop :=
  ∀ c ∈ s, isBare c = true

instance (s : List Char) : Decidable (Braceless s) :=
  inferInstanceAs (Decidable (∀ c ∈ s, isBrace c = false))

instance (s : List Char) : Decidable (Bare s) :=
  inferInstanceAs (Decidable (∀ c ∈ s, isBare c = true))

theorem Bare.braceless {s : List Char} (h : Bare s) : Braceless s := by
  intro c hc
  have hbare := h c hc
  simp only [isBare, Bool.and_eq_true, Bool.not_eq_true'] at hbare
  exact hbare.1.1.1.1.1

theorem Braceless.append {a b : List Char} (ha : Braceless a) (hb : Braceless b) :
    Braceless (a ++ b) :=
  List.forall_mem_append.2 ⟨ha, hb⟩

theorem Bare.append {a b : List Char} (ha : Bare a) (hb : Bare b) : Bare (a ++ b) :=
  List.forall_mem_append.2 ⟨ha, hb⟩

/-- A text is settled if it is put together from outputs, tags and stretches without braces. -/
inductive Settled : List Char → Prop
  | nil : Settled []
  | plain {s rest : List Char} : Braceless s → Settled rest → Settled (s ++ rest)
  | output {content rest : List Char} : Bare content → Settled rest →
      Settled ('\x7b' :: '\x7b' :: (content ++ '\x7d' :: '\x7d' :: rest))
  | tag {content rest : List Char} : Bare content → Settled rest →
      Settled ('\x7b' :: '%' :: (content ++ '%' :: '\x7d' :: rest))

theorem Braceless.settled {s : List Char} (h : Braceless s) : Settled s :=
  List.append_nil s ▸ .plain h .nil

theorem scan_between_append {s : List Char} (h : Braceless s) (rest : List Char) :
    scan .between (s ++ rest) = scan .between rest := by
  induction s with
  | nil => rfl
  | cons c s ih =>
    obtain ⟨hc, hs⟩ := List.forall_mem_cons.1 h
    rw [List.cons_append, scan.eq_def]
    split
    case h_1 hcons =>
      obtain ⟨rfl, -⟩ := List.cons.inj hcons
      cases hc
    case h_2 hcons =>
      obtain ⟨rfl, -⟩ := List.cons.inj hcons
      cases hc
    case h_3 hcons =>
      obtain ⟨-, rfl⟩ := List.cons.inj hcons
      exact ih hs
    all_goals simp_all

theorem scan_output_append {content : List Char} (h : Braceless content) (read rest : List Char) :
    scan (.output read) (content ++ '\x7d' :: '\x7d' :: rest) =
      .output (read.reverse ++ content) :: scan .between rest := by
  induction content generalizing read with
  | nil => simp [scan]
  | cons c content ih =>
    obtain ⟨hc, hcontent⟩ := List.forall_mem_cons.1 h
    rw [List.cons_append, scan.eq_def]
    split
    case h_4 hread hcons =>
      obtain ⟨rfl, -⟩ := List.cons.inj hcons
      cases hc
    case h_5 hread hcons =>
      obtain ⟨rfl, rfl⟩ := List.cons.inj hcons
      obtain rfl := Reading.output.inj hread
      rw [ih hcontent, List.reverse_cons, List.append_assoc, List.singleton_append]
    all_goals simp_all

theorem scan_tag_append {content : List Char} (h : Braceless content) (read rest : List Char) :
    scan (.tag read) (content ++ '%' :: '\x7d' :: rest) =
      .tag (read.reverse ++ content) :: scan .between rest := by
  induction content generalizing read with
  | nil => simp [scan]
  | cons c content ih =>
    obtain ⟨hc, hcontent⟩ := List.forall_mem_cons.1 h
    rw [List.cons_append, scan.eq_def]
    split
    case h_6 hread hcons =>
      -- A percent sign of the content is not followed by the brace of the closing mark.
      cases content with
      | nil => simp at hcons
      | cons e content =>
        simp only [List.cons_append, List.cons.injEq] at hcons
        obtain ⟨-, rfl, -⟩ := hcons
        nomatch (List.forall_mem_cons.1 hcontent).1
    case h_7 hread hcons =>
      obtain ⟨rfl, rfl⟩ := List.cons.inj hcons
      obtain rfl := Reading.tag.inj hread
      rw [ih hcontent, List.reverse_cons, List.append_assoc, List.singleton_append]
    all_goals simp_all

@[simp] theorem tokens_nil : tokens [] = [] := rfl

theorem tokens_plain {s : List Char} (h : Braceless s) (rest : List Char) :
    tokens (s ++ rest) = tokens rest :=
  scan_between_append h rest

theorem tokens_output {content : List Char} (h : Bare content) (rest : List Char) :
    tokens ('\x7b' :: '\x7b' :: (content ++ '\x7d' :: '\x7d' :: rest)) =
      .output content :: tokens rest :=
  scan_output_append h.braceless [] rest

theorem tokens_tag {content : List Char} (h : Bare content) (rest : List Char) :
    tokens ('\x7b' :: '%' :: (content ++ '%' :: '\x7d' :: rest)) = .tag content :: tokens rest :=
  scan_tag_append h.braceless [] rest

theorem Braceless.tokens {s : List Char} (h : Braceless s) : tokens s = [] := by
  simpa using tokens_plain h []

namespace Settled

variable {s t : List Char}

/-- A settled text is scanned in the same way whatever comes after it. -/
theorem tokens_append (h : Settled s) (t : List Char) : tokens (s ++ t) = tokens s ++ tokens t := by
  induction h with
  | nil => rfl
  | plain hs _ ih => rw [List.append_assoc, tokens_plain hs, tokens_plain hs, ih]
  | output hcontent _ ih =>
    simp only [List.cons_append, List.append_assoc]
    rw [tokens_output hcontent, tokens_output hcontent, ih, List.cons_append]
  | tag hcontent _ ih =>
    simp only [List.cons_append, List.append_assoc]
    rw [tokens_tag hcontent, tokens_tag hcontent, ih, List.cons_append]

theorem append (h : Settled s) (ht : Settled t) : Settled (s ++ t) := by
  induction h with
  | nil => exact ht
  | plain hs _ ih => exact List.append_assoc _ _ _ ▸ .plain hs ih
  | output hcontent _ ih =>
    simp only [List.cons_append, List.append_assoc]
    exact .output hcontent ih
  | tag hcontent _ ih =>
    simp only [List.cons_append, List.append_assoc]
    exact .tag hcontent ih

theorem flatten (texts : List (List Char)) (h : ∀ s ∈ texts, Settled s) :
    Settled texts.flatten ∧ Liquid.tokens texts.flatten = texts.flatMap Liquid.tokens := by
  induction texts with
  | nil => exact ⟨.nil, rfl⟩
  | cons s texts ih =>
    obtain ⟨hs, htexts⟩ := List.forall_mem_cons.1 h
    obtain ⟨hsettled, htokens⟩ := ih htexts
    rw [List.flatten_cons, List.flatMap_cons, hs.tokens_append, htokens]
    exact ⟨hs.append hsettled, rfl⟩

/-- A settled text without any token has no braces. -/
theorem braceless (h : Settled s) (hnone : Liquid.tokens s = []) : Braceless s := by
  induction h with
  | nil => exact List.forall_mem_nil _
  | plain hs _ ih => exact hs.append (ih (tokens_plain hs _ ▸ hnone))
  | output hcontent _ _ =>
    rw [tokens_output hcontent] at hnone
    cases hnone
  | tag hcontent _ _ =>
    rw [tokens_tag hcontent] at hnone
    cases hnone

end Settled

/-- An escape that neither makes nor takes braces and leaves bare characters as they are. -/
structure Escapes (escape : Char → List Char) : Prop where
  braceless : ∀ c, isBrace c = false → Braceless (escape c)
  brace : ∀ c, isBrace c → escape c = [c]
  bare : ∀ c, isBare c → escape c = [c]

theorem isBare_of {c : Char} (h : isBare c) :
    c ≠ '&' ∧ c ≠ '<' ∧ c ≠ '>' ∧ c ≠ '"' ∧ c ≠ '\u00A0' := by
  simp only [isBare, Bool.and_eq_true, bne_iff_ne, ne_eq] at h
  exact ⟨h.1.1.1.1.2, h.1.1.1.2, h.1.1.2, h.1.2, h.2⟩

theorem escapes_text : Escapes Markup.escapeTextChar where
  braceless := by
    intro c hc
    unfold Markup.escapeTextChar
    split
    · decide
    · split
      · decide
      · split
        · decide
        · split
          · decide
          · simpa [Braceless] using hc
  brace := by
    intro c hc
    have hcases : c = '\x7b' ∨ c = '\x7d' := by simpa [isBrace] using hc
    rcases hcases with rfl | rfl <;> rfl
  bare := by
    intro c hc
    obtain ⟨hamp, hlt, hgt, -, hblank⟩ := isBare_of hc
    simp [Markup.escapeTextChar, hamp, hlt, hgt, hblank]

theorem escapes_attribute : Escapes Markup.escapeAttributeChar where
  braceless := by
    intro c hc
    unfold Markup.escapeAttributeChar
    split
    · decide
    · split
      · decide
      · split
        · decide
        · simpa [Braceless] using hc
  brace := by
    intro c hc
    have hcases : c = '\x7b' ∨ c = '\x7d' := by simpa [isBrace] using hc
    rcases hcases with rfl | rfl <;> rfl
  bare := by
    intro c hc
    obtain ⟨hamp, -, -, hquote, hblank⟩ := isBare_of hc
    simp [Markup.escapeAttributeChar, hamp, hquote, hblank]

namespace Escapes

variable {escape : Char → List Char}

theorem flatMap_braceless (h : Escapes escape) {s : List Char} (hs : Braceless s) :
    Braceless (s.flatMap escape) := by
  intro c hc
  obtain ⟨d, hd, hc⟩ := List.mem_flatMap.1 hc
  exact h.braceless d (hs d hd) c hc

theorem flatMap_bare (h : Escapes escape) {s : List Char} (hs : Bare s) :
    s.flatMap escape = s := by
  induction s with
  | nil => rfl
  | cons c s ih =>
    obtain ⟨hc, hs⟩ := List.forall_mem_cons.1 hs
    rw [List.flatMap_cons, h.bare c hc, ih hs]
    rfl

/-- Escaping a settled text changes none of its outputs and tags. -/
theorem settled (h : Escapes escape) {s : List Char} (hs : Settled s) :
    Settled (s.flatMap escape) ∧ tokens (s.flatMap escape) = tokens s := by
  have hopen : escape '\x7b' = ['\x7b'] := h.brace _ rfl
  have hclose : escape '\x7d' = ['\x7d'] := h.brace _ rfl
  have hpercent : escape '%' = ['%'] := h.bare _ rfl
  induction hs with
  | nil => exact ⟨.nil, rfl⟩
  | plain hplain _ ih =>
    rw [List.flatMap_append, tokens_plain (h.flatMap_braceless hplain), tokens_plain hplain]
    exact ⟨.plain (h.flatMap_braceless hplain) ih.1, ih.2⟩
  | @output content rest hcontent _ ih =>
    have hescaped : ('\x7b' :: '\x7b' :: (content ++ '\x7d' :: '\x7d' :: rest)).flatMap escape =
        '\x7b' :: '\x7b' :: (content ++ '\x7d' :: '\x7d' :: rest.flatMap escape) := by
      simp [List.flatMap_append, h.flatMap_bare hcontent, hopen, hclose]
    rw [hescaped, tokens_output hcontent, tokens_output hcontent, ih.2]
    exact ⟨.output hcontent ih.1, rfl⟩
  | @tag content rest hcontent _ ih =>
    have hescaped : ('\x7b' :: '%' :: (content ++ '%' :: '\x7d' :: rest)).flatMap escape =
        '\x7b' :: '%' :: (content ++ '%' :: '\x7d' :: rest.flatMap escape) := by
      simp [List.flatMap_append, h.flatMap_bare hcontent, hopen, hclose, hpercent]
    rw [hescaped, tokens_tag hcontent, tokens_tag hcontent, ih.2]
    exact ⟨.tag hcontent ih.1, rfl⟩

end Escapes

end ThemeSection.Liquid
