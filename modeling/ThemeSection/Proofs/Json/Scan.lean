import ThemeSection.Proofs.Json.Value

/-!
What a text that reads as JSON is made of. Outside its strings stand only blanks, punctuation, digits
and the letters of the fixed names; a string ends at the first quote that no backslash guards, and
holds no control characters. So whoever goes over the text one character at a time knows at each
place whether it lies in a string. Values that were read nest no deeper than the reader goes.
-/

namespace ThemeSection.Json

/-- Where a character stands: outside strings, in a string, or right after a backslash in one. -/
inductive Mode
  | outside
  | inside
  | escaped
  deriving DecidableEq

/-- Whether a character may stand outside strings. -/
def isPlain (c : Char) : Bool :=
  isSpace c || c.isDigit || "+-.eE[]\x7b\x7d,:nulltruefalse".toList.contains c

/-- Where the character after `c` stands; nothing if `c` may not stand here. -/
def Mode.step (mode : Mode) (c : Char) : Option Mode :=
  match mode with
  | outside => if c == '"' then some inside else if isPlain c then some outside else none
  | inside =>
    if c == '"' then some outside
    else if c == '\\' then some escaped
    else if c.toNat < 0x20 then none
    else some inside
  | escaped => if c.toNat < 0x20 then none else some inside

/-- Where the character after a text stands. -/
def Mode.scan (mode : Mode) (s : List Char) : Option Mode :=
  s.foldlM step mode

theorem Mode.scan_append (mode : Mode) (a b : List Char) :
    mode.scan (a ++ b) = (mode.scan a).bind fun next => next.scan b :=
  List.foldlM_append

theorem Mode.scan_cons (mode : Mode) (c : Char) (s : List Char) :
    mode.scan (c :: s) = (mode.step c).bind fun next => next.scan s :=
  List.foldlM_cons

theorem Mode.scan_append_eq_some_iff {mode last : Mode} {a b : List Char} :
    mode.scan (a ++ b) = some last ↔ ∃ next, mode.scan a = some next ∧ next.scan b = some last := by
  rw [scan_append, Option.bind_eq_some_iff]

theorem Mode.scan_cons_eq_some_iff {mode last : Mode} {c : Char} {s : List Char} :
    mode.scan (c :: s) = some last ↔ ∃ next, mode.step c = some next ∧ next.scan s = some last := by
  rw [scan_cons, Option.bind_eq_some_iff]

/-- Characters that keep a mode. -/
theorem Mode.scan_of_forall {mode : Mode} {s : List Char} (h : ∀ c ∈ s, mode.step c = some mode) :
    mode.scan s = some mode := by
  induction s with
  | nil => rfl
  | cons c s ih =>
    obtain ⟨hc, hs⟩ := List.forall_mem_cons.1 h
    rw [scan_cons, hc, Option.bind_some, ih hs]

theorem isPlain_of_isSpace {c : Char} (h : isSpace c) : isPlain c := by
  simp [isPlain, h]

theorem isPlain_of_isDigit {c : Char} (h : c.isDigit) : isPlain c := by
  simp [isPlain, h]

theorem step_of_isPlain {c : Char} (h : isPlain c) : Mode.outside.step c = some .outside := by
  have hquote : (c == '"') = false := by
    rw [beq_eq_false_iff_ne]
    rintro rfl
    revert h
    decide
  simp [Mode.step, hquote, h]

/-- A reader that starts in a mode takes the text up to the rest and ends outside strings. -/
def Scans (mode : Mode) (s rest : List Char) : Prop :=
  ∃ front, s = front ++ rest ∧ mode.scan front = some .outside

theorem Scans.refl (s : List Char) : Scans .outside s s :=
  ⟨[], rfl, rfl⟩

theorem Scans.append {mode next : Mode} {front s rest : List Char}
    (hfront : mode.scan front = some next) (h : Scans next s rest) :
    Scans mode (front ++ s) rest := by
  obtain ⟨more, rfl, hmore⟩ := h
  exact ⟨front ++ more, by simp, by rw [Mode.scan_append, hfront]; exact hmore⟩

theorem Scans.cons {mode next : Mode} {c : Char} {s rest : List Char}
    (hstep : mode.step c = some next) (h : Scans next s rest) : Scans mode (c :: s) rest :=
  h.append (show mode.scan [c] = some next by rw [Mode.scan_cons, hstep]; rfl)

theorem Scans.trans {mode : Mode} {a b c : List Char} (hab : Scans mode a b)
    (hbc : Scans .outside b c) : Scans mode a c := by
  obtain ⟨front, rfl, hfront⟩ := hab
  exact hbc.append hfront

theorem Scans.plain {c : Char} {s rest : List Char} (hc : isPlain c)
    (h : Scans .outside s rest) : Scans .outside (c :: s) rest :=
  h.cons (step_of_isPlain hc)

theorem Scans.length_le {mode : Mode} {s rest : List Char} (h : Scans mode s rest) :
    rest.length ≤ s.length := by
  obtain ⟨front, rfl, -⟩ := h
  simp

theorem scans_dropWhile {p : Char → Bool} (hp : ∀ c, p c → isPlain c) (s : List Char) :
    Scans .outside s (s.dropWhile p) :=
  ⟨s.takeWhile p, List.takeWhile_append_dropWhile.symm, Mode.scan_of_forall fun c hc =>
    step_of_isPlain (hp c (List.all_eq_true.1 List.all_takeWhile c hc))⟩

/-- What comes after blanks. -/
theorem scans_of_skipSpace {s rest : List Char} (h : skipSpace s = rest) : Scans .outside s rest :=
  h ▸ scans_dropWhile (fun _ => isPlain_of_isSpace) s

theorem step_of_isHexDigit {c : Char} (h : Chars.isHexDigit c) :
    Mode.inside.step c = some .inside := by
  have hcontrol : ¬ c.toNat < 0x20 := by
    have hnone : ∀ n : Fin 0x20, Chars.isHexDigit (Char.ofNat n) = false := by decide
    intro hlt
    have hc := hnone ⟨c.toNat, hlt⟩
    rw [Char.ofNat_toNat, h] at hc
    cases hc
  have hquote : c ≠ '"' := by
    rintro rfl
    exact absurd h (by decide)
  have hslash : c ≠ '\\' := by
    rintro rfl
    exact absurd h (by decide)
  simp [Mode.step, hquote, hslash, hcontrol]

theorem hexQuad_eq_ok_iff {s rest : List Char} {n : Nat} :
    hexQuad s = .ok (n, rest) ↔ ∃ digits, s = digits ++ rest ∧ digits.length = 4 ∧
      digits.all Chars.isHexDigit ∧ n = Chars.numeral 16 digits := by
  constructor
  · intro h
    unfold hexQuad at h
    split at h
    case h_1 a b c d rest =>
      split at h
      case isTrue hall =>
        obtain ⟨rfl, rfl⟩ := Prod.mk.inj (Except.ok.inj h)
        exact ⟨[a, b, c, d], rfl, rfl, hall, rfl⟩
      case isFalse => cases h
    case h_2 => split at h <;> cases h
  · rintro ⟨digits, rfl, hlength, hall, rfl⟩
    match digits, hlength with
    | [a, b, c, d], _ => exact if_pos hall

theorem scan_of_all_isHexDigit {digits : List Char} (h : digits.all Chars.isHexDigit) :
    Mode.inside.scan digits = some .inside :=
  Mode.scan_of_forall fun c hc => step_of_isHexDigit (List.all_eq_true.1 h c hc)

theorem ne_of_all_isHexDigit {digits : List Char} (h : digits.all Chars.isHexDigit) :
    ∀ c ∈ digits, c ≠ '\n' ∧ c ≠ '\r' := by
  intro c hc
  have hhex := List.all_eq_true.1 h c hc
  constructor <;> rintro rfl <;> exact absurd hhex (by decide)

theorem exists_of_bind_eq_ok {α β : Type} {x : Reading α} {f : α → Reading β} {b : β}
    (h : x >>= f = .ok b) : ∃ a, x = .ok a ∧ f a = .ok b := by
  cases x with
  | error fault => cases h
  | ok a => exact ⟨a, rfl, h⟩

theorem exists_of_unicodeEscape {s : List Char} {c : Char} {n : Nat}
    (h : unicodeEscape s = .ok (c, n)) :
    ∃ body rest, s = body ++ rest ∧ body.length = n ∧ Mode.inside.scan body = some .inside ∧
      ∀ c ∈ body, c ≠ '\n' ∧ c ≠ '\r' := by
  obtain ⟨⟨high, rest⟩, hhigh, hrest⟩ := exists_of_bind_eq_ok h
  obtain ⟨digits, rfl, hlength, hdigits, -⟩ := hexQuad_eq_ok_iff.1 hhigh
  dsimp only at hrest
  split at hrest
  case isTrue => cases hrest
  split at hrest
  case isTrue =>
    obtain ⟨-, rfl⟩ := Prod.mk.inj (Except.ok.inj hrest)
    exact ⟨digits, rest, rfl, hlength, scan_of_all_isHexDigit hdigits,
      ne_of_all_isHexDigit hdigits⟩
  split at hrest
  case h_1 => cases hrest
  case h_2 => cases hrest
  case h_3 more _ _ =>
    obtain ⟨⟨low, rest⟩, hlow, hmore⟩ := exists_of_bind_eq_ok hrest
    obtain ⟨others, rfl, hothers, hall, -⟩ := hexQuad_eq_ok_iff.1 hlow
    have hscan := scan_of_all_isHexDigit hall
    dsimp only at hmore
    split at hmore
    case isTrue => cases hmore
    case isFalse =>
      obtain ⟨-, rfl⟩ := Prod.mk.inj (Except.ok.inj hmore)
      refine ⟨digits ++ '\\' :: 'u' :: others, rest, by simp, by simp [hlength, hothers], ?_, ?_⟩
      · rw [Mode.scan_append, scan_of_all_isHexDigit hdigits]
        exact hscan
      · exact List.forall_mem_append.2 ⟨ne_of_all_isHexDigit hdigits, List.forall_mem_cons.2
          ⟨by decide, List.forall_mem_cons.2 ⟨by decide, ne_of_all_isHexDigit hall⟩⟩⟩
  case h_4 => cases hrest
  case h_5 => cases hrest

/-- An escape takes as many characters as it says, stays on its line and leaves the string open. -/
theorem exists_of_escape {s : List Char} {c : Char} {n : Nat} (h : escape s = .ok (c, n)) :
    ∃ body rest, s = body ++ rest ∧ body.length = n ∧ Mode.escaped.scan body = some .inside ∧
      ∀ c ∈ body, c ≠ '\n' ∧ c ≠ '\r' := by
  unfold escape at h
  split at h
  case h_1 => cases h
  case h_2 rest =>
    cases hunicode : unicodeEscape rest with
    | error fault =>
      rw [hunicode] at h
      cases h
    | ok result =>
      rw [hunicode] at h
      obtain ⟨-, rfl⟩ := Prod.mk.inj (Except.ok.inj h)
      obtain ⟨body, rest, rfl, hlength, hscan, hlines⟩ := exists_of_unicodeEscape hunicode
      exact ⟨'u' :: body, rest, rfl, by rw [List.length_cons, hlength], hscan,
        List.forall_mem_cons.2 ⟨by decide, hlines⟩⟩
  all_goals first
    | cases h
      exact ⟨[_], _, rfl, rfl, by decide, by decide⟩
    | cases h

theorem scans_of_go {skip : Nat} {s text rest : List Char}
    (h : stringBody.go skip s = .ok (text, rest)) : Scans .inside (s.drop skip) rest := by
  induction s generalizing skip text with
  | nil => cases skip <;> cases h
  | cons c s ih =>
    cases skip with
    | succ skip => exact ih h
    | zero =>
      rw [stringBody.go] at h
      split at h
      case isTrue hquote =>
        obtain rfl := eq_of_beq hquote
        obtain ⟨-, rfl⟩ := Prod.mk.inj (Except.ok.inj h)
        exact (Scans.refl s).cons rfl
      split at h
      case isTrue hslash =>
        obtain rfl := eq_of_beq hslash
        obtain ⟨⟨d, n⟩, hescape, hmore⟩ := exists_of_bind_eq_ok h
        obtain ⟨⟨others, left⟩, hgo, hresult⟩ := exists_of_bind_eq_ok hmore
        obtain ⟨-, rfl⟩ := Prod.mk.inj (Except.ok.inj hresult)
        have hscans := ih hgo
        obtain ⟨body, tail, rfl, rfl, hbody, -⟩ := exists_of_escape hescape
        rw [List.drop_left] at hscans
        exact (hscans.append hbody).cons rfl
      split at h
      case isTrue => cases h
      case isFalse hquote hslash hcontrol =>
        obtain ⟨⟨others, left⟩, hgo, hresult⟩ := exists_of_bind_eq_ok h
        obtain ⟨-, rfl⟩ := Prod.mk.inj (Except.ok.inj hresult)
        have hstep : Mode.inside.step c = some .inside := by
          simp only [Mode.step, hquote, hslash, hcontrol, if_false]
          rfl
        exact (ih hgo).cons hstep

/-- A string is read up to the quote that closes it. -/
theorem scans_of_stringBody {s text rest : List Char} (h : stringBody s = .ok (text, rest)) :
    Scans .inside s rest :=
  scans_of_go h

section

variable {negative : Bool} {significand : Nat} {e : Int} {s rest : List Char} {n : Number}

theorem eq_of_floatOf (h : floatOf negative significand e s = .ok (n, rest)) : rest = s := by
  unfold floatOf at h
  split at h
  · cases h
  · exact (Prod.mk.inj (Except.ok.inj h)).2.symm

theorem scans_dropWhile_isDigit (s : List Char) : Scans .outside s (s.dropWhile Char.isDigit) :=
  scans_dropWhile (fun _ => isPlain_of_isDigit) s

/-- The digits of an exponent, after its sign. -/
def exponentDigits (negative : Bool) (significand : Nat) (e : Int) (down : Bool) (s : List Char) :
    Reading (Number × List Char) :=
  match s with
  | [] => .error (.at .endInValue [])
  | c :: _ =>
    if !c.isDigit then .error (.past .invalidNumber s)
    else
      let (power, extra) := absorb maxExponent 0 (s.takeWhile Char.isDigit)
      if extra.isEmpty then
        floatOf negative significand (if down then e - power else e + power)
          (s.dropWhile Char.isDigit)
      else if significand != 0 && !down then
        .error (.at .numberOutOfRange (extra.drop 1 ++ s.dropWhile Char.isDigit))
      else .ok (.float (if negative then -0.0 else 0.0), s.dropWhile Char.isDigit)

/-- The sign of an exponent and the text after it; an exponent without a sign goes up. -/
def exponentSign : List Char → Bool × List Char
  | '+' :: rest => (false, rest)
  | '-' :: rest => (true, rest)
  | rest => (false, rest)

theorem numberExponent_eq (negative : Bool) (significand : Nat) (e : Int) (s : List Char) :
    numberExponent negative significand e s =
      exponentDigits negative significand e (exponentSign (s.drop 1)).1
        (exponentSign (s.drop 1)).2 :=
  rfl

theorem scans_exponentSign (s : List Char) : Scans .outside s (exponentSign s).2 := by
  unfold exponentSign
  split
  · exact (Scans.refl _).plain (by decide)
  · exact (Scans.refl _).plain (by decide)
  · exact .refl _

theorem scans_of_exponentDigits {down : Bool}
    (h : exponentDigits negative significand e down s = .ok (n, rest)) : Scans .outside s rest := by
  unfold exponentDigits at h
  split at h
  case h_1 => cases h
  split at h
  case isTrue => cases h
  dsimp only at h
  split at h
  case isTrue =>
    rw [eq_of_floatOf h]
    exact scans_dropWhile_isDigit _
  split at h
  case isTrue => cases h
  case isFalse =>
    obtain ⟨-, rfl⟩ := Prod.mk.inj (Except.ok.inj h)
    exact scans_dropWhile_isDigit _

theorem scans_of_numberExponent (hs : startsExponent s)
    (h : numberExponent negative significand e s = .ok (n, rest)) : Scans .outside s rest := by
  cases s with
  | nil => cases hs
  | cons letter afterLetter =>
    have hletter : isPlain letter := by
      rcases Bool.or_eq_true_iff.1 hs with h | h <;> rw [eq_of_beq h] <;> decide
    rw [numberExponent_eq] at h
    exact ((scans_exponentSign afterLetter).trans (scans_of_exponentDigits h)).plain hletter

theorem scans_of_numberPlaces (hs : s.head? = some '.')
    (h : numberPlaces negative significand e s = .ok (n, rest)) : Scans .outside s rest := by
  obtain ⟨afterPoint, rfl⟩ := List.head?_eq_some_iff.1 hs
  refine Scans.plain (by decide) ((scans_dropWhile_isDigit afterPoint).trans ?_)
  simp only [numberPlaces, List.drop_succ_cons, List.drop_zero] at h
  split at h
  case isTrue => split at h <;> cases h
  split at h
  case isTrue hexponent => exact scans_of_numberExponent hexponent h
  case isFalse =>
    rw [eq_of_floatOf h]
    exact .refl _

theorem scans_of_numberBody (h : numberBody negative s = .ok (n, rest)) : Scans .outside s rest := by
  unfold numberBody at h
  split at h
  case h_1 => cases h
  case h_2 c afterFirst =>
    refine (scans_dropWhile_isDigit (c :: afterFirst)).trans ?_
    split at h
    case isTrue => cases h
    split at h
    case isTrue => cases h
    dsimp only at h
    split at h
    case isTrue hpoint => exact scans_of_numberPlaces (eq_of_beq hpoint) h
    split at h
    case isTrue hexponent => exact scans_of_numberExponent hexponent h
    split at h
    case isTrue =>
      rw [eq_of_floatOf h]
      exact .refl _
    split at h
    case isTrue =>
      obtain ⟨-, rfl⟩ := Prod.mk.inj (Except.ok.inj h)
      exact .refl _
    split at h <;>
    · obtain ⟨-, rfl⟩ := Prod.mk.inj (Except.ok.inj h)
      exact .refl _

end

theorem scans_of_nameRest {name s rest : List Char} (hname : ∀ c ∈ name, isPlain c)
    (h : nameRest name s = .ok ((), rest)) : Scans .outside s rest := by
  induction name generalizing s with
  | nil =>
    obtain ⟨-, rfl⟩ := Prod.mk.inj (Except.ok.inj h)
    exact .refl _
  | cons p name ih =>
    obtain ⟨hp, hname⟩ := List.forall_mem_cons.1 hname
    cases s with
    | nil => cases h
    | cons c s =>
      rw [nameRest] at h
      split at h
      case isTrue hpc =>
        obtain rfl := eq_of_beq hpc
        exact (ih hname h).plain hp
      case isFalse => cases h

section

variable {P : Value → Prop} {item : ItemReader Value}
  (hitem : ∀ s v rest, item s = .ok (v, rest) → Scans .outside s rest ∧ P v)
include hitem

theorem scans_of_moreItems {fuel : Nat} {s rest : List Char} {values : List Value}
    (h : moreItems item fuel s = .ok (values, rest)) :
    Scans .outside s rest ∧ ∀ v ∈ values, P v := by
  induction fuel generalizing s values with
  | zero => cases h
  | succ fuel ih =>
    rw [moreItems] at h
    split at h
    case h_1 => cases h
    case h_2 left hspace =>
      obtain ⟨rfl, rfl⟩ := Prod.mk.inj (Except.ok.inj h)
      exact ⟨(scans_of_skipSpace hspace).trans ((Scans.refl left).plain (by decide)),
        List.forall_mem_nil _⟩
    case h_3 left hspace =>
      have hcomma : Scans .outside s left :=
        (scans_of_skipSpace hspace).trans ((Scans.refl left).plain (by decide))
      split at h
      case h_1 => cases h
      case h_2 c more hmore =>
        split at h
        case isTrue => cases h
        case isFalse =>
          obtain ⟨⟨v, left⟩, hv, htail⟩ := exists_of_bind_eq_ok h
          obtain ⟨⟨others, left⟩, hothers, hresult⟩ := exists_of_bind_eq_ok htail
          obtain ⟨rfl, rfl⟩ := Prod.mk.inj (Except.ok.inj hresult)
          obtain ⟨hscans, hP⟩ := hitem _ _ _ hv
          obtain ⟨hscans', hP'⟩ := ih hothers
          exact ⟨hcomma.trans ((scans_of_skipSpace hmore).trans (hscans.trans hscans')),
            List.forall_mem_cons.2 ⟨hP, hP'⟩⟩
    case h_4 => cases h

theorem scans_of_items {s rest : List Char} {values : List Value}
    (h : items item s = .ok (values, rest)) : Scans .outside s rest ∧ ∀ v ∈ values, P v := by
  unfold items at h
  split at h
  case h_1 => cases h
  case h_2 left hspace =>
    obtain ⟨rfl, rfl⟩ := Prod.mk.inj (Except.ok.inj h)
    exact ⟨(scans_of_skipSpace hspace).trans ((Scans.refl left).plain (by decide)),
      List.forall_mem_nil _⟩
  case h_3 =>
    obtain ⟨⟨v, left⟩, hv, htail⟩ := exists_of_bind_eq_ok h
    obtain ⟨⟨others, left⟩, hothers, hresult⟩ := exists_of_bind_eq_ok htail
    obtain ⟨rfl, rfl⟩ := Prod.mk.inj (Except.ok.inj hresult)
    obtain ⟨hscans, hP⟩ := hitem _ _ _ hv
    obtain ⟨hscans', hP'⟩ := scans_of_moreItems hitem hothers
    exact ⟨(scans_of_skipSpace rfl).trans (hscans.trans hscans'), List.forall_mem_cons.2 ⟨hP, hP'⟩⟩

theorem scans_of_field {s rest : List Char} {field : String × Value}
    (h : Json.field item s = .ok (field, rest)) : Scans .inside s rest ∧ P field.2 := by
  obtain ⟨⟨key, left⟩, hkey, hvalue⟩ := exists_of_bind_eq_ok h
  have hstring := scans_of_stringBody hkey
  dsimp only at hvalue
  split at hvalue
  case h_1 => cases hvalue
  case h_2 left hspace =>
    obtain ⟨⟨v, left'⟩, hv, hresult⟩ := exists_of_bind_eq_ok hvalue
    obtain ⟨rfl, rfl⟩ := Prod.mk.inj (Except.ok.inj hresult)
    obtain ⟨hscans, hP⟩ := hitem _ _ _ hv
    exact ⟨hstring.trans ((scans_of_skipSpace hspace).trans (hscans.plain (by decide))), hP⟩
  case h_3 => cases hvalue

theorem scans_of_moreFields {fuel : Nat} {s rest : List Char} {fields : Fields}
    (h : moreFields item fuel s = .ok (fields, rest)) :
    Scans .outside s rest ∧ ∀ field ∈ fields, P field.2 := by
  induction fuel generalizing s fields with
  | zero => cases h
  | succ fuel ih =>
    rw [moreFields] at h
    split at h
    case h_1 => cases h
    case h_2 left hspace =>
      obtain ⟨rfl, rfl⟩ := Prod.mk.inj (Except.ok.inj h)
      exact ⟨(scans_of_skipSpace hspace).trans ((Scans.refl left).plain (by decide)),
        List.forall_mem_nil _⟩
    case h_3 left hspace =>
      have hcomma : Scans .outside s left :=
        (scans_of_skipSpace hspace).trans ((Scans.refl left).plain (by decide))
      split at h
      case h_1 => cases h
      case h_2 next hnext =>
        obtain ⟨⟨first, left'⟩, hfirst, htail⟩ := exists_of_bind_eq_ok h
        obtain ⟨⟨others, left''⟩, hothers, hresult⟩ := exists_of_bind_eq_ok htail
        obtain ⟨rfl, rfl⟩ := Prod.mk.inj (Except.ok.inj hresult)
        obtain ⟨hscans, hP⟩ := scans_of_field hitem hfirst
        obtain ⟨hscans', hP'⟩ := ih hothers
        exact ⟨hcomma.trans ((scans_of_skipSpace hnext).trans ((hscans.trans hscans').cons rfl)),
          List.forall_mem_cons.2 ⟨hP, hP'⟩⟩
      case h_3 => cases h
      case h_4 => cases h
    case h_4 => cases h

theorem scans_of_fields {s rest : List Char} {fields : Fields}
    (h : Json.fields item s = .ok (fields, rest)) :
    Scans .outside s rest ∧ ∀ field ∈ fields, P field.2 := by
  unfold Json.fields at h
  split at h
  case h_1 => cases h
  case h_2 left hspace =>
    obtain ⟨rfl, rfl⟩ := Prod.mk.inj (Except.ok.inj h)
    exact ⟨(scans_of_skipSpace hspace).trans ((Scans.refl left).plain (by decide)),
      List.forall_mem_nil _⟩
  case h_3 next hspace =>
    obtain ⟨⟨first, left⟩, hfirst, htail⟩ := exists_of_bind_eq_ok h
    obtain ⟨⟨others, left⟩, hothers, hresult⟩ := exists_of_bind_eq_ok htail
    obtain ⟨rfl, rfl⟩ := Prod.mk.inj (Except.ok.inj hresult)
    obtain ⟨hscans, hP⟩ := scans_of_field hitem hfirst
    obtain ⟨hscans', hP'⟩ := scans_of_moreFields hitem hothers
    exact ⟨(scans_of_skipSpace hspace).trans ((hscans.trans hscans').cons rfl),
      List.forall_mem_cons.2 ⟨hP, hP'⟩⟩
  case h_4 => cases h

end

theorem exists_of_wrap {α : Type} {x : Reading (α × List Char)}
    {f : α × List Char → Reading (Value × List Char)} {v : Value} {rest : List Char}
    (h : x >>= f = .ok (v, rest)) (wrap : α → Value)
    (hwrap : ∀ a rest, f (a, rest) = .ok (wrap a, rest)) : ∃ a, x = .ok (a, rest) ∧ v = wrap a := by
  obtain ⟨⟨a, left⟩, hx, hresult⟩ := exists_of_bind_eq_ok h
  rw [hwrap] at hresult
  obtain ⟨rfl, rfl⟩ := Prod.mk.inj (Except.ok.inj hresult)
  exact ⟨a, hx, rfl⟩

/-- A value that was read takes its text from strings and plain characters, and it nests less deep
than the reader goes. -/
theorem scans_of_value {depth : Nat} (hdepth : 0 < depth) {s rest : List Char} {v : Value}
    (h : value depth s = .ok (v, rest)) : Scans .outside s rest ∧ v.height < depth := by
  rw [value.eq_def] at h
  split at h
  case h_1 => cases h
  case h_2 left hspace =>
    obtain ⟨⟨⟩, hname, rfl⟩ := exists_of_wrap h (fun _ => .null) fun _ _ => rfl
    exact ⟨(scans_of_skipSpace hspace).trans
      ((scans_of_nameRest (by decide) hname).plain (by decide)), hdepth⟩
  case h_3 left hspace =>
    obtain ⟨⟨⟩, hname, rfl⟩ := exists_of_wrap h (fun _ => .bool true) fun _ _ => rfl
    exact ⟨(scans_of_skipSpace hspace).trans
      ((scans_of_nameRest (by decide) hname).plain (by decide)), hdepth⟩
  case h_4 left hspace =>
    obtain ⟨⟨⟩, hname, rfl⟩ := exists_of_wrap h (fun _ => .bool false) fun _ _ => rfl
    exact ⟨(scans_of_skipSpace hspace).trans
      ((scans_of_nameRest (by decide) hname).plain (by decide)), hdepth⟩
  case h_5 left hspace =>
    obtain ⟨n, hn, rfl⟩ := exists_of_wrap h .number fun _ _ => rfl
    exact ⟨(scans_of_skipSpace hspace).trans ((scans_of_numberBody hn).plain (by decide)), hdepth⟩
  case h_6 left hspace =>
    obtain ⟨text, htext, rfl⟩ := exists_of_wrap h (fun text => .string (String.ofList text))
      fun _ _ => rfl
    exact ⟨(scans_of_skipSpace hspace).trans ((scans_of_stringBody htext).cons rfl), hdepth⟩
  case h_7 left hspace =>
    split at h
    case h_1 => cases h
    case h_2 => cases h
    case h_3 depth hone =>
      obtain ⟨values, hvalues, rfl⟩ := exists_of_wrap h .array fun _ _ => rfl
      have hinner : 0 < depth := Nat.pos_of_ne_zero fun h => hone (by omega)
      obtain ⟨hscans, hheights⟩ := scans_of_items (P := (·.height < depth))
        (fun _ _ _ => scans_of_value hinner) hvalues
      refine ⟨(scans_of_skipSpace hspace).trans (hscans.plain (by decide)), ?_⟩
      have hheight := (Value.heightItems_le_iff values (depth - 1)).2 fun item hitem =>
        Nat.le_pred_of_lt (hheights item hitem)
      rw [Value.height]
      omega
  case h_8 left hspace =>
    split at h
    case h_1 => cases h
    case h_2 => cases h
    case h_3 depth hone =>
      obtain ⟨members, hmembers, rfl⟩ := exists_of_wrap h .object fun _ _ => rfl
      have hinner : 0 < depth := Nat.pos_of_ne_zero fun h => hone (by omega)
      obtain ⟨hscans, hheights⟩ := scans_of_fields (P := (·.height < depth))
        (fun _ _ _ => scans_of_value hinner) hmembers
      refine ⟨(scans_of_skipSpace hspace).trans (hscans.plain (by decide)), ?_⟩
      have hheight := (Value.heightFields_le_iff members (depth - 1)).2 fun field hfield =>
        Nat.le_pred_of_lt (hheights field hfield)
      rw [Value.height]
      omega
  case h_9 c left _ _ _ _ _ _ _ hspace =>
    split at h
    case isTrue =>
      obtain ⟨n, hn, rfl⟩ := exists_of_wrap h .number fun _ _ => rfl
      exact ⟨(scans_of_skipSpace hspace).trans (scans_of_numberBody hn), hdepth⟩
    case isFalse => cases h

/-- Whether a text may be JSON as far as its strings go: none is left open, and only plain characters
stand between them. -/
def Lexed (s : List Char) : Prop :=
  Mode.outside.scan s = some .outside

instance (s : List Char) : Decidable (Lexed s) :=
  inferInstanceAs (Decidable (_ = _))

theorem Scans.lexed {s : List Char} (h : Scans .outside s []) : Lexed s := by
  obtain ⟨front, hs, hfront⟩ := h
  rw [List.append_nil] at hs
  exact hs ▸ hfront

theorem lexed_of_readRaw {text : String} {v : Value} (h : readRaw text = .ok v) :
    Lexed text.toList ∧ v.height < depthLimit := by
  obtain ⟨⟨result, rest⟩, hvalue, hrest⟩ := exists_of_bind_eq_ok h
  obtain ⟨hscans, hheight⟩ := scans_of_value (by decide) hvalue
  dsimp only at hrest
  split at hrest
  case h_1 hspace =>
    obtain rfl := Except.ok.inj hrest
    exact ⟨(hscans.trans (scans_of_skipSpace hspace)).lexed, hheight⟩
  case h_2 => cases hrest

/-- Whether a text is JSON. -/
def Readable (text : String) : Prop :=
  ∃ v, read text = .ok v

theorem readable_iff_isSome {text : String} : Readable text ↔ (readRaw text).toOption.isSome := by
  rw [Readable, read]
  cases readRaw text with
  | error fault => exact iff_of_false (fun ⟨v, h⟩ => nomatch h) (by simp [Except.toOption])
  | ok v => exact iff_of_true ⟨v.settle, rfl⟩ rfl

theorem readable_iff_isSome_read {text : String} : Readable text ↔ (read text).toOption.isSome := by
  rw [Readable]
  cases read text with
  | error fault => exact iff_of_false (fun ⟨v, h⟩ => nomatch h) (by simp [Except.toOption])
  | ok v => exact iff_of_true ⟨v, rfl⟩ rfl

theorem Readable.lexed {text : String} (h : Readable text) : Lexed text.toList := by
  rw [readable_iff_isSome] at h
  cases hread : readRaw text with
  | error fault =>
    rw [hread] at h
    cases h
  | ok v => exact (lexed_of_readRaw hread).1

end ThemeSection.Json
