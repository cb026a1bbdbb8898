import Mathlib.Data.List.Basic
import Mathlib.Tactic.IntervalCases
import ThemeSection.Json.Printer
import ThemeSection.Json.Reader

/-!
Numbers in JSON text. A number is written with digits and a few signs, and its text is read up to
the end whatever comes after it, so what it reads as does not depend on where it stands. That need
not be the number that was written: reading rounds more than once, and a number that is too large is
refused. The counts and the ratings of a schema come back as they are.
-/

namespace ThemeSection.Json

/-- What follows a value in a text over several lines: a comma, a line break or nothing. -/
def Ends (rest : List Char) : Prop :=
  ∀ c ∈ rest.head?, c = ',' ∨ c = '\n'

theorem Ends.nil : Ends [] := by simp [Ends]

theorem Ends.head_not {rest : List Char} (h : Ends rest) {p : Char → Bool}
    (hcomma : p ',' = false) (hline : p '\n' = false) : rest.head?.any p = false := by
  cases rest with
  | nil => rfl
  | cons c rest =>
    rcases h c rfl with rfl | rfl
    · exact hcomma
    · exact hline

theorem Ends.startsExponent {rest : List Char} (h : Ends rest) : startsExponent rest = false := by
  cases rest with
  | nil => rfl
  | cons c rest => rcases h c rfl with rfl | rfl <;> rfl

theorem Ends.head?_ne_point {rest : List Char} (h : Ends rest) : (rest.head? == some '.') = false := by
  cases rest with
  | nil => rfl
  | cons c rest => rcases h c rfl with rfl | rfl <;> rfl

theorem takeWhile_isDigit_append {digits rest : List Char} (hdigits : ∀ c ∈ digits, c.isDigit)
    (hrest : rest.head?.any Char.isDigit = false) :
    (digits ++ rest).takeWhile Char.isDigit = digits ∧
      (digits ++ rest).dropWhile Char.isDigit = rest := by
  have htail : rest.takeWhile Char.isDigit = [] ∧ rest.dropWhile Char.isDigit = rest := by
    cases rest with
    | nil => simp
    | cons c rest => simp_all
  rw [List.takeWhile_append_of_pos hdigits, List.dropWhile_append_of_pos hdigits, htail.1, htail.2,
    List.append_nil]
  exact ⟨rfl, rfl⟩

/-- At least one digit. -/
structure Digital (s : List Char) : Prop where
  digits : ∀ c ∈ s, c.isDigit
  nonempty : s ≠ []

theorem Digital.toDigits (n : Nat) : Digital (Nat.toDigits 10 n) where
  digits := fun _ hc => Nat.isDigit_of_mem_toDigits (by omega) (by omega) hc
  nonempty := Nat.toDigits_ne_nil

theorem Digital.append {s t : List Char} (hs : Digital s) (ht : ∀ c ∈ t, c.isDigit) :
    Digital (s ++ t) where
  digits := fun c hc => (List.mem_append.1 hc).elim (hs.digits c) (ht c)
  nonempty := by simp [hs.nonempty]

theorem isDigit_of_mem_zeros {n : Nat} : ∀ c ∈ List.replicate n '0', c.isDigit := by
  intro c hc
  rw [List.eq_of_mem_replicate hc]
  rfl

/-- The digits of a whole number: a zero comes first only if it stands alone. -/
structure Whole (s : List Char) : Prop extends Digital s where
  leading : s.head? = some '0' → s = ['0']

/-- No number but zero is written with a zero in front. -/
theorem head_toDigits {n : Nat} (h : 0 < n) : ∃ c rest, Nat.toDigits 10 n = c :: rest ∧ c ≠ '0' := by
  induction n using Nat.strongRecOn with
  | ind n ih =>
    by_cases hn : n < 10
    · refine ⟨n.digitChar, [], Nat.toDigits_of_lt_base hn, ?_⟩
      interval_cases n <;> decide
    · obtain ⟨c, rest, heq, hc⟩ := ih (n / 10) (by omega) (by omega)
      exact ⟨c, rest ++ [(n % 10).digitChar],
        by rw [Nat.toDigits_of_base_le (by omega) (by omega), heq, List.cons_append], hc⟩

theorem whole_toDigits (n : Nat) : Whole (Nat.toDigits 10 n) where
  toDigital := .toDigits n
  leading := by
    intro hhead
    rcases Nat.eq_zero_or_pos n with rfl | hn
    · exact Nat.toDigits_zero 10
    · obtain ⟨c, rest, heq, hc⟩ := head_toDigits hn
      rw [heq] at hhead
      exact absurd (Option.some.inj hhead) hc

/-- What is taken from the front of a number, or put behind one that is not zero. -/
theorem Whole.of_head {s t : List Char} (hs : Digital s) (ht : Whole t) (hhead : s.head? = t.head?)
    (hzero : t ≠ ['0']) : Whole s where
  toDigital := hs
  leading := fun h => absurd (ht.leading (hhead ▸ h)) hzero

/-- A number without its sign: digits, perhaps a point and places, perhaps an exponent. -/
inductive NumberText : List Char → Prop
  | whole {whole : List Char} (h : Whole whole) : NumberText whole
  | places {whole places : List Char} (h : Whole whole) (hplaces : Digital places) :
    NumberText (whole ++ '.' :: places)
  | exponent {whole digits : List Char} {sign : Char} (h : Whole whole)
    (hsign : sign = '+' ∨ sign = '-') (hdigits : Digital digits) :
    NumberText (whole ++ 'e' :: sign :: digits)
  | both {whole places digits : List Char} {sign : Char} (h : Whole whole)
    (hplaces : Digital places) (hsign : sign = '+' ∨ sign = '-') (hdigits : Digital digits) :
    NumberText (whole ++ '.' :: (places ++ 'e' :: sign :: digits))

theorem Digital.exists_cons {s : List Char} (h : Digital s) :
    ∃ c rest, s = c :: rest ∧ c.isDigit := by
  obtain ⟨c, rest, rfl⟩ := List.exists_cons_of_ne_nil h.nonempty
  exact ⟨c, rest, rfl, h.digits c List.mem_cons_self⟩

theorem Whole.singleton {c : Char} (h : c.isDigit) : Whole [c] where
  digits := by simpa using h
  nonempty := List.cons_ne_nil c []
  leading := by simp

theorem NumberText.exists_digit {s : List Char} (h : NumberText s) :
    ∃ c rest, s = c :: rest ∧ c.isDigit := by
  have hopen {whole : List Char} (hwhole : Whole whole) (tail : List Char) :
      ∃ c rest, whole ++ tail = c :: rest ∧ c.isDigit := by
    obtain ⟨c, rest, rfl, hc⟩ := hwhole.exists_cons
    exact ⟨c, rest ++ tail, rfl, hc⟩
  cases h with
  | whole h => exact h.exists_cons
  | places h => exact hopen h _
  | exponent h => exact hopen h _
  | both h => exact hopen h _

/-- The characters of a number without its sign. -/
theorem NumberText.chars {s : List Char} (h : NumberText s) :
    ∀ c ∈ s, c.isDigit ∨ c ∈ ['.', 'e', '+', '-'] := by
  intro c hc
  have hsign {sign : Char} (h : sign = '+' ∨ sign = '-') : sign ∈ ['.', 'e', '+', '-'] := by
    rcases h with rfl | rfl <;> decide
  cases h with
  | whole h => exact Or.inl (h.digits c hc)
  | places h hplaces =>
    rcases List.mem_append.1 hc with hc | hc
    · exact Or.inl (h.digits c hc)
    rcases List.mem_cons.1 hc with rfl | hc
    · exact Or.inr (by decide)
    · exact Or.inl (hplaces.digits c hc)
  | exponent h hs hdigits =>
    rcases List.mem_append.1 hc with hc | hc
    · exact Or.inl (h.digits c hc)
    rcases List.mem_cons.1 hc with rfl | hc
    · exact Or.inr (by decide)
    rcases List.mem_cons.1 hc with rfl | hc
    · exact Or.inr (hsign hs)
    · exact Or.inl (hdigits.digits c hc)
  | both h hplaces hs hdigits =>
    rcases List.mem_append.1 hc with hc | hc
    · exact Or.inl (h.digits c hc)
    rcases List.mem_cons.1 hc with rfl | hc
    · exact Or.inr (by decide)
    rcases List.mem_append.1 hc with hc | hc
    · exact Or.inl (hplaces.digits c hc)
    rcases List.mem_cons.1 hc with rfl | hc
    · exact Or.inr (by decide)
    rcases List.mem_cons.1 hc with rfl | hc
    · exact Or.inr (hsign hs)
    · exact Or.inl (hdigits.digits c hc)

theorem numberText_scientific (d : Decimal.Digits) : NumberText d.scientific.toList := by
  obtain ⟨first, rest, htext, hfirst⟩ := (Digital.toDigits d.digits).exists_cons
  have hall := (Digital.toDigits d.digits).digits
  rw [htext] at hall
  have hpower (power : Int) : Digital (toString power.natAbs).toList := by
    rw [show toString power.natAbs = power.natAbs.repr from rfl, Nat.toList_repr]
    exact .toDigits _
  have hsign (power : Int) : ∃ sign : Char, (sign = '+' ∨ sign = '-') ∧
      (if power ≥ 0 then "+" else "-") = String.ofList [sign] := by
    split
    · exact ⟨'+', Or.inl rfl, rfl⟩
    · exact ⟨'-', Or.inr rfl, rfl⟩
  rw [Decimal.Digits.scientific, htext]
  cases rest with
  | nil =>
    obtain ⟨sign, hor, hsign⟩ := hsign (d.exponent + ([first] : List Char).length - 1)
    simp only [hsign, String.toList_append, String.toList_ofList, List.append_assoc]
    exact .exponent (.singleton hfirst) hor (hpower _)
  | cons second rest =>
    obtain ⟨sign, hor, hsign⟩ := hsign (d.exponent + (first :: second :: rest).length - 1)
    simp only [hsign, String.toList_append, String.toList_ofList, List.append_assoc]
    exact .both (.singleton hfirst) ⟨(List.forall_mem_cons.1 hall).2, by simp⟩ hor (hpower _)

theorem whole_positional {d : Decimal.Digits} (h : d.exponent ≥ 0) :
    Whole d.positional.toList := by
  have htext := whole_toDigits d.digits
  rw [Decimal.Digits.positional, if_pos h, String.toList_ofList]
  split
  case isTrue => exact htext
  case isFalse hzero =>
    obtain ⟨c, rest, heq, hc⟩ := head_toDigits (n := d.digits) (by
      have : d.digits ≠ 0 := by simpa using hzero
      omega)
    exact .of_head (htext.append isDigit_of_mem_zeros) htext (by simp [heq]) (by simp [heq, hc])

theorem numberText_positional {d : Decimal.Digits} (h : ¬ d.exponent ≥ 0) :
    NumberText d.positional.toList := by
  have htext := whole_toDigits d.digits
  rw [Decimal.Digits.positional, if_neg h]
  dsimp only
  generalize hplaces : (-d.exponent).toNat = places
  generalize Nat.toDigits 10 d.digits = text at htext ⊢
  split
  case isTrue hlong =>
    have hhead : (text.take (text.length - places)).head? = text.head? := by
      rw [List.head?_take, if_neg (by omega)]
    have hzero : text ≠ ['0'] := by
      rintro rfl
      rw [List.length_singleton] at hlong
      omega
    have hstart : Digital (text.take (text.length - places)) :=
      ⟨fun c hc => htext.digits c (List.mem_of_mem_take hc), by
        rw [Ne, List.take_eq_nil_iff]
        rintro (heq | rfl)
        · omega
        · simp at hlong⟩
    have hend : Digital (text.drop (text.length - places)) :=
      ⟨fun c hc => htext.digits c (List.mem_of_mem_drop hc), by
        rw [Ne, List.drop_eq_nil_iff]
        omega⟩
    rw [String.toList_ofList]
    exact .places (.of_head hstart htext hhead hzero) hend
  case isFalse =>
    have hend : Digital (List.replicate (places - text.length) '0' ++ text) :=
      ⟨fun c hc => (List.mem_append.1 hc).elim (isDigit_of_mem_zeros c) (htext.digits c),
        by simp [htext.nonempty]⟩
    rw [String.toList_ofList]
    exact .places (.singleton (c := '0') rfl) hend

theorem numberText_marked (x : Float) : ∃ s, NumberText s ∧
    ((Decimal.marked x).toList = s ∨ (Decimal.marked x).toList = '-' :: s) := by
  have hsigned (text : String) (h : NumberText text.toList) : ∃ s, NumberText s ∧
      ((if Decimal.isNegative x then "-" ++ text else text).toList = s ∨
        (if Decimal.isNegative x then "-" ++ text else text).toList = '-' :: s) := by
    refine ⟨text.toList, h, ?_⟩
    split
    · exact Or.inr (by simp)
    · exact Or.inl rfl
  rw [Decimal.marked]
  refine hsigned _ ?_
  split
  · exact numberText_scientific _
  split
  case isTrue h =>
    rw [String.toList_append]
    exact .places (whole_positional h) ⟨by decide, by decide⟩
  case isFalse h => exact numberText_positional h

/-- A number is printed as digits, perhaps with a sign, or it has no JSON form. -/
theorem render_cases (n : Number) : n.render = "null" ∨ ∃ s, NumberText s ∧
    (n.render.toList = s ∨ n.render.toList = '-' :: s) := by
  cases n with
  | int n =>
    right
    cases n with
    | ofNat m => exact ⟨_, .whole (whole_toDigits m), Or.inl Nat.toList_repr⟩
    | negSucc m =>
      refine ⟨_, .whole (whole_toDigits (m + 1)), Or.inr ?_⟩
      rw [show (Number.int (.negSucc m)).render = "-" ++ (m + 1).repr from rfl,
        String.toList_append, Nat.toList_repr]
      rfl
  | float x =>
    rw [Number.render]
    split
    · exact Or.inl rfl
    · exact Or.inr (numberText_marked x)

theorem render_ne_nil (n : Number) : n.render.toList ≠ [] := by
  rcases render_cases n with heq | ⟨s, hs, heq⟩
  · rw [heq]
    decide
  · obtain ⟨c, rest, rfl, -⟩ := hs.exists_digit
    rcases heq with heq | heq <;> rw [heq] <;> exact List.cons_ne_nil _ _

/-- Printed numbers hold none of the characters that structure a text. -/
theorem chars_render (n : Number) {p : Char → Bool} (hdigit : ∀ c, c.isDigit → p c)
    (hothers : "-.e+null".toList.all p) : ∀ c ∈ n.render.toList, p c := by
  intro c hc
  have hlist := List.all_eq_true.1 hothers
  rcases render_cases n with heq | ⟨s, hs, heq⟩
  · rw [heq] at hc
    exact hlist c (List.mem_append_right "-.e+".toList hc)
  have hmem : c = '-' ∨ c ∈ s := by
    rcases heq with heq | heq
    · exact Or.inr (heq ▸ hc)
    · exact List.mem_cons.1 (heq ▸ hc)
  rcases hmem with rfl | hmem
  · exact hlist '-' (by decide)
  rcases hs.chars c hmem with hc | hc
  · exact hdigit c hc
  · refine hlist c ?_
    simp only [List.mem_cons, List.not_mem_nil, or_false] at hc
    rcases hc with rfl | rfl | rfl | rfl <;> decide

/-- The reader takes all of the text, or refuses it, whatever follows. -/
def Consumes (read : ItemReader Number) (s : List Char) : Prop :=
  ∃ outcome : Option Number, ∀ rest, Ends rest →
    (read (s ++ rest)).toOption = outcome.map fun n => (n, rest)

section

variable (negative : Bool) (significand : Nat) (e : Int)

theorem consumes_floatOf : Consumes (floatOf negative significand e) [] := by
  refine ⟨(floatOf negative significand e []).toOption.map (·.1), fun rest _ => ?_⟩
  simp only [List.nil_append, floatOf]
  cases scale 8 (Float.ofNat significand) e <;> rfl

theorem consumes_numberExponent {sign : Char} (hsign : sign = '+' ∨ sign = '-')
    {digits : List Char} (hdigits : Digital digits) :
    Consumes (numberExponent negative significand e) ('e' :: sign :: digits) := by
  obtain ⟨c, others, rfl, hc⟩ := hdigits.exists_cons
  rcases habsorb : absorb maxExponent 0 (c :: others) with ⟨n, extra⟩
  obtain ⟨outcome, hfloat⟩ :=
    consumes_floatOf negative significand (if sign == '-' then e - n else e + n)
  refine ⟨if extra.isEmpty then outcome
    else if significand != 0 && !(sign == '-') then none
    else some (.float (if negative then -0.0 else 0.0)), fun rest hrest => ?_⟩
  obtain ⟨htake, hdrop⟩ := takeWhile_isDigit_append hdigits.digits
    (hrest.head_not (p := Char.isDigit) (by decide) (by decide))
  have hfloat := hfloat rest hrest
  rcases hsign with rfl | rfl
  all_goals
    simp only [List.cons_append, List.nil_append, numberExponent, List.drop_one, List.tail_cons, hc]
      at htake hdrop hfloat ⊢
    simp only [htake, hdrop, habsorb]
    split_ifs <;> simp_all [Except.toOption]

theorem consumes_numberPlaces {places : List Char} (hplaces : Digital places) :
    Consumes (numberPlaces negative significand e) ('.' :: places) := by
  have hfilled : places.isEmpty = false := by simpa using hplaces.nonempty
  rcases habsorb : absorb maxWord significand places with ⟨n, extra⟩
  obtain ⟨outcome, hfloat⟩ :=
    consumes_floatOf negative n (e - (places.length - extra.length : Nat))
  refine ⟨outcome, fun rest hrest => ?_⟩
  obtain ⟨htake, hdrop⟩ := takeWhile_isDigit_append hplaces.digits
    (hrest.head_not (p := Char.isDigit) (by decide) (by decide))
  simp only [List.cons_append, numberPlaces, List.drop_one, List.tail_cons, htake, hdrop, hfilled,
    habsorb, hrest.startsExponent, Bool.false_eq_true, if_false]
  exact hfloat rest hrest

theorem consumes_numberPlaces_exponent {places digits : List Char} (hplaces : Digital places)
    {sign : Char} (hsign : sign = '+' ∨ sign = '-') (hdigits : Digital digits) :
    Consumes (numberPlaces negative significand e) ('.' :: (places ++ 'e' :: sign :: digits)) := by
  have hfilled : places.isEmpty = false := by simpa using hplaces.nonempty
  rcases habsorb : absorb maxWord significand places with ⟨n, extra⟩
  obtain ⟨outcome, hexponent⟩ := consumes_numberExponent negative n
    (e - (places.length - extra.length : Nat)) hsign hdigits
  refine ⟨outcome, fun rest hrest => ?_⟩
  have hstop : ('e' :: sign :: (digits ++ rest)).head?.any Char.isDigit = false := rfl
  obtain ⟨htake, hdrop⟩ := takeWhile_isDigit_append hplaces.digits hstop
  have hstarts : startsExponent ('e' :: sign :: (digits ++ rest)) = true := rfl
  simp only [List.cons_append, List.append_assoc, numberPlaces, List.drop_one, List.tail_cons,
    htake, hdrop, hfilled, habsorb, hstarts, Bool.false_eq_true, if_false, if_true]
  exact hexponent rest hrest

end

/-- How a number is read on after its first digits. -/
theorem numberBody_whole (negative : Bool) {whole tail : List Char} (h : Whole whole)
    (htail : tail.head?.any Char.isDigit = false) :
    numberBody negative (whole ++ tail) =
      (let (n, extra) := absorb maxWord 0 whole
      if tail.head? == some '.' then numberPlaces negative n extra.length tail
      else if startsExponent tail then numberExponent negative n extra.length tail
      else if !extra.isEmpty then floatOf negative n extra.length tail
      else if !negative then .ok (.int n, tail)
      else if n == 0 || n > 0x8000000000000000 then .ok (.float (-(Float.ofNat n)), tail)
      else .ok (.int (-(n : Int)), tail)) := by
  obtain ⟨c, others, rfl, hc⟩ := h.exists_cons
  have hzero : (c == '0' && (others ++ tail).head?.any Char.isDigit) = false := by
    by_cases hc : c = '0'
    · subst hc
      obtain rfl := (List.cons.inj (h.leading rfl)).2
      simpa using htail
    · simp [hc]
  obtain ⟨htake, hdrop⟩ := takeWhile_isDigit_append h.digits htail
  rw [List.cons_append] at htake hdrop ⊢
  rw [numberBody]
  simp only [hc, hzero, htake, hdrop, Bool.not_true, Bool.false_eq_true, if_false]

/-- The text of a number is read to its end. -/
theorem consumes_numberBody (negative : Bool) {s : List Char} (h : NumberText s) :
    Consumes (numberBody negative) s := by
  -- The pieces after the first digits open with a letter or a point, and what follows with neither
  -- of them nor with a digit.
  have hpoint (tail : List Char) : ('.' :: tail).head?.any Char.isDigit = false := rfl
  have hletter (tail : List Char) : ('e' :: tail).head?.any Char.isDigit = false := rfl
  have hstarts (tail : List Char) : startsExponent ('e' :: tail) = true := rfl
  cases h with
  | whole h =>
    rcases habsorb : absorb maxWord 0 s with ⟨n, extra⟩
    obtain ⟨outcome, hfloat⟩ := consumes_floatOf negative n extra.length
    refine ⟨if !extra.isEmpty then outcome
      else if !negative then some (.int n)
      else if n == 0 || n > 0x8000000000000000 then some (.float (-(Float.ofNat n)))
      else some (.int (-(n : Int))), fun rest hrest => ?_⟩
    have hfloat := hfloat rest hrest
    rw [List.nil_append] at hfloat
    rw [numberBody_whole negative h (hrest.head_not (by decide) (by decide))]
    simp only [habsorb, hrest.head?_ne_point, hrest.startsExponent, Bool.false_eq_true, if_false]
    split_ifs
    · exact hfloat
    all_goals rfl
  | @places whole places h hplaces =>
    obtain ⟨outcome, hread⟩ := consumes_numberPlaces negative (absorb maxWord 0 whole).1
      (absorb maxWord 0 whole).2.length hplaces
    refine ⟨outcome, fun rest hrest => ?_⟩
    rw [List.append_assoc, List.cons_append, numberBody_whole negative h (hpoint _)]
    exact hread rest hrest
  | @exponent whole digits sign h hsign hdigits =>
    obtain ⟨outcome, hread⟩ := consumes_numberExponent negative (absorb maxWord 0 whole).1
      (absorb maxWord 0 whole).2.length hsign hdigits
    refine ⟨outcome, fun rest hrest => ?_⟩
    rw [List.append_assoc, List.cons_append, numberBody_whole negative h (hletter _)]
    exact hread rest hrest
  | @both whole places digits sign h hplaces hsign hdigits =>
    obtain ⟨outcome, hread⟩ := consumes_numberPlaces_exponent negative (absorb maxWord 0 whole).1
      (absorb maxWord 0 whole).2.length hplaces hsign hdigits
    refine ⟨outcome, fun rest hrest => ?_⟩
    rw [List.append_assoc, List.cons_append, numberBody_whole negative h (hpoint _)]
    exact hread rest hrest

theorem skipSpace_cons {c : Char} (h : isSpace c = false) (rest : List Char) :
    skipSpace (c :: rest) = c :: rest := by
  rw [skipSpace, List.dropWhile_cons_of_neg (by simp [h])]

theorem isSpace_of_isDigit {c : Char} (h : c.isDigit) : isSpace c = false := by
  simp only [isSpace, Bool.or_eq_false_iff, beq_eq_false_iff_ne]
  refine ⟨⟨⟨?_, ?_⟩, ?_⟩, ?_⟩ <;> rintro rfl <;> simp at h

/-- What the text of a number reads as: a number, null, or nothing if it is refused. -/
def Number.again? (n : Number) : Option Value :=
  (readRaw n.render).toOption

/-- A number that comes back from its text as it is. -/
def Number.Exact (n : Number) : Prop :=
  readRaw n.render = .ok (.number n)

/-- A digit opens a number. -/
theorem value_of_isDigit {c : Char} (h : c.isDigit) (depth : Nat) (rest : List Char) :
    value depth (c :: rest) =
      (numberBody false (c :: rest)).map fun (n, rest) => (.number n, rest) := by
  rw [value.eq_def, skipSpace_cons (isSpace_of_isDigit h)]
  split
  case h_1 hnil => cases hnil
  case h_9 hcons =>
    obtain ⟨rfl, rfl⟩ := List.cons.inj hcons
    rw [if_pos h]
    cases numberBody false (c :: rest) <;> rfl
  all_goals
    rename_i hcons
    obtain ⟨rfl, -⟩ := List.cons.inj hcons
    simp at h

theorem value_minus (depth : Nat) (rest : List Char) :
    value depth ('-' :: rest) =
      (numberBody true rest).map fun (n, rest) => (.number n, rest) := by
  rw [value.eq_def]
  change (numberBody true rest >>= _) = _
  cases numberBody true rest <;> rfl

/-- A printed number is read to its end, with the same outcome wherever it stands. -/
theorem consumes_render (n : Number) : ∃ outcome : Option Value,
    (outcome = some .null ∨ ∀ v ∈ outcome, ∃ m, v = .number m) ∧ ∀ depth rest, Ends rest →
      (value depth (n.render.toList ++ rest)).toOption = outcome.map fun v => (v, rest) := by
  rcases render_cases n with heq | ⟨s, hs, heq⟩
  · refine ⟨some .null, Or.inl rfl, fun depth rest _ => ?_⟩
    rw [heq, value.eq_def]
    rfl
  -- The sign decides which of two readers takes the rest.
  have hread : ∃ negative, Consumes (numberBody negative) s ∧ ∀ depth rest,
      value depth (n.render.toList ++ rest) =
        (numberBody negative (s ++ rest)).map fun (n, rest) => (.number n, rest) := by
    rcases heq with heq | heq
    · refine ⟨false, consumes_numberBody false hs, fun depth rest => ?_⟩
      obtain ⟨c, others, rfl, hc⟩ := hs.exists_digit
      rw [heq, List.cons_append, value_of_isDigit hc]
    · refine ⟨true, consumes_numberBody true hs, fun depth rest => ?_⟩
      rw [heq, List.cons_append, value_minus]
  obtain ⟨negative, ⟨outcome, hbody⟩, hread⟩ := hread
  refine ⟨outcome.map .number, Or.inr ?_, fun depth rest hrest => ?_⟩
  · intro v hv
    obtain ⟨m, -, rfl⟩ := Option.map_eq_some_iff.1 hv
    exact ⟨m, rfl⟩
  · have hbody := hbody rest hrest
    rw [hread]
    cases hresult : numberBody negative (s ++ rest) with
    | error fault =>
      rw [hresult] at hbody
      cases outcome with
      | none => rfl
      | some m => cases hbody
    | ok result =>
      rw [hresult] at hbody
      cases outcome with
      | none => cases hbody
      | some m =>
        obtain rfl := Option.some.inj hbody
        rfl

theorem readRaw_of_value {text : String} {outcome : Option Value}
    (h : (value depthLimit text.toList).toOption = outcome.map fun v => (v, [])) :
    (readRaw text).toOption = outcome := by
  rw [readRaw]
  cases hresult : value depthLimit text.toList with
  | error fault =>
    rw [hresult] at h
    cases outcome with
    | none => rfl
    | some m => cases h
  | ok result =>
    rw [hresult] at h
    cases outcome with
    | none => cases h
    | some m =>
      obtain rfl := Option.some.inj h
      rfl

theorem again?_eq {n : Number} {outcome : Option Value}
    (h : ∀ depth rest, Ends rest →
      (value depth (n.render.toList ++ rest)).toOption = outcome.map fun v => (v, rest)) :
    n.again? = outcome :=
  readRaw_of_value (by simpa using h depthLimit [] .nil)

/-- What a number reads back as, wherever it stands. -/
theorem value_render (n : Number) (depth : Nat) {rest : List Char} (hrest : Ends rest) :
    (value depth (n.render.toList ++ rest)).toOption = n.again?.map fun v => (v, rest) := by
  obtain ⟨outcome, -, hread⟩ := consumes_render n
  rw [hread depth rest hrest, again?_eq hread]

/-- A number reads back as a number or as null, if at all. -/
theorem again?_number (n : Number) {v : Value} (h : n.again? = some v) :
    v = .null ∨ ∃ m, v = .number m := by
  obtain ⟨outcome, hkind, hread⟩ := consumes_render n
  rw [again?_eq hread] at h
  subst h
  rcases hkind with hnull | hnumber
  · exact Or.inl (Option.some.inj hnull)
  · exact Or.inr (hnumber v rfl)

theorem Number.Exact.again? {n : Number} (h : n.Exact) : n.again? = some (.number n) := by
  rw [Number.again?, h]
  rfl

theorem exact_of_numberBody {n : Number} {c : Char} {others : List Char}
    (htext : n.render.toList = c :: others) (hc : c.isDigit)
    (h : numberBody false (c :: others) = .ok (n, [])) : n.Exact := by
  rw [Number.Exact, readRaw, htext, value_of_isDigit hc, h]
  rfl

/-- Digits of a number within the limit are all absorbed. -/
theorem absorb_eq {limit : Nat} (digits : List Char) : ∀ n,
    Nat.ofDigitChars 10 digits n ≤ limit →
      absorb limit n digits = (Nat.ofDigitChars 10 digits n, []) := by
  have hgrow (digits : List Char) (n : Nat) : n ≤ Nat.ofDigitChars 10 digits n := by
    rw [Nat.ofDigitChars_eq_ofDigitChars_zero]
    exact (Nat.le_mul_of_pos_left n (Nat.pow_pos (by decide))).trans (Nat.le_add_right _ _)
  induction digits with
  | nil => intro n _; rw [absorb, Nat.ofDigitChars_nil]
  | cons c digits ih =>
    intro n h
    rw [Nat.ofDigitChars_cons] at h ⊢
    have hnext := (hgrow digits _).trans h
    rw [absorb, if_neg (by omega), ih _ h]

/-- A count of at most 64 bits comes back as it is. -/
theorem exact_ofNat {n : Nat} (h : n ≤ maxWord) : (Number.int n).Exact := by
  obtain ⟨c, others, hcons, hc⟩ := (Digital.toDigits n).exists_cons
  refine exact_of_numberBody (Nat.toList_repr.trans hcons) hc ?_
  have hnone : ([] : List Char).head?.any Char.isDigit = false := rfl
  have hread := numberBody_whole false (whole_toDigits n) hnone
  rw [absorb_eq _ _ (by rwa [Nat.ofDigitChars_ten_toDigits]), Nat.ofDigitChars_ten_toDigits,
    List.append_nil] at hread
  exact hcons ▸ hread

theorem render_tenths {k : Nat} (h : k ≤ 50) :
    (Number.float (Float.ofNat k / 10.0)).render.toList =
      [Nat.digitChar (k / 10), '.', Nat.digitChar (k % 10)] := by
  have hall : ∀ k : Fin 51, (Number.float (Float.ofNat k / 10.0)).render.toList =
      [Nat.digitChar (k / 10), '.', Nat.digitChar (k % 10)] := by
    decide +kernel
  exact hall ⟨k, by omega⟩

theorem isDigit_digitChar {n : Nat} (h : n < 10) : (Nat.digitChar n).isDigit := by
  interval_cases n <;> decide

theorem floatOf_tenths (k : Nat) (rest : List Char) :
    floatOf false k (-1) rest = .ok (.float (Float.ofNat k / 10.0), rest) := by
  have hten : Float.ofScientific 1 false 1 = 10.0 := by decide +kernel
  have hscale : scale 8 (Float.ofNat k) (-1) = some (Float.ofNat k / 10.0) := by
    rw [← hten]
    rfl
  rw [floatOf, hscale]
  rfl

theorem numberPlaces_tenths {k : Nat} (h : k ≤ 50) :
    numberPlaces false (k / 10) 0 ['.', Nat.digitChar (k % 10)] =
      .ok (.float (Float.ofNat k / 10.0), []) := by
  have hdigit : (Nat.digitChar (k % 10)).isDigit := isDigit_digitChar (by omega)
  have hvalue : Nat.ofDigitChars 10 [Nat.digitChar (k % 10)] (k / 10) = k := by
    rw [Nat.ofDigitChars_cons_digitChar_of_lt_ten (by omega), Nat.ofDigitChars_nil]
    omega
  have habsorb : absorb maxWord (k / 10) [Nat.digitChar (k % 10)] = (k, []) := by
    rw [absorb_eq _ _ (by rw [hvalue, maxWord]; omega), hvalue]
  rw [numberPlaces]
  simp only [List.drop_one, List.tail_cons, List.takeWhile_cons_of_pos hdigit,
    List.dropWhile_cons_of_pos hdigit, List.takeWhile_nil, List.dropWhile_nil, habsorb]
  exact floatOf_tenths k []

/-- Tenths come back as the same floating-point number: reading divides by the same power of ten. -/
theorem exact_tenths {k : Nat} (h : k ≤ 50) : (Number.float (Float.ofNat k / 10.0)).Exact := by
  have hdigit : (Nat.digitChar (k / 10)).isDigit := isDigit_digitChar (by omega)
  refine exact_of_numberBody (render_tenths h) hdigit ?_
  have hvalue : Nat.ofDigitChars 10 [Nat.digitChar (k / 10)] 0 = k / 10 := by
    rw [Nat.ofDigitChars_cons_digitChar_of_lt_ten (by omega), Nat.ofDigitChars_nil]
    omega
  have hpoint : ['.', Nat.digitChar (k % 10)].head?.any Char.isDigit = false := rfl
  have hread := numberBody_whole false (.singleton hdigit) hpoint
  rw [absorb_eq _ _ (by rw [hvalue, maxWord]; omega), hvalue] at hread
  exact hread.trans (numberPlaces_tenths h)

end ThemeSection.Json
