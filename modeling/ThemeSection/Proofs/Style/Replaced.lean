import Mathlib.Data.UInt
import ThemeSection.Proofs.Style.Background

/-!
What a style reads as once another source is the address of its background image. Up to the place
where the source has been put the style is as it was, and that place begins with the letters with
which the old address began. So no declaration that had no address gets one from what follows it, but
for one that is left open within an address up to there; that address then ends with the new source.
-/

namespace ThemeSection.Style

open Liquid

variable {s q r w w' z source after : List Char}

/-- A text that begins with the first two letters of `url(`, in any case. -/
def StartsUrl (w : List Char) : Prop :=
  ∃ c ∈ ['u', 'U'], ∃ d ∈ ['r', 'R'], ∃ rest, w = c :: d :: rest

theorem capital_of_toLower {c small capital : Char} (h : c.toLower = small)
    (hcase : small.val - ('a'.val - 'A'.val) = capital.val) : c = small ∨ c = capital := by
  unfold Char.toLower at h
  split at h
  case isTrue =>
    have hval : c.val + ('a'.val - 'A'.val) = small.val := congrArg Char.val h
    exact Or.inr (Char.ext ((eq_sub_of_add_eq hval).trans hcase))
  case isFalse => exact Or.inl h

/-- No part of a pattern from some place on begins like `url(`. -/
def Clear (pattern : List Char) : Prop :=
  ∀ suffix ∈ pattern.tails, suffix ≠ [] → ∀ c ∈ ['u', 'U'], ∀ d ∈ ['r', 'R'],
    Chars.stripFolded? (suffix.take 2) [c, d] = none

instance decidableClear (pattern : List Char) : Decidable (Clear pattern) :=
  inferInstanceAs (Decidable (∀ suffix ∈ pattern.tails, suffix ≠ [] → ∀ c ∈ ['u', 'U'],
    ∀ d ∈ ['r', 'R'], Chars.stripFolded? (suffix.take 2) [c, d] = none))

theorem stripFolded?_eq_none {pattern : List Char} {c d : Char}
    (h : Chars.stripFolded? (pattern.take 2) [c, d] = none) (rest : List Char) :
    Chars.stripFolded? pattern (c :: d :: rest) = none := by
  rcases pattern with _ | ⟨p, _ | ⟨p', pattern⟩⟩
  · cases h
  · simpa [Chars.stripFolded?] using h
  · simp only [List.take_succ_cons, List.take_zero, Chars.stripFolded?] at h ⊢
    split at h
    · split at h
      · cases h
      case isFalse hp' => rw [if_neg hp', ite_self]
    case isFalse hp => rw [if_neg hp]

theorem stripFolded?_append {pattern : List Char} (h : Clear pattern) (hw : StartsUrl w) (q : List Char) :
    Chars.stripFolded? pattern (q ++ w) = (Chars.stripFolded? pattern q).map (· ++ w) := by
  induction pattern generalizing q with
  | nil => rfl
  | cons p pattern ih =>
    have htail : Clear pattern := fun suffix hsuffix => h suffix (by simp_all)
    cases q with
    | cons c q =>
      rw [List.cons_append, Chars.stripFolded?, Chars.stripFolded?]
      split
      · exact ih htail q
      · rfl
    | nil =>
      obtain ⟨c, hc, d, hd, rest, rfl⟩ := hw
      have hself := h (p :: pattern) (by simp) (List.cons_ne_nil _ _) c hc d hd
      exact stripFolded?_eq_none hself rest

theorem StartsUrl.exists_cons (h : StartsUrl w) :
    ∃ c rest, w = c :: rest ∧ Chars.isBlank c = false ∧ isPlain c ∧ c ≠ ':' ∧ c ≠ ')' := by
  obtain ⟨c, hc, d, -, rest, rfl⟩ := h
  have hplain : ∀ c ∈ ['u', 'U'], Chars.isBlank c = false ∧ isPlain c ∧ c ≠ ':' ∧ c ≠ ')' := by decide
  exact ⟨c, d :: rest, rfl, hplain c hc⟩

/-- What a text without blanks at its start is after one that ends before it. -/
theorem dropWhile_isBlank_append (hw : StartsUrl w) (q : List Char) :
    (q ++ w).dropWhile Chars.isBlank = q.dropWhile Chars.isBlank ++ w := by
  obtain ⟨c, rest, rfl, hc, -⟩ := hw.exists_cons
  rw [List.dropWhile_append]
  split
  case isTrue hempty =>
    rw [List.isEmpty_iff.1 hempty, List.dropWhile_cons_of_neg (by simp [hc]), List.nil_append]
  case isFalse => rfl

theorem takeWhile_isBlank_append (hw : StartsUrl w) (q : List Char) :
    (q ++ w).takeWhile Chars.isBlank = q.takeWhile Chars.isBlank := by
  have hdrop := dropWhile_isBlank_append hw q
  have hwhole := (List.takeWhile_append_dropWhile (p := Chars.isBlank) (l := q ++ w)).trans
    (congrArg (· ++ w) (List.takeWhile_append_dropWhile (p := Chars.isBlank) (l := q)).symm)
  rw [hdrop, ← List.append_assoc] at hwhole
  exact List.append_cancel_right (List.append_cancel_right hwhole)

theorem afterProperty?_append (hw : StartsUrl w) (q : List Char) :
    afterProperty? (q ++ w) = (afterProperty? q).map (· ++ w) := by
  have hproperty : Clear "background".toList := by decide
  have himage : Clear "-image".toList := by decide
  unfold afterProperty?
  rw [stripFolded?_append hproperty hw]
  cases Chars.stripFolded? "background".toList q with
  | none => rfl
  | some rest =>
    have hnamed : (Chars.stripFolded? "-image".toList (rest ++ w)).getD (rest ++ w) =
        (Chars.stripFolded? "-image".toList rest).getD rest ++ w := by
      rw [stripFolded?_append himage hw]
      cases Chars.stripFolded? "-image".toList rest <;> rfl
    simp only [Option.map_some, Option.bind_eq_bind, Option.bind_some, hnamed,
      dropWhile_isBlank_append hw]
    cases ((Chars.stripFolded? "-image".toList rest).getD rest).dropWhile Chars.isBlank with
    | nil =>
      obtain ⟨c, rest, rfl, -, -, hc, -⟩ := hw.exists_cons
      rw [List.nil_append]
      split
      case h_1 heq => exact absurd (List.cons.inj heq).1 hc
      case h_2 => rfl
    | cons c more =>
      by_cases hc : c = ':'
      · subst hc
        rfl
      · rw [List.cons_append]
        split
        case h_1 heq => exact absurd (List.cons.inj heq).1 hc
        case h_2 =>
          split
          case h_1 heq => exact absurd (List.cons.inj heq).1 hc
          case h_2 => rfl

/-- A text without the quote at its start. -/
def unquoted : List Char → List Char
  | [] => []
  | c :: more => if isQuote c then more else c :: more

theorem unquoted_append (c : Char) (more w : List Char) :
    unquoted (c :: more ++ w) = unquoted (c :: more) ++ w := by
  rw [List.cons_append, unquoted, unquoted]
  split <;> rfl

/-- The address that plain characters make, with some in front of them. -/
def closed? (front y : List Char) : Option Address :=
  closeToken? (front ++ y.takeWhile isPlain) (y.dropWhile isPlain)

theorem address?_eq (s : List Char) :
    address? s = (closed? [] (unquoted (s.dropWhile Chars.isBlank))).or
      ((s.takeWhile Chars.isBlank).getLast?.bind fun blank =>
        closed? [blank] (s.dropWhile Chars.isBlank)) := by
  unfold address?
  dsimp only
  cases s.dropWhile Chars.isBlank <;> cases (s.takeWhile Chars.isBlank).getLast? <;> rfl

/-- Whether what follows `url(` comes to its end within the address, as far as can be seen. -/
def insideUrl (s : List Char) : Bool :=
  (unquoted (s.dropWhile Chars.isBlank)).all isPlain

/-- Whether the value of a declaration comes to its end within the address of some `url(`. -/
def endsInside : List Char → Bool
  | [] => false
  | c :: rest =>
    (Chars.stripFolded? "url(".toList (c :: rest)).any insideUrl || (c != ';' && endsInside rest)

/-- Whether a background declaration at the start of a text is still open at the end. -/
def opensHere (s : List Char) : Bool :=
  (afterProperty? s).any endsInside

/-- Whether a text leaves a background declaration open within the address of some `url(`. -/
def leavesOpen : List Char → Bool
  | [] => false
  | c :: rest => opensHere (c :: rest) || leavesOpen rest

/-- A source that can be the whole of an address. -/
structure Bare (source : List Char) : Prop where
  plain : ∀ c ∈ source, isPlain c
  nonempty : source ≠ []
  head : ∀ c ∈ source.head?, Chars.isBlank c = false
  last : ∀ c ∈ source.getLast?, Chars.isBlank c = false

/-- A text in which the source stands as an address from the start. -/
def shown (source after : List Char) : List Char :=
  "url(".toList ++ (source ++ ')' :: after)

theorem startsUrl_shown (source after : List Char) : StartsUrl (shown source after) :=
  ⟨'u', by decide, 'r', by decide, _, rfl⟩

/-- A text of plain characters is all that is taken of it before a parenthesis. -/
theorem takeWhile_isPlain {t : List Char} (ht : ∀ c ∈ t, isPlain c) (after : List Char) :
    (t ++ ')' :: after).takeWhile isPlain = t ∧ (t ++ ')' :: after).dropWhile isPlain = ')' :: after := by
  rw [List.takeWhile_append_of_pos ht, List.dropWhile_append_of_pos ht,
    List.takeWhile_cons_of_neg (by decide), List.dropWhile_cons_of_neg (by decide), List.append_nil]
  exact ⟨rfl, rfl⟩

/-- Where an address ends before a place, it is closed there or not, whatever comes after. -/
theorem closed?_seam (hw : StartsUrl w) (hw' : StartsUrl w') {y : List Char}
    (hy : ¬ ∀ c ∈ y, isPlain c) (front : List Char) (h : closed? front (y ++ w) = none) :
    closed? front (y ++ w') = none := by
  have hlength : (y.takeWhile isPlain).length ≠ y.length := fun heq => hy
    (List.takeWhile_eq_self_iff.1 ((List.takeWhile_prefix _).eq_of_length heq))
  have htake (t : List Char) : (y ++ t).takeWhile isPlain = y.takeWhile isPlain := by
    rw [List.takeWhile_append, if_neg hlength]
  cases hdrop : y.dropWhile isPlain with
  | nil => exact absurd (List.dropWhile_eq_nil_iff.1 hdrop) hy
  | cons e z =>
    have hrest (t : List Char) : (y ++ t).dropWhile isPlain = e :: (z ++ t) := by
      rw [List.dropWhile_append, hdrop]
      rfl
    rw [closed?, htake, hrest] at h ⊢
    generalize front ++ y.takeWhile isPlain = url at h ⊢
    unfold closeToken? at h ⊢
    cases hempty : url.isEmpty with
    | true => rfl
    | false =>
      rw [hempty, if_neg Bool.false_ne_true] at h
      rw [if_neg Bool.false_ne_true]
      dsimp only at h ⊢
      by_cases he : e == ')'
      · rw [if_pos he] at h
        cases h
      · rw [if_neg he, dropWhile_isBlank_append hw] at h
        rw [if_neg he, dropWhile_isBlank_append hw']
        cases hblank : z.dropWhile Chars.isBlank with
        | nil =>
          obtain ⟨c, rest, rfl, -, -, -, hc⟩ := hw'.exists_cons
          rw [List.nil_append]
          split
          case h_1 heq => exact absurd (List.cons.inj heq).1 hc
          case h_2 => rfl
        | cons g more =>
          by_cases hg : g = ')'
          · subst hg
            rw [hblank] at h
            have hquote : isQuote e = false := by
              cases hquote : isQuote e with
              | false => rfl
              | true =>
                rw [hquote] at h
                cases h
            rw [hquote]
            rfl
          · rw [List.cons_append]
            split
            case h_1 heq => exact absurd (List.cons.inj heq).1 hg
            case h_2 => rfl

section

variable (hsource : Bare source)
include hsource

theorem trimEnd_source (z : List Char) : Chars.trimEnd (z ++ source) = z ++ source := by
  obtain ⟨init, d, rfl⟩ := (List.eq_nil_or_concat' source).resolve_left hsource.nonempty
  have hd : Chars.isBlank d = false := hsource.last d (by simp)
  rw [← List.append_assoc, Chars.trimEnd_concat, hd]
  rfl

/-- An address that ends with the source is read to the end. -/
theorem closeToken?_source (z after : List Char) :
    closeToken? (z ++ source) (')' :: after) = some ⟨z ++ source, after⟩ := by
  have hne : (z ++ source).isEmpty = false := by simp [hsource.nonempty]
  rw [closeToken?, trimEnd_source hsource, hne, if_neg Bool.false_ne_true, if_pos (by decide),
    List.take_of_length_le (Nat.le_max_right _ _)]

theorem address?_source (after : List Char) :
    address? (source ++ ')' :: after) = some ⟨source, after⟩ := by
  have hclose := closeToken?_source hsource [] after
  obtain ⟨htake, hdrop⟩ := takeWhile_isPlain hsource.plain after
  obtain ⟨c, rest, rfl⟩ := List.exists_cons_of_ne_nil hsource.nonempty
  have hc : Chars.isBlank c = false := hsource.head c rfl
  have hquote : isQuote c = false := by
    have hplain := hsource.plain c List.mem_cons_self
    simp only [isPlain, Bool.and_eq_true, Bool.not_eq_true'] at hplain
    exact hplain.1
  have hstart : ((c :: rest) ++ ')' :: after).dropWhile Chars.isBlank = (c :: rest) ++ ')' :: after :=
    List.dropWhile_cons_of_neg (by simp [hc])
  have hunquoted : unquoted (c :: rest) = c :: rest := if_neg (by simp [hquote])
  rw [address?_eq, hstart, unquoted_append, hunquoted, closed?, htake, hdrop, hclose, Option.some_or]
  rfl

/-- Plain characters before the source are read as the start of its address. -/
theorem closed?_source {y : List Char} (hy : ∀ c ∈ y, isPlain c) (after : List Char) :
    closed? [] (y ++ shown source after) = some ⟨y ++ "url(".toList ++ source, after⟩ := by
  have hplain : ∀ c ∈ y ++ "url(".toList ++ source, isPlain c :=
    List.forall_mem_append.2 ⟨List.forall_mem_append.2 ⟨hy, by decide⟩, hsource.plain⟩
  obtain ⟨htake, hdrop⟩ := takeWhile_isPlain hplain after
  have htext : y ++ shown source after = y ++ "url(".toList ++ source ++ ')' :: after := by
    simp only [shown, List.append_assoc]
  rw [closed?, htext, htake, hdrop, List.nil_append, closeToken?_source hsource]

/-- What follows `url(`, where it comes to its end within the address, goes on with the source. -/
theorem address?_of_insideUrl (h : insideUrl r) (after : List Char) :
    address? (r ++ shown source after) =
      some ⟨unquoted (r.dropWhile Chars.isBlank) ++ "url(".toList ++ source, after⟩ := by
  have hunquoted : unquoted (r.dropWhile Chars.isBlank ++ shown source after) =
      unquoted (r.dropWhile Chars.isBlank) ++ shown source after := by
    cases r.dropWhile Chars.isBlank with
    | nil => rfl
    | cons c more => exact unquoted_append c more _
  rw [address?_eq, dropWhile_isBlank_append (startsUrl_shown source after), hunquoted,
    closed?_source hsource (List.all_eq_true.1 h), Option.some_or]

omit hsource in
/-- What follows `url(` and has no address has none with the source after it, unless it comes to its
end within one. -/
theorem address?_of_not_insideUrl (hw : StartsUrl w) (h : address? (r ++ w) = none)
    (hr : insideUrl r = false) (after : List Char) : address? (r ++ shown source after) = none := by
  have hshown := startsUrl_shown source after
  rw [address?_eq, takeWhile_isBlank_append hw, dropWhile_isBlank_append hw] at h
  rw [address?_eq, takeWhile_isBlank_append hshown, dropWhile_isBlank_append hshown]
  cases hdrop : r.dropWhile Chars.isBlank with
  | nil =>
    rw [insideUrl, hdrop] at hr
    cases hr
  | cons c more =>
    rw [hdrop, unquoted_append] at h
    rw [unquoted_append]
    have hall : ¬ ∀ d ∈ unquoted (c :: more), isPlain d := fun hall => by
      rw [insideUrl, hdrop, List.all_eq_true.2 hall] at hr
      cases hr
    have hwhole : ¬ ∀ d ∈ c :: more, isPlain d := by
      intro hwhole
      refine hall fun d hd => hwhole d ?_
      rw [unquoted] at hd
      split at hd
      · exact List.mem_cons_of_mem c hd
      · exact hd
    obtain ⟨hfirst, hsecond⟩ := Option.or_eq_none_iff.1 h
    rw [closed?_seam hw hshown hall [] hfirst, Option.none_or]
    refine Option.bind_eq_none_iff.2 fun blank hblank => ?_
    exact closed?_seam hw hshown hwhole [blank] (Option.bind_eq_none_iff.1 hsecond blank hblank)

end

/-- What begins a text in any case begins it in small letters. -/
theorem lowerAscii_of_stripFolded? {pattern rest : List Char} (hpattern : 'k' ∉ pattern ∧ 's' ∉ pattern)
    (h : Chars.stripFolded? pattern s = some rest) :
    Chars.lowerAscii s = pattern ++ Chars.lowerAscii rest := by
  induction pattern generalizing s with
  | nil =>
    rw [Chars.stripFolded?] at h
    exact congrArg Chars.lowerAscii (Option.some.inj h)
  | cons p pattern ih =>
    simp only [List.mem_cons, not_or] at hpattern
    obtain ⟨⟨hk, hpattern⟩, ⟨hs, hpattern'⟩⟩ := hpattern
    cases s with
    | nil => cases h
    | cons c s =>
      rw [Chars.stripFolded?] at h
      split at h
      case isTrue hfolds =>
        have hp : c.toLower = p := by simpa [Chars.folds, Ne.symm hk, Ne.symm hs] using hfolds
        rw [List.cons_append, ← ih ⟨hpattern, hpattern'⟩ h, ← hp]
        rfl
      case isFalse => cases h

theorem stripFolded?_url_append (hw : StartsUrl w) (c : Char) (q : List Char) :
    Chars.stripFolded? "url(".toList (c :: q ++ w) =
      (Chars.stripFolded? "url(".toList (c :: q)).map (· ++ w) := by
  have htail : Clear "rl(".toList := by decide
  have hurl : "url(".toList = 'u' :: "rl(".toList := rfl
  rw [hurl, List.cons_append, Chars.stripFolded?, Chars.stripFolded?]
  split
  · exact stripFolded?_append htail hw q
  · rfl

theorem stripFolded?_url_of_clear {v : List Char} (h : ¬ "url(".toList <:+: Chars.lowerAscii v) :
    Chars.stripFolded? "url(".toList v = none := by
  refine Option.eq_none_iff_forall_not_mem.2 fun rest hrest => h ?_
  rw [lowerAscii_of_stripFolded? (by decide) hrest]
  exact (List.prefix_append _ _).isInfix

section

variable (hsource : Bare source)
include hsource

theorem firstUrl?_shown (after : List Char) :
    firstUrl? (shown source after) = some ⟨[], ⟨source, after⟩⟩ := by
  have hstrip : (Chars.stripFolded? "url(".toList (shown source after)).bind address? =
      some ⟨source, after⟩ := address?_source hsource after
  have hcons : shown source after = 'u' :: ("rl(".toList ++ (source ++ ')' :: after)) := rfl
  rw [hcons] at hstrip ⊢
  rw [firstUrl?, hstrip]

/-- A value with no address that comes to its end within one has one with the source after it. -/
theorem isSome_firstUrl?_of_endsInside {v : List Char} (h : endsInside v) (after : List Char) :
    (firstUrl? (v ++ shown source after)).isSome := by
  induction v with
  | nil => cases h
  | cons c v ih =>
    rw [List.cons_append, firstUrl?, ← List.cons_append,
      stripFolded?_url_append (startsUrl_shown source after)]
    rw [endsInside, Bool.or_eq_true] at h
    split
    case h_1 => rfl
    case h_2 hnone =>
      rcases h with h | h
      · obtain ⟨rest, hrest, hinside⟩ := (Option.any_eq_true _ _).1 h
        rw [hrest, Option.map_some, Option.bind_some, address?_of_insideUrl hsource hinside] at hnone
        cases hnone
      · simp only [Bool.and_eq_true, bne_iff_ne, ne_eq] at h
        rw [if_neg (by simpa using h.1), Option.isSome_map]
        exact ih h.2

/-- A value with no address has none with the source after it, unless it comes to its end within one
or the source is reached. -/
theorem firstUrl?_append (hw : StartsUrl w) {v : List Char} (h : firstUrl? (v ++ w) = none)
    {d : Declaration} (hd : firstUrl? (v ++ shown source after) = some d) :
    (firstUrl? w = none ∧ d.address.url = source) ∨
      (endsInside v ∧ ∃ y, d.address.url = y ++ ("url(".toList ++ source)) := by
  induction v generalizing d with
  | nil =>
    rw [List.nil_append, firstUrl?_shown hsource] at hd
    exact .inl ⟨h, congrArg (·.address.url) (Option.some.inj hd).symm⟩
  | cons c v ih =>
    rw [List.cons_append, firstUrl?, ← List.cons_append, stripFolded?_url_append hw] at h
    rw [List.cons_append, firstUrl?, ← List.cons_append,
      stripFolded?_url_append (startsUrl_shown source after)] at hd
    have hlater : (if c == ';' then none else (firstUrl? (v ++ w)).map
        fun d => { d with before := c :: d.before }) = none →
        (if c == ';' then none else (firstUrl? (v ++ shown source after)).map
          fun d => { d with before := c :: d.before }) = some d →
        (firstUrl? w = none ∧ d.address.url = source) ∨
          (endsInside (c :: v) ∧ ∃ y, d.address.url = y ++ ("url(".toList ++ source)) := by
      intro h hd
      split at hd
      case isTrue => cases hd
      case isFalse hsemicolon =>
        rw [if_neg hsemicolon, Option.map_eq_none_iff] at h
        obtain ⟨inner, hinner, rfl⟩ := Option.map_eq_some_iff.1 hd
        refine (ih h hinner).imp_right fun hends => ⟨?_, hends.2⟩
        rw [endsInside, hends.1, bne, eq_false_of_ne_true hsemicolon]
        exact Bool.or_true _
    cases hstrip : Chars.stripFolded? "url(".toList (c :: v) with
    | none =>
      rw [hstrip] at h hd
      exact hlater h hd
    | some r =>
      rw [hstrip, Option.map_some, Option.bind_some] at h hd
      cases haddress : address? (r ++ w) with
      | some a =>
        rw [haddress] at h
        cases h
      | none =>
        rw [haddress] at h
        cases hinside : insideUrl r with
        | true =>
          rw [address?_of_insideUrl hsource hinside] at hd
          refine .inr ⟨?_, _, congrArg (·.address.url) (Option.some.inj hd).symm |>.trans
            (List.append_assoc ..)⟩
          rw [endsInside, hstrip, Option.any_some, hinside, Bool.true_or]
        | false =>
          rw [address?_of_not_insideUrl hw haddress hinside] at hd
          exact hlater h hd

omit hsource in
/-- Without a semicolon or an address on the way, what is found is found at the end of the way. -/
theorem firstUrl?_of_clear {v : List Char} (hsemicolon : ∀ c ∈ v, c ≠ ';')
    (hclear : ¬ "url(".toList <:+: Chars.lowerAscii v) (hw : StartsUrl w) :
    firstUrl? (v ++ w) = (firstUrl? w).map fun d => { d with before := v ++ d.before } := by
  induction v with
  | nil => exact Option.map_id'.symm
  | cons c v ih =>
    have hstrip : Chars.stripFolded? "url(".toList (c :: v) = none := stripFolded?_url_of_clear hclear
    have hrest := ih (fun d hd => hsemicolon d (List.mem_cons_of_mem c hd)) fun hin =>
      hclear (hin.trans (List.suffix_cons _ _).isInfix)
    have hc : (c == ';') = false := by simpa using hsemicolon c List.mem_cons_self
    rw [List.cons_append, firstUrl?, ← List.cons_append, stripFolded?_url_append hw, hstrip, hrest, hc]
    simp [Function.comp_def]

/-- A declaration that is still open at the end of a text has an address with the source after it. -/
theorem isSome_declarationHere?_of_opensHere (h : opensHere q) (after : List Char) :
    (declarationHere? (q ++ shown source after)).isSome := by
  obtain ⟨v, hv, hends⟩ := (Option.any_eq_true _ _).1 h
  obtain ⟨d, hd⟩ := Option.isSome_iff_exists.1 (isSome_firstUrl?_of_endsInside hsource hends after)
  unfold declarationHere?
  rw [afterProperty?_append (startsUrl_shown source after), hv]
  simp only [Option.map_some, Option.bind_eq_bind, Option.bind_some, hd]
  rfl

/-- A text at which no declaration starts starts none with the source after it, unless one is still
open at its end or the source is reached. -/
theorem declarationHere?_append (hw : StartsUrl w) (h : declarationHere? (q ++ w) = none)
    {d : Declaration} (hd : declarationHere? (q ++ shown source after) = some d) :
    (firstUrl? w = none ∧ d.address.url = source) ∨
      (opensHere q ∧ ∃ y, d.address.url = y ++ ("url(".toList ++ source)) := by
  unfold declarationHere? at h hd
  rw [afterProperty?_append hw] at h
  rw [afterProperty?_append (startsUrl_shown source after)] at hd
  cases hvalue : afterProperty? q with
  | none =>
    rw [hvalue] at hd
    cases hd
  | some v =>
    simp only [hvalue, Option.map_some, Option.bind_eq_bind, Option.bind_some] at h hd
    obtain ⟨inner, hinner, hd⟩ := Option.bind_eq_some_iff.1 hd
    obtain rfl := Option.some.inj hd
    have hnone : firstUrl? (v ++ w) = none := by
      cases hfirst : firstUrl? (v ++ w) with
      | none => rfl
      | some => simp [hfirst] at h
    refine (firstUrl?_append hsource hw hnone hinner).imp_right fun hends => ⟨?_, hends.2⟩
    rw [opensHere, hvalue, Option.any_some, hends.1]

end

theorem startsUrl_of_lowerAscii {rest : List Char} (h : Chars.lowerAscii w = 'u' :: 'r' :: rest) :
    StartsUrl w := by
  rcases w with _ | ⟨c, _ | ⟨d, w⟩⟩
  · cases h
  · simp [Chars.lowerAscii] at h
  · obtain ⟨hc, h⟩ := List.cons.inj h
    obtain ⟨hd, -⟩ := List.cons.inj h
    refine ⟨c, ?_, d, ?_, w, rfl⟩
    · simpa using capital_of_toLower hc (by decide : _ = 'U'.val)
    · simpa using capital_of_toLower hd (by decide : _ = 'R'.val)

/-- The head of a declaration ends where its first `url(` begins, or where its address does. -/
theorem exists_head (d : Declaration) : ∃ gap, d.before = d.head ++ gap ∧
    (gap = [] ∨ "url(".toList <+: Chars.lowerAscii gap) ∧
      ¬ "url(".toList <:+: Chars.lowerAscii d.head := by
  obtain ⟨start, more, hlow, hclear, hmore⟩ :=
    Chars.exists_clear_append (by decide : 'u' ∉ "rl(".toList) (Chars.lowerAscii d.before)
  have hfirst : ∃ rest, Chars.splitFirst "url(".toList
      (Chars.lowerAscii (d.before ++ "url(".toList)) = some (start, rest) := by
    have hwhole : Chars.lowerAscii (d.before ++ "url(".toList) =
        Chars.lowerAscii d.before ++ "url(".toList := by
      rw [Chars.lowerAscii, List.map_append]
      rfl
    rw [hwhole, hlow, List.append_assoc]
    rcases hmore with rfl | ⟨rest, rfl⟩
    · exact ⟨[], (Chars.splitFirst_append_iff (by decide)).2 hclear⟩
    · exact ⟨rest ++ "url(".toList, (Chars.splitFirst_append_iff (by decide)).2 hclear⟩
  obtain ⟨rest, hfirst⟩ := hfirst
  have hlength : start.length ≤ d.before.length := by
    have hle := congrArg List.length hlow
    simp only [Chars.lowerAscii, List.length_map, List.length_append] at hle
    omega
  have hhead : d.head = d.before.take start.length := by
    rw [Declaration.head, hfirst]
    exact List.take_append_of_le_length hlength
  have hstart : Chars.lowerAscii d.head = start := by
    rw [hhead, Chars.lowerAscii, List.map_take, ← Chars.lowerAscii, hlow, List.take_left]
  have hgap : Chars.lowerAscii (d.before.drop start.length) = more := by
    rw [Chars.lowerAscii, List.map_drop, ← Chars.lowerAscii, hlow, List.drop_left]
  refine ⟨d.before.drop start.length, ?_, ?_, ?_⟩
  · rw [hhead, List.take_append_drop]
  · rw [hgap]
    refine hmore.imp_left fun hnil => ?_
    rw [← hgap] at hnil
    exact List.map_eq_nil_iff.1 hnil
  · rw [hstart]
    exact Chars.contains_eq_false_iff.1 hclear

/-- A text cut where the address of a declaration is read. Up to its head the declaration has no
`url(`, and the gap after it has no address. -/
structure Cut (t : List Char) (d : Declaration) (gap tail : List Char) : Prop where
  eq : t = d.head ++ (gap ++ tail)
  before : d.before = d.head ++ gap
  gap : gap = [] ∨ "url(".toList <+: Chars.lowerAscii gap
  clear : ¬ "url(".toList <:+: Chars.lowerAscii d.head
  token : (Chars.stripFolded? "url(".toList tail).bind address? = some d.address

theorem Cut.starts {t gap tail : List Char} {d : Declaration} (h : Cut t d gap tail) :
    StartsUrl (gap ++ tail) := by
  rcases h.gap with rfl | ⟨rest, hrest⟩
  · obtain ⟨value, hvalue, -⟩ := Option.bind_eq_some_iff.1 h.token
    exact startsUrl_of_lowerAscii (lowerAscii_of_stripFolded? (by decide) hvalue)
  · refine startsUrl_of_lowerAscii (?_ : _ = 'u' :: 'r' :: ("l(".toList ++ rest ++ Chars.lowerAscii tail))
    rw [Chars.lowerAscii, List.map_append, ← Chars.lowerAscii, ← hrest]
    rfl

/-- Where a declaration starts, one starts with the source as its address. -/
theorem exists_declarationHere? (hsource : Bare source) {t : List Char} {d : Declaration}
    (h : declarationHere? t = some d) :
    ∃ gap tail, Cut t d gap tail ∧ firstUrl? (gap ++ tail) ≠ none ∧ ∀ after, ∃ before,
      declarationHere? (d.head ++ shown source after) = some ⟨before, ⟨source, after⟩⟩ := by
  unfold declarationHere? at h
  obtain ⟨value, hvalue, h⟩ := Option.bind_eq_some_iff.1 h
  obtain ⟨inner, hinner, h⟩ := Option.bind_eq_some_iff.1 h
  obtain ⟨front, rfl⟩ := suffix_of_afterProperty? hvalue
  have htake : (front ++ value).take ((front ++ value).length - value.length) = front := by
    rw [List.length_append, Nat.add_sub_cancel, List.take_left]
  rw [htake] at h
  have hbefore : d.before = front ++ inner.before := (congrArg Declaration.before (Option.some.inj h)).symm
  have haddress : d.address = inner.address := (congrArg Declaration.address (Option.some.inj h)).symm
  obtain ⟨tail, rfl, htoken, hpassed⟩ := exists_token_of_firstUrl? hinner
  obtain ⟨gap, hgap, hstart, hclear⟩ := exists_head d
  have hcut : Cut (front ++ (inner.before ++ tail)) d gap tail :=
    ⟨by rw [← List.append_assoc, ← hbefore, hgap, List.append_assoc], hgap, hstart, hclear,
      haddress ▸ htoken⟩
  rw [hcut.eq, afterProperty?_append hcut.starts] at hvalue
  obtain ⟨v, hv, hvw⟩ := Option.map_eq_some_iff.1 hvalue
  have hshort : v.length ≤ inner.before.length := by
    have hlength := congrArg List.length hvw
    have hinner := congrArg List.length hgap
    simp only [List.length_append] at hlength hinner
    omega
  have hstarts : v <+: inner.before :=
    List.prefix_of_prefix_length_le ⟨gap ++ tail, hvw⟩ (List.prefix_append _ _) hshort
  have hsemicolon : ∀ c ∈ v, c ≠ ';' := fun c hc => hpassed c (hstarts.subset hc)
  have hclear' : ¬ "url(".toList <:+: Chars.lowerAscii v := fun hin =>
    hclear (hin.trans ((suffix_of_afterProperty? hv).map Char.toLower).isInfix)
  refine ⟨gap, tail, hcut, fun hnone => ?_, fun after => ?_⟩
  · rw [← hvw, firstUrl?_of_clear hsemicolon hclear' hcut.starts, hnone] at hinner
    cases hinner
  · unfold declarationHere?
    rw [afterProperty?_append (startsUrl_shown source after), hv]
    simp only [Option.map_some, Option.bind_eq_bind, Option.bind_some,
      firstUrl?_of_clear hsemicolon hclear' (startsUrl_shown source after), firstUrl?_shown hsource]
    exact ⟨_, rfl⟩

theorem endsInside_of_clear {v : List Char} (h : ¬ "url(".toList <:+: Chars.lowerAscii v) :
    endsInside v = false := by
  induction v with
  | nil => rfl
  | cons c v ih =>
    have hstrip : Chars.stripFolded? "url(".toList (c :: v) = none := stripFolded?_url_of_clear h
    have hrest := ih fun hin => h (hin.trans (List.suffix_cons _ _).isInfix)
    rw [endsInside, hstrip, hrest, Option.any_none, Bool.and_false, Bool.or_false]

/-- A text without `url(` leaves no declaration open within one. -/
theorem leavesOpen_of_clear {t : List Char} (h : ¬ "url(".toList <:+: Chars.lowerAscii t) :
    leavesOpen t = false := by
  induction t with
  | nil => rfl
  | cons c t ih =>
    have hhere : opensHere (c :: t) = false := (Option.any_eq_false _ _).2 fun value hvalue =>
      endsInside_of_clear fun hin =>
        h (hin.trans ((suffix_of_afterProperty? hvalue).map Char.toLower).isInfix)
    rw [leavesOpen, hhere, ih fun hin => h (hin.trans (List.suffix_cons _ _).isInfix), Bool.or_false]

/-- With the source in place of what follows the head of its first declaration, the address of a text
is the source, unless a declaration is left open before it; then it ends with the source. -/
theorem exists_background? (hsource : Bare source) {b : Background} (h : background? s = some b) :
    ∃ t gap tail, s = b.before ++ t ∧ Cut t b.declaration gap tail ∧
      firstUrl? (gap ++ tail) ≠ none ∧
      ∀ after, ∃ b', background? (b.before ++ b.declaration.head ++ shown source after) = some b' ∧
        ((leavesOpen (b.before ++ b.declaration.head) = false ∧ b'.declaration.address.url = source) ∨
          (leavesOpen (b.before ++ b.declaration.head) ∧
            ∃ y, b'.declaration.address.url = y ++ ("url(".toList ++ source))) := by
  induction s generalizing b with
  | nil => cases h
  | cons c rest ih =>
    rw [background?] at h
    split at h
    case h_1 d hd =>
      obtain rfl := Option.some.inj h
      obtain ⟨gap, tail, hcut, hfirst, hshown⟩ := exists_declarationHere? hsource hd
      refine ⟨c :: rest, gap, tail, rfl, hcut, hfirst, fun after => ?_⟩
      obtain ⟨before, hd'⟩ := hshown after
      refine ⟨⟨[], ⟨before, ⟨source, after⟩⟩⟩, ?_, .inl ⟨leavesOpen_of_clear hcut.clear, rfl⟩⟩
      rw [List.nil_append]
      cases htext : d.head ++ shown source after with
      | nil => simp [shown] at htext
      | cons x more => rw [background?, ← htext, hd']
    case h_2 hnone =>
      obtain ⟨inner, hinner, rfl⟩ := Option.map_eq_some_iff.1 h
      obtain ⟨t, gap, tail, rfl, hcut, hfirst, hshown⟩ := ih hinner
      refine ⟨t, gap, tail, rfl, hcut, hfirst, fun after => ?_⟩
      obtain ⟨b', hb', hreads⟩ := hshown after
      dsimp only
      rw [List.cons_append, List.cons_append, background?, leavesOpen, Bool.or_eq_true, Bool.or_eq_false_iff]
      rw [hcut.eq, ← List.append_assoc, ← List.cons_append] at hnone
      rw [← List.cons_append]
      split
      case h_1 d hd =>
        have hends := (declarationHere?_append hsource hcut.starts hnone hd).resolve_left
          fun hleft => hfirst hleft.1
        exact ⟨_, rfl, .inr ⟨.inl hends.1, hends.2⟩⟩
      case h_2 hnone' =>
        have hclosed : opensHere (c :: (inner.before ++ inner.declaration.head)) = false := by
          refine Bool.eq_false_iff.2 fun hopen => ?_
          have hsome := isSome_declarationHere?_of_opensHere hsource hopen after
          rw [hnone'] at hsome
          cases hsome
        rw [hb']
        refine ⟨_, rfl, hreads.imp (fun h => ⟨⟨hclosed, h.1⟩, h.2⟩) fun h => ⟨.inr h.1, h.2⟩⟩

theorem suffix_trim (hsource : Bare source) {t : List Char} (h : source <:+ t) :
    source <:+ Chars.trim t := by
  obtain ⟨front, rfl⟩ := h
  obtain ⟨y, hy⟩ : ∃ y, Chars.trimStart (front ++ source) = y ++ source := by
    rw [Chars.trimStart, List.dropWhile_append]
    split
    case isTrue =>
      obtain ⟨c, rest, rfl⟩ := List.exists_cons_of_ne_nil hsource.nonempty
      exact ⟨[], List.dropWhile_cons_of_neg (by simp [hsource.head c rfl])⟩
    case isFalse => exact ⟨_, rfl⟩
  rw [Chars.trim, hy, trimEnd_source hsource]
  exact List.suffix_append _ _

/-- A style is written with the source in place of what follows the head of its first declaration. -/
theorem toList_replaceBackgroundUrl {style : String} {b : Background}
    (hb : background? style.toList = some b) (source : String) :
    (replaceBackgroundUrl style source).toList =
      b.before ++ b.declaration.head ++ shown source.toList b.declaration.address.after := by
  rw [replaceBackgroundUrl, hb]
  simp only [String.toList_ofList, shown, List.append_assoc]

/-- The address of a style that has been given another source ends with that source. -/
theorem suffix_backgroundUrl?_replace {style source url old : String} (hsource : Bare source.toList)
    (hold : backgroundUrl? style = some old)
    (h : backgroundUrl? (replaceBackgroundUrl style source) = some url) :
    source.toList <:+ url.toList := by
  obtain ⟨b, hb, -⟩ := exists_of_backgroundUrl? hold
  obtain ⟨-, -, -, -, -, -, hshown⟩ := exists_background? hsource hb
  obtain ⟨b', hb', hreads⟩ := hshown b.declaration.address.after
  rw [← toList_replaceBackgroundUrl hb] at hb'
  obtain ⟨read, hread, htrim⟩ := exists_of_backgroundUrl? h
  obtain rfl := Option.some.inj (hb'.symm.trans hread)
  rw [← htrim]
  refine suffix_trim hsource ?_
  rcases hreads with ⟨-, hurl⟩ | ⟨-, y, hurl⟩
  · exact hurl ▸ List.suffix_refl _
  · exact hurl ▸ ⟨y ++ "url(".toList, List.append_assoc ..⟩

theorem isPlain_of {p : Char → Bool} (hother : ∀ d ∈ ['"', '\'', ')'], p d = false) {c : Char}
    (h : p c) : isPlain c := by
  have hne : ∀ d ∈ ['"', '\'', ')'], c ≠ d := by
    rintro d hd rfl
    rw [hother c hd] at h
    cases h
  simp only [List.forall_mem_cons, List.not_mem_nil, false_implies, implies_true, and_true] at hne
  obtain ⟨hdouble, hsingle, hclose⟩ := hne
  simp [isPlain, isQuote, hdouble, hsingle, hclose]

theorem isPlain_of_closed? {front y : List Char} {a : Address} (h : closed? front y = some a)
    (hfront : ∀ c ∈ front, isPlain c) : ∀ c ∈ a.url, isPlain c := by
  intro c hc
  rcases List.mem_append.1 ((exists_of_closeToken? h).1.subset hc) with hc | hc
  · exact hfront c hc
  · exact List.all_eq_true.1 List.all_takeWhile c hc

theorem isPlain_of_address? {a : Address} (h : address? s = some a) : ∀ c ∈ a.url, isPlain c := by
  rw [address?_eq] at h
  rcases Option.or_eq_some_iff.1 h with h | ⟨-, h⟩
  · exact isPlain_of_closed? h (List.forall_mem_nil _)
  · obtain ⟨blank, hblank, h⟩ := Option.bind_eq_some_iff.1 h
    refine isPlain_of_closed? h (List.forall_mem_singleton.2 (isPlain_of (p := Chars.isBlank) (by decide) ?_))
    exact List.all_eq_true.1 List.all_takeWhile blank (List.mem_of_getLast? hblank)

theorem isPlain_of_firstUrl? {d : Declaration} (h : firstUrl? s = some d) :
    ∀ c ∈ d.address.url, isPlain c := by
  obtain ⟨tail, -, htoken, -⟩ := exists_token_of_firstUrl? h
  obtain ⟨value, -, ha⟩ := Option.bind_eq_some_iff.1 htoken
  exact isPlain_of_address? ha

theorem isPlain_of_background? {b : Background} (h : background? s = some b) :
    ∀ c ∈ b.declaration.address.url, isPlain c := by
  obtain ⟨t, -, hd⟩ := exists_declarationHere_of_background? h
  unfold declarationHere? at hd
  obtain ⟨value, -, hd⟩ := Option.bind_eq_some_iff.1 hd
  obtain ⟨inner, hinner, hd⟩ := Option.bind_eq_some_iff.1 hd
  have hplain := isPlain_of_firstUrl? hinner
  rw [← Option.some.inj hd]
  exact hplain

/-- The address of a background image has no quotes and no parenthesis that closes. -/
theorem isPlain_backgroundUrl? {style url : String} (h : backgroundUrl? style = some url) :
    ∀ c ∈ url.toList, isPlain c := by
  obtain ⟨b, hb, htrim⟩ := exists_of_backgroundUrl? h
  intro c hc
  rw [← htrim] at hc
  exact isPlain_of_background? hb c (Chars.trim_subset _ hc)

theorem bare_imageSource {id fallback : String} (hid : IsName id)
    (hfallback : ∀ c ∈ fallback.toList, isPlain c) (width : Nat) :
    Bare (imageSource .whole id fallback width).toList := by
  have hname {name : String} (h : IsName name) : ∀ c ∈ name.toList, isPlain c :=
    fun c hc => isPlain_of (by decide) (h c hc)
  have hpath : ∀ c ∈ (settingPath .whole id).toList, isPlain c := by
    simp only [settingPath, String.toList_append, List.forall_mem_append]
    exact ⟨⟨by decide, by decide⟩, hname hid⟩
  constructor
  case plain =>
    simp only [imageSource, output, String.toList_append, List.forall_mem_append]
    exact ⟨⟨⟨⟨⟨⟨by decide, hpath⟩, by decide⟩,
      ⟨by decide, ⟨hpath, by decide⟩, hname (isName_toString width)⟩, by decide⟩, by decide⟩,
      hfallback⟩, by decide⟩
  case nonempty => simp [imageSource]
  case head =>
    intro c hc
    obtain rfl : '\x7b' = c := by simpa [imageSource] using hc
    decide
  case last =>
    intro c hc
    rw [imageSource, String.toList_append, List.getLast?_append_of_ne_nil _ (by decide)] at hc
    obtain rfl : '\x7d' = c := Option.some.inj hc
    decide

/-- A style that has been given the source of a setting does not depend on an address any more. -/
theorem hasMarks_backgroundUrl?_replace {style old url id : String} {width : Nat} (hid : IsName id)
    (hold : backgroundUrl? style = some old)
    (h : backgroundUrl? (replaceBackgroundUrl style (imageSource .whole id old width)) = some url) :
    hasMarks url := by
  have hbare := bare_imageSource hid (isPlain_backgroundUrl? hold) width
  have hends := suffix_backgroundUrl?_replace hbare hold h
  by_contra hnot
  rw [Bool.not_eq_true] at hnot
  have hsource := hasMarks_of_infix hends.isInfix hnot
  rw [hasMarks_imageSource] at hsource
  cases hsource

end ThemeSection.Style
