import ThemeSection.Proofs.Chars.Lines
import ThemeSection.Proofs.Json.RoundTrip
import ThemeSection.Proofs.Json.Scan

/-!
Reading JSON does not depend on how the lines of its text end. Outside strings all line ends are
blanks, and a string with a line end in it is refused whatever the line end is, so a text that was
taken apart into lines and joined by line feeds reads as before.
-/

namespace ThemeSection.Json

/-- Texts that differ at most in their line ends: line feeds with and without a carriage return
before them, and one of these at the end or nothing. -/
inductive SameLines : List Char → List Char → Prop
  | nil : SameLines [] []
  | cons (c : Char) {s t : List Char} (h : SameLines s t) : SameLines (c :: s) (c :: t)
  | feed {s t : List Char} (h : SameLines s t) : SameLines ('\r' :: '\n' :: s) ('\n' :: t)
  | last : SameLines ['\n'] []
  | lastFeed : SameLines ['\r', '\n'] []

/-- Joining the lines of a text by line feeds changes nothing but line ends. -/
theorem sameLines_join (s : List Char) : SameLines s (['\n'].intercalate (Chars.lines s)) := by
  fun_induction Chars.lines s with
  | case1 => exact .nil
  | case2 s ih =>
    cases hs : Chars.lines s with
    | nil =>
      obtain rfl := Chars.eq_nil_of_lines_eq_nil hs
      exact .last
    | cons first rest =>
      rw [List.intercalate_cons_cons, ← hs]
      exact ih.cons '\n'
  | case3 s ih =>
    cases hs : Chars.lines s with
    | nil =>
      obtain rfl := Chars.eq_nil_of_lines_eq_nil hs
      exact .lastFeed
    | cons first rest =>
      rw [List.intercalate_cons_cons, ← hs]
      exact ih.feed
  | case4 c s _ _ hs ih =>
    obtain rfl := Chars.eq_nil_of_lines_eq_nil hs
    exact SameLines.nil.cons c
  | case5 c s _ _ first rest hs ih =>
    rw [hs] at ih
    cases rest with
    | nil => simpa using ih.cons c
    | cons next rest =>
      rw [List.intercalate_cons_cons] at ih ⊢
      exact ih.cons c

/-- Readings that give the same result and leave the same lines, or that both fail. -/
inductive Agree {α : Type} : Reading (α × List Char) → Reading (α × List Char) → Prop
  | ok (a : α) {s t : List Char} (h : SameLines s t) : Agree (.ok (a, s)) (.ok (a, t))
  | error (e f : Fault) : Agree (.error e) (.error f)

theorem Agree.bind {α β : Type} {x y : Reading (α × List Char)}
    {f g : α × List Char → Reading (β × List Char)} (h : Agree x y)
    (hnext : ∀ a s t, x = .ok (a, s) → y = .ok (a, t) → SameLines s t → Agree (f (a, s)) (g (a, t))) :
    Agree (x >>= f) (y >>= g) := by
  cases h with
  | ok a h => exact hnext a _ _ rfl rfl h
  | error e f => exact .error e f

/-- What is made of the results may be anything. -/
theorem Agree.map {α β : Type} {x y : Reading (α × List Char)} (h : Agree x y) (wrap : α → β)
    {f g : α × List Char → Reading (β × List Char)} (hf : ∀ a rest, f (a, rest) = .ok (wrap a, rest))
    (hg : ∀ a rest, g (a, rest) = .ok (wrap a, rest)) : Agree (x >>= f) (y >>= g) :=
  h.bind fun a s t _ _ hst => by
    rw [hf, hg]
    exact .ok (wrap a) hst

variable {s t : List Char}

theorem SameLines.skipSpace (h : SameLines s t) :
    (Json.skipSpace s = [] ∧ Json.skipSpace t = []) ∨
      ∃ c s' t', Json.skipSpace s = c :: s' ∧ Json.skipSpace t = c :: t' ∧ SameLines s' t' := by
  induction h with
  | nil => exact Or.inl ⟨rfl, rfl⟩
  | @cons c s t h ih =>
    by_cases hc : isSpace c
    · rwa [Json.skipSpace, Json.skipSpace, List.dropWhile_cons_of_pos hc,
        List.dropWhile_cons_of_pos hc]
    · rw [Json.skipSpace, Json.skipSpace, List.dropWhile_cons_of_neg hc,
        List.dropWhile_cons_of_neg hc]
      exact Or.inr ⟨c, s, t, rfl, rfl, h⟩
  | feed h ih => exact ih
  | last => exact Or.inl ⟨rfl, rfl⟩
  | lastFeed => exact Or.inl ⟨rfl, rfl⟩

theorem SameLines.digits (h : SameLines s t) :
    s.takeWhile Char.isDigit = t.takeWhile Char.isDigit ∧
      SameLines (s.dropWhile Char.isDigit) (t.dropWhile Char.isDigit) := by
  induction h with
  | nil => exact ⟨rfl, .nil⟩
  | @cons c s t h ih =>
    by_cases hc : c.isDigit
    · rw [List.takeWhile_cons_of_pos hc, List.takeWhile_cons_of_pos hc,
        List.dropWhile_cons_of_pos hc, List.dropWhile_cons_of_pos hc]
      exact ⟨congrArg (c :: ·) ih.1, ih.2⟩
    · rw [List.takeWhile_cons_of_neg hc, List.takeWhile_cons_of_neg hc,
        List.dropWhile_cons_of_neg hc, List.dropWhile_cons_of_neg hc]
      exact ⟨rfl, h.cons c⟩
  | feed h ih => exact ⟨rfl, h.feed⟩
  | last => exact ⟨rfl, .last⟩
  | lastFeed => exact ⟨rfl, .lastFeed⟩

/-- A property of the next character that no line end has is the same on both sides. -/
theorem SameLines.head?_any (h : SameLines s t) {p : Char → Bool} (hfeed : p '\n' = false)
    (hreturn : p '\r' = false) : s.head?.any p = t.head?.any p := by
  cases h with
  | nil => rfl
  | cons c h => rfl
  | feed h => exact hreturn.trans hfeed.symm
  | last => exact hfeed
  | lastFeed => exact hreturn

/-- What has no line ends stands on both sides. -/
theorem SameLines.exists_left {body rest : List Char} (h : SameLines (body ++ rest) t)
    (hbody : ∀ c ∈ body, c ≠ '\n' ∧ c ≠ '\r') : ∃ rest', t = body ++ rest' ∧ SameLines rest rest' := by
  induction body generalizing t with
  | nil => exact ⟨t, rfl, h⟩
  | cons c body ih =>
    obtain ⟨⟨hfeed, hreturn⟩, hbody⟩ := List.forall_mem_cons.1 hbody
    rw [List.cons_append] at h
    generalize hs : c :: (body ++ rest) = s at h
    cases h with
    | nil => cases hs
    | cons d h =>
      obtain ⟨rfl, rfl⟩ := List.cons.inj hs
      obtain ⟨rest', rfl, hrest⟩ := ih h hbody
      exact ⟨rest', rfl, hrest⟩
    | feed h => exact absurd (List.cons.inj hs).1 hreturn
    | last => exact absurd (List.cons.inj hs).1 hfeed
    | lastFeed => exact absurd (List.cons.inj hs).1 hreturn

theorem SameLines.exists_right {body rest : List Char} (h : SameLines s (body ++ rest))
    (hbody : '\n' ∉ body) : ∃ rest', s = body ++ rest' ∧ SameLines rest' rest := by
  induction body generalizing s with
  | nil => exact ⟨s, rfl, h⟩
  | cons c body ih =>
    obtain ⟨hfeed, hbody⟩ := List.ne_and_not_mem_of_not_mem_cons hbody
    rw [List.cons_append] at h
    generalize ht : c :: (body ++ rest) = t at h
    cases h with
    | nil => cases ht
    | cons d h =>
      obtain ⟨rfl, rfl⟩ := List.cons.inj ht
      obtain ⟨rest', rfl, hrest⟩ := ih h hbody
      exact ⟨rest', rfl, hrest⟩
    | feed h => exact absurd (List.cons.inj ht).1.symm hfeed
    | last => cases ht
    | lastFeed => cases ht

theorem agree_hexQuad (h : SameLines s t) : Agree (hexQuad s) (hexQuad t) := by
  cases hs : hexQuad s with
  | ok result =>
    obtain ⟨n, rest⟩ := result
    obtain ⟨digits, rfl, hlength, hall, rfl⟩ := hexQuad_eq_ok_iff.1 hs
    obtain ⟨rest', rfl, hrest⟩ := h.exists_left (ne_of_all_isHexDigit hall)
    rw [hexQuad_eq_ok_iff.2 ⟨digits, rfl, hlength, hall, rfl⟩]
    exact .ok _ hrest
  | error fault =>
    cases ht : hexQuad t with
    | error fault' => exact .error _ _
    | ok result =>
      obtain ⟨n, rest⟩ := result
      obtain ⟨digits, rfl, hlength, hall, rfl⟩ := hexQuad_eq_ok_iff.1 ht
      obtain ⟨rest', rfl, -⟩ := h.exists_right fun hmem =>
        (ne_of_all_isHexDigit hall _ hmem).1 rfl
      rw [hexQuad_eq_ok_iff.2 ⟨digits, rfl, hlength, hall, rfl⟩] at hs
      cases hs

/-- The second half of an escape that takes two, of which the first named `high`. -/
def trailingEscape (high : Nat) (s : List Char) : Reading (Char × Nat) :=
  match s with
  | [] => .error (.at .endInString [])
  | '\\' :: [] => .error (.at .endInString [])
  | '\\' :: 'u' :: more => do
    let (low, rest) ← hexQuad more
    if low < 0xDC00 || low > 0xDFFF then .error (.at .loneSurrogate rest)
    else .ok (Char.ofNat (0x10000 + (high - 0xD800) * 0x400 + (low - 0xDC00)), 10)
  | '\\' :: more => .error (.past .endOfHexEscape more)
  | more => .error (.past .endOfHexEscape more)

theorem toOption_trailingEscape_of_ne (high : Nat) (h : ∀ more, s ≠ '\\' :: 'u' :: more) :
    (trailingEscape high s).toOption = none := by
  unfold trailingEscape
  split
  case h_3 more => exact absurd rfl (h more)
  all_goals rfl

theorem toOption_trailingEscape (high : Nat) (h : SameLines s t) :
    (trailingEscape high s).toOption = (trailingEscape high t).toOption := by
  by_cases hs : ∃ more, s = ['\\', 'u'] ++ more
  · obtain ⟨more, rfl⟩ := hs
    obtain ⟨more', rfl, hmore⟩ := h.exists_left (by decide)
    have hquad := agree_hexQuad hmore
    change (hexQuad more >>= _).toOption = (hexQuad more' >>= _).toOption
    generalize hexQuad more = x, hexQuad more' = y at hquad
    cases hquad with
    | error e f => rfl
    | ok low h =>
      change (ite _ _ _ : Reading (Char × Nat)).toOption = (ite _ _ _ : Reading (Char × Nat)).toOption
      split <;> rfl
  · have ht : ∀ more, t ≠ '\\' :: 'u' :: more := by
      rintro more rfl
      obtain ⟨more', rfl, -⟩ := h.exists_right (by decide : '\n' ∉ ['\\', 'u'])
      exact hs ⟨more', rfl⟩
    rw [toOption_trailingEscape_of_ne high ht,
      toOption_trailingEscape_of_ne high fun more hmore => hs ⟨more, hmore⟩]

theorem unicodeEscape_eq (s : List Char) :
    unicodeEscape s = hexQuad s >>= fun (n, rest) =>
      if 0xDC00 ≤ n && n ≤ 0xDFFF then .error (.at .loneSurrogate rest)
      else if n < 0xD800 || n > 0xDBFF then .ok (Char.ofNat n, 4)
      else trailingEscape n rest :=
  rfl

theorem toOption_unicodeEscape (h : SameLines s t) :
    (unicodeEscape s).toOption = (unicodeEscape t).toOption := by
  have hquad := agree_hexQuad h
  rw [unicodeEscape_eq, unicodeEscape_eq]
  generalize hexQuad s = x, hexQuad t = y at hquad
  cases hquad with
  | error e f => rfl
  | @ok n s t h =>
    change (ite _ _ _ : Reading (Char × Nat)).toOption = (ite _ _ _ : Reading (Char × Nat)).toOption
    split
    · rfl
    split
    · rfl
    · exact toOption_trailingEscape n h

theorem toOption_escape (h : SameLines s t) : (escape s).toOption = (escape t).toOption := by
  cases h with
  | nil => rfl
  | @cons c s t h =>
    by_cases hc : c = 'u'
    · subst hc
      change ((unicodeEscape s).map _).toOption = ((unicodeEscape t).map _).toOption
      rw [Value.toOption_map, Value.toOption_map, toOption_unicodeEscape h]
    · unfold escape
      split
      case h_1 hnil => cases hnil
      case h_2 hu => exact absurd (List.cons.inj hu).1 hc
      case h_11 =>
        -- No letter of an escape: the other text does not start with one either.
        split
        case h_11 => rfl
        all_goals simp_all
      all_goals
        rename_i heq
        obtain ⟨rfl, -⟩ := List.cons.inj heq
        rfl
  | feed h => rfl
  | last => rfl
  | lastFeed => rfl

theorem agree_stringBody {s t : List Char} (h : SameLines s t) : Agree (stringBody s) (stringBody t) := by
  cases h with
  | nil => exact .error _ _
  | @cons c s t h =>
    rw [stringBody, stringBody, stringBody.go, stringBody.go]
    split
    case isTrue => exact .ok [] h
    split
    case isTrue =>
      have hescape := toOption_escape h
      cases hs : escape s with
      | error fault =>
        rw [hs] at hescape
        cases ht : escape t with
        | error fault' => exact .error _ _
        | ok result =>
          rw [ht] at hescape
          cases hescape
      | ok result =>
        obtain ⟨d, n⟩ := result
        rw [hs] at hescape
        rw [Value.eq_ok_of_toOption hescape.symm]
        obtain ⟨body, rest, rfl, rfl, -, hlines⟩ := exists_of_escape hs
        obtain ⟨rest', rfl, hrest⟩ := h.exists_left hlines
        change Agree (stringBody.go body.length (body ++ rest) >>= _)
          (stringBody.go body.length (body ++ rest') >>= _)
        rw [go_length, go_length]
        exact (agree_stringBody hrest).map (d :: ·) (fun _ _ => rfl) fun _ _ => rfl
    split
    case isTrue => exact .error _ _
    case isFalse => exact (agree_stringBody h).map (c :: ·) (fun _ _ => rfl) fun _ _ => rfl
  | feed h => exact .error _ _
  | last => exact .error _ _
  | lastFeed => exact .error _ _
termination_by s.length
decreasing_by all_goals simp_all +arith

section

variable (negative : Bool) (significand : Nat) (e : Int)

theorem agree_floatOf (h : SameLines s t) :
    Agree (floatOf negative significand e s) (floatOf negative significand e t) := by
  unfold floatOf
  split
  · exact .error _ _
  · exact .ok _ h

theorem SameLines.startsExponent (h : SameLines s t) :
    Json.startsExponent s = Json.startsExponent t := by
  have hany : ∀ s, Json.startsExponent s = s.head?.any fun c => c == 'e' || c == 'E' := by
    rintro (_ | ⟨c, s⟩) <;> rfl
  rw [hany, hany]
  exact h.head?_any rfl rfl

theorem SameLines.exponentSign (h : SameLines s t) :
    (exponentSign s).1 = (exponentSign t).1 ∧
      SameLines (exponentSign s).2 (exponentSign t).2 := by
  have hother {c : Char} (hplus : c ≠ '+') (hminus : c ≠ '-') (s : List Char) :
      Json.exponentSign (c :: s) = (false, c :: s) := by
    unfold Json.exponentSign
    split
    case h_1 heq => exact absurd (List.cons.inj heq).1 hplus
    case h_2 heq => exact absurd (List.cons.inj heq).1 hminus
    case h_3 => rfl
  cases h with
  | nil => exact ⟨rfl, .nil⟩
  | @cons c s t h =>
    by_cases hplus : c = '+'
    · subst hplus
      exact ⟨rfl, h⟩
    by_cases hminus : c = '-'
    · subst hminus
      exact ⟨rfl, h⟩
    · rw [hother hplus hminus, hother hplus hminus]
      exact ⟨rfl, h.cons c⟩
  | feed h => exact ⟨rfl, h.feed⟩
  | last => exact ⟨rfl, .last⟩
  | lastFeed => exact ⟨rfl, .lastFeed⟩

theorem agree_exponentDigits (down : Bool) (h : SameLines s t) :
    Agree (exponentDigits negative significand e down s)
      (exponentDigits negative significand e down t) := by
  obtain ⟨htake, hdrop⟩ := h.digits
  cases h with
  | nil => exact .error _ _
  | @cons c s t h =>
    simp only [exponentDigits, htake]
    split
    · exact .error _ _
    split
    · exact agree_floatOf _ _ _ hdrop
    split
    · exact .error _ _
    · exact .ok _ hdrop
  | feed h => exact .error _ _
  | last => exact .error _ _
  | lastFeed => exact .error _ _

theorem agree_numberExponent (h : SameLines s t) (hs : startsExponent s) :
    Agree (numberExponent negative significand e s) (numberExponent negative significand e t) := by
  cases h with
  | nil => cases hs
  | @cons c s t h =>
    obtain ⟨hdown, hafter⟩ := h.exponentSign
    rw [numberExponent_eq, numberExponent_eq, List.drop_succ_cons, List.drop_succ_cons,
      List.drop_zero, List.drop_zero, hdown]
    exact agree_exponentDigits _ _ _ _ hafter
  | feed h => cases hs
  | last => cases hs
  | lastFeed => cases hs

theorem agree_numberPlaces (h : SameLines s t) (hs : s.head? = some '.') :
    Agree (numberPlaces negative significand e s) (numberPlaces negative significand e t) := by
  cases h with
  | nil => cases hs
  | @cons c s t h =>
    obtain ⟨htake, hdrop⟩ := h.digits
    simp only [numberPlaces, List.drop_succ_cons, List.drop_zero, htake, hdrop.startsExponent]
    split
    · split <;> split <;> exact .error _ _
    split
    case isTrue hexponent =>
      exact agree_numberExponent _ _ _ hdrop (hdrop.startsExponent.trans hexponent)
    case isFalse => exact agree_floatOf _ _ _ hdrop
  | feed h => cases hs
  | last => cases hs
  | lastFeed => cases hs

theorem agree_numberBody (h : SameLines s t) :
    Agree (numberBody negative s) (numberBody negative t) := by
  obtain ⟨htake, hdrop⟩ := h.digits
  cases h with
  | nil => exact .error _ _
  | @cons c s t h =>
    have hpoint (s : List Char) : (s.head? == some '.') = s.head?.any (· == '.') := by
      cases s <;> rfl
    have hsame := hdrop.head?_any (p := (· == '.')) (by decide) (by decide)
    simp only [numberBody, htake, hdrop.startsExponent, hpoint,
      h.head?_any (p := Char.isDigit) (by decide) (by decide), hsame]
    split
    · exact .error _ _
    split
    · exact .error _ _
    split
    case isTrue hnext =>
      refine agree_numberPlaces _ _ _ hdrop (eq_of_beq ?_)
      rw [hpoint, hsame, hnext]
    split
    case isTrue hexponent =>
      exact agree_numberExponent _ _ _ hdrop (hdrop.startsExponent.trans hexponent)
    split
    · exact agree_floatOf _ _ _ hdrop
    split
    · exact .ok _ hdrop
    split <;> exact .ok _ hdrop
  | feed h => exact .error _ _
  | last => exact .error _ _
  | lastFeed => exact .error _ _

end

theorem agree_nameRest (h : SameLines s t) {name : List Char}
    (hname : ∀ c ∈ name, c ≠ '\n' ∧ c ≠ '\r') : Agree (nameRest name s) (nameRest name t) := by
  induction name generalizing s t with
  | nil => exact .ok () h
  | cons p name ih =>
    obtain ⟨⟨hfeed, hreturn⟩, hname⟩ := List.forall_mem_cons.1 hname
    have hother {c : Char} (hc : p ≠ c) (s : List Char) :
        nameRest (p :: name) (c :: s) = .error (.past .expectedName (c :: s)) := by
      rw [nameRest, if_neg (by simpa using hc)]
    cases h with
    | nil => exact .error _ _
    | @cons c s t h =>
      rw [nameRest, nameRest]
      split
      · exact ih h hname
      · exact .error _ _
    | feed h =>
      rw [hother hreturn, hother hfeed]
      exact .error _ _
    | last =>
      rw [hother hfeed]
      exact .error _ _
    | lastFeed =>
      rw [hother hreturn]
      exact .error _ _

theorem length_le_of_skipSpace {s rest : List Char} (h : Json.skipSpace s = rest) :
    rest.length ≤ s.length :=
  h ▸ (List.dropWhile_sublist _).length_le

section

variable {P : Value → Prop} {item : ItemReader Value}
  (hitem : ∀ s t, SameLines s t → Agree (item s) (item t))
  (hscans : ∀ s v rest, item s = .ok (v, rest) → Scans .outside s rest ∧ P v)

include hitem in
theorem agree_field (h : SameLines s t) : Agree (field item s) (field item t) := by
  refine (agree_stringBody h).bind fun key a b _ _ hab => ?_
  dsimp only
  rcases hab.skipSpace with ⟨ha, hb⟩ | ⟨c, a', b', ha, hb, hab'⟩
  · rw [ha, hb]
    exact .error _ _
  rw [ha, hb]
  by_cases hc : c = ':'
  · subst hc
    exact (hitem _ _ hab').map (fun value => (String.ofList key, value)) (fun _ _ => rfl)
      fun _ _ => rfl
  · split
    case h_3 =>
      split
      case h_3 => exact .error _ _
      all_goals simp_all
    all_goals simp_all

include hitem hscans

/-- The fuel of both readings is more than they can use. -/
theorem agree_moreItems {f g : Nat} (hf : s.length < f) (hg : t.length < g) (h : SameLines s t) :
    Agree (moreItems item f s) (moreItems item g t) := by
  induction f generalizing g s t with
  | zero => exact absurd hf (Nat.not_lt_zero _)
  | succ f ih =>
    obtain ⟨g, rfl⟩ : ∃ n, g = n + 1 := ⟨g - 1, by omega⟩
    rw [moreItems, moreItems]
    rcases h.skipSpace with ⟨hs, ht⟩ | ⟨c, s', t', hs, ht, h'⟩
    · rw [hs, ht]
      exact .error _ _
    have hs' := length_le_of_skipSpace hs
    have ht' := length_le_of_skipSpace ht
    rw [List.length_cons] at hs' ht'
    rw [hs, ht]
    by_cases hclose : c = ']'
    · subst hclose
      exact .ok [] h'
    by_cases hcomma : c = ','
    · subst hcomma
      simp only
      rcases h'.skipSpace with ⟨hs, ht⟩ | ⟨d, s'', t'', hs, ht, h''⟩
      · rw [hs, ht]
        exact .error _ _
      have hs'' := length_le_of_skipSpace hs
      have ht'' := length_le_of_skipSpace ht
      rw [hs, ht]
      dsimp only
      split
      · exact .error _ _
      · refine (hitem _ _ (h''.cons d)).bind fun v a b ha hb hab => ?_
        have ha' := (hscans _ _ _ ha).1.length_le
        have hb' := (hscans _ _ _ hb).1.length_le
        exact (ih (by omega) (by omega) hab).map (v :: ·) (fun _ _ => rfl) fun _ _ => rfl
    · split
      case h_4 =>
        split
        case h_4 => exact .error _ _
        all_goals simp_all
      all_goals simp_all

theorem agree_items (h : SameLines s t) : Agree (items item s) (items item t) := by
  unfold items
  rcases h.skipSpace with ⟨hs, ht⟩ | ⟨c, s', t', hs, ht, h'⟩
  · rw [hs, ht]
    exact .error _ _
  rw [hs, ht]
  by_cases hclose : c = ']'
  · subst hclose
    exact .ok [] h'
  · have hread : Agree
        (item (c :: s') >>= fun first => moreItems item first.2.length.succ first.2 >>= fun more =>
          .ok (first.1 :: more.1, more.2))
        (item (c :: t') >>= fun first => moreItems item first.2.length.succ first.2 >>= fun more =>
          .ok (first.1 :: more.1, more.2)) := by
      refine (hitem _ _ (h'.cons c)).bind fun v a b _ _ hab => ?_
      exact (agree_moreItems hitem hscans (Nat.lt_succ_self _) (Nat.lt_succ_self _) hab).map
        (v :: ·) (fun _ _ => rfl) fun _ _ => rfl
    split
    case h_3 =>
      split
      case h_3 => exact hread
      all_goals simp_all
    all_goals simp_all

/-- The fuel of both readings is more than they can use. -/
theorem agree_moreFields {f g : Nat} (hf : s.length < f) (hg : t.length < g) (h : SameLines s t) :
    Agree (moreFields item f s) (moreFields item g t) := by
  induction f generalizing g s t with
  | zero => exact absurd hf (Nat.not_lt_zero _)
  | succ f ih =>
    obtain ⟨g, rfl⟩ : ∃ n, g = n + 1 := ⟨g - 1, by omega⟩
    rw [moreFields, moreFields]
    rcases h.skipSpace with ⟨hs, ht⟩ | ⟨c, s', t', hs, ht, h'⟩
    · rw [hs, ht]
      exact .error _ _
    have hs' := length_le_of_skipSpace hs
    have ht' := length_le_of_skipSpace ht
    rw [List.length_cons] at hs' ht'
    rw [hs, ht]
    by_cases hclose : c = '\x7d'
    · subst hclose
      exact .ok [] h'
    by_cases hcomma : c = ','
    · subst hcomma
      simp only
      rcases h'.skipSpace with ⟨hs, ht⟩ | ⟨d, s'', t'', hs, ht, h''⟩
      · rw [hs, ht]
        exact .error _ _
      have hs'' := length_le_of_skipSpace hs
      have ht'' := length_le_of_skipSpace ht
      rw [List.length_cons] at hs'' ht''
      rw [hs, ht]
      by_cases hquote : d = '"'
      · subst hquote
        refine (agree_field hitem h'').bind fun first a b ha hb hab => ?_
        have ha' := (scans_of_field hscans ha).1.length_le
        have hb' := (scans_of_field hscans hb).1.length_le
        exact (ih (by omega) (by omega) hab).map (first :: ·) (fun _ _ => rfl) fun _ _ => rfl
      · by_cases hclose : d = '\x7d'
        · subst hclose
          exact .error _ _
        · split
          case h_4 =>
            split
            case h_4 => exact .error _ _
            all_goals simp_all
          all_goals simp_all
    · split
      case h_4 =>
        split
        case h_4 => exact .error _ _
        all_goals simp_all
      all_goals simp_all

theorem agree_fields (h : SameLines s t) : Agree (fields item s) (fields item t) := by
  unfold fields
  rcases h.skipSpace with ⟨hs, ht⟩ | ⟨c, s', t', hs, ht, h'⟩
  · rw [hs, ht]
    exact .error _ _
  rw [hs, ht]
  by_cases hclose : c = '\x7d'
  · subst hclose
    exact .ok [] h'
  by_cases hquote : c = '"'
  · subst hquote
    refine (agree_field hitem h').bind fun first a b _ _ hab => ?_
    exact (agree_moreFields hitem hscans (Nat.lt_succ_self _) (Nat.lt_succ_self _) hab).map
      (first :: ·) (fun _ _ => rfl) fun _ _ => rfl
  · split
    case h_4 =>
      split
      case h_4 => exact .error _ _
      all_goals simp_all
    all_goals simp_all

end

/-- What does not start as the other values do is a number without a sign, if anything. -/
theorem value_of_not_mem {depth : Nat} {s rest : List Char} {c : Char}
    (h : skipSpace s = c :: rest) (hc : c ∉ ['n', 't', 'f', '-', '"', '[', '\x7b']) :
    value depth s =
      if c.isDigit then numberBody false (c :: rest) >>= fun (n, rest) => .ok (.number n, rest)
      else .error (.past .expectedValue (c :: rest)) := by
  rw [value.eq_def, h]
  split
  case h_9 heq =>
    obtain ⟨rfl, rfl⟩ := List.cons.inj heq
    rfl
  all_goals simp_all

theorem agree_value {depth : Nat} {s t : List Char} (h : SameLines s t) :
    Agree (value depth s) (value depth t) := by
  rw [value.eq_def, value.eq_def depth t]
  rcases h.skipSpace with ⟨hs, ht⟩ | ⟨c, s', t', hs, ht, h'⟩
  · rw [hs, ht]
    exact .error _ _
  rw [hs, ht]
  by_cases hnull : c = 'n'
  · subst hnull
    exact (agree_nameRest h' (by decide)).map (fun _ => .null) (fun _ _ => rfl) fun _ _ => rfl
  by_cases htrue : c = 't'
  · subst htrue
    exact (agree_nameRest h' (by decide)).map (fun _ => .bool true) (fun _ _ => rfl) fun _ _ => rfl
  by_cases hfalse : c = 'f'
  · subst hfalse
    exact (agree_nameRest h' (by decide)).map (fun _ => .bool false) (fun _ _ => rfl) fun _ _ => rfl
  by_cases hminus : c = '-'
  · subst hminus
    exact (agree_numberBody true h').map .number (fun _ _ => rfl) fun _ _ => rfl
  by_cases hquote : c = '"'
  · subst hquote
    exact (agree_stringBody h').map (fun text => .string (String.ofList text)) (fun _ _ => rfl)
      fun _ _ => rfl
  by_cases hlist : c = '['
  · subst hlist
    match depth with
    | 0 => exact .error _ _
    | 1 => exact .error _ _
    | depth + 2 =>
      exact (agree_items (fun _ _ => agree_value) (fun _ _ _ => scans_of_value (Nat.succ_pos _))
        h').map .array (fun _ _ => rfl) fun _ _ => rfl
  by_cases hobject : c = '\x7b'
  · subst hobject
    match depth with
    | 0 => exact .error _ _
    | 1 => exact .error _ _
    | depth + 2 =>
      exact (agree_fields (fun _ _ => agree_value) (fun _ _ _ => scans_of_value (Nat.succ_pos _))
        h').map .object (fun _ _ => rfl) fun _ _ => rfl
  have hc : c ∉ ['n', 't', 'f', '-', '"', '[', '\x7b'] := by
    simp only [List.mem_cons, List.not_mem_nil, or_false]
    tauto
  rw [← hs, ← ht, ← value.eq_def, ← value.eq_def, value_of_not_mem hs hc, value_of_not_mem ht hc]
  split
  · exact (agree_numberBody false (h'.cons c)).map .number (fun _ _ => rfl) fun _ _ => rfl
  · exact .error _ _

/-- A text reads the same with other line ends. -/
theorem toOption_readRaw_of_sameLines {a b : String} (h : SameLines a.toList b.toList) :
    (readRaw a).toOption = (readRaw b).toOption := by
  have hvalue : Agree (value depthLimit a.toList) (value depthLimit b.toList) := agree_value h
  unfold readRaw
  generalize value depthLimit a.toList = x, value depthLimit b.toList = y at hvalue
  cases hvalue with
  | error e f => rfl
  | ok v hrest =>
    rcases hrest.skipSpace with ⟨hs, ht⟩ | ⟨c, s', t', hs, ht, -⟩
    · simp only [bind, Except.bind, hs, ht]
    · simp only [bind, Except.bind, hs, ht]
      rfl

end ThemeSection.Json
