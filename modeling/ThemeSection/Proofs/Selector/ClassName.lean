import ThemeSection.Proofs.Chars.Search
import ThemeSection.Selector.Match
import ThemeSection.Selector.Reader

/-!
Selectors of a class. A point before a name is read as a selector of that class if the name starts as an
identifier does. Before a digit the point starts a number, so that what was meant for a name is no
selector.
-/

namespace ThemeSection.Selector

namespace Token

/-- A name without escapes is read as it is. -/
theorem readName_eq {fuel : Nat} {s : List Char} (hfuel : s.length ≤ fuel)
    (h : ∀ c ∈ s, isNameChar c ∧ c ≠ '\x00') : readName fuel s = (s, []) := by
  induction s generalizing fuel with
  | nil => cases fuel <;> rfl
  | cons c s ih =>
    obtain ⟨⟨hname, hnul⟩, hs⟩ := List.forall_mem_cons.1 h
    obtain ⟨fuel, rfl⟩ : ∃ n, fuel = n + 1 := ⟨fuel - 1, by simp at hfuel; omega⟩
    rw [readName, if_pos hname, ih (Nat.le_of_succ_le_succ hfuel) hs]
    simp [hnul]

theorem isNameStart_of_isDigit {c : Char} (h : c.isDigit) : isNameStart c = false := by
  have hall : ∀ n : Fin 0x80, (Char.ofNat n).isDigit → isNameStart (Char.ofNat n) = false := by decide
  have hrange : 48 ≤ c.toNat ∧ c.toNat ≤ 57 := Char.isDigit_iff_toNat.1 h
  have hc := hall ⟨c.toNat, by omega⟩
  rw [Char.ofNat_toNat] at hc
  exact hc h

/-- What starts a name is neither a blank nor a digit, and no mark that means something else. -/
theorem plain_of_isNameStart {c : Char} (h : isNameStart c) :
    isSpace c = false ∧ c.isDigit = false ∧ ∀ mark ∈ ['+', '-', '.', '\\'], c ≠ mark := by
  have hother : ∀ mark, isNameStart mark = false → c ≠ mark := by
    rintro mark hmark rfl
    rw [h] at hmark
    cases hmark
  refine ⟨?_, ?_, fun mark hmark => hother mark ?_⟩
  · have hblank : ∀ blank ∈ [' ', '\t', '\n', '\r', '\x0c'], isNameStart blank = false := by decide
    simp only [List.forall_mem_cons, List.not_mem_nil, false_implies, implies_true, and_true] at hblank
    obtain ⟨hspace, htab, hfeed, hreturn, hpage⟩ := hblank
    simp [isSpace, isNewline, hother _ hspace, hother _ htab, hother _ hfeed, hother _ hreturn,
      hother _ hpage]
  · refine Bool.not_eq_true _ ▸ fun hdigit => ?_
    exact hother c (isNameStart_of_isDigit hdigit) rfl
  · revert mark
    decide

theorem startsNumber_eq {c : Char} (h : ∀ mark ∈ ['+', '-', '.'], c ≠ mark) (s : List Char) :
    startsNumber (c :: s) = c.isDigit := by
  simp only [List.forall_mem_cons, List.not_mem_nil] at h
  unfold startsNumber
  split <;> simp_all [startsDigits]

/-- A name that starts as an identifier, up to the end of the text, is one token. -/
theorem next_name {fuel : Nat} {c : Char} {s : List Char} (hc : isNameStart c)
    (hfuel : s.length < fuel) (h : ∀ d ∈ c :: s, isNameChar d ∧ d ≠ '\x00') :
    next fuel (c :: s) = (some (.ident (String.ofList (c :: s))), []) := by
  obtain ⟨hspace, hdigit, hmark⟩ := plain_of_isNameStart hc
  simp only [List.forall_mem_cons, List.not_mem_nil, false_implies, implies_true, and_true] at hmark
  obtain ⟨hplus, hminus, hpoint, hslash⟩ := hmark
  have hnumber : startsNumber (c :: s) = false := by
    rw [startsNumber_eq (by simp [hplus, hminus, hpoint]), hdigit]
  have hname : startsName (c :: s) = true := by
    unfold startsName
    split <;> simp_all
  simp [next, hspace, hnumber, hname, Ne.symm hminus, readName_eq (s := c :: s) hfuel h,
    List.isPrefixOf]

theorem next_point (fuel : Nat) {c : Char} (hc : c.isDigit = false) (s : List Char) :
    next fuel ('.' :: c :: s) = (some (.mark '.'), c :: s) := by
  have hnumber : startsNumber ('.' :: c :: s) = false := hc
  have hspace : isSpace '.' = false := by decide
  have hname : startsName ('.' :: c :: s) = false := by
    have hstart : isNameStart '.' = false := by decide
    simp [startsName, hstart]
  simp [next, hspace, hnumber, hname, List.isPrefixOf]

/-- A point before a digit starts a number. -/
theorem next_point_digit (fuel : Nat) {c : Char} (hc : c.isDigit) (s : List Char) :
    ∃ token rest, next fuel ('.' :: c :: s) = (some token, rest) ∧
      (token = .other ∨ (∃ n, token = .number n) ∨ ∃ n unit, token = .dimension n unit) := by
  have hnumber : startsNumber ('.' :: c :: s) = true := hc
  have hspace : isSpace '.' = false := by decide
  simp only [next, hspace, hnumber, Bool.false_eq_true, if_false, if_true]
  split
  · exact ⟨_, _, rfl, Or.inr (Or.inr ⟨_, _, rfl⟩)⟩
  · split
    · exact ⟨_, _, rfl, Or.inl rfl⟩
    · exact ⟨_, _, rfl, Or.inr (Or.inl ⟨_, rfl⟩)⟩

end Token

/-- A point before a name that starts as an identifier selects the class of that name. -/
theorem read?_class {c : Char} {s : List Char} (hc : Token.isNameStart c)
    (h : ∀ d ∈ c :: s, Token.isNameChar d ∧ d ≠ '\x00') :
    read? (String.ofList ('.' :: c :: s)) = some (classes [String.ofList (c :: s)]) := by
  have htokens : Token.all ('.' :: c :: s) = [.mark '.', .ident (String.ofList (c :: s))] := by
    have hdigit := (Token.plain_of_isNameStart hc).2.1
    have hname := Token.next_name hc (Nat.lt_succ_self s.length) h
    simp only [Token.all, List.length_cons, Token.all.go, Token.next_point _ hdigit, hname]
    cases s.length <;> rfl
  rw [read?, String.toList_ofList, htokens]
  rfl

/-- A point before a digit begins no selector. -/
theorem read?_point_digit {c : Char} (hc : c.isDigit) (s : List Char) :
    read? (String.ofList ('.' :: c :: s)) = none := by
  obtain ⟨token, rest, hnext, htoken⟩ := Token.next_point_digit (s.length + 1 + 1) hc s
  have htokens : ∃ tokens, Token.all ('.' :: c :: s) = token :: tokens := by
    rw [Token.all, List.length_cons, Token.all.go]
    rw [List.length_cons, hnext]
    exact ⟨_, rfl⟩
  obtain ⟨tokens, htokens⟩ := htokens
  rw [read?, String.toList_ofList, htokens]
  rcases htoken with rfl | ⟨n, rfl⟩ | ⟨n, unit, rfl⟩ <;> rfl

/-- An element whose class is one word is selected by that class. -/
theorem holds_class {word : String} (hne : word ≠ "") (hword : ∀ c ∈ word.toList, isSeparator c = false)
    {p : Markup.Place} {element : Markup.ElementName × Markup.Attributes}
    (helement : p.tree.element? = some element) (hclass : element.2.get? (.plain "class") = some word) :
    holds (classes [word]) p := by
  have hwords : valueWords word.toList = [word.toList] := by
    have hne : word.toList ≠ [] := fun hnil => hne (String.toList_eq_nil_iff.1 hnil)
    rw [valueWords, Chars.splitWhere_eq_singleton hword]
    simp [hne]
  have hpasses : Simple.passes element.1 element.2 p (.className word) = true := by
    simp [Simple.passes, hclass, hwords]
  simp [holds, classes, of, Complex.holds, meets, helement, contextHolds, hpasses]

end ThemeSection.Selector
