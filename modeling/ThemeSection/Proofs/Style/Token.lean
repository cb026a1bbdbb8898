import ThemeSection.Proofs.Style.Replaced

/-!
The `url( … )` that the background image of a style is read from, and what another source does to it.
The writer looks for the first `url(` of the declaration where the reader looks for the first with an
address: what stands from the one to the other is lost. And the reader starts over at the front, where
a declaration that is open there takes in the new source with all that is before it.
-/

namespace ThemeSection.Style

/-- The `url( … )` that an address is read from, with all that stands around the address. -/
structure Token where
  word : List Char
  front : List Char
  opening : Option Char
  url : List Char
  closing : Option Char
  back : List Char
  isUrl : Chars.lowerAscii word = "url(".toList
  isBlank_front : ∀ c ∈ front, Chars.isBlank c
  isQuote_opening : ∀ c ∈ opening, isQuote c
  isPlain_url : ∀ c ∈ url, isPlain c
  url_nonempty : url ≠ []
  isQuote_closing : ∀ c ∈ closing, isQuote c
  isBlank_back : ∀ c ∈ back, Chars.isBlank c

def Token.text (t : Token) : List Char :=
  t.word ++ (t.front ++ (t.opening.toList ++ (t.url ++ (t.closing.toList ++ (t.back ++ [')'])))))

theorem exists_unquoted (s : List Char) :
    ∃ opening : Option Char, (∀ c ∈ opening, isQuote c) ∧ s = opening.toList ++ unquoted s := by
  cases s with
  | nil => exact ⟨none, by simp, rfl⟩
  | cons c more =>
    rw [unquoted]
    split
    case isTrue hc => exact ⟨some c, by simpa using hc, rfl⟩
    case isFalse => exact ⟨none, by simp, rfl⟩

theorem exists_of_closed? {front y : List Char} {a : Address} (h : closed? front y = some a) :
    a.url ≠ [] ∧ ∃ (closing : Option Char) (back : List Char),
      (∀ c ∈ closing, isQuote c) ∧ (∀ c ∈ back, Chars.isBlank c) ∧
        front ++ y = a.url ++ (closing.toList ++ (back ++ ')' :: a.after)) := by
  have htoken := (exists_of_closeToken? h).2
  rwa [List.append_assoc, List.takeWhile_append_dropWhile] at htoken

theorem exists_word {tail value : List Char}
    (h : Chars.stripFolded? "url(".toList tail = some value) :
    ∃ word, Chars.lowerAscii word = "url(".toList ∧ tail = word ++ value := by
  obtain ⟨word, rfl⟩ := suffix_of_stripFolded? h
  have hlower := lowerAscii_of_stripFolded? (by decide) h
  rw [Chars.lowerAscii, List.map_append] at hlower
  exact ⟨word, List.append_cancel_right hlower, rfl⟩

/-- An address is read from a token. -/
theorem exists_token {tail : List Char} {a : Address}
    (h : (Chars.stripFolded? "url(".toList tail).bind address? = some a) :
    ∃ t : Token, tail = t.text ++ a.after ∧ t.url = a.url := by
  obtain ⟨value, hvalue, ha⟩ := Option.bind_eq_some_iff.1 h
  have hplain := isPlain_of_address? ha
  obtain ⟨word, hword, rfl⟩ := exists_word hvalue
  have hfront : ∀ c ∈ value.takeWhile Chars.isBlank, Chars.isBlank c :=
    fun c hc => List.all_eq_true.1 List.all_takeWhile c hc
  have hsplit := List.takeWhile_append_dropWhile (p := Chars.isBlank) (l := value)
  rw [address?_eq] at ha
  generalize value.takeWhile Chars.isBlank = front at ha hfront hsplit
  generalize value.dropWhile Chars.isBlank = rest at ha hsplit
  subst hsplit
  rcases Option.or_eq_some_iff.1 ha with ha | ⟨-, ha⟩
  · obtain ⟨hne, closing, back, hclosing, hback, htext⟩ := exists_of_closed? ha
    obtain ⟨opening, hopening, hrest⟩ := exists_unquoted rest
    refine ⟨⟨word, front, opening, a.url, closing, back, hword, hfront, hopening, hplain, hne, hclosing,
      hback⟩, ?_, rfl⟩
    rw [hrest, ← List.nil_append (unquoted rest), htext]
    simp [Token.text]
  · -- The last of the blanks is the start of the address.
    obtain ⟨blank, hblank, ha⟩ := Option.bind_eq_some_iff.1 ha
    obtain ⟨hne, closing, back, hclosing, hback, htext⟩ := exists_of_closed? ha
    obtain ⟨front, rfl⟩ := List.getLast?_eq_some_iff.1 hblank
    refine ⟨⟨word, front, none, a.url, closing, back, hword,
      fun c hc => hfront c (List.mem_append_left _ hc), by simp, hplain, hne, hclosing, hback⟩, ?_, rfl⟩
    rw [List.append_assoc, htext]
    simp [Token.text]

theorem Bare.trim {source : List Char} (h : Bare source) : Chars.trim source = source :=
  Chars.trim_eq_self h.head h.last

/-- What begins with `url(` and goes on with a source can be the end of an address. -/
theorem Bare.url {source : List Char} (h : Bare source) : Bare ("url(".toList ++ source) where
  plain := List.forall_mem_append.2 ⟨by decide, h.plain⟩
  nonempty := by simp
  head := by
    intro c hc
    obtain rfl : 'u' = c := Option.some.inj hc
    decide
  last := by
    rw [List.getLast?_append_of_ne_nil _ h.nonempty]
    exact h.last

/-- A style that has been given a source has that source as its background image exactly if it leaves
no declaration open before it. -/
theorem backgroundUrl?_replace_iff {style source : String} (hsource : Bare source.toList)
    {b : Background} (hb : background? style.toList = some b) :
    backgroundUrl? (replaceBackgroundUrl style source) = some source ↔
      leavesOpen (b.before ++ b.declaration.head) = false := by
  obtain ⟨-, -, -, -, -, -, hshown⟩ := exists_background? hsource hb
  obtain ⟨b', hb', hreads⟩ := hshown b.declaration.address.after
  rw [← toList_replaceBackgroundUrl hb] at hb'
  rcases hreads with ⟨hclosed, hurl⟩ | ⟨hopen, y, hurl⟩
  · refine iff_of_true ?_ hclosed
    obtain ⟨c, more, hcons⟩ := List.exists_cons_of_ne_nil hsource.nonempty
    rw [backgroundUrl?, hb']
    dsimp only
    rw [hurl, hsource.trim, hcons]
    dsimp only
    rw [← hcons, String.ofList_toList]
  · refine iff_of_false (fun h => ?_) (by simp [hopen])
    obtain ⟨read, hread, htrim⟩ := exists_of_backgroundUrl? h
    obtain rfl := Option.some.inj (hb'.symm.trans hread)
    have hlonger := (suffix_trim hsource.url (hurl ▸ List.suffix_append y _)).length_le
    rw [htrim, List.length_append] at hlonger
    have hword : "url(".toList.length = 4 := rfl
    omega

/-- A style is cut at the token that its background image is read from. Another source takes the place
of the token and of the gap before it, which is empty unless another `url(` of the declaration comes
first; and it is what is read then exactly if no declaration is left open before it. A style without a
token stays as it is. -/
theorem exists_token_replaceBackgroundUrl {style source : String} (hsource : Bare source.toList) :
    (∀ url, backgroundUrl? style = some url → ∃ (before gap : List Char) (t : Token) (after : List Char),
      style.toList = before ++ (gap ++ (t.text ++ after)) ∧ Chars.trim t.url = url.toList ∧
      (gap = [] ∨ "url(".toList <+: Chars.lowerAscii gap) ∧
      (replaceBackgroundUrl style source).toList =
        before ++ ("url(".toList ++ (source.toList ++ ')' :: after)) ∧
      (backgroundUrl? (replaceBackgroundUrl style source) = some source ↔ leavesOpen before = false)) ∧
    (background? style.toList = none → replaceBackgroundUrl style source = style) := by
  refine ⟨fun url hurl => ?_, fun hnone => by rw [replaceBackgroundUrl, hnone]⟩
  obtain ⟨b, hb, htrim⟩ := exists_of_backgroundUrl? hurl
  obtain ⟨w, gap, tail, htext, hcut, -, -⟩ := exists_background? hsource hb
  obtain ⟨t, rfl, ht⟩ := exists_token hcut.token
  refine ⟨b.before ++ b.declaration.head, gap, t, b.declaration.address.after, ?_, ht ▸ htrim, hcut.gap,
    toList_replaceBackgroundUrl hb source, backgroundUrl?_replace_iff hsource hb⟩
  rw [htext, hcut.eq, List.append_assoc]

/-- An empty `url()` before the address goes with it. -/
theorem exists_token_replaceBackgroundUrl_layers :
    Bare "b.png".toList ∧ backgroundUrl? "background: url(), url(a.png)" = some "a.png" ∧
      replaceBackgroundUrl "background: url(), url(a.png)" "b.png" = "background: url(b.png)" ∧
      ∃ (before gap : List Char) (t : Token) (after : List Char),
        "background: url(), url(a.png)".toList = before ++ (gap ++ (t.text ++ after)) ∧
        Chars.trim t.url = "a.png".toList ∧
        "background: url(b.png)".toList =
          before ++ ("url(".toList ++ ("b.png".toList ++ ')' :: after)) := by
  have hbare : Bare "b.png".toList := by
    refine ⟨by decide, by decide, fun c hc => ?_, fun c hc => ?_⟩
    · obtain rfl : 'b' = c := Option.some.inj hc
      decide
    · obtain rfl : 'g' = c := Option.some.inj hc
      decide
  have hurl : backgroundUrl? "background: url(), url(a.png)" = some "a.png" := by decide
  have hlost : replaceBackgroundUrl "background: url(), url(a.png)" "b.png" = "background: url(b.png)" := by
    decide
  obtain ⟨before, gap, t, after, hstyle, htrim, -, hreplaced, -⟩ :=
    (exists_token_replaceBackgroundUrl hbare).1 _ hurl
  exact ⟨hbare, hurl, hlost, before, gap, t, after, hstyle, htrim, hlost ▸ hreplaced⟩

/-- The new source is read back with all that follows an open `url(`. -/
example : backgroundUrl? (replaceBackgroundUrl "background: url(; background: url('a')" "b") =
    some "; background: url(b" := by
  decide

end ThemeSection.Style
