import ThemeSection.Proofs.Chars.Blank
import ThemeSection.Proofs.Liquid.Written
import ThemeSection.Style.Background

/-!
What reading a background image takes out of a style. All pieces into which a style is cut are made
of its own characters, so that a style without braces has none in any of them, and another source put
into it is the only template syntax that it has after that.
-/

namespace ThemeSection.Style

open Liquid

variable {s : List Char}

theorem suffix_of_stripFolded? {pattern rest : List Char}
    (h : Chars.stripFolded? pattern s = some rest) : rest <:+ s := by
  induction pattern generalizing s with
  | nil =>
    rw [Chars.stripFolded?] at h
    exact Option.some.inj h ▸ List.suffix_refl _
  | cons p pattern ih =>
    cases s with
    | nil => cases h
    | cons c s =>
      rw [Chars.stripFolded?] at h
      split at h
      · exact (ih h).trans (List.suffix_cons c s)
      · cases h

theorem suffix_of_afterProperty? {value : List Char} (h : afterProperty? s = some value) :
    value <:+ s := by
  unfold afterProperty? at h
  obtain ⟨rest, hrest, h⟩ := Option.bind_eq_some_iff.1 h
  have hnamed : (Chars.stripFolded? "-image".toList rest).getD rest <:+ s := by
    cases himage : Chars.stripFolded? "-image".toList rest with
    | none => exact suffix_of_stripFolded? hrest
    | some named => exact (suffix_of_stripFolded? himage).trans (suffix_of_stripFolded? hrest)
  have hdropped := (List.dropWhile_suffix Chars.isBlank).trans hnamed
  dsimp only at h
  split at h
  case h_1 heq =>
    obtain rfl := Option.some.inj h
    rw [heq] at hdropped
    exact (List.suffix_cons _ _).trans hdropped
  case h_2 => cases h

/-- What is read before the address of a value is passed by. -/
theorem exists_token_of_firstUrl? {d : Declaration} (h : firstUrl? s = some d) :
    ∃ tail, s = d.before ++ tail ∧
      (Chars.stripFolded? "url(".toList tail).bind address? = some d.address ∧
      ∀ c ∈ d.before, c ≠ ';' := by
  induction s generalizing d with
  | nil => cases h
  | cons c rest ih =>
    rw [firstUrl?] at h
    split at h
    case h_1 a ha =>
      obtain rfl := Option.some.inj h
      exact ⟨c :: rest, rfl, ha, List.forall_mem_nil _⟩
    case h_2 =>
      split at h
      case isTrue => cases h
      case isFalse hsemicolon =>
        obtain ⟨inner, hinner, rfl⟩ := Option.map_eq_some_iff.1 h
        obtain ⟨tail, rfl, htoken, hpassed⟩ := ih hinner
        exact ⟨tail, rfl, htoken, List.forall_mem_cons.2 ⟨by simpa using hsemicolon, hpassed⟩⟩

/-- The first declaration with an address is read where it stands. -/
theorem exists_declarationHere_of_background? {b : Background} (h : background? s = some b) :
    ∃ t, s = b.before ++ t ∧ declarationHere? t = some b.declaration := by
  induction s generalizing b with
  | nil => cases h
  | cons c rest ih =>
    rw [background?] at h
    split at h
    case h_1 d hd =>
      obtain rfl := Option.some.inj h
      exact ⟨c :: rest, rfl, hd⟩
    case h_2 =>
      obtain ⟨inner, hinner, rfl⟩ := Option.map_eq_some_iff.1 h
      obtain ⟨t, rfl, ht⟩ := ih hinner
      exact ⟨t, rfl, ht⟩

/-- An address is made of characters of a text, and so is what comes after it. -/
structure Address.Within (s : List Char) (a : Address) : Prop where
  url : a.url ⊆ s
  after : a.after ⊆ s

theorem Address.Within.mono {s' : List Char} {a : Address} (h : a.Within s) (hsub : s ⊆ s') :
    a.Within s' :=
  ⟨List.Subset.trans h.url hsub, List.Subset.trans h.after hsub⟩

/-- The token of an address ends with its address, a quote, blanks and the parenthesis. -/
theorem exists_of_closeToken? {url rest : List Char} {a : Address}
    (h : closeToken? url rest = some a) :
    a.url <+: url ∧ a.url ≠ [] ∧ ∃ (closing : Option Char) (back : List Char),
      (∀ c ∈ closing, isQuote c) ∧ (∀ c ∈ back, Chars.isBlank c) ∧
        url ++ rest = a.url ++ (closing.toList ++ (back ++ ')' :: a.after)) := by
  unfold closeToken? at h
  split at h
  case isTrue => cases h
  case isFalse hne =>
    rw [List.isEmpty_iff] at hne
    split at h
    case h_1 => cases h
    case h_2 c after =>
      split at h
      case isTrue hc =>
        obtain rfl := eq_of_beq hc
        obtain rfl := Option.some.inj h
        obtain ⟨blanks, hblanks, hall⟩ := Chars.exists_trimEnd url
        have hdrop : url.drop (Chars.trimEnd url).length = blanks :=
          (congrArg (List.drop _) hblanks).trans List.drop_left
        refine ⟨List.take_prefix _ _, fun hnil => ?_, none, url.drop (max 1 (Chars.trimEnd url).length),
          by simp, fun d hd => ?_, ?_⟩
        · have hlength := congrArg List.length hnil
          have hpos := List.length_pos_iff.2 hne
          simp only [List.length_take, List.length_nil] at hlength
          omega
        · refine hall d (hdrop ▸ ?_)
          exact (List.drop_suffix_drop_left url (Nat.le_max_right 1 _)).subset hd
        · rw [Option.toList_none, List.nil_append, ← List.append_assoc, List.take_append_drop]
      case isFalse =>
        split at h
        case h_1 after' hdrop =>
          split at h
          case isTrue hquote =>
            obtain rfl := Option.some.inj h
            refine ⟨List.prefix_rfl, hne, some c, after.takeWhile Chars.isBlank, by simpa using hquote,
              fun d hd => List.all_eq_true.1 List.all_takeWhile d hd, ?_⟩
            rw [← hdrop, List.takeWhile_append_dropWhile]
            rfl
          case isFalse => cases h
        case h_2 => cases h

theorem within_of_closeToken? {url rest : List Char} {a : Address}
    (h : closeToken? url rest = some a) (hurl : url ⊆ s) (hrest : rest ⊆ s) : a.Within s := by
  obtain ⟨hstart, -, closing, back, -, -, htext⟩ := exists_of_closeToken? h
  have hafter : a.after ⊆ url ++ rest := fun c hc => by
    rw [htext]
    simp [hc]
  exact ⟨List.Subset.trans hstart.subset hurl,
    List.Subset.trans hafter (List.append_subset.2 ⟨hurl, hrest⟩)⟩

theorem within_of_address? {a : Address} (h : address? s = some a) : a.Within s := by
  have hrest : s.dropWhile Chars.isBlank ⊆ s := (List.dropWhile_sublist _).subset
  unfold address? at h
  extract_lets blanks rest start at h
  rcases Option.or_eq_some_iff.1 h with h | ⟨-, h⟩
  · have hsub : start ⊆ s := by
      unfold start rest
      split
      case h_1 c more heq =>
        split
        · rw [heq] at hrest
          exact List.Subset.trans (List.subset_cons_self c more) hrest
        · exact hrest
      case h_2 => exact List.nil_subset _
    exact within_of_closeToken? h
      (List.Subset.trans (List.takeWhile_sublist _).subset hsub)
      (List.Subset.trans (List.dropWhile_sublist _).subset hsub)
  · split at h
    · cases h
    case h_2 blank hblank =>
      have hmem : blank ∈ s :=
        (List.takeWhile_sublist _).subset (List.mem_of_getLast? hblank)
      refine within_of_closeToken? h (List.cons_subset.2 ⟨hmem, ?_⟩) ?_
      · exact List.Subset.trans (List.takeWhile_sublist _).subset hrest
      · exact List.Subset.trans (List.dropWhile_sublist _).subset hrest

/-- The pieces of a declaration are made of characters of a text. -/
structure Declaration.Within (s : List Char) (d : Declaration) : Prop where
  before : d.before ⊆ s
  address : d.address.Within s

theorem Declaration.Within.mono {s' : List Char} {d : Declaration} (h : d.Within s)
    (hsub : s ⊆ s') : d.Within s' :=
  ⟨List.Subset.trans h.before hsub, h.address.mono hsub⟩

theorem within_of_firstUrl? {d : Declaration} (h : firstUrl? s = some d) : d.Within s := by
  obtain ⟨tail, rfl, htoken, -⟩ := exists_token_of_firstUrl? h
  obtain ⟨value, hvalue, ha⟩ := Option.bind_eq_some_iff.1 htoken
  have htail := (suffix_of_stripFolded? hvalue).trans (List.suffix_append d.before tail)
  exact ⟨List.subset_append_left _ _, (within_of_address? ha).mono htail.subset⟩

theorem within_of_declarationHere? {d : Declaration} (h : declarationHere? s = some d) :
    d.Within s := by
  unfold declarationHere? at h
  obtain ⟨value, hvalue, h⟩ := Option.bind_eq_some_iff.1 h
  obtain ⟨inner, hinner, h⟩ := Option.bind_eq_some_iff.1 h
  obtain rfl := Option.some.inj h
  have hwithin := (within_of_firstUrl? hinner).mono (suffix_of_afterProperty? hvalue).subset
  exact ⟨List.append_subset.2 ⟨List.take_subset _ _, hwithin.before⟩, hwithin.address⟩

theorem within_of_background? {b : Background} (h : background? s = some b) :
    b.before ⊆ s ∧ b.declaration.Within s := by
  obtain ⟨t, rfl, hd⟩ := exists_declarationHere_of_background? h
  exact ⟨List.subset_append_left _ _, (within_of_declarationHere? hd).mono (List.subset_append_right _ _)⟩

theorem head_subset (d : Declaration) : d.head ⊆ d.before ++ "url(".toList := by
  unfold Declaration.head
  dsimp only
  split
  · exact List.take_subset _ _
  · exact List.subset_append_left _ _

/-- The background image of a style is the trimmed address of its declaration. -/
theorem exists_of_backgroundUrl? {style url : String} (h : backgroundUrl? style = some url) :
    ∃ b, background? style.toList = some b ∧ Chars.trim b.declaration.address.url = url.toList := by
  unfold backgroundUrl? at h
  split at h
  case h_1 => cases h
  case h_2 b hb =>
    split at h
    case h_1 => cases h
    case h_2 =>
      obtain rfl := Option.some.inj h
      exact ⟨b, hb, by rw [String.toList_ofList]⟩

/-- The address of a background image has no brace if the style has none. -/
theorem braceless_backgroundUrl? {style url : String} (h : Braceless style.toList)
    (hurl : backgroundUrl? style = some url) : Braceless url.toList := by
  obtain ⟨b, hb, htrim⟩ := exists_of_backgroundUrl? hurl
  intro c hc
  rw [← htrim] at hc
  exact h c ((within_of_background? hb).2.address.url (Chars.trim_subset _ hc))

/-- Where a style has a source, another source takes its place. -/
theorem infix_replaceBackgroundUrl {style url : String} (hurl : backgroundUrl? style = some url)
    (source : String) : source.toList <:+: (replaceBackgroundUrl style source).toList := by
  obtain ⟨b, hb, -⟩ := exists_of_backgroundUrl? hurl
  rw [replaceBackgroundUrl, hb, String.toList_ofList]
  exact ⟨b.before ++ b.declaration.head ++ "url(".toList, _, rfl⟩

/-- A style without braces is as sound as the source that is put into it. -/
theorem sound_replaceBackgroundUrl {allowed : Owner → String → Prop} {style source : String}
    (h : Braceless style.toList) (hsource : Sound allowed source) :
    Sound allowed (replaceBackgroundUrl style source) := by
  unfold replaceBackgroundUrl
  split
  · exact sound_of_braceless h
  case h_2 b hb =>
    obtain ⟨hbefore, hdeclaration⟩ := within_of_background? hb
    have hpre : Braceless (b.before ++ b.declaration.head ++ "url(".toList) := by
      refine Braceless.append (Braceless.append (fun c hc => h c (hbefore hc)) fun c hc => ?_)
        (by decide)
      rcases List.mem_append.1 (head_subset _ hc) with hc | hc
      · exact h c (hdeclaration.before hc)
      · exact (by decide : Braceless "url(".toList) c hc
    have hpost : Braceless (')' :: b.declaration.address.after) :=
      List.forall_mem_cons.2 ⟨by decide, fun c hc => h c (hdeclaration.address.after hc)⟩
    have hofList {t : List Char} (ht : Braceless t) : Sound allowed (String.ofList t) :=
      sound_of_braceless (by rwa [String.toList_ofList])
    have hsound := ((hofList hpre).append hsource).append (hofList hpost)
    have htext : String.ofList (b.before ++ b.declaration.head ++ "url(".toList) ++ source ++
        String.ofList (')' :: b.declaration.address.after) =
          String.ofList (b.before ++ b.declaration.head ++ "url(".toList ++ source.toList ++
            ')' :: b.declaration.address.after) := by
      simp [← String.toList_inj]
    exact htext ▸ hsound

end ThemeSection.Style
