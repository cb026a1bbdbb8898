import ThemeSection.Proofs.Document.Edit

/-!
Tags as they are read. A tag is read up to its end and no further: what comes after it is left as it is,
and the attributes that it already has stay the first ones.
-/

namespace ThemeSection.Markup

section

variable {p : Char → Bool} {s left : List Char}

theorem dropWhile_append_of_ne_nil (h : s.dropWhile p ≠ []) (t : List Char) :
    (s ++ t).dropWhile p = s.dropWhile p ++ t := by
  rw [List.dropWhile_append, if_neg (by simpa using h)]

theorem takeWhile_append_of_ne_nil (h : s.dropWhile p ≠ []) (t : List Char) :
    (s ++ t).takeWhile p = s.takeWhile p := by
  rw [List.takeWhile_append, if_neg]
  intro hlength
  have hparts := congrArg List.length (List.takeWhile_append_dropWhile (p := p) (l := s))
  rw [List.length_append] at hparts
  exact h (List.eq_nil_of_length_eq_zero (by omega))

/-- A value that is read up to its end is read in the same way whatever comes after it. -/
theorem attributeValue?_append {value : String} (h : attributeValue? s = some (value, left))
    (t : List Char) : attributeValue? (s ++ t) = some (value, left ++ t) := by
  unfold attributeValue? at h
  split at h
  case h_1 => cases h
  case h_2 rest =>
    obtain ⟨rfl, rfl⟩ := Prod.mk.inj (Option.some.inj h)
    rfl
  case h_3 c rest hc =>
    rw [List.cons_append, attributeValue?.eq_3 _ _ hc]
    split at h
    case isTrue hquote =>
      rw [if_pos hquote]
      split at h
      case h_1 => cases h
      case h_2 after hrest =>
        have hne : rest.dropWhile (· != c) ≠ [] := by simp [hrest]
        obtain ⟨rfl, rfl⟩ := Prod.mk.inj (Option.some.inj h)
        rw [takeWhile_append_of_ne_nil hne, dropWhile_append_of_ne_nil hne, hrest]
        rfl
    case isFalse hquote =>
      rw [if_neg hquote]
      split at h
      case h_1 => cases h
      case h_2 hne =>
        obtain ⟨rfl, rfl⟩ := Prod.mk.inj (Option.some.inj h)
        rw [← List.cons_append, takeWhile_append_of_ne_nil hne, dropWhile_append_of_ne_nil hne]
        split
        case h_1 hnil => exact absurd (List.append_eq_nil_iff.1 hnil).1 hne
        case h_2 => rfl

theorem tagRest?_blank {fuel : Nat} (attributes : List (String × String))
    (h : s.dropWhile isSpace = []) : tagRest? fuel attributes s = none := by
  cases fuel with
  | zero => rfl
  | succ fuel => rw [tagRest?, h]

/-- Attributes that are given on top of others: none of them has the name of one that is there. -/
def Extends (attributes more : List (String × String)) : Prop :=
  ∃ new, more = attributes ++ new ∧ ∀ item ∈ new, item.1 ∉ attributes.map (·.1)

variable {attributes more most : List (String × String)}

theorem Extends.refl (attributes : List (String × String)) : Extends attributes attributes :=
  ⟨[], (List.append_nil attributes).symm, List.forall_mem_nil _⟩

theorem Extends.trans (h : Extends attributes more) (h' : Extends more most) :
    Extends attributes most := by
  obtain ⟨new, rfl, hnew⟩ := h
  obtain ⟨new', rfl, hnew'⟩ := h'
  refine ⟨new ++ new', List.append_assoc _ _ _, fun item hitem => ?_⟩
  rcases List.mem_append.1 hitem with hitem | hitem
  · exact hnew item hitem
  · have hnone := hnew' item hitem
    rw [List.map_append, List.mem_append, not_or] at hnone
    exact hnone.1

theorem extends_addAttribute (attributes : List (String × String)) (name value : String) :
    Extends attributes (addAttribute attributes name value) := by
  unfold addAttribute
  split
  case isTrue => exact .refl attributes
  case isFalse hnew =>
    refine ⟨[(name, value)], rfl, List.forall_mem_singleton.2 fun hmem => hnew ?_⟩
    obtain ⟨item, hitem, hname⟩ := List.mem_map.1 hmem
    exact List.any_eq_true.2 ⟨item, hitem, beq_iff_eq.2 hname⟩

/-- Whether a tag ends, and where, is decided by its own text and not by the attributes that it has
before, which stay its first ones. -/
theorem tagRest?_append {fuel fuel' : Nat} {attributes result : List (String × String)} {closing : Bool}
    (h : tagRest? fuel attributes s = some (result, closing, left))
    (hfuel : fuel ≤ fuel') (before : List (String × String)) (t : List Char) :
    ∃ after, tagRest? fuel' before (s ++ t) = some (after, closing, left ++ t) ∧
      Extends before after := by
  induction fuel generalizing fuel' attributes s before with
  | zero => cases h
  | succ fuel ih =>
    obtain ⟨fuel', rfl⟩ : ∃ n, fuel' = n + 1 := ⟨fuel' - 1, by omega⟩
    have hfuel := Nat.le_of_succ_le_succ hfuel
    have hne : s.dropWhile isSpace ≠ [] := fun hblank => by
      rw [tagRest?_blank _ hblank] at h
      cases h
    rw [tagRest?] at h ⊢
    rw [dropWhile_append_of_ne_nil hne]
    generalize s.dropWhile isSpace = u at h
    split at h
    case h_1 => cases h
    case h_2 rest =>
      obtain ⟨rfl, rfl, rfl⟩ : attributes = result ∧ false = closing ∧ rest = left := by simpa using h
      exact ⟨before, rfl, .refl before⟩
    case h_3 rest =>
      obtain ⟨rfl, rfl, rfl⟩ : attributes = result ∧ true = closing ∧ rest = left := by simpa using h
      exact ⟨before, rfl, .refl before⟩
    case h_4 rest hrest =>
      rcases rest with _ | ⟨c, rest⟩
      · rw [tagRest?_blank _ rfl] at h
        cases h
      · obtain ⟨after, hafter, hextends⟩ := ih h hfuel before
        refine ⟨after, ?_, hextends⟩
        rw [← hafter]
        have hc : c ≠ '>' := fun heq => hrest rest (by rw [heq])
        simp [hc]
    case h_5 first more hend hslash hother =>
      dsimp only at h
      have hrest : (more.dropWhile (!endsAttributeName ·)).dropWhile isSpace ≠ [] := fun hblank => by
        rw [hblank] at h
        dsimp only at h
        rw [tagRest?_blank _ hblank] at h
        cases h
      have hmore : more.dropWhile (!endsAttributeName ·) ≠ [] := fun hnil => hrest (by rw [hnil]; rfl)
      rw [List.cons_append]
      split
      case h_1 hcons => cases hcons
      case h_2 hcons => exact absurd (List.cons.inj hcons).1 hend
      case h_3 hcons => exact absurd (List.cons.inj hcons).1 hother
      case h_4 hcons => exact absurd (List.cons.inj hcons).1 hother
      case h_5 hcons =>
        obtain ⟨rfl, rfl⟩ := List.cons.inj hcons
        dsimp only
        rw [takeWhile_append_of_ne_nil hmore, dropWhile_append_of_ne_nil hmore,
          dropWhile_append_of_ne_nil hrest]
        generalize String.ofList _ = name at h ⊢
        have hnew := extends_addAttribute before name
        split at h
        case h_1 after hafter =>
          have hvalue : after.dropWhile isSpace ≠ [] := fun hnil => by
            rw [hnil] at h
            cases h
          rw [hafter, List.cons_append]
          simp only [dropWhile_append_of_ne_nil hvalue]
          split at h
          case h_1 => cases h
          case h_2 value rest hread =>
            rw [attributeValue?_append hread]
            obtain ⟨result, hresult, hextends⟩ := ih h hfuel (addAttribute before name value)
            exact ⟨result, hresult, (hnew value).trans hextends⟩
        case h_2 hplain =>
          obtain ⟨result, hresult, hextends⟩ := ih h hfuel (addAttribute before name "")
          refine ⟨result, ?_, (hnew "").trans hextends⟩
          rw [← hresult]
          split
          case h_1 after hafter =>
            obtain ⟨c, others, hc⟩ := List.exists_cons_of_ne_nil hrest
            rw [hc, List.cons_append] at hafter
            obtain ⟨rfl, -⟩ := List.cons.inj hafter
            exact (hplain others hc).elim
          case h_2 => rfl

end

section

variable {s : List Char}

theorem decodeReferences_eq_self (h : '&' ∉ s) (inAttribute : Bool) :
    decodeReferences inAttribute s = s := by
  rw [decodeReferences]
  induction s with
  | nil => rfl
  | cons c s ih =>
    rw [List.mem_cons, not_or] at h
    obtain ⟨hc, hs⟩ := h
    rw [decodeReferences.go, if_neg (by simpa using Ne.symm hc), ih hs]

/-- A value without references stands for itself. -/
theorem attributeText_eq (h : ∀ c ∈ s, c ≠ '&' ∧ c ≠ '\x00') : attributeText s = String.ofList s := by
  have hvisible : s.map visible = s := by
    conv_rhs => rw [← List.map_id s]
    exact List.map_congr_left fun c hc => if_neg (by simpa using (h c hc).2)
  rw [attributeText, hvisible, decodeReferences_eq_self fun hmem => (h _ hmem).1 rfl]

theorem attributeValue?_quoted (h : '"' ∉ s) (rest : List Char) :
    attributeValue? ('"' :: (s ++ '"' :: rest)) = some (attributeText s, rest) := by
  have hplain : ∀ c ∈ s, (c != '"') = true := by
    rintro c hc
    rw [bne_iff_ne]
    rintro rfl
    exact h hc
  rw [attributeValue?.eq_3 _ _ (by decide), if_pos (by decide), List.dropWhile_append_of_pos hplain,
    List.takeWhile_append_of_pos hplain, List.dropWhile_cons_of_neg (by decide),
    List.takeWhile_cons_of_neg (by decide), List.append_nil]

/-- An attribute with its value in quotes. -/
theorem tagRest?_quoted {first : Char} {name : List Char} (hfirst : endsTagName first = false)
    (hname : ∀ c ∈ name, endsAttributeName c = false) (h : '"' ∉ s) (fuel : Nat)
    (attributes : List (String × String)) (rest : List Char) :
    tagRest? (fuel + 1) attributes (' ' :: first :: (name ++ '=' :: '"' :: (s ++ '"' :: rest))) =
      tagRest? fuel
        (addAttribute attributes (String.ofList ((first :: name).map nameChar)) (attributeText s)) rest := by
  have hplain : ∀ c ∈ name, (!endsAttributeName c) = true := fun c hc => by rw [hname c hc]; rfl
  simp only [endsTagName, Bool.or_eq_false_iff, beq_eq_false_iff_ne] at hfirst
  obtain ⟨⟨hspace, hslash⟩, hend⟩ := hfirst
  have hstart : ∀ t : List Char, (' ' :: first :: t).dropWhile isSpace = first :: t := fun t => by
    rw [List.dropWhile_cons_of_pos (by decide), List.dropWhile_cons_of_neg (by simp [hspace])]
  rw [tagRest?, hstart]
  split
  case h_1 hcons => cases hcons
  case h_2 hcons => exact absurd (List.cons.inj hcons).1 hend
  case h_3 hcons => exact absurd (List.cons.inj hcons).1 hslash
  case h_4 hcons => exact absurd (List.cons.inj hcons).1 hslash
  case h_5 hcons =>
    obtain ⟨rfl, rfl⟩ := List.cons.inj hcons
    dsimp only
    rw [List.dropWhile_append_of_pos hplain, List.takeWhile_append_of_pos hplain,
      List.dropWhile_cons_of_neg (by decide), List.takeWhile_cons_of_neg (by decide), List.append_nil,
      List.dropWhile_cons_of_neg (by decide)]
    have hquote : ('"' :: (s ++ '"' :: rest)).dropWhile isSpace = '"' :: (s ++ '"' :: rest) :=
      List.dropWhile_cons_of_neg (by decide)
    simp only [hquote, attributeValue?_quoted h]

end

/-- A start tag with a blank after its name is read up to its end. -/
theorem read_startTag {c : Char} {name rest left : List Char} {attributes : List (String × String)}
    {closing : Bool} (hc : isLetter c) (hname : ∀ d ∈ c :: name, endsTagName d = false)
    (h : tagRest? (rest.length + 2) [] (' ' :: rest) = some (attributes, closing, left)) (sections : Bool) :
    Token.read sections ('<' :: c :: (name ++ ' ' :: rest)) =
      ([.startTag ⟨String.ofList ((c :: name).map nameChar), attributes, closing⟩], left) := by
  have hplain : ∀ d ∈ c :: name, (!endsTagName d) = true := fun d hd => by rw [hname d hd]; rfl
  have htag : tag? (c :: (name ++ ' ' :: rest)) =
      some (⟨String.ofList ((c :: name).map nameChar), attributes, closing⟩, left) := by
    rw [tag?, ← List.cons_append, List.takeWhile_append_of_pos hplain, List.dropWhile_append_of_pos hplain,
      List.takeWhile_cons_of_neg (by decide), List.dropWhile_cons_of_neg (by decide), List.append_nil,
      List.length_cons, h, Option.map_some]
  have hother : ∀ mark ∈ ['/', '!', '?'], c ≠ mark := by
    have hmarks : ∀ mark ∈ ['/', '!', '?'], isLetter mark = false := by decide
    rintro mark hmark rfl
    rw [hmarks c hmark] at hc
    cases hc
  simp only [List.forall_mem_cons, List.not_mem_nil, false_implies, implies_true, and_true] at hother
  obtain ⟨hslash, hdeclaration, hquestion⟩ := hother
  rw [Token.read.eq_5 _ _ _ (fun _ _ heq _ => hslash heq) hdeclaration hquestion, if_pos hc, htag]

/-- A start tag whose first attribute has its value in quotes. The rest of the tag may add attributes to
it and cannot replace it. -/
theorem read_startTag_quoted {c first : Char} {name key s rest : List Char}
    {attributes : List (String × String)} {closing : Bool} (hc : isLetter c)
    (hname : ∀ d ∈ c :: name, endsTagName d = false) (hfirst : endsTagName first = false)
    (hkey : ∀ d ∈ key, endsAttributeName d = false) (hvalue : '"' ∉ s)
    (hrest : tagRest? rest.length [] rest = some (attributes, closing, []))
    (sections : Bool) (t : List Char) :
    ∃ more, Token.read sections
        ('<' :: c :: (name ++ ' ' :: first :: (key ++ '=' :: '"' :: (s ++ '"' :: (rest ++ t))))) =
          ([.startTag ⟨String.ofList ((c :: name).map nameChar),
            (String.ofList ((first :: key).map nameChar), attributeText s) :: more, closing⟩], t) ∧
      ∀ item ∈ more, item.1 ≠ String.ofList ((first :: key).map nameChar) := by
  have hfuel : rest.length ≤
      (first :: (key ++ '=' :: '"' :: (s ++ '"' :: (rest ++ t)))).length + 1 := by
    simp only [List.length_cons, List.length_append]
    omega
  obtain ⟨after, hafter, more, rfl, hmore⟩ := tagRest?_append hrest hfuel
    [(String.ofList ((first :: key).map nameChar), attributeText s)] t
  refine ⟨more, read_startTag hc hname ?_ sections, fun item hitem => by simpa using hmore item hitem⟩
  rw [tagRest?_quoted hfirst hkey hvalue]
  exact hafter

/-- An attribute whose name no other one has keeps its value among the attributes of the element. -/
theorem get?_plainAttributes {name value : String} {more : List (String × String)}
    (h : ∀ item ∈ more, item.1 ≠ name) :
    (Draft.plainAttributes ((name, value) :: more)).get? (.plain name) = some value := by
  rw [Draft.plainAttributes, List.foldl_cons]
  refine List.foldlRecOn (motive := fun attributes : Attributes =>
    attributes.get? (.plain name) = some value) _ _ (Attributes.get?_set_self [] ⟨.plain name, value⟩) ?_
  intro attributes hvalue item hitem
  rw [Attributes.get?_set_of_ne fun heq => h item hitem (congrArg AttributeName.name heq)]
  exact hvalue

end ThemeSection.Markup
