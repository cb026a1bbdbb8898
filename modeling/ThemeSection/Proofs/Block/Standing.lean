import ThemeSection.Proofs.Block.Fidelity
import ThemeSection.Proofs.Document.Standing

/-!
What binding an element leaves standing, piece by piece. Each piece of binding is a run of edits to the
nodes that it is about; a leeway that allows these edits says what of the document is still there.
-/

namespace ThemeSection

open Markup

namespace Leeway

variable {leeway : Leeway} {x : NodeId}

/-- The content of a node may go. -/
structure Empties (leeway : Leeway) (x : NodeId) : Prop where
  lost : ∀ line : List NodeId, x ∈ line.tail → leeway.lost line
  parted : ∀ row, leeway.parted x row

/-- A node may go with all below it. -/
structure Removes (leeway : Leeway) (x : NodeId) : Prop where
  lost : ∀ line : List NodeId, x ∈ line → leeway.lost line
  parted : ∀ parent, ∀ row : List NodeId, x ∈ row → leeway.parted parent row

/-- Other nodes may come to stand right before and after a node. -/
def Surrounds (leeway : Leeway) (x : NodeId) : Prop :=
  ∀ parent, ∀ row : List NodeId, x ∈ row → leeway.parted parent row

/-- What stands in some nodes may go, other nodes may go with all below them, and texts may come to stand
around others. -/
def upTo (emptied removed surrounded : List NodeId) (touched : NodeId → String → Prop) : Leeway where
  lost line := (∃ x ∈ emptied, x ∈ line.tail) ∨ ∃ x ∈ removed, x ∈ line
  parted parent row := parent ∈ emptied ∨ ∃ x ∈ removed ++ surrounded, x ∈ row
  touched := touched

section

variable {emptied removed surrounded : List NodeId} {touched : NodeId → String → Prop}

theorem empties_upTo (hx : x ∈ emptied) : (upTo emptied removed surrounded touched).Empties x where
  lost := fun _ hline => Or.inl ⟨x, hx, hline⟩
  parted := fun _ => Or.inl hx

theorem removes_upTo (hx : x ∈ removed) : (upTo emptied removed surrounded touched).Removes x where
  lost := fun _ hline => Or.inr ⟨x, hx, hline⟩
  parted := fun _ _ hrow => Or.inr ⟨x, List.mem_append_left _ hx, hrow⟩

theorem surrounds_upTo (hx : x ∈ surrounded) :
    (upTo emptied removed surrounded touched).Surrounds x :=
  fun _ _ hrow => Or.inr ⟨x, List.mem_append_right _ hx, hrow⟩

theorem not_lost_upTo {line : List NodeId} (hemptied : ∀ x ∈ emptied, x ∉ line.tail)
    (hremoved : ∀ x ∈ removed, x ∉ line) :
    ¬ (upTo emptied removed surrounded touched).lost line :=
  not_or.2 ⟨fun ⟨x, hx, hline⟩ => hemptied x hx hline, fun ⟨x, hx, hline⟩ => hremoved x hx hline⟩

end

theorem within_setText (h : leeway.Empties x) (content : String) :
    (Edit.setText x content).Within leeway where
  lost := h.lost
  parted := by
    rintro parent row rfl
    exact h.parted row
  touched := List.forall_mem_nil _

theorem within_renew (h : leeway.Removes x) (content : String) :
    (Edit.renew x content).Within leeway where
  lost := h.lost
  parted := h.parted
  touched := List.forall_mem_nil _

theorem within_detach (h : leeway.Removes x) : (Edit.detach x).Within leeway where
  lost := h.lost
  parted := h.parted
  touched := List.forall_mem_nil _

theorem within_wrap (h : leeway.Surrounds x) (before after : String) :
    (Edit.wrap x before after).Within leeway where
  lost := fun _ h => h.elim
  parted := h
  touched := List.forall_mem_nil _

theorem within_setAttribute {name : String} (h : leeway.touched x name) (value : String) :
    (Edit.setAttribute x name value).Within leeway where
  lost := fun _ h => h.elim
  parted := fun _ _ h => h.elim
  touched := List.forall_mem_singleton.2 h

theorem within_removeAttribute {name : String} (h : leeway.touched x name) :
    (Edit.removeAttribute x name).Within leeway where
  lost := fun _ h => h.elim
  parted := fun _ _ h => h.elim
  touched := List.forall_mem_singleton.2 h

end Leeway

namespace Document.Keeps

open BlockDefinition

variable {leeway : Leeway} {start d : Document} {x : NodeId} {definition : BlockDefinition}
  {setting : String} (h : Keeps leeway start d)
include h

theorem showSetting (hx : leeway.Empties x) (setting : String) :
    Keeps leeway start (d.showSetting x setting) :=
  h.step (Leeway.within_setText hx _)

theorem showInAttribute {name : String} (hname : leeway.touched x name) (setting : String) :
    Keeps leeway start (d.showInAttribute x name setting) :=
  h.step (Leeway.within_setAttribute hname _)

/-- A change for a part that there may be a setting for. -/
theorem ofPart (definition : BlockDefinition) (part : Option Place) (id : String)
    (change : Document → Place → Document) :
    (∀ p ∈ part, definition.has id → Keeps leeway start (change d p)) →
    Keeps leeway start
      (match part with
        | some p => if definition.has id then change d p else d
        | none => d) := by
  intro hchange
  cases part with
  | none => exact h
  | some p =>
    dsimp only
    split
    case isTrue hhas => exact hchange p rfl hhas
    case isFalse => exact h

theorem showPart {part : Option Place}
    (hpart : ∀ p ∈ part, definition.has setting → leeway.Empties p.id) :
    Keeps leeway start (d.showPart definition part setting) := by
  unfold Document.showPart
  split
  case h_1 => exact h
  case h_2 p =>
    split
    case isTrue hhas => exact h.showSetting (hpart p rfl hhas) setting
    case isFalse => exact h

theorem forPart {part : Option Place} (hpart : ∀ p ∈ part, leeway.Empties p.id) (setting : String) :
    Keeps leeway start (d.forPart part fun d x => d.showSetting x setting) := by
  cases part with
  | none => exact h
  | some p => exact h.showSetting (hpart p rfl) setting

theorem showImage (hname : ∀ name ∈ "src" :: otherSources, leeway.touched x name)
    (setting : String) : Keeps leeway start (d.showImage x setting) := by
  obtain ⟨hsrc, hsources⟩ := List.forall_mem_cons.1 hname
  exact List.foldlRecOn otherSources _ (h.step (Leeway.within_setAttribute hsrc _))
    fun _ h name hmem => h.step (Leeway.within_removeAttribute (hsources name hmem))

theorem showDescribedImage (hname : ∀ name ∈ "alt" :: "src" :: otherSources, leeway.touched x name)
    (setting : String) : Keeps leeway start (d.showDescribedImage x setting) := by
  obtain ⟨halt, hname⟩ := List.forall_mem_cons.1 hname
  exact (h.step (Leeway.within_setAttribute halt _)).showImage hname setting

theorem detachAll {ids : List NodeId} (hids : ∀ x ∈ ids, leeway.Removes x) :
    Keeps leeway start (d.detachAll ids) :=
  List.foldlRecOn ids _ h fun _ h x hx => h.step (Leeway.within_detach (hids x hx))

theorem showRichText {paragraphs : List Place} (hparts : ∀ p ∈ paragraphs, leeway.Removes p.id)
    (setting : String) : Keeps leeway start (d.showRichText paragraphs setting) := by
  unfold Document.showRichText
  split
  case h_1 => exact h
  case h_2 first rest =>
    obtain ⟨hfirst, hrest⟩ := List.forall_mem_cons.1 hparts
    have hrenewed : Keeps leeway start (d.apply (.renew first.id (Liquid.reference .block setting))) :=
      h.step (Leeway.within_renew hfirst _)
    exact hrenewed.detachAll (List.forall_mem_map.2 hrest)

end Document.Keeps

namespace Document

variable {d : Document} {parent : NodeId} {above : List NodeId}

/-- Rich text stands in place of the first of some paragraphs, if the others are not around it. -/
theorem stands_showRichText (hd : d.Distinct) {first : Place} {rest : List Place} {names : List String}
    (hfirst : d.Tagged (first.id :: parent :: above) names)
    (hrest : ∀ q ∈ rest, q.id ∉ parent :: above ∧ q.id < d.next) (setting : String) :
    (d.showRichText (first :: rest) setting).Tagged (d.next :: parent :: above) ["div"] ∧
      (d.showRichText (first :: rest) setting).Says ((d.next + 1) :: d.next :: parent :: above)
        (Liquid.reference .block setting) := by
  obtain ⟨htagged, hshown⟩ := stands_renew hd hfirst (Liquid.reference .block setting)
  have hleft : Keeps (.upTo [] (rest.map Place.id) [] fun _ _ => False)
      (d.apply (.renew first.id (Liquid.reference .block setting)))
      ((d.apply (.renew first.id (Liquid.reference .block setting))).detachAll (rest.map Place.id)) :=
    (Keeps.refl (evolves_apply hd _).distinct).detachAll fun _ => Leeway.removes_upTo
  have hkept : ∀ new line, d.next ≤ new → (∀ x ∈ rest.map Place.id, x ∉ line) →
      ∀ x ∈ rest.map Place.id, x ∉ new :: line := by
    intro new line hnew hline x hx hin
    obtain ⟨q, hq, rfl⟩ := List.mem_map.1 hx
    rcases List.mem_cons.1 hin with heq | hin
    · exact Nat.ne_of_lt (Nat.lt_of_lt_of_le (hrest q hq).2 hnew) heq
    · exact hline _ hx hin
  have hdiv := hkept d.next (parent :: above) (Nat.le_refl _)
    (List.forall_mem_map.2 fun q hq => (hrest q hq).1)
  exact ⟨htagged.keeps hleft (Leeway.not_lost_upTo (List.forall_mem_nil _) hdiv),
    hshown.keeps hleft (Leeway.not_lost_upTo (List.forall_mem_nil _)
      (hkept _ _ (Nat.le_succ _) hdiv))⟩

end Document

end ThemeSection
