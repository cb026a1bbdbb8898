import ThemeSection.Proofs.Block.Items
import ThemeSection.Proofs.Document.Written

/-!
The loops of a footer column. Of some links the first is left, in a loop that stands for all of them; the
others are taken out. What stands on lines that are apart from the links is left alone.
-/

namespace ThemeSection

open Markup Liquid

namespace Document

variable {d d' : Document} {x old : NodeId} {lines : List (List NodeId)} {line above : List NodeId}
  {first : Place} {links : List Place} {opening target content : String} {leeway : Leeway}

/-- A link at the beginning of a line, or its item, stands in a row between the start of a loop and its
end, inside of `x`. -/
structure LoopAt (d : Document) (x : NodeId) (line : List NodeId) (opening : String)
    (before item after parent : NodeId) (above : List NodeId) : Prop where
  inside : x ∈ parent :: above
  around : line = item :: parent :: above ∨ line.tail = item :: parent :: above
  row : d.HasRow (parent :: above) [before, item, after]
  opens : d.Says (before :: parent :: above) opening
  closes : d.Says (after :: parent :: above) loopClose

/-- An anchor leads where a loop says that stands around it or its item. -/
structure Looped (d : Document) (x : NodeId) (line : List NodeId) (opening target : String) : Prop where
  anchor : d.Tagged line ["a"]
  leads : d.Bears line "href" target
  loop : ∃ before item after parent above, d.LoopAt x line opening before item after parent above

theorem Looped.saysIn (h : d.Looped x line opening target) : d.SaysIn x opening := by
  obtain ⟨before, item, after, parent, above, hloop⟩ := h.loop
  exact ⟨before :: parent :: above, List.mem_cons_of_mem _ hloop.inside, hloop.opens⟩

/-- The texts of the loop are new. -/
structure NewlyLooped (d : Document) (x old : NodeId) (line : List NodeId) (opening target : String) :
    Prop where
  anchor : d.Tagged line ["a"]
  leads : d.Bears line "href" target
  loop : ∃ before item after parent above, old ≤ before ∧ old ≤ after ∧
    d.LoopAt x line opening before item after parent above

theorem NewlyLooped.looped (h : d.NewlyLooped x old line opening target) :
    d.Looped x line opening target where
  anchor := h.anchor
  leads := h.leads
  loop := by
    obtain ⟨before, item, after, parent, above, -, -, hloop⟩ := h.loop
    exact ⟨before, item, after, parent, above, hloop⟩

/-- A new text on a line that is spared. -/
theorem Says.spared {t : NodeId} (h : d.Says (t :: line) content)
    (hkeeps : Keeps (.sparing old lines) d d') (hline : line ∈ lines) (ht : old ≤ t) :
    d'.Says (t :: line) content :=
  h.keeps hkeeps (Leeway.not_lost_sparing (List.forall_mem_cons.2
    ⟨Or.inl ht, fun _ hx => Or.inr ⟨line, hline, hx⟩⟩))

/-- A link in its loop is left alone where its line is spared. -/
theorem NewlyLooped.spared (h : d.NewlyLooped x old first.line opening target)
    (hkeeps : Keeps (.sparing old lines) d d') (hline : first.line ∈ lines) :
    d'.NewlyLooped x old first.line opening target where
  anchor := h.anchor.keeps hkeeps (Leeway.not_lost_of_mem hline)
  leads := h.leads.keeps hkeeps (Leeway.not_lost_of_mem hline) fun htouched =>
    (htouched rfl).2 _ hline List.mem_cons_self
  loop := by
    obtain ⟨before, item, after, parent, above, hbefore, hafter, hloop⟩ := h.loop
    have hin : ∀ i ∈ item :: parent :: above, i ∈ first.line := by
      rcases hloop.around with heq | heq
      · exact fun i hi => heq ▸ hi
      · exact fun i hi => List.mem_of_mem_tail (heq ▸ hi)
    have hsuffix : ∀ i ∈ parent :: above, old ≤ i ∨ ∃ line ∈ lines, i ∈ line :=
      fun i hi => Or.inr ⟨_, hline, hin i (List.mem_cons_of_mem _ hi)⟩
    have hnew : ∀ new, old ≤ new → ¬ (Leeway.sparing old lines).lost (new :: parent :: above) :=
      fun new hnew => Leeway.not_lost_sparing (List.forall_mem_cons.2 ⟨Or.inl hnew, hsuffix⟩)
    refine ⟨before, item, after, parent, above, hbefore, hafter,
      { hloop with
        row := hloop.row.keeps hkeeps (Leeway.not_lost_sparing hsuffix) ?_
        opens := hloop.opens.keeps hkeeps (hnew before hbefore)
        closes := hloop.closes.keeps hkeeps (hnew after hafter) }⟩
    rintro ⟨i, hi, hlt, hout⟩
    have hitem := hout _ hline
    simp only [List.mem_cons, List.not_mem_nil, or_false] at hi
    rcases hi with rfl | rfl | rfl | rfl
    · exact hitem (hin _ (List.mem_cons_of_mem _ List.mem_cons_self))
    · exact Nat.not_lt.2 hbefore hlt
    · exact hitem (hin _ List.mem_cons_self)
    · exact Nat.not_lt.2 hafter hlt

/-- What is known of lines that are apart from a link. -/
def Spared (d : Document) (x : NodeId) (lines : List (List NodeId)) (links : List Place) : Prop :=
  ∀ line ∈ lines, d.Runs x line ∧ ∀ a ∈ links, LinesApart a.line line

theorem Spared.keeps (h : d.Spared x lines links) (hd : d.Distinct)
    (hkeeps : Keeps (.sparing old lines) d d') : d'.Spared x lines links :=
  fun line hline => ⟨(h line hline).1.keeps hd hkeeps (Leeway.not_lost_of_mem hline), (h line hline).2⟩

theorem Spared.spends (h : d.Spared x lines links) (hfirst : first ∈ links)
    (hold : d'.OldLink x old first) : Leeway.Spends old lines first.id :=
  ⟨hold.old _ List.mem_cons_self, fun line hline => ((h line hline).2 first hfirst).left _ rfl⟩

theorem keeps_wrapLink (hd : d.Distinct) (first : Place) (opening : String) :
    Keeps (.upTo [] [] [d.linkItem first.id] fun _ _ => False) d
      (d.wrapLink first opening loopClose) :=
  (Keeps.refl hd).step (Leeway.within_wrap (Leeway.surrounds_upTo (List.mem_singleton_self _)) _ _)

/-- The texts of a loop come to stand around a link that leads where the loop says. -/
theorem newlyLooped_wrapLink (hd : d.Distinct) (hnext : old ≤ d.next) (h : d.OldLink x old first)
    (hlines : ∀ line ∈ lines, d.Runs x line ∧ LinesApart first.line line)
    (hleads : d.Bears first.line "href" target) (opening : String) :
    Keeps (.sparing old lines) d (d.wrapLink first opening loopClose) ∧
      (d.wrapLink first opening loopClose).NewlyLooped x old first.line opening target := by
  have hwrap := keeps_wrapLink hd first opening
  have hnone : ¬ (Leeway.upTo [] [] [d.linkItem first.id] fun _ _ => False).lost first.line :=
    Leeway.not_lost_upTo (List.forall_mem_nil _) (List.forall_mem_nil _)
  obtain ⟨parent, rest, hx, hstands, haround⟩ := h.links.exists_item hd
  obtain ⟨hrow, hopens, hcloses⟩ := row_wrap hd hstands opening loopClose
  exact ⟨(Keeps.refl hd).step (Leeway.within_wrap (Leeway.surrounds_sparing (h.spends hd hlines)) _ _),
    h.links.tagged.keeps hwrap hnone, hleads.keeps hwrap hnone fun h => h,
    _, _, _, parent, rest, hnext, Nat.le_succ_of_le hnext, hx, haround, hrow, hopens, hcloses⟩

end Document

namespace BlockDefinition

open Document

variable {d : Document} {x old : NodeId} {lines : List (List NodeId)} {first : Place}
  {rest links : List Place}

/-- Where the links of a column lead in the loop over them, and what they show there. -/
def linkTarget : String := output "block.settings[link_url_key]"

def linkText : String := output "block.settings[link_text_key]"

/-- Where its links to platforms lead in their loop. -/
def socialTarget : String := output "block.settings[social_key]"

theorem bindLinks_cons (d : Document) (first : Place) (rest : List Place) :
    bindLinks d (first :: rest) = (((rest.foldl detachLink d).setText first.id linkText).setAttribute
      first.id "href" linkTarget).wrapLink first linkLoopOpen loopClose := rfl

/-- The label of a social link and its icons name the platform. -/
def bindPlatform (d : Document) (first : Place) : Document :=
  let d := d.setAttribute first.id "aria-label" (output "platform | capitalize")
  let icons := (d.place? first.id).toList.flatMap (·.select (.tags ["i"]))
  icons.foldl (fun d icon => d.setAttribute icon.id "class" ("fab fa-" ++ output "platform")) d

theorem bindSocialLinks_cons (d : Document) (first : Place) (rest : List Place) :
    bindSocialLinks d (first :: rest) = (bindPlatform ((rest.foldl detachLink d).setAttribute first.id
      "href" socialTarget) first).wrapLink first socialLoopOpen loopClose := rfl

theorem keeps_bindPlatform {leeway : Leeway} {start : Document} (h : Keeps leeway start d)
    (hleeway : ∀ y name, name ≠ "href" → leeway.touched y name) (first : Place) :
    Keeps leeway start (bindPlatform d first) :=
  List.foldlRecOn _ _ (h.step (Leeway.within_setAttribute (hleeway _ _ (by decide)) _))
    fun _ h _ _ => h.step (Leeway.within_setAttribute (hleeway _ _ (by decide)) _)

section

variable (hd : d.Distinct) (hlinks : ∀ a ∈ first :: rest, d.OldLink x old a)
  (hlines : d.Spared x lines (first :: rest))
  (hpairs : (first :: rest).Pairwise fun a b => LinesApart a.line b.line)
include hd hlinks hlines hpairs

/-- All links but the first are taken out. -/
theorem detached_rest :
    Keeps (.sparing old lines) d (rest.foldl detachLink d) ∧
      (rest.foldl detachLink d).OldLink x old first ∧
      ∀ a ∈ rest, (rest.foldl detachLink d).Gone x a.id ∧
        x < (rest.foldl detachLink d).next ∧ a.id < (rest.foldl detachLink d).next := by
  obtain ⟨hfirst, hrest⟩ := List.forall_mem_cons.1 hlinks
  obtain ⟨hothers, hpairs⟩ := List.pairwise_cons.1 hpairs
  have hspared : ∀ line ∈ lines ++ [first.line], d.Runs x line ∧ ∀ a ∈ rest, LinesApart a.line line := by
    refine List.forall_mem_append.2 ⟨fun line hline => ?_, List.forall_mem_singleton.2 ?_⟩
    · exact ⟨(hlines line hline).1, fun a ha => (hlines line hline).2 a (List.mem_cons_of_mem _ ha)⟩
    · exact ⟨hfirst.links.runs, fun a ha => (hothers a ha).symm⟩
  obtain ⟨hkeeps, hgone⟩ := keeps_detachLinks hd hrest hspared hpairs
  refine ⟨hkeeps.spare, hfirst.keeps hd hkeeps
    (Leeway.not_lost_of_mem (List.mem_append_right _ (List.mem_singleton_self _))), fun a ha => ?_⟩
  have hlt : ∀ i ∈ a.line, i < (rest.foldl detachLink d).next := fun i hi =>
    Nat.lt_of_lt_of_le ((hrest a ha).links.runs.stands.lt_next hd i hi) hkeeps.next_le
  exact ⟨hgone a ha, hlt x (List.mem_of_mem_tail (hrest a ha).links.below), hlt a.id List.mem_cons_self⟩

/-- The first link stands in a loop if it is led where that says. -/
theorem looped_of_leads (hnext : old ≤ d.next) (opening target : String) (d₁ : Document)
    (hbound : Keeps (.sparing old lines) (rest.foldl detachLink d) d₁) (hfirst : d₁.OldLink x old first)
    (hleads : d₁.Bears first.line "href" target) :
    Keeps (.sparing old lines) d (d₁.wrapLink first opening loopClose) ∧
      (d₁.wrapLink first opening loopClose).NewlyLooped x old first.line opening target ∧
      ∀ a ∈ rest, (d₁.wrapLink first opening loopClose).Gone x a.id := by
  obtain ⟨hdetached, -, hgone⟩ := detached_rest hd hlinks hlines hpairs
  have hkeeps := hdetached.trans hbound
  have hspared := hlines.keeps hd hkeeps
  obtain ⟨hwrapped, hlooped⟩ := newlyLooped_wrapLink hbound.distinct (Nat.le_trans hnext hkeeps.next_le)
    hfirst (fun line hline => ⟨(hspared line hline).1, (hspared line hline).2 first List.mem_cons_self⟩)
    hleads opening
  exact ⟨hkeeps.trans hwrapped, hlooped, fun a ha =>
    (hgone a ha).1.keeps (hbound.trans hwrapped) (hgone a ha).2.1 (hgone a ha).2.2⟩

/-- The first link of a column stands in the loop over the links and shows what that says. -/
theorem looped_bindLinks (hnext : old ≤ d.next) :
    Keeps (.sparing old lines) d (bindLinks d (first :: rest)) ∧
      (bindLinks d (first :: rest)).NewlyLooped x old first.line linkLoopOpen linkTarget ∧
      (∃ t, old ≤ t ∧ (bindLinks d (first :: rest)).Says (t :: first.line) linkText) ∧
      ∀ a ∈ rest, (bindLinks d (first :: rest)).Gone x a.id := by
  obtain ⟨hdetached, hfirst, -⟩ := detached_rest hd hlinks hlines hpairs
  have hlooped := looped_of_leads hd hlinks hlines hpairs hnext linkLoopOpen linkTarget
  rw [bindLinks_cons]
  generalize rest.foldl detachLink d = d₁ at hdetached hfirst hlooped ⊢
  have hd₁ := hdetached.distinct
  have hspends := hlines.spends List.mem_cons_self hfirst
  have htold := says_setText hd₁ hfirst.links.runs.stands linkText
  have hemptied : Keeps (.upTo [first.id] [] [] fun _ _ => False) d₁ (d₁.setText first.id linkText) :=
    (Keeps.refl hd₁).step (Leeway.within_setText (Leeway.empties_upTo (List.mem_singleton_self _)) _)
  have htext : Keeps (.sparing old lines) d₁ (d₁.setText first.id linkText) :=
    (Keeps.refl hd₁).step (Leeway.within_setText (Leeway.empties_sparing hspends) _)
  have hfirst₂ := hfirst.keeps hd₁ hemptied (Leeway.not_lost_upTo
    (List.forall_mem_singleton.2 (hfirst.links.runs.stands.not_mem hd₁)) (List.forall_mem_nil _))
  generalize d₁.setText first.id linkText = d₂ at htold hemptied htext hfirst₂ ⊢
  have hd₂ := htext.distinct
  have hnone : ∀ {surrounded touched line}, ¬ (Leeway.upTo [] [] surrounded touched).lost line :=
    Leeway.not_lost_upTo (List.forall_mem_nil _) (List.forall_mem_nil _)
  have hset : Keeps (.upTo [] [] [] fun _ _ => True) d₂ (d₂.setAttribute first.id "href" linkTarget) :=
    (Keeps.refl hd₂).step (Leeway.within_setAttribute trivial _)
  have htarget : Keeps (.sparing old lines) d₂ (d₂.setAttribute first.id "href" linkTarget) :=
    (Keeps.refl hd₂).step (Leeway.within_setAttribute (fun _ => hspends) _)
  obtain ⟨hkeeps, hnew, hgone⟩ := hlooped _ (htext.trans htarget) (hfirst₂.keeps hd₂ hset hnone)
    (bears_setAttribute hd₂ hfirst₂.links.tagged "href" linkTarget)
  exact ⟨hkeeps, hnew, ⟨d₁.next, Nat.le_trans hnext hdetached.next_le,
    (htold.keeps hset hnone).keeps (keeps_wrapLink hset.distinct first linkLoopOpen) hnone⟩, hgone⟩

/-- The first social link of a column stands in the loop over the platforms. -/
theorem looped_bindSocialLinks (hnext : old ≤ d.next) :
    Keeps (.sparing old lines) d (bindSocialLinks d (first :: rest)) ∧
      (bindSocialLinks d (first :: rest)).NewlyLooped x old first.line socialLoopOpen socialTarget ∧
      ∀ a ∈ rest, (bindSocialLinks d (first :: rest)).Gone x a.id := by
  obtain ⟨hdetached, hfirst, -⟩ := detached_rest hd hlinks hlines hpairs
  have hlooped := looped_of_leads hd hlinks hlines hpairs hnext socialLoopOpen socialTarget
  have hspends := hlines.spends List.mem_cons_self hfirst
  rw [bindSocialLinks_cons]
  generalize rest.foldl detachLink d = d₁ at hdetached hfirst hlooped ⊢
  have hd₁ := hdetached.distinct
  have hnone : ∀ {touched line}, ¬ (Leeway.upTo [] [] [] touched).lost line :=
    Leeway.not_lost_upTo (List.forall_mem_nil _) (List.forall_mem_nil _)
  have hleads := bears_setAttribute hd₁ hfirst.links.tagged "href" socialTarget
  have hset : Keeps (.upTo [] [] [] fun _ _ => True) d₁ (d₁.setAttribute first.id "href" socialTarget) :=
    (Keeps.refl hd₁).step (Leeway.within_setAttribute trivial _)
  have htarget : Keeps (.sparing old lines) d₁ (d₁.setAttribute first.id "href" socialTarget) :=
    (Keeps.refl hd₁).step (Leeway.within_setAttribute (fun _ => hspends) _)
  have hfirst₂ := hfirst.keeps hd₁ hset hnone
  generalize d₁.setAttribute first.id "href" socialTarget = d₂ at hleads hset htarget hfirst₂ ⊢
  -- The label and the icons do not change where the link leads.
  have hnamed : Keeps (.upTo [] [] [] fun _ name => name ≠ "href") d₂ (bindPlatform d₂ first) :=
    keeps_bindPlatform (.refl htarget.distinct) (fun _ _ h => h) first
  have hplatform : Keeps (.sparing old lines) d₂ (bindPlatform d₂ first) :=
    keeps_bindPlatform (.refl htarget.distinct) (fun _ _ h heq => absurd heq h) first
  exact hlooped _ (htarget.trans hplatform) (hfirst₂.keeps htarget.distinct hnamed hnone)
    (hleads.keeps hnamed hnone fun h => h rfl)

end

theorem adds_detachLinks (links : List Place) (d : Document) : Adds [] d (links.foldl detachLink d) :=
  .foldl (fun _ _ => (logs_detach _).adds) links d

theorem adds_bindLinks (d : Document) (links : List Place) :
    Adds [linkText, linkLoopOpen, loopClose] d (bindLinks d links) := by
  cases links with
  | nil => exact .refl d
  | cons first rest =>
    rw [bindLinks_cons]
    exact ((adds_detachLinks rest d).trans (logs_setText _ _).adds).trans
      ((logs_setAttribute _ _ _).trans (logs_wrap _ _ _)).adds

theorem adds_bindSocialLinks (d : Document) (links : List Place) :
    Adds [socialLoopOpen, loopClose] d (bindSocialLinks d links) := by
  cases links with
  | nil => exact .refl d
  | cons first rest =>
    rw [bindSocialLinks_cons]
    have hicons : ∀ d : Document, Adds [] d (bindPlatform d first) := fun d =>
      (logs_setAttribute _ _ _).adds.trans (.foldl (fun _ _ => (logs_setAttribute _ _ _).adds) _ _)
    exact (((adds_detachLinks rest d).trans (logs_setAttribute _ _ _).adds).trans (hicons _)).trans
      (logs_wrap _ _ _).adds

theorem adds_showRichText (hd : d.Distinct) (paragraphs : List Place) (setting : String) :
    Adds [Liquid.reference .block setting] d (d.showRichText paragraphs setting) := by
  cases paragraphs with
  | nil => exact .refl d
  | cons first rest =>
    exact (logs_renew hd first.id (Liquid.reference .block setting)).adds.trans
      (.foldl (fun _ _ => (logs_detach _).adds) _ _)

variable {touched : NodeId → String → Prop} {start : Document}

theorem keeps_free_detachLinks (h : Keeps (.free touched) start d) (links : List Place) :
    Keeps (.free touched) start (links.foldl detachLink d) :=
  List.foldlRecOn links _ h fun d h a _ => h.free (.detach (d.linkItem a.id)) (List.forall_mem_nil _)

theorem keeps_free_bindLinks (h : Keeps (.free touched) start d)
    (hfirst : ∀ first ∈ links.head?, touched first.id "href") :
    Keeps (.free touched) start (bindLinks d links) := by
  cases links with
  | nil => exact h
  | cons first rest =>
    rw [bindLinks_cons]
    have htext := (keeps_free_detachLinks h rest).free (.setText first.id linkText)
      (List.forall_mem_nil _)
    have htarget := htext.free (.setAttribute first.id "href" linkTarget)
      (List.forall_mem_singleton.2 (hfirst first rfl))
    exact htarget.free (.wrap _ linkLoopOpen loopClose) (List.forall_mem_nil _)

theorem keeps_free_bindSocialLinks (h : Keeps (.free touched) start d)
    (hfirst : ∀ first ∈ links.head?, touched first.id "href")
    (hother : ∀ y name, name ≠ "href" → touched y name) :
    Keeps (.free touched) start (bindSocialLinks d links) := by
  cases links with
  | nil => exact h
  | cons first rest =>
    rw [bindSocialLinks_cons]
    have htarget := (keeps_free_detachLinks h rest).free (.setAttribute first.id "href" socialTarget)
      (List.forall_mem_singleton.2 (hfirst first rfl))
    exact (keeps_bindPlatform htarget hother first).free (.wrap _ socialLoopOpen loopClose)
      (List.forall_mem_nil _)

end BlockDefinition

end ThemeSection
