import ThemeSection.Proofs.Document.Printed

/-!
Runs of edits. A document is rewritten into another by a list of edits, each of which fits what may
be written and suits the document as it is then. What a run keeps follows from what each edit keeps.
-/

namespace ThemeSection

open Markup Liquid

namespace Markup.Tree

/-- The texts that stand in a tree: those of its text nodes and of its attributes. -/
def writtenTexts (t : Tree) : List String :=
  t.nodes.flatMap fun n => match n.kind with
    | .text content => [content]
    | .element _ attributes => attributes.map (·.value)
    | _ => []

end Markup.Tree

namespace Edit

/-- The texts that an edit writes. -/
def texts : Edit → List String
  | setAttribute _ _ value => [value]
  | removeAttribute _ _ => []
  | background _ source => [source]
  | setText _ content => [content]
  | renew _ content => [content]
  | wrap _ before after => [before, after]
  | detach _ => []
  | append _ tree => tree.writtenTexts

theorem Fits.mono {allowed allowed' : Owner → String → Prop} {e : Edit} (h : e.Fits allowed)
    (hsub : ∀ owner id, allowed owner id → allowed' owner id) : e.Fits allowed' := by
  cases e with
  | setAttribute id name value => exact ⟨h.1, h.2.1, h.2.2.mono hsub⟩
  | background id source => exact Sound.mono h hsub
  | setText id content => exact Sound.mono h hsub
  | renew id content => exact Sound.mono h hsub
  | wrap id before after => exact SoundAround.mono h hsub
  | append id tree =>
    refine ⟨h.1, fun n hn => { h.2 n hn with kind := ?_ }⟩
    have hkind := (h.2 n hn).kind
    cases hcase : n.kind with
    | text content =>
      rw [hcase] at hkind
      exact ⟨hkind.1, fun t ht owner id hid => hsub owner id (hkind.2 t ht owner id hid)⟩
    | element name attributes =>
      rw [hcase] at hkind
      exact ⟨hkind.1, fun a ha => ⟨(hkind.2 a ha).1, (hkind.2 a ha).2.mono hsub⟩⟩
    | _ => rwa [hcase] at hkind
  | _ => trivial

theorem Suits.anti {scope : NodeId → Prop} {styled styled' : List NodeId} {d : Document} {e : Edit}
    (h : e.Suits scope styled' d) (hsub : styled ⊆ styled') : e.Suits scope styled d := by
  cases e with
  | background id source => exact ⟨h.1, fun hin => h.2 (hsub hin)⟩
  | renew id content => exact ⟨h.1, fun hin => h.2 (hsub hin)⟩
  | _ => exact h

end Edit

namespace Document

/-- A document is rewritten into another by a list of edits. -/
inductive Rewrites (allowed : Owner → String → Prop) (scope : NodeId → Prop)
    (styled : List NodeId) (d : Document) : List Edit → Document → Prop
  | nil : Rewrites allowed scope styled d [] d
  | snoc {log : List Edit} {d' : Document} {e : Edit} : Rewrites allowed scope styled d log d' →
      e.Fits allowed → e.Suits scope (log.flatMap Edit.styled ++ styled) d' →
      Rewrites allowed scope styled d (log ++ [e]) (d'.apply e)

variable {allowed allowed' : Owner → String → Prop} {scope : NodeId → Prop}
  {styled styled' styled'' : List NodeId} {d d' d'' : Document} {log log' : List Edit}

namespace Rewrites

theorem eq_foldl (h : Rewrites allowed scope styled d log d') : d' = log.foldl Document.apply d := by
  induction h with
  | nil => rfl
  | snoc _ _ _ ih => rw [List.foldl_append, ← ih, List.foldl_cons, List.foldl_nil]

theorem fits (h : Rewrites allowed scope styled d log d') : ∀ e ∈ log, e.Fits allowed := by
  induction h with
  | nil => exact List.forall_mem_nil _
  | snoc _ hfits _ ih => exact List.forall_mem_append.2 ⟨ih, List.forall_mem_singleton.2 hfits⟩

theorem evolves (h : Rewrites allowed scope styled d log d') (hd : d.Distinct) :
    d.Evolves (log.flatMap Edit.touched) d' := by
  induction h with
  | nil => exact .refl hd
  | snoc _ _ _ ih =>
    rw [List.flatMap_append, List.flatMap_singleton]
    exact ih.trans (evolves_apply ih.distinct _)

/-- A run of edits keeps a document sound. -/
theorem soundIn (h : Rewrites allowed scope styled d log d') (hd : d.Distinct)
    (hsound : d.SoundIn allowed scope styled) (hnew : ∀ i, d.next ≤ i → scope i) :
    d'.SoundIn allowed scope (log.flatMap Edit.styled ++ styled) := by
  induction h with
  | nil => exact hsound
  | snoc h hfits hsuits ih =>
    have hevolves := h.evolves hd
    have happlied := ih.apply hevolves.distinct
      (fun i hi => hnew i (Nat.le_trans hevolves.next_le hi)) hfits hsuits
    refine happlied.weaken fun x hx => ?_
    simp only [List.flatMap_append, List.flatMap_singleton, List.mem_append] at hx ⊢
    tauto

theorem mono (h : Rewrites allowed scope styled d log d')
    (hsub : ∀ owner id, allowed owner id → allowed' owner id) :
    Rewrites allowed' scope styled d log d' := by
  induction h with
  | nil => exact .nil
  | snoc _ hfits hsuits ih => exact ih.snoc (hfits.mono hsub) hsuits

theorem trans (h : Rewrites allowed scope styled d log d')
    (h' : Rewrites allowed scope styled' d' log' d'')
    (hstyled : log.flatMap Edit.styled ++ styled ⊆ styled') :
    Rewrites allowed scope styled d (log ++ log') d'' := by
  induction h' with
  | nil => rwa [List.append_nil]
  | snoc _ hfits hsuits ih =>
    rw [← List.append_assoc]
    refine ih.snoc hfits (hsuits.anti fun x hx => ?_)
    simp only [List.flatMap_append, List.append_assoc, List.mem_append] at hx ⊢
    rcases hx with hx | hx | hx
    · exact Or.inr (hstyled (List.mem_append_left _ hx))
    · exact Or.inl hx
    · exact Or.inr (hstyled (List.mem_append_right _ hx))

end Rewrites

/-- A property of lists of edits that is kept when they are put one after the other. -/
structure Additive (keeps : List Edit → Prop) : Prop where
  nil : keeps []
  append : ∀ {a b}, keeps a → keeps b → keeps (a ++ b)

/-- A document turns into another by some edits with a property, after which at most the nodes in
`styled'` have template syntax in their styles. -/
def Turns (allowed : Owner → String → Prop) (scope : NodeId → Prop) (keeps : List Edit → Prop)
    (styled : List NodeId) (d : Document) (styled' : List NodeId) (d' : Document) : Prop :=
  ∃ log, Rewrites allowed scope styled d log d' ∧ keeps log ∧
    log.flatMap Edit.styled ++ styled ⊆ styled'

variable {keeps : List Edit → Prop}

namespace Turns

theorem refl (hkeeps : Additive keeps) : Turns allowed scope keeps styled d styled d :=
  ⟨[], .nil, hkeeps.nil, List.Subset.refl _⟩

theorem step (h : Turns allowed scope keeps styled d styled' d') (hkeeps : Additive keeps) (e : Edit)
    (hfits : e.Fits allowed) (hsuits : e.Suits scope styled' d') (he : keeps [e]) :
    Turns allowed scope keeps styled d (e.styled ++ styled') (d'.apply e) := by
  obtain ⟨log, hrewrites, hlog, hsub⟩ := h
  refine ⟨log ++ [e], hrewrites.snoc hfits (hsuits.anti hsub), hkeeps.append hlog he, ?_⟩
  intro x hx
  simp only [List.flatMap_append, List.flatMap_singleton, List.append_assoc, List.mem_append] at hx ⊢
  rcases hx with hx | hx | hx
  · exact Or.inr (hsub (List.mem_append_left _ hx))
  · exact Or.inl hx
  · exact Or.inr (hsub (List.mem_append_right _ hx))

/-- One more edit, whatever was to be kept. -/
theorem next (h : Turns allowed scope (fun _ => True) styled d styled' d') (e : Edit)
    (hfits : e.Fits allowed) (hsuits : e.Suits scope styled' d') :
    Turns allowed scope (fun _ => True) styled d (e.styled ++ styled') (d'.apply e) :=
  h.step ⟨trivial, fun _ _ => trivial⟩ e hfits hsuits trivial

theorem trans (h : Turns allowed scope keeps styled d styled' d')
    (h' : Turns allowed scope keeps styled' d' styled'' d'') (hkeeps : Additive keeps) :
    Turns allowed scope keeps styled d styled'' d'' := by
  obtain ⟨log, hrewrites, hlog, hsub⟩ := h
  obtain ⟨log', hrewrites', hlog', hsub'⟩ := h'
  refine ⟨log ++ log', hrewrites.trans hrewrites' hsub, hkeeps.append hlog hlog', ?_⟩
  intro x hx
  rw [List.flatMap_append, List.append_assoc, List.mem_append, List.mem_append] at hx
  rcases hx with hx | hx | hx
  · exact hsub' (List.mem_append_right _ (hsub (List.mem_append_left _ hx)))
  · exact hsub' (List.mem_append_left _ hx)
  · exact hsub' (List.mem_append_right _ (hsub (List.mem_append_right _ hx)))

theorem mono (h : Turns allowed scope keeps styled d styled' d')
    (hsub : ∀ owner id, allowed owner id → allowed' owner id) :
    Turns allowed' scope keeps styled d styled' d' := by
  obtain ⟨log, hrewrites, hlog, hstyled⟩ := h
  exact ⟨log, hrewrites.mono hsub, hlog, hstyled⟩

theorem forget (h : Turns allowed scope keeps styled d styled' d') :
    Turns allowed scope (fun _ => True) styled d styled' d' := by
  obtain ⟨log, hrewrites, -, hstyled⟩ := h
  exact ⟨log, hrewrites, trivial, hstyled⟩

theorem weaken {more : List NodeId} (h : Turns allowed scope keeps styled d styled' d')
    (hsub : styled' ⊆ more) : Turns allowed scope keeps styled d more d' := by
  obtain ⟨log, hrewrites, hlog, hstyled⟩ := h
  exact ⟨log, hrewrites, hlog, List.Subset.trans hstyled hsub⟩

theorem evolves (h : Turns allowed scope keeps styled d styled' d') (hd : d.Distinct) :
    ∃ touched, d.Evolves touched d' := by
  obtain ⟨log, hrewrites, -⟩ := h
  exact ⟨_, hrewrites.evolves hd⟩

theorem soundIn (h : Turns allowed scope keeps styled d styled' d') (hd : d.Distinct)
    (hsound : d.SoundIn allowed scope styled) (hnew : ∀ i, d.next ≤ i → scope i) :
    d'.SoundIn allowed scope styled' := by
  obtain ⟨log, hrewrites, -, hsub⟩ := h
  exact (hrewrites.soundIn hd hsound hnew).weaken hsub

end Turns

theorem IsElement.of_evolves {touched : List (NodeId × String)} {x : NodeId} (h : d.IsElement x)
    (hevolves : d.Evolves touched d') (hx : x < d.next) : d'.IsElement x := by
  intro n hn hid
  obtain ⟨m, hm, hbecomes⟩ := (hevolves.source n hn).old (hid ▸ hx)
  rw [hbecomes.isElement]
  exact h m hm (hbecomes.id ▸ hid)

theorem Distinct.isElement_of_place (hd : d.Distinct) {p : Place} (hp : p ∈ d.places)
    (h : p.isElement) : d.IsElement p.id := by
  intro n hn hid
  rw [hd.eq_of_id_eq hn (tree_mem_nodes hp) hid]
  exact h

theorem Distinct.lt_next_of_place (hd : d.Distinct) {p : Place} (hp : p ∈ d.places) :
    p.id < d.next :=
  hd.fresh _ (id_mem_ids (tree_mem_nodes hp))

/-- Below a node of the scope all nodes are of the scope. -/
theorem SoundIn.scope_of_mem_ids (h : d.SoundIn allowed scope styled) {t : Tree} (ht : t ∈ d.nodes)
    (hscope : scope t.id) : ∀ i ∈ t.ids, scope i := by
  induction t using Tree.bottomUp with
  | node id kind children ih =>
    intro i hi
    rcases Tree.mem_ids_iff.1 hi with rfl | ⟨c, hc, hi⟩
    · exact hscope
    · exact ih c hc (mem_nodes_of_mem_children ht hc) ((h _ ht hscope).inside c hc) i hi

end Document

end ThemeSection
