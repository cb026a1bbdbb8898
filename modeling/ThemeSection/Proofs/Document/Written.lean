import ThemeSection.Proofs.Document.Frame

/-!
What a run of edits writes. Every node of a changed document is one that was there before, or a text that
has been written, or a `div` in the place of another element. A text that is written once is so found in
one node only.
-/

namespace ThemeSection

open Markup

namespace Markup.Tree

/-- What is kept of a node: its id, the name that it has as an element, what it says as a text. -/
structure Alike (n n' : Tree) : Prop where
  id : n'.id = n.id
  tag : n'.tag? = n.tag?
  text : ∀ content, n'.kind = .text content ↔ n.kind = .text content

variable {n n' n'' : Tree} {log : List (NodeId × String)}

theorem Alike.of_kind (hid : n'.id = n.id) (hkind : n'.kind = n.kind) : n.Alike n' where
  id := hid
  tag := by rw [tag?, tag?, element?, element?, hkind]
  text := fun _ => by rw [hkind]

theorem Alike.refl (n : Tree) : n.Alike n :=
  .of_kind rfl rfl

theorem Alike.trans (h : n.Alike n') (h' : n'.Alike n'') : n.Alike n'' where
  id := h'.id.trans h.id
  tag := h'.tag.trans h.tag
  text := fun content => (h'.text content).trans (h.text content)

theorem alike_mapAttributes (change : Attributes → Attributes) (n : Tree) :
    n.Alike (n.mapAttributes change) where
  id := id_mapAttributes change n
  tag := by
    have hname := congrArg (Option.map fun name : ElementName => Text.lower name.name)
      (name_mapAttributes change n)
    rwa [Option.map_map, Option.map_map] at hname
  text := by
    intro content
    unfold mapAttributes
    split
    · exact iff_of_false (fun h => by cases h) fun h => by cases h
    · exact Iff.rfl

/-- A text that a log of written texts has under its id, or a `div`. -/
def IsWritten (log : List (NodeId × String)) (n : Tree) : Prop :=
  (∃ content, n.kind = .text content ∧ (n.id, content) ∈ log) ∨ n.isTag ["div"]

theorem IsWritten.alike (h : n.IsWritten log) (halike : n.Alike n') : n'.IsWritten log := by
  rcases h with ⟨content, hkind, hlog⟩ | htag
  · exact Or.inl ⟨content, (halike.text content).2 hkind, halike.id ▸ hlog⟩
  · exact Or.inr (by rwa [isTag, halike.tag])

theorem IsWritten.mono {log' : List (NodeId × String)} (h : n.IsWritten log) (hsub : log ⊆ log') :
    n.IsWritten log' :=
  h.imp_left fun ⟨content, hkind, hlog⟩ => ⟨content, hkind, hsub hlog⟩

theorem isWritten_ofText {x : NodeId} {content : String} (h : (x, content) ∈ log) :
    ∀ n ∈ (ofText x content).nodes, n.IsWritten log :=
  List.forall_mem_singleton.2 (Or.inl ⟨content, rfl, h⟩)

end Markup.Tree

namespace Document

variable {d d' d'' : Document} {x : NodeId} {log log' : List (NodeId × String)} {out : List Tree}

/-- Every node was there before, or is in a log of what has been written. -/
def Logs (log : List (NodeId × String)) (d d' : Document) : Prop :=
  ∀ n ∈ d'.nodes, (∃ m ∈ d.nodes, m.Alike n) ∨ n.IsWritten log

theorem Logs.refl (d : Document) : Logs log d d :=
  fun n hn => Or.inl ⟨n, hn, .refl n⟩

theorem Logs.trans (h : Logs log d d') (h' : Logs log' d' d'') : Logs (log ++ log') d d'' := by
  intro n hn
  rcases h' n hn with ⟨m, hm, halike⟩ | hwritten
  · rcases h m hm with ⟨k, hk, halike'⟩ | hwritten
    · exact Or.inl ⟨k, hk, halike'.trans halike⟩
    · exact Or.inr ((hwritten.alike halike).mono (List.subset_append_left _ _))
  · exact Or.inr (hwritten.mono (List.subset_append_right _ _))

/-- A change to one node in its place. -/
theorem logs_update {f : Tree → Tree} (htrees : d'.trees = (d.update x f).trees ++ out)
    (hout : ∀ t ∈ out, t ∈ d.nodes) (hself : ∀ m : Tree, m.Alike (f m))
    (hbelow : ∀ m ∈ d.nodes, ∀ c ∈ (f m).children, c ∈ d.nodes ∨ ∀ n ∈ c.nodes, n.IsWritten log) :
    Logs log d d' := by
  intro n hn
  obtain ⟨t', ht', hn⟩ := mem_nodes.1 hn
  rw [htrees, List.mem_append] at ht'
  rcases ht' with ht' | ht'
  case inr => exact Or.inl ⟨n, nodes_trans (hout t' ht') hn, .refl n⟩
  obtain ⟨t, ht, rfl⟩ : ∃ t ∈ d.trees, t.update x f = t' := List.mem_map.1 ht'
  rcases Tree.mem_nodes_update hn with ⟨m, hm, hne, rfl⟩ | ⟨m, hm, -, hn⟩
  · refine Or.inl ⟨m, mem_nodes.2 ⟨t, ht, hm⟩, ?_⟩
    rw [Tree.update_of_ne hne]
    exact .of_kind rfl rfl
  · have hm := mem_nodes.2 ⟨t, ht, hm⟩
    rcases Tree.mem_nodes_iff.1 hn with rfl | ⟨c, hc, hn⟩
    · exact Or.inl ⟨m, hm, hself m⟩
    · exact (hbelow m hm c hc).imp (fun hc => ⟨n, nodes_trans hc hn, .refl n⟩) fun h => h n hn

/-- A row in the place of a node. -/
theorem logs_splice {row : Tree → List Tree} (htrees : d'.trees = (d.splice x row).trees ++ out)
    (hout : ∀ t ∈ out, t ∈ d.nodes ∨ ∀ n ∈ t.nodes, n.IsWritten log)
    (hrow : ∀ m, ∀ r ∈ row m, r = m ∨ ∀ n ∈ r.nodes, n.IsWritten log) : Logs log d d' := by
  intro n hn
  obtain ⟨t', ht', hn⟩ := mem_nodes.1 hn
  rw [htrees, List.mem_append] at ht'
  rcases ht' with ht' | ht'
  case inr =>
    exact (hout t' ht').imp (fun hin => ⟨n, nodes_trans hin hn, .refl n⟩) fun h => h n hn
  obtain ⟨t, ht, rfl⟩ : ∃ t ∈ d.trees, t.splice x row = t' := List.mem_map.1 ht'
  rcases Tree.mem_nodes_splice hn with ⟨m, hm, rfl⟩ | ⟨m, hm, -, r, hr, hn⟩
  · exact Or.inl ⟨m, mem_nodes.2 ⟨t, ht, hm⟩, .of_kind (Tree.id_splice _ _ _) (Tree.kind_splice _ _ _)⟩
  · rcases hrow m r hr with rfl | hwritten
    · exact Or.inl ⟨n, mem_nodes.2 ⟨t, ht, Tree.nodes_trans hm hn⟩, .refl n⟩
    · exact Or.inr (hwritten n hn)

theorem logs_setAttribute (x : NodeId) (name value : String) :
    Logs [] d (d.setAttribute x name value) := by
  refine logs_update (List.append_nil _).symm (List.forall_mem_nil _) (Tree.alike_mapAttributes _)
    fun m hm c hc => Or.inl ?_
  rw [Tree.children_mapAttributes] at hc
  exact mem_nodes_of_mem_children hm hc

theorem logs_clear (x : NodeId) : Logs [] d (d.clear x) := by
  unfold clear
  split
  case h_1 => exact .refl d
  case h_2 p hp =>
    refine @logs_update _ _ _ [] p.tree.children _ rfl
      (fun t ht => mem_nodes_of_mem_children (tree_mem_nodes (mem_places_of_place? hp)) ht)
      (fun m => .of_kind (Tree.id_withChildren _ m) (Tree.kind_withChildren _ m)) fun m _ c hc => ?_
    rw [Tree.children_withChildren] at hc
    cases hc

theorem logs_appendText (x : NodeId) (content : String) :
    Logs [(d.next, content)] d (d.appendText x content) := by
  refine logs_update (List.append_nil _).symm (List.forall_mem_nil _)
    (fun m => .of_kind (Tree.id_withChildren _ m) (Tree.kind_withChildren _ m)) fun m hm c hc => ?_
  rw [Tree.children_withChildren, List.mem_append, List.mem_singleton] at hc
  rcases hc with hc | rfl
  · exact Or.inl (mem_nodes_of_mem_children hm hc)
  · exact Or.inr (Tree.isWritten_ofText (List.mem_singleton_self _))

theorem logs_setText (x : NodeId) (content : String) :
    Logs [((d.clear x).next, content)] d (d.setText x content) :=
  (logs_clear x).trans (logs_appendText x content)

theorem logs_wrap (x : NodeId) (before after : String) :
    Logs [(d.next, before), (d.next + 1, after)] d (d.wrap x before after) := by
  refine logs_splice (List.append_nil _).symm (List.forall_mem_nil _) fun m r hr => ?_
  simp only [List.mem_cons, List.not_mem_nil, or_false] at hr
  rcases hr with rfl | rfl | rfl
  · exact Or.inr (Tree.isWritten_ofText List.mem_cons_self)
  · exact Or.inl rfl
  · exact Or.inr (Tree.isWritten_ofText (List.mem_cons_of_mem _ (List.mem_singleton_self _)))

theorem logs_detach (x : NodeId) : Logs [] d (d.detach x) := by
  unfold detach
  split
  case h_1 tree level rest hp =>
    exact logs_splice rfl (List.forall_mem_singleton.2
      (Or.inl (tree_mem_nodes (mem_places_of_place? hp)))) fun _ => List.forall_mem_nil _
  case h_2 => exact .refl d

theorem logs_renew (hd : d.Distinct) (x : NodeId) (content : String) :
    Logs [(d.next + 1, content)] d (d.apply (.renew x content)) := by
  cases hretag : d.retag? x "div" with
  | none =>
    rw [apply, hretag]
    exact .refl d
  | some made =>
    obtain ⟨p, name, attributes, hp, helement, -⟩ := retag?_div hretag
    have hmade : ∀ n ∈ (d.renewed attributes content).nodes, n.IsWritten [(d.next + 1, content)] := by
      change ∀ n ∈ [d.renewed attributes content, .ofText (d.next + 1) content], _
      rw [List.forall_mem_cons, List.forall_mem_singleton]
      exact ⟨Or.inr rfl, Or.inl ⟨content, rfl, List.mem_singleton_self _⟩⟩
    refine logs_splice (trees_renew hd hp helement content) (List.forall_mem_singleton.2 ?_)
      fun _ => List.forall_mem_singleton.2 (Or.inr hmade)
    split
    · exact Or.inr hmade
    · exact Or.inl (tree_mem_nodes (mem_places_of_place? hp))

/-- No more has been written than some texts, in their order. -/
def Adds (texts : List String) (d d' : Document) : Prop :=
  ∃ log, (log.map Prod.snd).Sublist texts ∧ Logs log d d'

theorem Logs.adds (h : Logs log d d') : Adds (log.map Prod.snd) d d' :=
  ⟨log, List.Sublist.refl _, h⟩

namespace Adds

variable {texts texts' : List String} {content : String}

theorem refl (d : Document) : Adds texts d d :=
  ⟨[], List.nil_sublist _, .refl d⟩

theorem trans (h : Adds texts d d') (h' : Adds texts' d' d'') : Adds (texts ++ texts') d d'' := by
  obtain ⟨log, hsub, hlogs⟩ := h
  obtain ⟨log', hsub', hlogs'⟩ := h'
  exact ⟨log ++ log', by rw [List.map_append]; exact hsub.append hsub', hlogs.trans hlogs'⟩

theorem mono (h : Adds texts d d') (hsub : texts.Sublist texts') : Adds texts' d d' := by
  obtain ⟨log, hlog, hlogs⟩ := h
  exact ⟨log, hlog.trans hsub, hlogs⟩

/-- Edits that write nothing. -/
theorem foldl {α : Type} {change : Document → α → Document} (hchange : ∀ d a, Adds [] d (change d a))
    (l : List α) (d : Document) : Adds [] d (l.foldl change d) := by
  induction l generalizing d with
  | nil => exact .refl d
  | cons a rest ih => exact (hchange d a).trans (ih _)

/-- An element with another name than `div` was there before. -/
theorem exists_of_isTag (h : Adds texts d d') {n : Tree} (hn : n ∈ d'.nodes) {name : String}
    (htag : n.isTag [name]) (hname : name ≠ "div") : ∃ m ∈ d.nodes, m.id = n.id := by
  obtain ⟨log, -, hlogs⟩ := h
  rcases hlogs n hn with ⟨m, hm, halike⟩ | ⟨content, hkind, -⟩ | hdiv
  · exact ⟨m, hm, halike.id.symm⟩
  · have helement := Tree.isElement_of_isTag htag
    rw [Tree.isElement, Tree.element?, hkind] at helement
    cases helement
  · obtain ⟨tag, htag', hin⟩ := (Option.any_eq_true _ _).1 htag
    obtain ⟨tag', hdiv', hin'⟩ := (Option.any_eq_true _ _).1 hdiv
    obtain rfl := Option.some.inj (htag'.symm.trans hdiv')
    simp only [List.contains_iff_mem, List.mem_singleton] at hin hin'
    exact absurd (hin.symm.trans hin') hname

/-- A text that is written once at most and was in neither of two nodes before is in one node. -/
theorem id_eq (h : Adds texts d d') (hcount : texts.count content ≤ 1) {n m : Tree}
    (hn : n ∈ d'.nodes) (hm : m ∈ d'.nodes) (hnkind : n.kind = .text content)
    (hmkind : m.kind = .text content)
    (hold : ∀ k ∈ d.nodes, k.id = n.id ∨ k.id = m.id → k.kind ≠ .text content) : n.id = m.id := by
  obtain ⟨log, hsub, hlogs⟩ := h
  have hlog : ∀ k ∈ d'.nodes, k.id = n.id ∨ k.id = m.id → k.kind = .text content →
      (k.id, content) ∈ log.filter (·.2 == content) := by
    intro k hk hid hkind
    rcases hlogs k hk with ⟨k', hk', halike⟩ | ⟨content', hkind', hlog⟩ | hdiv
    · exact absurd ((halike.text content).1 hkind) (hold k' hk' (halike.id ▸ hid))
    · obtain rfl := NodeKind.text.inj (hkind.symm.trans hkind')
      exact List.mem_filter.2 ⟨hlog, beq_self_eq_true content⟩
    · have helement := Tree.isElement_of_isTag hdiv
      rw [Tree.isElement, Tree.element?, hkind] at helement
      cases helement
  have hlength : (log.filter (·.2 == content)).length ≤ 1 := by
    have hle := Nat.le_trans (hsub.count_le content) hcount
    rwa [List.count, List.countP_map, List.countP_eq_length_filter] at hle
  have hn := hlog n hn (Or.inl rfl) hnkind
  have hm := hlog m hm (Or.inr rfl) hmkind
  obtain ⟨entry, hentry⟩ := List.length_eq_one_iff.1
    (Nat.le_antisymm hlength (List.length_pos_of_mem hn))
  rw [hentry, List.mem_singleton] at hn hm
  exact congrArg Prod.fst (hn.trans hm.symm)

end Adds

end Document

end ThemeSection
