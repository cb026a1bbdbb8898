import ThemeSection.Markup.Content
import ThemeSection.Proofs.Chars.Blank
import ThemeSection.Proofs.Markup.Update

/-!
What nodes are called and what trees read as. A text that shows the start of an output goes on showing
it in every tree around it, so that a tree in which one node is changed either shows one or reads as it
did.
-/

namespace ThemeSection

/-- The name of an element that is selected by its name. -/
theorem Selector.exists_name_of_holds_tags {names : List String} {p : Markup.Place}
    (h : (Selector.tags names).holds p) : ∃ element, p.tree.element? = some element ∧
      ∃ wanted ∈ names, element.1.name = localName (element.1.space == .html) wanted := by
  obtain ⟨complex, hcomplex, hholds⟩ := List.any_eq_true.1 h
  obtain ⟨wanted, hwanted, hmem⟩ := List.mem_flatMap.1 hcomplex
  obtain rfl := List.mem_singleton.1 hmem
  have hmeets : Selector.meets [.tag wanted] p := (Bool.and_eq_true_iff.1 hholds).1
  rw [Selector.meets] at hmeets
  split at hmeets
  case h_1 => cases hmeets
  case h_2 name attributes helement =>
    simp only [List.all_cons, List.all_nil, Bool.and_true, Simple.passes, beq_iff_eq] at hmeets
    exact ⟨_, helement, wanted, hwanted, hmeets⟩

namespace Markup.Tree

/-- Whether the text as it reads shows the start of an output. -/
def isMarked (t : Tree) : Bool :=
  Text.contains "\x7b\x7b" t.plainText

/-- A tree after a change shows the start of an output, or reads as before. -/
def Retells (t t' : Tree) : Prop :=
  t'.isMarked ∨ t'.text = t.text

variable {t t' t'' n : Tree}

theorem isElement_of_isTag {names : List String} (h : t.isTag names) : t.isElement := by
  unfold isTag tag? at h
  unfold isElement
  cases helement : t.element? with
  | none =>
    rw [helement] at h
    cases h
  | some element => rfl

/-- An element that is selected by its name has the name. -/
theorem isTag_of_holds {name : String} (hname : ∀ isHtml, Text.lower (Selector.localName isHtml name) = name)
    {p : Place} (h : (Selector.tags [name]).holds p) : p.tree.isTag [name] := by
  obtain ⟨element, helement, wanted, hwanted, hsame⟩ := Selector.exists_name_of_holds_tags h
  obtain rfl := List.mem_singleton.1 hwanted
  simp [isTag, tag?, helement, hsame, hname]

theorem isMarked_iff : t.isMarked ↔
    ['\x7b', '\x7b'] <:+: t.text.toList.filter (!Chars.isZeroWidth ·) := by
  rw [isMarked, Text.contains, plainText, Text.squeeze, Text.toList_onChars,
    ← Chars.contains_iff, ← Chars.contains_squeeze (by decide) (by decide)]
  rfl

/-- What shows the start of an output shows it in every longer text. -/
theorem isMarked_of_contained (h : n.text.toList <:+: t.text.toList) (hn : n.isMarked) : t.isMarked :=
  isMarked_iff.2 ((isMarked_iff.1 hn).trans (h.filter _))

theorem isMarked_congr (h : t'.text = t.text) : t'.isMarked = t.isMarked := by
  rw [isMarked, isMarked, plainText, plainText, h]

namespace Retells

theorem refl (t : Tree) : t.Retells t := Or.inr rfl

theorem trans (h : t.Retells t') (h' : t'.Retells t'') : t.Retells t'' := by
  rcases h' with hmarked | hsame
  · exact Or.inl hmarked
  · rcases h with hmarked | hbefore
    · exact Or.inl ((isMarked_congr hsame).trans hmarked)
    · exact Or.inr (hsame.trans hbefore)

/-- What was marked stays marked. -/
theorem isMarked (h : t.Retells t') (hmarked : t.isMarked) : t'.isMarked :=
  h.elim (fun h => h) fun hsame => (isMarked_congr hsame).trans hmarked

/-- A tree that is not marked reads as before. -/
theorem text_eq (h : t.Retells t') (hnot : t'.isMarked = false) : t'.text = t.text :=
  h.resolve_left fun hmarked => by
    rw [hnot] at hmarked
    cases hmarked

end Retells

theorem toList_textOf (trees : List Tree) :
    (textOf trees).toList = trees.flatMap fun t => t.text.toList := by
  induction trees with
  | nil => rfl
  | cons t rest ih => rw [textOf, String.toList_append, ih, List.flatMap_cons]

/-- A node says what it says by itself, and then what its children say. -/
theorem toList_text (id : NodeId) (kind : NodeKind) (children : List Tree) :
    (node id kind children).text.toList =
      kind.ownText.toList ++ children.flatMap fun t => t.text.toList := by
  rw [text, String.toList_append, toList_textOf]

/-- The text of a child is part of that of its parent. -/
theorem infix_text_of_mem_children {c : Tree} (hc : c ∈ t.children) :
    c.text.toList <:+: t.text.toList := by
  obtain ⟨id, kind, children⟩ := t
  obtain ⟨before, after, heq⟩ := List.append_of_mem hc
  rw [children_node] at heq
  rw [toList_text, heq, List.flatMap_append, List.flatMap_cons]
  exact ⟨kind.ownText.toList ++ before.flatMap fun t => t.text.toList,
    after.flatMap fun t => t.text.toList, by simp only [List.append_assoc]⟩

/-- The text of a node is part of the text of every tree around it. -/
theorem infix_text_of_mem_nodes (hn : n ∈ t.nodes) : n.text.toList <:+: t.text.toList := by
  induction t using Tree.bottomUp with
  | node id kind children ih =>
    rcases mem_nodes_iff.1 hn with rfl | ⟨c, hc, hnc⟩
    · exact List.infix_rfl
    · exact (ih c hc hnc).trans (infix_text_of_mem_children hc)

@[simp] theorem text_ofText (id : NodeId) (content : String) : (ofText id content).text = content :=
  String.append_empty

/-- What a text node says is part of its text. -/
theorem infix_text_of_kind {content : String} (h : t.kind = .text content) :
    content.toList <:+: t.text.toList := by
  obtain ⟨id, kind, children⟩ := t
  obtain rfl : kind = .text content := h
  rw [toList_text]
  exact (List.prefix_append _ _).isInfix

/-- Where each child gives way to one that retells it, so does the node. -/
theorem retells_flatMap {id : NodeId} {kind : NodeKind} {children : List Tree} {row : Tree → List Tree}
    (h : ∀ c ∈ children, ∃ c', row c = [c'] ∧ c.Retells c') :
    (node id kind children).Retells (node id kind (children.flatMap row)) := by
  by_cases hmarked : ∃ c ∈ children.flatMap row, c.isMarked
  · obtain ⟨c, hc, hmarked⟩ := hmarked
    exact Or.inl (isMarked_of_contained (infix_text_of_mem_children hc) hmarked)
  · refine Or.inr (String.toList_inj.1 ?_)
    rw [toList_text, toList_text, List.flatMap_assoc]
    refine congrArg _ (List.flatMap_congr fun c hc => ?_)
    obtain ⟨c', hrow, hretells⟩ := h c hc
    have hnot : c'.isMarked = false := by
      refine Bool.not_eq_true _ ▸ fun hc' => hmarked ⟨c', ?_, hc'⟩
      exact List.mem_flatMap.2 ⟨c, hc, hrow ▸ List.mem_singleton_self _⟩
    rw [hrow, List.flatMap_singleton, hretells.text_eq hnot]

theorem retells_update {x : NodeId} {f : Tree → Tree}
    (h : ∀ m ∈ t.nodes, m.id = x → m.Retells (f m)) : t.Retells (t.update x f) := by
  induction t using Tree.bottomUp with
  | node id kind children ih =>
    by_cases hid : (node id kind children).id = x
    · rw [update_of_eq hid]
      exact h _ (self_mem_nodes _) hid
    · rw [update_of_ne hid, children_node, List.map_eq_flatMap]
      exact retells_flatMap fun c hc => ⟨_, rfl, ih c hc fun m hm =>
        h m (nodes_trans (mem_nodes_of_mem_children hc) hm)⟩

theorem retells_splice {x : NodeId} {row : Tree → List Tree}
    (h : ∀ m ∈ t.nodes, m.id = x → ∃ m', row m = [m'] ∧ m.Retells m') :
    t.Retells (t.splice x row) := by
  induction t using Tree.bottomUp with
  | node id kind children ih =>
    rw [splice, spliceAll_eq_flatMap]
    refine retells_flatMap fun c hc => ?_
    have hbelow : c ∈ (node id kind children).nodes := mem_nodes_of_mem_children hc
    rw [spliced]
    split
    case isTrue hid => exact h c hbelow hid
    case isFalse => exact ⟨_, rfl, ih c hc fun m hm => h m (nodes_trans hbelow hm)⟩

theorem text_mapAttributes (change : Attributes → Attributes) (t : Tree) :
    (t.mapAttributes change).text = t.text := by
  unfold mapAttributes
  split <;> rfl

/-- A marked node marks every tree around it. -/
theorem isMarked_of_mem_nodes (hn : n ∈ t.nodes) (hmarked : n.isMarked) : t.isMarked :=
  isMarked_of_contained (infix_text_of_mem_nodes hn) hmarked

theorem isMarked_of_kind {id : NodeId} {content : String} (h : t.kind = .text content)
    (hmarked : (ofText id content).isMarked) : t.isMarked := by
  refine isMarked_of_contained ?_ hmarked
  rw [text_ofText]
  exact infix_text_of_kind h

/-- What has a marked text in the place of what it held is marked. -/
theorem isMarked_withText {id : NodeId} {content : String} (hmarked : (ofText id content).isMarked) :
    (t.withChildren [.ofText id content]).isMarked := by
  refine isMarked_of_mem_nodes (mem_nodes_of_mem_children ?_) hmarked
  rw [children_withChildren]
  exact List.mem_singleton_self _

end Markup.Tree

end ThemeSection
