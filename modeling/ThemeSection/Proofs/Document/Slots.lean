import ThemeSection.Proofs.Document.Edit

/-!
Slots: what of a node a setting may stand in for, that is its text, where it leads and which image it
shows. An edit fills the slots of one node; whatever the slots of any other old node hold they held
before. A run of edits is so known by what it may have filled slots with.
-/

namespace ThemeSection

open Markup

namespace Markup

/-- What of a node may be replaced by a setting. -/
inductive Slot
  | text
  | href
  | src
  deriving DecidableEq, Repr

namespace Slot

/-- The attribute that a slot is. -/
def attribute? : Slot → Option String
  | text => none
  | href => some "href"
  | src => some "src"

/-- A text of its own that a node has, or the value of an attribute. -/
def Holds : Slot → Tree → String → Prop
  | text, n, content => ∃ c ∈ n.children, c.kind = .text content
  | href, n, content => n.attribute? "href" = some content
  | src, n, content => n.attribute? "src" = some content

instance decidableHolds (slot : Slot) (n : Tree) (content : String) :
    Decidable (slot.Holds n content) :=
  match slot with
  | text => inferInstanceAs (Decidable (∃ c ∈ n.children, c.kind = .text content))
  | href => inferInstanceAs (Decidable (n.attribute? "href" = some content))
  | src => inferInstanceAs (Decidable (n.attribute? "src" = some content))

/-- The attributes that are slots. -/
def attributes : List String := ["href", "src"]

theorem mem_attributes {slot : Slot} {name : String} (h : slot.attribute? = some name) :
    name ∈ attributes := by
  cases slot with
  | text => cases h
  | href => exact Option.some.inj h ▸ List.mem_cons_self
  | src => exact Option.some.inj h ▸ List.mem_cons_of_mem _ List.mem_cons_self

/-- A slot depends on the texts of a node and on its attributes. -/
theorem holds_of_subset {slot : Slot} {n m : Tree} {content : String}
    (htext : ∀ c ∈ n.children, ∀ s, c.kind = .text s → ∃ c' ∈ m.children, c'.kind = .text s)
    (hvalue : ∀ name, n.attribute? name = m.attribute? name) (h : slot.Holds n content) :
    slot.Holds m content := by
  cases slot with
  | text =>
    obtain ⟨c, hc, hkind⟩ := h
    exact htext c hc content hkind
  | href => exact (hvalue "href").symm.trans h
  | src => exact (hvalue "src").symm.trans h

end Slot

end Markup

namespace Document

/-- Every old node was there before, and its slots hold what they held or what is allowed. -/
structure Fills (allowed : NodeId → Slot → String → Prop) (d d' : Document) : Prop where
  next_le : d.next ≤ d'.next
  source : ∀ n ∈ d'.nodes, n.id < d.next → ∃ m ∈ d.nodes, m.id = n.id ∧
    ∀ slot : Slot, ∀ content, slot.Holds n content → slot.Holds m content ∨ allowed n.id slot content

namespace Fills

variable {allowed : NodeId → Slot → String → Prop} {d d' d'' : Document} {x : NodeId}

theorem refl : Fills allowed d d where
  next_le := Nat.le_refl _
  source := fun n hn _ => ⟨n, hn, rfl, fun _ _ h => Or.inl h⟩

theorem trans (h : Fills allowed d d') (h' : Fills allowed d' d'') : Fills allowed d d'' where
  next_le := Nat.le_trans h.next_le h'.next_le
  source := by
    intro n hn hlt
    obtain ⟨m', hm', hid', hheld'⟩ := h'.source n hn (Nat.lt_of_lt_of_le hlt h.next_le)
    obtain ⟨m, hm, hid, hheld⟩ := h.source m' hm' (hid' ▸ hlt)
    refine ⟨m, hm, hid.trans hid', fun slot content hholds => ?_⟩
    rcases hheld' slot content hholds with hholds | hallowed
    · exact hid' ▸ hheld slot content hholds
    · exact Or.inr hallowed

/-- What new nodes hold does not matter. -/
theorem narrow (h : Fills (fun id slot content => d.next ≤ id ∨ allowed id slot content) d d') :
    Fills allowed d d' :=
  { h with
    source := fun n hn hlt => by
      obtain ⟨m, hm, hid, hheld⟩ := h.source n hn hlt
      refine ⟨m, hm, hid, fun slot content hholds => ?_⟩
      exact (hheld slot content hholds).imp_right (Or.resolve_left · (Nat.not_le.2 hlt)) }

/-- Nodes that were all there before. -/
theorem of_nodes (hnext : d.next ≤ d'.next)
    (h : ∀ n ∈ d'.nodes, n.id < d.next → n ∈ d.nodes ∨ ∃ m ∈ d.nodes, m.id = n.id ∧
      ∀ slot : Slot, ∀ content,
        slot.Holds n content → slot.Holds m content ∨ allowed n.id slot content) :
    Fills allowed d d' where
  next_le := hnext
  source := fun n hn hlt => (h n hn hlt).elim (fun hn => ⟨n, hn, rfl, fun _ _ => Or.inl⟩) id

/-- A node that is changed in its place keeps its kind; what it becomes has known nodes below it. -/
theorem update {next : NodeId} (hnext : d.next ≤ next) {f : Tree → Tree}
    (hkind : ∀ m s, (f m).kind = .text s → m.kind = .text s)
    (hid : ∀ m, (f m).id = m.id)
    (hbelow : ∀ m ∈ d.nodes, m.id = x → ∀ c ∈ (f m).children, ∀ n ∈ c.nodes,
      n.id < d.next → n ∈ d.nodes)
    (hself : ∀ m ∈ d.nodes, m.id = x → ∀ slot : Slot, ∀ content,
      slot.Holds (f m) content → slot.Holds m content ∨ allowed x slot content) :
    Fills allowed d { d.update x f with next } := by
  refine .of_nodes hnext fun n hn hlt => ?_
  obtain ⟨t', ht', hn⟩ := mem_nodes.1 hn
  obtain ⟨t, ht, rfl⟩ : ∃ t ∈ d.trees, t.update x f = t' := List.mem_map.1 ht'
  have hmem : ∀ {m : Tree}, m ∈ t.nodes → m ∈ d.nodes := fun hm => mem_nodes.2 ⟨t, ht, hm⟩
  rcases Tree.mem_nodes_update hn with ⟨m, hm, hne, rfl⟩ | ⟨m, hm, hmid, hn⟩
  · have hupdate := Tree.update_of_ne (f := f) hne
    refine Or.inr ⟨m, hmem hm, by rw [hupdate, Tree.id_node], fun slot content hholds => Or.inl ?_⟩
    refine Slot.holds_of_subset (fun c hc s hs => ?_) (fun _ => by rw [hupdate]; rfl) hholds
    rw [hupdate, Tree.children_node] at hc
    obtain ⟨c', hc', rfl⟩ := List.mem_map.1 hc
    refine ⟨c', hc', ?_⟩
    by_cases heq : c'.id = x
    · rw [Tree.update_of_eq heq] at hs
      exact hkind c' s hs
    · rwa [Tree.update_of_ne heq] at hs
  · rcases Tree.mem_nodes_iff.1 hn with rfl | ⟨c, hc, hn⟩
    · refine Or.inr ⟨m, hmem hm, (hid m).symm, fun slot content hholds => ?_⟩
      rw [hid, hmid]
      exact hself m (hmem hm) hmid slot content hholds
    · exact Or.inl (hbelow m (hmem hm) hmid c hc n hn hlt)

/-- A row in the place of a node: of the node itself and of new trees. -/
theorem splice {row : Tree → List Tree} {out : List Tree} (hnext : d.next ≤ d'.next)
    (htrees : d'.trees = (d.splice x row).trees ++ out) (hout : ∀ t ∈ out, t ∈ d.nodes)
    (hrow : ∀ m ∈ d.nodes, m.id = x → ∀ r ∈ row m, r = m ∨
      (∀ i ∈ r.ids, d.next ≤ i) ∧ ∀ s, r.kind = .text s → ∀ id, allowed id .text s) :
    Fills allowed d d' := by
  refine .of_nodes hnext fun n hn hlt => ?_
  obtain ⟨t', ht', hn⟩ := mem_nodes.1 hn
  rw [htrees, List.mem_append] at ht'
  rcases ht' with ht' | ht'
  case inr => exact Or.inl (nodes_trans (hout t' ht') hn)
  obtain ⟨t, ht, rfl⟩ : ∃ t ∈ d.trees, t.splice x row = t' := List.mem_map.1 ht'
  have hmem : ∀ {m : Tree}, m ∈ t.nodes → m ∈ d.nodes := fun hm => mem_nodes.2 ⟨t, ht, hm⟩
  rcases Tree.mem_nodes_splice hn with ⟨m, hm, rfl⟩ | ⟨m, hm, hid, r, hr, hn⟩
  · refine Or.inr ⟨m, hmem hm, (Tree.id_splice _ _ _).symm, fun slot content hholds => ?_⟩
    have hvalue : ∀ name, (m.splice x row).attribute? name = m.attribute? name := fun name => by
      simp only [Tree.attribute?, Tree.element?, Tree.kind_splice]
    cases slot with
    | href => exact Or.inl ((hvalue "href").symm.trans hholds)
    | src => exact Or.inl ((hvalue "src").symm.trans hholds)
    | text =>
      obtain ⟨c, hc, hkind⟩ := hholds
      rw [Tree.children_splice, List.mem_flatMap] at hc
      obtain ⟨child, hchild, hc⟩ := hc
      rw [Tree.spliced] at hc
      split at hc
      case isTrue hid =>
        rcases hrow child (mem_nodes_of_mem_children (hmem hm) hchild) hid c hc with rfl | ⟨-, htext⟩
        · exact Or.inl ⟨c, hchild, hkind⟩
        · exact Or.inr (htext content hkind _)
      case isFalse =>
        obtain rfl := List.mem_singleton.1 hc
        exact Or.inl ⟨child, hchild, by rwa [Tree.kind_splice] at hkind⟩
  · rcases hrow m (hmem hm) hid r hr with rfl | ⟨hnew, -⟩
    · exact Or.inl (hmem (Tree.nodes_trans hm hn))
    · exact absurd hlt (Nat.not_lt.2 (hnew _ (Tree.id_mem_ids_of_mem_nodes hn)))

/-- A document with the same trees and others that were in it, or are new. -/
theorem of_trees {out : List Tree} (hnext : d.next ≤ d'.next) (htrees : d'.trees = d.trees ++ out)
    (hout : ∀ t ∈ out, t ∈ d.nodes ∨ ∀ i ∈ t.ids, d.next ≤ i) : Fills allowed d d' := by
  refine .of_nodes hnext fun n hn hlt => Or.inl ?_
  obtain ⟨t, ht, hn⟩ := mem_nodes.1 hn
  rw [htrees, List.mem_append] at ht
  rcases ht with ht | ht
  · exact mem_nodes.2 ⟨t, ht, hn⟩
  · rcases hout t ht with hin | hnew
    · exact nodes_trans hin hn
    · exact absurd hlt (Nat.not_lt.2 (hnew _ (Tree.id_mem_ids_of_mem_nodes hn)))

theorem kind_mapAttributes {change : Attributes → Attributes} {m : Tree} {s : String}
    (h : (m.mapAttributes change).kind = .text s) : m.kind = .text s := by
  unfold Tree.mapAttributes at h
  split at h
  · cases h
  · exact h

theorem mapAttributes {change : Attributes → Attributes}
    (hchange : ∀ m ∈ d.nodes, m.id = x → ∀ slot : Slot, ∀ name, slot.attribute? = some name →
      ∀ content, (m.mapAttributes change).attribute? name = some content →
        m.attribute? name = some content ∨ allowed x slot content) :
    Fills allowed d (d.update x (·.mapAttributes change)) := by
  refine update (Nat.le_refl _) (fun _ _ => kind_mapAttributes) (Tree.id_mapAttributes _)
    (fun m hm _ c hc n hn _ => ?_) fun m hm hid slot content hholds => ?_
  · rw [Tree.children_mapAttributes] at hc
    exact nodes_trans (mem_nodes_of_mem_children hm hc) hn
  · cases slot with
    | text =>
      refine Or.inl ?_
      rwa [Slot.Holds, Tree.children_mapAttributes] at hholds
    | href => exact hchange m hm hid .href "href" rfl content hholds
    | src => exact hchange m hm hid .src "src" rfl content hholds

theorem setAttribute {name value : String}
    (hvalue : ∀ slot : Slot, slot.attribute? = some name → allowed x slot value) :
    Fills allowed d (d.setAttribute x name value) := by
  refine mapAttributes fun m _ _ slot name' hslot content hcontent => ?_
  by_cases heq : name = name'
  · subst heq
    refine Or.inr ?_
    by_cases helement : m.isElement
    · rw [Tree.attribute?_set_self helement] at hcontent
      exact Option.some.inj hcontent ▸ hvalue slot hslot
    · rw [← Tree.isElement_mapAttributes (·.set ⟨.plain name, value⟩)] at helement
      rw [Tree.attribute?, Option.not_isSome_iff_eq_none.1 helement] at hcontent
      cases hcontent
  · refine Or.inl ?_
    rwa [Tree.attribute?_mapAttributes fun a => Attributes.get?_set_of_ne fun h =>
      heq (AttributeName.plain_injective h)] at hcontent

theorem removeAttribute {name : String} (hname : name ∉ Slot.attributes) :
    Fills allowed d (d.removeAttribute x name) := by
  refine mapAttributes fun m _ _ slot name' hslot content hcontent => Or.inl ?_
  have hne : AttributeName.plain name ≠ .plain name' := fun h =>
    hname (AttributeName.plain_injective h ▸ Slot.mem_attributes hslot)
  rwa [Tree.attribute?_mapAttributes fun _ => Attributes.get?_remove_of_ne hne] at hcontent

/-- A new tree behind the last child of a node. -/
theorem append {next : NodeId} (hnext : d.next ≤ next) {tree : Tree}
    (hnew : ∀ i ∈ tree.ids, d.next ≤ i) (htext : ∀ s, tree.kind = .text s → allowed x .text s) :
    Fills allowed d { d.append x tree with next } := by
  refine update hnext (fun m s h => by rwa [Tree.kind_withChildren] at h)
    (fun m => Tree.id_withChildren _ m) (fun m hm _ c hc n hn hlt => ?_)
    fun m _ _ slot content hholds => ?_
  · rw [Tree.children_withChildren, List.mem_append, List.mem_singleton] at hc
    rcases hc with hc | rfl
    · exact nodes_trans (mem_nodes_of_mem_children hm hc) hn
    · exact absurd hlt (Nat.not_lt.2 (hnew _ (Tree.id_mem_ids_of_mem_nodes hn)))
  · cases slot with
    | text =>
      obtain ⟨c, hc, hkind⟩ := hholds
      rw [Tree.children_withChildren, List.mem_append, List.mem_singleton] at hc
      rcases hc with hc | rfl
      · exact Or.inl ⟨c, hc, hkind⟩
      · exact Or.inr (htext content hkind)
    | href => exact Or.inl ((Tree.attribute?_withChildren _ m "href").symm.trans hholds)
    | src => exact Or.inl ((Tree.attribute?_withChildren _ m "src").symm.trans hholds)

theorem appendText {content : String} (h : allowed x .text content) :
    Fills allowed d (d.appendText x content) := by
  refine append (Nat.le_succ _) (fun i hi => ?_) fun s hs => ?_
  · obtain rfl := List.mem_singleton.1 hi
    exact Nat.le_refl _
  · cases hs
    exact h

theorem clear (x : NodeId) : Fills allowed d (d.clear x) := by
  unfold Document.clear
  split
  case h_1 => exact refl
  case h_2 p hp =>
    have hcleared : Fills allowed d (d.update x (·.withChildren [])) := by
      refine update (Nat.le_refl _) (fun m s h => by rwa [Tree.kind_withChildren] at h)
        (fun m => Tree.id_withChildren _ m) (fun m _ _ c hc => ?_) fun m _ _ slot content hholds => ?_
      · rw [Tree.children_withChildren] at hc
        cases hc
      · refine Or.inl (Slot.holds_of_subset (fun c hc => ?_) (fun name => ?_) hholds)
        · rw [Tree.children_withChildren] at hc
          cases hc
        · exact Tree.attribute?_withChildren _ m name
    refine .of_nodes (Nat.le_refl _) fun n hn hlt => ?_
    obtain ⟨t, ht, hn⟩ := mem_nodes.1 hn
    rw [trees, ← List.cons_append, List.mem_append] at ht
    rcases ht with ht | ht
    · exact Or.inr (hcleared.source n (mem_nodes.2 ⟨t, ht, hn⟩) hlt)
    · have hp := tree_mem_nodes (mem_places_of_place? hp)
      exact Or.inl (nodes_trans (mem_nodes_of_mem_children hp ht) hn)

theorem setText {content : String} (h : allowed x .text content) :
    Fills allowed d (d.setText x content) :=
  (clear x).trans (appendText h)

/-- What stands around a node is a text of its parent, whichever that is. -/
theorem wrap {before after : String}
    (h : ∀ id, allowed id .text before ∧ allowed id .text after) :
    Fills allowed d (d.wrap x before after) := by
  refine splice (Nat.le_add_right _ 2) (List.append_nil _).symm (List.forall_mem_nil _)
    fun m _ _ r hr => ?_
  simp only [List.mem_cons, List.not_mem_nil, or_false] at hr
  rcases hr with rfl | rfl | rfl
  · exact Or.inr ⟨by simp, fun s hs id => by cases hs; exact (h id).1⟩
  · exact Or.inl rfl
  · exact Or.inr ⟨by simp, fun s hs id => by cases hs; exact (h id).2⟩

theorem detach (x : NodeId) : Fills allowed d (d.detach x) := by
  unfold Document.detach
  split
  case h_1 tree level rest hp =>
    exact splice (Nat.le_refl _) rfl
      (fun t ht => List.mem_singleton.1 ht ▸ tree_mem_nodes (mem_places_of_place? hp))
      fun _ _ _ => List.forall_mem_nil _
  case h_2 => exact refl

theorem retag? {made : Tree} (h : d.retag? x "div" = some (made, d')) : Fills allowed d d' := by
  obtain ⟨p, name, attributes, hp, -, rfl, hnext, hroot, hbelow⟩ := retag?_div h
  have hle : d.next ≤ d'.next := hnext ▸ Nat.le_succ _
  have hnew : ∀ i ∈ (d.newDiv attributes).ids, d.next ≤ i := by
    rw [newDiv, Tree.ids_node, List.flatMap_nil]
    exact List.forall_mem_singleton.2 (Nat.le_refl _)
  by_cases habove : p.above = []
  · exact of_trees hle (hroot habove) fun t ht => Or.inr (List.mem_singleton.1 ht ▸ hnew)
  · refine splice hle (hbelow habove)
      (fun t ht => List.mem_singleton.1 ht ▸ tree_mem_nodes (mem_places_of_place? hp))
      fun m _ _ r hr => Or.inr ?_
    obtain rfl := List.mem_singleton.1 hr
    exact ⟨hnew, fun s hs => by cases hs⟩

/-- A new element holds a new text, and no old node holds it. -/
theorem renew (x : NodeId) (content : String) : Fills allowed d (d.apply (.renew x content)) := by
  rw [apply]
  split
  case h_1 => exact refl
  case h_2 made d' hretag =>
    obtain ⟨p, name, attributes, -, -, hmade, -, -, -⟩ := retag?_div hretag
    refine narrow ((retag? hretag).trans (appendText (Or.inl ?_)))
    rw [hmade]
    exact Nat.le_refl _

end Fills

end Document

end ThemeSection
