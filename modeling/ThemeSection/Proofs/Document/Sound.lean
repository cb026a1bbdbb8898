import ThemeSection.Proofs.Document.Edit
import ThemeSection.Proofs.Style.Background

/-!
Documents whose template syntax is sound. Soundness is said node by node: texts and attributes are
put together from whole outputs and tags, and the texts right below a node leave the stack of open
tags as it was. Texts that open and close a tag stand in one row, around whole elements, and that is
all an edit can change in a row. The markup of a sound node is then well nested, whatever has become
of its subtree.
-/

namespace ThemeSection

open Markup Liquid

namespace Markup

/-- What a node of a kind writes between its children is sound. -/
def NodeKind.Sound (allowed : Owner → String → Prop) : NodeKind → Prop
  | .document => True
  | .doctype name => Braceless name.toList
  | .text content => Settled content.toList ∧ ∀ t ∈ tokens content.toList, t.Fits allowed
  | .comment content => Braceless content.toList
  | .element name attributes => Braceless name.name.toList ∧
      ∀ a ∈ attributes, Braceless a.name.name.toList ∧ Liquid.Sound allowed a.value

namespace Tree

/-- The tokens of a text node; none of another node. -/
def ownTokens (t : Tree) : List Liquid.Token :=
  match t.kind with
  | .text content => tokens content.toList
  | _ => []

/-- Soundness of a single node, among the ids of `scope`. -/
structure SoundNode (allowed : Owner → String → Prop) (scope : NodeId → Prop)
    (styled : List NodeId) (n : Tree) : Prop where
  kind : n.kind.Sound allowed
  /-- Only the styles of the nodes in `styled` may carry template syntax. -/
  style : n.id ∉ styled → ∀ style ∈ n.attribute? "style", Braceless style.toList
  /-- The texts right below the node close what they open. -/
  row : Neutral (n.children.flatMap ownTokens)
  inside : ∀ c ∈ n.children, scope c.id

end Tree

end Markup

namespace Document

/-- The nodes of a scope are sound, and nodes below them are of the scope. -/
def SoundIn (allowed : Owner → String → Prop) (scope : NodeId → Prop) (styled : List NodeId)
    (d : Document) : Prop :=
  ∀ n ∈ d.nodes, scope n.id → n.SoundNode allowed scope styled

/-- No other node than elements has the id. -/
def IsElement (d : Document) (x : NodeId) : Prop :=
  ∀ n ∈ d.nodes, n.id = x → n.isElement

end Document

namespace Edit

/-- What an edit writes is sound. A style is written only by putting another source into it. -/
def Fits (allowed : Owner → String → Prop) : Edit → Prop
  | setAttribute _ name value => name ≠ "style" ∧ Braceless name.toList ∧ Sound allowed value
  | removeAttribute _ _ => True
  | background _ source => Sound allowed source
  | setText _ content => Sound allowed content
  | renew _ content => Sound allowed content
  | wrap _ before after => SoundAround allowed before after
  | detach _ => True
  | append _ tree => tree.isElement ∧
      ∀ n ∈ tree.nodes, n.SoundNode allowed (fun _ => True) []

/-- What an edit is made to is what it is meant for. -/
def Suits (scope : NodeId → Prop) (styled : List NodeId) (d : Document) : Edit → Prop
  | background x _ => scope x ∧ x ∉ styled
  | renew x _ => scope x ∧ x ∉ styled
  | wrap x _ _ => d.IsElement x
  | detach x => d.IsElement x
  | _ => True

/-- The nodes that get a source into their style. -/
def styled : Edit → List NodeId
  | background x _ => [x]
  | _ => []

end Edit

namespace Markup.Tree

theorem ownTokens_of_isElement {t : Tree} (h : t.isElement) : t.ownTokens = [] := by
  obtain ⟨id, kind, children⟩ := t
  cases kind with
  | element name attributes => rfl
  | _ => cases h

@[simp] theorem ownTokens_withChildren (children : List Tree) (t : Tree) :
    (t.withChildren children).ownTokens = t.ownTokens := by
  simp only [ownTokens, kind_withChildren]

@[simp] theorem ownTokens_mapAttributes (change : Attributes → Attributes) (t : Tree) :
    (t.mapAttributes change).ownTokens = t.ownTokens := by
  unfold mapAttributes
  split <;> rfl

@[simp] theorem ownTokens_splice (x : NodeId) (row : Tree → List Tree) (t : Tree) :
    (t.splice x row).ownTokens = t.ownTokens := by
  simp only [ownTokens, kind_splice]

@[simp] theorem ownTokens_ofText (id : NodeId) (content : String) :
    (ofText id content).ownTokens = tokens content.toList := rfl

theorem ownTokens_update {x : NodeId} {f : Tree → Tree} (hf : ∀ m, (f m).ownTokens = m.ownTokens)
    (t : Tree) : (t.update x f).ownTokens = t.ownTokens := by
  by_cases h : t.id = x
  · rw [update_of_eq h, hf]
  · rw [update_of_ne h]
    rfl

variable {allowed : Owner → String → Prop} {scope : NodeId → Prop} {styled : List NodeId}

theorem kind_of_element? {t : Tree} {name : ElementName} {attributes : Attributes}
    (h : t.element? = some (name, attributes)) : t.kind = .element name attributes := by
  unfold element? at h
  split at h
  case h_1 heq =>
    obtain ⟨rfl, rfl⟩ := Prod.mk.inj (Option.some.inj h)
    exact heq
  case h_2 => cases h

/-- The attributes of a sound node are sound. -/
theorem SoundNode.sound_of_attribute? {n : Tree} (h : n.SoundNode allowed scope styled)
    {name value : String} (hvalue : n.attribute? name = some value) :
    Liquid.Sound allowed value := by
  obtain ⟨⟨_, attributes⟩, helement, hget⟩ := Option.bind_eq_some_iff.1 hvalue
  obtain ⟨a, ha, rfl⟩ := Option.map_eq_some_iff.1 hget
  have hkind := h.kind
  rw [kind_of_element? helement] at hkind
  exact (hkind.2 a (List.mem_of_find?_eq_some ha)).2

/-- Text nodes are sound where their text is. -/
theorem soundNode_ofText {id : NodeId} {content : String} (hsettled : Settled content.toList)
    (hfits : ∀ t ∈ tokens content.toList, t.Fits allowed) :
    (ofText id content).SoundNode allowed scope styled where
  kind := ⟨hsettled, hfits⟩
  style := fun _ _ hstyle => nomatch hstyle
  row := .nil
  inside := List.forall_mem_nil _

end Markup.Tree

namespace Document

section

variable {d d' : Document} {allowed : Owner → String → Prop} {scope : NodeId → Prop}
  {styled : List NodeId} {x : NodeId}

theorem soundIn_of_trees (changed : Document) (more : List Tree)
    (htrees : d'.trees = changed.trees ++ more) (hchanged : changed.SoundIn allowed scope styled)
    (hmore : ∀ t ∈ more, ∀ n ∈ t.nodes, scope n.id → n.SoundNode allowed scope styled) :
    d'.SoundIn allowed scope styled := by
  intro n hn hscope
  obtain ⟨t, ht, hn⟩ := mem_nodes.1 hn
  rw [htrees, List.mem_append] at ht
  rcases ht with ht | ht
  · exact hchanged n (mem_nodes.2 ⟨t, ht, hn⟩) hscope
  · exact hmore t ht n hn hscope

/-- A change that keeps the id of a node and its own tokens keeps all other nodes sound. -/
theorem SoundIn.update (h : d.SoundIn allowed scope styled) {f : Tree → Tree}
    (hid : ∀ m, (f m).id = m.id) (htokens : ∀ m, (f m).ownTokens = m.ownTokens)
    (hf : ∀ m ∈ d.nodes, m.id = x → ∀ n ∈ (f m).nodes, scope n.id → n.SoundNode allowed scope styled) :
    (d.update x f).SoundIn allowed scope styled := by
  intro n hn hscope
  obtain ⟨t', ht', hn⟩ := mem_nodes.1 hn
  obtain ⟨t, ht, rfl⟩ : ∃ t ∈ d.trees, _ = t' := List.mem_map.1 ht'
  rcases Tree.mem_nodes_update hn with ⟨m, hm, hne, rfl⟩ | ⟨m, hm, heq, hn⟩
  · rw [Tree.update_of_ne hne] at hscope ⊢
    have hsound := h m (mem_nodes.2 ⟨t, ht, hm⟩) hscope
    constructor
    case kind => exact hsound.kind
    case style => exact hsound.style
    case row =>
      have hrow : (m.children.map (Tree.update x f)).flatMap Tree.ownTokens =
          m.children.flatMap Tree.ownTokens := by
        rw [List.flatMap_map]
        exact List.flatMap_congr fun c _ => Tree.ownTokens_update htokens c
      rw [Tree.children_node, hrow]
      exact hsound.row
    case inside =>
      intro c hc
      rw [Tree.children_node] at hc
      obtain ⟨child, hchild, rfl⟩ := List.mem_map.1 hc
      rw [Tree.id_update hid]
      exact hsound.inside child hchild
  · exact hf m (mem_nodes.2 ⟨t, ht, hm⟩) heq n hn hscope

/-- A row in the place of a node keeps all other nodes sound if it opens and closes as the node did. -/
theorem SoundIn.splice (h : d.SoundIn allowed scope styled) {row : Tree → List Tree}
    (hrow : ∀ m ∈ d.nodes, m.id = x →
      run ((row m).flatMap Tree.ownTokens) = run m.ownTokens ∧
        ∀ r ∈ row m, (scope m.id → scope r.id) ∧
          ∀ n ∈ r.nodes, scope n.id → n.SoundNode allowed scope styled) :
    (d.splice x row).SoundIn allowed scope styled := by
  intro n hn hscope
  obtain ⟨t', ht', hn⟩ := mem_nodes.1 hn
  obtain ⟨t, ht, rfl⟩ : ∃ t ∈ d.trees, _ = t' := List.mem_map.1 ht'
  rcases Tree.mem_nodes_splice hn with ⟨m, hm, rfl⟩ | ⟨m, hm, heq, r, hr, hn⟩
  · rw [Tree.id_splice] at hscope
    have hmem : m ∈ d.nodes := mem_nodes.2 ⟨t, ht, hm⟩
    have hsound := h m hmem hscope
    constructor
    case kind => exact (Tree.kind_splice x row m).symm ▸ hsound.kind
    case style =>
      simp only [Tree.id_splice, Tree.attribute?, Tree.element?, Tree.kind_splice]
      exact hsound.style
    case row =>
      have hsame : run ((m.children.flatMap (Tree.spliced x row)).flatMap Tree.ownTokens) =
          run (m.children.flatMap Tree.ownTokens) := by
        rw [List.flatMap_assoc]
        refine run_flatMap_congr fun c hc => ?_
        rw [Tree.spliced]
        split
        case isTrue heq => exact (hrow c (mem_nodes_of_mem_children hmem hc) heq).1
        case isFalse => rw [List.flatMap_singleton, Tree.ownTokens_splice]
      intro stack
      rw [Tree.children_splice, hsame]
      exact hsound.row stack
    case inside =>
      intro c hc
      rw [Tree.children_splice, List.mem_flatMap] at hc
      obtain ⟨child, hchild, hc⟩ := hc
      have hinside := hsound.inside child hchild
      rw [Tree.spliced] at hc
      split at hc
      case isTrue heq =>
        exact ((hrow child (mem_nodes_of_mem_children hmem hchild) heq).2 c hc).1 hinside
      case isFalse =>
        obtain rfl := List.mem_singleton.1 hc
        rwa [Tree.id_splice]
  · exact ((hrow m (mem_nodes.2 ⟨t, ht, hm⟩) heq).2 r hr).2 n hn hscope

theorem mem_set {attributes : Attributes} {new a : Attribute}
    (h : a ∈ attributes.set new) : a = new ∨ a ∈ attributes := by
  induction attributes with
  | nil => exact Or.inl (List.mem_singleton.1 h)
  | cons b rest ih =>
    unfold Attributes.set at h
    split at h
    · rcases List.mem_cons.1 h with rfl | h
      · exact Or.inl rfl
      · exact Or.inr (List.mem_cons_of_mem _ h)
    · split at h
      · rcases List.mem_cons.1 h with rfl | h
        · exact Or.inl rfl
        · exact Or.inr h
      · rcases List.mem_cons.1 h with rfl | h
        · exact Or.inr List.mem_cons_self
        · exact (ih h).imp_right (List.mem_cons_of_mem _)

theorem SoundIn.mapAttributes (h : d.SoundIn allowed scope styled) {change : Attributes → Attributes}
    (hstyle : x ∉ styled → ∀ a, ∀ style ∈ (change a).get? (.plain "style"),
      style ∈ a.get? (.plain "style"))
    (hchange : ∀ m ∈ d.nodes, m.id = x → ∀ name attributes, m.kind = .element name attributes →
      m.kind.Sound allowed → (NodeKind.element name (change attributes)).Sound allowed) :
    (d.update x (·.mapAttributes change)).SoundIn allowed scope styled := by
  refine h.update (Tree.id_mapAttributes change) (Tree.ownTokens_mapAttributes change)
    fun m hm heq n hn hscope => ?_
  rcases Tree.mem_nodes_iff.1 hn with rfl | ⟨c, hc, hn⟩
  · rw [Tree.id_mapAttributes] at hscope
    have hsound := h m hm hscope
    constructor
    case kind =>
      obtain ⟨id, kind, children⟩ := m
      cases kind with
      | element name attributes => exact hchange _ hm heq name attributes rfl hsound.kind
      | _ => exact hsound.kind
    case style =>
      intro hfree style hin
      rw [Tree.id_mapAttributes] at hfree
      refine hsound.style hfree style ?_
      rw [Tree.attribute?, Tree.element?_mapAttributes] at hin
      rw [Tree.attribute?]
      cases helement : m.element? with
      | none =>
        rw [helement] at hin
        cases hin
      | some element =>
        rw [helement] at hin
        exact hstyle (heq ▸ hfree) element.2 style hin
    case row =>
      rw [Tree.children_mapAttributes]
      exact hsound.row
    case inside =>
      rw [Tree.children_mapAttributes]
      exact hsound.inside
  · rw [Tree.children_mapAttributes] at hc
    exact h n (nodes_trans (mem_nodes_of_mem_children hm hc) hn) hscope

theorem SoundIn.setAttribute (h : d.SoundIn allowed scope styled) {name value : String}
    (hstyle : x ∉ styled → name ≠ "style") (hname : Braceless name.toList) (hvalue : Sound allowed value) :
    (d.setAttribute x name value).SoundIn allowed scope styled := by
  have hkept : x ∉ styled → ∀ a : Attributes,
      ∀ style ∈ (a.set ⟨.plain name, value⟩).get? (.plain "style"),
        style ∈ a.get? (.plain "style") := by
    intro hfree a style hin
    rwa [Attributes.get?_set_of_ne fun heq =>
      hstyle hfree (AttributeName.plain_injective heq)] at hin
  refine h.mapAttributes hkept fun m _ _ _ attributes heq hsound => ?_
  rw [heq] at hsound
  refine ⟨hsound.1, fun a ha => ?_⟩
  rcases mem_set ha with rfl | ha
  · exact ⟨hname, hvalue⟩
  · exact hsound.2 a ha

theorem SoundIn.removeAttribute (h : d.SoundIn allowed scope styled) (name : String) :
    (d.removeAttribute x name).SoundIn allowed scope styled := by
  have hkept : x ∉ styled → ∀ a : Attributes,
      ∀ style ∈ (a.remove (.plain name)).get? (.plain "style"),
        style ∈ a.get? (.plain "style") := by
    intro _ a style hin
    by_cases heq : AttributeName.plain name = .plain "style"
    · have hnone : (a.remove (.plain name)).get? (.plain "style") = none := by
        rw [heq]
        simp [Attributes.get?, Attributes.remove]
      rw [hnone] at hin
      cases hin
    · rwa [Attributes.get?_remove_of_ne heq] at hin
  refine h.mapAttributes hkept fun m _ _ _ attributes heq hsound => ?_
  rw [heq] at hsound
  exact ⟨hsound.1, fun a ha => hsound.2 a (List.mem_of_mem_filter ha)⟩

theorem SoundIn.clear (h : d.SoundIn allowed scope styled) (x : NodeId) :
    (d.clear x).SoundIn allowed scope styled := by
  cases hp : d.place? x with
  | none =>
    have hsame : d.clear x = d := by rw [Document.clear, hp]
    rwa [hsame]
  | some p =>
    have hpn : p.tree ∈ d.nodes := tree_mem_nodes (mem_places_of_place? hp)
    refine soundIn_of_trees _ _ (clear_of_place? hp).1 ?_ fun t ht n hn =>
      h n (nodes_trans (mem_nodes_of_mem_children hpn ht) hn)
    refine h.update (Tree.id_withChildren []) (Tree.ownTokens_withChildren [])
      fun m hm _ n hn hscope => ?_
    rcases Tree.mem_nodes_iff.1 hn with rfl | ⟨c, hc, -⟩
    · rw [Tree.id_withChildren] at hscope
      constructor
      case kind => exact (Tree.kind_withChildren [] m).symm ▸ (h m hm hscope).kind
      case style =>
        rw [Tree.id_withChildren, Tree.attribute?_withChildren]
        exact (h m hm hscope).style
      case row =>
        rw [Tree.children_withChildren]
        exact .nil
      case inside =>
        rw [Tree.children_withChildren]
        exact List.forall_mem_nil _
    · rw [Tree.children_withChildren] at hc
      cases hc

theorem SoundIn.append (h : d.SoundIn allowed scope styled) {tree : Tree}
    (hneutral : Neutral tree.ownTokens) (hid : scope tree.id)
    (htree : ∀ n ∈ tree.nodes, scope n.id → n.SoundNode allowed scope styled) :
    (d.append x tree).SoundIn allowed scope styled := by
  refine h.update (fun m => Tree.id_withChildren _ m) (fun m => Tree.ownTokens_withChildren _ m)
    fun m hm _ n hn hscope => ?_
  rcases Tree.mem_nodes_iff.1 hn with rfl | ⟨c, hc, hn⟩
  · rw [Tree.id_withChildren] at hscope
    have hsound := h m hm hscope
    constructor
    case kind => exact (Tree.kind_withChildren _ m).symm ▸ hsound.kind
    case style =>
      rw [Tree.id_withChildren, Tree.attribute?_withChildren]
      exact hsound.style
    case row =>
      rw [Tree.children_withChildren, List.flatMap_append, List.flatMap_singleton]
      exact hsound.row.append hneutral
    case inside =>
      rw [Tree.children_withChildren]
      exact List.forall_mem_append.2 ⟨hsound.inside, List.forall_mem_singleton.2 hid⟩
  · rw [Tree.children_withChildren, List.mem_append, List.mem_singleton] at hc
    rcases hc with hc | heq
    · exact h n (nodes_trans (mem_nodes_of_mem_children hm hc) hn) hscope
    · rw [heq] at hn
      exact htree n hn hscope

theorem SoundIn.appendText (h : d.SoundIn allowed scope styled) (hnew : ∀ i, d.next ≤ i → scope i)
    {content : String} (hcontent : Sound allowed content) :
    (d.appendText x content).SoundIn allowed scope styled := by
  refine h.append hcontent.neutral (hnew _ (Nat.le_refl _)) fun n hn _ => ?_
  obtain rfl := List.mem_singleton.1 hn
  exact Tree.soundNode_ofText hcontent.settled hcontent.fits

theorem SoundIn.setText (h : d.SoundIn allowed scope styled) (hnew : ∀ i, d.next ≤ i → scope i)
    {content : String} (hcontent : Sound allowed content) :
    (d.setText x content).SoundIn allowed scope styled := by
  have hnext : d.next ≤ (d.clear x).next := by
    unfold Document.clear
    split <;> exact Nat.le_refl _
  exact (h.clear x).appendText (fun i hi => hnew i (Nat.le_trans hnext hi)) hcontent

theorem SoundIn.wrap (h : d.SoundIn allowed scope styled) (hnew : ∀ i, d.next ≤ i → scope i)
    {before after : String} (htexts : SoundAround allowed before after) (hx : d.IsElement x) :
    (d.wrap x before after).SoundIn allowed scope styled := by
  refine h.splice fun m hm heq => ⟨?_, ?_⟩
  · have hown := Tree.ownTokens_of_isElement (hx m hm heq)
    funext stack
    simp only [List.flatMap_cons, List.flatMap_nil, Tree.ownTokens_ofText, hown, List.append_nil,
      List.nil_append]
    exact htexts.neutral stack
  · simp only [List.forall_mem_cons]
    refine ⟨⟨fun _ => hnew _ (Nat.le_refl _), fun n hn _ => ?_⟩,
      ⟨id, fun n hn => h n (nodes_trans hm hn)⟩,
      ⟨fun _ => hnew _ (Nat.le_succ _), fun n hn _ => ?_⟩, List.forall_mem_nil _⟩
    · obtain rfl := List.mem_singleton.1 hn
      exact Tree.soundNode_ofText htexts.settledBefore htexts.fitsBefore
    · obtain rfl := List.mem_singleton.1 hn
      exact Tree.soundNode_ofText htexts.settledAfter htexts.fitsAfter

theorem SoundIn.detach (h : d.SoundIn allowed scope styled) (hx : d.IsElement x) :
    (d.detach x).SoundIn allowed scope styled := by
  unfold Document.detach
  split
  case h_1 tree level rest hp =>
    have hmem : tree ∈ d.nodes := tree_mem_nodes (mem_places_of_place? hp)
    refine soundIn_of_trees (d.splice x fun _ => []) [tree] rfl ?_ ?_
    · refine h.splice fun m hm heq => ⟨?_, List.forall_mem_nil _⟩
      rw [Tree.ownTokens_of_isElement (hx m hm heq)]
      rfl
    · intro t ht n hn
      obtain rfl := List.mem_singleton.1 ht
      exact h n (nodes_trans hmem hn)
  case h_2 => exact h

theorem SoundIn.retag? (h : d.SoundIn allowed scope styled) (hd : d.Distinct)
    (hnew : ∀ i, d.next ≤ i → scope i) (hx : scope x) (hfree : x ∉ styled) {made : Tree}
    (hretag : d.retag? x "div" = some (made, d')) : d'.SoundIn allowed scope styled := by
  obtain ⟨p, name, attributes, hp, helement, rfl, -, hroot, hbelow⟩ := retag?_div hretag
  have hmem : p.tree ∈ d.nodes := tree_mem_nodes (mem_places_of_place? hp)
  have hid : p.tree.id = x := id_of_place? hp
  have hkind := Tree.kind_of_element? helement
  have hmade : (d.newDiv attributes).SoundNode allowed scope styled := by
    have hsound := h p.tree hmem (hid ▸ hx)
    have hsoundKind := hsound.kind
    rw [hkind] at hsoundKind
    have hstyle := hsound.style (hid ▸ hfree)
    rw [Tree.attribute?, helement] at hstyle
    exact ⟨⟨by decide, hsoundKind.2⟩, fun _ => hstyle, .nil, List.forall_mem_nil _⟩
  have hmadeNodes : ∀ n ∈ (d.newDiv attributes).nodes, scope n.id → n.SoundNode allowed scope styled := by
    intro n hn _
    obtain rfl := List.mem_singleton.1 hn
    exact hmade
  by_cases habove : p.above = []
  · refine soundIn_of_trees _ _ (hroot habove) h fun t ht => ?_
    obtain rfl := List.mem_singleton.1 ht
    exact hmadeNodes
  · refine soundIn_of_trees _ _ (hbelow habove) (h.splice fun m hm heq => ⟨?_, ?_⟩) fun t ht n hn => ?_
    · obtain rfl := hd.eq_of_id_eq hm hmem (heq.trans hid.symm)
      rw [List.flatMap_singleton, Tree.ownTokens, Tree.ownTokens, hkind]
      rfl
    · refine List.forall_mem_singleton.2 ⟨fun _ => hnew _ (Nat.le_refl _), hmadeNodes⟩
    · obtain rfl := List.mem_singleton.1 ht
      exact h n (nodes_trans hmem hn)

theorem SoundIn.renew (h : d.SoundIn allowed scope styled) (hd : d.Distinct)
    (hnew : ∀ i, d.next ≤ i → scope i) (hx : scope x) (hfree : x ∉ styled) {content : String}
    (hcontent : Sound allowed content) :
    (d.apply (.renew x content)).SoundIn allowed scope styled := by
  rw [Document.apply]
  split
  case h_1 => exact h
  case h_2 made d' hretag =>
    have hnext := (evolves_retag? hd hretag).next_le
    exact (h.retag? hd hnew hx hfree hretag).appendText
      (fun i hi => hnew i (Nat.le_trans hnext hi)) hcontent

theorem SoundIn.weaken (h : d.SoundIn allowed scope styled) {more : List NodeId}
    (hsub : styled ⊆ more) : d.SoundIn allowed scope more := fun n hn hscope =>
  { h n hn hscope with style := fun hfree => (h n hn hscope).style fun hin => hfree (hsub hin) }

/-- Another source in a style that has no template syntax yet. -/
theorem SoundIn.background (h : d.SoundIn allowed scope styled) (hx : scope x) (hfree : x ∉ styled)
    {source : String} (hsource : Sound allowed source) :
    (d.apply (.background x source)).SoundIn allowed scope (x :: styled) := by
  have hmore : d.SoundIn allowed scope (x :: styled) := h.weaken (List.subset_cons_self _ _)
  rw [Document.apply]
  split
  case h_1 => exact hmore
  case h_2 style hstyle =>
    obtain ⟨p, hp, hvalue⟩ := Option.bind_eq_some_iff.1 hstyle
    have hid : p.tree.id = x := id_of_place? hp
    have hplain := (h p.tree (tree_mem_nodes (mem_places_of_place? hp)) (hid ▸ hx)).style
      (hid ▸ hfree) style hvalue
    exact hmore.setAttribute (fun hnot => absurd List.mem_cons_self hnot) (by decide)
      (Style.sound_replaceBackgroundUrl hplain hsource)

end

end Document

/-- A renumbered tree has the kinds of the old one, node by node, under new ids. -/
structure Markup.Tree.Renumbered (next : NodeId) (n n' : Tree) : Prop where
  kind : n'.kind = n.kind
  children : n'.children.map Tree.kind = n.children.map Tree.kind
  id : next ≤ n'.id

namespace Document

mutual

theorem renumbered_of_mem : ∀ (next : NodeId) (t : Tree) {n' : Tree},
    n' ∈ (t.renumber next).1.nodes → ∃ n ∈ t.nodes, n.Renumbered next n'
  | next, .node id kind children, n', h => by
    rw [Tree.renumber] at h
    have hkinds := map_kind_renumberAll (next + 1) children
    have hbelow := @renumbered_of_mem_renumberAll (next + 1) children
    generalize Tree.renumberAll (next + 1) children = renumbered at h hkinds hbelow
    obtain ⟨children', after⟩ := renumbered
    dsimp only at h hkinds hbelow
    rcases Tree.mem_nodes_iff.1 h with rfl | ⟨c, hc, hn⟩
    · exact ⟨_, Tree.self_mem_nodes _, rfl, hkinds, Nat.le_refl _⟩
    · obtain ⟨t, ht, n, hn, hrenumbered⟩ := hbelow hc hn
      refine ⟨n, Tree.mem_nodes_iff.2 (Or.inr ⟨t, ht, hn⟩), hrenumbered.kind,
        hrenumbered.children, Nat.le_of_succ_le hrenumbered.id⟩

theorem renumbered_of_mem_renumberAll : ∀ (next : NodeId) (ts : List Tree) {t' n' : Tree},
    t' ∈ (Tree.renumberAll next ts).1 → n' ∈ t'.nodes →
      ∃ t ∈ ts, ∃ n ∈ t.nodes, n.Renumbered next n'
  | next, [], _, _, h, _ => by simp [Tree.renumberAll] at h
  | next, t :: rest, t', n', h, hn' => by
    have hhead := @renumbered_of_mem next t
    have hlt := (ids_renumber next t).1
    rw [Tree.renumberAll] at h
    generalize t.renumber next = renumbered at h hhead hlt
    obtain ⟨first, middle⟩ := renumbered
    have htail := @renumbered_of_mem_renumberAll middle rest
    dsimp only at h hhead hlt
    rcases List.mem_cons.1 h with rfl | h
    · obtain ⟨n, hn, hrenumbered⟩ := hhead hn'
      exact ⟨t, List.mem_cons_self, n, hn, hrenumbered⟩
    · obtain ⟨t, ht, n, hn, hrenumbered⟩ := htail h hn'
      exact ⟨t, List.mem_cons_of_mem _ ht, n, hn, hrenumbered.kind, hrenumbered.children,
        Nat.le_trans (Nat.le_of_lt hlt) hrenumbered.id⟩

theorem map_kind_renumberAll : ∀ (next : NodeId) (ts : List Tree),
    (Tree.renumberAll next ts).1.map Tree.kind = ts.map Tree.kind
  | _, [] => rfl
  | next, .node id kind children :: rest => by
    rw [Tree.renumberAll, Tree.renumber]
    dsimp only
    rw [List.map_cons, map_kind_renumberAll _ rest]
    rfl

end

section

variable {d : Document} {allowed : Owner → String → Prop} {scope : NodeId → Prop}
  {styled : List NodeId} {x : NodeId}

theorem soundNode_of_renumbered {next : NodeId} {n n' : Tree}
    (h : n.SoundNode allowed (fun _ => True) []) (hrenumbered : n.Renumbered next n')
    (hinside : ∀ c ∈ n'.children, scope c.id) : n'.SoundNode allowed scope styled where
  kind := hrenumbered.kind ▸ h.kind
  style := by
    intro _
    rw [Tree.attribute?, Tree.element?, hrenumbered.kind]
    exact h.style List.not_mem_nil
  row := by
    have hown : n'.children.flatMap Tree.ownTokens = n.children.flatMap Tree.ownTokens := by
      have hkinds : ∀ ts : List Tree, ts.flatMap Tree.ownTokens =
          (ts.map Tree.kind).flatMap fun kind => (.node 0 kind [] : Tree).ownTokens := fun ts => by
        rw [List.flatMap_map]
        rfl
      rw [hkinds, hkinds, hrenumbered.children]
    rw [hown]
    exact h.row
  inside := hinside

theorem SoundIn.append_adopt (h : d.SoundIn allowed scope styled)
    (hnew : ∀ i, d.next ≤ i → scope i) {tree : Tree} (helement : tree.isElement)
    (htree : ∀ n ∈ tree.nodes, n.SoundNode allowed (fun _ => True) []) :
    (d.apply (.append x tree)).SoundIn allowed scope styled := by
  have hnodes : ∀ n' ∈ (d.adopt tree).1.nodes, scope n'.id := by
    intro n' hn'
    obtain ⟨n, -, hrenumbered⟩ := renumbered_of_mem d.next tree hn'
    exact hnew _ hrenumbered.id
  have hkind : (d.adopt tree).1.kind = tree.kind := by
    obtain ⟨id, kind, children⟩ := tree
    rfl
  have hown : Neutral (d.adopt tree).1.ownTokens := by
    have hsame : (d.adopt tree).1.ownTokens = tree.ownTokens := by
      rw [Tree.ownTokens, hkind, Tree.ownTokens]
    rw [hsame, Tree.ownTokens_of_isElement helement]
    exact .nil
  refine SoundIn.append (d := (d.adopt tree).2) h hown
    (hnodes _ (Tree.self_mem_nodes _)) fun n' hn' _ => ?_
  obtain ⟨n, hn, hrenumbered⟩ := renumbered_of_mem d.next tree hn'
  refine soundNode_of_renumbered (htree n hn) hrenumbered fun c hc => ?_
  exact hnodes c (Tree.nodes_trans hn' (Tree.mem_nodes_of_mem_children hc))

/-- Every edit that fits and suits keeps a document sound. -/
theorem SoundIn.apply (h : d.SoundIn allowed scope styled) (hd : d.Distinct)
    (hnew : ∀ i, d.next ≤ i → scope i) {e : Edit} (hfits : e.Fits allowed)
    (hsuits : e.Suits scope styled d) :
    (d.apply e).SoundIn allowed scope (e.styled ++ styled) := by
  cases e with
  | setAttribute id name value =>
    obtain ⟨hstyle, hname, hvalue⟩ := hfits
    exact h.setAttribute (fun _ => hstyle) hname hvalue
  | removeAttribute id name => exact h.removeAttribute name
  | background id source => exact h.background hsuits.1 hsuits.2 hfits
  | setText id content => exact h.setText hnew hfits
  | renew id content => exact h.renew hd hnew hsuits.1 hsuits.2 hfits
  | wrap id before after => exact h.wrap hnew hfits hsuits
  | detach id => exact h.detach hsuits
  | append id tree => exact h.append_adopt hnew hfits.1 hfits.2

end

end Document

end ThemeSection
