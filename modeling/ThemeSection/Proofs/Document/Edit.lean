import ThemeSection.Block.Collapse
import ThemeSection.Proofs.Document.Basic

/-!
Edits: what the passes over a document do to it, one by one. An edit is data, so that a statement can
speak of all edits and of the texts that they write. Of every node of the changed document it is
known what node it was before, if it is not a new one: it has kept its name, the attributes that the
edit is not about, and has no old nodes below it that were not there already.
-/

namespace ThemeSection

open Markup

inductive Edit
  | setAttribute (id : NodeId) (name value : String)
  | removeAttribute (id : NodeId) (name : String)
  /-- Another source for the background image in the style of an element. -/
  | background (id : NodeId) (source : String)
  | setText (id : NodeId) (content : String)
  /-- A `div` with the same attributes and a text, in the place of an element. -/
  | renew (id : NodeId) (content : String)
  | wrap (id : NodeId) (before after : String)
  | detach (id : NodeId)
  /-- A new tree behind the last child of a node. -/
  | append (id : NodeId) (tree : Tree)

namespace Edit

/-- The attributes that an edit changes, each with the id of its element. -/
def touched : Edit → List (NodeId × String)
  | setAttribute id name _ => [(id, name)]
  | removeAttribute id name => [(id, name)]
  | background id _ => [(id, "style")]
  | _ => []

end Edit

namespace Document

def apply (d : Document) : Edit → Document
  | .setAttribute id name value => d.setAttribute id name value
  | .removeAttribute id name => d.removeAttribute id name
  | .background id source =>
    match (d.place? id).bind (·.tree.attribute? "style") with
    | none => d
    | some style => d.setAttribute id "style" (Style.replaceBackgroundUrl style source)
  | .setText id content => d.setText id content
  | .renew id content =>
    match d.retag? id "div" with
    | none => d
    | some (made, d) => d.appendText made.id content
  | .wrap id before after => d.wrap id before after
  | .detach id => d.detach id
  | .append id tree => (d.adopt tree).2.append id (d.adopt tree).1

end Document

namespace Markup.Tree

/-- What a node has become while ids from `next` on were given out and only the touched attributes
were changed. -/
structure Becomes (next : NodeId) (touched : List (NodeId × String)) (n n' : Tree) : Prop where
  id : n'.id = n.id
  name : n'.element?.map Prod.fst = n.element?.map Prod.fst
  value : ∀ name, (n.id, name) ∉ touched → n'.attribute? name = n.attribute? name
  below : ∀ i ∈ n'.ids, i < next → i ∈ n.ids

variable {next : NodeId} {touched : List (NodeId × String)} {n n' n'' : Tree}

theorem Becomes.refl (n : Tree) : n.Becomes next touched n where
  id := rfl
  name := rfl
  value := fun _ _ => rfl
  below := fun _ h _ => h

theorem Becomes.trans {next' : NodeId} {touched' : List (NodeId × String)}
    (h : n.Becomes next touched n') (h' : n'.Becomes next' touched' n'') (hnext : next ≤ next') :
    n.Becomes next (touched ++ touched') n'' where
  id := h'.id.trans h.id
  name := h'.name.trans h.name
  value := by
    intro name hname
    rw [List.mem_append, not_or] at hname
    rw [h'.value name (h.id ▸ hname.2), h.value name hname.1]
  below := fun i hi hlt => h.below i (h'.below i hi (Nat.lt_of_lt_of_le hlt hnext)) hlt

theorem Becomes.mono {touched' : List (NodeId × String)} (h : n.Becomes next touched n')
    (hsub : touched ⊆ touched') : n.Becomes next touched' n' :=
  { h with value := fun name hname => h.value name fun hin => hname (hsub hin) }

/-- An element stays one. -/
theorem Becomes.isElement (h : n.Becomes next touched n') : n'.isElement = n.isElement := by
  have hname := congrArg Option.isSome h.name
  rwa [Option.isSome_map, Option.isSome_map] at hname

theorem Becomes.tag? (h : n.Becomes next touched n') : n'.tag? = n.tag? := by
  have hname := congrArg (Option.map fun name : ElementName => Text.lower name.name) h.name
  rwa [Option.map_map, Option.map_map] at hname

end Markup.Tree

namespace Document

/-- A node that has come from a document: it was there, or it is new and holds new nodes only. -/
structure Source (d : Document) (touched : List (NodeId × String)) (n : Tree) : Prop where
  old : n.id < d.next → ∃ m ∈ d.nodes, m.Becomes d.next touched n
  new : d.next ≤ n.id → ∀ i ∈ n.ids, d.next ≤ i

/-- What a document has come to. -/
structure Evolves (d : Document) (touched : List (NodeId × String)) (d' : Document) : Prop where
  distinct : d'.Distinct
  next_le : d.next ≤ d'.next
  ids : d.ids ⊆ d'.ids
  source : ∀ n ∈ d'.nodes, d.Source touched n

variable {d d' d'' : Document} {touched touched' : List (NodeId × String)}

theorem Distinct.source (h : d.Distinct) {n : Tree} (hn : n ∈ d.nodes) : d.Source touched n where
  old := fun _ => ⟨n, hn, .refl n⟩
  new := fun hge => absurd (h.fresh _ (id_mem_ids hn)) (Nat.not_lt.2 hge)

theorem Evolves.refl (h : d.Distinct) : d.Evolves touched d where
  distinct := h
  next_le := Nat.le_refl _
  ids := List.Subset.refl _
  source := fun _ hn => h.source hn

theorem Evolves.trans (h : d.Evolves touched d') (h' : d'.Evolves touched' d'') :
    d.Evolves (touched ++ touched') d'' where
  distinct := h'.distinct
  next_le := Nat.le_trans h.next_le h'.next_le
  ids := List.Subset.trans h.ids h'.ids
  source := by
    intro n'' hn''
    have hsource := h'.source n'' hn''
    by_cases hold : n''.id < d'.next
    · obtain ⟨n', hn', hbecomes⟩ := hsource.old hold
      have hid := hbecomes.id
      constructor
      case old =>
        intro hlt
        obtain ⟨n, hn, hbecomes'⟩ := (h.source n' hn').old (hid ▸ hlt)
        exact ⟨n, hn, hbecomes'.trans hbecomes h.next_le⟩
      case new =>
        intro hge i hi
        by_cases hlt : i < d'.next
        · exact (h.source n' hn').new (hid ▸ hge) i (hbecomes.below i hi hlt)
        · exact Nat.le_trans h.next_le (Nat.not_lt.1 hlt)
    · constructor
      case old => exact fun hlt => absurd (Nat.lt_of_lt_of_le hlt h.next_le) hold
      case new =>
        intro _ i hi
        exact Nat.le_trans h.next_le (hsource.new (Nat.not_lt.1 hold) i hi)

theorem Evolves.mono (h : d.Evolves touched d') (hsub : touched ⊆ touched') :
    d.Evolves touched' d' :=
  { h with
    source := fun n hn =>
      { old := fun hlt =>
          let ⟨m, hm, hbecomes⟩ := (h.source n hn).old hlt
          ⟨m, hm, hbecomes.mono hsub⟩
        new := (h.source n hn).new } }

section

variable {x : NodeId} {p : Place}

/-- A document that has the old ids and fresh ones tells its nodes apart. -/
theorem Distinct.of_perm (h : d.Distinct) (new : List NodeId) (hnext : d.next ≤ d'.next)
    (hperm : d'.ids.Perm (d.ids ++ new)) (hnodup : new.Nodup)
    (hnew : ∀ i ∈ new, d.next ≤ i ∧ i < d'.next) : d'.Distinct where
  nodup := by
    rw [hperm.nodup_iff]
    refine List.nodup_append.2 ⟨h.nodup, hnodup, ?_⟩
    rintro i hi j hj rfl
    exact Nat.not_lt.2 (hnew i hj).1 (h.fresh i hi)
  fresh := by
    intro i hi
    rcases List.mem_append.1 (hperm.mem_iff.1 hi) with hi | hi
    · exact Nat.lt_of_lt_of_le (h.fresh i hi) hnext
    · exact (hnew i hi).2

/-- What has become of a node that is changed in its place: itself, nodes that it had, new nodes. -/
structure Reshapes (d : Document) (touched : List (NodeId × String)) (m m' : Tree) : Prop where
  id : m'.id = m.id
  name : m'.element?.map Prod.fst = m.element?.map Prod.fst
  value : ∀ name, (m.id, name) ∉ touched → m'.attribute? name = m.attribute? name
  nodes : ∀ n ∈ m'.nodes, n = m' ∨ n ∈ m.nodes ∨ ∀ i ∈ n.ids, d.next ≤ i

theorem Reshapes.becomes {m m' : Tree} (h : d.Reshapes touched m m') :
    m.Becomes d.next touched m' where
  id := h.id
  name := h.name
  value := h.value
  below := by
    intro i hi hlt
    obtain ⟨n, hn, rfl⟩ := List.mem_map.1 hi
    rcases h.nodes n hn with rfl | hold | hnew
    · rw [h.id]
      exact m.id_mem_ids
    · exact Tree.id_mem_ids_of_mem_nodes hold
    · exact absurd hlt (Nat.not_lt.2 (hnew n.id n.id_mem_ids))

/-- Every node of a document with one node changed comes from the document. -/
theorem Distinct.source_update (h : d.Distinct) {f : Tree → Tree}
    (hf : ∀ m ∈ d.nodes, m.id = x → d.Reshapes touched m (f m)) :
    ∀ n ∈ (d.update x f).nodes, d.Source touched n := by
  intro n hn
  obtain ⟨t', ht', hn⟩ := mem_nodes.1 hn
  obtain ⟨t, ht, rfl⟩ : ∃ t ∈ d.trees, _ = t' := List.mem_map.1 ht'
  have hmem : ∀ {m : Tree}, m ∈ t.nodes → m ∈ d.nodes := fun hm => mem_nodes.2 ⟨t, ht, hm⟩
  rcases Tree.mem_nodes_update hn with ⟨m, hm, hne, rfl⟩ | ⟨m, hm, hid, hn⟩
  · have hupdate := Tree.update_of_ne (f := f) hne
    have hbecomes : m.Becomes d.next touched (m.update x f) := by
      constructor
      case id => rw [hupdate, Tree.id_node]
      case name => rw [hupdate]; rfl
      case value => intro _ _; rw [hupdate]; rfl
      case below =>
        intro i hi hlt
        obtain ⟨n, hn, rfl⟩ := List.mem_map.1 hi
        rcases Tree.mem_nodes_update hn with ⟨k, hk, hne, rfl⟩ | ⟨k, hk, hid, hn⟩
        · rw [Tree.update_of_ne hne, Tree.id_node]
          exact Tree.id_mem_ids_of_mem_nodes hk
        · have hbelow := (hf k (hmem (Tree.nodes_trans hm hk)) hid).becomes.below
          exact Tree.ids_subset_of_mem_nodes hk
            (hbelow _ (Tree.id_mem_ids_of_mem_nodes hn) hlt)
    constructor
    case old => exact fun _ => ⟨m, hmem hm, hbecomes⟩
    case new =>
      intro hge
      rw [hbecomes.id] at hge
      exact absurd (h.fresh _ (id_mem_ids (hmem hm))) (Nat.not_lt.2 hge)
  · have hreshapes := hf m (hmem hm) hid
    rcases hreshapes.nodes n hn with rfl | hold | hnew
    · constructor
      case old => exact fun _ => ⟨m, hmem hm, hreshapes.becomes⟩
      case new =>
        intro hge
        rw [hreshapes.id] at hge
        exact absurd (h.fresh _ (id_mem_ids (hmem hm))) (Nat.not_lt.2 hge)
    · exact h.source (hmem (Tree.nodes_trans hm hold))
    · constructor
      case old => exact fun hlt => absurd hlt (Nat.not_lt.2 (hnew n.id n.id_mem_ids))
      case new => exact fun _ => hnew

/-- Every node of a document with a row put in the place of a node comes from the document, if the
row has only that node and new nodes in it. -/
theorem Distinct.source_splice (h : d.Distinct) {row : Tree → List Tree}
    (hrow : ∀ m ∈ d.nodes, m.id = x → ∀ r ∈ row m, r = m ∨ ∀ i ∈ r.ids, d.next ≤ i) :
    ∀ n ∈ (d.splice x row).nodes, d.Source touched n := by
  intro n hn
  obtain ⟨t', ht', hn⟩ := mem_nodes.1 hn
  obtain ⟨t, ht, rfl⟩ : ∃ t ∈ d.trees, _ = t' := List.mem_map.1 ht'
  have hmem : ∀ {m : Tree}, m ∈ t.nodes → m ∈ d.nodes := fun hm => mem_nodes.2 ⟨t, ht, hm⟩
  rcases Tree.mem_nodes_splice hn with ⟨m, hm, rfl⟩ | ⟨m, hm, hid, r, hr, hn⟩
  · have hbecomes : m.Becomes d.next touched (m.splice x row) := by
      constructor
      case id => rw [Tree.id_splice]
      case name => simp only [Tree.element?, Tree.kind_splice]
      case value => intro _ _; simp only [Tree.attribute?, Tree.element?, Tree.kind_splice]
      case below =>
        intro i hi hlt
        obtain ⟨n, hn, rfl⟩ := List.mem_map.1 hi
        rcases Tree.mem_nodes_splice hn with ⟨k, hk, rfl⟩ | ⟨k, hk, hid, r, hr, hn⟩
        · rw [Tree.id_splice]
          exact Tree.id_mem_ids_of_mem_nodes hk
        · rcases hrow k (hmem (Tree.nodes_trans hm hk)) hid r hr with rfl | hnew
          · exact Tree.id_mem_ids_of_mem_nodes (Tree.nodes_trans hk hn)
          · exact absurd hlt (Nat.not_lt.2 (hnew _ (Tree.id_mem_ids_of_mem_nodes hn)))
    constructor
    case old => exact fun _ => ⟨m, hmem hm, hbecomes⟩
    case new =>
      intro hge
      rw [hbecomes.id] at hge
      exact absurd (h.fresh _ (id_mem_ids (hmem hm))) (Nat.not_lt.2 hge)
  · rcases hrow m (hmem hm) hid r hr with rfl | hnew
    · exact h.source (hmem (Tree.nodes_trans hm hn))
    · have hge : ∀ i ∈ n.ids, d.next ≤ i := fun i hi =>
        hnew i (Tree.ids_subset_of_mem_nodes hn hi)
      constructor
      case old => exact fun hlt => absurd hlt (Nat.not_lt.2 (hge n.id n.id_mem_ids))
      case new => exact fun _ => hge

end

end Document

namespace Markup.Attributes

theorem get?_set_of_ne {attributes : Attributes} {new : Attribute} {name : AttributeName}
    (h : new.name ≠ name) : (attributes.set new).get? name = attributes.get? name := by
  induction attributes with
  | nil => simp [set, get?, h]
  | cons a rest ih =>
    unfold set
    split
    case isTrue heq => simp [get?, h, heq]
    case isFalse =>
      split
      · simp [get?, h]
      · simp only [get?, List.find?_cons] at ih ⊢
        split
        · rfl
        · exact ih

theorem get?_set_self (attributes : Attributes) (new : Attribute) :
    (attributes.set new).get? new.name = some new.value := by
  induction attributes with
  | nil => simp [set, get?]
  | cons a rest ih =>
    unfold set
    split
    case isTrue => simp [get?]
    case isFalse hne =>
      split
      · simp [get?]
      · simp only [get?, List.find?_cons] at ih ⊢
        rw [show (a.name == new.name) = false by simpa using hne]
        exact ih

theorem get?_remove_of_ne {attributes : Attributes} {removed name : AttributeName}
    (h : removed ≠ name) : (attributes.remove removed).get? name = attributes.get? name := by
  induction attributes with
  | nil => rfl
  | cons a rest ih =>
    simp only [get?, remove, List.filter_cons] at ih ⊢
    split
    case isTrue => simp only [List.find?_cons]; split <;> simp_all
    case isFalse hne =>
      have heq : a.name = removed := by simpa using hne
      rw [ih, List.find?_cons, show (a.name == name) = false by simp [heq, h]]

end Markup.Attributes

namespace Markup.Tree

theorem element?_mapAttributes (change : Attributes → Attributes) (t : Tree) :
    (t.mapAttributes change).element? = t.element?.map fun (name, a) => (name, change a) := by
  unfold mapAttributes
  split
  · rfl
  case h_2 hother =>
    obtain ⟨id, kind, children⟩ := t
    cases kind with
    | element name attributes => exact absurd rfl (hother id name attributes children)
    | _ => rfl

theorem name_mapAttributes (change : Attributes → Attributes) (t : Tree) :
    (t.mapAttributes change).element?.map Prod.fst = t.element?.map Prod.fst := by
  rw [element?_mapAttributes, Option.map_map]
  rfl

theorem attribute?_mapAttributes {change : Attributes → Attributes} {name : String}
    (h : ∀ a, (change a).get? (.plain name) = a.get? (.plain name)) (t : Tree) :
    (t.mapAttributes change).attribute? name = t.attribute? name := by
  unfold attribute?
  rw [element?_mapAttributes]
  cases t.element? with
  | none => rfl
  | some element => exact h element.2

theorem isElement_mapAttributes (change : Attributes → Attributes) (t : Tree) :
    (t.mapAttributes change).isElement = t.isElement := by
  rw [isElement, isElement, element?_mapAttributes, Option.isSome_map]

theorem attribute?_set_self {t : Tree} (h : t.isElement) (name value : String) :
    (t.mapAttributes (·.set ⟨.plain name, value⟩)).attribute? name = some value := by
  obtain ⟨element, helement⟩ := Option.isSome_iff_exists.1 h
  unfold attribute?
  rw [element?_mapAttributes, helement]
  exact Attributes.get?_set_self element.2 ⟨.plain name, value⟩

@[simp] theorem element?_withChildren (children : List Tree) (t : Tree) :
    (t.withChildren children).element? = t.element? := by
  unfold element?
  rw [kind_withChildren]

@[simp] theorem attribute?_withChildren (children : List Tree) (t : Tree) (name : String) :
    (t.withChildren children).attribute? name = t.attribute? name := by
  unfold attribute?
  rw [element?_withChildren]

end Markup.Tree

theorem Markup.AttributeName.plain_injective : Function.Injective AttributeName.plain :=
  fun _ _ h => congrArg AttributeName.name h

namespace Document

section

variable {d d' : Document} {x : NodeId} {p : Place} {touched : List (NodeId × String)}

/-- Every node of the document has become one. -/
theorem Evolves.exists_becomes (h : d.Evolves touched d') (hd : d.Distinct) {n : Tree}
    (hn : n ∈ d.nodes) : ∃ n' ∈ d'.nodes, n.Becomes d.next touched n' := by
  obtain ⟨n', hn', hid⟩ := mem_ids.1 (h.ids (id_mem_ids hn))
  obtain ⟨m, hm, hbecomes⟩ := (h.source n' hn').old (hid ▸ hd.fresh _ (id_mem_ids hn))
  obtain rfl := hd.eq_of_id_eq hm hn (hbecomes.id.symm.trans hid)
  exact ⟨n', hn', hbecomes⟩

theorem Evolves.isElement_eq (h : d.Evolves touched d') (hd : d.Distinct) {n n' : Tree}
    (hn : n ∈ d.nodes) (hn' : n' ∈ d'.nodes) (hid : n'.id = n.id) : n'.isElement = n.isElement := by
  obtain ⟨m, hm, hbecomes⟩ := h.exists_becomes hd hn
  obtain rfl := h.distinct.eq_of_id_eq hn' hm (hid.trans hbecomes.id.symm)
  exact hbecomes.isElement

theorem mem_nodes_update_self (h : d.Distinct) {n : Tree} (hn : n ∈ d.nodes) (f : Tree → Tree) :
    f n ∈ (d.update n.id f).nodes := by
  obtain ⟨t, ht, hn⟩ := mem_nodes.1 hn
  refine mem_nodes.2 ⟨t.update n.id f, ?_, Tree.mem_nodes_update_self (h.nodup_ids ?_) hn rfl⟩
  · rw [trees_update]
    exact List.mem_map_of_mem ht
  · exact mem_nodes.2 ⟨t, ht, t.self_mem_nodes⟩

theorem evolves_update (h : d.Distinct) {f : Tree → Tree}
    (hids : ∀ m ∈ d.nodes, m.id = x → (f m).ids = m.ids)
    (hf : ∀ m ∈ d.nodes, m.id = x → d.Reshapes touched m (f m)) :
    d.Evolves touched (d.update x f) := by
  have hperm : (d.update x f).ids.Perm d.ids := by
    cases hp : d.place? x with
    | none =>
      have hx := not_mem_ids_of_place? hp
      rw [ids, trees_update_of_not_mem hx]
      exact .refl _
    | some p =>
      obtain ⟨others, hold, hnew, -⟩ := h.ids_around hp
      have hsame := hids p.tree (tree_mem_nodes (mem_places_of_place? hp)) (id_of_place? hp)
      exact (hsame ▸ hnew f).trans hold.symm
  constructor
  case distinct =>
    exact h.of_perm [] (Nat.le_refl _) (by simpa using hperm) List.nodup_nil (List.forall_mem_nil _)
  case next_le => exact Nat.le_refl _
  case ids => exact fun i hi => hperm.mem_iff.2 hi
  case source => exact h.source_update hf

theorem reshapes_mapAttributes {change : Attributes → Attributes}
    (h : ∀ name, (x, name) ∉ touched → ∀ a, (change a).get? (.plain name) = a.get? (.plain name))
    {m : Tree} (hid : m.id = x) : d.Reshapes touched m (m.mapAttributes change) where
  id := Tree.id_mapAttributes _ _
  name := Tree.name_mapAttributes _ _
  value := fun name hname => Tree.attribute?_mapAttributes (h name (hid ▸ hname)) m
  nodes := by
    intro n hn
    rcases Tree.mem_nodes_iff.1 hn with rfl | ⟨c, hc, hn⟩
    · exact Or.inl rfl
    · rw [Tree.children_mapAttributes] at hc
      exact Or.inr (Or.inl (Tree.mem_nodes_iff.2 (Or.inr ⟨c, hc, hn⟩)))

theorem evolves_setAttribute (h : d.Distinct) (x : NodeId) (name value : String) :
    d.Evolves [(x, name)] (d.setAttribute x name value) := by
  refine evolves_update h (fun m _ _ => Tree.ids_mapAttributes _ m) fun m _ hid => ?_
  refine reshapes_mapAttributes (fun other hother a => ?_) hid
  refine Attributes.get?_set_of_ne fun heq => hother ?_
  rw [AttributeName.plain_injective heq]
  exact List.mem_singleton.2 rfl

theorem evolves_removeAttribute (h : d.Distinct) (x : NodeId) (name : String) :
    d.Evolves [(x, name)] (d.removeAttribute x name) := by
  refine evolves_update h (fun m _ _ => Tree.ids_mapAttributes _ m) fun m _ hid => ?_
  refine reshapes_mapAttributes (fun other hother a => ?_) hid
  refine Attributes.get?_remove_of_ne fun heq => hother ?_
  rw [AttributeName.plain_injective heq]
  exact List.mem_singleton.2 rfl

theorem source_of_new {n t : Tree} (hn : n ∈ t.nodes) (hnew : ∀ i ∈ t.ids, d.next ≤ i) :
    d.Source touched n where
  old := fun hlt => absurd hlt (Nat.not_lt.2 (hnew _ (Tree.id_mem_ids_of_mem_nodes hn)))
  new := fun _ i hi => hnew i (Tree.ids_subset_of_mem_nodes hn hi)

/-- A changed document with some trees more, each an old one or new in all its nodes. -/
theorem Evolves.extend (h : d.Distinct) (changed : Document) (hd : d'.Distinct)
    (hnext : d.next ≤ d'.next) (hids : d.ids ⊆ d'.ids)
    (hchanged : ∀ n ∈ changed.nodes, d.Source touched n)
    (htrees : ∀ t ∈ d'.trees, t ∈ changed.trees ∨ t ∈ d.nodes ∨ ∀ i ∈ t.ids, d.next ≤ i) :
    d.Evolves touched d' where
  distinct := hd
  next_le := hnext
  ids := hids
  source := by
    intro n hn
    obtain ⟨t, ht, hn⟩ := mem_nodes.1 hn
    rcases htrees t ht with ht | ht | ht
    · exact hchanged n (mem_nodes.2 ⟨t, ht, hn⟩)
    · exact h.source (nodes_trans ht hn)
    · exact source_of_new hn ht

theorem clear_of_place? (hp : d.place? x = some p) :
    (d.clear x).trees = (d.update x (·.withChildren [])).trees ++ p.tree.children ∧
      (d.clear x).next = d.next := by
  simp [clear, hp, trees, update]

theorem evolves_clear (h : d.Distinct) (x : NodeId) : d.Evolves [] (d.clear x) := by
  cases hp : d.place? x with
  | none =>
    have hsame : d.clear x = d := by rw [clear, hp]
    rw [hsame]
    exact .refl h
  | some p =>
    obtain ⟨htrees, hnext⟩ := clear_of_place? hp
    have hpn : p.tree ∈ d.nodes := tree_mem_nodes (mem_places_of_place? hp)
    obtain ⟨others, hold, hnew, -⟩ := h.ids_around hp
    have hperm : (d.clear x).ids.Perm d.ids := by
      have hcut : p.tree.ids = (p.tree.withChildren []).ids ++ p.tree.children.flatMap Tree.ids := by
        obtain ⟨⟨id, kind, children⟩, above⟩ := p
        simp [Tree.withChildren, Tree.ids_node]
      have hupdated := hnew (·.withChildren [])
      rw [ids, htrees, List.flatMap_append]
      rw [List.perm_iff_count] at hold hupdated ⊢
      intro i
      have := hold i
      have := hupdated i
      simp only [hcut, List.count_append, ids] at *
      omega
    refine .extend h (d.update x (·.withChildren [])) ?_ (Nat.le_of_eq hnext.symm)
      (fun i hi => hperm.mem_iff.2 hi) (h.source_update fun m hm hid => ?_) fun t ht => ?_
    · exact h.of_perm [] (Nat.le_of_eq hnext.symm) (by simpa using hperm)
        List.nodup_nil (List.forall_mem_nil _)
    · constructor
      case id => exact Tree.id_withChildren _ _
      case name => rw [Tree.element?_withChildren]
      case value => exact fun _ _ => Tree.attribute?_withChildren _ _ _
      case nodes =>
        intro n hn
        rcases Tree.mem_nodes_iff.1 hn with rfl | ⟨c, hc, -⟩
        · exact Or.inl rfl
        · rw [Tree.children_withChildren] at hc
          cases hc
    · rw [htrees, List.mem_append] at ht
      exact ht.imp_right fun ht => Or.inl (mem_nodes_of_mem_children hpn ht)

/-- A new tree behind the last child of a node. -/
theorem evolves_append (h : d.Distinct) (x next : NodeId) {tree : Tree}
    (hnext : d.next ≤ next) (hnodup : tree.ids.Nodup)
    (hnew : ∀ i ∈ tree.ids, d.next ≤ i ∧ i < next) :
    d.Evolves [] { d.append x tree with next } := by
  have htrees : ({ d.append x tree with next } : Document).trees = (d.append x tree).trees := rfl
  cases hp : d.place? x with
  | none =>
    have hsame : (d.append x tree).trees = d.trees :=
      trees_update_of_not_mem (not_mem_ids_of_place? hp) _
    have hperm : ({ d.append x tree with next } : Document).ids = d.ids := by
      rw [ids, htrees, hsame]
      rfl
    refine .extend h d ?_ hnext (fun i hi => hperm ▸ hi) (fun n hn => h.source hn)
      fun t ht => ?_
    · exact h.of_perm [] hnext (by rw [hperm, List.append_nil]) List.nodup_nil (List.forall_mem_nil _)
    · rw [htrees, hsame] at ht
      exact Or.inl ht
  | some p =>
    obtain ⟨others, hold, hupdated, -⟩ := h.ids_around hp
    have hgrown : (p.tree.withChildren (p.tree.children ++ [tree])).ids =
        p.tree.ids ++ tree.ids := by
      obtain ⟨⟨id, kind, children⟩, above⟩ := p
      simp [Tree.withChildren, Tree.ids_node]
    have hperm : ({ d.append x tree with next } : Document).ids.Perm (d.ids ++ tree.ids) := by
      have hafter := hupdated fun t => t.withChildren (t.children ++ [tree])
      rw [hgrown] at hafter
      refine hafter.trans ?_
      rw [List.perm_iff_count] at hold ⊢
      intro i
      have := hold i
      simp only [List.count_append] at this ⊢
      omega
    refine .extend h (d.append x tree) ?_ hnext
      (fun i hi => hperm.mem_iff.2 (List.mem_append_left _ hi))
      (h.source_update fun m hm hid => ?_) fun t ht => Or.inl (htrees ▸ ht)
    · exact h.of_perm _ hnext hperm hnodup hnew
    · constructor
      case id => exact Tree.id_withChildren _ _
      case name => rw [Tree.element?_withChildren]
      case value => exact fun _ _ => Tree.attribute?_withChildren _ _ _
      case nodes =>
        intro n hn
        rcases Tree.mem_nodes_iff.1 hn with rfl | ⟨c, hc, hn⟩
        · exact Or.inl rfl
        · rw [Tree.children_withChildren, List.mem_append, List.mem_singleton] at hc
          rcases hc with hc | heq
          · exact Or.inr (Or.inl (Tree.mem_nodes_iff.2 (Or.inr ⟨c, hc, hn⟩)))
          · rw [heq] at hn
            exact Or.inr (Or.inr fun i hi => (hnew i (Tree.ids_subset_of_mem_nodes hn hi)).1)

theorem evolves_appendText (h : d.Distinct) (x : NodeId) (content : String) :
    d.Evolves [] (d.appendText x content) := by
  refine evolves_append h x _ (Nat.le_succ _) (List.nodup_singleton _) fun i hi => ?_
  obtain rfl := List.mem_singleton.1 hi
  exact ⟨Nat.le_refl _, Nat.lt_succ_self _⟩

theorem evolves_setText (h : d.Distinct) (x : NodeId) (content : String) :
    d.Evolves [] (d.setText x content) :=
  have hclear := evolves_clear h x
  hclear.trans (evolves_appendText hclear.distinct x content)

/-- The same trees and perhaps one more that is new in all its nodes. -/
theorem evolves_of_trees (h : d.Distinct) (new : List Tree) (hnext : d.next ≤ d'.next)
    (htrees : d'.trees = d.trees ++ new) (hnodup : (new.flatMap Tree.ids).Nodup)
    (hnew : ∀ i ∈ new.flatMap Tree.ids, d.next ≤ i ∧ i < d'.next) : d.Evolves [] d' := by
  have hids : d'.ids = d.ids ++ new.flatMap Tree.ids := by
    rw [ids, htrees, List.flatMap_append]
    rfl
  refine .extend h d (h.of_perm _ hnext (.of_eq hids) hnodup hnew) hnext
    (fun i hi => hids ▸ List.mem_append_left _ hi) (fun n hn => h.source hn) fun t ht => ?_
  rw [htrees, List.mem_append] at ht
  refine ht.imp_right fun ht => Or.inr fun i hi => (hnew i ?_).1
  exact List.mem_flatMap.2 ⟨t, ht, hi⟩

/-- A row in the place of a node below another: of the node itself and of new trees, or of new trees
alone while the node is taken out. -/
theorem evolves_splice (h : d.Distinct) (row : Tree → List Tree) (out : List Tree)
    (new : List NodeId) (hp : d.place? x = some p) (habove : p.above ≠ [])
    (hnext : d.next ≤ d'.next) (htrees : d'.trees = (d.splice x row).trees ++ out)
    (hrow : ∀ m ∈ d.nodes, m.id = x → ∀ r ∈ row m, r = m ∨ ∀ i ∈ r.ids, d.next ≤ i)
    (hout : ∀ t ∈ out, t ∈ d.nodes)
    (hids : ((row p.tree).flatMap Tree.ids ++ out.flatMap Tree.ids).Perm (p.tree.ids ++ new))
    (hnodup : new.Nodup) (hnew : ∀ i ∈ new, d.next ≤ i ∧ i < d'.next) : d.Evolves [] d' := by
  obtain ⟨others, hold, -, hspliced⟩ := h.ids_around hp
  have hperm : d'.ids.Perm (d.ids ++ new) := by
    have hrow := hspliced habove row
    rw [ids, htrees, List.flatMap_append]
    rw [List.perm_iff_count] at hold hids hrow ⊢
    intro i
    have := hold i
    have := hids i
    have := hrow i
    simp only [List.count_append, ids] at *
    omega
  refine .extend h (d.splice x row) (h.of_perm _ hnext hperm hnodup hnew) hnext
    (fun i hi => hperm.mem_iff.2 (List.mem_append_left _ hi)) (h.source_splice hrow) fun t ht => ?_
  rw [htrees, List.mem_append] at ht
  exact ht.imp_right fun ht => Or.inl (hout t ht)

theorem evolves_wrap (h : d.Distinct) (x : NodeId) (before after : String) :
    d.Evolves [] (d.wrap x before after) := by
  have hnext : d.next ≤ (d.wrap x before after).next := Nat.le_add_right _ 2
  have hsame (htrees : (d.wrap x before after).trees = d.trees) :
      d.Evolves [] (d.wrap x before after) :=
    evolves_of_trees h [] hnext (by rw [htrees, List.append_nil]) List.nodup_nil
      (List.forall_mem_nil _)
  cases hp : d.place? x with
  | none => exact hsame (trees_splice_of_not_mem (not_mem_ids_of_place? hp) _)
  | some p =>
    by_cases habove : p.above = []
    · exact hsame (h.trees_splice_of_above hp habove _)
    · refine evolves_splice h _ [] [d.next, d.next + 1] hp habove hnext
        (List.append_nil _).symm ?_ (List.forall_mem_nil _) ?_ (by simp) ?_
      · intro m _ _ r hr
        simp only [List.mem_cons, List.not_mem_nil, or_false] at hr
        rcases hr with rfl | rfl | rfl
        · exact Or.inr (by simp)
        · exact Or.inl rfl
        · exact Or.inr (by simp)
      · rw [List.perm_iff_count]
        intro i
        simp only [List.flatMap_cons, List.flatMap_nil, Tree.ids_ofText, List.count_append,
          List.count_cons, List.count_nil]
        omega
      · intro i hi
        simp only [List.mem_cons, List.not_mem_nil, or_false] at hi
        have hlast : (d.wrap x before after).next = d.next + 2 := rfl
        rcases hi with rfl | rfl
        · exact ⟨Nat.le_refl _, hlast ▸ Nat.lt_add_of_pos_right (by decide)⟩
        · exact ⟨Nat.le_succ _, hlast ▸ Nat.lt_succ_self _⟩

theorem evolves_detach (h : d.Distinct) (x : NodeId) : d.Evolves [] (d.detach x) := by
  cases hp : d.place? x with
  | none =>
    have hsame : d.detach x = d := by rw [detach, hp]
    rw [hsame]
    exact .refl h
  | some p =>
    obtain ⟨tree, above⟩ := p
    cases above with
    | nil =>
      have hsame : d.detach x = d := by rw [detach, hp]
      rw [hsame]
      exact .refl h
    | cons level rest =>
      have hdetach : d.detach x =
          { d.splice x (fun _ => []) with loose := (d.splice x fun _ => []).loose ++ [tree] } := by
        rw [detach, hp]
      have hmem : tree ∈ d.nodes := tree_mem_nodes (mem_places_of_place? hp)
      rw [hdetach]
      refine evolves_splice h (fun _ => []) [tree] [] hp (List.cons_ne_nil _ _) (Nat.le_refl _) rfl
        (fun _ _ _ => List.forall_mem_nil _) ?_ ?_ List.nodup_nil (List.forall_mem_nil _)
      · exact fun t ht => List.mem_singleton.1 ht ▸ hmem
      · simp

/-- A new `div` is an element without attributes and without children. -/
theorem newElement?_div (d : Document) :
    d.newElement? "div" =
      some (.node d.next (.element (.html "div") []) [], { d with next := d.next + 1 }) := by
  have hselector : Selector.read? "div" = some (.of [.tag "div"]) := by decide +kernel
  have hfound : ((ofMarkup "<div></div>").rootPlace.first? (.of [.tag "div"])).map
      (fun p => (p.tree.kind, p.tree.children.length)) =
        some (.element (.html "div") [], 0) := by decide +kernel
  obtain ⟨⟨⟨id, kind, children⟩, above⟩, hp, hshape⟩ := Option.map_eq_some_iff.1 hfound
  obtain ⟨rfl, hchildren⟩ := Prod.mk.inj hshape
  obtain rfl := List.eq_nil_of_length_eq_zero hchildren
  have hmarkup : "<" ++ "div" ++ "></" ++ "div" ++ ">" = "<div></div>" := by decide
  simp only [newElement?, hselector, hmarkup, hp, Option.bind_eq_bind, Option.bind_some,
    Option.pure_def, adopt, Tree.renumber, Tree.renumberAll]

/-- The `div` that takes the place of an element: it has the next id and the same attributes. -/
def newDiv (d : Document) (attributes : Attributes) : Tree :=
  .node d.next (.element (.html "div") attributes) []

/-- An element that stands below another node gives way to the new one and is taken out; a root stays
where it is. -/
theorem retag?_div {made : Tree} (hretag : d.retag? x "div" = some (made, d')) :
    ∃ p name attributes, d.place? x = some p ∧ p.tree.element? = some (name, attributes) ∧
      made = d.newDiv attributes ∧ d'.next = d.next + 1 ∧
      (p.above = [] → d'.trees = d.trees ++ [made]) ∧
      (p.above ≠ [] → d'.trees = (d.splice x fun _ => [made]).trees ++ [p.tree]) := by
  unfold retag? at hretag
  obtain ⟨p, hp, hretag⟩ := Option.bind_eq_some_iff.1 hretag
  obtain ⟨⟨name, attributes⟩, helement, hretag⟩ := Option.bind_eq_some_iff.1 hretag
  rw [newElement?_div] at hretag
  obtain ⟨rfl, rfl⟩ := Prod.mk.inj (Option.some.inj hretag)
  refine ⟨p, name, attributes, hp, helement, rfl, ?_⟩
  obtain ⟨tree, above⟩ := p
  cases above with
  | nil => exact ⟨rfl, fun _ => rfl, fun h => absurd rfl h⟩
  | cons level rest => exact ⟨rfl, fun h => absurd h (List.cons_ne_nil _ _), fun _ => rfl⟩

theorem evolves_retag? (h : d.Distinct) {made : Tree}
    (hretag : d.retag? x "div" = some (made, d')) : d.Evolves [] d' := by
  obtain ⟨p, name, attributes, hp, -, hmade, hnext, hroot, hbelow⟩ := retag?_div hretag
  have hids : made.ids = [d.next] := by
    rw [hmade, newDiv, Tree.ids_node, List.flatMap_nil]
  have hle : d.next ≤ d'.next := hnext ▸ Nat.le_succ _
  have hnew : ∀ i ∈ [d.next], d.next ≤ i ∧ i < d'.next := by
    intro i hi
    obtain rfl := List.mem_singleton.1 hi
    exact ⟨Nat.le_refl _, hnext ▸ Nat.lt_succ_self _⟩
  by_cases habove : p.above = []
  · refine evolves_of_trees h _ hle (hroot habove) ?_ ?_
    · simp [hids]
    · simpa only [List.flatMap_singleton, hids] using hnew
  · refine evolves_splice h _ _ _ hp habove hle (hbelow habove) ?_ ?_ ?_ (List.nodup_singleton _) hnew
    · intro m _ _ r hr
      obtain rfl := List.mem_singleton.1 hr
      exact Or.inr (by simp [hids])
    · exact fun t ht => List.mem_singleton.1 ht ▸ tree_mem_nodes (mem_places_of_place? hp)
    · simp only [List.flatMap_singleton, hids]
      exact List.perm_append_comm

theorem evolves_renew (h : d.Distinct) (x : NodeId) (content : String) :
    d.Evolves [] (d.apply (.renew x content)) := by
  rw [apply]
  split
  case h_1 => exact .refl h
  case h_2 made d' hretag =>
    have hretagged := evolves_retag? h hretag
    exact hretagged.trans (evolves_appendText hretagged.distinct made.id content)

end

mutual

theorem ids_renumber : ∀ (next : NodeId) (t : Tree), next < (t.renumber next).2 ∧
    (t.renumber next).1.ids = List.range' next ((t.renumber next).2 - next)
  | next, .node id kind children => by
    obtain ⟨hle, hids⟩ := ids_renumberAll (next + 1) children
    rw [Tree.renumber]
    generalize Tree.renumberAll (next + 1) children = renumbered at hle hids ⊢
    obtain ⟨children', after⟩ := renumbered
    refine ⟨hle, ?_⟩
    have hlength : ∀ a b : Nat, a + 1 ≤ b → b - a = b - (a + 1) + 1 := by omega
    rw [Tree.ids_node, hids, hlength next after hle, List.range'_succ]

theorem ids_renumberAll : ∀ (next : NodeId) (ts : List Tree), next ≤ (Tree.renumberAll next ts).2 ∧
    (Tree.renumberAll next ts).1.flatMap Tree.ids =
      List.range' next ((Tree.renumberAll next ts).2 - next)
  | next, [] => by simp [Tree.renumberAll]
  | next, t :: rest => by
    obtain ⟨hlt, hids⟩ := ids_renumber next t
    rw [Tree.renumberAll]
    generalize t.renumber next = renumbered at hlt hids ⊢
    obtain ⟨t', middle⟩ := renumbered
    obtain ⟨hle, hrest⟩ := ids_renumberAll middle rest
    dsimp only
    generalize Tree.renumberAll middle rest = renumberedAll at hle hrest ⊢
    obtain ⟨rest', after⟩ := renumberedAll
    refine ⟨Nat.le_trans (Nat.le_of_lt hlt) hle, ?_⟩
    dsimp only at hids hrest hlt hle ⊢
    have hsplit : ∀ a b c : Nat, a < b → b ≤ c →
        List.range' a (b - a) ++ List.range' b (c - b) = List.range' a (c - a) := by
      intro a b c hab hbc
      obtain ⟨k, rfl⟩ := Nat.exists_eq_add_of_le (Nat.le_of_lt hab)
      rw [Nat.add_sub_cancel_left, List.range'_append_1]
      congr 1
      omega
    rw [List.flatMap_cons, hids, hrest, hsplit next middle after hlt hle]

end

section

variable {d d' : Document}

theorem evolves_append_adopt (h : d.Distinct) (x : NodeId) (tree : Tree) :
    d.Evolves [] (d.apply (.append x tree)) := by
  obtain ⟨hlt, hids⟩ := ids_renumber d.next tree
  refine evolves_append h x (tree.renumber d.next).2 (Nat.le_of_lt hlt) ?_ fun i hi => ?_
  · rw [show (d.adopt tree).1.ids = _ from hids]
    exact List.nodup_range'
  · rw [show (d.adopt tree).1.ids = _ from hids, List.mem_range'_1] at hi
    rwa [Nat.add_sub_cancel' (Nat.le_of_lt hlt)] at hi

theorem evolves_background (h : d.Distinct) (x : NodeId) (source : String) :
    d.Evolves [(x, "style")] (d.apply (.background x source)) := by
  rw [apply]
  split
  · exact .refl h
  · exact evolves_setAttribute h x "style" _

/-- Every edit keeps ids apart and makes the nodes of the changed document from those that were
there. -/
theorem evolves_apply (h : d.Distinct) (e : Edit) : d.Evolves e.touched (d.apply e) := by
  cases e with
  | setAttribute id name value => exact evolves_setAttribute h id name value
  | removeAttribute id name => exact evolves_removeAttribute h id name
  | background id source => exact evolves_background h id source
  | setText id content => exact evolves_setText h id content
  | renew id content => exact evolves_renew h id content
  | wrap id before after => exact evolves_wrap h id before after
  | detach id => exact evolves_detach h id
  | append id tree => exact evolves_append_adopt h id tree

end

end Document

end ThemeSection
