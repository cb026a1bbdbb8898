import ThemeSection.Proofs.PageSettings.References
import ThemeSection.Proofs.PageSettings.Follows

/-!
Where the settings of a page are shown. A visit shows what it collects at the visited node. What a node
shows marks it, so that no later visit takes it away, and the sweeps over images and styles visit each
node once. So every collected setting ends up on the page if no visit is to a node that an earlier visit
of its own sweep has taken off it.
-/

namespace ThemeSection

open Markup Liquid Document

namespace Document

variable {d : Document} {top x : NodeId}

theorem Distinct.mem_nodes_of_id_mem (hd : d.Distinct) {t n : Tree} (ht : t ∈ d.nodes)
    (hn : n ∈ d.nodes) (hin : n.id ∈ t.ids) : n ∈ t.nodes := by
  obtain ⟨m, hm, hid⟩ := List.mem_map.1 hin
  rwa [hd.eq_of_id_eq hn (nodes_trans ht hm) hid.symm]

/-- A node stands at or below another. -/
def IsUnder (d : Document) (top x : NodeId) : Prop :=
  ∃ t ∈ d.nodes, t.id = top ∧ x ∈ t.ids

theorem IsUnder.lt_next (h : d.IsUnder top x) (hd : d.Distinct) : x < d.next := by
  obtain ⟨t, ht, -, hin⟩ := h
  exact hd.fresh x (ids_subset_of_mem_nodes ht hin)

theorem IsUnder.trans {r : NodeId} (hd : d.Distinct) (h : d.IsUnder top r) (h' : d.IsUnder r x) :
    d.IsUnder top x := by
  obtain ⟨t, ht, hid, hr⟩ := h
  obtain ⟨u, hu, rfl, hx⟩ := h'
  exact ⟨t, ht, hid, Tree.ids_subset_of_mem_nodes (hd.mem_nodes_of_id_mem ht hu hr) hx⟩

/-- What stands below a node and is not new has stood there before. -/
theorem isUnder_of_evolves {d' : Document} {touched : List (NodeId × String)} (h : d.Evolves touched d')
    (hx : x < d.next) (hunder : d'.IsUnder top x) : d.IsUnder top x := by
  obtain ⟨t, ht, rfl, hin⟩ := hunder
  by_cases hold : t.id < d.next
  case pos =>
    obtain ⟨n, hn, hbecomes⟩ := (h.source t ht).old hold
    exact ⟨n, hn, hbecomes.id.symm, hbecomes.below x hin hx⟩
  case neg => exact absurd hx (Nat.not_lt.2 ((h.source t ht).new (Nat.not_lt.1 hold) x hin))

end Document

namespace Sweep

variable {context : Context} {p q : Place} {d d' : Document} {lost : Tree → Prop}
  {manner : Manner} {s s' : Sweep} {nodes : List NodeId} {top x : NodeId} {n n' : Tree}

/-- A visit does not take the node away. -/
def Spares (p : Place) (manner : Manner) (x : NodeId) : Prop :=
  manner.overwrites → x ∈ p.tree.ids → x = p.id ∧ manner ≠ .renewal

theorem Changes.not_lost (h : Changes context p manner lost d d') (hp : p.tree.ids.Nodup)
    (hspares : Spares p manner n.id) : ¬ lost n := by
  intro hlost
  obtain ⟨-, hoverwrites, hbelow, hself⟩ := h.lost n hlost
  obtain ⟨hid, hmanner⟩ := hspares hoverwrites (Tree.id_mem_ids_of_mem_nodes hbelow)
  exact hmanner (hself (List.inj_on_of_nodup_map hp hbelow p.tree.self_mem_nodes hid))

/-- What a node that stays has become. -/
structure Stays (p : Place) (manner : Manner) (n n' : Tree) : Prop where
  id : n'.id = n.id
  kind : n.id ≠ p.id → n'.kind = n.kind
  children : ∀ c ∈ n.children, Spares p manner c.id → c.id ≠ p.id →
    ∃ c' ∈ n'.children, c'.id = c.id ∧ c'.kind = c.kind

theorem Stays.refl (p : Place) (manner : Manner) (n : Tree) : Stays p manner n n where
  id := rfl
  kind := fun _ => rfl
  children := fun c hc _ _ => ⟨c, hc, rfl, rfl⟩

theorem Stays.trans {n'' : Tree} (h : Stays p manner n n') (h' : Stays p manner n' n'') :
    Stays p manner n n'' where
  id := h'.id.trans h.id
  kind := fun hne => (h'.kind (h.id ▸ hne)).trans (h.kind hne)
  children := by
    intro c hc hspares hne
    obtain ⟨c', hc', hid', hkind'⟩ := h.children c hc hspares hne
    obtain ⟨c'', hc'', hid'', hkind''⟩ :=
      h'.children c' hc' (hid'.symm ▸ hspares) (hid'.symm ▸ hne)
    exact ⟨c'', hc'', hid''.trans hid', hkind''.trans hkind'⟩

theorem Changes.stays (h : Changes context p manner lost d d') (hp : p.tree.ids.Nodup)
    (hn : n ∈ d.nodes) (hspares : Spares p manner n.id) : ∃ n' ∈ d'.nodes, Stays p manner n n' := by
  obtain ⟨carry, hcarries⟩ := h.carries
  have hkept := h.not_lost hp hspares
  refine ⟨carry n, hcarries.mem_nodes hn hkept, hcarries.id n, hcarries.kind n, ?_⟩
  intro c hc hspares hne
  exact ⟨carry c, hcarries.children n hn hkept c hc (h.not_lost hp hspares), hcarries.id c,
    hcarries.kind c hne⟩

theorem Changes.isUnder (h : Changes context p manner lost d d') (hp : p.tree.ids.Nodup)
    (hunder : d.IsUnder top x) (htop : Spares p manner top) (hx : Spares p manner x) :
    d'.IsUnder top x := by
  obtain ⟨carry, hcarries⟩ := h.carries
  obtain ⟨t, ht, rfl, hin⟩ := hunder
  obtain ⟨n, hn, rfl⟩ := List.mem_map.1 hin
  have hcarried := hcarries.nodes t ht n hn (h.not_lost hp hx)
  exact ⟨carry t, hcarries.mem_nodes ht (h.not_lost hp htop), hcarries.id t,
    hcarries.id n ▸ Tree.id_mem_ids_of_mem_nodes hcarried⟩

namespace Chain

variable (h : Chain context p manner d d')
include h

theorem stays (hp : p.tree.ids.Nodup) (hn : n ∈ d.nodes) (hspares : Spares p manner n.id) :
    ∃ n' ∈ d'.nodes, Stays p manner n n' := by
  induction h with
  | refl => exact ⟨n, hn, .refl p manner n⟩
  | snoc _ hchanges ih =>
    obtain ⟨n', hn', hstays⟩ := ih
    obtain ⟨n'', hn'', hstays'⟩ := hchanges.stays hp hn' (hstays.id ▸ hspares)
    exact ⟨n'', hn'', hstays.trans hstays'⟩

theorem isUnder (hp : p.tree.ids.Nodup) (hunder : d.IsUnder top x) (htop : Spares p manner top)
    (hx : Spares p manner x) : d'.IsUnder top x := by
  induction h with
  | refl => exact hunder
  | snoc _ hchanges ih => exact hchanges.isUnder hp ih htop hx

theorem retold : d.Retold d' := by
  induction h with
  | refl => exact fun n hn => Or.inr ⟨n, hn, rfl, rfl⟩
  | snoc _ hchanges ih =>
    obtain ⟨carry, hcarries⟩ := hchanges.carries
    exact ih.trans hcarries.retold

end Chain

/-- Where a node shows a text. -/
inductive Spot
  | content
  | value (name : String)

/-- A node has the text as one of its own, or as the value of an attribute. -/
def HasAt (n : Tree) : Spot → String → Prop
  | .content, text => ∃ c ∈ n.children, c.kind = .text text
  | .value name, text => n.attribute? name = some text

theorem hasAt_content {c : Tree} {text : String} (hc : c ∈ n.children) (hkind : c.kind = .text text) :
    HasAt n .content text :=
  ⟨c, hc, hkind⟩

/-- An element shows a setting by one of the texts, in what it has at a spot. -/
structure Displays (texts : List String) (id : String) (n : Tree) (spot : Spot) (value : String) :
    Prop where
  isElement : n.isElement
  hasAt : HasAt n spot value
  refers : ∃ written ∈ texts, written.toList <:+: value.toList ∧ id ∈ references .whole written

/-- A node shows a setting in a way that later visits of the same manner leave: by a content that marks
it, or in an attribute of the visited node. -/
structure Leaves (p : Place) (manner : Manner) (n : Tree) (spot : Spot) (value : String) : Prop where
  marked : manner.overwrites → n.isMarked ∧ (Tree.ofText n.id value).isMarked
  visited : manner.overwrites = false → n.id = p.id
  named : ∀ name, spot = .value name → name ∈ manner.attributes

theorem leaves_of_marked (h : manner.overwrites) (hmarked : n.isMarked) {spot : Spot}
    (hspot : spot = .content ∨ spot = .value "href") (id : String) :
    Leaves p manner n spot (reference .whole id) where
  marked := fun _ => ⟨hmarked, isMarked_reference id n.id⟩
  visited := fun hnot => by
    rw [h] at hnot
    cases hnot
  named := by
    rcases hspot with rfl | rfl
    · intro name hname
      cases hname
    · intro name hname
      cases hname
      cases manner <;> first | exact List.mem_singleton_self _ | cases h

theorem leaves_of_visited (h : manner.overwrites = false) (hid : n.id = p.id) {name : String}
    (hname : name ∈ manner.attributes) (value : String) : Leaves p manner n (.value name) value where
  marked := fun hoverwrites => by
    rw [h] at hoverwrites
    cases hoverwrites
  visited := fun _ => hid
  named := by
    intro other hother
    cases hother
    exact hname

/-- A node on the page shows the setting, after a visit of a place. -/
def ShownBy (p : Place) (manner : Manner) (edits : List Edit) (d : Document) (top : NodeId)
    (id : String) : Prop :=
  ∃ n ∈ d.nodes, d.IsUnder top n.id ∧ ∃ spot value,
    Displays (edits.flatMap Edit.texts) id n spot value ∧ Leaves p manner n spot value

section

variable {id : String} {edits : List Edit}

theorem displays_of_hasAt {texts : List String} {spot : Spot} {written : String}
    (helement : n.isElement) (h : HasAt n spot written) (hwritten : written ∈ texts)
    (hid : id ∈ references .whole written) :
    Displays texts id n spot written :=
  ⟨helement, h, written, hwritten, List.infix_rfl, hid⟩

/-- A visit spares the node that the visited one stands under. -/
theorem spares_top (hd : d.Distinct) (hp : p ∈ d.places) (hunder : d.IsUnder top p.id)
    (htop : manner = .renewal → p.id ≠ top) : Spares p manner top := by
  intro _ hin
  obtain ⟨t, ht, rfl, hpin⟩ := hunder
  have hmem := tree_mem_nodes hp
  have heq : p.tree = t := Tree.eq_of_mem_nodes (hd.nodup_ids ht)
    (hd.mem_nodes_of_id_mem ht hmem hpin) (hd.mem_nodes_of_id_mem hmem ht hin)
  have hid : p.id = t.id := congrArg Tree.id heq
  exact ⟨hid.symm, fun hrenewal => htop hrenewal hid⟩

/-- An attribute of a node stays as it is if it is not touched. -/
theorem hasAt_of_evolves {touched : List (NodeId × String)} (h : d.Evolves touched d')
    (hd : d.Distinct) (hn : n ∈ d.nodes) {name text : String} (hout : (n.id, name) ∉ touched)
    (hhas : HasAt n (.value name) text) :
    ∃ n' ∈ d'.nodes, n'.id = n.id ∧ n'.isElement = n.isElement ∧ HasAt n' (.value name) text := by
  obtain ⟨n', hn', hbecomes⟩ := h.exists_becomes hd hn
  exact ⟨n', hn', hbecomes.id, hbecomes.isElement, (hbecomes.value name hout).trans hhas⟩

theorem hasAt_setAttribute (hd : d.Distinct) (hn : n ∈ d.nodes) (helement : n.isElement)
    (name text : String) : ∃ n' ∈ (d.setAttribute n.id name text).nodes, n'.id = n.id ∧
      n'.isElement = n.isElement ∧ HasAt n' (.value name) text ∧ n'.children = n.children ∧
      n'.isMarked = n.isMarked :=
  ⟨_, mem_nodes_update_self hd hn _, Tree.id_mapAttributes _ n, Tree.isElement_mapAttributes _ n,
    Tree.attribute?_set_self helement _ _, Tree.children_mapAttributes _ n,
    Tree.isMarked_congr (Tree.text_mapAttributes _ n)⟩

variable (hd : d.Distinct) (hp : d.place? p.id = some p) (helement : p.isElement)
include hd hp

theorem mem_nodes_setText (content : String) :
    p.tree.withChildren [.ofText d.next content] ∈ (d.setText p.id content).nodes := by
  have hmem := mem_nodes_update_self hd (tree_mem_nodes (mem_places_of_place? hp))
    (·.withChildren [.ofText d.next content])
  obtain ⟨t, ht, hin⟩ := mem_nodes.1 hmem
  refine mem_nodes.2 ⟨t, ?_, hin⟩
  rw [trees_setText hd hp]
  exact List.mem_append_left _ ht

/-- The `div` that takes the place of an element stands where that stood. -/
theorem mem_nodes_renew {name : ElementName} {attributes : Attributes}
    (helement : p.tree.element? = some (name, attributes)) (hunder : d.IsUnder top p.id)
    (htop : p.id ≠ top) (id : String) :
    let made := d.renewed attributes (reference .whole id)
    let d' := d.apply (.renew p.id (reference .whole id))
    made ∈ d'.nodes ∧ d'.IsUnder top made.id := by
  intro made d'
  have hcarries := carries_renew hd hp (isMarked_reference id) helement
  obtain ⟨t, ht, rfl, hin⟩ := hunder
  have hmem := tree_mem_nodes (mem_places_of_place? hp)
  have hbelow := hd.mem_nodes_of_id_mem ht hmem hin
  have hkept : t ∉ p.tree.nodes := fun hin =>
    htop (congrArg Tree.id (Tree.eq_of_mem_nodes (hd.nodup_ids ht) hbelow hin))
  have hcarried := hcarries.mem_nodes ht hkept
  have hmade : made ∈ (t.splice p.id fun _ => [made]).nodes :=
    Tree.mem_nodes_splice_self (hd.nodup_ids ht) hbelow rfl (Ne.symm htop) (List.mem_singleton_self _)
  exact ⟨nodes_trans hcarried hmade, _, hcarried, hcarries.id t, Tree.id_mem_ids_of_mem_nodes hmade⟩

include helement

theorem Writes.shows {ids : List String} (h : Writes context p manner ids edits)
    (hunder : d.IsUnder top p.id) (htop : manner = .renewal → p.id ≠ top)
    (hnames : ∀ id ∈ ids, IsName id) :
    ∀ id ∈ ids, ShownBy p manner edits (edits.foldl Document.apply d) top id := by
  have hplace := mem_places_of_place? hp
  have hmem := tree_mem_nodes hplace
  have hshown : manner ≠ .renewal → ∀ {n : Tree} {spot : Spot} {value id : String},
      n ∈ (edits.foldl Document.apply d).nodes → n.id = p.id →
      Displays (edits.flatMap Edit.texts) id n spot value → Leaves p manner n spot value →
      ShownBy p manner edits (edits.foldl Document.apply d) top id := by
    intro hne n spot value id hn hid hdisplays hleaves
    refine ⟨n, hn, ?_, spot, value, hdisplays, hleaves⟩
    rw [hid]
    exact (h.chain hd hp helement).isUnder (hd.nodup_ids hmem) hunder
      (spares_top hd hplace hunder htop) fun _ _ => ⟨rfl, hne⟩
  have hchild (content : String) (t : Tree) :
      HasAt (t.withChildren [.ofText d.next content]) .content content :=
    hasAt_content (by rw [Tree.children_withChildren]; exact List.mem_singleton_self _) rfl
  have hmarked (id : String) := Tree.isMarked_withText (t := p.tree) (isMarked_reference id d.next)
  have hkept (children : List Tree) : (p.tree.withChildren children).isElement := by
    rw [Tree.isElement, Tree.element?_withChildren]
    exact helement
  have hsource (text : String) :
      ∃ n ∈ ((d.setAttribute p.id "src" text).removeAttribute p.id "srcset").nodes, n.id = p.id ∧
        n.isElement ∧ HasAt n (.value "src") text := by
    obtain ⟨n, hn, hid, helement', hhas, -, -⟩ := hasAt_setAttribute hd hmem helement "src" text
    have hd' := (evolves_setAttribute hd p.id "src" text).distinct
    obtain ⟨n', hn', hid', helement'', hhas'⟩ :=
      hasAt_of_evolves (evolves_removeAttribute hd' p.id "srcset") hd' hn (by simp) hhas
    exact ⟨n', hn', hid'.trans hid, helement''.trans (helement'.trans helement), hhas'⟩
  cases h with
  | text id hopen =>
    exact List.forall_mem_singleton.2 (hshown (by decide) (mem_nodes_setText hd hp _)
      (Tree.id_withChildren _ _) (displays_of_hasAt (hkept _) (hchild _ _)
        (List.mem_singleton_self _) (mem_references_reference (hnames id (by simp))))
      (leaves_of_marked rfl (hmarked id) (Or.inl rfl) id))
  | link textId urlId hopen =>
    have hfirst := mem_nodes_setText hd hp (reference .whole textId)
    obtain ⟨n, hn, hid, helement', hhas, hchildren, hsame⟩ := hasAt_setAttribute
      (evolves_setText hd p.id _).distinct hfirst (hkept _) "href" (reference .whole urlId)
    rw [Tree.id_withChildren] at hn hid
    have hleaves {spot : Spot} (hspot : spot = .content ∨ spot = .value "href") (id : String) :
        Leaves p .content n spot (reference .whole id) :=
      leaves_of_marked rfl (hsame.trans (hmarked textId)) hspot id
    obtain ⟨c, hc, hkind⟩ := hchild (reference .whole textId) p.tree
    refine List.forall_mem_cons.2 ⟨?_, List.forall_mem_singleton.2 ?_⟩
    · exact hshown (by decide) hn hid (displays_of_hasAt (helement'.trans (hkept _))
        (hasAt_content (hchildren ▸ hc) hkind) List.mem_cons_self
        (mem_references_reference (hnames textId (by simp)))) (hleaves (Or.inl rfl) _)
    · exact hshown (by decide) hn hid (displays_of_hasAt (helement'.trans (hkept _)) hhas
        (List.mem_cons_of_mem _ (List.mem_singleton_self _))
        (mem_references_reference (hnames urlId (by simp)))) (hleaves (Or.inr rfl) _)
  | paragraph id hopen _ _ =>
    obtain ⟨⟨name, attributes⟩, hsome⟩ := Option.isSome_iff_exists.1 helement
    obtain ⟨hmade, hunder⟩ := mem_nodes_renew hd hp hsome hunder (htop rfl) id
    have hmarked := Tree.isMarked_withText (t := d.newDiv attributes)
      (isMarked_reference id (d.next + 1))
    have hleaves : Leaves p .renewal _ .content (reference .whole id) :=
      leaves_of_marked rfl hmarked (Or.inl rfl) id
    exact List.forall_mem_singleton.2 ⟨_, hmade, hunder, .content, _, displays_of_hasAt rfl
      (hasAt_content (List.mem_singleton_self _) rfl) (List.mem_singleton_self _)
        (mem_references_reference (hnames id (by simp))), hleaves⟩
  | image id src _ _ _ =>
    obtain ⟨n, hn, hid, helement', hhas⟩ :=
      hsource (imageSource .whole id (Text.trim src) imageWidth)
    exact List.forall_mem_singleton.2 (hshown (by decide) hn hid (displays_of_hasAt helement' hhas
      (List.mem_singleton_self _) (mem_references_imageSource (hnames id (by simp)) _ _))
        (leaves_of_visited rfl hid (by decide) _))
  | describedImage id altId src _ _ _ =>
    obtain ⟨n, hn, hid, helement', hhas⟩ :=
      hsource (imageSource .whole id (Text.trim src) imageWidth)
    have hd' := (evolves_removeAttribute (evolves_setAttribute hd p.id "src"
      (imageSource .whole id (Text.trim src) imageWidth)).distinct p.id "srcset").distinct
    refine List.forall_mem_cons.2 ⟨?_, List.forall_mem_singleton.2 ?_⟩
    · obtain ⟨n', hn', hid', helement'', hhas'⟩ := hasAt_of_evolves
        (evolves_setAttribute hd' p.id "alt" (escapedReference .whole altId)) hd' hn (by simp) hhas
      exact hshown (by decide) hn' (hid'.trans hid) (displays_of_hasAt
        (helement''.trans helement') hhas' List.mem_cons_self
        (mem_references_imageSource (hnames id (by simp)) _ _))
          (leaves_of_visited rfl (hid'.trans hid) (by decide) _)
    · obtain ⟨n', hn', hid', helement'', hhas', -, -⟩ := hasAt_setAttribute hd' hn helement' "alt"
        (escapedReference .whole altId)
      rw [hid] at hn'
      exact hshown (by decide) hn' (hid'.trans hid) (displays_of_hasAt
        (helement''.trans helement') hhas' (List.mem_cons_of_mem _ (List.mem_singleton_self _))
        (mem_references_escapedReference (hnames altId (by simp))))
          (leaves_of_visited rfl (hid'.trans hid) (by decide) _)
  | background id style url hstyle hurl _ =>
    have happly : [Edit.background p.id (imageSource .whole id url backgroundWidth)].foldl
        Document.apply d = d.setAttribute p.id "style"
          (Style.replaceBackgroundUrl style (imageSource .whole id url backgroundWidth)) := by
      rw [List.foldl_cons, List.foldl_nil, Document.apply, hp, Option.bind_some, hstyle]
    obtain ⟨n, hn, hid, helement', hhas, -, -⟩ := hasAt_setAttribute hd hmem helement "style"
      (Style.replaceBackgroundUrl style (imageSource .whole id url backgroundWidth))
    exact List.forall_mem_singleton.2 (hshown (by decide) (happly ▸ hn) hid
      ⟨helement'.trans helement, hhas, _, List.mem_singleton_self _,
        Style.infix_replaceBackgroundUrl hurl _,
        mem_references_imageSource (hnames id (by simp)) _ _⟩
      (leaves_of_visited rfl hid (by decide) _))

end

/-- What sweeps have come to. Every setting that they have collected is shown on the page, in a way that
visits still to come leave. -/
structure Progress (context : Context) (start : Sweep) (top : NodeId)
    (calm : Tree → Spot → String → Prop) (s : Sweep) : Prop where
  follows : Follows context start.document s.document
  shown : ∃ log : List Edit, s.document = log.foldl Document.apply start.document ∧
    ∀ setting ∈ s.scope.settings, setting ∈ start.scope.settings ∨
      ∃ n ∈ s.document.nodes, s.document.IsUnder top n.id ∧ ∃ spot value,
        Displays (log.flatMap Edit.texts) setting.id n spot value ∧ calm n spot value

/-- A visit leaves what a node has at a spot. -/
structure Passes (p : Place) (manner : Manner) (n : Tree) (spot : Spot) (value : String) : Prop where
  node : Spares p manner n.id
  content : ∀ c ∈ n.children, c.kind = .text value → Spares p manner c.id
  other : n.id = p.id → ∀ name, spot = .value name → name ∉ manner.attributes

variable {start : Sweep} {calm calm' : Tree → Spot → String → Prop} {spot : Spot} {value : String}

/-- What a visit passes by is there after it. -/
theorem Chain.passes (h : Chain context p manner d d') (hd : d.Distinct) (hp : p ∈ d.places)
    (helement : p.isElement) (hn : n ∈ d.nodes) (hpasses : Passes p manner n spot value)
    (hhas : HasAt n spot value) : ∃ n' ∈ d'.nodes, n'.id = n.id ∧ HasAt n' spot value := by
  cases spot with
  | content =>
    have hmem := tree_mem_nodes hp
    obtain ⟨n', hn', hstays⟩ := h.stays (hd.nodup_ids hmem) hn hpasses.node
    obtain ⟨c, hc, hkind⟩ := hhas
    have hne : c.id ≠ p.id := by
      intro heq
      obtain rfl := hd.eq_of_id_eq (mem_nodes_of_mem_children hn hc) hmem heq
      rw [Place.isElement, Tree.isElement, Tree.element?, hkind] at helement
      cases helement
    obtain ⟨c', hc', -, hkind'⟩ := hstays.children c hc (hpasses.content c hc hkind) hne
    exact ⟨n', hn', hstays.id, hasAt_content hc' (hkind'.trans hkind)⟩
  | value name =>
    obtain ⟨touched, hevolves, htouched⟩ := h.evolves hd
    have hout : (n.id, name) ∉ touched := by
      intro hin
      obtain ⟨hself, hname⟩ := htouched _ hin
      exact hpasses.other hself name rfl hname
    obtain ⟨n', hn', hid, -, hhas'⟩ := hasAt_of_evolves hevolves hd hn hout hhas
    exact ⟨n', hn', hid, hhas'⟩

theorem SettingScope.mem_settings_pushAll {scope : SettingScope} {settings : List Setting}
    {setting : Setting} (h : setting ∈ (scope.pushAll settings).settings) :
    setting ∈ scope.settings ∨ setting ∈ settings := by
  induction settings generalizing scope with
  | nil => exact Or.inl h
  | cons first rest ih =>
    rcases @ih (scope.push first) h with h | h
    · unfold SettingScope.push at h
      split at h
      · exact Or.inl h
      · rcases List.mem_append.1 h with h | h
        · exact Or.inl h
        · exact Or.inr (List.mem_singleton.1 h ▸ List.mem_cons_self)
    · exact Or.inr (List.mem_cons_of_mem _ h)

section

variable (hstep : Step context s p manner s') (hp : s.document.place? p.id = some p)
  (helement : p.isElement)
include hstep hp helement

theorem Step.isUnder (hd : s.document.Distinct) (hunder : s.document.IsUnder top x)
    (htop : (manner.overwrites → isOpenText context p) → Spares p manner top)
    (hx : (manner.overwrites → isOpenText context p) → Spares p manner x) :
    s'.document.IsUnder top x := by
  cases hstep with
  | pass => exact hunder
  | write settings edits hwrites _ hdocument _ =>
    rw [hdocument]
    exact (hwrites.chain hd hp helement).isUnder
      (hd.nodup_ids (tree_mem_nodes (mem_places_of_place? hp))) hunder (htop hwrites.opens)
      (hx hwrites.opens)

theorem Step.retold (hd : s.document.Distinct) : s.document.Retold s'.document := by
  cases hstep with
  | pass => exact fun n hn => Or.inr ⟨n, hn, rfl, rfl⟩
  | write settings edits hwrites _ hdocument _ =>
    rw [hdocument]
    exact (hwrites.chain hd hp helement).retold

/-- A visit to a node on the page, which passes by all that has been shown, shows what it collects. -/
theorem Progress.visit (h : Progress context start top calm s)
    (hunder : (manner.overwrites → isOpenText context p) → s.document.IsUnder top p.id)
    (htop : manner = .renewal → p.id ≠ top)
    (hpasses : (manner.overwrites → isOpenText context p) → ∀ n ∈ s.document.nodes, ∀ spot value,
      calm n spot value → Passes p manner n spot value)
    (hcalm : ∀ n ∈ s.document.nodes, ∀ n' ∈ s'.document.nodes, n'.id = n.id →
      ∀ spot value, calm n spot value → calm' n' spot value)
    (hleaves : ∀ n spot value, Leaves p manner n spot value → calm' n spot value) :
    Progress context start top calm' s' := by
  have hmem := mem_places_of_place? hp
  have hdistinct := h.follows.distinct
  have hfollows := h.follows.trans (hstep.follows hdistinct hp helement)
  cases hstep with
  | pass =>
    obtain ⟨log, hlog, hshown⟩ := h.shown
    refine ⟨hfollows, log, hlog, fun setting hsetting => ?_⟩
    rcases hshown setting hsetting with hold | ⟨n, hn, hunder, spot, value, hdisplays, hn'⟩
    · exact Or.inl hold
    · exact Or.inr ⟨n, hn, hunder, spot, value, hdisplays, hcalm n hn n hn rfl _ _ hn'⟩
  | write settings edits hwrites hnames hdocument hsettings =>
    obtain ⟨log, hlog, hshown⟩ := h.shown
    have hchain := hwrites.chain hdistinct hp helement
    rw [← hdocument] at hchain
    have hpage := hunder hwrites.opens
    have hspares := spares_top hdistinct hmem hpage htop
    refine ⟨hfollows, log ++ edits, ?_, fun setting hsetting => ?_⟩
    · rw [hdocument, hlog, List.foldl_append]
    · rw [hsettings] at hsetting
      rcases SettingScope.mem_settings_pushAll hsetting with hsetting | hsetting
      · rcases hshown setting hsetting with hold | ⟨n, hn, hunder, spot, value, hdisplays, hn'⟩
        · exact Or.inl hold
        · have hpass := hpasses hwrites.opens n hn spot value hn'
          obtain ⟨n', hmem', hid, hhas⟩ :=
            hchain.passes hdistinct hmem helement hn hpass hdisplays.hasAt
          obtain ⟨written, hwritten, hrefers⟩ := hdisplays.refers
          obtain ⟨touched, hevolves, -⟩ := hchain.evolves hdistinct
          have helement' := (hevolves.isElement_eq hdistinct hn hmem' hid).trans hdisplays.isElement
          refine Or.inr ⟨n', hmem', ?_, spot, value, ⟨helement', hhas, written, ?_, hrefers⟩,
            hcalm n hn n' hmem' hid spot value hn'⟩
          · rw [hid]
            exact hchain.isUnder (hdistinct.nodup_ids (tree_mem_nodes hmem)) hunder hspares hpass.node
          · rw [List.flatMap_append]
            exact List.mem_append_left _ hwritten
      · have hnew := hwrites.shows hdistinct hp helement hpage htop (List.forall_mem_map.2 hnames)
          setting.id (List.mem_map_of_mem hsetting)
        rw [← hdocument] at hnew
        obtain ⟨n, hn, hunder, spot, value, hdisplays, hleft⟩ := hnew
        obtain ⟨written, hwritten, hrefers⟩ := hdisplays.refers
        refine Or.inr ⟨n, hn, hunder, spot, value,
          ⟨hdisplays.isElement, hdisplays.hasAt, written, ?_, hrefers⟩, hleaves n spot value hleft⟩
        rw [List.flatMap_append]
        exact List.mem_append_right _ hwritten

end

/-- A node shows a setting by a content that marks it. -/
structure Marked (n : Tree) (spot : Spot) (value : String) : Prop where
  node : n.isMarked
  text : (Tree.ofText n.id value).isMarked
  named : ∀ name, spot = .value name → name = "href"

/-- A marked node does not stand at or below an open one. -/
theorem not_mem_ids_of_isMarked (hd : d.Distinct) (hp : p ∈ d.places)
    (hopen : isOpenText context p) (hn : n ∈ d.nodes) (hmarked : n.isMarked) : n.id ∉ p.tree.ids := by
  intro hin
  have hmem := tree_mem_nodes hp
  have hup : p.tree.isMarked :=
    Tree.isMarked_of_mem_nodes (hd.mem_nodes_of_id_mem hmem hn hin) hmarked
  simp only [isOpenText, isOpen, Bool.and_eq_true, Bool.not_eq_true'] at hopen
  exact absurd hup (by rw [show p.tree.isMarked = false from hopen.2.2]; decide)

/-- Visits that overwrite pass by what marked nodes show. -/
theorem Marked.passes (h : Marked n spot value) (hd : d.Distinct) (hp : p ∈ d.places)
    (hopen : isOpenText context p) (hn : n ∈ d.nodes) :
    Passes p manner n spot value := by
  have hnode := not_mem_ids_of_isMarked hd hp hopen hn h.node
  constructor
  case node => exact fun _ hin => absurd hin hnode
  case content =>
    intro c hc hkind _ hin
    exact absurd hin (not_mem_ids_of_isMarked hd hp hopen (mem_nodes_of_mem_children hn hc)
      (Tree.isMarked_of_kind hkind h.text))
  case other =>
    intro hself
    exact absurd (hself ▸ p.tree.id_mem_ids) hnode

theorem Leaves.toMarked (h : Leaves p manner n spot value) (hmanner : manner.overwrites) :
    Marked n spot value where
  node := (h.marked hmanner).1
  text := (h.marked hmanner).2
  named := by
    intro name hname
    have hin := h.named name hname
    cases manner with
    | content => exact List.mem_singleton.1 hin
    | renewal => exact List.mem_singleton.1 hin
    | image => cases hmanner
    | style => cases hmanner

/-- Nothing that was there comes to stand below a node that it did not stand below. -/
theorem Follows.below (h : Follows context d d') (hd : d.Distinct) (hp : p ∈ d.places)
    (hq : q ∈ d'.places) (hid : q.id = p.id) (hin : x ∈ q.tree.ids) (hx : x < d.next) :
    x ∈ p.tree.ids := by
  obtain ⟨touched, hbecomes, -⟩ := h.becomes hd hp hq hid
  exact hbecomes.below x hin hx

/-- The nodes are elements. -/
def AreElements (d : Document) (nodes : List NodeId) : Prop :=
  ∀ id ∈ nodes, ∃ q ∈ d.places, q.id = id ∧ q.isElement

theorem Follows.areElements (h : Follows context d d') (hd : d.Distinct)
    (hnodes : AreElements d nodes) : AreElements d' nodes := by
  intro id hid
  obtain ⟨q, hq, rfl, helement⟩ := hnodes id hid
  obtain ⟨touched, hevolves, -⟩ := h.evolves
  obtain ⟨n', hn', hbecomes⟩ := hevolves.exists_becomes hd (tree_mem_nodes hq)
  rw [← map_tree_places] at hn'
  obtain ⟨q', hq', rfl⟩ := List.mem_map.1 hn'
  exact ⟨q', hq', hbecomes.id, hbecomes.isElement.trans helement⟩

/-- Nodes that are still to be visited: elements, each on the page unless it is not open, and no open
one below another. -/
structure Queue (context : Context) (manner : Manner) (top : NodeId) (d : Document)
    (nodes : List NodeId) : Prop where
  nodup : nodes.Nodup
  elements : AreElements d nodes
  ready : ∀ id ∈ nodes, d.IsUnder top id ∨ ∀ q ∈ d.places, q.id = id → ¬ isOpenText context q
  apart : ∀ p ∈ d.places, ∀ q ∈ d.places, p.id ∈ nodes → q.id ∈ nodes → isOpenText context p →
    isOpenText context q → q.id ∈ p.tree.ids → q.id = p.id
  top : manner = .renewal → top ∉ nodes

/-- After a visit to the first node the others are still to be visited. -/
theorem Queue.visit (h : Queue context manner top s.document (p.id :: nodes))
    (hstep : Step context s p manner s') (hd : s.document.Distinct)
    (hp : s.document.place? p.id = some p) (helement : p.isElement)
    (htop : (manner.overwrites → isOpenText context p) → Spares p manner top) :
    Queue context manner top s'.document nodes := by
  have hmem := mem_places_of_place? hp
  have hfollows := hstep.follows hd hp helement
  obtain ⟨hfirst, hnodup⟩ := List.nodup_cons.1 h.nodup
  have htail : ∀ {id}, id ∈ nodes → id ∈ p.id :: nodes := List.mem_cons_of_mem _
  constructor
  case nodup => exact hnodup
  case elements =>
    exact hfollows.areElements hd fun id hid => h.elements id (htail hid)
  case ready =>
    intro id hid
    obtain ⟨q, hq, rfl, -⟩ := h.elements id (htail hid)
    by_cases hopen : isOpenText context q
    · left
      have hunder := (h.ready q.id (htail hid)).resolve_right fun hnot => hnot q hq rfl hopen
      refine hstep.isUnder hp helement hd hunder htop fun hopens hoverwrites hin => ?_
      have hsame := h.apart p hmem q hq List.mem_cons_self (htail hid) (hopens hoverwrites) hopen hin
      exact absurd (hsame ▸ hid) hfirst
    · right
      intro q' hq' hid' hopen'
      obtain ⟨m, hm, hmid, hmopen⟩ := hfollows.opened q' hq' hopen'
      exact hopen (hd.place_eq_of_id_eq hm hq (hmid.trans hid') ▸ hmopen)
  case apart =>
    intro a ha b hb hain hbin hopen hopen' hin
    obtain ⟨a₀, ha₀, haid, haopen⟩ := hfollows.opened a ha hopen
    obtain ⟨b₀, hb₀, hbid, hbopen⟩ := hfollows.opened b hb hopen'
    have hbelow := hfollows.below hd ha₀ ha haid.symm hin
      (hbid ▸ hd.fresh _ (id_mem_ids (tree_mem_nodes hb₀)))
    rw [← haid, ← hbid]
    exact h.apart a₀ ha₀ b₀ hb₀ (haid ▸ htail hain) (hbid ▸ htail hbin) haopen hbopen (hbid ▸ hbelow)
  case top => exact fun hrenewal hin => h.top hrenewal (htail hin)

/-- The node stands below no open node that is visited, or is one that stays. -/
def Clear (context : Context) (manner : Manner) (d : Document) (nodes : List NodeId) (x : NodeId) :
    Prop :=
  ∀ p ∈ d.places, p.id ∈ nodes → isOpenText context p → x ∈ p.tree.ids → x = p.id ∧ manner ≠ .renewal

/-- Going over nodes that give up their content shows what is collected, and leaves every node that
stands in the clear on the page. -/
theorem Progress.forEach_content (hmanner : manner.overwrites) {visit : Sweep → Place → Sweep}
    (hvisit : ∀ s p, s.document.place? p.id = some p → p.isElement →
      Step context s p manner (visit s p))
    (h : Progress context start top Marked s) (hqueue : Queue context manner top s.document nodes) :
    Progress context start top Marked (s.forEach nodes visit) ∧
      ∀ x, s.document.IsUnder top x → Clear context manner s.document nodes x →
        (s.forEach nodes visit).document.IsUnder top x := by
  induction nodes generalizing s with
  | nil => exact ⟨h, fun _ hunder _ => hunder⟩
  | cons id rest ih =>
    have hd := h.follows.distinct
    obtain ⟨p, hmem, rfl, helement⟩ := hqueue.elements id List.mem_cons_self
    have hp := hd.place? hmem
    have hstep := hvisit s p hp helement
    have hunder : (manner.overwrites → isOpenText context p) → s.document.IsUnder top p.id :=
      fun hopens => (hqueue.ready p.id List.mem_cons_self).resolve_right fun hnot =>
        hnot p hmem rfl (hopens hmanner)
    have htop : manner = .renewal → p.id ≠ top := fun hrenewal heq =>
      hqueue.top hrenewal (heq ▸ List.mem_cons_self)
    have hspares : (manner.overwrites → isOpenText context p) → Spares p manner top := fun hopens =>
      spares_top hd hmem (hunder hopens) htop
    have hfollows := hstep.follows hd hp helement
    have hnext : Progress context start top Marked (visit s p) := by
      refine h.visit hstep hp helement hunder htop (fun hopens n hn spot value hmarked =>
        hmarked.passes hd hmem (hopens hmanner) hn) (fun n hn n' hn' hid spot value hmarked =>
          ⟨?_, ?_, hmarked.named⟩) fun n spot value hleaves => hleaves.toMarked hmanner
      · exact (hstep.retold hp helement hd).isMarked hd hn hn' hid hmarked.node
      · exact hid ▸ hmarked.text
    obtain ⟨hall, hstay⟩ := ih hnext (hqueue.visit hstep hd hp helement hspares)
    rw [forEach_cons, hp]
    refine ⟨hall, fun x hx hclear => hstay x ?_ ?_⟩
    · exact hstep.isUnder hp helement hd hx hspares fun hopens _ hin =>
        hclear p hmem List.mem_cons_self (hopens hmanner) hin
    · intro q hq hqin hopen hin
      obtain ⟨q₀, hq₀, hid, hopen₀⟩ := hfollows.opened q hq hopen
      rw [← hid]
      exact hclear q₀ hq₀ (hid ▸ List.mem_cons_of_mem _ hqin) hopen₀
        (hfollows.below hd hq₀ hq hid.symm hin (hx.lt_next hd))

/-- What a node has at a spot is in no attribute that changes later: not in those of the nodes still to
be visited, and in none that later sweeps change. -/
def Free (manner : Manner) (nodes : List NodeId) (later : List String) (n : Tree) (spot : Spot)
    (_ : String) : Prop :=
  ∀ name, spot = .value name → (name ∈ manner.attributes → n.id ∉ nodes) ∧ name ∉ later

theorem spares_of_attributes (hmanner : manner.overwrites = false) (x : NodeId) :
    Spares p manner x := by
  intro hoverwrites
  rw [hmanner] at hoverwrites
  cases hoverwrites

/-- Going over different nodes on the page, to show settings in their attributes, shows what is
collected. -/
theorem Progress.forEach_attributes (hmanner : manner.overwrites = false) {later : List String}
    (hlater : ∀ name ∈ manner.attributes, name ∉ later) {visit : Sweep → Place → Sweep}
    (hvisit : ∀ s p, s.document.place? p.id = some p → p.isElement →
      Step context s p manner (visit s p))
    (h : Progress context start top (Free manner nodes later) s) (hnodup : nodes.Nodup)
    (helements : AreElements s.document nodes) (hunder : ∀ id ∈ nodes, s.document.IsUnder top id) :
    Progress context start top (Free manner [] later) (s.forEach nodes visit) := by
  induction nodes generalizing s with
  | nil => exact h
  | cons id rest ih =>
    have hd := h.follows.distinct
    obtain ⟨p, hmem, rfl, helement⟩ := helements id List.mem_cons_self
    obtain ⟨hfirst, hnodup⟩ := List.nodup_cons.1 hnodup
    have hp := hd.place? hmem
    have hstep := hvisit s p hp helement
    have hspares (x : NodeId) : Spares p manner x := spares_of_attributes hmanner x
    rw [forEach_cons, hp]
    refine ih (h.visit hstep hp helement (fun _ => hunder p.id List.mem_cons_self) (fun hrenewal => ?_)
      (fun _ n _ spot value hfree => ?_) (fun n _ n' _ hid spot value hfree => ?_)
      fun n spot value hleaves => ?_) hnodup
      ((hstep.follows hd hp helement).areElements hd fun id hid =>
        helements id (List.mem_cons_of_mem _ hid))
      fun id hid => hstep.isUnder hp helement hd (hunder id (List.mem_cons_of_mem _ hid))
        (fun _ => hspares _) fun _ => hspares _
    · rw [hrenewal] at hmanner
      cases hmanner
    · exact ⟨hspares _, fun c _ _ => hspares _, fun hself name hname hin =>
        (hfree name hname).1 hin (hself ▸ List.mem_cons_self)⟩
    · exact fun name hname => ⟨fun hin hrest =>
        (hfree name hname).1 hin (hid ▸ List.mem_cons_of_mem _ hrest), (hfree name hname).2⟩
    · exact fun name hname => ⟨fun _ hrest => hfirst (hleaves.visited hmanner ▸ hrest),
        hlater name (hleaves.named name hname)⟩

theorem Progress.mono (h : Progress context start top calm s)
    (hsub : ∀ n spot value, calm n spot value → calm' n spot value) :
    Progress context start top calm' s := by
  obtain ⟨log, hlog, hshown⟩ := h.shown
  refine ⟨h.follows, log, hlog, fun setting hsetting => ?_⟩
  refine (hshown setting hsetting).imp_right ?_
  rintro ⟨n, hn, hunder, spot, value, hdisplays, hcalm⟩
  exact ⟨n, hn, hunder, spot, value, hdisplays, hsub n spot value hcalm⟩

/-- No open node of a kind stands below another one at or below a node. -/
def Apart (context : Context) (selector : Selector) (r : Place) : Prop :=
  ∀ p ∈ r.descend, ∀ q ∈ p.descend, selector.holds p → selector.holds q → isOpenText context p →
    isOpenText context q → q.id = p.id

instance decidableApart (context : Context) (selector : Selector) (r : Place) :
    Decidable (Apart context selector r) :=
  inferInstanceAs (Decidable (∀ p ∈ r.descend, ∀ q ∈ p.descend, selector.holds p → selector.holds q →
    isOpenText context p → isOpenText context q → q.id = p.id))

theorem mem_descend_of_id_mem (hd : d.Distinct) (hp : p ∈ d.places) (hq : q ∈ d.places)
    (hin : q.id ∈ p.tree.ids) : q ∈ p.descend := by
  obtain ⟨q', hq', hid⟩ := Place.exists_mem_descend hin
  rwa [← hd.place_eq_of_id_eq (mem_places_descend hp hq') hq hid]

theorem isUnder_selected {r id : NodeId} {selector : Selector} (hid : id ∈ s.selected r selector) :
    s.document.IsUnder r id := by
  obtain ⟨t, ht, hid⟩ := List.mem_flatMap.1 hid
  obtain ⟨q, hq, rfl⟩ := List.mem_map.1 hid
  have ht := Option.mem_toList.1 ht
  exact ⟨t.tree, tree_mem_nodes (mem_places_of_place? ht), id_of_place? ht,
    Place.id_mem_of_mem_descend (List.mem_of_mem_filter hq)⟩

theorem areElements_selected (r : NodeId) (selector : Selector) :
    AreElements s.document (s.selected r selector) := by
  intro id hid
  obtain ⟨q, hq, hqid, hholds⟩ := mem_selected hid
  exact ⟨q, hq, hqid, Place.isElement_of_holds hholds⟩

section

variable {selector : Selector} {r : Place} (hfollows : Follows context d s.document)
  (hd : d.Distinct) (hr : r ∈ d.places)
include hfollows hd hr

/-- An open node that a sweep selects was open from the start, and of the same kind. -/
theorem exists_origin (hplain : selector.isPlain) (hp : p ∈ s.document.places)
    (hin : p.id ∈ s.selected r.id selector) (hopen : isOpenText context p) :
    ∃ p₀ ∈ r.descend, p₀.id = p.id ∧ selector.holds p₀ ∧ isOpenText context p₀ := by
  obtain ⟨p₀, hp₀, hid, hopen₀⟩ := hfollows.opened p hp hopen
  obtain ⟨q, hq, hqid, hholds⟩ := mem_selected hin
  obtain rfl := hfollows.distinct.place_eq_of_id_eq hq hp hqid
  obtain ⟨t, ht, htid, hbelow⟩ := isUnder_selected hin
  rw [← map_tree_places] at ht
  obtain ⟨u, hu, rfl⟩ := List.mem_map.1 ht
  have hunder := hfollows.below hd hr hu htid hbelow (hid ▸ hd.lt_next_of_place hp₀)
  rw [hfollows.holds_eq hd hp₀ hq hid.symm hplain] at hholds
  exact ⟨p₀, mem_descend_of_id_mem hd hr hp₀ (hid ▸ hunder), hid, hholds, hopen₀⟩

theorem queue_selected (hunder : s.document.IsUnder top r.id) (hplain : selector.isPlain)
    (hapart : Apart context selector r)
    (htop : manner = .renewal → top ∉ s.selected r.id selector) :
    Queue context manner top s.document (s.selected r.id selector) where
  nodup := selected_nodup hfollows.distinct r.id selector
  elements := areElements_selected r.id selector
  ready := fun _ hid => Or.inl (hunder.trans hfollows.distinct (isUnder_selected hid))
  top := htop
  apart := by
    intro p hp q hq hpin hqin hopen hopen' hin
    obtain ⟨p₀, hp₀, hpid, hholds, hopen₀⟩ := exists_origin hfollows hd hr hplain hp hpin hopen
    obtain ⟨q₀, hq₀, hqid, hholds', hopen₀'⟩ := exists_origin hfollows hd hr hplain hq hqin hopen'
    have hmem := mem_places_descend hr hq₀
    have hbelow := hfollows.below hd (mem_places_descend hr hp₀) hp hpid.symm hin
      (hqid ▸ hd.lt_next_of_place hmem)
    rw [← hpid, ← hqid]
    exact hapart p₀ hp₀ q₀ (mem_descend_of_id_mem hd (mem_places_descend hr hp₀) hmem (hqid ▸ hbelow))
      hholds hholds' hopen₀ hopen₀'

end

/-- The containers of navigation, but for those inside regions. -/
def containers (context : Context) (root : Place) : List Place :=
  (root.select navContainers).filter (!·.isWithinAny context.regions)

/-- The titles and links of navigation. -/
def navContents : Selector :=
  navTitles ++ .tags ["a"]

/-- Below an open title or link of a container of navigation stands no other container. -/
def ContainersStay (context : Context) (root : Place) : Prop :=
  ∀ c ∈ containers context root, ∀ p ∈ c.descend, navContents.holds p →
    isOpenText context p → ∀ other ∈ containers context root, other.id ∈ p.tree.ids → other.id = p.id

instance decidableContainersStay (context : Context) (root : Place) :
    Decidable (ContainersStay context root) :=
  inferInstanceAs (Decidable (∀ c ∈ containers context root, ∀ p ∈ c.descend,
    navContents.holds p → isOpenText context p →
      ∀ other ∈ containers context root, other.id ∈ p.tree.ids → other.id = p.id))

/-- No sweep comes to a node that it has taken off the page: below an open title, heading, paragraph,
link or button stands no other open one that the same sweep goes over. -/
structure Unnested (context : Context) (root : Place) : Prop where
  titles : ∀ c ∈ containers context root, Apart context navTitles c
  containers : ContainersStay context root
  headings : Apart context .headings root
  paragraphs : Apart context (.tags ["p"]) root
  buttons : Apart context (.tags ["a", "button"]) root

theorem Apart.mono {selector other : Selector} {r r' : Place} (h : Apart context other r)
    (hsub : selector ⊆ other) (hr : r' ∈ r.descend) : Apart context selector r' :=
  fun p hp q hq hholds hholds' => h p (Place.descend_trans hr hp) q hq
    (Selector.holds_of_subset hsub hholds) (Selector.holds_of_subset hsub hholds')

section

variable {root : Place} (hd : start.document.Distinct)
  (hroot : start.document.place? context.root = some root)
  (hunnested : Unnested context root)
include hd hroot hunnested

/-- Going over titles or links of a container leaves all containers on the page. -/
theorem Progress.forEach_container (h : Progress context start context.root Marked s)
    (hunder : ∀ c ∈ Sweep.containers context root, s.document.IsUnder context.root c.id) {c : Place}
    (hc : c ∈ Sweep.containers context root) {selector : Selector}
    (hsub : selector ⊆ navContents) (hplain : selector.isPlain)
    (hapart : Apart context selector c) {visit : Sweep → Place → Sweep}
    (hvisit : ∀ s p, Step context s p .content (visit s p)) :
    Progress context start context.root Marked (s.forEach (s.selected c.id selector) visit) ∧
      ∀ other ∈ Sweep.containers context root,
        (s.forEach (s.selected c.id selector) visit).document.IsUnder context.root other.id := by
  have hmem := mem_places_of_place? hroot
  have hplace : ∀ c ∈ Sweep.containers context root, c ∈ start.document.places := fun c hc =>
    mem_places_descend hmem (List.mem_filter.1 (List.mem_filter.1 hc).1).1
  have htop : Manner.content = .renewal → context.root ∉ s.selected c.id selector :=
    fun heq => by cases heq
  have hqueue := queue_selected h.follows hd (hplace c hc) (hunder c hc) hplain hapart htop
  obtain ⟨hafter, hstay⟩ := h.forEach_content rfl (fun s p _ _ => hvisit s p) hqueue
  refine ⟨hafter, fun other hother => hstay other.id (hunder other hother) ?_⟩
  intro p hp hin hopen hbelow
  obtain ⟨p₀, hp₀, hid, hholds, hopen₀⟩ := exists_origin h.follows hd (hplace c hc) hplain hp hin hopen
  have hbelow₀ := h.follows.below hd (mem_places_descend (hplace c hc) hp₀) hp hid.symm hbelow
    (hd.lt_next_of_place (hplace other hother))
  have hsame := hunnested.containers c hc p₀ hp₀ (Selector.holds_of_subset hsub hholds) hopen₀ other
    hother hbelow₀
  exact ⟨hsame.trans hid, by decide⟩

theorem Progress.navigation (h : Progress context start context.root Marked start) :
    Progress context start context.root Marked (Sweep.navigation context start) := by
  have hmem := mem_places_of_place? hroot
  have hunder : ∀ c ∈ Sweep.containers context root, start.document.IsUnder context.root c.id :=
    fun c hc => ⟨root.tree, tree_mem_nodes hmem, id_of_place? hroot,
      Place.id_mem_of_mem_descend (List.mem_filter.1 (List.mem_filter.1 hc).1).1⟩
  unfold Sweep.navigation
  rw [hroot, Option.toList_some, List.flatMap_singleton]
  refine (List.foldlRecOn (motive := fun s => Progress context start context.root Marked s ∧
    ∀ c ∈ Sweep.containers context root, s.document.IsUnder context.root c.id) _ _ ⟨h, hunder⟩ ?_).1
  rintro s ⟨h, hunder⟩ id hid
  obtain ⟨c, hc, rfl⟩ := List.mem_map.1 hid
  obtain ⟨htitles, hunder⟩ := h.forEach_container hd hroot hunnested hunder hc
    (List.subset_append_left _ _) (by decide) (hunnested.titles c hc) (step_visitNavTitle context)
  exact htitles.forEach_container hd hroot hunnested hunder hc (List.subset_append_right _ _)
    (by decide) (hunnested.buttons.mono (by decide) (List.mem_filter.1 (List.mem_filter.1 hc).1).1)
    (step_visitNavLink context)

omit hunnested in
/-- Going over the elements of a kind on the page. -/
theorem Progress.forEach_root (h : Progress context start context.root Marked s)
    (hmanner : manner.overwrites) {selector : Selector} (hplain : selector.isPlain)
    (hapart : Apart context selector root) (htop : manner = .renewal → selector.holds root = false)
    {visit : Sweep → Place → Sweep} (hvisit : ∀ s p, s.document.place? p.id = some p → p.isElement →
      Step context s p manner (visit s p)) :
    Progress context start context.root Marked
      (s.forEach (s.selected context.root selector) visit) := by
  have hmem := mem_places_of_place? hroot
  rw [← id_of_place? hroot] at h ⊢
  obtain ⟨touched, hevolves, -⟩ := h.follows.evolves
  obtain ⟨t, ht, hbecomes⟩ := hevolves.exists_becomes hd (tree_mem_nodes hmem)
  have hunder : s.document.IsUnder root.id root.id :=
    ⟨t, ht, hbecomes.id, show root.tree.id ∈ t.ids from hbecomes.id ▸ t.id_mem_ids⟩
  have hroot' : manner = .renewal → root.id ∉ s.selected root.id selector := by
    intro hrenewal hin
    obtain ⟨q, hq, hqid, hholds⟩ := mem_selected hin
    rw [h.follows.holds_eq hd hmem hq hqid hplain, htop hrenewal] at hholds
    cases hholds
  exact (h.forEach_content hmanner hvisit
    (queue_selected h.follows hd hmem hunder hplain hapart hroot')).1

end

theorem Progress.images (h : Progress context start context.root Marked s) :
    Progress context start context.root (Free .image [] ["style"]) (Sweep.images context s) := by
  refine (h.mono fun n spot value hmarked name hname => ?_).forEach_attributes rfl (by decide)
    (fun s p _ _ => step_visitImage context s p) (selected_nodup h.follows.distinct _ _)
    (areElements_selected _ _) fun _ hid => isUnder_selected hid
  obtain rfl := hmarked.named name hname
  exact ⟨fun hin => absurd hin (by decide), by decide⟩

theorem Progress.backgrounds (h : Progress context start context.root (Free .image [] ["style"]) s) :
    Progress context start context.root (Free .style [] []) (Sweep.backgrounds context s) := by
  refine (h.mono fun n spot value hfree name hname => ?_).forEach_attributes rfl
    (fun _ _ => List.not_mem_nil) (fun _ _ hp _ => step_visitBackground context hp)
    (selected_nodup h.follows.distinct _ _) (areElements_selected _ _) fun _ hid =>
      isUnder_selected hid
  exact ⟨fun hin => absurd hin (hfree name hname).2, List.not_mem_nil⟩

/-- All sweeps, one after the other. -/
theorem Progress.all {root : Place} (hd : start.document.Distinct)
    (hroot : start.document.place? context.root = some root) (hunnested : Unnested context root)
    (hwhole : (Selector.tags ["p"]).holds root = false)
    (h : Progress context start context.root Marked start) :
    Progress context start context.root (fun _ _ _ => True)
      ([Sweep.navigation, Sweep.headings, Sweep.paragraphs, Sweep.buttons, Sweep.images,
        Sweep.backgrounds].foldl (fun s sweep => sweep context s) start) := by
  simp only [List.foldl_cons, List.foldl_nil]
  have hnavigation := h.navigation hd hroot hunnested
  have hheadings : Progress context start context.root Marked (Sweep.headings context _) :=
    hnavigation.forEach_root hd hroot rfl (by decide) hunnested.headings
      (fun h => by cases h) fun s p _ _ => step_visitHeading context s p
  have hparagraphs : Progress context start context.root Marked (Sweep.paragraphs context _) :=
    hheadings.forEach_root hd hroot rfl (by decide) hunnested.paragraphs
      (fun _ => hwhole) fun _ _ hp helement => step_visitParagraph context hp helement
  have hbuttons : Progress context start context.root Marked (Sweep.buttons context _) :=
    hparagraphs.forEach_root hd hroot rfl (by decide) hunnested.buttons
      (fun h => by cases h) fun s p _ _ => step_visitButton context s p
  exact hbuttons.images.backgrounds.mono fun _ _ _ _ => trivial

end Sweep

namespace PageSettings

/-- Every setting that is collected from a page is shown on the page: an element that is there in the
end refers to it, in a text or an attribute that has been written. This is so unless a sweep comes to
a node that it has itself taken off the page before. -/
theorem shown_extract (options : Options) (seed : List Setting) (regions : List NodeId) {d : Document}
    (hd : d.Distinct) {root : Place} (hroot : root ∈ d.places)
    (hwhole : (Selector.tags ["p"]).holds root = false)
    (hunnested : Sweep.Unnested ⟨root.id, regions, options⟩ root) :
    let done := extract root.id regions options seed d
    ∃ log : List Edit, done.1 = log.foldl Document.apply d ∧
      ∃ top, done.1.place? root.id = some top ∧ ∀ setting ∈ done.2.settings,
        setting ∈ (SettingScope.start.pushAll seed).settings ∨
          ∃ n ∈ top.tree.nodes, ∃ spot value,
            Sweep.Displays (log.flatMap Edit.texts) setting.id n spot value := by
  simp only [extract]
  have hprogress : Sweep.Progress ⟨root.id, regions, options⟩ ⟨d, SettingScope.start.pushAll seed⟩
      root.id Sweep.Marked ⟨d, SettingScope.start.pushAll seed⟩ :=
    ⟨.refl hd, [], rfl, fun _ hsetting => Or.inl hsetting⟩
  have hall := hprogress.all hd (hd.place? hroot) hunnested hwhole
  have hdistinct := hall.follows.distinct
  obtain ⟨log, hlog, hshown⟩ := hall.shown
  obtain ⟨touched, hevolves, -⟩ := hall.follows.evolves
  obtain ⟨top, htop⟩ :=
    Document.exists_place? (hevolves.ids (Document.id_mem_ids (Document.tree_mem_nodes hroot)))
  refine ⟨log, hlog, top, htop, fun setting hsetting => (hshown setting hsetting).imp_right ?_⟩
  rintro ⟨n, hn, ⟨t, ht, hid, hin⟩, spot, value, hdisplays, -⟩
  have hmem := Document.tree_mem_nodes (Document.mem_places_of_place? htop)
  obtain rfl := hdistinct.eq_of_id_eq ht hmem (hid.trans (Document.id_of_place? htop).symm)
  exact ⟨n, hdistinct.mem_nodes_of_id_mem ht hn hin, spot, value, hdisplays⟩

/-- A page with a link in its navigation, a title and a picture. -/
def shopPage : Document :=
  Document.ofMarkup "<nav><a>Tea</a></nav><h1>Shop</h1><img src=a>"

theorem shown_extract_shopPage :
    let done := extract shopPage.body.id [] {} [] shopPage
    done.2.settings.map Setting.id = ["background_color", "text_color", "nav_link_1_text",
      "nav_link_1_url", "heading_1", "image_1"] ∧
      ∃ log : List Edit, done.1 = log.foldl Document.apply shopPage ∧
        ∃ top, done.1.place? shopPage.body.id = some top ∧ ∀ setting ∈ done.2.settings,
          setting ∈ (SettingScope.start.pushAll []).settings ∨
            ∃ n ∈ top.tree.nodes, ∃ spot value,
              Sweep.Displays (log.flatMap Edit.texts) setting.id n spot value := by
  have hdistinct : shopPage.Distinct := Document.distinct_ofMarkup _
  have hwhole : (Selector.tags ["p"]).holds shopPage.body = false := by decide +kernel
  have hunnested : (∀ c ∈ Sweep.containers ⟨shopPage.body.id, [], {}⟩ shopPage.body,
      Sweep.Apart ⟨shopPage.body.id, [], {}⟩ Sweep.navTitles c) ∧
        Sweep.ContainersStay ⟨shopPage.body.id, [], {}⟩ shopPage.body ∧
        ∀ selector ∈ [.headings, .tags ["p"], .tags ["a", "button"]],
          Sweep.Apart ⟨shopPage.body.id, [], {}⟩ selector shopPage.body := by
    decide +kernel
  obtain ⟨htitles, hcontainers, hapart⟩ := hunnested
  simp only [List.forall_mem_cons] at hapart
  exact ⟨by decide +kernel, shown_extract {} [] [] hdistinct (Document.body_mem_places _)
    hwhole ⟨htitles, hcontainers, hapart.1, hapart.2.1, hapart.2.2.1⟩⟩

end PageSettings

end ThemeSection
