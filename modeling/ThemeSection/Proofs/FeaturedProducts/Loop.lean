import ThemeSection.Proofs.Assets
import ThemeSection.Proofs.Block.Fidelity
import ThemeSection.Proofs.Document.Gap
import ThemeSection.Proofs.FeaturedProducts

/-!
Where products are replaced. Of a row of siblings that look like products the first stays in its
place, with the loop around it, and the others are taken out. The rest of the document is as it was.
That the first stays is not plain, as the parts of a card that are written to or taken out may be
the card itself. But all that is done to them happens inside the gap in which the card stands, and of
the paragraphs that are taken out none is the card, which would be the first of them.
-/

namespace ThemeSection

open Markup Liquid Document

namespace FeaturedPass

/-- A text that names no setting. -/
def NamesNone (s : String) : Prop :=
  ∀ owner, references owner s = []

theorem namesNone_output {expression : String}
    (h : Silent (' ' :: (expression.toList ++ [' '])) ∧ Bare expression.toList) :
    NamesNone (output expression) := by
  intro owner
  have hsound : Sound (fun _ _ => False) (output expression) := sound_product h
  refine List.eq_nil_iff_forall_not_mem.2 fun id hid => ?_
  obtain ⟨t, ht, hid⟩ := List.mem_flatMap.1 hid
  exact hsound.fits t ht owner id hid

section Card

variable {g : Gap} {good : String → Prop} {start d : Document} {card : Place} {x : NodeId}
  (hgood : ∀ s, NamesNone s → good s)
include hgood

theorem confined_bindImage (h : Confined g x good d) {image : NodeId} (himage : image ∉ g.ids) :
    Confined g x good (bindImage d image) := by
  have hsource : NamesNone (output "product.featured_image | image_url: width: 600") :=
    namesNone_output (by decide)
  have halt : NamesNone (output "product.featured_image.alt | escape") :=
    namesNone_output (by decide)
  have h := h.setAttribute himage "src" (hgood _ hsource)
  have h := h.setAttribute himage "alt" (hgood _ halt)
  exact h.removeAttributes himage _

/-- The paragraphs stand in document order, so none but the first can be the card. -/
theorem confined_bindDescription (h : Confined g card.id good d) (hcard : card.Distinct)
    {paragraphs : List Place} (horder : paragraphs.Sublist card.descend)
    (haway : ∀ p ∈ card.descend, p.id ∉ g.ids) :
    Confined g card.id good (bindDescription d paragraphs) := by
  cases paragraphs with
  | nil => exact h
  | cons first rest =>
    have htext : NamesNone (output "product.description | strip_html | truncate: 120") :=
      namesNone_output (by decide)
    have hbelow : (rest.map Place.id).Sublist card.tree.ids.tail := by
      rw [← Place.map_id_descend]
      exact (horder.map Place.id).tail
    have hfirst : card.id ∉ card.tree.ids.tail := Tree.not_mem_tail_ids hcard.nodup_ids
    have h := h.setText (haway first (horder.subset List.mem_cons_self)) (hgood _ htext)
    refine h.detachAll (List.forall_mem_map.2 fun p hp => ⟨?_, fun heq => ?_⟩)
    · exact haway p (horder.subset (List.mem_cons_of_mem _ hp))
    · exact hfirst (heq ▸ hbelow.subset (List.mem_map_of_mem hp))

theorem confined_bindProduct (h : Confined g card.id good start) (hcard : card ∈ start.places) :
    Confined g card.id good (bindProduct start card) := by
  have haway : ∀ p ∈ card.descend, p.id ∉ g.ids := fun p hp =>
    h.not_mem_ids (h.distinct.place? hcard) hp
  have hpart := BlockParts.mem_descend_locate card
  have hdescription : (BlockParts.locate card).description.Sublist card.descend :=
    List.filter_sublist.trans (card.select_sublist _)
  unfold bindProduct
  extract_lets parts titled priced pictured described
  have htitled : Confined g card.id good titled := by
    have htext : NamesNone (output "product.title") := namesNone_output (by decide)
    unfold titled
    split
    case h_1 p hp =>
      exact h.setText (haway p (hpart parts.heading (by simp [parts]) p hp)) (hgood _ htext)
    case h_2 => exact h
  have hpriced : Confined g card.id good priced := by
    have htext : NamesNone (output "product.price | money") := namesNone_output (by decide)
    unfold priced
    split
    case h_1 p hp =>
      exact htitled.setText (haway p (hpart parts.price (by simp [parts]) p hp)) (hgood _ htext)
    case h_2 => exact htitled
  have hpictured : Confined g card.id good pictured := by
    unfold pictured
    split
    case h_1 p hp =>
      exact confined_bindImage hgood hpriced (haway p (hpart parts.image (by simp [parts]) p hp))
    case h_2 => exact hpriced
  have hdescribed : Confined g card.id good described :=
    confined_bindDescription hgood hpictured (h.distinct.place_distinct hcard) hdescription haway
  have hurl : NamesNone (output "product.url") := namesNone_output (by decide)
  -- The links are those of the card as it is by now.
  have hanchors : ∀ a ∈ (described.place? card.id).toList.flatMap (·.select (.tags ["a"])),
      a.id ∉ g.ids := by
    intro a ha
    obtain ⟨p, hp, ha⟩ := List.mem_flatMap.1 ha
    exact hdescribed.not_mem_ids (Option.mem_toList.1 hp) (List.mem_of_mem_filter ha)
  exact List.foldlRecOn (motive := Confined g card.id good) _
    (fun d (a : Place) => d.setAttribute a.id "href" (output "product.url")) hdescribed
    fun _ h (a : Place) ha => h.setAttribute (hanchors a ha) "href" (hgood _ hurl)

end Card

theorem evolves_bindProduct {start : Document} {card : Place} (hstart : start.Distinct)
    (hcard : card ∈ start.places) : ∃ touched, start.Evolves touched (bindProduct start card) := by
  have hturns : Turns (fun _ _ => True) (fun _ => True) (fun _ => True) [] start []
      (bindProduct start card) := turns_bindProduct hstart hcard
  exact hturns.evolves hstart

/-- A loop in the place of siblings that look like products. -/
structure Loop where
  /-- The node whose children they are. -/
  parent : Place
  /-- The first of them. -/
  kept : Place
  others : List Place
  /-- What the first has become. -/
  card : Tree
  /-- The id of the text before the card. -/
  opening : NodeId
  /-- The id of the text after it. -/
  closing : NodeId

namespace Loop

/-- A tree inside the loop. -/
def around (l : Loop) (pageType : PageType) (t : Tree) : List Tree :=
  [.ofText l.opening (loopOpen pageType), t, .ofText l.closing endFor]

/-- What stands in the place of a child: the card inside the loop for the first of the products, and
nothing for the others. -/
def row (l : Loop) (pageType : PageType) (t : Tree) : List Tree :=
  if t.id = l.kept.id then l.around pageType l.card
  else if t.id ∈ l.others.map Place.id then []
  else [t]

/-- A document with the loop in the place of the products. -/
def putIn (l : Loop) (pageType : PageType) (d : Document) : Document :=
  d.update l.parent.id fun t => t.withChildren (t.children.flatMap (l.row pageType))

/-- The products are siblings, in their order, that look alike and are likely to be products: as
likely as is asked for, up to an error of rounding. -/
structure Over (l : Loop) (root : Place) (minConfidence : Float) : Prop where
  parent_mem : l.parent ∈ root.descend
  ordered : (l.kept :: l.others).Sublist l.parent.children
  others_ne_nil : l.others ≠ []
  alike : ∃ look, ∀ p ∈ l.kept :: l.others, Fragment.signature? p.tree = some look
  products : ∀ p ∈ l.kept :: l.others, isProduct minConfidence p

/-- The card is the first of the products still. What stands in it stood there before or is new, and
what is written in it was written there before or names no setting. -/
structure Shows (l : Loop) (start : Document) : Prop where
  id : l.card.id = l.kept.id
  tag : l.card.tag? = l.kept.tree.tag?
  ids : ∀ i ∈ l.card.ids, i < start.next → i ∈ l.kept.tree.ids
  texts : l.card.AllTexts fun s => s ∈ l.kept.tree.writtenTexts ∨ NamesNone s

/-- The loop has taken the place of the products, and nothing else has changed. -/
structure Replaces (l : Loop) (pageType : PageType) (start d : Document) : Prop where
  distinct : d.Distinct
  opening : start.next ≤ l.opening
  closing : start.next ≤ l.closing
  root : d.root = (l.putIn pageType start).root
  loose : ∃ out, d.loose = (l.putIn pageType start).loose ++ out ∧ ∀ p ∈ l.others, p.tree ∈ out
  /-- The others are out of the tree, with all that stands in them. -/
  gone : ∀ p ∈ l.others, ∀ i ∈ p.tree.ids, i ∉ d.root.ids

/-- What is told of the loop. -/
structure Tells (l : Loop) (pageType : PageType) (pass : FeaturedPass) : Prop where
  region : pass.region = some l.kept.id
  count : ∃ setting ∈ pass.settings, setting.id = countSetting ∧ ∃ least count most,
    setting.min = some (.ofNat least) ∧ setting.default = some (.ofNat count) ∧
      setting.max = some (.ofNat most) ∧ count = min (l.others.length + 1) maxProducts ∧
      least ≤ count ∧ count ≤ most
  /-- The loop refers to the settings that are returned, and to no others. -/
  settings : references .whole (loopOpen pageType) ++ references .whole endFor =
    pass.settings.map Setting.id

variable {l : Loop} {g : Gap} {pageType : PageType} {root : Place} {start d : Document}
  {minConfidence : Float} {out : List Tree}

theorem flatMap_row {ts : List Tree} (h : ∀ t ∈ ts, t.id ≠ l.kept.id) :
    (ts.filter (·.id ∉ l.others.map Place.id)).flatMap
        (fun t => if t.id = l.kept.id then l.around pageType t else [t]) =
      ts.flatMap (l.row pageType) := by
  induction ts with
  | nil => rfl
  | cons t rest ih =>
    obtain ⟨hne, hrest⟩ := List.forall_mem_cons.1 h
    rw [List.filter_cons, List.flatMap_cons, ← ih hrest]
    by_cases hout : t.id ∈ l.others.map Place.id
    · rw [if_neg (by simpa using hout), row, if_neg hne, if_pos hout, List.nil_append]
    · rw [if_pos (by simpa using hout), row, if_neg hne, if_neg hout, List.flatMap_cons, if_neg hne]

theorem id_ne_of_level {level : Level} {t c : Tree} (h : (level.close t).ids.Nodup)
    (hc : c ∈ level.before.reverse ++ level.after) : c.id ≠ t.id := fun heq => by
  have hnodup := (level.ids_close t).nodup_iff.1 h
  exact (List.nodup_append.1 hnodup).2.2 _ t.id_mem_ids _
    (List.mem_cons_of_mem _ (List.mem_flatMap.2 ⟨c, hc, c.id_mem_ids⟩)) heq.symm

/-- The others are children still once another tree stands in the place of the first. -/
theorem subset_children_close {level : Level} {parent kept : Place} {others : List Place}
    (hlevel : level.close kept.tree = parent.tree)
    (hordered : (kept :: others).Sublist parent.children)
    (hgroup : ((kept :: others).map Place.id).Nodup) (card : Tree) :
    others.map Place.tree ⊆ (level.close card).children := by
  intro c hc
  obtain ⟨p, hp, rfl⟩ := List.mem_map.1 hc
  have hchild : p.tree ∈ (level.close kept.tree).children := by
    rw [hlevel, ← Place.map_tree_children]
    exact List.mem_map_of_mem (hordered.subset (List.mem_cons_of_mem _ hp))
  have hne : p.tree ≠ kept.tree := fun heq =>
    (List.nodup_cons.1 hgroup).1 (List.mem_map.2 ⟨p, hp, congrArg Tree.id heq⟩)
  rw [Level.close, Tree.children, List.mem_append, List.mem_cons] at hchild ⊢
  exact hchild.imp_right fun hc => .inr (hc.resolve_left hne)

/-- Taking out the others and putting the loop around the card makes the row of the children. -/
theorem flatMap_row_close {level : Level} (hnodup : (level.close l.kept.tree).ids.Nodup)
    (hid : l.card.id = l.kept.id) (hothers : l.kept.id ∉ l.others.map Place.id) :
    ((level.close l.card).children.filter (·.id ∉ l.others.map Place.id)).flatMap
        (fun t => if t.id = l.kept.id then l.around pageType t else [t]) =
      (level.close l.kept.tree).children.flatMap (l.row pageType) := by
  obtain ⟨hbefore, hafter⟩ := List.forall_mem_append.1 fun c hc => id_ne_of_level hnodup hc
  have hcard : decide (l.card.id ∉ l.others.map Place.id) = true := decide_eq_true (hid ▸ hothers)
  have hrow : l.row pageType l.kept.tree = l.around pageType l.card := if_pos rfl
  rw [Level.close, Level.close, Tree.children, Tree.children, List.filter_append,
    List.filter_cons, if_pos hcard, List.flatMap_append, List.flatMap_cons, flatMap_row hbefore,
    flatMap_row hafter, if_pos hid, List.flatMap_append, List.flatMap_cons, hrow]

/-- Where the first product has become the card, taking out the others and putting the loop around
it replaces them. -/
theorem trees_wrap_detachAll (l : Loop) (pageType : PageType) {level : Level} (hd : d.Distinct)
    (htrees : d.trees = g.fill (level.close l.card) ++ out)
    (hnodup : (level.close l.kept.tree).ids.Nodup) (hid : l.card.id = l.kept.id)
    (hothers : l.others.map Place.tree ⊆ (level.close l.card).children)
    (hgroup : ((l.kept :: l.others).map Place.id).Nodup)
    (hopening : l.opening = (d.detachAll (l.others.map Place.id)).next)
    (hclosing : l.closing = (d.detachAll (l.others.map Place.id)).next + 1) :
    ((d.detachAll (l.others.map Place.id)).wrap l.kept.id (loopOpen pageType) endFor).trees =
      g.fill (.node level.id level.kind
          ((level.close l.kept.tree).children.flatMap (l.row pageType))) ++
        (out ++ l.others.map Place.tree) := by
  obtain ⟨hkept, hrest⟩ := List.nodup_cons.1 hgroup
  have hids : l.others.map Place.id = (l.others.map Place.tree).map Tree.id := by
    rw [List.map_map]
    rfl
  have hcard : l.card ∈ (level.close l.card).children.filter (·.id ∉ l.others.map Place.id) :=
    List.mem_filter.2 ⟨Place.mem_children_close level l.card, decide_eq_true (hid ▸ hkept)⟩
  have hdetached : (d.detachAll (l.others.map Place.id)).trees = g.fill (.node level.id level.kind
      ((level.close l.card).children.filter (·.id ∉ l.others.map Place.id))) ++
        (out ++ l.others.map Place.tree) := by
    rw [hids] at hrest ⊢
    exact hd.trees_detachAll_children htrees hothers hrest
  have hwrapped := (hd.detachAll _).trees_splice_child hdetached hcard (l.around pageType)
  have haround : l.around pageType = fun t =>
      [.ofText (d.detachAll (l.others.map Place.id)).next (loopOpen pageType), t,
        .ofText ((d.detachAll (l.others.map Place.id)).next + 1) endFor] := by
    funext t
    rw [around, hopening, hclosing]
  rw [hid, flatMap_row_close hnodup hid hkept] at hwrapped
  rw [← hwrapped, haround]
  rfl

theorem trees_putIn (hd : d.Distinct) (htrees : d.trees = g.fill l.parent.tree) :
    (l.putIn pageType d).trees = g.fill (.node l.parent.tree.id l.parent.tree.kind
      (l.parent.tree.children.flatMap (l.row pageType))) := by
  have hparent : l.parent.tree.id ∉ g.ids := fun hin => by
    have hnodup := hd.nodup_fill (htrees.trans (List.append_nil _).symm)
    exact (List.nodup_append.1 hnodup).2.2 _ l.parent.tree.id_mem_ids _
      (List.mem_append_left _ hin) rfl
  rw [putIn, trees_update, htrees, Place.id, Gap.map_update_fill hparent, Tree.update_of_eq rfl]
  obtain ⟨id, kind, children⟩ := l.parent.tree
  rfl

/-- Showing the product turns the first of the products into the card, and nothing around it
changes. -/
theorem exists_shows (hstart : start.Distinct) {kept : Place} (hkept : kept ∈ start.places)
    (htrees : start.trees = g.fill kept.tree) :
    ∃ card out, (bindProduct start kept).trees = g.fill card ++ out ∧
      ∀ parent others opening closing,
        (⟨parent, kept, others, card, opening, closing⟩ : Loop).Shows start := by
  have hbefore : Confined g kept.id (fun s => s ∈ kept.tree.writtenTexts ∨ NamesNone s) start :=
    ⟨hstart, kept.tree, [], rfl, fun _ => .inl, htrees.trans (List.append_nil _).symm⟩
  obtain ⟨-, card, out, hid, htexts, hbound⟩ := confined_bindProduct (fun _ => .inr) hbefore hkept
  obtain ⟨touched, hevolves⟩ := evolves_bindProduct hstart hkept
  have hcard : card ∈ (bindProduct start kept).nodes := tree_mem_nodes (mem_places_fill hbound)
  obtain ⟨m, hm, hbecomes⟩ :=
    (hevolves.source card hcard).old (hid ▸ hstart.lt_next_of_place hkept)
  obtain rfl : m = kept.tree :=
    hstart.eq_of_id_eq hm (tree_mem_nodes hkept) (hbecomes.id.symm.trans hid)
  exact ⟨card, out, hbound, fun _ _ _ _ => ⟨hid, hbecomes.tag?, hbecomes.below, htexts⟩⟩

theorem replaces_of_trees (hd : d.Distinct) (hopening : start.next ≤ l.opening)
    (hclosing : start.next ≤ l.closing)
    (htrees : d.trees = (l.putIn pageType start).trees ++ (out ++ l.others.map Place.tree)) :
    l.Replaces pageType start d := by
  obtain ⟨hroot, hloose⟩ := List.cons.inj htrees
  have hout : ∀ p ∈ l.others, p.tree ∈ out ++ l.others.map Place.tree := fun p hp =>
    List.mem_append_right _ (List.mem_map_of_mem hp)
  refine ⟨hd, hopening, hclosing, hroot, ⟨_, hloose, hout⟩, fun p hp i hi hin => ?_⟩
  have hnodup := hd.nodup
  rw [Document.ids, Document.trees, List.flatMap_cons] at hnodup
  have hmem : p.tree ∈ d.loose := hloose ▸ List.mem_append_right _ (hout p hp)
  exact (List.nodup_append.1 hnodup).2.2 i hin i (List.mem_flatMap.2 ⟨p.tree, hmem, hi⟩) rfl

theorem tells_replaced (hothers : l.others ≠ []) : l.Tells pageType
    { region := some l.kept.id
      settings := settingsFor pageType (l.others.length + 1)
      changes := [.replacedProducts (l.others.length + 1)] } where
  region := rfl
  count := by
    have hseveral := List.length_pos_iff.2 hothers
    refine ⟨_, List.mem_append_right _ List.mem_cons_self, rfl, minProducts, _, maxProducts, rfl,
      rfl, rfl, ?_, ?_, ?_⟩ <;> simp only [minProducts, maxProducts] <;> omega
  settings := references_loop pageType (l.others.length + 1)

/-- Once the first of a group of siblings shows the product, taking out the others and putting the
loop around the first replaces the group. -/
theorem exists_replaces (hstart : start.Distinct) {parent kept : Place} {others : List Place}
    (hplace : parent ∈ start.places) (hordered : (kept :: others).Sublist parent.children)
    (pageType : PageType) :
    ∃ card opening closing, (⟨parent, kept, others, card, opening, closing⟩ : Loop).Shows start ∧
      (⟨parent, kept, others, card, opening, closing⟩ : Loop).Replaces pageType start
        (((bindProduct start kept).detachAll (others.map Place.id)).wrap kept.id
          (loopOpen pageType) endFor) := by
  have hnodup := hstart.nodup_ids (tree_mem_nodes hplace)
  have hkept : kept ∈ parent.children := hordered.subset List.mem_cons_self
  have hkept' : kept ∈ start.places :=
    mem_places_descend hplace (parent.children_sublist.subset hkept)
  have hgroup : ((kept :: others).map Place.id).Nodup := by
    refine ((hordered.trans parent.children_sublist).map Place.id).nodup ?_
    rwa [Place.map_id_descend]
  -- The document is cut open at the parent, and there at the first of the group.
  obtain ⟨g, -, htrees⟩ := exists_fill hplace
  obtain ⟨level, -, hlevel⟩ := Place.close_of_mem_children hkept
  have hfill : start.trees = (g.below level).fill kept.tree := by
    rw [Gap.fill_below, hlevel, htrees]
  obtain ⟨card, out, hbound, hshows⟩ := exists_shows hstart hkept' hfill
  rw [Gap.fill_below] at hbound
  obtain ⟨_, hevolves⟩ := evolves_bindProduct hstart hkept'
  have hsiblings := subset_children_close hlevel hordered hgroup card
  have hnext : start.next ≤ ((bindProduct start kept).detachAll (others.map Place.id)).next := by
    rw [next_detachAll]
    exact hevolves.next_le
  let l : Loop := ⟨parent, kept, others, card,
    ((bindProduct start kept).detachAll (others.map Place.id)).next,
    ((bindProduct start kept).detachAll (others.map Place.id)).next + 1⟩
  have hwrapped := trees_wrap_detachAll l pageType hevolves.distinct hbound (hlevel ▸ hnodup)
    (hshows _ _ _ _).id hsiblings hgroup rfl rfl
  have hput : (l.putIn pageType start).trees = g.fill (.node level.id level.kind
      ((level.close kept.tree).children.flatMap (l.row pageType))) := by
    have hparent : l.parent.tree = level.close kept.tree := hlevel.symm
    rw [trees_putIn hstart htrees, hparent]
    rfl
  rw [← hput] at hwrapped
  have hdistinct := (evolves_wrap (hevolves.distinct.detachAll (others.map Place.id)) kept.id
    (loopOpen pageType) endFor).distinct
  exact ⟨card, l.opening, l.closing, hshows _ _ _ _,
    replaces_of_trees hdistinct hnext (Nat.le_succ_of_le hnext) hwrapped⟩

end Loop

/-- If no siblings that look alike have two likely products among them, nothing changes. Otherwise
the first of at least two siblings that look alike and like products stays in its place with the loop
around it, the others are taken out, and all else is as it was. -/
theorem replace_eq_or_exists_loop {root : Place} {start : Document} (hstart : start.Distinct)
    (hroot : root ∈ start.places) (pageType : PageType) (options : Options) :
    (∀ group ∈ Fragment.siblingGroups root,
        (group.filter (isProduct options.featuredMinConfidence)).length < minProducts) ∧
      replace root pageType options start = (start, {}) ∨
    ∃ l : Loop, l.Over root options.featuredMinConfidence ∧ l.Shows start ∧
      l.Replaces pageType start (replace root pageType options start).1 ∧
      l.Tells pageType (replace root pageType options start).2 := by
  cases hproducts : products? root options.featuredMinConfidence with
  | none =>
    left
    rw [replace, hproducts]
    refine ⟨fun group hgroup => ?_, rfl⟩
    have hfew := List.find?_eq_none.1 hproducts _ (List.mem_map_of_mem hgroup)
    simpa using hfew
  | some products =>
    right
    obtain ⟨parent, hparent, hordered, hseveral, halike, hlikely⟩ := alike_of_products? hproducts
    obtain ⟨kept, others, rfl⟩ := List.exists_cons_of_length_pos
      (Nat.lt_of_lt_of_le (by decide) hseveral : 0 < products.length)
    have hothers : others ≠ [] := fun hnone => by simp [hnone, minProducts] at hseveral
    obtain ⟨card, opening, closing, hshows, hreplaces⟩ :=
      Loop.exists_replaces hstart (mem_places_descend hroot hparent) hordered pageType
    rw [replace, hproducts]
    exact ⟨⟨parent, kept, others, card, opening, closing⟩,
      ⟨hparent, hordered, hothers, halike, hlikely⟩, hshows, hreplaces, Loop.tells_replaced hothers⟩

/-- Two cards with an image, a title and a price. -/
def mugPage : Document :=
  let card := "<div class=\"item\"><img src=\"/mug.jpg\"><h3>Mug</h3><b class=\"price\">$12</b></div>"
  Document.ofMarkup (card ++ card)

theorem exists_loop_mugPage :
    (mugPage.Distinct ∧ mugPage.body ∈ mugPage.places) ∧
      let replaced := replace mugPage.body .page {} mugPage
      ∃ l : Loop, (l.kept :: l.others).map Place.id =
          (mugPage.body.select (.classes ["item"])).map Place.id ∧
        l.Over mugPage.body 0.6 ∧ l.Shows mugPage ∧ l.Replaces .page mugPage replaced.1 ∧
        l.Tells .page replaced.2 := by
  have hd : mugPage.Distinct := Document.distinct_ofMarkup _
  have hroot := Document.body_mem_places mugPage
  refine ⟨⟨hd, hroot⟩, ?_⟩
  obtain ⟨hmade, htwo, hgroups⟩ : (replace mugPage.body .page {} mugPage).2.region.isSome ∧
      (mugPage.body.select (.classes ["item"])).length = 2 ∧
      ∀ p ∈ mugPage.body.descend, let likely := p.children.filter (isProduct 0.6)
        likely.map Place.id = (mugPage.body.select (.classes ["item"])).map Place.id ∨
          likely.length < 2 := by
    decide +kernel
  obtain ⟨-, hsame⟩ | ⟨l, hover, hloop⟩ := replace_eq_or_exists_loop hd hroot .page {}
  · rw [hsame] at hmade
    cases hmade
  · refine ⟨l, ?_, hover, hloop⟩
    have hseveral : 2 ≤ (l.kept :: l.others).length :=
      Nat.succ_le_succ (List.length_pos_iff.2 hover.others_ne_nil)
    have hlikely : (l.kept :: l.others).Sublist (l.parent.children.filter (isProduct 0.6)) := by
      have hall := hover.ordered.filter (isProduct 0.6)
      rwa [List.filter_eq_self.2 hover.products] at hall
    rcases hgroups l.parent hover.parent_mem with hids | hfew
    · refine (hids ▸ hlikely.map Place.id).eq_of_length_le ?_
      rw [List.length_map, List.length_map, htwo]
      exact hseveral
    · exact absurd (Nat.le_trans hseveral hlikely.length_le) (Nat.not_le.2 hfew)

/-- Two cards with a price and a button, which make a confidence next below 0.45. -/
def dealPage : Document :=
  let card := "<p class=\"deal\">$5<button>Buy</button></p>"
  Document.ofMarkup (card ++ card)

/-- Siblings are replaced whose confidence is not at or above what is asked for. -/
theorem not_eq_or_exists_sure_loop :
    let replaced := replace dealPage.body .page { featuredMinConfidence := 0.45 } dealPage
    ¬ (replaced = (dealPage, {}) ∨ ∃ l : Loop, l.Over dealPage.body 0.45 ∧
      (∀ p ∈ l.kept :: l.others, (Fragment.productSignals p).confidence ≥ 0.45) ∧
      l.Shows dealPage ∧ l.Replaces .page dealPage replaced.1 ∧ l.Tells .page replaced.2) := by
  obtain ⟨hmade, hunsure⟩ :
      (replace dealPage.body .page { featuredMinConfidence := 0.45 } dealPage).2.region.isSome ∧
        ∀ p ∈ dealPage.body.descend, ∀ c ∈ p.children,
          ¬ (Fragment.productSignals c).confidence ≥ 0.45 := by
    decide +kernel
  dsimp only
  rintro (hsame | ⟨l, hover, hsure, -⟩)
  · rw [hsame] at hmade
    cases hmade
  · exact hunsure l.parent hover.parent_mem l.kept (hover.ordered.subset List.mem_cons_self)
      (hsure l.kept List.mem_cons_self)

end FeaturedPass

end ThemeSection
