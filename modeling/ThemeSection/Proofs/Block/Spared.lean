import ThemeSection.Proofs.Block.ColumnParts
import ThemeSection.Proofs.Block.Parts
import ThemeSection.Proofs.Document.Held
import ThemeSection.Proofs.Selector.Local

/-!
Elements that are spared when they are bound. A selector may select the element itself, so that the
element may be its own paragraph, its own link or its own menu. Whether it is can be told from the
element alone: of the roles only that of a header asks what stands around it.
-/

namespace ThemeSection

open Markup

namespace BlockRole

/-- The parts of an element that come to stand elsewhere when it is bound: another element takes
their place, they are taken out, or texts are put around them. -/
def moved (role : BlockRole) (root : Place) : List Place :=
  match role with
  | .generic => (BlockParts.locate root).description
  | .header =>
    let parts := HeaderParts.locate root
    if parts.mobileLinks.isEmpty then [] else parts.mobileMenu.toList
  | .footerColumn => (FooterParts.locate root).paragraphs
  | .teamMember =>
    (BlockParts.locate root).description.filter (fun p => !(teamLinks root).any (p.overlaps ·.1))
      ++ (teamLinks root).map (·.1)
  | .beforeAfter => []

/-- The links of an element that may take the item of a list with them. -/
def links (role : BlockRole) (root : Place) : List Place :=
  match role with
  | .header => (HeaderParts.locate root).nav ++ (HeaderParts.locate root).mobileLinks
  | .footerColumn => (FooterParts.locate root).anchors
  | _ => []

/-- The parts of an element that may be taken out when it is bound: all paragraphs and links of a kind
but the first, and the links of a header that there may be no setting for. -/
def takenOut (role : BlockRole) (root : Place) : List Place :=
  match role with
  | .generic => (BlockParts.locate root).description.tail
  | .header =>
    (HeaderParts.locate root).nav.drop BlockInstance.maxNavLinks ++
      (HeaderParts.locate root).mobileLinks
  | .footerColumn =>
    let parts := FooterParts.locate root
    parts.paragraphs.tail ++ (parts.links.tail ++ parts.socials.tail)
  | .teamMember =>
    ((BlockParts.locate root).description.filter
      fun p => !(teamLinks root).any (p.overlaps ·.1)).tail
  | .beforeAfter => []

def takenIds (role : BlockRole) (root : Place) : List NodeId :=
  (role.takenOut root).map Place.id

/-- Binding an element leaves the element itself in its place: it is none of the parts that are
moved, and no item of a list that a link takes along, as it would if no other element stayed in it. -/
structure Spares (role : BlockRole) (root : Place) : Prop where
  moved : ∀ p ∈ role.moved root, p.id ≠ root.id
  links : ∀ p ∈ role.links root, p.id ≠ root.id ∧
    (root.tree.isTag ["li"] → p.id ∈ root.tree.children.map Tree.id →
      ∃ s ∈ root.tree.children, s.isNoItem ∧ s.id ≠ p.id ∧ s.id ∉ role.takenIds root)

instance (role : BlockRole) (root : Place) : Decidable (role.Spares root) :=
  decidable_of_iff ((∀ p ∈ role.moved root, p.id ≠ root.id) ∧
      ∀ p ∈ role.links root, p.id ≠ root.id ∧
        (root.tree.isTag ["li"] → p.id ∈ root.tree.children.map Tree.id →
          ∃ s ∈ root.tree.children, s.isNoItem ∧ s.id ≠ p.id ∧ s.id ∉ role.takenIds root))
    ⟨fun h => ⟨h.1, h.2⟩, fun h => ⟨h.moved, h.links⟩⟩

end BlockRole

namespace BlockParts

variable {root p : Place} {selector : Selector} {taken : List Place}

theorem find?_select_alone (h : selector.isLocal) {f g : Place → Bool}
    (hfg : ∀ p ∈ root.alone.descend, f (p.under root.above) = g p) :
    (root.select selector).find? f =
      ((root.alone.select selector).find? g).map (Place.under root.above) := by
  rw [Place.select_alone h, List.find?_map]
  exact congrArg _ (List.find?_congr fun p hp => hfg p (List.mem_of_mem_filter hp))

theorem filter_select_alone (h : selector.isLocal) {f g : Place → Bool}
    (hfg : ∀ p ∈ root.alone.descend, f (p.under root.above) = g p) :
    (root.select selector).filter f =
      ((root.alone.select selector).filter g).map (Place.under root.above) := by
  rw [Place.select_alone h, List.filter_map]
  exact congrArg _ (List.filter_congr fun p hp => hfg p (List.mem_of_mem_filter hp))

theorem isFree_under (hroot : root.Distinct) (htaken : taken ⊆ root.alone.descend)
    (hp : p ∈ root.alone.descend) :
    isFree (taken.map (Place.under root.above)) (p.under root.above) = isFree taken p := by
  rw [isFree, isFree, List.any_map, Bool.not_inj_iff, Bool.eq_iff_iff, List.any_eq_true,
    List.any_eq_true]
  exact exists_congr fun q => and_congr_right fun hq => by
    rw [Function.comp_apply, hroot.overlaps_under hp (htaken hq)]

/-- What a search for a part finds in an element, when some nodes are taken, it finds in the element
alone. -/
def IsLocal (search : Place → List Place → Option Place) : Prop :=
  ∀ root : Place, root.Distinct → ∀ taken ⊆ root.alone.descend,
    search root (taken.map (Place.under root.above)) =
        (search root.alone taken).map (Place.under root.above) ∧
      ∀ p ∈ search root.alone taken, p ∈ root.alone.descend

theorem isLocal_find? (h : selector.isLocal) (test : Bool → Place → Bool)
    (htest : ∀ free p outer, test free (Place.under outer p) = test free p) :
    IsLocal fun root taken => (root.select selector).find? fun p => test (isFree taken p) p := by
  intro root hroot taken htaken
  refine ⟨find?_select_alone h fun p hp => ?_, fun p hp => ?_⟩
  · rw [htest, isFree_under hroot htaken hp]
  · exact List.mem_of_mem_filter (List.mem_of_find?_eq_some hp)

theorem isLocal_reverse_find? (h : selector.isLocal) (test : Bool → Place → Bool)
    (htest : ∀ free p outer, test free (Place.under outer p) = test free p) :
    IsLocal fun root taken =>
      (root.select selector).reverse.find? fun p => test (isFree taken p) p := by
  intro root hroot taken htaken
  have hselected : ∀ p ∈ (root.alone.select selector).reverse, p ∈ root.alone.descend := fun p hp =>
    List.mem_of_mem_filter (List.mem_reverse.1 hp)
  refine ⟨?_, fun p hp => hselected p (List.mem_of_find?_eq_some hp)⟩
  dsimp only
  rw [Place.select_alone h, ← List.map_reverse, List.find?_map]
  refine congrArg _ (List.find?_congr fun p hp => ?_)
  rw [Function.comp_apply, htest, isFree_under hroot htaken (hselected p hp)]

theorem IsLocal.or {search search' : Place → List Place → Option Place} (h : IsLocal search)
    (h' : IsLocal search') :
    IsLocal fun root taken => (search root taken).or (search' root taken) := by
  intro root hroot taken htaken
  obtain ⟨heq, hmem⟩ := h root hroot taken htaken
  obtain ⟨heq', hmem'⟩ := h' root hroot taken htaken
  refine ⟨by simp only [heq, heq', Option.map_or], fun p hp => ?_⟩
  exact (Option.or_eq_some_iff.1 hp).elim (hmem p) fun hp => hmem' p hp.2

theorem isLocal_firstFree? (h : selector.isLocal) :
    IsLocal fun root taken => firstFree? root taken selector :=
  isLocal_find? h (fun free p => free && p.tree.plainText != "") fun _ _ _ => rfl

/-- The searches for single fields, in their order. -/
def searches : List (Place → List Place → Option Place) :=
  [fun root taken => (firstFree? root taken .headings).or (firstFree? root taken titleMarks),
    fun root taken => (firstFree? root taken subheadingMarks).or (firstFree? root taken .headings),
    fun root taken => firstFree? root taken authorMarks,
    fun root taken => (firstFree? root taken priceMarks).or (priceLeaf? root taken),
    fun root taken => (root.select Fragment.ratingMarks).find? (isFree taken),
    fun root taken => (root.select iconMarks).find? (isFree taken),
    fun root taken => (firstFree? root taken buttonMarks).or
      ((root.select (.tags ["a"])).reverse.find? fun a => isFree taken a && a.tree.plainText != ""),
    fun root taken => (root.select (.tags ["img"])).find? fun p =>
      isFree taken p && (imageRef? p).isSome]

theorem isLocal_of_mem_searches : ∀ search ∈ searches, IsLocal search := by
  simp only [searches, List.forall_mem_cons]
  refine ⟨.or ?_ ?_, .or ?_ ?_, ?_, .or ?_ ?_, ?_, ?_, .or ?_ ?_, ?_, List.forall_mem_nil _⟩
  · exact isLocal_firstFree? (by decide)
  · exact isLocal_firstFree? (by decide)
  · exact isLocal_firstFree? (by decide)
  · exact isLocal_firstFree? (by decide)
  · exact isLocal_firstFree? (by decide)
  · exact isLocal_firstFree? (by decide)
  · exact isLocal_find? (by decide) (fun free p => p.tree.childElements.isEmpty && free
      && p.tree.plainText.length ≤ maxPriceLength && Text.mentionsPrice p.tree.plainText)
        fun _ _ _ => rfl
  · exact isLocal_find? (by decide) (fun free _ => free) fun _ _ _ => rfl
  · exact isLocal_find? (by decide) (fun free _ => free) fun _ _ _ => rfl
  · exact isLocal_firstFree? (by decide)
  · exact isLocal_reverse_find? (by decide) (fun free p => free && p.tree.plainText != "")
      fun _ _ _ => rfl
  · exact isLocal_find? (by decide) (fun free p => free && (imageRef? p).isSome)
      fun _ _ _ => rfl

/-- One search after the other, each with what was found before taken. -/
def runSearches (root : Place) (searches : List (Place → List Place → Option Place)) : List Place :=
  searches.foldl (fun taken search => taken ++ (search root taken).toList) []

theorem fields_locate (root : Place) : (locate root).fields = runSearches root searches := rfl

theorem runSearches_alone (hroot : root.Distinct)
    {searches : List (Place → List Place → Option Place)}
    (h : ∀ search ∈ searches, IsLocal search) :
    runSearches root searches = (runSearches root.alone searches).map (Place.under root.above) ∧
      runSearches root.alone searches ⊆ root.alone.descend := by
  induction searches using List.reverseRecOn with
  | nil => exact ⟨rfl, List.nil_subset _⟩
  | append_singleton searches search ih =>
    rw [List.forall_mem_append, List.forall_mem_singleton] at h
    obtain ⟨heq, hsub⟩ := ih h.1
    obtain ⟨hfound, hmem⟩ := h.2 root hroot _ hsub
    simp only [runSearches, List.foldl_append, List.foldl_cons, List.foldl_nil]
      at heq hsub hfound hmem ⊢
    rw [heq, hfound, List.map_append, Option.toList_map]
    exact ⟨rfl, List.append_subset.2 ⟨hsub, fun p hp => hmem p (Option.mem_toList.1 hp)⟩⟩

theorem description_alone (hroot : root.Distinct) : (locate root).description =
    (locate root.alone).description.map (Place.under root.above) := by
  obtain ⟨hfields, hsub⟩ := runSearches_alone hroot isLocal_of_mem_searches
  rw [description_locate, description_locate, fields_locate, fields_locate, hfields]
  exact filter_select_alone (by decide) fun p hp => by
    rw [isFree_under hroot hsub hp, Place.tree_under]

end BlockParts

theorem platform?_under (platforms : List String) (outer : List Level) (p : Place) :
    platform? platforms (p.under outer) = platform? platforms p := by
  have hicons : ((p.under outer).select (.tags ["i", "svg", "span"])).flatMap (·.tree.classNames) =
      (p.select (.tags ["i", "svg", "span"])).flatMap (·.tree.classNames) := by
    rw [Place.select_alone (by decide), Place.select_alone (p := p) (by decide), List.flatMap_map,
      List.flatMap_map]
    rfl
  unfold platform?
  rw [hicons, Place.tree_under]

variable {root : Place}

theorem filterMap_platform?_alone (platforms : List String) (root : Place) :
    (root.select (.tags ["a"])).filterMap
        (fun a => (platform? platforms a).map fun name => (a, name)) =
      ((root.alone.select (.tags ["a"])).filterMap fun a =>
        (platform? platforms a).map fun name => (a, name)).map
          fun link => (link.1.under root.above, link.2) := by
  rw [Place.select_alone (by decide), List.filterMap_map, List.map_filterMap]
  refine List.filterMap_congr fun a _ => ?_
  rw [Function.comp_apply, platform?_under, Option.map_map]
  rfl

theorem teamLinks_alone (root : Place) : teamLinks root =
    (teamLinks root.alone).map fun link => (link.1.under root.above, link.2) :=
  filterMap_platform?_alone teamPlatforms root

namespace FooterParts

theorem links_alone (root : Place) :
    (locate root).links = (locate root.alone).links.map (Place.under root.above) :=
  BlockParts.filter_select_alone (by decide) fun p _ => by rw [platform?_under, Place.tree_under]

theorem socials_alone (root : Place) :
    (locate root).socials = (locate root.alone).socials.map (Place.under root.above) := by
  have h := filterMap_platform?_alone platforms root
  rw [socials, socials, show (locate root).social = _ from h, List.map_map, List.map_map]
  rfl

theorem anchors_alone (root : Place) : (locate root).anchors =
    (locate root.alone).anchors.map (Place.under root.above) := by
  rw [anchors, anchors, List.map_append, links_alone, socials_alone]

theorem paragraphs_alone (hroot : root.Distinct) : (locate root).paragraphs =
    (locate root.alone).paragraphs.map (Place.under root.above) := by
  have hheading :
      (locate root).heading = (locate root.alone).heading.map (Place.under root.above) := by
    have hown : ∀ root, (locate root).heading =
        (root.first? headingMarks).filter fun p => p.tree.plainText != "" := fun _ => rfl
    have hlocal : headingMarks.isLocal := by decide
    rw [hown, hown, Place.first?_alone hlocal, Option.filter_map]
    simp only [Function.comp_def, Place.tree_under]
  refine BlockParts.filter_select_alone (by decide) fun p hp => ?_
  have hall : (locate root).heading.all (!(p.under root.above).overlaps ·) =
      (locate root.alone).heading.all (!p.overlaps ·) := by
    rw [hheading]
    cases hfound : (locate root.alone).heading with
    | none => rfl
    | some heading =>
      have hmem := mem_descend_of_heading hfound
      rw [Option.map_some, Option.all_some, Option.all_some, hroot.overlaps_under hp hmem]
  have hlinks : (p.under root.above).has (.tags ["a"]) = p.has (.tags ["a"]) :=
    Place.has_under (by decide) root.above p
  exact congrArg₂ and (congrArg₂ and (congrArg not hlinks) rfl) hall

end FooterParts

namespace BlockRole

variable {role : BlockRole}

theorem bioParagraphs_alone (hroot : root.Distinct) :
    (BlockParts.locate root).description.filter
        (fun p => !(teamLinks root).any (p.overlaps ·.1)) =
      ((BlockParts.locate root.alone).description.filter fun p =>
        !(teamLinks root.alone).any (p.overlaps ·.1)).map (Place.under root.above) := by
  have hselected : ∀ link ∈ teamLinks root.alone, link.1 ∈ root.alone.descend := by
    intro link hlink
    obtain ⟨a, ha, hlink⟩ := List.mem_filterMap.1 hlink
    obtain ⟨name, -, rfl⟩ := Option.map_eq_some_iff.1 hlink
    exact List.mem_of_mem_filter ha
  rw [BlockParts.description_alone hroot, List.filter_map, teamLinks_alone]
  refine congrArg _ (List.filter_congr fun p hp => ?_)
  have hp := List.mem_of_mem_filter (List.mem_of_mem_filter hp)
  rw [Function.comp_apply, List.any_map, Bool.not_inj_iff, Bool.eq_iff_iff, List.any_eq_true,
    List.any_eq_true]
  exact exists_congr fun link => and_congr_right fun hlink => by
    rw [Function.comp_apply, hroot.overlaps_under hp (hselected link hlink)]

/-- Whether an element is spared can be told from the element alone. -/
theorem spares_alone_iff (hrole : role ≠ .header) (hroot : root.Distinct) :
    role.Spares root ↔ role.Spares root.alone := by
  have hmoved : role.moved root = (role.moved root.alone).map (Place.under root.above) := by
    cases role with
    | header => exact absurd rfl hrole
    | generic => exact BlockParts.description_alone hroot
    | footerColumn => exact FooterParts.paragraphs_alone hroot
    | beforeAfter => rfl
    | teamMember =>
      rw [moved, moved, List.map_append, bioParagraphs_alone hroot, teamLinks_alone root,
        List.map_map, List.map_map]
      rfl
  have hlinks : role.links root = (role.links root.alone).map (Place.under root.above) := by
    cases role with
    | header => exact absurd rfl hrole
    | footerColumn => exact FooterParts.anchors_alone root
    | _ => rfl
  have htaken : role.takenOut root = (role.takenOut root.alone).map (Place.under root.above) := by
    cases role with
    | header => exact absurd rfl hrole
    | generic => rw [takenOut, takenOut, BlockParts.description_alone hroot, List.map_tail]
    | footerColumn =>
      simp only [takenOut, FooterParts.paragraphs_alone hroot, FooterParts.links_alone root,
        FooterParts.socials_alone root, List.map_append, List.map_tail]
    | teamMember => rw [takenOut, takenOut, bioParagraphs_alone hroot, List.map_tail]
    | beforeAfter => rfl
  have hids : role.takenIds root = role.takenIds root.alone := by
    rw [takenIds, takenIds, htaken, List.map_map]
    rfl
  constructor
  · intro h
    constructor
    case moved => exact fun p hp => h.moved (p.under root.above) (hmoved ▸ List.mem_map_of_mem hp)
    case links =>
      rw [← hids]
      exact fun p hp => h.links (p.under root.above) (hlinks ▸ List.mem_map_of_mem hp)
  · intro h
    constructor
    case moved =>
      rw [hmoved]
      exact List.forall_mem_map.2 h.moved
    case links =>
      rw [hlinks, hids]
      exact List.forall_mem_map.2 h.links

/-- An element is spared wherever it stands. -/
theorem Spares.of_tree_eq {root' : Place} (h : role.Spares root) (hrole : role ≠ .header)
    (hroot : root.Distinct) (hroot' : root'.Distinct) (htree : root'.tree = root.tree) :
    role.Spares root' := by
  have halone : root'.alone = root.alone := by rw [Place.alone, htree, Place.alone]
  rw [spares_alone_iff hrole hroot', halone]
  exact (spares_alone_iff hrole hroot).1 h

end BlockRole

end ThemeSection
