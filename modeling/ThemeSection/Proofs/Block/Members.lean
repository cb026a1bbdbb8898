import ThemeSection.Proofs.Assets
import ThemeSection.Proofs.Block.Parts
import ThemeSection.Proofs.Block.Standing

/-!
What an element of a team shows. Binding goes through the name, the position, the photo, the biography
and the links, and what one of these steps has put into the element must outlast the steps after it.
-/

namespace ThemeSection

open Markup Liquid Document

namespace BlockParts

variable {root p q : Place}

theorem not_overlaps_of_isFree {taken : List Place} (h : isFree taken p) (hq : q ∈ taken) :
    p.id ∉ q.line ∧ q.id ∉ p.line := by
  rw [isFree, Bool.not_eq_true', List.any_eq_false] at h
  exact (Place.not_overlaps_iff.1 (h q hq)).symm

/-- The parts that a team member shows stand apart from each other. -/
structure Apart (parts : BlockParts) : Prop where
  subheading : ∀ s ∈ parts.subheading, isFree parts.heading.toList s
  image : ∀ i ∈ parts.image, isFree (parts.heading.toList ++ parts.subheading.toList) i
  description : ∀ p ∈ parts.description,
    isFree (parts.heading.toList ++ parts.subheading.toList ++ parts.image.toList) p

variable (root) in
theorem apart_locate : (locate root).Apart where
  subheading := fun s hs =>
    (Option.or_eq_some_iff.1 hs).elim isFree_of_firstFree? fun h => isFree_of_firstFree? h.2
  image := by
    intro i hi
    rw [image_locate] at hi
    have hfound := List.find?_some hi
    exact isFree_of_subset (Bool.and_eq_true_iff.1 hfound).1 (subset_takenFirst _)
  description := by
    intro p hp
    rw [description_locate] at hp
    refine isFree_of_subset (Bool.and_eq_true_iff.1 (List.mem_filter.1 hp).2).1 ?_
    exact List.append_subset.2 ⟨List.Subset.trans (subset_takenFirst _) (List.subset_append_left _ _),
      List.subset_append_right _ _⟩

end BlockParts

namespace Document

variable {d start : Document} {leeway : Leeway} {x parent : NodeId} {above : List NodeId}

/-- An anchor below a node leads where a setting says, between a guard of the setting and its end. -/
def ShowsLink (d : Document) (x : NodeId) (setting : String) : Prop :=
  ∃ a parent above before after, x ∈ parent :: above ∧ d.Tagged (a :: parent :: above) ["a"] ∧
    d.Bears (a :: parent :: above) "href" (Liquid.reference .block setting) ∧
    d.HasRow (parent :: above) [before, a, after] ∧
    d.Says (before :: parent :: above) (ifPresent setting) ∧
    d.Says (after :: parent :: above) endIf

/-- An element shows the settings for what was read from it as a member of a team. Its biography is shown
if one of its paragraphs does not overlap the links to platforms, and a platform if one of the links to it
does not stand below the heading or the subheading. -/
structure ShowsMember (d : Document) (root : Place) : Prop where
  name : (BlockInstance.read .teamMember root).heading.isSome →
    d.SaysIn root.id (Liquid.reference .block "name")
  position : (BlockInstance.read .teamMember root).subheading.isSome →
    d.SaysIn root.id (Liquid.reference .block "position")
  photo : (BlockInstance.read .teamMember root).image.isSome → ∃ line, root.id ∈ line ∧
    d.Bears line "src" (imageSource .block "image" (Liquid.reference .block "image_src") blockImageWidth)
  bio : (BlockInstance.read .teamMember root).description.isSome →
    (∃ p ∈ (BlockParts.locate root).description, ∀ link ∈ teamLinks root, ¬ p.overlaps link.1) →
      d.SaysIn root.id (Liquid.reference .block "bio")
  link : ∀ platform, ((BlockInstance.read .teamMember root).social? platform).isSome →
    (∃ link ∈ teamLinks root, link.2 = platform ∧
      ∀ p ∈ (BlockParts.locate root).heading.toList ++ (BlockParts.locate root).subheading.toList,
        p.id ∉ link.1.line.tail) →
      d.ShowsLink root.id (BlockDefinition.teamSocialId platform)

/-- An image shows the setting that it was given. -/
theorem bears_showDescribedImage (hd : d.Distinct) {names : List String}
    (himage : d.Tagged (x :: above) names) (setting : String) :
    (d.showDescribedImage x setting).Bears (x :: above) "src" (imageSource .block setting
      (Liquid.reference .block (setting ++ "_src")) blockImageWidth) := by
  let others : Leeway := .upTo [] [] [] fun _ name => name ∈ "alt" :: otherSources
  have hkept : ¬ others.lost (x :: above) :=
    Leeway.not_lost_upTo (List.forall_mem_nil _) (List.forall_mem_nil _)
  have halt : Keeps others d (d.setAttribute x "alt" (escapedReference .block (setting ++ "_alt"))) :=
    (Keeps.refl hd).step (Leeway.within_setAttribute List.mem_cons_self _)
  have hshown := bears_setAttribute halt.distinct (himage.keeps halt hkept) "src" (imageSource .block
    setting (Liquid.reference .block (setting ++ "_src")) blockImageWidth)
  have hdistinct := (evolves_setAttribute halt.distinct x "src" (imageSource .block
    setting (Liquid.reference .block (setting ++ "_src")) blockImageWidth)).distinct
  have hleft : Keeps others _ _ := List.foldlRecOn otherSources (fun d name => d.removeAttribute x name)
    (Keeps.refl hdistinct) fun _ h name hname =>
      h.step (Leeway.within_removeAttribute (List.mem_cons_of_mem _ hname))
  have hsource : "src" ∉ "alt" :: otherSources := by decide
  exact hshown.keeps hleft hkept hsource

end Document

namespace BlockDefinition

variable {root a : Place} {d start : Document} {leeway : Leeway} {x parent : NodeId}
  {above : List NodeId}

theorem keeps_teamLinks (h : Keeps leeway start d) {links : List (Place × String)}
    (hlinks : ∀ link ∈ links, leeway.Surrounds link.1.id ∧ leeway.touched link.1.id "href") :
    Keeps leeway start (links.foldl bindTeamLink d) :=
  List.foldlRecOn links _ h fun _ h link hlink =>
    (h.showInAttribute (hlinks link hlink).2 _).step (Leeway.within_wrap (hlinks link hlink).1 _ _)

/-- Every link of some different ones shows its setting. -/
theorem showsLink_teamLinks (hd : d.Distinct) {links : List (Place × String)}
    (hids : (links.map fun link => link.1.id).Nodup) (hold : ∀ link ∈ links, link.1.id < d.next)
    {platform : String} (hlink : (a, platform) ∈ links)
    (ha : d.Tagged (a.id :: parent :: above) ["a"]) (hx : x ∈ parent :: above) :
    (links.foldl bindTeamLink d).ShowsLink x (teamSocialId platform) := by
  obtain ⟨earlier, later, rfl⟩ := List.append_of_mem hlink
  rw [List.map_append, List.map_cons] at hids
  have hlater : a.id ∉ later.map fun link => link.1.id :=
    (List.nodup_cons.1 (List.nodup_append.1 hids).2.1).1
  have hnone : ∀ {xs : List NodeId} {touched line}, ¬ (Leeway.upTo [] [] xs touched).lost line :=
    Leeway.not_lost_upTo (List.forall_mem_nil _) (List.forall_mem_nil _)
  rw [List.foldl_append, List.foldl_cons]
  have hbefore : Keeps (.upTo [] [] (earlier.map fun link => link.1.id) fun _ _ => True) d
      (earlier.foldl bindTeamLink d) := keeps_teamLinks (.refl hd) fun link hlink =>
    ⟨Leeway.surrounds_upTo (List.mem_map_of_mem (f := fun link => link.1.id) hlink), trivial⟩
  generalize earlier.foldl bindTeamLink d = d₁ at hbefore ⊢
  have ha₁ := ha.keeps hbefore hnone
  have hhref := bears_setAttribute hbefore.distinct ha₁ "href"
    (Liquid.reference .block (teamSocialId platform))
  have hset : Keeps (.upTo [] [] [] fun _ _ => True) d₁
      (d₁.showInAttribute a.id "href" (teamSocialId platform)) :=
    (Keeps.refl hbefore.distinct).showInAttribute trivial _
  have ha₂ := ha₁.keeps hset hnone
  obtain ⟨hrow, hguard, hend⟩ := row_wrap hset.distinct ha₂.stands (ifPresent (teamSocialId platform))
    endIf
  have hwrap : Keeps (.upTo [] [] [a.id] fun _ _ => False) _ _ := (Keeps.refl hset.distinct).step
    (Leeway.within_wrap (Leeway.surrounds_upTo (List.mem_singleton_self a.id))
      (ifPresent (teamSocialId platform)) endIf)
  have hafter : Keeps (.upTo [] [] (later.map fun link => link.1.id) fun x _ =>
      x ∈ later.map fun link => link.1.id) _ (later.foldl bindTeamLink (bindTeamLink d₁ (a, platform))) :=
    keeps_teamLinks (.refl hwrap.distinct) fun link hlink =>
      ⟨Leeway.surrounds_upTo (List.mem_map_of_mem (f := fun link => link.1.id) hlink),
        List.mem_map_of_mem (f := fun link => link.1.id) hlink⟩
  refine ⟨a.id, parent, above, _, _, hx, (ha₂.keeps hwrap hnone).keeps hafter hnone,
    (Bears.keeps hhref hwrap hnone (fun h => h)).keeps hafter hnone hlater,
    hrow.keeps hafter hnone ?_, hguard.keeps hafter hnone, hend.keeps hafter hnone⟩
  rintro (hin | ⟨y, hy, hin⟩)
  · cases hin
  · have hnext : d.next ≤ (d₁.showInAttribute a.id "href" (teamSocialId platform)).next :=
      Nat.le_trans hbefore.next_le hset.next_le
    obtain ⟨link, hlink, rfl⟩ := List.mem_map.1 hy
    have hlt := Nat.lt_of_lt_of_le (hold link (List.mem_append_right _ (List.mem_cons_of_mem _ hlink)))
      hnext
    simp only [List.mem_cons, List.not_mem_nil, or_false] at hin
    rcases hin with heq | heq | heq
    · exact Nat.ne_of_lt hlt heq
    · exact hlater (heq ▸ hy)
    · exact Nat.ne_of_lt (Nat.lt_succ_of_lt hlt) heq

/-- The paragraphs that the biography is made of in the markup. -/
def bioParagraphs (root : Place) : List Place :=
  (BlockParts.locate root).description.filter fun p => !(teamLinks root).any (p.overlaps ·.1)

theorem sublist_bioParagraphs (root : Place) : (bioParagraphs root).Sublist root.descend :=
  List.filter_sublist.trans (List.filter_sublist.trans List.filter_sublist)

def bindNames (root : Place) (d : Document) : Document :=
  let d := d.forPart (BlockParts.locate root).heading fun d x => d.showSetting x "name"
  d.forPart (BlockParts.locate root).subheading fun d x => d.showSetting x "position"

def bindPhoto (definition : BlockDefinition) (root : Place) (d : Document) : Document :=
  match (BlockParts.locate root).image with
  | some image => if definition.has "image" then d.showDescribedImage image.id "image" else d
  | none => d

def bindBio (definition : BlockDefinition) (root : Place) (d : Document) : Document :=
  if definition.has "bio" then d.showRichText (bioParagraphs root) "bio" else d

theorem bindTeamMember_eq (definition : BlockDefinition) (root : Place) (d : Document) :
    bindTeamMember definition root d = (teamLinks root).foldl bindTeamLink
      (bindBio definition root (bindPhoto definition root (bindNames root d))) := rfl

variable {definition : BlockDefinition} {p : Place}

theorem keeps_bindPhoto (h : Keeps leeway start d)
    (himage : ∀ p ∈ (BlockParts.locate root).image, ∀ name ∈ "alt" :: "src" :: otherSources,
      leeway.touched p.id name) : Keeps leeway start (bindPhoto definition root d) :=
  h.ofPart definition (BlockParts.locate root).image "image"
    (fun d image => d.showDescribedImage image.id "image")
    fun p hp _ => h.showDescribedImage (himage p hp) "image"

theorem keeps_bindBio (h : Keeps leeway start d) (hparts : ∀ p ∈ bioParagraphs root, leeway.Removes p.id) :
    Keeps leeway start (bindBio definition root d) := by
  unfold bindBio
  split
  · exact h.showRichText hparts "bio"
  · exact h

theorem mem_teamLinks {link : Place × String} (h : link ∈ teamLinks root) :
    link.1 ∈ root.select (.tags ["a"]) ∧ platform? teamPlatforms link.1 = some link.2 := by
  obtain ⟨a, ha, hmade⟩ := List.mem_filterMap.1 h
  obtain ⟨name, hname, rfl⟩ := Option.map_eq_some_iff.1 hmade
  exact ⟨ha, hname⟩

theorem nodup_teamLinks (hroot : root.Distinct) :
    ((teamLinks root).map fun link => link.1.id).Nodup := by
  have hids : ((root.select (.tags ["a"])).map Place.id).Nodup :=
    hroot.nodup_of_sublist (root.select_sublist _)
  refine List.pairwise_map.2 (List.pairwise_filterMap.2 ((List.pairwise_map.1 hids).imp ?_))
  intro a b hne link hlink link' hlink'
  obtain ⟨_, -, rfl⟩ := Option.map_eq_some_iff.1 hlink
  obtain ⟨_, -, rfl⟩ := Option.map_eq_some_iff.1 hlink'
  exact hne

def bioIds (root : Place) : List NodeId := (bioParagraphs root).map Place.id

def linkIds (root : Place) : List NodeId := (teamLinks root).map fun link => link.1.id

/-- The ids of the nodes that show the name and the position. -/
def namedIds (root : Place) : List NodeId :=
  ((BlockParts.locate root).heading.toList ++ (BlockParts.locate root).subheading.toList).map Place.id

section

variable {emptied removed surrounded : List NodeId} {touched : NodeId → String → Prop}

theorem empties_heading : ∀ p ∈ (BlockParts.locate root).heading,
    (Leeway.upTo (namedIds root) removed surrounded touched).Empties p.id := fun _ hp =>
  Leeway.empties_upTo (List.mem_map_of_mem (List.mem_append_left _ (Option.mem_toList.2 hp)))

theorem empties_subheading : ∀ p ∈ (BlockParts.locate root).subheading,
    (Leeway.upTo (namedIds root) removed surrounded touched).Empties p.id := fun _ hp =>
  Leeway.empties_upTo (List.mem_map_of_mem (List.mem_append_right _ (Option.mem_toList.2 hp)))

theorem keeps_bindNames (h : Keeps (.upTo (namedIds root) removed surrounded touched) start d) :
    Keeps (.upTo (namedIds root) removed surrounded touched) start (bindNames root d) :=
  (h.forPart empties_heading "name").forPart empties_subheading "position"

/-- The biography and the links come last. -/
theorem keeps_last (h : Keeps (.upTo emptied (bioIds root) (linkIds root) touched) start d)
    (htouched : ∀ x, touched x "href") :
    Keeps (.upTo emptied (bioIds root) (linkIds root) touched) start
      ((teamLinks root).foldl bindTeamLink (bindBio definition root d)) :=
  keeps_teamLinks (keeps_bindBio h fun _ hp => Leeway.removes_upTo (List.mem_map_of_mem hp))
    fun _ hlink => ⟨Leeway.surrounds_upTo (List.mem_map_of_mem (f := fun link => link.1.id) hlink),
      htouched _⟩

end

theorem bioIds_not_mem_text {line : List NodeId} {n : NodeId} (h : ∀ x ∈ bioIds root, x ∉ line ∧ x < d.next)
    (hn : d.next ≤ n) : ∀ x ∈ bioIds root, x ∉ n :: line := fun x hx hin =>
  (List.mem_cons.1 hin).elim (Nat.ne_of_lt (Nat.lt_of_lt_of_le (h x hx).2 hn)) (h x hx).1

/-- The nodes that show the name and the position are not around a part that is free of them. -/
theorem namedIds_not_mem (hp : BlockParts.isFree ((BlockParts.locate root).heading.toList ++
    (BlockParts.locate root).subheading.toList) p) : ∀ x ∈ namedIds root, x ∉ p.line.tail :=
  List.forall_mem_map.2 fun _ hq hin =>
    (BlockParts.not_overlaps_of_isFree hp hq).2 (List.mem_of_mem_tail hin)

section

variable (hd : d.Distinct) (hroot : root ∈ d.places)
include hd hroot

theorem mem_bioParagraphs (hp : p ∈ bioParagraphs root) :
    p ∈ (BlockParts.locate root).description ∧ p ∈ root.select (.tags ["p"]) ∧ p ∈ root.descend ∧
      p.id < d.next := by
  have hdescription := List.mem_of_mem_filter hp
  have hselect : p ∈ root.select (.tags ["p"]) := List.mem_of_mem_filter hdescription
  have hdescend := List.mem_of_mem_filter hselect
  exact ⟨hdescription, hselect, hdescend, hd.lt_next_of_place (mem_places_descend hroot hdescend)⟩

/-- The paragraphs of the biography are not around the other parts. -/
theorem bioIds_not_mem (hp : p ∈ (BlockParts.locate root).heading.toList ++
      (BlockParts.locate root).subheading.toList ++ (BlockParts.locate root).image.toList) :
    ∀ x ∈ bioIds root, x ∉ p.line ∧ x < d.next := by
  refine List.forall_mem_map.2 fun q hq => ?_
  obtain ⟨hdescription, -, -, hlt⟩ := mem_bioParagraphs hd hroot hq
  exact ⟨(BlockParts.not_overlaps_of_isFree
    ((BlockParts.apart_locate root).description q hdescription) hp).1, hlt⟩

theorem saysIn_name (hp : p ∈ (BlockParts.locate root).heading) :
    (bindTeamMember definition root d).SaysIn root.id (Liquid.reference .block "name") := by
  have hdescend := (List.forall_mem_cons.1 (BlockParts.mem_descend_locate root)).1 p hp
  have hstands : d.Stands p.line := ⟨p, mem_places_descend hroot hdescend, rfl⟩
  have hshown := says_setText hd hstands (Liquid.reference .block "name")
  have hlast : Keeps (.upTo ((BlockParts.locate root).subheading.toList.map Place.id) (bioIds root)
      (linkIds root) fun _ _ => True) (d.showSetting p.id "name") (bindTeamMember definition root d) := by
    rw [bindTeamMember_eq, bindNames, Option.mem_def.1 hp]
    refine keeps_last (keeps_bindPhoto (Keeps.forPart (.refl (evolves_setText hd _ _).distinct)
      (fun q hq => Leeway.empties_upTo (List.mem_map_of_mem (Option.mem_toList.2 hq))) _) ?_) ?_
    · exact fun _ _ _ _ => trivial
    · exact fun _ => trivial
  refine ⟨_, List.mem_cons_of_mem _ ((hd.place_distinct hroot).id_mem_line hdescend),
    hshown.keeps hlast (Leeway.not_lost_upTo (List.forall_mem_map.2 fun q hq => ?_) ?_)⟩
  · exact (BlockParts.not_overlaps_of_isFree ((BlockParts.apart_locate root).subheading q
      (Option.mem_toList.1 hq)) (Option.mem_toList.2 hp)).1
  · exact bioIds_not_mem_text (bioIds_not_mem hd hroot (List.mem_append_left _
      (List.mem_append_left _ (Option.mem_toList.2 hp)))) (Nat.le_refl _)

theorem saysIn_position (hp : p ∈ (BlockParts.locate root).subheading) :
    (bindTeamMember definition root d).SaysIn root.id (Liquid.reference .block "position") := by
  have hdescend := (List.forall_mem_cons.1 (List.forall_mem_cons.1
    (BlockParts.mem_descend_locate root)).2).1 p hp
  have hnamed : Keeps (.upTo (namedIds root) [] [] fun _ _ => True) d
      (d.forPart (BlockParts.locate root).heading fun d x => d.showSetting x "name") :=
    (Keeps.refl hd).forPart empties_heading "name"
  have hstands : d.Stands p.line := ⟨p, mem_places_descend hroot hdescend, rfl⟩
  have haway : ∀ x ∈ namedIds root, x ∉ p.line.tail := by
    refine List.forall_mem_map.2 fun q hq => ?_
    rcases List.mem_append.1 hq with hq | hq
    · have hfree := (BlockParts.apart_locate root).subheading p hp
      exact fun hin => (BlockParts.not_overlaps_of_isFree hfree hq).2 (List.mem_of_mem_tail hin)
    · obtain rfl := Option.some.inj (hp.symm.trans (Option.mem_toList.1 hq))
      exact (hd.place_distinct (mem_places_descend hroot hdescend)).id_not_mem_tail
  have hshown := says_setText hnamed.distinct
    (hstands.keeps hnamed (Leeway.not_lost_upTo haway (List.forall_mem_nil _)))
    (Liquid.reference .block "position")
  have hlast : Keeps (.upTo [] (bioIds root) (linkIds root) fun _ _ => True)
      ((d.forPart (BlockParts.locate root).heading fun d x => d.showSetting x "name").showSetting p.id
        "position") (bindTeamMember definition root d) := by
    rw [bindTeamMember_eq, bindNames, Option.mem_def.1 hp]
    refine keeps_last (keeps_bindPhoto (.refl (evolves_setText hnamed.distinct _ _).distinct) ?_) ?_
    · exact fun _ _ _ _ => trivial
    · exact fun _ => trivial
  refine ⟨_, List.mem_cons_of_mem _ ((hd.place_distinct hroot).id_mem_line hdescend),
    hshown.keeps hlast (Leeway.not_lost_upTo (List.forall_mem_nil _) ?_)⟩
  exact bioIds_not_mem_text (bioIds_not_mem hd hroot (List.mem_append_left _
    (List.mem_append_right _ (Option.mem_toList.2 hp)))) hnamed.next_le

theorem bears_photo (hp : p ∈ (BlockParts.locate root).image) (hhas : definition.has "image") :
    (bindTeamMember definition root d).Bears p.line "src"
      (imageSource .block "image" (Liquid.reference .block "image_src") blockImageWidth) := by
  have himage := hp
  rw [BlockParts.image_locate] at himage
  have hselect := List.mem_of_find?_eq_some himage
  have hdescend : p ∈ root.descend := List.mem_of_mem_filter hselect
  have htag : p.tree.isTag ["img"] :=
    Tree.isTag_of_holds (by decide) (List.mem_filter.1 hselect).2
  have htagged : d.Tagged p.line ["img"] := ⟨p, mem_places_descend hroot hdescend, rfl, htag⟩
  have hnamed : Keeps (.upTo (namedIds root) [] [] fun _ _ => True) d (bindNames root d) :=
    keeps_bindNames (.refl hd)
  have hshown := bears_showDescribedImage hnamed.distinct (htagged.keeps hnamed (Leeway.not_lost_upTo
    (namedIds_not_mem ((BlockParts.apart_locate root).image p hp)) (List.forall_mem_nil _))) "image"
  have hphoto : Keeps (.upTo [] [] [] fun _ _ => True) (bindNames root d)
      ((bindNames root d).showDescribedImage p.id "image") :=
    (Keeps.refl hnamed.distinct).showDescribedImage (fun _ _ => trivial) "image"
  have hlast : Keeps (.upTo [] (bioIds root) (linkIds root) fun _ name => name = "href")
      ((bindNames root d).showDescribedImage p.id "image") (bindTeamMember definition root d) := by
    rw [bindTeamMember_eq, bindPhoto, Option.mem_def.1 hp]
    dsimp only
    rw [if_pos hhas]
    exact keeps_last (.refl hphoto.distinct) fun _ => rfl
  have hsource : "src" ≠ "href" := by decide
  refine hshown.keeps hlast (Leeway.not_lost_upTo (List.forall_mem_nil _) fun x hx => ?_) hsource
  exact (bioIds_not_mem hd hroot (List.mem_append_right _ (Option.mem_toList.2 hp)) x hx).1

theorem saysIn_bio (hparagraph : root.tree.isTag ["p"] = false) (hp : p ∈ bioParagraphs root)
    (hhas : definition.has "bio") :
    (bindTeamMember definition root d).SaysIn root.id (Liquid.reference .block "bio") := by
  obtain ⟨first, rest, hbio⟩ := List.exists_cons_of_ne_nil (List.ne_nil_of_mem hp)
  have hfirst : first ∈ bioParagraphs root := hbio ▸ List.mem_cons_self
  obtain ⟨hdescription, hselect, hdescend, -⟩ := mem_bioParagraphs hd hroot hfirst
  have htag : first.tree.isTag ["p"] := Tree.isTag_of_holds (by decide) (List.mem_filter.1 hselect).2
  obtain ⟨parent, above, hline, hin⟩ :=
    (hd.place_distinct hroot).exists_parent hdescend htag hparagraph
  have htagged : d.Tagged first.line ["p"] := ⟨first, mem_places_descend hroot hdescend, rfl, htag⟩
  have hfree := BlockParts.isFree_of_subset
    ((BlockParts.apart_locate root).description first hdescription) (List.subset_append_left _ _)
  have hnamed : Keeps (.upTo (namedIds root) [] [] fun _ _ => True) d
      (bindPhoto definition root (bindNames root d)) :=
    keeps_bindPhoto (keeps_bindNames (.refl hd)) fun _ _ _ _ => trivial
  have hkept := htagged.keeps hnamed
    (Leeway.not_lost_upTo (namedIds_not_mem hfree) (List.forall_mem_nil _))
  rw [hline] at hkept
  have hrest : ∀ q ∈ rest, q.id ∉ parent :: above ∧ q.id < d.next := by
    intro q hq
    have hout := (hd.place_distinct hroot).not_mem_line_of_sublist (hbio ▸ sublist_bioParagraphs root) q hq
    obtain ⟨-, -, -, hlt⟩ := mem_bioParagraphs hd hroot (hbio ▸ List.mem_cons_of_mem _ hq)
    exact ⟨fun hin => hout (hline ▸ List.mem_cons_of_mem _ hin), hlt⟩
  obtain ⟨-, hshown⟩ := stands_showRichText hnamed.distinct hkept (fun q hq => ⟨(hrest q hq).1,
    Nat.lt_of_lt_of_le (hrest q hq).2 hnamed.next_le⟩) "bio"
  have hlast : Keeps (.upTo [] [] (linkIds root) fun _ _ => True)
      ((bindPhoto definition root (bindNames root d)).showRichText (first :: rest) "bio")
      (bindTeamMember definition root d) := by
    have hbound : Keeps (.upTo [] (bioIds root) [] fun _ _ => True)
        (bindPhoto definition root (bindNames root d))
        (bindBio definition root (bindPhoto definition root (bindNames root d))) :=
      keeps_bindBio (.refl hnamed.distinct) fun _ hp => Leeway.removes_upTo (List.mem_map_of_mem hp)
    rw [bindTeamMember_eq]
    rw [bindBio, if_pos hhas, hbio] at hbound ⊢
    exact keeps_teamLinks (.refl hbound.distinct) fun _ hlink =>
      ⟨Leeway.surrounds_upTo (List.mem_map_of_mem (f := fun link => link.1.id) hlink), trivial⟩
  refine ⟨_, ?_, hshown.keeps hlast
    (Leeway.not_lost_upTo (List.forall_mem_nil _) (List.forall_mem_nil _))⟩
  exact List.mem_cons_of_mem _ (List.mem_cons_of_mem _ hin)

theorem showsLink (hanchor : root.tree.isTag ["a"] = false) {link : Place × String}
    (hlink : link ∈ teamLinks root) (hnamed : ∀ x ∈ namedIds root, x ∉ link.1.line.tail) :
    (bindTeamMember definition root d).ShowsLink root.id (teamSocialId link.2) := by
  obtain ⟨a, platform⟩ := link
  have hselect := (mem_teamLinks hlink).1
  have hdescend : a ∈ root.descend := List.mem_of_mem_filter hselect
  have htag : a.tree.isTag ["a"] := Tree.isTag_of_holds (by decide) (List.mem_filter.1 hselect).2
  obtain ⟨parent, above, hline, hin⟩ := (hd.place_distinct hroot).exists_parent hdescend htag hanchor
  have htagged : d.Tagged a.line ["a"] := ⟨a, mem_places_descend hroot hdescend, rfl, htag⟩
  have hfirst : Keeps (.upTo (namedIds root) (bioIds root) [] fun _ _ => True) d
      (bindBio definition root (bindPhoto definition root (bindNames root d))) :=
    keeps_bindBio (keeps_bindPhoto (keeps_bindNames (.refl hd)) fun _ _ _ _ => trivial)
      fun _ hp => Leeway.removes_upTo (List.mem_map_of_mem hp)
  have hbio : ∀ x ∈ bioIds root, x ∉ a.line := by
    refine List.forall_mem_map.2 fun q hq hin => ?_
    have hfree := (List.mem_filter.1 hq).2
    rw [Bool.not_eq_true', List.any_eq_false] at hfree
    exact (Place.not_overlaps_iff.1 (hfree _ hlink)).2 hin
  have hkept := htagged.keeps hfirst (Leeway.not_lost_upTo hnamed hbio)
  rw [hline] at hkept
  rw [bindTeamMember_eq]
  refine showsLink_teamLinks hfirst.distinct (nodup_teamLinks (hd.place_distinct hroot))
    (fun link hlink => ?_) hlink hkept hin
  exact Nat.lt_of_lt_of_le (hd.lt_next_of_place (mem_places_descend hroot
    (List.mem_of_mem_filter (mem_teamLinks hlink).1))) hfirst.next_le

end

/-- A team member shows the settings for what is read from it, whatever links it has. -/
theorem showsMember_bind (pattern : BlockPattern) (hrole : pattern.role = .teamMember)
    (hd : d.Distinct) (hroot : root ∈ d.places) (hanchor : root.tree.isTag ["a"] = false)
    (hparagraph : root.tree.isTag ["p"] = false) :
    ((ofInstance pattern (.read pattern.role root)).bind pattern.role root d).ShowsMember root := by
  have hids : ∀ id, (ofInstance pattern (.read .teamMember root)).has id ↔
      id ∈ (teamMemberSettings (.read .teamMember root)).map Setting.id := by
    intro id
    rw [has_ofInstance, hrole]
    rfl
  rw [hrole]
  constructor
  case name =>
    intro hread
    obtain ⟨p, hp⟩ := Option.isSome_iff_exists.1 (Option.isSome_of_isSome_bind
      (show ((BlockParts.locate root).heading.bind nonemptyText?).isSome from hread))
    exact saysIn_name hd hroot hp
  case position =>
    intro hread
    obtain ⟨p, hp⟩ := Option.isSome_iff_exists.1 (Option.isSome_of_isSome_bind
      (show ((BlockParts.locate root).subheading.bind nonemptyText?).isSome from hread))
    exact saysIn_position hd hroot hp
  case photo =>
    intro hread
    obtain ⟨p, hp⟩ := Option.isSome_iff_exists.1 (Option.isSome_of_isSome_bind
      (show ((BlockParts.locate root).image.bind imageRef?).isSome from hread))
    have hhas := (hids "image").2
      (mem_ids_teamMemberSettings.2 (Or.inr (Or.inr (Or.inl ⟨hread, by simp⟩))))
    have hdescend := (List.mem_of_mem_filter (List.mem_of_find?_eq_some hp))
    exact ⟨p.line, (hd.place_distinct hroot).id_mem_line hdescend, bears_photo hd hroot hp hhas⟩
  case bio =>
    rintro hread ⟨p, hp, hapart⟩
    have hhas := (hids "bio").2 (mem_ids_teamMemberSettings.2 (Or.inr (Or.inl ⟨hread, rfl⟩)))
    have hbio : p ∈ bioParagraphs root := List.mem_filter.2 ⟨hp, by simpa using hapart⟩
    exact saysIn_bio hd hroot hparagraph hbio hhas
  case link =>
    rintro platform - ⟨link, hlink, rfl, hnamed⟩
    exact showsLink hd hroot hanchor hlink (List.forall_mem_map.2 hnamed)

/-- A member of a team with a biography and a link to a platform. -/
def annPage : Document :=
  Document.ofMarkup ("<div class=\"team-card\"><h3>Ann</h3><p>Tea</p>" ++
    "<a href=\"//linkedin.com/ann\">In</a></div>")

def annCard : Place := (annPage.rootPlace.first? (.classes ["team-card"])).getD annPage.rootPlace

def memberPattern : BlockPattern :=
  { type := "team_member", name := "Team member", selector := ".team-card", min := 2, max := 8
    role := .teamMember }

theorem showsMember_bind_ann :
    let bound := (ofInstance memberPattern (.read .teamMember annCard)).bind .teamMember annCard annPage
    bound.SaysIn annCard.id (Liquid.reference .block "name") ∧
      bound.SaysIn annCard.id (Liquid.reference .block "bio") ∧
      bound.ShowsLink annCard.id (teamSocialId "linkedin") := by
  have hpage : annCard.tree.isTag ["a"] = false ∧ annCard.tree.isTag ["p"] = false ∧
      (∃ link ∈ teamLinks annCard, link.2 = "linkedin" ∧
        ∀ p ∈ (BlockParts.locate annCard).heading.toList ++
          (BlockParts.locate annCard).subheading.toList, p.id ∉ link.1.line.tail) ∧
      (BlockInstance.read .teamMember annCard).heading = some "Ann" ∧
      (BlockInstance.read .teamMember annCard).description.isSome ∧
      (∃ p ∈ (BlockParts.locate annCard).description, ∀ link ∈ teamLinks annCard,
        ¬ p.overlaps link.1) ∧
      ((BlockInstance.read .teamMember annCard).social? "linkedin").isSome := by
    decide +kernel
  obtain ⟨hanchor, hparagraph, hlinks, hname, hbio, hapart, hlink⟩ := hpage
  have h := showsMember_bind memberPattern rfl (Document.distinct_ofMarkup _)
    (annPage.first?_mem_places (.classes ["team-card"])) hanchor hparagraph
  exact ⟨h.name (hname ▸ rfl), h.bio hbio hapart, h.link "linkedin" hlink hlinks⟩

/-- A member of a team whose name is a link. -/
def bobPage : Document :=
  Document.ofMarkup "<div class=\"team-card\"><h3><a href=\"//linkedin.com/bob\">Bob</a></h3></div>"

def bobCard : Place := (bobPage.rootPlace.first? (.classes ["team-card"])).getD bobPage.rootPlace

/-- The link goes with what the heading held. -/
example : ((BlockInstance.read .teamMember bobCard).social? "linkedin").isSome ∧
    ∀ p ∈ ((ofInstance memberPattern (.read .teamMember bobCard)).bind .teamMember bobCard
      bobPage).places, p.isWithin bobCard.id → p.tree.isTag ["a"] = false := by
  decide +kernel

end BlockDefinition

end ThemeSection
