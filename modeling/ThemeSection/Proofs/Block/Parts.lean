import ThemeSection.Block.Parts
import ThemeSection.Proofs.Markup.Places

/-!
Where the parts of an element stand. The searches for them run one after the other, and what one finds
is taken for the next, so that no part holds another one: each can be overwritten with all that stands
in it, and the others stay. A selector may select the element itself, which is then its only part.
-/

namespace ThemeSection

open Markup

namespace BlockParts

variable {root p : Place} {taken taken' : List Place} {selector : Selector}

theorem mem_descend_of_firstFree? (h : p ∈ firstFree? root taken selector) : p ∈ root.descend :=
  List.mem_of_mem_filter (List.mem_of_find?_eq_some h)

theorem mem_descend_of_priceLeaf? (h : p ∈ priceLeaf? root taken) : p ∈ root.descend :=
  List.mem_of_mem_filter (List.mem_of_find?_eq_some h)

variable (root) in
/-- The parts of an element are nodes of it. -/
theorem mem_descend_locate : ∀ part ∈ [(locate root).heading, (locate root).subheading,
    (locate root).author, (locate root).price, (locate root).button, (locate root).image],
    ∀ p ∈ part, p ∈ root.descend := by
  simp only [List.forall_mem_cons]
  refine ⟨fun p hp => ?_, fun p hp => ?_, fun p hp => ?_, fun p hp => ?_, fun p hp => ?_,
    fun p hp => ?_, List.forall_mem_nil _⟩
  · exact (Option.or_eq_some_iff.1 hp).elim mem_descend_of_firstFree?
      fun h => mem_descend_of_firstFree? h.2
  · exact (Option.or_eq_some_iff.1 hp).elim mem_descend_of_firstFree?
      fun h => mem_descend_of_firstFree? h.2
  · exact mem_descend_of_firstFree? hp
  · exact (Option.or_eq_some_iff.1 hp).elim mem_descend_of_firstFree?
      fun h => mem_descend_of_priceLeaf? h.2
  · refine (Option.or_eq_some_iff.1 hp).elim mem_descend_of_firstFree? fun h => ?_
    exact List.mem_of_mem_filter (List.mem_reverse.1 (List.mem_of_find?_eq_some h.2))
  · exact List.mem_of_mem_filter (List.mem_of_find?_eq_some hp)

theorem isFree_of_firstFree? (h : firstFree? root taken selector = some p) : isFree taken p := by
  have hfound := List.find?_some h
  exact (Bool.and_eq_true_iff.1 hfound).1

theorem isFree_of_priceLeaf? (h : priceLeaf? root taken = some p) : isFree taken p := by
  have hfound := List.find?_some h
  simp only [Bool.and_eq_true] at hfound
  exact hfound.1.1.2

theorem isFree_of_subset (h : isFree taken' p) (hsub : taken ⊆ taken') : isFree taken p := by
  simp only [isFree, Bool.not_eq_true', List.any_eq_false] at h ⊢
  exact fun q hq => h q (hsub hq)

theorem isFree_iff_apart : isFree taken p ↔ ∀ q ∈ taken, p.Apart q := by
  rw [isFree, Bool.not_eq_true', List.any_eq_false]
  exact forall₂_congr fun _ _ => Place.apart_iff.symm

/-- A part that is free of what is taken can be taken as well. -/
theorem pairwise_append_toList (part : Option Place) (h : taken.Pairwise Place.Apart)
    (hpart : ∀ p ∈ part, isFree taken p) : (taken ++ part.toList).Pairwise Place.Apart := by
  cases part with
  | none => simpa using h
  | some p =>
    refine List.pairwise_append.2 ⟨h, List.pairwise_singleton _ _, fun q hq r hr => ?_⟩
    obtain rfl := List.mem_singleton.1 hr
    exact (isFree_iff_apart.1 (hpart r rfl) q hq).symm

/-- What is taken when the image is found. -/
def takenFirst (parts : BlockParts) : List Place :=
  parts.heading.toList ++ parts.subheading.toList ++ parts.author.toList ++ parts.price.toList ++
    parts.rating.toList ++ parts.icon.toList ++ parts.button.toList

/-- The nodes that carry single fields, which are all but the paragraphs of the description. -/
def fields (parts : BlockParts) : List Place :=
  parts.takenFirst ++ parts.image.toList

theorem subset_takenFirst (parts : BlockParts) :
    parts.heading.toList ++ parts.subheading.toList ⊆ parts.takenFirst := by
  simp only [takenFirst, List.append_assoc]
  exact List.append_subset.2 ⟨List.subset_append_left _ _,
    List.subset_append_of_subset_right _ (List.subset_append_left _ _)⟩

theorem image_locate (root : Place) : (locate root).image = (root.select (.tags ["img"])).find?
    fun p => isFree (locate root).takenFirst p && (imageRef? p).isSome := rfl

theorem description_locate (root : Place) : (locate root).description =
    (root.select (.tags ["p"])).filter fun p =>
      isFree (locate root).fields p && p.tree.plainText != "" := rfl

theorem pairwise_takenFirst (root : Place) : (locate root).takenFirst.Pairwise Place.Apart := by
  have hheading : (locate root).heading.toList.Pairwise Place.Apart := by
    cases (locate root).heading <;> simp
  have hsubheading := pairwise_append_toList (locate root).subheading hheading
    fun _ hp => (Option.or_eq_some_iff.1 hp).elim isFree_of_firstFree? fun h => isFree_of_firstFree? h.2
  have hauthor := pairwise_append_toList (locate root).author hsubheading
    fun _ hp => isFree_of_firstFree? hp
  have hprice := pairwise_append_toList (locate root).price hauthor
    fun _ hp => (Option.or_eq_some_iff.1 hp).elim isFree_of_firstFree? fun h => isFree_of_priceLeaf? h.2
  have hrating := pairwise_append_toList (locate root).rating hprice
    fun _ hp => List.find?_some hp
  have hicon := pairwise_append_toList (locate root).icon hrating
    fun _ hp => List.find?_some hp
  refine pairwise_append_toList (locate root).button hicon fun _ hp => ?_
  refine (Option.or_eq_some_iff.1 hp).elim isFree_of_firstFree? fun h => ?_
  have hfound := List.find?_some h.2
  exact (Bool.and_eq_true_iff.1 hfound).1

theorem pairwise_fields (root : Place) : (locate root).fields.Pairwise Place.Apart := by
  refine pairwise_append_toList _ (pairwise_takenFirst root) fun p hp => ?_
  have hfound := List.find?_some (image_locate root ▸ hp)
  exact (Bool.and_eq_true_iff.1 hfound).1

/-- Whatever the element is, the nodes that carry its single fields stand apart from each other, and
every paragraph of its description stands apart from all of them. -/
theorem disjoint_locate (root : Place) :
    (locate root).fields.Pairwise Place.Apart ∧
      ∀ p ∈ (locate root).description, ∀ q ∈ (locate root).fields, p.Apart q := by
  refine ⟨pairwise_fields root, fun p hp => isFree_iff_apart.1 ?_⟩
  rw [description_locate] at hp
  exact (Bool.and_eq_true_iff.1 (List.mem_filter.1 hp).2).1

/-- A card with a node for every part. -/
def fullCard : Tree :=
  let piece (id : NodeId) (name className text : String) : Tree :=
    .node id (.element (.html name) [⟨.plain "class", className⟩]) [.node (id + 1) (.text text) []]
  .node 0 (.element (.html "div") [])
    [piece 1 "h3" "" "Tea", piece 3 "p" "tagline" "Green", piece 5 "cite" "" "Ann",
      piece 7 "b" "" "$4.00", piece 9 "div" "stars" "5", piece 11 "i" "fa-leaf" "",
      piece 13 "a" "" "Buy", .node 15 (.element (.html "img") [⟨.plain "src", "tea.png"⟩]) [],
      piece 16 "p" "" "From the hills."]

/-- All parts are found, and the paragraph that is the subheading is not in the description. -/
example : (locate ⟨fullCard, []⟩).fields.map Place.id = [1, 3, 5, 7, 9, 11, 13, 15] ∧
    (locate ⟨fullCard, []⟩).description.map Place.id = [16] := by
  decide +kernel

end BlockParts

end ThemeSection
