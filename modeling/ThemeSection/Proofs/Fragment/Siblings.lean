import Mathlib.Data.List.Flatten
import ThemeSection.Fragment.Siblings
import ThemeSection.Proofs.Chars.Search
import ThemeSection.Proofs.Markup.Places
import ThemeSection.Proofs.Repetition

/-!
Groups of siblings are classes of likeness: a group has all children of one parent that have the same
name and, in whatever order, the same classes. As likeness is read off a name and classes that are
written with dots between them, this holds just where siblings that are written alike are alike, as they
are if none of their names and classes has a dot; and as the element in which the search starts is
visited twice, the groups of its children come twice.
-/

namespace ThemeSection.Fragment

open Markup

/-- A name and its classes in order, as one text. -/
def written (tag : String) (classes : List String) : String :=
  Text.join "." (tag :: classes.mergeSort fun a b => !(b < a))

theorem signature?_eq_some_iff {tree : Tree} {signature : String} :
    signature? tree = some signature ↔ ∃ tag, tree.tag? = some tag ∧ tag ∉ structuralTags ∧
      tree.classNames ≠ [] ∧ written tag tree.classNames = signature := by
  cases htag : tree.tag? with
  | none => simp [signature?, htag]
  | some tag =>
    cases hclasses : tree.classNames with
    | nil => simp [signature?, htag, hclasses]
    | cons c rest =>
      by_cases hin : tag ∈ structuralTags <;> simp [signature?, htag, hclasses, hin, written]

theorem isElement_of_signature? {tree : Tree} {signature : String}
    (h : signature? tree = some signature) : tree.isElement := by
  obtain ⟨tag, htag, -⟩ := signature?_eq_some_iff.1 h
  obtain ⟨element, helement, -⟩ := Option.map_eq_some_iff.1 htag
  rw [Tree.isElement, helement, Option.isSome_some]

/-- Classes in order are the same whatever the order was. -/
theorem mergeSort_eq_iff {classes classes' : List String} :
    (classes.mergeSort fun a b => !(b < a)) = (classes'.mergeSort fun a b => !(b < a)) ↔
      classes.Perm classes' := by
  have hperm (l : List String) := List.mergeSort_perm l fun a b => !decide (b < a)
  have hle (a b : String) : (!decide (b < a)) = true ↔ a ≤ b := by
    rw [Bool.not_eq_true', decide_eq_false_iff_not, String.not_lt]
  have hsorted (l : List String) : (l.mergeSort fun a b => !decide (b < a)).Pairwise (· ≤ ·) := by
    refine (List.pairwise_mergeSort (fun a b c hab hbc => ?_) (fun a b => ?_) l).imp
      fun {a b} hab => (hle a b).1 hab
    · exact (hle a c).2 (String.le_trans ((hle a b).1 hab) ((hle b c).1 hbc))
    · rw [Bool.or_eq_true, hle, hle]
      exact String.le_total a b
  constructor
  · exact fun h => (hperm classes).symm.trans (h ▸ hperm classes')
  · exact fun h => List.Perm.eq_of_pairwise (fun a b _ _ => String.le_antisymm) (hsorted _)
      (hsorted _) ((hperm classes).trans (h.trans (hperm classes').symm))

/-- No dot in the name or in a class. -/
structure Plain (tree : Tree) : Prop where
  name : ∀ tag ∈ tree.tag?, '.' ∉ tag.toList
  classes : ∀ c ∈ tree.classNames, '.' ∉ c.toList

instance decidablePlain (tree : Tree) : Decidable (Plain tree) :=
  decidable_of_iff ((∀ tag ∈ tree.tag?, '.' ∉ tag.toList) ∧ ∀ c ∈ tree.classNames, '.' ∉ c.toList)
    ⟨fun ⟨name, classes⟩ => ⟨name, classes⟩, fun h => ⟨h.name, h.classes⟩⟩

theorem splitWhere_written {tag : String} {classes : List String} (htag : '.' ∉ tag.toList)
    (hclasses : ∀ c ∈ classes, '.' ∉ c.toList) :
    Chars.splitWhere (· == '.') (written tag classes).toList =
      (tag :: classes.mergeSort fun a b => !(b < a)).map String.toList := by
  rw [written, Text.join, String.toList_intercalate]
  refine Chars.splitWhere_intercalate (by decide) (List.cons_ne_nil _ _) fun text htext c hc => ?_
  rw [beq_eq_false_iff_ne]
  rintro rfl
  obtain ⟨name, hname, rfl⟩ := List.mem_map.1 htext
  rcases List.mem_cons.1 hname with rfl | hname
  · exact htag hc
  · exact hclasses name ((List.mergeSort_perm _ _).mem_iff.1 hname) hc

/-- Without dots, what is written tells the name and the classes. -/
theorem written_eq_iff {tag tag' : String} {classes classes' : List String}
    (htag : '.' ∉ tag.toList) (hclasses : ∀ c ∈ classes, '.' ∉ c.toList)
    (htag' : '.' ∉ tag'.toList) (hclasses' : ∀ c ∈ classes', '.' ∉ c.toList) :
    written tag classes = written tag' classes' ↔ tag = tag' ∧ classes.Perm classes' := by
  constructor
  · intro h
    have hpieces := congrArg (fun s : String => Chars.splitWhere (· == '.') s.toList) h
    simp only [splitWhere_written htag hclasses, splitWhere_written htag' hclasses'] at hpieces
    obtain ⟨hname, hsorted⟩ := List.cons.inj ((List.map_injective_iff.2
      fun _ _ => String.toList_inj.1) hpieces)
    exact ⟨hname, mergeSort_eq_iff.1 hsorted⟩
  · rintro ⟨rfl, hperm⟩
    rw [written, written, mergeSort_eq_iff.2 hperm]

/-- One name and the same classes, in whatever order. -/
def Alike (t t' : Tree) : Prop :=
  t.tag? = t'.tag? ∧ t.classNames.Perm t'.classNames

/-- What is alike is written alike. -/
theorem Alike.signature?_eq {t t' : Tree} (h : Alike t t') : signature? t = signature? t' := by
  refine Option.ext fun signature => ?_
  rw [signature?_eq_some_iff, signature?_eq_some_iff, h.1]
  refine exists_congr fun tag => and_congr_right fun _ => and_congr_right fun _ => and_congr ?_ ?_
  · exact not_congr ⟨fun hnil => List.nil_perm.1 (hnil ▸ h.2), fun hnil => List.perm_nil.1 (hnil ▸ h.2)⟩
  · rw [written, written, mergeSort_eq_iff.2 h.2]

/-- Children that are written alike are alike. -/
def Told (parent : Place) : Prop :=
  ∀ a ∈ parent.children, ∀ b ∈ parent.children, (signature? a.tree).isSome →
    signature? a.tree = signature? b.tree → Alike a.tree b.tree

theorem told_of_plain {parent : Place} (h : ∀ c ∈ parent.children, Plain c.tree) : Told parent := by
  intro a ha b hb hsome hsame
  obtain ⟨signature, ha'⟩ := Option.isSome_iff_exists.1 hsome
  obtain ⟨tag, htag, -, -, rfl⟩ := signature?_eq_some_iff.1 ha'
  obtain ⟨tag', htag', -, -, heq⟩ := signature?_eq_some_iff.1 (hsame ▸ ha')
  obtain ⟨rfl, hperm⟩ := (written_eq_iff ((h b hb).name tag' htag') (h b hb).classes
    ((h a ha).name tag htag) (h a ha).classes).1 heq
  exact ⟨htag.trans htag'.symm, hperm.symm⟩

section groupBy

variable {α : Type} {key : α → Option String} {items group : List α}

theorem mem_groupBy_iff : group ∈ groupBy key items ↔
    ∃ a ∈ items, (key a).isSome ∧ items.filter (fun b => key b == key a) = group := by
  simp only [groupBy, List.mem_map, List.mem_eraseDups, List.mem_filterMap]
  constructor
  · rintro ⟨k, ⟨a, ha, hkey⟩, rfl⟩
    exact ⟨a, ha, by rw [hkey]; rfl, by rw [hkey]⟩
  · rintro ⟨a, ha, hkey, rfl⟩
    obtain ⟨k, hkey⟩ := Option.isSome_iff_exists.1 hkey
    exact ⟨k, ⟨a, ha, hkey⟩, by rw [hkey]⟩

/-- Items with different keys are different, so no item is in two groups. -/
theorem nodup_flatten_groupBy (h : items.Nodup) : (groupBy key items).flatten.Nodup := by
  rw [groupBy, ← List.flatMap_def, List.nodup_flatMap]
  refine ⟨fun k _ => h.filter _, (nodup_eraseDups _).imp fun {k k'} hne a ha ha' => hne ?_⟩
  rw [List.mem_filter, beq_iff_eq] at ha ha'
  exact Option.some.inj (ha.2.symm.trans ha'.2)

end groupBy

/-- The group is one class of children: in document order at least two, and all those that have one
name, which is of no element that only lays out the page, and the same classes in whatever order. -/
structure IsClass (parent : Place) (group : List Place) : Prop where
  ordered : group.Sublist parent.children
  several : 2 ≤ group.length
  complete : ∃ tag classes, tag ∉ structuralTags ∧ classes ≠ [] ∧ ∀ q, q ∈ group ↔
    q ∈ parent.children ∧ q.tree.tag? = some tag ∧ q.tree.classNames.Perm classes

/-- The groups are the classes of the parents' children. -/
def Lists (parents : Place → Prop) (groups : List (List Place)) : Prop :=
  ∀ group, group ∈ groups ↔ ∃ parent, parents parent ∧ IsClass parent group

variable {root parent : Place} {group : List Place}

theorem mem_groupsBelow_iff (hnodup : parent.children.Nodup) (htold : Told parent) :
    group ∈ groupsBelow parent ↔ IsClass parent group := by
  rw [groupsBelow, List.mem_filter, mem_groupBy_iff, decide_eq_true_iff]
  constructor
  · rintro ⟨⟨a, ha, hsome, rfl⟩, hseveral⟩
    obtain ⟨signature, hsignature⟩ := Option.isSome_iff_exists.1 hsome
    obtain ⟨tag, htag, hout, hne, rfl⟩ := signature?_eq_some_iff.1 hsignature
    refine ⟨List.filter_sublist, hseveral, tag, a.tree.classNames, hout, hne, fun q => ?_⟩
    rw [List.mem_filter, beq_iff_eq]
    refine and_congr_right fun hq => ⟨fun hsame => ?_, fun halike => ?_⟩
    · have halike := htold a ha q hq hsome hsame.symm
      exact ⟨halike.1 ▸ htag, halike.2.symm⟩
    · exact Alike.signature?_eq ⟨halike.1.trans htag.symm, halike.2⟩
  · rintro ⟨hordered, hseveral, tag, classes, hout, hne, hmem⟩
    obtain ⟨a, hgroup⟩ := List.exists_mem_of_length_pos (show 0 < group.length by omega)
    obtain ⟨ha, htag, hperm⟩ := (hmem a).1 hgroup
    have hsome : (signature? a.tree).isSome := Option.isSome_iff_exists.2 ⟨_, signature?_eq_some_iff.2
      ⟨tag, htag, hout, fun hnil => hne (List.nil_perm.1 (hnil ▸ hperm)), rfl⟩⟩
    refine ⟨⟨a, ha, hsome, ?_⟩, hseveral⟩
    refine (eq_filter_of_sublist hordered hnodup fun q hq => ?_).symm
    rw [hmem, beq_iff_eq, and_iff_right hq]
    refine ⟨fun halike => ?_, fun hsame => ?_⟩
    · exact Alike.signature?_eq ⟨halike.1.trans htag.symm, halike.2.trans hperm.symm⟩
    · have halike := htold a ha q hq hsome hsame.symm
      exact ⟨halike.1 ▸ htag, halike.2.symm.trans hperm⟩

/-- Two children that are written alike are in one group. -/
theorem exists_mem_groupsBelow {a b : Place} (ha : a ∈ parent.children) (hb : b ∈ parent.children)
    (hne : a ≠ b) (hsome : (signature? a.tree).isSome) (hsame : signature? a.tree = signature? b.tree) :
    ∃ group ∈ groupsBelow parent, a ∈ group ∧ b ∈ group := by
  have hina : a ∈ parent.children.filter (signature? ·.tree == signature? a.tree) :=
    List.mem_filter.2 ⟨ha, beq_self_eq_true _⟩
  have hinb : b ∈ parent.children.filter (signature? ·.tree == signature? a.tree) :=
    List.mem_filter.2 ⟨hb, beq_iff_eq.2 hsame.symm⟩
  refine ⟨_, List.mem_filter.2 ⟨mem_groupBy_iff.2 ⟨a, ha, hsome, rfl⟩, decide_eq_true ?_⟩, hina, hinb⟩
  have htwo : [a, b].Nodup := by simpa using hne
  refine (List.subperm_of_subset htwo fun c hc => ?_).length_le
  rcases List.mem_pair.1 hc with rfl | rfl
  · exact hina
  · exact hinb

/-- In a class all are alike. -/
theorem IsClass.alike (h : IsClass parent group) {a b : Place} (ha : a ∈ group) (hb : b ∈ group) :
    Alike a.tree b.tree := by
  obtain ⟨tag, classes, -, -, hmem⟩ := h.complete
  obtain ⟨-, htag, hperm⟩ := (hmem a).1 ha
  obtain ⟨-, htag', hperm'⟩ := (hmem b).1 hb
  exact ⟨htag.trans htag'.symm, hperm.trans hperm'.symm⟩

/-- Groups are made of children of one node, in their order, with one signature. -/
theorem alike_of_mem_groupsBelow (hgroup : group ∈ groupsBelow parent) :
    group.Sublist parent.children ∧ ∃ look, ∀ p ∈ group, signature? p.tree = some look := by
  obtain ⟨look, -, rfl⟩ := List.mem_map.1 (List.mem_of_mem_filter hgroup)
  exact ⟨List.filter_sublist, look, fun p hp => beq_iff_eq.1 (List.mem_filter.1 hp).2⟩

theorem alike_of_mem_siblingGroups (hgroup : group ∈ siblingGroups root) :
    ∃ parent ∈ root.descend, group.Sublist parent.children ∧
      ∃ look, ∀ p ∈ group, signature? p.tree = some look := by
  obtain ⟨parent, hparent, hbelow⟩ := List.mem_flatMap.1 hgroup
  refine ⟨parent, ?_, alike_of_mem_groupsBelow hbelow⟩
  rcases List.mem_cons.1 hparent with rfl | hparent
  · exact parent.self_mem_descend
  · exact (root.select_sublist _).subset hparent

theorem mem_siblingGroups (hgroup : group ∈ siblingGroups root) :
    ∃ parent ∈ root.descend, group.Sublist parent.children ∧ ∀ p ∈ group, p.isElement := by
  obtain ⟨parent, hparent, hchildren, look, halike⟩ := alike_of_mem_siblingGroups hgroup
  exact ⟨parent, hparent, hchildren, fun p hp => isElement_of_signature? (halike p hp)⟩

theorem nodup_children (h : parent.Distinct) : parent.children.Nodup :=
  (h.nodup_of_sublist parent.children_sublist).of_map Place.id

/-- Parents that come once have groups without a node in common, as a node has one parent. -/
theorem nodup_flatten_groupsBelow (hroot : root.Distinct) {parents : List Place}
    (hparents : parents.Nodup) (hbelow : parents ⊆ root.descend) :
    (parents.flatMap groupsBelow).flatten.Nodup := by
  rw [← List.flatMap_id, List.flatMap_assoc, List.nodup_flatMap]
  constructor
  · intro p hp
    rw [List.flatMap_id]
    exact (nodup_flatten_groupBy (nodup_children (hroot.descend (hbelow hp)))).sublist
      List.filter_sublist.flatten
  · refine hparents.imp fun {p q} hne a ha ha' => hne ?_
    obtain ⟨group, hgroup, ha⟩ := List.mem_flatMap.1 ha
    obtain ⟨group', hgroup', ha'⟩ := List.mem_flatMap.1 ha'
    exact Place.eq_of_mem_children ((alike_of_mem_groupsBelow hgroup).1.subset ha)
      ((alike_of_mem_groupsBelow hgroup').1.subset ha')

/-- No node is in two groups of parents that come once. -/
theorem nodup_ids_groupsBelow (hroot : root.Distinct) {parents : List Place}
    (hparents : parents.Nodup) (hbelow : parents ⊆ root.descend) :
    ((parents.flatMap groupsBelow).flatten.map Place.id).Nodup := by
  have hin : ∀ a ∈ (parents.flatMap groupsBelow).flatten, a ∈ root.descend := by
    intro a ha
    obtain ⟨group, hgroup, ha⟩ := List.mem_flatten.1 ha
    obtain ⟨p, hp, hgroup⟩ := List.mem_flatMap.1 hgroup
    exact Place.descend_trans (hbelow hp)
      (p.children_sublist.subset ((alike_of_mem_groupsBelow hgroup).1.subset ha))
  exact (nodup_flatten_groupsBelow hroot hparents hbelow).map_on fun a ha b hb =>
    hroot.eq_of_id_eq (hin a ha) (hin b hb)

/-- The groups of some parents are their classes just where what is written alike is alike. -/
theorem lists_groupsBelow_iff (hroot : root.Distinct) {parents : List Place}
    (hbelow : parents ⊆ root.descend) :
    Lists (· ∈ parents) (parents.flatMap groupsBelow) ↔ ∀ p ∈ parents, Told p := by
  constructor
  · intro hlists p hp a ha b hb hsome hsame
    by_cases hne : a = b
    · exact hne ▸ ⟨rfl, List.Perm.refl _⟩
    · obtain ⟨group, hgroup, hina, hinb⟩ := exists_mem_groupsBelow ha hb hne hsome hsame
      obtain ⟨parent, -, hclass⟩ := (hlists group).1 (List.mem_flatMap.2 ⟨p, hp, hgroup⟩)
      exact hclass.alike hina hinb
  · intro htold group
    rw [List.mem_flatMap]
    exact exists_congr fun p => and_congr_right fun hp =>
      mem_groupsBelow_iff (nodup_children (hroot.descend (hbelow hp))) (htold p hp)

/-- The groups from a node down are those of the node's children, and then those of the children of all
elements, of which the node may be the first. In each of the two rows no node is in two groups, and the
groups are the classes of the children just where siblings that are written alike are alike. -/
theorem classes_siblingGroups (hroot : root.Distinct) :
    ∃ again groups, siblingGroups root = again ++ groups ∧
      (again.flatten.map Place.id).Nodup ∧ (groups.flatten.map Place.id).Nodup ∧
      (Lists (· = root) again ↔ Told root) ∧
      (Lists (fun p => p ∈ root.descend ∧ p.isElement) groups ↔
        ∀ p ∈ root.descend, p.isElement → Told p) := by
  have hself : [root] ⊆ root.descend := fun p hp => List.mem_singleton.1 hp ▸ root.self_mem_descend
  have helements := root.select_sublist .everything
  refine ⟨groupsBelow root, (root.select .everything).flatMap groupsBelow, List.flatMap_cons,
    ?_, ?_, ?_, ?_⟩
  · have honce := nodup_ids_groupsBelow hroot (List.nodup_singleton root) hself
    rwa [List.flatMap_singleton] at honce
  · exact nodup_ids_groupsBelow hroot ((hroot.nodup_of_sublist helements).of_map Place.id)
      helements.subset
  · simpa only [List.mem_singleton, List.flatMap_singleton, forall_eq] using
      lists_groupsBelow_iff hroot hself
  · simpa only [Place.mem_select_everything, and_imp] using
      lists_groupsBelow_iff hroot helements.subset

/-- An element with a child for each of the texts of classes. -/
def cards (classes : List String) : Tree :=
  .node 0 (.element (.html "div") []) (classes.zipIdx.map fun (value, i) =>
    .node (i + 1) (.element (.html "div") [⟨.plain "class", value⟩]) [])

def wideCards : Place :=
  ⟨cards ["card wide", "card", "Wide card"], []⟩

theorem classes_siblingGroups_wideCards :
    wideCards.Distinct ∧ ∃ again groups, siblingGroups wideCards = again ++ groups ∧
      Lists (· = wideCards) again ∧ Lists (fun p => p ∈ wideCards.descend ∧ p.isElement) groups := by
  have hroot : wideCards.Distinct := by
    show wideCards.tree.ids.Nodup
    decide
  have hplain : ∀ p ∈ wideCards.descend, ∀ c ∈ p.children, Plain c.tree := by decide +kernel
  obtain ⟨again, groups, heq, -, -, hagain, hgroups⟩ := classes_siblingGroups hroot
  exact ⟨hroot, again, groups, heq, hagain.2 (told_of_plain (hplain _ wideCards.self_mem_descend)),
    hgroups.2 fun p hp _ => told_of_plain (hplain p hp)⟩

/-- The class of the first and the last of these children comes twice. -/
example : (siblingGroups wideCards).map (·.map Place.id) = [[1, 3], [1, 3]] := by
  cbv

/-- Two classes are taken for the one that has a dot. -/
example : (siblingGroups ⟨cards ["a b", "a.b"], []⟩).map (·.map Place.id) = [[1, 2], [1, 2]] := by
  cbv

end ThemeSection.Fragment
