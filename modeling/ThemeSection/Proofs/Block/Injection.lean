import ThemeSection.Proofs.Block.Collapse
import ThemeSection.Proofs.Document.Edit

/-!
Adding block types is a union. Every type that is known, was asked for and was not there is added once,
in the order in which the types were first asked for, and each shows at the end of the container, in a
loop of its own. What was there stays as it was, and asking for the same types again adds nothing.
-/

namespace ThemeSection

open Markup

namespace Markup.Tree

variable {x : NodeId} {t fragment : Tree} {row : Tree → List Tree}

theorem update_self (x : NodeId) (t : Tree) : t.update x (fun m => m) = t := by
  induction t using Tree.bottomUp with
  | node own kind children ih =>
    by_cases hid : (node own kind children).id = x
    · rw [update_of_eq hid]
    · rw [update_of_ne hid, children_node, List.map_congr_left ih, List.map_id', id_node, kind_node]

/-- What is put in the place of a new last child is put behind the children that were there. -/
theorem splice_update_append (hfresh : fragment.id ∉ t.ids) :
    (t.update x fun m => m.withChildren (m.children ++ [fragment])).splice fragment.id row =
      t.update x fun m => m.withChildren (m.children ++ row fragment) := by
  induction t using Tree.bottomUp with
  | node id kind children ih =>
    have haway : ∀ c ∈ children, fragment.id ∉ c.ids := fun c hc hin =>
      hfresh (mem_ids_iff.2 (Or.inr ⟨c, hc, hin⟩))
    by_cases hid : (node id kind children).id = x
    · have hchildren : fragment.id ∉ children.flatMap ids := fun hin =>
        let ⟨c, hc, hin⟩ := List.mem_flatMap.1 hin
        haway c hc hin
      rw [update_of_eq hid, update_of_eq hid]
      simp only [withChildren, splice, spliceAll_eq_flatMap, children_node, List.flatMap_append,
        flatMap_spliced_of_not_mem hchildren, List.flatMap_singleton, spliced, if_true]
    · rw [update_of_ne hid, update_of_ne hid]
      simp only [splice, spliceAll_eq_flatMap, children_node, List.flatMap_map]
      have hone : ∀ c ∈ children, spliced fragment.id row
          (c.update x fun m => m.withChildren (m.children ++ [fragment])) =
            [c.update x fun m => m.withChildren (m.children ++ row fragment)] := by
        intro c hc
        have hne : (c.update x fun m => m.withChildren (m.children ++ [fragment])).id ≠
            fragment.id := by
          rw [id_update fun m => id_withChildren _ m]
          exact fun heq => haway c hc (heq ▸ c.id_mem_ids)
        rw [spliced, if_neg hne, ih c hc (haway c hc)]
      rw [List.flatMap_congr hone, ← List.map_eq_flatMap]

end Markup.Tree

namespace Document

variable {d d' : Document} {x : NodeId}

theorem splice_update_append {fragment : Tree} (hfresh : fragment.id ∉ d.ids)
    (row : Tree → List Tree) :
    (d.update x fun m => m.withChildren (m.children ++ [fragment])).splice fragment.id row =
      d.update x fun m => m.withChildren (m.children ++ row fragment) := by
  have htree : ∀ t ∈ d.trees, (t.update x fun m =>
      m.withChildren (m.children ++ [fragment])).splice fragment.id row =
        t.update x fun m => m.withChildren (m.children ++ row fragment) := fun t ht =>
    Tree.splice_update_append fun hin => hfresh (List.mem_flatMap.2 ⟨t, ht, hin⟩)
  have hloose := List.map_congr_left fun t ht => htree t (List.mem_cons_of_mem _ ht)
  rw [Document.splice, Document.update, Document.update, htree d.root List.mem_cons_self]
  simp only [List.map_map]
  exact congrArg _ hloose

/-- A node that is changed stands where it stood. -/
theorem Distinct.place?_of_trees (hd : d.Distinct) (hd' : d'.Distinct) {f : Tree → Tree}
    (hf : ∀ m, (f m).id = m.id) (htrees : d'.trees = (d.update x f).trees) {p : Place}
    (hp : d.place? x = some p) : d'.place? x = some ⟨f p.tree, p.above⟩ := by
  obtain ⟨before, after, -, hupdate, -⟩ := hd.cut hp
  have hwhole : closeAll p.above (f p.tree) ∈ d'.trees := by
    rw [htrees, hupdate]
    exact List.mem_append_right _ List.mem_cons_self
  have hplace : ⟨f p.tree, p.above⟩ ∈ d'.places := mem_places_of_whole hwhole
  have hid : (f p.tree).id = x := (hf p.tree).trans (id_of_place? hp)
  have hfound := hd'.place? hplace
  rwa [Place.id, hid] at hfound

end Document

namespace BlockPass

/-- A block type that is added: its definition, and the id of the element that shows it. -/
structure Addition where
  definition : BlockDefinition
  id : NodeId

namespace Addition

/-- The element that shows the type. -/
def fragment (added : Addition) : Tree :=
  ((definitionMarkup added.definition).renumber added.id).1

/-- The first id after those of the element. -/
def next (added : Addition) : NodeId :=
  ((definitionMarkup added.definition).renumber added.id).2

/-- The element between the texts of its loop. -/
def row (added : Addition) : List Tree :=
  [.ofText added.next (Liquid.loopOpen added.definition.type), added.fragment,
    .ofText (added.next + 1) Liquid.loopClose]

theorem id_fragment (added : Addition) : added.fragment.id = added.id := by
  rw [fragment, definitionMarkup, Tree.renumber]
  rfl

end Addition

/-- Block types that are added one after the other, with ids from `next` on. -/
def additions (next : NodeId) : List BlockDefinition → List Addition
  | [] => []
  | definition :: rest =>
    let added : Addition := ⟨definition, next⟩
    added :: additions (added.next + 2) rest

/-- Whether a pass has a definition of a type. -/
def has (pass : BlockPass) (type : String) : Bool :=
  pass.definitions.any (·.type == type)

/-- The types that names add to a pass: those that are known and absent, in order of first request. -/
def newTypes (pass : BlockPass) (names : List String) : List String :=
  ((names.map Text.key).filter fun type =>
    (BlockPattern.find? type).isSome && !pass.has type).eraseDups

/-- The names that stand for no type, known or present. -/
def unknownNames (pass : BlockPass) (names : List String) : List String :=
  names.filter fun name => !pass.has (Text.key name) && (BlockPattern.find? (Text.key name)).isNone

/-- The definition that is added for a known type. -/
def sample? (type : String) : Option BlockDefinition :=
  (BlockPattern.find? type).map (.ofInstance · .sample)

/-- The definitions that names add to a pass. -/
def newDefinitions (pass : BlockPass) (names : List String) : List BlockDefinition :=
  (pass.newTypes names).filterMap sample?

/-- What names add to a pass, with ids from `next` on. -/
def added (pass : BlockPass) (next : NodeId) (names : List String) : List Addition :=
  additions next (pass.newDefinitions names)

variable {d : Document} {pass : BlockPass} {container : NodeId} {name type : String}
  {definition : BlockDefinition} {names : List String}

/-- The document with an added type shown at the end of a container. -/
def showIn (container : NodeId) (d : Document) (added : Addition) : Document :=
  { d.update container fun t => t.withChildren (t.children ++ added.row) with next := added.next + 2 }

/-- The pass with added types and the names that stand for none. -/
def join (pass : BlockPass) (added : List Addition) (unknown : List String) : BlockPass where
  definitions := pass.definitions ++ added.map (·.definition)
  records := pass.records
  regions := pass.regions ++ added.map (·.fragment.id)
  changes := pass.changes ++ added.map (.injectedBlock ·.definition.type)
  unknown := pass.unknown ++ unknown

theorem type_of_sample? (h : sample? type = some definition) : definition.type = type := by
  obtain ⟨pattern, hpattern, rfl⟩ := Option.map_eq_some_iff.1 h
  have htype : pattern.type = type := by simpa using List.find?_some hpattern
  exact htype

theorem isSome_find?_of_sample? (h : sample? type = some definition) :
    (BlockPattern.find? type).isSome := by
  obtain ⟨pattern, hpattern, -⟩ := Option.map_eq_some_iff.1 h
  exact Option.isSome_of_eq_some hpattern

/-- The loop of a type whose element has just been put into a container is the row of the type. -/
theorem wrap_append_adopt (hd : d.Distinct) (container : NodeId) (definition : BlockDefinition) :
    let adopted := d.adopt (definitionMarkup definition)
    (adopted.2.append container adopted.1).wrap adopted.1.id (Liquid.loopOpen definition.type)
      Liquid.loopClose = showIn container d ⟨definition, d.next⟩ := by
  let added : Addition := ⟨definition, d.next⟩
  have hfresh : added.fragment.id ∉ d.ids := by
    rw [Addition.id_fragment]
    exact fun hin => Nat.lt_irrefl _ (hd.fresh _ hin)
  have hrow := Document.splice_update_append (d := { d with next := added.next }) (x := container)
    hfresh fun t => [.ofText added.next (Liquid.loopOpen definition.type), t,
      .ofText (added.next + 1) Liquid.loopClose]
  exact congrArg (fun d : Document => { d with next := added.next + 2 }) hrow

theorem inject_of_has (h : pass.has (Text.key name)) :
    inject container (d, pass) name = (d, pass) := by
  rw [inject]
  exact if_pos h

theorem inject_of_unknown (h : pass.has (Text.key name) = false)
    (hunknown : BlockPattern.find? (Text.key name) = none) :
    inject container (d, pass) name = (d, pass.join [] [name]) := by
  have hnew : pass.definitions.any (·.type == Text.key name) = false := h
  rw [inject]
  simp [hnew, hunknown, join]

theorem inject_of_sample? (hd : d.Distinct) (h : pass.has (Text.key name) = false)
    (hsample : sample? (Text.key name) = some definition) :
    inject container (d, pass) name =
      (showIn container d ⟨definition, d.next⟩, pass.join [⟨definition, d.next⟩] []) := by
  have hnew : pass.definitions.any (·.type == Text.key name) = false := h
  have htype := type_of_sample? hsample
  obtain ⟨pattern, hpattern, rfl⟩ := Option.map_eq_some_iff.1 hsample
  rw [← wrap_append_adopt hd, htype]
  simp [inject, hnew, hpattern, join, htype]
  rfl

theorem has_join (pass : BlockPass) (added : List Addition) (unknown : List String) (type : String) :
    (pass.join added unknown).has type =
      (pass.has type || added.any (·.definition.type == type)) := by
  simp only [has, join, List.any_append, List.any_map]
  rfl

theorem newTypes_cons_of_neg
    (h : pass.has (Text.key name) ∨ BlockPattern.find? (Text.key name) = none) :
    pass.newTypes (name :: names) = pass.newTypes names := by
  rw [newTypes, List.map_cons, List.filter_cons_of_neg]
  · rfl
  · rcases h with h | h <;> simp [h]

/-- A new type comes first, and is there for the names behind it. -/
theorem newTypes_cons_of_pos (hnew : pass.has (Text.key name) = false)
    (hsample : sample? (Text.key name) = some definition) (id : NodeId) :
    pass.newTypes (name :: names) =
      Text.key name :: (pass.join [⟨definition, id⟩] []).newTypes names := by
  have hknown := isSome_find?_of_sample? hsample
  rw [newTypes, List.map_cons, List.filter_cons_of_pos (by simp [hknown, hnew]), List.eraseDups_cons,
    List.filter_filter]
  refine congrArg _ (congrArg List.eraseDups (List.filter_congr fun type _ => ?_))
  rw [has_join, List.any_cons, List.any_nil, type_of_sample? hsample, Bool.or_false, Bool.not_or,
    BEq.comm (a := Text.key name), Bool.and_comm, Bool.and_assoc]

theorem added_cons_of_neg (h : pass.has (Text.key name) ∨ BlockPattern.find? (Text.key name) = none)
    (next : NodeId) : pass.added next (name :: names) = pass.added next names := by
  rw [added, newDefinitions, newTypes_cons_of_neg h, added, newDefinitions]

theorem added_cons_of_pos (hnew : pass.has (Text.key name) = false)
    (hsample : sample? (Text.key name) = some definition) (next : NodeId) :
    let addition : Addition := ⟨definition, next⟩
    pass.added next (name :: names) =
      addition :: (pass.join [addition] []).added (addition.next + 2) names := by
  dsimp only
  rw [added, newDefinitions, newTypes_cons_of_pos hnew hsample next,
    List.filterMap_cons_some hsample, additions, added, newDefinitions]

theorem unknownNames_cons_of_known
    (h : pass.has (Text.key name) ∨ (BlockPattern.find? (Text.key name)).isSome) :
    pass.unknownNames (name :: names) = pass.unknownNames names := by
  refine List.filter_cons_of_neg ?_
  rcases h with h | h
  · simp [h]
  · simp [Option.isNone_iff_eq_none, Option.ne_none_iff_isSome, h]

theorem unknownNames_join {added : List Addition}
    (hadded : ∀ a ∈ added, (BlockPattern.find? a.definition.type).isSome)
    (unknown names : List String) :
    (pass.join added unknown).unknownNames names = pass.unknownNames names := by
  refine List.filter_congr fun name _ => ?_
  rw [has_join]
  cases hknown : (BlockPattern.find? (Text.key name)).isNone with
  | false => rw [Bool.and_false, Bool.and_false]
  | true =>
    have hnone : added.any (·.definition.type == Text.key name) = false := by
      refine List.any_eq_false.2 fun a ha htype => ?_
      have hsome := hadded a ha
      rw [beq_iff_eq.1 htype, ← Option.not_isNone, hknown] at hsome
      cases hsome
    rw [hnone, Bool.or_false]

theorem join_join (pass : BlockPass) (added added' : List Addition) (unknown unknown' : List String) :
    (pass.join added unknown).join added' unknown' =
      pass.join (added ++ added') (unknown ++ unknown') := by
  simp [join]

theorem distinct_showIn (hd : d.Distinct) (container : NodeId) (definition : BlockDefinition) :
    (showIn container d ⟨definition, d.next⟩).Distinct := by
  rw [← wrap_append_adopt hd]
  have happend := Document.evolves_append_adopt hd container (definitionMarkup definition)
  exact (Document.evolves_wrap happend.distinct _ _ _).distinct

theorem newTypes_join_nil (pass : BlockPass) (unknown names : List String) :
    (pass.join [] unknown).newTypes names = pass.newTypes names := by
  simp [newTypes, has_join]

/-- What names come to: each new type is shown once, and what stands for no type is told. -/
theorem injectAll_eq (hd : d.Distinct) (names : List String) :
    injectAll container names (d, pass) =
      ((pass.added d.next names).foldl (showIn container) d,
        pass.join (pass.added d.next names) (pass.unknownNames names)) := by
  induction names generalizing d pass with
  | nil => simp [injectAll, added, newDefinitions, newTypes, additions, unknownNames, join]
  | cons name rest ih =>
    have hcons : injectAll container (name :: rest) (d, pass) =
        injectAll container rest (inject container (d, pass) name) := rfl
    rw [hcons]
    cases hnew : pass.has (Text.key name) with
    | true =>
      rw [inject_of_has hnew, ih hd, added_cons_of_neg (.inl hnew),
        unknownNames_cons_of_known (.inl hnew)]
    | false =>
      cases hsample : sample? (Text.key name) with
      | none =>
        have hfind : BlockPattern.find? (Text.key name) = none := Option.map_eq_none_iff.1 hsample
        have hunknown : pass.unknownNames (name :: rest) = [name] ++ pass.unknownNames rest :=
          List.filter_cons_of_pos (by simp [hnew, hfind])
        have hsame : (pass.join [] [name]).added d.next rest = pass.added d.next rest := by
          rw [added, newDefinitions, newTypes_join_nil, added, newDefinitions]
        rw [inject_of_unknown hnew hfind, ih hd, hsame, join_join, hunknown,
          added_cons_of_neg (.inr hfind), unknownNames_join (List.forall_mem_nil _), List.nil_append]
      | some definition =>
        have hknown := isSome_find?_of_sample? hsample
        have htype : ∀ a ∈ [(⟨definition, d.next⟩ : Addition)],
            (BlockPattern.find? a.definition.type).isSome := by
          rw [List.forall_mem_singleton, type_of_sample? hsample]
          exact hknown
        rw [inject_of_sample? hd hnew hsample, ih (distinct_showIn hd container definition), join_join,
          unknownNames_cons_of_known (.inr hknown), added_cons_of_pos hnew hsample,
          unknownNames_join htype, List.nil_append]
        rfl

theorem trees_foldl_showIn (container : NodeId) (added : List Addition) (d : Document) :
    (added.foldl (showIn container) d).trees =
      (d.update container fun t => t.withChildren (t.children ++ added.flatMap Addition.row)).trees := by
  induction added generalizing d with
  | nil =>
    have hself : (fun t : Tree => t.withChildren (t.children ++ [])) = fun t => t := by
      funext t
      obtain ⟨id, kind, children⟩ := t
      rw [List.append_nil]
      rfl
    rw [List.foldl_nil, List.flatMap_nil, hself, Document.trees_update,
      List.map_congr_left fun t _ => Tree.update_self container t, List.map_id']
  | cons a rest ih =>
    have hfirst : (showIn container d a).trees =
        (d.update container fun t => t.withChildren (t.children ++ a.row)).trees := rfl
    have hboth : ∀ t : Tree,
        (t.withChildren (t.children ++ a.row)).withChildren
            ((t.withChildren (t.children ++ a.row)).children ++ rest.flatMap Addition.row) =
          t.withChildren (t.children ++ (a :: rest).flatMap Addition.row) := by
      intro t
      obtain ⟨id, kind, children⟩ := t
      rw [List.flatMap_cons, ← List.append_assoc]
      rfl
    rw [List.foldl_cons, ih, Document.trees_update, hfirst, Document.trees_update,
      Document.trees_update, List.map_map]
    refine List.map_congr_left fun t _ => ?_
    rw [Function.comp_apply, Tree.update_update fun m => Tree.id_withChildren _ m]
    exact congrArg (t.update container) (funext hboth)

theorem map_definition_additions (next : NodeId) (definitions : List BlockDefinition) :
    (additions next definitions).map (·.definition) = definitions := by
  induction definitions generalizing next with
  | nil => rfl
  | cons definition rest ih => rw [additions, List.map_cons, ih]

theorem distinct_foldl_showIn (hd : d.Distinct) (container : NodeId)
    (definitions : List BlockDefinition) :
    ((additions d.next definitions).foldl (showIn container) d).Distinct := by
  induction definitions generalizing d with
  | nil => exact hd
  | cons definition rest ih => exact ih (distinct_showIn hd container definition)

theorem mem_newTypes : type ∈ pass.newTypes names ↔
    type ∈ names.map Text.key ∧ (BlockPattern.find? type).isSome ∧ pass.has type = false := by
  rw [newTypes, List.mem_eraseDups, List.mem_filter]
  simp

theorem map_type_newDefinitions (pass : BlockPass) (names : List String) :
    (pass.newDefinitions names).map (·.type) = pass.newTypes names := by
  have hself : ∀ type ∈ pass.newTypes names, (sample? type).map (·.type) = some type := by
    intro type htype
    obtain ⟨pattern, hpattern⟩ := Option.isSome_iff_exists.1 (mem_newTypes.1 htype).2.1
    have hsample : sample? type = some (.ofInstance pattern .sample) := by rw [sample?, hpattern]; rfl
    rw [hsample, Option.map_some, type_of_sample? hsample]
  rw [newDefinitions, List.map_filterMap, List.filterMap_congr hself, List.filterMap_some]

theorem map_type_added (pass : BlockPass) (next : NodeId) (names : List String) :
    (pass.added next names).map (·.definition.type) = pass.newTypes names := by
  have hdefinitions : (pass.added next names).map (·.definition) = pass.newDefinitions names :=
    map_definition_additions next _
  rw [← map_type_newDefinitions, ← hdefinitions, List.map_map]
  rfl

/-- Names that have been taken care of add no types. -/
theorem newTypes_join_added (pass : BlockPass) (next : NodeId) (unknown names : List String) :
    (pass.join (pass.added next names) unknown).newTypes names = [] := by
  refine List.eq_nil_iff_forall_not_mem.2 fun type htype => ?_
  obtain ⟨hmem, hknown, habsent⟩ := mem_newTypes.1 htype
  rw [has_join, Bool.or_eq_false_iff] at habsent
  have hnew : type ∈ (pass.added next names).map (·.definition.type) := by
    rw [map_type_added]
    exact mem_newTypes.2 ⟨hmem, hknown, habsent.1⟩
  obtain ⟨a, ha, rfl⟩ := List.mem_map.1 hnew
  exact List.any_eq_false.1 habsent.2 a ha (beq_self_eq_true _)

theorem isSome_find?_of_mem_added {next : NodeId} {a : Addition} (h : a ∈ pass.added next names) :
    (BlockPattern.find? a.definition.type).isSome := by
  have htype : a.definition.type ∈ pass.newTypes names :=
    map_type_added pass next names ▸ List.mem_map_of_mem h
  exact (mem_newTypes.1 htype).2.1

/-- Asking again for what has been added only tells again of the names that stand for no type. -/
theorem injectAll_injectAll (hd : d.Distinct) (pass : BlockPass) (container : NodeId)
    (names : List String) :
    injectAll container names (injectAll container names (d, pass)) =
      ((injectAll container names (d, pass)).1,
        (injectAll container names (d, pass)).2.join [] (pass.unknownNames names)) := by
  have hunknown : (pass.join (pass.added d.next names) (pass.unknownNames names)).unknownNames names =
      pass.unknownNames names :=
    unknownNames_join (fun a ha => isSome_find?_of_mem_added ha) _ _
  have hnone : ∀ next, (pass.join (pass.added d.next names) (pass.unknownNames names)).added next
      names = [] := by
    intro next
    rw [added, newDefinitions, newTypes_join_added]
    rfl
  have hdistinct : ((pass.added d.next names).foldl (showIn container) d).Distinct :=
    distinct_foldl_showIn hd container (pass.newDefinitions names)
  rw [injectAll_eq hd, injectAll_eq hdistinct, hnone, hunknown]
  rfl

/-- Adding block types is a union. The new types come behind the old ones, each once and in the order
in which they were first asked for, and show at the end of the container, each in an element that is a
region and stands in a loop of its own. All else is as it was, and asking for the same types again only
tells again of the names that stand for none. -/
theorem injectAll_union (hd : d.Distinct) (htypes : (pass.definitions.map (·.type)).Nodup)
    (container : NodeId) (names : List String) :
    let added := pass.added d.next names
    let reached := injectAll container names (d, pass)
    (reached.2.definitions = pass.definitions ++ added.map (·.definition) ∧
        added.map (·.definition.type) = pass.newTypes names ∧
        (reached.2.definitions.map (·.type)).Nodup) ∧
      (reached.1.Distinct ∧
        reached.1.trees = (d.update container fun t =>
          t.withChildren (t.children ++ added.flatMap Addition.row)).trees ∧
        (∀ p ∈ d.place? container, reached.1.place? container =
          some ⟨p.tree.withChildren (p.tree.children ++ added.flatMap Addition.row), p.above⟩) ∧
        reached.2.regions = pass.regions ++ added.map (·.fragment.id)) ∧
      reached.2.records = pass.records ∧
      reached.2.changes = pass.changes ++ (pass.newTypes names).map .injectedBlock ∧
      reached.2.warnings = pass.warnings ++ (pass.unknownNames names).map unknownTypeMessage ∧
      injectAll container names reached = (reached.1,
        { reached.2 with unknown := reached.2.unknown ++ pass.unknownNames names }) := by
  have hnodup := (extends_injectAll container names (d, pass)).types htypes
  have hagain := injectAll_injectAll hd pass container names
  have hchanges : (pass.added d.next names).map (Change.injectedBlock ·.definition.type) =
      (pass.newTypes names).map .injectedBlock := by
    rw [← map_type_added pass d.next names, List.map_map]
    rfl
  dsimp only
  rw [hagain]
  rw [injectAll_eq hd] at hnodup ⊢
  have hdistinct : ((pass.added d.next names).foldl (showIn container) d).Distinct :=
    distinct_foldl_showIn hd container (pass.newDefinitions names)
  have htrees := trees_foldl_showIn container (pass.added d.next names) d
  refine ⟨⟨rfl, map_type_added pass d.next names, hnodup⟩,
    ⟨hdistinct, htrees, fun p hp => ?_, rfl⟩, rfl, ?_, ?_, ?_⟩
  · exact hd.place?_of_trees hdistinct (fun m => Tree.id_withChildren _ m) htrees hp
  · rw [← hchanges]
    rfl
  · exact List.map_append
  · simp [join]

/-- A box with a text. -/
def box : Document where
  next := 2
  root := .node 0 (.element (.html "div") []) [.ofText 1 "Old"]
  loose := []

/-- A pass that has found cards. -/
def cards : BlockPass where
  definitions := [.ofInstance
    { type := "card", name := "Card", selector := ".card", min := 2, max := 12 } .sample]

theorem injectAll_union_cards :
    (box.Distinct ∧ (cards.definitions.map (·.type)).Nodup) ∧
      let reached := injectAll 0 ["Stat", "card", "clock", "stat"] (box, cards)
      reached.2.definitions.map (·.type) = ["card", "stat"] ∧
        reached.2.warnings = ["Unknown block type 'clock' skipped"] ∧
        (injectAll 0 ["Stat", "card", "clock", "stat"] reached).1 = reached.1 := by
  have hd : box.Distinct := ⟨by decide, by decide⟩
  have htypes : (cards.definitions.map (·.type)).Nodup := List.nodup_singleton _
  have hnew : cards.newTypes ["Stat", "card", "clock", "stat"] = ["stat"] := by decide +kernel
  have hunknown : cards.unknownNames ["Stat", "card", "clock", "stat"] = ["clock"] := by
    decide +kernel
  obtain ⟨⟨hdefinitions, hadded, -⟩, -, -, -, hwarnings, hagain⟩ :=
    injectAll_union hd htypes 0 ["Stat", "card", "clock", "stat"]
  refine ⟨⟨hd, htypes⟩, ?_, ?_, ?_⟩
  · have hall : (cards.definitions ++ (cards.added box.next ["Stat", "card", "clock", "stat"]).map
        (·.definition)).map (·.type) = ["card"] ++ ["stat"] := by
      rw [List.map_append, List.map_map, ← hnew, ← hadded]
      rfl
    rw [hdefinitions]
    exact hall
  · rw [hwarnings, hunknown]
    rfl
  · rw [hagain]

end BlockPass

end ThemeSection
