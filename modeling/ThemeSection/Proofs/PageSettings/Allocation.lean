import ThemeSection.Proofs.Json.Number
import ThemeSection.Proofs.Markup.Reading
import ThemeSection.Proofs.PageSettings.Sweep
import ThemeSection.Proofs.PageSettings.Visit

/-!
How the settings of a page are given their ids. A visit takes numbers that have not been given out, or
one of two names while that is free, so no setting that it collects is there already. A node whose text
has become a setting is not open any more, or has given way to another, so no later sweep takes its
text for a setting again.
-/

namespace ThemeSection

open Markup Liquid Document

/-- What stands before the first digit of an id. -/
def idOpening (id : String) : List Char :=
  id.toList.takeWhile (!·.isDigit)

/-- The number in an id. -/
def idNumber (id : String) : Nat :=
  Nat.ofDigitChars 10 ((id.toList.dropWhile (!·.isDigit)).takeWhile Char.isDigit) 0

/-- No digits at all. -/
def Digitless (text : String) : Prop :=
  ∀ c ∈ text.toList, c.isDigit = false

instance decidableDigitless (text : String) : Decidable (Digitless text) :=
  inferInstanceAs (Decidable (∀ c ∈ text.toList, c.isDigit = false))

theorem idOpening_of_digitless {id : String} (h : Digitless id) : idOpening id = id.toList :=
  List.takeWhile_eq_self_iff.2 fun c hc => by simp [h c hc]

section

variable {opening ending : String} (hopening : Digitless opening) (n : Nat)
include hopening

theorem idOpening_numbered (ending : String) :
    idOpening (opening ++ toString n ++ ending) = opening.toList := by
  have hdigits : (toString n).toList = Nat.toDigits 10 n := Nat.toList_repr
  obtain ⟨c, rest, hcons, hdigit⟩ := (Json.Digital.toDigits n).exists_cons
  rw [idOpening, String.toList_append, String.toList_append, hdigits, hcons, List.append_assoc,
    List.takeWhile_append_of_pos fun c hc => by simp [hopening c hc]]
  simp [hdigit]

theorem idNumber_numbered (hending : Digitless ending) :
    idNumber (opening ++ toString n ++ ending) = n := by
  have hdigits : (toString n).toList = Nat.toDigits 10 n := Nat.toList_repr
  obtain ⟨c, rest, hcons, hdigit⟩ := (Json.Digital.toDigits n).exists_cons
  have hend : ending.toList.head?.any Char.isDigit = false := by
    cases hlist : ending.toList with
    | nil => rfl
    | cons c rest => exact hending c (hlist ▸ List.mem_cons_self)
  have hdrop : (Nat.toDigits 10 n ++ ending.toList).dropWhile (!·.isDigit) =
      Nat.toDigits 10 n ++ ending.toList := by
    rw [hcons, List.cons_append, List.dropWhile_cons_of_neg (by simp [hdigit])]
  rw [idNumber, String.toList_append, String.toList_append, hdigits, List.append_assoc,
    List.dropWhile_append_of_pos fun c hc => by simp [hopening c hc], hdrop,
    (Json.takeWhile_isDigit_append (Json.Digital.toDigits n).digits hend).1,
    Nat.ofDigitChars_ten_toDigits]

end

/-- Elements of one name are not of another. -/
theorem Selector.not_holds_tags {names others : List String} {p : Place}
    (hapart : ∀ isHtml : Bool, ∀ a ∈ names, ∀ b ∈ others, localName isHtml a ≠ localName isHtml b)
    (h : (Selector.tags names).holds p) : ¬ (Selector.tags others).holds p := by
  intro h'
  obtain ⟨element, helement, a, ha, hname⟩ := exists_name_of_holds_tags h
  obtain ⟨other, hother, b, hb, hname'⟩ := exists_name_of_holds_tags h'
  obtain rfl := Option.some.inj (helement.symm.trans hother)
  exact hapart _ a ha b hb (hname.symm.trans hname')

namespace SettingScope

variable {scope : SettingScope}

theorem count_nextIndex_self (stem : String) :
    (scope.nextIndex stem).2.count stem = scope.count stem + 1 := by
  simp [nextIndex, count]

theorem count_nextIndex_of_ne {stem other : String} (h : other ≠ stem) :
    (scope.nextIndex stem).2.count other = scope.count other := by
  have hkept : ∀ counts : List (String × Nat),
      (counts.filter (·.1 != stem)).lookup other = counts.lookup other := by
    intro counts
    induction counts with
    | nil => rfl
    | cons entry rest ih =>
      obtain ⟨name, n⟩ := entry
      by_cases hname : name = stem
      · subst hname
        rw [List.filter_cons_of_neg (by simp), ih, List.lookup_cons, beq_false_of_ne h]
      · rw [List.filter_cons_of_pos (by simp [hname]), List.lookup_cons, List.lookup_cons, ih]
  rw [nextIndex, count, List.lookup_cons, beq_false_of_ne h]
  exact congrArg (Option.getD · 0) (hkept scope.counts)

/-- Settings with new ids, no two of them the same, are all added. -/
theorem settings_pushAll {settings : List Setting} (hnew : ∀ setting ∈ settings, setting.id ∉ scope.ids)
    (hnodup : (settings.map Setting.id).Nodup) :
    (scope.pushAll settings).settings = scope.settings ++ settings := by
  induction settings generalizing scope with
  | nil => exact (List.append_nil _).symm
  | cons setting rest ih =>
    obtain ⟨hsetting, hrest⟩ := List.forall_mem_cons.1 hnew
    obtain ⟨hfirst, hnodup⟩ := List.nodup_cons.1 hnodup
    have hpush : (scope.push setting).settings = scope.settings ++ [setting] := by
      rw [push, if_neg fun hhas => hsetting (has_iff.1 hhas)]
    have hnext : ∀ other ∈ rest, other.id ∉ (scope.push setting).ids := by
      intro other hother hin
      rcases mem_ids_push.1 hin with hin | heq
      · exact hrest other hother hin
      · exact hfirst (heq ▸ List.mem_map_of_mem hother)
    exact (ih hnext hnodup).trans (by rw [hpush, List.append_assoc, List.singleton_append])

/-- Settings are only added behind those that are there. -/
theorem ids_prefix_pushAll (settings : List Setting) : scope.ids <+: (scope.pushAll settings).ids := by
  refine List.foldlRecOn (motive := fun pushed => scope.ids <+: pushed.ids) settings push
    (List.prefix_refl _) fun pushed h setting _ => h.trans ?_
  unfold push
  split
  · exact List.prefix_refl _
  · exact (List.prefix_append _ _).map _

theorem count_pushAll (settings : List Setting) (stem : String) :
    (scope.pushAll settings).count stem = scope.count stem := by
  refine List.foldlRecOn (motive := fun pushed => pushed.count stem = scope.count stem) settings push
    rfl fun pushed h setting _ => ?_
  rw [← h, push]
  split <;> rfl

end SettingScope

namespace Sweep

variable {context : Context} {s : Sweep} {p : Place}

namespace Visit

/-- The kinds of visits. -/
def all : List Visit :=
  [navTitle, navLink, heading, paragraph, button, image, background]

theorem mem_all (v : Visit) : v ∈ all := by
  cases v <;> decide

theorem opening_injective {v w : Visit} (h : v.opening.toList = w.opening.toList) : v = w := by
  have hall : ∀ a ∈ all, ∀ b ∈ all, a.opening.toList = b.opening.toList → a = b := by decide
  exact hall v v.mem_all w w.mem_all h

theorem digitless_opening (v : Visit) : Digitless v.opening := by
  cases v <;> decide

end Visit

/-- Of the ids with a number there are only those whose number has been given out. -/
def Covers (scope : SettingScope) : Prop :=
  ∀ id ∈ scope.ids, ∀ v : Visit, idOpening id = v.opening.toList → idNumber id ≤ scope.count v.stem

/-- An id that was not there; if it has a number, that is given out now. -/
structure Takes (scope scope' : SettingScope) (id : String) : Prop where
  new : Covers scope → id ∉ scope.ids
  covered : ∀ v : Visit, idOpening id = v.opening.toList → idNumber id ≤ scope'.count v.stem

theorem takes_numbered (s : Sweep) (v : Visit) (ending : String) (hending : Digitless ending) :
    Takes s.scope (s.scope.nextIndex v.stem).2 (v.numbered s ++ ending) := by
  have hnumber : idNumber (v.numbered s ++ ending) = s.scope.count v.stem + 1 :=
    idNumber_numbered v.digitless_opening _ hending
  have hopening : idOpening (v.numbered s ++ ending) = v.opening.toList :=
    idOpening_numbered v.digitless_opening _ ending
  constructor
  case new =>
    intro hcovers hin
    have hle := hcovers _ hin v hopening
    omega
  case covered =>
    intro w hw
    obtain rfl := Visit.opening_injective (hopening.symm.trans hw)
    rw [hnumber, SettingScope.count_nextIndex_self]

theorem takes_number (s : Sweep) (v : Visit) :
    Takes s.scope (s.scope.nextIndex v.stem).2 (v.numbered s) := by
  have h := takes_numbered s v "" (by decide)
  rwa [String.append_empty] at h

/-- The names of backgrounds. -/
def backgroundNames : List String :=
  ["hero_background_image", "shop_background_image"]

theorem backgroundName?_mem {name : String} (h : backgroundName? p = some name) :
    name ∈ backgroundNames := by
  have hnames : ∀ hero shop : Bool, ∀ name ∈ (if hero then some "hero_background_image"
      else if shop then some "shop_background_image" else none), name ∈ backgroundNames := by
    decide
  exact hnames _ _ name h

theorem takes_backgroundId (s : Sweep) (p : Place) :
    Takes s.scope (s.backgroundId p).2.scope (s.backgroundId p).1 := by
  have hplain : ∀ name ∈ backgroundNames, Digitless name ∧ ∀ v ∈ Visit.all,
      name.toList ≠ v.opening.toList := by
    decide
  unfold backgroundId
  split
  case h_1 name hname =>
    obtain ⟨hname, hfree⟩ := Option.filter_eq_some_iff.1 hname
    obtain ⟨hdigitless, hopening⟩ := hplain name (backgroundName?_mem hname)
    constructor
    case new => exact fun _ hin => by simp [SettingScope.has_iff.2 hin] at hfree
    case covered =>
      intro v hv
      rw [idOpening_of_digitless hdigitless] at hv
      exact absurd hv (hopening v v.mem_all)
  case h_2 => exact takes_number s .background

namespace Visit

variable {v : Visit} {b : Binding}

/-- What is known of every setting that a visit binds. -/
structure Binds (s : Sweep) (p : Place) (v : Visit) (b : Binding) : Prop where
  visit : b.visit = v
  node : b.node = p.id
  takes : Takes s.scope (v.counted s p) b.setting.id
  content : b.spot = .content → v.manner.overwrites

theorem binds_of_mem_bound (h : b ∈ v.bound s p) : Binds s p v b := by
  cases v with
  | navTitle | heading | paragraph =>
    obtain rfl := List.mem_singleton.1 h
    exact ⟨rfl, rfl, takes_number s _, fun _ => rfl⟩
  | navLink =>
    rcases List.mem_cons.1 h with rfl | h
    · exact ⟨rfl, rfl, takes_numbered s _ _ (by decide), fun _ => rfl⟩
    · obtain rfl := List.mem_singleton.1 h
      exact ⟨rfl, rfl, takes_numbered s _ _ (by decide), fun _ => rfl⟩
  | button =>
    rcases List.mem_cons.1 h with rfl | h
    · exact ⟨rfl, rfl, takes_numbered s _ _ (by decide), fun _ => rfl⟩
    · split at h
      · obtain rfl := List.mem_singleton.1 h
        exact ⟨rfl, rfl, takes_numbered s _ _ (by decide), fun _ => rfl⟩
      · cases h
  | image =>
    rcases List.mem_cons.1 h with rfl | h
    · exact ⟨rfl, rfl, takes_number s _, fun hspot => by cases hspot⟩
    · split at h
      · cases h
      · obtain rfl := List.mem_singleton.1 h
        exact ⟨rfl, rfl, takes_numbered s _ _ (by decide), fun hspot => by cases hspot⟩
  | background =>
    obtain rfl := List.mem_singleton.1 h
    exact ⟨rfl, rfl, takes_backgroundId s p, fun hspot => by cases hspot⟩

theorem nodup_bound (v : Visit) (s : Sweep) (p : Place) :
    ((v.bound s p).map (·.setting.id)).Nodup := by
  have hpair {a b : String} (hne : a ≠ b) : [v.numbered s ++ a, v.numbered s ++ b].Nodup := by
    simp [hne]
  cases v with
  | navTitle | heading | paragraph | background => exact List.nodup_singleton _
  | navLink => exact hpair (by decide)
  | button =>
    simp only [bound]
    split
    · exact hpair (by decide)
    · exact List.nodup_singleton _
  | image =>
    have halt : [image.numbered s ++ "", image.numbered s ++ "_alt"].Nodup := hpair (by decide)
    rw [String.append_empty] at halt
    simp only [bound]
    split
    · exact List.nodup_singleton _
    · exact halt

theorem settings_counted (s : Sweep) (p : Place) (v : Visit) :
    (v.counted s p).settings = s.scope.settings := by
  cases v with
  | background => exact (backgroundId_cases s p).2.settings
  | _ => rfl

theorem le_count_counted (s : Sweep) (p : Place) (v : Visit) (stem : String) :
    s.scope.count stem ≤ (v.counted s p).count stem := by
  have hnext (other : String) : s.scope.count stem ≤ (s.scope.nextIndex other).2.count stem := by
    by_cases h : stem = other
    · rw [h, SettingScope.count_nextIndex_self]
      exact Nat.le_succ _
    · rw [SettingScope.count_nextIndex_of_ne h]
  cases v with
  | background =>
    rw [counted, backgroundId]
    split
    · exact Nat.le_refl _
    · exact hnext _
  | _ => exact hnext _

/-- Every setting that a visit collects is added. -/
theorem settings_made (h : Covers s.scope) (p : Place) (v : Visit) :
    (v.made s p).scope.settings = s.scope.settings ++ (v.bound s p).map (·.setting) := by
  have hsettings := settings_counted s p v
  have hids : (v.counted s p).ids = s.scope.ids := congrArg (List.map Setting.id) hsettings
  have hnew : ∀ setting ∈ (v.bound s p).map (·.setting), setting.id ∉ (v.counted s p).ids := by
    intro setting hsetting
    obtain ⟨b, hb, rfl⟩ := List.mem_map.1 hsetting
    rw [hids]
    exact (binds_of_mem_bound hb).takes.new h
  have hnodup : (((v.bound s p).map (·.setting)).map Setting.id).Nodup := by
    rw [List.map_map]
    exact nodup_bound v s p
  rw [made, SettingScope.settings_pushAll hnew hnodup, hsettings]

theorem nodup_ids_made (h : Covers s.scope) (hids : s.scope.ids.Nodup) (p : Place) (v : Visit) :
    (v.made s p).scope.ids.Nodup := by
  rw [SettingScope.ids, settings_made h, List.map_append, List.map_map]
  refine List.nodup_append.2 ⟨hids, nodup_bound v s p, ?_⟩
  rintro id hid _ hnew rfl
  obtain ⟨b, hb, hbid⟩ := List.mem_map.1 hnew
  rw [← show b.setting.id = id from hbid] at hid
  exact (binds_of_mem_bound hb).takes.new h hid

/-- All numbers of a visit are counted. -/
theorem covers_made (h : Covers s.scope) (p : Place) (v : Visit) : Covers (v.made s p).scope := by
  intro id hid w hw
  rw [SettingScope.ids, settings_made h, List.map_append, List.mem_append] at hid
  rw [made, SettingScope.count_pushAll]
  rcases hid with hold | hnew
  · exact Nat.le_trans (h id hold w hw) (le_count_counted s p v _)
  · obtain ⟨setting, hsetting, rfl⟩ := List.mem_map.1 hnew
    obtain ⟨b, hb, rfl⟩ := List.mem_map.1 hsetting
    exact (binds_of_mem_bound hb).takes.covered w hw

end Visit

/-- Visits one after the other, with all that they bind. Each is to an element that is there, and if
the content of that may go, it is of the kind that the visit is for. An element that was there from the
start is one that the sweep came by. The sweeps come in their turn. -/
inductive Run (context : Context) (start : Sweep) : List Binding → Sweep → Prop
  | nil : Run context start [] start
  | visit {log : List Binding} {s : Sweep} {p : Place} (v : Visit) : Run context start log s →
      s.document.place? p.id = some p → p.isElement →
      (v.manner.overwrites → v.selector.holds p) →
      (∀ a ∈ start.document.places, a.id = p.id → v.reaches context a) →
      (∀ b ∈ log, b.visit.turn ≤ v.turn) →
      Run context start (log ++ v.bindings context s p) (v.run context s p)

variable {start : Sweep} {log : List Binding}

theorem Run.follows (h : Run context start log s) (hd : start.document.Distinct) :
    Follows context start.document s.document := by
  induction h with
  | nil => exact .refl hd
  | visit v _ hp helement _ _ _ ih =>
    exact ih.trans ((v.step_run context hp helement).follows ih.distinct hp helement)

theorem Visit.of_mem_bindings {v : Visit} {b : Binding} (h : b ∈ v.bindings context s p) :
    v.ready context p ∧ b ∈ v.bound s p := by
  rw [bindings] at h
  split at h
  case isTrue hready => exact ⟨hready, h⟩
  case isFalse => cases h

/-- Up to the turn of a sweep. -/
def RunTo (context : Context) (start : Sweep) (turn : Nat) (s : Sweep) : Prop :=
  ∃ log, Run context start log s ∧ ∀ b ∈ log, b.visit.turn ≤ turn

theorem RunTo.mono {turn turn' : Nat} (h : RunTo context start turn s) (hle : turn ≤ turn') :
    RunTo context start turn' s := by
  obtain ⟨log, hrun, hturn⟩ := h
  exact ⟨log, hrun, fun b hb => Nat.le_trans (hturn b hb) hle⟩

/-- Going over the elements that a visit is for, from a node down that the sweep comes by, goes on with
a run. -/
theorem RunTo.forEach (hd : start.document.Distinct) {v : Visit} (h : RunTo context start v.turn s)
    {top : NodeId} (htop : ∀ a ∈ start.document.places, a.isWithin top → v.reaches context a) :
    RunTo context start v.turn (s.forEach (s.selected top v.selector) (v.run context)) := by
  obtain ⟨touched, hevolves⟩ : ∃ touched, start.document.Evolves touched s.document := by
    obtain ⟨log, hrun, -⟩ := h
    obtain ⟨touched, hevolves, -⟩ := (hrun.follows hd).evolves
    exact ⟨touched, hevolves⟩
  have hd' := hevolves.distinct
  refine (forEach_induct (motive := fun s' => RunTo context start v.turn s' ∧
    Follows context s.document s'.document) ⟨h, .refl hd'⟩ ?_).1
  rintro s' p hid hp ⟨⟨log, hrun, hturn⟩, hfollows⟩
  obtain ⟨q, hq, hqid, hholds⟩ := mem_selected hid
  have hmem := mem_places_of_place? hp
  obtain ⟨touched, hbecomes, -⟩ := hfollows.becomes hd' hq hmem hqid.symm
  have helement : p.isElement := hbecomes.isElement.trans (Place.isElement_of_holds hholds)
  have hkind : v.manner.overwrites → v.selector.holds p := by
    intro hoverwrites
    rw [hfollows.holds_eq hd' hq hmem hqid.symm (Visit.isPlain_selector hoverwrites)]
    exact hholds
  have hreaches : ∀ a ∈ start.document.places, a.id = p.id → v.reaches context a := by
    intro a ha hid'
    obtain ⟨t, ht, rfl, hin⟩ := isUnder_of_evolves hevolves (hid' ▸ hd.lt_next_of_place ha)
      (isUnder_selected hid)
    exact htop a ha (hd.isWithin_of_mem_ids ha ht (hid' ▸ hin))
  refine ⟨⟨_, hrun.visit v hp helement hkind hreaches hturn, ?_⟩,
    hfollows.trans ((v.step_run context hp helement).follows hfollows.distinct hp helement)⟩
  refine List.forall_mem_append.2 ⟨hturn, fun b hb => ?_⟩
  rw [(Visit.binds_of_mem_bound (Visit.of_mem_bindings hb).2).visit]

/-- The sweep over navigation comes by whatever stands in one of its containers. -/
theorem reaches_of_container (hd : s.document.Distinct) {c : NodeId}
    (hc : c ∈ (s.document.place? context.root).toList.flatMap fun root =>
      (containers context root).map (·.id)) :
    ∀ a ∈ s.document.places, a.isWithin c → Visit.navTitle.reaches context a := by
  intro a ha hwithin
  obtain ⟨root, hroot, hc⟩ := List.mem_flatMap.1 hc
  obtain ⟨container, hcontainer, rfl⟩ := List.mem_map.1 hc
  obtain ⟨hselected, hregions⟩ := List.mem_filter.1 hcontainer
  obtain ⟨hbelow, hholds⟩ := List.mem_filter.1 hselected
  have hroot := Option.mem_toList.1 hroot
  have hmem := mem_places_descend (mem_places_of_place? hroot) hbelow
  have hin : container ∈ a :: a.ancestors := by
    rcases Place.isWithin_iff_ancestors.1 hwithin with hself | ⟨b, hb, hid⟩
    · exact hd.place_eq_of_id_eq hmem ha hself.symm ▸ List.mem_cons_self
    · exact hd.place_eq_of_id_eq (mem_places_ancestors ha hb) hmem hid ▸ List.mem_cons_of_mem _ hb
  refine List.any_eq_true.2 ⟨container, hin, ?_⟩
  rw [hholds, hregions, ← id_of_place? hroot]
  exact Place.isWithin_of_mem_descend hbelow

/-- All sweeps together are one run. -/
theorem run_all (context : Context) (hd : s.document.Distinct) : ∃ log, Run context s log
    ([navigation, headings, paragraphs, buttons, images, backgrounds].foldl
      (fun s sweep => sweep context s) s) := by
  have hstart : RunTo context s 0 s := ⟨[], .nil, List.forall_mem_nil _⟩
  have hnavigation : RunTo context s 0 (navigation context s) := by
    refine List.foldlRecOn _ _ hstart fun s' h container hcontainer => ?_
    have hin := reaches_of_container hd hcontainer
    exact RunTo.forEach hd (v := .navLink) (RunTo.forEach hd (v := .navTitle) h hin) hin
  have hheadings : RunTo context s 1 (headings context _) :=
    RunTo.forEach hd (v := .heading) (hnavigation.mono (by decide)) fun _ _ h => h
  have hparagraphs : RunTo context s 2 (paragraphs context _) :=
    RunTo.forEach hd (v := .paragraph) (hheadings.mono (by decide)) fun _ _ h => h
  have hbuttons : RunTo context s 3 (buttons context _) :=
    RunTo.forEach hd (v := .button) (hparagraphs.mono (by decide)) fun _ _ h => h
  have himages : RunTo context s 4 (images context _) :=
    RunTo.forEach hd (v := .image) (hbuttons.mono (by decide)) fun _ _ h => h
  have hbackgrounds : RunTo context s 5 (backgrounds context _) :=
    RunTo.forEach hd (v := .background) (himages.mono (by decide)) fun _ _ h => h
  obtain ⟨log, hrun, -⟩ := hbackgrounds
  simp only [List.foldl_cons, List.foldl_nil]
  exact ⟨log, hrun⟩

/-- The text of the node cannot become a setting again: it marks the node, or the node is a paragraph
that has given way to another node. -/
def Taken (d : Document) (b : Binding) : Prop :=
  (∀ n ∈ d.nodes, n.id = b.node → n.isMarked) ∨
    b.visit = .paragraph ∧ ∃ q ∈ d.places, q.id = b.node ∧ (Selector.tags ["p"]).holds q

variable {d d' : Document} {b : Binding}

theorem Taken.follows (h : Taken d b) (hd : d.Distinct) (hretold : d.Retold d')
    (hfollows : Follows context d d') : Taken d' b := by
  rcases h with hmarked | ⟨hvisit, q, hq, hid, hholds⟩
  · left
    intro n' hn' hid'
    rcases hretold n' hn' with hmarked' | ⟨n, hn, hid, htext⟩
    · exact hmarked'
    · exact (Tree.isMarked_congr htext).trans (hmarked n hn (hid.trans hid'))
  · right
    obtain ⟨touched, hevolves, -⟩ := hfollows.evolves
    obtain ⟨n', hn', hbecomes⟩ := hevolves.exists_becomes hd (tree_mem_nodes hq)
    rw [← map_tree_places] at hn'
    obtain ⟨q', hq', rfl⟩ := List.mem_map.1 hn'
    refine ⟨hvisit, q', hq', hbecomes.id.trans hid, ?_⟩
    rw [hfollows.holds_eq hd hq hq' hbecomes.id (by decide)]
    exact hholds

/-- What has been allocated: all settings that visits collect, in turn and under ids of their own. -/
structure Allocated (start : Sweep) (log : List Binding) (s : Sweep) : Prop where
  document : s.document = (log.flatMap (·.edits)).foldl Document.apply start.document
  settings : s.scope.settings = start.scope.settings ++ log.map (·.setting)
  covers : Covers s.scope
  ids : s.scope.ids.Nodup
  taken : ∀ b ∈ log, b.spot = .content → Taken s.document b
  texts : ∀ a ∈ log, ∀ b ∈ log, a.spot = .content → b.spot = .content → a.node = b.node →
    a.visit.turn = b.visit.turn

section

variable (hd : s.document.Distinct) (hp : s.document.place? p.id = some p) (helement : p.isElement)
  {v : Visit} (hready : v.ready context p)
include hd hp helement hready

theorem taken_of_mem_bound (hholds : v.manner.overwrites → v.selector.holds p) (hb : b ∈ v.bound s p)
    (hspot : b.spot = .content) : Taken (v.run context s p).document b := by
  have hbinds := Visit.binds_of_mem_bound hb
  have hoverwrites := hbinds.content hspot
  by_cases hparagraph : v = .paragraph
  · subst hparagraph
    have hstep := Visit.step_run context hp helement .paragraph
    have hnow : Taken s.document b :=
      Or.inr ⟨hbinds.visit, p, mem_places_of_place? hp, hbinds.node.symm, hholds hoverwrites⟩
    exact hnow.follows hd (hstep.retold hp helement hd) (hstep.follows hd hp helement)
  · have hmanner : v.manner = .content := by
      cases v with
      | paragraph => exact absurd rfl hparagraph
      | image | background => cases hoverwrites
      | _ => rfl
    left
    intro n hn hid
    rw [Visit.run_eq context hp helement, if_pos hready] at hn
    exact (hmanner ▸ Visit.writes_bound hready helement s).isMarked hd hp helement hn
      (hid.trans hbinds.node)

/-- A node whose text has become a setting can only be visited again by the same sweep. -/
theorem turn_eq_of_taken (hoverwrites : v.manner.overwrites) (hholds : v.selector.holds p)
    {a : Binding} (htaken : Taken s.document a) (hturn : a.visit.turn ≤ v.turn)
    (hnode : a.node = p.id) : a.visit.turn = v.turn := by
  have hmem := mem_places_of_place? hp
  rcases htaken with hmarked | ⟨hvisit, q, hq, hid, hparagraph⟩
  · have hopen := Visit.isOpenText_of_ready hoverwrites hready
    simp only [isOpenText, isOpen, Bool.and_eq_true, Bool.not_eq_true'] at hopen
    have hnot : p.tree.isMarked = false := hopen.2.2
    rw [hmarked p.tree (tree_mem_nodes hmem) hnode.symm] at hnot
    cases hnot
  · obtain rfl := hd.place_eq_of_id_eq hq hmem (hid.trans hnode)
    rw [hvisit] at hturn ⊢
    cases v with
    | navTitle | navLink | heading => exact absurd hturn (by decide)
    | paragraph => rfl
    | button => exact absurd hholds (Selector.not_holds_tags (by decide) hparagraph)
    | image | background => cases hoverwrites

end

theorem Allocated.visit (h : Allocated start log s) (hd : s.document.Distinct)
    (hp : s.document.place? p.id = some p) (helement : p.isElement) {v : Visit}
    (hholds : v.manner.overwrites → v.selector.holds p) (hturn : ∀ b ∈ log, b.visit.turn ≤ v.turn) :
    Allocated start (log ++ v.bindings context s p) (v.run context s p) := by
  rw [Visit.bindings]
  by_cases hready : v.ready context p
  case neg =>
    rw [Visit.run_eq context hp helement, if_neg hready, if_neg hready, List.append_nil]
    exact h
  have hrun : v.run context s p = v.made s p := by
    rw [Visit.run_eq context hp helement, if_pos hready]
  have hstep := Visit.step_run context hp helement v
  have hkept : ∀ b ∈ log, b.spot = .content → Taken (v.run context s p).document b :=
    fun b hb hspot => (h.taken b hb hspot).follows hd (hstep.retold hp helement hd)
      (hstep.follows hd hp helement)
  rw [if_pos hready]
  constructor
  case document =>
    rw [hrun, Visit.made, h.document, List.flatMap_append, List.foldl_append]
  case settings =>
    rw [hrun, Visit.settings_made h.covers, h.settings, List.map_append, List.append_assoc]
  case covers =>
    rw [hrun]
    exact Visit.covers_made h.covers p v
  case ids =>
    rw [hrun]
    exact Visit.nodup_ids_made h.covers h.ids p v
  case taken =>
    exact List.forall_mem_append.2 ⟨hkept, fun b hb hspot =>
      taken_of_mem_bound hd hp helement hready hholds hb hspot⟩
  case texts =>
    have hagain : ∀ a ∈ log, ∀ b ∈ v.bound s p, a.spot = .content → b.spot = .content →
        a.node = b.node → a.visit.turn = b.visit.turn := by
      intro a ha b hb haspot hbspot hnode
      have hbinds := Visit.binds_of_mem_bound hb
      have hoverwrites := hbinds.content hbspot
      rw [hbinds.visit]
      exact turn_eq_of_taken hd hp helement hready hoverwrites (hholds hoverwrites)
        (h.taken a ha haspot) (hturn a ha) (hnode.trans hbinds.node)
    intro a ha b hb haspot hbspot hnode
    rcases List.mem_append.1 ha with ha | ha
    · rcases List.mem_append.1 hb with hb | hb
      · exact h.texts a ha b hb haspot hbspot hnode
      · exact hagain a ha b hb haspot hbspot hnode
    · rcases List.mem_append.1 hb with hb | hb
      · exact (hagain b hb a ha hbspot haspot hnode.symm).symm
      · rw [(Visit.binds_of_mem_bound ha).visit, (Visit.binds_of_mem_bound hb).visit]

theorem Run.allocated (h : Run context start log s) (hd : start.document.Distinct)
    (hcovers : Covers start.scope) (hids : start.scope.ids.Nodup) : Allocated start log s := by
  induction h with
  | nil =>
    exact ⟨rfl, (List.append_nil _).symm, hcovers, hids, List.forall_mem_nil _, List.forall_mem_nil _⟩
  | visit v hrun hp helement hholds _ hturn ih =>
    exact ih.visit (hrun.follows hd).distinct hp helement hholds hturn

end Sweep

/-- The settings of a loop over products are under two fixed ids. -/
theorem FeaturedPass.id_mem_of_replace (root : Place) (pageType : PageType) (options : Options)
    (d : Document) : ∀ setting ∈ (replace root pageType options d).2.settings,
      setting.id ∈ [collectionSetting, countSetting] := by
  have hsettings (count : Nat) : ∀ setting ∈ settingsFor pageType count,
      setting.id ∈ [collectionSetting, countSetting] := by
    rw [settingsFor, List.forall_mem_append]
    refine ⟨?_, List.forall_mem_singleton.2 (List.mem_cons_of_mem _ (List.mem_singleton_self _))⟩
    split
    · exact List.forall_mem_nil _
    · exact List.forall_mem_singleton.2 List.mem_cons_self
  unfold replace
  split
  · exact List.forall_mem_nil _
  · exact List.forall_mem_nil _
  · exact hsettings _

namespace PageSettings

/-- Settings are given to nodes one to one. -/
structure OneToOne (seeded : List Setting) (log : List Sweep.Binding) (settings : List Setting) :
    Prop where
  /-- Nothing that a visit collects is left out. -/
  kept : settings = seeded ++ log.map (·.setting)
  ids : (settings.map Setting.id).Nodup
  colors : ["background_color", "text_color"] <+: settings.map Setting.id
  /-- No setting goes to two nodes, or to two attributes of a node. -/
  nodes : ∀ a ∈ log, ∀ b ∈ log, a.setting.id = b.setting.id → a.node = b.node ∧ a.spot = b.spot
  /-- No node gives its text to two sweeps. -/
  texts : ∀ a ∈ log, ∀ b ∈ log, a.spot = .content → b.spot = .content → a.node = b.node →
    a.visit.turn = b.visit.turn

theorem oneToOne_of_allocated {start final : Sweep} {log : List Sweep.Binding}
    (h : Sweep.Allocated start log final)
    (hcolors : ["background_color", "text_color"] <+: start.scope.ids) :
    OneToOne start.scope.settings log final.scope.settings where
  kept := h.settings
  ids := h.ids
  colors := by
    rw [h.settings, List.map_append]
    exact hcolors.trans (List.prefix_append _ _)
  nodes := by
    intro a ha b hb hid
    have hids : (final.scope.settings.map Setting.id).Nodup := h.ids
    rw [h.settings, List.map_append, List.map_map] at hids
    obtain rfl := List.inj_on_of_nodup_map (List.nodup_append.1 hids).2.1 ha hb hid
    exact ⟨rfl, rfl⟩
  texts := h.texts

/-- The ids that a page with a loop over products begins with have no numbers. -/
theorem covers_pushAll {seed : List Setting} (hseed : ∀ setting ∈ seed,
    setting.id ∈ [FeaturedPass.collectionSetting, FeaturedPass.countSetting]) :
    Sweep.Covers (SettingScope.start.pushAll seed) := by
  have hfixed : ∀ id ∈ SettingScope.start.ids ++ [FeaturedPass.collectionSetting,
      FeaturedPass.countSetting], Digitless id ∧ ∀ v ∈ Sweep.Visit.all, id.toList ≠ v.opening.toList := by
    decide
  intro id hid v hv
  have hmem : id ∈ SettingScope.start.ids ++ [FeaturedPass.collectionSetting,
      FeaturedPass.countSetting] := by
    refine List.mem_append.2 ((SettingScope.mem_ids_pushAll.1 hid).imp_right fun hid => ?_)
    obtain ⟨setting, hsetting, rfl⟩ := List.mem_map.1 hid
    exact hseed setting hsetting
  obtain ⟨hdigitless, hopening⟩ := hfixed id hmem
  rw [idOpening_of_digitless hdigitless] at hv
  exact absurd hv (hopening v v.mem_all)

/-- A page that begins with the settings of a loop over products gives its settings to nodes one to
one. The log holds whatever the visits bind, and the page has changed by that alone. -/
theorem oneToOne_extract (root : NodeId) (regions : List NodeId) (options : Options) {d : Document}
    (hd : d.Distinct) (products : Place) (pageType : PageType) (pageOptions : Options)
    (page : Document) :
    let seed := (FeaturedPass.replace products pageType pageOptions page).2.settings
    let start : Sweep := ⟨d, SettingScope.start.pushAll seed⟩
    let done := extract root regions options seed d
    ∃ log final, Sweep.Run ⟨root, regions, options⟩ start log final ∧
      done.1 = final.document ∧ done.2.settings = final.scope.settings ∧
      done.1 = (log.flatMap (·.edits)).foldl Document.apply d ∧
      OneToOne start.scope.settings log done.2.settings := by
  intro seed
  have hseed : ∀ setting ∈ seed, setting.id ∈ [FeaturedPass.collectionSetting, FeaturedPass.countSetting] :=
    FeaturedPass.id_mem_of_replace products pageType pageOptions page
  have hplain : ∀ setting ∈ seed, setting.Plain :=
    FeaturedPass.plain_replace products pageType pageOptions page
  clear_value seed
  simp only [extract]
  have hstart : SettingScope.start.ids = ["background_color", "text_color"] := rfl
  have hcolors : ["background_color", "text_color"] <+: (SettingScope.start.pushAll seed).ids :=
    hstart ▸ SettingScope.ids_prefix_pushAll seed
  obtain ⟨log, hrun⟩ := Sweep.run_all ⟨root, regions, options⟩
    (s := ⟨d, SettingScope.start.pushAll seed⟩) hd
  have hallocated := hrun.allocated hd (covers_pushAll hseed)
    (SettingScope.sound_start.pushAll hplain).ids
  exact ⟨log, _, hrun, rfl, rfl, hallocated.document, oneToOne_of_allocated hallocated hcolors⟩

/-- The settings of a page with navigation, a title and a picture go to its nodes one to one. -/
theorem oneToOne_extract_shopPage :
    let seed := (FeaturedPass.replace shopPage.body .product {} shopPage).2.settings
    let start : Sweep := ⟨shopPage, SettingScope.start.pushAll seed⟩
    let done := extract shopPage.body.id [] {} seed shopPage
    shopPage.Distinct ∧ ∃ log final, Sweep.Run ⟨shopPage.body.id, [], {}⟩ start log final ∧
      done.1 = final.document ∧ done.2.settings = final.scope.settings ∧
      done.1 = (log.flatMap (·.edits)).foldl Document.apply shopPage ∧
      OneToOne start.scope.settings log done.2.settings := by
  have hdistinct : shopPage.Distinct := Document.distinct_ofMarkup _
  exact ⟨hdistinct, oneToOne_extract shopPage.body.id [] {} hdistinct shopPage.body .product {} shopPage⟩

end PageSettings

end ThemeSection
