import ThemeSection.PageSettings.Sweep
import ThemeSection.Proofs.Document.Rewrite

/-!
What one visit of a sweep can do. It leaves everything as it is, or it collects some settings and
makes the visited node show them, by the edits of one of six forms. Whatever sweeps keep follows from
these forms; no other module has to look into the visits.
-/

namespace ThemeSection

open Markup Liquid

namespace SettingScope

/-- The ids of the settings that have been collected. -/
def ids (scope : SettingScope) : List String :=
  scope.settings.map Setting.id

variable {scope : SettingScope} {setting : Setting} {id : String}

theorem has_iff : scope.has id ↔ id ∈ scope.ids := by
  simp [has, ids]

theorem mem_ids_push : id ∈ (scope.push setting).ids ↔ id ∈ scope.ids ∨ id = setting.id := by
  unfold push
  split
  case isTrue hhas =>
    refine ⟨Or.inl, ?_⟩
    rintro (h | rfl)
    · exact h
    · exact has_iff.1 hhas
  case isFalse => simp [ids]

theorem mem_ids_pushAll {settings : List Setting} :
    id ∈ (scope.pushAll settings).ids ↔ id ∈ scope.ids ∨ id ∈ settings.map Setting.id := by
  induction settings generalizing scope with
  | nil => simp [pushAll]
  | cons setting rest ih =>
    rw [show scope.pushAll (setting :: rest) = (scope.push setting).pushAll rest from rfl, ih,
      mem_ids_push, List.map_cons, List.mem_cons, or_assoc]

/-- Which settings are added depends on those that are there, not on what has been counted. -/
theorem settings_push_of_eq {other : SettingScope} (h : other.settings = scope.settings)
    (setting : Setting) : (other.push setting).settings = (scope.push setting).settings := by
  unfold push has
  rw [h]
  split <;> simp [h]

end SettingScope

namespace Sweep

/-- How a node comes to show settings: its content gives way to them, or the node itself does, or they
go into the attributes of an image or into a style. -/
inductive Manner
  | content
  | renewal
  | image
  | style
  deriving DecidableEq

/-- Whether what the node holds is given up. -/
def Manner.overwrites : Manner → Bool
  | content | renewal => true
  | image | style => false

/-- The attributes of the visited node that may change. -/
def Manner.attributes : Manner → List String
  | content | renewal => ["href"]
  | image => ["src", "srcset", "alt"]
  | style => ["style"]

/-- The nodes to whose styles a source is given. -/
def Manner.styled (p : Place) : Manner → List NodeId
  | style => [p.id]
  | _ => []

/-- The edits by which the node at a place comes to show settings with these ids. -/
inductive Writes (context : Context) (p : Place) : Manner → List String → List Edit → Prop
  | text (id : String) : isOpenText context p →
      Writes context p .content [id] [.setText p.id (reference .whole id)]
  | link (textId urlId : String) : isOpenText context p →
      Writes context p .content [textId, urlId] [.setText p.id (reference .whole textId),
        .setAttribute p.id "href" (reference .whole urlId)]
  | paragraph (id : String) : isOpenText context p → hasMarks p.tree.plainText = false →
      p.isElement → Writes context p .renewal [id] [.renew p.id (reference .whole id)]
  | image (id src : String) : p.tree.attribute? "src" = some src → hasMarks src = false →
      p.isWithinAny context.regions = false → Writes context p .image [id]
        [.setAttribute p.id "src" (imageSource .whole id (Text.trim src) imageWidth),
          .removeAttribute p.id "srcset"]
  | describedImage (id altId src : String) : p.tree.attribute? "src" = some src →
      hasMarks src = false → p.isWithinAny context.regions = false →
      Writes context p .image [id, altId]
        [.setAttribute p.id "src" (imageSource .whole id (Text.trim src) imageWidth),
          .removeAttribute p.id "srcset", .setAttribute p.id "alt" (escapedReference .whole altId)]
  | background (id style url : String) : p.tree.attribute? "style" = some style →
      Style.backgroundUrl? style = some url → p.isWithinAny context.regions = false →
      Writes context p .style [id] [.background p.id (imageSource .whole id url backgroundWidth)]

/-- What a visit of a place comes to. -/
inductive Step (context : Context) (s : Sweep) (p : Place) (manner : Manner) : Sweep → Prop
  | pass : Step context s p manner s
  | write {s' : Sweep} (settings : List Setting) (edits : List Edit) :
      Writes context p manner (settings.map Setting.id) edits →
      (∀ setting ∈ settings, IsName setting.id) →
      s'.document = edits.foldl Document.apply s.document →
      s'.scope.settings = (s.scope.pushAll settings).settings → Step context s p manner s'

variable {context : Context} {s s' counted : Sweep} {p : Place}

/-- Only an open node gives up what it holds. -/
theorem Writes.opens {manner : Manner} {ids : List String} {edits : List Edit}
    (h : Writes context p manner ids edits) : manner.overwrites → isOpenText context p := by
  intro hoverwrites
  cases h with
  | text _ hopen => exact hopen
  | link _ _ hopen => exact hopen
  | paragraph _ hopen => exact hopen
  | image => cases hoverwrites
  | describedImage => cases hoverwrites
  | background => cases hoverwrites

/-- A sweep that has the document and the settings of another; only its counts may differ. -/
structure Agrees (counted s : Sweep) : Prop where
  document : counted.document = s.document
  settings : counted.scope.settings = s.scope.settings

theorem agrees_nextIndex (s : Sweep) (stem : String) : (s.nextIndex stem).2.Agrees s :=
  ⟨rfl, rfl⟩

theorem isName_numbered {stem ending : String} (hstem : IsName stem) (hending : IsName ending)
    (n : Nat) : IsName (stem ++ toString n ++ ending) :=
  (hstem.append (isName_toString n)).append hending

/-- A visit that makes the node show one setting as its text. -/
theorem step_text (h : counted.Agrees s) (hopen : isOpenText context p) {id : String}
    (hname : IsName id) (label found fallback : String) :
    Step context s p .content ((counted.push (textSetting id label found fallback)).showText p id) := by
  refine .write [textSetting id label found fallback] _ (.text id hopen)
    (List.forall_mem_singleton.2 hname) ?_ (SettingScope.settings_push_of_eq h.settings _)
  exact congrArg (·.setText p.id (reference .whole id)) h.document

/-- A visit that makes a link show one setting as its text and another as its address. -/
theorem step_link (h : counted.Agrees s) (hopen : isOpenText context p) {textId urlId : String}
    (htext : IsName textId) (hurl : IsName urlId) (label urlLabel found fallback href : String)
    (hdocument : s'.document = (counted.document.setText p.id (reference .whole textId)).setAttribute
      p.id "href" (reference .whole urlId))
    (hsettings : s'.scope.settings = ((counted.scope.push
      (textSetting textId label found fallback)).push (urlSetting urlId urlLabel href)).settings) :
    Step context s p .content s' := by
  refine .write [textSetting textId label found fallback, urlSetting urlId urlLabel href] _
    (.link textId urlId hopen) (List.forall_mem_cons.2 ⟨htext, List.forall_mem_singleton.2 hurl⟩)
    (hdocument.trans ?_) (hsettings.trans ?_)
  · rw [h.document]
    rfl
  · exact SettingScope.settings_push_of_eq (SettingScope.settings_push_of_eq h.settings _) _

/-- A visit that puts rich text in the place of the node. -/
theorem step_paragraph (h : counted.Agrees s) (hopen : isOpenText context p)
    (hmarks : hasMarks p.tree.plainText = false) (helement : p.isElement) {id : String}
    (hname : IsName id) (label text : String) {made : Tree} {d : Document}
    (hmade : s.document.retag? p.id "div" = some (made, d)) :
    Step context s p .renewal { counted.push (.richText id label text) with
      document := d.appendText made.id (reference .whole id) } := by
  refine .write [.richText id label text] _ (.paragraph id hopen hmarks helement)
    (List.forall_mem_singleton.2 hname) ?_ (SettingScope.settings_push_of_eq h.settings _)
  rw [List.foldl_cons, List.foldl_nil, Document.apply, hmade]

/-- An image while it is made to show settings: one as its source. -/
def showSource (s : Sweep) (p : Place) (id src label : String) : Sweep :=
  (s.push (.image id label)).edit fun d => (d.setAttribute p.id "src"
    (imageSource .whole id (Text.trim src) imageWidth)).removeAttribute p.id "srcset"

theorem step_image (h : counted.Agrees s) {src : String} (hsrc : p.tree.attribute? "src" = some src)
    (hmarks : hasMarks src = false) (hregions : p.isWithinAny context.regions = false) {id : String}
    (hname : IsName id) (label : String) : Step context s p .image (counted.showSource p id src label) := by
  refine .write [.image id label] _ (.image id src hsrc hmarks hregions)
    (List.forall_mem_singleton.2 hname) ?_ (SettingScope.settings_push_of_eq h.settings _)
  exact congrArg (fun d : Document => (d.setAttribute p.id "src" _).removeAttribute p.id "srcset")
    h.document

theorem step_describedImage (h : counted.Agrees s) {src : String}
    (hsrc : p.tree.attribute? "src" = some src) (hmarks : hasMarks src = false)
    (hregions : p.isWithinAny context.regions = false) {id altId : String} (hname : IsName id)
    (haltName : IsName altId) (label altLabel alt : String) :
    Step context s p .image (((counted.showSource p id src label).push
      (textSetting altId altLabel alt "")).edit
        (·.setAttribute p.id "alt" (escapedReference .whole altId))) := by
  refine .write [.image id label, textSetting altId altLabel alt ""] _
    (.describedImage id altId src hsrc hmarks hregions)
    (List.forall_mem_cons.2 ⟨hname, List.forall_mem_singleton.2 haltName⟩) ?_
    (SettingScope.settings_push_of_eq (SettingScope.settings_push_of_eq h.settings _) _)
  exact congrArg (fun d : Document => ((d.setAttribute p.id "src" _).removeAttribute p.id
    "srcset").setAttribute p.id "alt" _) h.document

theorem step_background (h : counted.Agrees s) (hp : s.document.place? p.id = some p)
    {style url : String} (hstyle : p.tree.attribute? "style" = some style)
    (hurl : Style.backgroundUrl? style = some url)
    (hregions : p.isWithinAny context.regions = false) {id : String} (hname : IsName id)
    (label : String) :
    Step context s p .style ((counted.push (.image id label)).edit (·.setAttribute p.id "style"
      (Style.replaceBackgroundUrl style (imageSource .whole id url backgroundWidth)))) := by
  refine .write [.image id label] _ (.background id style url hstyle hurl hregions)
    (List.forall_mem_singleton.2 hname) ?_ (SettingScope.settings_push_of_eq h.settings _)
  rw [List.foldl_cons, List.foldl_nil, Document.apply, hp, Option.bind_some, hstyle]
  exact congrArg (fun d : Document => d.setAttribute p.id "style" _) h.document

theorem step_visitNavTitle (context : Context) (s : Sweep) (p : Place) :
    Step context s p .content (visitNavTitle context s p) := by
  unfold visitNavTitle
  split
  case isTrue => exact .pass
  case isFalse hvisit =>
    have hopen : isOpenText context p := by simp_all
    exact step_text (agrees_nextIndex s _) hopen (IsName.append (by decide) (isName_toString _)) _ _ _

theorem step_visitNavLink (context : Context) (s : Sweep) (p : Place) :
    Step context s p .content (visitNavLink context s p) := by
  unfold visitNavLink
  split
  case isTrue => exact .pass
  case isFalse hvisit =>
    have hopen : isOpenText context p := by simp_all
    exact step_link (agrees_nextIndex s _) hopen (isName_numbered (by decide) (by decide) _)
      (isName_numbered (by decide) (by decide) _) _ _ _ _ _ rfl rfl

theorem step_visitHeading (context : Context) (s : Sweep) (p : Place) :
    Step context s p .content (visitHeading context s p) := by
  unfold visitHeading
  split
  case isTrue => exact .pass
  case isFalse hvisit =>
    have hopen : isOpenText context p := by simp_all
    exact step_text (agrees_nextIndex s _) hopen (IsName.append (by decide) (isName_toString _)) _ _ _

/-- An element in the document always gives way to a new one. -/
theorem step_visitParagraph (context : Context) (hp : s.document.place? p.id = some p)
    (helement' : p.isElement) : Step context s p .renewal (visitParagraph context s p) := by
  have hretag : (s.document.retag? p.id "div").isSome := by
    obtain ⟨element, helement⟩ := Option.isSome_iff_exists.1 helement'
    simp [Document.retag?, hp, helement, Document.newElement?_div]
  obtain ⟨⟨made, d⟩, hmade⟩ := Option.isSome_iff_exists.1 hretag
  unfold visitParagraph
  dsimp only
  split
  case isTrue => exact .pass
  case isFalse hvisit =>
    simp only [Bool.or_eq_true, not_or, Bool.not_eq_true, Bool.not_eq_false', decide_eq_true_eq]
      at hvisit
    obtain ⟨⟨hlong, hopen⟩, hmarks⟩ := hvisit
    have htext : isOpenText context p := by
      have hne : p.tree.plainText ≠ "" := fun hempty => by simp [hempty] at hlong
      simp [isOpenText, hne, hopen]
    have hmade' : ∀ setting, ((s.nextIndex "text").2.push setting).document.retag? p.id "div" =
        some (made, d) := fun _ => hmade
    rw [hmade']
    exact step_paragraph (agrees_nextIndex s _) htext hmarks helement'
      (IsName.append (by decide) (isName_toString _)) _ _ hmade

theorem step_visitButton (context : Context) (s : Sweep) (p : Place) :
    Step context s p .content (visitButton context s p) := by
  unfold visitButton
  split
  case isTrue => exact .pass
  case isFalse hvisit =>
    have hopen : isOpenText context p := by simp_all
    dsimp only
    split
    case isTrue =>
      exact step_link (agrees_nextIndex s _) hopen (isName_numbered (by decide) (by decide) _)
        (isName_numbered (by decide) (by decide) _) _ _ _ _ _ rfl rfl
    case isFalse =>
      exact step_text (agrees_nextIndex s _) hopen (isName_numbered (by decide) (by decide) _) _ _ _

theorem step_visitImage (context : Context) (s : Sweep) (p : Place) :
    Step context s p .image (visitImage context s p) := by
  unfold visitImage
  dsimp only
  split
  case isTrue => exact .pass
  case isFalse hvisit =>
    simp only [Bool.or_eq_true, not_or, Bool.not_eq_true] at hvisit
    obtain ⟨⟨⟨hblank, hmarks⟩, hregions⟩, -⟩ := hvisit
    obtain ⟨src, hsrc⟩ : ∃ src, p.tree.attribute? "src" = some src := by
      refine Option.ne_none_iff_exists'.1 fun hnone => ?_
      rw [hnone] at hblank
      cases hblank
    rw [hsrc, Option.getD_some] at hmarks ⊢
    have hname (n : Nat) : IsName ("image_" ++ toString n) :=
      IsName.append (by decide) (isName_toString n)
    split
    case isTrue => exact step_image (agrees_nextIndex s _) hsrc hmarks hregions (hname _) _
    case isFalse =>
      exact step_describedImage (agrees_nextIndex s _) hsrc hmarks hregions (hname _)
        ((hname _).append (by decide)) _ _ _

theorem isName_backgroundName? {name : String} (h : backgroundName? p = some name) :
    IsName name := by
  have hnames : ∀ hero shop : Bool, (if hero then some "hero_background_image"
      else if shop then some "shop_background_image" else none) = some name → IsName name := by
    rintro (_ | _) (_ | _) heq
    · cases heq
    · exact Option.some.inj heq ▸ by decide
    · exact Option.some.inj heq ▸ by decide
    · exact Option.some.inj heq ▸ by decide
  exact hnames _ _ h

theorem backgroundId_cases (s : Sweep) (p : Place) :
    IsName (s.backgroundId p).1 ∧ (s.backgroundId p).2.Agrees s := by
  unfold backgroundId
  split
  case h_1 name hname => exact ⟨isName_backgroundName? (Option.filter_eq_some_iff.1 hname).1, rfl, rfl⟩
  case h_2 => exact ⟨IsName.append (by decide) (isName_toString _), agrees_nextIndex s _⟩

theorem step_visitBackground (context : Context) (hp : s.document.place? p.id = some p) :
    Step context s p .style (visitBackground context s p) := by
  unfold visitBackground
  dsimp only
  split
  case h_1 => exact .pass
  case h_2 url hurl =>
    split
    case isTrue => exact .pass
    case isFalse hregions =>
      obtain ⟨hname, hagrees⟩ := backgroundId_cases s p
      have hurl := (Option.filter_eq_some_iff.1 hurl).1
      cases hstyle : p.tree.attribute? "style" with
      | none =>
        rw [hstyle] at hurl
        cases hurl
      | some style =>
        rw [hstyle, Option.getD_some] at hurl
        exact step_background hagrees hp hstyle hurl (by simpa using hregions) hname _

theorem forEach_cons (s : Sweep) (id : NodeId) (rest : List NodeId)
    (visit : Sweep → Place → Sweep) : s.forEach (id :: rest) visit =
      (match s.document.place? id with
        | some p => visit s p
        | none => s).forEach rest visit := rfl

/-- Going over nodes keeps what visiting each of them, where it stands then, keeps. -/
theorem forEach_induct {motive : Sweep → Prop} {nodes : List NodeId}
    {visit : Sweep → Place → Sweep} (h : motive s)
    (hvisit : ∀ s p, p.id ∈ nodes → s.document.place? p.id = some p → motive s →
      motive (visit s p)) : motive (s.forEach nodes visit) := by
  refine List.foldlRecOn nodes _ h fun s hs id hid => ?_
  split
  case h_1 p hp =>
    have hp' := Document.id_of_place? hp
    exact hvisit s p (hp' ▸ hid) (hp' ▸ hp) hs
  case h_2 => exact hs

end Sweep

end ThemeSection
