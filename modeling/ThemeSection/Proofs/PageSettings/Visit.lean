import ThemeSection.Proofs.PageSettings.Shown

/-!
Visits as data. There are seven kinds of visits, and each belongs to a sweep. A visit that is ready
for a node collects settings under numbers that have not been given out, and binds each of them to the
node, in its content or in an attribute. A visit that is not ready leaves everything as it is.
-/

namespace ThemeSection

open Markup Liquid Document

namespace Sweep

inductive Visit
  | navTitle
  | navLink
  | heading
  | paragraph
  | button
  | image
  | background
  deriving DecidableEq

/-- A setting that the visit of a node collects, and what makes the node show it. -/
structure Binding where
  visit : Visit
  node : NodeId
  spot : Spot
  setting : Setting
  edits : List Edit

namespace Visit

/-- The visit as it is made. -/
def run (context : Context) : Visit → Sweep → Place → Sweep
  | navTitle => visitNavTitle context
  | navLink => visitNavLink context
  | heading => visitHeading context
  | paragraph => visitParagraph context
  | button => visitButton context
  | image => visitImage context
  | background => visitBackground context

/-- The turn of the sweep that a visit belongs to; titles and links of navigation are of one sweep. -/
def turn : Visit → Nat
  | navTitle | navLink => 0
  | heading => 1
  | paragraph => 2
  | button => 3
  | image => 4
  | background => 5

def manner : Visit → Manner
  | navTitle | navLink | heading | button => .content
  | paragraph => .renewal
  | image => .image
  | background => .style

/-- The elements that are visited. -/
def selector : Visit → Selector
  | navTitle => navTitles
  | navLink => .tags ["a"]
  | heading => .headings
  | paragraph => .tags ["p"]
  | button => .tags ["a", "button"]
  | image => .tags ["img"]
  | background => .of [.value "style" .contains "background"]

/-- What the numbers are counted for. -/
def stem : Visit → String
  | navTitle => "nav_title"
  | navLink => "nav_link"
  | heading => "heading"
  | paragraph => "text"
  | button => "button"
  | image => "image"
  | background => "background_image"

/-- What the numbered ids begin with. -/
def opening : Visit → String
  | navTitle => "nav_title_"
  | navLink => "nav_link_"
  | heading => "heading_"
  | paragraph => "text_"
  | button => "button_"
  | image => "image_"
  | background => "background_image_"

/-- The source of the background of a node that does not depend on a setting yet. -/
def backgroundUrl? (p : Place) : Option String :=
  (Style.backgroundUrl? ((p.tree.attribute? "style").getD "")).filter (!hasMarks ·)

/-- Whether a sweep comes by a node. It looks for titles and links of navigation in the containers of
navigation that are outside all regions, and for everything else from the root down. -/
def reaches (context : Context) (p : Place) : Visit → Bool
  | navTitle | navLink => (p :: p.ancestors).any fun c =>
      navContainers.holds c && !c.isWithinAny context.regions && c.isWithin context.root
  | heading | paragraph | button | image | background => p.isWithin context.root

/-- Whether the visit of a node collects anything. -/
def ready (context : Context) (p : Place) : Visit → Bool
  | navTitle => isOpenText context p && !p.has (.tags ["img"])
  | navLink | heading | button => isOpenText context p
  | paragraph =>
    context.options.paragraphMinChars < p.tree.plainText.length && isOpen context p
      && !hasMarks p.tree.plainText
  | image =>
    let src := (p.tree.attribute? "src").getD ""
    !Text.isBlank src && !hasMarks src && !p.isWithinAny context.regions && !isLogo p
  | background => (backgroundUrl? p).isSome && !p.isWithinAny context.regions

/-- The number that a visit gives out next. -/
def number (s : Sweep) (v : Visit) : Nat :=
  s.scope.count v.stem + 1

/-- An id with the number that a visit gives out next. -/
def numbered (s : Sweep) (v : Visit) : String :=
  v.opening ++ toString (v.number s)

/-- What a visit that is ready for a node binds to it. -/
def bound (s : Sweep) (p : Place) (v : Visit) : List Binding :=
  let n := toString (v.number s)
  let text := p.tree.plainText
  let binding (spot : Spot) (setting : Setting) (edits : List Edit) : Binding :=
    ⟨v, p.id, spot, setting, edits⟩
  let content (setting : Setting) : Binding :=
    binding .content setting [.setText p.id (reference .whole setting.id)]
  let address (setting : Setting) : Binding :=
    binding (.value "href") setting [.setAttribute p.id "href" (reference .whole setting.id)]
  match v with
  | navTitle => [content (textSetting (v.numbered s) "Navigation title" text "")]
  | navLink =>
    let label := "Navigation link " ++ n
    [content (textSetting (v.numbered s ++ "_text") (label ++ " label") text ""),
      address (urlSetting (v.numbered s ++ "_url") (label ++ " URL") (href p))]
  | heading =>
    [content (textSetting (v.numbered s) ("Heading " ++ n ++ ": " ++ Text.snippet 6 text) text
      "Heading")]
  | paragraph =>
    let setting :=
      Setting.richText (v.numbered s) ("Text " ++ n ++ ": " ++ Text.snippet 6 text) (Text.rich [text])
    [binding .content setting [.renew p.id (reference .whole setting.id)]]
  | button =>
    let label := "Button " ++ n
    content (textSetting (v.numbered s ++ "_text") (label ++ " label") text "Button")
      :: (if p.tree.isTag ["a"] && isRealLink (href p) then
        [address (urlSetting (v.numbered s ++ "_url") (label ++ " link") (href p))]
      else [])
  | image =>
    let label := "Image " ++ n
    let src := Text.trim ((p.tree.attribute? "src").getD "")
    let alt := (p.tree.attribute? "alt").getD ""
    let id := v.numbered s
    let altId := id ++ "_alt"
    binding (.value "src") (.image id label)
        [.setAttribute p.id "src" (imageSource .whole id src imageWidth),
          .removeAttribute p.id "srcset"]
      :: (if Text.isBlank alt then []
      else [binding (.value "alt") (textSetting altId (label ++ " alt text") alt "")
        [.setAttribute p.id "alt" (escapedReference .whole altId)]])
  | background =>
    let id := (s.backgroundId p).1
    let url := (backgroundUrl? p).getD ""
    [binding (.value "style") (.image id "Background image")
      [.background p.id (imageSource .whole id url backgroundWidth)]]

/-- What the visit of a node binds to it. -/
def bindings (context : Context) (s : Sweep) (p : Place) (v : Visit) : List Binding :=
  if v.ready context p then v.bound s p else []

/-- The settings so far, with the numbers that a visit gives out counted. A background that gets a
name needs no number. -/
def counted (s : Sweep) (p : Place) (v : Visit) : SettingScope :=
  match v with
  | background => (s.backgroundId p).2.scope
  | _ => (s.scope.nextIndex v.stem).2

variable {context : Context} {s : Sweep} {p : Place}

/-- What a visit that is ready makes of a page. -/
def made (s : Sweep) (p : Place) (v : Visit) : Sweep where
  document := ((v.bound s p).flatMap (·.edits)).foldl Document.apply s.document
  scope := (v.counted s p).pushAll ((v.bound s p).map (·.setting))

/-- The visit does nothing unless it is ready. -/
def Decided (context : Context) (s : Sweep) (p : Place) (v : Visit) : Prop :=
  v.run context s p = if v.ready context p then v.made s p else s

theorem decided_of_ite {v : Visit} {pass : Bool} {other : Sweep}
    (hrun : v.run context s p = if pass then s else other) (hready : v.ready context p = !pass)
    (hmade : pass = false → other = v.made s p) : Decided context s p v := by
  rw [Decided, hrun, hready]
  cases pass with
  | true => rfl
  | false => exact hmade rfl

theorem decided_navTitle (context : Context) (s : Sweep) (p : Place) :
    Decided context s p navTitle :=
  decided_of_ite rfl (by simp [ready]) fun _ => rfl

theorem decided_navLink (context : Context) (s : Sweep) (p : Place) :
    Decided context s p navLink :=
  decided_of_ite rfl (by simp [ready]) fun _ => rfl

theorem decided_heading (context : Context) (s : Sweep) (p : Place) :
    Decided context s p heading :=
  decided_of_ite rfl (by simp [ready]) fun _ => rfl

/-- An element in the document always gives way to a new one. -/
theorem decided_paragraph (context : Context) (hp : s.document.place? p.id = some p)
    (helement : p.isElement) : Decided context s p paragraph := by
  obtain ⟨⟨name, attributes⟩, helement⟩ := Option.isSome_iff_exists.1 helement
  have hretag : (s.document.retag? p.id "div").isSome := by
    simp [Document.retag?, hp, helement, Document.newElement?_div]
  obtain ⟨⟨made, d⟩, hmade⟩ := Option.isSome_iff_exists.1 hretag
  have hmade' : ∀ setting, ((s.nextIndex "text").2.push setting).document.retag? p.id "div" =
      some (made, d) := fun _ => hmade
  have happly : ∀ content, s.document.apply (.renew p.id content) = d.appendText made.id content := by
    intro content
    rw [Document.apply, hmade]
  have hlong (m n : Nat) : decide (m < n) = !decide (n ≤ m) := by
    rw [← decide_not]
    exact decide_eq_decide.2 Nat.not_le.symm
  have hready : paragraph.ready context p = !(p.tree.plainText.length ≤
      context.options.paragraphMinChars || !isOpen context p || hasMarks p.tree.plainText) := by
    simp [ready, hlong]
  rw [Decided, hready, run, visitParagraph]
  dsimp only
  split
  case isTrue hpass => rw [hpass]; rfl
  case isFalse hpass =>
    rw [Bool.not_eq_true] at hpass
    rw [hmade', hpass]
    exact congrArg (Sweep.mk · _) (happly _).symm

theorem decided_button (context : Context) (s : Sweep) (p : Place) : Decided context s p button := by
  refine decided_of_ite rfl (by simp [ready]) fun _ => ?_
  dsimp only
  simp only [Visit.made, bound]
  split
  case isTrue => rfl
  case isFalse => rfl

theorem decided_image (context : Context) (s : Sweep) (p : Place) : Decided context s p image := by
  refine decided_of_ite rfl (by simp [ready]) fun _ => ?_
  dsimp only
  simp only [Visit.made, bound]
  split
  case isTrue => rfl
  case isFalse => rfl

theorem decided_background (context : Context) (hp : s.document.place? p.id = some p) :
    Decided context s p background := by
  have hsource : (Style.backgroundUrl? ((p.tree.attribute? "style").getD "")).filter
      (!hasMarks ·) = backgroundUrl? p := rfl
  rw [Decided, run, visitBackground, hsource, ready]
  cases hurl : backgroundUrl? p with
  | none => rfl
  | some url =>
    dsimp only
    cases hregions : p.isWithinAny context.regions with
    | true => rfl
    | false =>
      have hdocument := (backgroundId_cases s p).2.document
      cases hstyle : p.tree.attribute? "style" with
      | none =>
        rw [backgroundUrl?, hstyle] at hurl
        cases hurl
      | some style =>
        have happly : ∀ source, s.document.apply (.background p.id source) =
            (s.backgroundId p).2.document.setAttribute p.id "style"
              (Style.replaceBackgroundUrl style source) := by
          intro source
          rw [Document.apply, hp, Option.bind_some, hstyle, hdocument]
        rw [Visit.made, bound, hurl]
        exact congrArg (Sweep.mk · _) (happly _).symm

/-- A visit does nothing unless it is ready, and otherwise binds what it is said to bind. -/
theorem run_eq (context : Context) (hp : s.document.place? p.id = some p) (helement : p.isElement)
    (v : Visit) : v.run context s p = if v.ready context p then v.made s p else s := by
  cases v with
  | navTitle => exact decided_navTitle context s p
  | navLink => exact decided_navLink context s p
  | heading => exact decided_heading context s p
  | paragraph => exact decided_paragraph context hp helement
  | button => exact decided_button context s p
  | image => exact decided_image context s p
  | background => exact decided_background context hp

/-- Only an open node is ready to give up its content. -/
theorem isOpenText_of_ready {v : Visit} (hoverwrites : v.manner.overwrites)
    (h : v.ready context p) : isOpenText context p := by
  cases v with
  | navTitle => exact (Bool.and_eq_true_iff.1 h).1
  | navLink | heading | button => exact h
  | paragraph =>
    simp only [ready, Bool.and_eq_true, decide_eq_true_eq] at h
    obtain ⟨⟨hlong, hopen⟩, -⟩ := h
    have hne : p.tree.plainText ≠ "" := fun hempty => by simp [hempty] at hlong
    simp [isOpenText, hne, hopen]
  | image | background => cases hoverwrites

/-- What makes the node show the settings is of one of the six forms. -/
theorem writes_bound {v : Visit} (h : v.ready context p) (helement : p.isElement) (s : Sweep) :
    Writes context p v.manner ((v.bound s p).map (·.setting.id))
      ((v.bound s p).flatMap (·.edits)) := by
  cases v with
  | navTitle => exact .text _ (isOpenText_of_ready rfl h)
  | navLink => exact .link _ _ h
  | heading => exact .text _ h
  | paragraph =>
    have hopen := isOpenText_of_ready rfl h
    simp only [ready, Bool.and_eq_true, Bool.not_eq_true'] at h
    exact .paragraph _ hopen h.2 helement
  | button =>
    rw [bound]
    dsimp only
    split
    case isTrue => exact .link _ _ h
    case isFalse => exact .text _ h
  | image =>
    simp only [ready, Bool.and_eq_true, Bool.not_eq_true'] at h
    obtain ⟨⟨⟨hblank, hmarks⟩, hregions⟩, -⟩ := h
    cases hsrc : p.tree.attribute? "src" with
    | none =>
      rw [hsrc] at hblank
      cases hblank
    | some src =>
      rw [hsrc, Option.getD_some] at hmarks
      rw [bound, hsrc, Option.getD_some]
      dsimp only
      split
      case isTrue => exact .image _ src hsrc hmarks hregions
      case isFalse => exact .describedImage _ _ src hsrc hmarks hregions
  | background =>
    simp only [ready, Bool.and_eq_true, Bool.not_eq_true'] at h
    obtain ⟨url, hurl⟩ := Option.isSome_iff_exists.1 h.1
    have hfound := (Option.filter_eq_some_iff.1 hurl).1
    cases hstyle : p.tree.attribute? "style" with
    | none =>
      rw [hstyle] at hfound
      cases hfound
    | some style =>
      rw [hstyle, Option.getD_some] at hfound
      rw [bound, hurl]
      exact .background _ style url hstyle hfound h.2

theorem step_run (context : Context) (hp : s.document.place? p.id = some p) (helement : p.isElement)
    (v : Visit) : Step context s p v.manner (v.run context s p) := by
  cases v with
  | navTitle => exact step_visitNavTitle context s p
  | navLink => exact step_visitNavLink context s p
  | heading => exact step_visitHeading context s p
  | paragraph => exact step_visitParagraph context hp helement
  | button => exact step_visitButton context s p
  | image => exact step_visitImage context s p
  | background => exact step_visitBackground context hp

theorem isPlain_selector {v : Visit} (h : v.manner.overwrites) : v.selector.isPlain := by
  cases v with
  | image | background => cases h
  | _ => decide

end Visit

/-- Whatever becomes the content of a node marks it. -/
theorem Writes.isMarked {ids : List String} {edits : List Edit} {d : Document}
    (h : Writes context p .content ids edits) (hd : d.Distinct) (hp : d.place? p.id = some p)
    (helement : p.isElement) {n : Tree} (hn : n ∈ (edits.foldl Document.apply d).nodes)
    (hid : n.id = p.id) : n.isMarked := by
  have hmarked (id : String) : (p.tree.withChildren [.ofText d.next (reference .whole id)]).isMarked :=
    Tree.isMarked_withText (isMarked_reference id d.next)
  have htext (id : String) := mem_nodes_setText hd hp (reference .whole id)
  have hdistinct (id : String) := (evolves_setText hd p.id (reference .whole id)).distinct
  have hsame := Tree.id_withChildren
  cases h with
  | text id hopen =>
    obtain rfl := (hdistinct id).eq_of_id_eq hn (htext id) (hid.trans (hsame _ _).symm)
    exact hmarked id
  | link textId urlId hopen =>
    have helement' : (p.tree.withChildren [.ofText d.next (reference .whole textId)]).isElement := by
      rw [Tree.isElement, Tree.element?_withChildren]
      exact helement
    obtain ⟨m, hm, hmid, -, -, -, hmarks⟩ := hasAt_setAttribute (hdistinct textId) (htext textId)
      helement' "href" (reference .whole urlId)
    rw [hsame] at hm hmid
    have hdistinct' := (evolves_setAttribute (hdistinct textId) p.id "href"
      (reference .whole urlId)).distinct
    obtain rfl := hdistinct'.eq_of_id_eq hn hm (hid.trans hmid.symm)
    exact hmarks.trans (hmarked textId)

end Sweep

end ThemeSection
