import ThemeSection.FeaturedProducts
import ThemeSection.PageSettings.Sweep
import ThemeSection.Proofs.Schema.Setting

/-!
The settings that are collected from a page. A scope only grows by settings whose ids are new, and
every sweep adds to the scope in that way alone, so that in the end no two settings of the page
share an id and all of them are plain.
-/

namespace ThemeSection

open Markup

namespace SettingScope

/-- What holds of a scope at all times. -/
structure Sound (scope : SettingScope) : Prop where
  ids : (scope.settings.map Setting.id).Nodup
  plain : ∀ setting ∈ scope.settings, setting.Plain

variable {scope : SettingScope}

theorem sound_start : start.Sound where
  ids := by decide
  plain := by
    simp only [start, colors, List.forall_mem_cons]
    exact ⟨Setting.plain_make _ _ _, Setting.plain_make _ _ _, List.forall_mem_nil _⟩

theorem Sound.push (h : scope.Sound) {setting : Setting} (hplain : setting.Plain) :
    (scope.push setting).Sound := by
  unfold SettingScope.push
  split
  · exact h
  case isFalse hnew =>
    have hid : setting.id ∉ scope.settings.map Setting.id := by
      simpa [has, List.mem_map] using hnew
    constructor
    case ids =>
      simp only [List.map_append, List.map_cons, List.map_nil]
      refine List.nodup_append.2 ⟨h.ids, List.nodup_singleton _, ?_⟩
      rintro _ ha _ hb rfl
      exact hid (List.mem_singleton.1 hb ▸ ha)
    case plain =>
      exact List.forall_mem_append.2 ⟨h.plain, by simpa using hplain⟩

theorem Sound.pushAll (h : scope.Sound) {settings : List Setting}
    (hplain : ∀ setting ∈ settings, setting.Plain) : (scope.pushAll settings).Sound :=
  List.foldlRecOn settings SettingScope.push h fun _ hs setting hmem => hs.push (hplain setting hmem)

/-- Counting does not touch the settings. -/
theorem Sound.nextIndex (h : scope.Sound) (stem : String) : (scope.nextIndex stem).2.Sound where
  ids := h.ids
  plain := h.plain

end SettingScope

namespace Sweep

/-- The settings collected so far are sound. -/
def Sound (s : Sweep) : Prop :=
  s.scope.Sound

variable {s : Sweep}

theorem plain_textSetting (id label found fallback : String) :
    (textSetting id label found fallback).Plain :=
  (Setting.plain_make .text id label).withDefault (scalar_sanitizeDefault _ _ _)

theorem plain_urlSetting (id label found : String) : (urlSetting id label found).Plain :=
  (Setting.plain_make .url id label).withDefault (scalar_sanitizeDefault _ _ _)

theorem Sound.push (h : s.Sound) {setting : Setting} (hplain : setting.Plain) :
    (s.push setting).Sound :=
  SettingScope.Sound.push h hplain

theorem Sound.nextIndex (h : s.Sound) (stem : String) : (s.nextIndex stem).2.Sound :=
  SettingScope.Sound.nextIndex h stem

/-- Editing the document does not touch the settings. -/
theorem Sound.edit (h : s.Sound) (change : Document → Document) : (s.edit change).Sound := h

theorem Sound.showText (h : s.Sound) (p : Place) (setting : String) :
    (s.showText p setting).Sound := h

theorem Sound.showAttribute (h : s.Sound) (p : Place) (name setting : String) :
    (s.showAttribute p name setting).Sound := h

theorem Sound.forEach (h : s.Sound) {visit : Sweep → Place → Sweep}
    (hvisit : ∀ s p, s.Sound → (visit s p).Sound) (nodes : List NodeId) :
    (s.forEach nodes visit).Sound := by
  refine List.foldlRecOn nodes _ h fun s hs id _ => ?_
  split
  · exact hvisit s _ hs
  · exact hs

theorem sound_visitNavTitle (context : Context) (s : Sweep) (p : Place) (h : s.Sound) :
    (visitNavTitle context s p).Sound := by
  unfold visitNavTitle
  split
  · exact h
  · exact ((h.nextIndex "nav_title").push (plain_textSetting _ _ _ _)).showText p _

theorem sound_visitNavLink (context : Context) (s : Sweep) (p : Place) (h : s.Sound) :
    (visitNavLink context s p).Sound := by
  unfold visitNavLink
  split
  · exact h
  · have hcounted := h.nextIndex "nav_link"
    exact (((hcounted.push (plain_textSetting _ _ _ _)).push (plain_urlSetting _ _ _)).showText
      p _).showAttribute p _ _

theorem sound_visitHeading (context : Context) (s : Sweep) (p : Place) (h : s.Sound) :
    (visitHeading context s p).Sound := by
  unfold visitHeading
  split
  · exact h
  · exact ((h.nextIndex "heading").push (plain_textSetting _ _ _ _)).showText p _

theorem sound_visitParagraph (context : Context) (s : Sweep) (p : Place) (h : s.Sound) :
    (visitParagraph context s p).Sound := by
  unfold visitParagraph
  dsimp only
  split
  · exact h
  · have hpushed (id label text : String) :
        ((s.nextIndex "text").2.push (.richText id label text)).Sound :=
      (h.nextIndex "text").push (Setting.plain_richText _ _ _)
    split
    · exact hpushed _ _ _
    · exact hpushed _ _ _

theorem sound_visitButton (context : Context) (s : Sweep) (p : Place) (h : s.Sound) :
    (visitButton context s p).Sound := by
  unfold visitButton
  split
  · exact h
  · have hshown (textId label found : String) :
        ((((s.nextIndex "button").2.push (textSetting textId label found "Button"))).showText p
          textId).Sound :=
      ((h.nextIndex "button").push (plain_textSetting _ _ _ _)).showText p _
    dsimp only
    split
    · exact ((hshown _ _ _).push (plain_urlSetting _ _ _)).showAttribute p _ _
    · exact hshown _ _ _

theorem sound_visitImage (context : Context) (s : Sweep) (p : Place) (h : s.Sound) :
    (visitImage context s p).Sound := by
  unfold visitImage
  dsimp only
  split
  · exact h
  · have hshown (id label : String) (change : Document → Document) :
        (((s.nextIndex "image").2.push (.image id label)).edit change).Sound :=
      ((h.nextIndex "image").push (Setting.plain_image _ _)).edit change
    split
    · exact hshown _ _ _
    · exact ((hshown _ _ _).push (plain_textSetting _ _ _ _)).edit _

theorem Sound.backgroundId (h : s.Sound) (p : Place) : (s.backgroundId p).2.Sound := by
  unfold Sweep.backgroundId
  split
  · exact h
  · exact h.nextIndex "background_image"

theorem sound_visitBackground (context : Context) (s : Sweep) (p : Place) (h : s.Sound) :
    (visitBackground context s p).Sound := by
  unfold visitBackground
  dsimp only
  split
  · exact h
  · split
    · exact h
    · exact ((h.backgroundId p).push (Setting.plain_image _ _)).edit _

theorem Sound.navigation (h : s.Sound) (context : Context) : (navigation context s).Sound := by
  refine List.foldlRecOn _ _ h fun s hs container _ => ?_
  exact (hs.forEach (sound_visitNavTitle context) _).forEach (sound_visitNavLink context) _

theorem Sound.headings (h : s.Sound) (context : Context) : (headings context s).Sound :=
  h.forEach (sound_visitHeading context) _

theorem Sound.paragraphs (h : s.Sound) (context : Context) : (paragraphs context s).Sound :=
  h.forEach (sound_visitParagraph context) _

theorem Sound.buttons (h : s.Sound) (context : Context) : (buttons context s).Sound :=
  h.forEach (sound_visitButton context) _

theorem Sound.images (h : s.Sound) (context : Context) : (images context s).Sound :=
  h.forEach (sound_visitImage context) _

theorem Sound.backgrounds (h : s.Sound) (context : Context) : (backgrounds context s).Sound :=
  h.forEach (sound_visitBackground context) _

end Sweep

/-- Every setting that is collected from a page, and every one it begins with, is plain, and no two
have the same id. -/
theorem PageSettings.sound_extract (root : NodeId) (regions : List NodeId) (options : Options)
    {seed : List Setting} (hseed : ∀ setting ∈ seed, setting.Plain) (d : Document) :
    ((extract root regions options seed d).2.settings.map Setting.id).Nodup ∧
      ∀ setting ∈ (extract root regions options seed d).2.settings, setting.Plain := by
  have hstart : ({ document := d, scope := SettingScope.start.pushAll seed } : Sweep).Sound :=
    SettingScope.sound_start.pushAll hseed
  have hsweeps : ∀ sweep ∈ [Sweep.navigation, Sweep.headings, Sweep.paragraphs, Sweep.buttons,
      Sweep.images, Sweep.backgrounds], ∀ context s, s.Sound → (sweep context s).Sound := by
    simp only [List.forall_mem_cons]
    exact ⟨fun c _ h => h.navigation c, fun c _ h => h.headings c, fun c _ h => h.paragraphs c,
      fun c _ h => h.buttons c, fun c _ h => h.images c, fun c _ h => h.backgrounds c, List.forall_mem_nil _⟩
  have hdone := List.foldlRecOn _ (fun s sweep => sweep ⟨root, regions, options⟩ s) hstart
    fun s hs sweep hmem => hsweeps sweep hmem _ s hs
  simp only [extract]
  exact ⟨SettingScope.Sound.ids hdone, SettingScope.Sound.plain hdone⟩

/-- The settings of the loop over products are plain. -/
theorem FeaturedPass.plain_settingsFor (pageType : PageType) (count : Nat) :
    ∀ setting ∈ settingsFor pageType count, setting.Plain := by
  have hmin : minProducts ≤ 12 := by decide
  have hmax : maxProducts ≤ 12 := by decide
  have hscalar {n : Nat} (hn : n ≤ 12) : (Json.Value.ofNat n).Scalar :=
    Setting.scalar_ofNat (by omega)
  have hrange : (Setting.range countSetting "Products to show" (.ofNat minProducts)
      (.ofNat maxProducts) (.ofNat 1) (.ofNat (max minProducts (min maxProducts count)))).Plain :=
    Setting.plain_range _ _ (hscalar hmin) (hscalar hmax) (hscalar (by omega)) (hscalar (by omega))
  simp only [settingsFor, List.forall_mem_append, List.forall_mem_singleton]
  refine ⟨?_, hrange⟩
  split
  · exact List.forall_mem_nil _
  · exact List.forall_mem_singleton.2 (Setting.plain_make _ _ _)

theorem FeaturedPass.plain_replace (root : Place) (pageType : PageType) (options : Options)
    (d : Document) : ∀ setting ∈ (replace root pageType options d).2.settings, setting.Plain := by
  unfold replace
  split
  · exact List.forall_mem_nil _
  · exact List.forall_mem_nil _
  · exact plain_settingsFor pageType _

end ThemeSection
