import ThemeSection.Schema.Setting

/-!
The settings of a whole page while they are being collected: no two have the same id, and the
numbers in their ids are counted stem by stem. A scope starts with the two colours that every page
has.
-/

namespace ThemeSection

structure SettingScope where
  settings : List Setting
  /-- How many numbers of each stem have been given out. -/
  counts : List (String × Nat)

namespace SettingScope

def colors : List Setting :=
  [.color "background_color" "Background color", .color "text_color" "Text color"]

def start : SettingScope :=
  { settings := colors, counts := [] }

def has (scope : SettingScope) (id : String) : Bool :=
  scope.settings.any (·.id == id)

/-- Adds a setting, unless its id is there already. -/
def push (scope : SettingScope) (setting : Setting) : SettingScope :=
  if scope.has setting.id then scope
  else { scope with settings := scope.settings ++ [setting] }

def pushAll (scope : SettingScope) (settings : List Setting) : SettingScope :=
  settings.foldl push scope

/-- How many numbers of a stem have been given out. -/
def count (scope : SettingScope) (stem : String) : Nat :=
  (scope.counts.lookup stem).getD 0

/-- The next number of a stem, counted from one. -/
def nextIndex (scope : SettingScope) (stem : String) : Nat × SettingScope :=
  let n := scope.count stem + 1
  (n, { scope with counts := (stem, n) :: scope.counts.filter (·.1 != stem) })

end SettingScope

end ThemeSection
