import ThemeSection.Schema.Kind
import ThemeSection.Text.Label

/-! Settings, as a schema declares them. -/

namespace ThemeSection

structure Setting where
  kind : SettingKind
  id : String
  label : String
  default : Option Json.Value := none
  min : Option Json.Value := none
  max : Option Json.Value := none
  step : Option Json.Value := none
  info : Option String := none
  deriving BEq, Repr

namespace Setting

/-- A setting with a label of bounded length and nothing else. -/
def make (kind : SettingKind) (id label : String) : Setting :=
  { kind, id, label := Text.truncateLabel label }

def withDefault (setting : Setting) (value : Json.Value) : Setting :=
  { setting with default := some value }

def withInfo (setting : Setting) (info : String) : Setting :=
  { setting with info := some info }

def text (id label default : String) : Setting :=
  (make .text id label).withDefault (.string default)

def richText (id label default : String) : Setting :=
  (make .richText id label).withDefault (.string default)

def url (id label default : String) : Setting :=
  (make .url id label).withDefault (.string default)

def image (id label : String) : Setting :=
  make .imagePicker id label

def color (id label : String) : Setting :=
  make .color id label

def checkbox (id label : String) (default : Bool) : Setting :=
  (make .checkbox id label).withDefault (.bool default)

def range (id label : String) (min max step default : Json.Value) : Setting :=
  { (make .range id label).withDefault default with
    min := some min, max := some max, step := some step }

/-- A rating from one to five in steps of a tenth. -/
def rating (id label : String) (default : Float) : Setting :=
  range id label (.ofNat 1) (.ofNat 5) (.number (.float 0.1)) (.number (.float default))

/-- The names of the fields in JSON, in order. -/
def fieldNames : List String :=
  ["type", "id", "label", "default", "min", "max", "step", "info"]

/-- Fields without a value are left out. -/
def toJson (setting : Setting) : Json.Value :=
  let optional (name : String) (value : Option Json.Value) : Json.Fields :=
    (value.map fun v => (name, v)).toList
  .object <|
    [("type", .string setting.kind.name), ("id", .string setting.id),
      ("label", .string setting.label)]
    ++ optional "default" setting.default ++ optional "min" setting.min
    ++ optional "max" setting.max ++ optional "step" setting.step
    ++ optional "info" (setting.info.map .string)

/-- The label is taken as it is, however long. -/
def ofJson? (value : Json.Value) : Option Setting := do
  match ← Json.members? fieldNames value with
  | [kind, id, label, default, min, max, step, info] =>
    return {
      kind := ← Json.required SettingKind.ofJson? kind
      id := ← Json.required (·.str?) id
      label := ← Json.required (·.str?) label
      default := ← Json.nullable (some ·.settle) default
      min := ← Json.nullable (some ·.settle) min
      max := ← Json.nullable (some ·.settle) max
      step := ← Json.nullable (some ·.settle) step
      info := ← Json.nullable (·.str?) info }
  | _ => none

/-- The defaults of the settings that have one, under their ids. -/
def defaults (settings : List Setting) : Json.Fields :=
  Json.Fields.merge (settings.filterMap fun s => s.default.map fun value => (s.id, value))

end Setting

end ThemeSection
