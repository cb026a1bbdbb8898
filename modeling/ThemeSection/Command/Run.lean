import ThemeSection.Command.Arguments
import ThemeSection.Conversion
import ThemeSection.Toml.Reader

/-!
What the command line does, apart from touching the disk: given its arguments and what stands in the
files that they name, the exit code, the texts it prints and the files it writes.
-/

namespace ThemeSection.Command

/-- What stands at a path. -/
inductive FileState
  | missing
  | unreadable
  | content (bytes : ByteArray)

/-- What the command finds around it. -/
structure Surroundings where
  /-- The options file that is used if none is named. -/
  defaultConfig : Option String
  look : String → FileState

inductive Failure
  | usage (error : UsageError)
  | missingConfig (path : String)
  | invalidConfig (path : String)
  | unreadable (path : String)
  | input (error : InputError)
  deriving DecidableEq, Repr

namespace Failure

def code : Failure → Nat
  | usage _ => 2
  | _ => 1

/-- The first line of the report. -/
def message : Failure → String
  | usage error => "error: " ++ error.message
  | missingConfig path => "Error: config file " ++ path ++ " does not exist"
  | invalidConfig path => "Error: parsing " ++ path
  | unreadable path => "Error: reading " ++ path
  | input error => "Error: " ++ error.message

end Failure

/-- What a run comes to. Paths of files are below the output directory, in the order in which they
are written. -/
structure Outcome where
  code : Nat := 0
  stdout : String := ""
  stderr : String := ""
  files : List (String × String) := []

/-- The text of a file in UTF-8. -/
def readText (s : Surroundings) (path : String) : Except Failure String :=
  match s.look path with
  | .content bytes =>
    match String.fromUTF8? bytes with
    | some text => .ok text
    | none => .error (.unreadable path)
  | _ => .error (.unreadable path)

def optionsOf? (text : String) : Option Options :=
  (Toml.read? text).bind Options.ofJson?

/-- The options in a file that is there. -/
def readOptions (s : Surroundings) (path : String) : Except Failure Options := do
  let text ← readText s path
  match optionsOf? text with
  | some options => .ok options
  | none => .error (.invalidConfig path)

def FileState.isMissing : FileState → Bool
  | missing => true
  | _ => false

/-- The options of a run. A file that was named has to exist; the default file need not. -/
def loadOptions (s : Surroundings) (named : Option String) : Except Failure Options :=
  match named with
  | some path =>
    if (s.look path).isMissing then .error (.missingConfig path) else readOptions s path
  | none =>
    match s.defaultConfig with
    | none => .ok {}
    | some path => if (s.look path).isMissing then .ok {} else readOptions s path

/-- The last part of a path, or the whole path if it ends in no name. -/
def fileName (path : String) : String :=
  let parts := ((Chars.splitWhere (· == '/') path.toList).map String.ofList).filter fun part =>
    part != "" && part != "."
  match parts.getLast? with
  | none | some ".." => path
  | some name => name

/-- The files of a batch, in the order in which they are written. -/
def outputs (batch : Batch) : List (String × String) :=
  (batch.conversions.flatMap fun c =>
    [(c.sectionFileName, c.liquid), (c.templateFileName, c.pageText)])
  ++ (if batch.headContent.isEmpty then [] else [("head-resources.html", batch.headContent)])

/-- The lines that tell what was changed. -/
def report (batch : Batch) : String :=
  String.join <| batch.conversions.flatMap fun c =>
    c.changes.map fun change => c.sectionFileName ++ ": " ++ change ++ "\n"

/-- Converts the files that the arguments name. -/
def convert (s : Surroundings) (arguments : Arguments) : Except Failure Batch := do
  let options ← loadOptions s arguments.config
  let options :=
    if arguments.featuredProducts then { options with featuredProducts := true } else options
  let pages ← arguments.files.mapM fun path => do
    let markup ← readText s path
    return (⟨markup, fileName path⟩ : SourcePage)
  (Batch.convert pages options).mapError .input

/-- One run of the command. -/
def run (s : Surroundings) (arguments : List String) : Outcome :=
  let fail (failure : Failure) : Outcome :=
    { code := failure.code, stderr := failure.message ++ "\n" }
  match Arguments.read arguments with
  | .error error => fail (.usage error)
  | .ok .help => { stdout := helpText }
  | .ok (.convert arguments) =>
    match convert s arguments with
    | .error failure => fail failure
    | .ok batch => { stdout := report batch, files := outputs batch }

/-- The contents that files have in the end: what is written last. -/
def Outcome.contents (outcome : Outcome) : List (String × String) :=
  outcome.files.foldl
    (fun kept (path, content) => kept.filter (·.1 != path) ++ [(path, content)]) []

end ThemeSection.Command
