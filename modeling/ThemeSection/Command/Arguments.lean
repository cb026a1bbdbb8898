import ThemeSection.Text.Basic

/-! Arguments of the command line. -/

namespace ThemeSection.Command

structure Arguments where
  /-- The options file that was named. -/
  config : Option String := none
  /-- The directory that receives the output, if one was named. -/
  out : Option String := none
  featuredProducts : Bool := false
  files : List String := []
  deriving DecidableEq, Repr

namespace Arguments

def outDirectory (arguments : Arguments) : String :=
  arguments.out.getD "out"

end Arguments

/-- An option that takes a value. -/
inductive ValueOption
  | config
  | out
  deriving DecidableEq, Repr

def ValueOption.usage : ValueOption → String
  | config => "--config <CONFIG>"
  | out => "--out <OUT>"

inductive UsageError
  | unexpected (argument : String)
  | missingValue (option : ValueOption)
  | emptyFile
  | unexpectedValue (value : String)
  | repeatedValue (option : ValueOption)
  | repeatedFlag
  | noFiles
  deriving DecidableEq, Repr

def UsageError.message : UsageError → String
  | unexpected argument => "unexpected argument '" ++ argument ++ "' found"
  | missingValue option => "a value is required for '" ++ option.usage ++ "' but none was supplied"
  | emptyFile => "a value is required for '<FILES>...' but none was supplied"
  | unexpectedValue value =>
    "unexpected value '" ++ value ++ "' for '--featured-products' found; no more were expected"
  | repeatedValue option =>
    "the argument '" ++ option.usage ++ "' cannot be used multiple times"
  | repeatedFlag => "the argument '--featured-products' cannot be used multiple times"
  | noFiles => "the following required arguments were not provided:"

/-- What the arguments ask for. -/
inductive Request
  | help
  | convert (arguments : Arguments)
  deriving DecidableEq, Repr

def helpText : String :=
  "Turn static HTML pages into theme sections

Usage: sectionsmith [OPTIONS] <FILES>...

Arguments:
  <FILES>...  HTML files to convert

Options:
      --config <CONFIG>    Options file (TOML); defaults to the user config directory
      --out <OUT>          Directory that receives sections/, templates/ and head-resources.html"
  ++ " [default: out]
      --featured-products  Replace repeated product cards with a collection-driven loop
  -h, --help               Print help
"

namespace Arguments

/-- Gives an option its value, which must not be empty and may be given once only. -/
def setValue (arguments : Arguments) (option : ValueOption) (value : String) :
    Except UsageError Arguments :=
  if value == "" then .error (.missingValue option)
  else match option with
    | .config =>
      if arguments.config.isSome then .error (.repeatedValue option)
      else .ok { arguments with config := some value }
    | .out =>
      if arguments.out.isSome then .error (.repeatedValue option)
      else .ok { arguments with out := some value }

/-- One argument, read on its own. -/
inductive Item
  | file (path : String)
  /-- All that follows names files. -/
  | filesOnly
  | help
  | flag (value : Option String)
  | option (name : ValueOption) (value : Option String)
  | unknown (name : String)
  deriving DecidableEq, Repr

/-- Whether an argument is a flag or an option rather than a value. -/
def isDashed (argument : String) : Bool :=
  Text.startsWith "-" argument && argument != "-"

/-- The item of an argument; a long option may hold its value after an equals sign. -/
def item (argument : String) : Item :=
  if !isDashed argument then .file argument
  else if argument == "--" then .filesOnly
  else if Text.startsWith "--" argument then
    let (name, value) := match Chars.splitFirst ['='] argument.toList with
      | some (name, value) => (String.ofList name, some (String.ofList value))
      | none => (argument, none)
    match name with
    | "--config" => .option .config value
    | "--out" => .option .out value
    | "--featured-products" => .flag value
    | "--help" => .help
    | _ => .unknown name
  else
    let name := String.ofList (argument.toList.take 2)
    if name == "-h" then .help else .unknown name

/-- Adds a file, which must have a name. -/
def addFile (arguments : Arguments) (path : String) : Except UsageError Arguments :=
  if path == "" then .error .emptyFile
  else .ok { arguments with files := arguments.files ++ [path] }

/-- What arguments ask for that are read to the end. -/
def finish (read : Arguments) : Except UsageError Request :=
  if read.files.isEmpty then .error .noFiles else .ok (.convert read)

/-- Reads arguments from the left. The first fault decides, as does a request for help. -/
def readFrom (read : Arguments) : List String → Except UsageError Request
  | [] => read.finish
  | argument :: rest =>
    match item argument with
    | .file path =>
      match read.addFile path with
      | .error e => .error e
      | .ok read => readFrom read rest
    | .filesOnly =>
      match rest.foldlM addFile read with
      | .error e => .error e
      | .ok read => read.finish
    | .help => .ok .help
    | .flag (some value) => .error (.unexpectedValue value)
    | .flag none =>
      if read.featuredProducts then .error .repeatedFlag
      else readFrom { read with featuredProducts := true } rest
    | .option name (some value) =>
      match read.setValue name value with
      | .error e => .error e
      | .ok read => readFrom read rest
    | .option name none =>
      match rest with
      | [] => .error (.missingValue name)
      | value :: rest =>
        if isDashed value then .error (.missingValue name)
        else match read.setValue name value with
          | .error e => .error e
          | .ok read => readFrom read rest
    | .unknown name => .error (.unexpected name)

def read (arguments : List String) : Except UsageError Request :=
  readFrom {} arguments

end Arguments

end ThemeSection.Command
