import ThemeSection.Command.Run

/-! The command line itself: reading and writing files, and printing. -/

namespace ThemeSection

open Command

/-- The user's options file, below the directory for configuration. -/
def userConfig? : IO (Option String) := do
  let below (directory : String) : String := directory ++ "/sectionsmith/config.toml"
  match ← IO.getEnv "XDG_CONFIG_HOME" with
  | some directory =>
    if Text.startsWith "/" directory then return some (below directory)
  | none => pure ()
  return (← IO.getEnv "HOME").map fun home => below (home ++ "/.config")

def lookAt (path : String) : IO FileState := do
  try
    return .content (← IO.FS.readBinFile path)
  catch
    | .noFileOrDirectory .. => return .missing
    | _ => return .unreadable

/-- The paths that a run with these arguments may read. -/
def pathsOf (arguments : Arguments) (defaultConfig : Option String) : List String :=
  (arguments.config.or defaultConfig).toList ++ arguments.files

/-- Finds out what stands at the paths that the arguments name. -/
def surroundings (arguments : List String) : IO Surroundings := do
  let defaultConfig ← userConfig?
  let paths := match Arguments.read arguments with
    | .ok (.convert read) => pathsOf read defaultConfig
    | _ => []
  let found ← paths.mapM fun path => return (path, ← lookAt path)
  return { defaultConfig, look := fun path => (found.lookup path).getD .missing }

/-- Writes a file, with the directories that lead to it. -/
def writeOutput (directory : String) (file : String × String) : IO Unit := do
  let path := directory ++ "/" ++ file.1
  let parent := (Chars.beforeLast? (· == '/') path.toList).getD []
  IO.FS.createDirAll (String.ofList parent)
  IO.FS.writeFile path file.2

end ThemeSection

open ThemeSection

def main (arguments : List String) : IO UInt32 := do
  let outcome := Command.run (← surroundings arguments) arguments
  let directory := match Command.Arguments.read arguments with
    | .ok (.convert read) => read.outDirectory
    | _ => "out"
  for file in outcome.files do
    writeOutput directory file
  IO.print outcome.stdout
  IO.eprint outcome.stderr
  return outcome.code.toUInt32
