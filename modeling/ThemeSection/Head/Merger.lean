import ThemeSection.Head.Resource
import ThemeSection.Head.Version

/-!
Merging the head resources of several documents: each font once, each library once for each kind of
tag in its highest version, and everything else once.
-/

namespace ThemeSection.Head

structure FontEntry where
  source : FontSource
  family : String
  line : String
  deriving DecidableEq, Repr

structure LibraryEntry where
  name : String
  kind : AssetKind
  version : String
  line : String
  deriving DecidableEq, Repr

/-- The resources kept so far, each group in order of first appearance. -/
structure Merger where
  fonts : List FontEntry := []
  libraries : List LibraryEntry := []
  other : List String := []
  deriving DecidableEq, Repr

def fontsHeader : String := "<!-- Fonts -->"

def librariesHeader : String := "<!-- Libraries -->"

def otherHeader : String := "<!-- Other -->"

def isHeader (line : String) : Bool :=
  line == fontsHeader || line == librariesHeader || line == otherHeader

/-- Puts a library among those kept: in place of a lower version of the same kind, or at the end if
there is none of its kind. -/
def keepLibrary (new : LibraryEntry) : List LibraryEntry → List LibraryEntry
  | [] => [new]
  | entry :: rest =>
    if entry.name == new.name && entry.kind == new.kind then
      if compareVersions new.version entry.version == .gt then new :: rest else entry :: rest
    else entry :: keepLibrary new rest

namespace Merger

/-- Adds a line that has no blanks around it and is no header. -/
def add (merger : Merger) (line : String) : Merger :=
  match classify line with
  | .font source family =>
    if merger.fonts.any fun e => e.source == source && e.family == family then merger
    else { merger with fonts := merger.fonts ++ [⟨source, family, line⟩] }
  | .library name version =>
    { merger with
      libraries := keepLibrary ⟨name, assetKind line, version, line⟩ merger.libraries }
  | .other =>
    if merger.other.contains line then merger
    else { merger with other := merger.other ++ [line] }

/-- Adds a line unless it is blank or the header of a group. -/
def push (merger : Merger) (line : String) : Merger :=
  let line := Text.trim line
  if line.isEmpty || isHeader line then merger else merger.add line

/-- Adds every line of every text. -/
def extend (merger : Merger) (texts : List String) : Merger :=
  (texts.flatMap Text.lines).foldl push merger

def fontLines (merger : Merger) : List String :=
  merger.fonts.map (·.line)

def libraryLines (merger : Merger) : List String :=
  merger.libraries.map (·.line)

/-- The lines of a group under its header; nothing for an empty group. -/
def group (header : String) (lines : List String) : List String :=
  if lines.isEmpty then [] else header :: lines

/-- The kept lines, group after group. -/
def render (merger : Merger) : String :=
  Text.join "\n" <|
    group fontsHeader merger.fontLines ++ group librariesHeader merger.libraryLines
      ++ group otherHeader merger.other

end Merger

/-- The head resources of several texts in one. -/
def mergeLines (texts : List String) : String :=
  (Merger.extend {} texts).render

end ThemeSection.Head
