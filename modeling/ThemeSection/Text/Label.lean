import ThemeSection.Chars.Cluster
import ThemeSection.Text.Basic

/-!
Titles and labels that people read. Lengths count user-perceived characters.
-/

namespace ThemeSection.Text

/-- The number of user-perceived characters. -/
def clusterCount (s : String) : Nat :=
  (Chars.clusters s.toList).length

/-- The words of a slug, each with a capital first letter. -/
def titleCase (slug : String) : String :=
  let words := Chars.splitWhere (fun c => c == '-' || c == '_' || Chars.isBlank c) slug.toList
  join " " <| (words.filter (!·.isEmpty)).map fun
    | [] => ""
    | first :: rest => String.ofList (Chars.upperChar first ++ rest)

/-- The longest title of a section. -/
def maxTitleLength : Nat := 25

/-- The title of a section with a given slug. -/
def schemaTitle (slug : String) : String :=
  let title := titleCase slug
  onChars (fun s => Chars.trimEnd ((Chars.clusters s).take maxTitleLength).flatten)
    (if title.isEmpty then "Section" else title)

/-- The longest label of a setting. -/
def maxLabelLength : Nat := 70

/-- The characters of a label that is too long, up to the last space that leaves room for the
dots. -/
def cutLabel (label : List Char) : List Char :=
  let head := ((Chars.clusters label).take (maxLabelLength - 3)).flatten
  let cut := match Chars.beforeLast? (· == ' ') head with
    | some (c :: before) => c :: before
    | _ => head
  Chars.trimEnd cut ++ ['.', '.', '.']

/-- A label on one line and of bounded length, cut between words where there is a space. -/
def truncateLabel (label : String) : String :=
  let squeezed := squeeze label
  if clusterCount squeezed ≤ maxLabelLength then squeezed else onChars cutLabel squeezed

/-- The first words of a text. -/
def snippet (count : Nat) (text : String) : String :=
  join " " ((words text).take count)

end ThemeSection.Text
