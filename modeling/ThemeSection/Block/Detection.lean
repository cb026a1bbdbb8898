import ThemeSection.Block.Reading
import ThemeSection.Fragment.Nesting
import ThemeSection.Fragment.Siblings
import ThemeSection.Selector.Reader

/-!
Finding the blocks of a page. The patterns of the catalog come first, then those that somebody asks
for, then slides, then siblings that look alike. Whatever a block takes no later block may touch,
and no two blocks are of one type. Nothing on the page is changed.
-/

namespace ThemeSection

open Markup

/-- A block type with the elements that make its blocks, in document order. -/
structure DetectedBlock where
  pattern : BlockPattern
  places : List Place
  deriving Repr

namespace DetectedBlock

def type (block : DetectedBlock) : String :=
  block.pattern.type

/-- What each of the elements says. -/
def instances (block : DetectedBlock) : List BlockInstance :=
  block.places.map (BlockInstance.read block.pattern.role)

end DetectedBlock

inductive DetectionWarning
  | duplicateType (type : String)
  | tooMany (type : String) (found kept : Nat)
  | invalidSelector (type selector : String)
  deriving DecidableEq, Repr

def DetectionWarning.message : DetectionWarning → String
  | duplicateType type => "Duplicate block type '" ++ type ++ "' dropped"
  | tooMany type found kept =>
    "Block type '" ++ type ++ "' has " ++ toString found ++ " instances; kept the first "
      ++ toString kept
  | invalidSelector type selector =>
    "Pattern '" ++ type ++ "' skipped: invalid selector: " ++ selector

structure Detection where
  blocks : List DetectedBlock := []
  warnings : List DetectionWarning := []
  /-- The nodes that no further block may touch. -/
  claimed : List NodeId := []
  deriving Repr

namespace Detection

/-- A node is free if neither it nor anything inside or around it is claimed. -/
def isFree (d : Detection) (p : Place) : Bool :=
  !d.claimed.any fun id => p.isWithin id || p.tree.ids.contains id

/-- Takes elements as blocks of a pattern, if there are enough of them and the type is new. What is
above the pattern's maximum is claimed but does not become a block. -/
def claim (d : Detection) (pattern : BlockPattern) (places : List Place) : Detection :=
  if places.length < pattern.min then d
  else if d.blocks.any (·.type == pattern.type) then
    { d with warnings := d.warnings ++ [.duplicateType pattern.type] }
  else
    { blocks := d.blocks ++ [⟨pattern, places.take pattern.max⟩]
      warnings := d.warnings ++
        if pattern.max < places.length then [.tooMany pattern.type places.length pattern.max]
        else []
      claimed := d.claimed ++ places.map (·.id) }

/-- Looks for blocks of a pattern from a node down. -/
def consider (root : Place) (d : Detection) (pattern : BlockPattern) : Detection :=
  match Selector.read? pattern.selector with
  | none =>
    { d with warnings := d.warnings ++ [.invalidSelector pattern.type pattern.selector] }
  | some selector =>
    let matched := (root.select selector).filter fun p => d.isFree p && pattern.accepts p
    d.claim pattern (Fragment.outermost matched)

/-- Siblings that look alike and have the shape of blocks. -/
def shapedGroups (root : Place) : List (List Place) :=
  ((Fragment.siblingGroups root).map fun group =>
      group.filter fun p => Fragment.blockShape ≤ Fragment.shapeScore p).filter (2 ≤ ·.length)

/-- Whether a group holds members of another one inside its own. -/
def wraps (group other : List Place) : Bool :=
  other.any fun inner => group.any fun outer => inner.id != outer.id && inner.isWithin outer.id

def considerGroup (d : Detection) (group : List Place) : Detection :=
  let members := group.filter d.isFree
  if 2 ≤ members.length then d.claim (.ofGroup members) members else d

/-- Groups that wrap another one are left out in favour of that one. -/
def considerGroups (root : Place) (d : Detection) : Detection :=
  let groups := shapedGroups root
  (groups.filter fun group => !groups.any (wraps group)).foldl considerGroup d

/-- The blocks from a node down, apart from excluded nodes. -/
def detect (root : Place) (options : Options) (excluded : List NodeId) : Detection :=
  let patterns :=
    BlockPattern.catalog ++ options.customPatterns.map .ofCustom ++ [BlockPattern.slide]
  let found := patterns.foldl (consider root) { claimed := excluded }
  if options.structuralGroups then considerGroups root found else found

end Detection

end ThemeSection
