import ThemeSection.Markup.Draft.Basic

/-!
Formatting elements, which stay in force across the ends of other elements: they are opened again
where they were closed too early, and misnested ones are taken apart.
-/

namespace ThemeSection.Markup.Draft

def Entry.isElement (entry : Entry) (n : Nat) : Bool :=
  match entry with
  | .element m _ => m == n
  | .marker => false

def Entry.isMarker : Entry → Bool
  | .marker => true
  | .element _ _ => false

/-- The entries after the last marker, the latest first. -/
def recent (d : Draft) : List Entry :=
  d.formatting.takeWhile (!·.isMarker)

def pushMarker : Build Unit :=
  modify fun d => { d with formatting := .marker :: d.formatting }

/-- Drops the entries after the last marker, and the marker. -/
def clearToMarker : Build Unit :=
  modify fun d => { d with formatting := (d.formatting.dropWhile (!·.isMarker)).drop 1 }

def removeFormatting (n : Nat) : Build Unit :=
  modify fun d => { d with formatting := d.formatting.filter (!·.isElement n) }

/-- Puts an entry in place of that of a node. -/
def replaceFormatting (n : Nat) (entry : Entry) : Build Unit :=
  modify fun d =>
    { d with formatting := d.formatting.map fun e => if e.isElement n then entry else e }

def isFormatting (d : Draft) (n : Nat) : Bool :=
  d.formatting.any (·.isElement n)

/-- Opens the formatting elements again that were closed since the last marker. -/
def reconstruct : Build Unit := do
  let d ← get
  let closed := d.formatting.takeWhile fun entry =>
    match entry with
    | .marker => false
    | .element n _ => !d.stack.contains n
  for entry in closed.reverse do
    match entry with
    | .marker => pure ()
    | .element n tag =>
      let new ← openTag tag
      replaceFormatting n (.element new tag)

/-- Whether two tags have the same name and the same attributes in any order. -/
def sameTag (a b : Tag) : Bool :=
  a.name == b.name && plainAttributes a.attributes == plainAttributes b.attributes

/-- Opens a formatting element; of three like it since the last marker the first is forgotten. -/
def openFormatting (tag : Tag) : Build Unit := do
  let alike := (← get).recent.filterMap fun entry =>
    match entry with
    | .element n other => if sameTag tag other then some n else none
    | .marker => none
  if alike.length ≥ 3 then
    match alike.getLast? with
    | some n => removeFormatting n
    | none => pure ()
  let n ← openTag tag
  modify fun d => { d with formatting := .element n tag :: d.formatting }

/-- Closes a generic element: the nearest open one of the name, unless one with rules of its own is
nearer. -/
def closeGeneric (name : String) : Build Unit := do
  let d ← get
  match d.stack.find? fun n => d.isNamed n name || d.isSpecial n with
  | none => pure ()
  | some n =>
    if d.isNamed n name then
      closeImpliedExcept name
      modify fun d => { d with stack := (d.stack.dropWhile (· != n)).drop 1 }

/-- Where the copy of a formatting element goes in the list. -/
inductive Bookmark
  | replace (n : Nat)
  | after (n : Nat)

/-- The elements between a formatting element and the block that overlaps it, from the block down:
each becomes the parent of what came before it, as a copy if it is a formatting element near the
block, and is closed if it is none. Gives the last one and the place for the copy. -/
def rebuildChain (block : Nat) : Nat → List Nat → Nat → Bookmark → Build (Nat × Bookmark)
  | _, [], last, mark => return (last, mark)
  | count, n :: rest, last, mark => do
    let d ← get
    let tag? := d.formatting.findSome? fun entry =>
      match entry with
      | .element m tag => if m == n then some tag else none
      | .marker => none
    match tag? with
    | none =>
      removeOpen n
      rebuildChain block (count + 1) rest last mark
    | some tag =>
      if count > 3 then
        removeFormatting n
        removeOpen n
        rebuildChain block (count + 1) rest last mark
      else
        let copy ← newElement (.html tag.name) (plainAttributes tag.attributes)
        modify fun d =>
          { d with stack := d.stack.map fun m => if m == n then copy else m }
        replaceFormatting n (.element copy tag)
        let mark := if last == block then .after copy else mark
        append copy last
        rebuildChain block (count + 1) rest copy mark

/-- One round of taking apart a misnested formatting element. Says whether another may follow. -/
def adoptOnce (name : String) : Build Bool := do
  let d ← get
  let found := d.recent.findSome? fun entry =>
    match entry with
    | .element n tag => if tag.name == name then some (n, tag) else none
    | .marker => none
  match found with
  | none =>
    closeGeneric name
    return false
  | some (element, tag) =>
    if !d.stack.contains element then
      removeFormatting element
      return false
    else if !d.inScopeWhere defaultScope (· == element) then return false
    else
      let above := d.stack.takeWhile (· != element)
      match above.reverse.find? d.isSpecial with
      | none =>
        modify fun d => { d with stack := (d.stack.dropWhile (· != element)).drop 1 }
        removeFormatting element
        return false
      | some block =>
        let ancestor := ((d.stack.dropWhile (· != element)).drop 1).headD 0
        let between := (above.dropWhile (· != block)).drop 1
        let (last, mark) ← rebuildChain block 1 between block (.replace element)
        detach last
        insertNode ancestor last
        let copy ← newElement (.html tag.name) (plainAttributes tag.attributes)
        for child in ((← get).cell block).children do
          append copy child
        append block copy
        let entry := Entry.element copy tag
        match mark with
        | .replace n => replaceFormatting n entry
        | .after n =>
          modify fun d =>
            { d with formatting := d.formatting.flatMap fun e =>
                if e.isElement n then [entry, e] else [e] }
          removeFormatting element
        removeOpen element
        modify fun d =>
          { d with stack := d.stack.flatMap fun m => if m == block then [copy, m] else [m] }
        return true

/-- Up to `count` rounds of taking apart a misnested formatting element. -/
def adoptRounds (name : String) : Nat → Build Unit
  | 0 => pure ()
  | count + 1 => do
    if ← adoptOnce name then adoptRounds name count

/-- The end of a formatting element. -/
def closeFormatting (name : String) : Build Unit := do
  let d ← get
  if d.currentIs name && !d.isFormatting d.current then pop
  else adoptRounds name 8

/-- A new link ends one that is still open. -/
def closeMisnestedLink : Build Unit := do
  let d ← get
  let link := d.recent.findSome? fun entry =>
    match entry with
    | .element n _ => if d.isNamed n "a" then some n else none
    | .marker => none
  match link with
  | none => pure ()
  | some n =>
    closeFormatting "a"
    removeFormatting n
    removeOpen n

end ThemeSection.Markup.Draft
