import ThemeSection.Markup.Place

/-!
Sets of places and how they nest: the innermost members hold no other member, the outermost stand
in no other member.
-/

namespace ThemeSection.Fragment

open Markup

/-- The members that hold no other member. -/
def innermost (places : List Place) : List Place :=
  places.filter fun p => !places.any fun q => q.id != p.id && q.isWithin p.id

/-- The members that stand in no other member. -/
def outermost (places : List Place) : List Place :=
  places.filter fun p => !p.above.any fun level => places.any (·.id == level.id)

end ThemeSection.Fragment
