/-!
# Drawn values

A factory is asked anew whenever its default is needed, and may bring another value each time.  So
what is made with defaults depends on the moment at which it is made.
-/

namespace DocGraph

/-- A moment at which factories may be asked.  What is made at a moment has its parts made at
moments within it, no two at the same one. -/
abbrev Moment := List Bool

/-- The moment at which a schema is built and its defaults are checked. -/
def Moment.declared : Moment := []

def Moment.first (moment : Moment) : Moment := true :: moment

def Moment.later (moment : Moment) : Moment := false :: moment

/-- Something that depends on the moment at which it is made. -/
abbrev Drawn (α : Type) := Moment → α

def Drawn.all {α : Type} : List (Drawn α) → Drawn (List α)
  | [], _ => []
  | item :: items, moment => item moment.first :: all items moment.later

end DocGraph
