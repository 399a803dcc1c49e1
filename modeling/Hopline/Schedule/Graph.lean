/-! Directed graphs as lists of successors, and the search for a cycle. A depth-first
search paints a vertex grey while it is on the present path and black once nothing
beyond it is left to see, so a cycle shows as an edge to a grey vertex. -/

namespace Hopline.Schedule

abbrev Graph := List (List Nat)

namespace Graph

def successors (graph : Graph) (vertex : Nat) : List Nat := graph.getD vertex []

inductive Colour
  | white
  | grey
  | black
deriving DecidableEq, Inhabited

abbrev Colours := List Colour

/-- The colour of one vertex. What is no vertex has nothing beyond it. -/
def Colours.of (colours : Colours) (vertex : Nat) : Colour := colours.getD vertex .black

mutual

/-- Searches everything beyond `vertex`; true if a cycle shows. The depth bounds the
search: each level paints a white vertex, so as many levels as there are vertices
are enough. -/
def visit (graph : Graph) (depth : Nat) (vertex : Nat) (colours : Colours) : Bool × Colours :=
  match depth with
  | 0 => (false, colours)
  | depth + 1 =>
    match visitAll graph depth (graph.successors vertex) (colours.set vertex .grey) with
    | (true, colours) => (true, colours)
    | (false, colours) => (false, colours.set vertex .black)

def visitAll (graph : Graph) (depth : Nat) : List Nat → Colours → Bool × Colours
  | [], colours => (false, colours)
  | next :: rest, colours =>
    match colours.of next with
    | .grey => (true, colours)
    | .black => visitAll graph depth rest colours
    | .white =>
      match visit graph depth next colours with
      | (true, colours) => (true, colours)
      | (false, colours) => visitAll graph depth rest colours

end

def searchFrom (graph : Graph) : List Nat → Colours → Bool
  | [], _ => false
  | start :: rest, colours =>
    match colours.of start with
    | .white =>
      match visit graph graph.length start colours with
      | (true, _) => true
      | (false, colours) => searchFrom graph rest colours
    | _ => searchFrom graph rest colours

/-- True if some vertex can reach itself. -/
def hasCycle (graph : Graph) : Bool :=
  searchFrom graph (List.range graph.length) (List.replicate graph.length .white)

def addEdge (graph : Graph) (source target : Nat) : Graph :=
  graph.modify source (· ++ [target])

/-- The graph without the newest edge of `source`. -/
def dropEdge (graph : Graph) (source : Nat) : Graph := graph.modify source List.dropLast

end Graph

end Hopline.Schedule
