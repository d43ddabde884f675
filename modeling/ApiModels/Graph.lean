/-!
# Components of a graph

A graph is a list of nodes and, for each, the nodes it has edges to. Two nodes are in one component
when each reaches the other. One walk in depth finds all components. It numbers nodes as it meets
them, and keeps those whose component is still open on a stack. A node is left with the lowest
number on the stack that its part of the walk has seen an edge to; where that is no lower than its
own number, the stack down to the node is a component. Components come up in the order in which they
are closed, so each comes after every component it has edges into.
-/

namespace ApiModels.Graph

/-- What a walk has met, and which components of it are complete. -/
structure Walk where
  /-- Nodes met, in the order in which they were. -/
  met : List Nat := []
  /-- Nodes met whose component is open, latest first. -/
  stack : List Nat := []
  /-- Components in the order in which they were closed. -/
  closed : List (List Nat) := []
deriving Repr, DecidableEq

namespace Walk

/-- The number of a node: how many were met before it. -/
def number (w : Walk) (v : Nat) : Nat := w.met.idxOf v

/-- Meets a node. -/
def meet (w : Walk) (v : Nat) : Walk := { w with met := w.met ++ [v], stack := v :: w.stack }

/-- Closes the component that the stack holds down to a node. -/
def close (w : Walk) (v : Nat) : Walk :=
  { w with
    stack := (w.stack.dropWhile (· ≠ v)).tail,
    closed := w.closed ++ [w.stack.takeWhile (· ≠ v) ++ [v]] }

end Walk

/-- Follows an edge with the lowest number seen so far: on from a node not met before, and down to
the number of one whose component is open. Where the component is closed nothing is learned. -/
def follow (visit : Walk → Nat → Walk × Nat) (s : Walk × Nat) (u : Nat) : Walk × Nat :=
  if !s.1.met.contains u then
    let r := visit s.1 u
    (r.1, min s.2 r.2)
  else if s.1.stack.contains u then (s.1, min s.2 (s.1.number u))
  else s

/-- Walks on from a node not met before. A path of such nodes is no longer than the list of all
nodes, which bounds the depth. -/
def visit (edges : Nat → List Nat) : (depth : Nat) → Walk → Nat → Walk × Nat
  | 0, w, v => (w, w.number v)
  | depth + 1, w, v =>
    let (after, low) := (edges v).foldl (follow (visit edges depth)) (w.meet v, w.met.length)
    if low = w.met.length then (after.close v, low) else (after, low)

/-- The whole walk, from every node that was not met before. -/
def walk (edges : Nat → List Nat) (nodes : List Nat) : Walk :=
  nodes.foldl (fun w v => if w.met.contains v then w else (visit edges nodes.length w v).1) {}

/-- The components of a graph, each after those it has edges into; the nodes of a component stand
opposite to the order in which they were met. -/
def components (edges : Nat → List Nat) (nodes : List Nat) : List (List Nat) :=
  (walk edges nodes).closed

end ApiModels.Graph
