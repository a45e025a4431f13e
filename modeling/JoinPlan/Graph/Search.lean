import JoinPlan.Graph.Basic
import JoinPlan.Graph.Heap

/-!
# Cheapest paths

Tables are settled in the order of their cost from the start. A table is settled when it first
comes out of the heap; its links then put its neighbours into the heap, each as long as that makes
it cheaper than before.

## Main definitions

* `Trail`: a way from the start to a table, with its cost.
* `Search.State`, `Search.relax`, `Search.run`: one link, and the whole search.
* `JoinGraph.cheapestTrail?`, `JoinGraph.shortestPath`: the cheapest path between two tables.

## Implementation notes

A trail keeps the tables behind it, so the path is at hand when the goal comes out. Each table is
settled once and puts at most one trail per link into the heap, so no more trails come out than
the graph has links, and the start.
-/

namespace JoinPlan

/-- A way from the start to a table. -/
structure Trail (P : Type) where
  cost : Cost P
  table : TableRef
  /-- The tables before, nearest first; the start comes last. -/
  behind : List TableRef
  deriving DecidableEq, Repr

namespace Trail

variable {P : Type}

/-- The tables of the way from the start on. -/
def path (trail : Trail P) : List TableRef :=
  (trail.table :: trail.behind).reverse

/-- The trail that stays at the start. -/
def start [Penalty P] (table : TableRef) : Trail P :=
  ⟨Cost.zero, table, []⟩

/-- The trail that goes on along a link. -/
def follow [Penalty P] (trail : Trail P) (link : Link P) : Trail P :=
  ⟨trail.cost.extend link.penalty, link.target, trail.table :: trail.behind⟩

/-- The first trail is cheaper. -/
def lt [Penalty P] (a b : Trail P) : Bool :=
  a.cost.lt b.cost

end Trail

namespace Search

variable {P : Type} [Penalty P]

/-- Where a search stands. -/
structure State (P : Type) where
  /-- The trails that wait, as a heap by their cost. -/
  waiting : Array (Trail P)
  /-- The least cost at which a table was put into the heap, latest first. -/
  best : List (TableRef × Cost P)
  /-- The tables whose links have been followed. -/
  settled : List TableRef

/-- The search that has seen nothing but its start. -/
def State.initial (start : TableRef) : State P :=
  ⟨#[Trail.start start], [(start, Cost.zero)], []⟩

/-- A cost is worth noting for a table that has no cost yet or a greater one. -/
def State.improves (state : State P) (table : TableRef) (cost : Cost P) : Bool :=
  match state.best.lookup table with
  | some known => cost.lt known
  | none => true

/-- Follows one link from the end of a trail. -/
def relax (trail : Trail P) (state : State P) (link : Link P) : State P :=
  let next := trail.follow link
  if state.improves next.table next.cost then
    { state with
      waiting := Heap.push Trail.lt state.waiting next
      best := (next.table, next.cost) :: state.best }
  else state

/-- Follows all links from the end of a trail. -/
def settle (graph : JoinGraph P) (state : State P) (trail : Trail P) : State P :=
  (graph.linksFrom trail.table).foldl (relax trail)
    { state with settled := trail.table :: state.settled }

/-- Takes trails out of the heap until one ends at the goal. `rounds` bounds how many. -/
def run (graph : JoinGraph P) (goal : TableRef) : Nat → State P → Option (Trail P)
  | 0, _ => none
  | rounds + 1, state =>
    match Heap.pop? Trail.lt state.waiting with
    | none => none
    | some (trail, waiting) =>
      let state := { state with waiting }
      if trail.table = goal then some trail
      else if state.settled.contains trail.table then run graph goal rounds state
      else run graph goal rounds (settle graph state trail)

end Search

namespace JoinGraph

variable {P : Type} [Penalty P]

/-- The cheapest trail between two tables of a graph: fewest hops, then least penalty, then the
one that the search reaches first. -/
def cheapestTrail? (graph : JoinGraph P) (source target : TableRef) : Option (Trail P) :=
  if graph.contains source && graph.contains target then
    Search.run graph target (graph.links.length + 1) (Search.State.initial source)
  else none

/-- The cheapest trail between two tables, with the reason where there is none. -/
def shortestPath (graph : JoinGraph P) (source target : TableRef) :
    Except QueryError (Trail P) :=
  match graph.cheapestTrail? source target with
  | some trail => .ok trail
  | none => .error (.noPath source target)

end JoinGraph

end JoinPlan
