import JoinPlan.Graph.Search

/-!
# Routes through given tables

A route leads from one table to another through waypoints, each leg by a cheapest path. A table
can be joined to itself only over a foreign key to itself.

## Main definitions

* `waypointFault?`: what is wrong with a list of waypoints, whatever the graph.
* `JoinGraph.leg?`: the tables that one leg adds.
* `JoinGraph.resolveRoute`: all tables of a route, both ends included.
-/

namespace JoinPlan

/-- What is wrong with the waypoints of a route: a repetition is noticed first, then the source,
then the target in last place. -/
def waypointFault? (source target : TableRef) (via : List TableRef) : Option WaypointFault :=
  if ¬ via.Nodup then some .repeated
  else if source ∈ via then some .passesSource
  else if via.getLast? = some target then some .endsAtTarget
  else none

namespace JoinGraph

variable {P : Type} [Penalty P]

/-- The tables that a leg adds after its source. -/
def leg? (graph : JoinGraph P) (source target : TableRef) : Option (List TableRef) :=
  if source = target then
    if graph.hasSelfLoop source then some [target] else none
  else (graph.cheapestTrail? source target).map fun trail => trail.path.drop 1

/-- The tables that the legs to the given stops add after the source. -/
def legs? (graph : JoinGraph P) (source : TableRef) : List TableRef → Option (List TableRef)
  | [] => some []
  | stop :: stops => do
    let leg ← graph.leg? source stop
    let rest ← legs? graph stop stops
    return leg ++ rest

/-- All tables of the route from a source through waypoints to a target. -/
def resolveRoute (graph : JoinGraph P) (source target : TableRef) (via : List TableRef) :
    Except QueryError (List TableRef) :=
  match waypointFault? source target via with
  | some fault => .error (.invalidWaypoint source target via fault)
  | none =>
    match graph.legs? source (via ++ [target]) with
    | some rest => .ok (source :: rest)
    | none => .error (.noPath source target)

end JoinGraph

end JoinPlan
