import JoinPlan.Catalog.Basic
import JoinPlan.Graph.Cost
import JoinPlan.Graph.Similarity

/-!
# The graph of a catalog

The tables of a catalog are the nodes, and every foreign key links two of them in both
directions. However many keys two tables share, they are linked once each way.

The order of the links matters, for it decides between paths that cost the same: the links out of
a table are listed latest first.

## Main definitions

* `JoinGraph`, `Link`: tables and links.
* `JoinGraph.ofCatalog`: the graph of a catalog with some tables left out, for any penalty on
  links.
* `namePenalty`, `JoinGraph.ofNames`: links between tables with similar names are preferred.
* `JoinGraph.contains`, `hasSelfLoop`, `neighbors`, `linksFrom`: looking at a graph.
-/

namespace JoinPlan

/-- A link from one table to another. -/
structure Link (P : Type) where
  source : TableRef
  target : TableRef
  penalty : P
  deriving DecidableEq, Repr

/-- Tables in catalog order and the links between them, latest first. -/
structure JoinGraph (P : Type) where
  tables : List TableRef
  links : List (Link P)
  deriving DecidableEq, Repr

namespace Link

variable {P : Type}

/-- The link leads from one table to the other. -/
def joins (link : Link P) (source target : TableRef) : Bool :=
  link.source = source && link.target = target

end Link

/-- The links with one from a table to another: an existing link gets the new penalty, and a new
one comes before all others. -/
def setLink {P : Type} (source target : TableRef) (penalty : P) (links : List (Link P)) :
    List (Link P) :=
  if links.any (·.joins source target) then
    links.map fun link => if link.joins source target then { link with penalty } else link
  else ⟨source, target, penalty⟩ :: links

namespace JoinGraph

variable {P : Type}

/-- The table is in the graph. -/
def contains (graph : JoinGraph P) (table : TableRef) : Bool :=
  graph.tables.contains table

/-- Links two tables in both directions. Nothing happens if either is not in the graph. -/
def connect (graph : JoinGraph P) (source target : TableRef) (penalty : P) : JoinGraph P :=
  if graph.contains source && graph.contains target then
    { graph with
      links := setLink target source penalty (setLink source target penalty graph.links) }
  else graph

/-- The ends of the foreign keys of a catalog: for each table in catalog order and each of its
columns, the table and the one at the other end of each key. -/
def keyEnds (catalog : Catalog) : List (TableRef × TableRef) :=
  catalog.tables.flatMap fun (ref, table) => table.linkedTables.map fun other => (ref, other)

/-- The graph of a catalog without the tables of a list. -/
def ofCatalog (penalty : TableRef → TableRef → P) (catalog : Catalog)
    (ignored : List TableRef) : JoinGraph P :=
  (keyEnds catalog).foldl
    (fun graph ends => graph.connect ends.1 ends.2 (penalty ends.1 ends.2))
    ⟨(catalog.tables.map (·.1)).filter (!ignored.contains ·), []⟩

/-- The links out of a table, latest first. -/
def linksFrom (graph : JoinGraph P) (table : TableRef) : List (Link P) :=
  graph.links.filter (·.source = table)

/-- The tables linked to a table, the latest link first. -/
def neighbors (graph : JoinGraph P) (table : TableRef) : List TableRef :=
  (graph.linksFrom table).map (·.target)

/-- The table has a foreign key to itself. -/
def hasSelfLoop (graph : JoinGraph P) (table : TableRef) : Bool :=
  graph.links.any (·.joins table table)

end JoinGraph

/-- The penalty of a link: how far the names of its tables are from being alike. -/
def namePenalty (source target : TableRef) : Float :=
  1.0 - nameSimilarity source.table target.table

/-- The graph of a catalog without the tables of a list, where similar names are preferred. -/
def JoinGraph.ofNames (catalog : Catalog) (ignored : List TableRef) : JoinGraph Float :=
  ofCatalog namePenalty catalog ignored

end JoinPlan
