import JoinPlan.Proofs.Outcome
import JoinPlan.Sql.Compile
import JoinPlan.Sql.Related

/-!
# What a step is refused for

Two kinds of errors are about what lies between two tables: that no way leads from the one to the
other, and that no key joins them. The first comes of nothing but a search, and the second of
nothing but equating columns. Every other step is refused with a plain error. So whether a request
can end with an error of these kinds is a question of its searches and of its equations, and
whatever else it does can be passed over.

## Main definitions

* `QueryError.IsPlain`: an error that says nothing about what lies between two tables.

## Main results

* `JoinTree.failsWith_statement`, `Catalog.failsWith_joinPath`: what is joined fails plainly, or as
  its equations do.
-/

namespace JoinPlan

/-- The error says neither that there is no way from one table to another nor that no key joins
them. -/
def QueryError.IsPlain : QueryError → Prop
  | .noPath _ _ => False
  | .noDirectForeignKey _ _ => False
  | _ => True

section

variable {catalog : Catalog} {kind : QueryError → Prop}
  (hplain : ∀ e : QueryError, e.IsPlain → kind e)

include hplain

/-! ### Look-ups and checks -/

theorem Catalog.failsWith_findTable (catalog : Catalog) (ref : TableRef) :
    FailsWith kind (catalog.findTable ref) := by
  rw [findTable]
  split
  · exact .error (hplain _ trivial)
  · split
    · exact .error (hplain _ trivial)
    · exact .ok _

theorem Catalog.failsWith_findLinkedTable (catalog : Catalog) (ref : TableRef) :
    FailsWith kind (catalog.findLinkedTable ref) := by
  refine (catalog.failsWith_findTable hplain ref).bind fun table _ => ?_
  split
  · exact .ok _
  · exact .error (hplain _ trivial)

theorem failsWith_checkSiblings (trail : List TableRef) (joins : List Join) :
    FailsWith kind (checkSiblings trail joins) := by
  rw [checkSiblings]
  split
  · exact .error (hplain _ trivial)
  · exact .ok _

theorem Join.failsWith_checkedSelect (catalog : Catalog) (join : Join) :
    FailsWith kind (join.checkedSelect catalog) := by
  refine (catalog.failsWith_findTable hplain _).bind fun table _ => ?_
  split
  · exact .ok _
  · split
    · exact .error (hplain _ trivial)
    · exact .ok _

theorem Condition.failsWith_check (condition : Condition) (ref : TableRef) (table : Table) :
    FailsWith kind (condition.check ref table) := by
  rw [check]
  split
  · exact .error (hplain _ trivial)
  · exact .ok _

theorem JoinNode.failsWith_filters (node : JoinNode) (table : Table) :
    FailsWith kind (node.filters table) := by
  rw [filters]
  split
  · exact .ok _
  · rename_i condition _
    exact (condition.failsWith_check hplain _ _).bind fun _ _ => .ok _

theorem JoinNode.failsWith_sortKeys (node : JoinNode) (table : Table) :
    FailsWith kind (node.sortKeys table) := by
  refine .mapM fun term _ => ?_
  split
  · exact .ok _
  · exact .error (hplain _ trivial)

theorem failsWith_checkDistinct (seen : List Nat) (keys : List SortKey) :
    FailsWith kind (checkDistinct seen keys) := by
  induction keys generalizing seen with
  | nil => exact .ok _
  | cons key rest ih =>
    rw [checkDistinct]
    split
    · exact .error (hplain _ trivial)
    · split
      · exact .error (hplain _ trivial)
      · exact ih _

theorem failsWith_checkPriorities (keys : List SortKey) :
    FailsWith kind (checkPriorities keys) := by
  rw [checkPriorities]
  split
  · exact .ok _
  · exact failsWith_checkDistinct hplain _ _

theorem failsWith_rowFilters (ref : TableRef) (table : Table) (row : Row) :
    FailsWith kind (rowFilters ref table row) := by
  refine .mapM fun ⟨column, value⟩ _ => ?_
  dsimp only
  split
  · exact .ok _
  · exact .error (hplain _ trivial)

/-! ### Joins -/

theorem Catalog.failsWith_equate (hkey : ∀ a b, kind (.noDirectForeignKey a b))
    (parent : TableRef) (parentName : String) (child : TableRef) (childName : String) :
    FailsWith kind (catalog.equate parent parentName child childName) := by
  refine (catalog.failsWith_findTable hplain _).bind fun _ _ => ?_
  split
  · exact .ok _
  · refine (catalog.failsWith_findTable hplain _).bind fun _ _ => ?_
    split
    · exact .ok _
    · exact .error (hkey _ _)

theorem JoinTree.failsWith_nodeClauses {tree : JoinTree} {node : JoinNode}
    (h : ∀ child ∈ node.children, ∀ below, tree.node? child = some below →
      FailsWith kind (catalog.equate node.table node.joinAlias below.table below.joinAlias)) :
    FailsWith kind (tree.nodeClauses catalog node) := by
  refine (catalog.failsWith_findTable hplain _).bind fun table _ => ?_
  refine (node.failsWith_filters hplain table).bind fun _ _ => ?_
  refine (node.failsWith_sortKeys hplain table).bind fun _ _ => ?_
  refine FailsWith.bind (.mapM fun below hbelow => ?_) fun _ _ => .ok _
  obtain ⟨child, hchild, hbelow⟩ := List.mem_filterMap.mp hbelow
  exact (h child hchild below hbelow).bind fun _ _ => .ok _

/-- **A statement fails plainly or as the equations of its joins do.** -/
theorem JoinTree.failsWith_statement {tree : JoinTree}
    (h : ∀ id node, tree.node? id = some node → ∀ child ∈ node.children, ∀ below,
      tree.node? child = some below →
      FailsWith kind (catalog.equate node.table node.joinAlias below.table below.joinAlias)) :
    FailsWith kind (tree.statement catalog) := by
  refine FailsWith.bind (.mapM fun node hnode => ?_) fun clauses _ => ?_
  · obtain ⟨id, -, hnode⟩ := List.mem_filterMap.mp hnode
    exact failsWith_nodeClauses hplain (h id node hnode)
  · dsimp only
    split
    · exact .error (hplain _ trivial)
    · refine (failsWith_checkPriorities hplain _).bind fun _ _ => ?_
      split
      · exact .error (hplain _ trivial)
      · exact .ok _

omit hplain in
/-- The joins along a path fail as their equations do. -/
theorem Catalog.failsWith_joinPath {source : TableRef} {rest : List TableRef}
    (h : (source :: rest).IsChain fun a b => FailsWith kind (catalog.equate a a.text b b.text)) :
    FailsWith kind (catalog.joinPath source rest) := by
  induction rest generalizing source with
  | nil => exact .ok _
  | cons target rest ih =>
    obtain ⟨hfirst, hrest⟩ := List.isChain_cons_cons.mp h
    exact hfirst.bind fun _ _ => (ih hrest).bind fun _ _ => .ok _

end

end JoinPlan
