import JoinPlan.Graph.Basic
import Mathlib.Data.List.Chain

/-!
# Adjacent tables

Two tables of a graph are adjacent when a link leads from the one to the other. In the graph of a
catalog these are exactly the tables at the two ends of a foreign key, if neither is left out, so
adjacency goes both ways there although links have a direction.

## Main definitions

* `JoinGraph.Adjacent`: a link leads from one table to another.
* `JoinGraph.Walk`: so many links lead from one table to another, one after the other.

## Main results

* `JoinGraph.adjacent_ofCatalog_iff`: adjacency in the graph of a catalog.
* `JoinGraph.adjacent_ofCatalog_symm`: it goes both ways.
* `JoinGraph.walk_of_isChain`, `JoinGraph.walk_of_path`: a chain of adjacent tables is a walk.
-/

namespace JoinPlan

variable {P : Type}

namespace JoinGraph

/-- A link leads from the first table to the second. -/
def Adjacent (graph : JoinGraph P) (source target : TableRef) : Prop :=
  target ∈ graph.neighbors source

instance (graph : JoinGraph P) : DecidableRel graph.Adjacent :=
  fun source target => inferInstanceAs (Decidable (target ∈ graph.neighbors source))

theorem adjacent_iff {graph : JoinGraph P} {source target : TableRef} :
    graph.Adjacent source target ↔
      ∃ link ∈ graph.links, link.source = source ∧ link.target = target := by
  simp [Adjacent, neighbors, linksFrom, and_assoc]

theorem adjacent_of_mem_linksFrom {graph : JoinGraph P} {table : TableRef} {link : Link P}
    (h : link ∈ graph.linksFrom table) : graph.Adjacent table link.target :=
  List.mem_map.mpr ⟨link, h, rfl⟩

theorem hasSelfLoop_iff {graph : JoinGraph P} {table : TableRef} :
    graph.hasSelfLoop table = true ↔ graph.Adjacent table table := by
  simp [hasSelfLoop, Link.joins, adjacent_iff]

/-! ### The graph of a catalog -/

theorem mem_setLink_iff {links : List (Link P)} {penalty : P} {source target a b : TableRef} :
    (∃ link ∈ setLink source target penalty links, link.source = a ∧ link.target = b) ↔
      (∃ link ∈ links, link.source = a ∧ link.target = b) ∨ (a = source ∧ b = target) := by
  rw [setLink]
  split
  · rename_i hany
    obtain ⟨known, hmem, hjoins⟩ := List.any_eq_true.mp hany
    simp only [Link.joins, Bool.and_eq_true, decide_eq_true_eq] at hjoins
    simp only [List.mem_map, exists_exists_and_eq_and]
    -- a new penalty leaves the ends of a link alone
    have hsame : ∀ link : Link P,
        (if link.joins source target = true then { link with penalty } else link).source =
          link.source ∧
        (if link.joins source target = true then { link with penalty } else link).target =
          link.target := by
      intro link
      split <;> exact ⟨rfl, rfl⟩
    simp only [hsame]
    constructor
    · exact Or.inl
    · rintro (h | ⟨rfl, rfl⟩)
      · exact h
      · exact ⟨known, hmem, hjoins⟩
  · simp only [List.mem_cons, exists_eq_or_imp]
    constructor
    · rintro (⟨rfl, rfl⟩ | h)
      · exact Or.inr ⟨rfl, rfl⟩
      · exact Or.inl h
    · rintro (h | ⟨rfl, rfl⟩)
      · exact Or.inr h
      · exact Or.inl ⟨rfl, rfl⟩

@[simp] theorem tables_connect (graph : JoinGraph P) (source target : TableRef) (penalty : P) :
    (graph.connect source target penalty).tables = graph.tables := by
  rw [connect]
  split <;> rfl

theorem adjacent_connect_iff {graph : JoinGraph P} {source target a b : TableRef} {penalty : P} :
    (graph.connect source target penalty).Adjacent a b ↔
      graph.Adjacent a b ∨
        (source ∈ graph.tables ∧ target ∈ graph.tables ∧
          ((a, b) = (source, target) ∨ (b, a) = (source, target))) := by
  rw [connect]
  split
  · rename_i hin
    simp only [contains, Bool.and_eq_true, List.contains_iff_mem] at hin
    simp only [adjacent_iff, mem_setLink_iff, hin, true_and, Prod.mk.injEq, or_assoc,
      and_comm (a := b = source)]
  · rename_i hout
    simp only [contains, Bool.and_eq_true, List.contains_iff_mem] at hout
    tauto

theorem tables_foldl_connect (penalty : TableRef → TableRef → P)
    (ends : List (TableRef × TableRef)) (graph : JoinGraph P) :
    (ends.foldl (fun graph e => graph.connect e.1 e.2 (penalty e.1 e.2)) graph).tables =
      graph.tables := by
  induction ends generalizing graph with
  | nil => rfl
  | cons e ends ih => rw [List.foldl_cons, ih, tables_connect]

theorem adjacent_foldl_connect_iff {penalty : TableRef → TableRef → P}
    {ends : List (TableRef × TableRef)} {graph : JoinGraph P} {a b : TableRef} :
    (ends.foldl (fun graph e => graph.connect e.1 e.2 (penalty e.1 e.2)) graph).Adjacent a b ↔
      graph.Adjacent a b ∨
        (a ∈ graph.tables ∧ b ∈ graph.tables ∧ ((a, b) ∈ ends ∨ (b, a) ∈ ends)) := by
  induction ends generalizing graph with
  | nil => simp
  | cons e ends ih =>
    obtain ⟨source, target⟩ := e
    rw [List.foldl_cons, ih, adjacent_connect_iff]
    simp only [tables_connect, List.mem_cons, Prod.mk.injEq]
    constructor
    · rintro ((h | ⟨hs, ht, ⟨rfl, rfl⟩ | ⟨rfl, rfl⟩⟩) | ⟨ha, hb, h⟩)
      · exact Or.inl h
      · exact Or.inr ⟨hs, ht, Or.inl (Or.inl ⟨rfl, rfl⟩)⟩
      · exact Or.inr ⟨ht, hs, Or.inr (Or.inl ⟨rfl, rfl⟩)⟩
      · exact Or.inr ⟨ha, hb, h.imp Or.inr Or.inr⟩
    · rintro (h | ⟨ha, hb, (⟨rfl, rfl⟩ | h) | (⟨rfl, rfl⟩ | h)⟩)
      · exact Or.inl (Or.inl h)
      · exact Or.inl (Or.inr ⟨ha, hb, Or.inl ⟨rfl, rfl⟩⟩)
      · exact Or.inr ⟨ha, hb, Or.inl h⟩
      · exact Or.inl (Or.inr ⟨hb, ha, Or.inr ⟨rfl, rfl⟩⟩)
      · exact Or.inr ⟨ha, hb, Or.inr h⟩

section

variable {penalty : TableRef → TableRef → P} {catalog : Catalog} {ignored : List TableRef}
  {a b : TableRef}

theorem mem_tables_ofCatalog :
    a ∈ (ofCatalog penalty catalog ignored).tables ↔
      (∃ table, (a, table) ∈ catalog.tables) ∧ a ∉ ignored := by
  rw [ofCatalog, tables_foldl_connect]
  simp

/-- **Tables are adjacent exactly when a foreign key connects them**, if neither is left out. -/
theorem adjacent_ofCatalog_iff :
    (ofCatalog penalty catalog ignored).Adjacent a b ↔
      a ∈ (ofCatalog penalty catalog ignored).tables ∧
        b ∈ (ofCatalog penalty catalog ignored).tables ∧
        ((a, b) ∈ keyEnds catalog ∨ (b, a) ∈ keyEnds catalog) := by
  have hnone : ¬ (⟨(catalog.tables.map (·.1)).filter (!ignored.contains ·), []⟩ :
      JoinGraph P).Adjacent a b := by
    simp [adjacent_iff]
  rw [ofCatalog, adjacent_foldl_connect_iff, tables_foldl_connect]
  exact or_iff_right hnone

theorem adjacent_ofCatalog_symm (h : (ofCatalog penalty catalog ignored).Adjacent a b) :
    (ofCatalog penalty catalog ignored).Adjacent b a := by
  rw [adjacent_ofCatalog_iff] at h ⊢
  obtain ⟨ha, hb, h⟩ := h
  exact ⟨hb, ha, h.symm⟩

theorem mem_keyEnds_iff :
    (a, b) ∈ keyEnds catalog ↔
      ∃ table, (a, table) ∈ catalog.tables ∧ b ∈ table.linkedTables := by
  simp [keyEnds]

end

/-! ### Walks -/

/-- So many links lead from one table to another, one after the other. -/
inductive Walk (graph : JoinGraph P) (source : TableRef) : TableRef → Nat → Prop
  | stay : Walk graph source source 0
  | step {via target : TableRef} {hops : Nat} :
      Walk graph source via hops → graph.Adjacent via target → Walk graph source target (hops + 1)

/-- A chain of adjacent tables is a walk to its last one. -/
theorem walk_of_isChain {graph : JoinGraph P} {source : TableRef} {rest : List TableRef}
    (h : (source :: rest).IsChain graph.Adjacent) :
    graph.Walk source ((source :: rest).getLast (List.cons_ne_nil _ _)) rest.length := by
  induction rest using List.reverseRecOn with
  | nil => exact .stay
  | append_singleton rest target ih =>
    rw [← List.cons_append] at h
    have hlast : (source :: (rest ++ [target])).getLast (List.cons_ne_nil _ _) = target := by
      simp
    rw [hlast, List.length_append]
    refine (ih h.left_of_append).step ?_
    refine h.rel_getLast_head_of_append (List.cons_ne_nil _ _) (List.cons_ne_nil _ _)

/-- A path from one table to another is a walk of one hop less than it has tables. -/
theorem walk_of_path {graph : JoinGraph P} {source target : TableRef} {path : List TableRef}
    (hhead : path.head? = some source) (hlast : path.getLast? = some target)
    (hchain : path.IsChain graph.Adjacent) : graph.Walk source target (path.length - 1) := by
  obtain ⟨rest, rfl⟩ := List.head?_eq_some_iff.mp hhead
  rw [List.getLast?_eq_some_getLast (List.cons_ne_nil _ _), Option.some_inj] at hlast
  exact hlast ▸ walk_of_isChain hchain

end JoinGraph

end JoinPlan
