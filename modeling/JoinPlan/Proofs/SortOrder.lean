import JoinPlan.Proofs.GroupingKeys

/-!
# The order of a statement's rows

Sort terms are written at any joins of a query, and all of them together sort its rows. Terms come
in the order of their priorities, so where there are several each needs a priority of its own. Once
that has been checked, where the terms were written makes no difference: priorities leave a single
order of them.

A term without priority would sort like one with priority zero. After the check there is such a term
only if it is the only one.

## Main definitions

* `Query.sortTerms`: the sort terms of a query, wherever they are written.
* `LeavesOrderOpen`: priorities do not put sort terms in a single order.
* `Query.ReachesPriorities`: compilation comes as far as the check of priorities.
* `Prepared.SortsByPriority`: a statement sorts by all terms, in the order of their priorities.

## Main results

* `failsWith_checkPriorities_isFaultOf`: the check fails for no reason but a fault of priorities.
* `ascending_sortByPriority`: keys that pass the check are sorted in strictly ascending order.
* `Ascending.eq_of_perm`: there is only one such order.
* `Query.sortsByPriority_prepare`: what comes of the sort terms of a query.
-/

namespace JoinPlan

variable {catalog : Catalog} {tree : JoinTree} {query : Query} {keys : List SortKey}

/-! ### The check of priorities -/

/-- Priorities do not put several terms in a single order: a term has none, or two have the same. -/
def LeavesOrderOpen (priorities : List (Option Nat)) : Prop :=
  2 ≤ priorities.length ∧
    (none ∈ priorities ∨ ∃ n, 2 ≤ priorities.count (some n))

theorem leavesOrderOpen_iff {priorities : List (Option Nat)} :
    LeavesOrderOpen priorities ↔ ¬ DefinitelyOrdered priorities := by
  have hsome : (∀ priority ∈ priorities, priority.isSome = true) ↔ none ∉ priorities := by
    constructor
    · intro hall hmem
      exact absurd (hall none hmem) (by simp)
    · intro hnone priority hmem
      rw [Option.isSome_iff_ne_none]
      rintro rfl
      exact hnone hmem
  rw [LeavesOrderOpen, DefinitelyOrdered, hsome, not_or, not_and_or, not_not, Nat.not_le]
  refine and_congr_right fun _ => ?_
  by_cases hnone : none ∈ priorities
  · simp [hnone]
  · simp only [hnone, false_or, List.nodup_iff_count_le_one, not_forall, Nat.not_le]
    constructor
    · rintro ⟨n, hn⟩
      exact ⟨some n, hn⟩
    · rintro ⟨priority, htwice⟩
      cases priority with
      | none => exact absurd (List.count_pos_iff.mp (by omega)) hnone
      | some n => exact ⟨n, htwice⟩

/-- The error names a fault of the priorities of keys: a key without one, or a priority that two
keys have. -/
def QueryError.IsFaultOf (keys : List SortKey) : QueryError → Prop
  | .missingPriority joinAlias column =>
    ∃ key ∈ keys, key.column = ⟨joinAlias, column⟩ ∧ key.priority = none
  | .duplicatePriority n => 2 ≤ (keys.map (·.priority)).count (some n)
  | _ => False

theorem failsWith_checkDistinct_isFaultOf {seen : List Nat} (front : List SortKey)
    {rest : List SortKey} (hseen : ∀ n ∈ seen, some n ∈ front.map (·.priority)) :
    FailsWith (QueryError.IsFaultOf (front ++ rest)) (checkDistinct seen rest) := by
  induction rest generalizing seen front with
  | nil => exact .ok _
  | cons key rest ih =>
    rw [checkDistinct]
    cases hkey : key.priority with
    | none => exact .error ⟨key, by simp, rfl, hkey⟩
    | some n =>
      dsimp only
      split_ifs with hmem
      · -- one key with the priority was seen, and here is another
        have hfirst := List.count_pos_iff.mpr (hseen n (List.contains_iff_mem.mp hmem))
        refine .error ?_
        rw [QueryError.IsFaultOf, List.map_append, List.count_append, List.map_cons, hkey,
          List.count_cons_self]
        omega
      · have hnow : ∀ m ∈ n :: seen, some m ∈ (front ++ [key]).map (·.priority) := by
          intro m hm
          rw [List.map_append, List.mem_append]
          rcases List.mem_cons.mp hm with rfl | hold
          · exact .inr (by simp [hkey])
          · exact .inl (hseen m hold)
        have hnext := ih (front ++ [key]) hnow
        rwa [List.append_assoc, List.singleton_append] at hnext

/-- **The check fails for no reason but a fault of priorities.** -/
theorem failsWith_checkPriorities_isFaultOf (keys : List SortKey) :
    FailsWith (QueryError.IsFaultOf keys) (checkPriorities keys) := by
  rw [checkPriorities]
  split_ifs
  · exact .ok _
  · exact failsWith_checkDistinct_isFaultOf [] (by simp)

/-! ### Sorting -/

/-- The term comes before the other for its priority is smaller. Terms without priority are not
compared. -/
def SortTerm.Precedes (a b : SortTerm) : Prop :=
  ∃ m n, a.priority = some m ∧ b.priority = some n ∧ m < n

/-- The term that a key stands for. -/
def SortKey.term (key : SortKey) : SortTerm :=
  ⟨key.column.column, key.direction, key.priority⟩

@[simp] theorem JoinNode.term_sortKey (node : JoinNode) (term : SortTerm) :
    (node.sortKey term).term = term :=
  rfl

/-- The terms come in strictly ascending order of their priorities. -/
def Ascending (terms : List SortTerm) : Prop :=
  terms.Pairwise SortTerm.Precedes

/-- **There is only one ascending order** of the same terms. -/
theorem Ascending.eq_of_perm {terms others : List SortTerm} (h : Ascending terms)
    (hothers : Ascending others) (hperm : terms.Perm others) : terms = others := by
  refine hperm.eq_of_pairwise (fun a b _ _ => ?_) h hothers
  rintro ⟨m, n, hm, hn, hlt⟩ ⟨n', m', hn', hm', hgt⟩
  rw [hm, Option.some_inj] at hm'
  rw [hn, Option.some_inj] at hn'
  omega

theorem perm_sortByPriority (keys : List SortKey) : (sortByPriority keys).Perm keys :=
  List.mergeSort_perm keys _

theorem pairwise_sortByPriority (keys : List SortKey) :
    (sortByPriority keys).Pairwise fun a b => a.priority.getD 0 ≤ b.priority.getD 0 := by
  have hsorted : (sortByPriority keys).Pairwise fun a b =>
      decide (a.priority.getD 0 ≤ b.priority.getD 0) = true := by
    refine List.pairwise_mergeSort (fun a b c hab hbc => ?_) (fun a b => ?_) keys
    · exact decide_eq_true (Nat.le_trans (of_decide_eq_true hab) (of_decide_eq_true hbc))
    · simpa using Nat.le_total (a.priority.getD 0) (b.priority.getD 0)
  exact hsorted.imp of_decide_eq_true

/-- **Keys that pass the check are sorted in strictly ascending order.** That an absent priority
counts as zero makes no difference then. -/
theorem ascending_sortByPriority (h : DefinitelyOrdered (keys.map (·.priority))) :
    Ascending ((sortByPriority keys).map SortKey.term) := by
  have hsorted := h.perm ((perm_sortByPriority keys).symm.map (·.priority))
  rw [Ascending, List.pairwise_map]
  rcases hsorted with hlone | ⟨hall, hnodup⟩
  · rw [List.length_map] at hlone
    match hkeys : sortByPriority keys, hlone with
    | [], _ => exact .nil
    | [key], _ => exact List.pairwise_singleton _ key
  · rw [List.forall_mem_map] at hall
    have hdiffer := List.pairwise_map.mp hnodup
    refine ((pairwise_sortByPriority keys).and hdiffer).imp_of_mem ?_
    rintro a b ha hb ⟨hle, hne⟩
    obtain ⟨m, hm⟩ := Option.isSome_iff_exists.mp (hall a ha)
    obtain ⟨n, hn⟩ := Option.isSome_iff_exists.mp (hall b hb)
    rw [hm, hn] at hne hle
    exact ⟨m, n, hm, hn, Nat.lt_of_le_of_ne hle fun heq => hne (congrArg some heq)⟩

/-! ### Statements -/

/-- The sort terms of a query, wherever they are written, in pre-order. -/
def Query.sortTerms (query : Query) : List SortTerm :=
  query.base.preOrder.flatMap (·.orderBy)

/-- The keys of the sort terms of a tree, each under the alias of its join. -/
def JoinTree.sortKeys (tree : JoinTree) : List SortKey :=
  tree.nodes.flatMap fun node => node.orderBy.map node.sortKey

/-- Compilation comes as far as the check of priorities: the query has a canonical tree, all joins
of it contribute their clauses, and something is output. -/
def Query.ReachesPriorities (catalog : Catalog) (query : Query) (tree : JoinTree) : Prop :=
  query.base.normalize catalog (JoinGraph.ofNames catalog []) = .ok tree ∧
    ∃ clauses, tree.joinsInOrder.mapM (tree.nodeClauses catalog) = .ok clauses ∧
      clauses.flatMap (·.outputs) ≠ []

/-- The text of the order of a statement's rows. -/
def Statement.orderClause (s : Statement) : String :=
  renderClause " ORDER BY " ", " (s.orderBy.map SortKey.render)

/-- A statement is its text without order, and then its order. -/
theorem Statement.render_eq_append_orderClause (s : Statement) :
    s.render = { s with orderBy := [] : Statement }.render ++ s.orderClause := by
  simp only [render, orderClause, List.map_nil, renderClause_nil, String.append_empty]

/-- A statement sorts by all terms of its query, in the order of their priorities. -/
structure Prepared.SortsByPriority (query : Query) (prepared : Prepared) : Prop where
  /-- Each sort term of each join comes up once, under the alias of that join. -/
  keys : prepared.statement.orderBy.Perm prepared.tree.sortKeys
  /-- These are the terms that were written, and no others. -/
  terms : (prepared.statement.orderBy.map SortKey.term).Perm query.sortTerms
  ascending : Ascending (prepared.statement.orderBy.map SortKey.term)
  /-- The text ends with them, unless there are none. -/
  text : prepared.sql = { prepared.statement with orderBy := [] : Statement }.render ++
    prepared.statement.orderClause
  absent : prepared.statement.orderClause = "" ↔ query.sortTerms = []

theorem QueryError.IsFaultOf.perm {others : List SortKey} {e : QueryError}
    (h : e.IsFaultOf keys) (hperm : keys.Perm others) : e.IsFaultOf others := by
  cases e with
  | missingPriority joinAlias column =>
    obtain ⟨key, hkey, hfault⟩ := h
    exact ⟨key, hperm.mem_iff.mp hkey, hfault⟩
  | duplicatePriority n =>
    rw [IsFaultOf] at h ⊢
    rwa [← (hperm.map (·.priority)).count_eq]
  | _ => exact h

theorem JoinTree.map_term_sortKeys (tree : JoinTree) :
    tree.sortKeys.map SortKey.term = tree.nodes.flatMap (·.orderBy) := by
  simp only [sortKeys, List.map_flatMap, List.map_map, Function.comp_def, JoinNode.term_sortKey,
    List.map_id']

namespace Query.ReachesPriorities

/-- Bridges have no sort terms, so a tree sorts by the terms of its query. -/
theorem map_term_sortKeys (h : query.ReachesPriorities catalog tree) :
    tree.sortKeys.map SortKey.term = query.sortTerms := by
  obtain ⟨placed, authored, bridges, -, hbuilt, hreal⟩ := JoinTree.realizes_of_normalize h.1
  rw [tree.map_term_sortKeys, hbuilt.orderBy_eq hreal, sortTerms]

/-- After the check of priorities nothing can fail. -/
theorem prepare_eq (h : query.ReachesPriorities catalog tree) : ∃ keys statement,
    keys.Perm tree.sortKeys ∧ statement.orderBy = sortByPriority keys ∧
      query.prepare catalog =
        (checkPriorities keys).map fun _ => ⟨statement, tree, query.limit⟩ := by
  obtain ⟨htree, clauses, hclauses, houtputs⟩ := h
  obtain ⟨placed, authored, bridges, hbuilt⟩ := JoinTree.built_of_normalize htree
  obtain ⟨base, hbase, -⟩ := Option.map_eq_some_iff.mp hbuilt.trailOf?_zero
  have hperm := (JoinTree.perm_joinsInOrder hbuilt.linked hbuilt.loose).flatMap_right
    fun node => node.orderBy.map node.sortKey
  rw [← JoinTree.flatMap_sortKeys hclauses] at hperm
  rw [Query.prepare, htree, ok_bind_eq, JoinTree.statement, hclauses, ok_bind_eq]
  dsimp only
  rw [if_neg (by simpa using houtputs), JoinTree.root, hbase]
  refine ⟨_, { output := .columns (clauses.flatMap (·.outputs))
               table := base.table
               joinAlias := some base.joinAlias
               joins := clauses.flatMap (·.joins)
               filters := clauses.flatMap (·.filters)
               groupBy := clauses.flatMap (·.groupBy)
               orderBy := sortByPriority (clauses.flatMap (·.sortKeys)) }, hperm, rfl, ?_⟩
  cases checkPriorities (clauses.flatMap (·.sortKeys)) <;> rfl

/-- Whether a query compiles is a question of the order of its terms. -/
theorem leavesOrderOpen_iff_not_prepare (h : query.ReachesPriorities catalog tree) :
    LeavesOrderOpen (query.sortTerms.map (·.priority)) ↔
      ¬ ∃ prepared, query.prepare catalog = .ok prepared := by
  obtain ⟨keys, statement, hkeys, -, hprepare⟩ := h.prepare_eq
  have hpriorities : (keys.map (·.priority)).Perm (query.sortTerms.map (·.priority)) := by
    rw [← h.map_term_sortKeys, List.map_map]
    exact hkeys.map _
  rw [leavesOrderOpen_iff, hprepare]
  refine not_congr ⟨fun hordered => ?_, fun ⟨prepared, hok⟩ => ?_⟩
  · rw [checkPriorities_eq_ok_iff.mpr (hordered.perm hpriorities.symm)]
    exact ⟨_, rfl⟩
  · obtain ⟨_, hchecked, -⟩ := map_eq_ok_iff.mp hok
    exact (checkPriorities_eq_ok_iff.mp hchecked).perm hpriorities

/-- If a query does not compile, a fault of its priorities is why. -/
theorem isFaultOf_of_prepare (h : query.ReachesPriorities catalog tree) {e : QueryError}
    (he : query.prepare catalog = .error e) : e.IsFaultOf tree.sortKeys := by
  obtain ⟨keys, _, hkeys, -, hprepare⟩ := h.prepare_eq
  rw [hprepare] at he
  exact ((failsWith_checkPriorities_isFaultOf keys).map e he).perm hkeys

/-- There is only one tree that compilation can come as far with. -/
theorem tree_of_prepare (h : query.ReachesPriorities catalog tree) {prepared : Prepared}
    (hprepared : query.prepare catalog = .ok prepared) : prepared.tree = tree := by
  obtain ⟨_, _, -, -, hprepare⟩ := h.prepare_eq
  obtain ⟨_, -, rfl⟩ := map_eq_ok_iff.mp (hprepare.symm.trans hprepared)
  rfl

end Query.ReachesPriorities

theorem Query.reachesPriorities_of_prepare {prepared : Prepared}
    (h : query.prepare catalog = .ok prepared) :
    query.ReachesPriorities catalog prepared.tree := by
  obtain ⟨tree, statement, htree, hstatement, rfl⟩ := prepare_eq_ok_iff.mp h
  obtain ⟨clauses, _, hclauses, houtputs, -⟩ := JoinTree.statement_eq_ok_iff.mp hstatement
  exact ⟨htree, clauses, hclauses, houtputs⟩

/-- A compiled query sorts by its terms. -/
theorem Query.sortsByPriority_of_prepare {prepared : Prepared}
    (h : query.prepare catalog = .ok prepared) : prepared.SortsByPriority query := by
  have hreaches := reachesPriorities_of_prepare h
  obtain ⟨keys, statement, hkeys, horder, hprepare⟩ := hreaches.prepare_eq
  obtain ⟨_, hchecked, hprepared⟩ := map_eq_ok_iff.mp (hprepare.symm.trans h)
  have hsame : prepared.statement = statement := congrArg Prepared.statement hprepared.symm
  have hperm : (sortByPriority keys).Perm prepared.tree.sortKeys :=
    (perm_sortByPriority keys).trans hkeys
  have hterms := hperm.map SortKey.term
  rw [hreaches.map_term_sortKeys] at hterms
  refine ⟨?_, ?_, ?_, Statement.render_eq_append_orderClause _, ?_⟩ <;> rw [hsame]
  · rwa [horder]
  · rwa [horder]
  · rw [horder]
    exact ascending_sortByPriority (checkPriorities_eq_ok_iff.mp hchecked)
  · rw [Statement.orderClause, renderClause_eq_empty_iff (by decide), List.map_eq_nil_iff, horder,
      ← List.map_eq_nil_iff (f := SortKey.term)]
    exact ⟨fun hnil => (hnil ▸ hterms).nil_eq.symm, fun hnil => (hnil ▸ hterms).eq_nil⟩

/-- **What comes of the sort terms of a query** whose priorities are looked at. Compilation fails
for them exactly if they leave the order open, and then for a fault that is there. Otherwise the
rows are sorted by all terms, in strictly ascending order of their priorities. So another query with
the same terms at other places, over whatever catalog, has them in the same order. -/
theorem Query.sortsByPriority_prepare (catalog : Catalog) (query : Query) (tree : JoinTree)
    (h : query.ReachesPriorities catalog tree) :
    (((∃ joinAlias column, query.prepare catalog = .error (.missingPriority joinAlias column)) ∨
        ∃ n, query.prepare catalog = .error (.duplicatePriority n)) ↔
      LeavesOrderOpen (query.sortTerms.map (·.priority))) ∧
    (∀ e, query.prepare catalog = .error e → e.IsFaultOf tree.sortKeys) ∧
    (¬ LeavesOrderOpen (query.sortTerms.map (·.priority)) →
      ∃ prepared, query.prepare catalog = .ok prepared ∧ prepared.tree = tree ∧
        prepared.SortsByPriority query ∧
        ∀ (others : Catalog) (other : Query) (reordered : Prepared),
          other.prepare others = .ok reordered → other.sortTerms.Perm query.sortTerms →
          reordered.statement.orderBy.map SortKey.term =
            prepared.statement.orderBy.map SortKey.term) := by
  refine ⟨?_, fun e => h.isFaultOf_of_prepare, fun hclosed => ?_⟩
  · rw [h.leavesOrderOpen_iff_not_prepare]
    constructor
    · rintro (⟨joinAlias, column, he⟩ | ⟨n, he⟩) ⟨prepared, hok⟩
      · cases he.symm.trans hok
      · cases he.symm.trans hok
    · intro hnone
      cases hresult : query.prepare catalog with
      | ok prepared => exact absurd ⟨prepared, hresult⟩ hnone
      | error e =>
        have hfault := h.isFaultOf_of_prepare hresult
        cases e with
        | missingPriority joinAlias column => exact .inl ⟨joinAlias, column, rfl⟩
        | duplicatePriority n => exact .inr ⟨n, rfl⟩
        | _ => exact hfault.elim
  · obtain ⟨prepared, hok⟩ := not_not.mp (mt h.leavesOrderOpen_iff_not_prepare.mpr hclosed)
    have hsorts := sortsByPriority_of_prepare hok
    refine ⟨prepared, hok, h.tree_of_prepare hok, hsorts, ?_⟩
    intro others other reordered hother hsame
    have hothers := sortsByPriority_of_prepare hother
    exact hothers.ascending.eq_of_perm hsorts.ascending
      ((hothers.terms.trans hsame).trans hsorts.terms.symm)

/-- Customers with their parcels. The rows are sorted by a column of either. -/
def sortedParcels (first second : Option Nat) : Query :=
  ⟨⟨⟨"shop", "customers"⟩, [], .all, none, [⟨"id", .descending, first⟩],
    [⟨⟨"shop", "parcels"⟩, [], .all, none, [⟨"order", .ascending, second⟩], []⟩]⟩, none⟩

/-- The order in which the rows are sorted by the two columns may be given, or left open. -/
theorem sortsByPriority_sortedParcels :
    (∃ tree, (sortedParcels (some 2) (some 1)).ReachesPriorities shop tree ∧
      ¬ LeavesOrderOpen ((sortedParcels (some 2) (some 1)).sortTerms.map (·.priority)) ∧
      ∃ prepared, (sortedParcels (some 2) (some 1)).prepare shop = .ok prepared ∧
        prepared.SortsByPriority (sortedParcels (some 2) (some 1)) ∧
        prepared.statement.orderBy.map SortKey.term =
          [⟨"order", .ascending, some 1⟩, ⟨"id", .descending, some 2⟩]) ∧
    ∃ tree, (sortedParcels (some 1) (some 1)).ReachesPriorities shop tree ∧
      LeavesOrderOpen ((sortedParcels (some 1) (some 1)).sortTerms.map (·.priority)) ∧
      ((∃ joinAlias column, (sortedParcels (some 1) (some 1)).prepare shop =
          .error (.missingPriority joinAlias column)) ∨
        ∃ n, (sortedParcels (some 1) (some 1)).prepare shop = .error (.duplicatePriority n)) := by
  have hreaches : ∀ first ∈ [some 1, some 2],
      ∃ tree, (sortedParcels first (some 1)).ReachesPriorities shop tree := by
    have houtputs : ∀ first ∈ [some 1, some 2],
        ((sortedParcels first (some 1)).base.normalize shop (JoinGraph.ofNames shop []) >>=
          fun tree => (tree.joinsInOrder.mapM (tree.nodeClauses shop)).map fun clauses =>
            (clauses.flatMap (·.outputs)).isEmpty) = .ok false := by
      decide +kernel
    intro first hfirst
    obtain ⟨tree, htree, hclauses⟩ := bind_eq_ok_iff.mp (houtputs first hfirst)
    obtain ⟨clauses, hclauses, houtputs⟩ := map_eq_ok_iff.mp hclauses
    exact ⟨tree, htree, clauses, hclauses, by simpa using houtputs⟩
  constructor
  · obtain ⟨tree, htree⟩ := hreaches (some 2) (by simp)
    have hclosed : ¬ LeavesOrderOpen
        ((sortedParcels (some 2) (some 1)).sortTerms.map (·.priority)) := by
      rw [leavesOrderOpen_iff, not_not]
      exact .inr ⟨by decide, by decide⟩
    obtain ⟨prepared, hprepared, -, hsorts, -⟩ :=
      (Query.sortsByPriority_prepare _ _ _ htree).2.2 hclosed
    refine ⟨tree, htree, hclosed, prepared, hprepared, hsorts, ?_⟩
    refine hsorts.ascending.eq_of_perm ?_ (hsorts.terms.trans (by decide))
    exact List.pairwise_pair.mpr ⟨1, 2, rfl, rfl, by decide⟩
  · obtain ⟨tree, htree⟩ := hreaches (some 1) (by simp)
    have hopen : LeavesOrderOpen
        ((sortedParcels (some 1) (some 1)).sortTerms.map (·.priority)) :=
      ⟨by decide, .inr ⟨1, by decide⟩⟩
    exact ⟨tree, htree, hopen, (Query.sortsByPriority_prepare _ _ _ htree).1.mpr hopen⟩

end JoinPlan
