import JoinPlan.Proofs.CanonicalTree

/-!
# Aliases are numbers

The joins of a table are numbered as they enter the tree: the authored ones in pre-order, and then
the bridges as they are built. Getting a place in the tree does not change the number.

## Main definitions

* `Numbered`: every join bears the number of joins of its table up to itself.

## Main results

* `JoinTree.numbered_ofPlaced`, `Join.numbered_of_normalize`: the joins of a canonical tree are
  numbered.
-/

namespace JoinPlan

/-- The alias of every join bears the number of joins of its table up to itself. -/
def Numbered (nodes : List JoinNode) : Prop :=
  ∀ id node, nodes[id]? = some node →
    node.joinAlias =
      numberedAlias node.table ((nodes.take (id + 1)).countP (·.table = node.table))

namespace JoinTree

variable {tree : JoinTree} {node : JoinNode}

theorem numbered_push (h : Numbered tree.contents)
    (halias : node.joinAlias = tree.aliasFor node.table) : Numbered (tree.push node).contents := by
  have hcount : tree.contents.countP (·.table = node.table) = tree.countOf node.table := by
    rw [contents, List.countP_map]
    rfl
  intro id other hother
  rw [contents_push] at hother ⊢
  rcases Nat.lt_or_ge id tree.contents.length with hid | hid
  · rw [List.getElem?_append_left hid] at hother
    rw [List.take_append_of_le_length hid]
    exact h id other hother
  · obtain rfl : id = tree.contents.length := by
      have hlt := (List.getElem?_eq_some_iff.mp hother).1
      simp only [List.length_append, List.length_singleton] at hlt
      omega
    rw [List.getElem?_concat_length, Option.some_inj] at hother
    subst hother
    have hself : [node.unlinked].countP (·.table = node.table) = 1 := by
      simp [JoinNode.unlinked]
    have hsame : node.unlinked.joinAlias = node.joinAlias ∧ node.unlinked.table = node.table :=
      ⟨rfl, rfl⟩
    rw [List.take_of_length_le (by simp), List.countP_append, hsame.1, hsame.2, hcount, hself,
      halias, aliasFor]

theorem numbered_attachPoint (preferred : List Nat) (trail : List TableRef)
    (h : Numbered tree.contents) : Numbered (tree.attachPoint preferred trail).1.contents := by
  induction trail with
  | nil => exact h
  | cons table behind ih =>
    rw [attachPoint]
    cases tree.pointAt? preferred (table :: behind) with
    | some id => exact h
    | none =>
      dsimp only
      rw [contents_adopt, pushBridge]
      exact numbered_push ih rfl

theorem numbered_attach (id : Nat) (entry : AuthoredJoin) (h : Numbered tree.contents) :
    Numbered (tree.attach id entry).contents := by
  rw [attach]
  split_ifs
  · exact h
  · rw [contents_adopt]
    exact numbered_attachPoint _ _ h

theorem numbered_attachAll (position : Nat) (placed : List AuthoredJoin)
    (h : Numbered tree.contents) : Numbered (tree.attachAll position placed).contents := by
  induction placed generalizing tree position with
  | nil => exact h
  | cons entry rest ih => exact ih _ (numbered_attach position entry h)

theorem numbered_unattached (placed : List AuthoredJoin) (selects : List (List String)) :
    Numbered (unattached placed selects).contents := by
  have hall : ∀ (entries : List (AuthoredJoin × List String)) (tree : JoinTree),
      Numbered tree.contents →
        Numbered (entries.foldl
          (fun tree entry => tree.pushAuthored entry.1 entry.2) tree).contents := by
    intro entries
    induction entries with
    | nil => exact fun _ h => h
    | cons entry rest ih =>
      intro tree h
      rw [List.foldl_cons]
      exact ih _ (numbered_push h rfl)
  exact hall _ _ fun id node hnode => by simp [contents] at hnode

/-- **The joins of a canonical tree are numbered.** -/
theorem numbered_ofPlaced (placed : List AuthoredJoin) (selects : List (List String)) :
    Numbered (ofPlaced placed selects).contents :=
  numbered_attachAll 0 placed (numbered_unattached placed selects)

/-- The alias of a join is its table's, with some number. -/
theorem exists_numberedAlias (h : Numbered tree.contents) (hnode : node ∈ tree.nodes) :
    ∃ n, node.joinAlias = numberedAlias node.table n := by
  obtain ⟨id, hid⟩ := List.getElem?_of_mem hnode
  have hcontents : tree.contents[id]? = some node.unlinked := by
    rw [getElem?_contents, node?, hid, Option.map_some]
  have hnumbered := h id node.unlinked hcontents
  exact ⟨_, hnumbered⟩

end JoinTree

theorem Join.numbered_of_normalize {P : Type} [Penalty P] {catalog : Catalog}
    {graph : JoinGraph P} {base : Join} {tree : JoinTree}
    (h : base.normalize catalog graph = .ok tree) : Numbered tree.contents := by
  obtain ⟨_, placed, selects, -, -, -, rfl⟩ := JoinTree.normalize_eq_ok_iff.mp h
  exact JoinTree.numbered_ofPlaced placed selects

end JoinPlan
