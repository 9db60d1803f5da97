import Mathlib.Tactic

/-!
# Graphs searched from a root

When the successors of a root are grounded (every path from them ends, every node on it passed a check) and a node that
passes is not the root, everything reached from the root passed and lies on no cycle (`acyclicFrom_of_grounded`). The path
a search is on is a chain of edges; in a graph without cycles the next node is not in it (`not_mem_of_chain`), and it is no
longer than the longest path (`PathsWithin`).
-/

namespace Dag

open Relation (ReflTransGen TransGen)

variable {α : Type*} (edge : α → α → Prop)

/-- No node reached from the root lies on a cycle. -/
def AcyclicFrom (root : α) : Prop := ∀ a, ReflTransGen edge root a → ¬ TransGen edge a a

/-- The paths from the root have at most `n` edges. -/
def PathsWithin (root : α) (n : Nat) : Prop := ∀ path : List α, List.IsChain edge (root :: path) → path.length ≤ n

/-- The edge from `a` to `b` ends a path from the root with at most `n` edges. -/
def EdgeWithin (root : α) (n : Nat) (a b : α) : Prop :=
  ∃ path : List α, List.IsChain edge (root :: path ++ [b]) ∧ (root :: path).getLast? = some a ∧ path.length < n

/-- The paths from the root to a node are of one length. -/
def Graded (root : α) : Prop :=
  ∀ path path' : List α, List.IsChain edge (root :: path) → List.IsChain edge (root :: path') →
    (root :: path).getLast? = (root :: path').getLast? → path.length = path'.length

/-- Every path from the node ends, and all its nodes pass. -/
inductive Grounded (pass : α → Prop) : α → Prop
  | intro (a : α) (hpass : pass a) (hnext : ∀ b, edge a b → Grounded pass b) : Grounded pass a

variable {edge}

namespace Grounded

variable {pass : α → Prop} {a b : α}

theorem passes (h : Grounded edge pass a) : pass a := by
  cases h with
  | intro _ hpass _ => exact hpass

theorem next (h : Grounded edge pass a) (hedge : edge a b) : Grounded edge pass b := by
  cases h with
  | intro _ _ hnext => exact hnext b hedge

theorem of_reached (h : Grounded edge pass a) (hreach : ReflTransGen edge a b) : Grounded edge pass b := by
  induction hreach with
  | refl => exact h
  | tail _ hedge ih => exact ih.next hedge

theorem not_cyclic (h : Grounded edge pass a) : ¬ TransGen edge a a := by
  induction h with
  | intro a _ _ ih =>
    intro hcycle
    obtain ⟨b, hedge, hback⟩ := TransGen.head'_iff.mp hcycle
    exact ih b hedge (TransGen.tail' hback hedge)

end Grounded
variable {root : α} {path : List α}

theorem acyclicFrom_of_grounded {pass : α → Prop} (hne : ∀ a, pass a → a ≠ root)
    (hnext : ∀ b, edge root b → Grounded edge pass b) :
    AcyclicFrom edge root ∧ ∀ a, TransGen edge root a → pass a := by
  have hreached : ∀ a, TransGen edge root a → Grounded edge pass a := by
    intro a ha
    obtain ⟨b, hedge, hrest⟩ := TransGen.head'_iff.mp ha
    exact (hnext b hedge).of_reached hrest
  refine ⟨fun a ha hcycle => ?_, fun a ha => (hreached a ha).passes⟩
  obtain rfl | ha' := Relation.reflTransGen_iff_eq_or_transGen.mp ha
  · exact hne a (hreached a hcycle).passes rfl
  · exact (hreached a ha').not_cyclic hcycle

theorem transGen_of_chain (hchain : List.IsChain edge (path ++ [b])) (ha : a ∈ path) :
    TransGen edge a b := by
  have htrans : List.IsChain (TransGen edge) (path ++ [b]) := hchain.imp fun _ _ h => TransGen.single h
  exact (List.pairwise_append.mp (List.isChain_iff_pairwise.mp htrans)).2.2 a ha b List.mem_cons_self

theorem isChain_snoc (hchain : List.IsChain edge (root :: path ++ [a])) (hedge : edge a b) :
    List.IsChain edge (root :: (path ++ [a]) ++ [b]) := by
  rw [List.cons_append, List.append_assoc, ← List.cons_append]
  exact List.isChain_split.mpr ⟨hchain, List.isChain_pair.mpr hedge⟩

theorem not_mem_of_chain (hacyclic : AcyclicFrom edge root) (hchain : List.IsChain edge (root :: path ++ [b])) :
    b ∉ root :: path := by
  intro hmem
  exact hacyclic b (transGen_of_chain hchain List.mem_cons_self).to_reflTransGen (transGen_of_chain hchain hmem)

theorem reached_of_chain (hchain : List.IsChain edge (root :: path)) (hlast : (root :: path).getLast? = some a) :
    ReflTransGen edge root a := by
  obtain ⟨init, hinit⟩ := List.getLast?_eq_some_iff.mp hlast
  cases init with
  | nil =>
    obtain ⟨rfl, -⟩ := List.cons.inj hinit
    exact .refl
  | cons first rest =>
    obtain ⟨rfl, -⟩ := List.cons.inj hinit
    rw [hinit] at hchain
    exact (transGen_of_chain hchain List.mem_cons_self).to_reflTransGen

theorem exists_not_edgeWithin {n : Nat} (hgraded : Graded edge root) (hchain : List.IsChain edge (root :: path))
    (hlong : n < path.length) :
    ∃ a b, ReflTransGen edge root a ∧ edge a b ∧ ¬ EdgeWithin edge root n a b := by
  have hcut : root :: path = (root :: path.take n) ++ path[n] :: path.drop (n + 1) := by
    rw [List.cons_append, ← List.drop_eq_getElem_cons hlong, List.take_append_drop]
  rw [hcut] at hchain
  obtain ⟨hfront, -, hedge⟩ := List.isChain_append.mp hchain
  obtain ⟨a, ha⟩ : ∃ a, (root :: path.take n).getLast? = some a :=
    ⟨_, List.getLast?_eq_some_getLast (List.cons_ne_nil _ _)⟩
  refine ⟨a, path[n], reached_of_chain hfront ha, hedge a ha path[n] rfl, ?_⟩
  rintro ⟨short, hshort, hlast, hlength⟩
  have hsame := hgraded (path.take n) short hfront (List.isChain_append.mp hshort).1 (ha.trans hlast.symm)
  rw [List.length_take] at hsame
  omega

end Dag
