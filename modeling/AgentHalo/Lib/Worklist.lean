import Mathlib.Tactic

/-!
# Reachability by a worklist

A search takes nodes off a stack, skips those it has seen, and pushes the successors of the others, until it finds its
goal or the stack is empty. When it ends without the goal, what it has seen is closed under edges (`Closed`), so it finds
the goal exactly when an edge path leads there (`search_eq_true_iff`). An edge added to a relation without cycles closes
one exactly when its target reached its source before (`acyclic_add_iff`).
-/

namespace Worklist

open Relation (ReflTransGen TransGen)

/-! ### Added edges -/

section Edges

variable {α : Type*} {edge : α → α → Prop} {source target : α}

/-- No path leads back to where it starts. -/
def Acyclic (edge : α → α → Prop) : Prop := ∀ a, ¬ TransGen edge a a

def addEdge (edge : α → α → Prop) (source target a b : α) : Prop := edge a b ∨ a = source ∧ b = target

theorem transGen_addEdge {a b : α} (h : TransGen (addEdge edge source target) a b) :
    TransGen edge a b ∨ ReflTransGen edge a source ∧ ReflTransGen edge target b := by
  induction h with
  | single hab =>
    obtain hab | ⟨rfl, rfl⟩ := hab
    · exact .inl (.single hab)
    · exact .inr ⟨.refl, .refl⟩
  | tail _ hbc ih =>
    obtain hbc | ⟨rfl, rfl⟩ := hbc
    · obtain hab | ⟨hsource, htarget⟩ := ih
      · exact .inl (hab.tail hbc)
      · exact .inr ⟨hsource, htarget.tail hbc⟩
    · obtain hab | ⟨hsource, -⟩ := ih
      · exact .inr ⟨hab.to_reflTransGen, .refl⟩
      · exact .inr ⟨hsource, .refl⟩

theorem reflTransGen_addEdge_iff :
    ReflTransGen (addEdge edge source target) target source ↔ ReflTransGen edge target source := by
  constructor
  · intro h
    obtain rfl | h := Relation.reflTransGen_iff_eq_or_transGen.mp h
    · exact .refl
    · obtain h | ⟨h, -⟩ := transGen_addEdge h
      · exact h.to_reflTransGen
      · exact h
  · exact ReflTransGen.mono (fun _ _ => Or.inl) _ _

theorem acyclic_add_iff (h : Acyclic edge) :
    Acyclic (addEdge edge source target) ↔ ¬ ReflTransGen edge target source := by
  constructor
  · intro hacyclic hback
    exact hacyclic target (TransGen.tail' (ReflTransGen.mono (fun _ _ => Or.inl) _ _ hback) (.inr ⟨rfl, rfl⟩))
  · intro hback a hcycle
    obtain hcycle | ⟨hsource, htarget⟩ := transGen_addEdge hcycle
    · exact h a hcycle
    · exact hback (htarget.trans hsource)

end Edges

/-! ### The search -/

/-- Finitely many nodes with their successors. -/
structure Graph (α : Type*) where
  nodes : Finset α
  next : α → List α
  next_eq_nil : ∀ a ∉ nodes, next a = []

section Search

variable {α : Type*}

def Graph.edge (g : Graph α) (a b : α) : Prop := b ∈ g.next a

/-- The stack with the nodes pushed one by one. -/
def push (stack next : List α) : List α := next.reverse ++ stack

variable {stack : List α} {a : α} {seen : Finset α}

@[simp] theorem mem_push {next : List α} : a ∈ push stack next ↔ a ∈ next ∨ a ∈ stack := by simp [push]

/-- A set of nodes without the goal that no edge leaves. -/
structure Closed (g : Graph α) (goal : α) (s : Set α) : Prop where
  goal : goal ∉ s
  next : ∀ a ∈ s, ∀ b, g.edge a b → b ∈ s

theorem Closed.not_reached {g : Graph α} {goal : α} {s : Set α} (h : Closed g goal s) (ha : a ∈ s) :
    ¬ ReflTransGen g.edge a goal := by
  intro hpath
  suffices hall : ∀ b, ReflTransGen g.edge a b → b ∈ s from h.goal (hall goal hpath)
  intro b hb
  induction hb with
  | refl => exact ha
  | tail _ hedge ih => exact h.next _ ih _ hedge

variable [DecidableEq α]

/-- Is the goal found from the nodes on the stack? -/
def search (g : Graph α) (goal : α) (seen : Finset α) : List α → Bool
  | [] => false
  | node :: stack =>
    if node ∈ seen then search g goal seen stack
    else if node = goal then true
    else search g goal (insert node seen) (push stack (g.next node))
termination_by stack => ((g.nodes \ seen).card, stack.length)
decreasing_by
  · exact Prod.Lex.right _ (Nat.lt_succ_self _)
  · rename_i hseen _
    by_cases hnode : node ∈ g.nodes
    · refine Prod.Lex.left _ _ (Finset.card_lt_card ?_)
      rw [Finset.ssubset_iff_of_subset (Finset.sdiff_subset_sdiff le_rfl (Finset.subset_insert _ _))]
      exact ⟨node, Finset.mem_sdiff.mpr ⟨hnode, hseen⟩, by simp⟩
    · rw [Finset.sdiff_insert_of_notMem hnode, g.next_eq_nil node hnode, push, List.reverse_nil, List.nil_append]
      exact Prod.Lex.right _ (Nat.lt_succ_self _)

variable {g : Graph α} {goal : α}

theorem reached_of_search (h : search g goal seen stack = true) :
    ∃ a ∈ stack, ReflTransGen g.edge a goal := by
  induction seen, stack using search.induct g goal with
  | case1 seen =>
    rw [search] at h
    cases h
  | case2 seen node stack hseen ih =>
    rw [search, if_pos hseen] at h
    obtain ⟨a, ha, hpath⟩ := ih h
    exact ⟨a, List.mem_cons_of_mem _ ha, hpath⟩
  | case3 seen stack hseen => exact ⟨goal, List.mem_cons_self, .refl⟩
  | case4 seen node stack hseen hgoal ih =>
    rw [search, if_neg hseen, if_neg hgoal] at h
    obtain ⟨a, ha, hpath⟩ := ih h
    obtain hedge | ha := mem_push.mp ha
    · exact ⟨node, List.mem_cons_self, hpath.head hedge⟩
    · exact ⟨a, List.mem_cons_of_mem _ ha, hpath⟩

theorem closed_of_search (h : search g goal seen stack = false) (hgoal : goal ∉ seen)
    (hnext : ∀ a ∈ seen, ∀ b, g.edge a b → b ∈ seen ∨ b ∈ stack) :
    ∃ s : Set α, Closed g goal s ∧ ∀ a, a ∈ seen ∨ a ∈ stack → a ∈ s := by
  induction seen, stack using search.induct g goal with
  | case1 seen =>
    refine ⟨seen, ⟨by simpa using hgoal, fun a ha b hb => ?_⟩, fun a ha => ?_⟩
    · simpa using hnext a (by simpa using ha) b hb
    · simpa using ha
  | case2 seen node stack hseen ih =>
    rw [search, if_pos hseen] at h
    have hmem (a : α) : a ∈ node :: stack → a ∈ seen ∨ a ∈ stack := by
      intro ha
      obtain rfl | ha := List.mem_cons.mp ha
      · exact .inl hseen
      · exact .inr ha
    obtain ⟨s, hclosed, hs⟩ := ih h hgoal fun a ha b hb => (hnext a ha b hb).elim .inl (hmem b)
    exact ⟨s, hclosed, fun a ha => hs a (ha.elim .inl (hmem a))⟩
  | case3 seen stack hseen =>
    rw [search, if_neg hseen, if_pos rfl] at h
    cases h
  | case4 seen node stack hseen hne ih =>
    rw [search, if_neg hseen, if_neg hne] at h
    obtain ⟨s, hclosed, hs⟩ := ih h (by simpa [hgoal] using Ne.symm hne) fun a ha b hb => by
      rw [Finset.mem_insert] at ha ⊢
      rw [mem_push]
      obtain rfl | ha := ha
      · exact .inr (.inl hb)
      · obtain hb | hb := hnext a ha b hb
        · exact .inl (.inr hb)
        · obtain rfl | hb := List.mem_cons.mp hb
          · exact .inl (.inl rfl)
          · exact .inr (.inr hb)
    refine ⟨s, hclosed, fun a ha => hs a ?_⟩
    rw [Finset.mem_insert, mem_push]
    obtain ha | ha := ha
    · exact .inl (.inr ha)
    · obtain rfl | ha := List.mem_cons.mp ha
      · exact .inl (.inl rfl)
      · exact .inr (.inr ha)

theorem search_eq_true_iff :
    search g goal ∅ stack = true ↔ ∃ a ∈ stack, ReflTransGen g.edge a goal := by
  constructor
  · exact reached_of_search
  · rintro ⟨a, ha, hpath⟩
    by_contra h
    obtain ⟨s, hclosed, hs⟩ := closed_of_search (by simpa using h) (Finset.notMem_empty goal) (by simp)
    exact hclosed.not_reached (hs a (.inr ha)) hpath

end Search

end Worklist
