import Mathlib.Tactic
import Mathlib.Order.Lattice

/-!
# Lists as words

How lists are cut at separators, and where the lists with a given prefix stand in the lexicographic order.
-/

/-!
## Lists cut at a separator

A list that is joined with a separator can be cut in one way at the first separator when the front part has none, and in
one way at the last when the back part has none.
-/

namespace Separators

variable {α : Type*} {x : α} {a b c d : List α}

theorem append_cons_inj_of_not_mem (ha : x ∉ a) (hc : x ∉ c) (h : a ++ x :: b = c ++ x :: d) : a = c ∧ b = d := by
  induction a generalizing c with
  | nil =>
    cases c with
    | nil => exact ⟨rfl, (List.cons.inj h).2⟩
    | cons y c => exact absurd ((List.cons.inj h).1 ▸ List.mem_cons_self) hc
  | cons z a ih =>
    cases c with
    | nil => exact absurd ((List.cons.inj h).1 ▸ List.mem_cons_self) ha
    | cons y c =>
      obtain ⟨rfl, htail⟩ := List.cons.inj h
      obtain ⟨rfl, hrest⟩ := ih (List.not_mem_of_not_mem_cons ha) (List.not_mem_of_not_mem_cons hc) htail
      exact ⟨rfl, hrest⟩

theorem append_cons_inj_of_not_mem_right (hb : x ∉ b) (hd : x ∉ d) (h : a ++ x :: b = c ++ x :: d) :
    a = c ∧ b = d := by
  have hreverse : b.reverse ++ x :: a.reverse = d.reverse ++ x :: c.reverse := by
    simpa using congrArg List.reverse h
  obtain ⟨hback, hfront⟩ := append_cons_inj_of_not_mem (by simpa using hb) (by simpa using hd) hreverse
  exact ⟨List.reverse_injective hfront, List.reverse_injective hback⟩

end Separators

/-!
## Prefixes as ranges

In the lexicographic order the lists with a given nonempty prefix are an interval: it starts at the prefix and ends
before the prefix with its last letter replaced by the next one. A letter that is not the next one does not do: if it
is smaller, the interval runs backwards.
-/

namespace PrefixRange

variable {α : Type*} [LinearOrder α] {c d : α}

theorem between_iff_isPrefix (hnext : ∀ x, ¬ x < c ∧ x < d ↔ x = c) (front l : List α) :
    (¬ l < front ++ [c] ∧ l < front ++ [d]) ↔ front ++ [c] <+: l := by
  induction front generalizing l with
  | nil =>
    cases l with
    | nil => simp
    | cons x rest =>
      simp only [List.nil_append, List.cons_lt_cons_iff, List.not_lt_nil, and_false, or_false, hnext,
        List.cons_prefix_cons, List.nil_prefix, and_true]
      exact eq_comm
  | cons a front ih =>
    cases l with
    | nil => simp
    | cons x rest =>
      simp only [List.cons_append, List.cons_lt_cons_iff, List.cons_prefix_cons]
      by_cases heq : x = a
      · subst heq
        simp only [lt_irrefl, false_or, true_and]
        exact ih rest
      · simp only [heq, false_and, or_false, not_and_self_iff, Ne.symm heq]

theorem append_singleton_lt (h : d < c) (front : List α) : front ++ [d] < front ++ [c] :=
  List.append_left_lt (List.cons_lt_cons_iff.mpr (.inl h))

end PrefixRange
