import Mathlib.Data.List.Pairwise

/-!
# Stable sorting

`List.mergeSort` is stable, so that it makes no difference whether a list is thinned out before it is sorted or after.
-/

namespace StableSort

variable {α : Type*} {le : α → α → Bool}

theorem filter_cut {q : α → Bool} {front back : List α} (hfront : ∀ b ∈ front, q b = true)
    (hback : ∀ b ∈ back, q b = false) :
    (front ++ back).filter q = front ∧ (front ++ back).filter (fun b => !q b) = back := by
  have hnone : back.filter q = [] :=
    List.filter_eq_nil_iff.mpr fun b hb => by rw [hback b hb]; exact Bool.false_ne_true
  have hnone' : front.filter (fun b => !q b) = [] :=
    List.filter_eq_nil_iff.mpr fun b hb => by rw [hfront b hb]; exact Bool.false_ne_true
  have hall : back.filter (fun b => !q b) = back :=
    List.filter_eq_self.mpr fun b hb => by rw [hback b hb]; rfl
  rw [List.filter_append, List.filter_append, List.filter_eq_self.mpr hfront, hnone, hnone', hall]
  exact ⟨List.append_nil front, rfl⟩

theorem cut_unique {q : α → Bool} {l₁ l₂ m₁ m₂ : List α} (h : l₁ ++ l₂ = m₁ ++ m₂) (hl₁ : ∀ b ∈ l₁, q b = true)
    (hl₂ : ∀ b ∈ l₂, q b = false) (hm₁ : ∀ b ∈ m₁, q b = true) (hm₂ : ∀ b ∈ m₂, q b = false) : l₁ = m₁ ∧ l₂ = m₂ := by
  obtain ⟨hleft, hright⟩ := filter_cut hl₁ hl₂
  obtain ⟨hleft', hright'⟩ := filter_cut hm₁ hm₂
  rw [h] at hleft hright
  exact ⟨hleft.symm.trans hleft', hright.symm.trans hright'⟩

theorem filter_mergeSort (trans : ∀ a b c, le a b = true → le b c = true → le a c = true)
    (total : ∀ a b, (le a b || le b a) = true) (p : α → Bool) (l : List α) :
    (l.mergeSort le).filter p = (l.filter p).mergeSort le := by
  induction l with
  | nil => simp
  | cons a rest ih =>
    obtain ⟨l₁, l₂, hcons, hrest, hbefore⟩ := List.mergeSort_cons trans total a rest
    rw [hrest, List.filter_append] at ih
    cases hp : p a with
    | false =>
      rw [hcons, List.filter_append, List.filter_cons_of_neg (by simp [hp]), List.filter_cons_of_neg (by simp [hp])]
      exact ih
    | true =>
      rw [hcons, List.filter_append, List.filter_cons_of_pos hp, List.filter_cons_of_pos hp]
      obtain ⟨m₁, m₂, hcons', hrest', hbefore'⟩ := List.mergeSort_cons trans total a (rest.filter p)
      have hafter : ∀ b ∈ l₂, le a b = true := by
        have hsorted := List.pairwise_mergeSort trans total (a :: rest)
        rw [hcons] at hsorted
        exact fun b hb => (List.pairwise_cons.mp (List.pairwise_append.mp hsorted).2.1).1 b hb
      have hafter' : ∀ b ∈ m₂, le a b = true := by
        have hsorted := List.pairwise_mergeSort trans total (a :: rest.filter p)
        rw [hcons'] at hsorted
        exact fun b hb => (List.pairwise_cons.mp (List.pairwise_append.mp hsorted).2.1).1 b hb
      -- Both lists put `a` in front of the first element that it does not exceed.
      obtain ⟨hleft, hright⟩ := cut_unique (q := fun b => !le a b) (ih.trans hrest')
        (fun b hb => hbefore b (List.mem_filter.mp hb).1)
        (fun b hb => by rw [hafter b (List.mem_filter.mp hb).1]; rfl) hbefore'
        (fun b hb => by rw [hafter' b hb]; rfl)
      rw [hcons', hleft, hright]

theorem mergeSort_eq_of_perm {cmp : α → α → Ordering} [Std.TransCmp cmp] [Std.LawfulEqCmp cmp] {l l' : List α}
    (h : l.Perm l') : l.mergeSort (fun a b => (cmp a b).isLE) = l'.mergeSort (fun a b => (cmp a b).isLE) := by
  have htotal (a b : α) : ((cmp a b).isLE || (cmp b a).isLE) = true := by
    by_cases hab : (cmp a b).isLE = true
    · rw [hab, Bool.true_or]
    · rw [Std.OrientedCmp.lt_of_not_isLE hab, Ordering.isLE_lt, Bool.or_true]
  have hsorted (l : List α) := List.pairwise_mergeSort (fun _ _ _ => Std.TransCmp.isLE_trans) htotal l
  refine (((List.mergeSort_perm _ _).trans h).trans (List.mergeSort_perm _ _).symm).eq_of_pairwise ?_
    (hsorted l) (hsorted l')
  intro a b _ _ hab hba
  exact Std.LawfulEqCmp.eq_of_compare (Std.OrientedCmp.isLE_antisymm hab hba)

/-! ### Ranks -/

section Rank

variable [DecidableEq α]

/-- `b` comes before `a` in the sorted list: it is less, or equal and earlier in the list. -/
def before (le : α → α → Bool) (l : List α) (b a : α) : Bool := le b a && (!le a b || decide (l.idxOf b < l.idxOf a))

/-- How many elements come before this one. -/
def rank (le : α → α → Bool) (l : List α) (a : α) : Nat := l.countP (before le l · a)

variable {l : List α} {a b : α}

theorem before_iff : before le l b a = true ↔ le b a = true ∧ (le a b = true → l.idxOf b < l.idxOf a) := by
  rw [before, Bool.and_eq_true, Bool.or_eq_true, Bool.not_eq_true', decide_eq_true_eq, ← Bool.not_eq_true, imp_iff_not_or]

theorem not_before_of_before (h : before le l a b = true) : before le l b a = false := by
  rw [← Bool.not_eq_true]
  intro h'
  obtain ⟨hle, hidx⟩ := before_iff.mp h
  obtain ⟨hle', hidx'⟩ := before_iff.mp h'
  exact Nat.lt_asymm (hidx hle') (hidx' hle)

theorem idxOf_lt_of_sublist (hnodup : l.Nodup) (h : [a, b].Sublist l) : l.idxOf a < l.idxOf b := by
  have hsorted : l.Pairwise fun a b => l.idxOf a < l.idxOf b := by
    rw [List.pairwise_iff_getElem]
    intro i j hi hj hij
    rwa [hnodup.idxOf_getElem, hnodup.idxOf_getElem]
  exact List.pairwise_iff_forall_sublist.mp hsorted h

theorem pairwise_before (trans : ∀ a b c, le a b = true → le b c = true → le a c = true)
    (total : ∀ a b, (le a b || le b a) = true) (hnodup : l.Nodup) :
    (l.mergeSort le).Pairwise fun a b => before le l a b = true := by
  have hsorted := List.pairwise_mergeSort trans total l
  have hnodup' : (l.mergeSort le).Nodup := (List.mergeSort_perm l le).nodup_iff.mpr hnodup
  rw [List.pairwise_iff_forall_sublist] at hsorted ⊢
  intro a b hab
  have hne : a ≠ b := by simpa using hnodup'.sublist hab
  have hmem : ∀ c ∈ [a, b], c ∈ l := fun c hc => List.mem_mergeSort.mp (hab.subset hc)
  refine before_iff.mpr ⟨hsorted hab, fun hba => ?_⟩
  have hsome : l.Pairwise fun a b => [a, b].Sublist l ∨ [b, a].Sublist l :=
    List.pairwise_iff_forall_sublist.mpr fun h => .inl h
  have hsymm : Std.Symm fun a b => [a, b].Sublist l ∨ [b, a].Sublist l := ⟨fun _ _ => Or.symm⟩
  obtain h | h := hsome.forall (hmem a (by simp)) (hmem b (by simp)) hne
  · exact idxOf_lt_of_sublist hnodup h
  · -- then the sorted list would hold both orders
    have hstays := idxOf_lt_of_sublist hnodup' (List.pair_sublist_mergeSort trans total hba h)
    exact absurd hstays (Nat.lt_asymm (idxOf_lt_of_sublist hnodup' hab))

/-- **The rank is the place** in the sorted list. -/
theorem mem_take_mergeSort_iff (trans : ∀ a b c, le a b = true → le b c = true → le a c = true)
    (total : ∀ a b, (le a b || le b a) = true) (hnodup : l.Nodup) (ha : a ∈ l) (n : Nat) :
    a ∈ (l.mergeSort le).take n ↔ rank le l a < n := by
  have hpairwise := pairwise_before trans total hnodup
  have hnodup' : (l.mergeSort le).Nodup := (List.mergeSort_perm l le).nodup_iff.mpr hnodup
  obtain ⟨front, back, hsplit⟩ := List.append_of_mem (List.mem_mergeSort.mpr ha)
  have hrank : rank le l a = front.length := by
    rw [rank, ← (List.mergeSort_perm l le).countP_eq, hsplit, List.countP_append, List.countP_cons_of_neg]
    · rw [hsplit] at hpairwise
      obtain ⟨-, hback, hfront⟩ := List.pairwise_append.mp hpairwise
      rw [List.countP_eq_length.mpr fun b hb => hfront b hb a List.mem_cons_self, List.countP_eq_zero.mpr, Nat.add_zero]
      intro b hb
      rw [not_before_of_before ((List.pairwise_cons.mp hback).1 b hb)]
      exact Bool.false_ne_true
    · intro hself
      exact absurd ((before_iff.mp hself).2 (by simpa using total a a)) (Nat.lt_irrefl _)
  rw [hsplit] at hnodup' ⊢
  rw [hrank]
  constructor
  · intro hmem
    by_contra hle
    rw [List.take_append_of_le_length (Nat.not_lt.mp hle)] at hmem
    exact (List.nodup_append.mp hnodup').2.2 a (List.mem_of_mem_take hmem) a List.mem_cons_self rfl
  · intro hlt
    obtain ⟨k, rfl⟩ := Nat.exists_eq_add_of_lt hlt
    rw [Nat.add_assoc, List.take_length_add_append, List.take_succ_cons]
    exact List.mem_append_right _ List.mem_cons_self

end Rank

/-! ### The first element -/

section Head

variable (trans : ∀ a b c, le a b = true → le b c = true → le a c = true) (total : ∀ a b, (le a b || le b a) = true)
  {l rest : List α} {first : α} (h : l.mergeSort le = first :: rest)

include trans total h

theorem le_of_mergeSort_eq_cons {b : α} (hb : b ∈ l) : le first b = true := by
  have hsorted := List.pairwise_mergeSort trans total l
  rw [h] at hsorted
  have hmem : b ∈ first :: rest := by
    rw [← h]
    exact List.mem_mergeSort.mpr hb
  obtain rfl | hrest := List.mem_cons.mp hmem
  · simpa using total b b
  · exact (List.pairwise_cons.mp hsorted).1 b hrest

theorem not_le_of_before (hnodup : l.Nodup) {b : α} (hbefore : [b, first].Sublist l) : ¬ le b first = true := by
  intro hle
  have hstays := List.pair_sublist_mergeSort trans total hle hbefore
  have hnodup' : (first :: rest).Nodup := by
    rw [← h]
    exact (List.mergeSort_perm l le).nodup_iff.mpr hnodup
  rw [h] at hstays
  have htail : first ∈ rest := by
    cases hstays with
    | cons _ hrest => exact hrest.subset (List.mem_cons_of_mem _ List.mem_cons_self)
    | cons_cons _ hrest => exact hrest.subset List.mem_cons_self
  exact (List.nodup_cons.mp hnodup').1 htail

theorem filter_mergeSort_eq_cons {p : α → Bool} (hp : ∀ a b, le a b = true → p b = true → p a = true) :
    (l.filter p).mergeSort le = [] ∨ p first = true ∧ ∃ others, (l.filter p).mergeSort le = first :: others := by
  rw [← filter_mergeSort trans total, h]
  by_cases hfirst : p first = true
  · exact .inr ⟨hfirst, rest.filter p, List.filter_cons_of_pos hfirst⟩
  · refine .inl (List.filter_eq_nil_iff.mpr fun b hb hpb => hfirst ?_)
    refine hp first b (le_of_mergeSort_eq_cons trans total h ?_) hpb
    rw [← h] at hb
    exact List.mem_mergeSort.mp hb

end Head

end StableSort
