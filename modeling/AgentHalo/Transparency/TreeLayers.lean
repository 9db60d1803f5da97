import AgentHalo.Lib.HashTree
import AgentHalo.Transparency.Ct6962

/-!
# The recursive tree read layer by layer

`merkle_tree_hash`, `inclusion_path` and `subproof` recurse on splits at the largest power of two, the verifiers
climb one layer at a time. This file moves the three recursive definitions to the verifiers' side: the root of a
list of nodes is the root of its `pairUp` layer, the path of index `i` is the sibling of `i` followed by the path of
`i / 2` in the layer above, and a consistency path is an inclusion path of the last node of the old tree.
-/

namespace AgentHalo.Transparency

open Layers

/-! ### Halving the split point -/

theorem doubleWhile_halve (n k : Nat) (hk : 0 < k) :
    doubleWhile n (2 * k) = 2 * doubleWhile ((n + 1) / 2) k := by
  induction k using doubleWhile.induct ((n + 1) / 2) with
  | case1 k h ih =>
    rw [doubleWhile, if_pos (by omega), doubleWhile.eq_def ((n + 1) / 2), if_pos h]
    exact ih (by omega)
  | case2 k h => rw [doubleWhile, if_neg (by omega), doubleWhile.eq_def ((n + 1) / 2), if_neg h]

variable {n i k : Nat} {l : List H}

theorem largestPowerOfTwoLessThan_halve (hn : 3 ≤ n) :
    largestPowerOfTwoLessThan n = 2 * largestPowerOfTwoLessThan ((n + 1) / 2) := by
  rw [largestPowerOfTwoLessThan, if_neg (by omega), largestPowerOfTwoLessThan, if_neg (by omega), doubleWhile,
    if_pos (by omega)]
  exact doubleWhile_halve n 1 (by omega)

theorem largestPowerOfTwoLessThan_two : largestPowerOfTwoLessThan 2 = 1 := by
  simp [largestPowerOfTwoLessThan, doubleWhile]

variable {H : Type} (hs : TreeHasher H)

/-! ### The root -/

@[simp] theorem merkleTreeHash_singleton (x : H) : merkleTreeHash hs [x] = x := by
  rw [merkleTreeHash]

theorem merkleTreeHash_pair (x y : H) : merkleTreeHash hs [x, y] = hs.nodeHash x y := by
  rw [merkleTreeHash]
  simp [largestPowerOfTwoLessThan_two]

theorem merkleTreeHash_split (l : List H) (hl : 2 ≤ l.length) :
    merkleTreeHash hs l = hs.nodeHash (merkleTreeHash hs (l.take (largestPowerOfTwoLessThan l.length)))
      (merkleTreeHash hs (l.drop (largestPowerOfTwoLessThan l.length))) := by
  rcases l with _ | ⟨a, _ | ⟨b, rest⟩⟩
  · simp at hl
  · simp at hl
  · rw [merkleTreeHash]

theorem pairUp_split (l : List H) (hl : 3 ≤ l.length) :
    let k := largestPowerOfTwoLessThan l.length
    let k' := largestPowerOfTwoLessThan (pairUp hs.nodeHash l).length
    k = 2 * k' ∧ 0 < k' ∧ k < l.length ∧
      (pairUp hs.nodeHash l).take k' = pairUp hs.nodeHash (l.take k) ∧
      (pairUp hs.nodeHash l).drop k' = pairUp hs.nodeHash (l.drop k) := by
  intro k k'
  have hk : k = 2 * k' := by
    simp only [k, k', length_pairUp]
    exact largestPowerOfTwoLessThan_halve hl
  have hpos : 0 < k' := largestPowerOfTwoLessThan_pos (by rw [length_pairUp]; omega)
  have hlt : k < l.length := largestPowerOfTwoLessThan_lt (by omega)
  refine ⟨hk, hpos, hlt, ?_, ?_⟩
  · rw [pairUp_take _ _ _ (by omega), hk]
  · rw [pairUp_drop _ _ _ (by omega), hk]

theorem merkleTreeHash_pairUp (l : List H) :
    merkleTreeHash hs (pairUp hs.nodeHash l) = merkleTreeHash hs l := by
  induction hn : l.length using Nat.strong_induction_on generalizing l with
  | _ n ih =>
    rcases Nat.lt_or_ge n 3 with hsmall | hbig
    · rcases l with _ | ⟨a, _ | ⟨b, _ | ⟨c, rest⟩⟩⟩
      · rfl
      · rfl
      · simp [merkleTreeHash_pair]
      · simp only [List.length_cons] at hn
        omega
    · subst hn
      obtain ⟨hk, hpos, hlt, htake, hdrop⟩ := pairUp_split hs l hbig
      rw [merkleTreeHash_split hs (pairUp hs.nodeHash l) (by rw [length_pairUp]; omega), htake, hdrop,
        merkleTreeHash_split hs l (by omega)]
      congr 1
      · exact ih _ (by simp only [List.length_take]; omega) _ rfl
      · exact ih _ (by simp only [List.length_drop]; omega) _ rfl

/-! ### The inclusion path -/

/-- The node index `i` is hashed with in its layer, if it has a partner. -/
def siblingOf (l : List H) (i : Nat) : Option H :=
  if i % 2 = 1 then l[i - 1]? else l[i + 1]?

theorem inclusionPath_singleton (x : H) : inclusionPath hs [x] 0 = some [] := by
  rw [inclusionPath]
  simp

theorem inclusionPath_left (l : List H) (i : Nat) (hl : 2 ≤ l.length)
    (hi : i < largestPowerOfTwoLessThan l.length) :
    inclusionPath hs l i = (inclusionPath hs (l.take (largestPowerOfTwoLessThan l.length)) i).map
      (· ++ [merkleTreeHash hs (l.drop (largestPowerOfTwoLessThan l.length))]) := by
  have hlt := largestPowerOfTwoLessThan_lt hl
  rw [inclusionPath]
  simp only [ge_iff_le, show ¬ l.length ≤ i by omega, show ¬ l.length ≤ 1 by omega, hi, if_false, dite_false,
    if_true]

theorem inclusionPath_right (l : List H) (i : Nat) (hl : 2 ≤ l.length)
    (hi : largestPowerOfTwoLessThan l.length ≤ i) (hil : i < l.length) :
    inclusionPath hs l i = (inclusionPath hs (l.drop (largestPowerOfTwoLessThan l.length))
      (i - largestPowerOfTwoLessThan l.length)).map
      (· ++ [merkleTreeHash hs (l.take (largestPowerOfTwoLessThan l.length))]) := by
  rw [inclusionPath]
  simp only [ge_iff_le, show ¬ l.length ≤ i by omega, show ¬ l.length ≤ 1 by omega,
    show ¬ i < largestPowerOfTwoLessThan l.length by omega, if_false, dite_false]

theorem siblingOf_take (hi : i < k) (heven : k % 2 = 0) :
    siblingOf (l.take k) i = siblingOf l i := by
  simp only [siblingOf]
  split_ifs with hodd
  · rw [List.getElem?_take_of_lt (by omega)]
  · rw [List.getElem?_take_of_lt (by omega)]

theorem siblingOf_drop (hi : k ≤ i) (heven : k % 2 = 0) :
    siblingOf (l.drop k) (i - k) = siblingOf l i := by
  simp only [siblingOf, List.getElem?_drop, show (i - k) % 2 = i % 2 by omega]
  split_ifs with hodd
  · congr 1
    omega
  · congr 1
    omega

theorem inclusionPath_pairUp (l : List H) (i : Nat) (hi : i < l.length) :
    inclusionPath hs l i =
      (inclusionPath hs (pairUp hs.nodeHash l) (i / 2)).map ((siblingOf l i).toList ++ ·) := by
  induction hn : l.length using Nat.strong_induction_on generalizing l i with
  | _ n ih =>
    rcases Nat.lt_or_ge n 3 with hsmall | hbig
    · rcases l with _ | ⟨a, _ | ⟨b, _ | ⟨c, rest⟩⟩⟩
      · simp at hi
      · obtain rfl : i = 0 := by simpa using hi
        simp [inclusionPath_singleton, siblingOf]
      · have hcases : i = 0 ∨ i = 1 := by
          simp only [List.length_cons, List.length_nil] at hi
          omega
        rcases hcases with rfl | rfl
        · rw [inclusionPath_left hs _ _ (by simp) (by simp [largestPowerOfTwoLessThan_two])]
          simp [largestPowerOfTwoLessThan_two, inclusionPath_singleton, siblingOf]
        · rw [inclusionPath_right hs _ _ (by simp) (by simp [largestPowerOfTwoLessThan_two]) (by simp)]
          simp [largestPowerOfTwoLessThan_two, inclusionPath_singleton, siblingOf]
      · simp only [List.length_cons] at hn
        omega
    · subst hn
      obtain ⟨hk, hpos, hlt, htake, hdrop⟩ := pairUp_split hs l hbig
      have hlen : 2 ≤ (pairUp hs.nodeHash l).length := by rw [length_pairUp]; omega
      rcases Nat.lt_or_ge i (largestPowerOfTwoLessThan l.length) with hleft | hright
      · rw [inclusionPath_left hs l i (by omega) hleft,
          inclusionPath_left hs (pairUp hs.nodeHash l) _ hlen (by omega), htake, hdrop, merkleTreeHash_pairUp,
          ih _ (by simp only [List.length_take]; omega) _ _
            (by simp only [List.length_take]; omega) rfl,
          siblingOf_take hleft (by omega)]
        simp [Option.map_map, Function.comp_def]
      · rw [inclusionPath_right hs l i (by omega) hright hi,
          inclusionPath_right hs (pairUp hs.nodeHash l) _ hlen (by omega) (by rw [length_pairUp]; omega), htake, hdrop,
          merkleTreeHash_pairUp, ih _ (by simp only [List.length_drop]; omega) _ _
            (by simp only [List.length_drop]; omega) rfl,
          siblingOf_drop hright (by omega),
          show (i - largestPowerOfTwoLessThan l.length) / 2 =
            i / 2 - largestPowerOfTwoLessThan (pairUp hs.nodeHash l).length by omega]
        simp [Option.map_map, Function.comp_def]

theorem exists_inclusionPath (l : List H) (i : Nat) (hi : i < l.length) :
    ∃ path, inclusionPath hs l i = some path := by
  induction hn : l.length using Nat.strong_induction_on generalizing l i with
  | _ n ih =>
    rcases Nat.lt_or_ge n 2 with hsmall | hbig
    · obtain ⟨x, rfl⟩ : ∃ x, l = [x] := List.length_eq_one_iff.mp (by omega)
      obtain rfl : i = 0 := by simpa using hi
      exact ⟨[], inclusionPath_singleton hs x⟩
    · obtain ⟨path, hpath⟩ := ih ((l.length + 1) / 2) (by omega) (pairUp hs.nodeHash l) (i / 2)
        (by rw [length_pairUp]; omega) (by rw [length_pairUp])
      exact ⟨(siblingOf l i).toList ++ path, by rw [inclusionPath_pairUp hs l i hi, hpath]; rfl⟩

/-! ### The consistency path -/

theorem subproof_left (l : List H) (m : Nat) (b : Bool) (hl : 2 ≤ l.length) (hm : m ≠ l.length)
    (hk : m ≤ largestPowerOfTwoLessThan l.length) :
    subproof hs l m b = subproof hs (l.take (largestPowerOfTwoLessThan l.length)) m b ++
      [merkleTreeHash hs (l.drop (largestPowerOfTwoLessThan l.length))] := by
  rw [subproof]
  simp only [hm, show ¬ l.length < 2 by omega, hk, if_false, dite_false, if_true]

theorem subproof_right (l : List H) (m : Nat) (b : Bool) (hl : 2 ≤ l.length) (hm : m ≠ l.length)
    (hk : largestPowerOfTwoLessThan l.length < m) :
    subproof hs l m b =
      subproof hs (l.drop (largestPowerOfTwoLessThan l.length)) (m - largestPowerOfTwoLessThan l.length) false ++
        [merkleTreeHash hs (l.take (largestPowerOfTwoLessThan l.length))] := by
  rw [subproof]
  simp only [hm, show ¬ l.length < 2 by omega, show ¬ m ≤ largestPowerOfTwoLessThan l.length by omega,
    if_false, dite_false]

theorem subproof_self (l : List H) (b : Bool) :
    subproof hs l l.length b = if b then [] else [merkleTreeHash hs l] := by
  rw [subproof]
  simp

theorem subproof_even (l : List H) (m : Nat) (b : Bool) (heven : m % 2 = 0) (hpos : 0 < m)
    (hm : m ≤ l.length) : subproof hs l m b = subproof hs (pairUp hs.nodeHash l) (m / 2) b := by
  induction hn : l.length using Nat.strong_induction_on generalizing l m b with
  | _ n ih =>
    subst hn
    rcases eq_or_ne m l.length with rfl | hne
    · rw [subproof_self, show l.length / 2 = (pairUp hs.nodeHash l).length by rw [length_pairUp]; omega,
        subproof_self, merkleTreeHash_pairUp]
    · have hlen := length_pairUp hs.nodeHash l
      obtain ⟨hk, hkpos, hlt, htake, hdrop⟩ := pairUp_split hs l (by omega)
      rcases Nat.lt_or_ge (largestPowerOfTwoLessThan l.length) m with hright | hleft
      · rw [subproof_right hs l m b (by omega) hne hright,
          subproof_right hs (pairUp hs.nodeHash l) _ b (by omega) (by omega) (by omega), htake, hdrop,
          merkleTreeHash_pairUp, ih _ (by simp only [List.length_drop]; omega) _ _ _ (by omega) (by omega)
            (by simp only [List.length_drop]; omega) rfl]
        congr 2
        omega
      · rw [subproof_left hs l m b (by omega) hne hleft,
          subproof_left hs (pairUp hs.nodeHash l) _ b (by omega) (by omega) (by omega), htake, hdrop,
          merkleTreeHash_pairUp, ih _ (by simp only [List.length_take]; omega) _ _ _ heven hpos
            (by simp only [List.length_take]; omega) rfl]

theorem even_largestPowerOfTwoLessThan (hn : 3 ≤ n) : largestPowerOfTwoLessThan n % 2 = 0 := by
  have := largestPowerOfTwoLessThan_halve hn
  omega

theorem isPowerOfTwo_doubleWhile (n k : Nat) (hk : k.isPowerOfTwo) : (doubleWhile n k).isPowerOfTwo := by
  induction k using doubleWhile.induct n with
  | case1 k h ih =>
    rw [doubleWhile, if_pos h]
    refine ih ?_
    rw [Nat.mul_comm]
    exact Nat.isPowerOfTwo_mul_two_of_isPowerOfTwo hk
  | case2 k h => rwa [doubleWhile, if_neg h]

theorem isPowerOfTwo_largestPowerOfTwoLessThan (hn : 2 ≤ n) :
    (largestPowerOfTwoLessThan n).isPowerOfTwo := by
  rw [largestPowerOfTwoLessThan, if_neg (by omega)]
  exact isPowerOfTwo_doubleWhile n 1 Nat.isPowerOfTwo_one

theorem eq_one_of_isPowerOfTwo_of_odd (hn : n.isPowerOfTwo) (hodd : n % 2 = 1) : n = 1 := by
  obtain ⟨k, rfl⟩ := hn
  cases k with
  | zero => rfl
  | succ k =>
    rw [pow_succ] at hodd
    omega

/-- An odd old size: the last leaf of the old tree stands alone, and the proof is that leaf (left out when it is
the whole old tree) followed by its inclusion path. A subtree with `m = n` is only met below a left turn, where
its size is a power of two. -/
theorem subproof_odd (l : List H) (m : Nat) (b : Bool) (hodd : m % 2 = 1) (hm : m ≤ l.length)
    (hfull : m < l.length ∨ l.length.isPowerOfTwo) :
    some (subproof hs l m b) =
      (inclusionPath hs l (m - 1)).map ((if b ∧ m = 1 then [] else l[m - 1]?.toList) ++ ·) := by
  induction hn : l.length using Nat.strong_induction_on generalizing l m b with
  | _ n ih =>
    subst hn
    rcases eq_or_ne m l.length with rfl | hne
    · obtain ⟨x, rfl⟩ : ∃ x, l = [x] := List.length_eq_one_iff.mp
        (eq_one_of_isPowerOfTwo_of_odd (hfull.resolve_left (by omega)) hodd)
      rw [subproof_self]
      cases b <;> simp [inclusionPath_singleton]
    · have hlt := largestPowerOfTwoLessThan_lt (n := l.length) (by omega)
      have hkpos := largestPowerOfTwoLessThan_pos (n := l.length) (by omega)
      rcases Nat.lt_or_ge (largestPowerOfTwoLessThan l.length) m with hright | hleft
      · have heven := even_largestPowerOfTwoLessThan (n := l.length) (by omega)
        have hrec := ih _ (by simp only [List.length_drop]; omega)
          (l.drop (largestPowerOfTwoLessThan l.length)) (m - largestPowerOfTwoLessThan l.length) false (by omega)
          (by simp only [List.length_drop]; omega) (Or.inl (by simp only [List.length_drop]; omega)) rfl
        rw [subproof_right hs l m b (by omega) hne hright, inclusionPath_right hs l _ (by omega) (by omega) (by omega),
          show m - 1 - largestPowerOfTwoLessThan l.length = m - largestPowerOfTwoLessThan l.length - 1 by omega]
        obtain ⟨path, hpath⟩ := exists_inclusionPath hs (l.drop (largestPowerOfTwoLessThan l.length))
          (m - largestPowerOfTwoLessThan l.length - 1) (by simp only [List.length_drop]; omega)
        rw [hpath] at hrec ⊢
        simp only [Option.map_some, Option.some.injEq, Bool.false_eq_true, false_and, if_false,
          List.getElem?_drop] at hrec ⊢
        rw [hrec, if_neg (by omega), List.append_assoc,
          show largestPowerOfTwoLessThan l.length + (m - largestPowerOfTwoLessThan l.length - 1) = m - 1 by omega]
      · have hrec := ih _ (by simp only [List.length_take]; omega)
          (l.take (largestPowerOfTwoLessThan l.length)) m b hodd (by simp only [List.length_take]; omega)
          (Or.inr (by
            rw [List.length_take, Nat.min_eq_left (by omega)]
            exact isPowerOfTwo_largestPowerOfTwoLessThan (by omega))) rfl
        rw [subproof_left hs l m b (by omega) hne hleft, inclusionPath_left hs l _ (by omega) (by omega)]
        obtain ⟨path, hpath⟩ := exists_inclusionPath hs (l.take (largestPowerOfTwoLessThan l.length)) (m - 1)
          (by simp only [List.length_take]; omega)
        rw [hpath] at hrec ⊢
        simp only [Option.map_some, Option.some.injEq] at hrec ⊢
        rw [hrec, List.append_assoc, List.getElem?_take_of_lt (by omega)]

theorem merkleTreeHash_injective (hinj : ∀ a b c d : H, hs.nodeHash a b = hs.nodeHash c d → a = c ∧ b = d)
    (l l' : List H) (hlen : l.length = l'.length) (h : merkleTreeHash hs l = merkleTreeHash hs l') :
    l = l' := by
  induction hn : l.length using Nat.strong_induction_on generalizing l l' with
  | _ n ih =>
    rcases Nat.lt_or_ge n 2 with hsmall | hbig
    · rcases l with _ | ⟨x, _ | ⟨y, rest⟩⟩
      · exact (List.length_eq_zero_iff.mp hlen.symm).symm
      · obtain ⟨y, rfl⟩ := List.length_eq_one_iff.mp hlen.symm
        simpa using h
      · simp only [List.length_cons] at hn
        omega
    · rw [← merkleTreeHash_pairUp, ← merkleTreeHash_pairUp hs l'] at h
      refine pairUp_injective hinj l l' hlen (ih _ ?_ _ _ ?_ h rfl)
      · rw [length_pairUp]
        omega
      · rw [length_pairUp, length_pairUp, hlen]

end AgentHalo.Transparency
