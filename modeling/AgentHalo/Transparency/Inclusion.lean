import AgentHalo.Transparency.TreeLayers

/-!
# Inclusion proofs are complete and binding

The verifier's loop holds a node `r` at index `fn_idx` of a layer whose last index is `sn`, and each step replaces
the layer by its `pairUp` layer: a node with a partner takes one path element, a lone last node is promoted and takes none.
The honest path leads to the root (`inclusionLoop_of_inclusionPath`), and no other path does unless a pair hashed by the
verifier collides with a pair of the tree (`inclusionPath_of_inclusionLoop`).
-/

namespace AgentHalo.Transparency

open Layers

variable {H : Type} (hs : TreeHasher H)

/-! ### One step of the loop -/

variable {fnIdx sn : Nat}

theorem shiftWhileEven_odd (hodd : fnIdx % 2 = 1) : shiftWhileEven fnIdx sn = (fnIdx, sn) := by
  rw [shiftWhileEven, if_neg (by omega)]

theorem shiftWhileEven_even (hpos : fnIdx ≠ 0) (heven : fnIdx % 2 = 0) :
    shiftWhileEven fnIdx sn = shiftWhileEven (fnIdx / 2) (sn / 2) := by
  conv_lhs => rw [shiftWhileEven]
  rw [if_pos ⟨hpos, heven⟩]

theorem inclusionLoop_zero (path : List H) (r root : H) (fnIdx : Nat) :
    inclusionLoop hs path r fnIdx 0 = some (root, 0) ↔ path = [] ∧ r = root := by
  cases path with
  | nil => simp [inclusionLoop]
  | cons p path => simp [inclusionLoop]

theorem inclusionLoop_odd (p : H) (path : List H) (r : H) (hsn : sn ≠ 0)
    (hodd : fnIdx % 2 = 1) : inclusionLoop hs (p :: path) r fnIdx sn =
      inclusionLoop hs path (hs.nodeHash p r) (fnIdx / 2) (sn / 2) := by
  rw [inclusionLoop, if_neg hsn, if_pos (Or.inl hodd), shiftWhileEven_odd hodd]

theorem inclusionLoop_even (p : H) (path : List H) (r : H) (hlt : fnIdx < sn)
    (heven : fnIdx % 2 = 0) : inclusionLoop hs (p :: path) r fnIdx sn =
      inclusionLoop hs path (hs.nodeHash r p) (fnIdx / 2) (sn / 2) := by
  rw [inclusionLoop, if_neg (by omega), if_neg (by omega)]

theorem inclusionLoop_promote (path : List H) (r root : H) (hpos : fnIdx ≠ 0)
    (heven : fnIdx % 2 = 0) : inclusionLoop hs path r fnIdx fnIdx = some (root, 0) ↔
      inclusionLoop hs path r (fnIdx / 2) (fnIdx / 2) = some (root, 0) := by
  cases path with
  | nil =>
    have hhalf : fnIdx / 2 ≠ 0 := by omega
    simp [inclusionLoop, hpos, hhalf]
  | cons p path =>
    rw [inclusionLoop, inclusionLoop, if_neg hpos, if_pos (Or.inr rfl), if_neg (by omega), if_pos (Or.inr rfl),
      shiftWhileEven_even hpos heven]

/-! ### One layer -/

/-- The pair a node is hashed in with the path element `p`, in the order that its index gives. -/
def pairAt (fnIdx : Nat) (p r : H) : H × H := if fnIdx % 2 = 1 then (p, r) else (r, p)

theorem pairAt_inj {p r p' r' : H} (h : pairAt fnIdx p r = pairAt fnIdx p' r') : p = p' ∧ r = r' := by
  unfold pairAt at h
  split_ifs at h with hodd
  · exact Prod.mk.inj h
  · exact (Prod.mk.inj h).symm

def hashPair (pair : H × H) : H := hs.nodeHash pair.1 pair.2

theorem inclusionLoop_step (path : List H) (r root : H) (hsn : sn ≠ 0)
    (hpartner : fnIdx % 2 = 1 ∨ fnIdx < sn) : inclusionLoop hs path r fnIdx sn = some (root, 0) ↔
      ∃ p rest, path = p :: rest ∧
        inclusionLoop hs rest (hashPair hs (pairAt fnIdx p r)) (fnIdx / 2) (sn / 2) = some (root, 0) := by
  cases path with
  | nil => simp [inclusionLoop, hsn]
  | cons p path =>
    simp only [List.cons.injEq, and_assoc, exists_and_left, exists_eq_left', hashPair, pairAt]
    by_cases hodd : fnIdx % 2 = 1
    · rw [inclusionLoop_odd hs p path r hsn hodd, if_pos hodd]
    · rw [inclusionLoop_even hs p path r (by omega) (by omega), if_neg hodd]

variable {layer : List H}

theorem pairUp_getElem?_sibling {node sibling : H} (hnode : layer[fnIdx]? = some node)
    (hsibling : siblingOf layer fnIdx = some sibling) :
    (pairUp hs.nodeHash layer)[fnIdx / 2]? = some (hashPair hs (pairAt fnIdx sibling node)) := by
  unfold siblingOf at hsibling
  unfold hashPair pairAt
  by_cases hodd : fnIdx % 2 = 1
  · rw [if_pos hodd] at hsibling
    rw [if_pos hodd]
    refine pairUp_getElem?_pair hs.nodeHash layer (fnIdx / 2) sibling node ?_ ?_
    · rwa [show 2 * (fnIdx / 2) = fnIdx - 1 by omega]
    · rwa [show 2 * (fnIdx / 2) + 1 = fnIdx by omega]
  · rw [if_neg hodd] at hsibling
    rw [if_neg hodd]
    refine pairUp_getElem?_pair hs.nodeHash layer (fnIdx / 2) node sibling ?_ ?_
    · rwa [show 2 * (fnIdx / 2) = fnIdx by omega]
    · rwa [show 2 * (fnIdx / 2) + 1 = fnIdx + 1 by omega]

theorem siblingOf_eq_none_iff (hfn : fnIdx < layer.length) :
    siblingOf layer fnIdx = none ↔ fnIdx % 2 = 0 ∧ fnIdx = layer.length - 1 := by
  unfold siblingOf
  by_cases hodd : fnIdx % 2 = 1
  · rw [if_pos hodd, List.getElem?_eq_none_iff]
    omega
  · rw [if_neg hodd, List.getElem?_eq_none_iff]
    omega

theorem partner_of_siblingOf {sibling : H} (hfn : fnIdx < layer.length)
    (hsibling : siblingOf layer fnIdx = some sibling) : fnIdx % 2 = 1 ∨ fnIdx < layer.length - 1 := by
  have hsome : siblingOf layer fnIdx ≠ none := by simp [hsibling]
  rw [ne_eq, siblingOf_eq_none_iff hfn] at hsome
  omega

theorem pairUp_getElem?_lone (hfn : fnIdx < layer.length)
    (hlone : siblingOf layer fnIdx = none) : (pairUp hs.nodeHash layer)[fnIdx / 2]? = layer[fnIdx]? := by
  obtain ⟨heven, hlast⟩ := (siblingOf_eq_none_iff hfn).mp hlone
  rw [pairUp_getElem?_last hs.nodeHash layer (fnIdx / 2) (by omega), show 2 * (fnIdx / 2) = fnIdx by omega]

theorem inclusionLoop_of_inclusionPath (layer : List H) (fnIdx : Nat) (hfn : fnIdx < layer.length) (path : List H)
    (r : H) (hr : layer[fnIdx]? = some r) (hpath : inclusionPath hs layer fnIdx = some path) :
    inclusionLoop hs path r fnIdx (layer.length - 1) = some (merkleTreeHash hs layer, 0) := by
  induction hn : layer.length using Nat.strong_induction_on generalizing layer fnIdx path r with
  | _ n ih =>
    subst hn
    rcases Nat.lt_or_ge layer.length 2 with hsmall | hbig
    · obtain ⟨x, rfl⟩ : ∃ x, layer = [x] := List.length_eq_one_iff.mp (by omega)
      obtain rfl : fnIdx = 0 := by simpa using hfn
      rw [inclusionPath_singleton] at hpath
      obtain rfl := Option.some.inj hpath
      rw [List.getElem?_cons_zero] at hr
      rw [merkleTreeHash_singleton, Option.some.inj hr]
      rfl
    · have hlen := length_pairUp hs.nodeHash layer
      have hup := ih (pairUp hs.nodeHash layer).length (by omega) (pairUp hs.nodeHash layer) (fnIdx / 2) (by omega)
      rw [merkleTreeHash_pairUp, show (pairUp hs.nodeHash layer).length - 1 = (layer.length - 1) / 2 by omega] at hup
      rw [inclusionPath_pairUp hs layer fnIdx hfn] at hpath
      obtain ⟨upper, hupper, rfl⟩ := Option.map_eq_some_iff.mp hpath
      cases hsibling : siblingOf layer fnIdx with
      | some sibling =>
        rw [inclusionLoop_step hs _ r _ (by omega) (partner_of_siblingOf hfn hsibling)]
        exact ⟨sibling, upper, rfl, hup upper _ (pairUp_getElem?_sibling hs hr hsibling) hupper rfl⟩
      | none =>
        obtain ⟨heven, hlast⟩ := (siblingOf_eq_none_iff hfn).mp hsibling
        have habove := hup upper r (by rw [pairUp_getElem?_lone hs hfn hsibling, hr]) hupper rfl
        rw [← hlast] at habove ⊢
        exact (inclusionLoop_promote hs _ r _ (by omega) heven).mpr habove

/-! ### The pairs that are hashed

A finite hash has collisions, so binding is stated for the pairs that are in fact hashed: those of the tree, and those
of the verifier's loop. -/

/-- The pairs `merkle_tree_hash` hashes. -/
def treePairs (leaves : List H) : List (H × H) :=
  if _h : leaves.length < 2 then []
  else
    let k := largestPowerOfTwoLessThan leaves.length
    (merkleTreeHash hs (leaves.take k), merkleTreeHash hs (leaves.drop k)) ::
      (treePairs (leaves.take k) ++ treePairs (leaves.drop k))
termination_by leaves.length
decreasing_by
  · have := largestPowerOfTwoLessThan_lt (n := leaves.length) (by omega)
    simp only [List.length_take]
    omega
  · have := largestPowerOfTwoLessThan_pos (n := leaves.length) (by omega)
    simp only [List.length_drop]
    omega

/-- The pairs the loop of `verify_inclusion_proof` hashes. -/
def inclusionPairs : List H → H → Nat → Nat → List (H × H)
  | [], _, _, _ => []
  | p :: path, r, fnIdx, sn =>
    if sn = 0 then []
    else if fnIdx % 2 = 1 ∨ fnIdx = sn then
      let s := shiftWhileEven fnIdx sn
      (p, r) :: inclusionPairs path (hs.nodeHash p r) (s.1 / 2) (s.2 / 2)
    else (r, p) :: inclusionPairs path (hs.nodeHash r p) (fnIdx / 2) (sn / 2)

theorem treePairs_small {leaves : List H} (h : leaves.length < 2) : treePairs hs leaves = [] := by
  rw [treePairs, dif_pos h]

theorem treePairs_split (leaves : List H) (h : 2 ≤ leaves.length) :
    treePairs hs leaves =
      (merkleTreeHash hs (leaves.take (largestPowerOfTwoLessThan leaves.length)),
        merkleTreeHash hs (leaves.drop (largestPowerOfTwoLessThan leaves.length))) ::
      (treePairs hs (leaves.take (largestPowerOfTwoLessThan leaves.length)) ++
        treePairs hs (leaves.drop (largestPowerOfTwoLessThan leaves.length))) := by
  rw [treePairs, dif_neg (by omega)]

theorem treePairs_pairUp_subset (leaves : List H) : treePairs hs (pairUp hs.nodeHash leaves) ⊆ treePairs hs leaves := by
  induction hn : leaves.length using Nat.strong_induction_on generalizing leaves with
  | _ n ih =>
    subst hn
    rcases Nat.lt_or_ge leaves.length 3 with hsmall | hbig
    · rw [treePairs_small hs (by rw [length_pairUp]; omega)]
      exact List.nil_subset _
    · obtain ⟨hk, hpos, hlt, htake, hdrop⟩ := pairUp_split hs leaves hbig
      have hleft := ih _ (by simp only [List.length_take]; omega)
        (leaves.take (largestPowerOfTwoLessThan leaves.length)) rfl
      have hright := ih _ (by simp only [List.length_drop]; omega)
        (leaves.drop (largestPowerOfTwoLessThan leaves.length)) rfl
      rw [treePairs_split hs (pairUp hs.nodeHash leaves) (by rw [length_pairUp]; omega), htake, hdrop,
        merkleTreeHash_pairUp, merkleTreeHash_pairUp, treePairs_split hs leaves (by omega)]
      refine List.cons_subset_cons _ (List.append_subset.mpr ⟨?_, ?_⟩)
      · exact List.subset_append_of_subset_left _ hleft
      · exact List.subset_append_of_subset_right _ hright

theorem pairAt_mem_treePairs {node sibling : H} (hnode : layer[fnIdx]? = some node)
    (hsibling : siblingOf layer fnIdx = some sibling) : pairAt fnIdx sibling node ∈ treePairs hs layer := by
  induction hn : layer.length using Nat.strong_induction_on generalizing layer fnIdx with
  | _ n ih =>
    subst hn
    have hfn : fnIdx < layer.length := (List.getElem?_eq_some_iff.mp hnode).1
    have hpartner := partner_of_siblingOf hfn hsibling
    rcases Nat.lt_or_ge layer.length 3 with hsmall | hbig
    · obtain ⟨x, y, rfl⟩ : ∃ x y, layer = [x, y] := List.length_eq_two.mp (by omega)
      rw [treePairs_split hs [x, y] (by simp)]
      have hcases : fnIdx = 0 ∨ fnIdx = 1 := by
        simp only [List.length_cons, List.length_nil] at hfn
        omega
      rcases hcases with rfl | rfl
      · simp [siblingOf, largestPowerOfTwoLessThan_two, pairAt] at hnode hsibling ⊢
        simp [hnode, hsibling]
      · simp [siblingOf, largestPowerOfTwoLessThan_two, pairAt] at hnode hsibling ⊢
        simp [hnode, hsibling]
    · have hk := largestPowerOfTwoLessThan_lt (n := layer.length) (by omega)
      have hpos := largestPowerOfTwoLessThan_pos (n := layer.length) (by omega)
      have heven := even_largestPowerOfTwoLessThan hbig
      rw [treePairs_split hs layer (by omega)]
      refine List.mem_cons_of_mem _ (List.mem_append.mpr ?_)
      rcases Nat.lt_or_ge fnIdx (largestPowerOfTwoLessThan layer.length) with hleft | hright
      · left
        refine ih _ (by simp only [List.length_take]; omega) ?_ ?_ rfl
        · rw [List.getElem?_take_of_lt hleft, hnode]
        · rw [siblingOf_take hleft heven, hsibling]
      · right
        have hmem : pairAt (fnIdx - largestPowerOfTwoLessThan layer.length) sibling node ∈
            treePairs hs (layer.drop (largestPowerOfTwoLessThan layer.length)) := by
          refine ih _ (by simp only [List.length_drop]; omega) ?_ ?_ rfl
          · rw [List.getElem?_drop, show largestPowerOfTwoLessThan layer.length
              + (fnIdx - largestPowerOfTwoLessThan layer.length) = fnIdx by omega, hnode]
          · rw [siblingOf_drop hright heven, hsibling]
        unfold pairAt at hmem ⊢
        rwa [show (fnIdx - largestPowerOfTwoLessThan layer.length) % 2 = fnIdx % 2 by omega] at hmem

theorem inclusionPairs_step (p : H) (path : List H) (r : H) (hsn : sn ≠ 0)
    (hpartner : fnIdx % 2 = 1 ∨ fnIdx < sn) : inclusionPairs hs (p :: path) r fnIdx sn =
      pairAt fnIdx p r :: inclusionPairs hs path (hashPair hs (pairAt fnIdx p r)) (fnIdx / 2) (sn / 2) := by
  unfold hashPair pairAt
  rw [inclusionPairs, if_neg hsn]
  by_cases hodd : fnIdx % 2 = 1
  · rw [if_pos (Or.inl hodd), if_pos hodd, shiftWhileEven_odd hodd]
  · rw [if_neg (by omega), if_neg hodd]

theorem inclusionPairs_promote (path : List H) (r : H) (hpos : fnIdx ≠ 0) (heven : fnIdx % 2 = 0) :
    inclusionPairs hs path r fnIdx fnIdx = inclusionPairs hs path r (fnIdx / 2) (fnIdx / 2) := by
  cases path with
  | nil => rfl
  | cons p path =>
    rw [inclusionPairs, inclusionPairs, if_neg hpos, if_pos (Or.inr rfl), if_neg (by omega), if_pos (Or.inr rfl),
      shiftWhileEven_even hpos heven]

/-- No pair of the tree collides with a pair of the verifier's loop. -/
def Separated (leaves path : List H) (r : H) (fnIdx sn : Nat) : Prop :=
  ∀ x ∈ treePairs hs leaves, ∀ y ∈ inclusionPairs hs path r fnIdx sn, hashPair hs x = hashPair hs y → x = y

theorem separated_of_injective (hinj : ∀ a b c d : H, hs.nodeHash a b = hs.nodeHash c d → a = c ∧ b = d)
    (leaves path : List H) (r : H) (fnIdx sn : Nat) : Separated hs leaves path r fnIdx sn := by
  intro x _ y _ heq
  obtain ⟨hfst, hsnd⟩ := hinj _ _ _ _ heq
  exact Prod.ext hfst hsnd

theorem inclusionPath_of_inclusionLoop (layer : List H) (fnIdx : Nat) (hfn : fnIdx < layer.length) (path : List H)
    (r : H) (hsep : Separated hs layer path r fnIdx (layer.length - 1))
    (hloop : inclusionLoop hs path r fnIdx (layer.length - 1) = some (merkleTreeHash hs layer, 0)) :
    layer[fnIdx]? = some r ∧ inclusionPath hs layer fnIdx = some path := by
  induction hn : layer.length using Nat.strong_induction_on generalizing layer fnIdx path r with
  | _ n ih =>
    subst hn
    rcases Nat.lt_or_ge layer.length 2 with hsmall | hbig
    · obtain ⟨x, rfl⟩ : ∃ x, layer = [x] := List.length_eq_one_iff.mp (by omega)
      obtain rfl : fnIdx = 0 := by simpa using hfn
      obtain ⟨rfl, rfl⟩ := (inclusionLoop_zero hs path r _ 0).mp hloop
      rw [merkleTreeHash_singleton]
      exact ⟨rfl, inclusionPath_singleton hs x⟩
    · have hlen := length_pairUp hs.nodeHash layer
      have hup := ih (pairUp hs.nodeHash layer).length (by omega) (pairUp hs.nodeHash layer) (fnIdx / 2) (by omega)
      rw [merkleTreeHash_pairUp, show (pairUp hs.nodeHash layer).length - 1 = (layer.length - 1) / 2 by omega] at hup
      obtain ⟨node, hnode⟩ : ∃ node, layer[fnIdx]? = some node := ⟨layer[fnIdx], List.getElem?_eq_getElem hfn⟩
      rw [inclusionPath_pairUp hs layer fnIdx hfn]
      cases hsibling : siblingOf layer fnIdx with
      | some sibling =>
        have hpartner := partner_of_siblingOf hfn hsibling
        obtain ⟨p, rest, rfl, hrest⟩ := (inclusionLoop_step hs path r _ (by omega) hpartner).mp hloop
        rw [Separated, inclusionPairs_step hs p rest r (by omega) hpartner] at hsep
        have hsepUp : Separated hs (pairUp hs.nodeHash layer) rest (hashPair hs (pairAt fnIdx p r)) (fnIdx / 2)
            ((layer.length - 1) / 2) := by
          intro x hx y hy
          exact hsep x (treePairs_pairUp_subset hs layer hx) y (List.mem_cons_of_mem _ hy)
        obtain ⟨habove, hpath⟩ := hup rest _ hsepUp hrest rfl
        -- the node above is hashed from the honest pair and from the verifier's
        rw [pairUp_getElem?_sibling hs hnode hsibling] at habove
        have hpair := hsep _ (pairAt_mem_treePairs hs hnode hsibling) _ List.mem_cons_self (Option.some.inj habove)
        obtain ⟨rfl, rfl⟩ := pairAt_inj hpair
        rw [hpath]
        exact ⟨hnode, rfl⟩
      | none =>
        obtain ⟨heven, hlast⟩ := (siblingOf_eq_none_iff hfn).mp hsibling
        have hpos : fnIdx ≠ 0 := by omega
        rw [← hlast] at hloop hsep hup
        rw [Separated, inclusionPairs_promote hs path r hpos heven] at hsep
        have hsepUp : Separated hs (pairUp hs.nodeHash layer) path r (fnIdx / 2) (fnIdx / 2) := by
          intro x hx y hy
          exact hsep x (treePairs_pairUp_subset hs layer hx) y hy
        obtain ⟨habove, hpath⟩ := hup path r hsepUp ((inclusionLoop_promote hs path r _ hpos heven).mp hloop) rfl
        rw [pairUp_getElem?_lone hs hfn hsibling] at habove
        rw [hpath]
        exact ⟨habove, rfl⟩

theorem verifyInclusionProof_iff_of_separated [DecidableEq H] (leaves : List H) (hne : leaves ≠ [])
    (p : InclusionProof H) (hsize : p.treeSize = leaves.length)
    (hsep : Separated hs leaves p.path p.leafHash p.leafIndex (leaves.length - 1)) :
    verifyInclusionProof hs p (merkleTreeHash hs leaves) = true ↔
      p.leafIndex < leaves.length ∧ leaves[p.leafIndex]? = some p.leafHash ∧
        inclusionPath hs leaves p.leafIndex = some p.path := by
  have hpos : leaves.length ≠ 0 := by simpa using hne
  have hloop : p.leafIndex < leaves.length →
      (inclusionLoop hs p.path p.leafHash p.leafIndex (leaves.length - 1) = some (merkleTreeHash hs leaves, 0) ↔
        leaves[p.leafIndex]? = some p.leafHash ∧ inclusionPath hs leaves p.leafIndex = some p.path) := by
    intro hlt
    constructor
    · exact inclusionPath_of_inclusionLoop hs leaves p.leafIndex hlt p.path p.leafHash hsep
    · rintro ⟨hleaf, hpath⟩
      exact inclusionLoop_of_inclusionPath hs leaves p.leafIndex hlt p.path p.leafHash hleaf hpath
  rw [verifyInclusionProof, hsize]
  rcases Nat.lt_or_ge p.leafIndex leaves.length with hlt | hge
  · rw [if_neg (by omega), ← hloop hlt]
    split <;> simp_all
  · rw [if_pos (Or.inr hge)]
    simp only [Bool.false_eq_true, false_iff]
    omega

section Binding

variable (hinj : ∀ a b c d : H, hs.nodeHash a b = hs.nodeHash c d → a = c ∧ b = d)

include hinj

/-- **Inclusion proofs are complete and binding.** Against the root of `leaves` the verifier accepts a proof for a
tree of that size exactly when its index is inside the tree, its leaf hash is the leaf there and its path is the
honest one. -/
theorem verifyInclusionProof_iff [DecidableEq H] (leaves : List H) (hne : leaves ≠ []) (p : InclusionProof H)
    (hsize : p.treeSize = leaves.length) :
    verifyInclusionProof hs p (merkleTreeHash hs leaves) = true ↔
      p.leafIndex < leaves.length ∧ leaves[p.leafIndex]? = some p.leafHash ∧
        inclusionPath hs leaves p.leafIndex = some p.path := by
  exact verifyInclusionProof_iff_of_separated hs leaves hne p hsize
    (separated_of_injective hs hinj leaves p.path p.leafHash p.leafIndex (leaves.length - 1))

end Binding

/-- A hasher whose node hash is injective: the pairing of natural numbers. -/
def pairingHasher : TreeHasher Nat := ⟨0, Nat.pair⟩

theorem pairingHasher_injective (a b c d : Nat)
    (h : pairingHasher.nodeHash a b = pairingHasher.nodeHash c d) : a = c ∧ b = d :=
  Nat.pair_eq_pair.mp h

theorem verifyInclusionProof_iff_three :
    verifyInclusionProof pairingHasher ⟨2, 3, 9, [Nat.pair 4 7]⟩ (merkleTreeHash pairingHasher [4, 7, 9]) = true := by
  refine (verifyInclusionProof_iff pairingHasher pairingHasher_injective [4, 7, 9] (by simp)
    ⟨2, 3, 9, [Nat.pair 4 7]⟩ rfl).mpr ⟨by simp, rfl, ?_⟩
  have hsplit : largestPowerOfTwoLessThan [4, 7, 9].length = 2 := by
    simp [largestPowerOfTwoLessThan, doubleWhile]
  rw [inclusionPath_right _ _ _ (by simp) (by rw [hsplit]) (by simp), hsplit]
  simp [inclusionPath_singleton, merkleTreeHash_pair, pairingHasher]

end AgentHalo.Transparency
