import AgentHalo.Transparency.Inclusion

/-!
# What an inclusion proof of any size proves

The size a proof claims is not part of the root, and the path of a proof for another size may still lead to the root. It
then leads there from some node of the tree, if no pair it hashes collides with one of the tree and none hashes to a
leaf (`isNode_of_inclusionLoop`). So a hash that is no inner node is a leaf of the tree, whatever the proof claims.
-/

namespace AgentHalo.Transparency

variable {H : Type} (hs : TreeHasher H)

/-- A hash in the tree over the leaves: a leaf, or the hash of a pair of the tree. -/
def IsNode (leaves : List H) (x : H) : Prop := x ∈ leaves ∨ ∃ pair ∈ treePairs hs leaves, hashPair hs pair = x

variable {leaves path : List H}

theorem IsNode.take {x : H} (hbig : 2 ≤ leaves.length)
    (h : IsNode hs (leaves.take (largestPowerOfTwoLessThan leaves.length)) x) : IsNode hs leaves x := by
  obtain hleaf | ⟨pair, hpair, hx⟩ := h
  · exact .inl (List.mem_of_mem_take hleaf)
  · refine .inr ⟨pair, ?_, hx⟩
    rw [treePairs_split hs leaves hbig]
    exact List.mem_cons_of_mem _ (List.mem_append_left _ hpair)

theorem IsNode.drop {x : H} (hbig : 2 ≤ leaves.length)
    (h : IsNode hs (leaves.drop (largestPowerOfTwoLessThan leaves.length)) x) : IsNode hs leaves x := by
  obtain hleaf | ⟨pair, hpair, hx⟩ := h
  · exact .inl (List.mem_of_mem_drop hleaf)
  · refine .inr ⟨pair, ?_, hx⟩
    rw [treePairs_split hs leaves hbig]
    exact List.mem_cons_of_mem _ (List.mem_append_right _ hpair)

theorem isNode_merkleTreeHash (hne : leaves ≠ []) : IsNode hs leaves (merkleTreeHash hs leaves) := by
  rcases Nat.lt_or_ge leaves.length 2 with hsmall | hbig
  · have hpos := List.length_pos_iff.mpr hne
    obtain ⟨x, rfl⟩ : ∃ x, leaves = [x] := List.length_eq_one_iff.mp (by omega)
    rw [merkleTreeHash_singleton]
    exact .inl List.mem_cons_self
  · rw [merkleTreeHash_split hs leaves hbig]
    refine .inr ⟨(merkleTreeHash hs (leaves.take (largestPowerOfTwoLessThan leaves.length)),
      merkleTreeHash hs (leaves.drop (largestPowerOfTwoLessThan leaves.length))), ?_, rfl⟩
    rw [treePairs_split hs leaves hbig]
    exact List.mem_cons_self

theorem isNode_of_mem_treePairs {pair : H × H} (h : pair ∈ treePairs hs leaves) :
    IsNode hs leaves pair.1 ∧ IsNode hs leaves pair.2 := by
  induction hn : leaves.length using Nat.strong_induction_on generalizing leaves with
  | _ n ih =>
    subst hn
    rcases Nat.lt_or_ge leaves.length 2 with hsmall | hbig
    · rw [treePairs_small hs hsmall] at h
      cases h
    have hlt := largestPowerOfTwoLessThan_lt hbig
    have hpos := largestPowerOfTwoLessThan_pos hbig
    have hleft : leaves.take (largestPowerOfTwoLessThan leaves.length) ≠ [] := by
      rw [← List.length_pos_iff, List.length_take]
      omega
    have hright : leaves.drop (largestPowerOfTwoLessThan leaves.length) ≠ [] := by
      rw [← List.length_pos_iff, List.length_drop]
      omega
    rw [treePairs_split hs leaves hbig] at h
    obtain rfl | hsub := List.mem_cons.mp h
    · exact ⟨(isNode_merkleTreeHash hs hleft).take hs hbig, (isNode_merkleTreeHash hs hright).drop hs hbig⟩
    obtain htake | hdrop := List.mem_append.mp hsub
    · obtain ⟨hfst, hsnd⟩ := ih _ (by rw [List.length_take]; omega) htake rfl
      exact ⟨hfst.take hs hbig, hsnd.take hs hbig⟩
    · obtain ⟨hfst, hsnd⟩ := ih _ (by rw [List.length_drop]; omega) hdrop rfl
      exact ⟨hfst.drop hs hbig, hsnd.drop hs hbig⟩

/-- No pair of the loop collides with a pair of the tree or hashes to a leaf. -/
structure LoopSeparated (leaves path : List H) (r : H) (fnIdx sn : Nat) : Prop where
  pairs : Separated hs leaves path r fnIdx sn
  leaves : ∀ leaf ∈ leaves, ∀ pair ∈ inclusionPairs hs path r fnIdx sn, hashPair hs pair ≠ leaf

variable {hs}

variable {r root : H} {fnIdx sn last : Nat}

theorem LoopSeparated.isNode_of_hashPair (hsep : LoopSeparated hs leaves path r fnIdx sn) {pair : H × H}
    (hpair : pair ∈ inclusionPairs hs path r fnIdx sn) (h : IsNode hs leaves (hashPair hs pair)) :
    IsNode hs leaves pair.1 ∧ IsNode hs leaves pair.2 := by
  obtain hleaf | ⟨node, hnode, hsame⟩ := h
  · exact absurd rfl (hsep.leaves _ hleaf pair hpair)
  · rw [← hsep.pairs node hnode pair hpair hsame]
    exact isNode_of_mem_treePairs hs hnode

theorem inclusionLoop_cons {p : H} (h : inclusionLoop hs (p :: path) r fnIdx sn = some (root, last)) :
    ∃ pair fnIdx' sn', (pair = (p, r) ∨ pair = (r, p)) ∧
      inclusionPairs hs (p :: path) r fnIdx sn = pair :: inclusionPairs hs path (hashPair hs pair) fnIdx' sn' ∧
      inclusionLoop hs path (hashPair hs pair) fnIdx' sn' = some (root, last) := by
  by_cases hsn : sn = 0
  · rw [inclusionLoop, if_pos hsn] at h
    cases h
  by_cases hright : fnIdx % 2 = 1 ∨ fnIdx = sn
  · rw [inclusionLoop, if_neg hsn, if_pos hright] at h
    refine ⟨(p, r), _, _, .inl rfl, ?_, h⟩
    rw [inclusionPairs, if_neg hsn, if_pos hright]
    rfl
  · rw [inclusionLoop, if_neg hsn, if_neg hright] at h
    refine ⟨(r, p), _, _, .inr rfl, ?_, h⟩
    rw [inclusionPairs, if_neg hsn, if_neg hright]
    rfl

theorem isNode_of_inclusionLoop (hsep : LoopSeparated hs leaves path r fnIdx sn) (hroot : IsNode hs leaves root)
    (hloop : inclusionLoop hs path r fnIdx sn = some (root, last)) : IsNode hs leaves r := by
  induction path generalizing r fnIdx sn with
  | nil =>
    rw [inclusionLoop, Option.some.injEq, Prod.mk.injEq] at hloop
    rw [hloop.1]
    exact hroot
  | cons p path ih =>
    obtain ⟨pair, fnIdx', sn', hpair, hpairs, hrest⟩ := inclusionLoop_cons hloop
    have hrestSep : LoopSeparated hs leaves path (hashPair hs pair) fnIdx' sn' := by
      constructor
      · exact fun x hx y hy => hsep.pairs x hx y (hpairs ▸ List.mem_cons_of_mem _ hy)
      · exact fun leaf hleaf y hy => hsep.leaves leaf hleaf y (hpairs ▸ List.mem_cons_of_mem _ hy)
    obtain ⟨hfst, hsnd⟩ := hsep.isNode_of_hashPair (hpairs ▸ List.mem_cons_self) (ih hrestSep hrest)
    obtain rfl | rfl := hpair
    · exact hsnd
    · exact hfst

theorem inclusionLoop_root (hloop : inclusionLoop hs path r fnIdx sn = some (root, last)) :
    root = r ∨ ∃ pair ∈ inclusionPairs hs path r fnIdx sn, hashPair hs pair = root := by
  induction path generalizing r fnIdx sn with
  | nil =>
    rw [inclusionLoop, Option.some.injEq, Prod.mk.injEq] at hloop
    exact .inl hloop.1.symm
  | cons p path ih =>
    right
    obtain ⟨pair, fnIdx', sn', -, hpairs, hrest⟩ := inclusionLoop_cons hloop
    rw [hpairs]
    obtain hhere | ⟨above, habove, hroot⟩ := ih hrest
    · exact ⟨pair, List.mem_cons_self, hhere.symm⟩
    · exact ⟨above, List.mem_cons_of_mem _ habove, hroot⟩

end AgentHalo.Transparency
