import AgentHalo.Transparency.Consistency
import AgentHalo.Transparency.Nodes

/-!
# What a consistency proof of any size proves

The sizes a consistency proof claims only say on which side each path element is hashed. Whatever they say, the loop hashes
the old root along its right edge and the new root from the same node. So if nothing collides with a pair of the two trees
and no pair hashes to a leaf, the old leaves are the leaves of the new tree up to the end of that node
(`prefix_of_verifyConsistencyProof_of_sound`).
-/

namespace AgentHalo.Transparency

variable {H : Type} (hs : TreeHasher H)

/-- The pairs the loop of `verify_consistency_proof` hashes. -/
def consistencyPairs : List H → H → H → Nat → Nat → List (H × H)
  | [], _, _, _, _ => []
  | c :: path, fr, sr, fnIdx, sn =>
    if sn = 0 then []
    else if fnIdx % 2 = 1 ∨ fnIdx = sn then
      let s := if fnIdx % 2 = 0 then shiftWhileEven fnIdx sn else (fnIdx, sn)
      (c, fr) :: (c, sr) :: consistencyPairs path (hs.nodeHash c fr) (hs.nodeHash c sr) (s.1 / 2) (s.2 / 2)
    else (sr, c) :: consistencyPairs path fr (hs.nodeHash sr c) (fnIdx / 2) (sn / 2)

/-- The pairs `verify_consistency_proof` hashes. -/
def proofPairs (proof : ConsistencyProof H) (oldRoot : H) : List (H × H) :=
  match fullConsistencyPath proof oldRoot with
  | [] => []
  | first :: rest =>
    let s := shiftWhileOdd (proof.oldSize - 1) (proof.newSize - 1)
    consistencyPairs hs rest first first s.1 s.2

/-- Leaves and pairs on which the hash is sound: no two pairs collide, and neither a leaf nor the empty root is the hash
of a pair. -/
structure SoundOn (leaves : List H) (pairs : List (H × H)) : Prop where
  inj : ∀ x ∈ pairs, ∀ y ∈ pairs, hashPair hs x = hashPair hs y → x = y
  leaf : ∀ leaf ∈ leaves, ∀ x ∈ pairs, hashPair hs x ≠ leaf
  empty : ∀ x ∈ pairs, hashPair hs x ≠ hs.emptyHash
  empty_notMem : hs.emptyHash ∉ leaves

/-- A tree over some of the leaves, hashing some of the pairs. -/
structure Within (leaves : List H) (pairs : List (H × H)) (l : List H) : Prop where
  ne_nil : l ≠ []
  leaves : ∀ x ∈ l, x ∈ leaves
  pairs : ∀ x ∈ treePairs hs l, x ∈ pairs

variable {hs} {leaves : List H} {pairs : List (H × H)}

variable {l old new path : List H} {fr sr : H} {fnIdx sn last : Nat}

theorem Within.split (h : Within hs leaves pairs l) (hbig : 2 ≤ l.length) :
    ∃ left right, l = left ++ right ∧ Within hs leaves pairs left ∧ Within hs leaves pairs right ∧
      (merkleTreeHash hs left, merkleTreeHash hs right) ∈ pairs ∧
      merkleTreeHash hs l = hashPair hs (merkleTreeHash hs left, merkleTreeHash hs right) := by
  have hlt := largestPowerOfTwoLessThan_lt hbig
  have hpos := largestPowerOfTwoLessThan_pos hbig
  have hpairs := h.pairs
  rw [treePairs_split hs l hbig] at hpairs
  refine ⟨l.take (largestPowerOfTwoLessThan l.length), l.drop (largestPowerOfTwoLessThan l.length),
    (List.take_append_drop _ l).symm, ?_, ?_, hpairs _ List.mem_cons_self, merkleTreeHash_split hs l hbig⟩
  · constructor
    · rw [← List.length_pos_iff, List.length_take]
      omega
    · exact fun x hx => h.leaves x (List.mem_of_mem_take hx)
    · exact fun x hx => hpairs x (List.mem_cons_of_mem _ (List.mem_append_left _ hx))
  · constructor
    · rw [← List.length_pos_iff, List.length_drop]
      omega
    · exact fun x hx => h.leaves x (List.mem_of_mem_drop hx)
    · exact fun x hx => hpairs x (List.mem_cons_of_mem _ (List.mem_append_right _ hx))

theorem Within.cases (h : Within hs leaves pairs l) :
    (∃ x ∈ leaves, l = [x]) ∨ 2 ≤ l.length := by
  have hpos := List.length_pos_iff.mpr h.ne_nil
  rcases Nat.lt_or_ge l.length 2 with hsmall | hbig
  · obtain ⟨x, rfl⟩ : ∃ x, l = [x] := List.length_eq_one_iff.mp (by omega)
    exact .inl ⟨x, h.leaves x List.mem_cons_self, rfl⟩
  · exact .inr hbig

theorem Within.split_of_root (hsound : SoundOn hs leaves pairs) (h : Within hs leaves pairs l) {a b : H}
    (hpair : (a, b) ∈ pairs) (hroot : merkleTreeHash hs l = hs.nodeHash a b) :
    ∃ left right, l = left ++ right ∧ Within hs leaves pairs left ∧ Within hs leaves pairs right ∧
      merkleTreeHash hs left = a ∧ merkleTreeHash hs right = b := by
  obtain ⟨x, hx, rfl⟩ | hbig := h.cases
  · rw [merkleTreeHash_singleton] at hroot
    exact absurd hroot.symm (hsound.leaf x hx _ hpair)
  · obtain ⟨left, right, hl, hleft, hright, htop, hhash⟩ := h.split hbig
    obtain ⟨rfl, rfl⟩ := Prod.mk.inj (hsound.inj _ htop _ hpair (hhash.symm.trans hroot))
    exact ⟨left, right, hl, hleft, hright, rfl, rfl⟩

theorem Within.eq_of_root (hsound : SoundOn hs leaves pairs) {l' : List H} (h : Within hs leaves pairs l)
    (h' : Within hs leaves pairs l') (hroot : merkleTreeHash hs l = merkleTreeHash hs l') : l = l' := by
  induction hn : l.length using Nat.strong_induction_on generalizing l l' with
  | _ n ih =>
    subst hn
    obtain ⟨x, hx, rfl⟩ | hbig := h.cases
    · obtain ⟨y, -, rfl⟩ | hbig' := h'.cases
      · rw [merkleTreeHash_singleton, merkleTreeHash_singleton] at hroot
        rw [hroot]
      · obtain ⟨left, right, -, -, -, htop, hhash⟩ := h'.split hbig'
        rw [merkleTreeHash_singleton] at hroot
        exact absurd (hroot.trans hhash).symm (hsound.leaf x hx _ htop)
    · obtain ⟨left, right, hl, hleft, hright, htop, hhash⟩ := h.split hbig
      obtain ⟨left', right', hl', hleft', hright', hroots⟩ :=
        h'.split_of_root hsound htop (hroot.symm.trans hhash)
      have hlen : l.length = left.length + right.length := by rw [hl, List.length_append]
      have hposl := List.length_pos_iff.mpr hleft.ne_nil
      have hposr := List.length_pos_iff.mpr hright.ne_nil
      have hleftEq : left = left' := ih left.length (by omega) hleft hleft' hroots.1.symm rfl
      have hrightEq : right = right' := ih right.length (by omega) hright hright' hroots.2.symm rfl
      rw [hl, hl', hleftEq, hrightEq]

/-- What the loop has climbed through: the old tree ends with the node `fr` was, the new one has there, after the same
leaves, the node `sr` was. -/
theorem exists_nodes_of_consistencyLoop (hsound : SoundOn hs leaves pairs) (hold : Within hs leaves pairs old)
    (hnew : Within hs leaves pairs new) (hpairs : ∀ x ∈ consistencyPairs hs path fr sr fnIdx sn, x ∈ pairs)
    (hloop : consistencyLoop hs path fr sr fnIdx sn = some (merkleTreeHash hs old, merkleTreeHash hs new, last)) :
    ∃ front oldNode newNode back, old = front ++ oldNode ∧ new = front ++ newNode ++ back ∧
      Within hs leaves pairs oldNode ∧ Within hs leaves pairs newNode ∧
      merkleTreeHash hs oldNode = fr ∧ merkleTreeHash hs newNode = sr := by
  induction path generalizing fr sr fnIdx sn with
  | nil =>
    rw [consistencyLoop, Option.some.injEq, Prod.mk.injEq, Prod.mk.injEq] at hloop
    obtain ⟨hfr, hsr, -⟩ := hloop
    exact ⟨[], old, new, [], rfl, by simp, hold, hnew, hfr.symm, hsr.symm⟩
  | cons c path ih =>
    by_cases hsn : sn = 0
    · rw [consistencyLoop, if_pos hsn] at hloop
      cases hloop
    by_cases hleft : fnIdx % 2 = 1 ∨ fnIdx = sn
    · -- hashed on the left of both nodes: the node to their left is the same in both trees
      rw [consistencyLoop, if_neg hsn, if_pos hleft] at hloop
      rw [consistencyPairs, if_neg hsn, if_pos hleft] at hpairs
      obtain ⟨front, oldNode, newNode, back, rfl, rfl, holdNode, hnewNode, hfr, hsr⟩ :=
        ih (fun x hx => hpairs x (List.mem_cons_of_mem _ (List.mem_cons_of_mem _ hx))) hloop
      obtain ⟨left, right, rfl, hleftNode, hright, hc, hfr'⟩ :=
        holdNode.split_of_root hsound (hpairs _ List.mem_cons_self) hfr
      obtain ⟨left', right', rfl, hleftNode', hright', hc', hsr'⟩ :=
        hnewNode.split_of_root hsound (hpairs _ (List.mem_cons_of_mem _ List.mem_cons_self)) hsr
      obtain rfl : left = left' := hleftNode.eq_of_root hsound hleftNode' (hc.trans hc'.symm)
      exact ⟨front ++ left, right, right', back, by simp, by simp, hright, hright', hfr', hsr'⟩
    · -- hashed on the right of the new node only
      rw [consistencyLoop, if_neg hsn, if_neg hleft] at hloop
      rw [consistencyPairs, if_neg hsn, if_neg hleft] at hpairs
      obtain ⟨front, oldNode, newNode, back, hf, rfl, holdNode, hnewNode, hfr, hsr⟩ :=
        ih (fun x hx => hpairs x (List.mem_cons_of_mem _ hx)) hloop
      obtain ⟨left, right, rfl, hleftNode, -, hsr', -⟩ :=
        hnewNode.split_of_root hsound (hpairs _ List.mem_cons_self) hsr
      exact ⟨front, oldNode, left, right ++ back, hf, by simp, holdNode, hleftNode, hfr, hsr'⟩

theorem consistencyLoop_root {fr' sr' : H} (hloop : consistencyLoop hs path fr sr fnIdx sn = some (fr', sr', last)) :
    (fr' = fr ∧ sr' = sr) ∨ ∃ x ∈ consistencyPairs hs path fr sr fnIdx sn, hashPair hs x = sr' := by
  induction path generalizing fr sr fnIdx sn with
  | nil =>
    rw [consistencyLoop, Option.some.injEq, Prod.mk.injEq, Prod.mk.injEq] at hloop
    exact .inl ⟨hloop.1.symm, hloop.2.1.symm⟩
  | cons c path ih =>
    right
    by_cases hsn : sn = 0
    · rw [consistencyLoop, if_pos hsn] at hloop
      cases hloop
    by_cases hleft : fnIdx % 2 = 1 ∨ fnIdx = sn
    · rw [consistencyLoop, if_neg hsn, if_pos hleft] at hloop
      rw [consistencyPairs, if_neg hsn, if_pos hleft]
      obtain ⟨-, rfl⟩ | ⟨x, hx, hroot⟩ := ih hloop
      · exact ⟨(c, sr), List.mem_cons_of_mem _ List.mem_cons_self, rfl⟩
      · exact ⟨x, List.mem_cons_of_mem _ (List.mem_cons_of_mem _ hx), hroot⟩
    · rw [consistencyLoop, if_neg hsn, if_neg hleft] at hloop
      rw [consistencyPairs, if_neg hsn, if_neg hleft]
      obtain ⟨-, rfl⟩ | ⟨x, hx, hroot⟩ := ih hloop
      · exact ⟨(sr, c), List.mem_cons_self, rfl⟩
      · exact ⟨x, List.mem_cons_of_mem _ hx, hroot⟩

theorem Within.root_ne_empty (hsound : SoundOn hs leaves pairs) (h : Within hs leaves pairs l) :
    merkleTreeHash hs l ≠ hs.emptyHash := by
  obtain ⟨x, hx, rfl⟩ | hbig := h.cases
  · rw [merkleTreeHash_singleton]
    rintro rfl
    exact hsound.empty_notMem hx
  · obtain ⟨left, right, -, -, -, htop, hhash⟩ := h.split hbig
    rw [hhash]
    exact hsound.empty _ htop

theorem prefix_of_verifyConsistencyProof_of_sound [DecidableEq H] {p : ConsistencyProof H} (hsound : SoundOn hs (old ++ new)
      (treePairs hs old ++ treePairs hs new ++ proofPairs hs p (merkleTreeHash hs old)))
    (h : verifyConsistencyProof hs p (merkleTreeHash hs old) (merkleTreeHash hs new) = true) : old <+: new := by
  rcases old.eq_nil_or_concat with rfl | hne
  · exact List.nil_prefix
  have hold : Within hs (old ++ new) (treePairs hs old ++ treePairs hs new ++ proofPairs hs p (merkleTreeHash hs old))
      old := by
    refine ⟨?_, fun x => List.mem_append_left _, fun x hx => List.mem_append_left _ (List.mem_append_left _ hx)⟩
    obtain ⟨_, _, rfl⟩ := hne
    simp
  have hnew (hpos : new ≠ []) :
      Within hs (old ++ new) (treePairs hs old ++ treePairs hs new ++ proofPairs hs p (merkleTreeHash hs old)) new :=
    ⟨hpos, fun x => List.mem_append_right _, fun x hx => List.mem_append_left _ (List.mem_append_right _ hx)⟩
  rw [verifyConsistencyProof] at h
  split_ifs at h with hbad hsame
  · -- equal sizes: the roots are the same
    rw [Bool.and_eq_true, decide_eq_true_eq] at h
    rcases eq_or_ne new [] with rfl | hpos
    · rw [show merkleTreeHash hs ([] : List H) = hs.emptyHash by rw [merkleTreeHash]] at h
      exact absurd h.1 (hold.root_ne_empty hsound)
    · rw [hold.eq_of_root hsound (hnew hpos) h.1]
  · split at h
    · simp at h
    · rename_i first rest hpath
      dsimp only at h
      split at h
      · simp at h
      · rename_i fr sr sn hloop
        simp only [Bool.and_eq_true, decide_eq_true_eq] at h
        obtain ⟨⟨rfl, rfl⟩, rfl⟩ := h
        have hproof : proofPairs hs p (merkleTreeHash hs old) = consistencyPairs hs rest first first
            (shiftWhileOdd (p.oldSize - 1) (p.newSize - 1)).1 (shiftWhileOdd (p.oldSize - 1) (p.newSize - 1)).2 := by
          rw [proofPairs, hpath]
        rcases eq_or_ne new [] with rfl | hpos
        · rw [show merkleTreeHash hs ([] : List H) = hs.emptyHash by rw [merkleTreeHash]] at hloop
          obtain ⟨hfr, hsr⟩ | ⟨x, hx, hroot⟩ := consistencyLoop_root hloop
          · exact absurd (hfr.trans hsr.symm) (hold.root_ne_empty hsound)
          · exact absurd hroot (hsound.empty x (List.mem_append_right _ (hproof ▸ hx)))
        · obtain ⟨front, oldNode, newNode, back, hf, hb, holdNode, hnewNode, hfr, hsr⟩ :=
            exists_nodes_of_consistencyLoop hsound hold (hnew hpos)
              (fun x hx => List.mem_append_right _ (hproof ▸ hx)) hloop
          obtain rfl := holdNode.eq_of_root hsound hnewNode (hfr.trans hsr.symm)
          exact ⟨back, by rw [hf, hb]⟩

end AgentHalo.Transparency
