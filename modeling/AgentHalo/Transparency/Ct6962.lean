import AgentHalo.Base.Platform

/-!
# The RFC 6962 log of `transparency/ct6962.rs`

Tree hash, inclusion and consistency paths, and the two verifiers, as the source computes them. The digest type
and the hash functions are parameters (`TreeHasher`): the engine instantiates them with SHA-256 over 32 bytes, and
a statement that needs `node_hash` to be injective can be made about a hash that is. Sizes and indices are `Nat`;
`x & 1` is written `x % 2` and `x >> 1` is written `x / 2`.
-/

namespace AgentHalo.Transparency

/-- `empty_hash` and `node_hash`. -/
structure TreeHasher (H : Type) where
  emptyHash : H
  nodeHash : H → H → H

structure InclusionProof (H : Type) where
  leafIndex : Nat
  treeSize : Nat
  leafHash : H
  path : List H
  deriving DecidableEq

structure ConsistencyProof (H : Type) where
  oldSize : Nat
  newSize : Nat
  path : List H
  deriving DecidableEq

/-! ### The split point -/

/-- `while (k << 1) < n { k <<= 1 }`. The loop starts at `k = 1`; the test `0 < k` only serves termination. -/
def doubleWhile (n k : Nat) : Nat :=
  if 0 < k ∧ 2 * k < n then doubleWhile n (2 * k) else k
termination_by n - k

def largestPowerOfTwoLessThan (n : Nat) : Nat :=
  if n < 2 then 0 else doubleWhile n 1

theorem doubleWhile_spec (n k : Nat) (hk : 0 < k) (hkn : k < n) :
    doubleWhile n k < n ∧ n ≤ 2 * doubleWhile n k ∧ k ≤ doubleWhile n k := by
  induction k using doubleWhile.induct n with
  | case1 k h ih =>
    rw [doubleWhile, if_pos h]
    obtain ⟨h1, h2, h3⟩ := ih (by omega) h.2
    exact ⟨h1, h2, by omega⟩
  | case2 k h =>
    rw [doubleWhile, if_neg h]
    omega

theorem largestPowerOfTwoLessThan_lt {n : Nat} (hn : 2 ≤ n) : largestPowerOfTwoLessThan n < n := by
  rw [largestPowerOfTwoLessThan, if_neg (by omega)]
  exact (doubleWhile_spec n 1 (by omega) (by omega)).1

theorem le_two_mul_largestPowerOfTwoLessThan {n : Nat} (hn : 2 ≤ n) :
    n ≤ 2 * largestPowerOfTwoLessThan n := by
  rw [largestPowerOfTwoLessThan, if_neg (by omega)]
  exact (doubleWhile_spec n 1 (by omega) (by omega)).2.1

theorem largestPowerOfTwoLessThan_pos {n : Nat} (hn : 2 ≤ n) : 0 < largestPowerOfTwoLessThan n := by
  have := le_two_mul_largestPowerOfTwoLessThan hn
  omega

variable {H : Type}

/-! ### Tree hash and proof paths -/

def merkleTreeHash (hs : TreeHasher H) (leaves : List H) : H :=
  match leaves with
  | [] => hs.emptyHash
  | [leaf] => leaf
  | a :: b :: rest =>
    let k := largestPowerOfTwoLessThan (a :: b :: rest).length
    let left := merkleTreeHash hs ((a :: b :: rest).take k)
    let right := merkleTreeHash hs ((a :: b :: rest).drop k)
    hs.nodeHash left right
termination_by leaves.length
decreasing_by
  · have := largestPowerOfTwoLessThan_lt (n := (a :: b :: rest).length) (by simp)
    simp only [List.length_take, List.length_cons] at this ⊢
    omega
  · have := largestPowerOfTwoLessThan_pos (n := (a :: b :: rest).length) (by simp)
    simp only [List.length_drop, List.length_cons] at this ⊢
    omega

def inclusionPath (hs : TreeHasher H) (leaves : List H) (leafIndex : Nat) : Option (List H) :=
  let n := leaves.length
  if leafIndex ≥ n then none
  else if _h : n ≤ 1 then some []
  else
    let k := largestPowerOfTwoLessThan n
    if leafIndex < k then
      (inclusionPath hs (leaves.take k) leafIndex).map (· ++ [merkleTreeHash hs (leaves.drop k)])
    else
      (inclusionPath hs (leaves.drop k) (leafIndex - k)).map (· ++ [merkleTreeHash hs (leaves.take k)])
termination_by leaves.length
decreasing_by
  · have := largestPowerOfTwoLessThan_lt (n := leaves.length) (by omega)
    simp only [List.length_take]
    omega
  · have := largestPowerOfTwoLessThan_pos (n := leaves.length) (by omega)
    simp only [List.length_drop]
    omega

def makeInclusionProof (hs : TreeHasher H) (leaves : List H) (leafIndex : Nat) :
    Option (InclusionProof H) := do
  let path ← inclusionPath hs leaves leafIndex
  let leafHash ← leaves[leafIndex]?
  some ⟨leafIndex, leaves.length, leafHash, path⟩

/-- `subproof`. The callers keep `1 ≤ m ≤ n`, so a tree with fewer than two leaves has `m = n` and the
second branch is not reached. -/
def subproof (hs : TreeHasher H) (leaves : List H) (m : Nat) (b : Bool) : List H :=
  let n := leaves.length
  if m = n then
    if b then [] else [merkleTreeHash hs leaves]
  else if _h : n < 2 then []
  else
    let k := largestPowerOfTwoLessThan n
    if m ≤ k then
      subproof hs (leaves.take k) m b ++ [merkleTreeHash hs (leaves.drop k)]
    else
      subproof hs (leaves.drop k) (m - k) false ++ [merkleTreeHash hs (leaves.take k)]
termination_by leaves.length
decreasing_by
  · have := largestPowerOfTwoLessThan_lt (n := leaves.length) (by omega)
    simp only [List.length_take]
    omega
  · have := largestPowerOfTwoLessThan_pos (n := leaves.length) (by omega)
    simp only [List.length_drop]
    omega

def consistencyPath (hs : TreeHasher H) (leaves : List H) (oldSize : Nat) : Option (List H) :=
  let n := leaves.length
  if oldSize = 0 ∨ oldSize > n then none
  else if oldSize = n then some []
  else some (subproof hs leaves oldSize true)

def makeConsistencyProof (hs : TreeHasher H) (leaves : List H) (oldSize : Nat) :
    Option (ConsistencyProof H) :=
  (consistencyPath hs leaves oldSize).map fun path => ⟨oldSize, leaves.length, path⟩

/-! ### The verifiers -/

/-- `while fn_idx != 0 && (fn_idx & 1) == 0 { fn_idx >>= 1; sn >>= 1 }`. -/
def shiftWhileEven (fnIdx sn : Nat) : Nat × Nat :=
  if fnIdx ≠ 0 ∧ fnIdx % 2 = 0 then shiftWhileEven (fnIdx / 2) (sn / 2) else (fnIdx, sn)
termination_by fnIdx

/-- `while (fn_idx & 1) == 1 { fn_idx >>= 1; sn >>= 1 }`. -/
def shiftWhileOdd (fnIdx sn : Nat) : Nat × Nat :=
  if fnIdx % 2 = 1 then shiftWhileOdd (fnIdx / 2) (sn / 2) else (fnIdx, sn)
termination_by fnIdx

/-- The loop of `verify_inclusion_proof` over the path; `none` is its `return false`. -/
def inclusionLoop (hs : TreeHasher H) : List H → H → Nat → Nat → Option (H × Nat)
  | [], r, _, sn => some (r, sn)
  | p :: path, r, fnIdx, sn =>
    if sn = 0 then none
    else if fnIdx % 2 = 1 ∨ fnIdx = sn then
      let s := shiftWhileEven fnIdx sn
      inclusionLoop hs path (hs.nodeHash p r) (s.1 / 2) (s.2 / 2)
    else
      inclusionLoop hs path (hs.nodeHash r p) (fnIdx / 2) (sn / 2)

def verifyInclusionProof [DecidableEq H] (hs : TreeHasher H) (proof : InclusionProof H)
    (expectedRoot : H) : Bool :=
  if proof.treeSize = 0 ∨ proof.leafIndex ≥ proof.treeSize then false
  else
    match inclusionLoop hs proof.path proof.leafHash proof.leafIndex (proof.treeSize - 1) with
    | none => false
    | some (r, sn) => r = expectedRoot && sn = 0

/-- The loop of `verify_consistency_proof` over the path after its first element; `none` is its
`return false`. -/
def consistencyLoop (hs : TreeHasher H) : List H → H → H → Nat → Nat → Option (H × H × Nat)
  | [], fr, sr, _, sn => some (fr, sr, sn)
  | c :: path, fr, sr, fnIdx, sn =>
    if sn = 0 then none
    else if fnIdx % 2 = 1 ∨ fnIdx = sn then
      let s := if fnIdx % 2 = 0 then shiftWhileEven fnIdx sn else (fnIdx, sn)
      consistencyLoop hs path (hs.nodeHash c fr) (hs.nodeHash c sr) (s.1 / 2) (s.2 / 2)
    else
      consistencyLoop hs path fr (hs.nodeHash sr c) (fnIdx / 2) (sn / 2)

/-- The path `verify_consistency_proof` walks: the old root stands first when the old tree is complete. -/
def fullConsistencyPath (proof : ConsistencyProof H) (oldRoot : H) : List H :=
  if proof.oldSize.isPowerOfTwo then oldRoot :: proof.path else proof.path

def verifyConsistencyProof [DecidableEq H] (hs : TreeHasher H) (proof : ConsistencyProof H)
    (oldRoot newRoot : H) : Bool :=
  if proof.oldSize = 0 ∨ proof.newSize = 0 ∨ proof.oldSize > proof.newSize then false
  else if proof.oldSize = proof.newSize then oldRoot = newRoot && proof.path.isEmpty
  else
    match fullConsistencyPath proof oldRoot with
    | [] => false
    | first :: rest =>
      let s := shiftWhileOdd (proof.oldSize - 1) (proof.newSize - 1)
      match consistencyLoop hs rest first first s.1 s.2 with
      | none => false
      | some (fr, sr, sn) => fr = oldRoot && sr = newRoot && sn = 0

end AgentHalo.Transparency

/-!
## Signed tree heads

The log's own hashing: leaves and inner nodes under distinct prefixes of SHA-256, and the head of a log, whose `sig` is
a keyless digest of the size, the root and the timestamp. `hasher` is the instance at which the engine uses the proofs
about RFC 6962 trees.
-/

namespace AgentHalo.Transparency

open Text (utf8 hexEncode)

variable (P : Platform)

def leafHash (payload : Bytes) : NodeHash := P.sha256 (0x00 :: payload)

def nodeHash (left right : NodeHash) : NodeHash := P.sha256 (0x01 :: (left.toList ++ right.toList))

def emptyHash : NodeHash := P.sha256 []

def hasher : TreeHasher NodeHash := ⟨emptyHash P, nodeHash P⟩

structure SignedTreeHead where
  treeSize : Nat
  rootHash : NodeHash
  timestampUnixSecs : Nat
  sig : String
deriving DecidableEq, Repr

def sthSignature (treeSize : Nat) (rootHash : NodeHash) (timestampUnixSecs : Nat) : String :=
  let msg := "nucleusdb.ct.sth.sig.v1|size=" ++ toString treeSize ++ "|root=" ++ hexEncode rootHash.toList
    ++ "|ts=" ++ toString timestampUnixSecs
  hexEncode (P.sha256 (utf8 msg)).toList

def makeSth (leaves : List NodeHash) (timestampUnixSecs : Nat) : SignedTreeHead :=
  let rootHash := merkleTreeHash (hasher P) leaves
  let treeSize := leaves.length
  { treeSize, rootHash, timestampUnixSecs, sig := sthSignature P treeSize rootHash timestampUnixSecs }

end AgentHalo.Transparency
