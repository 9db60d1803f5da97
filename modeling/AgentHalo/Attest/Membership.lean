import AgentHalo.Base.Reference
import AgentHalo.Base.Scan
import AgentHalo.Identity.Ledger
import AgentHalo.Lib.HashTree

/-!
# Anonymous session membership

The sessions of a database are blinded, sorted and hashed into a tree whose last node without a partner is promoted. A
proof gives a leaf, its index, the size of the tree and the steps to the root.

The verifier climbs the steps from the leaf and compares with the root. It does not look at the index and the size, and
does not ask that the value it starts from is a leaf: that holds exactly if the sides of the steps are those of a leaf
(`member_iff_sides`).
-/

namespace AgentHalo.Attest

open HashTree (Hasher build root hash climb climbPairs sides root_map_hash)
open Outcome
open Identity (HashAlgorithm hashBytes hashHex)
open Text (utf8 hexEncode decodeHexPairs eqIgnoreAsciiCase)

structure SessionMetadata where
  sessionId : String
  startedAt : UInt64
deriving DecidableEq, Repr

structure AnonymousMembershipStep where
  siblingHash : String
  siblingIsLeft : Bool
deriving DecidableEq, Repr

structure AnonymousMembershipProof where
  membershipRoot : String
  leafHash : String
  treeSize : UInt64
  leafIndex : UInt64
  steps : List AnonymousMembershipStep
deriving DecidableEq, Repr

/-- Hex text of any even length but zero. -/
def hexDecodeVar (s : String) : Except String Bytes :=
  if (utf8 s).length = 0 ∨ (utf8 s).length % 2 ≠ 0 then
    .error ("invalid hex hash length " ++ toString (utf8 s).length)
  else okOr ("invalid hex character in " ++ s) (decodeHexPairs (utf8 s))

variable (P : Platform)

def blindedSessionReference (sessionId : String) : String :=
  hashHex P .current (utf8 ("agenthalo.attestation.blind.v1:" ++ sessionId))

def anonLeafInput (blindedRef : Bytes) : Bytes := utf8 "agenthalo.anon.membership.leaf.v1" ++ [0] ++ blindedRef

def anonNodeInput (pair : Bytes × Bytes) : Bytes :=
  utf8 "agenthalo.anon.membership.node.v1" ++ [0] ++ (pair.1 ++ pair.2)

def anonLeafHash (algo : HashAlgorithm) (blindedRef : Bytes) : Bytes := hashBytes P algo (anonLeafInput blindedRef)

def anonNodeHash (algo : HashAlgorithm) (left right : Bytes) : Bytes := hashBytes P algo (anonNodeInput (left, right))

/-- The blinded reference of a session and its leaf. -/
def blindedLeaf (s : SessionMetadata) : Except String (String × Bytes) := do
  let blinded := blindedSessionReference P s.sessionId
  let bytes ← hexDecodeVar blinded
  return (blinded, anonLeafHash P .current bytes)

/-- The steps that the loop collects, layer by layer. -/
def anonSteps (level : List Bytes) (targetIndex : Nat) : List AnonymousMembershipStep :=
  if level.length ≤ 1 then []
  else
    (if targetIndex % 2 = 0 then
      (level[targetIndex + 1]?.map fun sibling => ⟨hexEncode sibling, false⟩).toList
    else (level[targetIndex - 1]?.map fun sibling => ⟨hexEncode sibling, true⟩).toList) ++
      anonSteps (Layers.pairUp (anonNodeHash P .current) level) (targetIndex / 2)
termination_by level.length
decreasing_by
  rw [Layers.length_pairUp]
  omega

def buildAnonymousMembershipProof (sessions : List SessionMetadata) (targetBlindedRefHex : String) :
    Except String AnonymousMembershipProof := do
  let leaves ← sessions.mapM (blindedLeaf P)
  require (!leaves.isEmpty) "cannot build anonymous membership proof: no sessions found"
  let leaves := leaves.mergeSort fun a b => a.1 ≤ b.1
  let targetBytes ← hexDecodeVar targetBlindedRefHex
  let targetLeaf := anonLeafHash P .current targetBytes
  let targetIndex ← okOr "target session not found in anonymous membership tree"
    (leaves.findIdx? fun leaf => leaf.2 == targetLeaf)
  let level := leaves.map Prod.snd
  let membershipRoot ← okOr "failed to build anonymous membership root"
    ((root (anonNodeHash P .current) level).map hexEncode)
  let leafIndex ← okOr "target session not found for membership proof"
    (leaves.findIdx? fun leaf => leaf.2 == targetLeaf)
  return {
    membershipRoot
    leafHash := hexEncode targetLeaf
    treeSize := UInt64.ofNat leaves.length
    leafIndex := UInt64.ofNat leafIndex
    steps := anonSteps P level targetIndex }

/-- The length of the leaf tells the algorithm. -/
def proofAlgorithm (proof : AnonymousMembershipProof) : HashAlgorithm :=
  if 64 < (utf8 proof.leafHash).length then .sha512 else .sha256

def climbStep (algo : HashAlgorithm) (acc : Bytes) (step : AnonymousMembershipStep) : Except String Bytes := do
  let sibling ← hexDecodeVar step.siblingHash
  return if step.siblingIsLeft then anonNodeHash P algo sibling acc else anonNodeHash P algo acc sibling

def verifyAnonymousMembershipProof (proof : AnonymousMembershipProof) : Except String Bool := do
  let leaf ← hexDecodeVar proof.leafHash
  let acc ← proof.steps.foldlM (climbStep P (proofAlgorithm proof)) leaf
  return eqIgnoreAsciiCase (hexEncode acc) proof.membershipRoot

/-! ### The tree of the sessions -/

def blindedBytes (s : SessionMetadata) : Bytes :=
  hashBytes P .current (utf8 ("agenthalo.attestation.blind.v1:" ++ s.sessionId))

/-- The sessions in the order of their blinded references. -/
def sortedSessions (sessions : List SessionMetadata) : List SessionMetadata :=
  sessions.mergeSort fun a b => blindedSessionReference P a.sessionId ≤ blindedSessionReference P b.sessionId

def sortedLeaves (sessions : List SessionMetadata) : List Bytes :=
  (sortedSessions P sessions).map fun s => anonLeafHash P .current (blindedBytes P s)

def anonHasher : Hasher SessionMetadata Bytes where
  leaf s := anonLeafHash P .current (blindedBytes P s)
  node := anonNodeHash P .current

def anonTree (sessions : List SessionMetadata) : Option (HashTree SessionMetadata) :=
  build ((sortedSessions P sessions).map .leaf)

def decodedSteps (steps : List AnonymousMembershipStep) : Except String (List (Bytes × Bool)) :=
  steps.mapM fun step => (hexDecodeVar step.siblingHash).map (·, step.siblingIsLeft)

/-- The pairs that are hashed to verify a proof. -/
def climbedPairs (proof : AnonymousMembershipProof) : List (Bytes × Bytes) :=
  match hexDecodeVar proof.leafHash, decodedSteps proof.steps with
  | .ok leaf, .ok steps => climbPairs (anonNodeHash P (proofAlgorithm proof)) leaf steps
  | _, _ => []

def anonInput : SessionMetadata ⊕ Bytes × Bytes → Bytes
  | .inl s => anonLeafInput (blindedBytes P s)
  | .inr pair => anonNodeInput pair

def hashedInputs (sessions : List SessionMetadata) (proof : AnonymousMembershipProof) : List Bytes :=
  ((anonTree P sessions).toList.flatMap (HashTree.inputs (anonHasher P)) ++ (climbedPairs P proof).map Sum.inr).map (anonInput P)

variable {P}

/-! ### Hashes -/

variable {bytes start acc : Bytes} {sessions : List SessionMetadata} {target : String}
  {honest proof : AnonymousMembershipProof}

theorem hexDecodeVar_hexEncode (h : bytes ≠ []) : hexDecodeVar (hexEncode bytes) = .ok bytes := by
  have hlen := List.length_pos_iff.mpr h
  unfold hexDecodeVar
  rw [Text.utf8_hexEncode_length, if_neg (by omega), Text.decodeHexPairs_hexEncode]
  rfl

theorem length_of_hexDecodeVar {s : String} (h : hexDecodeVar s = .ok bytes) :
    (utf8 s).length = 2 * bytes.length := by
  unfold hexDecodeVar at h
  split at h
  · cases h
  · exact Text.length_of_decodeHexPairs (okOr_eq_ok.mp h)

@[simp] theorem length_hashBytes_current (data : Bytes) : (hashBytes P .current data).length = 64 := by
  simp [hashBytes, HashAlgorithm.current]

theorem hashBytes_current_ne_nil (data : Bytes) : hashBytes P .current data ≠ [] :=
  List.ne_nil_of_length_pos (by rw [length_hashBytes_current]; omega)

theorem blindedLeaf_eq (s : SessionMetadata) :
    blindedLeaf P s =
      .ok (blindedSessionReference P s.sessionId, anonLeafHash P .current (blindedBytes P s)) := by
  have hdecode : hexDecodeVar (blindedSessionReference P s.sessionId) = .ok (blindedBytes P s) :=
    hexDecodeVar_hexEncode (hashBytes_current_ne_nil _)
  unfold blindedLeaf
  simp only [hdecode]
  rfl

theorem apply_anonHasher (i : SessionMetadata ⊕ Bytes × Bytes) :
    (anonHasher P).apply i = hashBytes P .current (anonInput P i) := by cases i <;> rfl

theorem anonLeafInput_ne_anonNodeInput (bytes : Bytes) (pair : Bytes × Bytes) : anonLeafInput bytes ≠ anonNodeInput pair := by
  intro h
  have hleaf : (anonLeafInput bytes)[26]? = some 108 := by
    unfold anonLeafInput
    rw [List.append_assoc, List.getElem?_append_left (by decide)]
    decide
  have hnode : (anonNodeInput pair)[26]? = some 110 := by
    unfold anonNodeInput
    rw [List.append_assoc, List.getElem?_append_left (by decide)]
    decide
  rw [h, hnode] at hleaf
  exact absurd hleaf (by decide)

theorem anonNodeInput_inj {pair pair' : Bytes × Bytes} (hpair : pair.1.length = 64 ∧ pair.2.length = 64)
    (hpair' : pair'.1.length = 64 ∨ pair'.2.length = 64) (h : anonNodeInput pair = anonNodeInput pair') :
    pair = pair' := by
  have hjoined : pair.1 ++ pair.2 = pair'.1 ++ pair'.2 := List.append_cancel_left h
  have hlen := congrArg List.length hjoined
  rw [List.length_append, List.length_append] at hlen
  obtain ⟨hfst, hsnd⟩ := List.append_inj hjoined (by omega)
  exact Prod.ext hfst hsnd

/-! ### The root -/

theorem length_sortedSessions (sessions : List SessionMetadata) : (sortedSessions P sessions).length = sessions.length :=
  List.length_mergeSort _

theorem map_hash_sortedSessions (sessions : List SessionMetadata) :
    ((sortedSessions P sessions).map HashTree.leaf).map (hash (anonHasher P)) = sortedLeaves P sessions := by
  rw [List.map_map]
  rfl

theorem sort_blindedLeaves (sessions : List SessionMetadata) :
    ((sessions.map fun s => (blindedSessionReference P s.sessionId, anonLeafHash P .current (blindedBytes P s))).mergeSort
        fun a b => a.1 ≤ b.1) =
      (sortedSessions P sessions).map fun s =>
        (blindedSessionReference P s.sessionId, anonLeafHash P .current (blindedBytes P s)) := by
  refine (List.map_mergeSort ?_).symm
  exact fun _ _ _ _ => rfl

theorem buildAnonymousMembershipProof_eq_ok :
    buildAnonymousMembershipProof P sessions target = .ok honest ↔
      sessions ≠ [] ∧ ∃ targetBytes index rootHash, hexDecodeVar target = .ok targetBytes ∧
        (sortedLeaves P sessions).findIdx? (· == anonLeafHash P .current targetBytes) = some index ∧
        root (anonNodeHash P .current) (sortedLeaves P sessions) = some rootHash ∧
        honest =
          { membershipRoot := hexEncode rootHash
            leafHash := hexEncode (anonLeafHash P .current targetBytes)
            treeSize := UInt64.ofNat sessions.length
            leafIndex := UInt64.ofNat index
            steps := anonSteps P (sortedLeaves P sessions) index } := by
  have hleaves : sessions.mapM (blindedLeaf P) = .ok (sessions.map fun s =>
      (blindedSessionReference P s.sessionId, anonLeafHash P .current (blindedBytes P s))) := by
    rw [show blindedLeaf P = fun s => pure (blindedSessionReference P s.sessionId,
      anonLeafHash P .current (blindedBytes P s)) from funext blindedLeaf_eq]
    exact List.mapM_pure
  have hfind (leaf : Bytes) (l : List SessionMetadata) :
      (l.map fun s => (blindedSessionReference P s.sessionId, anonLeafHash P .current (blindedBytes P s))).findIdx?
          (fun pair => pair.2 == leaf) =
        (l.map fun s => anonLeafHash P .current (blindedBytes P s)).findIdx? (· == leaf) := by
    rw [List.findIdx?_map, List.findIdx?_map]
    rfl
  unfold buildAnonymousMembershipProof
  simp only [bind, pure, Except.pure, bind_eq_ok, require_eq_ok, okOr_eq_ok, hleaves, Except.ok.injEq]
  constructor
  · rintro ⟨_, rfl, -, hne, targetBytes, htarget, index, hindex, membershipRoot, hroot, index', hindex', rfl⟩
    rw [sort_blindedLeaves, hfind] at hindex hindex'
    rw [sort_blindedLeaves, List.map_map] at hroot
    obtain ⟨rootHash, hrootHash, rfl⟩ := Option.map_eq_some_iff.mp hroot
    obtain rfl := Option.some.inj (hindex.symm.trans hindex')
    refine ⟨by simpa using hne, targetBytes, index, rootHash, htarget, hindex, hrootHash, ?_⟩
    rw [sort_blindedLeaves, List.map_map, List.length_map, length_sortedSessions]
    rfl
  · rintro ⟨hne, targetBytes, index, rootHash, htarget, hindex, hroot, rfl⟩
    refine ⟨_, rfl, (), by simpa using hne, targetBytes, htarget, index, ?_, hexEncode rootHash, ?_, index, ?_, ?_⟩
    · rw [sort_blindedLeaves, hfind]
      exact hindex
    · rw [sort_blindedLeaves, List.map_map]
      exact congrArg (Option.map hexEncode) hroot
    · rw [sort_blindedLeaves, hfind]
      exact hindex
    · rw [sort_blindedLeaves, List.map_map, List.length_map, length_sortedSessions]
      rfl

theorem membershipRoot_of_build (h : buildAnonymousMembershipProof P sessions target = .ok honest) :
    ∃ t, anonTree P sessions = some t ∧ honest.membershipRoot = hexEncode (t.hash (anonHasher P)) := by
  obtain ⟨-, _, _, rootHash, -, -, hroot, rfl⟩ := buildAnonymousMembershipProof_eq_ok.mp h
  have htree := root_map_hash (anonHasher P) ((sortedSessions P sessions).map .leaf)
  rw [map_hash_sortedSessions] at htree
  obtain ⟨t, ht, rfl⟩ := Option.map_eq_some_iff.mp (htree.symm.trans hroot)
  exact ⟨t, ht, rfl⟩

/-! ### What the verifier checks -/

theorem climb_of_foldlM {algo : HashAlgorithm} {steps : List AnonymousMembershipStep}
    (h : steps.foldlM (climbStep P algo) start = .ok acc) :
    ∃ decoded, decodedSteps steps = .ok decoded ∧ decoded.map Prod.snd = steps.map (·.siblingIsLeft) ∧
      climb (anonNodeHash P algo) start decoded = acc := by
  induction steps generalizing start with
  | nil => exact ⟨[], rfl, rfl, Except.ok.inj h⟩
  | cons step steps ih =>
    rw [List.foldlM_cons] at h
    simp only [climbStep, bind, pure, Except.pure, bind_eq_ok, Except.ok.injEq] at h
    obtain ⟨_, ⟨sibling, hsibling, rfl⟩, hrest⟩ := h
    obtain ⟨decoded, hdecoded, hsides, hclimb⟩ := ih hrest
    refine ⟨(sibling, step.siblingIsLeft) :: decoded, ?_, by rw [List.map_cons, List.map_cons, hsides], ?_⟩
    · unfold decodedSteps at hdecoded ⊢
      rw [List.mapM_cons, hdecoded, hsibling]
      rfl
    · rw [← hclimb, climb, HashTree.beside]
      cases step.siblingIsLeft <;> rfl

theorem climbedPairs_of_decoded {decoded : List (Bytes × Bool)} (hstart : hexDecodeVar proof.leafHash = .ok start)
    (hdecoded : decodedSteps proof.steps = .ok decoded) :
    climbedPairs P proof = climbPairs (anonNodeHash P (proofAlgorithm proof)) start decoded := by
  rw [climbedPairs, hstart, hdecoded]

theorem climb_of_verify (hroot : proof.membershipRoot = hexEncode bytes)
    (h : verifyAnonymousMembershipProof P proof = .ok true) :
    ∃ start decoded, hexDecodeVar proof.leafHash = .ok start ∧
      decoded.map Prod.snd = proof.steps.map (·.siblingIsLeft) ∧
      climbedPairs P proof = climbPairs (anonNodeHash P (proofAlgorithm proof)) start decoded ∧
      climb (anonNodeHash P (proofAlgorithm proof)) start decoded = bytes := by
  unfold verifyAnonymousMembershipProof at h
  simp only [bind, pure, Except.pure, bind_eq_ok, Except.ok.injEq] at h
  obtain ⟨start, hstart, acc, hacc, hsame⟩ := h
  obtain ⟨decoded, hdecoded, hsides, rfl⟩ := climb_of_foldlM hacc
  refine ⟨start, decoded, hstart, hsides, climbedPairs_of_decoded hstart hdecoded, ?_⟩
  have hlower : Text.toAsciiLowercase (hexEncode (climb (anonNodeHash P (proofAlgorithm proof)) start decoded)) =
      Text.toAsciiLowercase (hexEncode bytes) := by
    rw [hroot] at hsame
    exact congrArg String.ofList (beq_iff_eq.mp hsame)
  rw [Text.toAsciiLowercase_hexEncode, Text.toAsciiLowercase_hexEncode] at hlower
  exact Text.hexEncode_inj hlower

theorem verifyAnonymousMembershipProof_of_climb (hstart : hexDecodeVar proof.leafHash = .ok start)
    (hclimb : proof.steps.foldlM (climbStep P (proofAlgorithm proof)) start = .ok acc)
    (hroot : proof.membershipRoot = hexEncode acc) : verifyAnonymousMembershipProof P proof = .ok true := by
  unfold verifyAnonymousMembershipProof
  rw [hstart, hroot]
  simp only [bind, Except.bind, hclimb, Text.eqIgnoreAsciiCase_self]
  rfl

section Free

variable {sessions : List SessionMetadata} {proof : AnonymousMembershipProof} {t : HashTree SessionMetadata}
  (hfree : Set.InjOn P.sha512 {input | input ∈ hashedInputs P sessions proof}) (ht : anonTree P sessions = some t)
include hfree ht

theorem input_eq_of_apply_eq {i j : SessionMetadata ⊕ Bytes × Bytes} (hi : i ∈ t.inputs (anonHasher P))
    (hj : j ∈ t.inputs (anonHasher P) ++ (climbedPairs P proof).map Sum.inr)
    (h : (anonHasher P).apply i = (anonHasher P).apply j) : anonInput P i = anonInput P j := by
  have hmem (k : SessionMetadata ⊕ Bytes × Bytes)
      (hk : k ∈ t.inputs (anonHasher P) ++ (climbedPairs P proof).map Sum.inr) :
      anonInput P k ∈ hashedInputs P sessions proof := by
    refine List.mem_map_of_mem ?_
    rw [ht]
    simpa using hk
  rw [apply_anonHasher, apply_anonHasher] at h
  exact hfree (hmem i (List.mem_append_left _ hi)) (hmem j hj) (Vector.toList_inj.mp h)

theorem separated_of_length {start : Bytes} {decoded : List (Bytes × Bool)} (hstart : start.length = 64)
    (hclimbed : climbedPairs P proof = climbPairs (anonNodeHash P .current) start decoded) :
    ∀ i ∈ t.inputs (anonHasher P), ∀ pair ∈ climbPairs (anonNodeHash P .current) start decoded,
      (anonHasher P).apply i = anonNodeHash P .current pair.1 pair.2 → i = .inr pair := by
  intro i hi pair hpair hsame
  have hinput := input_eq_of_apply_eq hfree ht hi (j := .inr pair)
    (List.mem_append_right _ (List.mem_map_of_mem (hclimbed ▸ hpair))) hsame
  cases i with
  | inl s => exact absurd hinput (anonLeafInput_ne_anonNodeInput _ _)
  | inr pair' =>
    have hlen' := HashTree.forall_pair_of_inputs (Q := fun h => h.length = 64)
      (fun input => by rw [apply_anonHasher, length_hashBytes_current]) t pair' hi
    have hlen := HashTree.forall_climbPairs (Q := fun h => h.length = 64)
      (fun x y => length_hashBytes_current _) hstart decoded pair hpair
    exact congrArg Sum.inr (anonNodeInput_inj hlen' hlen hinput)

theorem eq_leaf_of_hash_eq {path : List Bool} {sub : HashTree SessionMetadata} (hsub : t.descend path = some sub)
    {s : SessionMetadata} (hs : s ∈ t.leaves) (h : sub.hash (anonHasher P) = anonLeafHash P .current (blindedBytes P s)) :
    ∃ s', sub = .leaf s' := by
  cases sub with
  | leaf s' => exact ⟨s', rfl⟩
  | node left right =>
    have hinput := input_eq_of_apply_eq hfree ht (HashTree.inputs_descend hsub _ List.mem_cons_self)
      (List.mem_append_left _ (HashTree.inl_mem_inputs hs)) h
    exact absurd hinput.symm (anonLeafInput_ne_anonNodeInput _ _)

end Free
variable {s : SessionMetadata}

theorem leaves_anonTree (ht : anonTree P sessions = some t) :
    t.leaves = sortedSessions P sessions := by
  rw [HashTree.leaves_build ht, HashTree.flatMap_leaves_map_leaf]

theorem descend_sides_anonTree (ht : anonTree P sessions = some t) {i : Nat} (h : (sortedSessions P sessions)[i]? = some s) :
    t.descend (sides sessions.length i).reverse = some (.leaf s) := by
  have hleaf : ((sortedSessions P sessions).map HashTree.leaf)[i]? = some (.leaf s) := by rw [List.getElem?_map, h]; rfl
  have hdescend := HashTree.descend_sides ht hleaf
  rwa [List.length_map, length_sortedSessions] at hdescend

theorem sides_of_descend_anonTree (ht : anonTree P sessions = some t) {path : List Bool}
    (h : t.descend path = some (.leaf s)) :
    ∃ i, (sortedSessions P sessions)[i]? = some s ∧ path = (sides sessions.length i).reverse := by
  obtain ⟨i, sub, rest, hsub, rfl, hrest⟩ := HashTree.sides_of_descend ht h
  rw [List.getElem?_map] at hsub
  obtain ⟨s', hs', rfl⟩ := Option.map_eq_some_iff.mp hsub
  rw [List.length_map, length_sortedSessions]
  cases rest with
  | nil =>
    obtain rfl := HashTree.leaf.inj (Option.some.inj hrest)
    exact ⟨i, hs', List.append_nil _⟩
  | cons side rest => cases hrest

/-- An accepted proof shows its leaf at its index, and the size, exactly if the size is the number of sessions, the leaf
is as long as a hash, and the sides of the steps are those of a leaf that is equal to the one at the index. -/
theorem member_iff_sides (P : Platform) (sessions : List SessionMetadata) (target : String)
    (honest proof : AnonymousMembershipProof) (hhonest : buildAnonymousMembershipProof P sessions target = .ok honest)
    (hroot : proof.membershipRoot = honest.membershipRoot)
    (hfree : Set.InjOn P.sha512 {input | input ∈ hashedInputs P sessions proof})
    (hverified : verifyAnonymousMembershipProof P proof = .ok true) :
    (∃ leaf, hexDecodeVar proof.leafHash = .ok leaf ∧
        (sortedLeaves P sessions)[proof.leafIndex.toNat]? = some leaf) ∧ proof.treeSize.toNat = sessions.length ↔
      proof.treeSize.toNat = sessions.length ∧ (utf8 proof.leafHash).length = 128 ∧
        ∃ i < sessions.length, proof.steps.map (·.siblingIsLeft) = sides sessions.length i ∧
          (sortedLeaves P sessions)[i]? = (sortedLeaves P sessions)[proof.leafIndex.toNat]? := by
  obtain ⟨t, ht, hhash⟩ := membershipRoot_of_build hhonest
  obtain ⟨start, decoded, hstart, hsides, hclimbed, hclimb⟩ := climb_of_verify (hroot.trans hhash) hverified
  have hlength := length_of_hexDecodeVar hstart
  -- a value as long as a hash is climbed with the algorithm of the tree
  have hreach (hlong : start.length = 64) :
      ∃ sub, t.descend (proof.steps.map (·.siblingIsLeft)).reverse = some sub ∧ sub.hash (anonHasher P) = start := by
    have halgo : proofAlgorithm proof = .current := if_pos (by omega)
    rw [halgo] at hclimbed hclimb
    rw [← hsides]
    exact HashTree.descend_of_climb (separated_of_length hfree ht hlong hclimbed) hclimb.symm
  constructor
  · rintro ⟨⟨leaf, hleaf, hindex⟩, hsize⟩
    obtain rfl := Except.ok.inj (hstart.symm.trans hleaf)
    obtain ⟨s, hs, rfl⟩ := Option.map_eq_some_iff.mp (List.getElem?_map ▸ hindex)
    have hlong : (anonLeafHash P .current (blindedBytes P s)).length = 64 := length_hashBytes_current _
    obtain ⟨sub, hsub, hsubhash⟩ := hreach hlong
    have hmem : s ∈ t.leaves := leaves_anonTree ht ▸ List.mem_of_getElem? hs
    obtain ⟨s', rfl⟩ := eq_leaf_of_hash_eq hfree ht hsub hmem hsubhash
    obtain ⟨i, hi, hpath⟩ := sides_of_descend_anonTree ht hsub
    refine ⟨hsize, by omega, i, ?_, List.reverse_injective hpath, ?_⟩
    · rw [← length_sortedSessions (P := P)]
      exact (List.getElem?_eq_some_iff.mp hi).1
    · rw [hindex, sortedLeaves, List.getElem?_map, hi]
      exact congrArg some hsubhash
  · rintro ⟨hsize, hlong, i, hi, hpath, hsame⟩
    obtain ⟨sub, hsub, hsubhash⟩ := hreach (by omega)
    have hi' : i < (sortedSessions P sessions).length := by rwa [length_sortedSessions]
    have hat := descend_sides_anonTree ht (List.getElem?_eq_getElem hi')
    rw [hpath, hat] at hsub
    obtain rfl := Option.some.inj hsub
    refine ⟨⟨start, hstart, ?_⟩, hsize⟩
    rw [← hsame, sortedLeaves, List.getElem?_map, List.getElem?_eq_getElem hi']
    exact congrArg some hsubhash

/-! ### Another index, another size, and the root as a leaf -/

section Pair

def sessionA : SessionMetadata := ⟨"a", 1⟩
def sessionB : SessionMetadata := ⟨"b", 2⟩

def leafA : Bytes := anonLeafHash .reference .current (blindedBytes .reference sessionA)
def leafB : Bytes := anonLeafHash .reference .current (blindedBytes .reference sessionB)
def rootAB : Bytes := anonNodeHash .reference .current leafA leafB

def proofA : AnonymousMembershipProof := ⟨hexEncode rootAB, hexEncode leafA, 2, 0, [⟨hexEncode leafB, false⟩]⟩

/-- The proof with another size and index. -/
def proofElsewhere : AnonymousMembershipProof := { proofA with treeSize := 100, leafIndex := 7 }

def proofOfRoot : AnonymousMembershipProof := { proofA with leafHash := hexEncode rootAB, steps := [] }

theorem sortedSessions_pair :
    sortedSessions .reference [sessionA, sessionB] = [sessionA, sessionB] := by
  refine List.mergeSort_of_pairwise ?_
  simp only [List.pairwise_cons, List.mem_singleton, forall_eq, List.not_mem_nil, false_implies, implies_true,
    List.Pairwise.nil, and_true, decide_eq_true_eq]
  have hdigits : ¬ (hashBytes .reference .current (utf8 ("agenthalo.attestation.blind.v1:" ++ "b"))).flatMap
      Text.hexByte < (hashBytes .reference .current (utf8 ("agenthalo.attestation.blind.v1:" ++ "a"))).flatMap
        Text.hexByte := by decide
  rwa [← String.not_lt, String.lt_iff, blindedSessionReference, blindedSessionReference, hashHex, hashHex, hexEncode,
    hexEncode, String.toList_ofList, String.toList_ofList]

theorem sortedLeaves_pair : sortedLeaves .reference [sessionA, sessionB] = [leafA, leafB] := by
  rw [sortedLeaves, sortedSessions_pair]
  rfl

theorem build_pair : buildAnonymousMembershipProof .reference [sessionA, sessionB]
    (blindedSessionReference .reference "a") = .ok proofA := by
  refine buildAnonymousMembershipProof_eq_ok.mpr ⟨by simp, blindedBytes .reference sessionA, 0, rootAB,
    hexDecodeVar_hexEncode (hashBytes_current_ne_nil _), ?_, ?_, ?_⟩
  · rw [sortedLeaves_pair, List.findIdx?_cons, show anonLeafHash .reference .current
      (blindedBytes .reference sessionA) = leafA from rfl, beq_self_eq_true, if_pos rfl]
  · rw [sortedLeaves_pair, HashTree.root_of_lt (by simp), HashTree.root_of_le (by simp)]
    rfl
  · rw [sortedLeaves_pair, anonSteps, if_neg (by simp), anonSteps, if_pos (by simp)]
    rfl

theorem anonTree_pair : anonTree .reference [sessionA, sessionB] =
    some (.node (.leaf sessionA) (.leaf sessionB)) := by
  rw [anonTree, sortedSessions_pair, HashTree.build_of_lt (by simp), HashTree.build_of_le (by simp)]
  rfl

theorem hexDecodeVar_leafA : hexDecodeVar (hexEncode leafA) = .ok leafA := hexDecodeVar_hexEncode (hashBytes_current_ne_nil _)

theorem hexDecodeVar_leafB : hexDecodeVar (hexEncode leafB) = .ok leafB := hexDecodeVar_hexEncode (hashBytes_current_ne_nil _)

theorem hexDecodeVar_rootAB : hexDecodeVar (hexEncode rootAB) = .ok rootAB :=
  hexDecodeVar_hexEncode (hashBytes_current_ne_nil _)

theorem proofAlgorithm_proofA : proofAlgorithm proofA = .current := by
  unfold proofAlgorithm proofA
  rw [Text.utf8_hexEncode_length, leafA, anonLeafHash, length_hashBytes_current]
  rfl

theorem climbedPairs_leafA (proof : AnonymousMembershipProof) (hleaf : proof.leafHash = hexEncode leafA)
    (hsteps : proof.steps = [⟨hexEncode leafB, false⟩]) :
    climbedPairs .reference proof = [(leafA, leafB)] := by
  have hdecoded : decodedSteps proof.steps = .ok [(leafB, false)] := by
    unfold decodedSteps
    rw [hsteps, List.mapM_cons, hexDecodeVar_leafB]
    rfl
  rw [climbedPairs_of_decoded (hleaf ▸ hexDecodeVar_leafA) hdecoded, HashTree.climbPairs, HashTree.climbPairs]
  rfl

theorem climbedPairs_proofOfRoot : climbedPairs .reference proofOfRoot = [] := by
  have hdecoded : decodedSteps proofOfRoot.steps = .ok [] := rfl
  rw [climbedPairs_of_decoded (show hexDecodeVar proofOfRoot.leafHash = .ok rootAB from hexDecodeVar_rootAB) hdecoded,
    HashTree.climbPairs]

theorem verify_proofElsewhere : verifyAnonymousMembershipProof .reference proofElsewhere = .ok true := by
  have hclimb : climbStep .reference .current leafA ⟨hexEncode leafB, false⟩ = .ok rootAB := by
    unfold climbStep
    rw [hexDecodeVar_leafB]
    rfl
  refine verifyAnonymousMembershipProof_of_climb hexDecodeVar_leafA ?_ rfl
  rw [show proofAlgorithm proofElsewhere = .current from proofAlgorithm_proofA,
    show proofElsewhere.steps = [⟨hexEncode leafB, false⟩] from rfl, List.foldlM_cons, hclimb]
  rfl

theorem verify_proofOfRoot : verifyAnonymousMembershipProof .reference proofOfRoot = .ok true :=
  verifyAnonymousMembershipProof_of_climb hexDecodeVar_rootAB rfl rfl

theorem injOn_inputs_pair : Set.InjOn (Reference.digest 64)
    {input | input ∈ [anonLeafInput (blindedBytes .reference sessionA),
      anonLeafInput (blindedBytes .reference sessionB), anonNodeInput (leafA, leafB)]} := by
  have hleaves : Reference.digest 64 (anonLeafInput (blindedBytes .reference sessionA)) ≠
      Reference.digest 64 (anonLeafInput (blindedBytes .reference sessionB)) := by decide
  have hnodeA : Reference.digest 64 (anonLeafInput (blindedBytes .reference sessionA)) ≠
      Reference.digest 64 (anonNodeInput (leafA, leafB)) := by decide
  have hnodeB : Reference.digest 64 (anonLeafInput (blindedBytes .reference sessionB)) ≠
      Reference.digest 64 (anonNodeInput (leafA, leafB)) := by decide
  intro a ha b hb hsame
  simp only [Set.mem_ofPred_eq, List.mem_cons, List.not_mem_nil, or_false] at ha hb
  rcases ha with rfl | rfl | rfl <;> rcases hb with rfl | rfl | rfl
  · rfl
  · exact absurd hsame hleaves
  · exact absurd hsame hnodeA
  · exact absurd hsame.symm hleaves
  · rfl
  · exact absurd hsame hnodeB
  · exact absurd hsame.symm hnodeA
  · exact absurd hsame.symm hnodeB
  · rfl

theorem injOn_hashedInputs_pair {proof : AnonymousMembershipProof}
    (hclimbed : ∀ pair ∈ climbedPairs .reference proof, pair = (leafA, leafB)) :
    Set.InjOn Platform.reference.sha512 {input | input ∈ hashedInputs .reference [sessionA, sessionB] proof} := by
  refine injOn_inputs_pair.mono ?_
  intro input hinput
  rw [Set.mem_ofPred_eq, hashedInputs, anonTree_pair] at hinput
  obtain ⟨i, hi, rfl⟩ := List.mem_map.mp hinput
  rcases List.mem_append.mp hi with htree | hpair
  · have hcases : i = .inr (leafA, leafB) ∨ i = .inl sessionA ∨ i = .inl sessionB := by
      simpa [HashTree.inputs, HashTree.hash, leafA, leafB, anonHasher] using htree
    rcases hcases with rfl | rfl | rfl <;> simp [anonInput]
  · obtain ⟨pair, hmem, rfl⟩ := List.mem_map.mp hpair
    rw [hclimbed pair hmem]
    simp [anonInput]

theorem member_iff_sides_proofA :
    (∃ leaf, hexDecodeVar proofA.leafHash = .ok leaf ∧
        (sortedLeaves .reference [sessionA, sessionB])[proofA.leafIndex.toNat]? = some leaf) ∧
        proofA.treeSize.toNat = [sessionA, sessionB].length ↔
      proofA.treeSize.toNat = [sessionA, sessionB].length ∧ (utf8 proofA.leafHash).length = 128 ∧
        ∃ i < [sessionA, sessionB].length, proofA.steps.map (·.siblingIsLeft) = sides [sessionA, sessionB].length i ∧
          (sortedLeaves .reference [sessionA, sessionB])[i]? =
            (sortedLeaves .reference [sessionA, sessionB])[proofA.leafIndex.toNat]? :=
  member_iff_sides .reference [sessionA, sessionB] (blindedSessionReference .reference "a") proofA proofA
    build_pair rfl (injOn_hashedInputs_pair (by simp [climbedPairs_leafA proofA rfl rfl])) verify_proofElsewhere

/-- A proof for index 7 of a hundred sessions is accepted where there are two, and so is the root as a leaf. -/
theorem accepted_elsewhere_and_root :
    (Set.InjOn Platform.reference.sha512
        {input | input ∈ hashedInputs .reference [sessionA, sessionB] proofElsewhere} ∧
      verifyAnonymousMembershipProof .reference proofElsewhere = .ok true ∧
      proofElsewhere.treeSize.toNat ≠ [sessionA, sessionB].length ∧
      (sortedLeaves .reference [sessionA, sessionB])[proofElsewhere.leafIndex.toNat]? = none) ∧
    Set.InjOn Platform.reference.sha512
        {input | input ∈ hashedInputs .reference [sessionA, sessionB] proofOfRoot} ∧
      verifyAnonymousMembershipProof .reference proofOfRoot = .ok true ∧
      hexDecodeVar proofOfRoot.leafHash = .ok rootAB ∧
      rootAB ∉ sortedLeaves .reference [sessionA, sessionB] ∧
      ∃ honest, buildAnonymousMembershipProof .reference [sessionA, sessionB]
          (blindedSessionReference .reference "a") = .ok honest ∧
        honest.membershipRoot = proofElsewhere.membershipRoot ∧ honest.membershipRoot = proofOfRoot.membershipRoot := by
  rw [sortedLeaves_pair]
  have hnotLeaf : rootAB ∉ [leafA, leafB] := by decide
  exact ⟨⟨injOn_hashedInputs_pair (by simp [climbedPairs_leafA proofElsewhere rfl rfl]), verify_proofElsewhere, by decide, rfl⟩,
    injOn_hashedInputs_pair (by simp [climbedPairs_proofOfRoot]), verify_proofOfRoot, hexDecodeVar_rootAB, hnotLeaf,
    proofA, build_pair, rfl, rfl⟩

end Pair

end AgentHalo.Attest
