import AgentHalo.Credential.Proof
import AgentHalo.Lib.Paired

/-!
# Group membership

The members of a group are the leaves of a hash tree whose odd layers repeat their last node. The check climbs the given
path and compares with the root. It knows neither the number of leaves nor the depth, so it accepts inner nodes under
shorter paths and indices beyond the leaves; and the root is that of a list whose last leaf is repeated.
-/

namespace AgentHalo.Credential

open Outcome Text
open Paired (treePairs)

def credentialMerkleDomain : String := "agenthalo.zk_credential.merkle.v1"
def credentialMembershipDomain : String := "agenthalo.zk_credential.membership.v1"

variable (P : Platform)

def merkleParent (left right : NodeHash) : NodeHash :=
  digestBytes P credentialMerkleDomain (left.toList ++ right.toList)

def merkleNode (pair : NodeHash × NodeHash) : NodeHash := merkleParent P pair.1 pair.2

/-- The loop goes up while the level has more than one node; a last node without a partner is its own. -/
def merkleRoot (leaves : List NodeHash) : NodeHash :=
  (Paired.root (merkleNode P) leaves).getD (digestBytes P credentialMerkleDomain (utf8 "empty"))

def merklePath (leaves : List NodeHash) (index : Nat) : Except String (List NodeHash) :=
  if leaves.isEmpty then .error "cannot build Merkle path for empty leaf set"
  else if leaves.length ≤ index then
    .error ("member index out of range: " ++ toString index ++ " >= " ++ toString leaves.length)
  else .ok (Paired.path (merkleNode P) leaves index)

def verifyMerkleMembership (leaf : NodeHash) (path : List NodeHash) (index : UInt64) (root : NodeHash) : Bool :=
  Paired.climb (merkleNode P) leaf path index.toNat == root

def membershipCommitmentHex (didHash root : NodeHash) (merkleIndex : UInt64) (path : List NodeHash) : String :=
  hexEncode (digestBytes P credentialMembershipDomain
    (didHash.toList ++ root.toList ++ toLeBytes merkleIndex ++ path.flatMap Vector.toList)).toList

structure AnonymousCredentialProofBundle where
  credentialProof : CredentialProofBundle
  merkleRootHash : String
  membershipCommitmentHash : String
  leafDidHash : String
  merklePath : List String
  merkleIndex : UInt64
  schemaVersion : UInt32

def verifyAnonymousMembershipProof {p : Nat} (G : Groth16 p) (bundle : AnonymousCredentialProofBundle) :
    Except String Bool := do
  require (bundle.schemaVersion == credentialSchemaVersion)
    ("anonymous credential schema mismatch: expected " ++ toString credentialSchemaVersion ++ ", got " ++
      toString bundle.schemaVersion)
  let root ← hexDecode32 bundle.merkleRootHash
  let membershipCommitment ← hexDecode32 bundle.membershipCommitmentHash
  let leaf ← hexDecode32 bundle.leafDidHash
  if bundle.credentialProof.granteeDidHash ≠ bundle.leafDidHash then return false
  let path ← bundle.merklePath.mapM hexDecode32
  if !verifyMerkleMembership P leaf path bundle.merkleIndex root then return false
  let recomputed ← hexDecode32 (membershipCommitmentHex P leaf root bundle.merkleIndex path)
  if recomputed ≠ membershipCommitment then return false
  verifyCredentialProof G bundle.credentialProof

/-- A leaf is the hash of a member's DID. -/
def didHash (did : String) : NodeHash := digestBytes P credentialDidHashDomain (utf8 did)

/-! ### Hashes that do not collide -/

def didInput (did : String) : Bytes := utf8 credentialDidHashDomain ++ [0] ++ utf8 did

def merkleInput (pair : NodeHash × NodeHash) : Bytes :=
  utf8 credentialMerkleDomain ++ [0] ++ (pair.1.toList ++ pair.2.toList)

/-- No two of the members and pairs have one hash. -/
def CollisionFree (dids : List String) (pairs : List (NodeHash × NodeHash)) : Prop :=
  Set.InjOn P.sha256 {input | input ∈ dids.map didInput ++ pairs.map merkleInput}

theorem merkleInput_inj {pair pair' : NodeHash × NodeHash} (h : merkleInput pair = merkleInput pair') : pair = pair' := by
  obtain ⟨hfst, hsnd⟩ := List.append_inj (List.append_cancel_left h) (by simp)
  exact Prod.ext (Vector.toList_inj.mp hfst) (Vector.toList_inj.mp hsnd)

theorem didInput_ne_merkleInput (did : String) (pair : NodeHash × NodeHash) : didInput did ≠ merkleInput pair := by
  intro h
  have hdid : (didInput did)[24]? = some 100 := by
    unfold didInput
    rw [List.append_assoc, List.getElem?_append_left (by decide)]
    decide
  have hmerkle : (merkleInput pair)[24]? = some 109 := by
    unfold merkleInput
    rw [List.append_assoc, List.getElem?_append_left (by decide)]
    decide
  rw [h, hmerkle] at hdid
  exact absurd hdid (by decide)

variable {P}

section Hashes

variable {dids : List String} {pairs : List (NodeHash × NodeHash)} (hfree : CollisionFree P dids pairs)
include hfree

theorem CollisionFree.eq_of_merkleNode {pair pair' : NodeHash × NodeHash} (hpair : pair ∈ pairs) (hpair' : pair' ∈ pairs)
    (h : merkleNode P pair = merkleNode P pair') : pair = pair' :=
  merkleInput_inj (hfree (List.mem_append_right _ (List.mem_map_of_mem hpair))
    (List.mem_append_right _ (List.mem_map_of_mem hpair')) h)

theorem CollisionFree.merkleNode_notMem {pair : NodeHash × NodeHash} (hpair : pair ∈ pairs) :
    merkleNode P pair ∉ dids.map (didHash P) := by
  intro hmem
  obtain ⟨did, hdid, hsame⟩ := List.mem_map.mp hmem
  exact didInput_ne_merkleInput did pair (hfree (List.mem_append_left _ (List.mem_map_of_mem hdid))
    (List.mem_append_right _ (List.mem_map_of_mem hpair)) hsame)

end Hashes

theorem CollisionFree.separated {front back : List (NodeHash × NodeHash)} (hfree : CollisionFree P dids (front ++ back)) :
    Paired.Separated (merkleNode P) front back :=
  fun _ hp _ hq => hfree.eq_of_merkleNode (List.mem_append_left _ hp) (List.mem_append_right _ hq)

variable {leaves path : List NodeHash} {l : NodeHash} {i : UInt64}

theorem root_eq_of_verify (hne : leaves ≠ []) (h : verifyMerkleMembership P l path i (merkleRoot P leaves) = true) :
    Paired.root (merkleNode P) leaves = some (Paired.climb (merkleNode P) l path i.toNat) := by
  obtain ⟨root, hroot⟩ := Option.isSome_iff_exists.mp (Paired.root_isSome (merkleNode P) hne)
  rw [verifyMerkleMembership, merkleRoot, hroot, Option.getD_some, beq_iff_eq] at h
  rw [hroot, h]

theorem verifyMerkleMembership_merklePath
    (hpath : merklePath P leaves i.toNat = .ok path) (hl : leaves[i.toNat]? = some l) :
    verifyMerkleMembership P l path i (merkleRoot P leaves) = true := by
  unfold merklePath at hpath
  split at hpath
  · cases hpath
  split at hpath
  · cases hpath
  obtain rfl := Except.ok.inj hpath
  rw [verifyMerkleMembership, merkleRoot, Paired.root_eq_climb_path hl, Option.getD_some, beq_self_eq_true]

theorem merkleRoot_append_last (l : NodeHash) (heven : leaves.length % 2 = 0)
    (hne : leaves ≠ []) : merkleRoot P (leaves ++ [l, l]) = merkleRoot P (leaves ++ [l]) := by
  rw [merkleRoot, merkleRoot, Paired.root_append_last l heven hne]

/-! ### What an accepted path shows -/

theorem length_eq_of_getElem? (hne : dids ≠ [])
    (hfree : CollisionFree P dids (treePairs (merkleNode P) (dids.map (didHash P)) ++
      Paired.climbPairs (merkleNode P) l path i.toNat))
    (hverified : verifyMerkleMembership P l path i (merkleRoot P (dids.map (didHash P))) = true)
    (hl : l ∈ dids.map (didHash P)) : path.length = Paired.depth (dids.map (didHash P)).length := by
  have hroot := root_eq_of_verify (by simpa using hne) hverified
  rcases Nat.lt_trichotomy path.length (Paired.depth (dids.map (didHash P)).length) with hshort | hexact | hlong
  · obtain ⟨pair, hpair, rfl⟩ := Paired.exists_pair_of_climb_of_lt hshort hfree.separated hroot
    exact absurd hl (hfree.merkleNode_notMem (List.mem_append_left _ hpair))
  · exact hexact
  · obtain ⟨pair, hpair, hmem⟩ := Paired.exists_pair_mem_of_climb_of_lt hlong hfree.separated hroot
    exact absurd hmem (hfree.merkleNode_notMem (List.mem_append_right _ hpair))

/-- An accepted value is the member at the index exactly if the path has a sibling for every layer and the index is below
the number of members; and groups with one root are equal exactly if they have one size. -/
theorem member_iff_fullPath (P : Platform) (dids : List String) (hne : dids ≠ []) :
    (∀ (l : NodeHash) (path : List NodeHash) (i : UInt64),
      CollisionFree P dids (treePairs (merkleNode P) (dids.map (didHash P)) ++
        Paired.climbPairs (merkleNode P) l path i.toNat) →
      verifyMerkleMembership P l path i (merkleRoot P (dids.map (didHash P))) = true →
      ((dids.map (didHash P))[i.toNat]? = some l ↔
        path.length = Nat.clog 2 dids.length ∧ i.toNat < dids.length)) ∧
    (∀ dids' : List String, dids' ≠ [] →
      CollisionFree P (dids ++ dids') (treePairs (merkleNode P) (dids.map (didHash P)) ++
        treePairs (merkleNode P) (dids'.map (didHash P))) →
      merkleRoot P (dids.map (didHash P)) = merkleRoot P (dids'.map (didHash P)) →
      (dids.map (didHash P) = dids'.map (didHash P) ↔ dids.length = dids'.length)) := by
  have hleaves (dids : List String) (h : dids ≠ []) : dids.map (didHash P) ≠ [] := by simpa using h
  refine ⟨fun l path i hfree hverified => ⟨fun hl => ?_, fun ⟨hlen, hi⟩ => ?_⟩, fun dids' hne' hfree hroot => ⟨fun h => ?_,
    fun hlen => ?_⟩⟩
  · obtain ⟨hi, -⟩ := List.getElem?_eq_some_iff.mp hl
    rw [List.length_map] at hi
    have hlen := length_eq_of_getElem? hne hfree hverified (List.mem_of_getElem? hl)
    rw [List.length_map, Paired.depth_eq_clog] at hlen
    exact ⟨hlen, hi⟩
  · rw [← Paired.depth_eq_clog] at hlen
    exact Paired.getElem?_of_climb (by rwa [List.length_map]) (by rwa [List.length_map]) hfree.separated
      (root_eq_of_verify (hleaves dids hne) hverified)
  · simpa using congrArg List.length h
  · obtain ⟨root, hsome⟩ := Option.isSome_iff_exists.mp (Paired.root_isSome (merkleNode P) (hleaves dids hne))
    obtain ⟨root', hsome'⟩ := Option.isSome_iff_exists.mp (Paired.root_isSome (merkleNode P) (hleaves dids' hne'))
    rw [merkleRoot, merkleRoot, hsome, hsome', Option.getD_some, Option.getD_some] at hroot
    exact Paired.eq_of_root_eq (by rwa [List.length_map, List.length_map]) hfree.separated (by rw [hsome, hsome', hroot])

/-! ### An inner node, an index beyond the members, and a member listed twice -/

section Trio

/-- A hash under which nothing collides that is hashed here. -/
def mixedDigest (input : Bytes) : NodeHash :=
  let mixed : UInt64 := input.foldl (fun acc b => acc * 1099511628211 + b.toUInt64 + 1) 0
  Vector.ofFn fun i => (toLeBytes mixed).getD i 0

def mixedPlatform : Platform := { Platform.reference with sha256 := mixedDigest }

def couple : List String := ["did:key:ada", "did:key:ben"]
def trio : List String := ["did:key:ada", "did:key:ben", "did:key:cyd"]
def trioTwice : List String := ["did:key:ada", "did:key:ben", "did:key:cyd", "did:key:cyd"]

def ada : NodeHash := didHash mixedPlatform "did:key:ada"
def ben : NodeHash := didHash mixedPlatform "did:key:ben"
def cyd : NodeHash := didHash mixedPlatform "did:key:cyd"

variable {H : Type*} (node : H × H → H) (a b c d : H)

theorem treePairs_two : treePairs node [a, b] = [(a, b)] := by
  rw [Paired.treePairs_of_lt (by simp), Paired.treePairs_of_le (by simp)]
  rfl

theorem treePairs_three :
    treePairs node [a, b, c] = [(a, b), (c, c), (node (a, b), node (c, c))] := by
  rw [Paired.treePairs_of_lt (by simp), show Paired.layer node [a, b, c] = [node (a, b), node (c, c)] from rfl, treePairs_two]
  rfl

theorem treePairs_four :
    treePairs node [a, b, c, d] = [(a, b), (c, d), (node (a, b), node (c, d))] := by
  rw [Paired.treePairs_of_lt (by simp), show Paired.layer node [a, b, c, d] = [node (a, b), node (c, d)] from rfl,
    treePairs_two]
  rfl

theorem treePairs_couple : treePairs (merkleNode mixedPlatform) (couple.map (didHash mixedPlatform)) = [(ada, ben)] :=
  treePairs_two _ _ _

theorem verify_ada_ben
    (h : Paired.climb (merkleNode mixedPlatform) l path i.toNat = merkleNode mixedPlatform (ada, ben)) :
    verifyMerkleMembership mixedPlatform l path i (merkleRoot mixedPlatform (couple.map (didHash mixedPlatform))) = true := by
  have hroot : merkleRoot mixedPlatform (couple.map (didHash mixedPlatform)) = merkleNode mixedPlatform (ada, ben) := by
    rw [merkleRoot, Paired.root_of_lt (by decide), Paired.root_of_le (by simp [couple])]
    rfl
  rw [verifyMerkleMembership, hroot, h, beq_self_eq_true]

theorem treePairs_trio : treePairs (merkleNode mixedPlatform) (trio.map (didHash mixedPlatform)) =
    [(ada, ben), (cyd, cyd), (merkleNode mixedPlatform (ada, ben), merkleNode mixedPlatform (cyd, cyd))] :=
  treePairs_three _ _ _ _

theorem collisionFree_mixed {dids : List String} {pairs : List (NodeHash × NodeHash)} (hdids : dids ⊆ trio)
    (hpairs : pairs ⊆ treePairs (merkleNode mixedPlatform) (trio.map (didHash mixedPlatform))) :
    CollisionFree mixedPlatform dids pairs := by
  rw [treePairs_trio] at hpairs
  have hnodup : ((trio.map didInput ++
      [(ada, ben), (cyd, cyd), (merkleNode mixedPlatform (ada, ben), merkleNode mixedPlatform (cyd, cyd))].map
        merkleInput).map mixedDigest).Nodup := by decide +kernel
  have hmem {input} (h : input ∈ dids.map didInput ++ pairs.map merkleInput) := (List.mem_append.mp h).imp
    (List.map_subset didInput hdids ·) (List.map_subset merkleInput hpairs ·)
  exact fun input hinput input' hinput' =>
    List.inj_on_of_nodup_map hnodup (List.mem_append.mpr (hmem hinput)) (List.mem_append.mpr (hmem hinput'))

theorem collisionFree_couple {climbed : List (NodeHash × NodeHash)} (h : climbed ⊆ [(ada, ben)]) :
    CollisionFree mixedPlatform couple
      (treePairs (merkleNode mixedPlatform) (couple.map (didHash mixedPlatform)) ++ climbed) := by
  rw [treePairs_couple]
  refine collisionFree_mixed (by decide) fun pair hpair => treePairs_trio ▸ List.mem_cons.mpr (.inl ?_)
  exact List.mem_singleton.mp (List.append_subset.mpr ⟨fun _ => id, h⟩ hpair)

theorem collisionFree_trio :
    CollisionFree mixedPlatform (trio ++ trioTwice)
      (treePairs (merkleNode mixedPlatform) (trio.map (didHash mixedPlatform)) ++
        treePairs (merkleNode mixedPlatform) (trioTwice.map (didHash mixedPlatform))) := by
  have htwice : treePairs (merkleNode mixedPlatform) (trioTwice.map (didHash mixedPlatform)) =
      treePairs (merkleNode mixedPlatform) (trio.map (didHash mixedPlatform)) :=
    (treePairs_four _ _ _ _ _).trans treePairs_trio.symm
  rw [htwice]
  exact collisionFree_mixed (by decide) (List.append_subset.mpr ⟨fun _ => id, fun _ => id⟩)

theorem merkleRoot_trio :
    merkleRoot mixedPlatform (trio.map (didHash mixedPlatform)) =
      merkleRoot mixedPlatform (trioTwice.map (didHash mixedPlatform)) := by
  have htwice : merkleRoot mixedPlatform ([ada, ben] ++ [cyd, cyd]) = merkleRoot mixedPlatform ([ada, ben] ++ [cyd]) :=
    merkleRoot_append_last cyd rfl (by simp)
  exact htwice.symm

theorem member_iff_fullPath_couple :
    ((couple.map (didHash mixedPlatform))[(1 : UInt64).toNat]? = some ben ↔
      [ada].length = Nat.clog 2 couple.length ∧ (1 : UInt64).toNat < couple.length) ∧
    (trio.map (didHash mixedPlatform) = trioTwice.map (didHash mixedPlatform) ↔ trio.length = trioTwice.length) :=
  ⟨(member_iff_fullPath mixedPlatform couple (by simp [couple])).1 ben [ada] 1
      (collisionFree_couple fun _ => id) (verify_ada_ben rfl),
    (member_iff_fullPath mixedPlatform trio (by simp [trio])).2 trioTwice (by simp [trioTwice]) collisionFree_trio
      merkleRoot_trio⟩

/-- The root counts as a member under the empty path, the first member as the third, and two groups have one root. -/
theorem accepted_not_member :
    (CollisionFree mixedPlatform couple (treePairs (merkleNode mixedPlatform) (couple.map (didHash mixedPlatform)) ++
        Paired.climbPairs (merkleNode mixedPlatform) (merkleNode mixedPlatform (ada, ben)) [] 0) ∧
      verifyMerkleMembership mixedPlatform (merkleNode mixedPlatform (ada, ben)) [] 0
        (merkleRoot mixedPlatform (couple.map (didHash mixedPlatform))) = true ∧
      merkleNode mixedPlatform (ada, ben) ∉ couple.map (didHash mixedPlatform)) ∧
    (CollisionFree mixedPlatform couple (treePairs (merkleNode mixedPlatform) (couple.map (didHash mixedPlatform)) ++
        Paired.climbPairs (merkleNode mixedPlatform) ada [ben] 2) ∧
      verifyMerkleMembership mixedPlatform ada [ben] 2 (merkleRoot mixedPlatform (couple.map (didHash mixedPlatform))) =
        true ∧
      couple.length ≤ 2) ∧
    CollisionFree mixedPlatform (trio ++ trioTwice)
        (treePairs (merkleNode mixedPlatform) (trio.map (didHash mixedPlatform)) ++
          treePairs (merkleNode mixedPlatform) (trioTwice.map (didHash mixedPlatform))) ∧
      merkleRoot mixedPlatform (trio.map (didHash mixedPlatform)) =
        merkleRoot mixedPlatform (trioTwice.map (didHash mixedPlatform)) ∧
      trio.map (didHash mixedPlatform) ≠ trioTwice.map (didHash mixedPlatform) := by
  refine ⟨⟨?_, verify_ada_ben rfl, by decide +kernel⟩, ⟨?_, verify_ada_ben rfl, le_rfl⟩, ?_, ?_, ?_⟩
  · exact collisionFree_couple (List.nil_subset _)
  · exact collisionFree_couple fun _ => id
  · exact collisionFree_trio
  · exact merkleRoot_trio
  · intro h
    simpa [trio, trioTwice] using congrArg List.length h

end Trio

end AgentHalo.Credential
