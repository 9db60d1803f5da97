import AgentHalo.Attest.Membership
import AgentHalo.Credential.Membership

/-!
# Paths of members

Both trees give every member a path that is accepted. The tree of credentials pairs a last node without a partner with
itself, and the verifier is led by the index. The tree of sessions promotes such a node and has no step for it, and the
verifier is led by the sides of the steps. A step of a path and a layer of the tree go together.
-/

namespace AgentHalo.Attest

open Credential (merklePath merkleRoot verifyMerkleMembership)
open HashTree (root root_of_le root_of_lt)
open Text (hexEncode)

variable {P : Platform}

variable {level : List Bytes} {sessions : List SessionMetadata}

theorem pairUp_ne_nil (hfull : ∀ y ∈ level, y ≠ []) :
    ∀ y ∈ Layers.pairUp (anonNodeHash P .current) level, y ≠ [] := by
  induction level using Layers.pairUp.induct with
  | case1 => exact hfull
  | case2 x => exact hfull
  | case3 x y rest ih =>
    intro z hz
    rcases List.mem_cons.mp hz with rfl | hz
    · exact hashBytes_current_ne_nil _
    · exact ih (fun w hw => hfull w (List.mem_cons_of_mem _ (List.mem_cons_of_mem _ hw))) z hz

theorem climbStep_hexEncode {sibling : Bytes} (hne : sibling ≠ []) (acc : Bytes) (siblingIsLeft : Bool) :
    climbStep P .current acc ⟨hexEncode sibling, siblingIsLeft⟩ =
      .ok (if siblingIsLeft then anonNodeHash P .current sibling acc else anonNodeHash P .current acc sibling) := by
  unfold climbStep
  rw [hexDecodeVar_hexEncode hne]
  rfl

/-- The steps that are collected lead from the leaf to the root. The induction is on the layers: a step leads to the node
above in the next layer. -/
theorem foldlM_anonSteps {i : Nat} {x : Bytes} (hfull : ∀ y ∈ level, y ≠ []) (hx : level[i]? = some x) :
    ∃ acc, (anonSteps P level i).foldlM (climbStep P .current) x = .ok acc ∧
      root (anonNodeHash P .current) level = some acc := by
  induction level, i using anonSteps.induct P generalizing x with
  | case1 level i hle =>
    obtain ⟨hi, -⟩ := List.getElem?_eq_some_iff.mp hx
    refine ⟨x, ?_, ?_⟩
    · rw [anonSteps, if_pos hle]
      rfl
    · rw [root_of_le hle, List.head?_eq_getElem?, ← hx, show i = 0 by omega]
  | case2 level i hlt ih =>
    rw [not_le] at hlt
    obtain ⟨hi, -⟩ := List.getElem?_eq_some_iff.mp hx
    rw [anonSteps, if_neg (by omega), root_of_lt hlt, List.foldlM_append]
    -- each kind of position: where its step leads is in the next layer
    have hup {y : Bytes} (hy : (Layers.pairUp (anonNodeHash P .current) level)[i / 2]? = some y)
        {steps : List AnonymousMembershipStep} (hsteps : steps.foldlM (climbStep P .current) x = .ok y) :
        ∃ acc, (steps.foldlM (climbStep P .current) x >>= fun y =>
            (anonSteps P (Layers.pairUp (anonNodeHash P .current) level) (i / 2)).foldlM (climbStep P .current) y) = .ok acc ∧
          root (anonNodeHash P .current) (Layers.pairUp (anonNodeHash P .current) level) = some acc := by
      obtain ⟨acc, hfold, hroot⟩ := ih (pairUp_ne_nil hfull) hy
      refine ⟨acc, ?_, hroot⟩
      rw [hsteps]
      exact hfold
    rcases Nat.mod_two_eq_zero_or_one i with heven | hodd
    · rw [if_pos heven]
      have htwice : 2 * (i / 2) = i := by omega
      cases hsibling : level[i + 1]? with
      | some sibling =>
        have hparent := Layers.pairUp_getElem?_pair (anonNodeHash P .current) level (i / 2) x sibling (by rwa [htwice])
          (by rwa [htwice])
        refine hup hparent ?_
        rw [Option.map_some, Option.toList_some, List.foldlM_cons,
          climbStep_hexEncode (hfull sibling (List.mem_of_getElem? hsibling))]
        rfl
      | none =>
        have hlast := Layers.pairUp_getElem?_last (anonNodeHash P .current) level (i / 2)
          (by have := List.getElem?_eq_none_iff.mp hsibling; omega)
        rw [htwice, hx] at hlast
        exact hup hlast rfl
    · rw [if_neg (by omega)]
      have htwice : 2 * (i / 2) = i - 1 := by omega
      have hnext : i - 1 + 1 = i := by omega
      obtain ⟨sibling, hsibling⟩ : ∃ sibling, level[i - 1]? = some sibling :=
        ⟨_, List.getElem?_eq_getElem (Nat.lt_of_le_of_lt (Nat.sub_le i 1) hi)⟩
      have hparent := Layers.pairUp_getElem?_pair (anonNodeHash P .current) level (i / 2) sibling x
        (by rwa [htwice]) (by rwa [htwice, hnext])
      refine hup hparent ?_
      rw [hsibling, Option.map_some, Option.toList_some, List.foldlM_cons,
        climbStep_hexEncode (hfull sibling (List.mem_of_getElem? hsibling))]
      rfl

theorem verify_of_build {target : String} {proof : AnonymousMembershipProof}
    (h : buildAnonymousMembershipProof P sessions target = .ok proof) :
    verifyAnonymousMembershipProof P proof = .ok true := by
  obtain ⟨-, targetBytes, index, rootHash, -, hindex, hroot, rfl⟩ := buildAnonymousMembershipProof_eq_ok.mp h
  obtain ⟨hlt, hfound, -⟩ := List.findIdx?_eq_some_iff_getElem.mp hindex
  have hleaf : (sortedLeaves P sessions)[index]? = some (anonLeafHash P .current targetBytes) := by
    rw [List.getElem?_eq_getElem hlt, beq_iff_eq.mp hfound]
  have hfull : ∀ y ∈ sortedLeaves P sessions, y ≠ [] := by
    intro y hy
    obtain ⟨s, -, rfl⟩ := List.mem_map.mp hy
    exact hashBytes_current_ne_nil _
  obtain ⟨acc, hfold, hacc⟩ := foldlM_anonSteps hfull hleaf
  obtain rfl := Option.some.inj (hroot.symm.trans hacc)
  refine verifyAnonymousMembershipProof_of_climb (hexDecodeVar_hexEncode (hashBytes_current_ne_nil _)) ?_ rfl
  refine Eq.trans (congrArg (fun algo => List.foldlM (climbStep P algo) _ _) (if_pos ?_)) hfold
  rw [Text.utf8_hexEncode_length, anonLeafHash, length_hashBytes_current]
  decide

theorem exists_build {s : SessionMetadata} (hs : s ∈ sessions) :
    ∃ proof, buildAnonymousMembershipProof P sessions (blindedSessionReference P s.sessionId) = .ok proof := by
  have hmem : s ∈ sortedSessions P sessions := List.mem_mergeSort.mpr hs
  have hdecode : hexDecodeVar (blindedSessionReference P s.sessionId) = .ok (blindedBytes P s) :=
    hexDecodeVar_hexEncode (hashBytes_current_ne_nil _)
  have hindex : ((sortedLeaves P sessions).findIdx? (· == anonLeafHash P .current (blindedBytes P s))).isSome := by
    rw [List.findIdx?_isSome, List.any_eq_true]
    exact ⟨_, List.mem_map_of_mem hmem, beq_self_eq_true _⟩
  obtain ⟨index, hindex⟩ := Option.isSome_iff_exists.mp hindex
  have hroot : (root (anonNodeHash P .current) (sortedLeaves P sessions)).isSome := by
    have htree := HashTree.root_map_hash (anonHasher P) ((sortedSessions P sessions).map .leaf)
    rw [map_hash_sortedSessions] at htree
    rw [show anonNodeHash P .current = (anonHasher P).node from rfl, htree, Option.isSome_map]
    refine HashTree.build_isSome fun hnil => ?_
    rw [List.map_eq_nil_iff] at hnil
    rw [hnil] at hmem
    cases hmem
  obtain ⟨rootHash, hroot⟩ := Option.isSome_iff_exists.mp hroot
  exact ⟨_, buildAnonymousMembershipProof_eq_ok.mpr
    ⟨List.ne_nil_of_mem hs, _, index, rootHash, hdecode, hindex, hroot, rfl⟩⟩

/-- **Paths are complete**: every member of a list of leaves has a path that is accepted, and every session of a list has a
proof that is accepted. -/
theorem paths_complete (P : Platform) :
    (∀ (leaves : List NodeHash) (i : UInt64) (leaf : NodeHash), leaves[i.toNat]? = some leaf →
      ∃ path, merklePath P leaves i.toNat = .ok path ∧
        verifyMerkleMembership P leaf path i (merkleRoot P leaves) = true) ∧
    ∀ (sessions : List SessionMetadata), ∀ s ∈ sessions,
      ∃ proof, buildAnonymousMembershipProof P sessions (blindedSessionReference P s.sessionId) = .ok proof ∧
        verifyAnonymousMembershipProof P proof = .ok true := by
  refine ⟨fun leaves i leaf hleaf => ?_, fun sessions s hs => ?_⟩
  · obtain ⟨hi, -⟩ := List.getElem?_eq_some_iff.mp hleaf
    have hpath : merklePath P leaves i.toNat = .ok (Paired.path (Credential.merkleNode P) leaves i.toNat) := by
      unfold merklePath
      rw [if_neg, if_neg (Nat.not_le.mpr hi)]
      rw [List.isEmpty_iff]
      exact List.ne_nil_of_mem (List.mem_of_getElem? hleaf)
    exact ⟨_, hpath, Credential.verifyMerkleMembership_merklePath hpath hleaf⟩
  · obtain ⟨proof, hproof⟩ := exists_build hs
    exact ⟨proof, hproof, verify_of_build hproof⟩

end AgentHalo.Attest
