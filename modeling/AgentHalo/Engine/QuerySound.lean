import AgentHalo.Engine.CommitSpec
import AgentHalo.Engine.Query
import AgentHalo.Transparency.Inclusion

/-!
# Queries on the binary Merkle backend

An opening of the binary Merkle backend is an inclusion path for the leaf of an index and a value, checked against the
root of the current state. Whatever index, size, leaf and path an opening carries, it is accepted only for the value
that the state holds there, as long as the hashes it makes the verifier compute do not collide with those of the state
(`MerkleBinds`). There is one exception: on an empty state the check of the path is skipped.
-/

namespace AgentHalo.Engine

open Text (utf8)
open Transparency (hasher leafHash verifyInclusionProof Separated verifyInclusionProof_iff_of_separated
  inclusionLoop_of_inclusionPath exists_inclusionPath)

namespace Vc

variable (P : Platform)

def valuePayload (index : Nat) (value : UInt64) : Bytes :=
  utf8 ("nucleusdb.vc.binary_merkle.leaf.v1|idx=" ++ toString index ++ "|value=" ++ toString value)

variable {value : UInt64} {v : List UInt64} {i : Nat}

theorem valuePayload_inj {index : Nat} {value' : UInt64} (h : valuePayload index value = valuePayload index value') :
    value = value' := by
  have htext := Store.utf8_inj h
  rw [String.append_right_inj] at htext
  exact Text.toString_u64_inj htext

theorem valueLeaves_length (v : List UInt64) : (valueLeaves P v).length = v.length := by
  unfold valueLeaves
  rw [List.length_map, List.length_zipIdx]

theorem valueLeaves_getElem? (v : List UInt64) (i : Nat) : (valueLeaves P v)[i]? = v[i]?.map (valueLeaf P i) := by
  unfold valueLeaves
  rw [List.getElem?_map, List.getElem?_zipIdx]
  cases v[i]? with
  | none => rfl
  | some value => simp

/-- No hash of the state collides with one that checking this opening computes: not the leaf of the index with the leaf
of the claimed value, and no inner node of the tree with one on the way up. Injective hashes give it for every
opening. -/
structure MerkleBinds (v : List UInt64) (i : Nat) (value : UInt64) (p : MerkleProof) : Prop where
  leaf : ∀ stored, v[i]? = some stored →
    leafHash P (valuePayload i stored) = leafHash P (valuePayload i value) →
      valuePayload i stored = valuePayload i value
  node : Separated (hasher P) (valueLeaves P v) p.path p.leafHash p.index (p.treeSize - 1)

theorem merkleVerify_sound (hne : v ≠ []) {p : MerkleProof} (hbinds : MerkleBinds P v i value p)
    (h : merkleVerify P (binaryMerkleRoot P v) (valueLeaves P v).length i value p = true) : v[i]? = some value := by
  have hleaves : valueLeaves P v ≠ [] := by
    rw [← List.length_pos_iff, valueLeaves_length]
    exact List.length_pos_iff.mpr hne
  have hpos := List.length_pos_iff.mpr hleaves
  unfold merkleVerify at h
  by_cases hshape : p.index ≠ i ∨ p.treeSize ≠ (valueLeaves P v).length
  · rw [if_pos hshape] at h
    cases h
  rw [if_neg hshape] at h
  simp only [ne_eq, not_or, not_not] at hshape
  obtain ⟨hindex, hsize⟩ := hshape
  by_cases hleaf : p.leafHash ≠ valueLeaf P i value
  · rw [if_pos hleaf] at h
    cases h
  rw [if_neg hleaf, if_neg (by omega)] at h
  have hsep := hbinds.node
  rw [hsize] at hsep
  have haccepted := (verifyInclusionProof_iff_of_separated (hasher P) (valueLeaves P v) hleaves
    ⟨p.index, p.treeSize, p.leafHash, p.path⟩ hsize hsep).mp h
  obtain ⟨-, hat, -⟩ := haccepted
  rw [hindex, not_not.mp hleaf, valueLeaves_getElem?] at hat
  obtain ⟨stored, hstored, hsame⟩ := Option.map_eq_some_iff.mp hat
  rw [hstored, valuePayload_inj (hbinds.leaf stored hstored hsame)]

theorem merkleVerify_merkleOpen (hvalue : v[i]? = some value) :
    merkleVerify P (binaryMerkleRoot P v) (valueLeaves P v).length i value (merkleOpen P v i) = true := by
  have hlt : i < (valueLeaves P v).length := by
    rw [valueLeaves_length]
    exact (List.getElem?_eq_some_iff.mp hvalue).1
  have hleaf : (valueLeaves P v)[i]? = some (valueLeaf P i value) := by
    rw [valueLeaves_getElem?, hvalue]
    rfl
  obtain ⟨path, hpath⟩ := exists_inclusionPath (hasher P) (valueLeaves P v) i hlt
  have hloop := inclusionLoop_of_inclusionPath (hasher P) (valueLeaves P v) i hlt path _ hleaf hpath
  have hopen : merkleOpen P v i = ⟨i, valueLeaf P i value, path, (valueLeaves P v).length⟩ := by
    simp only [merkleOpen, hleaf, hpath, Option.getD_some]
  rw [hopen]
  unfold merkleVerify
  dsimp only
  rw [if_neg (by simp), if_neg (by simp), if_neg (by omega)]
  unfold verifyInclusionProof
  dsimp only
  rw [if_neg (by omega), hloop]
  simp [binaryMerkleRoot]

theorem merkleVerify_empty (i : Nat) (value : UInt64) :
    merkleVerify P (binaryMerkleRoot P []) (valueLeaves P []).length i value ⟨i, valueLeaf P i value, [], 0⟩ = true := by
  unfold merkleVerify binaryMerkleRoot
  simp [valueLeaves]

theorem merkleBinds_empty (i : Nat) (value : UInt64) (p : MerkleProof) : MerkleBinds P [] i value p where
  leaf stored hstored := by cases hstored
  node := by
    intro x hx
    have hnone : Transparency.treePairs (hasher P) (valueLeaves P []) = [] :=
      Transparency.treePairs_small (hasher P) (by rw [valueLeaves_length]; decide)
    rw [hnone] at hx
    cases hx

end Vc

namespace NucleusDb

variable {P : Platform}

/-- Every opening that verifies is of a value in the state. -/
def QueriesSound (db : NucleusDb P) : Prop :=
  ∀ (idx : Nat) (value : UInt64) (proof : QueryProof) (stateRoot : NodeHash),
    (∀ p, proof = .binaryMerkle p → Vc.MerkleBinds P db.state.values idx value p) →
      db.verifyQuery idx value proof stateRoot = some true →
        idx < db.state.values.length ∧ db.state.values[idx]? = some value

def QueriesComplete (db : NucleusDb P) : Prop :=
  ∀ (idx : Nat) (value : UInt64) (proof : QueryProof) (stateRoot : NodeHash),
    db.query idx = .found value proof stateRoot → db.verifyQuery idx value proof stateRoot = some true

theorem verifyQuery_binaryMerkle {db : NucleusDb P} (hbackend : db.backend = .binaryMerkle) (idx : Nat) (value : UInt64)
    (proof : QueryProof) (stateRoot : NodeHash) :
    db.verifyQuery idx value proof stateRoot = some true ↔
      Vc.binaryMerkleRoot P db.state.values = stateRoot ∧ ∃ p, proof = .binaryMerkle p ∧
        Vc.merkleVerify P (Vc.binaryMerkleRoot P db.state.values) (Vc.valueLeaves P db.state.values).length idx value p
          = true := by
  unfold verifyQuery stateRootFor materialize
  simp only [hbackend, Option.map_some, Option.some.injEq]
  by_cases hroot : Vc.binaryMerkleRoot P db.state.values = stateRoot
  · rw [if_neg (not_not.mpr hroot)]
    cases proof with
    | binaryMerkle p => simp [hroot]
    | ipa p => simp
    | kzg p => simp
  · rw [if_pos hroot]
    simp [hroot]

theorem query_binaryMerkle {db : NucleusDb P} (hbackend : db.backend = .binaryMerkle) {idx : Nat} {value : UInt64}
    {proof : QueryProof} {stateRoot : NodeHash} (h : db.query idx = .found value proof stateRoot) :
    db.state.values[idx]? = some value ∧ proof = .binaryMerkle (Vc.merkleOpen P db.state.values idx) ∧
      stateRoot = Vc.binaryMerkleRoot P db.state.values := by
  unfold query stateRootFor openAt materialize at h
  simp only [hbackend] at h
  cases hvalue : db.state.values[idx]? with
  | none => simp [hvalue] at h
  | some stored =>
    simp only [hvalue, QueryOutcome.found.injEq] at h
    obtain ⟨rfl, rfl, rfl⟩ := h
    exact ⟨rfl, rfl, rfl⟩

theorem queriesComplete_of_binaryMerkle {db : NucleusDb P} (hbackend : db.backend = .binaryMerkle) :
    db.QueriesComplete := by
  intro idx value proof stateRoot hquery
  obtain ⟨hvalue, rfl, rfl⟩ := query_binaryMerkle hbackend hquery
  exact (verifyQuery_binaryMerkle hbackend _ _ _ _).mpr ⟨rfl, _, rfl, Vc.merkleVerify_merkleOpen P hvalue⟩

/-- **Queries on the binary Merkle backend** are sound and complete exactly on the states that are not empty. -/
theorem merkleQueries_sound_and_complete_iff (db : NucleusDb P) (hbackend : db.backend = .binaryMerkle) :
    (db.QueriesSound ∧ db.QueriesComplete) ↔ db.state.values ≠ [] := by
  constructor
  · rintro ⟨hsound, -⟩ hempty
    have hverify : db.verifyQuery 0 0 (.binaryMerkle ⟨0, Vc.valueLeaf P 0 0, [], 0⟩)
        (Vc.binaryMerkleRoot P db.state.values) = some true := by
      refine (verifyQuery_binaryMerkle hbackend _ _ _ _).mpr ⟨rfl, _, rfl, ?_⟩
      rw [hempty]
      exact Vc.merkleVerify_empty P 0 0
    have hfound := hsound 0 0 _ _ (fun p _ => by rw [hempty]; exact Vc.merkleBinds_empty P 0 0 p) hverify
    rw [hempty] at hfound
    exact absurd hfound.1 (by decide)
  · intro hne
    refine ⟨?_, queriesComplete_of_binaryMerkle hbackend⟩
    intro idx value proof stateRoot hbinds hverify
    obtain ⟨-, p, rfl, haccepted⟩ := (verifyQuery_binaryMerkle hbackend _ _ _ _).mp hverify
    have hvalue := Vc.merkleVerify_sound P hne (hbinds p rfl) haccepted
    exact ⟨(List.getElem?_eq_some_iff.mp hvalue).1, hvalue⟩

/-- A database with one value. -/
theorem merkleQueries_sound_and_complete_one : ∃ db : NucleusDb .reference,
    db.backend = .binaryMerkle ∧ db.state = ⟨[5]⟩ ∧ db.QueriesSound ∧ db.QueriesComplete := by
  refine ⟨{ singleWitnessDb with state := ⟨[5]⟩ }, rfl, rfl, ?_⟩
  exact (merkleQueries_sound_and_complete_iff { singleWitnessDb with state := ⟨[5]⟩ } rfl).mpr (by simp)

/-- A database just opened accepts the value 42 at index 7. -/
theorem merkleQuery_forged_on_empty :
    Vc.MerkleBinds .reference singleWitnessDb.state.values 7 42
        ⟨7, Vc.valueLeaf .reference 7 42, [], 0⟩ ∧
      singleWitnessDb.verifyQuery 7 42 (.binaryMerkle ⟨7, Vc.valueLeaf .reference 7 42, [], 0⟩)
        (Vc.binaryMerkleRoot .reference []) = some true ∧
      ¬ 7 < singleWitnessDb.state.values.length := by
  refine ⟨Vc.merkleBinds_empty .reference 7 42 _, ?_, by decide⟩
  exact (verifyQuery_binaryMerkle rfl _ _ _ _).mpr ⟨rfl, _, rfl, Vc.merkleVerify_empty .reference 7 42⟩

end NucleusDb

end AgentHalo.Engine
