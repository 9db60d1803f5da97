import AgentHalo.Pcn.Adapter
import AgentHalo.Transparency.TreeLayers

/-!
# The root of a compliance witness

A compliance witness commits to the channels by pairing up their leaves, layer after layer, a node without a partner
going up as it is. The log of the engine splits a list at the largest power of two below its length. Pairing up a layer
does not change the root of the split, so both come to one root, and what is proved of the log's trees holds of the
witness.
-/

namespace AgentHalo.Pcn

open Engine (NucleusDb)
open Transparency (hasher merkleTreeHash merkleTreeHash_singleton merkleTreeHash_pairUp)

variable {P : Platform}

theorem complianceMerkleRoot_eq {leaves : List NodeHash} (hne : leaves ≠ []) :
    complianceMerkleRoot P leaves = merkleTreeHash (hasher P) leaves := by
  induction leaves using complianceMerkleRoot.induct P with
  | case1 => exact absurd rfl hne
  | case2 leaf => rw [complianceMerkleRoot, merkleTreeHash_singleton]
  | case3 x y rest ih =>
    rw [complianceMerkleRoot, ih (List.cons_ne_nil _ _)]
    exact merkleTreeHash_pairUp (hasher P) (x :: y :: rest)

/-! ### What the witness commits to -/

def channelLeaf (db : NucleusDb P) (base : String) : Option NodeHash :=
  let seq := latestSeq db base
  if seq = 0 then none
  else
    let cap := (valueAt db (base ++ ":meta:capacity")).getD 0
    let status := statusFromCode ((valueAt db (base ++ ":state:" ++ toString seq ++ ":status")).getD 1)
    let b1 := (valueAt db (base ++ ":state:" ++ toString seq ++ ":b1")).getD 0
    let b2 := (valueAt db (base ++ ":state:" ++ toString seq ++ ":b2")).getD 0
    some (complianceLeaf P base seq cap b1 b2 status (saturatingAdd b1 b2 == cap))

/-- The leaves that a witness of the database commits to. -/
def channelLeaves (db : NucleusDb P) : List NodeHash := (channelBases db).filterMap (channelLeaf db)

theorem leaves_tallyChannel (db : NucleusDb P) (tally : Tally) (base : String) :
    (tallyChannel db tally base).leaves = tally.leaves ++ (channelLeaf db base).toList := by
  unfold tallyChannel channelLeaf
  dsimp only
  split_ifs
  · exact (List.append_nil _).symm
  · rfl
  · rfl

theorem leaves_foldl_tallyChannel (db : NucleusDb P) (bases : List String) (tally : Tally) :
    (bases.foldl (tallyChannel db) tally).leaves = tally.leaves ++ bases.filterMap (channelLeaf db) := by
  induction bases generalizing tally with
  | nil => exact (List.append_nil _).symm
  | cons base rest ih =>
    rw [List.foldl_cons, ih, leaves_tallyChannel, List.append_assoc, List.filterMap_cons]
    cases channelLeaf db base <;> rfl

theorem feasibilityRoot_complianceWitness (db : NucleusDb P) :
    (complianceWitness db).feasibilityRoot = complianceMerkleRoot P (channelLeaves db) := by
  unfold complianceWitness channelLeaves
  dsimp only
  rw [leaves_foldl_tallyChannel, List.nil_append]

variable (P) in
/-- **The compliance root is the tree hash of RFC 6962**, for every nonempty list of leaves, and so for the witness of every
database that has a channel with a state. -/
theorem complianceMerkleRoot_is_tree_hash (leaf : NodeHash) (rest : List NodeHash) :
    complianceMerkleRoot P (leaf :: rest) = merkleTreeHash (hasher P) (leaf :: rest) ∧
      ∀ db : NucleusDb P, channelLeaves db = leaf :: rest →
        (complianceWitness db).feasibilityRoot = merkleTreeHash (hasher P) (leaf :: rest) := by
  have hroot : complianceMerkleRoot P (leaf :: rest) = merkleTreeHash (hasher P) (leaf :: rest) :=
    complianceMerkleRoot_eq (List.cons_ne_nil _ _)
  refine ⟨hroot, fun db hleaves => ?_⟩
  rw [feasibilityRoot_complianceWitness, hleaves, hroot]

end AgentHalo.Pcn
