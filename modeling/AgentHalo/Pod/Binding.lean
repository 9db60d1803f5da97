import AgentHalo.Base.Scan
import AgentHalo.Engine.QuerySound
import AgentHalo.Pod.Envelope
import AgentHalo.Transparency.Nodes

/-!
# What an accepted envelope says of its value

Local verification of a binary Merkle envelope checks that the proof's leaf hash lies under the state root. It never
looks at the envelope's key and value. An envelope whose leaf hash is the leaf of its own value (`BoundLeaf`) discloses
the committed word, and for a proof of the committed size this is the only case in which it does.
Hashes are assumed free of collisions on the inputs that occur (`CollisionFree`).
-/

namespace AgentHalo.Pod

open Engine.Vc (MerkleProof valuePayload valueLeaf valueLeaves binaryMerkleRoot valueLeaves_length valueLeaves_getElem?)
open Engine (NucleusDb QueryProof)
open Store (TypedValue)
open Transparency

/-! ### Payloads -/

theorem valuePayload_inj {i j : Nat} {value value' : UInt64} (h : valuePayload i value = valuePayload j value') :
    i = j ∧ value = value' := by
  have hbar (w : String) : "|value=" ++ w = String.singleton '|' ++ ("value=" ++ w) := by
    rw [← String.append_assoc]
    rfl
  have hindex : i = j := by
    have htext := Store.utf8_inj h
    simp only [String.append_assoc] at htext
    rw [String.append_right_inj, hbar, hbar] at htext
    have hassoc (n w : String) : n ++ (String.singleton '|' ++ w) = n ++ String.singleton '|' ++ w :=
      String.append_assoc.symm
    rw [hassoc, hassoc] at htext
    have hsplit := congrArg (Text.splitOnce '|') htext
    rw [Text.splitOnce_append (Text.not_mem_toString (show '|'.isDigit = false by decide) i),
      Text.splitOnce_append (Text.not_mem_toString (show '|'.isDigit = false by decide) j)] at hsplit
    exact Text.toString_nat_inj (Prod.mk.inj (Option.some.inj hsplit)).1
  rw [hindex] at h
  exact ⟨hindex, Engine.Vc.valuePayload_inj h⟩

section Hashes

variable (P : Platform) (v : List UInt64) (cell : UInt64) (p : MerkleProof)

/-- What `node_hash` hashes for a pair. -/
def pairInput (pair : NodeHash × NodeHash) : Bytes := 0x01 :: (pair.1.toList ++ pair.2.toList)

/-- The inputs hashed for the tree over `v`, for the check of the proof and for the leaf of the disclosed cell. -/
def hashedInputs : List Bytes :=
  [] :: (0x00 :: valuePayload p.index cell) :: (v.zipIdx.map fun (value, i) => 0x00 :: valuePayload i value) ++
    (treePairs (hasher P) (valueLeaves P v) ++
      inclusionPairs (hasher P) p.path p.leafHash p.index (p.treeSize - 1)).map pairInput

/-- No two of these inputs have one hash. -/
def CollisionFree : Prop := Set.InjOn P.sha256 {input | input ∈ hashedInputs P v cell p}

theorem pairInput_inj {pair pair' : NodeHash × NodeHash} (h : pairInput pair = pairInput pair') : pair = pair' := by
  obtain ⟨hfst, hsnd⟩ := List.append_inj (List.cons.inj h).2 (by simp)
  exact Prod.ext (Vector.toList_inj.mp hfst) (Vector.toList_inj.mp hsnd)

theorem empty_mem_hashedInputs : [] ∈ hashedInputs P v cell p := by simp [hashedInputs]

theorem disclosed_mem_hashedInputs : 0x00 :: valuePayload p.index cell ∈ hashedInputs P v cell p := by
  simp [hashedInputs]

variable {P v cell p}

theorem leaf_mem_hashedInputs {i : Nat} {value : UInt64} (h : v[i]? = some value) :
    0x00 :: valuePayload i value ∈ hashedInputs P v cell p := by
  simp only [hashedInputs, List.cons_append, List.mem_cons, List.mem_append, List.mem_map]
  refine .inr (.inr (.inl ⟨(value, i), ?_, rfl⟩))
  exact List.mk_mem_zipIdx_iff_getElem?.mpr h

theorem treePair_mem_hashedInputs {pair : NodeHash × NodeHash} (h : pair ∈ treePairs (hasher P) (valueLeaves P v)) :
    pairInput pair ∈ hashedInputs P v cell p := by
  simp only [hashedInputs, List.cons_append, List.mem_cons, List.mem_append, List.mem_map]
  exact .inr (.inr (.inr ⟨pair, .inl h, rfl⟩))

theorem loopPair_mem_hashedInputs {pair : NodeHash × NodeHash}
    (h : pair ∈ inclusionPairs (hasher P) p.path p.leafHash p.index (p.treeSize - 1)) :
    pairInput pair ∈ hashedInputs P v cell p := by
  simp only [hashedInputs, List.cons_append, List.mem_cons, List.mem_append, List.mem_map]
  exact .inr (.inr (.inr ⟨pair, .inr h, rfl⟩))

namespace CollisionFree

theorem loopSeparated (hfree : CollisionFree P v cell p) :
    LoopSeparated (hasher P) (valueLeaves P v) p.path p.leafHash p.index (p.treeSize - 1) := by
  constructor
  · intro x hx y hy hsame
    exact pairInput_inj (hfree (treePair_mem_hashedInputs hx) (loopPair_mem_hashedInputs hy) hsame)
  · intro leaf hleaf pair hpair hsame
    obtain ⟨i, hi⟩ := List.getElem?_of_mem hleaf
    rw [valueLeaves_getElem?] at hi
    obtain ⟨value, hvalue, rfl⟩ := Option.map_eq_some_iff.mp hi
    have hinput := hfree (loopPair_mem_hashedInputs hpair) (leaf_mem_hashedInputs hvalue) hsame
    exact absurd (List.cons.inj hinput).1 (by decide)

theorem getElem?_of_isNode (hfree : CollisionFree P v cell p)
    (h : IsNode (hasher P) (valueLeaves P v) (valueLeaf P p.index cell)) : v[p.index]? = some cell := by
  obtain hleaf | ⟨pair, hpair, hsame⟩ := h
  · obtain ⟨i, hi⟩ := List.getElem?_of_mem hleaf
    rw [valueLeaves_getElem?] at hi
    obtain ⟨value, hvalue, hsame⟩ := Option.map_eq_some_iff.mp hi
    have hinput := hfree (leaf_mem_hashedInputs hvalue) (disclosed_mem_hashedInputs P v cell p) hsame
    obtain ⟨rfl, rfl⟩ := valuePayload_inj (List.cons.inj hinput).2
    exact hvalue
  · have hinput := hfree (treePair_mem_hashedInputs hpair) (disclosed_mem_hashedInputs P v cell p) hsame
    exact absurd (List.cons.inj hinput).1 (by decide)

theorem inclusionLoop_ne_empty (hfree : CollisionFree P v cell p) (hleaf : p.leafHash = valueLeaf P p.index cell)
    (last : Nat) : inclusionLoop (hasher P) p.path p.leafHash p.index (p.treeSize - 1) ≠ some (emptyHash P, last) := by
  intro hloop
  obtain hroot | ⟨pair, hpair, hroot⟩ := inclusionLoop_root hloop
  · rw [hleaf] at hroot
    exact absurd (hfree (empty_mem_hashedInputs P v cell p) (disclosed_mem_hashedInputs P v cell p) hroot) (by simp)
  · exact absurd (hfree (loopPair_mem_hashedInputs hpair) (empty_mem_hashedInputs P v cell p) hroot) (by simp [pairInput])

end CollisionFree

end Hashes

/-! ### Binding -/

namespace ProofEnvelope

variable {P : Platform}

def cell (e : ProofEnvelope P) : UInt64 := (e.value.encode e.key).1

/-- The proof is of the disclosed value: its leaf hash is the leaf of that value at the index it claims. -/
def BoundLeaf (e : ProofEnvelope P) (p : MerkleProof) : Prop :=
  p.treeSize ≠ 0 ∧ p.leafHash = valueLeaf P p.index e.cell

variable {e : ProofEnvelope P} {p : MerkleProof} {v : List UInt64}

theorem inclusionLoop_of_accepted (hproof : e.proof = .binaryMerkle p) (hsize : p.treeSize ≠ 0)
    (haccepted : e.verifyLocally.accepted = true) :
    verifyInclusionProof (hasher P) ⟨p.index, p.treeSize, p.leafHash, p.path⟩ e.stateRoot = true ∧
      inclusionLoop (hasher P) p.path p.leafHash p.index (p.treeSize - 1) = some (e.stateRoot, 0) := by
  have hcheck := ((accepted_iff e).mp haccepted).2.2.1
  unfold proofCheck at hcheck
  rw [hproof] at hcheck
  dsimp only at hcheck
  rw [if_neg hsize] at hcheck
  refine ⟨hcheck, ?_⟩
  unfold verifyInclusionProof at hcheck
  by_cases hrange : p.treeSize = 0 ∨ p.index ≥ p.treeSize
  · rw [if_pos hrange] at hcheck
    cases hcheck
  rw [if_neg hrange] at hcheck
  cases hloop : inclusionLoop (hasher P) p.path p.leafHash p.index (p.treeSize - 1) with
  | none =>
    rw [hloop] at hcheck
    cases hcheck
  | some result =>
    obtain ⟨root, last⟩ := result
    rw [hloop] at hcheck
    simp only [Bool.and_eq_true, decide_eq_true_eq] at hcheck
    rw [hcheck.1, hcheck.2]

theorem disclosed_of_boundLeaf (hproof : e.proof = .binaryMerkle p) (hroot : e.stateRoot = binaryMerkleRoot P v)
    (hfree : CollisionFree P v e.cell p) (haccepted : e.verifyLocally.accepted = true) (hbound : e.BoundLeaf p) :
    v[p.index]? = some e.cell := by
  obtain ⟨hsize, hleaf⟩ := hbound
  obtain ⟨-, hloop⟩ := inclusionLoop_of_accepted hproof hsize haccepted
  rw [hroot] at hloop
  by_cases hv : v = []
  · subst hv
    have hempty : binaryMerkleRoot P [] = emptyHash P := by
      unfold binaryMerkleRoot valueLeaves
      rw [List.zipIdx_nil, List.map_nil, merkleTreeHash]
      rfl
    rw [hempty] at hloop
    exact absurd hloop (hfree.inclusionLoop_ne_empty hleaf 0)
  · have hne : valueLeaves P v ≠ [] := by
      rw [← List.length_pos_iff, valueLeaves_length]
      exact List.length_pos_iff.mpr hv
    have hnode := isNode_of_inclusionLoop hfree.loopSeparated (isNode_merkleTreeHash (hasher P) hne) hloop
    rw [hleaf] at hnode
    exact hfree.getElem?_of_isNode hnode

theorem boundLeaf_of_disclosed (hproof : e.proof = .binaryMerkle p) (hroot : e.stateRoot = binaryMerkleRoot P v)
    (hfree : CollisionFree P v e.cell p) (haccepted : e.verifyLocally.accepted = true) (hsize : p.treeSize = v.length)
    (hvalue : v[p.index]? = some e.cell) : e.BoundLeaf p := by
  have hlt := (List.getElem?_eq_some_iff.mp hvalue).1
  have hpos : p.treeSize ≠ 0 := by omega
  have hlen : p.treeSize = (valueLeaves P v).length := by rw [hsize, valueLeaves_length]
  have hne : valueLeaves P v ≠ [] := by
    rw [← List.length_pos_iff, ← hlen]
    omega
  obtain ⟨hcheck, -⟩ := inclusionLoop_of_accepted hproof hpos haccepted
  have hsep := hfree.loopSeparated.pairs
  rw [hlen] at hsep
  rw [hroot] at hcheck
  obtain ⟨-, hleaf, -⟩ := (verifyInclusionProof_iff_of_separated (hasher P) (valueLeaves P v) hne
    ⟨p.index, p.treeSize, p.leafHash, p.path⟩ hlen hsep).mp hcheck
  dsimp only at hleaf
  rw [valueLeaves_getElem?, hvalue] at hleaf
  exact ⟨hpos, (Option.some.inj hleaf).symm⟩

/-- **What an accepted binary Merkle envelope discloses.** When its leaf is that of its own value, the committed word;
and a proof of the committed size discloses the committed word only then. -/
theorem accepted_discloses_iff (e : ProofEnvelope P) (p : MerkleProof) (v : List UInt64)
    (hproof : e.proof = .binaryMerkle p) (hroot : e.stateRoot = binaryMerkleRoot P v)
    (hfree : CollisionFree P v e.cell p) (haccepted : e.verifyLocally.accepted = true) :
    (e.BoundLeaf p → v[p.index]? = some e.cell) ∧
      (p.treeSize = v.length → (v[p.index]? = some e.cell ↔ e.BoundLeaf p)) := by
  refine ⟨disclosed_of_boundLeaf hproof hroot hfree haccepted, fun hsize => ⟨?_, ?_⟩⟩
  · exact boundLeaf_of_disclosed hproof hroot hfree haccepted hsize
  · exact disclosed_of_boundLeaf hproof hroot hfree haccepted

theorem verifyInclusionProof_merkleOpen {keyIndex : Nat} {stored : UInt64} (hstored : v[keyIndex]? = some stored) :
    (Engine.Vc.merkleOpen P v keyIndex).leafHash = valueLeaf P keyIndex stored ∧
      (Engine.Vc.merkleOpen P v keyIndex).treeSize = v.length ∧
      verifyInclusionProof (hasher P) ⟨keyIndex, v.length, valueLeaf P keyIndex stored,
        (Engine.Vc.merkleOpen P v keyIndex).path⟩ (binaryMerkleRoot P v) = true := by
  have hlt := (List.getElem?_eq_some_iff.mp hstored).1
  have hleaf : (Engine.Vc.merkleOpen P v keyIndex).leafHash = valueLeaf P keyIndex stored := by
    simp only [Engine.Vc.merkleOpen, valueLeaves_getElem?, hstored, Option.map_some, Option.getD_some]
  have hsize : (Engine.Vc.merkleOpen P v keyIndex).treeSize = v.length := valueLeaves_length P v
  have hindex : (Engine.Vc.merkleOpen P v keyIndex).index = keyIndex := rfl
  have hverify := Engine.Vc.merkleVerify_merkleOpen P hstored
  unfold Engine.Vc.merkleVerify at hverify
  rw [hindex, hsize, hleaf, valueLeaves_length, if_neg (by simp), if_neg (by simp), if_neg (by omega)] at hverify
  exact ⟨hleaf, hsize, hverify⟩

/-- The envelope of a query on the binary Merkle backend is accepted. Its leaf is that of the word found, whatever value
the caller put in. -/
theorem fromQuery_binaryMerkle {db : NucleusDb P} (hbackend : db.backend = .binaryMerkle) {keyName : String}
    {keyIndex : Nat} {value : TypedValue P} {now : UInt64} (h : fromQuery db keyName keyIndex value now = some (some e)) :
    e.verifyLocally.accepted = true ∧ e.stateRoot = binaryMerkleRoot P db.state.values ∧
      ∃ p stored, e.proof = .binaryMerkle p ∧ p.index = keyIndex ∧ p.treeSize = db.state.values.length ∧
        db.state.values[keyIndex]? = some stored ∧ p.leafHash = valueLeaf P keyIndex stored := by
  unfold fromQuery at h
  cases hquery : db.query keyIndex with
  | panicked =>
    rw [hquery] at h
    cases h
  | absent =>
    rw [hquery] at h
    cases h
  | found stored proof stateRoot =>
    rw [hquery] at h
    simp only [Option.some.injEq] at h
    subst h
    obtain ⟨hstored, rfl, rfl⟩ := NucleusDb.query_binaryMerkle hbackend hquery
    obtain ⟨hleaf, hsize, hverify⟩ := verifyInclusionProof_merkleOpen (P := P) hstored
    have hlt := (List.getElem?_eq_some_iff.mp hstored).1
    refine ⟨(accepted_iff _).mpr ⟨rfl, ?_, ?_, rfl⟩, rfl, _, stored, rfl, rfl, hsize, hstored, hleaf⟩
    · simp only [backendConsistent, hbackend]
    · simp only [proofCheck]
      rw [hsize, if_neg (by omega), hleaf]
      exact hverify

/-- **What the envelope of a query discloses.** It is accepted, and its leaf is that of its own value exactly when the
value that the caller put in encodes to the committed word: making the envelope does not check that, and verifying it
does not either. -/
theorem boundLeaf_fromQuery_iff {db : NucleusDb P} (hbackend : db.backend = .binaryMerkle) {keyName : String}
    {keyIndex : Nat} {value : TypedValue P} {now : UInt64} (h : fromQuery db keyName keyIndex value now = some (some e))
    (hproof : e.proof = .binaryMerkle p) (hfree : CollisionFree P db.state.values e.cell p) :
    e.verifyLocally.accepted = true ∧ (e.BoundLeaf p ↔ db.state.values[keyIndex]? = some e.cell) := by
  obtain ⟨haccepted, hroot, q, stored, hq, hindex, hsize, -⟩ := fromQuery_binaryMerkle hbackend h
  obtain rfl : p = q := by
    rw [hproof] at hq
    exact QueryProof.binaryMerkle.inj hq
  refine ⟨haccepted, ?_⟩
  rw [← hindex]
  constructor
  · exact disclosed_of_boundLeaf hproof hroot hfree haccepted
  · exact boundLeaf_of_disclosed hproof hroot hfree haccepted hsize

/-! ### One committed word -/

theorem reference_sha256_getElem_zero (input : Bytes) :
    (Platform.reference.sha256 input)[0] = input.reverse.getD 0 0 := by
  simp [Platform.reference, Reference.digest]

theorem valuePayload_reverse (i : Nat) (value : UInt64) {b : UInt8} (hb : Text.utf8 (toString value) = [b]) :
    (0x00 :: valuePayload i value).reverse.getD 0 0 = b := by
  unfold valuePayload
  rw [Text.utf8_append, hb]
  simp

theorem collisionFree_ofFive (cell : UInt64) {b : UInt8} (hb : Text.utf8 (toString cell) = [b]) (hpos : b ≠ 0)
    (hsame : b = 53 → cell = 5) :
    CollisionFree .reference [5] cell ⟨0, valueLeaf .reference 0 5, [], 1⟩ := by
  have hfive : Text.utf8 (toString (5 : UInt64)) = [53] := by decide
  have hinputs : hashedInputs .reference [5] cell ⟨0, valueLeaf .reference 0 5, [], 1⟩ =
      [[], 0x00 :: valuePayload 0 cell, 0x00 :: valuePayload 0 5] := by
    simp [hashedInputs, treePairs_small, valueLeaves, inclusionPairs]
  intro x hx y hy hxy
  have hhead := congrArg (·[0]) hxy
  simp only [reference_sha256_getElem_zero] at hhead
  rw [hinputs] at hx hy
  simp only [Set.mem_ofPred_eq, List.mem_cons, List.not_mem_nil, or_false] at hx hy
  have hcell := valuePayload_reverse 0 cell hb
  have hstored := valuePayload_reverse 0 5 hfive
  obtain rfl | rfl | rfl := hx <;> obtain rfl | rfl | rfl := hy
  · rfl
  · rw [hcell] at hhead
    exact absurd hhead.symm hpos
  · rw [hstored] at hhead
    exact absurd hhead (by decide)
  · rw [hcell] at hhead
    exact absurd hhead hpos
  · rfl
  · rw [hcell, hstored] at hhead
    rw [hsame hhead]
  · rw [hstored] at hhead
    exact absurd hhead (by decide)
  · rw [hcell, hstored] at hhead
    rw [hsame hhead.symm]
  · rfl

/-- The word itself, disclosed. -/
theorem accepted_discloses_five : (ofFive (.integer 5)).BoundLeaf ⟨0, valueLeaf .reference 0 5, [], 1⟩ := by
  refine ((accepted_discloses_iff (ofFive (.integer 5)) ⟨0, valueLeaf .reference 0 5, [], 1⟩ [5] rfl rfl ?_
    (ofFive_accepted _)).2 rfl).mp rfl
  exact collisionFree_ofFive 5 (b := 53) (by decide) (by decide) (fun _ => rfl)

/-- The word `5`, asked for with the value `6`. -/
theorem boundLeaf_fromQuery_six : ∃ e p, fromQuery { NucleusDb.singleWitnessDb with state := ⟨[5]⟩ } "k" 0 (.integer 6) 0 =
    some (some e) ∧ e.proof = .binaryMerkle p ∧ e.verifyLocally.accepted = true ∧ ¬ e.BoundLeaf p := by
  let db : NucleusDb .reference := { NucleusDb.singleWitnessDb with state := ⟨[5]⟩ }
  have hopen : Engine.Vc.merkleOpen .reference [5] 0 = ⟨0, valueLeaf .reference 0 5, [], 1⟩ := by
    simp [Engine.Vc.merkleOpen, valueLeaves, inclusionPath_singleton]
  obtain ⟨e, he, hproof⟩ : ∃ e, fromQuery db "k" 0 (.integer 6) 0 = some (some e) ∧
      e.proof = .binaryMerkle (Engine.Vc.merkleOpen .reference [5] 0) := ⟨_, rfl, rfl⟩
  have hcell : e.cell = 6 := by
    cases he
    rfl
  rw [hopen] at hproof
  have hfree : CollisionFree .reference [5] e.cell ⟨0, valueLeaf .reference 0 5, [], 1⟩ := by
    rw [hcell]
    exact collisionFree_ofFive 6 (b := 54) (by decide) (by decide) (by decide)
  obtain ⟨haccepted, hiff⟩ := boundLeaf_fromQuery_iff rfl he hproof hfree
  refine ⟨e, ⟨0, valueLeaf .reference 0 5, [], 1⟩, he, hproof, haccepted, fun h => ?_⟩
  have hword := hiff.mp h
  rw [hcell] at hword
  exact absurd hword (by decide)

/-- The proof of the word `5` under the value `6`. -/
theorem altered_value_accepted : ∃ (e : ProofEnvelope .reference) (p : MerkleProof) (v : List UInt64),
    e.proof = .binaryMerkle p ∧ e.stateRoot = binaryMerkleRoot .reference v ∧
      CollisionFree .reference v e.cell p ∧ e.verifyLocally.accepted = true ∧ v[p.index]? ≠ some e.cell := by
  refine ⟨ofFive (.integer 6), ⟨0, valueLeaf .reference 0 5, [], 1⟩, [5], rfl, rfl, ?_, ofFive_accepted _,
    by decide⟩
  exact collisionFree_ofFive 6 (b := 54) (by decide) (by decide) (by decide)

end ProofEnvelope

end AgentHalo.Pod
