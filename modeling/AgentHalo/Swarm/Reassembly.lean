import AgentHalo.Swarm.Chunks

/-!
# Reassembly in any order

Reassembly sorts the chunks before it looks at them, so only what they are counts: whether every position is there
once, every chunk is what its id says, and all name the number of chunks there are (`Complete`). The sorted list of a
complete set is the same whatever order the set came in, and so are the bytes. What the order does decide is which
error is reported of a set that is not complete, since the number of chunks is taken from the first one.
-/

namespace AgentHalo.Swarm

def ordered (chunks : List Chunk) : List Chunk := chunks.mergeSort fun a b => decide (a.index ≤ b.index)

theorem perm_ordered (chunks : List Chunk) : (ordered chunks).Perm chunks := List.mergeSort_perm _ _

theorem length_ordered (chunks : List Chunk) : (ordered chunks).length = chunks.length := List.length_mergeSort _

theorem pairwise_ordered (chunks : List Chunk) : (ordered chunks).Pairwise fun a b => a.index ≤ b.index := by
  refine (List.pairwise_mergeSort (fun a b c hab hbc => ?_) (fun a b => ?_) chunks).imp of_decide_eq_true
  · exact decide_eq_true (UInt32.le_trans (of_decide_eq_true hab) (of_decide_eq_true hbc))
  · rw [Bool.or_eq_true, decide_eq_true_iff, decide_eq_true_iff]
    exact UInt32.le_total _ _

variable {chunks chunks' : List Chunk}

theorem ordered_congr (hperm : chunks.Perm chunks')
    (hdistinct : (chunks.map Chunk.index).Nodup) : ordered chunks = ordered chunks' := by
  have hsame : (ordered chunks).Perm (ordered chunks') :=
    (perm_ordered chunks).trans (hperm.trans (perm_ordered chunks').symm)
  refine hsame.eq_of_pairwise ?_ (pairwise_ordered chunks) (pairwise_ordered chunks')
  intro a b ha hb hab hba
  have hin : b ∈ chunks := hperm.mem_iff.mpr ((perm_ordered chunks').mem_iff.mp hb)
  exact List.inj_on_of_nodup_map hdistinct ((perm_ordered chunks).mem_iff.mp ha) hin (UInt32.le_antisymm hab hba)

/-! ### What can be put together -/

variable (blake3 : Bytes → Vector UInt8 32)

/-- Every position once, every chunk under its hash, and all of one number of chunks. -/
structure Complete (chunks : List Chunk) : Prop where
  positions : (chunks.map fun chunk => chunk.index.toNat).Perm (List.range chunks.length)
  verified : ∀ chunk ∈ chunks, verifyChunk blake3 chunk = true
  totals : ∀ chunk ∈ chunks, chunk.totalChunks.toNat = chunks.length

variable {blake3}

theorem Complete.perm (h : Complete blake3 chunks) (hperm : chunks.Perm chunks') : Complete blake3 chunks' := by
  refine ⟨?_, ?_, ?_⟩
  · rw [← hperm.length_eq]
    exact (hperm.map _).symm.trans h.positions
  · intro chunk hmem
    exact h.verified chunk (hperm.mem_iff.mpr hmem)
  · intro chunk hmem
    rw [← hperm.length_eq]
    exact h.totals chunk (hperm.mem_iff.mpr hmem)

theorem Complete.nodup_index (h : Complete blake3 chunks) : (chunks.map Chunk.index).Nodup := by
  have hnodup := h.positions.nodup_iff.mpr List.nodup_range
  refine List.Nodup.of_map UInt32.toNat ?_
  rwa [List.map_map]

theorem Complete.index_ordered (h : Complete blake3 chunks) :
    (ordered chunks).map (fun chunk => chunk.index.toNat) = List.range chunks.length := by
  have hperm := ((perm_ordered chunks).map fun chunk => chunk.index.toNat).trans h.positions
  have hsorted : ((ordered chunks).map fun chunk => chunk.index.toNat).Pairwise (· ≤ ·) :=
    List.pairwise_map.mpr ((pairwise_ordered chunks).imp UInt32.le_iff_toNat_le.mp)
  have hrange : (List.range chunks.length).Pairwise (· ≤ ·) := List.pairwise_lt_range.imp Nat.le_of_lt
  exact hperm.eq_of_pairwise (fun a b _ _ hab hba => Nat.le_antisymm hab hba) hsorted hrange

theorem reassembleChunks_eq_ok_iff {data : Bytes} : reassembleChunks blake3 chunks = .ok data ↔
      Complete blake3 chunks ∧ data = (ordered chunks).flatMap Chunk.data := by
  cases chunks with
  | nil =>
    have hnil : ordered [] = [] := List.mergeSort_nil
    rw [hnil]
    constructor
    · intro h
      exact ⟨⟨.refl _, by simp, by simp⟩, (Except.ok.inj h).symm⟩
    · rintro ⟨-, rfl⟩
      rfl
  | cons first rest =>
    have hunfold : reassembleChunks blake3 (first :: rest) =
        if (ordered (first :: rest)).length ≠ first.totalChunks.toNat then .error "missing chunks for reassembly"
        else (checkSequence blake3 first.totalChunks 0 (ordered (first :: rest))).map fun _ =>
          (ordered (first :: rest)).flatMap Chunk.data := rfl
    have hmem : ∀ {chunk}, chunk ∈ ordered (first :: rest) ↔ chunk ∈ first :: rest := (perm_ordered _).mem_iff
    rw [hunfold]
    constructor
    · intro h
      split_ifs at h with hlen
      have hlen := not_not.mp hlen
      cases hcheck : checkSequence blake3 first.totalChunks 0 (ordered (first :: rest)) with
      | error e =>
        rw [hcheck] at h
        cases h
      | ok u =>
        rw [hcheck] at h
        refine ⟨⟨?_, ?_, ?_⟩, (Except.ok.inj h).symm⟩
        · have hall := checkSequence_eq_ok_iff.mp hcheck
          have hbound := first.totalChunks.toNat_lt
          have hindex : (ordered (first :: rest)).map (fun chunk => chunk.index.toNat) =
              List.range (first :: rest).length := by
            refine List.ext_getElem (by rw [List.length_map, List.length_range, length_ordered]) ?_
            intro i hi hi'
            rw [List.length_map] at hi
            obtain ⟨-, hindex, -⟩ := hall i _ (List.getElem?_eq_getElem hi)
            rw [List.getElem_map, List.getElem_range, hindex, Nat.zero_add,
              UInt32.toNat_ofNat_of_lt' (by simp [UInt32.size]; omega)]
          rw [← hindex]
          exact ((perm_ordered _).map _).symm
        · intro chunk hin
          obtain ⟨i, hi⟩ := List.mem_iff_getElem?.mp (hmem.mpr hin)
          exact (checkSequence_eq_ok_iff.mp hcheck i chunk hi).1
        · intro chunk hin
          obtain ⟨i, hi⟩ := List.mem_iff_getElem?.mp (hmem.mpr hin)
          rw [(checkSequence_eq_ok_iff.mp hcheck i chunk hi).2.2, ← hlen, length_ordered]
    · rintro ⟨hcomplete, rfl⟩
      have htotal := hcomplete.totals first List.mem_cons_self
      have hcheck : checkSequence blake3 first.totalChunks 0 (ordered (first :: rest)) = .ok () := by
        refine checkSequence_eq_ok_iff.mpr ?_
        intro i chunk hi
        have hin : chunk ∈ first :: rest := hmem.mp (List.mem_of_getElem? hi)
        refine ⟨hcomplete.verified chunk hin, ?_, ?_⟩
        · have hindex := congrArg (fun indices => indices[i]?) hcomplete.index_ordered
          obtain ⟨hlt, -⟩ := List.getElem?_eq_some_iff.mp hi
          rw [length_ordered] at hlt
          simp only [List.getElem?_map, hi, Option.map_some, List.getElem?_range hlt, Option.some.injEq] at hindex
          rw [Nat.zero_add, ← hindex, UInt32.ofNat_toNat]
        · rw [← UInt32.toNat_inj, hcomplete.totals chunk hin, htotal]
      rw [if_neg (by rw [length_ordered, htotal, not_not]), hcheck]
      rfl

theorem reassembleChunks_eq_ok_of_perm (hperm : chunks.Perm chunks') {data : Bytes}
    (h : reassembleChunks blake3 chunks = .ok data) : reassembleChunks blake3 chunks' = .ok data := by
  obtain ⟨hcomplete, rfl⟩ := reassembleChunks_eq_ok_iff.mp h
  refine reassembleChunks_eq_ok_iff.mpr ⟨hcomplete.perm hperm, ?_⟩
  rw [ordered_congr hperm hcomplete.nodup_index]

variable (blake3) in
/-- **Reassembly in any order.** What was cut is put together again in whatever order the chunks come. Of any chunks, the
order decides neither success nor the bytes; success means that every position is there once, that all chunks name
their number, and that every id is the hash of its bytes. -/
theorem reassembleChunks_any_order :
    (∀ (data : Bytes) (params : ChunkParams), (chunkData blake3 data params).length < 2 ^ 32 →
      ∀ chunks, chunks.Perm (chunkData blake3 data params) → reassembleChunks blake3 chunks = .ok data) ∧
    (∀ chunks chunks' : List Chunk, chunks.Perm chunks' →
      ∀ data, reassembleChunks blake3 chunks = .ok data ↔ reassembleChunks blake3 chunks' = .ok data) ∧
    ∀ (chunks : List Chunk) (data : Bytes), reassembleChunks blake3 chunks = .ok data →
      (chunks.map fun chunk => chunk.index.toNat).Perm (List.range chunks.length) ∧
      ∀ chunk ∈ chunks, chunk.totalChunks.toNat = chunks.length ∧ chunk.id = ChunkId.fromBytes blake3 chunk.data := by
  refine ⟨?_, ?_, ?_⟩
  · intro data params hcount chunks hperm
    exact reassembleChunks_eq_ok_of_perm hperm.symm (reassembleChunks_chunkData hcount)
  · intro chunks chunks' hperm data
    exact ⟨reassembleChunks_eq_ok_of_perm hperm, reassembleChunks_eq_ok_of_perm hperm.symm⟩
  · intro chunks data h
    obtain ⟨hcomplete, -⟩ := reassembleChunks_eq_ok_iff.mp h
    refine ⟨hcomplete.positions, fun chunk hmem => ⟨hcomplete.totals chunk hmem, ?_⟩⟩
    have hverified := hcomplete.verified chunk hmem
    rw [verifyChunk, Bool.and_eq_true, beq_iff_eq] at hverified
    exact hverified.1

/-- Two chunks that disagree on their number, in either order: the errors are different. -/
theorem reassembleChunks_error_depends_on_order :
    reassembleChunks firstBytes [Chunk.new firstBytes 0 2 [1], Chunk.new firstBytes 1 3 [2]] =
      .error "chunk set disagrees on total_chunks" ∧
    reassembleChunks firstBytes [Chunk.new firstBytes 1 3 [2], Chunk.new firstBytes 0 2 [1]] =
      .error "missing chunks for reassembly" := by
  refine ⟨?_, ?_⟩
  · have hsorted : [Chunk.new firstBytes 0 2 [1], Chunk.new firstBytes 1 3 [2]].Pairwise
        fun a b => decide (a.index ≤ b.index) = true := by simp [Chunk.new]
    rw [reassembleChunks, List.mergeSort_of_pairwise hsorted]
    simp only [checkSequence, verifyChunk_new]
    rfl
  · rw [reassembleChunks, List.length_mergeSort]
    exact if_pos (by decide)

end AgentHalo.Swarm
