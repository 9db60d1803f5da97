import AgentHalo.Swarm.Reassembly

/-!
# What a manifest determines

A manifest names the chunks of an asset by hash, in order. Verification sorts the chunks, checks that they are at the
positions from zero on, and compares the hashes of their bytes with the list. Under a hash without collisions two sets
that are accepted have the same bytes at every position. The fields that verification does not read are not determined:
the size that the manifest states, and the number of chunks that each chunk states.
-/

namespace AgentHalo.Swarm

open Text (utf8)

structure ManifestVerification where
  rootHashValid : Bool
  proofValid : Bool
  chunkCount : Nat
  accepted : Bool
deriving DecidableEq, Repr

variable {P : Platform} (blake3 : Bytes → Vector UInt8 32)

def verifyManifest (manifest : Manifest P) (chunks : List Chunk) : ManifestVerification :=
  let ordered := chunks.mergeSort fun a b => decide (a.index ≤ b.index)
  let chunkSequenceValid := ordered.length == manifest.chunkHashes.length &&
    ordered.zipIdx.all fun (chunk, expected) => chunk.index == UInt32.ofNat expected && verifyChunk blake3 chunk
  let chunkHashes := ordered.map fun chunk => ChunkId.fromBytes blake3 chunk.data
  let rootHashValid := chunkSequenceValid && chunkHashes == manifest.chunkHashes &&
    computeRootHash blake3 chunkHashes == manifest.rootHash
  let proofValid := (manifest.proof.map fun proof => proof.verifyLocally.accepted).getD false
  { rootHashValid
    proofValid
    chunkCount := manifest.chunkHashes.length
    accepted := rootHashValid && (manifest.proof.isNone || proofValid) }

variable {blake3}

/-- What is known of the chunks that a manifest is verified against. -/
structure Matches (blake3 : Bytes → Vector UInt8 32) (hashes : List ChunkId) (chunks : List Chunk) : Prop where
  length : chunks.length = hashes.length
  index : ∀ i chunk, (ordered chunks)[i]? = some chunk → chunk.index = UInt32.ofNat i
  verified : ∀ chunk ∈ chunks, verifyChunk blake3 chunk = true
  hashes : (ordered chunks).map (fun chunk => ChunkId.fromBytes blake3 chunk.data) = hashes

theorem rootHashValid_iff {manifest : Manifest P} {chunks : List Chunk} :
    (verifyManifest blake3 manifest chunks).rootHashValid = true ↔
      Matches blake3 manifest.chunkHashes chunks ∧ computeRootHash blake3 manifest.chunkHashes = manifest.rootHash := by
  change ((ordered chunks).length == manifest.chunkHashes.length && _ && _ && _) = true ↔ _
  rw [Bool.and_eq_true, Bool.and_eq_true, Bool.and_eq_true, beq_iff_eq, beq_iff_eq, beq_iff_eq, length_ordered,
    List.all_eq_true]
  constructor
  · rintro ⟨⟨⟨hlen, hall⟩, hhashes⟩, hroot⟩
    have hin : ∀ i chunk, (ordered chunks)[i]? = some chunk →
        chunk.index = UInt32.ofNat i ∧ verifyChunk blake3 chunk = true := by
      intro i chunk hi
      have hchunk := hall (chunk, i) (List.mk_mem_zipIdx_iff_getElem?.mpr hi)
      rwa [Bool.and_eq_true, beq_iff_eq] at hchunk
    refine ⟨⟨hlen, fun i chunk hi => (hin i chunk hi).1, ?_, hhashes⟩, hhashes ▸ hroot⟩
    intro chunk hmem
    obtain ⟨i, hi⟩ := List.mem_iff_getElem?.mp ((perm_ordered chunks).mem_iff.mpr hmem)
    exact (hin i chunk hi).2
  · rintro ⟨hmatches, hroot⟩
    refine ⟨⟨⟨hmatches.length, ?_⟩, hmatches.hashes⟩, hmatches.hashes ▸ hroot⟩
    rintro ⟨chunk, i⟩ hmem
    have hi := List.mk_mem_zipIdx_iff_getElem?.mp hmem
    rw [Bool.and_eq_true, beq_iff_eq]
    exact ⟨hmatches.index i chunk hi, hmatches.verified chunk ((perm_ordered chunks).mem_iff.mp (List.mem_of_getElem? hi))⟩

theorem accepted_iff {manifest : Manifest P} {chunks : List Chunk} :
    (verifyManifest blake3 manifest chunks).accepted = true ↔
      (verifyManifest blake3 manifest chunks).rootHashValid = true ∧
        ∀ proof, manifest.proof = some proof → proof.verifyLocally.accepted = true := by
  change (_ && (manifest.proof.isNone || (manifest.proof.map _).getD false)) = true ↔ _
  rw [Bool.and_eq_true]
  refine and_congr_right fun _ => ?_
  cases manifest.proof with
  | none => simp
  | some proof => simp

/-! ### Sets that match one manifest -/

section Determined

variable {hashes : List ChunkId} {chunks chunks' : List Chunk}

theorem Matches.length_ordered (h : Matches blake3 hashes chunks) : (ordered chunks).length = hashes.length :=
  (Swarm.length_ordered chunks).trans h.length

theorem Matches.index_getElem (h : Matches blake3 hashes chunks) {i : Nat} (hi : i < (ordered chunks).length) :
    (ordered chunks)[i].index.toNat = i % 2 ^ 32 := by
  rw [h.index i _ (List.getElem?_eq_getElem hi)]
  exact UInt32.toNat_ofNat

theorem Matches.length_le (h : Matches blake3 hashes chunks) : (ordered chunks).length ≤ 2 ^ 32 := by
  by_contra hlong
  have hlast : 2 ^ 32 - 1 < (ordered chunks).length := by omega
  have hpast : 2 ^ 32 < (ordered chunks).length := by omega
  have hle := List.pairwise_iff_getElem.mp (pairwise_ordered chunks) (2 ^ 32 - 1) (2 ^ 32) hlast hpast (by omega)
  rw [UInt32.le_iff_toNat_le, h.index_getElem hlast, h.index_getElem hpast] at hle
  omega

theorem Matches.positions (h : Matches blake3 hashes chunks) :
    (chunks.map fun chunk => chunk.index.toNat).Perm (List.range hashes.length) := by
  have hindex : (ordered chunks).map (fun chunk => chunk.index.toNat) = List.range hashes.length := by
    refine List.ext_getElem (by rw [List.length_map, List.length_range, h.length_ordered]) ?_
    intro i hi hi'
    rw [List.length_map] at hi
    have hbound := h.length_le
    rw [List.getElem_map, List.getElem_range, h.index_getElem hi, Nat.mod_eq_of_lt (by omega)]
  rw [← hindex]
  exact ((perm_ordered chunks).map _).symm

theorem fromBytes_inj {data data' : Bytes} (h : ChunkId.fromBytes blake3 data = ChunkId.fromBytes blake3 data') :
    blake3 data = blake3 data' := Vector.toList_inj.mp (Text.hexEncode_inj h)

theorem Matches.same (h : Matches blake3 hashes chunks) (h' : Matches blake3 hashes chunks')
    (hinj : Set.InjOn blake3 { data | ∃ chunk ∈ chunks ++ chunks', chunk.data = data }) :
    (ordered chunks).map (fun chunk => (chunk.index, chunk.data)) =
      (ordered chunks').map fun chunk => (chunk.index, chunk.data) := by
  refine List.ext_getElem (by rw [List.length_map, List.length_map, h.length_ordered, h'.length_ordered]) ?_
  intro i hi hi'
  rw [List.length_map] at hi hi'
  have hhash := congrArg (fun ids => ids[i]?) (h.hashes.trans h'.hashes.symm)
  simp only [List.getElem?_map, List.getElem?_eq_getElem hi, List.getElem?_eq_getElem hi', Option.map_some,
    Option.some.injEq] at hhash
  have hin : (ordered chunks)[i] ∈ chunks := (perm_ordered chunks).mem_iff.mp (List.getElem_mem hi)
  have hin' : (ordered chunks')[i] ∈ chunks' := (perm_ordered chunks').mem_iff.mp (List.getElem_mem hi')
  have hdata := hinj ⟨_, List.mem_append_left _ hin, rfl⟩ ⟨_, List.mem_append_right _ hin', rfl⟩ (fromBytes_inj hhash)
  rw [List.getElem_map, List.getElem_map, h.index i _ (List.getElem?_eq_getElem hi),
    h'.index i _ (List.getElem?_eq_getElem hi'), hdata]

theorem sum_size {l : List Chunk} (h : ∀ chunk ∈ l, verifyChunk blake3 chunk = true) :
    (l.map Chunk.size).sum = (l.flatMap Chunk.data).length := by
  have hsize : ∀ chunk ∈ l, chunk.size = chunk.data.length := by
    intro chunk hmem
    have hverified := h chunk hmem
    rw [verifyChunk, Bool.and_eq_true, beq_iff_eq, beq_iff_eq] at hverified
    exact hverified.2
  rw [List.length_flatMap, List.map_congr_left hsize]

theorem Matches.sum_size (h : Matches blake3 hashes chunks) :
    (chunks.map Chunk.size).sum = ((ordered chunks).flatMap Chunk.data).length := by
  rw [← ((perm_ordered chunks).map Chunk.size).sum_eq]
  exact Swarm.sum_size fun chunk hmem => h.verified chunk ((perm_ordered chunks).mem_iff.mp hmem)

end Determined

/-! ### The chunks that a manifest was built of -/

variable {data : Bytes} {params : ChunkParams}

theorem nodup_index_chunkData (hcount : (chunkData blake3 data params).length < 2 ^ 32) :
    ((chunkData blake3 data params).map Chunk.index).Nodup :=
  (reassembleChunks_eq_ok_iff.mp (reassembleChunks_chunkData hcount)).1.nodup_index

theorem matches_chunkData (hcount : (chunkData blake3 data params).length < 2 ^ 32)
    (hperm : chunks.Perm (chunkData blake3 data params)) :
    Matches blake3 ((chunkData blake3 data params).map Chunk.id) chunks := by
  have hordered : ordered chunks = chunkData blake3 data params := by
    rw [← ordered_congr hperm.symm (nodup_index_chunkData hcount)]
    exact List.mergeSort_of_pairwise (sorted_chunkData hcount)
  refine ⟨?_, ?_, ?_, ?_⟩
  · rw [hperm.length_eq, List.length_map]
  · intro i chunk hi
    rw [hordered] at hi
    obtain ⟨piece, rfl⟩ := getElem?_chunkData hi
    rfl
  · intro chunk hmem
    obtain ⟨i, hi⟩ := List.mem_iff_getElem?.mp (hperm.mem_iff.mp hmem)
    obtain ⟨piece, rfl⟩ := getElem?_chunkData hi
    exact verifyChunk_new _ _ _
  · rw [hordered]
    refine List.map_congr_left fun chunk hmem => ?_
    obtain ⟨i, hi⟩ := List.mem_iff_getElem?.mp hmem
    obtain ⟨piece, rfl⟩ := getElem?_chunkData hi
    rfl

/-- **A manifest accepts its asset and nothing else.** The manifest that is built for the chunks of some data accepts them in
any order. Whatever else it accepts, from whichever peers, holds the same bytes, and is put together to the data if at
all. -/
theorem accepted_of_build {builder : ManifestBuilder} {data : Bytes} {params : ChunkParams} {now : UInt64}
    {manifest : Manifest P} (hcount : (chunkData blake3 data params).length < 2 ^ 32)
    (hbuild : builder.build blake3 P (chunkData blake3 data params) now = .ok manifest) {chunks : List Chunk} :
    (chunks.Perm (chunkData blake3 data params) → (verifyManifest blake3 manifest chunks).accepted = true) ∧
      (Set.InjOn blake3 { bytes | ∃ chunk ∈ chunks ++ chunkData blake3 data params, chunk.data = bytes } →
        (verifyManifest blake3 manifest chunks).accepted = true → (ordered chunks).flatMap Chunk.data = data ∧
          ∀ bytes, reassembleChunks blake3 chunks = .ok bytes → bytes = data) := by
  have hhashes := ManifestBuilder.chunkHashes_build hbuild
  constructor
  · intro hperm
    have hmatches := matches_chunkData hcount hperm
    rw [← hhashes] at hmatches
    unfold ManifestBuilder.build at hbuild
    split_ifs at hbuild
    cases hbuild
    refine accepted_iff.mpr ⟨rootHashValid_iff.mpr ⟨hmatches, rfl⟩, ?_⟩
    intro proof hproof
    cases hproof
  · intro hinj haccepted
    obtain ⟨hmatches, -⟩ := rootHashValid_iff.mp (accepted_iff.mp haccepted).1
    have hown := matches_chunkData hcount (List.Perm.refl _)
    rw [← hhashes] at hown
    have hsorted : ordered (chunkData blake3 data params) = chunkData blake3 data params :=
      List.mergeSort_of_pairwise (sorted_chunkData hcount)
    have hbytes : (ordered chunks).flatMap Chunk.data = data := by
      have hsame := congrArg (fun pairs => pairs.flatMap Prod.snd) (hmatches.same hown hinj)
      simpa only [List.flatMap_map, hsorted, flatMap_data_chunkData] using hsame
    refine ⟨hbytes, ?_⟩
    intro bytes h
    obtain ⟨-, rfl⟩ := reassembleChunks_eq_ok_iff.mp h
    exact hbytes

/-- **A manifest determines the content.** Of two sets of chunks that verification accepts, where the hash has no collision
among their data, both have the positions from zero on, once each, and the same data at each of them; joined in order
they are the same bytes, and they are of one size. That size is the manifest's if the manifest was built of either. -/
theorem verifyManifest_determines {manifest : Manifest P} {chunks chunks' : List Chunk}
    (hinj : Set.InjOn blake3 { data | ∃ chunk ∈ chunks ++ chunks', chunk.data = data })
    (haccepted : (verifyManifest blake3 manifest chunks).accepted = true)
    (haccepted' : (verifyManifest blake3 manifest chunks').accepted = true) :
    (chunks.map fun chunk => chunk.index.toNat).Perm (List.range manifest.chunkHashes.length) ∧
    (chunks.map fun chunk => (chunk.index, chunk.data)).Perm (chunks'.map fun chunk => (chunk.index, chunk.data)) ∧
    (ordered chunks).flatMap Chunk.data = (ordered chunks').flatMap Chunk.data ∧
    (∀ data data', reassembleChunks blake3 chunks = .ok data → reassembleChunks blake3 chunks' = .ok data' →
      data = data') ∧
    (chunks.map Chunk.size).sum = (chunks'.map Chunk.size).sum ∧
    ∀ (builder : ManifestBuilder) (now : UInt64),
      builder.build blake3 P chunks' now = .ok { manifest with proof := none } →
      (chunks.map Chunk.size).sum = manifest.totalSize := by
  obtain ⟨hmatches, -⟩ := rootHashValid_iff.mp (accepted_iff.mp haccepted).1
  obtain ⟨hmatches', -⟩ := rootHashValid_iff.mp (accepted_iff.mp haccepted').1
  have hsame := hmatches.same hmatches' hinj
  have hbytes : (ordered chunks).flatMap Chunk.data = (ordered chunks').flatMap Chunk.data := by
    have hdata := congrArg (fun pairs => pairs.flatMap Prod.snd) hsame
    simpa only [List.flatMap_map] using hdata
  have hsize : (chunks.map Chunk.size).sum = (chunks'.map Chunk.size).sum := by
    rw [hmatches.sum_size, hmatches'.sum_size, hbytes]
  refine ⟨hmatches.positions, ?_, hbytes, ?_, hsize, ?_⟩
  · have hperm := (perm_ordered chunks).map fun chunk => (chunk.index, chunk.data)
    rw [hsame] at hperm
    exact hperm.symm.trans ((perm_ordered chunks').map _)
  · intro data data' h h'
    obtain ⟨-, rfl⟩ := reassembleChunks_eq_ok_iff.mp h
    obtain ⟨-, rfl⟩ := reassembleChunks_eq_ok_iff.mp h'
    exact hbytes
  · intro builder now hbuild
    unfold ManifestBuilder.build at hbuild
    split_ifs at hbuild
    rw [hsize]
    exact (congrArg Manifest.totalSize (Except.ok.inj hbuild))

/-! ### An asset of two bytes -/

def twoChunks : List Chunk := chunkData firstBytes [1, 2] ⟨1⟩

def twoManifest (totalSize : Nat) : Manifest .reference where
  manifestId := ManifestId.fromBytes firstBytes (utf8 (computeRootHash firstBytes (twoChunks.map Chunk.id)))
  rootHash := computeRootHash firstBytes (twoChunks.map Chunk.id)
  chunkHashes := twoChunks.map Chunk.id
  totalSize := totalSize
  assetType := .binary
  creatorDid := "did:key:test"
  createdAt := 0
  proof := none

theorem accepted_twoManifest (totalSize : Nat) (h : Matches firstBytes (twoChunks.map Chunk.id) chunks) :
    (verifyManifest firstBytes (twoManifest totalSize) chunks).accepted = true := by
  refine accepted_iff.mpr ⟨rootHashValid_iff.mpr ⟨h, rfl⟩, ?_⟩
  intro proof hproof
  cases hproof

theorem length_twoChunks_lt : twoChunks.length < 2 ^ 32 := by decide

theorem accepted_of_build_twoChunks : ∃ manifest,
    (⟨.binary, "did:key:test", ⟨1⟩⟩ : ManifestBuilder).build firstBytes .reference twoChunks 0 = .ok manifest ∧
      (verifyManifest firstBytes manifest twoChunks.reverse).accepted = true := by
  have hbuild : (⟨.binary, "did:key:test", ⟨1⟩⟩ : ManifestBuilder).build firstBytes .reference
      (chunkData firstBytes [1, 2] ⟨1⟩) 0 = .ok (twoManifest 2) := rfl
  exact ⟨twoManifest 2, hbuild, (accepted_of_build length_twoChunks_lt hbuild).1 (List.reverse_perm _)⟩

/-- The two bytes, listed in either order. -/
theorem verifyManifest_determines_twoChunks :
    (twoChunks.map fun chunk => (chunk.index, chunk.data)).Perm
      (twoChunks.reverse.map fun chunk => (chunk.index, chunk.data)) ∧
    (ordered twoChunks).flatMap Chunk.data = (ordered twoChunks.reverse).flatMap Chunk.data := by
  have hinj : Set.InjOn firstBytes { data | ∃ chunk ∈ twoChunks ++ twoChunks.reverse, chunk.data = data } := by
    have hdata : ∀ data, (∃ chunk ∈ twoChunks ++ twoChunks.reverse, chunk.data = data) → data = [1] ∨ data = [2] := by
      rintro data ⟨chunk, hmem, rfl⟩
      rw [List.mem_append, List.mem_reverse, or_self] at hmem
      obtain rfl | hmem := List.mem_cons.mp hmem
      · exact .inl rfl
      · obtain rfl := List.mem_singleton.mp hmem
        exact .inr rfl
    intro data hmem data' hmem' heq
    obtain rfl | rfl := hdata data hmem
    · obtain rfl | rfl := hdata data' hmem'
      · rfl
      · exact absurd heq (by decide)
    · obtain rfl | rfl := hdata data' hmem'
      · exact absurd heq (by decide)
      · rfl
  have hcut : (verifyManifest firstBytes (twoManifest 2) twoChunks).accepted = true :=
    accepted_twoManifest 2 (matches_chunkData length_twoChunks_lt (.refl _))
  have hreversed : (verifyManifest firstBytes (twoManifest 2) twoChunks.reverse).accepted = true :=
    accepted_twoManifest 2 (matches_chunkData length_twoChunks_lt (List.reverse_perm _))
  obtain ⟨-, hperm, hbytes, -⟩ := verifyManifest_determines hinj hcut hreversed
  exact ⟨hperm, hbytes⟩

/-- Accepted under a manifest that states another size; and accepted, though the chunks state another number of chunks and
are not put together again. -/
theorem verifyManifest_leaves_open :
    (verifyManifest firstBytes (twoManifest 5) twoChunks).accepted = true ∧
    (twoChunks.map Chunk.size).sum ≠ (twoManifest 5).totalSize ∧
    (verifyManifest firstBytes (twoManifest 5) [Chunk.new firstBytes 0 7 [1], Chunk.new firstBytes 1 7 [2]]).accepted = true ∧
    reassembleChunks firstBytes twoChunks = .ok [1, 2] ∧
    reassembleChunks firstBytes [Chunk.new firstBytes 0 7 [1], Chunk.new firstBytes 1 7 [2]] =
      .error "missing chunks for reassembly" := by
  have hordered : ordered [Chunk.new firstBytes 0 7 [1], Chunk.new firstBytes 1 7 [2]] =
      [Chunk.new firstBytes 0 7 [1], Chunk.new firstBytes 1 7 [2]] :=
    List.mergeSort_of_pairwise (by simp [Chunk.new])
  refine ⟨accepted_twoManifest 5 (matches_chunkData length_twoChunks_lt (.refl _)), by decide, accepted_twoManifest 5 ?_,
    reassembleChunks_chunkData length_twoChunks_lt, ?_⟩
  · refine ⟨rfl, ?_, ?_, ?_⟩
    · rw [hordered]
      intro i chunk hi
      obtain ⟨hlt, rfl⟩ := List.getElem?_eq_some_iff.mp hi
      obtain rfl | rfl : i = 0 ∨ i = 1 := by
        rw [List.length_cons, List.length_singleton] at hlt
        omega
      · rfl
      · rfl
    · intro chunk hmem
      obtain rfl | hmem := List.mem_cons.mp hmem
      · exact verifyChunk_new _ _ _
      · obtain rfl := List.mem_singleton.mp hmem
        exact verifyChunk_new _ _ _
    · have htwo : twoChunks = [Chunk.new firstBytes 0 2 [1], Chunk.new firstBytes 1 2 [2]] := rfl
      rw [hordered, htwo]
      simp only [List.map_cons, List.map_nil, Chunk.new]
  · rw [reassembleChunks, List.length_mergeSort]
    exact if_pos (by decide)

end AgentHalo.Swarm
