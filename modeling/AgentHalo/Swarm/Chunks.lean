import AgentHalo.Base.Scan
import AgentHalo.Base.Slices
import AgentHalo.Pod.Envelope

/-!
# Chunks and manifests

An asset is cut into pieces of one size. A piece becomes a chunk: its bytes under the BLAKE3 hash of the bytes, with its
position and the number of pieces. A manifest names the chunks of an asset by hash, in order. Reassembly sorts the chunks
by position, checks that they are the whole sequence, and joins their bytes.

The hash function is a parameter of the modules of this directory.
-/

namespace AgentHalo.Swarm

open Text (utf8 hexEncode hexByte hexDigit toAsciiLowercase toAsciiLowercase_hexEncode)
open Slices (divCeil sliceChunks length_sliceChunks flatten_sliceChunks divCeil_pos)
open Pod (ProofEnvelope)

/-! ### Identifiers -/

/-- Rust's `u8::is_ascii_hexdigit`. -/
def isAsciiHexdigit (b : UInt8) : Bool := (48 ≤ b && b ≤ 57) || (65 ≤ b && b ≤ 70) || (97 ≤ b && b ≤ 102)

def isValidHex32 (s : String) : Bool := (utf8 s).length == 64 && (utf8 s).all isAsciiHexdigit

/-- The text of a chunk's hash. Decoding takes any text; `ChunkId.new` takes hashes only. -/
abbrev ChunkId := String

def ChunkId.new (hex : String) : Except String ChunkId :=
  let value := toAsciiLowercase hex
  if !isValidHex32 value then .error "chunk id must be 64 hex chars" else .ok value

abbrev ManifestId := String

def ManifestId.new (hex : String) : Except String ManifestId :=
  let value := toAsciiLowercase hex
  if !isValidHex32 value then .error "manifest id must be 64 hex chars" else .ok value

inductive AssetType where
  | binary
  | text
  | model
  | dataset
  | containerLayer
  | other
deriving DecidableEq, Repr

structure Chunk where
  id : ChunkId
  index : UInt32
  totalChunks : UInt32
  size : Nat
  data : Bytes
deriving DecidableEq, Repr

structure ChunkParams where
  chunkSizeBytes : Nat
deriving DecidableEq, Repr

/-! ### Cutting and joining -/

section Hash

variable (blake3 : Bytes → Vector UInt8 32)

def ChunkId.fromBytes (data : Bytes) : ChunkId := hexEncode (blake3 data).toList

def ManifestId.fromBytes (data : Bytes) : ManifestId := hexEncode (blake3 data).toList

def Chunk.new (index totalChunks : UInt32) (data : Bytes) : Chunk where
  id := ChunkId.fromBytes blake3 data
  index := index
  totalChunks := totalChunks
  size := data.length
  data := data

def chunkData (data : Bytes) (params : ChunkParams) : List Chunk :=
  if data.isEmpty then [Chunk.new blake3 0 1 []]
  else
    let chunkSize := max params.chunkSizeBytes 1
    let totalChunks := UInt32.ofNat (divCeil data.length chunkSize)
    (sliceChunks chunkSize data).mapIdx fun idx piece => Chunk.new blake3 (UInt32.ofNat idx) totalChunks piece

def verifyChunk (chunk : Chunk) : Bool :=
  chunk.id == ChunkId.fromBytes blake3 chunk.data && chunk.size == chunk.data.length

/-- The chunks from position `expected` on are in their places. -/
def checkSequence (totalChunks : UInt32) : Nat → List Chunk → Except String Unit
  | _, [] => .ok ()
  | expected, chunk :: rest =>
    if !verifyChunk blake3 chunk then .error ("chunk " ++ toString chunk.index ++ " failed verification")
    else if chunk.index ≠ UInt32.ofNat expected then .error "chunk ordering is incomplete"
    else if chunk.totalChunks ≠ totalChunks then .error "chunk set disagrees on total_chunks"
    else checkSequence totalChunks (expected + 1) rest

def reassembleChunks : List Chunk → Except String Bytes
  | [] => .ok []
  | first :: rest =>
    let ordered := (first :: rest).mergeSort fun a b => decide (a.index ≤ b.index)
    if ordered.length ≠ first.totalChunks.toNat then .error "missing chunks for reassembly"
    else (checkSequence blake3 first.totalChunks 0 ordered).map fun _ => ordered.flatMap Chunk.data

/-! ### Manifests -/

structure Manifest (P : Platform) where
  manifestId : ManifestId
  rootHash : String
  chunkHashes : List ChunkId
  totalSize : Nat
  assetType : AssetType
  creatorDid : String
  createdAt : UInt64
  proof : Option (ProofEnvelope P)

structure ManifestBuilder where
  assetType : AssetType
  creatorDid : String
  params : ChunkParams

def computeRootHash (chunkHashes : List ChunkId) : String :=
  hexEncode (blake3 (chunkHashes.flatMap fun chunkHash => utf8 chunkHash ++ utf8 "|")).toList

/-- The manifest of `chunks` at the time `now`, without a proof. -/
def ManifestBuilder.build (P : Platform) (builder : ManifestBuilder) (chunks : List Chunk) (now : UInt64) :
    Except String (Manifest P) :=
  if chunks.isEmpty then .error "manifest requires at least one chunk"
  else if chunks.any fun chunk => decide (max builder.params.chunkSizeBytes 1 < chunk.size) then
    .error "chunk exceeds manifest chunk size policy"
  else
    let chunkHashes := chunks.map Chunk.id
    let rootHash := computeRootHash blake3 chunkHashes
    .ok
      { manifestId := ManifestId.fromBytes blake3 (utf8 rootHash)
        rootHash
        chunkHashes
        totalSize := (chunks.map Chunk.size).sum
        assetType := builder.assetType
        creatorDid := builder.creatorDid
        createdAt := now
        proof := none }

variable {blake3}

variable {chunks : List Chunk}

theorem ManifestBuilder.chunkHashes_build {P : Platform} {builder : ManifestBuilder}
    {now : UInt64} {manifest : Manifest P} (h : builder.build blake3 P chunks now = .ok manifest) :
    manifest.chunkHashes = chunks.map Chunk.id := by
  unfold build at h
  split at h
  · cases h
  split at h
  · cases h
  cases h
  rfl

/-! ### Ids read back -/

theorem isValidHex32_hexEncode {bytes : Bytes} (hlen : bytes.length = 32) : isValidHex32 (hexEncode bytes) = true := by
  have hdigits : ∀ d : Fin 16, (String.utf8EncodeChar (hexDigit d.val)).all isAsciiHexdigit = true := by decide
  have hall : (utf8 (hexEncode bytes)).all isAsciiHexdigit = true := by
    unfold utf8 hexEncode
    rw [String.toList_ofList, List.flatMap_assoc, List.all_flatMap, List.all_eq_true]
    intro b _
    have hb := b.toNat_lt
    have hhigh := hdigits ⟨b.toNat / 16, by omega⟩
    have hlow := hdigits ⟨b.toNat % 16, by omega⟩
    simp only at hhigh hlow
    simp [hexByte, hhigh, hlow]
  unfold isValidHex32
  rw [Text.utf8_hexEncode_length, hlen, hall]
  rfl

theorem ChunkId.new_fromBytes (data : Bytes) :
    ChunkId.new (ChunkId.fromBytes blake3 data) = .ok (ChunkId.fromBytes blake3 data) := by
  unfold ChunkId.new ChunkId.fromBytes
  dsimp only
  rw [toAsciiLowercase_hexEncode, isValidHex32_hexEncode (by simp)]
  rfl

theorem toAsciiLowercase_of_new {s : String} {id : ChunkId} (h : ChunkId.new s = .ok id) : toAsciiLowercase s = id := by
  unfold ChunkId.new at h
  dsimp only at h
  split at h
  · cases h
  · exact Except.ok.inj h

/-! ### A sequence that passes the check -/

theorem verifyChunk_new (index totalChunks : UInt32) (data : Bytes) :
    verifyChunk blake3 (Chunk.new blake3 index totalChunks data) = true := by
  simp [verifyChunk, Chunk.new]

theorem checkSequence_eq_ok_iff {totalChunks : UInt32} {expected : Nat} :
    checkSequence blake3 totalChunks expected chunks = .ok () ↔
      ∀ i chunk, chunks[i]? = some chunk → verifyChunk blake3 chunk = true ∧
        chunk.index = UInt32.ofNat (expected + i) ∧ chunk.totalChunks = totalChunks := by
  induction chunks generalizing expected with
  | nil => simp [checkSequence]
  | cons c rest ih =>
    unfold checkSequence
    constructor
    · intro h
      split at h
      · cases h
      rename_i hverify
      split at h
      · cases h
      rename_i hindex
      split at h
      · cases h
      rename_i htotal
      intro i chunk hchunk
      cases i with
      | zero =>
        obtain rfl := Option.some.inj hchunk
        exact ⟨by simpa using hverify, not_not.mp hindex, not_not.mp htotal⟩
      | succ i =>
        have hrest := ih.mp h i chunk hchunk
        rwa [Nat.add_right_comm] at hrest
    · intro h
      obtain ⟨hverify, hindex, htotal⟩ := h 0 c rfl
      rw [Nat.add_zero] at hindex
      rw [if_neg (by simp [hverify]), if_neg (not_not.mpr hindex), if_neg (not_not.mpr htotal), ih]
      intro i chunk hchunk
      have hrest := h (i + 1) chunk hchunk
      rwa [← Nat.add_assoc, Nat.add_right_comm] at hrest

theorem nodup_index_of_checkSequence {totalChunks : UInt32}
    (h : checkSequence blake3 totalChunks 0 chunks = .ok ()) (hlen : chunks.length ≤ totalChunks.toNat) :
    (chunks.map Chunk.index).Nodup := by
  rw [List.nodup_iff_injective_get]
  intro i j hij
  obtain ⟨i, hi⟩ := i
  obtain ⟨j, hj⟩ := j
  rw [List.length_map] at hi hj
  have hall := checkSequence_eq_ok_iff.mp h
  obtain ⟨-, hindexI, -⟩ := hall i chunks[i] (List.getElem?_eq_getElem hi)
  obtain ⟨-, hindexJ, -⟩ := hall j chunks[j] (List.getElem?_eq_getElem hj)
  simp only [List.get_eq_getElem, List.getElem_map, hindexI, hindexJ, Nat.zero_add] at hij
  have hbound := totalChunks.toNat_lt
  have hnat := congrArg UInt32.toNat hij
  rw [UInt32.toNat_ofNat_of_lt' (by simp [UInt32.size]; omega),
    UInt32.toNat_ofNat_of_lt' (by simp [UInt32.size]; omega)] at hnat
  exact Fin.ext hnat

variable {data : Bytes}

theorem nodup_of_reassembleChunks (h : reassembleChunks blake3 chunks = .ok data) : chunks.Nodup := by
  cases chunks with
  | nil => exact List.nodup_nil
  | cons first rest =>
    unfold reassembleChunks at h
    dsimp only at h
    split at h
    · cases h
    rename_i hlen
    cases hcheck : checkSequence blake3 first.totalChunks 0
        ((first :: rest).mergeSort fun a b => decide (a.index ≤ b.index)) with
    | error e =>
      rw [hcheck] at h
      cases h
    | ok u =>
      have hnodup := List.Nodup.of_map _ (nodup_index_of_checkSequence hcheck (not_not.mp hlen).le)
      exact (List.mergeSort_perm _ _).nodup_iff.mp hnodup

/-! ### Reassembly of what was cut -/

theorem chunkData_ne_nil (data : Bytes) (params : ChunkParams) : chunkData blake3 data params ≠ [] := by
  unfold chunkData
  split
  · simp
  · rename_i hne
    have hpos : 0 < data.length := List.length_pos_iff.mpr (by simpa using hne)
    have hcount := divCeil_pos hpos (show 0 < max params.chunkSizeBytes 1 by omega)
    rw [← List.length_pos_iff, List.length_mapIdx, length_sliceChunks]
    exact hcount

variable {params : ChunkParams}

theorem getElem?_chunkData {i : Nat} {chunk : Chunk} (h : (chunkData blake3 data params)[i]? = some chunk) :
    ∃ piece, chunk = Chunk.new blake3 (UInt32.ofNat i)
      (UInt32.ofNat (chunkData blake3 data params).length) piece := by
  unfold chunkData at h ⊢
  split at h
  · rename_i hempty
    rw [if_pos hempty]
    obtain ⟨rfl, rfl⟩ : i = 0 ∧ Chunk.new blake3 0 1 [] = chunk := by
      cases i with
      | zero => exact ⟨rfl, Option.some.inj h⟩
      | succ i => simp at h
    exact ⟨[], rfl⟩
  · rename_i hne
    rw [if_neg hne]
    rw [List.getElem?_mapIdx, Option.map_eq_some_iff] at h
    obtain ⟨piece, -, rfl⟩ := h
    exact ⟨piece, by rw [List.length_mapIdx, length_sliceChunks]⟩

variable (blake3) in
theorem flatMap_data_chunkData (data : Bytes) (params : ChunkParams) :
    (chunkData blake3 data params).flatMap Chunk.data = data := by
  unfold chunkData
  split
  · rename_i hempty
    rw [List.isEmpty_iff.mp hempty]
    rfl
  · dsimp only
    have hpieces : ((sliceChunks (max params.chunkSizeBytes 1) data).mapIdx fun idx piece =>
        Chunk.new blake3 (UInt32.ofNat idx) (UInt32.ofNat (divCeil data.length (max params.chunkSizeBytes 1))) piece).map
          Chunk.data = sliceChunks (max params.chunkSizeBytes 1) data := by
      refine List.ext_getElem (by simp) ?_
      intro i hi hi'
      simp [Chunk.new]
    rw [List.flatMap_def, hpieces, flatten_sliceChunks (by omega)]

theorem sorted_chunkData (hcount : (chunkData blake3 data params).length < 2 ^ 32) :
    (chunkData blake3 data params).Pairwise fun a b => decide (a.index ≤ b.index) = true := by
  rw [List.pairwise_iff_getElem]
  intro i j hi hj hij
  obtain ⟨_, hchunkI⟩ := getElem?_chunkData (List.getElem?_eq_getElem hi)
  obtain ⟨_, hchunkJ⟩ := getElem?_chunkData (List.getElem?_eq_getElem hj)
  rw [hchunkI, hchunkJ, decide_eq_true_eq]
  unfold Chunk.new
  dsimp only
  rw [UInt32.le_iff_toNat_le, UInt32.toNat_ofNat_of_lt' (by simp [UInt32.size]; omega),
    UInt32.toNat_ofNat_of_lt' (by simp [UInt32.size]; omega)]
  omega

theorem reassembleChunks_chunkData (hcount : (chunkData blake3 data params).length < 2 ^ 32) :
    reassembleChunks blake3 (chunkData blake3 data params) = .ok data := by
  have hsorted := sorted_chunkData hcount
  have hflat := flatMap_data_chunkData blake3 data params
  have hall := fun i chunk (h : (chunkData blake3 data params)[i]? = some chunk) => getElem?_chunkData h
  cases hchunks : chunkData blake3 data params with
  | nil => exact absurd hchunks (chunkData_ne_nil data params)
  | cons first rest =>
    rw [hchunks] at hsorted hflat hall hcount
    obtain ⟨_, hfirst⟩ := hall 0 first rfl
    have htotal : first.totalChunks = UInt32.ofNat (first :: rest).length := by rw [hfirst]; rfl
    have hlen : first.totalChunks.toNat = (first :: rest).length := by
      rw [htotal, UInt32.toNat_ofNat_of_lt' (by simpa [UInt32.size] using hcount)]
    have hcheck : checkSequence blake3 first.totalChunks 0 (first :: rest) = .ok () := by
      refine checkSequence_eq_ok_iff.mpr ?_
      intro i chunk hchunk
      obtain ⟨piece, rfl⟩ := hall i chunk hchunk
      refine ⟨verifyChunk_new _ _ _, ?_, htotal.symm⟩
      rw [Nat.zero_add]
      rfl
    unfold reassembleChunks
    dsimp only
    rw [List.mergeSort_of_pairwise hsorted, if_neg (not_not.mpr hlen.symm), hcheck]
    exact congrArg Except.ok hflat

end Hash

def firstBytes (data : Bytes) : Vector UInt8 32 := Vector.ofFn fun i => data.getD i 0

end AgentHalo.Swarm
