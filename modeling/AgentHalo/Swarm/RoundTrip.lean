import AgentHalo.Lib.Outcome
import AgentHalo.Swarm.ChunkStore

/-!
# What a stored asset gives back

A record in the store says at which position its chunk stands, and the store keeps one record for each id. An asset whose
pieces have different ids is given back whole. Where two pieces have one id the record of the first is overwritten by that
of the second, no set of fetched chunks has both positions, and reassembly refuses it: `restores_iff` makes this exact.
-/

namespace AgentHalo.Swarm

open Engine (NucleusDb Clock)
open Engine.NucleusDb (Ready singleWitnessDb)
open Slices (divCeil sliceChunks pieces length_sliceChunks)
open Store (BlobStore KeyMap TypedValue)

variable {P : Platform}

/-- The chunks that the manifest names are there, and put together they are `data`. -/
def Restores (blake3 : Bytes → Vector UInt8 32) (store : ChunkStore P) (manifest : Manifest P) (data : Bytes) : Prop :=
  ∃ held, manifest.chunkHashes.mapM store.getChunk = some held ∧ reassembleChunks blake3 held = .ok data

def pieceIds (blake3 : Bytes → Vector UInt8 32) (data : Bytes) (params : ChunkParams) : List ChunkId :=
  (sliceChunks (max params.chunkSizeBytes 1) data).map (ChunkId.fromBytes blake3)

section Results

variable {blake3 : Bytes → Vector UInt8 32}

theorem nodup_ids_chunkData_iff (data : Bytes) (params : ChunkParams) :
    ((chunkData blake3 data params).map Chunk.id).Nodup ↔ (pieceIds blake3 data params).Nodup := by
  unfold chunkData pieceIds
  split
  · rename_i hempty
    rw [List.isEmpty_iff.mp hempty]
    have hnone : sliceChunks (max params.chunkSizeBytes 1) [] = [] := by
      rw [← List.length_eq_zero_iff, length_sliceChunks, divCeil]
      exact Nat.div_eq_of_lt (by rw [List.length_nil]; omega)
    rw [hnone]
    simp
  · have hids : ∀ total (l : List Bytes),
        (l.mapIdx fun idx piece => Chunk.new blake3 (UInt32.ofNat idx) total piece).map Chunk.id =
          l.map (ChunkId.fromBytes blake3) := by
      intro total l
      refine List.ext_getElem (by simp) ?_
      intro i hi hi'
      simp [Chunk.new]
    dsimp only
    rw [hids]

variable {store store' : ChunkStore P} {manifest : Manifest P} {data : Bytes} {params : ChunkParams} {codec : ChunkCodec P}
  {db db' : NucleusDb P} {chunks : List Chunk} {clock : Nat → Clock} {now : Nat} {chunk : Chunk}

theorem nodup_of_restores (h : Restores blake3 store manifest data) : manifest.chunkHashes.Nodup := by
  obtain ⟨held, hheld, hdata⟩ := h
  have hnodup : (held.map some).Nodup := (nodup_of_reassembleChunks hdata).map (Option.some_injective _)
  rw [← Outcome.mapM_eq_some_iff.mp hheld] at hnodup
  exact hnodup.of_map _

theorem restores_of_getChunk (hcount : (chunkData blake3 data params).length < 2 ^ 32)
    (hhashes : manifest.chunkHashes = (chunkData blake3 data params).map Chunk.id)
    (hall : ∀ chunk ∈ chunkData blake3 data params, store.getChunk chunk.id = some chunk) :
    Restores blake3 store manifest data := by
  refine ⟨chunkData blake3 data params, ?_, reassembleChunks_chunkData hcount⟩
  rw [hhashes, Outcome.mapM_eq_some_iff, List.map_map]
  exact List.map_congr_left hall

theorem getChunk_storeChunks (h : store.storeChunks codec db chunks clock now = some (.ok (), store', db'))
    (hdistinct : (chunks.map Chunk.id).Nodup) (hmem : chunk ∈ chunks) :
    store'.getChunk chunk.id = some chunk := by
  obtain ⟨w, hput, rfl, -⟩ := ChunkStore.storeChunks_ok h
  have hlast : Writes.last (chunks.map fun c => (c.id, c)) chunk.id = some chunk := by
    rw [Writes.last_eq_some_iff]
    · exact List.mem_map.mpr ⟨chunk, hmem, rfl⟩
    · exact List.pairwise_map.mpr (List.pairwise_map.mp hdistinct)
  unfold ChunkStore.getChunk
  rw [ChunkStore.chunks_putChunks hput, Writes.get?_foldl_insert, hlast, Option.some_or]

theorem getChunk_loadFromDb_storeChunks (hcodec : codec.Lawful)
    (h : store.storeChunks codec db chunks clock now = some (.ok (), store', db')) (hdistinct : (chunks.map Chunk.id).Nodup)
    (hroom : BlobStore.HasRoom db.blobStore (chunks.map fun chunk => chunkKey chunk.id)) (hmem : chunk ∈ chunks)
    (hid : ChunkId.new chunk.id = .ok chunk.id) :
    (ChunkStore.loadFromDb codec db').getChunk chunk.id = some chunk := by
  obtain ⟨w, hput, -, hkeymap, htypes, hblobs⟩ := ChunkStore.storeChunks_ok h
  obtain ⟨raw, hkept⟩ := (ChunkStore.kept_putChunks hput hdistinct hroom).1 chunk hmem
  have hread := (hkept.congr hkeymap htypes hblobs).getTyped
  exact ChunkStore.getChunk_loadFromDb hid hread (hcodec.fromSlice_toVec chunk raw hkept.encoded)

theorem new_id_of_mem_chunkData (h : chunk ∈ chunkData blake3 data params) : ChunkId.new chunk.id = .ok chunk.id := by
  obtain ⟨i, hi⟩ := List.mem_iff_getElem?.mp h
  obtain ⟨piece, rfl⟩ := getElem?_chunkData hi
  exact ChunkId.new_fromBytes piece

/-- **What a stored asset gives back.** After the chunks of an asset have been stored, the store restores it by its manifest
exactly if the ids of its pieces are different; so does a store reloaded from the database, as long as the payload store
has room for the chunks. -/
theorem restores_iff {codec : ChunkCodec P} (hcodec : codec.Lawful) {store store' : ChunkStore P} {db db' : NucleusDb P}
    {data : Bytes} {params : ChunkParams} {clock : Nat → Clock} {now : Nat} {builder : ManifestBuilder}
    {createdAt : UInt64} {manifest : Manifest P} (hcount : (chunkData blake3 data params).length < 2 ^ 32)
    (hbuild : builder.build blake3 P (chunkData blake3 data params) createdAt = .ok manifest)
    (hstore : store.storeChunks codec db (chunkData blake3 data params) clock now = some (.ok (), store', db')) :
    (Restores blake3 store' manifest data ↔ (pieceIds blake3 data params).Nodup) ∧
      (Restores blake3 (ChunkStore.loadFromDb codec db') manifest data → (pieceIds blake3 data params).Nodup) ∧
      (BlobStore.HasRoom db.blobStore ((chunkData blake3 data params).map fun chunk => chunkKey chunk.id) →
        (pieceIds blake3 data params).Nodup → Restores blake3 (ChunkStore.loadFromDb codec db') manifest data) := by
  have hhashes := ManifestBuilder.chunkHashes_build hbuild
  rw [← nodup_ids_chunkData_iff, ← hhashes]
  refine ⟨⟨nodup_of_restores, fun hdistinct => ?_⟩, nodup_of_restores, fun hroom hdistinct => ?_⟩
  · rw [hhashes] at hdistinct
    exact restores_of_getChunk hcount hhashes fun chunk hmem => getChunk_storeChunks hstore hdistinct hmem
  · rw [hhashes] at hdistinct
    exact restores_of_getChunk hcount hhashes fun chunk hmem =>
      getChunk_loadFromDb_storeChunks hcodec hstore hdistinct hroom hmem (new_id_of_mem_chunkData hmem)

end Results

/-! ### A store that takes everything -/

namespace ChunkCodec

def encodeNat (n : Nat) : Bytes := List.replicate n 1 ++ [0]

def decodeNat : Bytes → Option (Nat × Bytes)
  | [] => none
  | b :: rest => if b = 0 then some (0, rest) else (decodeNat rest).map fun r => (r.1 + 1, r.2)

def toVec (chunk : Chunk) : Bytes :=
  encodeNat (Text.utf8 chunk.id).length ++ Text.utf8 chunk.id ++ encodeNat chunk.index.toNat
    ++ encodeNat chunk.totalChunks.toNat ++ encodeNat chunk.size ++ chunk.data

def fromSlice (raw : Bytes) : Option Chunk := do
  let (idLen, raw) ← decodeNat raw
  let id ← Store.fromUtf8 (raw.take idLen)
  let (index, raw) ← decodeNat (raw.drop idLen)
  let (totalChunks, raw) ← decodeNat raw
  let (size, data) ← decodeNat raw
  return { id, index := UInt32.ofNat index, totalChunks := UInt32.ofNat totalChunks, size, data }

/-- A codec of the examples below: numbers in unary, the id behind its length. -/
def reference : ChunkCodec .reference where
  chunkToVec chunk := .ok (toVec chunk)
  chunkFromSlice := fromSlice
  manifestFromValue _ := none
  proofFromValue _ := none
  debugCommitError _ := "MonotoneViolation"

theorem decodeNat_encodeNat (n : Nat) (rest : Bytes) : decodeNat (encodeNat n ++ rest) = some (n, rest) := by
  unfold encodeNat
  induction n with
  | zero => rfl
  | succ n ih =>
    rw [List.replicate_succ, List.cons_append, List.cons_append, decodeNat, if_neg (by decide), ih]
    rfl

theorem reference_lawful : reference.Lawful := by
  refine ⟨?_⟩
  rintro chunk raw h
  obtain rfl := Except.ok.inj h
  unfold reference toVec fromSlice
  simp only [List.append_assoc, decodeNat_encodeNat, Option.bind_eq_bind, Option.bind_some, List.take_left,
    List.drop_left, Store.fromUtf8_utf8, UInt32.ofNat_toNat, pure]

end ChunkCodec

section Examples

variable {clock : Nat → Clock}

variable (clock) in
theorem putChunks_of_ready (chunks : List Chunk) {w : ChunkStore.Writing .reference} (hready : Ready w.db)
    (hkeymap : w.db.keymap.Sound) (hwrites : ∀ write ∈ w.writes, write.1 < w.db.keymap.nextIndex) :
    ∃ w', ChunkStore.putChunks ChunkCodec.reference clock w chunks = (.ok (), w') ∧ Ready w'.db ∧
      w'.db.state = w.db.state ∧ w'.writes.length = w.writes.length + chunks.length ∧
      ∀ write ∈ w'.writes, write.1 < w.db.keymap.nextIndex + chunks.length := by
  induction chunks generalizing w with
  | nil => exact ⟨w, rfl, hready, rfl, rfl, hwrites⟩
  | cons chunk rest ih =>
    have hput := NucleusDb.putTyped_of_accepted w.db (chunkKey chunk.id) (.bytes (ChunkCodec.toVec chunk))
      (clock w.writes.length) id
    obtain ⟨-, -, hstate, hnext, -, -⟩ := NucleusDb.putTyped_ok hput
    have hself := KeyMap.get_getOrCreate_self w.db.keymap (chunkKey chunk.id)
    have hsound := hkeymap.getOrCreate (chunkKey chunk.id)
    have hgrow := KeyMap.nextIndex_register_le w.db.keymap [chunkKey chunk.id]
    have hkeep := KeyMap.nextIndex_le_register w.db.keymap [chunkKey chunk.id]
    rw [KeyMap.register_cons, KeyMap.register_nil] at hgrow hkeep
    have hput₁ : ∃ w₁, ChunkStore.putChunk ChunkCodec.reference clock w chunk = (.ok (), w₁) ∧ Ready w₁.db ∧
        w₁.db.state = w.db.state ∧ w₁.db.keymap = (w.db.keymap.getOrCreate (chunkKey chunk.id)).2 ∧
        w₁.writes = w.writes ++ [((w.db.keymap.getOrCreate (chunkKey chunk.id)).1,
          (TypedValue.encode (chunkKey chunk.id) (.bytes (P := Platform.reference) (ChunkCodec.toVec chunk))).1)] := by
      unfold ChunkStore.putChunk
      rw [show ChunkCodec.reference.chunkToVec chunk = .ok (ChunkCodec.toVec chunk) from rfl]
      dsimp only
      rw [hput]
      exact ⟨_, rfl, hready.putTyped _ _ _, hstate, hnext, rfl⟩
    obtain ⟨w₁, hput₁, hready₁, hstate₁, hkeymap₁, hwrites₁⟩ := hput₁
    have hbelow : ∀ write ∈ w₁.writes, write.1 < w₁.db.keymap.nextIndex := by
      rw [hwrites₁, hkeymap₁]
      intro write hmem
      rcases List.mem_append.mp hmem with hold | hnew
      · exact Nat.lt_of_lt_of_le (hwrites write hold) hkeep
      · obtain rfl := List.mem_singleton.mp hnew
        exact hsound.below _ _ hself
    rw [← hkeymap₁] at hsound
    obtain ⟨w', hrest, hready', hstate', hlen', hwrites'⟩ := ih hready₁ hsound hbelow
    refine ⟨w', ?_, hready', hstate'.trans hstate₁, ?_, ?_⟩
    · rw [ChunkStore.putChunks, hput₁]
      exact hrest
    · rw [hlen', hwrites₁, List.length_append, List.length_singleton, List.length_cons]
      omega
    · intro write hmem
      have hlt := hwrites' write hmem
      rw [hkeymap₁] at hlt
      rw [List.length_singleton] at hgrow
      rw [List.length_cons]
      omega

variable (clock) in
theorem storeChunks_singleWitnessDb (chunks : List Chunk) (hlen : chunks.length ≤ 65536) (now : Nat) :
    ∃ store' db', ChunkStore.new.storeChunks ChunkCodec.reference singleWitnessDb chunks clock now =
      some (.ok (), store', db') := by
  obtain ⟨w, hput, hready, hstate, hcount, hbelow⟩ := putChunks_of_ready clock chunks
    (w := ⟨ChunkStore.new, singleWitnessDb, []⟩) NucleusDb.singleWitnessDb_ready KeyMap.sound_new (by simp)
  unfold ChunkStore.storeChunks
  rw [hput]
  dsimp only
  by_cases hempty : w.writes.isEmpty = true
  · rw [if_pos hempty]
    exact ⟨_, _, rfl⟩
  · have hwrites : w.writes.length = chunks.length := hcount.trans (Nat.zero_add _)
    have hvalues : (Engine.apply w.db.state ⟨w.writes⟩).values.length ≤ chunks.length := by
      rw [hstate]
      refine Engine.length_apply_le (Nat.zero_le _) ?_
      intro write hmem
      exact Nat.lt_of_lt_of_eq (hbelow write hmem) (Nat.zero_add _)
    have hcommit : ∃ entry db', w.db.commit ⟨w.writes⟩ [] now = some (.ok entry, db') := by
      refine hready.commit now ?_
      have hdelta : w.writes.length ≤ (NucleusDb.defaultParams .binaryMerkle).maxDeltaWrites := hwrites.trans_le hlen
      have hvector : (Engine.apply w.db.state ⟨w.writes⟩).values.length ≤
          (NucleusDb.defaultParams .binaryMerkle).maxVectorLen :=
        hvalues.trans (hlen.trans (show 65536 ≤ 1048576 by omega))
      unfold Engine.validateCommitShape
      rw [if_neg (Nat.not_lt.mpr hdelta), if_neg (Nat.not_lt.mpr hvector)]
    obtain ⟨entry, db', hcommit⟩ := hcommit
    rw [if_neg hempty, hcommit]
    exact ⟨_, _, rfl⟩

def sampleBuilder : ManifestBuilder := ⟨.binary, "did:key:test", ⟨1⟩⟩

theorem sampleBuilder_build (chunks : List Chunk) (hne : chunks ≠ []) (hsize : ∀ chunk ∈ chunks, chunk.size ≤ 1) :
    ∃ manifest, sampleBuilder.build firstBytes .reference chunks 0 = .ok manifest := by
  have hpolicy : (chunks.any fun chunk => decide (max sampleBuilder.params.chunkSizeBytes 1 < chunk.size)) = false := by
    rw [List.any_eq_false]
    intro chunk hmem
    have hle := hsize chunk hmem
    simp [sampleBuilder]
    omega
  unfold ManifestBuilder.build
  rw [if_neg (by simpa using hne), hpolicy]
  exact ⟨_, rfl⟩

/-- Two different bytes in pieces of one byte. -/
theorem restores_distinct : ∃ store' db' manifest,
    ChunkStore.new.storeChunks ChunkCodec.reference singleWitnessDb (chunkData firstBytes [1, 2] ⟨1⟩) (fun _ => ⟨0, 0⟩) 0 =
      some (.ok (), store', db') ∧
    sampleBuilder.build firstBytes .reference (chunkData firstBytes [1, 2] ⟨1⟩) 0 = .ok manifest ∧
    Restores firstBytes store' manifest [1, 2] ∧
    Restores firstBytes (ChunkStore.loadFromDb ChunkCodec.reference db') manifest [1, 2] := by
  have hdistinct : (pieceIds firstBytes [1, 2] ⟨1⟩).Nodup := by
    have hids : pieceIds firstBytes [1, 2] ⟨1⟩ = [ChunkId.fromBytes firstBytes [1], ChunkId.fromBytes firstBytes [2]] := rfl
    rw [hids, List.nodup_cons, List.mem_singleton]
    refine ⟨?_, List.nodup_singleton _⟩
    intro heq
    have hbytes := Text.hexEncode_inj heq
    revert hbytes
    decide
  obtain ⟨store', db', hstore⟩ := storeChunks_singleWitnessDb (fun _ => ⟨0, 0⟩)
    (chunkData firstBytes [1, 2] ⟨1⟩) (by decide) 0
  obtain ⟨manifest, hbuild⟩ := sampleBuilder_build (chunkData firstBytes [1, 2] ⟨1⟩)
    (chunkData_ne_nil _ _) (by simp [chunkData, sliceChunks, pieces, divCeil, Chunk.new])
  have hroom : BlobStore.HasRoom singleWitnessDb.blobStore
      ((chunkData firstBytes [1, 2] ⟨1⟩).map fun chunk => chunkKey chunk.id) := by
    unfold BlobStore.HasRoom
    refine Nat.le_trans (Nat.add_le_add (Nat.le_refl 0) (List.length_filter_le _ _)) ?_
    decide
  obtain ⟨hmemory, -, hreload⟩ := restores_iff ChunkCodec.reference_lawful (by decide) hbuild hstore
  exact ⟨store', db', manifest, hstore, hbuild, hmemory.mpr hdistinct, hreload hroom hdistinct⟩

/-- Two equal bytes in pieces of one byte are stored under a manifest and not given back. -/
theorem repeated_not_restored : ∃ store' db' manifest,
    ChunkStore.new.storeChunks ChunkCodec.reference singleWitnessDb (chunkData firstBytes [7, 7] ⟨1⟩) (fun _ => ⟨0, 0⟩) 0 =
      some (.ok (), store', db') ∧
    sampleBuilder.build firstBytes .reference (chunkData firstBytes [7, 7] ⟨1⟩) 0 = .ok manifest ∧
    ¬ Restores firstBytes store' manifest [7, 7] ∧
    ¬ Restores firstBytes (ChunkStore.loadFromDb ChunkCodec.reference db') manifest [7, 7] := by
  obtain ⟨store', db', hstore⟩ := storeChunks_singleWitnessDb (fun _ => ⟨0, 0⟩)
    (chunkData firstBytes [7, 7] ⟨1⟩) (by decide) 0
  obtain ⟨manifest, hbuild⟩ := sampleBuilder_build (chunkData firstBytes [7, 7] ⟨1⟩)
    (chunkData_ne_nil _ _) (by simp [chunkData, sliceChunks, pieces, divCeil, Chunk.new])
  have hrepeated : ¬ manifest.chunkHashes.Nodup := by
    rw [ManifestBuilder.chunkHashes_build hbuild]
    intro hnodup
    exact (List.nodup_cons.mp hnodup).1 List.mem_cons_self
  exact ⟨store', db', manifest, hstore, hbuild, fun h => hrepeated (nodup_of_restores h),
    fun h => hrepeated (nodup_of_restores h)⟩

end Examples

end AgentHalo.Swarm
