import AgentHalo.Engine.Registration
import AgentHalo.Engine.TypedLaw
import AgentHalo.Swarm.Chunks

/-!
# The chunk store

A map from ids to chunks, kept in memory and written through to the typed store of a database: a chunk goes under the key
`swarm/chunk/` followed by its id, as bytes of its JSON form. `load_from_db` rebuilds the maps from the keys of the
database, in key order, so that the last key of an id decides. Ids are read without regard to letter case, and the key in
lower case comes last: `getChunk_loadFromDb` says that this is the key that counts.
-/

namespace AgentHalo.Swarm

open Text (toAsciiLowercase stripPrefix)
open Pod (ProofEnvelope)
open Engine (NucleusDb CommitError Clock)
open Store (BlobStore KeyMap TypeMap)

/-- The JSON forms of what the store keeps, and the derived `Debug` form of a commit error. -/
structure ChunkCodec (P : Platform) where
  chunkToVec : Chunk → Except String Bytes
  chunkFromSlice : Bytes → Option Chunk
  manifestFromValue : P.json.Value → Option (Manifest P)
  proofFromValue : P.json.Value → Option (ProofEnvelope P)
  debugCommitError : CommitError → String

/-- A written chunk reads back. -/
structure ChunkCodec.Lawful {P : Platform} (codec : ChunkCodec P) : Prop where
  fromSlice_toVec : ∀ chunk raw, codec.chunkToVec chunk = .ok raw → codec.chunkFromSlice raw = some chunk

structure ChunkStore (P : Platform) where
  chunks : OrdMap ChunkId Chunk
  manifests : OrdMap ManifestId (Manifest P)
  activeTransfers : Nat

variable {P : Platform}

def chunkKey (id : ChunkId) : String := "swarm/chunk/" ++ id

namespace ChunkStore

def new : ChunkStore P := ⟨∅, ∅, 0⟩

def getChunk (store : ChunkStore P) (id : ChunkId) : Option Chunk := store.chunks[id]?

section Codec

variable (codec : ChunkCodec P)

/-! ### Storing -/

/-- The locals of `store_chunks` and the two things it changes. -/
structure Writing (P : Platform) where
  store : ChunkStore P
  db : NucleusDb P
  writes : List (Nat × UInt64)

def putChunk (clock : Nat → Clock) (w : Writing P) (chunk : Chunk) : Except String Unit × Writing P :=
  match codec.chunkToVec chunk with
  | .error e => (.error ("serialize chunk: " ++ e), w)
  | .ok raw =>
    match w.db.putTyped (chunkKey chunk.id) (.bytes raw) (clock w.writes.length) with
    | (.error e, db) => (.error e, { w with db })
    | (.ok write, db) =>
      (.ok (),
        { store := { w.store with chunks := w.store.chunks.insert chunk.id chunk }
          db
          writes := w.writes ++ [write] })

def putChunks (clock : Nat → Clock) (w : Writing P) : List Chunk → Except String Unit × Writing P
  | [] => (.ok (), w)
  | chunk :: rest =>
    match putChunk codec clock w chunk with
    | (.error e, w) => (.error e, w)
    | (.ok (), w) => putChunks clock w rest

/-- `clock i` is the wall clock at the typed write number `i`, `now` at the commit; `none` is a panic of the backend. -/
def storeChunks (store : ChunkStore P) (db : NucleusDb P) (chunks : List Chunk) (clock : Nat → Clock) (now : Nat) :
    Option (Except String Unit × ChunkStore P × NucleusDb P) :=
  match putChunks codec clock ⟨store, db, []⟩ chunks with
  | (.error e, w) => some (.error e, w.store, w.db)
  | (.ok (), w) =>
    if w.writes.isEmpty then some (.ok (), w.store, w.db)
    else
      match w.db.commit ⟨w.writes⟩ [] now with
      | none => none
      | some (.error e, db) => some (.error ("commit chunks: " ++ codec.debugCommitError e), w.store, db)
      | some (.ok _, db) => some (.ok (), w.store, db)

/-! ### Loading -/

structure Loading (P : Platform) where
  chunks : OrdMap ChunkId Chunk
  manifests : OrdMap ManifestId (Manifest P)
  proofs : OrdMap ManifestId (ProofEnvelope P)

/-- The chunk under a key, for the id that follows the prefix. -/
def chunkAt (db : NucleusDb P) (key id : String) : Option (ChunkId × Chunk) :=
  match db.getTyped key with
  | some (.bytes raw) => (codec.chunkFromSlice raw).bind fun chunk =>
    (ChunkId.new id).toOption.map fun chunkId => (chunkId, chunk)
  | _ => none

/-- What a key of the other two kinds holds, for the id that follows the prefix. -/
def jsonAt {V : Type} (fromValue : P.json.Value → Option V) (db : NucleusDb P) (key id : String) :
    Option (ManifestId × V) :=
  match db.getTyped key with
  | some (.json value) => (fromValue value).bind fun v => (ManifestId.new id).toOption.map fun manifestId => (manifestId, v)
  | _ => none

def insertSome {V : Type} (m : OrdMap String V) : Option (String × V) → OrdMap String V
  | some (k, v) => m.insert k v
  | none => m

def loadKey (db : NucleusDb P) (l : Loading P) (key : String) : Loading P :=
  match stripPrefix key "swarm/chunk/" with
  | some id => { l with chunks := insertSome l.chunks (chunkAt codec db key id) }
  | none =>
    match stripPrefix key "swarm/manifest/" with
    | some id => { l with manifests := insertSome l.manifests (jsonAt codec.manifestFromValue db key id) }
    | none =>
      match stripPrefix key "swarm/manifest-proof/" with
      | some id => { l with proofs := insertSome l.proofs (jsonAt codec.proofFromValue db key id) }
      | none => l

def attachProof (manifests : OrdMap ManifestId (Manifest P)) (entry : ManifestId × ProofEnvelope P) :
    OrdMap ManifestId (Manifest P) :=
  match manifests[entry.1]? with
  | some manifest => manifests.insert entry.1 { manifest with proof := some entry.2 }
  | none => manifests

def loadFromDb (db : NucleusDb P) : ChunkStore P :=
  let l := (db.keymap.allKeys.map Prod.fst).foldl (loadKey codec db) ⟨∅, ∅, ∅⟩
  { chunks := l.chunks, manifests := l.proofs.toList.foldl attachProof l.manifests, activeTransfers := 0 }

end Codec

/-! ### Keys -/

theorem chunkKey_lt_chunkKey {s id : String} (h : s < id) : chunkKey s < chunkKey id := by
  rw [String.lt_iff] at h ⊢
  unfold chunkKey
  rw [String.toList_append, String.toList_append]
  exact List.append_left_lt h

theorem chunkKey_inj {id id' : String} (h : chunkKey id = chunkKey id') : id = id' :=
  (String.append_right_inj "swarm/chunk/").mp h

/-! ### What a reload finds -/

variable {db : NucleusDb P} {raw : Bytes} {chunk : Chunk}

section Reload

variable (codec : ChunkCodec P)

def entryAt (db : NucleusDb P) (key : String) : Option (ChunkId × Chunk) :=
  (stripPrefix key "swarm/chunk/").bind (chunkAt codec db key)

theorem chunks_loadKey (db : NucleusDb P) (l : Loading P) (key : String) :
    (loadKey codec db l key).chunks = insertSome l.chunks (entryAt codec db key) := by
  unfold loadKey entryAt
  cases stripPrefix key "swarm/chunk/" with
  | some id => rfl
  | none =>
    cases stripPrefix key "swarm/manifest/" with
    | some id => rfl
    | none =>
      cases stripPrefix key "swarm/manifest-proof/" with
      | some id => rfl
      | none => rfl

theorem chunks_foldl_loadKey (db : NucleusDb P) (keys : List String) (l : Loading P) :
    (keys.foldl (loadKey codec db) l).chunks =
      (keys.filterMap (entryAt codec db)).foldl (fun m w => m.insert w.1 w.2) l.chunks := by
  induction keys generalizing l with
  | nil => rfl
  | cons key rest ih =>
    rw [List.foldl_cons, ih, chunks_loadKey, List.filterMap_cons]
    cases entryAt codec db key with
    | none => rfl
    | some entry => rfl

variable {codec}

theorem entryAt_eq_some {key : String} {entry : ChunkId × Chunk}
    (h : entryAt codec db key = some entry) : ∃ s, key = chunkKey s ∧ toAsciiLowercase s = entry.1 := by
  unfold entryAt at h
  obtain ⟨s, hs, hentry⟩ := Option.bind_eq_some_iff.mp h
  refine ⟨s, Text.eq_append_of_stripPrefix hs, ?_⟩
  unfold chunkAt at hentry
  split at hentry
  · obtain ⟨chunk, -, hid⟩ := Option.bind_eq_some_iff.mp hentry
    obtain ⟨id, hnew, rfl⟩ := Option.map_eq_some_iff.mp hid
    cases hparse : ChunkId.new s with
    | error e =>
      rw [hparse] at hnew
      cases hnew
    | ok id' =>
      rw [hparse] at hnew
      obtain rfl := Option.some.inj hnew
      exact toAsciiLowercase_of_new hparse
  · cases hentry

theorem getChunk_loadFromDb {id : ChunkId}
    (hid : ChunkId.new id = .ok id) (hread : db.getTyped (chunkKey id) = some (.bytes raw))
    (hdecode : codec.chunkFromSlice raw = some chunk) : (loadFromDb codec db).getChunk id = some chunk := by
  have hmem : chunkKey id ∈ db.keymap.allKeys.map Prod.fst := by
    cases hidx : db.keymap.get (chunkKey id) with
    | none =>
      rw [NucleusDb.getTyped_of_absent hidx] at hread
      cases hread
    | some idx => exact List.mem_map.mpr ⟨_, (db.keymap.mem_allKeys _ idx).mpr hidx, rfl⟩
  have hsorted : (db.keymap.allKeys.map Prod.fst).Pairwise fun a b => compare a b = .lt :=
    List.pairwise_map.mpr Std.ExtTreeMap.ordered_keys_toList
  have hentry : entryAt codec db (chunkKey id) = some (id, chunk) := by
    unfold entryAt chunkKey
    rw [Text.stripPrefix_append, Option.bind_some]
    unfold chunkAt
    unfold chunkKey at hread
    rw [hread]
    dsimp only
    rw [hdecode, hid]
    rfl
  obtain ⟨front, back, hkeys⟩ := List.append_of_mem hmem
  have hback : ∀ w ∈ back.filterMap (entryAt codec db), w.1 ≠ id := by
    rintro w hw rfl
    obtain ⟨key, hkey, hwkey⟩ := List.mem_filterMap.mp hw
    obtain ⟨s, rfl, hs⟩ := entryAt_eq_some hwkey
    rw [hkeys] at hsorted
    have hlt : chunkKey w.1 < chunkKey s :=
      compareOfLessAndEq_eq_lt.mp ((List.pairwise_cons.mp (List.pairwise_append.mp hsorted).2.1).1 _ hkey)
    -- the other spellings of the id come before the one in lower case
    by_cases hcase : s = toAsciiLowercase s
    · rw [← hs, ← hcase] at hlt
      exact String.lt_irrefl _ hlt
    · have hother := chunkKey_lt_chunkKey (Text.lt_toAsciiLowercase hcase)
      rw [hs] at hother
      exact String.lt_asymm hlt hother
  have hlast : Writes.last ((db.keymap.allKeys.map Prod.fst).filterMap (entryAt codec db)) id = some chunk := by
    rw [hkeys, List.filterMap_append, List.filterMap_cons, hentry]
    exact Writes.last_append_cons _ hback
  unfold getChunk loadFromDb
  dsimp only
  rw [chunks_foldl_loadKey, Writes.get?_foldl_insert, hlast, Option.some_or]

end Reload

/-! ### What storing leaves -/

section Stored

variable {codec : ChunkCodec P} {clock : Nat → Clock}

/-- The database holds the JSON form of a chunk under its key. -/
structure Kept (codec : ChunkCodec P) (db : NucleusDb P) (chunk : Chunk) (raw : Bytes) : Prop where
  encoded : codec.chunkToVec chunk = .ok raw
  indexed : (db.keymap.get (chunkKey chunk.id)).isSome
  tagged : db.typeMap.get (chunkKey chunk.id) = .bytes
  payload : BlobStore.get db.blobStore (chunkKey chunk.id) = some raw

theorem Kept.getTyped (h : Kept codec db chunk raw) : db.getTyped (chunkKey chunk.id) = some (.bytes raw) := by
  obtain ⟨idx, hidx⟩ := Option.isSome_iff_exists.mp h.indexed
  rw [NucleusDb.getTyped_of_index hidx, h.tagged, h.payload]
  rfl

theorem Kept.congr {db' : NucleusDb P} (h : Kept codec db chunk raw)
    (hkeymap : db'.keymap = db.keymap) (htypes : db'.typeMap = db.typeMap) (hblobs : db'.blobStore = db.blobStore) :
    Kept codec db' chunk raw where
  encoded := h.encoded
  indexed := by
    rw [hkeymap]
    exact h.indexed
  tagged := by
    rw [htypes]
    exact h.tagged
  payload := by
    rw [hblobs]
    exact h.payload

variable {w w' : Writing P}

theorem putChunk_ok (h : putChunk codec clock w chunk = (.ok (), w')) :
    w'.store.chunks = w.store.chunks.insert chunk.id chunk ∧ ∃ raw now,
      codec.chunkToVec chunk = .ok raw ∧
      w'.db.keymap = (w.db.keymap.getOrCreate (chunkKey chunk.id)).2 ∧
      w'.db.typeMap = w.db.typeMap.set (chunkKey chunk.id) .bytes ∧
      w'.db.blobStore = BlobStore.put w.db.blobStore (chunkKey chunk.id) raw now := by
  unfold putChunk at h
  cases hraw : codec.chunkToVec chunk with
  | error e =>
    rw [hraw] at h
    cases h
  | ok raw =>
    rw [hraw] at h
    dsimp only at h
    split at h
    · cases h
    · rename_i write db hput
      obtain ⟨-, rfl⟩ := Prod.mk.inj h
      obtain ⟨-, -, -, hkeymap, htypes, hblobs⟩ := NucleusDb.putTyped_ok hput
      exact ⟨rfl, raw, _, rfl, hkeymap, htypes, hblobs⟩

theorem kept_of_putChunk (h : putChunk codec clock w chunk = (.ok (), w'))
    (hfits : ∀ raw, BlobStore.Fits w.db.blobStore (chunkKey chunk.id) raw) : ∃ raw, Kept codec w'.db chunk raw := by
  obtain ⟨-, raw, now, hraw, hkeymap, htypes, hblobs⟩ := putChunk_ok h
  refine ⟨raw, hraw, ?_, ?_, ?_⟩
  · rw [hkeymap, KeyMap.get_getOrCreate_self]
    rfl
  · rw [htypes, TypeMap.get_set, if_pos rfl]
  · unfold BlobStore.get
    rw [hblobs, BlobStore.put_entries _ _ (hfits raw), OrdMap.get?_insert, if_pos rfl]

theorem Kept.putChunk {other : Chunk} (hkept : Kept codec w.db other raw)
    (h : putChunk codec clock w chunk = (.ok (), w'))
    (hfits : ∀ raw, BlobStore.Fits w.db.blobStore (chunkKey chunk.id) raw) (hne : other.id ≠ chunk.id) :
    Kept codec w'.db other raw := by
  obtain ⟨-, data, now, -, hkeymap, htypes, hblobs⟩ := putChunk_ok h
  have hkey : chunkKey other.id ≠ chunkKey chunk.id := fun heq => hne (chunkKey_inj heq)
  refine ⟨hkept.encoded, ?_, ?_, ?_⟩
  · rw [hkeymap, KeyMap.get_getOrCreate_other _ hkey]
    exact hkept.indexed
  · rw [htypes, TypeMap.get_set, if_neg hkey.symm]
    exact hkept.tagged
  · have hpayload := hkept.payload
    unfold BlobStore.get at hpayload ⊢
    rw [hblobs, BlobStore.put_entries _ _ (hfits data), OrdMap.get?_insert_ne _ _ hkey.symm]
    exact hpayload

theorem putChunks_cons {rest : List Chunk} (h : putChunks codec clock w (chunk :: rest) = (.ok (), w')) :
    ∃ w₁, putChunk codec clock w chunk = (.ok (), w₁) ∧ putChunks codec clock w₁ rest = (.ok (), w') := by
  unfold putChunks at h
  split at h
  · cases h
  · rename_i w₁ hput
    exact ⟨w₁, hput, h⟩

variable {chunks : List Chunk}

theorem chunks_putChunks (h : putChunks codec clock w chunks = (.ok (), w')) :
    w'.store.chunks = (chunks.map fun chunk => (chunk.id, chunk)).foldl (fun m e => m.insert e.1 e.2) w.store.chunks := by
  induction chunks generalizing w with
  | nil =>
    obtain ⟨-, rfl⟩ := Prod.mk.inj h
    rfl
  | cons chunk rest ih =>
    obtain ⟨w₁, hput, hrest⟩ := putChunks_cons h
    rw [ih hrest, (putChunk_ok hput).1]
    rfl

theorem kept_putChunks (h : putChunks codec clock w chunks = (.ok (), w')) (hdistinct : (chunks.map Chunk.id).Nodup)
    (hroom : BlobStore.HasRoom w.db.blobStore (chunks.map fun chunk => chunkKey chunk.id)) :
    (∀ chunk ∈ chunks, ∃ raw, Kept codec w'.db chunk raw) ∧
      ∀ chunk raw, Kept codec w.db chunk raw → chunk.id ∉ chunks.map Chunk.id → Kept codec w'.db chunk raw := by
  induction chunks generalizing w with
  | nil =>
    obtain ⟨-, rfl⟩ := Prod.mk.inj h
    exact ⟨by simp, fun chunk raw hkept _ => hkept⟩
  | cons c rest ih =>
    obtain ⟨w₁, hput, hrest⟩ := putChunks_cons h
    obtain ⟨hc, hdistinct⟩ := List.nodup_cons.mp hdistinct
    have hfits := fun raw => hroom.fits raw
    have hroom₁ : BlobStore.HasRoom w₁.db.blobStore (rest.map fun chunk => chunkKey chunk.id) := by
      obtain ⟨-, raw, now, -, -, -, hblobs⟩ := putChunk_ok hput
      rw [hblobs]
      refine hroom.put ?_ raw now
      intro hmem
      obtain ⟨other, hother, hkey⟩ := List.mem_map.mp hmem
      exact hc (List.mem_map.mpr ⟨other, hother, chunkKey_inj hkey⟩)
    obtain ⟨hall, hother⟩ := ih hrest hdistinct hroom₁
    constructor
    · intro chunk hchunk
      rcases List.mem_cons.mp hchunk with rfl | hchunk
      · obtain ⟨raw, hkept⟩ := kept_of_putChunk hput hfits
        exact ⟨raw, hother chunk raw hkept hc⟩
      · exact hall chunk hchunk
    · intro chunk raw hkept hmem
      rw [List.map_cons, List.mem_cons, not_or] at hmem
      exact hother chunk raw (hkept.putChunk hput hfits hmem.1) hmem.2

theorem storeChunks_ok {store store' : ChunkStore P} {db' : NucleusDb P} {now : Nat}
    (h : storeChunks codec store db chunks clock now = some (.ok (), store', db')) :
    ∃ w, putChunks codec clock ⟨store, db, []⟩ chunks = (.ok (), w) ∧ store' = w.store ∧
      db'.keymap = w.db.keymap ∧ db'.typeMap = w.db.typeMap ∧ db'.blobStore = w.db.blobStore := by
  unfold storeChunks at h
  split at h
  · cases h
  · rename_i w hput
    refine ⟨w, hput, ?_⟩
    split at h
    · cases h
      exact ⟨rfl, rfl, rfl, rfl⟩
    · split at h
      · cases h
      · cases h
      · rename_i entry db₁ hcommit
        cases h
        have hframe := NucleusDb.commit_sameFrame hcommit
        exact ⟨rfl, hframe.keymap, hframe.typeMap, hframe.blobStore⟩

end Stored

end ChunkStore

end AgentHalo.Swarm
