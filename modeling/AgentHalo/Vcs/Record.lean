import AgentHalo.Base.Scan
import AgentHalo.Base.Slices
import AgentHalo.Engine.Registration
import AgentHalo.Lib.Outcome
import AgentHalo.Lib.Words
import AgentHalo.Store.Codec

/-!
# Work records

A work record says what an agent did to a file. It is stored in the committed state: its JSON form is cut into words, and
the length and the words go to cells of their own, under keys made from the record's hash; further keys index the record by
author, time and path. The hash covers the record without its hash and its proof reference, and the reference is the height
that the commit is expected to have.

The JSON codec is a parameter. A call answers `none` when the commitment backend panics.
-/

namespace AgentHalo.Vcs

open Engine (NucleusDb CommitError)
open Slices (divCeil sliceChunks padTo)
open Store (KeyMap)
open Text (utf8 hexEncode toBeBytes fromLeBytes)

inductive FileOp where
  | create (path : String) (contentHash : NodeHash)
  | modify (path : String) (oldHash newHash : NodeHash) (patch : Option Bytes)
  | delete (path : String) (contentHash : NodeHash)
  | rename (oldPath newPath : String) (contentHash : NodeHash)
deriving DecidableEq

def FileOp.paths : FileOp → List String
  | .create path _ => [path]
  | .modify path _ _ _ => [path]
  | .delete path _ => [path]
  | .rename oldPath newPath _ => [oldPath, newPath]

structure WorkRecord where
  hash : NodeHash
  parents : List NodeHash
  authorPuf : NodeHash
  timestamp : UInt64
  op : FileOp
  proofRef : Option UInt64
deriving DecidableEq

structure SubmitResult where
  hash : NodeHash
  proofRef : UInt64
  commitHeight : UInt64
  stateRoot : NodeHash
deriving DecidableEq

structure Canonical where
  parents : List NodeHash
  authorPuf : NodeHash
  timestamp : UInt64
  op : FileOp
deriving DecidableEq

/-- The JSON forms, and the derived `Debug` form of a commit error. -/
structure RecordCodec where
  canonicalToVec : Canonical → Except String Bytes
  recordToVec : WorkRecord → Except String Bytes
  recordFromSlice : Bytes → Option WorkRecord
  debugCommitError : CommitError → String

/-- A written record reads back, its form is a vector in memory, and nothing is not JSON. -/
structure RecordCodec.Lawful (codec : RecordCodec) : Prop where
  fromSlice_toVec : ∀ record raw, codec.recordToVec record = .ok raw → codec.recordFromSlice raw = some record
  length_toVec : ∀ record raw, codec.recordToVec record = .ok raw → raw.length < 2 ^ 64
  fromSlice_nil : codec.recordFromSlice [] = none

/-! ### Keys and words -/

def hashHex (hash : NodeHash) : String := hexEncode hash.toList

def recordLenKey (hashHex : String) : String := "abraxas:record:" ++ hashHex ++ ":len"

def recordChunkKey (hashHex : String) (idx : Nat) : String :=
  "abraxas:record:" ++ hashHex ++ ":chunk:" ++ toString idx

def authorIndexKey (authorHex : String) (ts : UInt64) (hashHex : String) : String :=
  "abraxas:idx:author:" ++ authorHex ++ ":" ++ toString ts ++ ":" ++ hashHex

def pathIndexKey (pathHex : String) (ts : UInt64) (hashHex : String) : String :=
  "abraxas:idx:path:" ++ pathHex ++ ":" ++ toString ts ++ ":" ++ hashHex

def timestampIndexKey (ts : UInt64) (hashHex : String) : String :=
  "abraxas:idx:ts:" ++ toString ts ++ ":" ++ hashHex

/-- Big-endian words; the last one is filled up with zeros. -/
def bytesToU64Chunks (bytes : Bytes) : List UInt64 :=
  (sliceChunks 8 bytes).map fun piece => fromLeBytes (padTo 8 piece).reverse

def u64ChunksToBytes (chunks : List UInt64) : Bytes := chunks.flatMap toBeBytes

/-! ### The store -/

namespace WorkRecordStore

variable {P : Platform} (codec : RecordCodec)

section Hash

variable (P)

def computeHash (record : WorkRecord) : NodeHash :=
  P.sha256 ((codec.canonicalToVec ⟨record.parents, record.authorPuf, record.timestamp, record.op⟩).toOption.getD [])

end Hash

def recordWrites (hashHex : String) (payload : Bytes) : List (String × UInt64) :=
  (recordLenKey hashHex, UInt64.ofNat payload.length) ::
    (bytesToU64Chunks payload).mapIdx fun i chunk => (recordChunkKey hashHex i, chunk)

def indexWrites (record : WorkRecord) : List (String × UInt64) :=
  (authorIndexKey (hashHex record.authorPuf) record.timestamp (hashHex record.hash), 1) ::
    (timestampIndexKey record.timestamp (hashHex record.hash), 1) ::
    record.op.paths.map fun path =>
      (pathIndexKey (hexEncode (utf8 path)) record.timestamp (hashHex record.hash), 1)

/-- Register the keys in turn, and write by index. -/
def registerWrites (m : KeyMap) : List (String × UInt64) → List (Nat × UInt64) × KeyMap
  | [] => ([], m)
  | (key, value) :: rest =>
    let (idx, m) := m.getOrCreate key
    let (writes, m) := registerWrites m rest
    ((idx, value) :: writes, m)

/-- The record as it is stored: under its hash, with the height that its commit is expected to have. -/
def stamped (db : NucleusDb P) (record : WorkRecord) : WorkRecord :=
  { record with
    hash := computeHash P codec record
    proofRef := some (UInt64.ofNat db.entries.length + 1) }

def submitRecord (db : NucleusDb P) (record : WorkRecord) (now : Nat) :
    Option (Except String SubmitResult) × NucleusDb P :=
  let record := stamped codec db record
  match codec.recordToVec record with
  | .error e => (some (.error ("serialize record: " ++ e)), db)
  | .ok payload =>
    let (deltaWrites, keymap) :=
      registerWrites db.keymap (recordWrites (hashHex record.hash) payload ++ indexWrites record)
    let db := { db with keymap }
    match db.commit ⟨deltaWrites⟩ [] now with
    | none => (none, db)
    | some (.error e, db) => (some (.error ("commit work record: " ++ codec.debugCommitError e)), db)
    | some (.ok entry, db) =>
      (some (.ok
        { hash := record.hash
          proofRef := UInt64.ofNat entry.height
          commitHeight := UInt64.ofNat entry.height
          stateRoot := entry.stateRoot }), db)

def readValueByKey (db : NucleusDb P) (key : String) : Option UInt64 :=
  (db.keymap.get key).bind fun idx => db.state.values[idx]?

def getRecord (db : NucleusDb P) (hash : NodeHash) : Option WorkRecord :=
  (readValueByKey db (recordLenKey (hashHex hash))).bind fun len =>
    ((List.range (divCeil len.toNat 8)).mapM fun i => readValueByKey db (recordChunkKey (hashHex hash) i)).bind
      fun chunks =>
        (codec.recordFromSlice ((u64ChunksToBytes chunks).take len.toNat)).bind fun record =>
          if record.hash = hash then some record else none

end WorkRecordStore

/-! ### Words read back -/

theorem toBeBytes_word {piece : Bytes} (h : piece.length ≤ 8) :
    toBeBytes (fromLeBytes (padTo 8 piece).reverse) = padTo 8 piece := by
  unfold toBeBytes
  rw [Text.toLeBytes_fromLeBytes (by rw [List.length_reverse, Slices.length_padTo h]), List.reverse_reverse]

theorem take_u64ChunksToBytes (bytes : Bytes) :
    (u64ChunksToBytes (bytesToU64Chunks bytes)).take bytes.length = bytes := by
  have hpieces : u64ChunksToBytes (bytesToU64Chunks bytes) = (sliceChunks 8 bytes).flatMap (padTo 8) := by
    unfold u64ChunksToBytes bytesToU64Chunks
    rw [List.flatMap_map]
    refine List.flatMap_congr ?_
    intro piece hpiece
    exact toBeBytes_word (Slices.length_le_of_mem_pieces hpiece)
  rw [hpieces, Slices.take_flatMap_padTo (by decide)]

@[simp] theorem length_bytesToU64Chunks (bytes : Bytes) :
    (bytesToU64Chunks bytes).length = divCeil bytes.length 8 := by
  unfold bytesToU64Chunks
  rw [List.length_map, Slices.length_sliceChunks]

/-! ### Keys apart -/

/-- The key holds a part of the record with this hash. -/
def IsRecordKey (hash : NodeHash) (key : String) : Prop :=
  key = recordLenKey (hashHex hash) ∨ ∃ i, key = recordChunkKey (hashHex hash) i

variable {a b hash : NodeHash} {key : String}

theorem recordKey_inj {s t : String}
    (h : "abraxas:record:" ++ hashHex a ++ (":" ++ s) = "abraxas:record:" ++ hashHex b ++ (":" ++ t)) :
    a = b ∧ s = t := by
  rw [String.append_assoc, String.append_assoc, String.append_right_inj] at h
  have hlist := congrArg String.toList h
  simp only [String.toList_append] at hlist
  obtain ⟨hfront, hback⟩ := Separators.append_cons_inj_of_not_mem (Text.colon_not_mem_hexEncode a.toList)
    (Text.colon_not_mem_hexEncode b.toList) (show (hashHex a).toList ++ ':' :: s.toList = _ ++ ':' :: t.toList from hlist)
  refine ⟨?_, String.toList_injective hback⟩
  have hbytes := Text.hexEncode_inj (String.toList_injective hfront)
  exact Vector.toList_inj.mp hbytes

theorem recordLenKey_eq (hash : NodeHash) :
    recordLenKey (hashHex hash) = "abraxas:record:" ++ hashHex hash ++ (":" ++ "len") := rfl

theorem recordChunkKey_eq (hash : NodeHash) (i : Nat) :
    recordChunkKey (hashHex hash) i = "abraxas:record:" ++ hashHex hash ++ (":" ++ ("chunk:" ++ toString i)) := by
  have hcut : ":chunk:" ++ toString i = ":" ++ ("chunk:" ++ toString i) := by
    rw [← String.append_assoc]
    rfl
  unfold recordChunkKey
  rw [String.append_assoc, hcut]

theorem recordChunkKey_inj {i j : Nat} (h : recordChunkKey (hashHex hash) i = recordChunkKey (hashHex hash) j) : i = j := by
  rw [recordChunkKey_eq, recordChunkKey_eq] at h
  exact Text.toString_nat_inj ((String.append_right_inj "chunk:").mp (recordKey_inj h).2)

theorem recordLenKey_ne_recordChunkKey (a b : NodeHash) (i : Nat) :
    recordLenKey (hashHex a) ≠ recordChunkKey (hashHex b) i := by
  rw [recordLenKey_eq, recordChunkKey_eq]
  intro h
  have htail := congrArg String.toList (recordKey_inj h).2
  rw [String.toList_append] at htail
  cases htail

theorem IsRecordKey.hash_unique (ha : IsRecordKey a key) (hb : IsRecordKey b key) :
    a = b := by
  rcases ha with rfl | ⟨i, rfl⟩
  · rcases hb with hlen | ⟨j, hchunk⟩
    · rw [recordLenKey_eq, recordLenKey_eq] at hlen
      exact (recordKey_inj hlen).1
    · exact absurd hchunk (recordLenKey_ne_recordChunkKey a b j)
  · rcases hb with hlen | ⟨j, hchunk⟩
    · exact absurd hlen.symm (recordLenKey_ne_recordChunkKey b a i)
    · rw [recordChunkKey_eq, recordChunkKey_eq] at hchunk
      exact (recordKey_inj hchunk).1

theorem IsRecordKey.front (h : IsRecordKey hash key) :
    ∃ back, key.toList = "abraxas:record:".toList ++ back := by
  rcases h with rfl | ⟨i, rfl⟩
  · unfold recordLenKey
    rw [String.toList_append, String.toList_append, List.append_assoc]
    exact ⟨_, rfl⟩
  · unfold recordChunkKey
    rw [String.toList_append, String.toList_append, String.toList_append, List.append_assoc, List.append_assoc]
    exact ⟨_, rfl⟩

open WorkRecordStore in
theorem not_isRecordKey_of_mem_indexWrites {record : WorkRecord} {write : String × UInt64} (h : write ∈ indexWrites record) :
    ¬ IsRecordKey hash write.1 := by
  intro hrecord
  obtain ⟨back, hback⟩ := hrecord.front
  unfold indexWrites at h
  rcases List.mem_cons.mp h with heq | h
  · rw [heq] at hback
    unfold authorIndexKey at hback
    simp [String.toList_append] at hback
  rcases List.mem_cons.mp h with heq | h
  · rw [heq] at hback
    unfold timestampIndexKey at hback
    simp [String.toList_append] at hback
  · obtain ⟨path, -, heq⟩ := List.mem_map.mp h
    rw [← heq] at hback
    unfold pathIndexKey at hback
    simp [String.toList_append] at hback

end AgentHalo.Vcs
