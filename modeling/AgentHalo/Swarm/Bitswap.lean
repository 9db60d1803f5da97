import AgentHalo.Pod.Capability
import AgentHalo.Swarm.ChunkStore

/-!
# Bitswap

The exchange of chunks between peers. A node keeps the chunks it holds, by id, and what it knows of the peers' holdings.
A peer asks which chunks are there (`Want`), tells which it has (`Have`), fetches a chunk (`Block` without a payload) or
sends one (`Block` with a payload). Whether a peer may read a chunk is a matter of the grants, and, where there are none
at all, of the node's mode.
-/

namespace AgentHalo.Swarm

open Pod (GrantStore)

inductive BitswapMessage where
  | want (chunkIds : List ChunkId)
  | have_ (chunkIds : List ChunkId)
  | block (chunkId : ChunkId) (payload : Bytes)
deriving DecidableEq, Repr

/-! ### Messages on a stream -/

def maxBitswapMsgSize : Nat := 4 * 1024 * 1024

/-- `serde_json` on messages. -/
structure MessageJson where
  toVec : BitswapMessage → Except String Bytes
  fromSlice : Bytes → Except String BitswapMessage

/-- Rust's `u32::to_be_bytes`. -/
def toBeBytes32 (n : Nat) : Bytes := [n / 2 ^ 24, n / 2 ^ 16, n / 2 ^ 8, n].map UInt8.ofNat

/-- Rust's `u32::from_be_bytes`. -/
def fromBeBytes32 (bytes : Bytes) : Nat := bytes.foldl (fun n b => 2 ^ 8 * n + b.toNat) 0

/-- The bytes that are written; on an error there are none. -/
def writeMessage (json : MessageJson) (message : BitswapMessage) : Except String Bytes :=
  match json.toVec message with
  | .error e => .error e
  | .ok raw =>
    if maxBitswapMsgSize < raw.length then .error "bitswap message exceeds size limit"
    else .ok (toBeBytes32 raw.length ++ raw)

/-- The next bytes of a stream, and what follows them. -/
def readExact (n : Nat) (stream : Bytes) : Except String (Bytes × Bytes) :=
  if stream.length < n then .error "unexpected end of file" else .ok (stream.take n, stream.drop n)

def readMessage (json : MessageJson) (stream : Bytes) : Except String (BitswapMessage × Bytes) := do
  let (lenBuf, stream) ← readExact 4 stream
  let len := fromBeBytes32 lenBuf
  if maxBitswapMsgSize < len then throw "bitswap message exceeds size limit"
  let (buf, stream) ← readExact len stream
  return (← json.fromSlice buf, stream)

theorem fromBeBytes32_toBeBytes32 {n : Nat} (h : n < 2 ^ 32) : fromBeBytes32 (toBeBytes32 n) = n := by
  simp only [fromBeBytes32, toBeBytes32, List.map_cons, List.map_nil, List.foldl_cons, List.foldl_nil, UInt8.toNat_ofNat']
  omega

theorem readExact_append {front : Bytes} {n : Nat} (hn : front.length = n) (rest : Bytes) :
    readExact n (front ++ rest) = .ok (front, rest) := by
  subst hn
  unfold readExact
  rw [if_neg (by simp), List.take_left, List.drop_left]

/-- **A message crosses a stream whole or not at all.** What is written is read back, with what follows it left over; cut
short anywhere it is refused; and a message above the limit is not written. -/
theorem readMessage_writeMessage {json : MessageJson}
    (hjson : ∀ message raw, json.toVec message = .ok raw → json.fromSlice raw = .ok message) {message : BitswapMessage}
    {frame : Bytes} (h : writeMessage json message = .ok frame) :
    (∀ rest, readMessage json (frame ++ rest) = .ok (message, rest)) ∧
      (∀ n < frame.length, readMessage json (frame.take n) = .error "unexpected end of file") ∧
      frame.length ≤ 4 + maxBitswapMsgSize := by
  unfold writeMessage at h
  split at h
  · cases h
  rename_i raw hraw
  split_ifs at h with hsize
  obtain rfl := Except.ok.inj h
  have hlen : fromBeBytes32 (toBeBytes32 raw.length) = raw.length :=
    fromBeBytes32_toBeBytes32 (by unfold maxBitswapMsgSize at hsize; omega)
  have hfour : (toBeBytes32 raw.length).length = 4 := rfl
  refine ⟨fun rest => ?_, fun n hn => ?_, by simp only [List.length_append, hfour]; omega⟩
  · unfold readMessage
    simp only [List.append_assoc, readExact_append hfour, bind, Except.bind, hlen, if_neg hsize, readExact_append rfl,
      hjson message raw hraw, pure, Except.pure]
  · rw [List.length_append, hfour] at hn
    unfold readMessage
    rcases Nat.lt_or_ge n 4 with hshort | hlong
    · have hcut : readExact 4 ((toBeBytes32 raw.length ++ raw).take n) = .error "unexpected end of file" :=
        if_pos (by simp only [List.length_take]; omega)
      rw [hcut]
      rfl
    · have hcut : readExact raw.length (raw.take (n - 4)) = .error "unexpected end of file" :=
        if_pos (by simp only [List.length_take]; omega)
      rw [List.take_append, List.take_of_length_le (by omega), hfour]
      simp only [readExact_append hfour, bind, Except.bind, hlen, if_neg hsize, hcut]

/-- A node's answer with the two chunks it holds, and the text of it. -/
def haveTwo : BitswapMessage :=
  .have_ ["af1349b9f5f9a1a6a0404dea36dcc9499bcb25c9adc112b7cc9a93cae41f3262",
    "2d3adedff11b61f14c886e35afa036736dcd87a74d27b5c1510225d0f592e213"]

def haveTwoText : String :=
  "\x7b\"Have\":[\"af1349b9f5f9a1a6a0404dea36dcc9499bcb25c9adc112b7cc9a93cae41f3262\"," ++
    "\"2d3adedff11b61f14c886e35afa036736dcd87a74d27b5c1510225d0f592e213\"]\x7d"

def MessageJson.haveTwo : MessageJson where
  toVec message := if message = Swarm.haveTwo then .ok (Text.utf8 haveTwoText) else .error "another message"
  fromSlice raw :=
    if raw = Text.utf8 haveTwoText then .ok Swarm.haveTwo else .error "expected value at line 1 column 1"

def haveTwoFrame : Bytes := [0, 0, 0, 144] ++ Text.utf8 haveTwoText

theorem readMessage_writeMessage_haveTwo : writeMessage .haveTwo haveTwo = .ok haveTwoFrame ∧
    (∀ rest, readMessage .haveTwo (haveTwoFrame ++ rest) = .ok (haveTwo, rest)) ∧
      (∀ n < haveTwoFrame.length, readMessage .haveTwo (haveTwoFrame.take n) = .error "unexpected end of file") ∧
      haveTwoFrame.length ≤ 4 + maxBitswapMsgSize := by
  have hjson : ∀ message raw, MessageJson.haveTwo.toVec message = .ok raw →
      MessageJson.haveTwo.fromSlice raw = .ok message := by
    intro message raw h
    simp only [MessageJson.haveTwo] at h ⊢
    split_ifs at h with hmessage
    rw [if_pos (Except.ok.inj h).symm, hmessage]
  have hwrite : writeMessage .haveTwo haveTwo = .ok haveTwoFrame := by
    have hlength : (Text.utf8 haveTwoText).length = 144 := by decide +kernel
    simp only [writeMessage, MessageJson.haveTwo, if_true, hlength]
    rfl
  exact ⟨hwrite, readMessage_writeMessage hjson hwrite⟩

/-! ### Nodes -/

structure BitswapRuntime where
  localChunks : OrdMap ChunkId Chunk
  peerInventory : OrdMap String (OrdMap ChunkId Unit)
  peerAliases : OrdMap String NodeHash
  grants : GrantStore
  requireGrants : Bool
  activeTransfers : Nat

namespace BitswapRuntime

def peerCanRead (rt : BitswapRuntime) (peerId : String) (chunkId : ChunkId) (now : UInt64) : Bool :=
  if rt.grants.listAll.isEmpty then !rt.requireGrants
  else
    match rt.peerAliases[peerId]? with
    | some granteePuf => rt.grants.canRead granteePuf (chunkKey chunkId) now
    | none => false

/-- The counter of running transfers, one up and one down again, in a 64-bit word that saturates. -/
def passTransfer (activeTransfers : Nat) : Nat := min (activeTransfers + 1) (2 ^ 64 - 1) - 1

section Handler

variable (blake3 : Bytes → Vector UInt8 32)

/-- The answer to a message of a peer at the time `now`, and the node after it. -/
def handleRequest (rt : BitswapRuntime) (peerId : String) (now : UInt64) :
    BitswapMessage → BitswapMessage × BitswapRuntime
  | .want chunkIds =>
    let allowed := (chunkIds.filter (rt.peerCanRead peerId · now)).filter rt.localChunks.contains
    (.have_ allowed, { rt with activeTransfers := passTransfer rt.activeTransfers })
  | .have_ chunkIds =>
    let entry := chunkIds.foldl (fun entry chunkId => entry.insert chunkId ()) (rt.peerInventory[peerId]?.getD ∅)
    (.have_ entry.keys, { rt with peerInventory := rt.peerInventory.insert peerId entry })
  | .block chunkId payload =>
    if payload.isEmpty then
      if rt.peerCanRead peerId chunkId now then
        match rt.localChunks[chunkId]? with
        | some chunk => (.block chunkId chunk.data, rt)
        | none => (.have_ [], rt)
      else (.have_ [], rt)
    else
      let chunk := Chunk.new blake3 0 1 payload
      if chunk.id ≠ chunkId then (.have_ [], rt)
      else (.have_ [chunkId], { rt with localChunks := rt.localChunks.insert chunkId chunk })

structure Request where
  peerId : String
  now : UInt64
  message : BitswapMessage
deriving DecidableEq, Repr

def step (rt : BitswapRuntime) (r : Request) : BitswapRuntime := (rt.handleRequest blake3 r.peerId r.now r.message).2

/-- The message is a block that the node takes: it has a payload, under the hash of the payload. -/
def Takes (r : Request) (chunkId : ChunkId) (payload : Bytes) : Prop :=
  r.message = .block chunkId payload ∧ payload ≠ [] ∧ ChunkId.fromBytes blake3 payload = chunkId

variable {blake3}

variable (blake3) in
theorem localChunks_step (rt : BitswapRuntime) (r : Request) :
    ((rt.step blake3 r).localChunks = rt.localChunks ∧ ∀ chunkId payload, ¬ Takes blake3 r chunkId payload) ∨
      ∃ chunkId payload, Takes blake3 r chunkId payload ∧
        (rt.step blake3 r).localChunks = rt.localChunks.insert chunkId (Chunk.new blake3 0 1 payload) := by
  obtain ⟨peerId, now, message⟩ := r
  cases message with
  | want chunkIds => exact .inl ⟨rfl, fun _ _ h => nomatch h.1⟩
  | have_ chunkIds => exact .inl ⟨rfl, fun _ _ h => nomatch h.1⟩
  | block chunkId payload =>
    unfold step handleRequest
    dsimp only
    by_cases hempty : payload.isEmpty = true
    · rw [if_pos hempty]
      refine .inl ⟨?_, ?_⟩
      · split
        · split
          · rfl
          · rfl
        · rfl
      · rintro id bytes ⟨hmessage, hne, -⟩
        cases hmessage
        exact hne (List.isEmpty_iff.mp hempty)
    · rw [if_neg hempty]
      by_cases hid : (Chunk.new blake3 0 1 payload).id = chunkId
      · rw [if_neg (not_not.mpr hid)]
        exact .inr ⟨chunkId, payload, ⟨rfl, by simpa using hempty, hid⟩, rfl⟩
      · rw [if_pos hid]
        refine .inl ⟨rfl, ?_⟩
        rintro id bytes ⟨hmessage, -, hhash⟩
        cases hmessage
        exact hid hhash

end Handler

end BitswapRuntime

end AgentHalo.Swarm
