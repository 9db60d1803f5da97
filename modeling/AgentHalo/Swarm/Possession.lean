import AgentHalo.Swarm.Holding

/-!
# What the answers reveal of the chunks held

Two nodes differ in the chunks they hold. Their answers to a peer are the same as long as it may not read any of the
chunks in which they differ: whether a peer may read a chunk is asked before the chunks are looked at, and is not a
matter of the chunks held. The permission that is asked for is that on the chunk itself, by its key; a permission on the
manifest that lists the chunk is never looked up. Nodes that let only each other read a chunk keep its data among
themselves, whatever others send.
-/

namespace AgentHalo.Swarm.BitswapRuntime

open Pod (AccessGrant GrantStore keyPatternMatches)
open Text (startsWith)

variable {blake3 : Bytes → Vector UInt8 32}

theorem peerCanRead_localChunks (rt : BitswapRuntime) (localChunks : OrdMap ChunkId Chunk) (peerId : String)
    (chunkId : ChunkId) (now : UInt64) :
    ({ rt with localChunks }).peerCanRead peerId chunkId now = rt.peerCanRead peerId chunkId now := rfl

/-- The nodes differ at most in the chunks they hold, and only in chunks that the peer may not read at any of the times. -/
structure Alike (peerId : String) (times : UInt64 → Prop) (rt rt' : BitswapRuntime) : Prop where
  rest : rt' = { rt with localChunks := rt'.localChunks }
  readable : ∀ now, times now → ∀ chunkId, rt.peerCanRead peerId chunkId now = true →
    rt.localChunks[chunkId]? = rt'.localChunks[chunkId]?

variable {peerId : String} {times : UInt64 → Prop} {rt rt' : BitswapRuntime}

theorem Alike.peerCanRead_eq (h : Alike peerId times rt rt') (peerId' : String) (chunkId : ChunkId) (now : UInt64) :
    rt'.peerCanRead peerId' chunkId now = rt.peerCanRead peerId' chunkId now := by
  rw [h.rest, peerCanRead_localChunks]

theorem Alike.contains_eq (h : Alike peerId times rt rt') {now : UInt64} (hnow : times now) {chunkId : ChunkId}
    (hread : rt.peerCanRead peerId chunkId now = true) :
    rt'.localChunks.contains chunkId = rt.localChunks.contains chunkId := by
  rw [Std.ExtTreeMap.contains_eq_isSome_getElem?, Std.ExtTreeMap.contains_eq_isSome_getElem?,
    h.readable now hnow chunkId hread]

theorem Alike.answer (h : Alike peerId times rt rt') {now : UInt64} (hnow : times now) (message : BitswapMessage) :
    (rt'.handleRequest blake3 peerId now message).1 = (rt.handleRequest blake3 peerId now message).1 := by
  cases message with
  | want chunkIds =>
    have hallowed : (chunkIds.filter (rt'.peerCanRead peerId · now)).filter rt'.localChunks.contains =
        (chunkIds.filter (rt.peerCanRead peerId · now)).filter rt.localChunks.contains := by
      simp only [h.peerCanRead_eq]
      refine List.filter_congr fun chunkId hmem => h.contains_eq hnow ?_
      exact (List.mem_filter.mp hmem).2
    exact congrArg BitswapMessage.have_ hallowed
  | have_ chunkIds =>
    rw [h.rest]
    rfl
  | block chunkId payload =>
    unfold handleRequest
    dsimp only
    rw [h.peerCanRead_eq]
    split_ifs with hempty hread hid
    · rw [h.readable now hnow chunkId hread]
      cases rt'.localChunks[chunkId]? <;> rfl
    · rfl
    · rfl
    · rfl

theorem peerCanRead_step (rt : BitswapRuntime) (r : Request) (peerId : String) (chunkId : ChunkId) (now : UInt64) :
    (rt.step blake3 r).peerCanRead peerId chunkId now = rt.peerCanRead peerId chunkId now := by
  obtain ⟨sender, time, message⟩ := r
  cases message with
  | want chunkIds => rfl
  | have_ chunkIds => rfl
  | block chunkId payload =>
    unfold step handleRequest
    dsimp only
    split_ifs with hempty hread hid
    · cases rt.localChunks[chunkId]? <;> rfl
    · rfl
    · rfl
    · rfl

theorem localChunks_step_congr {held held' : OrdMap ChunkId Chunk} (rt : BitswapRuntime) (r : Request)
    {chunkId : ChunkId} (h : held[chunkId]? = held'[chunkId]?) :
    (({ rt with localChunks := held }).step blake3 r).localChunks[chunkId]? =
      (({ rt with localChunks := held' }).step blake3 r).localChunks[chunkId]? := by
  obtain ⟨hkept, hidle⟩ | ⟨id, payload, htakes, hkept⟩ := localChunks_step blake3 { rt with localChunks := held } r
  · obtain ⟨hkept', -⟩ | ⟨id, payload, htakes, -⟩ := localChunks_step blake3 { rt with localChunks := held' } r
    · rw [hkept, hkept']
      exact h
    · exact absurd htakes (hidle id payload)
  · obtain ⟨-, hidle⟩ | ⟨id', payload', htakes', hkept'⟩ := localChunks_step blake3 { rt with localChunks := held' } r
    · exact absurd htakes (hidle id payload)
    · obtain ⟨rfl, rfl⟩ := BitswapMessage.block.inj (htakes.1.symm.trans htakes'.1)
      rw [hkept, hkept', OrdMap.get?_insert, OrdMap.get?_insert]
      exact if_congr Iff.rfl rfl h

theorem step_localChunks (rt : BitswapRuntime) (held : OrdMap ChunkId Chunk) (r : Request) :
    ({ rt with localChunks := held }).step blake3 r =
      { rt.step blake3 r with localChunks := (({ rt with localChunks := held }).step blake3 r).localChunks } := by
  obtain ⟨sender, time, message⟩ := r
  cases message with
  | want chunkIds => rfl
  | have_ chunkIds => rfl
  | block id payload =>
    unfold step handleRequest
    dsimp only
    rw [peerCanRead_localChunks]
    split_ifs with hempty hread hid
    · cases held[id]? <;> cases rt.localChunks[id]? <;> rfl
    · rfl
    · rfl
    · rfl

theorem Alike.step (h : Alike peerId times rt rt') (r : Request) :
    Alike peerId times (rt.step blake3 r) (rt'.step blake3 r) := by
  obtain ⟨held, rfl⟩ : ∃ held, rt' = { rt with localChunks := held } := ⟨_, h.rest⟩
  refine ⟨step_localChunks rt held r, fun now hnow chunkId hread => ?_⟩
  rw [peerCanRead_step] at hread
  exact localChunks_step_congr rt r (h.readable now hnow chunkId hread)

/-! ### Runs -/

variable (blake3) in
def answers (rt : BitswapRuntime) : List Request → List (Request × BitswapMessage)
  | [] => []
  | r :: rest => (r, (rt.handleRequest blake3 r.peerId r.now r.message).1) :: (rt.step blake3 r).answers rest

variable (blake3) in
/-- The answers that the peer gets in a run. -/
def answersTo (rt : BitswapRuntime) (peerId : String) (requests : List Request) : List (Request × BitswapMessage) :=
  (rt.answers blake3 requests).filter fun exchange => exchange.1.peerId = peerId

theorem Alike.answersTo (h : Alike peerId times rt rt') {requests : List Request}
    (htimes : ∀ r ∈ requests, r.peerId = peerId → times r.now) :
    rt'.answersTo blake3 peerId requests = rt.answersTo blake3 peerId requests := by
  induction requests generalizing rt rt' with
  | nil => rfl
  | cons r rest ih =>
    have hstep : Alike peerId times (rt.step blake3 r) (rt'.step blake3 r) := h.step r
    have hrest := ih hstep fun r hmem => htimes r (List.mem_cons_of_mem _ hmem)
    unfold BitswapRuntime.answersTo at hrest ⊢
    rw [answers, answers, List.filter_cons, List.filter_cons]
    by_cases hpeer : r.peerId = peerId
    · have hanswer : (rt'.handleRequest blake3 peerId r.now r.message).1 =
          (rt.handleRequest blake3 peerId r.now r.message).1 := h.answer (htimes r List.mem_cons_self hpeer) r.message
      rw [if_pos (decide_eq_true hpeer), if_pos (decide_eq_true hpeer), hrest, hpeer, hanswer]
    · rw [if_neg (by simpa using hpeer), if_neg (by simpa using hpeer), hrest]

variable (blake3) in
/-- **Chunks that may not be read are not revealed.** Let two nodes differ in the chunks they hold only, and let the peer, at
the time of each of its messages, be without the permission to read the chunks in which they differ. Then in every run,
whatever other peers send in between, the peer gets the same answers from both. -/
theorem answersTo_eq_of_hidden (rt : BitswapRuntime) (held : OrdMap ChunkId Chunk) (peerId : String)
    (requests : List Request)
    (hhidden : ∀ r ∈ requests, r.peerId = peerId → ∀ chunkId, rt.localChunks[chunkId]? ≠ held[chunkId]? →
      rt.peerCanRead peerId chunkId r.now = false) :
    ({ rt with localChunks := held }).answersTo blake3 peerId requests = rt.answersTo blake3 peerId requests := by
  have halike : Alike peerId (fun now => ∃ r ∈ requests, r.peerId = peerId ∧ r.now = now) rt
      { rt with localChunks := held } := by
    refine ⟨rfl, ?_⟩
    rintro now ⟨r, hmem, hpeer, rfl⟩ chunkId hread
    by_contra hdiffer
    rw [hhidden r hmem hpeer chunkId hdiffer] at hread
    cases hread
  exact halike.answersTo fun r hmem hpeer => ⟨r, hmem, hpeer, rfl⟩

/-! ### A permission on the chunks without one on the manifest -/

/-- A grant to read everything under the chunks' keys. -/
def chunkGrant : AccessGrant where
  grantId := Vector.replicate 32 1
  grantorPuf := Vector.replicate 32 2
  granteePuf := Vector.replicate 32 3
  keyPattern := "swarm/chunk/*"
  permissions := ⟨true, false, false, false⟩
  expiresAt := none
  createdAt := 0
  nonce := 0
  revoked := false

/-- A node without chunks that knows one peer, the one with the grant. -/
def grantingNode : BitswapRuntime where
  localChunks := ∅
  peerInventory := ∅
  peerAliases := (∅ : OrdMap String NodeHash).insert "peer" chunkGrant.granteePuf
  grants := ⟨[chunkGrant]⟩
  requireGrants := true
  activeTransfers := 0

/-- A peer that the node does not know learns nothing. -/
theorem grantingNode_hides :
    ({ grantingNode with localChunks := (∅ : OrdMap ChunkId Chunk).insert "c" ⟨"c", 0, 1, 0, []⟩ }).answersTo firstBytes
      "stranger" [⟨"stranger", 0, .want ["c"]⟩, ⟨"stranger", 1, .block "c" []⟩] =
    grantingNode.answersTo firstBytes "stranger" [⟨"stranger", 0, .want ["c"]⟩, ⟨"stranger", 1, .block "c" []⟩] := by
  refine answersTo_eq_of_hidden firstBytes grantingNode _ "stranger" _ fun r _ _ chunkId _ => ?_
  have hunknown : grantingNode.peerAliases["stranger"]? = none := by simp [grantingNode]
  rw [peerCanRead, hunknown]
  rfl

/-- The peer may read no manifest, and learns whether the node holds the chunk. -/
theorem grantingNode_reveals :
    (∀ (manifestId : ManifestId) (now : UInt64),
      grantingNode.grants.canRead chunkGrant.granteePuf ("swarm/manifest/" ++ manifestId) now = false) ∧
    (grantingNode.answersTo firstBytes "peer" [⟨"peer", 0, .want ["c"]⟩] = [(⟨"peer", 0, .want ["c"]⟩, .have_ [])]) ∧
    ({ grantingNode with localChunks := (∅ : OrdMap ChunkId Chunk).insert "c" ⟨"c", 0, 1, 0, []⟩ }).answersTo firstBytes
      "peer" [⟨"peer", 0, .want ["c"]⟩] = [(⟨"peer", 0, .want ["c"]⟩, .have_ ["c"])] := by
  refine ⟨?_, by decide⟩
  intro manifestId now
  have hstarts : startsWith ("swarm/manifest/" ++ manifestId) "swarm/chunk/" = false := by
    simp [startsWith, List.isPrefixOf]
  have hpattern : keyPatternMatches "swarm/chunk/*" ("swarm/manifest/" ++ manifestId) = false := hstarts
  simp [GrantStore.canRead, grantingNode, chunkGrant, AccessGrant.matchesKey, hpattern]

/-! ### A group that keeps a chunk to itself -/

structure Packet where
  sender : String
  receiver : String
  isResponse : Bool
  message : BitswapMessage

/-- The nodes, and all that was ever sent: a packet may arrive late, more than once or never. -/
structure Network where
  nodes : String → BitswapRuntime
  sent : List Packet

variable (blake3) in
/-- `handle_bitswap_event`: the answer to a request is sent, and that to a response, which goes to the same handler, is
dropped. -/
def Network.handleEvent (net : Network) (packet : Packet) (now : UInt64) : Network :=
  let (answer, rt) := (net.nodes packet.receiver).handleRequest blake3 packet.sender now packet.message
  { nodes := Function.update net.nodes packet.receiver rt
    sent := if packet.isResponse then net.sent else net.sent ++ [⟨packet.receiver, packet.sender, true, answer⟩] }

variable (blake3) in
/-- The message has the data of the chunk in it. -/
def Carries (secret : ChunkId) (message : BitswapMessage) : Prop :=
  ∃ chunkId payload, message = .block chunkId payload ∧ ChunkId.fromBytes blake3 payload = secret ∧ payload ≠ []

variable (blake3) in
/-- A member has sent the data of the chunk to a node outside the group. -/
def Leaked (group : String → Prop) (secret : ChunkId) (net : Network) : Prop :=
  ∃ packet ∈ net.sent, group packet.sender ∧ ¬ group packet.receiver ∧ Carries blake3 secret packet.message

variable (blake3) in
/-- What a member sees to: its chunks are under their hashes, and nobody outside the group may read the chunk. -/
structure Guards (group : String → Prop) (secret : ChunkId) (rt : BitswapRuntime) : Prop where
  addressed : Addressed blake3 rt
  denies : ∀ peerId now, ¬ group peerId → rt.peerCanRead peerId secret now = false

variable (blake3) in
/-- What can happen. Members run the handler, change their grants and chunks as long as they see to the above, and ask
for what they like; they do not push the data out themselves. Others send anything. -/
inductive Network.Step (group : String → Prop) (secret : ChunkId) : Network → Network → Prop where
  | deliver {net : Network} (packet : Packet) (now : UInt64) (sent : packet ∈ net.sent) (member : group packet.receiver) :
      Step group secret net (net.handleEvent blake3 packet now)
  | configure {net : Network} (peerId : String) (rt : BitswapRuntime) (guards : Guards blake3 group secret rt) :
      Step group secret net { net with nodes := Function.update net.nodes peerId rt }
  | ask {net : Network} (packet : Packet) (member : group packet.sender)
      (inside : Carries blake3 secret packet.message → group packet.receiver) :
      Step group secret net { net with sent := net.sent ++ [packet] }
  | inject {net : Network} (packet : Packet) (outside : ¬ group packet.sender) :
      Step group secret net { net with sent := net.sent ++ [packet] }

variable {group : String → Prop} {secret : ChunkId}

theorem Guards.not_carries_answer (h : Guards blake3 group secret rt) (hpeer : ¬ group peerId) (now : UInt64)
    (message : BitswapMessage) : ¬ Carries blake3 secret (rt.handleRequest blake3 peerId now message).1 := by
  rintro ⟨id, data, hanswer, hhash, hne⟩
  cases message with
  | want chunkIds => cases hanswer
  | have_ chunkIds => cases hanswer
  | block chunkId payload =>
    unfold handleRequest at hanswer
    dsimp only at hanswer
    split_ifs at hanswer with hempty hread hid
    cases hheld : rt.localChunks[chunkId]? with
    | none =>
      rw [hheld] at hanswer
      cases hanswer
    | some chunk =>
      rw [hheld] at hanswer
      obtain ⟨rfl, rfl⟩ := BitswapMessage.block.inj hanswer
      -- the chunk is under its hash, so the permission that was looked up is that on the secret
      rw [(h.addressed _ chunk hheld).2] at hhash
      rw [hhash, h.denies peerId now hpeer] at hread
      cases hread

theorem Guards.step (h : Guards blake3 group secret rt) (r : Request) : Guards blake3 group secret (rt.step blake3 r) := by
  refine ⟨h.addressed.step r, ?_⟩
  intro peer now hpeer
  rw [peerCanRead_step]
  exact h.denies peer now hpeer

/-- All members see to it, and nothing has leaked. -/
structure Confined (blake3 : Bytes → Vector UInt8 32) (group : String → Prop) (secret : ChunkId) (net : Network) : Prop where
  guards : ∀ peerId, group peerId → Guards blake3 group secret (net.nodes peerId)
  tight : ¬ Leaked blake3 group secret net

theorem guards_update {nodes : String → BitswapRuntime} {peerId : String}
    (h : ∀ peer, group peer → Guards blake3 group secret (nodes peer)) (hrt : Guards blake3 group secret rt) (peer : String)
    (hpeer : group peer) : Guards blake3 group secret (Function.update nodes peerId rt peer) := by
  by_cases heq : peer = peerId
  · subst heq
    rwa [Function.update_self]
  · rw [Function.update_of_ne heq]
    exact h peer hpeer

theorem not_leaked_concat {net : Network} (h : ¬ Leaked blake3 group secret net) {packet : Packet}
    (hpacket : group packet.sender → Carries blake3 secret packet.message → group packet.receiver)
    (nodes : String → BitswapRuntime) : ¬ Leaked blake3 group secret ⟨nodes, net.sent ++ [packet]⟩ := by
  rintro ⟨other, hmem, hmember, houtside, hcarries⟩
  rcases List.mem_append.mp hmem with hold | hnew
  · exact h ⟨other, hold, hmember, houtside, hcarries⟩
  · obtain rfl := List.mem_singleton.mp hnew
    exact houtside (hpacket hmember hcarries)

theorem Confined.step {net net' : Network} (h : Confined blake3 group secret net)
    (hstep : Network.Step blake3 group secret net net') : Confined blake3 group secret net' := by
  cases hstep with
  | deliver packet now sent member =>
    have hreceiver := h.guards _ member
    refine ⟨guards_update h.guards (hreceiver.step ⟨packet.sender, now, packet.message⟩), ?_⟩
    unfold Network.handleEvent
    dsimp only
    split_ifs
    · exact h.tight
    · refine not_leaked_concat h.tight (fun _ hcarries => ?_) _
      by_contra houtside
      exact hreceiver.not_carries_answer houtside now packet.message hcarries
  | configure peerId rt guards => exact ⟨guards_update h.guards guards, h.tight⟩
  | ask packet member inside => exact ⟨h.guards, not_leaked_concat h.tight (fun _ => inside) _⟩
  | inject packet outside =>
    exact ⟨h.guards, not_leaked_concat h.tight (fun hmember => absurd hmember outside) _⟩

/-- **A chunk stays in its group.** Nodes that keep their chunks under their hashes and let nobody outside the group read
one of them never send its data out of the group, in whatever order requests and responses arrive, however often, and
whatever the others send, the data too. -/
theorem not_leaked_of_guards {net net' : Network}
    (hguards : ∀ peerId, group peerId → Guards blake3 group secret (net.nodes peerId))
    (hsent : net.sent = []) (hrun : Relation.ReflTransGen (Network.Step blake3 group secret) net net') :
    ¬ Leaked blake3 group secret net' := by
  have hstart : Confined blake3 group secret net := by
    refine ⟨hguards, ?_⟩
    rintro ⟨packet, hmem, -⟩
    rw [hsent] at hmem
    cases hmem
  have hend : Confined blake3 group secret net' := by
    induction hrun with
    | refl => exact hstart
    | tail _ hstep ih => exact ih.step hstep
  exact hend.tight

/-- A member is given the chunk by another, and a stranger asks for it. -/
theorem not_leaked_asked : ∃ net : Network, (net.nodes "a").localChunks.contains (ChunkId.fromBytes firstBytes [2]) = true ∧
    ⟨"stranger", "a", false, .block (ChunkId.fromBytes firstBytes [2]) []⟩ ∈ net.sent ∧
      ¬ Leaked firstBytes (· ≠ "stranger") (ChunkId.fromBytes firstBytes [2]) net := by
  let empty : BitswapRuntime := { guardedNode with localChunks := ∅ }
  have hempty : Guards firstBytes (· ≠ "stranger") (ChunkId.fromBytes firstBytes [2]) empty :=
    ⟨fun id chunk h => by simp [empty] at h, fun _ _ _ => rfl⟩
  let given : Packet := ⟨"b", "a", false, .block (ChunkId.fromBytes firstBytes [2]) [2]⟩
  let asked : Packet := ⟨"stranger", "a", false, .block (ChunkId.fromBytes firstBytes [2]) []⟩
  have hrun := (((Relation.ReflTransGen.refl (r := Network.Step firstBytes (· ≠ "stranger") (ChunkId.fromBytes firstBytes [2]))
    (a := ⟨fun _ => empty, []⟩)).tail (.ask given (by decide) fun _ => by decide)).tail
    (.deliver given 0 (by simp) (by decide))).tail (.inject asked (by decide)) |>.tail
    (.deliver asked 1 (by simp) (by decide))
  exact ⟨_, by decide, by simp [Network.handleEvent, given, asked], not_leaked_of_guards (fun _ _ => hempty) rfl hrun⟩

end AgentHalo.Swarm.BitswapRuntime
