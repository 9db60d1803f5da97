import AgentHalo.Swarm.Bitswap

/-!
# What peers can do to the held chunks

A node should keep the chunks it holds as they are, whatever its peers send. A block that arrives is checked against its
hash, and then inserted as the only chunk of an asset, without a look at what is held under the id and at whether the peer
may touch it. `immutable_iff` says in which runs no harm comes of this.
-/

namespace AgentHalo.Swarm

namespace BitswapRuntime

variable {blake3 : Bytes → Vector UInt8 32}

/-- Held chunks keep their data, their position and the number of chunks they belong to. -/
def Keeps (rt rt' : BitswapRuntime) : Prop :=
  ∀ (id : ChunkId) (chunk : Chunk), rt.localChunks[id]? = some chunk → ∃ chunk' : Chunk, rt'.localChunks[id]? = some chunk' ∧
    chunk'.data = chunk.data ∧ chunk'.index = chunk.index ∧ chunk'.totalChunks = chunk.totalChunks

/-- Every held chunk has the hash of its data as its id. -/
def Addressed (blake3 : Bytes → Vector UInt8 32) (rt : BitswapRuntime) : Prop :=
  ∀ (id : ChunkId) (chunk : Chunk), rt.localChunks[id]? = some chunk → chunk.id = id ∧ ChunkId.fromBytes blake3 chunk.data = id

/-- What a run over `requests` should leave intact: held chunks, their addresses, and what a peer may not read. -/
structure Immutable (blake3 : Bytes → Vector UInt8 32) (rt : BitswapRuntime) (requests : List Request) : Prop where
  keeps : ∀ front middle back, requests = front ++ middle ++ back →
    Keeps (Run.exec (step blake3) rt front) (Run.exec (step blake3) rt (front ++ middle))
  addressed : ∀ front back, requests = front ++ back → Addressed blake3 (Run.exec (step blake3) rt front)
  denied : ∀ front r back, requests = front ++ r :: back → ∀ id : ChunkId,
    (Run.exec (step blake3) rt front).peerCanRead r.peerId id r.now = false →
    (Run.exec (step blake3) rt (front ++ [r])).localChunks[id]? = (Run.exec (step blake3) rt front).localChunks[id]?

/-- A block that the node takes agrees with what is held under its id, and comes from a peer that may read it or repeats
the record that is held. -/
def Harmless (blake3 : Bytes → Vector UInt8 32) (rt : BitswapRuntime) (r : Request) : Prop :=
  ∀ (id : ChunkId) (payload : Bytes), Takes blake3 r id payload →
    (∀ chunk : Chunk, rt.localChunks[id]? = some chunk → chunk.data = payload ∧ chunk.index = 0 ∧ chunk.totalChunks = 1) ∧
      (rt.peerCanRead r.peerId id r.now = true ∨ rt.localChunks[id]? = some (Chunk.new blake3 0 1 payload))

theorem Keeps.refl (rt : BitswapRuntime) : Keeps rt rt := fun _ chunk h => ⟨chunk, h, rfl, rfl, rfl⟩

variable {rt : BitswapRuntime}

theorem Keeps.trans {rt' rt'' : BitswapRuntime} (h : Keeps rt rt') (h' : Keeps rt' rt'') : Keeps rt rt'' := by
  intro id chunk hchunk
  obtain ⟨chunk', hchunk', hdata, hindex, htotal⟩ := h id chunk hchunk
  obtain ⟨chunk'', hchunk'', hdata', hindex', htotal'⟩ := h' id chunk' hchunk'
  exact ⟨chunk'', hchunk'', hdata'.trans hdata, hindex'.trans hindex, htotal'.trans htotal⟩

/-! ### One message -/

variable {r : Request}

theorem localChunks_of_takes {id : ChunkId} {payload : Bytes} (h : Takes blake3 r id payload) :
    (rt.step blake3 r).localChunks = rt.localChunks.insert id (Chunk.new blake3 0 1 payload) := by
  rcases localChunks_step blake3 rt r with ⟨-, hnone⟩ | ⟨id', payload', h', hstep⟩
  · exact absurd h (hnone id payload)
  · have hsame : BitswapMessage.block id payload = .block id' payload' := h.1.symm.trans h'.1
    cases hsame
    exact hstep

theorem Addressed.step (h : Addressed blake3 rt) (r : Request) : Addressed blake3 (rt.step blake3 r) := by
  rcases localChunks_step blake3 rt r with ⟨hsame, -⟩ | ⟨id, payload, ⟨-, -, hhash⟩, hstep⟩
  · unfold Addressed
    rw [hsame]
    exact h
  · intro id' chunk hchunk
    rw [hstep, OrdMap.get?_insert] at hchunk
    split at hchunk
    · rename_i heq
      obtain rfl := Option.some.inj hchunk
      exact ⟨hhash.trans heq, hhash.trans heq⟩
    · exact h id' chunk hchunk

theorem Harmless.keeps (h : Harmless blake3 rt r) : Keeps rt (rt.step blake3 r) := by
  intro id chunk hchunk
  rcases localChunks_step blake3 rt r with ⟨hsame, -⟩ | ⟨id', payload, htakes, hstep⟩
  · rw [hsame]
    exact ⟨chunk, hchunk, rfl, rfl, rfl⟩
  · rw [hstep, OrdMap.get?_insert]
    split
    · rename_i heq
      obtain ⟨hdata, hindex, htotal⟩ := (h id' payload htakes).1 chunk (by rw [heq]; exact hchunk)
      exact ⟨_, rfl, hdata.symm, hindex.symm, htotal.symm⟩
    · exact ⟨chunk, hchunk, rfl, rfl, rfl⟩

theorem Harmless.denied (h : Harmless blake3 rt r) {id : ChunkId} (hdenied : rt.peerCanRead r.peerId id r.now = false) :
    (rt.step blake3 r).localChunks[id]? = rt.localChunks[id]? := by
  rcases localChunks_step blake3 rt r with ⟨hsame, -⟩ | ⟨id', payload, htakes, hstep⟩
  · rw [hsame]
  · rw [hstep, OrdMap.get?_insert]
    split
    · rename_i heq
      subst heq
      rcases (h id' payload htakes).2 with hallowed | hheld
      · rw [hdenied] at hallowed
        cases hallowed
      · exact hheld.symm
    · rfl

theorem harmless_of_intact (hkeeps : Keeps rt (rt.step blake3 r))
    (hdenied : ∀ id, rt.peerCanRead r.peerId id r.now = false →
      (rt.step blake3 r).localChunks[id]? = rt.localChunks[id]?) : Harmless blake3 rt r := by
  intro id payload htakes
  have hnew : (rt.step blake3 r).localChunks[id]? = some (Chunk.new blake3 0 1 payload) := by
    rw [localChunks_of_takes htakes, OrdMap.get?_insert, if_pos rfl]
  constructor
  · intro chunk hchunk
    obtain ⟨chunk', hchunk', hdata, hindex, htotal⟩ := hkeeps id chunk hchunk
    obtain rfl := Option.some.inj (hnew.symm.trans hchunk')
    exact ⟨hdata.symm, hindex.symm, htotal.symm⟩
  · cases hallowed : rt.peerCanRead r.peerId id r.now with
    | true => exact .inl rfl
    | false => exact .inr ((hdenied id hallowed).symm.trans hnew)

/-! ### Whole runs -/

/-- **What peers can do to the held chunks.** A run leaves the held chunks intact exactly if they have the right addresses
at its start and every message of it is harmless where it arrives. -/
theorem immutable_iff (rt : BitswapRuntime) (requests : List Request) :
    Immutable blake3 rt requests ↔
      Addressed blake3 rt ∧ Run.Along (step blake3) (Harmless blake3) rt requests := by
  constructor
  · intro h
    refine ⟨h.addressed [] requests rfl, Run.along_iff.mpr ?_⟩
    rintro front r back hsplit
    have hkeeps := h.keeps front [r] back (by rw [hsplit, List.append_assoc, List.singleton_append])
    have hdenied := h.denied front r back hsplit
    rw [Run.exec_append] at hkeeps hdenied
    exact harmless_of_intact hkeeps hdenied
  · rintro ⟨haddressed, hrun⟩
    constructor
    · rintro front middle back rfl
      have hmiddle := (Run.along_append.mp (Run.along_append.mp hrun).1).2
      rw [Run.exec_append]
      exact Run.exec_related_along Keeps.refl (fun _ _ _ => Keeps.trans) (fun _ _ => Harmless.keeps) hmiddle
    · rintro front back rfl
      exact Run.exec_invariant (fun _ r hrt => hrt.step r) haddressed front
    · rintro front r back rfl id hdenied
      have hr := (Run.along_append.mp hrun).2.1
      rw [Run.exec_append]
      exact hr.denied hdenied

/-- A node that holds the second chunk of two, and lets nobody read. -/
def guardedNode : BitswapRuntime where
  localChunks := (∅ : OrdMap ChunkId Chunk).insert (ChunkId.fromBytes firstBytes [2]) (Chunk.new firstBytes 1 2 [2])
  peerInventory := ∅
  peerAliases := ∅
  grants := ⟨[]⟩
  requireGrants := true
  activeTransfers := 0

/-- A peer without permission sends the data of that chunk, and the node takes it for the only chunk of an asset. -/
theorem position_overwritten : Addressed firstBytes guardedNode ∧
    guardedNode.peerCanRead "peer" (ChunkId.fromBytes firstBytes [2]) 0 = false ∧
    ¬ Immutable firstBytes guardedNode [⟨"peer", 0, .block (ChunkId.fromBytes firstBytes [2]) [2]⟩] := by
  refine ⟨?_, rfl, ?_⟩
  · intro id chunk hchunk
    unfold guardedNode at hchunk
    rw [OrdMap.get?_insert] at hchunk
    split at hchunk
    · rename_i heq
      obtain rfl := Option.some.inj hchunk
      exact ⟨heq, heq⟩
    · rw [Std.ExtTreeMap.getElem?_empty] at hchunk
      cases hchunk
  · intro h
    have htakes : Takes firstBytes ⟨"peer", 0, .block (ChunkId.fromBytes firstBytes [2]) [2]⟩
        (ChunkId.fromBytes firstBytes [2]) [2] := ⟨rfl, by decide, rfl⟩
    have hheld : guardedNode.localChunks[ChunkId.fromBytes firstBytes [2]]? = some (Chunk.new firstBytes 1 2 [2]) := by
      unfold guardedNode
      rw [OrdMap.get?_insert, if_pos rfl]
    obtain ⟨chunk', hchunk', -, hindex, -⟩ := h.keeps [] [_] [] rfl _ _ hheld
    rw [List.nil_append, Run.exec_cons, Run.exec_nil, localChunks_of_takes htakes, OrdMap.get?_insert,
      if_pos rfl] at hchunk'
    obtain rfl := Option.some.inj hchunk'
    revert hindex
    decide

end BitswapRuntime

end AgentHalo.Swarm
