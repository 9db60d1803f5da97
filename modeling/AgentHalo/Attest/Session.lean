import AgentHalo.Attest.Membership
import AgentHalo.Base.Slices
import AgentHalo.Engine.State
import AgentHalo.Identity.Binding

/-!
# Session attestation

The events of a session are read from the database, in the order of their numbers, and an attestation is made of them: a
Merkle root over their content hashes, and a digest over the session's reference, the root and the number of events.

Two attestations with one digest are of one session id with the same contents in the same order (`attestation_binds`).
The digest's text is cut at its last two colons, and a root determines its tree.
-/

namespace AgentHalo.Attest

open HashTree (Hasher build root root_map_hash)
open Identity (HashAlgorithm hashBytes hashHex hashHex_inj CollisionFreeOn)
open Outcome
open Store (KeyMap)
open Text (utf8 hexEncode startsWith endsWith trimEndMatchesStr parseU64 trim toAsciiLowercase toLeBytes)

/-! ### Events in the database -/

/-- What a read of the trace sees of a database. -/
structure TraceDb where
  keymap : KeyMap
  state : Engine.State

def sessionPrefix : String := "halo:session:"
def eventPrefix : String := "halo:event:"

def eventBaseKey (sessionId : String) (seq : UInt64) : String := eventPrefix ++ sessionId ++ ":" ++ toString seq

def readValueByKeyFromDb (db : TraceDb) (key : String) : Option UInt64 :=
  (db.keymap.get key).bind fun idx => db.state.values[idx]?

def u64ChunksToBytes (chunks : List UInt64) : Bytes := chunks.flatMap toLeBytes

def readBlob (db : TraceDb) (baseKey : String) : Except String (Option Bytes) :=
  match readValueByKeyFromDb db (baseKey ++ ":len") with
  | none => .ok none
  | some len => do
    let chunks ← (List.range (Slices.divCeil len.toNat 8)).mapM fun idx =>
      let key := baseKey ++ ":chunk:" ++ toString idx
      okOr ("missing chunk key " ++ key) (readValueByKeyFromDb db key)
    return some ((u64ChunksToBytes chunks).take len.toNat)

/-- Rust's `str::rsplit_once`, its second part. -/
def afterLast (c : Char) (s : String) : Option String :=
  if c ∈ s.toList then some (String.ofList (s.toList.reverse.takeWhile (· != c)).reverse) else none

variable {P : Platform}

structure TraceEvent (P : Platform) where
  seq : UInt64
  content : P.json.Value
  contentHash : String

/-- How the stored records are parsed. -/
structure TraceFormat (P : Platform) where
  eventFromSlice : Bytes → Option (TraceEvent P)
  metadataFromSlice : Bytes → Option SessionMetadata

variable (F : TraceFormat P)

/-- The numbers of the events of a session, in order and once each. -/
def eventSeqs (db : TraceDb) (sessionId : String) : List UInt64 :=
  let found := db.keymap.allKeys.filterMap fun entry =>
    if startsWith entry.1 (eventPrefix ++ sessionId ++ ":") && endsWith entry.1 ":len" then
      (afterLast ':' (trimEndMatchesStr ":len" entry.1)).bind parseU64
    else none
  (found.mergeSort fun a b => decide (a ≤ b)).destutter (· ≠ ·)

/-- A record that does not parse is left out. -/
def sessionEvents (loaded : Except String TraceDb) (sessionId : String) : Except String (List (TraceEvent P)) := do
  let db ← loaded
  let blobs ← (eventSeqs db sessionId).mapM fun seq => readBlob db (eventBaseKey sessionId seq)
  return blobs.filterMap fun blob => blob.bind F.eventFromSlice

def listSessions (loaded : Except String TraceDb) : Except String (List SessionMetadata) := do
  let db ← loaded
  let bases := db.keymap.allKeys.filterMap fun entry =>
    if startsWith entry.1 sessionPrefix && endsWith entry.1 ":len" then some (trimEndMatchesStr ":len" entry.1) else none
  let blobs ← bases.mapM (readBlob db)
  return (blobs.filterMap fun blob => blob.bind F.metadataFromSlice).mergeSort fun a b => b.startedAt ≤ a.startedAt

/-! ### The attestation -/

/-- The length of the content hash tells the algorithm. -/
def eventAlgorithm (event : TraceEvent P) : HashAlgorithm :=
  if 64 < (utf8 event.contentHash).length then .sha512 else .sha256

def verifyEventHash (event : TraceEvent P) : Except String Unit := do
  require (trim event.contentHash != "") ("session event " ++ toString event.seq ++ " has empty content_hash")
  let encoded := P.json.toVec event.content
  let expected := hashHex P (eventAlgorithm event) encoded
  require (expected == toAsciiLowercase event.contentHash)
    ("content hash mismatch at seq " ++ toString event.seq ++ ": expected " ++ expected ++ ", got " ++ event.contentHash)

def digestPayload (publicSessionRef merkleRoot : String) (eventCount : UInt64) : String :=
  "agenthalo.attestation.digest.v1:" ++ publicSessionRef ++ ":" ++ merkleRoot ++ ":" ++ toString eventCount

variable (P) in
def digestAttestation (publicSessionRef merkleRoot : String) (eventCount : UInt64) : String :=
  hashHex P .current (utf8 (digestPayload publicSessionRef merkleRoot eventCount))

def leafInput (contentHash : Bytes) : Bytes := 0x00 :: contentHash
def nodeInput (pair : Bytes × Bytes) : Bytes := 0x01 :: (pair.1 ++ pair.2)

variable (P) in
def leafHash (algo : HashAlgorithm) (contentHash : Bytes) : Bytes := hashBytes P algo (leafInput contentHash)

variable (P) in
def nodeHash (algo : HashAlgorithm) (left right : Bytes) : Bytes := hashBytes P algo (nodeInput (left, right))

variable (P) in
def merkleRootFromHashes (contentHashes : List String) : Except String String := do
  require (!contentHashes.isEmpty) "cannot build Merkle root from empty hash list"
  let level ← contentHashes.mapM fun h => do
    let bytes ← hexDecodeVar h
    return leafHash P .current bytes
  -- the loop ends with one node, since it starts with at least one
  return hexEncode ((root (nodeHash P .current) level).getD [])

structure AttestationRequest where
  sessionId : String
  anonymous : Bool

structure AttestationResult where
  sessionId : Option String
  blindedSessionRef : Option String
  merkleRoot : String
  eventCount : UInt64
  contentHashes : List String
  witnessAlgorithm : String
  attestationDigest : String
  timestamp : UInt64
  anonymous : Bool
  proofType : String
  anonymousMembershipProof : Option AnonymousMembershipProof

/-- The database is loaded for the events, and once more for the sessions of an anonymous attestation. -/
def attestSession (loaded loadedAgain : Except String TraceDb) (now : UInt64) (request : AttestationRequest) :
    Except String AttestationResult := do
  let events ← sessionEvents F loaded request.sessionId
  require (!events.isEmpty) ("session " ++ request.sessionId ++ " has no trace events")
  let verifiedHashes ← events.mapM fun event => do
    verifyEventHash event
    return toAsciiLowercase event.contentHash
  let merkleRoot ← merkleRootFromHashes P verifiedHashes
  let blinded := blindedSessionReference P request.sessionId
  let anonymousMembershipProof ←
    if request.anonymous then do
      let sessions ← listSessions F loadedAgain
      let proof ← buildAnonymousMembershipProof P sessions blinded
      pure (some proof)
    else pure none
  let publicRef := if request.anonymous then blinded else request.sessionId
  let eventCount := UInt64.ofNat verifiedHashes.length
  return {
    sessionId := if request.anonymous then none else some request.sessionId
    blindedSessionRef := if request.anonymous then some blinded else none
    merkleRoot
    eventCount
    contentHashes := verifiedHashes
    witnessAlgorithm := "ML-DSA-65"
    attestationDigest := digestAttestation P publicRef merkleRoot eventCount
    timestamp := now
    anonymous := request.anonymous
    proofType := if request.anonymous then "merkle-sha512+anon-membership" else "merkle-sha512"
    anonymousMembershipProof }

/-! ### What is hashed -/

def eventDigest (event : TraceEvent P) : Bytes := hashBytes P (eventAlgorithm event) (P.json.toVec event.content)

variable (P) in
def attestHasher : Hasher Bytes Bytes where
  leaf := leafHash P .current
  node := nodeHash P .current

def attestedTree (events : List (TraceEvent P)) : Option (HashTree Bytes) :=
  build ((events.map eventDigest).map .leaf)

def attestedRoot (events : List (TraceEvent P)) : String :=
  hexEncode (((attestedTree events).map (HashTree.hash (attestHasher P))).getD [])

def attestInput : Bytes ⊕ Bytes × Bytes → Bytes
  | .inl contentHash => leafInput contentHash
  | .inr pair => nodeInput pair

/-- What is hashed to attest a session: the contents, the tree, and the digest's text. -/
def attestedTexts (sessionId : String) (events : List (TraceEvent P)) : List Bytes :=
  (events.map fun event => P.json.toVec event.content) ++
    ((attestedTree events).toList.flatMap (HashTree.inputs (attestHasher P))).map attestInput ++
    [utf8 (digestPayload sessionId (attestedRoot events) (UInt64.ofNat events.length))]

/-! ### What an attestation was made of -/

variable {event : TraceEvent P} {events : List (TraceEvent P)} {t : HashTree Bytes} {i : Bytes ⊕ Bytes × Bytes}

theorem toAsciiLowercase_of_verifyEventHash (h : verifyEventHash event = .ok ()) :
    toAsciiLowercase event.contentHash = hexEncode (eventDigest event) := by
  unfold verifyEventHash at h
  simp only [bind, bind_eq_ok, require_eq_ok, beq_iff_eq] at h
  obtain ⟨_, -, hsame⟩ := h
  exact hsame.symm

theorem eventDigest_ne_nil (event : TraceEvent P) : eventDigest event ≠ [] := by
  apply List.ne_nil_of_length_pos
  unfold eventDigest hashBytes
  split <;> simp

theorem eq_map_of_verify {hashes : List String} (h : (events.mapM fun event => do
      verifyEventHash event
      return toAsciiLowercase event.contentHash : Except String (List String)) = .ok hashes) :
    hashes = events.map fun event => hexEncode (eventDigest event) := by
  induction events generalizing hashes with
  | nil => exact (Except.ok.inj h).symm
  | cons event events ih =>
    rw [List.mapM_cons] at h
    simp only [bind, pure, Except.pure, bind_eq_ok, Except.ok.injEq] at h
    obtain ⟨_, ⟨_, hevent, rfl⟩, rest, hrest, rfl⟩ := h
    rw [List.map_cons, ← ih hrest, toAsciiLowercase_of_verifyEventHash hevent]

theorem merkleRootFromHashes_eq {merkleRoot : String}
    (h : merkleRootFromHashes P (events.map fun event => hexEncode (eventDigest event)) = .ok merkleRoot) :
    merkleRoot = attestedRoot events := by
  have hleaves : ((events.map fun event => hexEncode (eventDigest event)).mapM fun h => do
        let bytes ← hexDecodeVar h
        return leafHash P .current bytes : Except String (List Bytes)) =
      .ok (events.map fun event => leafHash P .current (eventDigest event)) := by
    rw [List.mapM_map]
    have hone (event : TraceEvent P) : ((fun h => do
        let bytes ← hexDecodeVar h
        return leafHash P .current bytes : String → Except String Bytes) ∘ fun event => hexEncode (eventDigest event)) event =
        pure (leafHash P .current (eventDigest event)) := by
      rw [Function.comp_apply, hexDecodeVar_hexEncode (eventDigest_ne_nil event)]
      rfl
    rw [funext hone]
    exact List.mapM_pure
  unfold merkleRootFromHashes at h
  simp only [bind, pure, Except.pure, bind_eq_ok, require_eq_ok, Except.ok.injEq] at h
  obtain ⟨_, -, level, hlevel, rfl⟩ := h
  obtain rfl := Except.ok.inj (hleaves.symm.trans hlevel)
  have htree := root_map_hash (attestHasher P) ((events.map eventDigest).map .leaf)
  rw [List.map_map, List.map_map] at htree
  exact congrArg (fun r => hexEncode (Option.getD r [])) htree

theorem exists_events_of_attestSession {loaded loadedAgain : Except String TraceDb} {now : UInt64} {sessionId : String}
    {r : AttestationResult} (h : attestSession F loaded loadedAgain now ⟨sessionId, false⟩ = .ok r) :
    ∃ events, sessionEvents F loaded sessionId = .ok events ∧ events ≠ [] ∧
      r.attestationDigest = digestAttestation P sessionId (attestedRoot events) (UInt64.ofNat events.length) := by
  unfold attestSession at h
  simp only [bind, pure, Except.pure, bind_eq_ok, require_eq_ok, Except.ok.injEq, Bool.false_eq_true, if_false] at h
  obtain ⟨events, hevents, _, hne, hashes, hhashes, merkleRoot, hroot, _, -, rfl⟩ := h
  obtain rfl := eq_map_of_verify hhashes
  obtain rfl := merkleRootFromHashes_eq hroot
  refine ⟨events, hevents, by simpa using hne, ?_⟩
  rw [List.length_map]

/-! ### Binding -/

theorem digestPayload_inj {ref ref' : String} {root root' : Bytes} {count count' : UInt64}
    (h : digestPayload ref (hexEncode root) count = digestPayload ref' (hexEncode root') count') :
    ref = ref' ∧ root = root' := by
  have hlist (ref : String) (root : Bytes) (count : UInt64) : (digestPayload ref (hexEncode root) count).toList =
      ("agenthalo.attestation.digest.v1:".toList ++ ref.toList ++ ':' :: (hexEncode root).toList) ++
        ':' :: (toString count).toList := by
    unfold digestPayload
    simp [String.toList_append]
  have hcut := congrArg String.toList h
  rw [hlist, hlist] at hcut
  obtain ⟨hfront, -⟩ := Separators.append_cons_inj_of_not_mem_right (Text.colon_not_mem_toString count.toNat)
    (Text.colon_not_mem_toString count'.toNat) hcut
  obtain ⟨href, hroot⟩ := Separators.append_cons_inj_of_not_mem_right (Text.colon_not_mem_hexEncode root)
    (Text.colon_not_mem_hexEncode root') hfront
  exact ⟨String.toList_injective (List.append_cancel_left href), Text.hexEncode_inj (String.toList_injective hroot)⟩

theorem apply_attestHasher (i : Bytes ⊕ Bytes × Bytes) :
    (attestHasher P).apply i = hashBytes P .current (attestInput i) := by cases i <;> rfl

theorem attestInput_inj {t' : HashTree Bytes} {j : Bytes ⊕ Bytes × Bytes} (hi : i ∈ t.inputs (attestHasher P))
    (hj : j ∈ t'.inputs (attestHasher P)) (h : attestInput i = attestInput j) : i = j := by
  have happly : ∀ input, ((attestHasher P).apply input).length = 64 := fun input => by
    rw [apply_attestHasher, length_hashBytes_current]
  have hlength := HashTree.forall_pair_of_inputs (Q := fun node : Bytes => node.length = 64) happly
  cases i with
  | inl a =>
    cases j with
    | inl b => exact congrArg Sum.inl (List.cons.inj h).2
    | inr pair => exact absurd (List.cons.inj h).1 (by decide)
  | inr pair =>
    cases j with
    | inl b => exact absurd (List.cons.inj h).1 (by decide)
    | inr pair' =>
      obtain ⟨hfst, -⟩ := hlength t pair hi
      obtain ⟨hfst', -⟩ := hlength t' pair' hj
      obtain ⟨hleft, hright⟩ := List.append_inj (List.cons.inj h).2 (by omega)
      exact congrArg Sum.inr (Prod.ext hleft hright)

theorem attestedTree_isSome (hne : events ≠ []) : (attestedTree events).isSome :=
  HashTree.build_isSome (by simpa using hne)

theorem leaves_attestedTree (ht : attestedTree events = some t) :
    t.leaves = events.map eventDigest := by
  rw [HashTree.leaves_build ht, HashTree.flatMap_leaves_map_leaf]

theorem toVec_mem_attestedTexts (sessionId : String) (h : event ∈ events) :
    P.json.toVec event.content ∈ attestedTexts sessionId events :=
  List.mem_append_left _ (List.mem_append_left _ (List.mem_map_of_mem h))

theorem attestInput_mem_attestedTexts (sessionId : String) (ht : attestedTree events = some t)
    (h : i ∈ t.inputs (attestHasher P)) :
    attestInput i ∈ attestedTexts sessionId events := by
  refine List.mem_append_left _ (List.mem_append_right _ (List.mem_map_of_mem ?_))
  rw [ht]
  simpa using h

theorem digestPayload_mem_attestedTexts (sessionId : String) (events : List (TraceEvent P)) :
    utf8 (digestPayload sessionId (attestedRoot events) (UInt64.ofNat events.length)) ∈ attestedTexts sessionId events :=
  List.mem_append_right _ (List.mem_singleton_self _)

section Free

variable {events events' : List (TraceEvent P)} {sessionId sessionId' : String}
  (hfree : CollisionFreeOn P {text | text ∈ attestedTexts sessionId events ++ attestedTexts sessionId' events'})
include hfree

theorem map_eventDigest_eq (hne : events ≠ []) (hne' : events' ≠ []) (hroot : attestedRoot events = attestedRoot events') :
    events.map eventDigest = events'.map eventDigest := by
  obtain ⟨t, ht⟩ := Option.isSome_iff_exists.mp (attestedTree_isSome hne)
  obtain ⟨t', ht'⟩ := Option.isSome_iff_exists.mp (attestedTree_isSome hne')
  unfold attestedRoot at hroot
  rw [ht, ht'] at hroot
  have htree : t = t' := by
    have hhash : t.hash (attestHasher P) = t'.hash (attestHasher P) := Text.hexEncode_inj hroot
    refine HashTree.eq_of_hash_eq ?_ hhash
    intro i hi j hj hsame
    rw [apply_attestHasher, apply_attestHasher] at hsame
    exact attestInput_inj hi hj (hfree.sha512 (List.mem_append_left _ (attestInput_mem_attestedTexts sessionId ht hi))
      (List.mem_append_right _ (attestInput_mem_attestedTexts sessionId' ht' hj)) (Vector.toList_inj.mp hsame))
  rw [← leaves_attestedTree ht, ← leaves_attestedTree ht', htree]

theorem content_eq_of_eventDigest_eq (hjson : Function.Injective P.json.toVec) {event event' : TraceEvent P}
    (hevent : event ∈ events) (hevent' : event' ∈ events') (h : eventDigest event = eventDigest event') :
    event.content = event'.content :=
  hjson (hashHex_inj hfree (List.mem_append_left _ (toVec_mem_attestedTexts sessionId hevent))
    (List.mem_append_right _ (toVec_mem_attestedTexts sessionId' hevent')) (congrArg hexEncode h)).2

end Free

/-- Attestations with one digest are of one session id, with the same contents in the same order. -/
theorem attestation_binds (loaded loadedAgain loaded' loadedAgain' : Except String TraceDb) (now now' : UInt64)
    (sessionId sessionId' : String) (r r' : AttestationResult)
    (h : attestSession F loaded loadedAgain now ⟨sessionId, false⟩ = .ok r)
    (h' : attestSession F loaded' loadedAgain' now' ⟨sessionId', false⟩ = .ok r')
    (hfree : ∀ events events', sessionEvents F loaded sessionId = .ok events →
      sessionEvents F loaded' sessionId' = .ok events' →
      CollisionFreeOn P {text | text ∈ attestedTexts sessionId events ++ attestedTexts sessionId' events'})
    (hjson : Function.Injective P.json.toVec) (hdigest : r.attestationDigest = r'.attestationDigest) :
    sessionId = sessionId' ∧ ∃ events events', sessionEvents F loaded sessionId = .ok events ∧
      sessionEvents F loaded' sessionId' = .ok events' ∧ events.length = events'.length ∧
      events.map (·.content) = events'.map (·.content) := by
  obtain ⟨events, hevents, hne, hr⟩ := exists_events_of_attestSession F h
  obtain ⟨events', hevents', hne', hr'⟩ := exists_events_of_attestSession F h'
  have hfree := hfree events events' hevents hevents'
  rw [hr, hr'] at hdigest
  have hpayload := Store.utf8_inj
    (hashHex_inj hfree (List.mem_append_left _ (digestPayload_mem_attestedTexts sessionId events))
      (List.mem_append_right _ (digestPayload_mem_attestedTexts sessionId' events')) hdigest).2
  obtain ⟨hid, hroot⟩ := digestPayload_inj hpayload
  have hdigests := map_eventDigest_eq hfree hne hne' (congrArg hexEncode hroot)
  have hlength : events.length = events'.length := by simpa using congrArg List.length hdigests
  refine ⟨hid, events, events', hevents, hevents', hlength, List.ext_getElem (by simpa using hlength) ?_⟩
  intro i hi hi'
  rw [List.length_map] at hi hi'
  rw [List.getElem_map, List.getElem_map]
  refine content_eq_of_eventDigest_eq hfree hjson (List.getElem_mem hi) (List.getElem_mem hi') ?_
  have hat := congrArg (·[i]?) hdigests
  simpa [hi, hi'] using hat

theorem attestSession_single {F : TraceFormat P} {loaded loadedAgain : Except String TraceDb} {now : UInt64}
    {sessionId : String} {event : TraceEvent P} (hevents : sessionEvents F loaded sessionId = .ok [event])
    (hverify : verifyEventHash event = .ok ()) :
    attestSession F loaded loadedAgain now ⟨sessionId, false⟩ = .ok
      { sessionId := some sessionId
        blindedSessionRef := none
        merkleRoot := attestedRoot [event]
        eventCount := 1
        contentHashes := [hexEncode (eventDigest event)]
        witnessAlgorithm := "ML-DSA-65"
        attestationDigest := digestAttestation P sessionId (attestedRoot [event]) 1
        timestamp := now
        anonymous := false
        proofType := "merkle-sha512"
        anonymousMembershipProof := none } := by
  have hlower : toAsciiLowercase event.contentHash = hexEncode (eventDigest event) :=
    toAsciiLowercase_of_verifyEventHash hverify
  have hroot : merkleRootFromHashes P [hexEncode (eventDigest event)] = .ok (attestedRoot [event]) := by
    obtain ⟨merkleRoot, hroot⟩ : ∃ merkleRoot,
        merkleRootFromHashes P [hexEncode (eventDigest event)] = .ok merkleRoot := by
      unfold merkleRootFromHashes
      simp [hexDecodeVar_hexEncode (eventDigest_ne_nil event), require, bind, Except.bind, pure, Except.pure]
    have heq : merkleRoot = attestedRoot [event] := merkleRootFromHashes_eq hroot
    exact hroot.trans (congrArg Except.ok heq)
  simp [attestSession, hevents, hverify, hlower, hroot, require, bind, Except.bind, pure, Except.pure]

section Greeting

/-- The texts that are hashed here have different lengths. -/
def lengthPlatform : Platform :=
  { Platform.reference with
    sha256 := fun input => Vector.replicate 32 (UInt8.ofNat input.length)
    sha512 := fun input => Vector.replicate 64 (UInt8.ofNat input.length) }

def greeting : TraceEvent lengthPlatform := ⟨1, "hello", hashHex lengthPlatform .sha512 (utf8 "hello")⟩

/-- The record of one byte is the event. -/
def greetingFormat : TraceFormat lengthPlatform where
  eventFromSlice bytes := if bytes = [7] then some greeting else none
  metadataFromSlice _ := none

def greetingDb : TraceDb where
  keymap := ((KeyMap.new.getOrCreate "halo:event:s:1:len").2.getOrCreate "halo:event:s:1:chunk:0").2
  state := ⟨[1, 7]⟩

/-- The session stands behind another one. -/
def laterDb : TraceDb where
  keymap := (((KeyMap.new.getOrCreate "halo:event:r:1:len").2.getOrCreate "halo:event:s:1:len").2.getOrCreate
    "halo:event:s:1:chunk:0").2
  state := ⟨[0, 1, 7]⟩

theorem eventSeqs_greeting : ∀ db ∈ [greetingDb, laterDb], eventSeqs db "s" = [1] := by
  have hfound : ∀ db ∈ [greetingDb, laterDb], (db.keymap.allKeys.filterMap fun entry =>
      if startsWith entry.1 (eventPrefix ++ "s" ++ ":") && endsWith entry.1 ":len" then
        (afterLast ':' (trimEndMatchesStr ":len" entry.1)).bind parseU64
      else none) = [1] := by decide
  intro db hdb
  rw [eventSeqs, hfound db hdb, List.mergeSort_singleton]
  rfl

theorem sessionEvents_greeting : ∀ db ∈ [greetingDb, laterDb],
    sessionEvents greetingFormat (.ok db) "s" = .ok [greeting] := by
  have hblob : ∀ db ∈ [greetingDb, laterDb], readBlob db (eventBaseKey "s" 1) = .ok (some [7]) := by decide
  intro db hdb
  simp only [sessionEvents, bind, Except.bind, eventSeqs_greeting db hdb]
  simp [hblob db hdb, greetingFormat, pure, Except.pure, bind, Except.bind]

theorem attestedTree_greeting : attestedTree [greeting] = some (.leaf (eventDigest greeting)) :=
  HashTree.build_of_le (by simp)

def greetingResult (now : UInt64) : AttestationResult where
  sessionId := some "s"
  blindedSessionRef := none
  merkleRoot := attestedRoot [greeting]
  eventCount := 1
  contentHashes := [hexEncode (eventDigest greeting)]
  witnessAlgorithm := "ML-DSA-65"
  attestationDigest := digestAttestation lengthPlatform "s" (attestedRoot [greeting]) 1
  timestamp := now
  anonymous := false
  proofType := "merkle-sha512"
  anonymousMembershipProof := none

theorem attestSession_greeting (loadedAgain : Except String TraceDb) (now : UInt64) :
    ∀ db ∈ [greetingDb, laterDb],
      attestSession greetingFormat (.ok db) loadedAgain now ⟨"s", false⟩ = .ok (greetingResult now) :=
  fun db hdb => attestSession_single (sessionEvents_greeting db hdb) (by decide +kernel)

theorem attestation_binds_greeting :
    "s" = "s" ∧ ∃ events events', sessionEvents greetingFormat (.ok greetingDb) "s" = .ok events ∧
      sessionEvents greetingFormat (.ok laterDb) "s" = .ok events' ∧ events.length = events'.length ∧
      events.map (·.content) = events'.map (·.content) := by
  have hfirst : greetingDb ∈ [greetingDb, laterDb] := by simp
  have hlater : laterDb ∈ [greetingDb, laterDb] := by simp
  refine attestation_binds greetingFormat (.ok greetingDb) (.ok greetingDb) (.ok laterDb) (.ok laterDb) 5 6 "s" "s"
    (greetingResult 5) (greetingResult 6) (attestSession_greeting _ 5 _ hfirst) (attestSession_greeting _ 6 _ hlater) ?_
    (fun _ _ => Store.utf8_inj) rfl
  intro events events' hevents hevents'
  obtain rfl := Except.ok.inj ((sessionEvents_greeting _ hfirst).symm.trans hevents)
  obtain rfl := Except.ok.inj ((sessionEvents_greeting _ hlater).symm.trans hevents')
  have htexts : attestedTexts "s" [greeting] = [utf8 "hello", leafInput (eventDigest greeting),
      utf8 (digestPayload "s" (hexEncode (leafHash lengthPlatform .current (eventDigest greeting))) 1)] := by
    unfold attestedTexts attestedRoot
    rw [attestedTree_greeting]
    rfl
  have hlengths : ∀ a ∈ attestedTexts "s" [greeting], ∀ b ∈ attestedTexts "s" [greeting],
      UInt8.ofNat a.length = UInt8.ofNat b.length → a = b := by
    have hnodup : ((attestedTexts "s" [greeting]).map fun text => UInt8.ofNat text.length).Nodup := by
      rw [htexts]
      decide +kernel
    exact fun a ha b hb => List.inj_on_of_nodup_map hnodup ha hb
  have hmem {a : Bytes} (ha : a ∈ attestedTexts "s" [greeting] ++ attestedTexts "s" [greeting]) :
      a ∈ attestedTexts "s" [greeting] := (List.mem_append.mp ha).elim id id
  have hfirst {n : Nat} (hn : 0 < n) {x y : UInt8} (h : Vector.replicate n x = Vector.replicate n y) : x = y := by
    simpa using congrArg (fun v : Vector UInt8 n => v[0]) h
  exact ⟨fun a ha b hb h => hlengths a (hmem ha) b (hmem hb) (hfirst (by decide) h),
    fun a ha b hb h => hlengths a (hmem ha) b (hmem hb) (hfirst (by decide) h)⟩

end Greeting

end AgentHalo.Attest
