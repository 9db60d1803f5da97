import AgentHalo.Discovery.Announcement
import AgentHalo.Lib.Relating
import AgentHalo.Lib.Run

/-!
# The state of discovery

`AgentDiscovery` holds the announcements of known agents, the topics it is subscribed to, and the attestations whose
attester has not announced itself yet, with their orders, indexes and counts. The readings of the clock and the iteration
order of hash maps are in `Ambient`. The eviction loops run for at most `fuel` rounds, and an operation answers `none` if
one of them is not over by then.
-/

namespace AgentHalo.Discovery

open Outcome
open Pod (DIDDocument)

/-- What an operation finds around it. -/
structure Ambient where
  /-- The clock, as `validate_announcement_freshness` reads it. -/
  freshness : UInt64
  /-- The clock, as `prune_expired` reads it. -/
  prune : UInt64
  /-- The clock, as `store_pending_attestations` reads it. -/
  store : UInt64
  /-- The clock, as `replay_pending_attestations_for_attester` reads it. -/
  replay : UInt64
  /-- The order in which a hash map or set with the given keys is iterated. -/
  order : List String → List String
  order_perm : ∀ keys, (order keys).Perm keys

/-- One reading of the clock, and maps and sets in the order of their keys. -/
def Ambient.at (now : UInt64) : Ambient := ⟨now, now, now, now, id, fun keys => .refl keys⟩

/-- The outcomes of the calls into gossipsub. -/
structure Gossipsub where
  subscribe : String → Except String Unit
  unsubscribe : String → Except String Unit

abbrev Names := Std.ExtTreeSet String compare

abbrev AgentOrder := Std.ExtTreeSet (UInt64 × String) lexOrd.compare

structure AgentDiscovery (P : Platform) where
  knownAgents : OrdMap String (AgentAnnouncement P)
  knownAgentOrder : AgentOrder
  subscribedTopics : Names
  subscriptionOrder : List String
  pendingAttestations : OrdMap String (List CapabilityAttestation)
  pendingAttesterIndex : OrdMap String Names
  pendingSubjectAttesters : OrdMap String Names
  pendingAttestationCount : Nat

/-- Rust's `Iterator::min_by_key`: the first of the least elements. -/
def minByKey {α : Type} (key : α → UInt64) : List α → Option α
  | [] => none
  | a :: rest => some (rest.foldl (fun best b => if key b < key best then b else best) a)

/-- The order of `sort_by_key` by the time of verification. -/
def byVerifiedAt (a b : CapabilityAttestation) : Bool := a.verifiedAt ≤ b.verifiedAt

/-- Recent enough to wait for its attester. -/
def recent (now : UInt64) (attestation : CapabilityAttestation) : Bool :=
  age now attestation.verifiedAt ≤ maxPendingAttestationAgeSecs

namespace AgentDiscovery

variable {P : Platform}

def new : AgentDiscovery P where
  knownAgents := ∅
  knownAgentOrder := ∅
  subscribedTopics := ∅
  subscriptionOrder := []
  pendingAttestations := ∅
  pendingAttesterIndex := ∅
  pendingSubjectAttesters := ∅
  pendingAttestationCount := 0

/-! ### Pending attestations -/

section Pending

variable (A : Ambient) (s : AgentDiscovery P) (subjectDid : String)

def clearPendingSubjectIndex : AgentDiscovery P :=
  match s.pendingSubjectAttesters[subjectDid]? with
  | none => s
  | some attesters =>
    { s with
      pendingSubjectAttesters := s.pendingSubjectAttesters.erase subjectDid
      pendingAttesterIndex := (A.order attesters.toList).foldl
        (fun index attesterDid => OrdMap.drop index attesterDid subjectDid) s.pendingAttesterIndex }

def takePendingAttestations : List CapabilityAttestation × AgentDiscovery P :=
  let previousLen := ((s.pendingAttestations[subjectDid]?).map List.length).getD 0
  let cleared := s.clearPendingSubjectIndex A subjectDid
  let removed := (cleared.pendingAttestations[subjectDid]?).getD []
  (removed, { cleared with
    pendingAttestations := cleared.pendingAttestations.erase subjectDid
    pendingAttestationCount := cleared.pendingAttestationCount - previousLen })

def reindexPendingSubject : AgentDiscovery P :=
  match s.pendingAttestations[subjectDid]? with
  | none => s
  | some attestations =>
    let attesters : Names := attestations.foldl (fun attesters attestation => attesters.insert attestation.attesterDid) ∅
    { s with
      pendingAttesterIndex := attestations.foldl
        (fun index attestation => OrdMap.put index attestation.attesterDid subjectDid) s.pendingAttesterIndex
      pendingSubjectAttesters :=
        if attesters.isEmpty then s.pendingSubjectAttesters else s.pendingSubjectAttesters.insert subjectDid attesters }

def replacePendingAttestations (attestations : List CapabilityAttestation) : AgentDiscovery P :=
  let taken := (s.takePendingAttestations A subjectDid).2
  if attestations.isEmpty then taken
  else
    { taken with
      pendingAttestationCount := min (taken.pendingAttestationCount + attestations.length) u64Max
      pendingAttestations := taken.pendingAttestations.insert subjectDid attestations }.reindexPendingSubject subjectDid

/-- The subject whose first pending attestation is the oldest. -/
def oldestPendingSubject : Option String :=
  let firsts := (A.order s.pendingAttestations.keys).filterMap fun subjectDid =>
    ((s.pendingAttestations[subjectDid]?).bind List.head?).map fun attestation => (subjectDid, attestation.verifiedAt)
  (minByKey Prod.snd firsts).map Prod.fst

/-- A round of the loop of `enforce_pending_attestation_limit`. -/
def evictPending : Option (AgentDiscovery P) :=
  if s.pendingAttestationCount ≤ maxTotalPendingAttestations then none
  else (s.oldestPendingSubject A).map fun subjectDid =>
    let (retained, taken) := s.takePendingAttestations A subjectDid
    let overflow := min (taken.pendingAttestationCount + retained.length) u64Max - maxTotalPendingAttestations
    if retained.length ≤ overflow then taken else taken.replacePendingAttestations A subjectDid (retained.drop overflow)

def enforcePendingAttestationLimit (fuel : Nat) : Option (AgentDiscovery P) := While.run (evictPending A) fuel s

def storePendingAttestations (fuel : Nat) (deferred : List CapabilityAttestation) : Option (AgentDiscovery P) :=
  let (before, taken) := s.takePendingAttestations A subjectDid
  let pending := before ++ deferred.filter (recent A.store)
  if pending.isEmpty then some (taken.replacePendingAttestations A subjectDid pending)
  else
    let sorted := pending.mergeSort byVerifiedAt
    let capped :=
      if maxPendingAttestationsPerSubject < sorted.length then
        sorted.drop (sorted.length - maxPendingAttestationsPerSubject)
      else sorted
    (taken.replacePendingAttestations A subjectDid capped).enforcePendingAttestationLimit A fuel

end Pending

/-! ### Known agents -/

section Known

variable (A : Ambient) (s : AgentDiscovery P)

/-- What `remove_known_agent` does for each subject that the agent has attested. -/
def forgetAttester (did subjectDid : String) : AgentDiscovery P :=
  let (retained, taken) := s.takePendingAttestations A subjectDid
  if retained.isEmpty then taken
  else taken.replacePendingAttestations A subjectDid ((retained.filter (·.attesterDid ≠ did)).mergeSort byVerifiedAt)

def removeKnownAgent (did : String) : AgentDiscovery P :=
  let removed :=
    match s.knownAgents[did]? with
    | none => s
    | some announcement =>
      { s with
        knownAgents := s.knownAgents.erase did
        knownAgentOrder := s.knownAgentOrder.erase (announcement.timestamp, did) }
  let cleared := if removed.pendingAttestations.contains did then removed.replacePendingAttestations A did [] else removed
  match cleared.pendingAttesterIndex[did]? with
  | none => cleared
  | some subjects =>
    (A.order subjects.toList).foldl (fun s subjectDid => s.forgetAttester A did subjectDid)
      { cleared with pendingAttesterIndex := cleared.pendingAttesterIndex.erase did }

/-- A round of the loop of `enforce_known_agent_limit`. -/
def evictKnown : Option (AgentDiscovery P) :=
  if s.knownAgents.size ≤ maxKnownAgents then none
  else s.knownAgentOrder.min?.map fun oldest => s.removeKnownAgent A oldest.2

def enforceKnownAgentLimit (fuel : Nat) : Option (AgentDiscovery P) := While.run (evictKnown A) fuel s

def isExpired (now : UInt64) (announcement : AgentAnnouncement P) : Bool :=
  min (announcement.timestamp.toNat + announcement.ttl.toNat) u64Max < now.toNat

/-- What `prune_expired` does for each subject with pending attestations. -/
def prunePending (subjectDid : String) : AgentDiscovery P :=
  if s.knownAgents.contains subjectDid then
    let (retained, taken) := s.takePendingAttestations A subjectDid
    taken.replacePendingAttestations A subjectDid (retained.filter (recent A.prune))
  else s.replacePendingAttestations A subjectDid []

def pruneExpired : AgentDiscovery P :=
  let expired := (A.order s.knownAgents.keys).filter fun did => (s.knownAgents[did]?).any (isExpired A.prune)
  let pruned := expired.foldl (fun s did => s.removeKnownAgent A did) s
  (A.order pruned.pendingAttestations.keys).foldl (fun s subjectDid => s.prunePending A subjectDid) pruned

end Known

/-! ### Replaying what was pending -/

section Replay

variable (W : Wire P) (A : Ambient)

/-- A verified attestation joins the first specification of its capability, unless the attester has answered for the
same challenge there or the specification is full. -/
def joinSpec (attestation : CapabilityAttestation) (spec : CapabilitySpec P) : CapabilitySpec P :=
  if spec.attestations.any fun existing =>
      existing.challengeHash = attestation.challengeHash && existing.attesterDid = attestation.attesterDid then spec
  else if spec.attestations.length < maxAttestationsPerSpec then
    { spec with attestations := spec.attestations ++ [attestation] }
  else spec

/-- An attestation of the attester goes to the announcement of its subject; one of somebody else stays pending. -/
def replayAttestation (attesterDid : String) (attesterDocument : DIDDocument)
    (progress : List (CapabilitySpec P) × List CapabilityAttestation) (attestation : CapabilityAttestation) :
    List (CapabilitySpec P) × List CapabilityAttestation :=
  if attestation.attesterDid ≠ attesterDid then (progress.1, progress.2 ++ [attestation])
  else if attested W attestation attesterDocument then
    (progress.1.replaceF fun spec =>
      if spec.capabilityId = attestation.capabilityId then some (joinSpec attestation spec) else none, progress.2)
  else progress

/-- What `replay_pending_attestations_for_attester` does for each subject. -/
def replaySubject (s : AgentDiscovery P) (attesterDid : String) (attesterDocument : DIDDocument) (subjectDid : String) :
    AgentDiscovery P :=
  let (attestations, taken) := s.takePendingAttestations A subjectDid
  if attestations.isEmpty then taken
  else
    match taken.knownAgents[subjectDid]? with
    | none => taken
    | some announcement =>
      let (specs, unresolved) := (attestations.filter (recent A.replay)).foldl
        (replayAttestation W attesterDid attesterDocument) (announcement.capabilitySpecs, [])
      let joined := { taken with
        knownAgents := taken.knownAgents.insert subjectDid { announcement with capabilitySpecs := specs } }
      if unresolved.isEmpty then joined
      else joined.replacePendingAttestations A subjectDid (unresolved.mergeSort byVerifiedAt)

def replayPendingAttestationsForAttester (s : AgentDiscovery P) (fuel : Nat) (attesterDid : String) :
    Option (AgentDiscovery P) :=
  match (s.knownAgents[attesterDid]?).bind (·.didDocument) with
  | none => some s
  | some attesterDocument =>
    match s.pendingAttesterIndex[attesterDid]? with
    | none => some s
    | some subjects =>
      ((A.order subjects.toList).foldl
        (fun s subjectDid => replaySubject W A s attesterDid attesterDocument subjectDid)
        { s with pendingAttesterIndex := s.pendingAttesterIndex.erase attesterDid }).enforcePendingAttestationLimit A fuel

end Replay

/-! ### Arrivals -/

section Arrivals

variable (W : Wire P) (A : Ambient) (fuel : Nat) (s : AgentDiscovery P)

/-- What does not depend on the document of the attester. -/
def eligible (subjectDid capabilityId : String) (attestation : CapabilityAttestation) : Bool :=
  attestation.passed && attestation.capabilityId = capabilityId && attestation.challengeHash ≠ "" &&
    attestation.attesterDid ≠ attestation.subjectDid && attestation.ed25519Signature ≠ [] &&
    attestation.mldsa65Signature ≠ [] && attestation.subjectDid = subjectDid

/-- The document of an attester: from its announcement, or resolved. -/
def attesterDocument (resolveDocument : Resolver) (attesterDid : String) : Option DIDDocument :=
  ((s.knownAgents[attesterDid]?).bind (·.didDocument)).or (resolveDocument attesterDid)

/-- An attestation on arrival: kept, deferred, or dropped. -/
def sanitizeAttestation (resolveDocument : Resolver) (subjectDid capabilityId : String)
    (progress : List CapabilityAttestation × List CapabilityAttestation) (attestation : CapabilityAttestation) :
    List CapabilityAttestation × List CapabilityAttestation :=
  if !eligible subjectDid capabilityId attestation then progress
  else
    match s.attesterDocument resolveDocument attestation.attesterDid with
    | none => (progress.1, progress.2 ++ [attestation])
    | some document =>
      if attested W attestation document then (progress.1 ++ [attestation], progress.2) else progress

/-- The specifications with the attestations that are kept, and those that are deferred. -/
def sanitizeAttestations (resolveDocument : Resolver) (announcement : AgentAnnouncement P) :
    AgentAnnouncement P × List CapabilityAttestation :=
  let (specs, deferred) := announcement.capabilitySpecs.foldl (fun progress spec =>
    let (kept, deferred) := spec.attestations.foldl
      (s.sanitizeAttestation W resolveDocument announcement.did spec.capabilityId) ([], progress.2)
    (progress.1 ++ [{ spec with attestations := kept }], deferred)) ([], [])
  ({ announcement with capabilitySpecs := specs }, deferred)

def sanitizeMetrics (announcement : AgentAnnouncement P) : AgentAnnouncement P :=
  { announcement with
    capabilitySpecs := announcement.capabilitySpecs.map fun spec => { spec with metrics := spec.metrics.sanitize } }

/-- The announcement under a bounded time to live. -/
def clampTtl (announcement : AgentAnnouncement P) : AgentAnnouncement P :=
  { announcement with ttl := boundedAnnouncementTtl announcement.ttl }

/-- The insertion of `upsert_verified_inner`. -/
def insertKnown (announcement : AgentAnnouncement P) : AgentDiscovery P :=
  let others :=
    match s.knownAgents[announcement.did]? with
    | none => s.knownAgentOrder
    | some previous => s.knownAgentOrder.erase (previous.timestamp, announcement.did)
  { s with
    knownAgents := s.knownAgents.insert announcement.did announcement
    knownAgentOrder := others.insert (announcement.timestamp, announcement.did) }

def upsertVerifiedInner (announcement : AgentAnnouncement P) (deferred : List CapabilityAttestation) :
    Option (AgentDiscovery P) := do
  let limited ← ((s.pruneExpired A).insertKnown announcement).enforceKnownAgentLimit A fuel
  if limited.knownAgents.contains announcement.did then
    let stored ← limited.storePendingAttestations A announcement.did fuel deferred
    stored.replayPendingAttestationsForAttester W A fuel announcement.did
  else return limited

def sanitized (resolveDocument : Resolver) (announcement : AgentAnnouncement P) :
    AgentAnnouncement P × List CapabilityAttestation :=
  s.sanitizeAttestations W resolveDocument (sanitizeMetrics (clampTtl announcement))

def verifyAndUpsert (resolveDocument : Resolver) (announcement : AgentAnnouncement P) :
    Option (Except String (AgentAnnouncement P) × AgentDiscovery P) :=
  match verifyIncoming W A.freshness resolveDocument announcement with
  | .error e => some (.error e, s)
  | .ok () =>
    let (stored, deferred) := s.sanitized W resolveDocument announcement
    (s.upsertVerifiedInner W A fuel stored deferred).map fun s' => (.ok stored, s')

def ingestKadRecordWithResolver (resolveDocument : Resolver) (value : Bytes) :
    Option (Except String (AgentAnnouncement P) × AgentDiscovery P) :=
  if maxAnnouncementBytes < value.length then
    some (.error ("DHT announcement exceeds max size (" ++ toString maxAnnouncementBytes ++ " bytes)"), s)
  else
    match W.announcementFromSlice value with
    | .error e => some (.error ("decode DHT record as announcement: " ++ e), s)
    | .ok announcement => s.verifyAndUpsert W A fuel resolveDocument announcement

def ingestKadRecord (value : Bytes) : Option (Except String Unit × AgentDiscovery P) :=
  (s.ingestKadRecordWithResolver W A fuel (fun _ => none) value).map fun outcome =>
    (outcome.1.map fun _ => (), outcome.2)

def handleGossipsubMessage (resolveDocument : Resolver) (data : Bytes) :
    Option (Except String (AgentAnnouncement P) × AgentDiscovery P) :=
  if maxAnnouncementBytes < data.length then
    some (.error ("gossipsub announcement exceeds max size (" ++ toString maxAnnouncementBytes ++ " bytes)"), s)
  else
    match W.announcementFromSlice data with
    | .error e => some (.error ("decode gossipsub message as announcement: " ++ e), s)
    | .ok announcement => s.verifyAndUpsert W A fuel resolveDocument announcement

def upsertTrustedAnnouncement (announcement : AgentAnnouncement P) : Option (AgentDiscovery P) :=
  match validateAnnouncementShape announcement with
  | .error _ => some s
  | .ok () =>
    let (stored, deferred) := s.sanitized W (fun _ => none) announcement
    s.upsertVerifiedInner W A fuel stored deferred

end Arrivals

/-! ### Subscriptions -/

section Subscriptions

variable (G : Gossipsub) (s : AgentDiscovery P)

def topicGeneral : String := dynamicTopicForDomain (CapabilityDomain.new "general" 1)

def touchSubscription (topic : String) : AgentDiscovery P :=
  { s with subscriptionOrder := s.subscriptionOrder.filter (· ≠ topic) ++ [topic] }

def evictOldestSubscription : Except String Unit × AgentDiscovery P :=
  match (s.subscriptionOrder.findIdx? (· ≠ topicGeneral)).or (if s.subscriptionOrder.isEmpty then none else some 0) with
  | none => (.error "no subscription available for eviction", s)
  | some evictIdx =>
    match s.subscriptionOrder[evictIdx]? with
    | none => (.error "subscription eviction index missing", s)
    | some evicted =>
      ((G.unsubscribe evicted).mapError (("unsubscribe `" ++ evicted ++ "`: ") ++ ·),
        { s with
          subscriptionOrder := s.subscriptionOrder.eraseIdx evictIdx
          subscribedTopics := s.subscribedTopics.erase evicted })

/-- The end of `subscribe`, when there is room. -/
def subscribeNew (topic : String) : Except String Unit × AgentDiscovery P :=
  match G.subscribe topic with
  | .error e => (.error ("subscribe `" ++ topic ++ "`: " ++ e), s)
  | .ok () => (.ok (), { s with subscribedTopics := s.subscribedTopics.insert topic }.touchSubscription topic)

def subscribe (topic : String) : Except String Unit × AgentDiscovery P :=
  if !isDynamicCapabilityTopic topic then
    (.error ("refusing subscription to invalid capability topic `" ++ topic ++ "`"), s)
  else if s.subscribedTopics.contains topic then (.ok (), s.touchSubscription topic)
  else if maxDynamicSubscriptions ≤ s.subscribedTopics.size then
    match s.evictOldestSubscription G with
    | (.error e, evicted) => (.error e, evicted)
    | (.ok (), evicted) => evicted.subscribeNew G topic
  else s.subscribeNew G topic

def unsubscribe (topic : String) : Except String Unit × AgentDiscovery P :=
  if s.subscribedTopics.contains topic then
    ((G.unsubscribe topic).mapError (("unsubscribe `" ++ topic ++ "`: ") ++ ·),
      { s with
        subscribedTopics := s.subscribedTopics.erase topic
        subscriptionOrder := s.subscriptionOrder.filter (· ≠ topic) })
  else (.ok (), s)

end Subscriptions

/-! ### Queries -/

section Queries

variable (A : Ambient) (G : Gossipsub) (s : AgentDiscovery P) (query : CapabilityQuery P)
  (now attestationMaxAgeSecs : UInt64)

def bestCapabilityMatch (announcement : AgentAnnouncement P) : Option (CapabilitySpec P) :=
  announcement.capabilitySpecs.find? fun spec => spec.satisfiesAt query now attestationMaxAgeSecs

def findByQuery : List (AgentAnnouncement P) :=
  ((A.order s.knownAgents.keys).filterMap fun did => s.knownAgents[did]?).filter fun announcement =>
    (bestCapabilityMatch query now attestationMaxAgeSecs announcement).isSome

/-- More attestations first, then the higher success rate, the lower latency and the lower cost. -/
def compareRankedSpecs (leftSpec rightSpec : Option (CapabilitySpec P)) : Ordering :=
  let attestations (spec : Option (CapabilitySpec P)) :=
    (spec.map (·.verifiedAttestationCount now attestationMaxAgeSecs)).getD 0
  let success (spec : Option (CapabilitySpec P)) :=
    totalOrderKey P.f64 ((spec.map fun spec => normalizedSuccessRate spec.metrics.successRate).getD (P.f64.lit 0 0))
  let latency (spec : Option (CapabilitySpec P)) := (spec.map fun spec => spec.metrics.latencyP99Ms.toNat).getD u64Max
  let cost (spec : Option (CapabilitySpec P)) := (spec.map fun spec => spec.metrics.costMicrodollars.toNat).getD u64Max
  (compare (attestations rightSpec) (attestations leftSpec)).then
    ((compare (success rightSpec) (success leftSpec)).then
      ((compare (latency leftSpec) (latency rightSpec)).then (compare (cost leftSpec) (cost rightSpec))))

def rankedMatches : List (AgentAnnouncement P) :=
  (s.findByQuery A query now attestationMaxAgeSecs).mergeSort fun left right =>
    ((compareRankedSpecs now attestationMaxAgeSecs (bestCapabilityMatch query now attestationMaxAgeSecs left)
      (bestCapabilityMatch query now attestationMaxAgeSecs right)).then
        ((compare left.did right.did).then (compare left.peerId right.peerId))).isLE

def queryCapabilities : List (AgentAnnouncement P) × AgentDiscovery P :=
  let matching := s.rankedMatches A query now attestationMaxAgeSecs
  if query.count.toNat ≤ matching.length then (matching.take query.count.toNat, s)
  else
    let domainTopic := dynamicTopicForDomain (CapabilityDomain.new query.domainPrefix 1)
    (matching,
      if s.subscribedTopics.contains domainTopic then s.touchSubscription domainTopic else (s.subscribe G domainTopic).2)

end Queries

end AgentDiscovery

end AgentHalo.Discovery
