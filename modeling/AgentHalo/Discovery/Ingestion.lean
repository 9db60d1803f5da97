import AgentHalo.Discovery.Joining
import AgentHalo.Lib.StableSort

/-!
# Arrivals at one time

Announcements of different agents come in at one time, in some order. What an announcement says about its agent is
decided against the documents of those that came before it; what is still open is decided when the attester comes.
`Arrived` is the closed form of the state, for every order (`Ingested.closedForm`): the attestations of each
specification and the list of what waits are computed from the announcements alone.
-/

namespace AgentHalo.Discovery

open Pod (DIDDocument)
open AgentDiscovery

variable {P : Platform}

def Ambient.Reads (A : Ambient) (now : UInt64) : Prop :=
  A.freshness = now ∧ A.prune = now ∧ A.store = now ∧ A.replay = now

section Runs

variable (W : Wire P) (now : UInt64) (resolveDocument : Resolver)

/-- The announcements that have come in, in this order and at one time, have led to the state. -/
inductive Ingested : List (AgentAnnouncement P) → AgentDiscovery P → Prop
  | new : Ingested [] .new
  | next {arrived : List (AgentAnnouncement P)} {announcement : AgentAnnouncement P} {s t : AgentDiscovery P}
    {A : Ambient} {fuel : Nat} {outcome : Except String (AgentAnnouncement P)} (before : Ingested arrived s)
    (clocks : A.Reads now) (ingest : s.verifyAndUpsert W A fuel resolveDocument announcement = some (outcome, t)) :
    Ingested (arrived ++ [announcement]) t

/-- The attestation verifies under the document in the announcement of its attester. -/
def verifiedBy (attester : AgentAnnouncement P) (attestation : CapabilityAttestation) : Bool :=
  attester.didDocument.any (attested W attestation)

/-- The announcement of a new agent exceeds no limit: on the agents known, on what waits, and on what a specification
holds once what has waited for the agent has joined. -/
structure Fits (s : AgentDiscovery P) (announcement : AgentAnnouncement P) : Prop where
  known : s.knownAgents.size < maxKnownAgents
  perSubject : (s.joinedPending (.at now) announcement.did (s.sanitized W resolveDocument announcement).2).length ≤
    maxPendingAttestationsPerSubject
  total : s.totalPending +
    (s.joinedPending (.at now) announcement.did (s.sanitized W resolveDocument announcement).2).length ≤
      maxTotalPendingAttestations
  perSpec : ∀ (did : String) known, s.knownAgents[did]? = some known →
    ∀ spec ∈ joinedAll (verifiedBy W announcement) known.capabilitySpecs (s.waitingFor (.at now) announcement.did did),
      spec.attestations.length ≤ maxAttestationsPerSpec

/-- Valid announcements of different agents, with their documents. -/
structure Acceptable (announcements : List (AgentAnnouncement P)) : Prop where
  valid : ∀ announcement ∈ announcements, verifyIncoming W now resolveDocument announcement = .ok ()
  documents : ∀ announcement ∈ announcements, announcement.didDocument.isSome = true
  distinct : (announcements.map (·.did)).Nodup

/-- They exceed no limit, in any order. -/
structure Ingestible (announcements : List (AgentAnnouncement P)) : Prop extends
    Acceptable W now resolveDocument announcements where
  fits : ∀ (arrived : List (AgentAnnouncement P)) (announcement : AgentAnnouncement P)
    (rest : List (AgentAnnouncement P)) (s : AgentDiscovery P), (arrived ++ announcement :: rest).Perm announcements →
    Ingested W now resolveDocument arrived s → Fits W now resolveDocument s announcement

end Runs

/-! ### The closed form -/

section ClosedForm

variable (W : Wire P) (now : UInt64) (resolveDocument : Resolver)

/-- The document of an agent: from its announcement, or resolved. -/
def documentAfter (arrived : List (AgentAnnouncement P)) (did : String) : Option DIDDocument :=
  ((arrived.find? (·.did = did)).bind (·.didDocument)).or (resolveDocument did)

/-- A specification as it is stored when its agent arrives. -/
def keptSpec (documents : String → Option DIDDocument) (subjectDid : String) (spec : CapabilitySpec P) :
    CapabilitySpec P :=
  { spec with
    metrics := spec.metrics.sanitize
    attestations := spec.attestations.filter fun attestation => eligible subjectDid spec.capabilityId attestation &&
      (documents attestation.attesterDid).any (attested W attestation) }

/-- The attestations of an announcement that can wait for their attester. -/
def candidates (announcement : AgentAnnouncement P) : List CapabilityAttestation :=
  announcement.capabilitySpecs.flatMap fun spec => spec.attestations.filter fun attestation =>
    eligible announcement.did spec.capabilityId attestation && (resolveDocument attestation.attesterDid).isNone &&
      recent now attestation

/-- The candidates in the order in which they wait. -/
def queue (announcement : AgentAnnouncement P) : List CapabilityAttestation :=
  (candidates now resolveDocument announcement).mergeSort byVerifiedAt

/-- What waits under a subject for an attester. -/
def answersOf (subject attester : AgentAnnouncement P) : List CapabilityAttestation :=
  (queue now resolveDocument subject).filter (·.attesterDid = attester.did)

/-- The specifications of a subject, from those that came before it and those that came after. -/
def specsAfter (earlier : List (AgentAnnouncement P)) (subject : AgentAnnouncement P)
    (later : List (AgentAnnouncement P)) : List (CapabilitySpec P) :=
  later.foldl
    (fun specs attester => joinedAll (verifiedBy W attester) specs (answersOf now resolveDocument subject attester))
    (subject.capabilitySpecs.map (keptSpec W (documentAfter resolveDocument earlier) subject.did))

/-- What the state is after the announcements have arrived in this order. -/
structure Arrived (arrived : List (AgentAnnouncement P)) (s : AgentDiscovery P) : Prop where
  bounded : Bounded s
  known : ∀ (earlier : List (AgentAnnouncement P)) (subject : AgentAnnouncement P)
    (later : List (AgentAnnouncement P)), arrived = earlier ++ subject :: later → s.knownAgents[subject.did]? =
      some { clampTtl subject with capabilitySpecs := specsAfter W now resolveDocument earlier subject later }
  unknown : ∀ did ∉ arrived.map (·.did), s.knownAgents[did]? = none
  pending : ∀ subject ∈ arrived, s.pendingOf subject.did =
    (queue now resolveDocument subject).filter (·.attesterDid ∉ arrived.map (·.did))
  quiet : ∀ did ∉ arrived.map (·.did), s.pendingOf did = []

end ClosedForm

variable {W : Wire P} {now : UInt64} {resolveDocument : Resolver} {arrived : List (AgentAnnouncement P)}
  {s : AgentDiscovery P} {subject announcement : AgentAnnouncement P} {attestation : CapabilityAttestation}

theorem mem_queue : attestation ∈ queue now resolveDocument subject ↔ ∃ spec ∈ subject.capabilitySpecs,
    attestation ∈ spec.attestations ∧ eligible subject.did spec.capabilityId attestation = true ∧
      resolveDocument attestation.attesterDid = none ∧ recent now attestation = true := by
  unfold queue candidates
  simp only [List.mem_mergeSort, List.mem_flatMap, List.mem_filter, Bool.and_eq_true, Option.isNone_iff_eq_none, and_assoc]

theorem specsAfter_concat (earlier : List (AgentAnnouncement P)) (subject : AgentAnnouncement P)
    (later : List (AgentAnnouncement P)) (attester : AgentAnnouncement P) :
    specsAfter W now resolveDocument earlier subject (later ++ [attester]) = joinedAll (verifiedBy W attester)
      (specsAfter W now resolveDocument earlier subject later) (answersOf now resolveDocument subject attester) :=
  List.foldl_concat ..

theorem attester_ne_of_mem_queue (h : attestation ∈ queue now resolveDocument subject) :
    attestation.attesterDid ≠ subject.did := by
  obtain ⟨spec, -, -, heligible, -⟩ := mem_queue.mp h
  obtain ⟨-, -, -, hne, -, -, hsubject⟩ := eligible_iff.mp heligible
  exact hsubject ▸ hne

theorem recent_of_mem_queue (h : attestation ∈ queue now resolveDocument subject) : recent now attestation = true := by
  obtain ⟨spec, -, -, -, -, hrecent⟩ := mem_queue.mp h
  exact hrecent

variable {did : String} {waiting t : AgentDiscovery P}

theorem did_of_find? (h : arrived.find? (·.did = did) = some announcement) : announcement.did = did := by
  have hfound := List.find?_some h
  exact of_decide_eq_true hfound

theorem not_mem_of_find? (h : arrived.find? (·.did = did) = none) : did ∉ arrived.map (·.did) := by
  intro hin
  obtain ⟨announcement, hannouncement, hdid⟩ := List.mem_map.mp hin
  exact List.find?_eq_none.mp h announcement hannouncement (decide_eq_true hdid)

theorem documentAfter_isNone (hdocuments : ∀ announcement ∈ arrived, announcement.didDocument.isSome = true)
    (did : String) : (documentAfter resolveDocument arrived did).isNone =
      (decide (did ∉ arrived.map (·.did)) && (resolveDocument did).isNone) := by
  unfold documentAfter
  cases hfind : arrived.find? (·.did = did) with
  | none =>
    have hout : did ∉ arrived.map (·.did) := not_mem_of_find? hfind
    simp [hout]
  | some announcement =>
    have hin : did ∈ arrived.map (·.did) :=
      List.mem_map.mpr ⟨announcement, List.mem_of_find?_eq_some hfind, did_of_find? hfind⟩
    obtain ⟨document, hdocument⟩ := Option.isSome_iff_exists.mp (hdocuments announcement (List.mem_of_find?_eq_some hfind))
    simp [hin, hdocument]

theorem Arrived.attesterDocument (h : Arrived W now resolveDocument arrived s) :
    s.attesterDocument resolveDocument = documentAfter resolveDocument arrived := by
  funext did
  unfold AgentDiscovery.attesterDocument documentAfter
  congr 1
  cases hfind : arrived.find? (·.did = did) with
  | none =>
    have hout : did ∉ arrived.map (·.did) := not_mem_of_find? hfind
    rw [h.unknown did hout]
  | some announcement =>
    obtain ⟨earlier, later, hsplit⟩ := List.append_of_mem (List.mem_of_find?_eq_some hfind)
    obtain rfl : announcement.did = did := did_of_find? hfind
    rw [h.known earlier announcement later hsplit]
    rfl

variable {A : Ambient}

theorem Arrived.current (h : Arrived W now resolveDocument arrived s)
    (hvalid : ∀ announcement ∈ arrived, verifyIncoming W now resolveDocument announcement = .ok ())
    (hclocks : A.Reads now) : Current A s where
  known did known hget := by
    by_cases hin : did ∈ arrived.map (·.did)
    · obtain ⟨subject, hsubject, rfl⟩ := List.mem_map.mp hin
      obtain ⟨earlier, later, hsplit⟩ := List.append_of_mem hsubject
      rw [h.known earlier subject later hsplit] at hget
      obtain rfl := Option.some.inj hget
      have hage := validateAnnouncementFreshness_ok (fresh_of_verifyIncoming (hvalid subject hsubject))
      have hword := now.toNat_lt
      rw [hclocks.2.1]
      refine decide_eq_false ?_
      unfold age at hage
      change ¬ min (subject.timestamp.toNat + (boundedAnnouncementTtl subject.ttl).toNat) u64Max < now.toNat
      unfold u64Max
      omega
    · rw [h.unknown did hin] at hget
      cases hget
  pending did attestation hwaits := by
    by_cases hin : did ∈ arrived.map (·.did)
    · obtain ⟨subject, hsubject, rfl⟩ := List.mem_map.mp hin
      obtain ⟨earlier, later, hsplit⟩ := List.append_of_mem hsubject
      rw [h.pending subject hsubject] at hwaits
      rw [h.known earlier subject later hsplit, hclocks.2.1]
      exact ⟨recent_of_mem_queue (List.mem_filter.mp hwaits).1, rfl⟩
    · rw [h.quiet did hin] at hwaits
      cases hwaits

theorem Arrived.joinedPending (h : Arrived W now resolveDocument arrived s)
    (hdocuments : ∀ announcement ∈ arrived, announcement.didDocument.isSome = true) (hclocks : A.Reads now)
    (hnew : announcement.did ∉ arrived.map (·.did)) :
    s.joinedPending A announcement.did (s.sanitized W resolveDocument announcement).2 =
      (queue now resolveDocument announcement).filter (·.attesterDid ∉ arrived.map (·.did)) := by
  have hdeferred : (s.sanitized W resolveDocument announcement).2.filter (recent A.store) =
      (candidates now resolveDocument announcement).filter (·.attesterDid ∉ arrived.map (·.did)) := by
    rw [sanitized_eq, candidates, List.filter_flatMap, List.filter_flatMap]
    refine congrArg (fun f => announcement.capabilitySpecs.flatMap f) (funext fun spec => ?_)
    rw [undecided, List.filter_filter, List.filter_filter]
    refine List.filter_congr fun attestation _ => ?_
    rw [h.attesterDocument, documentAfter_isNone hdocuments, hclocks.2.2.1]
    cases recent now attestation <;> cases eligible announcement.did spec.capabilityId attestation <;>
      cases (resolveDocument attestation.attesterDid).isNone <;> simp
  unfold AgentDiscovery.joinedPending
  rw [h.quiet announcement.did hnew, List.nil_append, hdeferred, queue, StableSort.filter_mergeSort]
  · intro a b c hab hbc
    exact decide_eq_true (UInt64.le_trans (of_decide_eq_true hab) (of_decide_eq_true hbc))
  · intro a b
    rcases UInt64.le_total a.verifiedAt b.verifiedAt with hab | hba
    · exact Bool.or_eq_true_iff.mpr (.inl (decide_eq_true hab))
    · exact Bool.or_eq_true_iff.mpr (.inr (decide_eq_true hba))

theorem Arrived.waitingFor (h : Arrived W now resolveDocument arrived s) (hclocks : A.Reads now)
    (hnew : announcement.did ∉ arrived.map (·.did)) (hsubject : subject ∈ arrived) :
    s.waitingFor A announcement.did subject.did = answersOf now resolveDocument subject announcement := by
  rw [AgentDiscovery.waitingFor, h.pending subject hsubject, answersOf, List.filter_filter]
  refine List.filter_congr fun attestation hin => ?_
  rw [hclocks.2.2.2, recent_of_mem_queue hin]
  by_cases hattester : attestation.attesterDid = announcement.did
  · simp [hattester, hnew]
  · simp [hattester]

/-- The announcement is stored, what it leaves open waits, and then what waits for its agent is replayed. -/
structure Replays (W : Wire P) (now : UInt64) (resolveDocument : Resolver) (A : Ambient)
    (arrived : List (AgentAnnouncement P)) (announcement : AgentAnnouncement P) (s waiting t : AgentDiscovery P) :
    Prop where
  stored : waiting.knownAgents[announcement.did]? = some { clampTtl announcement with
    capabilitySpecs := specsAfter W now resolveDocument arrived announcement [] }
  others : ∀ did : String, did ≠ announcement.did → waiting.knownAgents[did]? = s.knownAgents[did]?
  pending : ∀ subject ∈ arrived ++ [announcement], waiting.pendingOf subject.did =
    (queue now resolveDocument subject).filter (·.attesterDid ∉ arrived.map (·.did))
  quiet : ∀ did ∉ (arrived ++ [announcement]).map (·.did), waiting.pendingOf did = []
  replayed : Replayed W A announcement.did waiting t

variable {fuel : Nat}

theorem Arrived.replays (h : Arrived W now resolveDocument arrived s)
    (hvalid : ∀ other ∈ arrived ++ [announcement], verifyIncoming W now resolveDocument other = .ok ())
    (hdocuments : ∀ other ∈ arrived, other.didDocument.isSome = true)
    (hnew : announcement.did ∉ arrived.map (·.did)) (hfits : Fits W now resolveDocument s announcement)
    (hclocks : A.Reads now) (hfuel : 0 < fuel) :
    ∃ outcome t waiting, s.verifyAndUpsert W A fuel resolveDocument announcement = some (outcome, t) ∧ Bounded t ∧
      Replays W now resolveDocument A arrived announcement s waiting t := by
  have hcurrent := h.current (fun other hother => hvalid other (List.mem_append_left _ hother)) hclocks
  have hverify := hvalid announcement (List.mem_append_right _ (List.mem_singleton_self _))
  have hjoined := h.joinedPending hdocuments hclocks hnew
  have hroom := h.joinedPending (A := .at now) hdocuments ⟨rfl, rfl, rfl, rfl⟩ hnew
  have hstored : (s.sanitized W resolveDocument announcement).1 = { clampTtl announcement with
      capabilitySpecs := specsAfter W now resolveDocument arrived announcement [] } := by
    rw [sanitized_eq]
    refine congrArg (fun specs => { clampTtl announcement with capabilitySpecs := specs }) ?_
    refine congrArg (fun f => announcement.capabilitySpecs.map f) (funext fun spec => ?_)
    exact congrArg (fun documents => keptSpec W documents announcement.did spec) h.attesterDocument
  obtain ⟨stored, hname⟩ : ∃ stored, (s.sanitized W resolveDocument announcement).1 = stored := ⟨_, rfl⟩
  have hdid : stored.did = announcement.did := by
    rw [← hname, hstored]
    rfl
  have hknown : (s.knownAgents.insert stored.did stored).size ≤ maxKnownAgents :=
    Std.ExtTreeMap.size_insert_le.trans hfits.known
  have hperSubject := hfits.perSubject
  have htotal := hfits.total
  rw [hroom, ← hjoined, ← hdid] at hperSubject htotal
  obtain ⟨t, waiting, hrun, hbounded, hwaitingKnown, hwaitingPending, hreplayed⟩ := upsertVerifiedInner_within W hfuel
    h.bounded hcurrent hknown hperSubject (htotal.trans (Nat.le_add_right _ _))
  refine ⟨.ok stored, t, waiting, ?_, hbounded, ?_, fun did hne => ?_, fun subject hsubject => ?_, fun did hout => ?_, ?_⟩
  · unfold verifyAndUpsert
    rw [hclocks.1, hverify]
    dsimp only
    rw [hname, hrun]
    rfl
  · rw [hwaitingKnown, OrdMap.get?_insert, if_pos hdid, ← hname, hstored]
  · rw [hwaitingKnown, OrdMap.get?_insert, if_neg (hdid ▸ Ne.symm hne)]
  · rw [hwaitingPending]
    rcases List.mem_append.mp hsubject with hold | hself
    · rw [if_neg, h.pending subject hold]
      rw [hdid]
      intro heq
      exact hnew (heq ▸ List.mem_map_of_mem hold)
    · rw [List.mem_singleton.mp hself, if_pos hdid.symm, hdid, hjoined]
  · rw [List.map_append, List.mem_append, not_or] at hout
    rw [hwaitingPending, if_neg, h.quiet did hout.1]
    rw [hdid]
    exact fun heq => hout.2 (heq ▸ List.mem_singleton_self _)
  · rw [← hdid]
    exact hreplayed

theorem Replays.pendingOf (hclocks : A.Reads now) (h : Replays W now resolveDocument A arrived announcement s waiting t)
    (hdocument : announcement.didDocument.isSome = true) (hsubject : subject ∈ arrived ++ [announcement])
    (hknown : (waiting.knownAgents[subject.did]?).isSome = true) : t.pendingOf subject.did =
      (queue now resolveDocument subject).filter (·.attesterDid ∉ (arrived ++ [announcement]).map (·.did)) := by
  have hsplit : (queue now resolveDocument subject).filter (·.attesterDid ∉ (arrived ++ [announcement]).map (·.did)) =
      (waiting.pendingOf subject.did).filter (·.attesterDid ≠ announcement.did) := by
    rw [h.pending subject hsubject, List.filter_filter]
    refine List.filter_congr fun attestation _ => ?_
    rw [← Bool.decide_and]
    refine decide_eq_decide.mpr ?_
    rw [List.map_append, List.mem_append, not_or, List.map_singleton, List.mem_singleton]
    exact and_comm
  have hof : (waiting.documentOf announcement.did).isSome = true := by
    rw [documentOf, h.stored]
    exact hdocument
  rw [h.replayed.pending, hof, Bool.true_and, hsplit]
  split_ifs with hany
  · rw [stillWaiting, Std.ExtTreeMap.contains_eq_isSome_getElem?, if_pos hknown]
    refine List.filter_congr fun attestation hin => ?_
    rw [h.pending subject hsubject] at hin
    rw [hclocks.2.2.2, recent_of_mem_queue (List.mem_filter.mp hin).1, Bool.true_and]
  · refine (List.filter_eq_self.mpr fun attestation hin => ?_).symm
    exact decide_eq_true fun heq => hany (List.any_eq_true.mpr ⟨attestation, hin, decide_eq_true heq⟩)

theorem Replays.known (hclocks : A.Reads now) (h : Replays W now resolveDocument A arrived announcement s waiting t)
    (harrived : Arrived W now resolveDocument arrived s) (hfits : Fits W now resolveDocument s announcement)
    (hdocument : announcement.didDocument.isSome = true) (hnew : announcement.did ∉ arrived.map (·.did))
    {earlier later : List (AgentAnnouncement P)} (hsplit : arrived = earlier ++ subject :: later) :
    t.knownAgents[subject.did]? = some { clampTtl subject with
      capabilitySpecs := specsAfter W now resolveDocument earlier subject (later ++ [announcement]) } := by
  have hsubject : subject ∈ arrived := by
    rw [hsplit]
    exact List.mem_append_right _ List.mem_cons_self
  have hne : subject.did ≠ announcement.did := fun heq => hnew (heq ▸ List.mem_map_of_mem hsubject)
  obtain ⟨document, hdocument⟩ := Option.isSome_iff_exists.mp hdocument
  have hof : waiting.documentOf announcement.did = some document := by
    rw [documentOf, h.stored]
    exact hdocument
  have hverified : verifiedBy W announcement = (attested W · document) := by
    funext attestation
    rw [verifiedBy, hdocument, Option.any_some]
  have hpending : waiting.pendingOf subject.did = s.pendingOf subject.did := by
    rw [h.pending subject (List.mem_append_left _ hsubject), harrived.pending subject hsubject]
  have hwaiting : waiting.waitingFor A announcement.did subject.did =
      answersOf now resolveDocument subject announcement := by
    rw [← harrived.waitingFor hclocks hnew hsubject, AgentDiscovery.waitingFor, AgentDiscovery.waitingFor, hpending]
  have hspecs := hfits.perSpec subject.did _ (harrived.known earlier subject later hsplit)
  rw [harrived.waitingFor ⟨rfl, rfl, rfl, rfl⟩ hnew hsubject, hverified] at hspecs
  rw [h.replayed.known, h.others subject.did hne, harrived.known earlier subject later hsplit, Option.map_some, hof,
    Option.elim_some, rejoin, hwaiting, foldl_joinAttestation_eq hspecs, specsAfter_concat, ← hverified]

theorem Arrived.next (h : Arrived W now resolveDocument arrived s)
    (hvalid : ∀ other ∈ arrived ++ [announcement], verifyIncoming W now resolveDocument other = .ok ())
    (hdocuments : ∀ other ∈ arrived ++ [announcement], other.didDocument.isSome = true)
    (hnew : announcement.did ∉ arrived.map (·.did)) (hfits : Fits W now resolveDocument s announcement)
    (hclocks : A.Reads now) (hfuel : 0 < fuel) :
    ∃ outcome t, s.verifyAndUpsert W A fuel resolveDocument announcement = some (outcome, t) ∧
      Arrived W now resolveDocument (arrived ++ [announcement]) t := by
  have hdocument := hdocuments announcement (List.mem_append_right _ (List.mem_singleton_self _))
  obtain ⟨outcome, t, waiting, hrun, hbounded, hreplays⟩ := h.replays hvalid
    (fun other hother => hdocuments other (List.mem_append_left _ hother)) hnew hfits hclocks hfuel
  have hself : waiting.waitingFor A announcement.did announcement.did = [] := by
    refine List.filter_eq_nil_iff.mpr fun attestation hin htrue => ?_
    rw [hreplays.pending announcement (List.mem_append_right _ (List.mem_singleton_self _))] at hin
    exact attester_ne_of_mem_queue (List.mem_filter.mp hin).1 (of_decide_eq_true (Bool.and_eq_true_iff.mp htrue).2)
  refine ⟨outcome, t, hrun, hbounded, ?_, fun did hout => ?_, fun subject hsubject => ?_, fun did hout => ?_⟩
  · intro earlier subject later hsplit
    rcases List.eq_nil_or_concat later with rfl | ⟨later, last, rfl⟩
    · obtain ⟨rfl, heq⟩ := List.append_inj' hsplit rfl
      obtain rfl := List.singleton_inj.mp heq
      rw [hreplays.replayed.known, hreplays.stored, hself, Option.map_some]
      cases waiting.documentOf announcement.did <;> rfl
    · rw [List.concat_eq_append, ← List.cons_append, ← List.append_assoc] at hsplit
      obtain ⟨hfront, heq⟩ := List.append_inj' hsplit rfl
      obtain rfl := List.singleton_inj.mp heq
      rw [List.concat_eq_append]
      exact hreplays.known hclocks h hfits hdocument hnew hfront
  · have hne : did ≠ announcement.did := by
      rintro rfl
      exact hout (List.mem_map_of_mem (List.mem_append_right _ (List.mem_singleton_self _)))
    rw [List.map_append, List.mem_append, not_or] at hout
    rw [hreplays.replayed.known, hreplays.others did hne, h.unknown did hout.1]
    rfl
  · refine hreplays.pendingOf hclocks hdocument hsubject ?_
    rcases List.mem_append.mp hsubject with hold | hlast
    · obtain ⟨earlier, later, hsplit⟩ := List.append_of_mem hold
      rw [hreplays.others subject.did fun heq => hnew (heq ▸ List.mem_map_of_mem hold),
        h.known earlier subject later hsplit]
      rfl
    · rw [List.mem_singleton.mp hlast, hreplays.stored]
      rfl
  · rw [hreplays.replayed.pending, hreplays.quiet did hout, List.any_nil, Bool.and_false]
    rfl

/-! ### Runs -/

section Orders

variable {announcements : List (AgentAnnouncement P)} {t : AgentDiscovery P}

theorem arrived_new : Arrived W now resolveDocument [] (.new : AgentDiscovery P) where
  bounded := bounded_new
  known earlier subject later h := by cases List.nil_eq_append_iff.mp h |>.2
  unknown did _ := known_new did
  pending _ h := absurd h List.not_mem_nil
  quiet did _ := pendingOf_eq_nil (pending_new did)

theorem fuel_pos {outcome : Except String (AgentAnnouncement P)}
    (hverify : verifyIncoming W A.freshness resolveDocument announcement = .ok ())
    (hrun : s.verifyAndUpsert W A fuel resolveDocument announcement = some (outcome, t)) : 0 < fuel := by
  rcases Nat.eq_zero_or_pos fuel with rfl | hpos
  · unfold verifyAndUpsert at hrun
    rw [hverify] at hrun
    cases hrun
  · exact hpos

variable {rest : List (AgentAnnouncement P)}

theorem Acceptable.step (hA : Acceptable W now resolveDocument announcements)
    (hperm : (arrived ++ announcement :: rest).Perm announcements)
    (h : Arrived W now resolveDocument arrived s) (hfits : Fits W now resolveDocument s announcement)
    (hclocks : A.Reads now) (hfuel : 0 < fuel) :
    ∃ outcome t, s.verifyAndUpsert W A fuel resolveDocument announcement = some (outcome, t) ∧
      Arrived W now resolveDocument (arrived ++ [announcement]) t := by
  have hmem : ∀ other ∈ arrived ++ [announcement], other ∈ announcements := by
    intro other hother
    refine hperm.subset ?_
    rw [List.append_cons]
    exact List.mem_append_left _ hother
  have hnodup := (hperm.map (·.did)).nodup_iff.mpr hA.distinct
  rw [List.map_append, List.map_cons] at hnodup
  exact h.next (fun other hother => hA.valid other (hmem other hother))
    (fun other hother => hA.documents other (hmem other hother))
    (fun hin => (List.nodup_append.mp hnodup).2.2 _ hin _ List.mem_cons_self rfl) hfits hclocks hfuel

theorem Acceptable.arrived_of_ingested (hA : Acceptable W now resolveDocument announcements)
    (hfits : ∀ (arrived : List (AgentAnnouncement P)) (announcement : AgentAnnouncement P)
      (rest : List (AgentAnnouncement P)) (s : AgentDiscovery P), (arrived ++ announcement :: rest).Perm announcements →
      Ingested W now resolveDocument arrived s → Arrived W now resolveDocument arrived s →
      Fits W now resolveDocument s announcement)
    (h : Ingested W now resolveDocument arrived s)
    (hperm : (arrived ++ rest).Perm announcements) : Arrived W now resolveDocument arrived s := by
  induction h generalizing rest with
  | new => exact arrived_new
  | @next arrived announcement s t A fuel outcome before clocks ingest ih =>
    rw [← List.append_cons] at hperm
    have hverify : verifyIncoming W A.freshness resolveDocument announcement = .ok () := by
      rw [clocks.1]
      exact hA.valid announcement (hperm.subset (List.mem_append_right _ List.mem_cons_self))
    obtain ⟨outcome', t', hrun, hnext⟩ := hA.step hperm (ih hperm)
      (hfits arrived announcement rest s hperm before (ih hperm)) clocks (fuel_pos hverify ingest)
    obtain ⟨-, rfl⟩ := Prod.mk.inj (Option.some.inj (ingest.symm.trans hrun))
    exact hnext

/-- **The state after any arrivals** is the closed form. -/
theorem Ingested.closedForm (hI : Ingestible W now resolveDocument announcements)
    (h : Ingested W now resolveDocument arrived s)
    (hperm : (arrived ++ rest).Perm announcements) : Arrived W now resolveDocument arrived s :=
  hI.toAcceptable.arrived_of_ingested
    (fun arrived announcement rest s hperm hs _ => hI.fits arrived announcement rest s hperm hs) h hperm

theorem exists_ingested (hI : Ingestible W now resolveDocument announcements)
    (hperm : (arrived ++ rest).Perm announcements) : ∃ s, Ingested W now resolveDocument arrived s := by
  induction arrived using List.reverseRecOn generalizing rest with
  | nil => exact ⟨.new, .new⟩
  | append_singleton arrived announcement ih =>
    rw [← List.append_cons] at hperm
    obtain ⟨s, hs⟩ := ih hperm
    have hclocks : (Ambient.at now).Reads now := ⟨rfl, rfl, rfl, rfl⟩
    obtain ⟨outcome, t, hrun, -⟩ := hI.step hperm (hs.closedForm hI hperm)
      (hI.fits arrived announcement rest s hperm hs) hclocks Nat.one_pos
    exact ⟨t, .next hs hclocks hrun⟩

/-! ### Small batches -/

theorem Arrived.size_le (h : Arrived W now resolveDocument arrived s) : s.knownAgents.size ≤ arrived.length := by
  rw [← List.length_map (fun announcement : AgentAnnouncement P => announcement.did)]
  refine OrdMap.size_le_length fun did known hget => ?_
  by_contra hout
  rw [h.unknown did hout] at hget
  cases hget

theorem Arrived.totalPending_le {most : Nat} (h : Arrived W now resolveDocument arrived s)
    (hmost : ∀ subject ∈ arrived, (queue now resolveDocument subject).length ≤ most) :
    s.totalPending ≤ arrived.length * most := by
  have hwaits : ∀ (did : String) l, s.pendingAttestations[did]? = some l → did ∈ arrived.map (·.did) := by
    intro did l hget
    by_contra hout
    have hquiet := h.quiet did hout
    rw [pendingOf_of_get? hget] at hquiet
    exact (h.bounded.pended.lists did l hget).nonempty hquiet
  have hsize : s.pendingAttestations.size ≤ arrived.length := by
    rw [← List.length_map (fun announcement : AgentAnnouncement P => announcement.did)]
    exact OrdMap.size_le_length hwaits
  refine (OrdMap.total_le_mul fun did l hget => ?_).trans (Nat.mul_le_mul_right most hsize)
  obtain ⟨subject, hsubject, rfl⟩ := List.mem_map.mp (hwaits did l hget)
  rw [← pendingOf_of_get? hget, h.pending subject hsubject]
  exact (List.length_filter_le _ _).trans (hmost subject hsubject)

theorem Acceptable.ingestible {first second : AgentAnnouncement P}
    (hA : Acceptable W now resolveDocument [first, second])
    (hspecs : ∀ subject ∈ [first, second], ∀ spec ∈ subject.capabilitySpecs, spec.attestations.length ≤ 16)
    (hqueues : ∀ subject ∈ [first, second], (queue now resolveDocument subject).length ≤ 16) :
    Ingestible W now resolveDocument [first, second] := by
  have hfits : ∀ (arrived : List (AgentAnnouncement P)) (announcement : AgentAnnouncement P)
      (rest : List (AgentAnnouncement P)) (s : AgentDiscovery P),
      (arrived ++ announcement :: rest).Perm [first, second] → Ingested W now resolveDocument arrived s →
      Arrived W now resolveDocument arrived s → Fits W now resolveDocument s announcement := by
    intro arrived announcement rest s hperm hingested h
    have hlength : arrived.length ≤ 1 := by
      have htotal := hperm.length_eq
      rw [List.length_append, List.length_cons] at htotal
      simp only [List.length_cons, List.length_nil] at htotal
      omega
    have hmem : ∀ other ∈ arrived, other ∈ [first, second] := fun other hother =>
      hperm.subset (List.mem_append_left _ hother)
    have hlast : announcement ∈ [first, second] := hperm.subset (List.mem_append_right _ List.mem_cons_self)
    have hnodup := (hperm.map (·.did)).nodup_iff.mpr hA.distinct
    rw [List.map_append, List.map_cons] at hnodup
    have hnew : announcement.did ∉ arrived.map (·.did) := fun hin =>
      (List.nodup_append.mp hnodup).2.2 _ hin _ List.mem_cons_self rfl
    have hjoined := h.joinedPending (A := .at now) (fun other hother => hA.documents other (hmem other hother))
      ⟨rfl, rfl, rfl, rfl⟩ hnew
    have hwaits := (List.length_filter_le (fun attestation => decide (attestation.attesterDid ∉ arrived.map (·.did)))
      (queue now resolveDocument announcement)).trans (hqueues announcement hlast)
    have hpending := h.totalPending_le fun other hother => hqueues other (hmem other hother)
    have hlimits : 16 < maxKnownAgents ∧ 16 < maxPendingAttestationsPerSubject ∧ 32 < maxTotalPendingAttestations ∧
      32 ≤ maxAttestationsPerSpec := by decide
    refine ⟨?_, ?_, ?_, fun did known hget spec hspec => ?_⟩
    · have hsize := h.size_le
      omega
    · rw [hjoined]
      omega
    · rw [hjoined]
      omega
    · have hin : did ∈ arrived.map (·.did) := by
        by_contra hout
        rw [h.unknown did hout] at hget
        cases hget
      obtain ⟨subject, hsubject, rfl⟩ := List.mem_map.mp hin
      obtain rfl : arrived = [subject] := by
        obtain ⟨other, rfl⟩ := List.length_eq_one_iff.mp (hlength.antisymm (List.length_pos_of_mem hsubject))
        rw [List.mem_singleton.mp hsubject]
      rw [h.known [] subject [] rfl] at hget
      obtain rfl := Option.some.inj hget
      rw [h.waitingFor ⟨rfl, rfl, rfl, rfl⟩ hnew hsubject] at hspec
      have hkept : ∀ spec ∈ specsAfter W now resolveDocument [] subject [], spec.attestations.length ≤ 16 := by
        intro spec hin
        obtain ⟨original, horiginal, rfl⟩ := List.mem_map.mp hin
        exact (List.length_filter_le _ _).trans (hspecs subject (hmem subject hsubject) original horiginal)
      have hanswers : (answersOf now resolveDocument subject announcement).length ≤ 16 :=
        (List.length_filter_le _ _).trans (hqueues subject (hmem subject hsubject))
      have hspecLength := length_joinedAll_le hkept spec hspec
      omega
  exact { hA with
    fits := fun arrived announcement rest s hperm hs =>
      hfits arrived announcement rest s hperm hs (hA.arrived_of_ingested hfits hs hperm) }

end Orders

end AgentHalo.Discovery
