import Mathlib.Data.UInt
import AgentHalo.Discovery.Signing

/-!
# Task assembly

A manifold asks for providers, slot by slot. Each slot takes the best of the agents that answer its query, and the agents
taken make a formation if its limits hold. With `requireMutualAttestation`, `assembleAtomic` looks the attestations between
two providers up under their capability identifiers, in the specification of the one who made them; they are stored under
the one they are about, so no two different agents pass (`mutualAttestationSatisfied_iff`).
-/

namespace AgentHalo.Discovery

open Outcome Text
open AgentDiscovery

variable {P : Platform}

def taskGroupDomain : String := "agenthalo.capability.task_group.v1"

structure CapabilitySlot (P : Platform) where
  slotId : String
  query : CapabilityQuery P
  redundancy : UInt32
  optional : Bool

structure ManifoldConstraints where
  maxTotalLatencyMs : Option UInt64
  maxTotalCostMicrodollars : Option UInt64
  minDistinctAgents : Option UInt32
  requireMutualAttestation : Bool
deriving DecidableEq, Repr

/-- A task, but for what assembly does not read. -/
structure TaskManifold (P : Platform) where
  taskId : String
  slots : List (CapabilitySlot P)
  constraints : ManifoldConstraints
  expiresAt : UInt64

structure TaskAssignment where
  taskId : String
  slotId : String
  assignedDid : String
  capabilityId : String
  groupTopic : String
  estimatedLatencyMs : UInt64
  costMicrodollars : UInt64
deriving DecidableEq, Repr

structure TaskFormation where
  groupId : String
  taskId : String
  assignments : List TaskAssignment
  formedAt : UInt64
  expiresAt : UInt64
deriving DecidableEq, Repr

def groupTopic (taskId : String) : String := "/agenthalo/tasks/" ++ taskId ++ "/group"

/-- The specification holds a fresh, passed attestation of the subject by the attester. -/
def trusts (now attestationMaxAgeSecs : UInt64) (spec : CapabilitySpec P) (attesterDid subjectDid : String) : Bool :=
  spec.attestations.any fun attestation => attestation.passed && attestation.attesterDid ≠ attestation.subjectDid &&
    attestation.subjectDid = subjectDid && attestation.attesterDid = attesterDid &&
    age now attestation.verifiedAt ≤ attestationMaxAgeSecs.toNat

def mutualAttestationSatisfied (assignments : List TaskAssignment) (specs : OrdMap String (CapabilitySpec P))
    (now attestationMaxAgeSecs : UInt64) : Bool :=
  assignments.all fun left => assignments.all fun right =>
    left.assignedDid = right.assignedDid ||
      match specs[left.capabilityId]?, specs[right.capabilityId]? with
      | some leftSpec, some rightSpec =>
        trusts now attestationMaxAgeSecs leftSpec left.assignedDid right.assignedDid &&
          trusts now attestationMaxAgeSecs rightSpec right.assignedDid left.assignedDid
      | _, _ => false

namespace TaskManifold

section Assembly

variable (canonicalToVec : String → List String → Except String Bytes) (manifold : TaskManifold P) (A : Ambient)
  (discovery : AgentDiscovery P) (now attestationMaxAgeSecs : UInt64)

/-- The agents that answer the query of a slot, the best first. -/
def rankedProviders (slot : CapabilitySlot P) : List (AgentAnnouncement P) :=
  (discovery.findByQuery A slot.query now attestationMaxAgeSecs).mergeSort fun left right =>
    ((compareRankedSpecs now attestationMaxAgeSecs (bestCapabilityMatch slot.query now attestationMaxAgeSecs left)
      (bestCapabilityMatch slot.query now attestationMaxAgeSecs right)).then (compare left.did right.did)).isLE

/-- The number of providers that a slot takes. -/
def needed (slot : CapabilitySlot P) : Nat := (max slot.redundancy 1).toNat

/-- The assignment of a slot to an agent with a specification. -/
def assignment (slot : CapabilitySlot P) (did : String) (spec : CapabilitySpec P) : TaskAssignment where
  taskId := manifold.taskId
  slotId := slot.slotId
  assignedDid := did
  capabilityId := spec.capabilityId
  groupTopic := groupTopic manifold.taskId
  estimatedLatencyMs := spec.metrics.latencyP99Ms
  costMicrodollars := spec.metrics.costMicrodollars

def assign (slot : CapabilitySlot P) (progress : List TaskAssignment × OrdMap String (CapabilitySpec P))
    (announcement : AgentAnnouncement P) : List TaskAssignment × OrdMap String (CapabilitySpec P) :=
  match bestCapabilityMatch slot.query now attestationMaxAgeSecs announcement with
  | none => progress
  | some spec => (progress.1 ++ [manifold.assignment slot announcement.did spec], progress.2.insert spec.capabilityId spec)

/-- What `assemble_atomic` does for each slot. -/
def fillSlot (progress : List TaskAssignment × OrdMap String (CapabilitySpec P)) (slot : CapabilitySlot P) :
    Except String (List TaskAssignment × OrdMap String (CapabilitySpec P)) :=
  let matching := rankedProviders A discovery now attestationMaxAgeSecs slot
  if matching.length < needed slot && !slot.optional then
    .error ("task manifold `" ++ manifold.taskId ++ "` missing providers for slot `" ++ slot.slotId ++ "`")
  else .ok ((matching.take (needed slot)).foldl (manifold.assign now attestationMaxAgeSecs slot) progress)

/-- Sums wrap around, as in a release build. -/
def assembleAtomic : Except String TaskFormation := do
  require (now ≤ manifold.expiresAt) ("task manifold `" ++ manifold.taskId ++ "` expired")
  let (assignments, selectedSpecs) ← manifold.slots.foldlM
    (manifold.fillSlot A discovery now attestationMaxAgeSecs) ([], (∅ : OrdMap String (CapabilitySpec P)))
  require (assignments ≠ []) ("task manifold `" ++ manifold.taskId ++ "` did not assemble any assignments")
  let distinctAgents := UInt32.ofNat (assignments.map (·.assignedDid)).dedup.length
  let totalLatencyMs := (assignments.map (·.estimatedLatencyMs)).sum
  let totalCostMicrodollars := (assignments.map (·.costMicrodollars)).sum
  require (manifold.constraints.maxTotalLatencyMs.all fun most => totalLatencyMs ≤ most)
    ("task manifold `" ++ manifold.taskId ++ "` exceeded max_total_latency_ms")
  require (manifold.constraints.maxTotalCostMicrodollars.all fun most => totalCostMicrodollars ≤ most)
    ("task manifold `" ++ manifold.taskId ++ "` exceeded max_total_cost_microdollars")
  require (manifold.constraints.minDistinctAgents.all fun least => least ≤ distinctAgents)
    ("task manifold `" ++ manifold.taskId ++ "` did not satisfy min_distinct_agents")
  require (!manifold.constraints.requireMutualAttestation ||
      mutualAttestationSatisfied assignments selectedSpecs now attestationMaxAgeSecs)
    ("task manifold `" ++ manifold.taskId ++ "` requires mutual attestation between assigned agents")
  let canonicalAssignments := (assignments.map fun assignment =>
    assignment.slotId ++ ":" ++ assignment.assignedDid ++ ":" ++ assignment.capabilityId).mergeSort
  let raw := ((canonicalToVec manifold.taskId canonicalAssignments).toOption).getD []
  return { groupId := hexEncode (Credential.digestBytes P taskGroupDomain raw).toList
           taskId := manifold.taskId
           assignments
           formedAt := now
           expiresAt := manifold.expiresAt }

end Assembly

/-! ### What is assembled -/

section Chosen

variable (manifold : TaskManifold P) (A : Ambient) (discovery : AgentDiscovery P) (now attestationMaxAgeSecs : UInt64)

def assigned (slot : CapabilitySlot P) : List TaskAssignment :=
  ((rankedProviders A discovery now attestationMaxAgeSecs slot).take (needed slot)).filterMap fun announcement =>
    (bestCapabilityMatch slot.query now attestationMaxAgeSecs announcement).map
      (manifold.assignment slot announcement.did)

def chosen : List TaskAssignment :=
  manifold.slots.flatMap (manifold.assigned A discovery now attestationMaxAgeSecs)

/-- Everything that assembly asks for except mutual attestation. -/
structure Assembles : Prop where
  inTime : now ≤ manifold.expiresAt
  staffed : ∀ slot ∈ manifold.slots, slot.optional = true ∨
    needed slot ≤ (rankedProviders A discovery now attestationMaxAgeSecs slot).length
  nonempty : manifold.chosen A discovery now attestationMaxAgeSecs ≠ []
  latency : ∀ most, manifold.constraints.maxTotalLatencyMs = some most →
    ((manifold.chosen A discovery now attestationMaxAgeSecs).map (·.estimatedLatencyMs)).sum ≤ most
  cost : ∀ most, manifold.constraints.maxTotalCostMicrodollars = some most →
    ((manifold.chosen A discovery now attestationMaxAgeSecs).map (·.costMicrodollars)).sum ≤ most
  distinct : ∀ least, manifold.constraints.minDistinctAgents = some least → least ≤ UInt32.ofNat
    ((manifold.chosen A discovery now attestationMaxAgeSecs).map (·.assignedDid)).dedup.length

end Chosen

section Filling

variable {manifold : TaskManifold P} {A : Ambient} {discovery : AgentDiscovery P} {now attestationMaxAgeSecs : UInt64}
  {progress progress' : List TaskAssignment × OrdMap String (CapabilitySpec P)} {slot : CapabilitySlot P}

/-- Every specification collected is about an agent with an assignment for it, and there is one for each assignment. -/
structure Collected (progress : List TaskAssignment × OrdMap String (CapabilitySpec P)) : Prop where
  about : ∀ capabilityId spec, progress.2[capabilityId]? = some spec → ∃ assignment ∈ progress.1,
    assignment.capabilityId = capabilityId ∧
      ∀ attestation ∈ spec.attestations, attestation.subjectDid = assignment.assignedDid
  present : ∀ assignment ∈ progress.1, (progress.2[assignment.capabilityId]?).isSome = true

/-- The attestations under an announcement are about its agent. -/
def AboutItself (announcement : AgentAnnouncement P) : Prop :=
  ∀ spec ∈ announcement.capabilitySpecs, ∀ attestation ∈ spec.attestations, attestation.subjectDid = announcement.did

variable {announcement : AgentAnnouncement P} {slots : List (CapabilitySlot P)}

theorem assign_collected (manifold : TaskManifold P) (now attestationMaxAgeSecs : UInt64) (slot : CapabilitySlot P)
    (hannouncement : AboutItself announcement) (h : Collected progress) :
    Collected (manifold.assign now attestationMaxAgeSecs slot progress announcement) := by
  unfold assign
  cases hmatch : bestCapabilityMatch slot.query now attestationMaxAgeSecs announcement with
  | none => exact h
  | some spec =>
    have hspec : spec ∈ announcement.capabilitySpecs := List.mem_of_find?_eq_some hmatch
    refine ⟨fun capabilityId found hfound => ?_, fun assignment hin => ?_⟩
    · dsimp only at hfound ⊢
      rw [OrdMap.get?_insert] at hfound
      split_ifs at hfound with hid
      · obtain rfl := Option.some.inj hfound
        exact ⟨_, List.mem_append_right _ (List.mem_singleton_self _), hid, hannouncement spec hspec⟩
      · obtain ⟨assignment, hassignment, habout⟩ := h.about capabilityId found hfound
        exact ⟨assignment, List.mem_append_left _ hassignment, habout⟩
    · dsimp only at hin ⊢
      rw [OrdMap.get?_insert]
      split_ifs with hid
      · rfl
      · rcases List.mem_append.mp hin with hold | hnew
        · exact h.present assignment hold
        · rw [List.mem_singleton.mp hnew] at hid
          exact absurd rfl hid

theorem foldl_assign {announcements : List (AgentAnnouncement P)}
    (hannouncements : ∀ announcement ∈ announcements, AboutItself announcement) (h : Collected progress) :
    Collected (announcements.foldl (manifold.assign now attestationMaxAgeSecs slot) progress) ∧
      (announcements.foldl (manifold.assign now attestationMaxAgeSecs slot) progress).1 =
        progress.1 ++ announcements.filterMap fun announcement =>
          (bestCapabilityMatch slot.query now attestationMaxAgeSecs announcement).map
            (manifold.assignment slot announcement.did) := by
  induction announcements generalizing progress with
  | nil => exact ⟨h, (List.append_nil _).symm⟩
  | cons announcement rest ih =>
    obtain ⟨hannouncement, hrest⟩ := List.forall_mem_cons.mp hannouncements
    obtain ⟨hcollected, hassigned⟩ := ih hrest
      (assign_collected manifold now attestationMaxAgeSecs slot hannouncement h)
    refine ⟨hcollected, hassigned.trans ?_⟩
    unfold assign
    cases hmatch : bestCapabilityMatch slot.query now attestationMaxAgeSecs announcement with
    | none => simp [hmatch]
    | some spec => simp [hmatch]

theorem mem_rankedProviders :
    announcement ∈ rankedProviders A discovery now attestationMaxAgeSecs slot ↔
      (∃ did : String, discovery.knownAgents[did]? = some announcement) ∧
        (bestCapabilityMatch slot.query now attestationMaxAgeSecs announcement).isSome = true := by
  unfold rankedProviders findByQuery
  rw [List.mem_mergeSort, List.mem_filter, List.mem_filterMap]
  refine and_congr_left fun _ => ⟨fun ⟨did, _, hget⟩ => ⟨did, hget⟩, fun ⟨did, hget⟩ => ⟨did, ?_, hget⟩⟩
  rw [(A.order_perm _).mem_iff, Std.ExtTreeMap.mem_keys, Std.ExtTreeMap.mem_iff_isSome_getElem?, hget]
  rfl

variable (hknown : ∀ (did : String) announcement, discovery.knownAgents[did]? = some announcement →
  AboutItself announcement)
include hknown

theorem fillSlot_ok (h : Collected progress)
    (hfill : manifold.fillSlot A discovery now attestationMaxAgeSecs progress slot = .ok progress') :
    (slot.optional = true ∨ needed slot ≤ (rankedProviders A discovery now attestationMaxAgeSecs slot).length) ∧
      Collected progress' ∧
      progress'.1 = progress.1 ++ manifold.assigned A discovery now attestationMaxAgeSecs slot := by
  unfold fillSlot at hfill
  dsimp only at hfill
  split_ifs at hfill with hmissing
  obtain rfl := Except.ok.inj hfill
  have hproviders : ∀ announcement ∈ (rankedProviders A discovery now attestationMaxAgeSecs slot).take (needed slot),
      AboutItself announcement := by
    intro announcement hin
    obtain ⟨⟨did, hget⟩, -⟩ := mem_rankedProviders.mp (List.mem_of_mem_take hin)
    exact hknown did announcement hget
  refine ⟨?_, foldl_assign hproviders h⟩
  by_contra hnot
  rw [not_or, not_le, Bool.not_eq_true] at hnot
  exact hmissing (by rw [hnot.1, decide_eq_true hnot.2]; rfl)

theorem foldlM_fillSlot_ok (h : Collected progress)
    (hfill : slots.foldlM (manifold.fillSlot A discovery now attestationMaxAgeSecs) progress = .ok progress') :
    (∀ slot ∈ slots, slot.optional = true ∨
        needed slot ≤ (rankedProviders A discovery now attestationMaxAgeSecs slot).length) ∧ Collected progress' ∧
      progress'.1 = progress.1 ++ slots.flatMap (manifold.assigned A discovery now attestationMaxAgeSecs) := by
  induction slots generalizing progress with
  | nil =>
    obtain rfl := Except.ok.inj hfill
    exact ⟨nofun, h, (List.append_nil _).symm⟩
  | cons slot rest ih =>
    rw [List.foldlM_cons] at hfill
    obtain ⟨next, hnext, hrest⟩ := bind_eq_ok.mp hfill
    obtain ⟨hstaffed, hcollected, hassigned⟩ := fillSlot_ok hknown h hnext
    obtain ⟨hstaffed', hcollected', hassigned'⟩ := ih hcollected hrest
    refine ⟨List.forall_mem_cons.mpr ⟨hstaffed, hstaffed'⟩, hcollected', ?_⟩
    rw [hassigned', hassigned, List.flatMap_cons, List.append_assoc]

omit hknown in
theorem exists_foldlM_fillSlot (progress : List TaskAssignment × OrdMap String (CapabilitySpec P))
    (hstaffed : ∀ slot ∈ slots,
      slot.optional = true ∨ needed slot ≤ (rankedProviders A discovery now attestationMaxAgeSecs slot).length) :
    ∃ progress', slots.foldlM (manifold.fillSlot A discovery now attestationMaxAgeSecs) progress = .ok progress' := by
  induction slots generalizing progress with
  | nil => exact ⟨progress, rfl⟩
  | cons slot rest ih =>
    obtain ⟨hslot, hrest⟩ := List.forall_mem_cons.mp hstaffed
    have hfill : ∃ next, manifold.fillSlot A discovery now attestationMaxAgeSecs progress slot = .ok next := by
      unfold fillSlot
      rw [if_neg]
      · exact ⟨_, rfl⟩
      · rcases hslot with hoptional | henough
        · simp [hoptional]
        · simp [henough]
    obtain ⟨next, hnext⟩ := hfill
    obtain ⟨progress', hprogress⟩ := ih next hrest
    exact ⟨progress', by rw [List.foldlM_cons, hnext]; exact hprogress⟩

end Filling

/-- Two different agents never pass: the entry under a capability is about one of its providers only, and that provider
finds no statement about anybody else there. -/
theorem mutualAttestationSatisfied_iff {progress : List TaskAssignment × OrdMap String (CapabilitySpec P)}
    {now attestationMaxAgeSecs : UInt64} (h : Collected progress) :
    mutualAttestationSatisfied progress.1 progress.2 now attestationMaxAgeSecs = true ↔
      ∀ left ∈ progress.1, ∀ right ∈ progress.1, left.assignedDid = right.assignedDid := by
  unfold mutualAttestationSatisfied
  simp only [List.all_eq_true, Bool.or_eq_true, decide_eq_true_eq]
  refine ⟨fun hall => ?_, fun hsame left hleft right hright => .inl (hsame left hleft right hright)⟩
  -- The entry of any assignment is about one agent, which must be the agent of every assignment.
  have hall_same : ∀ any ∈ progress.1, ∃ did, ∀ right ∈ progress.1, right.assignedDid = did := by
    intro any hany
    obtain ⟨spec, hspec⟩ := Option.isSome_iff_exists.mp (h.present any hany)
    obtain ⟨provider, hprovider, hid, habout⟩ := h.about any.capabilityId spec hspec
    refine ⟨provider.assignedDid, fun right hright => ?_⟩
    rcases hall provider hprovider right hright with hsame | hboth
    · exact hsame.symm
    · rw [hid, hspec] at hboth
      cases hrightSpec : progress.2[right.capabilityId]? with
      | none =>
        rw [hrightSpec] at hboth
        cases hboth
      | some rightSpec =>
        rw [hrightSpec] at hboth
        obtain ⟨attestation, hin, htrust⟩ := List.any_eq_true.mp (Bool.and_eq_true_iff.mp hboth).1
        simp only [Bool.and_eq_true, decide_eq_true_eq] at htrust
        exact htrust.1.1.2.symm.trans (habout attestation hin)
  intro left hleft right hright
  obtain ⟨did, hdid⟩ := hall_same left hleft
  exact (hdid left hleft).trans (hdid right hright).symm

/-! ### With and without mutual attestation -/

/-- The manifold with or without the constraint. -/
def withMutual (manifold : TaskManifold P) (flag : Bool) : TaskManifold P :=
  { manifold with constraints := { manifold.constraints with requireMutualAttestation := flag } }

section Outcomes

variable (canonicalToVec : String → List String → Except String Bytes) {manifold : TaskManifold P} {A : Ambient}
  {discovery : AgentDiscovery P} {now attestationMaxAgeSecs : UInt64}

theorem collected_nil : Collected (([], ∅) : List TaskAssignment × OrdMap String (CapabilitySpec P)) where
  about capabilityId spec h := by
    rw [Std.ExtTreeMap.getElem?_empty] at h
    cases h
  present assignment h := by cases h

/-- What is assembled are the assignments chosen, and without the constraint on mutual attestation nothing else is asked
for; with it, all the assignments go to one agent. -/
theorem assembleAtomic_ok (hknown : ∀ (did : String) announcement, discovery.knownAgents[did]? = some announcement →
      AboutItself announcement) {formation : TaskFormation}
    (h : manifold.assembleAtomic canonicalToVec A discovery now attestationMaxAgeSecs = .ok formation) :
    manifold.Assembles A discovery now attestationMaxAgeSecs ∧
      formation.assignments = manifold.chosen A discovery now attestationMaxAgeSecs ∧
      (manifold.constraints.requireMutualAttestation = true → ∀ left ∈ formation.assignments,
        ∀ right ∈ formation.assignments, left.assignedDid = right.assignedDid) := by
  unfold assembleAtomic at h
  simp only [bind, bind_eq_ok, require_eq_ok, exists_const, decide_eq_true_eq, pure, Except.pure, Except.ok.injEq,
    Prod.exists] at h
  obtain ⟨hinTime, assignments, selectedSpecs, hfilled, hnonempty, hlatency, hcost, hdistinct, hmutual, rfl⟩ := h
  obtain ⟨hstaffed, hcollected, hassigned⟩ := foldlM_fillSlot_ok hknown collected_nil hfilled
  rw [List.nil_append] at hassigned
  obtain rfl : assignments = manifold.chosen A discovery now attestationMaxAgeSecs := hassigned
  refine ⟨⟨hinTime, hstaffed, hnonempty, fun most hmost => ?_, fun most hmost => ?_, fun least hleast => ?_⟩, rfl,
    fun hflag => ?_⟩
  · rw [hmost] at hlatency
    exact of_decide_eq_true hlatency
  · rw [hmost] at hcost
    exact of_decide_eq_true hcost
  · rw [hleast] at hdistinct
    exact of_decide_eq_true hdistinct
  · rw [hflag] at hmutual
    exact (mutualAttestationSatisfied_iff hcollected).mp hmutual

theorem exists_assembleAtomic (hknown : ∀ (did : String) announcement,
      discovery.knownAgents[did]? = some announcement → AboutItself announcement)
    (h : manifold.Assembles A discovery now attestationMaxAgeSecs)
    (hmutual : manifold.constraints.requireMutualAttestation = true →
      ∀ left ∈ manifold.chosen A discovery now attestationMaxAgeSecs,
        ∀ right ∈ manifold.chosen A discovery now attestationMaxAgeSecs, left.assignedDid = right.assignedDid) :
    ∃ formation, manifold.assembleAtomic canonicalToVec A discovery now attestationMaxAgeSecs = .ok formation := by
  obtain ⟨⟨assignments, selectedSpecs⟩, hfilled⟩ : ∃ filled, manifold.slots.foldlM
      (manifold.fillSlot A discovery now attestationMaxAgeSecs) ([], (∅ : OrdMap String (CapabilitySpec P))) =
        .ok filled := exists_foldlM_fillSlot _ h.staffed
  obtain ⟨-, hcollected, hassigned⟩ := foldlM_fillSlot_ok hknown collected_nil hfilled
  rw [List.nil_append] at hassigned
  obtain rfl : assignments = manifold.chosen A discovery now attestationMaxAgeSecs := hassigned
  have hlatency : (manifold.constraints.maxTotalLatencyMs.all fun most =>
      ((manifold.chosen A discovery now attestationMaxAgeSecs).map (·.estimatedLatencyMs)).sum ≤ most) = true :=
    (Option.all_eq_true _ _).mpr fun most hmost => decide_eq_true (h.latency most hmost)
  have hcost : (manifold.constraints.maxTotalCostMicrodollars.all fun most =>
      ((manifold.chosen A discovery now attestationMaxAgeSecs).map (·.costMicrodollars)).sum ≤ most) = true :=
    (Option.all_eq_true _ _).mpr fun most hmost => decide_eq_true (h.cost most hmost)
  have hdistinct : (manifold.constraints.minDistinctAgents.all fun least => least ≤ UInt32.ofNat
      ((manifold.chosen A discovery now attestationMaxAgeSecs).map (·.assignedDid)).dedup.length) = true :=
    (Option.all_eq_true _ _).mpr fun least hleast => decide_eq_true (h.distinct least hleast)
  have hsatisfied : (!manifold.constraints.requireMutualAttestation || mutualAttestationSatisfied
      (manifold.chosen A discovery now attestationMaxAgeSecs) selectedSpecs now attestationMaxAgeSecs) = true := by
    cases hflag : manifold.constraints.requireMutualAttestation with
    | false => rfl
    | true => exact (mutualAttestationSatisfied_iff hcollected).mpr (hmutual hflag)
  unfold assembleAtomic
  rw [hfilled]
  simp only [bind, Except.bind, require, h.inTime, h.nonempty, hlatency, hcost, hdistinct, hsatisfied, decide_true, if_true,
    ne_eq, not_false_eq_true]
  exact ⟨_, rfl⟩

end Outcomes

/-- The state holds a fresh, passed attestation of the subject by the attester, under the announcement of the subject. -/
def Attests (discovery : AgentDiscovery P) (now attestationMaxAgeSecs : UInt64) (attesterDid subjectDid : String) : Prop :=
  ∃ announcement, discovery.knownAgents[subjectDid]? = some announcement ∧ ∃ spec ∈ announcement.capabilitySpecs,
    trusts now attestationMaxAgeSecs spec attesterDid subjectDid = true

/-- Any two different agents of the assignments attest each other. -/
def AttestEachOther (discovery : AgentDiscovery P) (now attestationMaxAgeSecs : UInt64)
    (assignments : List TaskAssignment) : Prop :=
  ∀ left ∈ assignments, ∀ right ∈ assignments, left.assignedDid ≠ right.assignedDid →
    Attests discovery now attestationMaxAgeSecs left.assignedDid right.assignedDid ∧
      Attests discovery now attestationMaxAgeSecs right.assignedDid left.assignedDid

section MutualAttestation

variable (canonicalToVec : String → List String → Except String Bytes) (manifold : TaskManifold P) (A : Ambient)
  (discovery : AgentDiscovery P) (now attestationMaxAgeSecs : UInt64)

/-- With the constraint, assembly succeeds exactly when it does without and the agents assigned attest each other. -/
def MeansWhatItSays : Prop :=
  (∃ formation, (manifold.withMutual true).assembleAtomic canonicalToVec A discovery now attestationMaxAgeSecs =
      .ok formation) ↔
    ∃ formation, (manifold.withMutual false).assembleAtomic canonicalToVec A discovery now attestationMaxAgeSecs =
      .ok formation ∧ AttestEachOther discovery now attestationMaxAgeSecs formation.assignments

/-- Nothing but the constraint can stand in the way, several agents are chosen, and they attest each other. -/
structure SeveralAttested : Prop where
  assembles : manifold.Assembles A discovery now attestationMaxAgeSecs
  several : ∃ left ∈ manifold.chosen A discovery now attestationMaxAgeSecs,
    ∃ right ∈ manifold.chosen A discovery now attestationMaxAgeSecs, left.assignedDid ≠ right.assignedDid
  attested : AttestEachOther discovery now attestationMaxAgeSecs (manifold.chosen A discovery now attestationMaxAgeSecs)

variable {manifold A discovery now attestationMaxAgeSecs}

theorem assembles_withMutual {flag : Bool} : (manifold.withMutual flag).Assembles A discovery now attestationMaxAgeSecs ↔
    manifold.Assembles A discovery now attestationMaxAgeSecs :=
  ⟨fun h => ⟨h.inTime, h.staffed, h.nonempty, h.latency, h.cost, h.distinct⟩,
    fun h => ⟨h.inTime, h.staffed, h.nonempty, h.latency, h.cost, h.distinct⟩⟩

theorem meansWhatItSays_iff (hknown : ∀ (did : String) announcement,
      discovery.knownAgents[did]? = some announcement → AboutItself announcement) :
    MeansWhatItSays canonicalToVec manifold A discovery now attestationMaxAgeSecs ↔
      ¬ SeveralAttested manifold A discovery now attestationMaxAgeSecs := by
  have hwith : (∃ formation, (manifold.withMutual true).assembleAtomic canonicalToVec A discovery now
      attestationMaxAgeSecs = .ok formation) ↔ manifold.Assembles A discovery now attestationMaxAgeSecs ∧
        ∀ left ∈ manifold.chosen A discovery now attestationMaxAgeSecs,
          ∀ right ∈ manifold.chosen A discovery now attestationMaxAgeSecs, left.assignedDid = right.assignedDid := by
    constructor
    · rintro ⟨formation, hformation⟩
      obtain ⟨hassembles, hassignments, hsame⟩ := assembleAtomic_ok canonicalToVec hknown hformation
      rw [hassignments] at hsame
      exact ⟨assembles_withMutual.mp hassembles, hsame rfl⟩
    · rintro ⟨hassembles, hsame⟩
      exact exists_assembleAtomic canonicalToVec hknown (assembles_withMutual.mpr hassembles) fun _ => hsame
  have hwithout : (∃ formation, (manifold.withMutual false).assembleAtomic canonicalToVec A discovery now
      attestationMaxAgeSecs = .ok formation ∧
        AttestEachOther discovery now attestationMaxAgeSecs formation.assignments) ↔
      manifold.Assembles A discovery now attestationMaxAgeSecs ∧ AttestEachOther discovery now attestationMaxAgeSecs
        (manifold.chosen A discovery now attestationMaxAgeSecs) := by
    constructor
    · rintro ⟨formation, hformation, hattested⟩
      obtain ⟨hassembles, hassignments, -⟩ := assembleAtomic_ok canonicalToVec hknown hformation
      rw [hassignments] at hattested
      exact ⟨assembles_withMutual.mp hassembles, hattested⟩
    · rintro ⟨hassembles, hattested⟩
      have hwithout : (manifold.withMutual false).Assembles A discovery now attestationMaxAgeSecs :=
        assembles_withMutual.mpr hassembles
      obtain ⟨formation, hformation⟩ := exists_assembleAtomic canonicalToVec hknown hwithout
        fun hflag => absurd hflag Bool.false_ne_true
      obtain ⟨-, hassignments, -⟩ := assembleAtomic_ok canonicalToVec hknown hformation
      refine ⟨formation, hformation, ?_⟩
      rw [hassignments]
      exact hattested
  unfold MeansWhatItSays
  rw [hwith, hwithout]
  constructor
  · rintro hiff ⟨hassembles, ⟨left, hleft, right, hright, hne⟩, hattested⟩
    exact hne ((hiff.mpr ⟨hassembles, hattested⟩).2 left hleft right hright)
  · refine fun hnot => ⟨fun ⟨hassembles, hsame⟩ => ⟨hassembles, fun left hleft right hright hne => ?_⟩,
      fun ⟨hassembles, hattested⟩ => ⟨hassembles, fun left hleft right hright => ?_⟩⟩
    · exact absurd (hsame left hleft right hright) hne
    · by_contra hne
      exact hnot ⟨hassembles, ⟨left, hleft, right, hright, hne⟩, hattested⟩

end MutualAttestation

end TaskManifold

theorem sanitized_aboutItself (W : Wire P) (s : AgentDiscovery P) (resolveDocument : Resolver)
    (announcement : AgentAnnouncement P) :
    ((s.sanitized W resolveDocument announcement).1.did = announcement.did ∧
      TaskManifold.AboutItself (s.sanitized W resolveDocument announcement).1) ∧
        ∀ attestation ∈ (s.sanitized W resolveDocument announcement).2, attestation.subjectDid = announcement.did := by
  refine ⟨⟨sanitized_did W s resolveDocument announcement, ?_⟩, fun attestation hin => ?_⟩
  · intro spec hspec attestation hin
    rw [sanitized_eq] at hspec ⊢
    obtain ⟨original, -, rfl⟩ := List.mem_map.mp hspec
    exact (eligible_iff.mp (mem_kept.mp hin).2.1).2.2.2.2.2.2
  · rw [sanitized_eq] at hin
    obtain ⟨spec, -, hundecided⟩ := List.mem_flatMap.mp hin
    exact (eligible_iff.mp (mem_undecided.mp hundecided).2.1).2.2.2.2.2.2

variable {W : Wire P}

theorem TaskManifold.AboutItself.join {known : AgentAnnouncement P} (habout : TaskManifold.AboutItself known)
    (document : Pod.DIDDocument) {attestation : CapabilityAttestation} (hsubject : attestation.subjectDid = known.did) :
    TaskManifold.AboutItself
      { known with capabilitySpecs := joinAttestation W document known.capabilitySpecs attestation } := by
  intro spec hspec other hother
  rcases mem_joinAttestation hspec with hin | ⟨before, hin, -, -, rfl⟩
  · exact habout spec hin other hother
  · rcases joinSpec_cases attestation before with hsame | ⟨hadded, -⟩
    · rw [hsame] at hother
      exact habout before hin other hother
    · rw [hadded] at hother
      rcases List.mem_append.mp hother with hold | hnew
      · exact habout before hin other hold
      · rw [List.mem_singleton.mp hnew]
        exact hsubject

/-- The attestations stored and pending under an agent are about it. -/
abbrev AllAboutItself (discovery : AgentDiscovery P) : Prop :=
  Held (fun did announcement => announcement.did = did ∧ TaskManifold.AboutItself announcement)
    (fun did attestation => attestation.subjectDid = did) discovery

theorem Reached.aboutItself (h : Reached W discovery) :
    AllAboutItself discovery := by
  refine h.held fun s resolveDocument announcement => ?_
  obtain ⟨hknown, hpending⟩ := sanitized_aboutItself W s resolveDocument announcement
  refine ⟨hknown, hpending, ?_⟩
  rintro document - did known attestation ⟨hdid, habout⟩ hsubject -
  exact ⟨hdid, habout.join document (hsubject.trans hdid.symm)⟩

theorem Received.aboutItself {C : Condition P} (h : Received W C discovery) : AllAboutItself discovery :=
  h.reached.aboutItself

/-- **The constraint on mutual attestation** means what it says, except where several agents are chosen that do attest
each other. -/
theorem received_mutual_iff {W : Wire P} {discovery : AgentDiscovery P} (h : Received W anyMessage discovery)
    (canonicalToVec : String → List String → Except String Bytes) (manifold : TaskManifold P) (A : Ambient)
    (now attestationMaxAgeSecs : UInt64) :
    manifold.MeansWhatItSays canonicalToVec A discovery now attestationMaxAgeSecs ↔
      ¬ manifold.SeveralAttested A discovery now attestationMaxAgeSecs :=
  TaskManifold.meansWhatItSays_iff canonicalToVec fun did announcement hget =>
    (h.aboutItself.known did announcement hget).2

namespace TaskManifold

section Providers

variable {A : Ambient} {discovery : AgentDiscovery P} {now attestationMaxAgeSecs : UInt64} {slot : CapabilitySlot P}

theorem length_rankedProviders_le :
    (rankedProviders A discovery now attestationMaxAgeSecs slot).length ≤ discovery.knownAgents.size := by
  unfold rankedProviders findByQuery
  rw [List.length_mergeSort]
  refine (List.length_filter_le _ _).trans ((List.length_filterMap_le _ _).trans ?_)
  rw [(A.order_perm _).length_eq, Std.ExtTreeMap.length_keys]

theorem mem_assigned (manifold : TaskManifold P) (hroom : discovery.knownAgents.size ≤ needed slot)
    {assignment : TaskAssignment} : assignment ∈ manifold.assigned A discovery now attestationMaxAgeSecs slot ↔
      ∃ (did : String) (announcement : AgentAnnouncement P) (spec : CapabilitySpec P),
        discovery.knownAgents[did]? = some announcement ∧
          bestCapabilityMatch slot.query now attestationMaxAgeSecs announcement = some spec ∧
            manifold.assignment slot announcement.did spec = assignment := by
  unfold assigned
  rw [List.take_of_length_le (length_rankedProviders_le.trans hroom), List.mem_filterMap]
  constructor
  · rintro ⟨announcement, hin, hassignment⟩
    obtain ⟨⟨did, hget⟩, -⟩ := mem_rankedProviders.mp hin
    obtain ⟨spec, hspec, heq⟩ := Option.map_eq_some_iff.mp hassignment
    exact ⟨did, announcement, spec, hget, hspec, heq⟩
  · rintro ⟨did, announcement, spec, hget, hspec, heq⟩
    refine ⟨announcement, mem_rankedProviders.mpr ⟨⟨did, hget⟩, hspec ▸ rfl⟩, ?_⟩
    rw [hspec, Option.map_some, heq]

end Providers

end TaskManifold

namespace Sample

theorem exists_each_other : ∃ (W : Wire .reference) (t : AgentDiscovery .reference)
    (first second : AgentAnnouncement .reference), Received W anyMessage t ∧ t.knownAgents.size ≤ 2 ∧
      (∀ other : String, t.knownAgents[other]? = if Sample.did 2 = other then some second else
        if Sample.did 1 = other then some first else none) ∧
      (first.did = Sample.did 1 ∧ first.capabilitySpecs = [{ spec "a" (List.replicate 1
        (attestation 2 1 "a" "challenge" 900)) with metrics := (spec "a" []).metrics.sanitize }]) ∧
      second.did = Sample.did 2 ∧ second.capabilitySpecs = [{ spec "b" (List.replicate 1
        (attestation 1 2 "b" "challenge" 900)) with metrics := (spec "b" []).metrics.sanitize }] := by
  have hwords : size "a" = 1 ∧ size "b" = 1 := by decide
  obtain ⟨hpeer, hdid, htime, -, hdocument, -⟩ := signed_fields 1 "a" 1000
    [spec "a" (List.replicate 1 (attestation 2 1 "a" "challenge" 900))]
  obtain ⟨hpeer', hdid', -⟩ := signed_fields 2 "b" 1000
    [spec "b" (List.replicate 1 (attestation 1 2 "b" "challenge" 900))]
  let announcements := [signed 1 (attestedDraft 1 2 1 "a" "a"), signed 2 (attestedDraft 1 1 2 "b" "b")]
  have hfind' : (announcements.find? fun announcement => Text.utf8 (Json.announcement announcement) =
      Text.utf8 (Json.announcement (signed 2 (attestedDraft 1 1 2 "b" "b")))) =
        some (signed 2 (attestedDraft 1 1 2 "b" "b")) := by
    refine (List.find?_cons_of_neg ?_).trans (List.find?_cons_of_pos (decide_eq_true rfl))
    rw [decide_eq_true_eq]
    exact text_ne hpeer hpeer' (by decide) (by decide)
  obtain ⟨s, hreceives, hbounded, hquiet, hknown⟩ := exists_receives_new (C := anyMessage) announcements (.at 1000)
    [1, 2] (by decide) (size_attestedDraft_le (by decide) (by decide) (by omega))
    (List.find?_cons_of_pos (decide_eq_true rfl)) (validate_attestedDraft (by decide) ..)
    (fresh_draft le_rfl (Nat.le_add_right _ _)) (attester_of_mem (by simp)) trivial
  obtain ⟨first, hfirst, hdidFirst, htimeFirst, hdocumentFirst, hspecsFirst⟩ : ∃ first, s.knownAgents =
      (∅ : OrdMap String (AgentAnnouncement .reference)).insert (Sample.did 1) first ∧
        first.did = Sample.did 1 ∧ first.timestamp = 1000 ∧ first.didDocument = none ∧
        first.capabilitySpecs = [{ spec "a" (List.replicate 1 (attestation 2 1 "a" "challenge" 900)) with
          metrics := (spec "a" []).metrics.sanitize }] :=
    ⟨_, hknown, (stored_fields _ _).1.trans hdid, (stored_fields _ _).2.1.trans htime,
      (stored_fields _ _).2.2.trans hdocument, congrArg (fun stored => [stored])
      (storedSpec_attested announcements 1 (by decide) (by decide) "a" (by rw [known_new]; rfl))⟩
  have hget (other : String) : s.knownAgents[other]? = if Sample.did 1 = other then some first else none := by
    rw [hfirst, OrdMap.get?_insert]
    simp
  have hlive : ∀ (other : String) known, s.knownAgents[other]? = some known → isExpired 1000 known = false := by
    intro other known hin
    rw [hget] at hin
    split_ifs at hin
    obtain rfl := Option.some.inj hin
    exact isExpired_eq_false (UInt64.le_of_eq htimeFirst.symm)
  have hsize : s.knownAgents.size ≤ 1 := by
    rw [hfirst]
    exact Std.ExtTreeMap.size_insert_le
  have hunknown : (s.knownAgents[Sample.did 1]?).bind (·.didDocument) = none := by
    rw [hget, if_pos rfl]
    exact hdocumentFirst
  obtain ⟨t, hreceives', -, -, hknown'⟩ := exists_receives (C := anyMessage) announcements (.at 1000) [1, 2]
    (by decide) (size_attestedDraft_le (by decide) (by decide) (by omega)) hfind' (validate_attestedDraft (by decide) ..)
    (fresh_draft le_rfl (Nat.le_add_right _ _)) (attester_of_mem (by simp)) hbounded hlive hquiet
    (hsize.trans_lt (by decide)) trivial
  obtain ⟨second, hsecond, hdidSecond, hspecsSecond⟩ : ∃ second, t.knownAgents =
      s.knownAgents.insert (Sample.did 2) second ∧ second.did = Sample.did 2 ∧
        second.capabilitySpecs = [{ spec "b" (List.replicate 1 (attestation 1 2 "b" "challenge" 900)) with
          metrics := (spec "b" []).metrics.sanitize }] :=
    ⟨_, hknown', (stored_fields _ _).1.trans hdid', congrArg (fun stored => [stored])
      (storedSpec_attested announcements 1 (by decide) (by decide) "b" hunknown)⟩
  refine ⟨_, t, first, second, .message (.message .new hreceives) hreceives', ?_, fun other => ?_,
    ⟨hdidFirst, hspecsFirst⟩, hdidSecond, hspecsSecond⟩
  · rw [hsecond]
    exact Std.ExtTreeMap.size_insert_le.trans (Nat.succ_le_succ hsize)
  · rw [hsecond, OrdMap.get?_insert, hget]

def query : CapabilityQuery .reference where
  domainPrefix := "prove"
  requiredInputs := []
  requiredOutputs := []
  requiredConstraints := []
  minSuccessRate := none
  maxLatencyP99Ms := none
  maxCostMicrodollars := none
  minAttestations := none
  minOnchainReputation := none
  count := 2
  queryTimeoutMs := 0

def slot : CapabilitySlot .reference := ⟨"slot", query, 2, true⟩

/-- A task for two who attest each other. -/
def manifold : TaskManifold .reference where
  taskId := "task"
  slots := [slot]
  constraints := ⟨none, none, none, true⟩
  expiresAt := 2000

theorem satisfies (capabilityId : String) (attestations : List CapabilityAttestation) :
    CapabilitySpec.satisfiesAt { spec capabilityId attestations with metrics := (spec capabilityId []).metrics.sanitize }
      query 1000 86400 = true := by
  have hpre : CapabilityDomain.matchesPrefix ⟨"prove", 1⟩ "prove" = true := by decide
  unfold CapabilitySpec.satisfiesAt
  change (CapabilityDomain.matchesPrefix ⟨"prove", 1⟩ "prove" && _ && _ && _ && _ && _ && _ && _ && _) = true
  rw [hpre]
  rfl

theorem bestCapabilityMatch_of_singleton {announcement : AgentAnnouncement .reference} {capabilityId : String}
    {attestations : List CapabilityAttestation} (h : announcement.capabilitySpecs =
      [{ spec capabilityId attestations with metrics := (spec capabilityId []).metrics.sanitize }]) :
    bestCapabilityMatch query 1000 86400 announcement =
      some { spec capabilityId attestations with metrics := (spec capabilityId []).metrics.sanitize } := by
  unfold bestCapabilityMatch
  rw [h]
  exact List.find?_cons_of_pos (satisfies capabilityId attestations)

theorem trusts_spec {attester subject : UInt8} (hne : attester ≠ subject) (capabilityId : String) :
    trusts 1000 86400 { spec capabilityId (List.replicate 1 (attestation attester subject capabilityId "challenge" 900))
      with metrics := (spec capabilityId []).metrics.sanitize } (Sample.did attester) (Sample.did subject) = true := by
  have hdid : Sample.did attester ≠ Sample.did subject := fun h => hne (did_inj h)
  refine List.any_eq_true.mpr ⟨_, List.mem_singleton_self _, ?_⟩
  simp only [attestation, ne_eq, hdid, not_false_eq_true, decide_true, Bool.true_and]
  rfl

theorem exists_several_attested : ∃ (W : Wire .reference) (t : AgentDiscovery .reference),
    Received W anyMessage t ∧ manifold.SeveralAttested (.at 1000) t 1000 86400 := by
  obtain ⟨W, t, first, second, hreceived, hsize, hget, ⟨hdid, hspecs⟩, hdid', hspecs'⟩ := exists_each_other
  have hne : Sample.did 2 ≠ Sample.did 1 := fun h => absurd (did_inj h) (by decide)
  have hfirst : t.knownAgents[Sample.did 1]? = some first := by rw [hget, if_neg hne, if_pos rfl]
  have hsecond : t.knownAgents[Sample.did 2]? = some second := by rw [hget, if_pos rfl]
  have hchosen : manifold.chosen (.at 1000) t 1000 86400 = manifold.assigned (.at 1000) t 1000 86400 slot :=
    List.flatMap_singleton ..
  have hfirstMatch := bestCapabilityMatch_of_singleton hspecs
  have hsecondMatch := bestCapabilityMatch_of_singleton hspecs'
  have hroom : t.knownAgents.size ≤ TaskManifold.needed slot := hsize
  have hleft := (TaskManifold.mem_assigned (A := .at 1000) manifold hroom).mpr
    ⟨_, first, _, hfirst, hfirstMatch, rfl⟩
  have hright := (TaskManifold.mem_assigned (A := .at 1000) manifold hroom).mpr
    ⟨_, second, _, hsecond, hsecondMatch, rfl⟩
  rw [← hchosen] at hleft hright
  have hfirstAttested : TaskManifold.Attests t 1000 86400 (Sample.did 2) (Sample.did 1) :=
    ⟨first, hfirst, _, by rw [hspecs]; exact List.mem_singleton_self _, trusts_spec (by decide) "a"⟩
  have hsecondAttested : TaskManifold.Attests t 1000 86400 (Sample.did 1) (Sample.did 2) :=
    ⟨second, hsecond, _, by rw [hspecs']; exact List.mem_singleton_self _, trusts_spec (by decide) "b"⟩
  have hassigned : ∀ assignment ∈ manifold.chosen (.at 1000) t 1000 86400,
      assignment.assignedDid = Sample.did 1 ∨ assignment.assignedDid = Sample.did 2 := by
    intro assignment hin
    rw [hchosen] at hin
    obtain ⟨did, announcement, stored, hstored, -, rfl⟩ := (TaskManifold.mem_assigned manifold hsize).mp hin
    rw [hget] at hstored
    split_ifs at hstored
    · obtain rfl := Option.some.inj hstored
      exact .inr hdid'
    · obtain rfl := Option.some.inj hstored
      exact .inl hdid
  refine ⟨W, t, hreceived, ⟨by decide, fun other hother => .inl ?_, List.ne_nil_of_mem hleft, nofun, nofun, nofun⟩,
    ⟨_, hleft, _, hright, ?_⟩, fun left hin right hin' hdistinct => ?_⟩
  · obtain rfl := List.mem_singleton.mp hother
    rfl
  · change first.did ≠ second.did
    rw [hdid, hdid']
    exact hne.symm
  · rcases hassigned left hin with hleftDid | hleftDid <;> rcases hassigned right hin' with hrightDid | hrightDid
    all_goals rw [hleftDid, hrightDid] at hdistinct ⊢
    · exact absurd rfl hdistinct
    · exact ⟨hsecondAttested, hfirstAttested⟩
    · exact ⟨hfirstAttested, hsecondAttested⟩
    · exact absurd rfl hdistinct

end Sample

/-- Once two agents have attested each other. -/
theorem sample_mutual : ∃ (W : Wire .reference) (t : AgentDiscovery .reference),
    Received W anyMessage t ∧ Sample.manifold.SeveralAttested (.at 1000) t 1000 86400 ∧
      ∀ canonicalToVec : String → List String → Except String Bytes,
        (Sample.manifold.MeansWhatItSays canonicalToVec (.at 1000) t 1000 86400 ↔
          ¬ Sample.manifold.SeveralAttested (.at 1000) t 1000 86400) := by
  obtain ⟨W, t, hreceived, hseveral⟩ := Sample.exists_several_attested
  exact ⟨W, t, hreceived, hseveral, fun canonicalToVec =>
    received_mutual_iff hreceived canonicalToVec Sample.manifold (.at 1000) 1000 86400⟩

/-- Two agents that attest each other are refused. -/
theorem mutual_refused : ∃ (W : Wire .reference) (t : AgentDiscovery .reference),
    Received W anyMessage t ∧ ∀ canonicalToVec : String → List String → Except String Bytes,
      ¬ Sample.manifold.MeansWhatItSays canonicalToVec (.at 1000) t 1000 86400 := by
  obtain ⟨W, t, hreceived, hseveral⟩ := Sample.exists_several_attested
  refine ⟨W, t, hreceived, fun canonicalToVec hmeans => ?_⟩
  exact (TaskManifold.meansWhatItSays_iff canonicalToVec fun did announcement hget =>
    (hreceived.aboutItself.known did announcement hget).2).mp hmeans hseveral

end AgentHalo.Discovery
