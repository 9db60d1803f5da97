import Mathlib.Data.Finset.Dedup
import AgentHalo.Discovery.Assembly

/-!
# What a formation promises

A formation should satisfy its manifold (`Satisfied`): the slots have enough different agents, each agent is in date and
offers what its slot asks for, and the limits hold of the latencies and costs as integers. Nothing on the way from the
known agents to the assignments asks whether an announcement has expired, which only `prune_expired` does, and the sums
wrap around. A formation breaks its promise for these two reasons and for no other (`satisfied_iff`).
-/

namespace AgentHalo.Discovery

open AgentDiscovery

variable {P : Platform}

/-! ### Sums -/

theorem toNat_sum (words : List UInt64) : words.sum.toNat = (words.map UInt64.toNat).sum % 2 ^ 64 := by
  induction words with
  | nil => rfl
  | cons word rest ih => rw [List.sum_cons, List.map_cons, List.sum_cons, UInt64.toNat_add, ih, Nat.add_mod_mod]

def exactSum (field : TaskAssignment → UInt64) (assignments : List TaskAssignment) : Nat :=
  (assignments.map fun assignment => (field assignment).toNat).sum

def Within (limit : Option UInt64) (field : TaskAssignment → UInt64) (assignments : List TaskAssignment) : Prop :=
  ∀ most, limit = some most → exactSum field assignments ≤ most.toNat

/-- There is a limit, and the exact sum is too large for 64 bits. -/
def Wraps (limit : Option UInt64) (field : TaskAssignment → UInt64) (assignments : List TaskAssignment) : Prop :=
  limit.isSome = true ∧ 2 ^ 64 ≤ exactSum field assignments

theorem within_iff {limit : Option UInt64} {field : TaskAssignment → UInt64} {assignments : List TaskAssignment}
    (h : ∀ most, limit = some most → (assignments.map field).sum ≤ most) :
    Within limit field assignments ↔ ¬ Wraps limit field assignments := by
  have hsum : (assignments.map field).sum.toNat = exactSum field assignments % 2 ^ 64 := by
    rw [toNat_sum, List.map_map]
    rfl
  constructor
  · rintro hwithin ⟨hlimit, hlarge⟩
    obtain ⟨most, hmost⟩ := Option.isSome_iff_exists.mp hlimit
    exact absurd ((hwithin most hmost).trans_lt most.toNat_lt) (Nat.not_lt.mpr hlarge)
  · intro hnot most hmost
    have hsmall : exactSum field assignments < 2 ^ 64 := by
      by_contra hlarge
      exact hnot ⟨hmost ▸ rfl, Nat.not_lt.mp hlarge⟩
    have hle := UInt64.le_iff_toNat_le.mp (h most hmost)
    rwa [hsum, Nat.mod_eq_of_lt hsmall] at hle

namespace TaskManifold

/-! ### The promise -/

section Promise

variable (manifold : TaskManifold P) (A : Ambient) (discovery : AgentDiscovery P) (now attestationMaxAgeSecs : UInt64)

/-- The agent assigned is known and in date, and it has a specification that answers the query of the slot, with the
latency and the cost recorded. -/
def Provides (slot : CapabilitySlot P) (assignment : TaskAssignment) : Prop :=
  assignment.slotId = slot.slotId ∧ ∃ announcement, discovery.knownAgents[assignment.assignedDid]? = some announcement ∧
    isExpired now announcement = false ∧ ∃ spec ∈ announcement.capabilitySpecs,
      spec.satisfiesAt slot.query now attestationMaxAgeSecs = true ∧ assignment.capabilityId = spec.capabilityId ∧
      assignment.estimatedLatencyMs = spec.metrics.latencyP99Ms ∧
      assignment.costMicrodollars = spec.metrics.costMicrodollars

/-- The formation does what the manifold asks for. -/
structure Satisfied (formation : TaskFormation) : Prop where
  staffed : ∀ slot ∈ manifold.slots, slot.optional = false → ∃ dids : Finset String,
    max 1 slot.redundancy.toNat ≤ dids.card ∧ ∀ did ∈ dids, ∃ assignment ∈ formation.assignments,
      assignment.assignedDid = did ∧ Provides discovery now attestationMaxAgeSecs slot assignment
  served : ∀ assignment ∈ formation.assignments, ∃ slot ∈ manifold.slots,
    Provides discovery now attestationMaxAgeSecs slot assignment
  latency : Within manifold.constraints.maxTotalLatencyMs (·.estimatedLatencyMs) formation.assignments
  cost : Within manifold.constraints.maxTotalCostMicrodollars (·.costMicrodollars) formation.assignments
  distinct : ∀ least, manifold.constraints.minDistinctAgents = some least →
    least.toNat ≤ (formation.assignments.map (·.assignedDid)).toFinset.card

def taken (slot : CapabilitySlot P) : List (AgentAnnouncement P) :=
  (rankedProviders A discovery now attestationMaxAgeSecs slot).take (needed slot)

/-- Nothing stands in the way of assembly, but an agent taken has expired, or a sum that has a limit wraps around. -/
structure Overlooked : Prop where
  assembles : manifold.Assembles A discovery now attestationMaxAgeSecs
  oneAgent : manifold.constraints.requireMutualAttestation = true →
    ∀ left ∈ manifold.chosen A discovery now attestationMaxAgeSecs,
      ∀ right ∈ manifold.chosen A discovery now attestationMaxAgeSecs, left.assignedDid = right.assignedDid
  overlooked : (∃ slot ∈ manifold.slots, ∃ announcement ∈ taken A discovery now attestationMaxAgeSecs slot,
      isExpired now announcement = true) ∨
    Wraps manifold.constraints.maxTotalLatencyMs (·.estimatedLatencyMs)
      (manifold.chosen A discovery now attestationMaxAgeSecs) ∨
    Wraps manifold.constraints.maxTotalCostMicrodollars (·.costMicrodollars)
      (manifold.chosen A discovery now attestationMaxAgeSecs)

end Promise

/-! ### The agents taken -/

section Taken

variable {manifold : TaskManifold P} {A : Ambient} {discovery : AgentDiscovery P} {now attestationMaxAgeSecs : UInt64}
  {slot : CapabilitySlot P} {announcement : AgentAnnouncement P}

theorem mem_assigned_iff {assignment : TaskAssignment} :
    assignment ∈ manifold.assigned A discovery now attestationMaxAgeSecs slot ↔
      ∃ announcement ∈ taken A discovery now attestationMaxAgeSecs slot, ∃ spec,
        bestCapabilityMatch slot.query now attestationMaxAgeSecs announcement = some spec ∧
          manifold.assignment slot announcement.did spec = assignment := by
  unfold assigned taken
  simp only [List.mem_filterMap, Option.map_eq_some_iff]

variable (hdid : ∀ (did : String) announcement, discovery.knownAgents[did]? = some announcement → announcement.did = did)
include hdid

theorem known_of_taken (h : announcement ∈ taken A discovery now attestationMaxAgeSecs slot) :
    discovery.knownAgents[announcement.did]? = some announcement ∧
      ∃ spec, bestCapabilityMatch slot.query now attestationMaxAgeSecs announcement = some spec := by
  obtain ⟨⟨did, hget⟩, hmatch⟩ := mem_rankedProviders.mp (List.mem_of_mem_take h)
  obtain rfl := hdid did announcement hget
  exact ⟨hget, Option.isSome_iff_exists.mp hmatch⟩

theorem nodup_taken : ((taken A discovery now attestationMaxAgeSecs slot).map (·.did)).Nodup := by
  have hkeys : (A.order discovery.knownAgents.keys).Nodup :=
    (A.order_perm _).nodup_iff.mpr Std.ExtTreeMap.nodup_keys
  have hfound (dids : List String) :
      ((dids.filterMap fun did => discovery.knownAgents[did]?).map (·.did)).Sublist dids := by
    induction dids with
    | nil => exact .slnil
    | cons did rest ih =>
      cases hget : discovery.knownAgents[did]? with
      | none =>
        rw [List.filterMap_cons_none hget]
        exact ih.cons did
      | some announcement =>
        rw [List.filterMap_cons_some hget, List.map_cons, hdid did announcement hget]
        exact ih.cons_cons did
  have hranked : ((rankedProviders A discovery now attestationMaxAgeSecs slot).map (·.did)).Nodup := by
    refine ((List.mergeSort_perm _ _).map _).nodup_iff.mpr ?_
    exact ((List.filter_sublist.map _).trans (hfound _)).nodup hkeys
  exact ((List.take_sublist _ _).map _).nodup hranked

theorem provides_assignment {spec : CapabilitySpec P} (h : announcement ∈ taken A discovery now attestationMaxAgeSecs slot)
    (hmatch : bestCapabilityMatch slot.query now attestationMaxAgeSecs announcement = some spec)
    (hlive : isExpired now announcement = false) :
    Provides discovery now attestationMaxAgeSecs slot (manifold.assignment slot announcement.did spec) := by
  have hsatisfies := List.find?_some hmatch
  exact ⟨rfl, announcement, (known_of_taken hdid h).1, hlive, spec, List.mem_of_find?_eq_some hmatch, hsatisfies,
    rfl, rfl, rfl⟩

theorem exists_staff (hslot : slot ∈ manifold.slots)
    (henough : needed slot ≤ (rankedProviders A discovery now attestationMaxAgeSecs slot).length)
    (hlive : ∀ announcement ∈ taken A discovery now attestationMaxAgeSecs slot, isExpired now announcement = false) :
    ∃ dids : Finset String, max 1 slot.redundancy.toNat ≤ dids.card ∧ ∀ did ∈ dids,
      ∃ assignment ∈ manifold.chosen A discovery now attestationMaxAgeSecs, assignment.assignedDid = did ∧
        Provides discovery now attestationMaxAgeSecs slot assignment := by
  refine ⟨((taken A discovery now attestationMaxAgeSecs slot).map (·.did)).toFinset, ?_, fun did hin => ?_⟩
  · rw [List.toFinset_card_of_nodup (nodup_taken hdid), List.length_map, taken, List.length_take_of_le henough]
    have hneeded : needed slot = max slot.redundancy.toNat 1 := UInt32.toNat_max ..
    rw [hneeded, max_comm]
  · obtain ⟨announcement, htaken, rfl⟩ := List.mem_map.mp (List.mem_toFinset.mp hin)
    obtain ⟨-, spec, hmatch⟩ := known_of_taken hdid htaken
    exact ⟨manifold.assignment slot announcement.did spec,
      List.mem_flatMap.mpr ⟨slot, hslot, mem_assigned_iff.mpr ⟨announcement, htaken, spec, hmatch, rfl⟩⟩, rfl,
      provides_assignment hdid htaken hmatch (hlive announcement htaken)⟩

theorem not_provides_of_expired (h : announcement ∈ taken A discovery now attestationMaxAgeSecs slot)
    (hexpired : isExpired now announcement = true) {other : CapabilitySlot P} {assignment : TaskAssignment}
    (hassigned : assignment.assignedDid = announcement.did) :
    ¬ Provides discovery now attestationMaxAgeSecs other assignment := by
  rintro ⟨-, known, hknown, hlive, -⟩
  rw [hassigned, (known_of_taken hdid h).1] at hknown
  obtain rfl := Option.some.inj hknown
  rw [hexpired] at hlive
  cases hlive

end Taken

/-! ### When it is kept -/

section Kept

variable (canonicalToVec : String → List String → Except String Bytes) {manifold : TaskManifold P} {A : Ambient}
  {discovery : AgentDiscovery P} {now attestationMaxAgeSecs : UInt64}

theorem satisfied_of_not_overlooked (hknown : AllAboutItself discovery) {formation : TaskFormation}
    (hnot : ¬ manifold.Overlooked A discovery now attestationMaxAgeSecs)
    (h : manifold.assembleAtomic canonicalToVec A discovery now attestationMaxAgeSecs = .ok formation) :
    manifold.Satisfied discovery now attestationMaxAgeSecs formation := by
  have hdid := fun (did : String) announcement hget => (hknown.known did announcement hget).1
  obtain ⟨hassembles, hassignments, hmutual⟩ := assembleAtomic_ok canonicalToVec
    (fun did announcement hget => (hknown.known did announcement hget).2) h
  rw [hassignments] at hmutual
  have hoverlooked := fun hsome => hnot ⟨hassembles, hmutual, hsome⟩
  have hlive : ∀ slot ∈ manifold.slots, ∀ announcement ∈ taken A discovery now attestationMaxAgeSecs slot,
      isExpired now announcement = false := fun slot hslot announcement htaken =>
    Bool.eq_false_iff.mpr fun hexpired => hoverlooked (.inl ⟨slot, hslot, announcement, htaken, hexpired⟩)
  constructor
  · intro slot hslot hneeded
    rw [hassignments]
    refine exists_staff hdid hslot ?_ (hlive slot hslot)
    exact (hassembles.staffed slot hslot).resolve_left (Bool.eq_false_iff.mp hneeded)
  · intro assignment hin
    rw [hassignments] at hin
    obtain ⟨slot, hslot, hassigned⟩ := List.mem_flatMap.mp hin
    obtain ⟨announcement, htaken, spec, hmatch, rfl⟩ := mem_assigned_iff.mp hassigned
    exact ⟨slot, hslot, provides_assignment hdid htaken hmatch (hlive slot hslot announcement htaken)⟩
  · rw [hassignments]
    exact (within_iff hassembles.latency).mpr fun hwraps => hoverlooked (.inr (.inl hwraps))
  · rw [hassignments]
    exact (within_iff hassembles.cost).mpr fun hwraps => hoverlooked (.inr (.inr hwraps))
  · intro least hleast
    rw [hassignments, List.card_toFinset]
    refine (UInt32.le_iff_toNat_le.mp (hassembles.distinct least hleast)).trans ?_
    rw [UInt32.toNat_ofNat']
    exact Nat.mod_le _ _

theorem Overlooked.not_satisfied (hknown : AllAboutItself discovery)
    (h : manifold.Overlooked A discovery now attestationMaxAgeSecs) :
    ∃ formation, manifold.assembleAtomic canonicalToVec A discovery now attestationMaxAgeSecs = .ok formation ∧
      ¬ manifold.Satisfied discovery now attestationMaxAgeSecs formation := by
  have hdid := fun (did : String) announcement hget => (hknown.known did announcement hget).1
  have habout := fun (did : String) announcement hget => (hknown.known did announcement hget).2
  obtain ⟨formation, hformation⟩ := exists_assembleAtomic canonicalToVec habout h.assembles h.oneAgent
  obtain ⟨-, hassignments, -⟩ := assembleAtomic_ok canonicalToVec habout hformation
  refine ⟨formation, hformation, fun hsatisfied => ?_⟩
  rcases h.overlooked with ⟨slot, hslot, announcement, htaken, hexpired⟩ | hwraps | hwraps
  · obtain ⟨-, spec, hmatch⟩ := known_of_taken hdid htaken
    obtain ⟨other, -, hprovides⟩ := hsatisfied.served (manifold.assignment slot announcement.did spec) (by
      rw [hassignments]
      exact List.mem_flatMap.mpr ⟨slot, hslot, mem_assigned_iff.mpr ⟨announcement, htaken, spec, hmatch, rfl⟩⟩)
    exact not_provides_of_expired hdid htaken hexpired rfl hprovides
  · have hwithin := hsatisfied.latency
    rw [hassignments] at hwithin
    exact (within_iff h.assembles.latency).mp hwithin hwraps
  · have hwithin := hsatisfied.cost
    rw [hassignments] at hwithin
    exact (within_iff h.assembles.cost).mp hwithin hwraps

end Kept

end TaskManifold

/-- **A formation satisfies its manifold**, except where an agent is taken that has expired or a limited sum wraps around. -/
theorem reached_satisfied_iff {W : Wire P} {discovery : AgentDiscovery P} (h : Reached W discovery)
    (canonicalToVec : String → List String → Except String Bytes) (manifold : TaskManifold P) (A : Ambient)
    (now attestationMaxAgeSecs : UInt64) :
    (∀ formation, manifold.assembleAtomic canonicalToVec A discovery now attestationMaxAgeSecs = .ok formation →
        manifold.Satisfied discovery now attestationMaxAgeSecs formation) ↔
      ¬ manifold.Overlooked A discovery now attestationMaxAgeSecs := by
  constructor
  · intro hall hoverlooked
    obtain ⟨formation, hformation, hnot⟩ := hoverlooked.not_satisfied canonicalToVec h.aboutItself
    exact hnot (hall formation hformation)
  · exact fun hnot formation => TaskManifold.satisfied_of_not_overlooked canonicalToVec h.aboutItself hnot

namespace Sample

open Text

/-- A specification that announces a latency of half of what 64 bits hold. -/
def slowSpec : CapabilitySpec .reference :=
  { spec "a" [] with metrics := ⟨0, 0, (0 : Rat), 0, 9223372036854775808, 0, 0, none⟩ }

def slotNamed (slotId : String) : CapabilitySlot .reference := ⟨slotId, query, 1, false⟩

def onceManifold : TaskManifold .reference where
  taskId := "once"
  slots := [slotNamed "prove"]
  constraints := ⟨none, none, none, false⟩
  expiresAt := 5000

/-- A task with two slots and no time for them. -/
def twiceManifold : TaskManifold .reference where
  taskId := "twice"
  slots := [slotNamed "prove", slotNamed "check"]
  constraints := ⟨some 0, none, none, false⟩
  expiresAt := 5000

theorem size_slow_le : size (Json.announcement (signed 1 (draft 1 "peer" 1000 [slowSpec]))) ≤ maxAnnouncementBytes := by
  have hannouncement := size_announcement_le 1 "peer" 1000 [slowSpec]
  have hspecs := size_singleton_le (Json.spec slowSpec)
  have hspec : size (Json.spec slowSpec) ≤ _ := size_spec_le "a" 9223372036854775808 []
  have hwords : size "peer" = 4 ∧ size "a" = 1 ∧ size (toString (1000 : UInt64).toNat) = 4 ∧
      size (toString (9223372036854775808 : UInt64).toNat) = 19 ∧ size (Json.array []) = 2 := by decide
  obtain ⟨hpeer, hid, htime, hlatency, hnone⟩ := hwords
  have hmax : maxAnnouncementBytes = 262144 := by decide
  rw [List.map_nil, hid, hlatency, hnone] at hspec
  rw [List.map_singleton, hpeer, htime] at hannouncement
  -- the texts are not computed
  generalize Json.announcement (signed 1 (draft 1 "peer" 1000 [slowSpec])) = text at *
  generalize Json.array [Json.spec slowSpec] = specs at *
  generalize Json.spec slowSpec = spec at *
  omega

theorem exists_slow : ∃ (W : Wire .reference) (t : AgentDiscovery .reference)
    (stored : AgentAnnouncement .reference), Received W anyMessage t ∧ t.knownAgents.size ≤ 1 ∧
      t.knownAgents[did 1]? = some stored ∧ stored.timestamp = 1000 ∧ stored.ttl = 300 ∧
      stored.capabilitySpecs = [{ slowSpec with metrics := slowSpec.metrics.sanitize }] := by
  obtain ⟨-, -, htime, httl, -⟩ := signed_fields 1 "peer" 1000 [slowSpec]
  obtain ⟨t, hreceives, -, -, hknown⟩ := exists_receives_new (C := anyMessage)
    [signed 1 (draft 1 "peer" 1000 [slowSpec])] (.at 1000) [1] (by decide) size_slow_le
    (List.find?_cons_of_pos (decide_eq_true rfl))
    (validate_draft (by decide) (by decide)) (fresh_draft le_rfl (Nat.le_add_right _ _)) (by simp [slowSpec, spec]) trivial
  have hget := congrArg (fun known => known[did 1]?) hknown
  dsimp only at hget
  rw [OrdMap.get?_insert, if_pos rfl] at hget
  have hclamped : min (signed 1 (draft 1 "peer" 1000 [slowSpec])).ttl maxAnnouncementTtlSecs = 300 := by
    rw [httl]
    decide
  refine ⟨_, t, _, .message .new hreceives, ?_, hget, htime, hclamped, rfl⟩
  rw [hknown]
  exact Std.ExtTreeMap.size_insert_le

section Slow

variable {t : AgentDiscovery .reference} {stored : AgentAnnouncement .reference}
  (hsize : t.knownAgents.size ≤ 1) (hget : t.knownAgents[did 1]? = some stored)
  (hspecs : stored.capabilitySpecs = [{ slowSpec with metrics := slowSpec.metrics.sanitize }]) (now : UInt64)
include hspecs

theorem match_slow : bestCapabilityMatch query now 86400 stored =
    some { slowSpec with metrics := slowSpec.metrics.sanitize } := by
  have hpre : CapabilityDomain.matchesPrefix ⟨"prove", 1⟩ "prove" = true := by decide
  unfold bestCapabilityMatch
  rw [hspecs]
  refine List.find?_cons_of_pos ?_
  unfold CapabilitySpec.satisfiesAt
  change (CapabilityDomain.matchesPrefix ⟨"prove", 1⟩ "prove" && _ && _ && _ && _ && _ && _ && _ && _) = true
  rw [hpre]
  rfl

include hsize hget

theorem ranked_slow (slotId : String) :
    TaskManifold.rankedProviders (.at 1000) t now 86400 (slotNamed slotId) = [stored] := by
  have hmem : stored ∈ TaskManifold.rankedProviders (.at 1000) t now 86400 (slotNamed slotId) :=
    TaskManifold.mem_rankedProviders.mpr ⟨⟨did 1, hget⟩, Option.isSome_iff_exists.mpr ⟨_, match_slow hspecs now⟩⟩
  have hone : (TaskManifold.rankedProviders (.at 1000) t now 86400 (slotNamed slotId)).length = 1 :=
    Nat.le_antisymm (TaskManifold.length_rankedProviders_le.trans hsize) (List.length_pos_of_mem hmem)
  obtain ⟨only, honly⟩ := List.length_eq_one_iff.mp hone
  rw [honly] at hmem ⊢
  rw [List.mem_singleton.mp hmem]

theorem taken_slow (slotId : String) :
    TaskManifold.taken (.at 1000) t now 86400 (slotNamed slotId) = [stored] := by
  unfold TaskManifold.taken
  rw [ranked_slow hsize hget hspecs]
  rfl

theorem assigned_slow (manifold : TaskManifold .reference) (slotId : String) :
    manifold.assigned (.at 1000) t now 86400 (slotNamed slotId) = [manifold.assignment (slotNamed slotId) stored.did
      { slowSpec with metrics := slowSpec.metrics.sanitize }] := by
  have hmatch : bestCapabilityMatch (slotNamed slotId).query now 86400 stored =
      some { slowSpec with metrics := slowSpec.metrics.sanitize } := match_slow hspecs now
  unfold TaskManifold.assigned
  rw [ranked_slow hsize hget hspecs]
  exact List.filterMap_cons_some (congrArg _ hmatch)

theorem once_assembles (hnow : now ≤ 5000) : onceManifold.Assembles (.at 1000) t now 86400 := by
  refine ⟨hnow, fun slot hslot => .inr ?_, ?_, nofun, nofun, nofun⟩
  · obtain rfl := List.mem_singleton.mp hslot
    rw [ranked_slow hsize hget hspecs]
    exact le_rfl
  · unfold TaskManifold.chosen
    rw [onceManifold, List.flatMap_singleton, assigned_slow hsize hget hspecs]
    exact List.cons_ne_nil _ _

theorem twice_overlooked : twiceManifold.Overlooked (.at 1000) t 1000 86400 := by
  have hhalf : slowSpec.metrics.sanitize.latencyP99Ms = 9223372036854775808 := rfl
  have hword : (9223372036854775808 : UInt64).toNat = 2 ^ 63 := by decide
  have hchosen : twiceManifold.chosen (.at 1000) t 1000 86400 = ["prove", "check"].map fun slotId =>
      twiceManifold.assignment (slotNamed slotId) stored.did
        { slowSpec with metrics := slowSpec.metrics.sanitize } := by
    unfold TaskManifold.chosen
    rw [twiceManifold, List.flatMap_cons, List.flatMap_singleton]
    rw [assigned_slow hsize hget hspecs, assigned_slow hsize hget hspecs]
    rfl
  refine ⟨⟨by decide, fun slot hslot => .inr ?_, ?_, fun most hmost => ?_, nofun, nofun⟩, nofun, .inr (.inl ⟨rfl, ?_⟩)⟩
  · obtain ⟨slotId, rfl⟩ : ∃ slotId, slot = slotNamed slotId := by
      rcases List.mem_cons.mp hslot with rfl | hsecond
      · exact ⟨_, rfl⟩
      · exact ⟨_, List.mem_singleton.mp hsecond⟩
    rw [ranked_slow hsize hget hspecs]
    exact le_rfl
  · rw [hchosen]
    exact List.cons_ne_nil _ _
  · obtain rfl := Option.some.inj hmost
    rw [hchosen]
    simp only [List.map_cons, List.map_nil, List.sum_cons, List.sum_nil, TaskManifold.assignment, hhalf]
    decide
  · rw [hchosen]
    simp only [exactSum, List.map_cons, List.map_nil, List.sum_cons, List.sum_nil, TaskManifold.assignment, hhalf, hword]
    decide

end Slow

end Sample

/-- At a time when its announcement is in date, the agent does what it is assigned to. -/
theorem sample_satisfied : ∃ (W : Wire .reference) (t : AgentDiscovery .reference), Reached W t ∧
    ∀ canonicalToVec : String → List String → Except String Bytes, ∃ formation,
      Sample.onceManifold.assembleAtomic canonicalToVec (.at 1000) t 1000 86400 = .ok formation ∧
        Sample.onceManifold.Satisfied t 1000 86400 formation := by
  obtain ⟨W, t, stored, hreceived, hsize, hget, htime, httl, hspecs⟩ := Sample.exists_slow
  have hassembles := Sample.once_assembles hsize hget hspecs 1000 (by decide)
  have hlive : isExpired 1000 stored = false := isExpired_eq_false (UInt64.le_of_eq htime.symm)
  have hnot : ¬ Sample.onceManifold.Overlooked (.at 1000) t 1000 86400 := by
    rintro ⟨-, -, ⟨slot, hslot, announcement, htaken, hexpired⟩ | ⟨hlimit, -⟩ | ⟨hlimit, -⟩⟩
    · obtain rfl := List.mem_singleton.mp hslot
      rw [Sample.taken_slow hsize hget hspecs, List.mem_singleton] at htaken
      rw [htaken, hlive] at hexpired
      cases hexpired
    · cases hlimit
    · cases hlimit
  refine ⟨W, t, hreceived.reached, fun canonicalToVec => ?_⟩
  obtain ⟨formation, hformation⟩ := TaskManifold.exists_assembleAtomic canonicalToVec
    (fun did announcement hknown => (hreceived.aboutItself.known did announcement hknown).2) hassembles nofun
  exact ⟨formation, hformation, (reached_satisfied_iff hreceived.reached canonicalToVec Sample.onceManifold (.at 1000)
    1000 86400).mpr hnot formation hformation⟩

/-- A formation with an agent that is no longer in date, and a formation that takes more time than there is. -/
theorem sample_overlooked : ∃ (W : Wire .reference) (t : AgentDiscovery .reference),
    Received W anyMessage t ∧ ∀ canonicalToVec : String → List String → Except String Bytes,
      (∃ formation, Sample.onceManifold.assembleAtomic canonicalToVec (.at 1000) t 2000 86400 = .ok formation ∧
        ¬ Sample.onceManifold.Satisfied t 2000 86400 formation) ∧
      ∃ formation, Sample.twiceManifold.assembleAtomic canonicalToVec (.at 1000) t 1000 86400 = .ok formation ∧
        ¬ Sample.twiceManifold.Satisfied t 1000 86400 formation := by
  obtain ⟨W, t, stored, hreceived, hsize, hget, htime, httl, hspecs⟩ := Sample.exists_slow
  have hexpired : isExpired 2000 stored = true := by
    unfold isExpired
    rw [htime, httl]
    decide
  have honce : Sample.onceManifold.Overlooked (.at 1000) t 2000 86400 := by
    refine ⟨Sample.once_assembles hsize hget hspecs 2000 (by decide), nofun,
      .inl ⟨_, List.mem_singleton_self _, stored, ?_, hexpired⟩⟩
    rw [Sample.taken_slow hsize hget hspecs]
    exact List.mem_singleton_self stored
  exact ⟨W, t, hreceived, fun canonicalToVec => ⟨honce.not_satisfied canonicalToVec hreceived.aboutItself,
    (Sample.twice_overlooked hsize hget hspecs).not_satisfied canonicalToVec hreceived.aboutItself⟩⟩

end AgentHalo.Discovery
