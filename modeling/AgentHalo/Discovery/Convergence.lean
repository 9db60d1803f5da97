import AgentHalo.Discovery.Ingestion
import AgentHalo.Discovery.Signing

/-!
# The order of arrival

An attestation is decided on arrival, or later, when its attester arrives. The two ways do not come to the same. The late
one passes over an attestation that is out of date, an answer to a challenge that has been answered, and one in a
specification whose capability has another specification before it. `orderFree_iff_timely_and_unambiguous` says that
nothing else makes the order of arrival matter.
-/

namespace AgentHalo.Discovery

open Pod (DIDDocument)
open AgentDiscovery

variable {P : Platform}

/-- The same but for the order and the number of attestations. -/
def SameSpec (spec spec' : CapabilitySpec P) : Prop :=
  spec' = { spec with attestations := spec'.attestations } ∧
    ∀ attestation, attestation ∈ spec.attestations ↔ attestation ∈ spec'.attestations

def SameAnnouncement (announcement announcement' : AgentAnnouncement P) : Prop :=
  announcement' = { announcement with capabilitySpecs := announcement'.capabilitySpecs } ∧
    List.Forall₂ SameSpec announcement.capabilitySpecs announcement'.capabilitySpecs

/-- The same agents are known, and the same attestations wait. -/
structure SameDiscovery (s t : AgentDiscovery P) : Prop where
  known : ∀ did : String, Option.Rel SameAnnouncement s.knownAgents[did]? t.knownAgents[did]?
  pending : s.pendingAttestations = t.pendingAttestations

/-- The result does not depend on the order of arrival. -/
def OrderFree (W : Wire P) (now : UInt64) (resolveDocument : Resolver) (announcements : List (AgentAnnouncement P)) :
    Prop :=
  ∀ order order' : List (AgentAnnouncement P), order.Perm announcements → order'.Perm announcements →
    ∀ s t : AgentDiscovery P, Ingested W now resolveDocument order s → Ingested W now resolveDocument order' t →
      SameDiscovery s t

section Orders

variable {W : Wire P} {now : UInt64} {resolveDocument : Resolver} {arrived announcements : List (AgentAnnouncement P)}
  {s t : AgentDiscovery P} {subject : AgentAnnouncement P} {attestation : CapabilityAttestation}

/-! ### What an order comes to -/

/-- The attestations of the specification in one place, from those that came before its agent and those that came after. -/
def attestationsAfter (W : Wire P) (now : UInt64) (resolveDocument : Resolver) (earlier : List (AgentAnnouncement P))
    (subject : AgentAnnouncement P) (later : List (AgentAnnouncement P)) (place : Nat) (spec : CapabilitySpec P) :
    List CapabilityAttestation :=
  later.foldl (fun before attester => ((answersOf now resolveDocument subject attester).filter
    (goesTo (verifiedBy W attester) (subject.capabilitySpecs.map (·.capabilityId)) place spec.capabilityId)).foldl
      joinFreely before) (keptSpec W (documentAfter resolveDocument earlier) subject.did spec).attestations

theorem specsAfter_getElem? (earlier : List (AgentAnnouncement P)) (subject : AgentAnnouncement P)
    (later : List (AgentAnnouncement P)) (place : Nat) :
    (specsAfter W now resolveDocument earlier subject later)[place]? = subject.capabilitySpecs[place]?.map fun spec =>
      { spec with
        metrics := spec.metrics.sanitize
        attestations := attestationsAfter W now resolveDocument earlier subject later place spec } := by
  have hids : (subject.capabilitySpecs.map (keptSpec W (documentAfter resolveDocument earlier) subject.did)).map
      (·.capabilityId) = subject.capabilitySpecs.map (·.capabilityId) := by
    rw [List.map_map]
    rfl
  rw [specsAfter, foldl_joinedAll_getElem?, hids, List.getElem?_map, Option.map_map]
  rfl

theorem documentAfter_of_mem {attester : AgentAnnouncement P} (hdistinct : (arrived.map (·.did)).Nodup)
    (hin : attester ∈ arrived) (hdocument : attester.didDocument.isSome = true) :
    documentAfter resolveDocument arrived attester.did = attester.didDocument := by
  obtain ⟨document, hdocument⟩ := Option.isSome_iff_exists.mp hdocument
  have hfind : arrived.find? (·.did = attester.did) = some attester := by
    cases hfound : arrived.find? (·.did = attester.did) with
    | none => exact absurd (List.mem_map_of_mem hin) (not_mem_of_find? hfound)
    | some other =>
      rw [List.inj_on_of_nodup_map hdistinct (List.mem_of_find?_eq_some hfound) hin (did_of_find? hfound)]
  rw [documentAfter, hfind, Option.bind_some, hdocument]
  rfl

theorem documentAfter_of_not_mem {did : String} (hout : did ∉ arrived.map (·.did)) :
    documentAfter resolveDocument arrived did = resolveDocument did := by
  have hfind : arrived.find? (·.did = did) = none := by
    refine List.find?_eq_none.mpr fun announcement hin hdid => hout ?_
    exact List.mem_map.mpr ⟨announcement, hin, of_decide_eq_true hdid⟩
  rw [documentAfter, hfind]
  rfl

theorem mem_keptSpec {documents : String → Option DIDDocument} {subjectDid : String} {spec : CapabilitySpec P} :
    attestation ∈ (keptSpec W documents subjectDid spec).attestations ↔ attestation ∈ spec.attestations ∧
      eligible subjectDid spec.capabilityId attestation = true ∧
        (documents attestation.attesterDid).any (attested W attestation) = true := by
  rw [keptSpec, List.mem_filter, Bool.and_eq_true]

theorem mem_answersOf {attester : AgentAnnouncement P} : attestation ∈ answersOf now resolveDocument subject attester ↔
    attestation ∈ queue now resolveDocument subject ∧ attestation.attesterDid = attester.did := by
  rw [answersOf, List.mem_filter, decide_eq_true_eq]

theorem mem_attestationsAfter {earlier later : List (AgentAnnouncement P)} {place : Nat} {spec : CapabilitySpec P}
    (hdistinct : ((earlier ++ subject :: later).map (·.did)).Nodup) :
    attestation ∈ attestationsAfter W now resolveDocument earlier subject later place spec ↔
      attestation ∈ (keptSpec W (documentAfter resolveDocument earlier) subject.did spec).attestations ∨
        ∃ attester ∈ later, ((answersOf now resolveDocument subject attester).filter (goesTo (verifiedBy W attester)
          (subject.capabilitySpecs.map (·.capabilityId)) place spec.capabilityId)).find? (sameAnswer · attestation) =
            some attestation := by
  rw [List.map_append, List.map_cons] at hdistinct
  obtain ⟨-, hrest, happart⟩ := List.nodup_append.mp hdistinct
  refine mem_foldl_answers (List.nodup_cons.mp hrest).2 (fun attester _ answer hanswer => ?_)
    fun attester hattester answer hanswer existing hexisting => ?_
  · exact (mem_answersOf.mp (List.mem_filter.mp hanswer).1).2
  · -- The attester has no document yet when the subject arrives.
    obtain ⟨hqueue, hdid⟩ := mem_answersOf.mp (List.mem_filter.mp hanswer).1
    obtain ⟨-, -, -, -, hresolve, -⟩ := mem_queue.mp hqueue
    intro heq
    have hout : answer.attesterDid ∉ earlier.map (·.did) := fun hin =>
      happart _ hin _ (List.mem_cons_of_mem _ (List.mem_map_of_mem hattester)) hdid
    obtain ⟨-, -, hany⟩ := mem_keptSpec.mp hexisting
    rw [heq, documentAfter_of_not_mem hout, hresolve] at hany
    cases hany

section Places

variable {earlier later : List (AgentAnnouncement P)} {attester : AgentAnnouncement P} {place : Nat}
  {spec : CapabilitySpec P} (hdistinct : ((earlier ++ subject :: later).map (·.did)).Nodup)
  (hattester : attestation.attesterDid = attester.did)
include hdistinct

theorem joined_later (h : ∃ attester ∈ later, ((answersOf now resolveDocument subject attester).filter
    (goesTo (verifiedBy W attester) (subject.capabilitySpecs.map (·.capabilityId)) place spec.capabilityId)).find?
      (sameAnswer · attestation) = some attestation) :
    attestation.attesterDid ∈ later.map (·.did) ∧ attestation.attesterDid ∉ earlier.map (·.did) ∧
      resolveDocument attestation.attesterDid = none := by
  obtain ⟨attester, hin, hfind⟩ := h
  obtain ⟨hqueue, hdid⟩ := mem_answersOf.mp (List.mem_filter.mp (List.mem_of_find?_eq_some hfind)).1
  obtain ⟨-, -, -, -, hresolve, -⟩ := mem_queue.mp hqueue
  have hlater : attestation.attesterDid ∈ later.map (·.did) := hdid ▸ List.mem_map_of_mem hin
  rw [List.map_append, List.map_cons] at hdistinct
  refine ⟨hlater, fun hearlier => ?_, hresolve⟩
  exact (List.nodup_append.mp hdistinct).2.2 _ hearlier _ (List.mem_cons_of_mem _ hlater) rfl

theorem mem_of_not_later (hout : attestation.attesterDid ∉ later.map (·.did)) :
    attestation ∈ attestationsAfter W now resolveDocument earlier subject later place spec ↔
      attestation ∈ (keptSpec W (documentAfter resolveDocument earlier) subject.did spec).attestations :=
  (mem_attestationsAfter hdistinct).trans (or_iff_left fun h => hout (joined_later hdistinct h).1)

theorem mem_of_resolved (hresolve : resolveDocument attestation.attesterDid ≠ none) :
    attestation ∈ attestationsAfter W now resolveDocument earlier subject later place spec ↔
      attestation ∈ (keptSpec W (documentAfter resolveDocument earlier) subject.did spec).attestations :=
  (mem_attestationsAfter hdistinct).trans (or_iff_left fun h => hresolve (joined_later hdistinct h).2.2)

include hattester

theorem mem_of_later (hin : attester ∈ later) (hresolve : resolveDocument attester.did = none) :
    attestation ∈ attestationsAfter W now resolveDocument earlier subject later place spec ↔
      ((answersOf now resolveDocument subject attester).filter (goesTo (verifiedBy W attester)
        (subject.capabilitySpecs.map (·.capabilityId)) place spec.capabilityId)).find? (sameAnswer · attestation) =
          some attestation := by
  have hapart := hdistinct
  rw [List.map_append, List.map_cons] at hapart
  obtain ⟨-, hnodup, happart⟩ := List.nodup_append.mp hapart
  rw [mem_attestationsAfter hdistinct]
  constructor
  · rintro (hkept | ⟨other, hother, hfind⟩)
    · obtain ⟨-, -, hany⟩ := mem_keptSpec.mp hkept
      have hout : attester.did ∉ earlier.map (·.did) := fun hearlier =>
        happart _ hearlier _ (List.mem_cons_of_mem _ (List.mem_map_of_mem hin)) rfl
      rw [hattester, documentAfter_of_not_mem hout, hresolve] at hany
      cases hany
    · have hdid := (mem_answersOf.mp (List.mem_filter.mp (List.mem_of_find?_eq_some hfind)).1).2
      obtain rfl := List.inj_on_of_nodup_map (List.nodup_cons.mp hnodup).2 hother hin (hdid.symm.trans hattester)
      exact hfind
  · exact fun hfind => .inr ⟨attester, hin, hfind⟩

end Places

/-- The specification of the subject has an attestation by the attester that nothing but its signatures can fault. -/
def Answers (attester subject : AgentAnnouncement P) (spec : CapabilitySpec P) (attestation : CapabilityAttestation) :
    Prop :=
  attestation ∈ spec.attestations ∧ eligible subject.did spec.capabilityId attestation = true ∧
    attestation.attesterDid = attester.did

/-- What may have to wait for its attester is recent, and an attester that is resolved is resolved to the document that
it announces, as far as its attestations tell. -/
def Timely (W : Wire P) (now : UInt64) (resolveDocument : Resolver) (announcements : List (AgentAnnouncement P)) :
    Prop :=
  ∀ attester ∈ announcements, ∀ subject ∈ announcements, ∀ spec ∈ subject.capabilitySpecs, ∀ attestation,
    Answers attester subject spec attestation →
      match resolveDocument attester.did with
      | none => verifiedBy W attester attestation = true → recent now attestation = true
      | some document => attested W attestation document = verifiedBy W attester attestation

/-- What may have to wait for its attester is in the first specification for its capability, and is the only answer to
its challenge there. -/
structure Unambiguous (W : Wire P) (resolveDocument : Resolver) (announcements : List (AgentAnnouncement P)) : Prop where
  place : ∀ attester ∈ announcements, resolveDocument attester.did = none → ∀ subject ∈ announcements,
    ∀ (place : Nat) (spec : CapabilitySpec P), subject.capabilitySpecs[place]? = some spec → ∀ attestation,
      Answers attester subject spec attestation → verifiedBy W attester attestation = true →
        spec.capabilityId ∉ (subject.capabilitySpecs.map (·.capabilityId)).take place
  challenge : ∀ attester ∈ announcements, resolveDocument attester.did = none → ∀ subject ∈ announcements,
    ∀ spec ∈ subject.capabilitySpecs, ∀ first second, Answers attester subject spec first →
      verifiedBy W attester first = true → Answers attester subject spec second →
        verifiedBy W attester second = true → sameAnswer first second = true → first = second

theorem Answers.ne {attester : AgentAnnouncement P} {spec : CapabilitySpec P} (h : Answers attester subject spec attestation) :
    attester.did ≠ subject.did := by
  obtain ⟨-, heligible, hdid⟩ := h
  obtain ⟨-, -, -, hne, -, -, hsubject⟩ := eligible_iff.mp heligible
  rw [← hdid, ← hsubject]
  exact hne

theorem first_unique {ids : List String} {place place' : Nat} {capabilityId : String}
    (h : ids[place]? = some capabilityId) (h' : ids[place']? = some capabilityId)
    (hfirst : capabilityId ∉ ids.take place) (hfirst' : capabilityId ∉ ids.take place') : place = place' := by
  have hearlier : ∀ {early late : Nat}, ids[early]? = some capabilityId → early < late → capabilityId ∈ ids.take late := by
    intro early late hget hlt
    refine List.mem_of_getElem? (i := early) ?_
    rw [List.getElem?_take_of_lt hlt, hget]
  rcases Nat.lt_trichotomy place place' with hlt | heq | hgt
  · exact absurd (hearlier h hlt) hfirst'
  · exact heq
  · exact absurd (hearlier h' hgt) hfirst

theorem Unambiguous.mem_filter {attester : AgentAnnouncement P} {place : Nat} {spec : CapabilitySpec P}
    (hU : Unambiguous W resolveDocument announcements) (hattester : attester ∈ announcements)
    (hresolve : resolveDocument attester.did = none) (hsubject : subject ∈ announcements)
    (hspec : subject.capabilitySpecs[place]? = some spec)
    (h : attestation ∈ (answersOf now resolveDocument subject attester).filter (goesTo (verifiedBy W attester)
      (subject.capabilitySpecs.map (·.capabilityId)) place spec.capabilityId)) :
    Answers attester subject spec attestation ∧ verifiedBy W attester attestation = true := by
  obtain ⟨hanswers, hgoes⟩ := List.mem_filter.mp h
  obtain ⟨hqueue, hdid⟩ := mem_answersOf.mp hanswers
  obtain ⟨spec', hspec', hin, heligible, -, -⟩ := mem_queue.mp hqueue
  rw [goesTo, Bool.and_eq_true, Bool.and_eq_true, decide_eq_true_eq, Bool.not_eq_true', ← Bool.not_eq_true,
    List.contains_iff_mem] at hgoes
  obtain ⟨⟨hid, hfirst⟩, hverified⟩ := hgoes
  have hid' : spec'.capabilityId = spec.capabilityId := (eligible_iff.mp heligible).2.1.symm.trans hid
  obtain ⟨place', hplace'⟩ := List.mem_iff_getElem?.mp hspec'
  have hfirst' := hU.place attester hattester hresolve subject hsubject place' spec' hplace' attestation
    ⟨hin, heligible, hdid⟩ hverified
  rw [hid'] at hfirst'
  -- Both specifications are the first for the capability, so they are one.
  have hplaces : place = place' := first_unique (by rw [List.getElem?_map, hspec]; rfl)
    (by rw [List.getElem?_map, hplace', Option.map_some, hid']) hfirst hfirst'
  rw [← hplaces, hspec] at hplace'
  obtain rfl := Option.some.inj hplace'
  exact ⟨⟨hin, heligible, hdid⟩, hverified⟩

theorem mem_keptSpec_iff {documents : String → Option DIDDocument} {attester : AgentAnnouncement P}
    {spec : CapabilitySpec P} (hdid : attestation.attesterDid = attester.did)
    (hdocument : documents attester.did = attester.didDocument) :
    attestation ∈ (keptSpec W documents subject.did spec).attestations ↔
      Answers attester subject spec attestation ∧ verifiedBy W attester attestation = true := by
  rw [mem_keptSpec, hdid, hdocument, verifiedBy, Answers, hdid]
  simp only [and_true, and_assoc]

theorem Unambiguous.find? {attester : AgentAnnouncement P} {place : Nat} {spec : CapabilitySpec P}
    (hU : Unambiguous W resolveDocument announcements) (hT : Timely W now resolveDocument announcements)
    (hattester : attester ∈ announcements) (hresolve : resolveDocument attester.did = none)
    (hsubject : subject ∈ announcements) (hspec : subject.capabilitySpecs[place]? = some spec) :
    ((answersOf now resolveDocument subject attester).filter (goesTo (verifiedBy W attester)
        (subject.capabilitySpecs.map (·.capabilityId)) place spec.capabilityId)).find? (sameAnswer · attestation) =
          some attestation ↔
      Answers attester subject spec attestation ∧ verifiedBy W attester attestation = true := by
  refine ⟨fun hfind => hU.mem_filter hattester hresolve hsubject hspec (List.mem_of_find?_eq_some hfind), ?_⟩
  rintro ⟨hanswers, hverified⟩
  have hmem : spec ∈ subject.capabilitySpecs := List.mem_of_getElem? hspec
  have hrecent := hT attester hattester subject hsubject spec hmem attestation hanswers
  rw [hresolve] at hrecent
  have hfirst := hU.place attester hattester hresolve subject hsubject place spec hspec attestation hanswers hverified
  have hqueue : attestation ∈ queue now resolveDocument subject :=
    mem_queue.mpr ⟨spec, hmem, hanswers.1, hanswers.2.1, hanswers.2.2 ▸ hresolve, hrecent hverified⟩
  have hin : attestation ∈ (answersOf now resolveDocument subject attester).filter (goesTo (verifiedBy W attester)
      (subject.capabilitySpecs.map (·.capabilityId)) place spec.capabilityId) := by
    refine List.mem_filter.mpr ⟨mem_answersOf.mpr ⟨hqueue, hanswers.2.2⟩, ?_⟩
    have hid := (eligible_iff.mp hanswers.2.1).2.1
    simp only [goesTo, hid, decide_true, hverified, Bool.and_true, Bool.true_and, Bool.not_eq_true', ← Bool.not_eq_true,
      List.contains_iff_mem]
    exact hfirst
  obtain ⟨found, hfound⟩ := Option.isSome_iff_exists.mp
    (List.find?_isSome (p := (sameAnswer · attestation)).mpr ⟨attestation, hin, sameAnswer_self attestation⟩)
  obtain ⟨hanswers', hverified'⟩ :=
    hU.mem_filter hattester hresolve hsubject hspec (List.mem_of_find?_eq_some hfound)
  have hsame : sameAnswer found attestation = true := List.find?_some (p := (sameAnswer · attestation)) hfound
  rw [hfound, hU.challenge attester hattester hresolve subject hsubject spec hmem found attestation hanswers' hverified'
    hanswers hverified hsame]

theorem mem_attestationsAfter_iff {earlier later : List (AgentAnnouncement P)} {place : Nat} {spec : CapabilitySpec P}
    (hI : Ingestible W now resolveDocument announcements) (hU : Unambiguous W resolveDocument announcements)
    (hT : Timely W now resolveDocument announcements) (hperm : (earlier ++ subject :: later).Perm announcements)
    (hspec : subject.capabilitySpecs[place]? = some spec) :
    attestation ∈ attestationsAfter W now resolveDocument earlier subject later place spec ↔
      attestation ∈ (keptSpec W (documentAfter resolveDocument announcements) subject.did spec).attestations := by
  have hdistinct := (hperm.map (·.did)).nodup_iff.mpr hI.distinct
  have hsubject : subject ∈ announcements := hperm.subset (List.mem_append_right _ List.mem_cons_self)
  have hapart := hdistinct
  rw [List.map_append, List.map_cons] at hapart
  obtain ⟨hearlierDistinct, hrest, happart⟩ := List.nodup_append.mp hapart
  by_cases hknown : attestation.attesterDid ∈ announcements.map (·.did)
  · obtain ⟨attester, hattester, hdid⟩ := List.mem_map.mp hknown
    have hdocument := hI.documents attester hattester
    rw [mem_keptSpec_iff hdid.symm (documentAfter_of_mem hI.distinct hattester hdocument)]
    rcases List.mem_append.mp (hperm.mem_iff.mpr hattester) with hearlier | hlast
    · have hout : attestation.attesterDid ∉ later.map (·.did) := fun hin =>
        happart _ (List.mem_map_of_mem hearlier) _ (List.mem_cons_of_mem _ hin) hdid
      rw [mem_of_not_later hdistinct hout,
        mem_keptSpec_iff hdid.symm (documentAfter_of_mem hearlierDistinct hearlier hdocument)]
    · have hlastDid : attester.did ∈ (subject :: later).map (·.did) := List.mem_map_of_mem hlast
      have hout : attester.did ∉ earlier.map (·.did) := fun hin => happart _ hin _ hlastDid rfl
      rcases List.mem_cons.mp hlast with rfl | hlater
      · -- Nobody attests itself.
        rw [mem_of_not_later hdistinct (hdid ▸ (List.nodup_cons.mp hrest).1), mem_keptSpec]
        refine iff_of_false (fun h => ?_) fun h => h.1.ne rfl
        have hanswers : Answers attester attester spec attestation := ⟨h.1, h.2.1, hdid.symm⟩
        exact hanswers.ne rfl
      · cases hresolve : resolveDocument attester.did with
        | none =>
          rw [mem_of_later hdistinct hdid.symm hlater hresolve]
          exact hU.find? hT hattester hresolve hsubject hspec
        | some document =>
          rw [mem_of_resolved hdistinct (by rw [← hdid, hresolve]; exact Option.some_ne_none document), mem_keptSpec,
            ← hdid, documentAfter_of_not_mem hout, hresolve, Option.any_some]
          have hmem : spec ∈ subject.capabilitySpecs := List.mem_of_getElem? hspec
          have hagree := hT attester hattester subject hsubject spec hmem attestation
          rw [hresolve] at hagree
          constructor
          · rintro ⟨hin, heligible, hattested⟩
            have hanswers : Answers attester subject spec attestation := ⟨hin, heligible, hdid.symm⟩
            exact ⟨hanswers, (hagree hanswers).symm.trans hattested⟩
          · rintro ⟨hanswers, hverified⟩
            exact ⟨hanswers.1, hanswers.2.1, (hagree hanswers).trans hverified⟩
  · have hout : ∀ part : List (AgentAnnouncement P), (∀ other ∈ part, other ∈ announcements) →
        attestation.attesterDid ∉ part.map (·.did) := by
      intro part hpart hin
      obtain ⟨other, hother, hdid⟩ := List.mem_map.mp hin
      exact hknown (List.mem_map.mpr ⟨other, hpart other hother, hdid⟩)
    rw [mem_of_not_later hdistinct
        (hout later fun other hother => hperm.subset (List.mem_append_right _ (List.mem_cons_of_mem _ hother))),
      mem_keptSpec, mem_keptSpec, documentAfter_of_not_mem hknown,
      documentAfter_of_not_mem (hout earlier fun other hother => hperm.subset (List.mem_append_left _ hother))]

theorem forall₂_iff_getElem? {α β : Type*} {R : α → β → Prop} {l : List α} {l' : List β} :
    List.Forall₂ R l l' ↔ ∀ place : Nat, Option.Rel R l[place]? l'[place]? := by
  constructor
  · intro h
    induction h with
    | nil => exact fun _ => .none
    | cons hfirst hrest ih =>
      intro place
      cases place with
      | zero => exact .some hfirst
      | succ place => exact ih place
  · intro h
    induction l generalizing l' with
    | nil =>
      cases l' with
      | nil => exact .nil
      | cons first rest => cases h 0
    | cons first rest ih =>
      cases l' with
      | nil => cases h 0
      | cons first' rest' =>
        cases h 0 with
        | some hfirst => exact .cons hfirst (ih fun place => h (place + 1))

theorem get?_of_pendingOf (h : Core s) (did : String) : s.pendingAttestations[did]? =
    if s.pendingOf did = [] then none else some (s.pendingOf did) := by
  cases hget : s.pendingAttestations[did]? with
  | none => rw [pendingOf_eq_nil hget, if_pos rfl]
  | some l => rw [pendingOf_of_get? hget, if_neg (h.pended.lists did l hget).nonempty]

theorem Arrived.pending_eq {order order' : List (AgentAnnouncement P)} (h : Arrived W now resolveDocument order s)
    (h' : Arrived W now resolveDocument order' t) (hperm : order.Perm order') :
    s.pendingAttestations = t.pendingAttestations := by
  have hdids : ∀ did, did ∈ order.map (·.did) ↔ did ∈ order'.map (·.did) := fun did => (hperm.map _).mem_iff
  refine Std.ExtTreeMap.ext_getElem? fun did => ?_
  rw [get?_of_pendingOf h.bounded.toCore, get?_of_pendingOf h'.bounded.toCore]
  suffices hsame : s.pendingOf did = t.pendingOf did by rw [hsame]
  by_cases hin : did ∈ order.map (·.did)
  · obtain ⟨subject, hsubject, rfl⟩ := List.mem_map.mp hin
    rw [h.pending subject hsubject, h'.pending subject (hperm.subset hsubject)]
    refine List.filter_congr fun attestation _ => ?_
    rw [decide_eq_decide, hdids]
  · rw [h.quiet did hin, h'.quiet did ((hdids did).not.mp hin)]

theorem Arrived.known_rel {order order' : List (AgentAnnouncement P)} (h : Arrived W now resolveDocument order s)
    (h' : Arrived W now resolveDocument order' t) (hperm : order.Perm order')
    (hsame : ∀ earlier subject later earlier' later' place spec, order = earlier ++ subject :: later →
      order' = earlier' ++ subject :: later' → subject.capabilitySpecs[place]? = some spec → ∀ attestation,
        attestation ∈ attestationsAfter W now resolveDocument earlier subject later place spec ↔
          attestation ∈ attestationsAfter W now resolveDocument earlier' subject later' place spec) (did : String) :
    Option.Rel SameAnnouncement s.knownAgents[did]? t.knownAgents[did]? := by
  by_cases hin : did ∈ order.map (·.did)
  · obtain ⟨subject, hsubject, rfl⟩ := List.mem_map.mp hin
    obtain ⟨earlier, later, hsplit⟩ := List.append_of_mem hsubject
    obtain ⟨earlier', later', hsplit'⟩ := List.append_of_mem (hperm.subset hsubject)
    rw [h.known earlier subject later hsplit, h'.known earlier' subject later' hsplit']
    refine .some ⟨rfl, forall₂_iff_getElem?.mpr fun place => ?_⟩
    dsimp only
    rw [specsAfter_getElem?, specsAfter_getElem?]
    cases hspec : subject.capabilitySpecs[place]? with
    | none => exact .none
    | some spec => exact .some ⟨rfl, hsame earlier subject later earlier' later' place spec hsplit hsplit' hspec⟩
  · rw [h.unknown did hin, h'.unknown did (((hperm.map _).mem_iff).not.mp hin)]
    exact .none

theorem OrderFree.mem_iff {earlier later earlier' later' : List (AgentAnnouncement P)} {place : Nat}
    {spec : CapabilitySpec P} (hI : Ingestible W now resolveDocument announcements)
    (h : OrderFree W now resolveDocument announcements) (hperm : (earlier ++ subject :: later).Perm announcements)
    (hperm' : (earlier' ++ subject :: later').Perm announcements)
    (hspec : subject.capabilitySpecs[place]? = some spec) :
    attestation ∈ attestationsAfter W now resolveDocument earlier subject later place spec ↔
      attestation ∈ attestationsAfter W now resolveDocument earlier' subject later' place spec := by
  have hall : ∀ {order : List (AgentAnnouncement P)}, order.Perm announcements → ∃ s,
      Ingested W now resolveDocument order s ∧ Arrived W now resolveDocument order s := by
    intro order hperm
    rw [← List.append_nil order] at hperm
    obtain ⟨s, hs⟩ := exists_ingested hI hperm
    exact ⟨s, hs, hs.closedForm hI hperm⟩
  obtain ⟨s, hs, harrived⟩ := hall hperm
  obtain ⟨t, ht, harrived'⟩ := hall hperm'
  have hknown := (h _ _ hperm hperm' s t hs ht).known subject.did
  rw [harrived.known earlier subject later rfl, harrived'.known earlier' subject later' rfl] at hknown
  cases hknown with
  | some hsame =>
    have hplace := forall₂_iff_getElem?.mp hsame.2 place
    dsimp only at hplace
    rw [specsAfter_getElem?, specsAfter_getElem?, hspec] at hplace
    cases hplace with
    | some hspecs => exact hspecs.2 attestation

theorem exists_orders {attester : AgentAnnouncement P} (hattester : attester ∈ announcements)
    (hsubject : subject ∈ announcements) (hne : attester ≠ subject) :
    ∃ rest, (attester :: subject :: rest).Perm announcements ∧ (subject :: attester :: rest).Perm announcements := by
  obtain ⟨front, back, rfl⟩ := List.append_of_mem hattester
  have hperm : (front ++ attester :: back).Perm (attester :: (front ++ back)) := List.perm_middle
  have hin : subject ∈ front ++ back := (List.mem_cons.mp (hperm.subset hsubject)).resolve_left (Ne.symm hne)
  obtain ⟨front', back', hsplit⟩ := List.append_of_mem hin
  rw [hsplit] at hperm
  have hboth : (front ++ attester :: back).Perm (attester :: subject :: (front' ++ back')) :=
    hperm.trans (List.perm_middle.cons attester)
  exact ⟨front' ++ back', hboth.symm, (List.Perm.swap attester subject _).trans hboth.symm⟩

section Attester

variable {attester : AgentAnnouncement P} {place : Nat} {spec : CapabilitySpec P}
  (hI : Ingestible W now resolveDocument announcements) (hfree : OrderFree W now resolveDocument announcements)
  (hattester : attester ∈ announcements) (hsubject : subject ∈ announcements)
  (hspec : subject.capabilitySpecs[place]? = some spec) (hanswers : Answers attester subject spec attestation)
include hI hfree hattester hsubject hspec hanswers

theorem OrderFree.verified_iff : ∃ rest : List (AgentAnnouncement P),
    ((([] : List (AgentAnnouncement P)) ++ subject :: attester :: rest).map (·.did)).Nodup ∧
    (attestation ∈ attestationsAfter W now resolveDocument [] subject (attester :: rest) place spec ↔
      verifiedBy W attester attestation = true) := by
  have hne : attester ≠ subject := fun heq => hanswers.ne (congrArg (·.did) heq)
  obtain ⟨rest, hperm, hperm'⟩ := exists_orders hattester hsubject hne
  have hdistinct : (([attester] ++ subject :: rest).map (·.did)).Nodup :=
    (hperm.map (·.did)).nodup_iff.mpr hI.distinct
  have hfirst : attestation ∈ attestationsAfter W now resolveDocument [attester] subject rest place spec ↔
      verifiedBy W attester attestation = true := by
    have hout : attestation.attesterDid ∉ rest.map (·.did) := by
      rw [hanswers.2.2]
      exact fun hin => (List.nodup_cons.mp hdistinct).1 (List.mem_cons_of_mem _ hin)
    have hdocument : documentAfter resolveDocument [attester] attester.did = attester.didDocument :=
      documentAfter_of_mem (List.nodup_singleton _) (List.mem_singleton_self _) (hI.documents attester hattester)
    rw [mem_of_not_later hdistinct hout, mem_keptSpec_iff hanswers.2.2 hdocument]
    exact and_iff_right hanswers
  have hlast : ([] ++ subject :: attester :: rest).Perm announcements := hperm'
  have hfront : ([attester] ++ subject :: rest).Perm announcements := hperm
  refine ⟨rest, (hlast.map (·.did)).nodup_iff.mpr hI.distinct, ?_⟩
  rw [← hfirst]
  exact hfree.mem_iff hI hlast hfront hspec

theorem OrderFree.find? (hresolve : resolveDocument attester.did = none)
    (hverified : verifiedBy W attester attestation = true) :
    ((answersOf now resolveDocument subject attester).filter (goesTo (verifiedBy W attester)
      (subject.capabilitySpecs.map (·.capabilityId)) place spec.capabilityId)).find? (sameAnswer · attestation) =
        some attestation := by
  obtain ⟨rest, hdistinct, hiff⟩ := hfree.verified_iff hI hattester hsubject hspec hanswers
  exact (mem_of_later hdistinct hanswers.2.2 List.mem_cons_self hresolve).mp (hiff.mpr hverified)

theorem OrderFree.agrees {document : DIDDocument} (hresolve : resolveDocument attester.did = some document) :
    attested W attestation document = verifiedBy W attester attestation := by
  obtain ⟨rest, hdistinct, hiff⟩ := hfree.verified_iff hI hattester hsubject hspec hanswers
  have hdocument : documentAfter resolveDocument ([] : List (AgentAnnouncement P)) attester.did = some document :=
    (documentAfter_of_not_mem List.not_mem_nil).trans hresolve
  rw [mem_of_resolved hdistinct
    (by rw [hanswers.2.2, hresolve]; exact Option.some_ne_none document), mem_keptSpec, hanswers.2.2, hdocument,
    Option.any_some] at hiff
  refine Bool.eq_iff_iff.mpr (Iff.trans ?_ hiff)
  exact ⟨fun hattested => ⟨hanswers.1, hanswers.2.1, hattested⟩, fun h => h.2.2⟩

end Attester

/-- **The order of arrival makes no difference** exactly when what may have to wait is recent, in the first specification
for its capability and the only answer to its challenge, and what is resolved is what is announced. -/
theorem orderFree_iff_timely_and_unambiguous (hI : Ingestible W now resolveDocument announcements) :
    OrderFree W now resolveDocument announcements ↔
      Timely W now resolveDocument announcements ∧ Unambiguous W resolveDocument announcements := by
  constructor
  · refine fun hfree => ⟨?_, ?_, ?_⟩
    · intro attester hattester subject hsubject spec hspec attestation hanswers
      obtain ⟨place, hplace⟩ := List.mem_iff_getElem?.mp hspec
      cases hresolve : resolveDocument attester.did with
      | none =>
        intro hverified
        have hfind := hfree.find? hI hattester hsubject hplace hanswers hresolve hverified
        exact recent_of_mem_queue (mem_answersOf.mp (List.mem_filter.mp (List.mem_of_find?_eq_some hfind)).1).1
      | some document => exact hfree.agrees hI hattester hsubject hplace hanswers hresolve
    · intro attester hattester hresolve subject hsubject place spec hspec attestation hanswers hverified hin
      have hfind := hfree.find? hI hattester hsubject hspec hanswers hresolve hverified
      have hgoes := (List.mem_filter.mp (List.mem_of_find?_eq_some hfind)).2
      simp [goesTo, hin] at hgoes
    · intro attester hattester hresolve subject hsubject spec hspec first second hfirst hverified hsecond hverified' hsame
      obtain ⟨place, hplace⟩ := List.mem_iff_getElem?.mp hspec
      have hfind := hfree.find? hI hattester hsubject hplace hfirst hresolve hverified
      have hfind' := hfree.find? hI hattester hsubject hplace hsecond hresolve hverified'
      have hkey : (sameAnswer · first) = (sameAnswer · second) := by
        funext other
        unfold sameAnswer
        rw [(sameAnswer_iff.mp hsame).1, (sameAnswer_iff.mp hsame).2]
      rw [hkey, hfind'] at hfind
      exact (Option.some.inj hfind).symm
  · rintro ⟨hT, hU⟩ order order' hperm hperm' s t hs ht
    have harrived := hs.closedForm hI (by rw [List.append_nil]; exact hperm)
    have harrived' := ht.closedForm hI (by rw [List.append_nil]; exact hperm')
    refine ⟨harrived.known_rel harrived' (hperm.trans hperm'.symm) ?_,
      harrived.pending_eq harrived' (hperm.trans hperm'.symm)⟩
    rintro earlier subject later earlier' later' place spec rfl rfl hspec attestation
    rw [mem_attestationsAfter_iff hI hU hT hperm hspec, mem_attestationsAfter_iff hI hU hT hperm' hspec]

/-- **The order of arrival**, where what may have to wait is in the first specification for its capability and the only
answer to its challenge: it makes no difference exactly when what may have to wait is recent, and what is resolved is
what is announced. -/
theorem orderFree_iff_timely (hI : Ingestible W now resolveDocument announcements)
    (hU : Unambiguous W resolveDocument announcements) :
    OrderFree W now resolveDocument announcements ↔ Timely W now resolveDocument announcements :=
  (orderFree_iff_timely_and_unambiguous hI).trans (and_iff_left hU)

end Orders

namespace Sample

open Pod (DidCodec reference_mldsa65_correct)

def documented (n : UInt8) (specs : List (CapabilitySpec .reference)) : AgentAnnouncement .reference :=
  signed n { draft n "peer" 100000 specs with didDocument := some (identity n).didDocument }

theorem documented_fields (n : UInt8) (specs : List (CapabilitySpec .reference)) :
    (documented n specs).did = did n ∧ (documented n specs).didDocument = some (identity n).didDocument ∧
      (documented n specs).capabilitySpecs = specs := by
  obtain ⟨-, edSig, pqSig, -, -, hsigned⟩ := signAnnouncement_signed []
    n { draft n "peer" 100000 specs with didDocument := some (identity n).didDocument }
  rw [documented, hsigned]
  exact ⟨rfl, rfl, rfl⟩

theorem documented_valid (n : UInt8) {specs : List (CapabilitySpec .reference)}
    (hlength : specs.length ≤ maxAnnouncedCapabilitySpecs)
    (hattestations : ∀ spec ∈ specs, spec.attestations.length ≤ maxAttestationsPerSpec) :
    verifyIncoming (Wire.reference []) 100000 (fun _ => none) (documented n specs) = .ok () := by
  obtain ⟨hsign, -⟩ := signAnnouncement_signed []
    n { draft n "peer" 100000 specs with didDocument := some (identity n).didDocument }
  have hshape : validateAnnouncementShape (draft n "peer" 100000 specs) = .ok () := validate_draft hlength hattestations
  have hfresh : validateAnnouncementFreshness 100000 (draft n "peer" 100000 specs) = .ok () :=
    fresh_draft le_rfl (Nat.le_add_right _ _)
  refine verifyIncoming_signAnnouncement DidCodec.reference_lawful Reference.ed25519_correct reference_mldsa65_correct
    (identity_wellFormed n) ?_ ?_ ?_ ?_ ?_ hsign
  · rfl
  · rfl
  · exact hshape
  · exact hfresh
  · rfl

/-- An attested agent, and the one that has attested it. -/
def pair (verifiedAt : UInt64) : List (AgentAnnouncement .reference) :=
  [documented 1 [spec "capability" [attestation 2 1 "capability" "challenge" verifiedAt]], documented 2 []]

theorem mem_pair {verifiedAt : UInt64} {subject : AgentAnnouncement .reference}
    {found : CapabilitySpec .reference} (hsubject : subject ∈ pair verifiedAt)
    (hfound : found ∈ subject.capabilitySpecs) :
    subject.capabilitySpecs = [found] ∧ found.attestations = [attestation 2 1 "capability" "challenge" verifiedAt] := by
  rcases List.mem_cons.mp hsubject with rfl | hsecond
  · rw [(documented_fields 1 _).2.2] at hfound ⊢
    rw [List.mem_singleton.mp hfound]
    exact ⟨rfl, rfl⟩
  · rw [List.mem_singleton.mp hsecond, (documented_fields 2 []).2.2] at hfound
    cases hfound

theorem pair_ingestible (verifiedAt : UInt64) :
    Ingestible (Wire.reference []) 100000 (fun _ => none) (pair verifiedAt) := by
  have hA : Acceptable (Wire.reference []) 100000 (fun _ => none) (pair verifiedAt) := by
    refine ⟨fun announcement hin => ?_, fun announcement hin => ?_, ?_⟩
    · rcases List.mem_cons.mp hin with rfl | hsecond
      · refine documented_valid 1 (Nat.succ_le_succ (Nat.zero_le _)) fun found hfound => ?_
        rw [List.mem_singleton.mp hfound]
        exact Nat.succ_le_succ (Nat.zero_le _)
      · rw [List.mem_singleton.mp hsecond]
        exact documented_valid 2 (Nat.zero_le _) nofun
    · rcases List.mem_cons.mp hin with rfl | hsecond
      · rw [(documented_fields 1 _).2.1]
        rfl
      · rw [List.mem_singleton.mp hsecond, (documented_fields 2 []).2.1]
        rfl
    · have hne : Sample.did 1 ≠ Sample.did 2 := fun h => absurd (did_inj h) (by decide)
      rw [pair, List.map_cons, List.map_singleton, (documented_fields 1 _).1, (documented_fields 2 []).1]
      simpa using hne
  refine hA.ingestible (fun subject hsubject found hfound => ?_) fun subject hsubject => ?_
  · rw [(mem_pair hsubject hfound).2]
    exact Nat.succ_le_succ (Nat.zero_le _)
  · rw [queue, List.length_mergeSort]
    cases hspecs : subject.capabilitySpecs with
    | nil =>
      rw [candidates, hspecs]
      exact Nat.zero_le _
    | cons found rest =>
      obtain ⟨hall, hfound⟩ := mem_pair hsubject (hspecs ▸ List.mem_cons_self)
      rw [candidates, hall, List.flatMap_singleton, hfound]
      exact (List.length_filter_le _ _).trans (Nat.succ_le_succ (Nat.zero_le _))

theorem pair_unambiguous (verifiedAt : UInt64) :
    Unambiguous (Wire.reference []) (fun _ => none) (pair verifiedAt) where
  place attester _ _ subject hsubject place found hfound answer _ _ := by
    obtain ⟨hall, -⟩ := mem_pair hsubject (List.mem_of_getElem? hfound)
    rw [hall] at hfound ⊢
    cases place with
    | zero => exact List.not_mem_nil
    | succ place => cases hfound
  challenge attester _ _ subject hsubject found hfound first second hfirst _ hsecond _ _ := by
    obtain ⟨-, hone⟩ := mem_pair hsubject hfound
    have hin := hfirst.1
    have hin' := hsecond.1
    rw [hone] at hin hin'
    rw [List.mem_singleton.mp hin, List.mem_singleton.mp hin']

theorem recent_attestation (attester subject : UInt8) (hne : attester ≠ subject) (capabilityId : String)
    (now verifiedAt : UInt64) : recent now (attestation attester subject capabilityId "challenge" verifiedAt) = true ↔
      age now verifiedAt ≤ maxPendingAttestationAgeSecs := by
  obtain ⟨-, edSig, pqSig, -, -, hresult⟩ :=
    attestCapability_attestation capabilityId "challenge" verifiedAt [] hne
  rw [hresult]
  exact decide_eq_true_iff

theorem verifiedBy_documented (attester subject : UInt8) (hne : attester ≠ subject) (capabilityId : String)
    (verifiedAt : UInt64) : verifiedBy (Wire.reference []) (documented attester [])
      (attestation attester subject capabilityId "challenge" verifiedAt) = true := by
  rw [verifiedBy, (documented_fields attester []).2.1, Option.any_some]
  exact attested_attestation capabilityId "challenge" verifiedAt [] hne

theorem answers_documented (attester subject : UInt8) (hne : attester ≠ subject) (capabilityId : String)
    (verifiedAt : UInt64) (specs : List (CapabilitySpec .reference)) :
    Answers (documented attester []) (documented subject specs)
      (spec capabilityId [attestation attester subject capabilityId "challenge" verifiedAt])
      (attestation attester subject capabilityId "challenge" verifiedAt) := by
  have heligible := eligible_attestation capabilityId "challenge" verifiedAt hne (by decide)
  have hattester : (attestation attester subject capabilityId "challenge" verifiedAt).attesterDid = did attester := rfl
  refine ⟨List.mem_singleton_self _, ?_, ?_⟩
  · rw [(documented_fields subject specs).1]
    exact heligible
  · rw [(documented_fields attester []).1]
    exact hattester

theorem pair_timely (verifiedAt : UInt64) : Timely (Wire.reference []) 100000 (fun _ => none) (pair verifiedAt) ↔
    age 100000 verifiedAt ≤ maxPendingAttestationAgeSecs := by
  rw [← recent_attestation 2 1 (by decide) "capability"]
  constructor
  · intro htimely
    have hmember : documented 2 [] ∈ pair verifiedAt := List.mem_cons_of_mem _ (List.mem_singleton_self _)
    have hin : spec "capability" [attestation 2 1 "capability" "challenge" verifiedAt] ∈
        (documented 1 [spec "capability" [attestation 2 1 "capability" "challenge" verifiedAt]]).capabilitySpecs := by
      rw [(documented_fields 1 _).2.2]
      exact List.mem_singleton_self _
    exact htimely _ hmember _ List.mem_cons_self _ hin _ (answers_documented 2 1 (by decide) "capability" verifiedAt _)
      (verifiedBy_documented 2 1 (by decide) "capability" verifiedAt)
  · intro hrecent attester _ subject hsubject found hfound answer hanswers _
    obtain ⟨-, hone⟩ := mem_pair hsubject hfound
    have hin := hanswers.1
    rw [hone] at hin
    rw [List.mem_singleton.mp hin]
    exact hrecent

end Sample

/-- While the attestation is recent, the order does not matter. -/
theorem sample_orderFree : OrderFree (Wire.reference []) 100000 (fun _ => none) (Sample.pair 99000) :=
  (orderFree_iff_timely (Sample.pair_ingestible 99000) (Sample.pair_unambiguous 99000)).mpr
    ((Sample.pair_timely 99000).mpr (by decide))

/-- Once it is not, it is stored when its attester comes first, and lost when its attester comes second. -/
theorem order_matters : Ingestible (Wire.reference []) 100000 (fun _ => none) (Sample.pair 0) ∧
    ¬ OrderFree (Wire.reference []) 100000 (fun _ => none) (Sample.pair 0) := by
  refine ⟨Sample.pair_ingestible 0, fun hfree => ?_⟩
  have htimely := ((orderFree_iff_timely_and_unambiguous (Sample.pair_ingestible 0)).mp hfree).1
  exact absurd ((Sample.pair_timely 0).mp htimely) (by decide)

end AgentHalo.Discovery
