import AgentHalo.Discovery.Genuine

/-!
# Which announcement is stored

Nothing compares an accepted announcement with the one that is stored, so an older one that is still in date takes the
place of a newer one (`rolled_back`). As long as an agent stays known, its announcement is the one it was or one accepted
since, and it never goes back while nothing older than what is stored is accepted (`stored_last_accepted`).
-/

namespace AgentHalo.Discovery

open Pod (DIDDocument)
open Outcome
open AgentDiscovery

variable {P : Platform} {W : Wire P} {C : Condition P} {s t u : AgentDiscovery P} {did : String}
  {announcement before after : AgentAnnouncement P}

/-- Only the lists of attestations differ. -/
structure SameFields (before after : AgentAnnouncement P) : Prop where
  announcement : after = { before with capabilitySpecs := after.capabilitySpecs }
  specs : List.Forall₂ (fun spec spec' : CapabilitySpec P => spec' = { spec with attestations := spec'.attestations })
    before.capabilitySpecs after.capabilitySpecs

theorem SameFields.refl (before : AgentAnnouncement P) : SameFields before before :=
  ⟨rfl, List.forall₂_same.mpr fun _ _ => rfl⟩

theorem forall₂_compose {R S T : CapabilitySpec P → CapabilitySpec P → Prop} {specs middle last : List (CapabilitySpec P)}
    (hcompose : ∀ a b c, R a b → S b c → T a c) (h : List.Forall₂ R specs middle) (h' : List.Forall₂ S middle last) :
    List.Forall₂ T specs last := by
  refine List.forall₂_iff_get.mpr ⟨h.length_eq.trans h'.length_eq, fun i hi hi' => ?_⟩
  have hmid : i < middle.length := h.length_eq ▸ hi
  exact hcompose _ _ _ ((List.forall₂_iff_get.mp h).2 i hi hmid) ((List.forall₂_iff_get.mp h').2 i hmid hi')

theorem SameFields.trans (h : SameFields before announcement) (h' : SameFields announcement after) :
    SameFields before after where
  announcement := by rw [h'.announcement, h.announcement]
  specs := forall₂_compose (fun a b c hab hbc => by rw [hbc, hab]) h.specs h'.specs

theorem SameFields.timestamp (h : SameFields before after) : after.timestamp = before.timestamp := by
  rw [h.announcement]

theorem SameFields.join (h : SameFields before after) (W : Wire P) (document : DIDDocument)
    (attestation : CapabilityAttestation) : SameFields before
      { after with capabilitySpecs := joinAttestation W document after.capabilitySpecs attestation } where
  announcement := by rw [h.announcement]
  specs := forall₂_joinAttestation (fun spec known _ hknown => by rw [hknown]) W document attestation h.specs

theorem FieldsOf.trans (h : FieldsOf announcement before) (h' : SameFields before after) :
    FieldsOf announcement after where
  announcement := by rw [h'.announcement, h.announcement]
  specs := forall₂_compose (fun a b c hab hbc => by rw [hbc, hab]) h.specs h'.specs

theorem FieldsOf.timestamp (h : FieldsOf announcement after) : after.timestamp = announcement.timestamp := by
  rw [h.announcement]
  rfl

/-! ### One message -/

/-- The announcement is accepted by a clock that reads `now`, and the step stores it. -/
def Accepts (W : Wire P) (C : Condition P) (now : UInt64) (s t : AgentDiscovery P) (announcement : AgentAnnouncement P) :
    Prop :=
  ∃ (A : Ambient) (fuel : Nat) (resolveDocument : Resolver), A.freshness = now ∧ C s A resolveDocument announcement ∧
    verifyIncoming W now resolveDocument announcement = .ok () ∧
    s.upsertVerifiedInner W A fuel (s.sanitized W resolveDocument announcement).1
      (s.sanitized W resolveDocument announcement).2 = some t

theorem Receives.stored_step (hbounded : Bounded s) (h : Receives W C s t) (hbefore : s.knownAgents[did]? = some before)
    (hafter : t.knownAgents[did]? = some after) : SameFields before after ∨
      ∃ now announcement, Accepts W C now s t announcement ∧ announcement.did = did ∧ FieldsOf announcement after := by
  rcases h.cases with rfl | ⟨A, fuel, resolveDocument, announcement, hcondition, hverify, hupsert⟩
  · rw [hbefore, Option.some.injEq] at hafter
    subst hafter
    exact .inl (.refl before)
  · let K (other : String) (known : AgentAnnouncement P) : Prop := other = did →
      SameFields before known ∨ (announcement.did = did ∧ FieldsOf announcement known)
    have hheld : Held K (fun _ _ => True) s := by
      refine ⟨fun other known hknown hother => ?_, fun _ _ _ => trivial⟩
      subst hother
      rw [hbefore, Option.some.injEq] at hknown
      subst hknown
      exact .inl (.refl before)
    have hdid := sanitized_did W s resolveDocument announcement
    have hlater : Held K (fun _ _ => True) t := by
      refine hheld.upsert hbounded (fun hother => ?_) (fun _ _ => trivial) ?_ hupsert
      · exact .inr ⟨hdid.symm.trans hother, .sanitized W s resolveDocument announcement⟩
      · intro document _ other known attestation hknown _ _ hother
        rcases hknown hother with hsame | ⟨hsubject, hfields⟩
        · exact .inl (hsame.join W document attestation)
        · exact .inr ⟨hsubject, hfields.join W document attestation⟩
    rcases hlater.known did after hafter rfl with hsame | ⟨hsubject, hfields⟩
    · exact .inl hsame
    · exact .inr ⟨A.freshness, announcement, ⟨A, fuel, resolveDocument, rfl, hcondition, hverify, hupsert⟩, hsubject,
        hfields⟩

/-! ### Many messages -/

/-- Messages lead from one state to the other, and the agent is known all the while. -/
inductive Stays (W : Wire P) (C : Condition P) (did : String) (s : AgentDiscovery P) : AgentDiscovery P → Prop
  | refl (known : (s.knownAgents[did]?).isSome = true) : Stays W C did s s
  | message {t u : AgentDiscovery P} (stays : Stays W C did s t) (receives : Receives W C t u)
    (known : (u.knownAgents[did]?).isSome = true) : Stays W C did s u

theorem Stays.received (h : Stays W C did s t) (hs : Received W C s) : Received W C t := by
  induction h with
  | refl => exact hs
  | message _ receives _ ih => exact ih.message receives

theorem Stays.isSome (h : Stays W C did s t) : (t.knownAgents[did]?).isSome = true := by
  cases h with
  | refl known => exact known
  | message _ _ known => exact known

/-- An announcement of the agent that is accepted is at least as new as the one that is stored. -/
def noOlder : Condition P := fun s _ _ announcement =>
  ∀ known, s.knownAgents[announcement.did]? = some known → known.timestamp ≤ announcement.timestamp

/-- Accepted on the way from one state to the other, and in date then. -/
structure AcceptedBetween (W : Wire P) (C : Condition P) (did : String) (s t : AgentDiscovery P)
    (announcement : AgentAnnouncement P) : Prop where
  subject : announcement.did = did
  accepted : ∃ now u v, Stays W C did s u ∧ Accepts W C now u v announcement ∧ Stays W C did v t ∧
    age now announcement.timestamp ≤ (boundedAnnouncementTtl announcement.ttl).toNat

theorem Accepts.fresh {now : UInt64} (h : Accepts W C now s t announcement) :
    age now announcement.timestamp ≤ (boundedAnnouncementTtl announcement.ttl).toNat := by
  obtain ⟨-, -, resolveDocument, -, -, hverify, -⟩ := h
  exact validateAnnouncementFreshness_ok (fresh_of_verifyIncoming hverify)

theorem AcceptedBetween.message (h : AcceptedBetween W C did s t announcement) (receives : Receives W C t u)
    (known : (u.knownAgents[did]?).isSome = true) : AcceptedBetween W C did s u announcement := by
  obtain ⟨hsubject, now, u', v, hbefore, haccepts, hafter, hfresh⟩ := h
  exact ⟨hsubject, now, u', v, hbefore, haccepts, .message hafter receives known, hfresh⟩

theorem Stays.stored (hs : Received W C s) (h : Stays W C did s t) (hbefore : s.knownAgents[did]? = some before)
    (hafter : t.knownAgents[did]? = some after) : SameFields before after ∨
      ∃ announcement, AcceptedBetween W C did s t announcement ∧ FieldsOf announcement after := by
  induction h generalizing after with
  | refl =>
    rw [hbefore, Option.some.injEq] at hafter
    subst hafter
    exact .inl (.refl before)
  | message stays receives known ih =>
    obtain ⟨mid, hmid⟩ := Option.isSome_iff_exists.mp stays.isSome
    rcases receives.stored_step (stays.received hs).bounded hmid hafter with hsame |
      ⟨now, announcement, haccepts, hsubject, hfields⟩
    · rcases ih hmid with hsame' | ⟨announcement, hbetween, hfields⟩
      · exact .inl (hsame'.trans hsame)
      · exact .inr ⟨announcement, hbetween.message receives known, hfields.trans hsame⟩
    · exact .inr ⟨announcement, ⟨hsubject, now, _, _, stays, haccepts, .refl known, haccepts.fresh⟩, hfields⟩

theorem Stays.timestamp_le (hs : Received W C s) (hC : ∀ s A resolveDocument announcement,
      C s A resolveDocument announcement → noOlder s A resolveDocument announcement) (h : Stays W C did s t)
    (hbefore : s.knownAgents[did]? = some before) (hafter : t.knownAgents[did]? = some after) :
    before.timestamp ≤ after.timestamp := by
  induction h generalizing after with
  | refl =>
    rw [hbefore, Option.some.injEq] at hafter
    rw [hafter]
    exact UInt64.le_refl _
  | message stays receives known ih =>
    obtain ⟨mid, hmid⟩ := Option.isSome_iff_exists.mp stays.isSome
    refine UInt64.le_trans (ih hmid) ?_
    rcases receives.stored_step (stays.received hs).bounded hmid hafter with hsame |
      ⟨now, announcement, haccepts, hsubject, hfields⟩
    · rw [hsame.timestamp]
      exact UInt64.le_refl _
    · obtain ⟨A, -, resolveDocument, -, hcondition, -⟩ := haccepts
      rw [hfields.timestamp]
      refine hC _ A resolveDocument announcement hcondition mid ?_
      rw [hsubject]
      exact hmid

/-- **The stored announcement is the last one accepted**: as long as an agent stays known it is the one it was, or one
that was accepted in between while it was in date, and its timestamp never decreases if nothing is accepted that is older
than what is stored. -/
theorem stored_last_accepted (hs : Received W C s) (h : Stays W C did s t)
    (hbefore : s.knownAgents[did]? = some before) (hafter : t.knownAgents[did]? = some after) :
    (SameFields before after ∨ ∃ announcement, AcceptedBetween W C did s t announcement ∧ FieldsOf announcement after) ∧
      ((∀ s A resolveDocument announcement, C s A resolveDocument announcement →
        noOlder s A resolveDocument announcement) → before.timestamp ≤ after.timestamp) :=
  ⟨h.stored hs hbefore hafter, fun hC => h.timestamp_le hs hC hbefore hafter⟩

namespace Sample

theorem exists_older : ∃ (W : Wire .reference) (s t : AgentDiscovery .reference)
    (before after : AgentAnnouncement .reference), Received W anyMessage s ∧ Receives W anyMessage s t ∧
      s.knownAgents[Sample.did 1]? = some before ∧ t.knownAgents[Sample.did 1]? = some after ∧ before.timestamp = 1000 ∧
      after.timestamp = 900 := by
  have hwords : size "a" = 1 ∧ size "b" = 1 ∧ size (toString (1000 : UInt64).toNat) = 4 ∧
    size (toString (900 : UInt64).toNat) = 3 ∧ size (Json.array []) = 2 ∧ maxAnnouncementBytes = 262144 := by decide
  have hsize := size_announcement_le 1 "a" 1000 []
  have hsize' := size_announcement_le 1 "b" 900 []
  rw [List.map_nil] at hsize hsize'
  obtain ⟨hpeer, -, htime, -⟩ := signed_fields 1 "a" 1000 []
  obtain ⟨hpeer', -, htime', -⟩ := signed_fields 1 "b" 900 []
  let announcements := [signed 1 (draft 1 "a" 1000 []), signed 1 (draft 1 "b" 900 [])]
  have hfind' : (announcements.find? fun announcement => Text.utf8 (Json.announcement announcement) =
      Text.utf8 (Json.announcement (signed 1 (draft 1 "b" 900 [])))) = some (signed 1 (draft 1 "b" 900 [])) := by
    refine (List.find?_cons_of_neg ?_).trans (List.find?_cons_of_pos (decide_eq_true rfl))
    rw [decide_eq_true_eq]
    exact text_ne hpeer hpeer' (by decide) (by decide)
  obtain ⟨s, hreceives, hbounded, hquiet, hknown⟩ := exists_receives_new (C := anyMessage) announcements (.at 1000) [1]
    (by decide) (by omega) (List.find?_cons_of_pos (decide_eq_true rfl)) (validate_draft (by decide) nofun)
    (fresh_draft (by decide) (by decide)) nofun trivial
  have hget (other : String) := congrArg (fun known => known[other]?) hknown
  simp only [OrdMap.get?_insert] at hget
  have hlive : ∀ (other : String) known, s.knownAgents[other]? = some known → isExpired 1000 known = false := by
    intro other known hin
    rw [hget] at hin
    split_ifs at hin
    · obtain rfl := Option.some.inj hin
      exact isExpired_eq_false (UInt64.le_of_eq htime.symm)
    · exact absurd hin (by simp)
  have hroom : s.knownAgents.size < maxKnownAgents := by
    rw [hknown]
    exact Std.ExtTreeMap.size_insert_le.trans_lt (by decide)
  obtain ⟨t, hreceives', -, -, hknown'⟩ := exists_receives (C := anyMessage) announcements (.at 1000) [1]
    (by decide) (by omega) hfind' (validate_draft (by decide) nofun) (fresh_draft (by decide) (by decide)) nofun
    hbounded hlive hquiet hroom trivial
  have hget' := congrArg (fun known => known[Sample.did 1]?) hknown'
  simp only [OrdMap.get?_insert, if_true] at hget'
  exact ⟨_, s, t, _, _, .message .new hreceives, hreceives', (hget (Sample.did 1)).trans (if_pos rfl), hget', htime, htime'⟩

end Sample

/-- After an older announcement of the agent has arrived, it was accepted in between. -/
theorem sample_last_accepted : ∃ (W : Wire .reference) (s t : AgentDiscovery .reference)
    (before after : AgentAnnouncement .reference), Stays W anyMessage (Sample.did 1) s t ∧
      before.timestamp = 1000 ∧ after.timestamp = 900 ∧
      (SameFields before after ∨ ∃ announcement, AcceptedBetween W anyMessage (Sample.did 1) s t announcement ∧
        FieldsOf announcement after) ∧
      ¬ ∀ (s : AgentDiscovery .reference) A resolveDocument announcement, anyMessage s A resolveDocument announcement →
        noOlder s A resolveDocument announcement := by
  obtain ⟨W, s, t, before, after, hs, hreceives, hbefore, hafter, htime, htime'⟩ := Sample.exists_older
  have hstays : Stays W anyMessage (Sample.did 1) s t :=
    .message (.refl (hbefore ▸ rfl)) hreceives (hafter ▸ rfl)
  obtain ⟨hstored, hnewer⟩ := stored_last_accepted hs hstays hbefore hafter
  refine ⟨W, s, t, before, after, hstays, htime, htime', hstored, fun hC => ?_⟩
  have hle := hnewer hC
  rw [htime, htime'] at hle
  exact absurd hle (by decide)

/-- An older announcement takes the place of a newer one, while the agent stays known. -/
theorem rolled_back : ∃ (W : Wire .reference) (s t : AgentDiscovery .reference)
    (before after : AgentAnnouncement .reference), Received W anyMessage s ∧
      Stays W anyMessage (Sample.did 1) s t ∧ s.knownAgents[Sample.did 1]? = some before ∧
      t.knownAgents[Sample.did 1]? = some after ∧ after.timestamp < before.timestamp := by
  obtain ⟨W, s, t, before, after, hs, hreceives, hbefore, hafter, htime, htime'⟩ := Sample.exists_older
  refine ⟨W, s, t, before, after, hs, .message (.refl (hbefore ▸ rfl)) hreceives (hafter ▸ rfl), hbefore, hafter, ?_⟩
  rw [htime, htime']
  decide

end AgentHalo.Discovery
