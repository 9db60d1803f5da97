import AgentHalo.Discovery.Network

/-!
# Attestations that join

What has waited for an attester joins the specifications of its subject one attestation at a time. Where no
specification becomes full, this has a closed form (`foldl_joinAttestation_eq`): every specification takes those that are
for its capability, unless one before it has the same, and of several answers to one challenge the first.
`mem_foldl_answers` says what is there after several attesters have arrived.
-/

namespace AgentHalo.Discovery.AgentDiscovery

open Pod (DIDDocument)

variable {P : Platform} {W : Wire P} {attestations waiting : List CapabilityAttestation}
  {attestation : CapabilityAttestation}

/-- Two answers of one attester to one challenge. -/
def sameAnswer (existing attestation : CapabilityAttestation) : Bool :=
  existing.challengeHash = attestation.challengeHash && existing.attesterDid = attestation.attesterDid

theorem sameAnswer_iff {existing : CapabilityAttestation} : sameAnswer existing attestation = true ↔
    existing.challengeHash = attestation.challengeHash ∧ existing.attesterDid = attestation.attesterDid := by
  unfold sameAnswer
  rw [Bool.and_eq_true, decide_eq_true_eq, decide_eq_true_eq]

theorem sameAnswer_self (attestation : CapabilityAttestation) : sameAnswer attestation attestation = true :=
  sameAnswer_iff.mpr ⟨rfl, rfl⟩

theorem sameAnswer_trans {first second third : CapabilityAttestation} (h : sameAnswer first second = true)
    (h' : sameAnswer second third = true) : sameAnswer first third = true := by
  rw [sameAnswer_iff] at h h' ⊢
  exact ⟨h.1.trans h'.1, h.2.trans h'.2⟩

/-- An attestation joins, unless the attester has answered for the challenge. -/
def joinFreely (attestations : List CapabilityAttestation) (attestation : CapabilityAttestation) :
    List CapabilityAttestation :=
  if attestations.any (sameAnswer · attestation) then attestations else attestations ++ [attestation]

theorem length_le_foldl_joinFreely (attestations waiting : List CapabilityAttestation) :
    attestations.length ≤ (waiting.foldl joinFreely attestations).length := by
  induction waiting generalizing attestations with
  | nil => exact le_rfl
  | cons attestation rest ih =>
    refine le_trans ?_ (ih (joinFreely attestations attestation))
    unfold joinFreely
    split_ifs
    · exact le_rfl
    · rw [List.length_append]
      exact Nat.le_add_right _ _

theorem length_foldl_joinFreely_le (attestations waiting : List CapabilityAttestation) :
    (waiting.foldl joinFreely attestations).length ≤ attestations.length + waiting.length := by
  induction waiting generalizing attestations with
  | nil => exact le_rfl
  | cons attestation rest ih =>
    have hstep : (joinFreely attestations attestation).length ≤ attestations.length + 1 := by
      unfold joinFreely
      split_ifs
      · exact Nat.le_succ _
      · exact (List.length_append ..).le
    have hrest := ih (joinFreely attestations attestation)
    rw [List.foldl_cons, List.length_cons]
    omega

theorem mem_foldl_joinFreely : attestation ∈ waiting.foldl joinFreely attestations ↔ attestation ∈ attestations ∨
    ((∀ existing ∈ attestations, sameAnswer existing attestation = false) ∧
      waiting.find? (sameAnswer · attestation) = some attestation) := by
  induction waiting generalizing attestations with
  | nil => simp
  | cons first rest ih =>
    rw [List.foldl_cons, ih, joinFreely]
    by_cases hany : attestations.any (sameAnswer · first) = true
    · rw [if_pos hany]
      refine or_congr_right (and_congr_right fun hnone => ?_)
      obtain ⟨existing, hin, hsame⟩ := List.any_eq_true.mp hany
      rw [List.find?_cons_of_neg]
      intro hfirst
      have hexisting := sameAnswer_trans hsame hfirst
      rw [hnone existing hin] at hexisting
      cases hexisting
    · rw [if_neg hany]
      have hnone : ∀ existing ∈ attestations, sameAnswer existing first = false := fun existing hin =>
        Bool.eq_false_iff.mpr fun hsame => hany (List.any_eq_true.mpr ⟨existing, hin, hsame⟩)
      by_cases hfirst : sameAnswer first attestation = true
      · rw [List.find?_cons_of_pos (p := (sameAnswer · attestation)) hfirst, List.mem_append, List.mem_singleton, or_assoc]
        refine or_congr_right ⟨?_, ?_⟩
        · rintro (rfl | ⟨hno, -⟩)
          · exact ⟨hnone, rfl⟩
          · have hself := hno first (List.mem_append_right _ (List.mem_singleton_self _))
            rw [hfirst] at hself
            cases hself
        · rintro ⟨-, heq⟩
          exact .inl (Option.some.inj heq).symm
      · rw [List.find?_cons_of_neg (p := (sameAnswer · attestation)) hfirst, List.mem_append, List.mem_singleton, or_assoc]
        refine or_congr_right ⟨?_, ?_⟩
        · rintro (rfl | ⟨hno, hfind⟩)
          · exact absurd (sameAnswer_self attestation) hfirst
          · exact ⟨fun existing hin => hno existing (List.mem_append_left _ hin), hfind⟩
        · rintro ⟨hno, hfind⟩
          refine .inr ⟨fun existing hin => ?_, hfind⟩
          rcases List.mem_append.mp hin with hold | hnew
          · exact hno existing hold
          · rw [List.mem_singleton.mp hnew]
            exact Bool.eq_false_iff.mpr hfirst

theorem mem_foldl_answers {C : Type*} {did : C → String} {answers : C → List CapabilityAttestation} {later : List C}
    (hnodup : (later.map did).Nodup) (hby : ∀ c ∈ later, ∀ answer ∈ answers c, answer.attesterDid = did c)
    (hnew : ∀ c ∈ later, ∀ answer ∈ answers c, ∀ existing ∈ attestations, existing.attesterDid ≠ answer.attesterDid) :
    attestation ∈ later.foldl (fun before c => (answers c).foldl joinFreely before) attestations ↔
      attestation ∈ attestations ∨ ∃ c ∈ later, (answers c).find? (sameAnswer · attestation) = some attestation := by
  induction later generalizing attestations with
  | nil => simp
  | cons c rest ih =>
    obtain ⟨hhead, htail⟩ := List.nodup_cons.mp hnodup
    have hjoined : attestation ∈ (answers c).foldl joinFreely attestations ↔ attestation ∈ attestations ∨
        (answers c).find? (sameAnswer · attestation) = some attestation := by
      refine mem_foldl_joinFreely.trans (or_congr_right (and_iff_right_of_imp fun hfind existing hin => ?_))
      refine Bool.eq_false_iff.mpr fun hsame => ?_
      exact hnew c List.mem_cons_self attestation (List.mem_of_find?_eq_some hfind) existing hin
        (sameAnswer_iff.mp hsame).2
    rw [List.foldl_cons, ih htail fun other hother => hby other (List.mem_cons_of_mem _ hother), hjoined,
      List.exists_mem_cons_iff, or_assoc]
    intro other hother answer hanswer existing hin
    rcases mem_foldl_joinFreely.mp hin with hold | ⟨-, hfind⟩
    · exact hnew other (List.mem_cons_of_mem _ hother) answer hanswer existing hold
    · rw [hby c List.mem_cons_self existing (List.mem_of_find?_eq_some hfind),
        hby other (List.mem_cons_of_mem _ hother) answer hanswer]
      intro heq
      exact hhead (List.mem_map.mpr ⟨other, hother, heq.symm⟩)

/-! ### Specifications -/

/-- The attestation is verified, and the specification in this place is the first for its capability. -/
def goesTo (verified : CapabilityAttestation → Bool) (capabilityIds : List String) (place : Nat) (capabilityId : String)
    (attestation : CapabilityAttestation) : Bool :=
  attestation.capabilityId = capabilityId && !(capabilityIds.take place).contains capabilityId && verified attestation

/-- The specifications with the attestations that have waited, were there no limit on their number. -/
def joinedAll (verified : CapabilityAttestation → Bool) (specs : List (CapabilitySpec P))
    (waiting : List CapabilityAttestation) : List (CapabilitySpec P) :=
  specs.mapIdx fun place spec => { spec with
    attestations := (waiting.filter (goesTo verified (specs.map (·.capabilityId)) place spec.capabilityId)).foldl
      joinFreely spec.attestations }

theorem joinedAll_getElem? (verified : CapabilityAttestation → Bool) (specs : List (CapabilitySpec P))
    (waiting : List CapabilityAttestation) (place : Nat) :
    (joinedAll verified specs waiting)[place]? = specs[place]?.map fun spec => { spec with
      attestations := (waiting.filter (goesTo verified (specs.map (·.capabilityId)) place spec.capabilityId)).foldl
        joinFreely spec.attestations } := List.getElem?_mapIdx

theorem joinedAll_cons (verified : CapabilityAttestation → Bool) (first : CapabilitySpec P)
    (rest : List (CapabilitySpec P)) (waiting : List CapabilityAttestation) :
    joinedAll verified (first :: rest) waiting = { first with
      attestations := (waiting.filter fun attestation =>
        attestation.capabilityId = first.capabilityId && verified attestation).foldl joinFreely first.attestations } ::
      joinedAll verified rest (waiting.filter (·.capabilityId ≠ first.capabilityId)) := by
  have hhead : goesTo verified ((first :: rest).map (·.capabilityId)) 0 first.capabilityId = fun attestation =>
      attestation.capabilityId = first.capabilityId && verified attestation := by
    funext attestation
    simp [goesTo]
  have htail (place : Nat) (spec : CapabilitySpec P) : goesTo verified ((first :: rest).map (·.capabilityId)) (place + 1)
      spec.capabilityId = fun attestation =>
        goesTo verified (rest.map (·.capabilityId)) place spec.capabilityId attestation &&
          decide (attestation.capabilityId ≠ first.capabilityId) := by
    funext attestation
    unfold goesTo
    by_cases hid : attestation.capabilityId = spec.capabilityId
    · by_cases hfirst : spec.capabilityId = first.capabilityId
      · simp [hid, hfirst]
      · simp [hid, hfirst]
    · simp [hid]
  unfold joinedAll
  rw [List.mapIdx_cons, hhead]
  simp only [htail, List.filter_filter]

theorem joinedAll_capabilityIds (verified : CapabilityAttestation → Bool) (specs : List (CapabilitySpec P))
    (waiting : List CapabilityAttestation) :
    (joinedAll verified specs waiting).map (·.capabilityId) = specs.map (·.capabilityId) := by
  refine List.ext_getElem? fun place => ?_
  rw [List.getElem?_map, List.getElem?_map, joinedAll_getElem?, Option.map_map]
  rfl

theorem foldl_joinSpec {spec : CapabilitySpec P}
    (hroom : (waiting.foldl joinFreely spec.attestations).length ≤ maxAttestationsPerSpec) :
    waiting.foldl (fun spec attestation => joinSpec attestation spec) spec =
      { spec with attestations := waiting.foldl joinFreely spec.attestations } := by
  induction waiting generalizing spec with
  | nil => rfl
  | cons attestation rest ih =>
    rw [List.foldl_cons] at hroom ⊢
    have hstep : joinSpec attestation spec = { spec with attestations := joinFreely spec.attestations attestation } := by
      unfold joinSpec joinFreely sameAnswer
      split_ifs with hany hlength
      · rfl
      · rfl
      · have hle := (length_le_foldl_joinFreely (joinFreely spec.attestations attestation) rest).trans hroom
        unfold joinFreely sameAnswer at hle
        rw [if_neg hany, List.length_append, List.length_singleton] at hle
        exact absurd hle hlength
    rw [hstep]
    exact @ih { spec with attestations := joinFreely spec.attestations attestation } hroom

theorem foldl_joinAttestation_cons (document : DIDDocument) (first : CapabilitySpec P) (rest : List (CapabilitySpec P))
    (waiting : List CapabilityAttestation) : waiting.foldl (joinAttestation W document) (first :: rest) =
      (waiting.filter fun attestation => attestation.capabilityId = first.capabilityId &&
        attested W attestation document).foldl (fun spec attestation => joinSpec attestation spec) first ::
      (waiting.filter (·.capabilityId ≠ first.capabilityId)).foldl (joinAttestation W document) rest := by
  induction waiting generalizing first rest with
  | nil => rfl
  | cons attestation others ih =>
    have hkeeps : (joinSpec attestation first).capabilityId = first.capabilityId := by
      rcases joinSpec_cases attestation first with hsame | ⟨hjoined, -⟩
      · rw [hsame]
      · rw [hjoined]
    rw [List.foldl_cons, joinAttestation]
    by_cases hattested : attested W attestation document = true
    · rw [if_pos hattested, List.replaceF]
      by_cases hid : first.capabilityId = attestation.capabilityId
      · rw [if_pos hid]
        dsimp only
        rw [ih, hkeeps]
        simp [hid, hattested]
      · rw [if_neg hid]
        dsimp only
        rw [ih]
        simp [Ne.symm hid, joinAttestation, hattested]
    · rw [if_neg hattested, ih]
      by_cases hid : attestation.capabilityId = first.capabilityId
      · simp [hid, hattested]
      · simp [hid, joinAttestation, hattested]

theorem foldl_joinAttestation_eq {document : DIDDocument} {specs : List (CapabilitySpec P)}
    (hroom : ∀ spec ∈ joinedAll (attested W · document) specs waiting, spec.attestations.length ≤ maxAttestationsPerSpec) :
    waiting.foldl (joinAttestation W document) specs = joinedAll (attested W · document) specs waiting := by
  induction specs generalizing waiting with
  | nil =>
    have hnil : ∀ attestation, joinAttestation W document [] attestation = ([] : List (CapabilitySpec P)) := by
      intro attestation
      unfold joinAttestation
      split_ifs <;> rfl
    exact (List.foldl_fixed' hnil waiting).trans rfl
  | cons first rest ih =>
    rw [joinedAll_cons] at hroom ⊢
    obtain ⟨hfirst, hrest⟩ := List.forall_mem_cons.mp hroom
    rw [foldl_joinAttestation_cons, foldl_joinSpec hfirst, ih hrest]

theorem length_joinedAll_le {verified : CapabilityAttestation → Bool} {specs : List (CapabilitySpec P)}
    {waiting : List CapabilityAttestation} {most : Nat} (h : ∀ spec ∈ specs, spec.attestations.length ≤ most) :
    ∀ spec ∈ joinedAll verified specs waiting, spec.attestations.length ≤ most + waiting.length := by
  intro spec hspec
  obtain ⟨place, hplace⟩ := List.mem_iff_getElem?.mp hspec
  rw [joinedAll_getElem?] at hplace
  obtain ⟨before, hbefore, rfl⟩ := Option.map_eq_some_iff.mp hplace
  refine (length_foldl_joinFreely_le _ _).trans (Nat.add_le_add (h before (List.mem_of_getElem? hbefore)) ?_)
  exact List.length_filter_le _ _

theorem foldl_joinedAll_getElem? {C : Type*} (verified : C → CapabilityAttestation → Bool)
    (waiting : C → List CapabilityAttestation) (later : List C) (specs : List (CapabilitySpec P)) (place : Nat) :
    (later.foldl (fun specs c => joinedAll (verified c) specs (waiting c)) specs)[place]? =
      specs[place]?.map fun spec => { spec with
        attestations := later.foldl (fun before c => ((waiting c).filter
          (goesTo (verified c) (specs.map (·.capabilityId)) place spec.capabilityId)).foldl joinFreely before)
            spec.attestations } := by
  induction later generalizing specs with
  | nil => exact Option.map_id'.symm
  | cons c rest ih =>
    rw [List.foldl_cons, ih, joinedAll_capabilityIds, joinedAll_getElem?, Option.map_map]
    rfl

end AgentHalo.Discovery.AgentDiscovery
