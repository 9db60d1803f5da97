import AgentHalo.Discovery.State
import AgentHalo.Lib.Breadth

/-!
# Trust along chains of attestations

`transitiveTrust` searches the graph of passed attestations from a subject, breadth first, and weighs the trust in each
attester it meets by its distance. Weights decrease with the distance, so the result is the best over all chains
(`transitiveTrust_isGreatest`), in whatever order the attestations are listed and the maps are iterated.

Numbers are rational here: the source computes with doubles.
-/

namespace AgentHalo.Discovery

open Breadth (Frontier Graph Walk)

abbrev TrustMap := OrdMap String ℚ

structure TrustSearch where
  /-- Subjects to look up, with the length of a chain to their attesters. -/
  queue : List (String × Nat)
  visited : Finset String
  bestByAttester : TrustMap

section Model

variable (attestations : List CapabilityAttestation) (trustGraph : TrustMap) (decayPerHop : ℚ) (maxHops : Nat)

/-- The attestations under a subject in the map `by_subject`, which holds those that passed. -/
def bySubject (subject : String) : List CapabilityAttestation :=
  (attestations.filter (·.passed)).filter (·.subjectDid = subject)

def attesterGraph : Graph String where
  targets := (attestations.map (·.attesterDid)).toFinset
  next subject := (bySubject attestations subject).map (·.attesterDid)
  next_mem subject did h := by
    obtain ⟨attestation, hmem, rfl⟩ := List.mem_map.mp h
    have hlisted := List.mem_of_mem_filter (List.mem_of_mem_filter hmem)
    exact List.mem_toFinset.mpr (List.mem_map_of_mem hlisted)

/-- The first half of the loop over edges. -/
def recordTrust (hopWeight : ℚ) (bestByAttester : TrustMap) (attestation : CapabilityAttestation) : TrustMap :=
  match trustGraph[attestation.attesterDid]? with
  | none => bestByAttester
  | some directTrust =>
    let weighted := max directTrust 0 * hopWeight
    bestByAttester.insert attestation.attesterDid
      (match bestByAttester[attestation.attesterDid]? with
        | some existing => max existing weighted
        | none => weighted)

/-- The body of the loop over edges. The source has `hops as i32` in the exponent, which is `hops` for fewer than `2 ^ 31`
attestations. -/
def followEdge (hops : Nat) (s : TrustSearch) (attestation : CapabilityAttestation) : TrustSearch :=
  let bestByAttester := recordTrust trustGraph (decayPerHop ^ hops) s.bestByAttester attestation
  if hops < maxHops ∧ attestation.attesterDid ∉ s.visited then
    { queue := s.queue ++ [(attestation.attesterDid, hops + 1)]
      visited := insert attestation.attesterDid s.visited
      bestByAttester }
  else { s with bestByAttester }

def TrustSearch.frontier (s : TrustSearch) : Frontier String := ⟨s.queue, s.visited⟩

theorem frontier_foldl_followEdge (hops : Nat) (edges : List CapabilityAttestation) (s : TrustSearch) :
    (edges.foldl (followEdge trustGraph decayPerHop maxHops hops) s).frontier =
      if hops < maxHops then s.frontier.discoverAll (hops + 1) (edges.map (·.attesterDid)) else s.frontier := by
  induction edges generalizing s with
  | nil => simp [Frontier.discoverAll]
  | cons edge edges ih =>
    rw [List.foldl_cons, ih]
    by_cases hhops : hops < maxHops
    · rw [if_pos hhops, if_pos hhops]
      refine congrArg (Frontier.discoverAll (hops + 1) · (edges.map (·.attesterDid))) ?_
      by_cases hseen : edge.attesterDid ∈ s.visited
      · rw [followEdge, if_neg (fun h => h.2 hseen), Frontier.discover_of_mem hseen]
        rfl
      · rw [followEdge, if_pos ⟨hhops, hseen⟩, Frontier.discover_of_notMem hseen]
        rfl
    · rw [if_neg hhops, if_neg hhops, followEdge, if_neg (fun h => hhops h.1)]
      rfl

theorem frontier_follow (current : String) (hops : Nat) (s : TrustSearch) :
    ((bySubject attestations current).foldl (followEdge trustGraph decayPerHop maxHops hops) s).frontier =
      (attesterGraph attestations).follow maxHops current hops s.frontier :=
  frontier_foldl_followEdge trustGraph decayPerHop maxHops hops _ s

def trustLoop : TrustSearch → TrustMap
  | ⟨[], _, bestByAttester⟩ => bestByAttester
  | ⟨(current, hops) :: rest, visited, bestByAttester⟩ =>
    if hops > maxHops then trustLoop ⟨rest, visited, bestByAttester⟩
    else
      trustLoop ((bySubject attestations current).foldl (followEdge trustGraph decayPerHop maxHops hops)
        ⟨rest, visited, bestByAttester⟩)
termination_by s => (attesterGraph attestations).remaining s.frontier
decreasing_by
  · exact (attesterGraph attestations).remaining_pop _ _ _
  · rw [frontier_follow]
    exact ((attesterGraph attestations).remaining_follow _ _ _ _).trans_lt
      ((attesterGraph attestations).remaining_pop _ _ _)

end Model

def transitiveTrust (A : Ambient) (subjectDid : String) (attestations : List CapabilityAttestation)
    (trustGraph : TrustMap) (decayPerHop : ℚ) (maxHops : UInt32) : ℚ :=
  if maxHops = 0 ∨ decayPerHop ≤ 0 then 0
  else
    let bestByAttester := trustLoop attestations trustGraph decayPerHop maxHops.toNat
      ⟨[(subjectDid, 1)], {subjectDid}, ∅⟩
    min (((A.order bestByAttester.keys).map fun did => bestByAttester[did]?.getD 0).foldl max 0) 1

/-! ### Chains -/

def Attests (attestations : List CapabilityAttestation) (subject attester : String) : Prop :=
  ∃ a ∈ attestations, a.passed = true ∧ a.subjectDid = subject ∧ a.attesterDid = attester

/-- What the chains of at most `maxHops` passed attestations from the subject are worth. -/
def chainWorths (subject : String) (attestations : List CapabilityAttestation) (trustGraph : TrustMap)
    (decayPerHop : ℚ) (maxHops : Nat) : Set ℚ :=
  {worth | ∃ hops attester trust, 1 ≤ hops ∧ hops ≤ maxHops ∧ Walk (Attests attestations) hops subject attester ∧
    trustGraph[attester]? = some trust ∧ worth = max trust 0 * decayPerHop ^ hops}

section Chains

variable {subject : String} {attestations : List CapabilityAttestation} {trustGraph : TrustMap} {decayPerHop : ℚ}
  {maxHops : Nat}

theorem mem_bySubject {a : CapabilityAttestation} :
    a ∈ bySubject attestations subject ↔ a ∈ attestations ∧ a.passed = true ∧ a.subjectDid = subject := by
  rw [bySubject, List.mem_filter, List.mem_filter, decide_eq_true_eq, and_assoc]

theorem attesterGraph_edge : (attesterGraph attestations).edge = Attests attestations := by
  funext s t
  refine propext (List.mem_map.trans ?_)
  simp only [mem_bySubject, Attests, and_assoc]

/-! ### What is recorded -/

def values (m : TrustMap) : Set ℚ := {value | ∃ did : String, m[did]? = some value}

/-- The map holds some of the offers, and for each offer one at least as good. -/
structure Records (offers : Set ℚ) (m : TrustMap) : Prop where
  offered : values m ⊆ offers
  best : ∀ offer ∈ offers, ∃ value ∈ values m, offer ≤ value

/-- What the attestations of one subject offer. -/
def offersOf (trustGraph : TrustMap) (hopWeight : ℚ) (edges : List CapabilityAttestation) : Set ℚ :=
  {offer | ∃ edge ∈ edges, ∃ trust, trustGraph[edge.attesterDid]? = some trust ∧ offer = max trust 0 * hopWeight}

variable {m : TrustMap} {edge : CapabilityAttestation} {offers : Set ℚ} {worth : ℚ}

theorem recordTrust_of_none {hopWeight : ℚ} (h : trustGraph[edge.attesterDid]? = none) :
    recordTrust trustGraph hopWeight m edge = m := by
  unfold recordTrust
  rw [h]

theorem recordTrust_of_some (m : TrustMap) (hopWeight : ℚ) {trust : ℚ} (h : trustGraph[edge.attesterDid]? = some trust) :
    ∃ value, recordTrust trustGraph hopWeight m edge = m.insert edge.attesterDid value ∧
      (value = max trust 0 * hopWeight ∨ m[edge.attesterDid]? = some value) ∧ max trust 0 * hopWeight ≤ value ∧
      ∀ existing, m[edge.attesterDid]? = some existing → existing ≤ value := by
  unfold recordTrust
  rw [h]
  cases hm : m[edge.attesterDid]? with
  | none => exact ⟨_, rfl, .inl rfl, le_rfl, nofun⟩
  | some existing =>
    refine ⟨_, rfl, ?_, le_max_right _ _, fun _ heq => Option.some.inj heq ▸ le_max_left _ _⟩
    obtain hmax | hmax := max_choice existing (max trust 0 * hopWeight)
    · exact .inr (congrArg some hmax.symm)
    · exact .inl hmax

theorem Records.recordTrust (h : Records offers m) (hopWeight : ℚ) (edge : CapabilityAttestation) :
    Records (offers ∪ offersOf trustGraph hopWeight [edge]) (recordTrust trustGraph hopWeight m edge) := by
  cases htrust : trustGraph[edge.attesterDid]? with
  | none =>
    have hempty : offersOf trustGraph hopWeight [edge] = ∅ := by
      refine Set.eq_empty_of_forall_notMem fun offer => ?_
      rintro ⟨edge', hedge, trust, hsome, -⟩
      rw [List.mem_singleton.mp hedge, htrust] at hsome
      cases hsome
    rw [recordTrust_of_none htrust, hempty, Set.union_empty]
    exact h
  | some trust =>
    obtain ⟨value, hinsert, hvalue, hweighted, hexisting⟩ := recordTrust_of_some m hopWeight htrust
    have hheld : value ∈ values (m.insert edge.attesterDid value) :=
      ⟨edge.attesterDid, by rw [OrdMap.get?_insert, if_pos rfl]⟩
    rw [hinsert]
    refine ⟨?_, ?_⟩
    · rintro other ⟨did, hdid⟩
      rw [OrdMap.get?_insert] at hdid
      split_ifs at hdid with hsame
      · rw [← Option.some.inj hdid]
        exact hvalue.symm.imp (fun hold => h.offered ⟨_, hold⟩) fun hnew => ⟨edge, List.mem_singleton_self _, trust, htrust, hnew⟩
      · exact .inl (h.offered ⟨did, hdid⟩)
    · rintro offer (hold | ⟨edge', hedge, trust', htrust', rfl⟩)
      · obtain ⟨other, ⟨did, hdid⟩, hle⟩ := h.best offer hold
        by_cases hsame : edge.attesterDid = did
        · exact ⟨value, hheld, hle.trans (hexisting other (hsame ▸ hdid))⟩
        · exact ⟨other, ⟨did, by rw [OrdMap.get?_insert_ne m value hsame, hdid]⟩, hle⟩
      · rw [List.mem_singleton.mp hedge, htrust] at htrust'
        rw [← Option.some.inj htrust']
        exact ⟨value, hheld, hweighted⟩

theorem Records.foldl_recordTrust (h : Records offers m) (hopWeight : ℚ) (edges : List CapabilityAttestation) :
    Records (offers ∪ offersOf trustGraph hopWeight edges) (edges.foldl (Discovery.recordTrust trustGraph hopWeight) m) := by
  induction edges generalizing offers m with
  | nil =>
    have hempty : offersOf trustGraph hopWeight [] = ∅ :=
      Set.eq_empty_of_forall_notMem fun offer ⟨_, hedge, _⟩ => List.not_mem_nil hedge
    rw [hempty, Set.union_empty]
    exact h
  | cons edge edges ih =>
    have hsplit : offers ∪ offersOf trustGraph hopWeight (edge :: edges) =
        offers ∪ offersOf trustGraph hopWeight [edge] ∪ offersOf trustGraph hopWeight edges := by
      rw [Set.union_assoc]
      refine congrArg (offers ∪ ·) (Set.ext fun offer => ?_)
      simp [offersOf, or_and_right, exists_or]
    rw [hsplit]
    exact ih (h.recordTrust hopWeight edge)

theorem bestByAttester_foldl_followEdge (hops : Nat) (edges : List CapabilityAttestation) (s : TrustSearch) :
    (edges.foldl (followEdge trustGraph decayPerHop maxHops hops) s).bestByAttester =
      edges.foldl (Discovery.recordTrust trustGraph (decayPerHop ^ hops)) s.bestByAttester := by
  induction edges generalizing s with
  | nil => rfl
  | cons edge edges ih =>
    rw [List.foldl_cons, List.foldl_cons, ih]
    refine congrArg (edges.foldl (Discovery.recordTrust trustGraph (decayPerHop ^ hops))) ?_
    unfold followEdge
    split_ifs <;> rfl

/-- What is offered on the levels of a search. -/
def levelOffers (attestations : List CapabilityAttestation) (trustGraph : TrustMap) (decayPerHop : ℚ)
    (levels : List (String × Nat)) : Set ℚ :=
  {offer | ∃ p ∈ levels, offer ∈ offersOf trustGraph (decayPerHop ^ p.2) (bySubject attestations p.1)}

theorem levelOffers_cons (p : String × Nat) (levels : List (String × Nat)) :
    levelOffers attestations trustGraph decayPerHop (p :: levels) =
      offersOf trustGraph (decayPerHop ^ p.2) (bySubject attestations p.1) ∪
        levelOffers attestations trustGraph decayPerHop levels := by
  ext offer
  simp [levelOffers]

variable (attestations trustGraph decayPerHop maxHops) in
theorem records_trustLoop (s : TrustSearch) (h : Records offers s.bestByAttester) :
    Records (offers ∪ levelOffers attestations trustGraph decayPerHop
        ((attesterGraph attestations).levels maxHops s.frontier))
      (trustLoop attestations trustGraph decayPerHop maxHops s) := by
  induction s using trustLoop.induct attestations trustGraph decayPerHop maxHops generalizing offers with
  | case1 visited best =>
    rw [trustLoop, TrustSearch.frontier, Graph.levels]
    simpa [levelOffers] using h
  | case2 current hops rest visited best hhops ih =>
    rw [trustLoop, if_pos hhops, TrustSearch.frontier, Graph.levels, if_pos hhops]
    exact ih h
  | case3 current hops rest visited best hhops ih =>
    rw [trustLoop, if_neg hhops, TrustSearch.frontier, Graph.levels, if_neg hhops, levelOffers_cons, ← Set.union_assoc]
    have hrecorded : Records (offers ∪ offersOf trustGraph (decayPerHop ^ hops) (bySubject attestations current))
        ((bySubject attestations current).foldl (followEdge trustGraph decayPerHop maxHops hops)
          ⟨rest, visited, best⟩).bestByAttester := by
      rw [bestByAttester_foldl_followEdge]
      exact h.foldl_recordTrust _ _
    have hrest := ih hrecorded
    rw [frontier_follow] at hrest
    exact hrest

/-! ### The best chain -/

theorem isGreatest_foldl_max (l : List ℚ) : IsGreatest (insert 0 {value | value ∈ l}) (l.foldl max 0) := by
  suffices h : ∀ start : ℚ, IsGreatest (insert start {value | value ∈ l}) (l.foldl max start) from h 0
  induction l with
  | nil => simp
  | cons value l ih =>
    intro start
    have hmax := ih (max start value)
    rw [List.foldl_cons]
    refine ⟨?_, ?_⟩
    · obtain heq | hmem := hmax.1
      · obtain hstart | hvalue := max_choice start value
        · exact .inl (heq.trans hstart)
        · exact .inr (by rw [heq, hvalue]; exact List.mem_cons_self)
      · exact .inr (List.mem_cons_of_mem _ hmem)
    · have hle : max start value ≤ l.foldl max (max start value) := hmax.2 (.inl rfl)
      rintro other (rfl | hother)
      · exact (le_max_left _ _).trans hle
      · obtain rfl | hother := List.mem_cons.mp hother
        · exact (le_max_right _ _).trans hle
        · exact hmax.2 (.inr hother)

theorem isGreatest_of_cofinal {s t : Set ℚ} {x : ℚ} (h : IsGreatest s x) (hsub : s ⊆ t)
    (hcofinal : ∀ a ∈ t, ∃ b ∈ s, a ≤ b) : IsGreatest t x :=
  ⟨hsub h.1, fun a ha => by
    obtain ⟨b, hb, hab⟩ := hcofinal a ha
    exact hab.trans (h.2 hb)⟩

theorem levelOffers_subset (hhops : 1 ≤ maxHops) :
    levelOffers attestations trustGraph decayPerHop ((attesterGraph attestations).levels maxHops (.start subject 1)) ⊆
      chainWorths subject attestations trustGraph decayPerHop maxHops := by
  rintro offer ⟨⟨current, hops⟩, hmem, edge, hedge, trust, htrust, rfl⟩
  obtain ⟨hlimit, n, rfl, hwalk⟩ := Breadth.walk_of_mem_levels hhops hmem
  rw [attesterGraph_edge] at hwalk
  obtain ⟨hlisted, hpassed, hsubject⟩ := mem_bySubject.mp hedge
  refine ⟨1 + n, edge.attesterDid, trust, Nat.le_add_right 1 n, hlimit, ?_, htrust, rfl⟩
  rw [Nat.add_comm]
  exact hwalk.snoc ⟨edge, hlisted, hpassed, hsubject, rfl⟩

theorem exists_levelOffer (hdecay : 0 < decayPerHop) (hone : decayPerHop ≤ 1)
    (h : worth ∈ chainWorths subject attestations trustGraph decayPerHop maxHops) :
    ∃ offer ∈ levelOffers attestations trustGraph decayPerHop
      ((attesterGraph attestations).levels maxHops (.start subject 1)), worth ≤ offer := by
  obtain ⟨hops, attester, trust, hpos, hlimit, hwalk, htrust, rfl⟩ := h
  cases hwalk with
  | nil => cases hpos
  | @snoc n _ current _ hwalk hlast =>
    rw [← attesterGraph_edge] at hwalk
    have hnear : 1 + n ≤ maxHops := by omega
    obtain ⟨depth, hdepth, hmem⟩ := Breadth.exists_mem_levels hwalk hnear
    obtain ⟨edge, hlisted, hpassed, hsubject, rfl⟩ := hlast
    refine ⟨_, ⟨(current, depth), hmem, edge, mem_bySubject.mpr ⟨hlisted, hpassed, hsubject⟩, trust, htrust, rfl⟩, ?_⟩
    -- the first visit is the closest, and a shorter chain is worth more
    exact mul_le_mul_of_nonneg_left (pow_le_pow_of_le_one hdecay.le hone (by omega)) (le_max_right _ _)

theorem chainWorths_nonneg (hdecay : 0 < decayPerHop)
    (h : worth ∈ chainWorths subject attestations trustGraph decayPerHop maxHops) : 0 ≤ worth := by
  obtain ⟨hops, attester, trust, -, -, -, -, rfl⟩ := h
  exact mul_nonneg (le_max_right _ _) (pow_nonneg hdecay.le _)

theorem chainWorths_mono (hdecay : 0 < decayPerHop) {attestations' : List CapabilityAttestation} {trustGraph' : TrustMap}
    (hattested : ∀ a ∈ attestations, a.passed = true → a ∈ attestations')
    (htrusted : ∀ (did : String) trust, trustGraph[did]? = some trust →
      ∃ trust', trustGraph'[did]? = some trust' ∧ trust ≤ trust')
    (h : worth ∈ chainWorths subject attestations trustGraph decayPerHop maxHops) :
    ∃ worth' ∈ chainWorths subject attestations' trustGraph' decayPerHop maxHops, worth ≤ worth' := by
  obtain ⟨hops, attester, trust, hpos, hlimit, hwalk, htrust, rfl⟩ := h
  obtain ⟨trust', htrust', hle⟩ := htrusted attester trust htrust
  have hwalk' : Walk (Attests attestations') hops subject attester :=
    hwalk.mono fun _ _ ⟨a, hmem, hpassed, hedge⟩ => ⟨a, hattested a hmem hpassed, hpassed, hedge⟩
  refine ⟨_, ⟨hops, attester, trust', hpos, hlimit, hwalk', htrust', rfl⟩, ?_⟩
  exact mul_le_mul_of_nonneg_right (max_le_max_right 0 hle) (pow_nonneg hdecay.le _)

end Chains

section Verdict

variable {A : Ambient} {subjectDid : String} {attestations : List CapabilityAttestation} {trustGraph : TrustMap}
  {decayPerHop : ℚ} {maxHops : UInt32}

theorem mem_iterated {m : TrustMap} {value : ℚ} :
    value ∈ (A.order m.keys).map (fun did => m[did]?.getD 0) ↔ value ∈ values m := by
  constructor
  · intro h
    obtain ⟨did, hdid, rfl⟩ := List.mem_map.mp h
    have hkey : did ∈ m := Std.ExtTreeMap.mem_keys.mp ((A.order_perm m.keys).mem_iff.mp hdid)
    exact ⟨did, by rw [Std.ExtTreeMap.getElem?_eq_some_getElem hkey]; rfl⟩
  · rintro ⟨did, hdid⟩
    have hkey : did ∈ m := Std.ExtTreeMap.mem_iff_isSome_getElem?.mpr (by rw [hdid]; rfl)
    refine List.mem_map.mpr ⟨did, (A.order_perm m.keys).mem_iff.mpr (Std.ExtTreeMap.mem_keys.mpr hkey), ?_⟩
    rw [hdid]
    rfl

variable (A subjectDid attestations trustGraph maxHops) in
theorem transitiveTrust_isGreatest (hdecay : 0 < decayPerHop) (hone : decayPerHop ≤ 1) :
    ∃ best, IsGreatest (insert 0 (chainWorths subjectDid attestations trustGraph decayPerHop maxHops.toNat)) best ∧
      transitiveTrust A subjectDid attestations trustGraph decayPerHop maxHops = min best 1 := by
  unfold transitiveTrust
  by_cases hzero : maxHops = 0
  · have hempty : chainWorths subjectDid attestations trustGraph decayPerHop maxHops.toNat = ∅ := by
      refine Set.eq_empty_of_forall_notMem fun worth ⟨hops, _, _, hpos, hlimit, _⟩ => ?_
      rw [hzero, UInt32.toNat_zero] at hlimit
      omega
    rw [if_pos (.inl hzero), hempty]
    exact ⟨0, by simp, by simp⟩
  · have hhops : 1 ≤ maxHops.toNat := Nat.one_le_iff_ne_zero.mpr fun h => hzero (UInt32.toNat_inj.mp h)
    rw [if_neg (fun h => h.elim hzero (fun hle => absurd hdecay (not_lt.mpr hle)))]
    have hrecords : Records ∅ (∅ : TrustMap) :=
      ⟨fun value ⟨did, hdid⟩ => by simp at hdid, fun _ h => absurd h (Set.notMem_empty _)⟩
    have hloop := records_trustLoop attestations trustGraph decayPerHop maxHops.toNat ⟨[(subjectDid, 1)], {subjectDid}, ∅⟩
      hrecords
    rw [Set.empty_union] at hloop
    dsimp only
    generalize trustLoop attestations trustGraph decayPerHop maxHops.toNat ⟨[(subjectDid, 1)], {subjectDid}, ∅⟩ = m at hloop
    have hmax := isGreatest_foldl_max ((A.order m.keys).map fun did => m[did]?.getD 0)
    simp only [mem_iterated, Set.ofPred_mem_eq] at hmax
    have hsub := Set.insert_subset_insert (hloop.offered.trans (levelOffers_subset hhops)) (a := 0)
    refine ⟨_, isGreatest_of_cofinal hmax hsub ?_, rfl⟩
    rintro worth (rfl | hworth)
    · exact ⟨0, .inl rfl, le_rfl⟩
    · obtain ⟨offer, hoffer, hle⟩ := exists_levelOffer hdecay hone hworth
      obtain ⟨value, hvalue, hle'⟩ := hloop.best offer hoffer
      exact ⟨value, .inr hvalue, hle.trans hle'⟩

theorem transitiveTrust_mono {A' : Ambient} {attestations' : List CapabilityAttestation} {trustGraph' : TrustMap}
    (hdecay : 0 < decayPerHop) (hone : decayPerHop ≤ 1) (hattested : ∀ a ∈ attestations, a.passed = true → a ∈ attestations')
    (htrusted : ∀ (did : String) trust, trustGraph[did]? = some trust →
      ∃ trust', trustGraph'[did]? = some trust' ∧ trust ≤ trust') :
    transitiveTrust A subjectDid attestations trustGraph decayPerHop maxHops ≤
      transitiveTrust A' subjectDid attestations' trustGraph' decayPerHop maxHops := by
  obtain ⟨best, hbest, heq⟩ := transitiveTrust_isGreatest A subjectDid attestations trustGraph maxHops hdecay hone
  obtain ⟨best', hbest', heq'⟩ := transitiveTrust_isGreatest A' subjectDid attestations' trustGraph' maxHops hdecay hone
  rw [heq, heq']
  refine min_le_min_right 1 ?_
  obtain rfl | hworth := hbest.1
  · exact hbest'.2 (.inl rfl)
  · obtain ⟨worth, hworth', hle⟩ := chainWorths_mono hdecay hattested htrusted hworth
    exact hle.trans (hbest'.2 (.inr hworth'))

/-- **Transitive trust is that of the best chain**: the most that a chain of passed attestations to a trusted attester is
worth, capped at one, or zero if there is no chain. So it depends neither on the order of the attestations nor on that of
the maps, and more passed attestations and more trust do not lower it. -/
theorem transitiveTrust_best (A : Ambient) (subjectDid : String) (attestations : List CapabilityAttestation)
    (trustGraph : TrustMap) (decayPerHop : ℚ) (maxHops : UInt32) (hdecay : 0 < decayPerHop) (hone : decayPerHop ≤ 1) :
    (chainWorths subjectDid attestations trustGraph decayPerHop maxHops.toNat = ∅ ∧
        transitiveTrust A subjectDid attestations trustGraph decayPerHop maxHops = 0 ∨
      ∃ best, IsGreatest (chainWorths subjectDid attestations trustGraph decayPerHop maxHops.toNat) best ∧
        transitiveTrust A subjectDid attestations trustGraph decayPerHop maxHops = min best 1) ∧
    (∀ A' attestations', attestations'.Perm attestations →
      transitiveTrust A' subjectDid attestations' trustGraph decayPerHop maxHops =
        transitiveTrust A subjectDid attestations trustGraph decayPerHop maxHops) ∧
    transitiveTrust A subjectDid attestations trustGraph decayPerHop maxHops ≤ 1 ∧
    ∀ A' attestations' trustGraph', (∀ a ∈ attestations, a.passed = true → a ∈ attestations') →
      (∀ (did : String) trust, trustGraph[did]? = some trust →
        ∃ trust', trustGraph'[did]? = some trust' ∧ trust ≤ trust') →
      transitiveTrust A subjectDid attestations trustGraph decayPerHop maxHops ≤
        transitiveTrust A' subjectDid attestations' trustGraph' decayPerHop maxHops := by
  have hsame : ∀ (did : String) trust, trustGraph[did]? = some trust →
      ∃ trust', trustGraph[did]? = some trust' ∧ trust ≤ trust' := fun did trust h => ⟨trust, h, le_rfl⟩
  obtain ⟨best, hbest, heq⟩ := transitiveTrust_isGreatest A subjectDid attestations trustGraph maxHops hdecay hone
  refine ⟨?_, fun A' attestations' hperm => ?_, heq ▸ min_le_right _ _, fun A' attestations' trustGraph' =>
    transitiveTrust_mono hdecay hone⟩
  · obtain hempty | ⟨worth, hworth⟩ :=
      (chainWorths subjectDid attestations trustGraph decayPerHop maxHops.toNat).eq_empty_or_nonempty
    · rw [hempty] at hbest
      obtain hzero | habsurd := hbest.1
      · exact .inl ⟨hempty, by rw [heq, hzero]; exact min_eq_left zero_le_one⟩
      · exact absurd habsurd (Set.notMem_empty _)
    · refine .inr ⟨best, ⟨?_, fun _ h => hbest.2 (.inr h)⟩, heq⟩
      obtain hzero | hmem := hbest.1
      · have hworth' : worth = best :=
          le_antisymm (hbest.2 (.inr hworth)) (hzero ▸ chainWorths_nonneg hdecay hworth)
        exact hworth' ▸ hworth
      · exact hmem
  · refine le_antisymm ?_ ?_
    · exact transitiveTrust_mono hdecay hone (fun a ha _ => hperm.mem_iff.mp ha) hsame
    · exact transitiveTrust_mono hdecay hone (fun a ha _ => hperm.mem_iff.mpr ha) hsame

end Verdict

def twoAttestations : List CapabilityAttestation :=
  [⟨"did:key:b", "did:key:c", "cap-1", "h1", true, 100, [], []⟩,
    ⟨"did:key:a", "did:key:b", "cap-1", "h2", true, 100, [], []⟩]

def twoTrusted : TrustMap := ((∅ : TrustMap).insert "did:key:a" (9 / 10)).insert "did:key:b" (7 / 10)

theorem transitiveTrust_best_two :
    (∃ best, IsGreatest (chainWorths "did:key:c" twoAttestations twoTrusted (7 / 10) 3) best ∧
        transitiveTrust (.at 0) "did:key:c" twoAttestations twoTrusted (7 / 10) 3 = min best 1) ∧
      transitiveTrust (.at 5) "did:key:c" twoAttestations.reverse twoTrusted (7 / 10) 3 =
        transitiveTrust (.at 0) "did:key:c" twoAttestations twoTrusted (7 / 10) 3 ∧
      ∀ more, transitiveTrust (.at 0) "did:key:c" twoAttestations twoTrusted (7 / 10) 3 ≤
        transitiveTrust (.at 5) "did:key:c" (more ++ twoAttestations) twoTrusted (7 / 10) 3 := by
  obtain ⟨hbest, horder, -, hmono⟩ := transitiveTrust_best (.at 0) "did:key:c" twoAttestations twoTrusted (7 / 10) 3
    (by norm_num) (by norm_num)
  refine ⟨hbest.resolve_left fun hnone => ?_, horder (.at 5) _ (List.reverse_perm _), fun more => hmono (.at 5) _ _
    (fun a ha _ => List.mem_append_right more ha) fun did trust h => ⟨trust, h, le_rfl⟩⟩
  have hattested : Attests twoAttestations "did:key:c" "did:key:b" := ⟨_, List.mem_cons_self, rfl, rfl, rfl⟩
  have htrusted : twoTrusted["did:key:b"]? = some (7 / 10) := Std.ExtTreeMap.getElem?_insert_self
  exact Set.eq_empty_iff_forall_notMem.mp hnone.1 _
    ⟨1, "did:key:b", 7 / 10, le_rfl, by decide, .snoc (.nil _) hattested, htrusted, rfl⟩

end AgentHalo.Discovery
