import AgentHalo.Identity.Binding

/-!
# The policy registry

A snapshot collects the parameters of governance as entries, and its digest is the hash of a text in which the ids, the names
and the displayed values stand one after the other, a colon before each id and each name. The digest detects a change exactly
if it changes the pieces of that text between its colons (`digest_detects_iff`): a source, a category, a formal basis, and of
a governor its gains `ki` and `kb` and its gain schedule, are in none of them.
-/

namespace AgentHalo.Governance

open Identity (hashHex)
open Text (utf8)

def policySchemaVersion : Nat := 1

inductive PolicyCategory where
  | trustFloor
  | trustThreshold
  | trustScoring
  | governorControl
  | evictionGuard
  | networkHealth
deriving DecidableEq, Repr

inductive PolicyValue (P : Platform) where
  | float (v : P.f64.F)
  | text (s : String)

structure PolicyEntry (P : Platform) where
  id : String
  source : String
  category : PolicyCategory
  values : List (String × PolicyValue P)
  formalBasis : Option String

structure PolicySnapshot (P : Platform) where
  schemaVersion : Nat
  timestamp : UInt64
  entries : List (PolicyEntry P)
  digest : String

/-- Multipliers of the gains, for each regime of the load. -/
structure AdaptiveGainSchedule (P : Platform) where
  quietAlphaScale : P.f64.F
  quietBetaScale : P.f64.F
  quietKiScale : P.f64.F
  activeAlphaScale : P.f64.F
  activeBetaScale : P.f64.F
  activeKiScale : P.f64.F
  burstAlphaScale : P.f64.F
  burstBetaScale : P.f64.F
  burstKiScale : P.f64.F

structure GovernorConfig (P : Platform) where
  instanceId : String
  alpha : P.f64.F
  beta : P.f64.F
  dt : P.f64.F
  epsMin : P.f64.F
  epsMax : P.f64.F
  target : P.f64.F
  formalBasis : String
  ki : P.f64.F
  kb : P.f64.F
  adaptive : Option (AdaptiveGainSchedule P)

/-- The configurations of the instances, in the order in which the map is walked. An instance is registered under the id of its
configuration, once. -/
structure GovernorRegistry (P : Platform) where
  instances : List (GovernorConfig P)
  distinct : (instances.map (·.instanceId)).Nodup

def GovernorRegistry.configsAll {P : Platform} (registry : GovernorRegistry P) : List (GovernorConfig P) :=
  registry.instances.mergeSort fun a b => decide (a.instanceId ≤ b.instanceId)

variable {P : Platform}

def PolicyValue.display : PolicyValue P → String
  | .float v => P.f64.display v
  | .text s => s

/-! ### Entries -/

/-- `str::replace('-', "_")`. -/
def underscored (s : String) : String := String.ofList (s.toList.map fun c => if c = '-' then '_' else c)

def governorConfigEntry (source instanceId : String) (config : GovernorConfig P) : PolicyEntry P where
  id := "governor_" ++ underscored instanceId
  source := source
  category := .governorControl
  values := [
    ("alpha", .float config.alpha),
    ("beta", .float config.beta),
    ("dt", .float config.dt),
    ("eps_min", .float config.epsMin),
    ("eps_max", .float config.epsMax),
    ("target", .float config.target),
    ("gamma", .float (P.f64.add config.alpha (P.f64.div config.beta config.dt)))]
  formalBasis := some config.formalBasis

section Defaults

variable (P)

def defaultVectorCeiling : Nat := 100000
def defaultBlobCeiling : Nat := 100000
def storageResetWindowSecs : Nat := 30

def AdaptiveGainSchedule.default : AdaptiveGainSchedule P where
  quietAlphaScale := P.f64.lit 15 1
  quietBetaScale := P.f64.lit 5 1
  quietKiScale := P.f64.lit 1 0
  activeAlphaScale := P.f64.lit 1 0
  activeBetaScale := P.f64.lit 1 0
  activeKiScale := P.f64.lit 1 0
  burstAlphaScale := P.f64.lit 5 1
  burstBetaScale := P.f64.lit 2 0
  burstKiScale := P.f64.lit 5 1

def memoryGovernorConfig (instanceId : String) (ceiling : Nat) (formalBasis : String) : GovernorConfig P where
  instanceId := instanceId
  alpha := P.f64.lit 1 2
  beta := P.f64.lit 5 2
  dt := P.f64.lit 1 0
  epsMin := P.f64.lit 1 0
  epsMax := P.f64.lit 512 0
  target := P.f64.ofNat ceiling
  formalBasis := formalBasis
  ki := P.f64.lit 1 3
  kb := P.f64.lit 316 4
  adaptive := some (.default P)

def defaultVectorMemoryGovernorConfig : GovernorConfig P :=
  memoryGovernorConfig P "gov-memory-vector" defaultVectorCeiling "NucleusDB.Core.Invariants.AetherGovernor.validatorRegime"

def defaultBlobMemoryGovernorConfig : GovernorConfig P :=
  memoryGovernorConfig P "gov-memory-blob" defaultBlobCeiling "HeytingLean.Bridge.Sharma.AetherGovernor.validatorRegime"

def storageGovernorEntries : List (PolicyEntry P) :=
  [("vector_index", defaultVectorMemoryGovernorConfig P), ("blob_store", defaultBlobMemoryGovernorConfig P)].map
    fun (source, config) => governorConfigEntry source config.instanceId config

def pdGovernorConfig (instanceId : String) (epsMin epsMax target : P.f64.F) (formalBasis : String) : GovernorConfig P where
  instanceId := instanceId
  alpha := P.f64.lit 1 2
  beta := P.f64.lit 5 2
  dt := P.f64.lit 1 0
  epsMin := epsMin
  epsMax := epsMax
  target := target
  formalBasis := formalBasis
  ki := P.f64.lit 0 0
  kb := P.f64.lit 0 0
  adaptive := none

def defaultRuntimeGovernorConfigs : List (GovernorConfig P) := [
  pdGovernorConfig P "gov-proxy" (P.f64.lit 1 0) (P.f64.lit 50 0) (P.f64.lit 2 0)
    "HeytingLean.Bridge.Sharma.AetherGovernor.lyapunov_descent",
  pdGovernorConfig P "gov-comms" (P.f64.lit 1 0) (P.f64.lit 32 0) (P.f64.lit 10 0)
    "HeytingLean.Bridge.Sharma.AetherGovernor.validatorRegime",
  pdGovernorConfig P "gov-compute" (P.f64.lit 1 0) (P.f64.lit 10 0) (P.f64.lit 8 0)
    "HeytingLean.Bridge.Sharma.AetherGovernor.validatorRegime",
  pdGovernorConfig P "gov-cost" (P.f64.lit 1 2) (P.f64.lit 10 0) (P.f64.lit 1 0)
    "HeytingLean.Bridge.Sharma.AetherGovernor.validatorRegime",
  pdGovernorConfig P "gov-pty" (P.f64.lit 30 0) (P.f64.lit 900 0) (P.f64.lit 120 0)
    "HeytingLean.Bridge.Sharma.AetherGovernor.validatorRegime"]

/-- An entry whose values are all numbers. -/
def floatEntry (id source : String) (category : PolicyCategory) (values : List (String × P.f64.F))
    (formalBasis : Option String) : PolicyEntry P :=
  ⟨id, source, category, values.map fun (key, v) => (key, .float v), formalBasis⟩

def storageEvictionEntry (id source : String) (ceiling : Nat) : PolicyEntry P :=
  floatEntry P id source .evictionGuard [
    ("max_entries", P.f64.ofNat ceiling),
    ("reset_window_secs", P.f64.ofNat storageResetWindowSecs),
    ("chebyshev_k", P.f64.lit 2 0),
    ("decay_rate", P.f64.lit 5 2),
    ("impulse_magnitude", P.f64.lit 1 0)]
    (some "HeytingLean.Bridge.Sharma.AetherChebyshev.chebyshev_finite")

def basePolicyEntries : List (PolicyEntry P) := [
  floatEntry P "p2p_trust_floors" "halo::trust_score" .trustFloor
    [("anchored", P.f64.lit 5 1), ("staked", P.f64.lit 2 0)] none,
  { id := "production_trust_floors"
    source := "halo::trust"
    category := .trustFloor
    values := [
      ("max_safe", .float (P.f64.lit 3 1)),
      ("less_safe", .float (P.f64.lit 15 2)),
      ("low_security", .float (P.f64.lit 0 0)),
      ("default_tier", .text "MaxSafe")]
    formalBasis := none },
  floatEntry P "p2p_trust_thresholds" "halo::trust_score" .trustThreshold
    [("ping_only", P.f64.lit 0 0), ("gossip", P.f64.lit 1 1), ("route_low", P.f64.lit 5 1), ("route_high", P.f64.lit 5 0),
      ("attest", P.f64.lit 10 0), ("formation", P.f64.lit 15 0)] none,
  floatEntry P "production_trust_tiers" "halo::trust" .trustThreshold
    [("high", P.f64.lit 85 2), ("medium", P.f64.lit 65 2), ("cautious", P.f64.lit 4 1)] none,
  floatEntry P "production_scoring_weights" "halo::trust" .trustScoring
    [("base", P.f64.lit 2 1), ("completion", P.f64.lit 3 1), ("paid_success", P.f64.lit 25 2),
      ("attestation", P.f64.lit 15 2), ("recency", P.f64.lit 1 1), ("session_bonus", P.f64.lit 2 2)] none,
  floatEntry P "challenge_weights" "halo::trust_score" .trustScoring
    [("ping", P.f64.lit 1 1), ("standard", P.f64.lit 1 0), ("deep", P.f64.lit 5 0),
      ("failure_penalty", P.f64.neg (P.f64.lit 2 0))] none,
  floatEntry P "network_health_thresholds" "halo::trust_score" .networkHealth
    [("attack_challenge_failure_rate", P.f64.lit 5 1), ("attack_topology_overlap_min", P.f64.lit 1 1),
      ("attack_beacon_consensus_min", P.f64.lit 3 1), ("degraded_min_discovery_channels", P.f64.lit 2 0),
      ("degraded_min_reachable_beacons", P.f64.lit 2 0), ("degraded_max_new_peer_rate", P.f64.lit 50 0)] none,
  storageEvictionEntry P "vector_storage_eviction" "vector_index" defaultVectorCeiling,
  storageEvictionEntry P "blob_storage_eviction" "blob_store" defaultBlobCeiling]

end Defaults

/-! ### The digest -/

/-- One round of the loop over the entries. -/
def pushEntry (payload : String) (entry : PolicyEntry P) : String :=
  entry.values.foldl (fun payload kv => payload ++ ":" ++ kv.1 ++ "=" ++ kv.2.display) (payload ++ ":" ++ entry.id)

def snapshotPayload (entries : List (PolicyEntry P)) : String :=
  entries.foldl pushEntry ("agenthalo.policy.v" ++ toString policySchemaVersion)

def snapshotDigest (entries : List (PolicyEntry P)) : String := hashHex P .current (utf8 (snapshotPayload entries))

def recomputeDigest (entries : List (PolicyEntry P)) : String := snapshotDigest entries

/-- The entries of the governors of a registry. -/
def governorEntries (configs : List (GovernorConfig P)) : List (PolicyEntry P) :=
  configs.map fun config => governorConfigEntry "halo::governor_registry" config.instanceId config

def snapshotEntries (governorRegistry : Option (GovernorRegistry P)) : List (PolicyEntry P) :=
  basePolicyEntries P ++ storageGovernorEntries P ++
    governorEntries ((governorRegistry.map (·.configsAll)).getD (defaultRuntimeGovernorConfigs P))

def collectSnapshot (governorRegistry : Option (GovernorRegistry P)) (timestamp : UInt64) : PolicySnapshot P where
  schemaVersion := policySchemaVersion
  timestamp := timestamp
  entries := snapshotEntries governorRegistry
  digest := snapshotDigest (snapshotEntries governorRegistry)

/-! ### Pieces -/

/-- The pieces of a text between its colons. -/
def cut (s : String) : List (List Char) := s.toList.splitOn ':'

/-- The pieces of the texts that an entry puts into the payload: its id, and its names with their values. -/
def entryPieces (entry : PolicyEntry P) : List (List Char) :=
  cut entry.id ++ entry.values.flatMap fun kv => cut (kv.1 ++ "=" ++ kv.2.display)

def pieces (entries : List (PolicyEntry P)) : List (List Char) := entries.flatMap entryPieces

theorem cut_inj {s t : String} (h : cut s = cut t) : s = t := by
  have hlist := congrArg (List.intercalate [':']) h
  rw [cut, cut, List.intercalate_splitOn, List.intercalate_splitOn] at hlist
  exact String.toList_injective hlist

theorem cut_append (s t : String) : cut (s ++ ":" ++ t) = cut s ++ cut t := by
  have hlist : (s ++ ":" ++ t).toList = s.toList ++ ':' :: t.toList := by simp
  rw [cut, hlist, List.splitOn_append_cons_self]
  rfl

theorem cut_foldl_values (values : List (String × PolicyValue P)) (payload : String) :
    cut (values.foldl (fun payload kv => payload ++ ":" ++ kv.1 ++ "=" ++ kv.2.display) payload) =
      cut payload ++ values.flatMap fun kv => cut (kv.1 ++ "=" ++ kv.2.display) := by
  induction values generalizing payload with
  | nil => simp
  | cons kv rest ih =>
    have hpush : payload ++ ":" ++ kv.1 ++ "=" ++ kv.2.display = payload ++ ":" ++ (kv.1 ++ "=" ++ kv.2.display) := by
      simp only [String.append_assoc]
    rw [List.foldl_cons, ih, hpush, cut_append, List.flatMap_cons, List.append_assoc]

theorem cut_pushEntry (payload : String) (entry : PolicyEntry P) :
    cut (pushEntry payload entry) = cut payload ++ entryPieces entry := by
  rw [pushEntry, cut_foldl_values, cut_append, entryPieces, List.append_assoc]

theorem cut_foldl_pushEntry (entries : List (PolicyEntry P)) (payload : String) :
    cut (entries.foldl pushEntry payload) = cut payload ++ pieces entries := by
  induction entries generalizing payload with
  | nil => simp [pieces]
  | cons entry rest ih =>
    rw [List.foldl_cons, ih, cut_pushEntry, List.append_assoc]
    rfl

theorem snapshotPayload_eq_iff (entries entries' : List (PolicyEntry P)) :
    snapshotPayload entries = snapshotPayload entries' ↔ pieces entries = pieces entries' := by
  constructor
  · intro h
    have hcut := congrArg cut h
    rw [snapshotPayload, snapshotPayload, cut_foldl_pushEntry, cut_foldl_pushEntry] at hcut
    exact List.append_cancel_left hcut
  · intro h
    refine cut_inj ?_
    rw [snapshotPayload, snapshotPayload, cut_foldl_pushEntry, cut_foldl_pushEntry, h]

/-- The hash tells the payloads of the two lists apart. -/
def HashSeparates (entries entries' : List (PolicyEntry P)) : Prop :=
  Set.InjOn P.sha512 {utf8 (snapshotPayload entries), utf8 (snapshotPayload entries')}

theorem snapshotDigest_eq_iff {entries entries' : List (PolicyEntry P)} (hhash : HashSeparates entries entries') :
    snapshotDigest entries = snapshotDigest entries' ↔ pieces entries = pieces entries' := by
  rw [← snapshotPayload_eq_iff]
  refine ⟨fun h => ?_, fun h => by rw [snapshotDigest, snapshotDigest, h]⟩
  have hbytes : (P.sha512 (utf8 (snapshotPayload entries))).toList = (P.sha512 (utf8 (snapshotPayload entries'))).toList :=
    Text.hexEncode_inj h
  have hsame := hhash (Set.mem_insert _ _) (Set.mem_insert_of_mem _ rfl) (Vector.toList_inj.mp hbytes)
  exact Store.utf8_inj hsame

theorem pieces_append (entries entries' : List (PolicyEntry P)) :
    pieces (entries ++ entries') = pieces entries ++ pieces entries' := List.flatMap_append

theorem pieces_snapshotEntries_eq_iff (registry registry' : GovernorRegistry P) :
    pieces (snapshotEntries (some registry)) = pieces (snapshotEntries (some registry')) ↔
      pieces (governorEntries registry.configsAll) = pieces (governorEntries registry'.configsAll) := by
  simp only [snapshotEntries, Option.map_some, Option.getD_some, pieces_append, List.append_cancel_left_eq]

theorem test_iff {D S E : Prop} (htest : D ↔ S) (hsame : E → S) : (D ↔ E) ↔ (E ∨ ¬ S) := by tauto

/-- **What the digest detects**: of two lists of entries, or of the governors of two registries, the digests are equal exactly
if the lists are, provided that the lists are equal or their texts differ in some piece; and only then. -/
theorem digest_detects_iff (entries entries' : List (PolicyEntry P)) (registry registry' : GovernorRegistry P)
    (timestamp timestamp' : UInt64) (hentries : HashSeparates entries entries')
    (hregistry : HashSeparates (snapshotEntries (some registry)) (snapshotEntries (some registry'))) :
    ((recomputeDigest entries = recomputeDigest entries' ↔ entries = entries') ↔
      (entries = entries' ∨ pieces entries ≠ pieces entries')) ∧
    (((collectSnapshot (some registry) timestamp).digest = (collectSnapshot (some registry') timestamp').digest ↔
        registry.configsAll = registry'.configsAll) ↔
      (registry.configsAll = registry'.configsAll ∨
        pieces (governorEntries registry.configsAll) ≠ pieces (governorEntries registry'.configsAll))) := by
  have hlists : recomputeDigest entries = recomputeDigest entries' ↔ pieces entries = pieces entries' :=
    snapshotDigest_eq_iff hentries
  have hsnapshots : (collectSnapshot (some registry) timestamp).digest = (collectSnapshot (some registry') timestamp').digest ↔
      pieces (governorEntries registry.configsAll) = pieces (governorEntries registry'.configsAll) :=
    (snapshotDigest_eq_iff hregistry).trans (pieces_snapshotEntries_eq_iff registry registry')
  exact ⟨test_iff hlists fun h => by rw [h], test_iff hsnapshots fun h => by rw [h]⟩

/-! ### Changes that are not detected -/

def soloRegistry (config : GovernorConfig P) : GovernorRegistry P := ⟨[config], by simp⟩

theorem configsAll_soloRegistry (config : GovernorConfig P) : (soloRegistry config).configsAll = [config] := by
  simp [GovernorRegistry.configsAll, soloRegistry]

theorem snapshotEntries_solo {config config' : GovernorConfig P}
    (h : governorConfigEntry "halo::governor_registry" config.instanceId config =
      governorConfigEntry "halo::governor_registry" config'.instanceId config') :
    snapshotEntries (some (soloRegistry config)) = snapshotEntries (some (soloRegistry config')) := by
  simp only [snapshotEntries, Option.map_some, Option.getD_some, configsAll_soloRegistry, governorEntries, List.map_cons,
    List.map_nil, h]

def proxyConfig (P : Platform) : GovernorConfig P :=
  pdGovernorConfig P "gov-proxy" (P.f64.lit 1 0) (P.f64.lit 50 0) (P.f64.lit 2 0)
    "HeytingLean.Bridge.Sharma.AetherGovernor.lyapunov_descent"

def textEntry (P : Platform) (id : String) (values : List (String × String)) : PolicyEntry P :=
  ⟨id, "halo::trust", .trustFloor, values.map fun (key, s) => (key, .text s), none⟩

/-- On every platform, a governor may get a gain schedule or another id, and two values may become one, with the digest as it
was. -/
theorem drift_unseen :
    (∀ P : Platform, (collectSnapshot (some (soloRegistry (proxyConfig P))) 0).digest =
        (collectSnapshot (some (soloRegistry { proxyConfig P with adaptive := some (.default P) })) 0).digest ∧
      (soloRegistry (proxyConfig P)).configsAll ≠
        (soloRegistry { proxyConfig P with adaptive := some (.default P) }).configsAll) ∧
    (∀ P : Platform, (collectSnapshot (some (soloRegistry (proxyConfig P))) 0).digest =
        (collectSnapshot (some (soloRegistry { proxyConfig P with instanceId := "gov_proxy" })) 0).digest ∧
      (soloRegistry (proxyConfig P)).configsAll ≠
        (soloRegistry { proxyConfig P with instanceId := "gov_proxy" }).configsAll) ∧
    ∀ P : Platform, recomputeDigest [textEntry P "floors" [("a", "1"), ("b", "2")]] =
        recomputeDigest [textEntry P "floors" [("a", "1:b=2")]] ∧
      [textEntry P "floors" [("a", "1"), ("b", "2")]] ≠ [textEntry P "floors" [("a", "1:b=2")]] := by
  refine ⟨fun P => ⟨?_, ?_⟩, fun P => ⟨?_, ?_⟩, fun P => ⟨?_, ?_⟩⟩
  · exact congrArg snapshotDigest (snapshotEntries_solo rfl)
  · simp [configsAll_soloRegistry, proxyConfig, pdGovernorConfig]
  · have hrenamed : governorConfigEntry "halo::governor_registry" "gov-proxy" (proxyConfig P) =
        governorConfigEntry "halo::governor_registry" "gov_proxy" { proxyConfig P with instanceId := "gov_proxy" } := by
      unfold governorConfigEntry
      rw [show underscored "gov-proxy" = underscored "gov_proxy" by decide]
    exact congrArg snapshotDigest (snapshotEntries_solo hrenamed)
  · simp [configsAll_soloRegistry, proxyConfig, pdGovernorConfig]
  · have hpayload : snapshotPayload [textEntry P "floors" [("a", "1"), ("b", "2")]] =
        snapshotPayload [textEntry P "floors" [("a", "1:b=2")]] := by
      have hcut : cut "a=1" ++ cut "b=2" = cut "a=1:b=2" := by decide
      simp [snapshotPayload_eq_iff, pieces, entryPieces, textEntry, PolicyValue.display, hcut]
    rw [recomputeDigest, recomputeDigest, snapshotDigest, hpayload, snapshotDigest]
  · simp [textEntry]

/-- The text of a snapshot ends with the target and the gain of the last governor. -/
theorem exists_payload_solo (config : GovernorConfig P) :
    ∃ front, utf8 (snapshotPayload (snapshotEntries (some (soloRegistry config)))) = front ++ utf8 (":target=" ++
      P.f64.display config.target ++ ":gamma=" ++
        P.f64.display (P.f64.add config.alpha (P.f64.div config.beta config.dt))) := by
  simp only [snapshotPayload, snapshotEntries, List.foldl_append, Option.map_some, Option.getD_some,
    configsAll_soloRegistry, governorEntries, List.map_cons, List.map_nil, List.foldl_cons, List.foldl_nil]
  generalize List.foldl pushEntry _ (storageGovernorEntries P) = payload
  simp only [pushEntry, governorConfigEntry, List.foldl_cons, List.foldl_nil, PolicyValue.display]
  have hsplit (rest target gamma : String) :
      ∃ front, utf8 (rest ++ ":" ++ "target" ++ "=" ++ target ++ ":" ++ "gamma" ++ "=" ++ gamma) =
        front ++ utf8 (":target=" ++ target ++ ":gamma=" ++ gamma) := by
    refine ⟨utf8 rest, ?_⟩
    rw [← Text.utf8_append]
    simp only [String.append_assoc]
    rfl
  exact hsplit _ _ _

def retargeted : GovernorConfig .reference := { proxyConfig .reference with target := (3 : Rat) }

/-- An entry is added, and the governor gets another target. -/
theorem digest_detects_entry :
    recomputeDigest ([] : List (PolicyEntry .reference)) ≠ recomputeDigest [textEntry .reference "floors" []] ∧
    (collectSnapshot (some (soloRegistry (proxyConfig .reference))) 0).digest ≠
      (collectSnapshot (some (soloRegistry retargeted)) 1).digest := by
  have hne : Reference.digest 64 (utf8 (snapshotPayload ([] : List (PolicyEntry .reference)))) ≠
      Reference.digest 64 (utf8 (snapshotPayload [textEntry .reference "floors" []])) := by decide
  have hentries : HashSeparates [] [textEntry .reference "floors" []] := Identity.injOn_digest hne fun text htext => htext
  obtain ⟨front, hfront⟩ := exists_payload_solo (proxyConfig .reference)
  obtain ⟨front', hfront'⟩ := exists_payload_solo retargeted
  have hregistry : HashSeparates (snapshotEntries (some (soloRegistry (proxyConfig .reference))))
      (snapshotEntries (some (soloRegistry retargeted))) := by
    refine Identity.injOn_digest ?_ fun text htext => htext
    rw [hfront, hfront']
    exact Identity.digest_ne (i := 8) (by decide) _ _ (by decide +kernel) (by decide +kernel) (by decide +kernel)
  have h := digest_detects_iff [] [textEntry .reference "floors" []] (soloRegistry (proxyConfig .reference))
    (soloRegistry retargeted) 0 1 hentries hregistry
  refine ⟨fun heq => ?_, fun heq => ?_⟩
  · exact absurd ((h.1.mpr (.inr (by decide))).mp heq) (by simp)
  · have hconfigs := (h.2.mpr (.inr (by decide +kernel))).mp heq
    rw [configsAll_soloRegistry, configsAll_soloRegistry] at hconfigs
    have htarget : ((2 : Int) : Rat) / 10 ^ 0 = 3 := congrArg (·.target) (List.cons.inj hconfigs).1
    norm_num at htarget

end AgentHalo.Governance
