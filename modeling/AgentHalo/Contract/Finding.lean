import AgentHalo.Attest.Session
import AgentHalo.Contract.Digest
import AgentHalo.Contract.Recording
import AgentHalo.Identity.Sealing

/-!
# Looking an attestation up

A session's attestation is proved, posted to the contract, and looked up there by its digest. The digest of a session is a
SHA-512 hash, which the prover compresses to 32 bytes and the lookup refuses for its length: no attestation of a session is
found again, though the contract has recorded it (`recorded_not_found`).
-/

namespace AgentHalo.Contract

open Attest (AttestationResult TraceDb TraceFormat attestSession lengthPlatform greetingResult)
open Credential (digestBytes)
open Outcome Text
open Pod (hexDecode)

def circuitProveDomain : String := "agenthalo.circuit.prove.v1"
def hashCompressDomain : String := "agenthalo.circuit.hash_compress.v1"
def publicInputSchemaVersion : UInt32 := 1

/-! ### The proof -/

section Prove

variable (P : Platform)

/-- A hash of 32 bytes is taken as it is, one of 64 bytes is hashed. -/
def compressHash (raw : Bytes) : Except String NodeHash :=
  match toArray 32 raw with
  | some bytes => .ok bytes
  | none =>
    if raw.length = 64 then .ok (digestBytes P hashCompressDomain raw)
    else .error ("split_hash_u128: expected 32 or 64 bytes, got " ++ toString raw.length)

def splitHashU128 (hex : String) : Except String (Nat × Nat) := do
  let raw ← hexDecode hex
  let bytes ← compressHash P raw
  return Credential.splitHashU128 bytes

/-- The variables of the circuit; each is allocated as a public input and as a witness. -/
structure AttestationCircuit where
  merkle : Nat × Nat
  digest : Nat × Nat
  eventCount : UInt64

/-- The prover under a proving key: from a circuit and a seed. The words of a proof are its coordinates. -/
structure AttestationProver where
  Proof : Type
  prove : AttestationCircuit → NodeHash → Except String Proof
  coordinates : Proof → Vector Nat 8
  serializeCompressed : Proof → Except String Bytes

structure AttestationProofBundle where
  proofHex : String
  proofWords : Vector String 8
  publicInputs : List String
  publicInputSchemaVersion : UInt32

def buildPublicInputs (circuit : AttestationCircuit) : List String :=
  [toString circuit.merkle.1, toString circuit.merkle.2, toString circuit.digest.1, toString circuit.digest.2,
    toString circuit.eventCount]

def proveAttestation (prover : AttestationProver) (attestation : AttestationResult) :
    Except String AttestationProofBundle := do
  let merkle ← splitHashU128 P attestation.merkleRoot
  let digest ← splitHashU128 P attestation.attestationDigest
  let circuit : AttestationCircuit := ⟨merkle, digest, attestation.eventCount⟩
  let raw ← hexDecode attestation.attestationDigest
  let proof ← (prover.prove circuit (digestBytes P circuitProveDomain raw)).mapError ("prove failed: " ++ ·)
  let proofRaw ← (prover.serializeCompressed proof).mapError ("encode proof: " ++ ·)
  return {
    proofHex := hexEncode proofRaw
    proofWords := (prover.coordinates proof).map toString
    publicInputs := buildPublicInputs circuit
    publicInputSchemaVersion }

end Prove

/-! ### The call and the lookup -/

/-- The value of the numeral. -/
def castUint256 (s : String) : Option Uint256 :=
  (digitsValue s.toList).bind fun n => if n < 2 ^ 256 then some (BitVec.ofNat 256 n) else none

/-- The value of the numeral, after its `0x`. -/
def castBytes32 (s : String) : Option Bytes32 :=
  (stripPrefix s "0x").bind fun hex => (decodeHexExact 32 hex).map bytes32

/-- The call that `post_attestation` makes, if it is accepted. -/
def postAttestation (c : Deployment) (token : Transfer Storage) (ctx : Context) (bundle : AttestationProofBundle)
    (anonymous : Bool) (s : Storage) : Option Storage := do
  guard (bundle.publicInputSchemaVersion ≠ 0)
  let words ← bundle.proofWords.toList.mapM castUint256
  let proofWords : Vector Uint256 8 := Vector.ofFn fun i => words.getD i 0
  let publicInputs ← bundle.publicInputs.mapM castUint256
  if anonymous then (verifyAndRecordAnonymous c token ctx proofWords publicInputs s).toOption
  else (verifyAndRecord c token ctx proofWords publicInputs s).toOption

def normalizeDigest (digest : String) : Except String String := do
  let d := trim digest
  require (d != "") "attestation digest cannot be empty"
  if startsWith d "0x" then do
    require ((utf8 d).length == 66) "attestation digest must be 32 bytes"
    return d
  else do
    require ((utf8 d).length == 64) "attestation digest must be 32 bytes"
    return "0x" ++ d

/-- The lookup of a digest ends well and says that it is verified. -/
def Found (s : Storage) (attestationDigest : String) : Prop :=
  ∃ d word, normalizeDigest attestationDigest = .ok d ∧ castBytes32 d = some word ∧ isVerified s word = true

/-! ### What the call records -/

theorem castUint256_toString {n : Nat} (h : n < 2 ^ 256) : castUint256 (toString n) = some (BitVec.ofNat 256 n) := by
  have hdigits : (toString n).toList = Nat.toDigits 10 n := Nat.toList_repr
  rw [castUint256, hdigits, digitsValue_toDigits, Option.bind_some, if_pos h]

variable {c : Deployment} {token : Transfer Storage} {ctx : Context} {publicInputs : List Uint256} {s : Storage}

theorem splitHashU128_lt {hex : String} {pair : Nat × Nat} (h : splitHashU128 P hex = .ok pair) :
    pair.1 < 2 ^ 128 ∧ pair.2 < 2 ^ 128 := by
  unfold splitHashU128 at h
  simp only [bind, bind_eq_ok, pure, Except.pure, Except.ok.injEq] at h
  obtain ⟨raw, -, bytes, -, rfl⟩ := h
  exact Credential.splitHashU128_lt bytes

theorem castUint256_buildPublicInputs (circuit : AttestationCircuit) (hmerkle : circuit.merkle.1 < 2 ^ 128 ∧
    circuit.merkle.2 < 2 ^ 128) (hdigest : circuit.digest.1 < 2 ^ 128 ∧ circuit.digest.2 < 2 ^ 128) :
    (buildPublicInputs circuit).mapM castUint256 = some [BitVec.ofNat 256 circuit.merkle.1,
      BitVec.ofNat 256 circuit.merkle.2, BitVec.ofNat 256 circuit.digest.1, BitVec.ofNat 256 circuit.digest.2,
      BitVec.ofNat 256 circuit.eventCount.toNat] := by
  have hcount := circuit.eventCount.toNat_lt
  have hcast : castUint256 (toString circuit.eventCount) = some (BitVec.ofNat 256 circuit.eventCount.toNat) :=
    castUint256_toString (n := circuit.eventCount.toNat) (by omega)
  rw [mapM_eq_some_iff, buildPublicInputs]
  simp only [List.map_cons, List.map_nil, hcast]
  rw [castUint256_toString (by omega), castUint256_toString (by omega), castUint256_toString (by omega),
    castUint256_toString (by omega)]

theorem verifyAndRecordInternal_verified {proofWords : Vector Uint256 8} {attester : Address} {result : Attestation × Storage}
    (h : verifyAndRecordInternal c token ctx proofWords publicInputs attester s = .ok result) :
    isVerified result.2 (Attestation.ofInputs publicInputs).digest = true := by
  unfold verifyAndRecordInternal checkAttestation Storage.record at h
  simp only [bind, bind_eq_ok, pure, Except.pure, Except.ok.injEq] at h
  obtain ⟨_, ⟨_, -, _, -, _, -, _, -, rfl⟩, _, -, _, ⟨_, -, _, -, rfl⟩, rfl⟩ := h
  simp [isVerified]

theorem toOption_eq_some {ε α : Type} {x : Except ε α} {a : α} (h : x.toOption = some a) : x = .ok a := by
  cases x with
  | error e => cases h
  | ok b => rw [Option.some.inj h]

theorem digest_ofInputs (a b c d e : Uint256) : (Attestation.ofInputs [a, b, c, d, e]).digest = packBytes32 c d := rfl

theorem postAttestation_verified {bundle : AttestationProofBundle} {anonymous : Bool} {s' : Storage}
    (hinputs : bundle.publicInputs.mapM castUint256 = some publicInputs)
    (h : postAttestation c token ctx bundle anonymous s = some s') :
    isVerified s' (Attestation.ofInputs publicInputs).digest = true := by
  unfold postAttestation at h
  simp only [bind, Option.bind_eq_some_iff, hinputs, Option.some.injEq] at h
  obtain ⟨_, -, words, -, inputs, rfl, h⟩ := h
  cases anonymous with
  | false =>
    obtain ⟨result, hresult, hemitted⟩ := bind_eq_ok.mp (toOption_eq_some h)
    obtain rfl := Except.ok.inj hemitted
    exact verifyAndRecordInternal_verified hresult
  | true =>
    obtain ⟨result, hresult, hemitted⟩ := bind_eq_ok.mp (toOption_eq_some h)
    obtain rfl := Except.ok.inj hemitted
    exact verifyAndRecordInternal_verified hresult

theorem normalizeDigest_hashHex (P : Platform) (text : Bytes) :
    normalizeDigest (Identity.hashHex P .current text) = .error "attestation digest must be 32 bytes" := by
  have hlength : (utf8 (Identity.hashHex P .current text)).length = 128 := by
    rw [Identity.hashHex, utf8_hexEncode_length, Attest.length_hashBytes_current]
  have hne : Identity.hashHex P .current text ≠ "" := by
    intro hempty
    rw [hempty] at hlength
    cases hlength
  have htrim : trim (Identity.hashHex P .current text) = Identity.hashHex P .current text := Identity.trim_hexEncode _
  unfold normalizeDigest
  simp [htrim, hne, hlength, require, bind, Except.bind]

theorem attestationDigest_eq {F : TraceFormat P} {loaded loadedAgain : Except String TraceDb} {now : UInt64}
    {request : Attest.AttestationRequest} {a : AttestationResult}
    (h : attestSession F loaded loadedAgain now request = .ok a) :
    ∃ text, a.attestationDigest = Identity.hashHex P .current text := by
  obtain ⟨sessionId, anonymous⟩ := request
  unfold attestSession at h
  cases anonymous with
  | false =>
    simp only [bind, bind_eq_ok, pure, Except.pure, Except.ok.injEq, Bool.false_eq_true, if_false] at h
    obtain ⟨_, -, _, -, _, -, _, -, _, -, rfl⟩ := h
    exact ⟨_, rfl⟩
  | true =>
    simp only [bind, bind_eq_ok, pure, Except.pure, Except.ok.injEq, if_true] at h
    obtain ⟨_, -, _, -, _, -, _, -, _, -, _, -, _, -, rfl⟩ := h
    exact ⟨_, rfl⟩

/-- **Looking an attestation up**: what is posted of a session is recorded, under the word that the two halves make, and
the digest of the session does not find it. -/
theorem recorded_not_found {P : Platform} {F : TraceFormat P} {loaded loadedAgain : Except String TraceDb} {now : UInt64}
    {request : Attest.AttestationRequest} {a : AttestationResult}
    (ha : attestSession F loaded loadedAgain now request = .ok a) {prover : AttestationProver}
    {bundle : AttestationProofBundle} (hbundle : proveAttestation P prover a = .ok bundle) {c : Deployment}
    {token : Transfer Storage} {ctx : Context} {anonymous : Bool} {s s' : Storage}
    (hpost : postAttestation c token ctx bundle anonymous s = some s') :
    (∃ lo hi, splitHashU128 P a.attestationDigest = .ok (lo, hi) ∧
      isVerified s' (packBytes32 (BitVec.ofNat 256 lo) (BitVec.ofNat 256 hi)) = true) ∧ ¬ Found s' a.attestationDigest := by
  constructor
  · unfold proveAttestation at hbundle
    simp only [bind, bind_eq_ok, pure, Except.pure, Except.ok.injEq] at hbundle
    obtain ⟨merkle, hmerkle, digest, hdigest, _, -, _, -, _, -, rfl⟩ := hbundle
    have hinputs := castUint256_buildPublicInputs ⟨merkle, digest, a.eventCount⟩ (splitHashU128_lt hmerkle)
      (splitHashU128_lt hdigest)
    have hverified := postAttestation_verified hinputs hpost
    rw [digest_ofInputs] at hverified
    exact ⟨digest.1, digest.2, hdigest, hverified⟩
  · rintro ⟨d, word, hnormal, -, -⟩
    obtain ⟨text, htext⟩ := attestationDigest_eq ha
    rw [htext, normalizeDigest_hashHex] at hnormal
    cases hnormal

/-! ### The greeting on chain -/

def sampleProver : AttestationProver where
  Proof := Unit
  prove _ _ := .ok ()
  coordinates _ := Vector.replicate 8 1
  serializeCompressed _ := .ok [1]

def greetingHalves : Nat × Nat := Credential.splitHashU128 (Vector.replicate 32 99)

theorem splitHashU128_greeting (text : Bytes) :
    splitHashU128 lengthPlatform (Identity.hashHex lengthPlatform .current text) = .ok greetingHalves := by
  have hlength := Attest.length_hashBytes_current (P := lengthPlatform) text
  have hlong : toArray 32 (Identity.hashBytes lengthPlatform .current text) = none := by
    unfold toArray
    exact dif_neg (by omega)
  have hdomain : (utf8 hashCompressDomain ++ [0]).length = 35 := by decide
  have hbytes : digestBytes lengthPlatform hashCompressDomain
      (Identity.hashBytes lengthPlatform .current text) = Vector.replicate 32 99 := by
    change Vector.replicate 32 (UInt8.ofNat (utf8 hashCompressDomain ++ [0] ++ _).length) = _
    rw [List.length_append, hdomain, hlength]
    rfl
  unfold splitHashU128 Identity.hashHex
  rw [Pod.hexDecode_hexEncode]
  simp only [bind, Except.bind, compressHash, hlong, hlength, if_true, hbytes, pure, Except.pure]
  rfl

def greetingBundle : AttestationProofBundle :=
  ⟨hexEncode [1], (Vector.replicate 8 1).map toString, buildPublicInputs ⟨greetingHalves, greetingHalves, 1⟩,
    publicInputSchemaVersion⟩

theorem proveAttestation_greeting :
    proveAttestation lengthPlatform sampleProver (greetingResult 5) = .ok greetingBundle := by
  have hroot : Attest.attestedRoot [Attest.greeting] =
      Identity.hashHex lengthPlatform .current (Attest.leafInput (Attest.eventDigest Attest.greeting)) := by
    unfold Attest.attestedRoot
    rw [Attest.attestedTree_greeting]
    rfl
  have hmerkle : splitHashU128 lengthPlatform (greetingResult 5).merkleRoot = .ok greetingHalves := by
    change splitHashU128 _ (Attest.attestedRoot [Attest.greeting]) = _
    rw [hroot, splitHashU128_greeting]
  have hdigest : splitHashU128 lengthPlatform (greetingResult 5).attestationDigest = .ok greetingHalves :=
    splitHashU128_greeting _
  have hraw : hexDecode (greetingResult 5).attestationDigest = .ok (Identity.hashBytes lengthPlatform .current
      (utf8 (Attest.digestPayload "s" (Attest.attestedRoot [Attest.greeting]) 1))) := Pod.hexDecode_hexEncode _
  unfold proveAttestation
  rw [hmerkle, hdigest, hraw]
  simp only [bind, Except.bind, sampleProver, Except.mapError, pure, Except.pure]
  rfl

theorem greetingPosted_eq : ∃ bundle s', proveAttestation lengthPlatform sampleProver (greetingResult 5) =
    .ok bundle ∧ postAttestation sampleDeployment (.plain (some true)) (sampleContext 1) bundle false .initial = some s' := by
  have hpost : (postAttestation sampleDeployment (.plain (some true)) (sampleContext 1) greetingBundle false
      .initial).isSome = true := by decide +kernel
  obtain ⟨s', hs'⟩ := Option.isSome_iff_exists.mp hpost
  exact ⟨greetingBundle, s', proveAttestation_greeting, hs'⟩

/-- The greeting is recorded, and the lookup refuses its digest. -/
theorem greeting_refused : ∃ bundle s',
    attestSession Attest.greetingFormat (.ok Attest.greetingDb) (.ok Attest.greetingDb) 5 ⟨"s", false⟩ =
      .ok (greetingResult 5) ∧
    proveAttestation lengthPlatform sampleProver (greetingResult 5) = .ok bundle ∧
    postAttestation sampleDeployment (.plain (some true)) (sampleContext 1) bundle false .initial = some s' ∧
    normalizeDigest (greetingResult 5).attestationDigest = .error "attestation digest must be 32 bytes" := by
  obtain ⟨bundle, s', hbundle, hpost⟩ := greetingPosted_eq
  exact ⟨bundle, s', Attest.attestSession_greeting _ 5 _ List.mem_cons_self, hbundle, hpost, normalizeDigest_hashHex _ _⟩

theorem greeting_recorded_not_found : ∃ bundle s',
    postAttestation sampleDeployment (.plain (some true)) (sampleContext 1) bundle false .initial = some s' ∧
    (∃ lo hi, splitHashU128 lengthPlatform (greetingResult 5).attestationDigest = .ok (lo, hi) ∧
      isVerified s' (packBytes32 (BitVec.ofNat 256 lo) (BitVec.ofNat 256 hi)) = true) ∧
    ¬ Found s' (greetingResult 5).attestationDigest := by
  obtain ⟨bundle, s', hbundle, hpost⟩ := greetingPosted_eq
  exact ⟨bundle, s', hpost,
    recorded_not_found (Attest.attestSession_greeting (.ok Attest.greetingDb) 5 _ List.mem_cons_self) hbundle hpost⟩

end AgentHalo.Contract
