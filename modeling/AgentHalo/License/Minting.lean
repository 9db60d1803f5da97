import AgentHalo.License.Binding
import Mathlib.Data.String.Basic

/-!
# Minted certificates

The hex decoder of the source slices its text two bytes at a time, and panics where a slice would cut a character
(`Slicing.hexTo32`). Over it stands the verification as the source runs it; where it does not panic it has the outcome of
`verifyCertificate`. A certificate without a proof is accepted exactly if it has features, has not expired, fits the device,
and agrees with the one that is minted for what it states, in everything that is hashed (`verify_exact`).
-/

namespace AgentHalo.License

open Outcome
open Text (utf8 trim stripPrefix toBeBytes)

/-! ### The decoder that slices -/

namespace Slicing

/-- The pairs of a text, from a place where a character begins: a slice that ends within a character panics. A character of
two bytes is a slice of its own, and no digit. -/
def hexPairs : List Char → Option (Option Bytes)
  | [] => some (some [])
  | [c] => if c.utf8Size = 2 then some none else none
  | c :: d :: rest =>
    if c.utf8Size = 1 ∧ d.utf8Size = 1 then
      match hexPair c.val.toUInt8 d.val.toUInt8 with
      | none => some none
      | some b => (hexPairs rest).map (·.map (b :: ·))
    else if c.utf8Size = 2 then some none
    else none

def hexTo32 (hex : String) : Option (Option NodeHash) :=
  let s := (stripPrefix hex "0x").getD hex
  if (utf8 s).length ≠ 64 then some none else (hexPairs s.toList).map (·.bind (Text.toArray 32))

def decode (error : LicenseError) (hex : String) : Panicking LicenseError NodeHash :=
  ExceptT.mk ((hexTo32 hex).map (okOr error))

variable (P : Platform) (G : Groth16)

def compliancePuf : Option String → Panicking LicenseError NodeHash
  | some digest => do
    settled (require (!isNullDigestSentinel digest) .complianceInputMalformed)
    decode .complianceInputMalformed digest
  | none => settled (.ok (.replicate 32 0))

def buildComplianceCommitment (inputs : CompliancePublicInputs) : Panicking LicenseError NodeHash := do
  let feasibility ← decode .complianceInputMalformed inputs.feasibilityRoot
  let puf ← compliancePuf inputs.pufDigest
  settled (.ok (hcat P domainCompliance
    [feasibility.toList, toBeBytes inputs.replaySeq, [if inputs.pufDigest.isSome then 1 else 0], puf.toList]))

def checkCompliance (cert : LicenseCertificate) (foundation gotRoot gotLicensee : NodeHash) :
    Panicking LicenseError (NodeHash × Option String) := do
  let compliance ← settled (okOr .missingComplianceInputs cert.complianceInputs)
  let expectedCompliance ← buildComplianceCommitment P compliance
  let commitment ← settled (okOr .complianceCommitmentMismatch cert.complianceCommitment)
  let gotCompliance ← decode .complianceCommitmentMismatch commitment
  settled (require (gotCompliance == expectedCompliance) .complianceCommitmentMismatch)
  settled (comparePuf cert.pufDigest compliance.pufDigest)
  settled (.ok (hcat P domainLicenseV2
    [foundation.toList, gotRoot.toList, gotLicensee.toList, expectedCompliance.toList], compliance.pufDigest))

def expectedDigest (cert : LicenseCertificate) (foundation gotRoot gotLicensee : NodeHash) :
    Panicking LicenseError (NodeHash × Option String) :=
  if cert.version = versionV1 then
    settled (.ok (hcat P domainLicenseV1 [foundation.toList, gotRoot.toList, gotLicensee.toList], none))
  else checkCompliance P cert foundation gotRoot gotLicensee

def checkCommitments (cert : LicenseCertificate) : Panicking LicenseError (Option String) := do
  settled (require (cert.version == versionV1 || cert.version == versionV2) (.unsupportedVersion cert.version))
  settled (require (!cert.features.isEmpty) .emptyFeatures)
  let foundation ← decode .foundationMismatch cert.foundationCommitment
  settled (require (foundation == knownFoundation) .foundationMismatch)
  let gotRoot ← decode .rulesRootMismatch cert.rulesRoot
  settled (require (gotRoot == expectedRoot P cert) .rulesRootMismatch)
  let gotLicensee ← decode .licenseeCommitmentMismatch cert.licenseeCommitment
  settled (require (gotLicensee == expectedLicensee P cert) .licenseeCommitmentMismatch)
  let expected ← expectedDigest P cert foundation gotRoot gotLicensee
  let gotDigest ← decode .proofDigestMismatch cert.proofDigest
  settled (require (gotDigest == expected.1) .proofDigestMismatch)
  settled (.ok expected.2)

def checkDevice (envPuf : Option String) : Option String → Panicking LicenseError Unit
  | none => settled (.ok ())
  | some pufDigestHex => do
    settled (require (!isNullDigestSentinel pufDigestHex) .pufDigestMismatch)
    let expected ← decode .pufDigestMismatch pufDigestHex
    let raw ← settled (okOr .pufUnavailable envPuf)
    let current ← decode .pufUnavailable (trim raw)
    settled (require (current == expected) .pufDigestMismatch)

def verifyCertificate (envPuf : Option String) (now : UInt64) (cert : LicenseCertificate) :
    Panicking LicenseError LicenseLevel := do
  let complianceBoundPuf ← checkCommitments P cert
  settled (require (!decide (cert.expiryUnixSecs ≤ now)) .expired)
  settled (checkSnark G cert)
  checkDevice envPuf (cert.pufDigest.or complianceBoundPuf)
  settled (.ok (.pro (cert.features.filterMap ProFeature.ofString) cert.licensee cert.expiryUnixSecs))

/-! ### Where it does not panic -/

variable {b : UInt8} {puf envPuf : Option String} {cert : LicenseCertificate}

theorem hexNibble_of_ge (h : 128 ≤ b) : Text.hexNibble b = none := by
  have hb : 128 ≤ b.toNat := UInt8.le_iff_toNat_le.mp h
  simp only [Text.hexNibble, UInt8.le_iff_toNat_le, UInt8.toNat_ofNat]
  grind

theorem exists_lead {c : Char} (h : c.utf8Size ≠ 1) :
    ∃ b b' rest, String.utf8EncodeChar c = b :: b' :: rest ∧ 128 ≤ b := by
  have hpos := c.utf8Size_pos
  have hle := c.utf8Size_le_four
  have hor (x y : UInt8) (hy : 128 ≤ y) : 128 ≤ x ||| y := by
    rw [UInt8.le_iff_toNat_le] at hy ⊢
    rw [UInt8.toNat_or]
    exact hy.trans Nat.right_le_or
  obtain h2 | h3 | h4 : c.utf8Size = 2 ∨ c.utf8Size = 3 ∨ c.utf8Size = 4 := by omega
  · exact ⟨_, _, _, String.utf8EncodeChar_eq_cons_cons h2, hor _ _ (by decide)⟩
  · exact ⟨_, _, _, String.utf8EncodeChar_eq_cons_cons_cons h3, hor _ _ (by decide)⟩
  · exact ⟨_, _, _, String.utf8EncodeChar_eq_cons_cons_cons_cons h4, hor _ _ (by decide)⟩

theorem hexPairs_of_lead {b' : UInt8} (h : 128 ≤ b) (rest : Bytes) : License.hexPairs (b :: b' :: rest) = none := by
  have hplus : b ≠ 43 := by
    rintro rfl
    exact absurd h (by decide)
  rw [License.hexPairs, hexPair, if_neg hplus, hexNibble_of_ge h]
  rfl

theorem hexPairs_eq (cs : List Char) : hexPairs cs = some (License.hexPairs (cs.flatMap String.utf8EncodeChar)) ∨
    hexPairs cs = none ∧ License.hexPairs (cs.flatMap String.utf8EncodeChar) = none := by
  induction cs using hexPairs.induct with
  | case1 => exact .inl rfl
  | case2 c h2 =>
    obtain ⟨b, b', rest, hc, hb⟩ := exists_lead (c := c) (by omega)
    rw [hexPairs, if_pos h2, List.flatMap_singleton, hc, hexPairs_of_lead hb]
    exact .inl rfl
  | case3 c h2 =>
    rw [hexPairs, if_neg h2, List.flatMap_singleton]
    refine .inr ⟨rfl, ?_⟩
    by_cases h1 : c.utf8Size = 1
    · rw [String.utf8EncodeChar_eq_singleton h1]
      rfl
    · obtain ⟨b, b', rest, hc, hb⟩ := exists_lead h1
      rw [hc, hexPairs_of_lead hb]
  | case4 c d rest h1 hpair =>
    refine .inl ?_
    rw [hexPairs, if_pos h1, hpair, List.flatMap_cons, List.flatMap_cons, String.utf8EncodeChar_eq_singleton h1.1,
      String.utf8EncodeChar_eq_singleton h1.2, List.singleton_append, List.singleton_append, License.hexPairs, hpair]
    rfl
  | case5 c d rest h1 b hpair ih =>
    rw [hexPairs, if_pos h1, hpair, List.flatMap_cons, List.flatMap_cons, String.utf8EncodeChar_eq_singleton h1.1,
      String.utf8EncodeChar_eq_singleton h1.2, List.singleton_append, List.singleton_append, License.hexPairs, hpair]
    obtain hsome | ⟨hnone, htail⟩ := ih
    · rw [hsome]
      refine .inl ?_
      cases License.hexPairs (rest.flatMap String.utf8EncodeChar) <;> rfl
    · rw [hnone, htail]
      exact .inr ⟨rfl, rfl⟩
  | case6 c d rest h1 h2 =>
    obtain ⟨b, b', tail, hc, hb⟩ := exists_lead (c := c) (by omega)
    rw [hexPairs, if_neg h1, if_pos h2, List.flatMap_cons, hc, List.cons_append, List.cons_append, hexPairs_of_lead hb]
    exact .inl rfl
  | case7 c d rest h1 h2 =>
    rw [hexPairs, if_neg h1, if_neg h2]
    refine .inr ⟨rfl, ?_⟩
    by_cases hc1 : c.utf8Size = 1
    · obtain ⟨b, b', tail, hd, hb⟩ := exists_lead (c := d) fun hd1 => h1 ⟨hc1, hd1⟩
      have hpair : hexPair c.val.toUInt8 b = none := by
        unfold hexPair
        split_ifs
        · exact hexNibble_of_ge hb
        · rw [hexNibble_of_ge hb]
          cases Text.hexNibble c.val.toUInt8 <;> rfl
      rw [List.flatMap_cons, List.flatMap_cons, String.utf8EncodeChar_eq_singleton hc1, hd, List.singleton_append,
        List.cons_append, License.hexPairs, hpair]
      rfl
    · obtain ⟨b, b', tail, hc, hb⟩ := exists_lead hc1
      rw [List.flatMap_cons, hc, List.cons_append, List.cons_append, hexPairs_of_lead hb]

theorem hexTo32_eq (hex : String) : hexTo32 hex = some (License.hexTo32 hex) ∨
    hexTo32 hex = none ∧ License.hexTo32 hex = none := by
  unfold hexTo32 License.hexTo32
  dsimp only
  split_ifs
  · exact .inl rfl
  · obtain hsome | ⟨hnone, hbytes⟩ := hexPairs_eq ((stripPrefix hex "0x").getD hex).toList
    · rw [hsome]
      exact .inl rfl
    · rw [hnone]
      exact .inr ⟨rfl, by rw [utf8, hbytes]; rfl⟩

theorem follows_decode (error : LicenseError) (hex : String) :
    Follows (decode error hex) (okOr error (License.hexTo32 hex)) := by
  obtain hsome | ⟨hnone, hbytes⟩ := hexTo32_eq hex
  · have hrun : (decode error hex).run = some (okOr error (License.hexTo32 hex)) := by
      show (hexTo32 hex).map (okOr error) = _
      rw [hsome]
      rfl
    exact ⟨.inr hrun, fun a h => by rw [hrun, h]⟩
  · refine ⟨.inl ?_, fun a h => ?_⟩
    · show (hexTo32 hex).map (okOr error) = none
      rw [hnone]
      rfl
    · rw [hbytes] at h
      cases h

theorem follows_compliancePuf (puf : Option String) : Follows (compliancePuf puf) (License.compliancePuf puf) := by
  cases puf with
  | none => exact follows_settled _
  | some digest => exact (follows_settled _).bind fun _ => follows_decode _ _

theorem follows_buildComplianceCommitment (inputs : CompliancePublicInputs) :
    Follows (buildComplianceCommitment P inputs) (License.buildComplianceCommitment P inputs) := by
  have hassoc : License.buildComplianceCommitment P inputs =
      (okOr .complianceInputMalformed (License.hexTo32 inputs.feasibilityRoot) >>= fun feasibility =>
        License.compliancePuf inputs.pufDigest >>= fun puf =>
          .ok (hcat P domainCompliance
            [feasibility.toList, toBeBytes inputs.replaySeq, [if inputs.pufDigest.isSome then 1 else 0], puf.toList])) := by
    unfold License.buildComplianceCommitment complianceParts
    cases License.hexTo32 inputs.feasibilityRoot with
    | none => rfl
    | some feasibility => cases License.compliancePuf inputs.pufDigest <;> rfl
  rw [hassoc]
  exact (follows_decode _ _).bind fun _ => (follows_compliancePuf _).bind fun _ => follows_settled _

theorem follows_commitment (commitment : Option String) :
    Follows (settled (okOr LicenseError.complianceCommitmentMismatch commitment) >>= fun text =>
        decode .complianceCommitmentMismatch text)
      (okOr .complianceCommitmentMismatch (commitment.bind License.hexTo32)) := by
  cases commitment with
  | none => exact follows_settled (.error LicenseError.complianceCommitmentMismatch)
  | some text => exact follows_decode _ _

theorem follows_checkCompliance (cert : LicenseCertificate) (foundation gotRoot gotLicensee : NodeHash) :
    Follows (checkCompliance P cert foundation gotRoot gotLicensee)
      (License.checkCompliance P cert foundation gotRoot gotLicensee) := by
  unfold checkCompliance License.checkCompliance
  refine (follows_settled _).bind fun compliance => (follows_buildComplianceCommitment P compliance).bind fun expected => ?_
  rw [← bind_assoc]
  refine (follows_commitment _).bind fun got => (follows_settled _).bind fun _ => (follows_settled _).bind fun _ => ?_
  exact follows_settled _

theorem follows_expectedDigest (cert : LicenseCertificate) (foundation gotRoot gotLicensee : NodeHash) :
    Follows (expectedDigest P cert foundation gotRoot gotLicensee)
      (License.expectedDigest P cert foundation gotRoot gotLicensee) := by
  unfold expectedDigest License.expectedDigest
  split_ifs
  · exact follows_settled _
  · exact follows_checkCompliance P cert foundation gotRoot gotLicensee

theorem follows_checkCommitments (cert : LicenseCertificate) :
    Follows (checkCommitments P cert) (License.checkCommitments P cert) := by
  unfold checkCommitments License.checkCommitments
  refine (follows_settled _).bind fun _ => (follows_settled _).bind fun _ => (follows_decode _ _).bind fun foundation => ?_
  refine (follows_settled _).bind fun _ => (follows_decode _ _).bind fun gotRoot => (follows_settled _).bind fun _ => ?_
  refine (follows_decode _ _).bind fun gotLicensee => (follows_settled _).bind fun _ => ?_
  refine (follows_expectedDigest P cert foundation gotRoot gotLicensee).bind fun expected => ?_
  exact (follows_decode _ _).bind fun _ => (follows_settled _).bind fun _ => follows_settled _

theorem follows_evidence (envPuf : Option String) :
    Follows (settled (okOr LicenseError.pufUnavailable envPuf) >>= fun raw => decode .pufUnavailable (trim raw))
      (okOr .pufUnavailable (collectLocalPufEvidence envPuf)) := by
  cases envPuf with
  | none => exact follows_settled (.error LicenseError.pufUnavailable)
  | some raw =>
    have hevidence : collectLocalPufEvidence (some raw) = License.hexTo32 (trim raw) := by
      simp [collectLocalPufEvidence]
    have hpure : settled (okOr LicenseError.pufUnavailable (some raw)) = pure raw := rfl
    rw [hevidence, hpure, pure_bind]
    exact follows_decode _ _

theorem follows_checkDevice (envPuf puf : Option String) : Follows (checkDevice envPuf puf) (License.checkDevice envPuf puf) := by
  cases puf with
  | none => exact follows_settled _
  | some pufDigestHex =>
    unfold checkDevice License.checkDevice
    refine (follows_settled _).bind fun _ => (follows_decode _ _).bind fun expected => ?_
    rw [← bind_assoc]
    exact (follows_evidence envPuf).bind fun _ => follows_settled _

theorem follows_verifyCertificate (envPuf : Option String) (now : UInt64) (cert : LicenseCertificate) :
    Follows (verifyCertificate P G envPuf now cert) (License.verifyCertificate P G envPuf now cert) := by
  unfold verifyCertificate License.verifyCertificate
  refine (follows_checkCommitments P cert).bind fun bound => (follows_settled _).bind fun _ => ?_
  exact (follows_settled _).bind fun _ => (follows_checkDevice _ _).bind fun _ => follows_settled _

/-! ### ASCII text does not panic -/

def Ascii (text : String) : Prop := ∀ c ∈ text.toList, c.utf8Size = 1

theorem hexPairs_ne_none {cs : List Char} (h : ∀ c ∈ cs, c.utf8Size = 1) (heven : cs.length % 2 = 0) : hexPairs cs ≠ none := by
  induction cs using hexPairs.induct with
  | case1 => exact Option.some_ne_none _
  | case2 c => simp at heven
  | case3 c => simp at heven
  | case4 c d rest h1 hpair =>
    rw [hexPairs, if_pos h1, hpair]
    exact Option.some_ne_none _
  | case5 c d rest h1 b hpair ih =>
    rw [hexPairs, if_pos h1, hpair]
    have hrest := ih (fun x hx => h x (by simp [hx])) (by simp only [List.length_cons] at heven; omega)
    simpa using hrest
  | case6 c d rest h1 => exact absurd ⟨h c (by simp), h d (by simp)⟩ h1
  | case7 c d rest h1 => exact absurd ⟨h c (by simp), h d (by simp)⟩ h1

theorem length_utf8_of_ascii {text : String} (h : Ascii text) : (utf8 text).length = text.toList.length := by
  have hsum : (text.toList.map fun c => (String.utf8EncodeChar c).length) = text.toList.map fun _ => 1 :=
    List.map_congr_left fun c hc => by rw [String.length_utf8EncodeChar, h c hc]
  rw [utf8, List.length_flatMap, hsum]
  simp

theorem not_panics_decode {error : LicenseError} {hex : String} (h : Ascii hex) : ¬ Panics (decode error hex) := by
  have hstripped : Ascii ((stripPrefix hex "0x").getD hex) := by
    cases hstrip : stripPrefix hex "0x" with
    | none => exact h
    | some rest =>
      have happend := Text.eq_append_of_stripPrefix hstrip
      exact fun c hc => h c (by rw [happend]; simpa using .inr (.inr hc))
  have hdecode : hexTo32 hex ≠ none := by
    unfold hexTo32
    dsimp only
    split_ifs with hlength
    · exact Option.some_ne_none _
    · rw [length_utf8_of_ascii hstripped, not_not] at hlength
      simpa using hexPairs_ne_none hstripped (by rw [hlength])
  intro hpanics
  exact hdecode (Option.map_eq_none_iff.mp hpanics)

/-- The texts that are decoded. -/
structure AsciiDigests (envPuf : Option String) (cert : LicenseCertificate) : Prop where
  foundation : Ascii cert.foundationCommitment
  rulesRoot : Ascii cert.rulesRoot
  licensee : Ascii cert.licenseeCommitment
  proofDigest : Ascii cert.proofDigest
  commitment : ∀ text ∈ cert.complianceCommitment, Ascii text
  feasibility : ∀ inputs ∈ cert.complianceInputs, Ascii inputs.feasibilityRoot
  compliancePuf : ∀ inputs ∈ cert.complianceInputs, ∀ text ∈ inputs.pufDigest, Ascii text
  puf : ∀ text ∈ cert.pufDigest, Ascii text
  device : ∀ text ∈ envPuf, Ascii text

theorem not_panics_compliancePuf (h : ∀ text ∈ puf, Ascii text) : ¬ Panics (compliancePuf puf) := by
  cases puf with
  | none => exact not_panics_settled _
  | some digest => exact not_panics_bind (not_panics_settled _) fun _ _ => not_panics_decode (h digest rfl)

theorem not_panics_checkCompliance (h : AsciiDigests envPuf cert) (foundation gotRoot gotLicensee : NodeHash) :
    ¬ Panics (checkCompliance P cert foundation gotRoot gotLicensee) := by
  refine not_panics_bind (not_panics_settled _) fun inputs hinputs => ?_
  have hmem : inputs ∈ cert.complianceInputs := okOr_eq_ok.mp (Option.some.inj hinputs)
  refine not_panics_bind ?_ fun _ _ => not_panics_bind (not_panics_settled _) fun text htext => ?_
  · refine not_panics_bind (not_panics_decode (h.feasibility inputs hmem)) fun _ _ => ?_
    exact not_panics_bind (not_panics_compliancePuf (h.compliancePuf inputs hmem)) fun _ _ => not_panics_settled _
  · have hcommitment : text ∈ cert.complianceCommitment := okOr_eq_ok.mp (Option.some.inj htext)
    refine not_panics_bind (not_panics_decode (h.commitment text hcommitment)) fun _ _ => ?_
    refine not_panics_bind (not_panics_settled _) fun _ _ => not_panics_bind (not_panics_settled _) fun _ _ => ?_
    exact not_panics_settled _

theorem not_panics_checkCommitments (h : AsciiDigests envPuf cert) :
    ¬ Panics (checkCommitments P cert) := by
  refine not_panics_bind (not_panics_settled _) fun _ _ => not_panics_bind (not_panics_settled _) fun _ _ => ?_
  refine not_panics_bind (not_panics_decode h.foundation) fun _ _ => not_panics_bind (not_panics_settled _) fun _ _ => ?_
  refine not_panics_bind (not_panics_decode h.rulesRoot) fun _ _ => not_panics_bind (not_panics_settled _) fun _ _ => ?_
  refine not_panics_bind (not_panics_decode h.licensee) fun _ _ => not_panics_bind (not_panics_settled _) fun _ _ => ?_
  refine not_panics_bind ?_ fun _ _ => not_panics_bind (not_panics_decode h.proofDigest) fun _ _ => ?_
  · unfold expectedDigest
    split_ifs
    · exact not_panics_settled _
    · exact not_panics_checkCompliance P h _ _ _
  · exact not_panics_bind (not_panics_settled _) fun _ _ => not_panics_settled _

theorem not_panics_checkDevice (henv : ∀ text ∈ envPuf, Ascii text) (hpuf : ∀ text ∈ puf, Ascii text) :
    ¬ Panics (checkDevice envPuf puf) := by
  cases puf with
  | none => exact not_panics_settled _
  | some text =>
    refine not_panics_bind (not_panics_settled _) fun _ _ => not_panics_bind (not_panics_decode (hpuf text rfl)) fun _ _ => ?_
    refine not_panics_bind (not_panics_settled _) fun raw hraw => ?_
    have hmem : raw ∈ envPuf := okOr_eq_ok.mp (Option.some.inj hraw)
    refine not_panics_bind (not_panics_decode fun c hc => henv raw hmem c ?_) fun _ _ => not_panics_settled _
    rw [trim, String.toList_ofList] at hc
    exact List.dropWhile_subset _ (List.mem_reverse.mp (List.dropWhile_subset _ (List.mem_reverse.mp hc)))

theorem not_panics_verifyCertificate (envPuf : Option String) (now : UInt64) (h : AsciiDigests envPuf cert) :
    ¬ Panics (verifyCertificate P G envPuf now cert) := by
  refine not_panics_bind (not_panics_checkCommitments P h) fun bound hbound => ?_
  have hpuf : ∀ text ∈ cert.pufDigest.or bound, Ascii text := by
    have haccepted := (follows_checkCommitments P cert).ok_iff.mp hbound
    obtain ⟨-, -, -, -, compliance, haccepted, -⟩ := checkCommitments_eq_ok.mp haccepted
    intro text htext
    obtain hown | ⟨-, hother⟩ := Option.or_eq_some_iff.mp htext
    · exact h.puf text hown
    · cases haccepted with
      | v1 => cases hother
      | v2 _ hinputs => exact h.compliancePuf _ hinputs text hother
  refine not_panics_bind (not_panics_settled _) fun _ _ => not_panics_bind (not_panics_settled _) fun _ _ => ?_
  exact not_panics_bind (not_panics_checkDevice h.device hpuf) fun _ _ => not_panics_settled _

end Slicing

/-! ### Minting -/

namespace ProFeature

def asLeafStr : ProFeature → String
  | .multiTenant => "multi_tenant"
  | .mcpServer => "mcp_server"
  | .tui => "tui"
  | .ipaBackend => "ipa_backend"
  | .kzgBackend => "kzg_backend"
  | .certificateTransparency => "certificate_transparency"
  | .walReplay => "wal_replay"
  | .export => "export"
  | .batchSql => "batch_sql"
  | .configurableQuorum => "configurable_quorum"
  | .unlimitedEntries => "unlimited_entries"

end ProFeature

section Minting

variable (P : Platform)

def domainFoundation : String := "NucleusDB.CAB.Foundation|"

def computeFoundation : NodeHash := hcat P domainFoundation [utf8 "v1"]

/-- What both versions are minted from: the features as sorted texts, and the three commitments. -/
structure Commitments where
  featureStrs : List String
  foundation : NodeHash
  rulesRoot : NodeHash
  licenseeCommitment : NodeHash

def commitmentsOf (licensee : String) (features : List String) (expiryUnixSecs : UInt64) : Commitments where
  featureStrs := features.mergeSort fun a b => decide (a ≤ b)
  foundation := computeFoundation P
  rulesRoot := merkleRoot P ((features.mergeSort fun a b => decide (a ≤ b)).map (featureLeaf P))
  licenseeCommitment := hcat P domainLicensee [utf8 licensee, toBeBytes expiryUnixSecs]

/-- The first version, for the texts of the features. -/
def mintTexts (licensee : String) (features : List String) (expiryUnixSecs : UInt64) : LicenseCertificate :=
  let c := commitmentsOf P licensee features expiryUnixSecs
  { version := versionV1
    foundationCommitment := toHex c.foundation
    rulesRoot := toHex c.rulesRoot
    licenseeCommitment := toHex c.licenseeCommitment
    proofDigest := toHex (hcat P domainLicenseV1 [c.foundation.toList, c.rulesRoot.toList, c.licenseeCommitment.toList])
    licensee
    expiryUnixSecs
    features := c.featureStrs
    proofDigestPoseidon := none
    snarkProof := none
    pufDigest := none
    complianceInputs := none
    complianceCommitment := none }

/-- The second version, for the commitment of the compliance inputs. -/
def mintTextsV2 (licensee : String) (features : List String) (expiryUnixSecs : UInt64) (inputs : CompliancePublicInputs)
    (complianceCommitment : NodeHash) : LicenseCertificate :=
  let c := commitmentsOf P licensee features expiryUnixSecs
  { version := versionV2
    foundationCommitment := toHex c.foundation
    rulesRoot := toHex c.rulesRoot
    licenseeCommitment := toHex c.licenseeCommitment
    proofDigest := toHex (hcat P domainLicenseV2
      [c.foundation.toList, c.rulesRoot.toList, c.licenseeCommitment.toList, complianceCommitment.toList])
    licensee
    expiryUnixSecs
    features := c.featureStrs
    proofDigestPoseidon := none
    snarkProof := none
    pufDigest := inputs.pufDigest
    complianceInputs := some inputs
    complianceCommitment := some (toHex complianceCommitment) }

def mintCertificate (licensee : String) (features : List ProFeature) (expiryUnixSecs : UInt64) : LicenseCertificate :=
  mintTexts P licensee (features.map (·.asLeafStr)) expiryUnixSecs

def mintCertificateV2 (licensee : String) (features : List ProFeature) (expiryUnixSecs : UInt64)
    (inputs : CompliancePublicInputs) : Panicking LicenseError LicenseCertificate := do
  let complianceCommitment ← Slicing.buildComplianceCommitment P inputs
  settled (.ok (mintTextsV2 P licensee (features.map (·.asLeafStr)) expiryUnixSecs inputs complianceCommitment))

end Minting

/-! ### What is accepted -/

def SameDigest (text text' : String) : Prop := ∃ digest, hexTo32 text = some digest ∧ hexTo32 text' = some digest

/-- The certificates agree up to the spelling of digests and the order of features. -/
structure Agrees (cert minted : LicenseCertificate) : Prop where
  version : cert.version = minted.version
  foundation : SameDigest cert.foundationCommitment minted.foundationCommitment
  rulesRoot : SameDigest cert.rulesRoot minted.rulesRoot
  licenseeCommitment : SameDigest cert.licenseeCommitment minted.licenseeCommitment
  proofDigest : SameDigest cert.proofDigest minted.proofDigest
  licensee : cert.licensee = minted.licensee
  expiryUnixSecs : cert.expiryUnixSecs = minted.expiryUnixSecs
  features : cert.features.Perm minted.features

/-- The certificate agrees with the one that is minted for what it states. Of a certificate of the second version the
commitment agrees too, and where it has a fingerprint besides that of its compliance inputs, it is the same text. -/
inductive Genuine (P : Platform) (cert : LicenseCertificate) : Prop where
  | v1 (agrees : Agrees cert (mintTexts P cert.licensee cert.features cert.expiryUnixSecs))
  | v2 {inputs : CompliancePublicInputs} {complianceCommitment : NodeHash} (inputs_eq : cert.complianceInputs = some inputs)
      (commitment_ok : (Slicing.buildComplianceCommitment P inputs).run = some (.ok complianceCommitment))
      (agrees : Agrees cert
        (mintTextsV2 P cert.licensee cert.features cert.expiryUnixSecs inputs complianceCommitment))
      (commitment : ∃ text ∈ cert.complianceCommitment, SameDigest text (toHex complianceCommitment))
      (puf : ∀ p ∈ cert.pufDigest, ∀ q ∈ inputs.pufDigest, p = q)

/-- The fingerprint that the certificate asks for, if it asks for one, is that of the device. -/
def DeviceMatches (envPuf : Option String) (cert : LicenseCertificate) : Prop :=
  ∀ puf ∈ effectivePuf cert, isNullDigestSentinel puf = false ∧
    ∃ digest, hexTo32 puf = some digest ∧ ∃ raw ∈ envPuf, hexTo32 (trim raw) = some digest

section Accepted

variable {P : Platform} {G : Groth16} {envPuf : Option String} {now : UInt64} {cert : LicenseCertificate}

theorem checkDevice_eq_ok {puf : Option String} : checkDevice envPuf puf = .ok () ↔ ∀ text ∈ puf,
    isNullDigestSentinel text = false ∧ ∃ digest, hexTo32 text = some digest ∧
      ∃ raw ∈ envPuf, hexTo32 (trim raw) = some digest := by
  cases puf with
  | none => simp [checkDevice]
  | some text =>
    simp only [checkDevice, bind, bind_eq_ok, require_eq_ok, okOr_eq_ok, beq_iff_eq, Bool.not_eq_true', Option.mem_def,
      Option.some.injEq, forall_eq', collectLocalPufEvidence, Option.bind_eq_some_iff]
    constructor
    · rintro ⟨_, hnull, digest, hdigest, _, ⟨raw, hraw, hcurrent⟩, rfl⟩
      exact ⟨hnull, _, hdigest, raw, hraw, hcurrent⟩
    · rintro ⟨hnull, digest, hdigest, raw, hraw, hcurrent⟩
      exact ⟨(), hnull, digest, hdigest, digest, ⟨raw, hraw, hcurrent⟩, rfl⟩

variable {digest commitment : NodeHash} {inputs : CompliancePublicInputs} {features : List ProFeature}

theorem sameDigest_toHex {text : String} : SameDigest text (toHex digest) ↔ hexTo32 text = some digest := by
  unfold SameDigest
  rw [hexTo32_toHex]
  constructor
  · rintro ⟨digest', htext, hdigest⟩
    exact htext.trans hdigest.symm
  · intro htext
    exact ⟨digest, htext, rfl⟩

theorem perm_sorted (features : List String) : features.Perm (features.mergeSort fun a b => decide (a ≤ b)) :=
  (List.mergeSort_perm _ _).symm

theorem bound_eq_of_accepted {compliance : Option NodeHash} {bound : Option String}
    (h : ComplianceAccepted P cert compliance bound) : cert.pufDigest.or bound = effectivePuf cert := by
  unfold effectivePuf
  cases h with
  | v1 hv1 => rw [if_pos hv1]
  | v2 hv2 hinputs => rw [if_neg fun hv1 => versionV2_ne_versionV1 (hv2.symm.trans hv1), hinputs, Option.bind_some]

theorem buildComplianceCommitment_run :
    (Slicing.buildComplianceCommitment P inputs).run = some (.ok commitment) ↔
      ∃ parts, complianceParts inputs = .ok parts ∧ hcat P domainCompliance parts = commitment := by
  rw [(Slicing.follows_buildComplianceCommitment P inputs).ok_iff]
  simp only [buildComplianceCommitment, bind, bind_eq_ok, pure, Except.pure, Except.ok.injEq]

theorem commitment_iff : cert.complianceCommitment.bind hexTo32 = some digest ↔
    ∃ text ∈ cert.complianceCommitment, SameDigest text (toHex digest) := by
  simp only [sameDigest_toHex, Option.bind_eq_some_iff, Option.mem_def]

theorem checkCommitments_iff_genuine (hfoundation : computeFoundation P = knownFoundation) :
    (∃ bound, checkCommitments P cert = .ok bound ∧ cert.pufDigest.or bound = effectivePuf cert) ↔
      cert.features ≠ [] ∧ Genuine P cert := by
  constructor
  · rintro ⟨bound, hcheck, -⟩
    obtain ⟨hne, hcert, hroot, hlicensee, compliance, haccepted, hdigest⟩ := checkCommitments_eq_ok.mp hcheck
    refine ⟨hne, ?_⟩
    have hfound : SameDigest cert.foundationCommitment (toHex (computeFoundation P)) :=
      sameDigest_toHex.mpr (hfoundation ▸ hcert)
    cases haccepted with
    | v1 hv1 =>
      refine .v1 ⟨hv1, hfound, sameDigest_toHex.mpr hroot, sameDigest_toHex.mpr hlicensee, ?_, rfl, rfl, perm_sorted _⟩
      exact sameDigest_toHex.mpr (hdigest.trans (by rw [digestText, ← hfoundation]; rfl))
    | v2 hv2 hinputs hparts hcommitment hpuf =>
      refine .v2 hinputs (buildComplianceCommitment_run.mpr ⟨_, hparts, rfl⟩) ?_ (commitment_iff.mp hcommitment)
        (comparePuf_eq_ok.mp hpuf)
      refine ⟨hv2, hfound, sameDigest_toHex.mpr hroot, sameDigest_toHex.mpr hlicensee, ?_, rfl, rfl, perm_sorted _⟩
      exact sameDigest_toHex.mpr (hdigest.trans (by rw [digestText, ← hfoundation]; rfl))
  · rintro ⟨hne, hgenuine⟩
    cases hgenuine with
    | v1 h =>
      have haccepted : ComplianceAccepted P cert none none := .v1 h.version
      refine ⟨none, checkCommitments_eq_ok.mpr ⟨hne, hfoundation ▸ sameDigest_toHex.mp h.foundation,
        sameDigest_toHex.mp h.rulesRoot, sameDigest_toHex.mp h.licenseeCommitment, none, haccepted, ?_⟩,
        bound_eq_of_accepted haccepted⟩
      exact (sameDigest_toHex.mp h.proofDigest).trans (by rw [digestText, ← hfoundation]; rfl)
    | @v2 inputs _ hinputs hcommitment h htext hpuf =>
      obtain ⟨parts, hparts, rfl⟩ := buildComplianceCommitment_run.mp hcommitment
      have haccepted : ComplianceAccepted P cert (some (hcat P domainCompliance parts)) inputs.pufDigest :=
        .v2 h.version hinputs hparts (commitment_iff.mpr htext) (comparePuf_eq_ok.mpr hpuf)
      refine ⟨inputs.pufDigest, checkCommitments_eq_ok.mpr ⟨hne, hfoundation ▸ sameDigest_toHex.mp h.foundation,
        sameDigest_toHex.mp h.rulesRoot, sameDigest_toHex.mp h.licenseeCommitment, _, haccepted, ?_⟩,
        bound_eq_of_accepted haccepted⟩
      exact (sameDigest_toHex.mp h.proofDigest).trans (by rw [digestText, ← hfoundation]; rfl)

theorem verify_ok_iff (hfoundation : computeFoundation P = knownFoundation) (hsnark : cert.snarkProof = none) :
    (∃ level, (Slicing.verifyCertificate P G envPuf now cert).run = some (.ok level)) ↔
      cert.features ≠ [] ∧ now < cert.expiryUnixSecs ∧ DeviceMatches envPuf cert ∧ Genuine P cert := by
  have hproof : checkSnark G cert = .ok () := by rw [checkSnark, hsnark]
  simp only [(Slicing.follows_verifyCertificate P G envPuf now cert).ok_iff, verifyCertificate_eq_ok]
  constructor
  · rintro ⟨level, bound, hcheck, hnow, -, hdevice, -⟩
    obtain ⟨-, -, -, -, compliance, haccepted, -⟩ := checkCommitments_eq_ok.mp hcheck
    have hbound := bound_eq_of_accepted haccepted
    obtain ⟨hne, hgenuine⟩ := (checkCommitments_iff_genuine hfoundation).mp ⟨bound, hcheck, hbound⟩
    exact ⟨hne, hnow, checkDevice_eq_ok.mp (hbound ▸ hdevice), hgenuine⟩
  · rintro ⟨hne, hnow, hdevice, hgenuine⟩
    obtain ⟨bound, hcheck, hbound⟩ := (checkCommitments_iff_genuine hfoundation).mpr ⟨hne, hgenuine⟩
    exact ⟨_, bound, hcheck, hnow, hproof, hbound ▸ checkDevice_eq_ok.mpr hdevice, rfl⟩

theorem commitmentsOf_sorted (licensee : String) (features : List String) (expiry : UInt64) :
    commitmentsOf P licensee (commitmentsOf P licensee features expiry).featureStrs expiry =
      commitmentsOf P licensee features expiry := by
  have hsorted := @List.pairwise_mergeSort String (fun a b => decide (a ≤ b))
    (fun a b c hab hbc => decide_eq_true ((of_decide_eq_true hab).trans (of_decide_eq_true hbc)))
    (fun a b => by simpa using le_total a b) features
  simp only [commitmentsOf, List.mergeSort_of_pairwise hsorted]

theorem sameDigest_self (digest : NodeHash) : SameDigest (toHex digest) (toHex digest) :=
  sameDigest_toHex.mpr (hexTo32_toHex digest)

theorem genuine_mintTexts (licensee : String) (features : List String) (expiry : UInt64) :
    Genuine P (mintTexts P licensee features expiry) := by
  refine .v1 ?_
  have hagrees : Agrees (mintTexts P licensee features expiry)
      (mintTexts P licensee (commitmentsOf P licensee features expiry).featureStrs expiry) := by
    unfold mintTexts
    rw [commitmentsOf_sorted]
    exact ⟨rfl, sameDigest_self _, sameDigest_self _, sameDigest_self _, sameDigest_self _, rfl, rfl, .refl _⟩
  exact hagrees

theorem genuine_mintTextsV2 (licensee : String) (features : List String) (expiry : UInt64)
    (h : (Slicing.buildComplianceCommitment P inputs).run = some (.ok commitment)) :
    Genuine P (mintTextsV2 P licensee features expiry inputs commitment) := by
  refine .v2 rfl h ?_ ⟨_, rfl, sameDigest_self _⟩ fun p hp q hq => Option.some.inj (hp.symm.trans hq)
  have hagrees : Agrees (mintTextsV2 P licensee features expiry inputs commitment)
      (mintTextsV2 P licensee (commitmentsOf P licensee features expiry).featureStrs expiry inputs commitment) := by
    unfold mintTextsV2
    rw [commitmentsOf_sorted]
    exact ⟨rfl, sameDigest_self _, sameDigest_self _, sameDigest_self _, sameDigest_self _, rfl, rfl, .refl _⟩
  exact hagrees

theorem featureStrs_ne_nil (h : features ≠ []) (licensee : String) (expiry : UInt64) :
    (commitmentsOf P licensee (features.map (·.asLeafStr)) expiry).featureStrs ≠ [] := by
  intro hnil
  have hlength := congrArg List.length hnil
  rw [commitmentsOf, List.length_mergeSort, List.length_map] at hlength
  exact h (List.eq_nil_of_length_eq_zero hlength)

theorem mintCertificateV2_run {licensee : String} {expiry : UInt64} {minted : LicenseCertificate}
    (h : (mintCertificateV2 P licensee features expiry inputs).run = some (.ok minted)) :
    ∃ commitment, (Slicing.buildComplianceCommitment P inputs).run = some (.ok commitment) ∧
      mintTextsV2 P licensee (features.map (·.asLeafStr)) expiry inputs commitment = minted := by
  have hfollows : Follows (mintCertificateV2 P licensee features expiry inputs)
      (buildComplianceCommitment P inputs >>= fun commitment =>
        .ok (mintTextsV2 P licensee (features.map (·.asLeafStr)) expiry inputs commitment)) :=
    (Slicing.follows_buildComplianceCommitment P inputs).bind fun _ => follows_settled _
  obtain ⟨commitment, hcommitment, hminted⟩ := bind_eq_ok.mp (hfollows.ok_iff.mp h)
  exact ⟨commitment, (Slicing.follows_buildComplianceCommitment P inputs).ok_iff.mpr hcommitment, Except.ok.inj hminted⟩

end Accepted

/-- **The verification is exact**: on certificates whose digests are ASCII texts it does not panic, it accepts a certificate
without a proof exactly if this is genuine, has features, has not expired and fits the device, and what is minted with a
feature is accepted before it expires, on the device that it names. -/
theorem verify_exact (P : Platform) (G : Groth16) (hfoundation : computeFoundation P = knownFoundation)
    (envPuf : Option String) (now : UInt64) :
    (∀ cert, Slicing.AsciiDigests envPuf cert → ¬ Panics (Slicing.verifyCertificate P G envPuf now cert)) ∧
    (∀ cert, cert.snarkProof = none →
      ((∃ level, (Slicing.verifyCertificate P G envPuf now cert).run = some (.ok level)) ↔
        cert.features ≠ [] ∧ now < cert.expiryUnixSecs ∧ DeviceMatches envPuf cert ∧ Genuine P cert)) ∧
    (∀ licensee features expiry, features ≠ [] → now < expiry → ∃ level,
      (Slicing.verifyCertificate P G envPuf now (mintCertificate P licensee features expiry)).run = some (.ok level)) ∧
    (∀ licensee features expiry inputs minted, features ≠ [] → now < expiry →
      (mintCertificateV2 P licensee features expiry inputs).run = some (.ok minted) → DeviceMatches envPuf minted →
      ∃ level, (Slicing.verifyCertificate P G envPuf now minted).run = some (.ok level)) := by
  refine ⟨fun cert hascii => Slicing.not_panics_verifyCertificate P G envPuf now hascii,
    fun cert hsnark => verify_ok_iff hfoundation hsnark, ?_, ?_⟩
  · intro licensee features expiry hne hnow
    refine (verify_ok_iff hfoundation rfl).mpr
      ⟨featureStrs_ne_nil (P := P) hne licensee expiry, hnow, ?_, genuine_mintTexts licensee _ expiry⟩
    -- the first version names no device
    exact fun puf hpuf => nomatch hpuf
  · intro licensee features expiry inputs minted hne hnow hminted hdevice
    obtain ⟨commitment, hcommitment, rfl⟩ := mintCertificateV2_run hminted
    exact (verify_ok_iff hfoundation rfl).mpr
      ⟨featureStrs_ne_nil (P := P) hne licensee expiry, hnow, hdevice, genuine_mintTextsV2 licensee _ expiry hcommitment⟩

/-! ### A panic, and certificates that are not minted -/

def foundedPlatform : Platform :=
  { Platform.reference with
    sha256 := fun text => if text = hcatText domainFoundation [utf8 "v1"] then knownFoundation else Reference.digest 32 text }

theorem computeFoundation_founded : computeFoundation foundedPlatform = knownFoundation := by
  have hsha256 : foundedPlatform.sha256 = fun text =>
      if text = hcatText domainFoundation [utf8 "v1"] then knownFoundation else Reference.digest 32 text := rfl
  rw [computeFoundation, hcat, hsha256]
  exact if_pos rfl

/-- A license for one feature. -/
theorem verify_exact_tui :
    ∃ level, (Slicing.verifyCertificate foundedPlatform noGroth16 none 1 (mintCertificate foundedPlatform "a" [.tui] 2)).run =
      some (.ok level) :=
  (verify_exact foundedPlatform noGroth16 computeFoundation_founded none 1).2.2.1 "a" [.tui] 2 (by simp) (by decide)

theorem verify_of_no_features {P : Platform} {G : Groth16} {envPuf : Option String} {now : UInt64}
    {cert : LicenseCertificate} (hversion : cert.version = versionV1) (hfeatures : cert.features = []) :
    (Slicing.verifyCertificate P G envPuf now cert).run = some (.error .emptyFeatures) := by
  unfold Slicing.verifyCertificate Slicing.checkCommitments
  rw [hversion, hfeatures]
  rfl

/-- A certificate with a commitment of 64 bytes that begins with a character of three bytes. -/
def euroCertificate : LicenseCertificate :=
  { lockable none with foundationCommitment := "€0000000000000000000000000000000000000000000000000000000000000" }

/-- The verification panics on a text, it does not accept what is minted without features, and it accepts a feature that
cannot be minted. -/
theorem not_exact : Panics (Slicing.verifyCertificate foundedPlatform noGroth16 none 1 euroCertificate) ∧
    (Slicing.verifyCertificate foundedPlatform noGroth16 none 1 (mintCertificate foundedPlatform "a" [] 2)).run =
      some (.error .emptyFeatures) ∧
    (∃ level, (Slicing.verifyCertificate foundedPlatform noGroth16 none 1 (mintTexts foundedPlatform "a" ["x"] 2)).run =
      some (.ok level)) ∧
    ∀ features : List ProFeature, ¬ (mintTexts foundedPlatform "a" ["x"] 2).features.Perm (features.map (·.asLeafStr)) := by
  have hfeatures : (mintTexts foundedPlatform "a" ["x"] 2).features = ["x"] := List.mergeSort_singleton "x"
  refine ⟨rfl, verify_of_no_features rfl List.mergeSort_nil, ?_, ?_⟩
  · have hne : (mintTexts foundedPlatform "a" ["x"] 2).features ≠ [] := by
      rw [hfeatures]
      exact List.cons_ne_nil _ _
    have hdevice : DeviceMatches none (mintTexts foundedPlatform "a" ["x"] 2) := fun puf hpuf => nomatch hpuf
    exact (verify_ok_iff computeFoundation_founded rfl).mpr ⟨hne, by decide, hdevice, genuine_mintTexts _ _ _⟩
  · intro features hperm
    have hx : "x" ∈ features.map (·.asLeafStr) := hperm.subset (by rw [hfeatures]; exact List.mem_singleton_self _)
    obtain ⟨feature, -, hfeature⟩ := List.mem_map.mp hx
    cases feature <;> exact absurd hfeature (by decide)

end AgentHalo.License
