import AgentHalo.Base.Reference
import AgentHalo.License.Certificate
import AgentHalo.Store.Codec

/-!
# What the digest of a license binds

Two accepted certificates of one version and one digest state the same licensee, expiry and features, and in the second
version the same compliance inputs, if nothing that is hashed for them collides. The fingerprint of the device is hashed
only as part of the compliance inputs, so the digest binds everything exactly if they have one (`binds_iff`).
-/

namespace AgentHalo.License

open HashTree (Hasher build)
open Outcome
open Text (utf8 toBeBytes)

variable {P : Platform} {G : Groth16}

/-! ### What is hashed -/

/-- How the features are hashed to the rules root. -/
def featureHasher (P : Platform) : Hasher String NodeHash where
  leaf := featureLeaf P
  node := merkleNode P

def sortedFeatures (cert : LicenseCertificate) : List String := cert.features.mergeSort fun a b => decide (a ≤ b)

def featureTree (cert : LicenseCertificate) : Option (HashTree String) := build ((sortedFeatures cert).map .leaf)

/-- What is hashed for a feature or a pair. -/
def treeText : String ⊕ NodeHash × NodeHash → Bytes
  | .inl feature => featureText feature
  | .inr pair => nodeText pair.1 pair.2

def licenseeText (cert : LicenseCertificate) : Bytes := hcatText domainLicensee (licenseeParts cert)

/-- The parts of a digest: the commitments, with that of the compliance inputs in the second version. -/
def digestText (P : Platform) (cert : LicenseCertificate) : Option NodeHash → Bytes
  | none => hcatText domainLicenseV1 [knownFoundation.toList, (expectedRoot P cert).toList, (expectedLicensee P cert).toList]
  | some compliance =>
    hcatText domainLicenseV2
      [knownFoundation.toList, (expectedRoot P cert).toList, (expectedLicensee P cert).toList, compliance.toList]

def hashedCompliance (cert : LicenseCertificate) : Option (List Bytes) :=
  if cert.version = versionV1 then none else cert.complianceInputs.bind fun inputs => (complianceParts inputs).toOption

def hashedTexts (P : Platform) (cert : LicenseCertificate) : List Bytes :=
  ((featureTree cert).toList.flatMap (HashTree.inputs (featureHasher P))).map treeText ++
    licenseeText cert :: digestText P cert ((hashedCompliance cert).map (hcat P domainCompliance)) ::
      ((hashedCompliance cert).map (hcatText domainCompliance)).toList

theorem apply_featureHasher (input : String ⊕ NodeHash × NodeHash) :
    (featureHasher P).apply input = P.sha256 (treeText input) := by cases input <;> rfl

variable {input : String ⊕ NodeHash × NodeHash} {c c' : LicenseCertificate} {parts : List Bytes}
  {expected : NodeHash × Option String}

theorem treeText_inj {input' : String ⊕ NodeHash × NodeHash} (h : treeText input = treeText input') :
    input = input' := by
  cases input with
  | inl feature =>
    cases input' with
    | inl feature' =>
      have htext := Store.utf8_inj (List.cons.inj h).2
      rw [← String.toList_inj, String.toList_append, String.toList_append] at htext
      exact congrArg Sum.inl (String.toList_inj.mp (List.append_cancel_left htext))
    | inr pair => exact absurd (List.cons.inj h).1 (by decide)
  | inr pair =>
    cases input' with
    | inl feature => exact absurd (List.cons.inj h).1 (by decide)
    | inr pair' =>
      obtain ⟨hleft, hright⟩ := List.append_inj (List.cons.inj h).2 (by simp)
      exact congrArg Sum.inr (Prod.ext (Vector.toList_inj.mp hleft) (Vector.toList_inj.mp hright))

theorem toBeBytes_length (w : UInt64) : (toBeBytes w).length = 8 := by
  unfold toBeBytes
  rw [List.length_reverse, Text.toLeBytes_length]

theorem toBeBytes_inj {v w : UInt64} (h : toBeBytes v = toBeBytes w) : v = w := by
  have hle := List.reverse_injective h
  rw [← Text.fromLeBytes_toLeBytes v, hle, Text.fromLeBytes_toLeBytes]

theorem licenseeText_inj (h : licenseeText c = licenseeText c') :
    c.licensee = c'.licensee ∧ c.expiryUnixSecs = c'.expiryUnixSecs := by
  have hparts : utf8 c.licensee ++ toBeBytes c.expiryUnixSecs = utf8 c'.licensee ++ toBeBytes c'.expiryUnixSecs := by
    simpa [licenseeParts] using List.append_cancel_left h
  obtain ⟨hlicensee, hexpiry⟩ := List.append_inj' hparts (by rw [toBeBytes_length, toBeBytes_length])
  exact ⟨Store.utf8_inj hlicensee, toBeBytes_inj hexpiry⟩

theorem nodes_inj {front front' : NodeHash} {back back' : Bytes} (h : front.toList ++ back = front'.toList ++ back') :
    front = front' ∧ back = back' := by
  obtain ⟨hfront, hback⟩ := List.append_inj h (by simp)
  exact ⟨Vector.toList_inj.mp hfront, hback⟩

variable {compliance : Option NodeHash}

theorem digestText_inj {compliance' : Option NodeHash} (hsame : compliance.isSome = compliance'.isSome)
    (h : digestText P c compliance = digestText P c' compliance') :
    expectedRoot P c = expectedRoot P c' ∧ expectedLicensee P c = expectedLicensee P c' ∧ compliance = compliance' := by
  cases compliance with
  | none =>
    cases compliance' with
    | none =>
      have hparts := (nodes_inj (List.append_cancel_left h)).2
      obtain ⟨hroot, hlicensee⟩ := nodes_inj hparts
      exact ⟨hroot, (nodes_inj hlicensee).1, rfl⟩
    | some compliance' => cases hsame
  | some compliance =>
    cases compliance' with
    | none => cases hsame
    | some compliance' =>
      have hparts := (nodes_inj (List.append_cancel_left h)).2
      obtain ⟨hroot, hrest⟩ := nodes_inj hparts
      obtain ⟨hlicensee, hcompliance⟩ := nodes_inj hrest
      exact ⟨hroot, hlicensee, congrArg some (nodes_inj hcompliance).1⟩

/-! ### What is accepted -/

theorem hexPair_digits {hi lo h l : UInt8} (hhi : Text.hexNibble hi = some h) (hlo : Text.hexNibble lo = some l) :
    hexPair hi lo = some ((h <<< 4) ||| l) := by
  have hplus : hi ≠ 43 := by
    rintro rfl
    cases hhi
  rw [hexPair, if_neg hplus, hhi, hlo]
  rfl

theorem hexPairs_of_decodeHexPairs {digits bytes : Bytes} (h : Text.decodeHexPairs digits = some bytes) :
    hexPairs digits = some bytes := by
  induction digits using Text.decodeHexPairs.induct generalizing bytes with
  | case1 hi lo rest ih =>
    rw [Text.decodeHexPairs] at h
    simp only [bind, pure, Option.bind_eq_some_iff, Option.some.injEq] at h
    obtain ⟨x, hx, y, hy, tail, htail, rfl⟩ := h
    rw [hexPairs, hexPair_digits hx hy, ih htail]
    rfl
  | case2 => exact h
  | case3 => cases h

theorem hexTo32_toHex (node : NodeHash) : hexTo32 (toHex node) = some node := by
  unfold hexTo32 toHex
  rw [Text.stripPrefix_append, Option.getD_some]
  simp only [Text.utf8_hexEncode_length, Vector.length_toList]
  rw [if_neg (by decide), hexPairs_of_decodeHexPairs (Text.decodeHexPairs_hexEncode _), Option.bind_some,
    Text.toArray_toList]

variable {puf bound envPuf : Option String}

theorem compliancePuf_eq_ok {node : NodeHash} : compliancePuf puf = .ok node ↔ puf = none ∧ .replicate 32 0 = node ∨
        ∃ digest, puf = some digest ∧ isNullDigestSentinel digest = false ∧ hexTo32 digest = some node := by
  cases puf with
  | none => simp [compliancePuf]
  | some digest => simp [compliancePuf, bind, bind_eq_ok]

variable {inputs : CompliancePublicInputs}

theorem complianceParts_eq_ok : complianceParts inputs = .ok parts ↔
      ∃ feasibility puf, hexTo32 inputs.feasibilityRoot = some feasibility ∧ compliancePuf inputs.pufDigest = .ok puf ∧
        [feasibility.toList, toBeBytes inputs.replaySeq, [if inputs.pufDigest.isSome then 1 else 0], puf.toList] = parts := by
  simp only [complianceParts, bind, bind_eq_ok, pure, Except.pure, okOr_eq_ok, Except.ok.injEq, exists_and_left]

theorem comparePuf_eq_ok {certPuf compPuf : Option String} :
    comparePuf certPuf compPuf = .ok () ↔ ∀ p ∈ certPuf, ∀ q ∈ compPuf, p = q := by
  cases certPuf <;> cases compPuf <;> simp [comparePuf]

variable {cert : LicenseCertificate}

theorem checkCompliance_eq_ok {foundation gotRoot gotLicensee : NodeHash} :
    checkCompliance P cert foundation gotRoot gotLicensee = .ok expected ↔
      ∃ inputs parts, cert.complianceInputs = some inputs ∧ complianceParts inputs = .ok parts ∧
        cert.complianceCommitment.bind hexTo32 = some (hcat P domainCompliance parts) ∧
        comparePuf cert.pufDigest inputs.pufDigest = .ok () ∧
        (hcat P domainLicenseV2 [foundation.toList, gotRoot.toList, gotLicensee.toList,
          (hcat P domainCompliance parts).toList], inputs.pufDigest) = expected := by
  unfold checkCompliance buildComplianceCommitment
  simp only [bind, bind_eq_ok, pure, Except.pure, okOr_eq_ok, require_eq_ok, Except.ok.injEq, beq_iff_eq]
  constructor
  · rintro ⟨inputs, hinputs, _, ⟨parts, hparts, rfl⟩, _, hgot, _, rfl, _, hpuf, rfl⟩
    exact ⟨inputs, parts, hinputs, hparts, hgot, hpuf, rfl⟩
  · rintro ⟨inputs, parts, hinputs, hparts, hgot, hpuf, rfl⟩
    exact ⟨inputs, hinputs, _, ⟨parts, hparts, rfl⟩, _, hgot, (), rfl, (), hpuf, rfl⟩

/-- What the version asks for: in the second one compliance inputs and their commitment. -/
inductive ComplianceAccepted (P : Platform) (cert : LicenseCertificate) : Option NodeHash → Option String → Prop where
  | v1 (version : cert.version = versionV1) : ComplianceAccepted P cert none none
  | v2 {inputs : CompliancePublicInputs} {parts : List Bytes} (version : cert.version = versionV2)
      (inputs_eq : cert.complianceInputs = some inputs) (parts_ok : complianceParts inputs = .ok parts)
      (commitment : cert.complianceCommitment.bind hexTo32 = some (hcat P domainCompliance parts))
      (puf : comparePuf cert.pufDigest inputs.pufDigest = .ok ()) :
      ComplianceAccepted P cert (some (hcat P domainCompliance parts)) inputs.pufDigest

theorem versionV2_ne_versionV1 : versionV2 ≠ versionV1 := by decide +kernel

theorem expectedDigest_eq_ok (hversion : cert.version = versionV1 ∨ cert.version = versionV2) :
    expectedDigest P cert knownFoundation (expectedRoot P cert) (expectedLicensee P cert) = .ok expected ↔
      ∃ compliance, ComplianceAccepted P cert compliance expected.2 ∧
        P.sha256 (digestText P cert compliance) = expected.1 := by
  obtain hv1 | hv2 := hversion
  · rw [expectedDigest, if_pos hv1]
    constructor
    · rintro ⟨⟩
      exact ⟨none, .v1 hv1, rfl⟩
    · obtain ⟨digest, bound⟩ := expected
      rintro ⟨compliance, haccepted, rfl⟩
      cases haccepted with
      | v1 => rfl
      | v2 hv2 => exact absurd (hv2.symm.trans hv1) versionV2_ne_versionV1
  · rw [expectedDigest, if_neg fun hv1 => versionV2_ne_versionV1 (hv2.symm.trans hv1), checkCompliance_eq_ok]
    constructor
    · rintro ⟨inputs, parts, hinputs, hparts, hcommitment, hpuf, rfl⟩
      exact ⟨_, .v2 hv2 hinputs hparts hcommitment hpuf, rfl⟩
    · obtain ⟨digest, bound⟩ := expected
      rintro ⟨compliance, haccepted, rfl⟩
      cases haccepted with
      | v1 hv1 => exact absurd (hv2.symm.trans hv1) versionV2_ne_versionV1
      | v2 _ hinputs hparts hcommitment hpuf => exact ⟨_, _, hinputs, hparts, hcommitment, hpuf, rfl⟩

theorem checkCommitments_eq_ok : checkCommitments P cert = .ok bound ↔
      cert.features ≠ [] ∧ hexTo32 cert.foundationCommitment = some knownFoundation ∧
        hexTo32 cert.rulesRoot = some (expectedRoot P cert) ∧
        hexTo32 cert.licenseeCommitment = some (expectedLicensee P cert) ∧
        ∃ compliance, ComplianceAccepted P cert compliance bound ∧
          hexTo32 cert.proofDigest = some (P.sha256 (digestText P cert compliance)) := by
  unfold checkCommitments
  simp only [bind, bind_eq_ok, pure, Except.pure, okOr_eq_ok, require_eq_ok, Except.ok.injEq, beq_iff_eq, Bool.or_eq_true,
    Bool.not_eq_true', List.isEmpty_eq_false_iff]
  constructor
  · rintro ⟨_, hversion, _, hne, _, hfoundation, _, rfl, _, hroot, _, rfl, _, hlicensee, _, rfl, expected, hexpected, _, hgot,
      _, rfl, rfl⟩
    obtain ⟨compliance, haccepted, hdigest⟩ := (expectedDigest_eq_ok hversion).mp hexpected
    exact ⟨hne, hfoundation, hroot, hlicensee, compliance, haccepted, hdigest ▸ hgot⟩
  · rintro ⟨hne, hfoundation, hroot, hlicensee, compliance, haccepted, hgot⟩
    have hversion : cert.version = versionV1 ∨ cert.version = versionV2 := by
      cases haccepted with
      | v1 hv1 => exact .inl hv1
      | v2 hv2 => exact .inr hv2
    exact ⟨(), hversion, (), hne, _, hfoundation, (), rfl, _, hroot, (), rfl, _, hlicensee, (), rfl, (_, bound),
      (expectedDigest_eq_ok hversion).mpr ⟨compliance, haccepted, rfl⟩, _, hgot, (), rfl, rfl⟩

theorem verifyCertificate_eq_ok {now : UInt64} {level : LicenseLevel} :
    verifyCertificate P G envPuf now cert = .ok level ↔
      ∃ bound, checkCommitments P cert = .ok bound ∧ now < cert.expiryUnixSecs ∧ checkSnark G cert = .ok () ∧
        checkDevice envPuf (cert.pufDigest.or bound) = .ok () ∧
        .pro (cert.features.filterMap ProFeature.ofString) cert.licensee cert.expiryUnixSecs = level := by
  unfold verifyCertificate
  simp only [bind, bind_eq_ok, pure, Except.pure, require_eq_ok, Except.ok.injEq, Bool.not_eq_true', decide_eq_false_iff_not,
    UInt64.not_le]
  constructor
  · rintro ⟨bound, hcheck, _, hnow, _, hsnark, _, hdevice, hlevel⟩
    exact ⟨bound, hcheck, hnow, hsnark, hdevice, hlevel⟩
  · rintro ⟨bound, hcheck, hnow, hsnark, hdevice, hlevel⟩
    exact ⟨bound, hcheck, (), hnow, (), hsnark, (), hdevice, hlevel⟩

/-! ### The same license -/

def complianceValue (inputs : CompliancePublicInputs) : Option NodeHash × UInt64 × Option (Option NodeHash) :=
  (hexTo32 inputs.feasibilityRoot, inputs.replaySeq, inputs.pufDigest.map hexTo32)

/-- The fingerprint that the verifier compares with that of the device. -/
def effectivePuf (cert : LicenseCertificate) : Option String :=
  cert.pufDigest.or (if cert.version = versionV1 then none else cert.complianceInputs.bind (·.pufDigest))

structure SameLicense (c c' : LicenseCertificate) : Prop where
  licensee : c.licensee = c'.licensee
  expiryUnixSecs : c.expiryUnixSecs = c'.expiryUnixSecs
  features : c.features.Perm c'.features
  compliance : c.complianceInputs.map complianceValue = c'.complianceInputs.map complianceValue
  puf : (effectivePuf c).map hexTo32 = (effectivePuf c').map hexTo32

/-- No certificate that is accepted with the version and the digest of `cert`, on whatever device and at whatever time,
states another license. What is hashed is taken from `texts`. -/
def Binds (P : Platform) (G : Groth16) (texts : Set Bytes) (cert : LicenseCertificate) : Prop :=
  ∀ cert' envPuf now level, verifyCertificate P G envPuf now cert' = .ok level →
    (∀ text ∈ hashedTexts P cert', text ∈ texts) → cert'.version = cert.version → cert'.proofDigest = cert.proofDigest →
    SameLicense cert cert'

theorem expectedRoot_eq_hash (hne : cert.features ≠ []) :
    ∃ t, featureTree cert = some t ∧ t.leaves = sortedFeatures cert ∧ expectedRoot P cert = t.hash (featureHasher P) := by
  have hsorted : sortedFeatures cert ≠ [] := by
    intro hnil
    have hlen : (sortedFeatures cert).length = cert.features.length := List.length_mergeSort cert.features
    rw [hnil] at hlen
    exact hne (List.eq_nil_of_length_eq_zero hlen.symm)
  have hleaves : (sortedFeatures cert).map HashTree.leaf ≠ [] := by simpa using hsorted
  obtain ⟨t, ht⟩ := Option.isSome_iff_exists.mp (HashTree.build_isSome hleaves)
  have hroot := HashTree.root_map_hash (featureHasher P) ((sortedFeatures cert).map .leaf)
  refine ⟨t, ht, (HashTree.leaves_build ht).trans (HashTree.flatMap_leaves_map_leaf _), ?_⟩
  rw [ht, List.map_map] at hroot
  rw [expectedRoot, merkleRoot]
  exact congrArg (Option.getD · _) hroot

theorem ComplianceAccepted.hashedCompliance (h : ComplianceAccepted P cert compliance bound) :
    (hashedCompliance cert).map (hcat P domainCompliance) = compliance := by
  unfold License.hashedCompliance
  cases h with
  | v1 hv1 => rw [if_pos hv1]; rfl
  | v2 hv2 hinputs hparts =>
    rw [if_neg fun hv1 => versionV2_ne_versionV1 (hv2.symm.trans hv1), hinputs, Option.bind_some, hparts]
    rfl

theorem digestText_mem
    (h : ComplianceAccepted P cert compliance bound) : digestText P cert compliance ∈ hashedTexts P cert := by
  unfold hashedTexts
  rw [h.hashedCompliance]
  simp

theorem licenseeText_mem (cert : LicenseCertificate) : licenseeText cert ∈ hashedTexts P cert := by simp [hashedTexts]

theorem treeText_mem {t : HashTree String} (ht : featureTree cert = some t) (hinput : input ∈ t.inputs (featureHasher P)) :
    treeText input ∈ hashedTexts P cert := by
  refine List.mem_append_left _ (List.mem_map_of_mem ?_)
  rw [ht]
  simpa using hinput

theorem complianceText_mem (hv2 : cert.version = versionV2) (hinputs : cert.complianceInputs = some inputs)
    (hparts : complianceParts inputs = .ok parts) : hcatText domainCompliance parts ∈ hashedTexts P cert := by
  have hhashed : hashedCompliance cert = some parts := by
    rw [hashedCompliance, if_neg fun hv1 => versionV2_ne_versionV1 (hv2.symm.trans hv1), hinputs, Option.bind_some, hparts]
    rfl
  unfold hashedTexts
  rw [hhashed]
  simp

theorem complianceValue_eq {inputs' : CompliancePublicInputs} {parts' : List Bytes}
    (hparts : complianceParts inputs = .ok parts) (hparts' : complianceParts inputs' = .ok parts')
    (h : hcatText domainCompliance parts = hcatText domainCompliance parts') :
    complianceValue inputs = complianceValue inputs' := by
  obtain ⟨feasibility, puf, hfeasibility, hpuf, rfl⟩ := complianceParts_eq_ok.mp hparts
  obtain ⟨feasibility', puf', hfeasibility', hpuf', rfl⟩ := complianceParts_eq_ok.mp hparts'
  obtain ⟨rfl, hrest⟩ := nodes_inj (List.append_cancel_left h)
  obtain ⟨hseq, hrest⟩ := List.append_inj hrest (by rw [toBeBytes_length, toBeBytes_length])
  obtain ⟨hflag, hrest⟩ := List.append_inj hrest rfl
  obtain ⟨rfl, -⟩ := nodes_inj hrest
  have hsome : inputs.pufDigest.isSome = inputs'.pufDigest.isSome := by
    cases hleft : inputs.pufDigest.isSome <;> cases hright : inputs'.pufDigest.isSome <;> simp_all
  have hpufs : inputs.pufDigest.map hexTo32 = inputs'.pufDigest.map hexTo32 := by
    obtain ⟨hnone, -⟩ | ⟨digest, hdigest, -, hvalue⟩ := compliancePuf_eq_ok.mp hpuf
    · cases hnone' : inputs'.pufDigest with
      | none => rw [hnone]
      | some digest' =>
        rw [hnone, hnone'] at hsome
        cases hsome
    · obtain ⟨hnone', -⟩ | ⟨digest', hdigest', -, hvalue'⟩ := compliancePuf_eq_ok.mp hpuf'
      · rw [hdigest, hnone'] at hsome
        cases hsome
      · rw [hdigest, hdigest', Option.map_some, Option.map_some, hvalue, hvalue']
  unfold complianceValue
  rw [hfeasibility, hfeasibility', toBeBytes_inj hseq, hpufs]

section Hashed

variable {texts : Set Bytes} {c c' : LicenseCertificate}

theorem features_perm (hfree : Set.InjOn P.sha256 texts) (hc : ∀ text ∈ hashedTexts P c, text ∈ texts)
    (hc' : ∀ text ∈ hashedTexts P c', text ∈ texts) (hne : c.features ≠ []) (hne' : c'.features ≠ [])
    (h : expectedRoot P c = expectedRoot P c') : c.features.Perm c'.features := by
  obtain ⟨t, ht, hleaves, hhash⟩ := expectedRoot_eq_hash (P := P) hne
  obtain ⟨t', ht', hleaves', hhash'⟩ := expectedRoot_eq_hash (P := P) hne'
  have hsame : t = t' := by
    have hroots : t.hash (featureHasher P) = t'.hash (featureHasher P) := hhash.symm.trans (h.trans hhash')
    refine HashTree.eq_of_hash_eq (fun i hi j hj hij => ?_) hroots
    rw [apply_featureHasher, apply_featureHasher] at hij
    exact treeText_inj (hfree (hc _ (treeText_mem ht hi)) (hc' _ (treeText_mem ht' hj)) hij)
  have hsorted : sortedFeatures c = sortedFeatures c' := by rw [← hleaves, ← hleaves', hsame]
  have hperm (cert : LicenseCertificate) : (sortedFeatures cert).Perm cert.features := List.mergeSort_perm _ _
  exact (hperm c).symm.trans (hsorted ▸ hperm c')

theorem same_of_digest {compliance' : Option NodeHash} {bound' : Option String}
    (hfree : Set.InjOn P.sha256 texts) (hc : ∀ text ∈ hashedTexts P c, text ∈ texts)
    (hc' : ∀ text ∈ hashedTexts P c', text ∈ texts) (hne : c.features ≠ []) (hne' : c'.features ≠ [])
    (haccepted : ComplianceAccepted P c compliance bound) (haccepted' : ComplianceAccepted P c' compliance' bound')
    (hsome : compliance.isSome = compliance'.isSome)
    (h : P.sha256 (digestText P c compliance) = P.sha256 (digestText P c' compliance')) :
    c.licensee = c'.licensee ∧ c.expiryUnixSecs = c'.expiryUnixSecs ∧ c.features.Perm c'.features ∧
      compliance = compliance' := by
  have htexts := hfree (hc _ (digestText_mem haccepted)) (hc' _ (digestText_mem haccepted')) h
  obtain ⟨hroot, hlicensee, hcompliance⟩ := digestText_inj hsome htexts
  have hlicenseeText := hfree (hc _ (licenseeText_mem c)) (hc' _ (licenseeText_mem c')) hlicensee
  obtain ⟨hname, hexpiry⟩ := licenseeText_inj hlicenseeText
  exact ⟨hname, hexpiry, features_perm hfree hc hc' hne hne' hroot, hcompliance⟩

end Hashed

theorem effectivePuf_of_compared (hv2 : cert.version = versionV2) (hinputs : cert.complianceInputs = some inputs)
    (hpuf : comparePuf cert.pufDigest inputs.pufDigest = .ok ()) (hsome : inputs.pufDigest.isSome) :
    effectivePuf cert = inputs.pufDigest := by
  obtain ⟨q, hq⟩ := Option.isSome_iff_exists.mp hsome
  unfold effectivePuf
  rw [if_neg fun hv1 => versionV2_ne_versionV1 (hv2.symm.trans hv1), hinputs, Option.bind_some]
  cases hp : cert.pufDigest with
  | none => rfl
  | some p =>
    rw [comparePuf_eq_ok] at hpuf
    rw [hpuf p hp q hq, hq]
    rfl

/-! ### The field that is not hashed -/

def zeroPuf : String := "0000000000000000000000000000000000000000000000000000000000000000"

theorem checkDevice_zeroPuf : checkDevice (some zeroPuf) (some zeroPuf) = .ok () := by decide +kernel

theorem ComplianceAccepted.setPuf
    (h : ComplianceAccepted P cert compliance bound) (hbound : bound = none) (puf : Option String) :
    ComplianceAccepted P { cert with pufDigest := puf } compliance none := by
  cases h with
  | v1 hv1 => exact .v1 hv1
  | @v2 inputs parts hv2 hinputs hparts hcommitment _ =>
    have hcompared : comparePuf puf inputs.pufDigest = .ok () := by
      rw [hbound]
      cases puf <;> rfl
    rw [← hbound]
    exact ComplianceAccepted.v2 hv2 hinputs hparts hcommitment hcompared

theorem verifyCertificate_setPuf {now : UInt64} {level : LicenseLevel} (h : verifyCertificate P G envPuf now cert = .ok level)
    (haccepted : ComplianceAccepted P cert compliance bound) (hbound : bound = none) {envPuf' : Option String}
    (hdevice : checkDevice envPuf' puf = .ok ()) :
    verifyCertificate P G envPuf' now { cert with pufDigest := puf } = .ok level := by
  obtain ⟨_, hcheck, hnow, hsnark, -, hlevel⟩ := verifyCertificate_eq_ok.mp h
  obtain ⟨hne, hfoundation, hroot, hlicensee, compliance', haccepted', hdigest⟩ := checkCommitments_eq_ok.mp hcheck
  have hsame : compliance' = compliance := haccepted'.hashedCompliance.symm.trans haccepted.hashedCompliance
  have hcheck' : checkCommitments P { cert with pufDigest := puf } = .ok none :=
    checkCommitments_eq_ok.mpr ⟨hne, hfoundation, hroot, hlicensee, compliance, haccepted.setPuf hbound puf, hsame ▸ hdigest⟩
  refine verifyCertificate_eq_ok.mpr ⟨none, hcheck', hnow, hsnark, ?_, hlevel⟩
  rw [Option.or_none]
  exact hdevice

/-- The compliance inputs of the second version have a fingerprint. -/
def PufCommitted (cert : LicenseCertificate) : Prop :=
  cert.version = versionV2 ∧ ∃ inputs puf, cert.complianceInputs = some inputs ∧ inputs.pufDigest = some puf

theorem pufCommitted_of_bound
    (h : ComplianceAccepted P cert compliance bound) (hsome : bound ≠ none) : PufCommitted cert := by
  cases h with
  | v1 => exact absurd rfl hsome
  | v2 hv2 hinputs =>
    obtain ⟨puf, hpuf⟩ := Option.ne_none_iff_exists'.mp hsome
    exact ⟨hv2, _, puf, hinputs, hpuf⟩

/-- The digest of a certificate that is accepted determines the license exactly if the compliance inputs it commits to
have the fingerprint. -/
theorem binds_iff (texts : Set Bytes) (hfree : Set.InjOn P.sha256 texts) {envPuf : Option String} {now : UInt64}
    {cert : LicenseCertificate} {level : LicenseLevel} (hcert : ∀ text ∈ hashedTexts P cert, text ∈ texts)
    (h : verifyCertificate P G envPuf now cert = .ok level) : Binds P G texts cert ↔ PufCommitted cert := by
  obtain ⟨bound, hcheck, -⟩ := verifyCertificate_eq_ok.mp h
  obtain ⟨hne, -, -, -, compliance, haccepted, hdigest⟩ := checkCommitments_eq_ok.mp hcheck
  constructor
  · intro hbinds
    by_contra hopen
    have hbound : bound = none := by
      by_contra hsome
      exact hopen (pufCommitted_of_bound haccepted hsome)
    -- without the lock if there is one, with a lock if there is none
    have hsame (puf : Option String) (envPuf' : Option String) (hdevice : checkDevice envPuf' puf = .ok ()) :
        (effectivePuf cert).map hexTo32 = (effectivePuf { cert with pufDigest := puf }).map hexTo32 :=
      (hbinds _ envPuf' now level (verifyCertificate_setPuf h haccepted hbound hdevice) hcert rfl rfl).puf
    have hnone := hsame none none rfl
    have hzero := hsame (some zeroPuf) (some zeroPuf) checkDevice_zeroPuf
    rw [hnone] at hzero
    have heffective : effectivePuf { cert with pufDigest := none } = none := by
      unfold effectivePuf
      cases haccepted with
      | v1 hv1 => rw [if_pos hv1]; rfl
      | v2 hv2 hinputs => rw [if_neg fun hv1 => versionV2_ne_versionV1 (hv2.symm.trans hv1), hinputs]; exact hbound
    rw [heffective] at hzero
    cases hzero
  · rintro ⟨hv2, inputs, puf, hinputs, hpuf⟩ cert' envPuf' now' level' h' hcert' hversion hsameDigest
    obtain ⟨bound', hcheck', -⟩ := verifyCertificate_eq_ok.mp h'
    obtain ⟨hne', -, -, -, compliance', haccepted', hdigest'⟩ := checkCommitments_eq_ok.mp hcheck'
    have hhash : P.sha256 (digestText P cert compliance) = P.sha256 (digestText P cert' compliance') := by
      rw [hsameDigest, hdigest] at hdigest'
      exact Option.some.inj hdigest'
    cases haccepted with
    | v1 hv1 => exact absurd (hv2.symm.trans hv1) versionV2_ne_versionV1
    | @v2 inputs₀ parts _ hinputs₀ hparts _ hcompared =>
      obtain rfl := Option.some.inj (hinputs.symm.trans hinputs₀)
      cases haccepted' with
      | v1 hv1' => exact absurd (hv2.symm.trans (hversion.symm.trans hv1')) versionV2_ne_versionV1
      | @v2 inputs' parts' hv2' hinputs' hparts' hcommitment' hcompared' =>
        obtain ⟨hlicensee, hexpiry, hfeatures, hcompliance⟩ := same_of_digest hfree hcert hcert' hne hne'
          (.v2 hv2 hinputs hparts ‹_› hcompared) (.v2 hv2' hinputs' hparts' hcommitment' hcompared') rfl hhash
        have hvalue : complianceValue inputs = complianceValue inputs' :=
          complianceValue_eq hparts hparts' (hfree (hcert _ (complianceText_mem hv2 hinputs hparts))
            (hcert' _ (complianceText_mem hv2' hinputs' hparts')) (Option.some.inj hcompliance))
        have hpufs : inputs.pufDigest.map hexTo32 = inputs'.pufDigest.map hexTo32 := congrArg (fun v => v.2.2) hvalue
        have hsome' : inputs'.pufDigest.isSome := by
          rw [hpuf, Option.map_some] at hpufs
          cases hnone : inputs'.pufDigest with
          | none =>
            rw [hnone] at hpufs
            cases hpufs
          | some => rfl
        refine ⟨hlicensee, hexpiry, hfeatures, by rw [hinputs, hinputs', Option.map_some, Option.map_some, hvalue], ?_⟩
        rw [effectivePuf_of_compared hv2 hinputs hcompared (by rw [hpuf]; rfl),
          effectivePuf_of_compared hv2' hinputs' hcompared' hsome', hpufs]

/-! ### A lock taken off -/

def lockable (puf : Option String) : LicenseCertificate where
  version := versionV1
  foundationCommitment := toHex knownFoundation
  rulesRoot := toHex (featureLeaf .reference "tui")
  licenseeCommitment := toHex (hcat Platform.reference domainLicensee [utf8 "a", toBeBytes 2])
  proofDigest := toHex (hcat Platform.reference domainLicenseV1 [knownFoundation.toList,
    (featureLeaf .reference "tui").toList,
    (hcat Platform.reference domainLicensee [utf8 "a", toBeBytes 2]).toList])
  licensee := "a"
  expiryUnixSecs := 2
  features := ["tui"]
  proofDigestPoseidon := none
  snarkProof := none
  pufDigest := puf
  complianceInputs := none
  complianceCommitment := none

def noGroth16 : Groth16 := ⟨fun _ => none, fun _ => none, fun _ _ _ _ => none⟩

theorem expectedRoot_lockable (puf : Option String) :
    expectedRoot .reference (lockable puf) = featureLeaf .reference "tui" := by
  rw [expectedRoot, merkleRoot, lockable, List.mergeSort_singleton, List.map_singleton, HashTree.root_of_le (by simp)]
  rfl

theorem checkCommitments_lockable (puf : Option String) :
    checkCommitments .reference (lockable puf) = .ok none := by
  refine checkCommitments_eq_ok.mpr ⟨by simp [lockable], hexTo32_toHex _, ?_, hexTo32_toHex _, none, .v1 rfl, ?_⟩
  · rw [expectedRoot_lockable]
    exact hexTo32_toHex _
  · rw [digestText, expectedRoot_lockable]
    exact hexTo32_toHex _

theorem lockable_accepted (hdevice : checkDevice envPuf puf = .ok ()) :
    verifyCertificate .reference noGroth16 envPuf 1 (lockable puf) = .ok (.pro [.tui] "a" 2) := by
  have hnow : (1 : UInt64) < 2 := by decide
  exact verifyCertificate_eq_ok.mpr ⟨none, checkCommitments_lockable puf, hnow, rfl, by rw [Option.or_none]; exact hdevice, rfl⟩

theorem hashedTexts_lockable (puf : Option String) :
    hashedTexts .reference (lockable puf) = hashedTexts .reference (lockable none) := rfl

/-- What is hashed for it: a feature, the licensee and the digest. -/
def lockableTexts : List Bytes :=
  [featureText "tui", hcatText domainLicensee [utf8 "a", toBeBytes 2], hcatText domainLicenseV1 [knownFoundation.toList,
    (featureLeaf .reference "tui").toList, (hcat Platform.reference domainLicensee [utf8 "a", toBeBytes 2]).toList]]

theorem injOn_lockable :
    Set.InjOn Platform.reference.sha256 {text | text ∈ hashedTexts .reference (lockable none)} := by
  have htree : featureTree (lockable none) = some (.leaf "tui") := by
    rw [featureTree, sortedFeatures, lockable, List.mergeSort_singleton, List.map_singleton, HashTree.build_of_le (by simp)]
    rfl
  have htexts : hashedTexts .reference (lockable none) = lockableTexts := by
    rw [hashedTexts, htree, digestText.eq_def]
    simp only [hashedCompliance, expectedRoot_lockable]
    rfl
  rw [htexts]
  have hall : ∀ a ∈ lockableTexts, ∀ b ∈ lockableTexts, Reference.digest 32 a = Reference.digest 32 b → a = b := by decide +kernel
  exact fun a ha b hb => hall a ha b hb

theorem binds_iff_lockable :
    Binds .reference noGroth16 {text | text ∈ hashedTexts .reference (lockable none)}
      (lockable (some zeroPuf)) ↔ PufCommitted (lockable (some zeroPuf)) :=
  binds_iff _ injOn_lockable (fun _ h => h) (lockable_accepted checkDevice_zeroPuf)

/-- A locked license is accepted with the same digest, and on every device, when the lock is taken off. -/
theorem lock_removed :
    Set.InjOn Platform.reference.sha256 {text | text ∈ hashedTexts .reference (lockable (some zeroPuf)) ++
        hashedTexts .reference (lockable none)} ∧
      (lockable none).version = (lockable (some zeroPuf)).version ∧
      (lockable none).proofDigest = (lockable (some zeroPuf)).proofDigest ∧
      verifyCertificate .reference noGroth16 (some zeroPuf) 1 (lockable (some zeroPuf)) =
        .ok (.pro [.tui] "a" 2) ∧
      (∀ envPuf, verifyCertificate .reference noGroth16 envPuf 1 (lockable none) = .ok (.pro [.tui] "a" 2)) ∧
      verifyCertificate .reference noGroth16 none 1 (lockable (some zeroPuf)) = .error .pufUnavailable ∧
      ¬ SameLicense (lockable (some zeroPuf)) (lockable none) := by
  refine ⟨?_, rfl, rfl, lockable_accepted checkDevice_zeroPuf, fun envPuf => lockable_accepted rfl, ?_, ?_⟩
  · simpa [hashedTexts_lockable (some zeroPuf)] using injOn_lockable
  · unfold verifyCertificate
    rw [checkCommitments_lockable]
    decide +kernel
  · intro hsame
    cases hsame.puf

end AgentHalo.License
