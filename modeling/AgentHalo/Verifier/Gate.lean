import AgentHalo.Lib.FirstMatch
import AgentHalo.Verifier.Submit

/-!
# The proof gate

A tool may require theorems. The gate settles a requirement by the first certificate of the directory that has the theorem,
and asks only then whether the certificate meets the requirement. So its verdicts depend on the order in which the directory
is listed, unless the certificates that have a required theorem agree (`orderFree_iff`): a stale certificate beside a valid
one may hide it.
-/

namespace AgentHalo.Verifier

open Pod (DidCodec)
open FirstMatch (Accepted Matched Agree)

variable {P : Platform} (C : DidCodec P) (B : Base64)

/-- A file of the directory: its path, the extension of its name where that is Unicode, and what reading it gives. -/
structure DirEntry where
  path : String
  extension : Option String
  read : Except String String

/-- The directory of certificates. The files come in the order in which the file system lists them; the system may fail on
each. -/
structure CertificateDir where
  pathExists : Bool
  readDir : Except String (List (Except String DirEntry))

/-- A requirement, and whether the gate insists on it. -/
structure GatedRequirement extends ProofRequirement where
  enforced : Bool

structure ToolGate where
  enabled : Bool
  requirements : List (String × List GatedRequirement)

def ToolGate.requirementsForTool (gate : ToolGate) (toolName : String) : List GatedRequirement :=
  (gate.requirements.lookup toolName).getD []

/-! ### A requirement -/

def RequirementCheck.missing (req : ProofRequirement) (error : String) : RequirementCheck where
  theoremName := req.requiredTheorem
  found := false
  verified := false
  trustTier := none
  statementHashMatch := none
  commitHashMatch := none
  signatureValid := none
  certificatePath := none
  error := some error

/-- The certificate in a file, if the loop does not go on to the next file. -/
def certificate (req : ProofRequirement) : Except String DirEntry → Option (String × VerificationResult)
  | .error _ => none
  | .ok entry =>
    if entry.extension ≠ some "lean4export" then none
    else
      match verifyExport C B entry.path entry.read with
      | .error _ => none
      | .ok result => if !hasTheorem result req.requiredTheorem then none else some (entry.path, result)

def searchCertificates (req : ProofRequirement) : List (Except String DirEntry) → RequirementCheck
  | [] => .missing req "no certificate found containing this theorem"
  | entry :: rest =>
    match certificate C B req entry with
    | none => searchCertificates req rest
    | some (path, result) => requirementCheckFromVerification path result req

namespace CertificateDir

def checkRequirement (dir : CertificateDir) (req : ProofRequirement) : RequirementCheck :=
  if !dir.pathExists then .missing req "certificate directory does not exist"
  else
    match dir.readDir with
    | .error e => .missing req ("read certificate directory: " ++ e)
    | .ok entries => searchCertificates C B req entries

def listing (entries : List (Except String DirEntry)) : CertificateDir := ⟨true, .ok entries⟩

@[simp] theorem checkRequirement_listing (entries : List (Except String DirEntry)) (req : ProofRequirement) :
    (listing entries).checkRequirement C B req = searchCertificates C B req entries := rfl

end CertificateDir

/-! ### A tool -/

def tierRank : TrustTier → Nat
  | .untrusted => 0
  | .legacy => 1
  | .cryptoExtended => 2
  | .standard => 3

def weakestTier : Option TrustTier → TrustTier → TrustTier
  | some cur, candidate => if tierRank candidate < tierRank cur then candidate else cur
  | none, candidate => candidate

structure GateResult where
  toolName : String
  passed : Bool
  requirementsChecked : Nat
  requirementsMet : Nat
  achievedTrustTier : Option TrustTier
  verificationResults : List RequirementCheck

/-- `usize::saturating_add(1)`. -/
def succSaturating (n : Nat) : Nat := min (n + 1) (2 ^ 64 - 1)

structure Tally where
  checks : List RequirementCheck
  met : Nat
  enforcedTotal : Nat
  enforcedMet : Nat
  achievedTier : Option TrustTier

def Tally.empty : Tally := ⟨[], 0, 0, 0, none⟩

def Tally.add (dir : CertificateDir) (t : Tally) (req : GatedRequirement) : Tally :=
  let check := dir.checkRequirement C B req.toProofRequirement
  let counts := check.found && check.verified
  { checks := t.checks ++ [check]
    met := if counts then succSaturating t.met else t.met
    enforcedTotal := if req.enforced then succSaturating t.enforcedTotal else t.enforcedTotal
    enforcedMet := if counts && req.enforced then succSaturating t.enforcedMet else t.enforcedMet
    achievedTier :=
      match counts, check.trustTier with
      | true, some tier => some (weakestTier t.achievedTier tier)
      | _, _ => t.achievedTier }

def GateResult.unrestricted (toolName : String) : GateResult := ⟨toolName, true, 0, 0, none, []⟩

/-- `ProofGateConfig::evaluate`, without the time that it took. -/
def ToolGate.evaluate (gate : ToolGate) (dir : CertificateDir) (toolName : String) : GateResult :=
  if !gate.enabled then .unrestricted toolName
  else
    match gate.requirements.lookup toolName with
    | none => .unrestricted toolName
    | some reqs =>
      let t := reqs.foldl (Tally.add C B dir) .empty
      { toolName
        passed := t.enforcedMet == t.enforcedTotal
        requirementsChecked := reqs.length
        requirementsMet := t.met
        achievedTrustTier := t.achievedTier
        verificationResults := t.checks }

/-! ### What a requirement asks -/

/-- The conditions of a requirement on a certificate. -/
structure Meets (result : VerificationResult) (req : ProofRequirement) : Prop where
  checked : result.allChecked = true
  trusted : result.axiomsTrusted = true
  statement : ∀ expected ∈ req.expectedStatementHash, result.metadata.theoremStatementSha256 = some expected
  commit : ∀ expected ∈ req.expectedCommitHash, result.metadata.commitHash = some expected
  signature : result.metadata.signatureValid = some true ∨
    req.requireSignature = false ∧ result.metadata.signatureValid = none
  tier : ∀ required ∈ req.minTrustTier, trustTierMeets result.trustTier required = true

/-- The file is a certificate that can be read and has the theorem. -/
def HasCertificate (req : ProofRequirement) (entry : Except String DirEntry) (result : VerificationResult) : Prop :=
  ∃ file, entry = .ok file ∧ file.extension = some "lean4export" ∧ verifyExport C B file.path file.read = .ok result ∧
    hasTheorem result req.requiredTheorem = true

/-- The certificates with the theorem all meet the requirement, or none does. -/
def Agreeing (entries : List (Except String DirEntry)) (req : ProofRequirement) : Prop :=
  ∀ entry₁ ∈ entries, ∀ entry₂ ∈ entries, ∀ result₁ result₂, HasCertificate C B req entry₁ result₁ →
    HasCertificate C B req entry₂ result₂ → (Meets result₁ req ↔ Meets result₂ req)

/-- The verdicts on the requirements of a tool do not depend on the order of the directory: a requirement is verified exactly
if a certificate in the directory meets it, the tool passes in every order or in none, and if it passes with some of the files
then it passes with all of them. -/
structure OrderFree (gate : ToolGate) (toolName : String) (entries : List (Except String DirEntry)) : Prop where
  verified_iff : ∀ req ∈ gate.requirementsForTool toolName, ∀ order : List (Except String DirEntry), order.Perm entries →
    (((CertificateDir.listing order).checkRequirement C B req.toProofRequirement).verified = true ↔
      ∃ entry ∈ entries, ∃ result, HasCertificate C B req.toProofRequirement entry result ∧
        Meets result req.toProofRequirement)
  passed_eq : ∀ order₁ order₂ : List (Except String DirEntry), order₁.Perm entries → order₂.Perm entries →
    (gate.evaluate C B (.listing order₁) toolName).passed = (gate.evaluate C B (.listing order₂) toolName).passed
  passed_mono : ∀ before order : List (Except String DirEntry), before.Subperm entries → order.Perm entries →
    (gate.evaluate C B (.listing before) toolName).passed = true →
    (gate.evaluate C B (.listing order) toolName).passed = true

variable {req : ProofRequirement} {entries : List (Except String DirEntry)}

section Search

theorem verified_iff_meets (path : String) (result : VerificationResult) (req : ProofRequirement) :
    (requirementCheckFromVerification path result req).verified = true ↔ Meets result req := by
  have hstatement : ((req.expectedStatementHash.map fun expected =>
      (result.metadata.theoremStatementSha256.map (· == expected)).getD false).getD true = true) ↔
      ∀ expected ∈ req.expectedStatementHash, result.metadata.theoremStatementSha256 = some expected := by
    cases req.expectedStatementHash <;> cases result.metadata.theoremStatementSha256 <;> simp
  have hcommit : ((req.expectedCommitHash.map fun expected =>
      (result.metadata.commitHash.map (· == expected)).getD false).getD true = true) ↔
      ∀ expected ∈ req.expectedCommitHash, result.metadata.commitHash = some expected := by
    cases req.expectedCommitHash <;> cases result.metadata.commitHash <;> simp
  have hsignature : ((if req.requireSignature then result.metadata.signatureValid.getD false
      else result.metadata.signatureValid.getD true) = true) ↔
      (result.metadata.signatureValid = some true ∨
        req.requireSignature = false ∧ result.metadata.signatureValid = none) := by
    cases req.requireSignature <;> cases result.metadata.signatureValid <;> simp
  have htier : ((req.minTrustTier.map (trustTierMeets result.trustTier)).getD true = true) ↔
      ∀ required ∈ req.minTrustTier, trustTierMeets result.trustTier required = true := by
    cases req.minTrustTier <;> simp
  simp only [requirementCheckFromVerification, Bool.and_eq_true, hstatement, hcommit, hsignature, htier]
  constructor
  · rintro ⟨⟨⟨⟨⟨hchecked, htrusted⟩, hs⟩, hc⟩, hv⟩, ht⟩
    exact ⟨hchecked, htrusted, hs, hc, hv, ht⟩
  · rintro ⟨hchecked, htrusted, hs, hc, hv, ht⟩
    exact ⟨⟨⟨⟨⟨hchecked, htrusted⟩, hs⟩, hc⟩, hv⟩, ht⟩

theorem certificate_eq_some {entry : Except String DirEntry} {c : String × VerificationResult} :
    certificate C B req entry = some c ↔ ∃ file, entry = .ok file ∧ file.path = c.1 ∧
      file.extension = some "lean4export" ∧ verifyExport C B file.path file.read = .ok c.2 ∧
      hasTheorem c.2 req.requiredTheorem = true := by
  obtain ⟨path, result⟩ := c
  unfold certificate
  cases entry with
  | error e => simp
  | ok file =>
    simp only [Except.ok.injEq, exists_eq_left']
    split_ifs with hext
    · simp [hext]
    · cases hverify : verifyExport C B file.path file.read with
      | error e => simp
      | ok found =>
        by_cases hthm : hasTheorem found req.requiredTheorem = true <;> grind

theorem hasCertificate_iff {entry : Except String DirEntry} {result : VerificationResult} :
    HasCertificate C B req entry result ↔ ∃ path, certificate C B req entry = some (path, result) := by
  simp only [certificate_eq_some, HasCertificate]
  constructor
  · rintro ⟨file, hentry, hext, hverify, hthm⟩
    exact ⟨file.path, file, hentry, rfl, hext, hverify, hthm⟩
  · rintro ⟨_, file, hentry, -, hext, hverify, hthm⟩
    exact ⟨file, hentry, hext, hverify, hthm⟩

theorem searchCertificates_verified (req : ProofRequirement) (entries : List (Except String DirEntry)) :
    (searchCertificates C B req entries).verified = true ↔
      Accepted (certificate C B req) (fun c => Meets c.2 req) entries := by
  unfold Accepted
  induction entries with
  | nil => simp [searchCertificates, RequirementCheck.missing]
  | cons entry rest ih =>
    unfold searchCertificates
    rw [List.findSome?_cons]
    cases hc : certificate C B req entry with
    | none => exact ih
    | some c => simp [verified_iff_meets]

theorem found_of_verified
    (h : (searchCertificates C B req entries).verified = true) : (searchCertificates C B req entries).found = true := by
  induction entries with
  | nil => exact h
  | cons entry rest ih =>
    unfold searchCertificates at h ⊢
    cases hc : certificate C B req entry with
    | none =>
      rw [hc] at h
      exact ih h
    | some c => rfl

theorem matched_iff : Matched (certificate C B req) (fun c => Meets c.2 req) entries ↔
      ∃ entry ∈ entries, ∃ result, HasCertificate C B req entry result ∧ Meets result req := by
  simp only [Matched, hasCertificate_iff]
  constructor
  · rintro ⟨entry, hentry, ⟨path, result⟩, hc, hmeets⟩
    exact ⟨entry, hentry, result, ⟨path, hc⟩, hmeets⟩
  · rintro ⟨entry, hentry, result, ⟨path, hc⟩, hmeets⟩
    exact ⟨entry, hentry, (path, result), hc, hmeets⟩

theorem agree_iff : Agree (certificate C B req) (fun c => Meets c.2 req) entries ↔ Agreeing C B entries req := by
  simp only [Agree, Agreeing, hasCertificate_iff]
  constructor
  · rintro h entry₁ h₁ entry₂ h₂ result₁ result₂ ⟨path₁, hc₁⟩ ⟨path₂, hc₂⟩
    exact h entry₁ h₁ entry₂ h₂ _ _ hc₁ hc₂
  · rintro h entry₁ h₁ entry₂ h₂ ⟨path₁, result₁⟩ ⟨path₂, result₂⟩ hc₁ hc₂
    exact h entry₁ h₁ entry₂ h₂ _ _ ⟨path₁, hc₁⟩ ⟨path₂, hc₂⟩

theorem forall_perm_verified_iff (req : ProofRequirement) (entries : List (Except String DirEntry)) :
    (∀ order : List (Except String DirEntry), order.Perm entries →
      ((searchCertificates C B req order).verified = true ↔
        ∃ entry ∈ entries, ∃ result, HasCertificate C B req entry result ∧ Meets result req)) ↔
      Agreeing C B entries req := by
  simp only [searchCertificates_verified, ← matched_iff, ← agree_iff]
  exact FirstMatch.forall_perm_accepted_iff

end Search

/-! ### The counts of a tool -/

section Counts

def Verified (dir : CertificateDir) (req : GatedRequirement) : Bool :=
  (dir.checkRequirement C B req.toProofRequirement).found && (dir.checkRequirement C B req.toProofRequirement).verified

theorem verified_listing (entries : List (Except String DirEntry)) (req : GatedRequirement) :
    Verified C B (.listing entries) req = (searchCertificates C B req.toProofRequirement entries).verified := by
  unfold Verified
  rw [CertificateDir.checkRequirement_listing]
  cases h : (searchCertificates C B req.toProofRequirement entries).verified with
  | true => rw [found_of_verified C B h, Bool.and_true]
  | false => rw [Bool.and_false]

theorem succSaturating_min (n : Nat) : succSaturating (min n (2 ^ 64 - 1)) = min (n + 1) (2 ^ 64 - 1) := by
  unfold succSaturating
  omega

theorem Tally.add_enforcedTotal (dir : CertificateDir) (t : Tally) (req : GatedRequirement) :
    (t.add C B dir req).enforcedTotal = if req.enforced then succSaturating t.enforcedTotal else t.enforcedTotal := rfl

theorem Tally.add_enforcedMet (dir : CertificateDir) (t : Tally) (req : GatedRequirement) :
    (t.add C B dir req).enforcedMet =
      if Verified C B dir req && req.enforced then succSaturating t.enforcedMet else t.enforcedMet := rfl

theorem foldl_add_enforced (dir : CertificateDir) (reqs : List GatedRequirement) (t : Tally) (total met : Nat)
    (htotal : t.enforcedTotal = min total (2 ^ 64 - 1)) (hmet : t.enforcedMet = min met (2 ^ 64 - 1)) :
    (reqs.foldl (Tally.add C B dir) t).enforcedTotal = min (total + reqs.countP (·.enforced)) (2 ^ 64 - 1) ∧
    (reqs.foldl (Tally.add C B dir) t).enforcedMet =
      min (met + reqs.countP fun req => Verified C B dir req && req.enforced) (2 ^ 64 - 1) := by
  induction reqs generalizing t total met with
  | nil => exact ⟨htotal, hmet⟩
  | cons req rest ih =>
    have htotal' : (t.add C B dir req).enforcedTotal =
        min (total + if req.enforced then 1 else 0) (2 ^ 64 - 1) := by
      rw [Tally.add_enforcedTotal, htotal]
      split_ifs
      · exact succSaturating_min total
      · rfl
    have hmet' : (t.add C B dir req).enforcedMet =
        min (met + if Verified C B dir req && req.enforced then 1 else 0) (2 ^ 64 - 1) := by
      rw [Tally.add_enforcedMet, hmet]
      split_ifs
      · exact succSaturating_min met
      · rfl
    have hrest := ih (t.add C B dir req) _ _ htotal' hmet'
    simp only [List.foldl_cons, List.countP_cons]
    rw [hrest.1, hrest.2]
    constructor <;> congr 1 <;> omega

theorem evaluate_passed_iff (gate : ToolGate) (dir : CertificateDir) (toolName : String) :
    (gate.evaluate C B dir toolName).passed = true ↔ gate.enabled = false ∨
      min ((gate.requirementsForTool toolName).countP fun req => Verified C B dir req && req.enforced) (2 ^ 64 - 1) =
        min ((gate.requirementsForTool toolName).countP (·.enforced)) (2 ^ 64 - 1) := by
  unfold ToolGate.evaluate ToolGate.requirementsForTool
  cases henabled : gate.enabled with
  | false => simp [GateResult.unrestricted]
  | true =>
    cases hreqs : gate.requirements.lookup toolName with
    | none => simp [GateResult.unrestricted]
    | some reqs =>
      obtain ⟨htotal, hmet⟩ := foldl_add_enforced C B dir reqs .empty 0 0 rfl rfl
      simp [htotal, hmet]

theorem passed_mono_of_verified {gate : ToolGate} {dir dir' : CertificateDir} {toolName : String}
    (hle : ∀ req ∈ gate.requirementsForTool toolName, Verified C B dir req = true → Verified C B dir' req = true)
    (h : (gate.evaluate C B dir toolName).passed = true) : (gate.evaluate C B dir' toolName).passed = true := by
  rw [evaluate_passed_iff] at h ⊢
  refine h.imp id fun hcount => ?_
  have hmet := List.countP_mono_left (l := gate.requirementsForTool toolName)
    (p := fun req => Verified C B dir req && req.enforced) (q := fun req => Verified C B dir' req && req.enforced)
    fun req hreq hboth => by
      obtain ⟨hverified, henforced⟩ := Bool.and_eq_true_iff.mp hboth
      exact Bool.and_eq_true_iff.mpr ⟨hle req hreq hverified, henforced⟩
  have htotal := List.countP_mono_left (l := gate.requirementsForTool toolName)
    (p := fun req => Verified C B dir' req && req.enforced) (q := (·.enforced))
    fun req _ hboth => (Bool.and_eq_true_iff.mp hboth).2
  omega

end Counts

theorem Agreeing.verified_mono {C : DidCodec P} {B : Base64} {before order : List (Except String DirEntry)}
    (h : Agreeing C B entries req) (hbefore : before.Subperm entries) (horder : order.Perm entries)
    (hverified : (searchCertificates C B req before).verified = true) :
    (searchCertificates C B req order).verified = true := by
  have hagree := ((agree_iff C B).mpr h).mono horder.subset
  have hmatched := ((searchCertificates_verified C B req before).mp hverified).matched
  refine (searchCertificates_verified C B req order).mpr (hagree.accepted (hmatched.mono ?_))
  exact fun entry hentry => horder.symm.subset (hbefore.subset hentry)

/-- **When the order of the directory does not matter**: exactly if, for every requirement of the tool, the certificates that
have its theorem all meet it or none does. -/
theorem orderFree_iff (gate : ToolGate) (toolName : String) (entries : List (Except String DirEntry)) :
    OrderFree C B gate toolName entries ↔
      ∀ req ∈ gate.requirementsForTool toolName, Agreeing C B entries req.toProofRequirement := by
  constructor
  · intro h req hreq
    exact (forall_perm_verified_iff C B req.toProofRequirement entries).mp (h.verified_iff req hreq)
  · intro h
    have hmono : ∀ before order : List (Except String DirEntry), before.Subperm entries → order.Perm entries →
        (gate.evaluate C B (.listing before) toolName).passed = true →
        (gate.evaluate C B (.listing order) toolName).passed = true := by
      intro before order hbefore horder
      refine passed_mono_of_verified C B fun req hreq hverified => ?_
      rw [verified_listing] at hverified ⊢
      exact (h req hreq).verified_mono hbefore horder hverified
    refine ⟨fun req hreq => ?_, fun order₁ order₂ h₁ h₂ => ?_, hmono⟩
    · exact (forall_perm_verified_iff C B req.toProofRequirement entries).mpr (h req hreq)
    · rw [Bool.eq_iff_iff]
      exact ⟨hmono order₁ order₂ h₁.subperm h₂, hmono order₂ order₁ h₂.subperm h₁⟩

/-! ### A certificate that hides another -/

def strictGate : ToolGate := ⟨true, [("execute_sql", [⟨⟨"T", none, none, false, none⟩, true⟩])]⟩

def goodFile : Except String DirEntry := .ok ⟨"certs/new.lean4export", some "lean4export", .ok "#THM T\n#AX propext\n"⟩

def foreignFile : Except String DirEntry := .ok ⟨"certs/old.lean4export", some "lean4export", .ok "#THM T\n#AX choice\n"⟩

/-- The tool passes with the good certificate, and fails when another is there that is listed before it. -/
theorem foreignFile_hides : ¬ OrderFree .reference hexText strictGate "execute_sql" [goodFile, foreignFile] ∧
    (strictGate.evaluate .reference hexText (.listing [goodFile]) "execute_sql").passed = true ∧
    (strictGate.evaluate .reference hexText (.listing [goodFile, foreignFile]) "execute_sql").passed = true ∧
    (strictGate.evaluate .reference hexText (.listing [foreignFile, goodFile]) "execute_sql").passed = false := by
  have hfirst : (strictGate.evaluate .reference hexText (.listing [goodFile, foreignFile]) "execute_sql").passed = true := by
    decide
  have hlast : (strictGate.evaluate .reference hexText (.listing [foreignFile, goodFile]) "execute_sql").passed = false := by
    decide
  refine ⟨fun h => ?_, by decide, hfirst, hlast⟩
  have hsame := h.passed_eq _ _ (List.Perm.refl _) (List.Perm.swap goodFile foreignFile [])
  rw [hfirst, hlast] at hsame
  cases hsame

end AgentHalo.Verifier
