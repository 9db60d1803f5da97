import AgentHalo.Pod.Capability

/-!
# What is signed and what is enforced

Two tokens with one canonical form carry the same signed text. Order and repetition of patterns and modes make no difference
to what they authorize; what the signature leaves out (the document, the id, the signatures, the revoked flag) does where it
is good in one token only (`sameAuthority_iff`). The canonical form trims the patterns and drops empty ones, while they are
matched as they stand.
-/

namespace AgentHalo.Pod

open Text (utf8 startsWith stripSuffix)

variable {P : Platform} (C : DidCodec P) (J : CapabilityJson)

/-- What verification asks of a token besides the time. -/
def Sealed (token : CapabilityToken) : Prop :=
  token.grantorDidDocument.id = token.grantorDid ∧ token.revoked = false ∧ delegationChainValid token = true ∧
    ∃ message edSig pqSig, canonicalBytes J (canonicalFromToken token) = .ok message ∧
      P.sha256 (utf8 "agenthalo.capability.v1|" ++ message) = token.tokenId ∧
      hexDecode token.signatureEd25519Hex = .ok edSig ∧ hexDecode token.signatureMldsa65Hex = .ok pqSig ∧
      edSig ≠ [] ∧ pqSig ≠ [] ∧ dualVerify C token.grantorDidDocument message edSig pqSig = .ok true

/-- The two tokens give the same answers. -/
def SameAuthority (t₁ t₂ : CapabilityToken) : Prop :=
  (∀ resourceKey mode now, capabilityAuthorizes C J t₁ resourceKey mode now = capabilityAuthorizes C J t₂ resourceKey mode now) ∧
    ∀ senderDid toolName now,
      tokenAuthorizesToolCall C J t₁ senderDid toolName now = tokenAuthorizesToolCall C J t₂ senderDid toolName now

/-- The patterns are as they are signed: without white space around them, and not empty. -/
def AsSigned (patterns : List String) : Prop := ∀ p ∈ patterns, Text.trim p = p ∧ p ≠ ""

variable {C J}

variable {token : CapabilityToken} {now : UInt64}

theorem isOk_verifyCapability :
    (verifyCapability C J token now).isOk = true ↔ token.notBefore ≤ now ∧ now < token.expiresAt ∧ Sealed C J token := by
  have hok : (verifyCapability C J token now).isOk = true ↔ verifyCapability C J token now = .ok () := by
    cases verifyCapability C J token now <;> simp [Except.isOk, Except.toBool]
  rw [hok, verifyCapability_ok_iff, Sealed]
  constructor
  · rintro ⟨hdid, hrevoked, hstart, hend, hchain, hsigned⟩
    exact ⟨hstart, hend, hdid, hrevoked, hchain, hsigned⟩
  · rintro ⟨hstart, hend, hdid, hrevoked, hchain, hsigned⟩
    exact ⟨hdid, hrevoked, hstart, hend, hchain, hsigned⟩

variable {patterns : List String}

theorem AsSigned.mem_normalizePatterns (h : AsSigned patterns) {p : String} :
    p ∈ normalizePatterns patterns ↔ p ∈ patterns := by
  rw [Pod.mem_normalizePatterns]
  constructor
  · rintro ⟨⟨q, hq, rfl⟩, -⟩
    rwa [(h q hq).1]
  · intro hp
    exact ⟨⟨p, hp, (h p hp).1⟩, (h p hp).2⟩

theorem mem_normalizeModes (modes : List AccessMode) (mode : AccessMode) : mode ∈ normalizeModes modes ↔ mode ∈ modes :=
  mem_sortDedup

theorem capabilityAuthorizes_iff {resourceKey : String} {mode : AccessMode} :
    capabilityAuthorizes C J token resourceKey mode now = true ↔
      (token.notBefore ≤ now ∧ now < token.expiresAt ∧ Sealed C J token) ∧ mode ∈ token.modes ∧
        ∃ p ∈ token.resourcePatterns, keyPatternMatches p resourceKey = true := by
  rw [capabilityAuthorizes, Bool.and_eq_true, Bool.and_eq_true, isOk_verifyCapability, List.contains_iff_mem, List.any_eq_true,
    and_assoc]

theorem tokenAuthorizesToolCall_iff {senderDid toolName : String} :
    tokenAuthorizesToolCall C J token senderDid toolName now = true ↔
      (token.notBefore ≤ now ∧ now < token.expiresAt ∧ Sealed C J token) ∧ token.granteeDid = senderDid ∧
        ∃ p ∈ token.resourcePatterns, keyPatternMatches p toolName = true := by
  rw [tokenAuthorizesToolCall, Bool.and_eq_true, Bool.and_eq_true, isOk_verifyCapability, beq_iff_eq, List.any_eq_true,
    and_assoc]

theorem keyPatternMatches_self (pattern : String) : keyPatternMatches pattern pattern = true := by
  unfold keyPatternMatches stripSuffix
  split_ifs with hstar hlast
  · rfl
  · dsimp only
    unfold startsWith
    rw [String.toList_ofList, List.isPrefixOf_iff_prefix]
    exact List.dropLast_prefix _
  · exact beq_self_eq_true pattern

/-- The fields that are signed, as they are enforced. -/
structure Alike (t₁ t₂ : CapabilityToken) : Prop where
  granteeDid : t₁.granteeDid = t₂.granteeDid
  notBefore : t₁.notBefore = t₂.notBefore
  expiresAt : t₁.expiresAt = t₂.expiresAt
  modes : ∀ mode, mode ∈ t₁.modes ↔ mode ∈ t₂.modes
  patterns : ∀ p, p ∈ t₁.resourcePatterns ↔ p ∈ t₂.resourcePatterns

theorem alike_of_canonical {t₁ t₂ : CapabilityToken} (hpayload : canonicalFromToken t₁ = canonicalFromToken t₂)
    (h₁ : AsSigned t₁.resourcePatterns) (h₂ : AsSigned t₂.resourcePatterns) : Alike t₁ t₂ := by
  obtain ⟨-, hgrantee, -, hpatterns, hmodes, hstart, hend, -⟩ := CapabilityCanonical.mk.inj hpayload
  refine ⟨hgrantee, hstart, hend, fun mode => ?_, fun p => ?_⟩
  · rw [← mem_normalizeModes, hmodes, mem_normalizeModes]
  · rw [← h₁.mem_normalizePatterns, hpatterns, h₂.mem_normalizePatterns]

theorem Alike.sameAuthority {t₁ t₂ : CapabilityToken} (h : Alike t₁ t₂)
    (hverify : ∀ now, (t₁.notBefore ≤ now ∧ now < t₁.expiresAt) ∧ t₁.resourcePatterns ≠ [] → (Sealed C J t₁ ↔ Sealed C J t₂)) :
    SameAuthority C J t₁ t₂ := by
  have hmatch : ∀ key, (∃ p ∈ t₁.resourcePatterns, keyPatternMatches p key = true) ↔
      ∃ p ∈ t₂.resourcePatterns, keyPatternMatches p key = true := by
    intro key
    simp only [h.patterns]
  have hvalid : ∀ now (other₁ other₂ : Prop), (other₁ → t₁.resourcePatterns ≠ []) → (other₁ ↔ other₂) →
      ((t₁.notBefore ≤ now ∧ now < t₁.expiresAt ∧ Sealed C J t₁) ∧ other₁ ↔
        (t₂.notBefore ≤ now ∧ now < t₂.expiresAt ∧ Sealed C J t₂) ∧ other₂) := by
    intro now other₁ other₂ hsome hother
    rw [← h.notBefore, ← h.expiresAt, ← hother, ← and_assoc, ← and_assoc]
    refine and_congr_left fun hholds => and_congr_right fun hwindow => ?_
    exact hverify now ⟨hwindow, hsome hholds⟩
  constructor
  · intro resourceKey mode now
    rw [Bool.eq_iff_iff, capabilityAuthorizes_iff, capabilityAuthorizes_iff]
    refine hvalid now _ _ ?_ (and_congr (h.modes mode) (hmatch resourceKey))
    rintro ⟨-, p, hp, -⟩
    exact List.ne_nil_of_mem hp
  · intro senderDid toolName now
    rw [Bool.eq_iff_iff, tokenAuthorizesToolCall_iff, tokenAuthorizesToolCall_iff]
    refine hvalid now _ _ ?_ (and_congr (by rw [h.granteeDid]) (hmatch toolName))
    rintro ⟨-, p, hp, -⟩
    exact List.ne_nil_of_mem hp

/-- **What is signed is what is enforced**, for patterns as they are signed: where the rest of the two tokens is in order in
both or in neither, or there is no time or no pattern at all. -/
theorem sameAuthority_iff {t₁ t₂ : CapabilityToken} (hpayload : canonicalFromToken t₁ = canonicalFromToken t₂)
    (h₁ : AsSigned t₁.resourcePatterns) (h₂ : AsSigned t₂.resourcePatterns) :
    SameAuthority C J t₁ t₂ ↔
      (Sealed C J t₁ ↔ Sealed C J t₂) ∨ t₁.expiresAt ≤ t₁.notBefore ∨ t₁.resourcePatterns = [] := by
  have halike := alike_of_canonical hpayload h₁ h₂
  constructor
  · rintro ⟨-, hcalls⟩
    by_cases hempty : t₁.expiresAt ≤ t₁.notBefore
    · exact .inr (.inl hempty)
    by_cases hnone : t₁.resourcePatterns = []
    · exact .inr (.inr hnone)
    -- both are asked for a call that the tokens cover, when their time begins
    obtain ⟨p, hp⟩ := List.exists_mem_of_ne_nil _ hnone
    have hcall := hcalls t₁.granteeDid p t₁.notBefore
    rw [Bool.eq_iff_iff, tokenAuthorizesToolCall_iff, tokenAuthorizesToolCall_iff, ← halike.notBefore, ← halike.expiresAt,
      ← halike.granteeDid] at hcall
    have hwindow : t₁.notBefore ≤ t₁.notBefore ∧ t₁.notBefore < t₁.expiresAt := ⟨UInt64.le_refl _, UInt64.not_le.mp hempty⟩
    have hmatch₁ : ∃ q ∈ t₁.resourcePatterns, keyPatternMatches q p = true := ⟨p, hp, keyPatternMatches_self p⟩
    have hmatch₂ : ∃ q ∈ t₂.resourcePatterns, keyPatternMatches q p = true :=
      ⟨p, (halike.patterns p).mp hp, keyPatternMatches_self p⟩
    simp only [hwindow, hmatch₁, hmatch₂, true_and, and_true] at hcall
    exact .inl hcall
  · rintro (hsealed | hempty | hnone)
    · exact halike.sameAuthority fun _ _ => hsealed
    · refine halike.sameAuthority fun now ⟨⟨hstart, hend⟩, _⟩ => ?_
      exact absurd (UInt64.lt_of_lt_of_le hend hempty) (UInt64.not_lt.mpr hstart)
    · exact halike.sameAuthority fun _ ⟨_, hsome⟩ => absurd hnone hsome

/-! ### Edited tokens -/

theorem canonical_edit (h : normalizePatterns patterns = normalizePatterns token.resourcePatterns) :
    canonicalFromToken { token with resourcePatterns := patterns } = canonicalFromToken token := by
  simp only [canonicalFromToken, h]

theorem sealed_edit (h : normalizePatterns patterns = normalizePatterns token.resourcePatterns) :
    Sealed C J { token with resourcePatterns := patterns } ↔ Sealed C J token := by
  have hchain : delegationChainValid { token with resourcePatterns := patterns } = delegationChainValid token := rfl
  unfold Sealed
  rw [canonical_edit h, hchain]

theorem exists_starToken : ∃ token : CapabilityToken, token.resourcePatterns = ["*"] ∧
    (verifyCapability .reference .reference token 5).isOk = true := by
  obtain ⟨token, hcreate, -, -, hverify⟩ := exists_referenceToken "did:a" (Vector.replicate 32 7)
  refine ⟨token, ?_, by rw [hverify]; rfl⟩
  simp only [createCapability, bind, bind_eq_ok, ensure_eq_ok, okOr_eq_ok, pure, Except.pure, exists_const] at hcreate
  obtain ⟨-, -, -, -, -, _, -, _, -, ⟨_, _⟩, -, htoken⟩ := hcreate
  rw [← Except.ok.inj htoken]
  exact normalizePatterns_star

/-- The same signed text, twice with less authority: a token that was revoked, and one with white space behind its star. -/
theorem edited_token_differs : ∃ token : CapabilityToken,
    (canonicalFromToken { token with revoked := true } = canonicalFromToken token ∧
      ¬ SameAuthority .reference .reference { token with revoked := true } token) ∧
    canonicalFromToken { token with resourcePatterns := ["* "] } = canonicalFromToken token ∧
      ¬ SameAuthority .reference .reference { token with resourcePatterns := ["* "] } token := by
  obtain ⟨token, hpatterns, hverify⟩ := exists_starToken
  have hgranted : tokenAuthorizesToolCall .reference .reference token token.granteeDid "read" 5 = true := by
    rw [tokenAuthorizesToolCall, hverify, hpatterns, beq_self_eq_true]
    rfl
  refine ⟨token, ⟨rfl, fun hsame => ?_⟩, canonical_edit ?_, fun hsame => ?_⟩
  · have hcall := (hsame.2 token.granteeDid "read" 5).trans hgranted
    obtain ⟨⟨-, -, -, hrevoked, -⟩, -⟩ := tokenAuthorizesToolCall_iff.mp hcall
    cases hrevoked
  · have hfilter : (["* "].map Text.trim).filter (· ≠ "") = ["*"] := by decide
    rw [hpatterns, normalizePatterns_star, normalizePatterns, hfilter]
    simp
  · have hcall := (hsame.2 token.granteeDid "read" 5).trans hgranted
    obtain ⟨-, -, p, hp, hmatch⟩ := tokenAuthorizesToolCall_iff.mp hcall
    rw [List.mem_singleton.mp hp] at hmatch
    exact absurd hmatch (by decide)

theorem sameAuthority_iff_star : ∃ token : CapabilityToken, token.resourcePatterns = ["*"] ∧
    SameAuthority .reference .reference { token with resourcePatterns := ["*", "*"] } token := by
  obtain ⟨token, hpatterns, -⟩ := exists_starToken
  have hnormal : normalizePatterns ["*", "*"] = normalizePatterns token.resourcePatterns := by
    have hfilter : (["*", "*"].map Text.trim).filter (· ≠ "") = ["*", "*"] := by decide
    rw [hpatterns, normalizePatterns_star, normalizePatterns, hfilter, List.mergeSort_of_pairwise (by simp)]
    rfl
  have hstars : AsSigned ["*", "*"] := by
    unfold AsSigned
    decide
  have hstar : AsSigned token.resourcePatterns := by
    rw [hpatterns]
    exact fun p hp => hstars p (List.mem_cons_of_mem _ hp)
  exact ⟨token, hpatterns, (sameAuthority_iff (canonical_edit hnormal) hstars hstar).mpr (.inl (sealed_edit hnormal))⟩

end AgentHalo.Pod
