import AgentHalo.Pod.Capability

/-!
# Who made an accepted capability

An accepted token carries an Ed25519 signature that verifies under a key of the document inside the token. Only the check
that the key in the token's name is that key (`verifyDidDocumentBinding`) ties the signature to the name, and
`verifyCapability` does not make it: a document built for somebody else's name around one's own keys passes. What verifies
under a key was made with its secret, and a signature with one secret only (`Unforgeable`).
-/

namespace AgentHalo.Pod

section Authenticity

variable {P : Platform} {C : DidCodec P} {J : CapabilityJson}

/-- `madeBy key message signature` records which signatures have been made with the secret behind which Ed25519 key. -/
structure Unforgeable (C : DidCodec P) (madeBy : Vector UInt8 32 → Bytes → Vector UInt8 64 → Prop) : Prop where
  made : ∀ key vk message signature, C.ed25519KeyFromBytes key = .ok vk →
    P.ed25519.verify vk message signature = true → madeBy key message signature
  unique : ∀ key key' message signature, madeBy key message signature → madeBy key' message signature → key = key'

/-- The token's Ed25519 signature was made with the secret behind the key that the grantor's identifier encodes. -/
def MadeByGrantor (C : DidCodec P) (J : CapabilityJson) (madeBy : Vector UInt8 32 → Bytes → Vector UInt8 64 → Prop)
    (token : CapabilityToken) : Prop :=
  ∃ key message edSig signature, decodeDidKeyEd25519Public C token.grantorDid = .ok key ∧
    canonicalBytes J (canonicalFromToken token) = .ok message ∧ hexDecode token.signatureEd25519Hex = .ok edSig ∧
    C.ed25519SignatureFromSlice edSig = .ok signature ∧ madeBy key message signature

variable {madeBy : Vector UInt8 32 → Bytes → Vector UInt8 64 → Prop}

theorem decodeDocument_of_decodeMultibaseKey {doc : DIDDocument} {method : VerificationMethod} {raw : Bytes}
    {key : Vector UInt8 32} (hmethod : doc.verificationMethod.find? (·.type = typeEd25519) = some method)
    (hraw : decodeMultibaseKey C method.publicKeyMultibase multicodecEd25519Pub = .ok raw)
    (hkey : Text.toArray 32 raw = some key) : decodeDocumentEd25519Public C doc = .ok key := by
  unfold decodeMultibaseKey at hraw
  unfold decodeDocumentEd25519Public
  rw [hmethod]
  dsimp only
  cases hdecode : C.multibaseDecode method.publicKeyMultibase with
  | error e =>
    rw [hdecode] at hraw
    cases hraw
  | ok decoded =>
    rw [hdecode] at hraw
    dsimp only at hraw
    split_ifs at hraw with hshort hleading
    obtain rfl := Except.ok.inj hraw
    have hlength : (decoded.drop multicodecEd25519Pub.length).length = 32 := by
      unfold Text.toArray at hkey
      split_ifs at hkey with hlength
      exact hlength
    rw [List.length_drop] at hlength
    dsimp only
    rw [ed25519PublicOf, if_neg (by omega), if_neg hleading, hkey]
    rfl

theorem madeBy_document_of_accepted (hunforgeable : Unforgeable C madeBy) {token : CapabilityToken} {now : UInt64}
    (haccepted : verifyCapability C J token now = .ok ()) :
    ∃ key message edSig signature, decodeDocumentEd25519Public C token.grantorDidDocument = .ok key ∧
      canonicalBytes J (canonicalFromToken token) = .ok message ∧ hexDecode token.signatureEd25519Hex = .ok edSig ∧
      C.ed25519SignatureFromSlice edSig = .ok signature ∧ madeBy key message signature := by
  obtain ⟨-, -, -, -, -, message, edSig, pqSig, hmessage, -, hed, -, -, -, hverify⟩ :=
    (verifyCapability_ok_iff C J token now).mp haccepted
  obtain ⟨method, raw, key, vk, signature, hmethod, hraw, hkey, hvk, hsignature, hok⟩ := dualVerify_ok_true hverify
  exact ⟨key, message, edSig, signature, decodeDocument_of_decodeMultibaseKey hmethod hraw hkey, hmessage, hed,
    hsignature, hunforgeable.made key vk message signature hvk hok⟩

theorem verifyDidDocumentBinding_ok_iff (did : String) (doc : DIDDocument) :
    verifyDidDocumentBinding C did doc = .ok () ↔ doc.id = did ∧
      ∃ key, decodeDidKeyEd25519Public C did = .ok key ∧ decodeDocumentEd25519Public C doc = .ok key := by
  unfold verifyDidDocumentBinding
  by_cases hid : doc.id = did
  · rw [if_neg (not_not.mpr hid)]
    cases decodeDidKeyEd25519Public C did with
    | error e => simp
    | ok key =>
      cases decodeDocumentEd25519Public C doc with
      | error e => simp
      | ok key' =>
        by_cases hkey : key = key'
        · simp [hid, hkey]
        · simp [hkey, Ne.symm hkey]
  · rw [if_pos hid]
    simp [hid]

theorem binding_of_madeByGrantor (hunforgeable : Unforgeable C madeBy) {token : CapabilityToken} {now : UInt64}
    (haccepted : verifyCapability C J token now = .ok ()) (hmade : MadeByGrantor C J madeBy token) :
    verifyDidDocumentBinding C token.grantorDid token.grantorDidDocument = .ok () := by
  obtain ⟨key, message, edSig, signature, hkey, hmessage, hed, hsignature, hby⟩ := hmade
  obtain ⟨key', message', edSig', signature', hdocument, hmessage', hed', hsignature', hby'⟩ :=
    madeBy_document_of_accepted hunforgeable haccepted
  obtain rfl := Except.ok.inj (hmessage.symm.trans hmessage')
  obtain rfl := Except.ok.inj (hed.symm.trans hed')
  obtain rfl := Except.ok.inj (hsignature.symm.trans hsignature')
  obtain rfl := hunforgeable.unique key key' message signature hby hby'
  exact (verifyDidDocumentBinding_ok_iff _ _).mpr
    ⟨((verifyCapability_ok_iff C J token now).mp haccepted).1, key, hkey, hdocument⟩

/-- **Who made an accepted capability**: its named grantor, exactly when the document inside it passes the binding check
for that name. -/
theorem madeByGrantor_iff_binding (hunforgeable : Unforgeable C madeBy) (token : CapabilityToken) (now : UInt64)
    (haccepted : verifyCapability C J token now = .ok ()) :
    MadeByGrantor C J madeBy token ↔
      verifyDidDocumentBinding C token.grantorDid token.grantorDidDocument = .ok () := by
  refine ⟨binding_of_madeByGrantor hunforgeable haccepted, fun hbinding => ?_⟩
  obtain ⟨-, key, hkey, hdocument⟩ := (verifyDidDocumentBinding_ok_iff _ _).mp hbinding
  obtain ⟨key', message, edSig, signature, hdocument', hmessage, hed, hsignature, hby⟩ :=
    madeBy_document_of_accepted hunforgeable haccepted
  obtain rfl := Except.ok.inj (hdocument.symm.trans hdocument')
  exact ⟨key, message, edSig, signature, hkey, hmessage, hed, hsignature, hby⟩

end Authenticity

/-! ### On the reference platform -/

def referenceMadeBy (key : Vector UInt8 32) (message : Bytes) (signature : Vector UInt8 64) : Prop :=
  Reference.ed25519.verify key message signature = true

theorem referenceMadeBy_unforgeable : Unforgeable DidCodec.reference referenceMadeBy where
  made key vk message signature hvk hok := by
    obtain rfl : key = vk := Except.ok.inj hvk
    exact hok
  unique key key' message signature h h' := by
    have hsame : Reference.digest 64 (message ++ key.toList) = Reference.digest 64 (message ++ key'.toList) :=
      (eq_of_beq h).symm.trans (eq_of_beq h')
    refine Vector.ext fun i hi => ?_
    have hread (k : Vector UInt8 32) : (Reference.digest 64 (message ++ k.toList))[31 - i] = k[i] := by
      have hback : 32 - 1 - (31 - i) = i := by omega
      have hlt : 31 - i < k.toList.reverse.length := by
        rw [List.length_reverse, Vector.length_toList]
        omega
      simp only [Reference.digest, Vector.getElem_ofFn, List.reverse_append, List.getD_eq_getElem?_getD]
      rw [List.getElem?_append_left hlt, List.getElem?_eq_getElem hlt]
      simp [hback]
    rw [← hread key, ← hread key', hsame]

/-- The grantor whose name encodes its key. -/
theorem madeByGrantor_of_own_did : ∃ token : CapabilityToken,
    verifyCapability .reference .reference token 5 = .ok () ∧
      MadeByGrantor .reference .reference referenceMadeBy token := by
  obtain ⟨token, -, hdid, hdocument, haccepted⟩ :=
    exists_referenceToken (didFromEd25519PublicKey .reference (Vector.replicate 32 2)) (Vector.replicate 32 2)
  refine ⟨token, haccepted, (madeByGrantor_iff_binding referenceMadeBy_unforgeable token 5 haccepted).mpr ?_⟩
  rw [hdid, hdocument]
  refine ((referenceIdentity_ownDocument _ _).binding_iff DidCodec.reference_lawful).mpr ?_
  exact decodeDidKey_did DidCodec.reference_lawful _

/-- A token in the name of one key, made with another. -/
theorem forged_capability_accepted : ∃ token : CapabilityToken,
    Unforgeable DidCodec.reference referenceMadeBy ∧ verifyCapability .reference .reference token 5 = .ok () ∧
      ¬ MadeByGrantor .reference .reference referenceMadeBy token := by
  obtain ⟨token, -, hdid, hdocument, haccepted⟩ :=
    exists_referenceToken (didFromEd25519PublicKey .reference (Vector.replicate 32 1)) (Vector.replicate 32 2)
  refine ⟨token, referenceMadeBy_unforgeable, haccepted, fun hmade => ?_⟩
  have hbinding := binding_of_madeByGrantor referenceMadeBy_unforgeable haccepted hmade
  rw [hdid, hdocument] at hbinding
  have hkey := ((referenceIdentity_ownDocument _ _).binding_iff DidCodec.reference_lawful).mp hbinding
  have hsame := Except.ok.inj ((decodeDidKey_did DidCodec.reference_lawful (Vector.replicate 32 1)).symm.trans hkey)
  have hfirst : (Vector.replicate 32 (1 : UInt8))[0] = (Vector.replicate 32 (2 : UInt8))[0] :=
    congrArg (fun v : Vector UInt8 32 => v[0]) hsame
  exact absurd hfirst (by decide)

end AgentHalo.Pod
