import AgentHalo.Base.Reference
import AgentHalo.Base.Scan

/-!
# DID documents

A `did:key` identifier encodes an Ed25519 key. The document of an identity repeats that key among its verification
methods, next to an ML-DSA-65 key that the identifier does not encode. `dualVerify` checks a pair of signatures against
the keys of a document; `verifyDidDocumentBinding` is the check that the Ed25519 key of a document is the one in the
identifier.

The encodings of keys and signatures come from other packages and are the fields of `DidCodec`.
-/

namespace AgentHalo.Pod

open Text (utf8 stripPrefix toArray)

/-- The `multibase` crate and the key and signature encodings of the two signature schemes. -/
structure DidCodec (P : Platform) where
  /-- `multibase::encode` in base 58. -/
  multibaseEncode : Bytes → String
  /-- `multibase::decode`, which reads the base off the first character. -/
  multibaseDecode : String → Except String Bytes
  ed25519KeyToBytes : P.ed25519.VerifyingKey → Vector UInt8 32
  ed25519KeyFromBytes : Vector UInt8 32 → Except String P.ed25519.VerifyingKey
  ed25519SignatureFromSlice : Bytes → Except String (Vector UInt8 64)
  mldsa65KeyEncode : P.mldsa65.VerifyingKey → Vector UInt8 1952
  mldsa65KeyDecode : Vector UInt8 1952 → P.mldsa65.VerifyingKey

def mldsa65Context : Bytes := utf8 "agenthalo-did-v1"

def multicodecEd25519Pub : Bytes := [0xed, 0x01]

def multicodecX25519Pub : Bytes := [0xec, 0x01]

def typeEd25519 : String := "Ed25519VerificationKey2020"

def typeMldsa65 : String := "MlDsa65VerificationKey2025"

def typeX25519 : String := "X25519KeyAgreementKey2020"

def typeMlkem768 : String := "MlKem768KeyAgreementKey2025"

def didKeyPrefix : String := "did:key:"

structure VerificationMethod where
  id : String
  type : String
  controller : String
  publicKeyMultibase : String
deriving DecidableEq, Repr

structure KeyAgreementMethod where
  id : String
  type : String
  controller : String
  publicKeyMultibase : String
deriving DecidableEq, Repr

structure DIDDocument where
  id : String
  alsoKnownAs : List String
  verificationMethod : List VerificationMethod
  keyAgreement : List KeyAgreementMethod
  authentication : List String
  assertionMethod : List String
deriving DecidableEq, Repr

/-- An identity, with the secret keys that it signs with. -/
structure DIDIdentity (P : Platform) where
  did : String
  didDocument : DIDDocument
  ed25519SigningKey : P.ed25519.SigningKey
  mldsa65SigningKey : P.mldsa65.SigningKey

def okOr {α : Type} (error : String) : Option α → Except String α
  | none => .error error
  | some a => .ok a

section Codec

variable {P : Platform} (C : DidCodec P)

/-! ### Encoded keys -/

def encodeMultibaseKey (pre publicKey : Bytes) : String := C.multibaseEncode (pre ++ publicKey)

def decodeMultibaseKey (encoded : String) (expectedPrefix : Bytes) : Except String Bytes :=
  match C.multibaseDecode encoded with
  | .error e => .error ("multibase decode failed for key material: " ++ e)
  | .ok decoded =>
    if decoded.length < expectedPrefix.length then
      .error "decoded multibase key is shorter than expected prefix"
    else if !expectedPrefix.isPrefixOf decoded then
      .error "decoded multibase key has unexpected multicodec prefix"
    else .ok (decoded.drop expectedPrefix.length)

def decodeMultibaseUntypedKey (encoded : String) : Except String Bytes :=
  match C.multibaseDecode encoded with
  | .error e => .error ("multibase decode failed for untyped key material: " ++ e)
  | .ok decoded => .ok decoded

def didFromEd25519PublicKey (publicKey : Vector UInt8 32) : String :=
  didKeyPrefix ++ encodeMultibaseKey C multicodecEd25519Pub publicKey.toList

def didFragment (did suffix : String) : String := did ++ "#" ++ suffix

/-- The document of an identity, from its public keys. -/
def buildDidDocumentFromParts (did : String) (ed25519PublicKey : Vector UInt8 32) (mldsa65PublicKey : Bytes)
    (x25519PublicKey : Vector UInt8 32) (mlkem768PublicKey : Bytes) : DIDDocument :=
  let edKeyId := didFragment did "key-ed25519-1"
  let pqKeyId := didFragment did "key-mldsa65-1"
  { id := did
    alsoKnownAs := []
    verificationMethod := [
      ⟨edKeyId, typeEd25519, did, encodeMultibaseKey C multicodecEd25519Pub ed25519PublicKey.toList⟩,
      ⟨pqKeyId, typeMldsa65, did, encodeMultibaseKey C [] mldsa65PublicKey⟩]
    keyAgreement := [
      ⟨didFragment did "key-x25519-1", typeX25519, did, encodeMultibaseKey C multicodecX25519Pub x25519PublicKey.toList⟩,
      ⟨didFragment did "key-mlkem768-1", typeMlkem768, did, encodeMultibaseKey C [] mlkem768PublicKey⟩]
    authentication := [edKeyId, pqKeyId]
    assertionMethod := [edKeyId, pqKeyId] }

/-! ### The key of an identifier and of a document -/

/-- The key in decoded bytes, which must be the Ed25519 multicodec and 32 bytes more; the errors are the caller's. -/
def ed25519PublicOf (badLength badPrefix : String) (decoded : Bytes) : Except String (Vector UInt8 32) :=
  if decoded.length ≠ multicodecEd25519Pub.length + 32 then .error badLength
  else if !multicodecEd25519Pub.isPrefixOf decoded then .error badPrefix
  else okOr badLength (toArray 32 (decoded.drop multicodecEd25519Pub.length))

def decodeDidKeyEd25519Public (did : String) : Except String (Vector UInt8 32) :=
  match stripPrefix did didKeyPrefix with
  | none => .error "DID is not a did:key identifier"
  | some encoded =>
    match C.multibaseDecode encoded with
    | .error e => .error ("multibase decode failed for did:key identifier: " ++ e)
    | .ok decoded =>
      ed25519PublicOf "did:key payload must be Ed25519 multicodec + 32-byte key"
        "did:key payload must use Ed25519 multicodec prefix" decoded

def decodeDocumentEd25519Public (didDocument : DIDDocument) : Except String (Vector UInt8 32) :=
  match didDocument.verificationMethod.find? (·.type = typeEd25519) with
  | none => .error "DID document missing Ed25519 verification method"
  | some method =>
    match C.multibaseDecode method.publicKeyMultibase with
    | .error e => .error ("multibase decode failed for DID Ed25519 key: " ++ e)
    | .ok decoded =>
      ed25519PublicOf "DID Ed25519 key must include multicodec + 32-byte key"
        "DID Ed25519 key has unexpected multicodec prefix" decoded

/-- `verify_did_document_binding`, with which the remote server checks the document of a sender. -/
def verifyDidDocumentBinding (senderDid : String) (didDocument : DIDDocument) : Except String Unit :=
  if didDocument.id ≠ senderDid then .error "sender DID document id does not match sender DID"
  else
    match decodeDidKeyEd25519Public C senderDid with
    | .error e => .error e
    | .ok didKeyEd25519 =>
      match decodeDocumentEd25519Public C didDocument with
      | .error e => .error e
      | .ok documentEd25519 =>
        if didKeyEd25519 ≠ documentEd25519 then
          .error "sender DID document Ed25519 key does not match did:key identifier"
        else .ok ()

/-! ### Signing and verifying -/

/-- The Ed25519 signature and the encoded ML-DSA signature; `none` is a failure of ML-DSA signing. -/
def dualSign (identity : DIDIdentity P) (message : Bytes) : Option (Bytes × Bytes) :=
  (P.mldsa65.signDeterministic identity.mldsa65SigningKey message mldsa65Context).map fun signature =>
    ((P.ed25519.sign identity.ed25519SigningKey message).toList, (P.mldsa65.encode signature).toList)

def dualVerify (doc : DIDDocument) (message edSig pqSig : Bytes) : Except String Bool := do
  let edMethod ← okOr "DID document missing Ed25519 verification method"
    (doc.verificationMethod.find? (·.type = typeEd25519))
  let pqMethod ← okOr "DID document missing ML-DSA-65 verification method"
    (doc.verificationMethod.find? (·.type = typeMldsa65))
  let edPublicKeyRaw ← decodeMultibaseKey C edMethod.publicKeyMultibase multicodecEd25519Pub
  let edPublicKeyBytes ← okOr "Ed25519 key length must be exactly 32 bytes" (toArray 32 edPublicKeyRaw)
  let edVk ← (C.ed25519KeyFromBytes edPublicKeyBytes).mapError ("invalid Ed25519 key in DID document: " ++ ·)
  let edSignature ← (C.ed25519SignatureFromSlice edSig).mapError ("invalid Ed25519 signature bytes: " ++ ·)
  let edOk := P.ed25519.verify edVk message edSignature
  let pqPublicKeyRaw ← decodeMultibaseUntypedKey C pqMethod.publicKeyMultibase
  let pqEncodedVk ← okOr "invalid ML-DSA verifying key encoding in DID document" (toArray 1952 pqPublicKeyRaw)
  let pqVk := C.mldsa65KeyDecode pqEncodedVk
  let pqEncodedSig ← okOr "invalid ML-DSA signature encoding" (toArray 3309 pqSig)
  let pqSignature ← okOr "invalid ML-DSA signature payload" (P.mldsa65.decode pqEncodedSig)
  let pqOk := P.mldsa65.verifyWithContext pqVk message mldsa65Context pqSignature
  return edOk && pqOk

variable {C}

@[simp] theorem okOr_eq_ok {α : Type} {e : String} {o : Option α} {a : α} : okOr e o = .ok a ↔ o = some a := by
  cases o <;> simp [okOr]

theorem bind_eq_ok {α β : Type} {x : Except String α} {f : α → Except String β} {b : β} :
    x.bind f = .ok b ↔ ∃ a, x = .ok a ∧ f a = .ok b := by
  cases x <;> simp [Except.bind]

theorem mapError_eq_ok {α : Type} {x : Except String α} {f : String → String} {a : α} :
    x.mapError f = .ok a ↔ x = .ok a := by
  cases x <;> simp [Except.mapError]

theorem dualVerify_ok_true {doc : DIDDocument} {message edSig pqSig : Bytes}
    (h : dualVerify C doc message edSig pqSig = .ok true) :
    ∃ edMethod raw key vk signature, doc.verificationMethod.find? (·.type = typeEd25519) = some edMethod ∧
      decodeMultibaseKey C edMethod.publicKeyMultibase multicodecEd25519Pub = .ok raw ∧ toArray 32 raw = some key ∧
      C.ed25519KeyFromBytes key = .ok vk ∧ C.ed25519SignatureFromSlice edSig = .ok signature ∧
      P.ed25519.verify vk message signature = true := by
  simp only [dualVerify, bind, pure, Except.pure, bind_eq_ok, okOr_eq_ok, mapError_eq_ok, Except.ok.injEq,
    Bool.and_eq_true] at h
  obtain ⟨edMethod, hed, pqMethod, -, raw, hraw, key, hkey, vk, hvk, signature, hsignature, pqRaw, -, pqVk, -, pqSig', -,
    pqSignature, -, hok, -⟩ := h
  exact ⟨edMethod, raw, key, vk, signature, hed, hraw, hkey, hvk, hsignature, hok⟩

/-! ### An identity verifies what it signs -/

/-- What is encoded is decoded. -/
structure DidCodec.Lawful (C : DidCodec P) : Prop where
  multibase : ∀ payload, C.multibaseDecode (C.multibaseEncode payload) = .ok payload
  ed25519Key : ∀ vk, C.ed25519KeyFromBytes (C.ed25519KeyToBytes vk) = .ok vk
  ed25519Signature : ∀ signature : Vector UInt8 64, C.ed25519SignatureFromSlice signature.toList = .ok signature
  mldsa65Key : ∀ vk, C.mldsa65KeyDecode (C.mldsa65KeyEncode vk) = vk

/-- The scheme is correct under the context of DID signatures. -/
structure MlDsa65Correct (M : MlDsa65) : Prop where
  decode_encode : ∀ sig, M.decode (M.encode sig) = some sig
  verify_sign : ∀ sk msg sig, M.signDeterministic sk msg mldsa65Context = some sig →
    M.verifyWithContext (M.verifyingKey sk) msg mldsa65Context sig = true

namespace DIDIdentity

def ed25519PublicKey (C : DidCodec P) (identity : DIDIdentity P) : Vector UInt8 32 :=
  C.ed25519KeyToBytes (P.ed25519.verifyingKey identity.ed25519SigningKey)

def mldsa65PublicKey (C : DidCodec P) (identity : DIDIdentity P) : Bytes :=
  (C.mldsa65KeyEncode (P.mldsa65.verifyingKey identity.mldsa65SigningKey)).toList

/-- The document is the one built from the identity's keys, under whatever name it goes. -/
def OwnDocument (C : DidCodec P) (identity : DIDIdentity P) : Prop :=
  ∃ x25519PublicKey mlkem768PublicKey, identity.didDocument = buildDidDocumentFromParts C identity.did
    (identity.ed25519PublicKey C) (identity.mldsa65PublicKey C) x25519PublicKey mlkem768PublicKey

/-- An identity as it is derived from a seed: its name encodes its Ed25519 key. -/
structure WellFormed (C : DidCodec P) (identity : DIDIdentity P) : Prop where
  did : identity.did = didFromEd25519PublicKey C (identity.ed25519PublicKey C)
  document : identity.OwnDocument C

end DIDIdentity

theorem decodeMultibaseKey_encode (hC : C.Lawful) (pre publicKey : Bytes) :
    decodeMultibaseKey C (encodeMultibaseKey C pre publicKey) pre = .ok publicKey := by
  simp [decodeMultibaseKey, encodeMultibaseKey, hC.multibase]

theorem decodeMultibaseUntypedKey_encode (hC : C.Lawful) (publicKey : Bytes) :
    decodeMultibaseUntypedKey C (encodeMultibaseKey C [] publicKey) = .ok publicKey := by
  simp [decodeMultibaseUntypedKey, encodeMultibaseKey, hC.multibase]

theorem ed25519PublicOf_multicodec (badLength badPrefix : String) (publicKey : Vector UInt8 32) :
    ed25519PublicOf badLength badPrefix (multicodecEd25519Pub ++ publicKey.toList) = .ok publicKey := by
  simp [ed25519PublicOf, multicodecEd25519Pub, Text.toArray_toList, okOr]

theorem decodeDidKey_did (hC : C.Lawful) (publicKey : Vector UInt8 32) :
    decodeDidKeyEd25519Public C (didFromEd25519PublicKey C publicKey) = .ok publicKey := by
  simp [decodeDidKeyEd25519Public, didFromEd25519PublicKey, stripPrefix, encodeMultibaseKey, hC.multibase,
    ed25519PublicOf_multicodec]

namespace DIDIdentity.OwnDocument

variable {identity : DIDIdentity P}

theorem id (h : identity.OwnDocument C) : identity.didDocument.id = identity.did := by
  obtain ⟨x25519PublicKey, mlkem768PublicKey, hdocument⟩ := h
  rw [hdocument]
  rfl

theorem decodeDocument (hC : C.Lawful) (h : identity.OwnDocument C) :
    decodeDocumentEd25519Public C identity.didDocument = .ok (identity.ed25519PublicKey C) := by
  obtain ⟨x25519PublicKey, mlkem768PublicKey, hdocument⟩ := h
  rw [hdocument]
  simp [decodeDocumentEd25519Public, buildDidDocumentFromParts, encodeMultibaseKey, hC.multibase,
    ed25519PublicOf_multicodec]

theorem dualVerify_dualSign (hC : C.Lawful) (hE : P.ed25519.Correct) (hM : MlDsa65Correct P.mldsa65)
    (h : identity.OwnDocument C) {message edSig pqSig : Bytes}
    (hsign : dualSign identity message = some (edSig, pqSig)) :
    dualVerify C identity.didDocument message edSig pqSig = .ok true := by
  obtain ⟨x25519PublicKey, mlkem768PublicKey, hdocument⟩ := h
  obtain ⟨signature, hsignature, hpair⟩ := Option.map_eq_some_iff.mp hsign
  obtain ⟨rfl, rfl⟩ := Prod.mk.inj hpair
  have htypes : typeEd25519 ≠ typeMldsa65 := by decide
  rw [hdocument]
  simp only [dualVerify, buildDidDocumentFromParts, ed25519PublicKey, mldsa65PublicKey, List.find?_cons, htypes,
    decide_true, decide_false, okOr, decodeMultibaseKey_encode hC, decodeMultibaseUntypedKey_encode hC,
    Text.toArray_toList, hC.ed25519Key, hC.ed25519Signature, hC.mldsa65Key, hM.decode_encode, Except.mapError, bind,
    Except.bind, pure, Except.pure, hE.verify_sign, hM.verify_sign _ _ _ hsignature, Bool.and_self]

theorem binding_iff (hC : C.Lawful) (h : identity.OwnDocument C) :
    verifyDidDocumentBinding C identity.did identity.didDocument = .ok () ↔
      decodeDidKeyEd25519Public C identity.did = .ok (identity.ed25519PublicKey C) := by
  rw [verifyDidDocumentBinding, if_neg (not_not.mpr h.id), h.decodeDocument hC]
  cases decodeDidKeyEd25519Public C identity.did with
  | error e => simp
  | ok key =>
    by_cases hkey : key = identity.ed25519PublicKey C
    · simp [hkey]
    · simp [hkey]

end DIDIdentity.OwnDocument

end Codec

/-! ### A codec to compute with -/

/-- Multibase in base 16, whose marker is `f`; keys and signatures are their own encodings. -/
def DidCodec.reference : DidCodec .reference where
  multibaseEncode payload := "f" ++ Text.hexEncode payload
  multibaseDecode encoded :=
    match stripPrefix encoded "f" with
    | none => .error "Unknown base"
    | some digits => okOr "Invalid base string" (Text.hexDecodeDynamic digits)
  ed25519KeyToBytes vk := vk
  ed25519KeyFromBytes key := .ok key
  ed25519SignatureFromSlice bytes := okOr "signature error" (toArray 64 bytes)
  mldsa65KeyEncode vk := Vector.ofFn fun i => (Vector.toList vk).getD i 0
  mldsa65KeyDecode bytes := Vector.ofFn fun i => bytes[i.val]

theorem DidCodec.reference_lawful : DidCodec.reference.Lawful where
  multibase payload := by
    simp [DidCodec.reference, stripPrefix, Text.hexDecodeDynamic_hexEncode, okOr]
  ed25519Key vk := rfl
  ed25519Signature signature := by
    simp [DidCodec.reference, Text.toArray_toList, okOr]
  mldsa65Key vk := by
    have hpad (v : Vector UInt8 32) :
        (Vector.ofFn fun i : Fin 32 => (Vector.ofFn fun j : Fin 1952 => v.toList.getD j 0)[i.val]) = v := by
      ext i hi
      simp
    exact hpad vk

end AgentHalo.Pod
