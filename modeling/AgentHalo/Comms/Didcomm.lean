import AgentHalo.Lib.Outcome
import AgentHalo.Pod.Authenticity

/-!
# Messages between agents

A message is encrypted to the agreement keys of its recipient, and the ciphertext is signed with the keys of its sender.
The signature covers the ciphertext, the tag and the nonce. The sender's name in the envelope and the ephemeral key are
not covered, and the names inside the message are not compared with anything: whoever signs a ciphertext is taken for its
sender, whoever sealed it and whatever was written into the message (`decrypted_authentic_iff`).
-/

namespace AgentHalo.Comms

open Outcome
open Pod (DIDDocument DIDIdentity DidCodec MlDsa65Correct Unforgeable dualSign dualVerify typeX25519 typeMlkem768
  multicodecX25519Pub decodeDocumentEd25519Public dualVerify_ok_true decodeDocument_of_decodeMultibaseKey)
open Text (utf8 toArray)

inductive MessageType where
  | mcpToolCall
  | mcpToolResponse
  | envelopeExchange
  | capabilityGrant
  | capabilityAccept
  | peerAnnounce
  | heartbeat
deriving DecidableEq, Repr

/-- A message before it is encrypted. -/
structure DIDCommMessage (P : Platform) where
  id : String
  type : MessageType
  sender : String
  recipients : List String
  createdTime : UInt64
  expiresTime : Option UInt64
  body : P.json.Value
  thid : Option String
  pthid : Option String

structure DIDCommEnvelope where
  typ : String
  epkX25519 : String
  nonce : String
  ciphertext : String
  tag : String
  senderDid : String
  signatureEd25519 : String
  signatureMldsa65 : String
  pqKem : Option String
  pqCt : Option String
deriving DecidableEq, Repr

/-- The crates under the envelopes: `base64` with the URL alphabet, `x25519_dalek`, `ml_kem`, `hkdf`, `aes_gcm` and the
derived conversions of a message. -/
structure MeshCrates (P : Platform) where
  did : DidCodec P
  b64Encode : Bytes → String
  b64Decode : String → Except String Bytes
  StaticSecret : Type
  publicKey : StaticSecret → Vector UInt8 32
  diffieHellman : StaticSecret → Vector UInt8 32 → Vector UInt8 32
  EncapsulationKey : Type
  DecapsulationKey : Type
  encapsulationKey : DecapsulationKey → EncapsulationKey
  encapsulationKeyFromBytes : Bytes → Option EncapsulationKey
  Coins : Type
  /-- A ciphertext and a shared secret. -/
  encapsulate : EncapsulationKey → Coins → Option (Vector UInt8 1088 × Vector UInt8 32)
  decapsulate : DecapsulationKey → Vector UInt8 1088 → Option (Vector UInt8 32)
  /-- Extraction with a salt and expansion to 32 bytes. -/
  hkdfSha256 : Option Bytes → Bytes → Bytes → Option (Vector UInt8 32)
  hkdfSha512 : Option Bytes → Bytes → Bytes → Option (Vector UInt8 32)
  /-- AES-256-GCM under a key and a nonce; the tag follows the ciphertext. -/
  encrypt : Vector UInt8 32 → Vector UInt8 12 → Bytes → Except String Bytes
  decrypt : Vector UInt8 32 → Vector UInt8 12 → Bytes → Except String Bytes
  toVec : DIDCommMessage P → Except String Bytes
  fromSlice : Bytes → Except String (DIDCommMessage P)

def hkdfMeshDidcommInfo : Bytes := utf8 "agenthalo-mesh-didcomm-v2"
def hybridKemSalt : Bytes := utf8 "AgentHALO-HybridKEM-v2"
def contentType : String := "application/didcomm-encrypted+json"

section Crates

variable {P : Platform} (K : MeshCrates P)

/-- An identity with the keys that messages to it are encrypted for. -/
structure MeshIdentity extends DIDIdentity P where
  x25519AgreementKey : K.StaticSecret
  mlkem768DecapsulationKey : K.DecapsulationKey

/-! ### Key encapsulation -/

inductive HybridKemError where
  | mlKemEncapFailed (error : String)
  | mlKemDecapFailed (error : String)
  | mlKemCtDeserFailed (error : String)
  | hkdfExpandFailed
  | missingMlKemKey
deriving DecidableEq, Repr

def HybridKemError.display : HybridKemError → String
  | .mlKemEncapFailed e => "ML-KEM encapsulation failed: " ++ e
  | .mlKemDecapFailed e => "ML-KEM decapsulation failed: " ++ e
  | .mlKemCtDeserFailed e => "ML-KEM ciphertext deserialization failed: " ++ e
  | .hkdfExpandFailed => "HKDF expand failed"
  | .missingMlKemKey => "ML-KEM decapsulation key required for hybrid decap but ciphertext present"

/-- One secret from that of X25519 and, with its ciphertext, that of ML-KEM. -/
def combineSharedSecrets (x25519Ss : Vector UInt8 32) (mlkem : Option (Vector UInt8 32 × Bytes)) (info : Bytes) :
    Except HybridKemError (Vector UInt8 32) :=
  let ikm := x25519Ss.toList ++ match mlkem with
    | some (ss, ct) => ss.toList ++ ct
    | none => []
  okOr .hkdfExpandFailed (K.hkdfSha512 (some hybridKemSalt) ikm info)

structure HybridKemEncapResult where
  sharedSecret : Vector UInt8 32
  x25519EphemeralPk : Vector UInt8 32
  mlkemCiphertext : Option Bytes

/-- The ephemeral secret and the coins are drawn by the caller. -/
def hybridEncap (ephemeral : K.StaticSecret) (coins : K.Coins) (recipientX25519Pk : Vector UInt8 32)
    (recipientMlkemEk : Option K.EncapsulationKey) (info : Bytes) : Except HybridKemError HybridKemEncapResult := do
  let x25519Ss := K.diffieHellman ephemeral recipientX25519Pk
  let mlkem ← match recipientMlkemEk with
    | some ek =>
      (okOr (.mlKemEncapFailed "encapsulate returned error") (K.encapsulate ek coins)).map fun (ct, ss) => some (ss, ct.toList)
    | none => .ok none
  let combined ← combineSharedSecrets K x25519Ss mlkem info
  return ⟨combined, K.publicKey ephemeral, mlkem.map Prod.snd⟩

def hybridDecap (x25519EphemeralPk : Vector UInt8 32) (mlkemCiphertext : Option Bytes) (ownX25519Sk : K.StaticSecret)
    (ownMlkemDk : Option K.DecapsulationKey) (info : Bytes) : Except HybridKemError (Vector UInt8 32) := do
  let x25519Ss := K.diffieHellman ownX25519Sk x25519EphemeralPk
  let mlkem ← match mlkemCiphertext with
    | some ctBytes => do
      let dk ← okOr .missingMlKemKey ownMlkemDk
      let ct ← okOr (.mlKemCtDeserFailed ("expected 1088 bytes, got " ++ toString ctBytes.length)) (toArray 1088 ctBytes)
      let ss ← okOr (.mlKemDecapFailed "decapsulate returned error") (K.decapsulate dk ct)
      pure (some (ss, ctBytes))
    | none => .ok none
  combineSharedSecrets K x25519Ss mlkem info

/-! ### Keys in documents -/

def extractX25519PublicKeyFromDoc (doc : DIDDocument) : Except String (Vector UInt8 32) := do
  let method ← okOr "DID document missing X25519 key agreement method"
    (doc.keyAgreement.find? (·.type = typeX25519))
  let decoded ← (K.did.multibaseDecode method.publicKeyMultibase).mapError ("decode X25519 key from DID document: " ++ ·)
  require (multicodecX25519Pub.isPrefixOf decoded) "DID document X25519 key has unexpected multicodec prefix"
  okOr "DID document X25519 key must be 32 bytes" (toArray 32 (decoded.drop multicodecX25519Pub.length))

/-- No key where there is none to be read. -/
def extractMlkemEncapsulationKeyFromDoc (doc : DIDDocument) : Option K.EncapsulationKey := do
  let method ← doc.keyAgreement.find? (·.type = typeMlkem768)
  let decoded ← (K.did.multibaseDecode method.publicKeyMultibase).toOption
  K.encapsulationKeyFromBytes decoded

/-! ### Encryption -/

def deriveKey (sharedSecret : Vector UInt8 32) : Except String (Vector UInt8 32) :=
  okOr "HKDF expand failed for mesh DIDComm key derivation" (K.hkdfSha256 none sharedSecret.toList hkdfMeshDidcommInfo)

def signatureInput (ciphertext tag nonce : Bytes) : Bytes := ciphertext ++ tag ++ nonce

/-- What an encryption draws. -/
structure Draws where
  ephemeral : K.StaticSecret
  coins : K.Coins
  nonce : Except String (Vector UInt8 12)

/-- The key of an envelope, and what the envelope says about it. -/
structure EncryptionKey where
  key : Vector UInt8 32
  epk : Vector UInt8 32
  pqKem : Option String
  pqCt : Option String

/-- The hybrid key if the recipient has a key for it. -/
def encryptionKey (draws : Draws K) (recipientX25519 : Vector UInt8 32) (recipientMlkem : Option K.EncapsulationKey) :
    Except String EncryptionKey :=
  match recipientMlkem with
  | some ek => do
    let encap ← (hybridEncap K draws.ephemeral draws.coins recipientX25519 (some ek) hkdfMeshDidcommInfo).mapError fun e =>
      "hybrid KEM encap failed: " ++ e.display
    return ⟨encap.sharedSecret, encap.x25519EphemeralPk, some "ML-KEM-768", encap.mlkemCiphertext.map K.b64Encode⟩
  | none => do
    let key ← deriveKey K (K.diffieHellman draws.ephemeral recipientX25519)
    return ⟨key, K.publicKey draws.ephemeral, none, none⟩

def encryptMessage (draws : Draws K) (sender : DIDIdentity P) (recipientDoc : DIDDocument) (message : DIDCommMessage P) :
    Except String DIDCommEnvelope := do
  let recipientX25519 ← extractX25519PublicKeyFromDoc K recipientDoc
  let recipientMlkem := extractMlkemEncapsulationKeyFromDoc K recipientDoc
  let plaintext ← (K.toVec message).mapError ("serialize DIDComm message: " ++ ·)
  let encryption ← encryptionKey K draws recipientX25519 recipientMlkem
  let nonce ← draws.nonce.mapError ("OS entropy unavailable for DIDComm nonce: " ++ ·)
  let ciphertextWithTag ← (K.encrypt encryption.key nonce plaintext).mapError ("DIDComm encrypt failed: " ++ ·)
  let tagOffset := ciphertextWithTag.length - 16
  let ciphertext := ciphertextWithTag.take tagOffset
  let tag := ciphertextWithTag.drop tagOffset
  let (edSig, pqSig) ← okOr "ML-DSA signing failed" (dualSign sender (signatureInput ciphertext tag nonce.toList))
  return {
    typ := contentType
    epkX25519 := K.b64Encode encryption.epk.toList
    nonce := K.b64Encode nonce.toList
    ciphertext := K.b64Encode ciphertext
    tag := K.b64Encode tag
    senderDid := sender.did
    signatureEd25519 := K.b64Encode edSig
    signatureMldsa65 := K.b64Encode pqSig
    pqKem := encryption.pqKem
    pqCt := encryption.pqCt }

/-! ### Decryption -/

def decryptionKey (recipient : MeshIdentity K) (envelope : DIDCommEnvelope) (epk : Vector UInt8 32) :
    Except String (Vector UInt8 32) :=
  if envelope.pqKem.isSome then do
    let pqCtB64 ← okOr "pq_kem present but pq_ct missing" envelope.pqCt
    let pqCt ← (K.b64Decode pqCtB64).mapError ("decode ML-KEM ciphertext: " ++ ·)
    (hybridDecap K epk (some pqCt) recipient.x25519AgreementKey (some recipient.mlkem768DecapsulationKey)
      hkdfMeshDidcommInfo).mapError fun e => "hybrid KEM decap failed: " ++ e.display
  else deriveKey K (K.diffieHellman recipient.x25519AgreementKey epk)

def decryptMessage (recipient : MeshIdentity K) (senderDoc : DIDDocument) (envelope : DIDCommEnvelope) :
    Except String (DIDCommMessage P) := do
  let ciphertext ← (K.b64Decode envelope.ciphertext).mapError ("decode ciphertext: " ++ ·)
  let tag ← (K.b64Decode envelope.tag).mapError ("decode tag: " ++ ·)
  let nonceBytes ← (K.b64Decode envelope.nonce).mapError ("decode nonce: " ++ ·)
  let nonce ← okOr "DIDComm nonce must be 12 bytes" (toArray 12 nonceBytes)
  let edSig ← (K.b64Decode envelope.signatureEd25519).mapError ("decode Ed25519 signature: " ++ ·)
  let pqSig ← (K.b64Decode envelope.signatureMldsa65).mapError ("decode ML-DSA signature: " ++ ·)
  let sigOk ← dualVerify K.did senderDoc (signatureInput ciphertext tag nonceBytes) edSig pqSig
  require sigOk "DIDComm envelope signature verification failed"
  let epkBytes ← (K.b64Decode envelope.epkX25519).mapError ("decode ephemeral key: " ++ ·)
  let epk ← okOr "ephemeral X25519 key must be 32 bytes" (toArray 32 epkBytes)
  let key ← decryptionKey K recipient envelope epk
  let plaintext ← (K.decrypt key nonce (ciphertext ++ tag)).mapError ("DIDComm decrypt failed: " ++ ·)
  (K.fromSlice plaintext).mapError ("decode DIDComm plaintext: " ++ ·)

/-! ### What has been made -/

/-- What an accepted envelope decodes to, on the way to its plaintext. -/
structure Opening where
  ciphertext : Bytes
  tag : Bytes
  nonce : Vector UInt8 12
  epk : Vector UInt8 32
  key : Vector UInt8 32
  plaintext : Bytes

/-- The parts that the recipient reads in the envelope, and the key it derives. -/
structure Reads (recipient : MeshIdentity K) (envelope : DIDCommEnvelope) (opening : Opening) : Prop where
  ciphertext : K.b64Decode envelope.ciphertext = .ok opening.ciphertext
  tag : K.b64Decode envelope.tag = .ok opening.tag
  nonce : K.b64Decode envelope.nonce = .ok opening.nonce.toList
  epk : K.b64Decode envelope.epkX25519 = .ok opening.epk.toList
  key : decryptionKey K recipient envelope opening.epk = .ok opening.key

/-- An encryption that somebody made: of a message, as `encrypt_message` makes it, or of a text of a message that was written
in another way. -/
structure Sealing where
  message : DIDCommMessage P
  text : Bytes
  key : Vector UInt8 32
  nonce : Vector UInt8 12
  ciphertext : Bytes
  wrote : K.toVec message = .ok text ∨ K.fromSlice text = .ok message
  made : K.encrypt key nonce text = .ok ciphertext

/-- The encryption is ideal: what opens and is a message has been sealed by somebody. -/
def IdealAead (history : Sealing K → Prop) : Prop :=
  ∀ key nonce ciphertext plaintext message, K.decrypt key nonce ciphertext = .ok plaintext →
    K.fromSlice plaintext = .ok message →
      ∃ s, history s ∧ s.key = key ∧ s.nonce = nonce ∧ s.ciphertext = ciphertext

/-- The names in a message are read as they were written. -/
def KeepsNames : Prop := ∀ message text read, K.toVec message = .ok text → K.fromSlice text = .ok read →
  read.sender = message.sender ∧ read.recipients = message.recipients

/-- The ciphertext of the envelope, under the key that the recipient derives, was made by this encryption. -/
def Sealing.MadeFor (s : Sealing K) (recipient : MeshIdentity K) (envelope : DIDCommEnvelope) : Prop :=
  ∃ opening, Reads K recipient envelope opening ∧ s.key = opening.key ∧ s.nonce = opening.nonce ∧
    s.ciphertext = opening.ciphertext ++ opening.tag

/-- The ciphertext, the tag and the nonce were signed with the secret behind the Ed25519 key of the document. -/
def SignedFor (madeBy : Vector UInt8 32 → Bytes → Vector UInt8 64 → Prop) (senderDoc : DIDDocument)
    (envelope : DIDCommEnvelope) : Prop :=
  ∃ key ciphertext tag nonce edSig signature, decodeDocumentEd25519Public K.did senderDoc = .ok key ∧
    K.b64Decode envelope.ciphertext = .ok ciphertext ∧ K.b64Decode envelope.tag = .ok tag ∧
    K.b64Decode envelope.nonce = .ok nonce ∧ K.b64Decode envelope.signatureEd25519 = .ok edSig ∧
    K.did.ed25519SignatureFromSlice edSig = .ok signature ∧ madeBy key (signatureInput ciphertext tag nonce) signature

/-- The message and the envelope name the sender, and the message is for the recipient. -/
structure Authentic (recipient : MeshIdentity K) (senderDoc : DIDDocument) (envelope : DIDCommEnvelope)
    (message : DIDCommMessage P) : Prop where
  sender : message.sender = senderDoc.id
  recipient : recipient.did ∈ message.recipients
  senderDid : envelope.senderDid = senderDoc.id

variable {K} {recipient : MeshIdentity K} {senderDoc : DIDDocument} {envelope : DIDCommEnvelope}
  {message : DIDCommMessage P} {history : Sealing K → Prop}
  {madeBy : Vector UInt8 32 → Bytes → Vector UInt8 64 → Prop}

theorem toArray_eq_some {n : Nat} {bs : Bytes} {v : Vector UInt8 n} : toArray n bs = some v ↔ bs = v.toList := by
  constructor
  · intro h
    unfold toArray at h
    split_ifs at h with hlength
    obtain rfl := Option.some.inj h
    rfl
  · rintro rfl
    exact Text.toArray_toList v

theorem decryptMessage_eq_ok : decryptMessage K recipient senderDoc envelope = .ok message ↔
    ∃ opening edSig pqSig, Reads K recipient envelope opening ∧ K.b64Decode envelope.signatureEd25519 = .ok edSig ∧
      K.b64Decode envelope.signatureMldsa65 = .ok pqSig ∧
      dualVerify K.did senderDoc (signatureInput opening.ciphertext opening.tag opening.nonce.toList) edSig pqSig = .ok true ∧
      K.decrypt opening.key opening.nonce (opening.ciphertext ++ opening.tag) = .ok opening.plaintext ∧
      K.fromSlice opening.plaintext = .ok message := by
  simp only [decryptMessage, bind, bind_eq_ok, mapError_eq_ok, okOr_eq_ok, require_eq_ok, exists_const, toArray_eq_some]
  constructor
  · rintro ⟨ciphertext, hciphertext, tag, htag, _, hnonce, nonce, rfl, edSig, hed, pqSig, hpq, sigOk, hverify, rfl, _, hepk,
      epk, rfl, key, hkey, plaintext, hplaintext, hmessage⟩
    exact ⟨⟨ciphertext, tag, nonce, epk, key, plaintext⟩, edSig, pqSig, ⟨hciphertext, htag, hnonce, hepk, hkey⟩, hed, hpq,
      hverify, hplaintext, hmessage⟩
  · rintro ⟨opening, edSig, pqSig, hreads, hed, hpq, hverify, hplaintext, hmessage⟩
    exact ⟨_, hreads.ciphertext, _, hreads.tag, _, hreads.nonce, _, rfl, edSig, hed, pqSig, hpq, true, hverify, rfl, _,
      hreads.epk, _, rfl, _, hreads.key, _, hplaintext, hmessage⟩

theorem Reads.unique {opening opening' : Opening} (h : Reads K recipient envelope opening)
    (h' : Reads K recipient envelope opening') : opening' = { opening with plaintext := opening'.plaintext } := by
  obtain ⟨ciphertext, tag, nonce, epk, key, plaintext⟩ := opening
  obtain ⟨ciphertext', tag', nonce', epk', key', plaintext'⟩ := opening'
  obtain rfl : ciphertext = ciphertext' := Except.ok.inj (h.ciphertext.symm.trans h'.ciphertext)
  obtain rfl : tag = tag' := Except.ok.inj (h.tag.symm.trans h'.tag)
  obtain rfl : nonce = nonce' := Vector.toList_inj.mp (Except.ok.inj (h.nonce.symm.trans h'.nonce))
  obtain rfl : epk = epk' := Vector.toList_inj.mp (Except.ok.inj (h.epk.symm.trans h'.epk))
  obtain rfl : key = key' := Except.ok.inj (h.key.symm.trans h'.key)
  rfl

theorem signedFor_of_decrypted (hunforgeable : Unforgeable K.did madeBy)
    (h : decryptMessage K recipient senderDoc envelope = .ok message) : SignedFor K madeBy senderDoc envelope := by
  obtain ⟨opening, edSig, pqSig, hreads, hed, -, hverify, -⟩ := decryptMessage_eq_ok.mp h
  obtain ⟨method, raw, key, vk, signature, hmethod, hraw, hkey, hvk, hsignature, hok⟩ := dualVerify_ok_true hverify
  exact ⟨key, _, _, _, edSig, signature, decodeDocument_of_decodeMultibaseKey hmethod hraw hkey, hreads.ciphertext,
    hreads.tag, hreads.nonce, hed, hsignature, hunforgeable.made key vk _ signature hvk hok⟩

/-! ### What is encrypted is decrypted -/

/-- The crates undo what they do. -/
structure MeshCrates.Lawful (K : MeshCrates P) : Prop where
  did : K.did.Lawful
  b64 : ∀ bytes, K.b64Decode (K.b64Encode bytes) = .ok bytes
  diffieHellman : ∀ a b, K.diffieHellman a (K.publicKey b) = K.diffieHellman b (K.publicKey a)
  decapsulate : ∀ dk coins ct ss, K.encapsulate (K.encapsulationKey dk) coins = some (ct, ss) → K.decapsulate dk ct = some ss
  decrypt : ∀ key nonce plaintext ciphertext,
    K.encrypt key nonce plaintext = .ok ciphertext → K.decrypt key nonce ciphertext = .ok plaintext

/-- The agreement keys of the document are those of the recipient. -/
structure KeysOf (K : MeshCrates P) (doc : DIDDocument) (recipient : MeshIdentity K) : Prop where
  x25519 : extractX25519PublicKeyFromDoc K doc = .ok (K.publicKey recipient.x25519AgreementKey)
  mlkem : ∀ ek, extractMlkemEncapsulationKeyFromDoc K doc = some ek →
    ek = K.encapsulationKey recipient.mlkem768DecapsulationKey

/-- The envelope carries the ciphertext of another, under whatever name and signatures. -/
structure Carries (envelope made : DIDCommEnvelope) : Prop where
  epkX25519 : envelope.epkX25519 = made.epkX25519
  nonce : envelope.nonce = made.nonce
  ciphertext : envelope.ciphertext = made.ciphertext
  tag : envelope.tag = made.tag
  pqKem : envelope.pqKem = made.pqKem
  pqCt : envelope.pqCt = made.pqCt

theorem extractX25519_build (hC : K.did.Lawful) (did : String) (ed25519PublicKey : Vector UInt8 32) (mldsa65PublicKey : Bytes)
    (x25519PublicKey : Vector UInt8 32) (mlkem768PublicKey : Bytes) :
    extractX25519PublicKeyFromDoc K (Pod.buildDidDocumentFromParts K.did did ed25519PublicKey mldsa65PublicKey x25519PublicKey
      mlkem768PublicKey) = .ok x25519PublicKey := by
  simp [extractX25519PublicKeyFromDoc, Pod.buildDidDocumentFromParts, Pod.encodeMultibaseKey, hC.multibase, bind,
    Except.bind, Except.mapError, require, okOr, Text.toArray_toList]

theorem extractMlkem_build (hC : K.did.Lawful) (did : String) (ed25519PublicKey : Vector UInt8 32) (mldsa65PublicKey : Bytes)
    (x25519PublicKey : Vector UInt8 32) (mlkem768PublicKey : Bytes) :
    extractMlkemEncapsulationKeyFromDoc K (Pod.buildDidDocumentFromParts K.did did ed25519PublicKey mldsa65PublicKey
      x25519PublicKey mlkem768PublicKey) = K.encapsulationKeyFromBytes mlkem768PublicKey := by
  have htypes : typeX25519 ≠ typeMlkem768 := by decide
  simp [extractMlkemEncapsulationKeyFromDoc, Pod.buildDidDocumentFromParts, Pod.encodeMultibaseKey, hC.multibase, htypes,
    Except.toOption]

theorem Carries.refl (envelope : DIDCommEnvelope) : Carries envelope envelope := ⟨rfl, rfl, rfl, rfl, rfl, rfl⟩

section Encrypted

variable {draws : Draws K} {sender : DIDIdentity P} {recipientDoc : DIDDocument} {made : DIDCommEnvelope}
  {encryption : EncryptionKey}

theorem hybridDecap_hybridEncap (hK : K.Lawful) {ephemeral : K.StaticSecret} {coins : K.Coins} {sk : K.StaticSecret}
    {dk : K.DecapsulationKey} {info : Bytes} {encap : HybridKemEncapResult}
    (h : hybridEncap K ephemeral coins (K.publicKey sk) (some (K.encapsulationKey dk)) info = .ok encap) :
    ∃ ct, encap.mlkemCiphertext = some ct ∧
      hybridDecap K encap.x25519EphemeralPk (some ct) sk (some dk) info = .ok encap.sharedSecret := by
  simp only [hybridEncap, bind, bind_eq_ok, map_eq_ok, okOr_eq_ok, pure, Except.pure, Except.ok.injEq] at h
  obtain ⟨_, ⟨⟨ct, ss⟩, hencapsulate, rfl⟩, combined, hcombined, rfl⟩ := h
  refine ⟨ct.toList, rfl, ?_⟩
  simp only [hybridDecap, bind, pure, Except.pure, bind_eq_ok, okOr_eq_ok, Except.ok.injEq, Option.some.injEq]
  refine ⟨dk, rfl, ct, Text.toArray_toList ct, ss, hK.decapsulate dk _ ct ss hencapsulate, _, rfl, ?_⟩
  rw [hK.diffieHellman]
  exact hcombined

theorem decryptionKey_encryptionKey (hK : K.Lawful) (hkeys : KeysOf K recipientDoc recipient)
    (h : encryptionKey K draws (K.publicKey recipient.x25519AgreementKey) (extractMlkemEncapsulationKeyFromDoc K recipientDoc) =
      .ok encryption) (hkem : envelope.pqKem = encryption.pqKem) (hct : envelope.pqCt = encryption.pqCt) :
    decryptionKey K recipient envelope encryption.epk = .ok encryption.key := by
  unfold decryptionKey
  cases hmlkem : extractMlkemEncapsulationKeyFromDoc K recipientDoc with
  | none =>
    rw [hmlkem] at h
    simp only [encryptionKey, bind, bind_eq_ok, pure, Except.pure, Except.ok.injEq] at h
    obtain ⟨key, hkey, rfl⟩ := h
    rw [hkem, if_neg (by simp), hK.diffieHellman]
    exact hkey
  | some ek =>
    obtain rfl := hkeys.mlkem ek hmlkem
    rw [hmlkem] at h
    simp only [encryptionKey, bind, bind_eq_ok, mapError_eq_ok, pure, Except.pure, Except.ok.injEq] at h
    obtain ⟨encap, hencap, rfl⟩ := h
    obtain ⟨ct, hciphertext, hdecap⟩ := hybridDecap_hybridEncap hK hencap
    rw [hkem, if_pos (by simp), hct, hciphertext]
    simp only [bind, bind_eq_ok, mapError_eq_ok, okOr_eq_ok, Option.map_some, Option.some.injEq]
    exact ⟨_, rfl, ct, hK.b64 ct, hdecap⟩

theorem reads_of_encryptMessage (hK : K.Lawful) (hkeys : KeysOf K recipientDoc recipient)
    (h : encryptMessage K draws sender recipientDoc message = .ok made) (hcarries : Carries envelope made) :
    ∃ opening edSig pqSig, Reads K recipient envelope opening ∧ K.toVec message = .ok opening.plaintext ∧
      K.encrypt opening.key opening.nonce opening.plaintext = .ok (opening.ciphertext ++ opening.tag) ∧
      dualSign sender (signatureInput opening.ciphertext opening.tag opening.nonce.toList) = some (edSig, pqSig) ∧
      made.signatureEd25519 = K.b64Encode edSig ∧ made.signatureMldsa65 = K.b64Encode pqSig := by
  simp only [encryptMessage, bind, bind_eq_ok, mapError_eq_ok, okOr_eq_ok, pure, Except.pure, Except.ok.injEq, Prod.exists,
    hkeys.x25519] at h
  obtain ⟨_, rfl, plaintext, hplaintext, encryption, hencryption, nonce, -, ciphertext, hciphertext, edSig, pqSig, hsign,
    rfl⟩ := h
  refine ⟨⟨ciphertext.take (ciphertext.length - 16), ciphertext.drop (ciphertext.length - 16), nonce, encryption.epk,
    encryption.key, plaintext⟩, edSig, pqSig, ⟨?_, ?_, ?_, ?_, ?_⟩, hplaintext, ?_, hsign, rfl, rfl⟩
  · rw [hcarries.ciphertext, hK.b64]
  · rw [hcarries.tag, hK.b64]
  · rw [hcarries.nonce, hK.b64]
  · rw [hcarries.epkX25519, hK.b64]
  · exact decryptionKey_encryptionKey hK hkeys hencryption hcarries.pqKem hcarries.pqCt
  · rw [List.take_append_drop]
    exact hciphertext

theorem exists_madeFor (hideal : IdealAead K history) (h : decryptMessage K recipient senderDoc envelope = .ok message) :
    ∃ s, history s ∧ s.MadeFor K recipient envelope := by
  obtain ⟨opening, -, -, hreads, -, -, -, hplaintext, hmessage⟩ := decryptMessage_eq_ok.mp h
  obtain ⟨s, hs, hkey, hnonce, hciphertext⟩ := hideal _ _ _ _ _ hplaintext hmessage
  exact ⟨s, hs, opening, hreads, hkey, hnonce, hciphertext⟩

theorem Sealing.MadeFor.names {s : Sealing K} (hs : s.MadeFor K recipient envelope) (hK : K.Lawful) (hnames : KeepsNames K)
    (h : decryptMessage K recipient senderDoc envelope = .ok message) :
    message.sender = s.message.sender ∧ message.recipients = s.message.recipients := by
  obtain ⟨opening, -, -, hreads, -, -, -, hplaintext, hmessage⟩ := decryptMessage_eq_ok.mp h
  obtain ⟨opening', hreads', hkey, hnonce, hciphertext⟩ := hs
  have hopens := hK.decrypt _ _ _ _ s.made
  rw [hkey, hnonce, hciphertext, hreads.unique hreads'] at hopens
  have hsame : opening.plaintext = s.text := Except.ok.inj (hplaintext.symm.trans hopens)
  rw [hsame] at hmessage
  rcases s.wrote with hwritten | hread
  · exact hnames _ _ _ hwritten hmessage
  · obtain rfl := Except.ok.inj (hmessage.symm.trans hread)
    exact ⟨rfl, rfl⟩

theorem authentic_iff {written : DIDCommMessage P}
    (hnames : message.sender = written.sender ∧ message.recipients = written.recipients) :
    Authentic K recipient senderDoc envelope message ↔ envelope.senderDid = senderDoc.id ∧
      written.sender = senderDoc.id ∧ recipient.did ∈ written.recipients := by
  rw [← hnames.1, ← hnames.2]
  exact ⟨fun h => ⟨h.senderDid, h.sender, h.recipient⟩, fun h => ⟨h.2.1, h.2.2, h.1⟩⟩

theorem exists_sealing (hK : K.Lawful) (hkeys : KeysOf K recipientDoc recipient)
    (h : encryptMessage K draws sender recipientDoc message = .ok made) (hcarries : Carries envelope made) :
    ∃ s : Sealing K, s.message = message ∧ s.MadeFor K recipient envelope := by
  obtain ⟨opening, edSig, pqSig, hreads, hplaintext, hencrypted, -⟩ := reads_of_encryptMessage hK hkeys h hcarries
  exact ⟨⟨message, opening.plaintext, opening.key, opening.nonce, _, .inl hplaintext, hencrypted⟩, rfl, opening, hreads, rfl,
    rfl, rfl⟩

theorem eq_of_carries (hK : K.Lawful) (hkeys : KeysOf K recipientDoc recipient)
    (hcodec : ∀ plaintext, K.toVec message = .ok plaintext → K.fromSlice plaintext = .ok message)
    (hencrypt : encryptMessage K draws sender recipientDoc message = .ok made) (hcarries : Carries envelope made)
    {decrypted : DIDCommMessage P} (h : decryptMessage K recipient senderDoc envelope = .ok decrypted) :
    decrypted = message := by
  obtain ⟨opening, -, -, hreads, hplaintext, hencrypted, -⟩ := reads_of_encryptMessage hK hkeys hencrypt hcarries
  have hopens := hK.decrypt _ _ _ _ hencrypted
  obtain ⟨opening', -, -, hreads', -, -, -, hopens', hdecrypted⟩ := decryptMessage_eq_ok.mp h
  rw [hreads.unique hreads'] at hopens' hdecrypted
  have hsame : opening'.plaintext = opening.plaintext := Except.ok.inj (hopens'.symm.trans hopens)
  exact Except.ok.inj (hdecrypted.symm.trans (hsame ▸ hcodec _ hplaintext))

theorem decryptMessage_encryptMessage (hK : K.Lawful) (hE : P.ed25519.Correct) (hM : MlDsa65Correct P.mldsa65)
    (hsender : sender.OwnDocument K.did) (hkeys : KeysOf K recipientDoc recipient)
    (hcodec : ∀ plaintext, K.toVec message = .ok plaintext → K.fromSlice plaintext = .ok message)
    (h : encryptMessage K draws sender recipientDoc message = .ok made) :
    decryptMessage K recipient sender.didDocument made = .ok message := by
  obtain ⟨opening, edSig, pqSig, hreads, hplaintext, hencrypted, hsign, hed, hpq⟩ :=
    reads_of_encryptMessage hK hkeys h (.refl made)
  refine decryptMessage_eq_ok.mpr
    ⟨opening, edSig, pqSig, hreads, ?_, ?_, ?_, hK.decrypt _ _ _ _ hencrypted, hcodec _ hplaintext⟩
  · rw [hed, hK.b64]
  · rw [hpq, hK.b64]
  · exact hsender.dualVerify_dualSign hK.did hE hM hsign

/-- **A message arrives as it was written or not at all.** The envelope of a message is decrypted to the message, and an
envelope that carries its ciphertext, whoever signed and labelled it and whatever document it is checked with, to no
other. -/
theorem encryptMessage_delivers (hK : K.Lawful) (hE : P.ed25519.Correct) (hM : MlDsa65Correct P.mldsa65)
    (hsender : sender.OwnDocument K.did) (hkeys : KeysOf K recipientDoc recipient)
    (hcodec : ∀ plaintext, K.toVec message = .ok plaintext → K.fromSlice plaintext = .ok message)
    (h : encryptMessage K draws sender recipientDoc message = .ok made) :
    decryptMessage K recipient sender.didDocument made = .ok message ∧
      ∀ envelope senderDoc decrypted, Carries envelope made →
        decryptMessage K recipient senderDoc envelope = .ok decrypted → decrypted = message :=
  ⟨decryptMessage_encryptMessage hK hE hM hsender hkeys hcodec h,
    fun _ _ _ hcarries hdecrypted => eq_of_carries hK hkeys hcodec h hcarries hdecrypted⟩

/-- **Who sent a decrypted message**: the keys of the given document signed its ciphertext, and somebody sealed it. Sender,
recipient and envelope are as claimed exactly if the envelope was labelled so and whoever sealed the ciphertext wrote the
message so; and if it is the ciphertext of a call of `encrypt_message`, exactly if the message of the call was so. -/
theorem decrypted_authentic_iff (hK : K.Lawful) (hideal : IdealAead K history) (hnames : KeepsNames K)
    (hunforgeable : Unforgeable K.did madeBy) (h : decryptMessage K recipient senderDoc envelope = .ok message) :
    SignedFor K madeBy senderDoc envelope ∧ (∃ s, history s ∧ s.MadeFor K recipient envelope) ∧
      (∀ s : Sealing K, s.MadeFor K recipient envelope →
        (Authentic K recipient senderDoc envelope message ↔ envelope.senderDid = senderDoc.id ∧
          s.message.sender = senderDoc.id ∧ recipient.did ∈ s.message.recipients)) ∧
      ∀ draws sender recipientDoc written made, KeysOf K recipientDoc recipient →
        encryptMessage K draws sender recipientDoc written = .ok made → Carries envelope made →
          (Authentic K recipient senderDoc envelope message ↔ envelope.senderDid = senderDoc.id ∧
            written.sender = senderDoc.id ∧ recipient.did ∈ written.recipients) := by
  refine ⟨signedFor_of_decrypted hunforgeable h, exists_madeFor hideal h, fun s hs => authentic_iff ?_, ?_⟩
  · exact hs.names hK hnames h
  · intro draws sender recipientDoc written made hkeys hencrypt hcarries
    obtain ⟨s, rfl, hs⟩ := exists_sealing hK hkeys hencrypt hcarries
    exact authentic_iff (hs.names hK hnames h)

end Encrypted

end Crates

/-! ### A message in another's name -/

def referenceTag (key : Vector UInt8 32) (nonce : Vector UInt8 12) (plaintext : Bytes) : Bytes :=
  (Reference.digest 16 (plaintext ++ nonce.toList ++ key.toList)).toList

/-- A request to `did:key:bob` that names `did:key:alice` as its sender. -/
def borrowedMessage : DIDCommMessage .reference where
  id := "1"
  type := .mcpToolCall
  sender := "did:key:alice"
  recipients := ["did:key:bob"]
  createdTime := 1
  expiresTime := none
  body := Platform.reference.json.null
  thid := none
  pthid := none

def borrowedText : String :=
  "\x7b\"id\":\"1\",\"type\":\"mcp_tool_call\",\"from\":\"did:key:alice\",\"to\":[\"did:key:bob\"]," ++
    "\"created_time\":1,\"body\":null\x7d"

/-- Hexadecimal text for base 64, addition for the agreement of keys, a tag behind the plaintext for its encryption, and
the texts of one message. -/
def MeshCrates.reference : MeshCrates .reference where
  did := .reference
  b64Encode := Text.hexEncode
  b64Decode text := okOr "Invalid byte" (Text.hexDecodeDynamic text)
  StaticSecret := Vector UInt8 32
  publicKey := id
  diffieHellman a b := Vector.zipWith (· + ·) a b
  EncapsulationKey := Vector UInt8 32
  DecapsulationKey := Vector UInt8 32
  encapsulationKey := id
  encapsulationKeyFromBytes := toArray 32
  Coins := Unit
  encapsulate ek _ := some (Vector.replicate 1088 0, ek)
  decapsulate dk _ := some dk
  hkdfSha256 _ ikm info := some (Reference.digest 32 (info ++ ikm))
  hkdfSha512 _ ikm info := some (Reference.digest 32 (info ++ ikm))
  encrypt key nonce plaintext := .ok (plaintext ++ referenceTag key nonce plaintext)
  decrypt key nonce ciphertext :=
    let plaintext := ciphertext.take (ciphertext.length - 16)
    if ciphertext = plaintext ++ referenceTag key nonce plaintext then .ok plaintext else .error "aead::Error"
  toVec message :=
    if message.sender = borrowedMessage.sender ∧ message.recipients = borrowedMessage.recipients then .ok (utf8 borrowedText)
    else .error "another message"
  fromSlice bytes := if bytes = utf8 borrowedText then .ok borrowedMessage else .error "expected value at line 1 column 1"

theorem length_referenceTag (key : Vector UInt8 32) (nonce : Vector UInt8 12) (plaintext : Bytes) :
    (referenceTag key nonce plaintext).length = 16 := Vector.length_toList

theorem decrypt_reference {key : Vector UInt8 32} {nonce : Vector UInt8 12} {plaintext ciphertext : Bytes} :
    MeshCrates.reference.decrypt key nonce ciphertext = .ok plaintext ↔
      MeshCrates.reference.encrypt key nonce plaintext = .ok ciphertext := by
  constructor
  · intro hopens
    simp only [MeshCrates.reference] at hopens
    split_ifs at hopens with hsealed
    obtain rfl := Except.ok.inj hopens
    exact congrArg Except.ok hsealed.symm
  · intro hsealed
    obtain rfl := Except.ok.inj hsealed
    have hplaintext : (plaintext ++ referenceTag key nonce plaintext).take
        ((plaintext ++ referenceTag key nonce plaintext).length - 16) = plaintext := by
      rw [List.length_append, length_referenceTag, Nat.add_sub_cancel, List.take_left]
    simp only [MeshCrates.reference, hplaintext, if_true]

theorem reference_idealAead : IdealAead .reference fun _ => True :=
  fun key nonce ciphertext plaintext message hopens hread =>
    ⟨⟨message, plaintext, key, nonce, ciphertext, .inr hread, decrypt_reference.mp hopens⟩, trivial, rfl, rfl, rfl⟩

theorem reference_keepsNames : KeepsNames .reference := by
  intro message text read hwritten hread
  simp only [MeshCrates.reference] at hwritten hread
  split_ifs at hwritten with hnames
  obtain rfl := Except.ok.inj hwritten
  rw [if_pos rfl] at hread
  obtain rfl := Except.ok.inj hread
  exact ⟨hnames.1.symm, hnames.2.symm⟩

theorem MeshCrates.reference_lawful : MeshCrates.reference.Lawful where
  did := Pod.DidCodec.reference_lawful
  b64 bytes := by simp [MeshCrates.reference, Text.hexDecodeDynamic_hexEncode, okOr]
  diffieHellman a b := by
    have hcomm (v w : Vector UInt8 32) : Vector.zipWith (· + ·) v w = Vector.zipWith (· + ·) w v :=
      Vector.ext fun i hi => by rw [Vector.getElem_zipWith, Vector.getElem_zipWith, UInt8.add_comm]
    exact hcomm a b
  decapsulate dk coins ct ss h := by
    have hsecret : (Vector.replicate 1088 (0 : UInt8), dk) = (ct, ss) := Option.some.inj h
    exact congrArg some (congrArg Prod.snd hsecret)
  decrypt _ _ _ _ h := decrypt_reference.mpr h

def bobKey : Vector UInt8 32 := Vector.replicate 32 7

def bob : MeshIdentity .reference where
  did := "did:key:bob"
  didDocument := Pod.buildDidDocumentFromParts .reference "did:key:bob" bobKey
    (Pod.DidCodec.reference.mldsa65KeyEncode bobKey).toList bobKey bobKey.toList
  ed25519SigningKey := bobKey
  mldsa65SigningKey := bobKey
  x25519AgreementKey := bobKey
  mlkem768DecapsulationKey := bobKey

def mallory : DIDIdentity .reference := Pod.referenceIdentity "did:key:mallory" (Vector.replicate 32 9)

def malloryDraws : Draws .reference := ⟨Vector.replicate 32 3, (), .ok (Vector.replicate 12 5)⟩

theorem bob_keysOf : KeysOf .reference bob.didDocument bob where
  x25519 := extractX25519_build Pod.DidCodec.reference_lawful _ _ _ _ _
  mlkem ek h := by
    have hbuilt := extractMlkem_build (K := .reference) Pod.DidCodec.reference_lawful "did:key:bob" bobKey
      (Pod.DidCodec.reference.mldsa65KeyEncode bobKey).toList bobKey bobKey.toList
    have hread : toArray 32 bobKey.toList = some ek := hbuilt.symm.trans h
    exact (Option.some.inj ((Text.toArray_toList bobKey).symm.trans hread)).symm

theorem exists_borrowed : ∃ made,
    encryptMessage .reference malloryDraws mallory bob.didDocument borrowedMessage = .ok made := by
  have hsign : ∀ message, ∃ edSig pqSig, dualSign mallory message = some (edSig, pqSig) := by
    intro message
    have hcontext : Pod.mldsa65Context.length ≤ 255 := by decide
    simp [dualSign, Platform.reference, Reference.mldsa65, hcontext]
  have hmlkem : extractMlkemEncapsulationKeyFromDoc .reference bob.didDocument = some bobKey :=
    (extractMlkem_build Pod.DidCodec.reference_lawful _ _ _ _ _).trans (Text.toArray_toList bobKey)
  have hkey : ∃ encryption, encryptionKey .reference malloryDraws bobKey (some bobKey) = .ok encryption := ⟨_, rfl⟩
  obtain ⟨encryption, hencryption⟩ := hkey
  let sealed := utf8 borrowedText ++ referenceTag encryption.key (Vector.replicate 12 5) (utf8 borrowedText)
  obtain ⟨edSig, pqSig, hsigned⟩ := hsign (signatureInput (sealed.take (sealed.length - 16))
    (sealed.drop (sealed.length - 16)) (Vector.replicate 12 5).toList)
  simp only [encryptMessage, bind, bind_eq_ok, mapError_eq_ok, okOr_eq_ok, pure, Except.pure, Prod.exists]
  exact ⟨_, _, bob_keysOf.x25519, _, rfl, encryption, hmlkem ▸ hencryption, _, rfl, sealed, rfl, edSig, pqSig, hsigned, rfl⟩

theorem borrowed_codec (plaintext : Bytes) (h : MeshCrates.reference.toVec borrowedMessage = .ok plaintext) :
    MeshCrates.reference.fromSlice plaintext = .ok borrowedMessage := by
  simp only [MeshCrates.reference, and_self, if_true] at h ⊢
  rw [if_pos (Except.ok.inj h).symm]

theorem exists_decrypted : ∃ made, encryptMessage .reference malloryDraws mallory bob.didDocument borrowedMessage = .ok made ∧
    decryptMessage .reference bob mallory.didDocument made = .ok borrowedMessage := by
  obtain ⟨made, hmade⟩ := exists_borrowed
  exact ⟨made, hmade, decryptMessage_encryptMessage MeshCrates.reference_lawful Reference.ed25519_correct
    Pod.reference_mldsa65_correct (Pod.referenceIdentity_ownDocument _ _) bob_keysOf borrowed_codec hmade⟩

theorem encryptMessage_delivers_borrowed : ∃ made,
    decryptMessage .reference bob mallory.didDocument made = .ok borrowedMessage ∧
      ∀ envelope senderDoc decrypted, Carries envelope made →
        decryptMessage .reference bob senderDoc envelope = .ok decrypted → decrypted = borrowedMessage := by
  obtain ⟨made, hmade⟩ := exists_borrowed
  exact ⟨made, encryptMessage_delivers MeshCrates.reference_lawful Reference.ed25519_correct
    Pod.reference_mldsa65_correct (Pod.referenceIdentity_ownDocument _ _) bob_keysOf borrowed_codec hmade⟩

/-- What is decrypted with the document of one sender was encrypted by it, in the name of another. -/
theorem decrypted_authentic_iff_borrowed : ∃ made, SignedFor .reference Pod.referenceMadeBy mallory.didDocument made ∧
    (Authentic .reference bob mallory.didDocument made borrowedMessage ↔ made.senderDid = mallory.didDocument.id ∧
      borrowedMessage.sender = mallory.didDocument.id ∧ bob.did ∈ borrowedMessage.recipients) := by
  obtain ⟨made, hmade, hdecrypted⟩ := exists_decrypted
  obtain ⟨hsigned, -, -, hmadeBy⟩ := decrypted_authentic_iff MeshCrates.reference_lawful reference_idealAead
    reference_keepsNames Pod.referenceMadeBy_unforgeable hdecrypted
  exact ⟨made, hsigned, hmadeBy _ _ _ _ _ bob_keysOf hmade (.refl made)⟩

/-- One sender's request in the name of another is decrypted, with an ideal encryption and unforgeable signatures. -/
theorem borrowed_name_decrypted : IdealAead .reference (fun _ => True) ∧ MeshCrates.reference.Lawful ∧
    Unforgeable Pod.DidCodec.reference Pod.referenceMadeBy ∧ ∃ made,
      encryptMessage .reference malloryDraws mallory bob.didDocument borrowedMessage = .ok made ∧
        decryptMessage .reference bob mallory.didDocument made = .ok borrowedMessage ∧
        ¬ Authentic .reference bob mallory.didDocument made borrowedMessage := by
  obtain ⟨made, hmade, hdecrypted⟩ := exists_decrypted
  refine ⟨reference_idealAead, MeshCrates.reference_lawful, Pod.referenceMadeBy_unforgeable, made, hmade, hdecrypted,
    fun hauthentic => ?_⟩
  exact absurd hauthentic.sender (by decide)

end AgentHalo.Comms
