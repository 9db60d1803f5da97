import AgentHalo.Base.Platform
import AgentHalo.Lib.Outcome

/-!
# The identity ledger

Every change to an identity is an entry of a hash chain. An entry is hashed as one text, its fields joined with `|`; an
older format leaves the genesis digest out. Entries may carry an ML-DSA-65 signature; the first completed genesis entry
pins the signer of all that follow. `verifyChain` folds `verifyEntry`, one round, over what the rounds before left
(`ChainState`).
-/

namespace AgentHalo.Identity

open Outcome
open Text (utf8 hexEncode decodeHexPairs toArray trim toAsciiLowercase eqIgnoreAsciiCase startsWith)

/-! ### Hash algorithms -/

inductive HashAlgorithm where
  | sha256
  | sha512
deriving DecidableEq, Repr

namespace HashAlgorithm

/-- The algorithm used for all new entries. -/
def current : HashAlgorithm := .sha512

def fromField : Option String → HashAlgorithm
  | some "sha512" => .sha512
  | _ => .sha256

def asStr : HashAlgorithm → String
  | .sha256 => "sha256"
  | .sha512 => "sha512"

end HashAlgorithm

def hashBytes (P : Platform) (algo : HashAlgorithm) (data : Bytes) : Bytes :=
  match algo with
  | .sha256 => (P.sha256 data).toList
  | .sha512 => (P.sha512 data).toList

def hashHex (P : Platform) (algo : HashAlgorithm) (data : Bytes) : String := hexEncode (hashBytes P algo data)

/-! ### Entries -/

inductive IdentityLedgerKind where
  | profileUpdated
  | deviceUpdated
  | networkUpdated
  | anonymousModeUpdated
  | safetyTierApplied
  | walletCreated
  | walletImported
  | walletUnlocked
  | walletLocked
  | walletDeleted
  | socialTokenConnected
  | socialTokenRevoked
  | superSecureUpdated
  | genesisEntropyHarvested
  | identityAttested
  | agentAddressBound
deriving DecidableEq, Repr

/-- The format `{:?}`. -/
def IdentityLedgerKind.debug : IdentityLedgerKind → String
  | .profileUpdated => "ProfileUpdated"
  | .deviceUpdated => "DeviceUpdated"
  | .networkUpdated => "NetworkUpdated"
  | .anonymousModeUpdated => "AnonymousModeUpdated"
  | .safetyTierApplied => "SafetyTierApplied"
  | .walletCreated => "WalletCreated"
  | .walletImported => "WalletImported"
  | .walletUnlocked => "WalletUnlocked"
  | .walletLocked => "WalletLocked"
  | .walletDeleted => "WalletDeleted"
  | .socialTokenConnected => "SocialTokenConnected"
  | .socialTokenRevoked => "SocialTokenRevoked"
  | .superSecureUpdated => "SuperSecureUpdated"
  | .genesisEntropyHarvested => "GenesisEntropyHarvested"
  | .identityAttested => "IdentityAttested"
  | .agentAddressBound => "AgentAddressBound"

structure LedgerSignatureRef where
  algorithm : String
  keyId : String
  publicKeyHex : Option String
  payloadHash : String
  signatureHex : String
  signatureDigest : String
  createdAt : UInt64
  hashAlgorithm : Option String
deriving DecidableEq, Repr

/-- What the ledger uses of `serde_json::Value`, and the format `{:?}` of a string. -/
structure LedgerFormat where
  Value : Type
  valueToString : Value → Except String String
  valueFromStr : String → Except String Value
  /-- `get` of a field, then `as_str`. -/
  getStr : Value → String → Option String
  debugString : String → String

/-- The encoding of ML-DSA-65 verifying keys. -/
structure PqKeyCodec (P : Platform) where
  encode : P.mldsa65.VerifyingKey → Vector UInt8 1952
  decode : Vector UInt8 1952 → P.mldsa65.VerifyingKey

structure IdentityLedgerEntry (F : LedgerFormat) where
  version : UInt8
  seq : UInt64
  timestamp : UInt64
  kind : IdentityLedgerKind
  provider : Option String
  tokenRefSha256 : Option String
  expiresAt : Option UInt64
  status : String
  payload : F.Value
  genesisEntropySha256 : Option String
  prevHash : Option String
  entryHash : String
  signature : Option LedgerSignatureRef
  hashAlgorithm : Option String

/-- The process environment as the verifier reads it: three variables, and the key of the current wallet when it can be
read, its id first. -/
structure LedgerEnv where
  allowLegacyUnsignedGenesis : Option String
  strictGenesisSignatures : Option String
  strictLedgerSignatureFields : Option String
  walletIdentity : Option (String × String)

def ledgerVersion : UInt8 := 1

def hashDomain : String := "agenthalo.identity.ledger.v1"

/-! ### Entry hashes -/

section Hashing

variable {F : LedgerFormat}

def payloadJson (payload : F.Value) : String :=
  match F.valueToString payload with
  | .ok text => text
  | .error _ => "\x7b\"error\":\"payload\"\x7d"

def hashedFields (entry : IdentityLedgerEntry F) : String :=
  hashDomain ++ "|v=" ++ toString entry.version ++ "|seq=" ++ toString entry.seq ++ "|ts=" ++ toString entry.timestamp
    ++ "|kind=" ++ entry.kind.debug ++ "|provider=" ++ entry.provider.getD "" ++ "|token_ref="
    ++ entry.tokenRefSha256.getD "" ++ "|expires_at=" ++ (entry.expiresAt.map toString).getD "" ++ "|status="
    ++ entry.status ++ "|payload=" ++ payloadJson entry.payload

def entryPayloadForHash (entry : IdentityLedgerEntry F) : String :=
  hashedFields entry ++ "|genesis_entropy_sha256=" ++ entry.genesisEntropySha256.getD "" ++ "|prev_hash="
    ++ entry.prevHash.getD ""

def entryPayloadForHashLegacy (entry : IdentityLedgerEntry F) : String :=
  hashedFields entry ++ "|prev_hash=" ++ entry.prevHash.getD ""

variable (P : Platform)

def computeEntryHash (entry : IdentityLedgerEntry F) : String :=
  hashHex P (.fromField entry.hashAlgorithm) (utf8 (entryPayloadForHash entry))

/-- Legacy entries are always SHA-256. -/
def computeEntryHashLegacy (entry : IdentityLedgerEntry F) : String :=
  hashHex P .sha256 (utf8 (entryPayloadForHashLegacy entry))

theorem entryPayloadForHash_setHash (entry : IdentityLedgerEntry F) (hash : String) :
    entryPayloadForHash { entry with entryHash := hash } = entryPayloadForHash entry := rfl

theorem entryPayloadForHashLegacy_setHash (entry : IdentityLedgerEntry F) (hash : String) :
    entryPayloadForHashLegacy { entry with entryHash := hash } = entryPayloadForHashLegacy entry := rfl

theorem computeEntryHash_setHash (entry : IdentityLedgerEntry F) (hash : String) :
    computeEntryHash P { entry with entryHash := hash } = computeEntryHash P entry := rfl

def legacyHashMatch (entry : IdentityLedgerEntry F) : Bool := computeEntryHashLegacy P entry = entry.entryHash

end Hashing

/-! ### Signatures -/

/-- An environment variable that is set to one of these words. -/
def envFlag (words : List String) : Option String → Bool
  | none => false
  | some raw => words.contains (toAsciiLowercase (trim raw))

def LedgerEnv.strictGenesisSignatureEnforcement (env : LedgerEnv) : Bool :=
  if envFlag ["1", "true", "yes"] env.allowLegacyUnsignedGenesis then false
  else !envFlag ["0", "false", "no"] env.strictGenesisSignatures

def LedgerEnv.strictLedgerSignatureFieldsSet (env : LedgerEnv) : Bool :=
  envFlag ["1", "true", "yes"] env.strictLedgerSignatureFields

def entrySignaturePayload (entryHash : String) : String := "agenthalo.identity.ledger.entry_hash.v1:" ++ entryHash

def pqContext : Bytes := []

/-- The decoder of `halo/pq.rs`, which does not take an empty string. -/
def pqHexDecodeDynamic (input : String) : Except String Bytes :=
  if (utf8 input).isEmpty || (utf8 input).length % 2 ≠ 0 then .error "hex string must have even length"
  else okOr "invalid hex" (decodeHexPairs (utf8 input))

section Signatures

variable {P : Platform} (K : PqKeyCodec P)

def verifyDetachedSignature (payload : Bytes) (publicKeyHex signatureHex : String) : Except String Bool := do
  let vkBytes ← pqHexDecodeDynamic publicKeyHex
  let sigBytes ← pqHexDecodeDynamic signatureHex
  let encVk ← okOr "invalid ML-DSA public key encoding" (toArray 1952 vkBytes)
  let encSig ← okOr "invalid ML-DSA signature encoding" (toArray 3309 sigBytes)
  let vk := K.decode encVk
  let sig ← okOr "invalid ML-DSA signature payload" (P.mldsa65.decode encSig)
  return P.mldsa65.verifyWithContext vk payload pqContext sig

variable (P) in
def keyIdForPublicKey (publicKeyHex : String) : String :=
  hexEncode (P.sha256 (utf8 ("agenthalo.pq.keyid.v1:" ++ publicKeyHex))).toList

variable (P) in
def computeSignatureDigestHex (algo : HashAlgorithm) (keyId payloadHash signatureHex : String) : String :=
  hashHex P algo (utf8 ("agenthalo.sign.pq.v1:" ++ keyId ++ ":" ++ payloadHash ++ ":" ++ signatureHex))

/-- The key in the signature, when there is one; else the key of the wallet, when the signature names it. -/
def resolveSignaturePublicKey (env : LedgerEnv) (walletIdentity : Option (String × String)) (sig : LedgerSignatureRef) :
    Except String String :=
  match (sig.publicKeyHex.map trim).filter (· ≠ "") with
  | some pubkey => .ok pubkey
  | none =>
    if env.strictLedgerSignatureFieldsSet then
      .error ("signature for key_id " ++ sig.keyId ++ " missing public_key_hex (strict field policy enabled)")
    else
      match walletIdentity.filter fun wallet => eqIgnoreAsciiCase wallet.1 sig.keyId with
      | some (_, walletPublicKey) => .ok walletPublicKey
      | none =>
        .error ("signature for key_id " ++ sig.keyId ++ " missing public_key_hex and no matching wallet key available")

variable {F : LedgerFormat}

def verifySignatureRef (env : LedgerEnv) (walletIdentity : Option (String × String)) (entry : IdentityLedgerEntry F)
    (sig : LedgerSignatureRef) : Except String String := do
  require (eqIgnoreAsciiCase sig.algorithm "ml_dsa65")
    ("unsupported ledger signature algorithm at seq " ++ toString entry.seq ++ ": " ++ sig.algorithm)
  let payload := entrySignaturePayload entry.entryHash
  let sigAlgo := HashAlgorithm.fromField sig.hashAlgorithm
  let payloadHash := hashHex P sigAlgo (utf8 payload)
  require (eqIgnoreAsciiCase sig.payloadHash payloadHash)
    ("ledger signature payload_hash mismatch at seq " ++ toString entry.seq)
  let expectedDigest := computeSignatureDigestHex P sigAlgo sig.keyId sig.payloadHash sig.signatureHex
  require (eqIgnoreAsciiCase sig.signatureDigest expectedDigest)
    ("ledger signature_digest mismatch at seq " ++ toString entry.seq)
  let signerPublicKey ← resolveSignaturePublicKey env walletIdentity sig
  let derivedKeyId := keyIdForPublicKey P signerPublicKey
  require (eqIgnoreAsciiCase sig.keyId derivedKeyId)
    ("ledger signature key_id mismatch at seq " ++ toString entry.seq ++ ": declared " ++ sig.keyId ++ ", derived "
      ++ derivedKeyId)
  let verified ← (verifyDetachedSignature K (utf8 payload) signerPublicKey sig.signatureHex).mapError fun e =>
    "ledger signature verification error at seq " ++ toString entry.seq ++ ": " ++ e
  require verified ("invalid ledger signature cryptographic proof at seq " ++ toString entry.seq)
  return signerPublicKey

end Signatures

/-! ### The chain -/

def nextSeq (seq : UInt64) : UInt64 := if seq = 0xFFFFFFFFFFFFFFFF then seq else seq + 1

structure ChainState where
  pinnedSignerPublicKey : Option String
  lastHash : Option String
  expectedSeq : UInt64

def ChainState.start : ChainState := ⟨none, none, 1⟩

section Chain

variable {P : Platform} (K : PqKeyCodec P) {F : LedgerFormat} (env : LedgerEnv)

/-- A digest that a completed genesis entry may anchor. -/
def wellFormedAnchor (anchor : String) : Bool :=
  startsWith anchor "sha256:" && decide ("sha256:".utf8ByteSize < anchor.utf8ByteSize)

/-- The digest in the payload of a genesis entry. -/
def payloadAnchor (entry : IdentityLedgerEntry F) : Option String := F.getStr entry.payload "combined_entropy_sha256"

/-- The digests of a completed genesis entry. -/
def verifyGenesisAnchor (entry : IdentityLedgerEntry F) (legacy : Bool) : Except String Unit :=
  match entry.genesisEntropySha256 with
  | some anchor => do
    require (wellFormedAnchor anchor)
      ("genesis completed entry at seq " ++ toString entry.seq ++ " has malformed genesis_entropy_sha256")
    require ((payloadAnchor entry).getD "" = anchor)
      ("genesis completed entry at seq " ++ toString entry.seq ++ " has payload/structured hash mismatch")
  | none =>
    if !legacy then
      .error ("genesis completed entry at seq " ++ toString entry.seq ++ " missing structured genesis_entropy_sha256")
    else
      match payloadAnchor entry with
      | none =>
        .error ("legacy genesis completed entry at seq " ++ toString entry.seq
          ++ " missing combined_entropy_sha256 payload")
      | some anchor =>
        require (wellFormedAnchor anchor) ("legacy genesis completed entry at seq " ++ toString entry.seq
          ++ " has malformed combined_entropy_sha256 payload")

/-- Genesis entries are signed, except in the older format when the environment allows it. -/
def verifyGenesisSigned (entry : IdentityLedgerEntry F) (legacy : Bool) : Except String Unit :=
  if entry.signature.isSome then .ok ()
  else if legacy then
    require (!env.strictGenesisSignatureEnforcement)
      ("legacy unsigned genesis entry at seq " ++ toString entry.seq ++ " rejected by strict policy")
  else .error ("genesis entry at seq " ++ toString entry.seq ++ " must be signed")

/-- The first signer of a completed genesis entry stays pinned. -/
def pinSigner (pinned signer : Option String) (seq : UInt64) : Except String (Option String) :=
  match signer, pinned with
  | some pubkey, some pinnedKey => do
    require (eqIgnoreAsciiCase pubkey pinnedKey)
      ("completed genesis signer drift at seq " ++ toString seq ++ ": pinned " ++ pinnedKey ++ ", got " ++ pubkey)
    return pinned
  | some pubkey, none => .ok (some pubkey)
  | none, _ => .ok pinned

/-- The rules for genesis entries, with the signer they leave pinned. -/
def verifyGenesis (pinned : Option String) (entry : IdentityLedgerEntry F) (legacy : Bool) (signer : Option String) :
    Except String (Option String) := do
  verifyGenesisSigned env entry legacy
  if eqIgnoreAsciiCase entry.status "completed" then do
    verifyGenesisAnchor entry legacy
    pinSigner pinned signer entry.seq
  else return pinned

/-- The key that signed an entry, if one did. -/
def verifySigner (entry : IdentityLedgerEntry F) : Except String (Option String) :=
  match entry.signature with
  | none => .ok none
  | some sig => (verifySignatureRef K env env.walletIdentity entry sig).map some

variable (P) in
def verifyKind (pinned : Option String) (entry : IdentityLedgerEntry F) (signer : Option String) :
    Except String (Option String) :=
  if entry.kind = .genesisEntropyHarvested then verifyGenesis env pinned entry (legacyHashMatch P entry) signer
  else .ok pinned

/-- Once a signer is pinned, no other signs. -/
def verifyPinned (pinned signer : Option String) (seq : UInt64) : Except String Unit :=
  match pinned, signer with
  | some pinnedKey, some pubkey =>
    require (eqIgnoreAsciiCase pubkey pinnedKey)
      ("ledger signer drift at seq " ++ toString seq ++ ": pinned " ++ pinnedKey ++ ", got " ++ pubkey)
  | _, _ => .ok ()

def debugOption (F : LedgerFormat) : Option String → String
  | none => "None"
  | some s => "Some(" ++ F.debugString s ++ ")"

/-- One round of `verifyChain`, at the entry with this index. -/
def verifyEntry (idx : Nat) (st : ChainState) (entry : IdentityLedgerEntry F) : Except String ChainState := do
  require (entry.version = ledgerVersion)
    ("ledger version mismatch at entry " ++ toString (idx + 1) ++ ": expected " ++ toString ledgerVersion ++ ", got "
      ++ toString entry.version)
  require (entry.seq = st.expectedSeq)
    ("ledger sequence mismatch at entry " ++ toString (idx + 1) ++ ": expected " ++ toString st.expectedSeq ++ ", got "
      ++ toString entry.seq)
  require (entry.prevHash = st.lastHash)
    ("ledger prev_hash mismatch at entry " ++ toString (idx + 1) ++ ": expected " ++ debugOption F st.lastHash
      ++ ", got " ++ debugOption F entry.prevHash)
  require (computeEntryHash P entry = entry.entryHash || legacyHashMatch P entry)
    ("ledger entry hash mismatch at seq " ++ toString entry.seq ++ ": expected " ++ computeEntryHash P entry
      ++ " (v2) or " ++ computeEntryHashLegacy P entry ++ " (legacy), got " ++ entry.entryHash)
  let signer ← verifySigner K env entry
  let pinned ← verifyKind P env st.pinnedSignerPublicKey entry signer
  verifyPinned pinned signer entry.seq
  return { pinnedSignerPublicKey := pinned, lastHash := some entry.entryHash, expectedSeq := nextSeq st.expectedSeq }

/-- The loop of `verifyChain` from one entry on. -/
def verifyFrom : Nat → ChainState → List (IdentityLedgerEntry F) → Except String ChainState
  | _, st, [] => .ok st
  | idx, st, entry :: rest => (verifyEntry K env idx st entry).bind fun st => verifyFrom (idx + 1) st rest

def verifyChain (entries : List (IdentityLedgerEntry F)) : Except String Unit :=
  (verifyFrom K env 0 .start entries).map fun _ => ()

variable {K env}

theorem verifyFrom_append (idx : Nat) (st : ChainState) (front back : List (IdentityLedgerEntry F)) :
    verifyFrom K env idx st (front ++ back) =
      (verifyFrom K env idx st front).bind fun st => verifyFrom K env (idx + front.length) st back := by
  induction front generalizing idx st with
  | nil => rfl
  | cons entry rest ih =>
    simp only [List.cons_append, verifyFrom, List.length_cons]
    cases verifyEntry K env idx st entry with
    | error e => rfl
    | ok st =>
      simp only [Except.bind, ih, Nat.add_assoc, Nat.add_comm 1]

variable {idx : Nat} {st st' : ChainState} {entry : IdentityLedgerEntry F}

theorem verifyEntry_ok_iff :
    verifyEntry K env idx st entry = .ok st' ↔
      entry.version = ledgerVersion ∧ entry.seq = st.expectedSeq ∧ entry.prevHash = st.lastHash ∧
        (computeEntryHash P entry = entry.entryHash ∨ legacyHashMatch P entry = true) ∧
        ∃ signer pinned, verifySigner K env entry = .ok signer ∧
          verifyKind P env st.pinnedSignerPublicKey entry signer = .ok pinned ∧
          verifyPinned pinned signer entry.seq = .ok () ∧ ChainState.mk pinned (some entry.entryHash)
            (nextSeq st.expectedSeq) = st' := by
  simp only [verifyEntry, bind, pure, Except.pure, bind_eq_ok, require_eq_ok, decide_eq_true_eq, Bool.or_eq_true,
    exists_const, Except.ok.injEq]
  constructor
  · rintro ⟨hversion, hseq, hprev, hhash, signer, hsigner, pinned, hkind, u, hpinned, rfl⟩
    exact ⟨hversion, hseq, hprev, hhash, signer, pinned, hsigner, hkind, hpinned, rfl⟩
  · rintro ⟨hversion, hseq, hprev, hhash, signer, pinned, hsigner, hkind, hpinned, rfl⟩
    exact ⟨hversion, hseq, hprev, hhash, signer, hsigner, pinned, hkind, (), hpinned, rfl⟩

theorem verifyEntry_ok (h : verifyEntry K env idx st entry = .ok st') :
    entry.version = ledgerVersion ∧ entry.seq = st.expectedSeq ∧ entry.prevHash = st.lastHash ∧
      (computeEntryHash P entry = entry.entryHash ∨ legacyHashMatch P entry = true) ∧
      st'.lastHash = some entry.entryHash ∧ st'.expectedSeq = nextSeq st.expectedSeq := by
  obtain ⟨hversion, hseq, hprev, hhash, signer, pinned, -, -, -, rfl⟩ := verifyEntry_ok_iff.mp h
  exact ⟨hversion, hseq, hprev, hhash, rfl, rfl⟩

end Chain

end AgentHalo.Identity
