import AgentHalo.Pod.Did
import Mathlib.Data.List.Destutter

/-!
# Capability tokens

A capability token names a grantor and a grantee by DID, the resources and modes granted, and a time window. It carries
the grantor's DID document, and two signatures over its canonical form that `verifyCapability` checks against the keys
of that document. Tokens are kept in a store, a list that `create` appends to and `revoke` searches from the front, and
that is saved to a file and loaded from it.
-/

namespace AgentHalo.Pod

open Text (utf8 startsWith stripPrefix stripSuffix)

inductive AccessMode where
  | read
  | write
  | append
  | control
deriving DecidableEq, Repr

namespace AccessMode

def sortRank : AccessMode → Nat
  | read => 0
  | write => 1
  | append => 2
  | control => 3

end AccessMode

inductive AgentClass where
  | «public»
  | authenticated
  | verified (minTier : UInt8)
  | specific (didUri : String)
deriving DecidableEq, Repr

structure CapabilityToken where
  tokenId : NodeHash
  grantorDid : String
  grantorDidDocument : DIDDocument
  granteeDid : String
  agentClass : AgentClass
  resourcePatterns : List String
  modes : List AccessMode
  notBefore : UInt64
  expiresAt : UInt64
  delegatable : Bool
  delegationChain : List String
  signatureEd25519Hex : String
  signatureMldsa65Hex : String
  createdAt : UInt64
  revoked : Bool
deriving DecidableEq

/-- The fields that are signed. -/
structure CapabilityCanonical where
  grantorDid : String
  granteeDid : String
  agentClass : AgentClass
  resourcePatterns : List String
  modes : List AccessMode
  notBefore : UInt64
  expiresAt : UInt64
  delegatable : Bool
  delegationChain : List String
  createdAt : UInt64
deriving DecidableEq, Repr

structure CapabilityStore where
  tokens : List CapabilityToken
deriving DecidableEq

/-- `serde_json` on canonical forms and on stores. -/
structure CapabilityJson where
  canonicalToVec : CapabilityCanonical → Except String Bytes
  storeToVecPretty : CapabilityStore → Except String Bytes
  storeFromSlice : Bytes → Except String CapabilityStore

/-! ### Canonical form -/

def normalizePatterns (patterns : List String) : List String :=
  (((patterns.map Text.trim).filter (· ≠ "")).mergeSort fun a b => decide (a ≤ b)).destutter (· ≠ ·)

def normalizeModes (modes : List AccessMode) : List AccessMode :=
  (modes.mergeSort fun a b => decide (a.sortRank ≤ b.sortRank)).destutter (· ≠ ·)

def canonicalFromToken (token : CapabilityToken) : CapabilityCanonical where
  grantorDid := token.grantorDid
  granteeDid := token.granteeDid
  agentClass := token.agentClass
  resourcePatterns := normalizePatterns token.resourcePatterns
  modes := normalizeModes token.modes
  notBefore := token.notBefore
  expiresAt := token.expiresAt
  delegatable := token.delegatable
  delegationChain := token.delegationChain
  createdAt := token.createdAt

/-- An early return with an error unless the condition holds. -/
def ensure (condition : Bool) (error : String) : Except String Unit := if condition then .ok () else .error error

@[simp] theorem ensure_eq_ok {condition : Bool} {error : String} {u : Unit} :
    ensure condition error = .ok u ↔ condition = true := by
  cases condition <;> simp [ensure]

def delegationChainValid (token : CapabilityToken) : Bool :=
  if token.delegationChain.isEmpty then true
  else if !token.delegatable then false
  else if token.delegationChain.any fun did => Text.trim did = "" || !startsWith did "did:" then false
  else token.delegationChain.head? == some token.grantorDid && token.delegationChain.getLast? == some token.granteeDid

/-- Rust's `hex_decode` of `halo/util.rs`. -/
def hexDecode (hex : String) : Except String Bytes :=
  let s := (stripPrefix hex "0x").getD hex
  if (utf8 s).length % 2 ≠ 0 then .error "hex input must have even length"
  else okOr ("invalid hex in " ++ hex) (Text.hexDecodeDynamic s)

/-- Exact match, prefix glob or wildcard. -/
def keyPatternMatches (pattern key : String) : Bool :=
  if pattern = "*" then true
  else
    match stripSuffix '*' pattern with
    | some pre => startsWith key pre
    | none => pattern == key

section Tokens

variable {P : Platform} (C : DidCodec P) (J : CapabilityJson)

def canonicalBytes (c : CapabilityCanonical) : Except String Bytes :=
  (J.canonicalToVec c).mapError ("serialize capability canonical payload: " ++ ·)

def computeTokenId (P : Platform) (c : CapabilityCanonical) : Except String NodeHash :=
  (canonicalBytes J c).map fun bytes => P.sha256 (utf8 "agenthalo.capability.v1|" ++ bytes)

/-! ### Creation and verification -/

/-- The message for a failure of ML-DSA signing leaves out the scheme's own error. -/
def createCapability (grantor : DIDIdentity P) (granteeDid : String) (agentClass : AgentClass)
    (resourcePatterns : List String) (modes : List AccessMode) (notBefore expiresAt : UInt64) (delegatable : Bool)
    (createdAt : UInt64) : Except String CapabilityToken := do
  ensure (Text.trim granteeDid ≠ "") "grantee_did must not be empty"
  ensure (startsWith granteeDid "did:") "grantee_did must be a DID URI"
  ensure (notBefore < expiresAt) "expires_at must be greater than not_before"
  let resourcePatterns := normalizePatterns resourcePatterns
  ensure (!resourcePatterns.isEmpty) "at least one resource pattern is required"
  let modes := normalizeModes modes
  ensure (!modes.isEmpty) "at least one access mode is required"
  let canonical : CapabilityCanonical :=
    { grantorDid := grantor.did, granteeDid, agentClass, resourcePatterns, modes, notBefore, expiresAt, delegatable,
      delegationChain := [], createdAt }
  let tokenId ← computeTokenId J P canonical
  let message ← canonicalBytes J canonical
  let (edSig, pqSig) ← okOr "ML-DSA signing failed" (dualSign grantor message)
  return {
    tokenId
    grantorDid := canonical.grantorDid
    grantorDidDocument := grantor.didDocument
    granteeDid := canonical.granteeDid
    agentClass := canonical.agentClass
    resourcePatterns := canonical.resourcePatterns
    modes := canonical.modes
    notBefore := canonical.notBefore
    expiresAt := canonical.expiresAt
    delegatable := canonical.delegatable
    delegationChain := canonical.delegationChain
    signatureEd25519Hex := Text.hexEncode edSig
    signatureMldsa65Hex := Text.hexEncode pqSig
    createdAt := canonical.createdAt
    revoked := false }

/-- Verify capability signatures and time constraints. -/
def verifyCapability (token : CapabilityToken) (now : UInt64) : Except String Unit := do
  ensure (token.grantorDidDocument.id = token.grantorDid) "grantor DID does not match DID document id"
  ensure (!token.revoked) "capability token is revoked"
  ensure (token.notBefore ≤ now) "capability token not yet valid"
  ensure (now < token.expiresAt) "capability token expired"
  ensure (delegationChainValid token) "invalid delegation chain"
  let canonical := canonicalFromToken token
  let expectedId ← computeTokenId J P canonical
  ensure (expectedId = token.tokenId) "capability token id mismatch"
  let edSig ← (hexDecode token.signatureEd25519Hex).mapError ("decode Ed25519 signature: " ++ ·)
  let pqSig ← (hexDecode token.signatureMldsa65Hex).mapError ("decode ML-DSA signature: " ++ ·)
  ensure (!(edSig.isEmpty || pqSig.isEmpty)) "both Ed25519 and ML-DSA signatures are required"
  let message ← canonicalBytes J canonical
  let ok ← dualVerify C token.grantorDidDocument message edSig pqSig
  ensure ok "capability signature verification failed"

def capabilityAuthorizes (token : CapabilityToken) (resourceKey : String) (mode : AccessMode) (now : UInt64) : Bool :=
  (verifyCapability C J token now).isOk && token.modes.contains mode
    && token.resourcePatterns.any (keyPatternMatches · resourceKey)

/-- Check whether a token authorizes a DID-bound tool call by name. -/
def tokenAuthorizesToolCall (token : CapabilityToken) (senderDid toolName : String) (now : UInt64) : Bool :=
  (verifyCapability C J token now).isOk && token.granteeDid == senderDid
    && token.resourcePatterns.any (keyPatternMatches · toolName)

def storeAuthorizesToolCall (store : CapabilityStore) (senderDid toolName : String) (now : UInt64) : Bool :=
  store.tokens.any (tokenAuthorizesToolCall C J · senderDid toolName now)

theorem verifyCapability_ok_iff (token : CapabilityToken) (now : UInt64) :
    verifyCapability C J token now = .ok () ↔
      token.grantorDidDocument.id = token.grantorDid ∧ token.revoked = false ∧ token.notBefore ≤ now ∧
        now < token.expiresAt ∧ delegationChainValid token = true ∧
        ∃ message edSig pqSig, canonicalBytes J (canonicalFromToken token) = .ok message ∧
          P.sha256 (utf8 "agenthalo.capability.v1|" ++ message) = token.tokenId ∧
          hexDecode token.signatureEd25519Hex = .ok edSig ∧ hexDecode token.signatureMldsa65Hex = .ok pqSig ∧
          edSig ≠ [] ∧ pqSig ≠ [] ∧ dualVerify C token.grantorDidDocument message edSig pqSig = .ok true := by
  have hid (id : NodeHash) : computeTokenId J P (canonicalFromToken token) = .ok id ↔
      ∃ message, canonicalBytes J (canonicalFromToken token) = .ok message ∧
        P.sha256 (utf8 "agenthalo.capability.v1|" ++ message) = id := by
    unfold computeTokenId
    cases canonicalBytes J (canonicalFromToken token) <;> simp [Except.map]
  simp only [verifyCapability, bind, bind_eq_ok, ensure_eq_ok, hid, mapError_eq_ok, decide_eq_true_eq, exists_const,
    Bool.not_eq_true', Bool.or_eq_false_iff, List.isEmpty_eq_false_iff]
  constructor
  · rintro ⟨hdid, hrevoked, hstart, hend, hchain, id, ⟨message, hmessage, hhash⟩, rfl, edSig, hed, pqSig, hpq,
      ⟨hedne, hpqne⟩, message', hmessage', ok, hverify, rfl⟩
    obtain rfl := Except.ok.inj (hmessage.symm.trans hmessage')
    exact ⟨hdid, hrevoked, hstart, hend, hchain, message, edSig, pqSig, hmessage, hhash, hed, hpq, hedne, hpqne, hverify⟩
  · rintro ⟨hdid, hrevoked, hstart, hend, hchain, message, edSig, pqSig, hmessage, hhash, hed, hpq, hedne, hpqne, hverify⟩
    exact ⟨hdid, hrevoked, hstart, hend, hchain, _, ⟨message, hmessage, hhash⟩, rfl, edSig, hed, pqSig, hpq,
      ⟨hedne, hpqne⟩, message, hmessage, true, hverify, rfl⟩

/-! ### A token verifies inside its window -/

variable {α : Type} {patterns : List String} {p : String}

theorem sortDedup_idem [DecidableEq α] (le : α → α → Bool) (htrans : ∀ a b c, le a b → le b c → le a c)
    (htotal : ∀ a b, (le a b || le b a) = true) (l : List α) :
    (((l.mergeSort le).destutter (· ≠ ·)).mergeSort le).destutter (· ≠ ·) = (l.mergeSort le).destutter (· ≠ ·) := by
  have hsorted := (List.pairwise_mergeSort htrans htotal l).sublist (List.destutter_sublist (· ≠ ·) (l.mergeSort le))
  rw [List.mergeSort_of_pairwise hsorted, List.destutter_idem]

theorem mem_sortDedup [DecidableEq α] {le : α → α → Bool} {l : List α} {a : α} :
    a ∈ (l.mergeSort le).destutter (· ≠ ·) ↔ a ∈ l := by
  rw [← (List.mergeSort_perm l le).mem_iff]
  have hdestutter (b : α) (l : List α) : a ∈ l.destutter' (· ≠ ·) b ↔ a = b ∨ a ∈ l := by
    induction l generalizing b with
    | nil => simp
    | cons c l ih =>
      rw [List.destutter']
      split_ifs with hne
      · rw [List.mem_cons, ih, List.mem_cons]
      · rw [ih, List.mem_cons, ← not_not.mp hne, ← or_assoc, or_self]
  cases l.mergeSort le with
  | nil => simp
  | cons b l => rw [List.destutter_cons', hdestutter, List.mem_cons]

theorem normalizeModes_idem (modes : List AccessMode) : normalizeModes (normalizeModes modes) = normalizeModes modes := by
  exact sortDedup_idem (fun a b : AccessMode => decide (a.sortRank ≤ b.sortRank))
    (fun a b c hab hbc => decide_eq_true ((of_decide_eq_true hab).trans (of_decide_eq_true hbc)))
    (fun a b => by simpa using Nat.le_total a.sortRank b.sortRank) modes

theorem mem_normalizePatterns :
    p ∈ normalizePatterns patterns ↔ (∃ q ∈ patterns, Text.trim q = p) ∧ p ≠ "" := by
  rw [normalizePatterns, mem_sortDedup, List.mem_filter, List.mem_map, decide_eq_true_eq]

theorem normalizePatterns_trimmed (h : p ∈ normalizePatterns patterns) :
    Text.trim p = p ∧ p ≠ "" := by
  obtain ⟨⟨q, -, rfl⟩, hne⟩ := mem_normalizePatterns.mp h
  exact ⟨Text.trim_trim q, hne⟩

theorem normalizePatterns_idem (patterns : List String) :
    normalizePatterns (normalizePatterns patterns) = normalizePatterns patterns := by
  have hmap : (normalizePatterns patterns).map Text.trim = normalizePatterns patterns := by
    conv_rhs => rw [← List.map_id (normalizePatterns patterns)]
    exact List.map_congr_left fun p hp => (normalizePatterns_trimmed hp).1
  have hfilter : (normalizePatterns patterns).filter (· ≠ "") = normalizePatterns patterns :=
    List.filter_eq_self.mpr fun p hp => decide_eq_true (normalizePatterns_trimmed hp).2
  have hsorted := sortDedup_idem (fun a b : String => decide (a ≤ b))
    (fun a b c hab hbc => decide_eq_true (String.le_trans (of_decide_eq_true hab) (of_decide_eq_true hbc)))
    (fun a b => by simpa using String.le_total a b) ((patterns.map Text.trim).filter (· ≠ ""))
  calc
    normalizePatterns (normalizePatterns patterns) =
        ((((normalizePatterns patterns).map Text.trim).filter (· ≠ "")).mergeSort
          fun a b => decide (a ≤ b)).destutter (· ≠ ·) := rfl
    _ = ((normalizePatterns patterns).mergeSort fun a b => decide (a ≤ b)).destutter (· ≠ ·) := by rw [hmap, hfilter]
    _ = normalizePatterns patterns := hsorted

variable {C J}

theorem stripPrefix_hexEncode (bytes : Bytes) : stripPrefix (Text.hexEncode bytes) "0x" = none := by
  have hdigit : ∀ d : Fin 16, Text.hexDigit d ≠ 'x' := by decide
  have hleading : startsWith (Text.hexEncode bytes) "0x" = false := by
    cases bytes with
    | nil => rfl
    | cons b rest =>
      have hsecond : ('x' == Text.hexDigit (b.toNat % 16)) = false :=
        beq_eq_false_iff_ne.mpr (hdigit ⟨b.toNat % 16, Nat.mod_lt _ (by decide)⟩).symm
      simp [startsWith, Text.hexEncode, Text.hexByte, List.isPrefixOf, hsecond]
  unfold stripPrefix
  rw [hleading]
  rfl

theorem hexDecode_hexEncode (bytes : Bytes) : hexDecode (Text.hexEncode bytes) = .ok bytes := by
  unfold hexDecode
  rw [stripPrefix_hexEncode]
  simp [Text.utf8_hexEncode_length, Text.hexDecodeDynamic_hexEncode, okOr]

/-- **A capability verifies inside its window**: a token carries signatures over the canonical form that verification
rebuilds, and a document with the keys they were made with. -/
theorem verifyCapability_createCapability (hC : C.Lawful) (hE : P.ed25519.Correct) (hM : MlDsa65Correct P.mldsa65)
    {grantor : DIDIdentity P} (hgrantor : grantor.OwnDocument C) {granteeDid : String} {agentClass : AgentClass}
    {resourcePatterns : List String} {modes : List AccessMode} {notBefore expiresAt : UInt64} {delegatable : Bool}
    {createdAt : UInt64} {token : CapabilityToken}
    (h : createCapability J grantor granteeDid agentClass resourcePatterns modes notBefore expiresAt delegatable
      createdAt = .ok token) {now : UInt64} (hstart : notBefore ≤ now) (hend : now < expiresAt) :
    verifyCapability C J token now = .ok () := by
  simp only [createCapability, bind, bind_eq_ok, ensure_eq_ok, okOr_eq_ok, pure, Except.pure, exists_const] at h
  obtain ⟨-, -, -, -, -, tokenId, hid, message, hmessage, ⟨edSig, pqSig⟩, hsign, htoken⟩ := h
  have hcanonical : canonicalFromToken token =
      { grantorDid := grantor.did, granteeDid, agentClass, resourcePatterns := normalizePatterns resourcePatterns,
        modes := normalizeModes modes, notBefore, expiresAt, delegatable, delegationChain := [], createdAt } := by
    rw [← Except.ok.inj htoken]
    simp only [canonicalFromToken, normalizePatterns_idem, normalizeModes_idem]
  have hhash : P.sha256 (utf8 "agenthalo.capability.v1|" ++ message) = tokenId := by
    unfold computeTokenId at hid
    rw [hmessage] at hid
    exact Except.ok.inj hid
  have hverify := hgrantor.dualVerify_dualSign hC hE hM hsign
  have hnonempty : edSig ≠ [] ∧ pqSig ≠ [] := by
    obtain ⟨signature, -, hpair⟩ := Option.map_eq_some_iff.mp hsign
    obtain ⟨rfl, rfl⟩ := Prod.mk.inj hpair
    constructor
    · exact List.ne_nil_of_length_pos (by simp)
    · exact List.ne_nil_of_length_pos (by simp)
  rw [verifyCapability_ok_iff, hcanonical]
  rw [← Except.ok.inj htoken]
  exact ⟨hgrantor.id, rfl, hstart, hend, rfl, message, edSig, pqSig, hmessage, hhash, hexDecode_hexEncode edSig,
    hexDecode_hexEncode pqSig, hnonempty.1, hnonempty.2, hverify⟩

end Tokens

/-! ### Tokens to compute with -/

/-- The canonical form by its two names alone; of the stores, the empty one. -/
def CapabilityJson.reference : CapabilityJson where
  canonicalToVec c := .ok (utf8 ("\x7b\"grantor_did\":\"" ++ c.grantorDid ++ "\",\"grantee_did\":\"" ++ c.granteeDid
    ++ "\"\x7d"))
  storeToVecPretty store :=
    if store.tokens = [] then .ok (utf8 "\x7b\n  \"tokens\": []\n\x7d") else .error "not supported"
  storeFromSlice raw :=
    if raw = utf8 "\x7b\n  \"tokens\": []\n\x7d" then .ok ⟨[]⟩ else .error "expected value at line 1 column 1"

theorem reference_mldsa65_correct : MlDsa65Correct Platform.reference.mldsa65 where
  decode_encode sig := rfl
  verify_sign sk msg sig h := by
    have hsig : Reference.digest 3309 (mldsa65Context ++ msg ++ Vector.toList sk) = sig := Option.some.inj h
    rw [← hsig]
    exact beq_self_eq_true (Reference.digest 3309 (mldsa65Context ++ msg ++ Vector.toList sk))

/-- The identity with this key for both schemes, under any name. -/
def referenceIdentity (did : String) (key : Vector UInt8 32) : DIDIdentity .reference where
  did := did
  didDocument := buildDidDocumentFromParts .reference did key
    (DidCodec.reference.mldsa65KeyEncode key).toList (Vector.replicate 32 0) []
  ed25519SigningKey := key
  mldsa65SigningKey := key

theorem referenceIdentity_ownDocument (did : String) (key : Vector UInt8 32) :
    (referenceIdentity did key).OwnDocument .reference := ⟨Vector.replicate 32 0, [], rfl⟩

theorem normalizePatterns_star : normalizePatterns ["*"] = ["*"] := by
  have hfilter : (["*"].map Text.trim).filter (· ≠ "") = ["*"] := by decide
  unfold normalizePatterns
  rw [hfilter]
  simp

theorem exists_referenceToken (did : String) (key : Vector UInt8 32) : ∃ token,
    createCapability .reference (referenceIdentity did key) "did:b" .authenticated ["*"] [.read] 0 10 false 0 =
        .ok token ∧
      token.grantorDid = did ∧ token.grantorDidDocument = (referenceIdentity did key).didDocument ∧
      verifyCapability .reference .reference token 5 = .ok () := by
  have hcreate : ∃ token, createCapability .reference (referenceIdentity did key) "did:b" .authenticated ["*"] [.read]
      0 10 false 0 = .ok token ∧ token.grantorDid = did ∧
        token.grantorDidDocument = (referenceIdentity did key).didDocument := by
    have hgrantee : Text.trim "did:b" ≠ "" ∧ startsWith "did:b" "did:" = true := by decide
    have hmodes : normalizeModes [.read] = [.read] := by simp [normalizeModes]
    have hsign : ∀ message, ∃ sigs, dualSign (referenceIdentity did key) message = some sigs := by
      intro message
      have hcontext : mldsa65Context.length ≤ 255 := by decide
      simp [dualSign, Platform.reference, Reference.mldsa65, hcontext]
    obtain ⟨sigs, hsigs⟩ := hsign (utf8 ("\x7b\"grantor_did\":\"" ++ did ++ "\",\"grantee_did\":\"" ++ "did:b"
      ++ "\"\x7d"))
    simp only [createCapability, bind, bind_eq_ok, ensure_eq_ok, okOr_eq_ok, pure, Except.pure, exists_const]
    exact ⟨_, ⟨decide_eq_true hgrantee.1, hgrantee.2, by decide, by simp [normalizePatterns_star], by simp [hmodes], _,
      rfl, _, rfl, sigs, hsigs, rfl⟩, rfl, rfl⟩
  obtain ⟨token, htoken, hgrantor, hdocument⟩ := hcreate
  exact ⟨token, htoken, hgrantor, hdocument, verifyCapability_createCapability DidCodec.reference_lawful
    Reference.ed25519_correct reference_mldsa65_correct (referenceIdentity_ownDocument did key) htoken (by decide)
    (by decide)⟩

end AgentHalo.Pod

/-!
## Access grants

A grant lets one agent read, write, append to or control the keys that match a pattern, until it expires or is revoked.
-/

namespace AgentHalo.Pod

structure GrantPermissions where
  read : Bool
  write : Bool
  append : Bool
  control : Bool
deriving DecidableEq

structure AccessGrant where
  grantId : NodeHash
  grantorPuf : NodeHash
  granteePuf : NodeHash
  keyPattern : String
  permissions : GrantPermissions
  expiresAt : Option UInt64
  createdAt : UInt64
  nonce : UInt64
  revoked : Bool
deriving DecidableEq

def AccessGrant.matchesKey (grant : AccessGrant) (key : String) : Bool := keyPatternMatches grant.keyPattern key

/-- Neither revoked nor expired at the time `now`. -/
def AccessGrant.isActive (grant : AccessGrant) (now : UInt64) : Bool :=
  if grant.revoked then false
  else
    match grant.expiresAt with
    | some expiresAt => now < expiresAt
    | none => true

structure GrantStore where
  grants : List AccessGrant
deriving DecidableEq

namespace GrantStore

def listAll (store : GrantStore) : List AccessGrant := store.grants

def canRead (store : GrantStore) (granteePuf : NodeHash) (key : String) (now : UInt64) : Bool :=
  store.grants.any fun g => g.granteePuf == granteePuf && g.isActive now && g.permissions.read && g.matchesKey key

end GrantStore

end AgentHalo.Pod
