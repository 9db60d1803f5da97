import AgentHalo.Credential.Circuit

/-!
# Credential proofs

A bundle carries a proof with what is public of it: hashes of the grantee's DID and of the key pattern, the requested
permissions and the time. The verifier rebuilds the public inputs of the circuit from these fields and from nothing else.
-/

namespace AgentHalo.Credential

open Outcome Text
open Pod (AccessGrant GrantPermissions hexDecode)

def credentialDidHashDomain : String := "agenthalo.zk_credential.did_hash.v1"
def credentialKeyHashDomain : String := "agenthalo.zk_credential.key_hash.v1"
def credentialSchemaVersion : UInt32 := 2

def digestBytes (P : Platform) (domain : String) (payload : Bytes) : NodeHash := P.sha256 (utf8 domain ++ [0] ++ payload)

def hexDecode32 (hex : String) : Except String NodeHash :=
  let s := (stripPrefix hex "0x").getD hex
  if (utf8 s).length ≠ 64 then .error ("expected 32-byte hex (64 chars), got " ++ toString (utf8 s).length)
  else okOr ("invalid hex in " ++ hex) ((decodeHexPairs (utf8 s)).bind (toArray 32))

theorem hexDecode32_hexEncode (hash : NodeHash) : hexDecode32 (hexEncode hash.toList) = .ok hash := by
  unfold hexDecode32
  rw [Pod.stripPrefix_hexEncode]
  simp [utf8_hexEncode_length, decodeHexPairs_hexEncode, toArray_toList, okOr]

/-- The number that the bytes are in little-endian order. -/
def leNat (bytes : Bytes) : Nat := bytes.foldr (fun b acc => b.toNat + 256 * acc) 0

def splitHashU128 (hash : NodeHash) : Nat × Nat := (leNat (hash.toList.take 16), leNat (hash.toList.drop 16))

def permissionBit (p : GrantPermissions) : AccessMode → Bool
  | .read => p.read
  | .write => p.write
  | .append => p.append
  | .control => p.control

def permissionsSubset (requested granted : GrantPermissions) : Bool :=
  (!requested.read || granted.read) && (!requested.write || granted.write) && (!requested.append || granted.append) &&
    (!requested.control || granted.control)

def permissionFlags (p : GrantPermissions) : UInt8 :=
  (if p.read then 1 else 0) ||| (if p.write then 2 else 0) ||| (if p.append then 4 else 0) |||
    (if p.control then 8 else 0)

def flagsToPermissions (flags : UInt8) : Except String GrantPermissions :=
  if flags &&& ~~~ 0b1111 ≠ 0 then .error ("invalid permission flags: 0x" ++ String.ofList (Nat.toDigits 16 flags.toNat))
  else .ok
    { read := flags &&& 0b0001 ≠ 0
      write := flags &&& 0b0010 ≠ 0
      append := flags &&& 0b0100 ≠ 0
      control := flags &&& 0b1000 ≠ 0 }

theorem permissionsSubset_iff {requested granted : GrantPermissions} :
    permissionsSubset requested granted = true ↔
      ∀ mode, permissionBit requested mode = true → permissionBit granted mode = true := by
  have himp (a b : Bool) : (!a || b) = true ↔ (a = true → b = true) := by cases a <;> simp
  simp only [permissionsSubset, Bool.and_eq_true, himp]
  constructor
  · rintro ⟨⟨⟨hread, hwrite⟩, happend⟩, hcontrol⟩ mode
    cases mode with
    | read => exact hread
    | write => exact hwrite
    | append => exact happend
    | control => exact hcontrol
  · exact fun h => ⟨⟨⟨h .read, h .write⟩, h .append⟩, h .control⟩

theorem flagsToPermissions_permissionFlags (p : GrantPermissions) : flagsToPermissions (permissionFlags p) = .ok p := by
  obtain ⟨r, w, a, c⟩ := p
  cases r <;> cases w <;> cases a <;> cases c <;> rfl

structure CredentialProofBundle where
  proofHex : String
  granteeDidHash : String
  keyPatternHash : String
  permissionFlags : UInt8
  currentTime : UInt64
  schemaVersion : UInt32
deriving DecidableEq

/-- The proof system under a verifying key, over the field of `p` elements. -/
structure Groth16 (p : Nat) where
  Proof : Type
  deserializeCompressed : Bytes → Except String Proof
  verifyWithProcessedVk : List (ZMod p) → Proof → Except String Bool

/-- The public inputs in the order of the circuit's variables. -/
def publicInputs (p : Nat) (granteeHash keyHash : NodeHash) (requested : GrantPermissions) (currentTime : UInt64) :
    List (ZMod p) :=
  [((splitHashU128 granteeHash).1 : ZMod p), ((splitHashU128 granteeHash).2 : ZMod p),
    ((splitHashU128 keyHash).1 : ZMod p), ((splitHashU128 keyHash).2 : ZMod p)] ++
  AccessMode.all.map (fun mode => if permissionBit requested mode then 1 else 0) ++
  [(currentTime.toNat : ZMod p)]

def verifyCredentialProof {p : Nat} (G : Groth16 p) (bundle : CredentialProofBundle) : Except String Bool := do
  require (bundle.schemaVersion == credentialSchemaVersion)
    ("credential schema mismatch: expected " ++ toString credentialSchemaVersion ++ ", got " ++
      toString bundle.schemaVersion)
  let granteeHash ← hexDecode32 bundle.granteeDidHash
  let keyHash ← hexDecode32 bundle.keyPatternHash
  let requested ← flagsToPermissions bundle.permissionFlags
  let proofRaw ← hexDecode bundle.proofHex
  let proof ← (G.deserializeCompressed proofRaw).mapError ("decode credential proof: " ++ ·)
  (G.verifyWithProcessedVk (publicInputs p granteeHash keyHash requested bundle.currentTime) proof).mapError
    ("verify credential proof failed: " ++ ·)

/-- What a bundle says, read from its fields. -/
structure Reads (bundle : CredentialProofBundle) (granteeHash keyHash : NodeHash) (requested : GrantPermissions) : Prop
    where
  schema : bundle.schemaVersion = credentialSchemaVersion
  grantee : hexDecode32 bundle.granteeDidHash = .ok granteeHash
  key : hexDecode32 bundle.keyPatternHash = .ok keyHash
  flags : flagsToPermissions bundle.permissionFlags = .ok requested

theorem verifyCredentialProof_eq_true {p : Nat} {G : Groth16 p} {bundle : CredentialProofBundle} :
    verifyCredentialProof G bundle = .ok true ↔
      ∃ granteeHash keyHash requested proofRaw proof, Reads bundle granteeHash keyHash requested ∧
        hexDecode bundle.proofHex = .ok proofRaw ∧ G.deserializeCompressed proofRaw = .ok proof ∧
        G.verifyWithProcessedVk (publicInputs p granteeHash keyHash requested bundle.currentTime) proof = .ok true := by
  unfold verifyCredentialProof
  simp only [bind, bind_eq_ok, require_eq_ok, mapError_eq_ok, beq_iff_eq]
  constructor
  · rintro ⟨-, hschema, granteeHash, hgrantee, keyHash, hkey, requested, hflags, proofRaw, hhex, proof, hproof, haccepted⟩
    exact ⟨granteeHash, keyHash, requested, proofRaw, proof, ⟨hschema, hgrantee, hkey, hflags⟩, hhex, hproof, haccepted⟩
  · rintro ⟨granteeHash, keyHash, requested, proofRaw, proof, h, hhex, hproof, haccepted⟩
    exact ⟨(), h.schema, granteeHash, h.grantee, keyHash, h.key, requested, h.flags, proofRaw, hhex, proof, hproof,
      haccepted⟩

/-! ### The public inputs determine the fields -/

theorem leNat_lt (bytes : Bytes) : leNat bytes < 256 ^ bytes.length := by
  induction bytes with
  | nil => exact Nat.one_pos
  | cons b rest ih =>
    have hb := b.toNat_lt
    show b.toNat + 256 * leNat rest < 256 ^ (rest.length + 1)
    rw [Nat.pow_succ]
    omega

theorem leNat_inj {a b : Bytes} (hlen : a.length = b.length) (h : leNat a = leNat b) : a = b := by
  induction a generalizing b with
  | nil => exact (List.eq_nil_of_length_eq_zero hlen.symm).symm
  | cons x rest ih =>
    cases b with
    | nil => cases hlen
    | cons y rest' =>
      replace h : x.toNat + 256 * leNat rest = y.toNat + 256 * leNat rest' := h
      have hx := x.toNat_lt
      have hy := y.toNat_lt
      have hhead : x.toNat = y.toNat := by omega
      rw [UInt8.toNat_inj.mp hhead, ih (Nat.succ.inj hlen) (by omega)]

theorem splitHashU128_lt (hash : NodeHash) :
    (splitHashU128 hash).1 < 2 ^ 128 ∧ (splitHashU128 hash).2 < 2 ^ 128 := by
  have hlo := leNat_lt (hash.toList.take 16)
  have hhi := leNat_lt (hash.toList.drop 16)
  simp only [List.length_take, List.length_drop, Vector.length_toList] at hlo hhi
  exact ⟨hlo, hhi⟩

theorem splitHashU128_inj {a b : NodeHash} (h : splitHashU128 a = splitHashU128 b) : a = b := by
  have hlo : a.toList.take 16 = b.toList.take 16 := leNat_inj (by simp) (congrArg Prod.fst h)
  have hhi : a.toList.drop 16 = b.toList.drop 16 := leNat_inj (by simp) (congrArg Prod.snd h)
  have hlist : a.toList = b.toList := by
    rw [← List.take_append_drop 16 a.toList, hlo, hhi, List.take_append_drop]
  exact Vector.toList_inj.mp hlist

section Inputs

variable {p : Nat}

theorem natCast_inj (hp : 2 ^ 130 < p) {m n : Nat} (hm : m < 2 ^ 128) (hn : n < 2 ^ 128)
    (h : (m : ZMod p) = (n : ZMod p)) : m = n := by
  have hval := congrArg ZMod.val h
  rwa [ZMod.val_natCast_of_lt (by omega), ZMod.val_natCast_of_lt (by omega)] at hval

theorem hash_inj_of_cast (hp : 2 ^ 130 < p) {a b : NodeHash}
    (hlo : ((splitHashU128 a).1 : ZMod p) = (splitHashU128 b).1)
    (hhi : ((splitHashU128 a).2 : ZMod p) = (splitHashU128 b).2) : a = b :=
  splitHashU128_inj (Prod.ext (natCast_inj hp (splitHashU128_lt a).1 (splitHashU128_lt b).1 hlo)
    (natCast_inj hp (splitHashU128_lt a).2 (splitHashU128_lt b).2 hhi))

theorem permissionBit_inj {a b : GrantPermissions} (h : ∀ mode, permissionBit a mode = permissionBit b mode) : a = b := by
  obtain ⟨r, w, x, c⟩ := a
  obtain ⟨r', w', x', c'⟩ := b
  have hread : r = r' := h .read
  have hwrite : w = w' := h .write
  have happend : x = x' := h .append
  have hcontrol : c = c' := h .control
  rw [hread, hwrite, happend, hcontrol]

theorem publicInputs_inj (hp : 2 ^ 130 < p) {granteeHash granteeHash' keyHash keyHash' : NodeHash}
    {requested requested' : GrantPermissions} {currentTime currentTime' : UInt64}
    (h : publicInputs p granteeHash keyHash requested currentTime =
      publicInputs p granteeHash' keyHash' requested' currentTime') :
    granteeHash = granteeHash' ∧ keyHash = keyHash' ∧ requested = requested' ∧ currentTime = currentTime' := by
  have : Fact (1 < p) := ⟨by omega⟩
  simp only [publicInputs, AccessMode.all, List.map_cons, List.map_nil, List.cons_append, List.nil_append,
    List.cons.injEq, and_true] at h
  obtain ⟨hdidLo, hdidHi, hkeyLo, hkeyHi, hread, hwrite, happend, hcontrol, htime⟩ := h
  have hbit {a b : Bool} (hab : (if a then 1 else 0 : ZMod p) = if b then 1 else 0) : a = b := by
    cases a <;> cases b <;> simp_all
  refine ⟨hash_inj_of_cast hp hdidLo hdidHi, hash_inj_of_cast hp hkeyLo hkeyHi, permissionBit_inj fun mode => ?_, ?_⟩
  · cases mode with
    | read => exact hbit hread
    | write => exact hbit hwrite
    | append => exact hbit happend
    | control => exact hbit hcontrol
  · exact UInt64.toNat_inj.mp (natCast_inj hp (currentTime.toNat_lt.trans (by norm_num))
      (currentTime'.toNat_lt.trans (by norm_num)) htime)

end Inputs

/-! ### Grants -/

def computeId (P : Platform) (grantorPuf granteePuf : NodeHash) (keyPattern : String) (createdAt nonce : UInt64) : NodeHash :=
  P.sha256 (utf8 "nucleusdb.pod.grant.v1|" ++ grantorPuf.toList ++ granteePuf.toList ++ utf8 keyPattern ++
    toLeBytes createdAt ++ toLeBytes nonce)

def validateGrantForProof (P : Platform) (grant : AccessGrant) (requested : GrantPermissions) (currentTime : UInt64) :
    Except String Unit := do
  require (!grant.revoked) "grant is revoked"
  match grant.expiresAt with
  | some exp =>
    require (currentTime < exp) ("grant expired at " ++ toString exp ++ ", current_time=" ++ toString currentTime)
  | none => pure ()
  require (grant.createdAt ≤ currentTime)
    ("grant created_at is in the future: created_at=" ++ toString grant.createdAt ++ ", current_time=" ++
      toString currentTime)
  require (grant.nonce != 0) "grant nonce must be non-zero"
  require (permissionsSubset requested grant.permissions)
    "requested permissions are not a subset of granted permissions"
  require (grant.grantId == computeId P grant.grantorPuf grant.granteePuf grant.keyPattern grant.createdAt grant.nonce)
    "grant ID integrity check failed"

/-- The grant covers what the bundle says: its grantee's DID and its key pattern have these hashes, and it permits the
request at the time. -/
structure Covers (P : Platform) (bundle : CredentialProofBundle) (grant : AccessGrant) (granteeDid : String) : Prop where
  grantee : hexDecode32 bundle.granteeDidHash = .ok (digestBytes P credentialDidHashDomain (utf8 granteeDid))
  key : hexDecode32 bundle.keyPatternHash = .ok (digestBytes P credentialKeyHashDomain (utf8 grant.keyPattern))
  valid : ∃ requested, flagsToPermissions bundle.permissionFlags = .ok requested ∧
    validateGrantForProof P grant requested bundle.currentTime = .ok ()

/-- The proof system is sound for the documented statement: what verifies is covered by some grant. -/
def Groth16.Sound {p : Nat} (G : Groth16 p) (P : Platform) : Prop :=
  ∀ bundle, verifyCredentialProof G bundle = .ok true → ∃ grant granteeDid, Covers P bundle grant granteeDid

end AgentHalo.Credential
