import AgentHalo.Base.Lines
import AgentHalo.Identity.Binding

/-!
# Appending to the identity ledger

An append reads and verifies the ledger file, numbers, links, hashes and signs the new entry (`prepare`), writes it as one
more line, and only then verifies the ledger with the entry in it. So it keeps the ledger exactly when verification
accepts the entry (`Admissible`), the file ends in a line feed, and a write that fails leaves nothing behind (`keeps_iff`).
-/

namespace AgentHalo.Identity

open Lines Outcome
open Text (utf8 hexEncode trim eqIgnoreAsciiCase)

/-! ### Wallets and signatures -/

/-- A wallet file that was read: its public fields, and the seed when it can be decrypted. -/
structure PqWallet where
  keyId : String
  publicKeyHex : String
  seed : Except String (Vector UInt8 32)

/-- The wallet files: which of the two kinds exist, and what reading them gives; the second kind is read with a Sign
scope key. -/
structure WalletFiles where
  v1Exists : Bool
  loadWallet : Except String PqWallet
  v2Exists : Bool
  loadWalletV2 : Vector UInt8 32 → Except String PqWallet
  /-- The outcome of `save_signature` for either kind. -/
  saveSignature : Except String Unit
  now : UInt64

section Signing

variable {P : Platform} (K : PqKeyCodec P) (files : WalletFiles)

def WalletFiles.hasWallet : Bool := files.v1Exists || files.v2Exists

def WalletFiles.walletKeyIdentity : Except String (Option (String × String)) :=
  if !files.v1Exists then
    if files.v2Exists then
      .error "v2 wallet identity requires unlocked Sign scope key; use wallet_key_identity_v2"
    else .ok none
  else files.loadWallet.map fun wallet => some (wallet.keyId, wallet.publicKeyHex)

def WalletFiles.walletKeyIdentityV2 (signScopeKey : Vector UInt8 32) : Except String (Option (String × String)) :=
  if !files.v2Exists then .ok none
  else (files.loadWalletV2 signScopeKey).map fun wallet => some (wallet.keyId, wallet.publicKeyHex)

/-- The key pair of a wallet of the first kind, which must be the one the wallet names. -/
def keypairFromWallet (wallet : PqWallet) : Except String P.mldsa65.SigningKey := do
  let seed ← wallet.seed
  let key := P.mldsa65.fromSeed seed
  require (eqIgnoreAsciiCase (hexEncode (K.encode (P.mldsa65.verifyingKey key)).toList) wallet.publicKeyHex)
    "wallet public key does not match stored seed"
  return key

variable (P) in
def keypairFromWalletV2 (wallet : PqWallet) : Except String P.mldsa65.SigningKey := wallet.seed.map P.mldsa65.fromSeed

/-- What both signing functions do with their key pair. -/
def signWith (wallet : PqWallet) (key : P.mldsa65.SigningKey) (payload : Bytes) : Except String LedgerSignatureRef := do
  let sig ← okOr "ML-DSA signing failed" (P.mldsa65.signDeterministic key payload pqContext)
  require (P.mldsa65.verifyWithContext (P.mldsa65.verifyingKey key) payload pqContext sig)
    "ML-DSA self-verification failed"
  let signatureHex := hexEncode (P.mldsa65.encode sig).toList
  let payloadHash := hashHex P .current payload
  let signatureDigest := computeSignatureDigestHex P .current wallet.keyId payloadHash signatureHex
  files.saveSignature
  return {
    algorithm := "ml_dsa65"
    keyId := wallet.keyId
    publicKeyHex := some wallet.publicKeyHex
    payloadHash
    signatureHex
    signatureDigest
    createdAt := files.now
    hashAlgorithm := some HashAlgorithm.current.asStr }

def signPqPayload (payload : Bytes) : Except String LedgerSignatureRef :=
  if files.v1Exists then do
    let wallet ← files.loadWallet
    let key ← keypairFromWallet K wallet
    signWith files wallet key payload
  else if files.v2Exists then .error "v2 wallet requires unlocked Sign scope key; unlock crypto and retry"
  else .error "no PQ wallet found. Run: agenthalo keygen --pq (or --force to rotate)"

variable (P) in
def signPqPayloadV2 (signScopeKey : Vector UInt8 32) (payload : Bytes) : Except String LedgerSignatureRef := do
  let wallet ← files.loadWalletV2 signScopeKey
  let key ← keypairFromWalletV2 P wallet
  signWith files wallet key payload

/-- Try the first kind of wallet, then the second if there is a scope key for it. -/
def trySignEntryHashWithKey (entryHash : String) (signScopeKey : Option (Vector UInt8 32)) : Option LedgerSignatureRef :=
  if !files.hasWallet then none
  else
    match signPqPayload K files (utf8 (entrySignaturePayload entryHash)) with
    | .ok sig => some sig
    | .error _ => signScopeKey.bind fun key => (signPqPayloadV2 P files key (utf8 (entrySignaturePayload entryHash))).toOption

end Signing

/-! ### The file -/

/-- How `serde_json` writes and reads an entry. -/
structure LedgerLines (F : LedgerFormat) where
  entryToString : IdentityLedgerEntry F → Except String String
  entryFromStr : String → Except String (IdentityLedgerEntry F)

/-- What the file system answers to a write of one line. -/
inductive WriteAnswer where
  | done
  /-- The write fails after so many characters. -/
  | failed (written : Nat) (error : String)

/-- What the operating system answers during an append. -/
structure AppendAnswers where
  lockPoisoned : Bool
  ensureHaloDir : Except String Unit
  openForRead : Except String Unit
  readLine : Nat → Except String Unit
  openForAppend : Except String Unit
  write : WriteAnswer

/-- The environment of an append: the variables of the verifier, the wallets, and the path of the ledger. -/
structure AppendEnv where
  vars : LedgerEnv
  wallets : WalletFiles
  path : String

/-- The verifier looks at the wallet of the first kind. -/
def AppendEnv.ledgerEnv (env : AppendEnv) : LedgerEnv :=
  { env.vars with walletIdentity := env.wallets.walletKeyIdentity.toOption.join }

section File

variable {F : LedgerFormat} (L : LedgerLines F)

/-- The loop of `load_entries` from one line on. -/
def loadFrom (path : String) (readLine : Nat → Except String Unit) :
    Nat → List (List Char) → Except String (List (IdentityLedgerEntry F))
  | _, [] => .ok []
  | idx, line :: rest =>
    match readLine idx with
    | .error e => .error ("read identity social ledger line " ++ toString (idx + 1) ++ ": " ++ e)
    | .ok () =>
      if trim (String.ofList line) = "" then loadFrom path readLine (idx + 1) rest
      else
        match L.entryFromStr (String.ofList line) with
        | .error e =>
          .error ("parse identity social ledger line " ++ toString (idx + 1) ++ " at " ++ path ++ ": " ++ e)
        | .ok entry => (loadFrom path readLine (idx + 1) rest).map (entry :: ·)

/-- `none` is no file. -/
def loadEntries (path : String) (openForRead : Except String Unit) (readLine : Nat → Except String Unit)
    (file : Option (List Char)) : Except String (List (IdentityLedgerEntry F)) :=
  match file with
  | none => .ok []
  | some text =>
    match openForRead with
    | .error e => .error ("open identity social ledger " ++ path ++ ": " ++ e)
    | .ok () => loadFrom L path readLine 0 (lines text)

/-- The ledger in a file: what is read from it when nothing fails. -/
def ledgerOf (path : String) (file : Option (List Char)) : Except String (List (IdentityLedgerEntry F)) :=
  loadEntries L path (.ok ()) (fun _ => .ok ()) file

end File

/-! ### Appending -/

section Append

variable {P : Platform} (K : PqKeyCodec P) {F : LedgerFormat} (L : LedgerLines F) (env : AppendEnv)

/-- A completed genesis entry with a signature. -/
def pinsSigner (e : IdentityLedgerEntry F) : Bool :=
  decide (e.kind = .genesisEntropyHarvested) && eqIgnoreAsciiCase e.status "completed" && e.signature.isSome

/-- The key that signed the first completed genesis entry. -/
def pinnedSigner (vars : LedgerEnv) (walletIdentity : Option (String × String))
    (entries : List (IdentityLedgerEntry F)) : Option String :=
  ((entries.find? pinsSigner).bind (·.signature)).bind fun sig =>
    (resolveSignaturePublicKey vars walletIdentity sig).toOption

/-- The entry as it is written: its number, its link, its hash and its signature. -/
def sealedEntry (entries : List (IdentityLedgerEntry F)) (event : IdentityLedgerEntry F)
    (signScopeKey : Option (Vector UInt8 32)) : IdentityLedgerEntry F :=
  let entry := { event with
    seq := (entries.getLast?.map fun e => nextSeq e.seq).getD 1
    prevHash := entries.getLast?.map (·.entryHash)
    hashAlgorithm := some HashAlgorithm.current.asStr }
  let entryHash := computeEntryHash P entry
  { entry with entryHash, signature := trySignEntryHashWithKey K env.wallets entryHash signScopeKey }

/-- The wallet that the pinned signer is looked up in. -/
def AppendEnv.walletIdentity (signScopeKey : Option (Vector UInt8 32)) : Option (String × String) :=
  env.wallets.walletKeyIdentity.toOption.join.or
    (signScopeKey.bind fun key => (env.wallets.walletKeyIdentityV2 key).toOption.join)

/-- No other than the pinned signer may sign. -/
def checkPinned (walletIdentity : Option (String × String)) (pinned : Option String) (signature : Option LedgerSignatureRef) :
    Except String Unit :=
  match pinned, signature with
  | some pinnedKey, some sig => do
    let signerPublicKey ← resolveSignaturePublicKey env.vars walletIdentity sig
    require (eqIgnoreAsciiCase signerPublicKey pinnedKey) ("refusing ledger append signed by unpinned key_id " ++ sig.keyId
      ++ " (expected genesis signer " ++ pinnedKey ++ ")")
  | _, _ => .ok ()

/-- Everything up to the first write: the ledger as it was, the new entry and its line. -/
def prepare (os : AppendAnswers) (file : Option (List Char)) (event : IdentityLedgerEntry F)
    (signScopeKey : Option (Vector UInt8 32)) :
    Except String (List (IdentityLedgerEntry F) × IdentityLedgerEntry F × String) := do
  require (!os.lockPoisoned) "identity ledger append lock poisoned"
  os.ensureHaloDir
  let entries ← loadEntries L env.path os.openForRead os.readLine file
  verifyChain K env.ledgerEnv entries
  let walletIdentity := env.walletIdentity signScopeKey
  let entry := sealedEntry K env entries event signScopeKey
  require (!(decide (entry.kind = .genesisEntropyHarvested) && entry.signature.isNone))
    "genesis entries require a PQ wallet signature"
  checkPinned env walletIdentity (pinnedSigner env.vars walletIdentity entries) entry.signature
  let line ← (L.entryToString entry).mapError fun e => "serialize identity ledger entry: " ++ e
  return (entries, entry, line)

/-- The outcome of an append and the file it leaves. -/
def appendEntryWithKey (os : AppendAnswers) (file : Option (List Char)) (event : IdentityLedgerEntry F)
    (signScopeKey : Option (Vector UInt8 32)) : Except String (IdentityLedgerEntry F) × Option (List Char) :=
  match prepare K L env os file event signScopeKey with
  | .error e => (.error e, file)
  | .ok (entries, entry, line) =>
    match os.openForAppend with
    | .error e => (.error ("open identity social ledger " ++ env.path ++ ": " ++ e), file)
    | .ok () =>
      match os.write with
      | .failed written e =>
        (.error ("append identity social ledger: " ++ e),
          some (file.getD [] ++ (line.toList ++ ['\n']).take written))
      | .done =>
        let file := some (file.getD [] ++ (line.toList ++ ['\n']))
        match verifyChain K env.ledgerEnv (entries ++ [entry]) with
        | .error e => (.error e, file)
        | .ok () => (.ok entry, file)

end Append

end AgentHalo.Identity
