import AgentHalo.Engine.State
import AgentHalo.Engine.Vc
import AgentHalo.Store.Blobs

/-!
# The commit protocol

`NucleusDb` is the database: the committed state, the key map and the typed stores beside it, the commit history, and
the transparency log with its head. `commit` is the one long transition. It runs in the order of the source, and its
stages have names here: the checks that write nothing (`precheck`), the roots (`roots`), the log leaf and the new head
(`stage`), the signatures and their quorum, the installed state, the refinement check, the new entry, and the seal. A
failure returns the database as it stands at that stage. `none` is a panic, which only the commitment backend can raise.

The wall clock is an argument: a commit reads it once for the tree head, and each typed store reads it for itself.
-/

/-!
## Sheaf coherence of local views

A commit may come with local views of the store. They cohere when no two of them give one key different values; the
digest summarises the keys seen and the keys in conflict.
-/

namespace AgentHalo.Engine

structure LocalSection where
  lensId : String
  kv : OrdMap String UInt64

structure SheafCoherenceProof where
  coherent : Bool
  conflicts : List String
  digest : UInt64
deriving DecidableEq, Repr

/-- What the scan has collected: the first value seen for each key, and the keys in conflict. -/
structure SheafScan where
  seen : OrdMap String UInt64
  conflicts : OrdMap String Unit

def SheafScan.visit (scan : SheafScan) (entry : String × UInt64) : SheafScan :=
  match scan.seen[entry.1]? with
  | some existing =>
    if existing ≠ entry.2 then { scan with conflicts := scan.conflicts.insert entry.1 () } else scan
  | none => { scan with seen := scan.seen.insert entry.1 entry.2 }

def keyLen (key : String) : UInt64 := UInt64.ofNat (Text.utf8 key).length

def buildSheafCoherence (localViews : List LocalSection) : SheafCoherenceProof :=
  let scan := localViews.foldl (fun scan view => view.kv.toList.foldl SheafScan.visit scan) ⟨∅, ∅⟩
  let conflicts := scan.conflicts.toList.map (·.1)
  let seenDigest := (scan.seen.toList.map (·.1)).zipIdx.foldl
    (fun digest (key, i) => digest ^^^ (keyLen key * (UInt64.ofNat i + 11))) 0
  let digest := conflicts.zipIdx.foldl
    (fun digest (key, i) => digest + keyLen key * (UInt64.ofNat i + 101)) seenDigest
  { coherent := scan.conflicts.isEmpty, conflicts, digest }

def verifySheafCoherence (_global : State) (pf : SheafCoherenceProof) : Bool := pf.coherent && pf.conflicts.isEmpty

end AgentHalo.Engine

namespace AgentHalo.Engine

open Text (utf8 hexEncode)
open Store (KeyMap TypeMap BlobStore VectorIndex TypedValue)
open Transparency (SignedTreeHead ConsistencyProof makeSth leafHash hasher makeConsistencyProof)

inductive VcBackend where
  | ipa
  | kzg
  | binaryMerkle
deriving DecidableEq, Repr

namespace VcBackend

def profile : VcBackend → VcProfile
  | .ipa => .ipa
  | .kzg => .kzg
  | .binaryMerkle => .binaryMerkle

def backendId : VcBackend → String
  | .ipa => "ipa"
  | .kzg => "kzg"
  | .binaryMerkle => "binary_merkle"

end VcBackend

structure CommitEntry where
  height : Nat
  prevStateRoot : NodeHash
  stateRoot : NodeHash
  deltaDigest : UInt64
  certDigest : UInt64
  sheafCoherenceDigest : UInt64
  vcBackendId : String
  vcSchemeId : String
  vcDomainSeparator : String
  vcMaxDegree : Nat
  sth : SignedTreeHead
  witnessSignatureAlgorithm : String
  witnessSigs : List (String × String)
  identityLedgerHeadHash : Option String
deriving DecidableEq, Repr

inductive CommitError where
  | sheafIncoherent
  | witnessQuorumFailed
  | emptyWitnessSet
  | witnessSigningFailed (e : WitnessError)
  | securityPolicyInvalid (e : SecurityPolicyError)
  | securityRefinementFailed (e : RefinementError)
  | monotoneViolation
deriving DecidableEq, Repr

/-- The identity ledger of this build is a stub: it has no head and no completed genesis. -/
def latestHeadHash : Except String (Option String) := .ok none

def latestCompletedGenesisHash : Except String (Option String) := .ok none

/-- Readings of the wall clock by the two typed stores during one call. -/
structure Clock where
  blob : Nat
  vector : Nat
deriving DecidableEq, Repr

structure NucleusDb (P : Platform) where
  backend : VcBackend
  state : State
  keymap : KeyMap
  entries : List CommitEntry
  witnessCfg : WitnessConfig P
  securityParams : ParameterSet
  reductionContracts : List ReductionContract
  kzgTrustedSetup : Option TrustedSetupArtifact
  ctLeaves : List NodeHash
  currentSth : Option SignedTreeHead
  writeMode : WriteMode
  monotoneSeals : List NodeHash
  typeMap : TypeMap
  blobStore : BlobStore P.f64
  vectorIndex : VectorIndex P.f64

namespace NucleusDb

variable {P : Platform}

/-! ### Opening a database -/

def loadKzgSetupIfRequired (P : Platform) (backend : VcBackend) (params : ParameterSet) :
    Except SecurityPolicyError (Option TrustedSetupArtifact) :=
  if backend ≠ .kzg ∨ !params.requireKzgTrustedSetup then .ok none
  else
    match params.kzgTrustedSetupId, params.kzgTrustedSetupPath, params.kzgTrustedSetupAttestationSha512 with
    | none, _, _ => .error (.parameter .missingKzgTrustedSetup)
    | some _, none, _ => .error (.parameter .missingKzgTrustedSetupPath)
    | some _, some _, none => .error (.parameter .missingKzgTrustedSetupAttestation)
    | some setupId, some setupPath, some attestation =>
      match Vc.loadAndValidateTrustedSetup P setupPath setupId attestation with
      | .error e => .error (.kzgTrustedSetup e)
      | .ok setup =>
        if params.maxVectorLen > setup.maxDegree then
          .error (.kzgSetupDegreeInsufficient setup.setupId setup.maxDegree params.maxVectorLen)
        else .ok (some setup)

def fresh (initial : State) (backend : VcBackend) (witnessCfg : WitnessConfig P) (securityParams : ParameterSet)
    (reductionContracts : List ReductionContract) (kzgTrustedSetup : Option TrustedSetupArtifact) (clock : Clock) :
    NucleusDb P where
  backend := backend
  state := initial
  keymap := KeyMap.new
  entries := []
  witnessCfg := witnessCfg
  securityParams := securityParams
  reductionContracts := reductionContracts
  kzgTrustedSetup := kzgTrustedSetup
  ctLeaves := []
  currentSth := none
  writeMode := .normal
  monotoneSeals := []
  typeMap := TypeMap.new
  blobStore := BlobStore.new P.f64 clock.blob
  vectorIndex := VectorIndex.new P.f64 clock.vector

def withSecurity (initial : State) (backend : VcBackend) (witnessCfg : WitnessConfig P) (securityParams : ParameterSet)
    (reductionContracts : List ReductionContract) (clock : Clock) : Except SecurityPolicyError (NucleusDb P) :=
  match validateParameters securityParams backend.profile witnessCfg with
  | .error e => .error (.parameter e)
  | .ok () =>
    match validateReductionContracts reductionContracts with
    | .error e => .error e
    | .ok () =>
      match loadKzgSetupIfRequired P backend securityParams with
      | .error e => .error e
      | .ok setup => .ok (fresh initial backend witnessCfg securityParams reductionContracts setup clock)

def defaultParams (backend : VcBackend) : ParameterSet :=
  { ParameterSet.default with
    commitmentPolicy := defaultCommitmentPolicy backend.profile ParameterSet.default.maxVectorLen }

/-- `none` is the panic of the `expect` on the default parameters. -/
def new (initial : State) (backend : VcBackend) (witnessCfg : WitnessConfig P) (clock : Clock) :
    Option (NucleusDb P) :=
  (withSecurity initial backend witnessCfg (defaultParams backend) (defaultReductionContracts backend.profile)
    clock).toOption

def setAppendOnly (db : NucleusDb P) : NucleusDb P := { db with writeMode := .appendOnly }

/-! ### Commit -/

/-- The root of a state vector; `none` is the panic of the trusted-setup path. -/
def stateRootFor (db : NucleusDb P) (vec : List UInt64) : Option NodeHash :=
  match db.backend with
  | .ipa => some (Vc.ipaRoot P vec)
  | .kzg =>
    match db.kzgTrustedSetup with
    | some setup => (Vc.kzgTrustedRoot P vec setup).toOption
    | none => some (Vc.kzgRoot P vec)
  | .binaryMerkle => some (Vc.binaryMerkleRoot P vec)

def ctLeafPayload (height : Nat) (prevStateRoot stateRoot : NodeHash)
    (deltaDigest certDigest sheafCoherenceDigest : UInt64) : String :=
  "nucleusdb.ct.leaf.v2|height=" ++ toString height ++ "|prev_state_root=" ++ hexEncode prevStateRoot.toList
    ++ "|state_root=" ++ hexEncode stateRoot.toList ++ "|delta_digest=" ++ toString deltaDigest
    ++ "|cert_digest=" ++ toString certDigest ++ "|sheaf_coherence_digest=" ++ toString sheafCoherenceDigest

/-- The checks of a commit that come before it writes anything. -/
def precheck (db : NucleusDb P) (delta : Delta) (localViews : List LocalSection) :
    Except CommitError (State × SheafCoherenceProof) :=
  match validateParameters db.securityParams db.backend.profile db.witnessCfg with
  | .error e => .error (.securityPolicyInvalid (.parameter e))
  | .ok () =>
    match validateReductionContracts db.reductionContracts with
    | .error e => .error (.securityPolicyInvalid e)
    | .ok () =>
      if db.witnessCfg.witnesses.isEmpty then .error .emptyWitnessSet
      else
        let next := apply db.state delta
        match validateCommitShape db.securityParams delta.writes.length next.values.length with
        | .error e => .error (.securityRefinementFailed e)
        | .ok () =>
          if db.writeMode = .appendOnly ∧ !verifyMonotoneExtension db.state db.keymap next db.keymap then
            .error .monotoneViolation
          else
            let sheafPf := buildSheafCoherence localViews
            if !verifySheafCoherence next sheafPf then .error .sheafIncoherent else .ok (next, sheafPf)

/-- The previous root, taken from the last entry when there is one, and the new root. -/
def roots (db : NucleusDb P) (next : State) : Option (NodeHash × NodeHash) :=
  match db.stateRootFor (materialize next) with
  | none => none
  | some stateRoot =>
    match db.entries.getLast? with
    | some e => some (e.stateRoot, stateRoot)
    | none => (db.stateRootFor (materialize db.state)).map fun prevRoot => (prevRoot, stateRoot)

/-- What a commit is about to record, before it is logged and signed. -/
structure Proposal where
  next : State
  height : Nat
  prevStateRoot : NodeHash
  stateRoot : NodeHash
  deltaDigest : UInt64
  certDigest : UInt64
  sheafCoherenceDigest : UInt64

def propose (db : NucleusDb P) (delta : Delta) (next : State) (sheafPf : SheafCoherenceProof)
    (prevRoot stateRoot : NodeHash) : Proposal :=
  let height := db.entries.length + 1
  { next, height, prevStateRoot := prevRoot, stateRoot
    deltaDigest := UInt64.ofNat delta.writes.length * 13
    certDigest := UInt64.ofNat height * 31
    sheafCoherenceDigest := sheafPf.digest }

def entryLeaf (P : Platform) (height : Nat) (prevStateRoot stateRoot : NodeHash)
    (deltaDigest certDigest sheafCoherenceDigest : UInt64) : NodeHash :=
  leafHash P (utf8 (ctLeafPayload height prevStateRoot stateRoot deltaDigest certDigest sheafCoherenceDigest))

def Proposal.leaf (P : Platform) (p : Proposal) : NodeHash :=
  entryLeaf P p.height p.prevStateRoot p.stateRoot p.deltaDigest p.certDigest p.sheafCoherenceDigest

/-- The leaf is pushed and the head renewed before any witness has signed. -/
def stage (db : NucleusDb P) (p : Proposal) (now : Nat) : NucleusDb P :=
  let ctLeaves := db.ctLeaves ++ [p.leaf P]
  { db with ctLeaves, currentSth := some (makeSth P ctLeaves now) }

/-- The head that `stage` installs. -/
def stagedSth (db : NucleusDb P) (p : Proposal) (now : Nat) : SignedTreeHead :=
  makeSth P (db.ctLeaves ++ [p.leaf P]) now

def commitMessage (height : Nat) (prevStateRoot stateRoot : String) (sthRoot : String) (timestamp : Nat) : String :=
  toString height ++ ":" ++ prevStateRoot ++ ":" ++ stateRoot ++ ":" ++ sthRoot ++ ":" ++ toString timestamp

def Proposal.message (p : Proposal) (sth : SignedTreeHead) : String :=
  commitMessage p.height (hexEncode p.prevStateRoot.toList) (hexEncode p.stateRoot.toList)
    (hexEncode sth.rootHash.toList) sth.timestampUnixSecs

def buildEntry (db : NucleusDb P) (p : Proposal) (sth : SignedTreeHead) (sigs : List (String × String)) :
    CommitEntry where
  height := p.height
  prevStateRoot := p.prevStateRoot
  stateRoot := p.stateRoot
  deltaDigest := p.deltaDigest
  certDigest := p.certDigest
  sheafCoherenceDigest := p.sheafCoherenceDigest
  vcBackendId := db.backend.backendId
  vcSchemeId := db.securityParams.commitmentPolicy.schemeId
  vcDomainSeparator := db.securityParams.commitmentPolicy.domainSeparator
  vcMaxDegree := db.securityParams.commitmentPolicy.maxDegree
  sth := sth
  witnessSignatureAlgorithm := db.witnessCfg.signingAlgorithm.asTag
  witnessSigs := sigs
  identityLedgerHeadHash := latestHeadHash.toOption.join

/-- Chain the next monotone seal onto an append-only database. -/
def pushSeal (db : NucleusDb P) : NucleusDb P :=
  if db.writeMode = .appendOnly then
    let kvDigest := keyValueDigest P db.state db.keymap
    let prevSeal := db.monotoneSeals.getLast?.getD
      (match latestCompletedGenesisHash with
        | .ok (some anchor) => genesisSealWithAnchor P anchor
        | _ => genesisSeal P)
    { db with monotoneSeals := db.monotoneSeals ++ [nextSeal P prevSeal kvDigest] }
  else db

/-- The part of a commit that follows the leaf push. -/
def settle (db : NucleusDb P) (p : Proposal) (sth : SignedTreeHead) : Except CommitError CommitEntry × NucleusDb P :=
  let msg := p.message sth
  match signAll db.witnessCfg msg (db.witnessCfg.witnesses.take db.witnessCfg.threshold) with
  | .error e => (.error (.witnessSigningFailed e), db)
  | .ok sigs =>
    if !verifyQuorumForAlgorithm db.witnessCfg db.witnessCfg.signingAlgorithm msg sigs then
      (.error .witnessQuorumFailed, db)
    else
      let db := { db with state := p.next }
      let entry := db.buildEntry p sth sigs
      match verifyPostCommitRefinement P p.height p.prevStateRoot entry.height entry.prevStateRoot entry.sth.treeSize
          entry.sth.rootHash entry.sth.timestampUnixSecs entry.sth.sig with
      | .error e => (.error (.securityRefinementFailed e), db)
      | .ok () => (.ok entry, { db with entries := db.entries ++ [entry] }.pushSeal)

def commit (db : NucleusDb P) (delta : Delta) (localViews : List LocalSection) (now : Nat) :
    Option (Except CommitError CommitEntry × NucleusDb P) :=
  match db.precheck delta localViews with
  | .error e => some (.error e, db)
  | .ok (next, sheafPf) =>
    match db.roots next with
    | none => none
    | some (prevRoot, stateRoot) =>
      let p := db.propose delta next sheafPf prevRoot stateRoot
      some ((db.stage p now).settle p (db.stagedSth p now))

def consistencyFrom (db : NucleusDb P) (oldSize : Nat) : Option (SignedTreeHead × ConsistencyProof NodeHash) :=
  match db.currentSth with
  | none => none
  | some newSth => (makeConsistencyProof (hasher P) db.ctLeaves oldSize).map fun proof => (newSth, proof)

/-! ### Typed values -/

/-- The typed stores are written here, before any commit; the caller commits the returned cell. -/
def putTyped (db : NucleusDb P) (key : String) (value : TypedValue P) (clock : Clock) :
    Except String (Nat × UInt64) × NucleusDb P :=
  let tag := value.tag
  let (cell, blob) := value.encode key
  let (indexed, vectorIndex) := match value with
    | .vector dims => db.vectorIndex.upsert key dims clock.vector
    | _ => (.ok (), db.vectorIndex.remove key)
  let db := { db with vectorIndex }
  match indexed with
  | .error e => (.error e, db)
  | .ok () =>
    let blobStore := match blob with
      | some blobData => BlobStore.put db.blobStore key blobData clock.blob
      | none => db.blobStore.remove key
    let (idx, keymap) := db.keymap.getOrCreate key
    (.ok (idx, cell), { db with blobStore, typeMap := db.typeMap.set key tag, keymap })

def getTyped (db : NucleusDb P) (key : String) : Option (TypedValue P) :=
  match db.keymap.get key with
  | none => none
  | some idx =>
    (TypedValue.decode (db.typeMap.get key) (db.state.cell idx) (BlobStore.get db.blobStore key)).toOption

end NucleusDb

end AgentHalo.Engine
