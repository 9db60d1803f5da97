import AgentHalo.Engine.Chain
import AgentHalo.Transparency.Consistency

/-!
# Commit evidence and its replay

`commitWithEvidence` exports a commit as a text record: hexadecimal roots, the signed head, the witness signatures, and
a consistency proof from the previous head. An auditor replays the records with `replayVerifyEvidence`, which parses
everything back and rechecks heights, heads, links, consistency and quorum. The auditor rejects an empty list.
-/

namespace AgentHalo.Audit

open Engine Engine.NucleusDb
open Text (hexEncode decodeHexExact)
open Transparency (ConsistencyProof hasher verifyConsistencyProof sthSignature)

variable {P : Platform}

structure ConsistencyEvidence where
  oldSize : Nat
  newSize : Nat
  oldRoot : String
  newRoot : String
  proof : List String
deriving DecidableEq, Repr

structure CommitEvidence where
  height : Nat
  prevStateRoot : String
  stateRoot : String
  deltaDigest : UInt64
  certDigest : UInt64
  sheafCoherenceDigest : UInt64
  vcBackendId : String
  vcSchemeId : String
  vcDomainSeparator : String
  vcMaxDegree : Nat
  sthSize : Nat
  sthRoot : String
  sthTimestampUnixSecs : Nat
  sthSig : String
  witnessSignatureAlgorithm : String
  witnessSigs : List (String × String)
  consistencyWithPrev : Option ConsistencyEvidence
deriving DecidableEq, Repr

inductive ReplayError where
  | emptyEvidence
  | heightMismatch (expected got : Nat)
  | prevRootMismatch (expected got : String)
  | sthSizeMismatch (expected got : Nat)
  | invalidSthSignature (expected got : String)
  | invalidHashHex (height : Nat)
  | missingConsistencyEvidence (height : Nat)
  | unexpectedConsistencyEvidenceAtGenesis
  | invalidConsistencyEvidence (height : Nat)
  | invalidWitnessSignatureAlgorithm (height : Nat) (got : String)
  | invalidVcBackend (height : Nat) (got : String)
  | witnessQuorumFailed (height : Nat)
deriving DecidableEq, Repr

/-! ### Writing evidence -/

/-- The consistency part of a record, present when both the previous entry and the proof are. -/
def consistencyEvidence (prev : Option CommitEntry) (entry : CommitEntry)
    (consistencyWithPrev : Option (ConsistencyProof NodeHash)) : Option ConsistencyEvidence :=
  match prev, consistencyWithPrev with
  | some prevEntry, some p =>
    some { oldSize := p.oldSize
           newSize := p.newSize
           oldRoot := hexEncode prevEntry.sth.rootHash.toList
           newRoot := hexEncode entry.sth.rootHash.toList
           proof := p.path.map fun h => hexEncode h.toList }
  | _, _ => none

def CommitEvidence.fromEntry (prev : Option CommitEntry) (entry : CommitEntry)
    (consistencyWithPrev : Option (ConsistencyProof NodeHash)) : CommitEvidence where
  height := entry.height
  prevStateRoot := hexEncode entry.prevStateRoot.toList
  stateRoot := hexEncode entry.stateRoot.toList
  deltaDigest := entry.deltaDigest
  certDigest := entry.certDigest
  sheafCoherenceDigest := entry.sheafCoherenceDigest
  vcBackendId := entry.vcBackendId
  vcSchemeId := entry.vcSchemeId
  vcDomainSeparator := entry.vcDomainSeparator
  vcMaxDegree := entry.vcMaxDegree
  sthSize := entry.sth.treeSize
  sthRoot := hexEncode entry.sth.rootHash.toList
  sthTimestampUnixSecs := entry.sth.timestampUnixSecs
  sthSig := entry.sth.sig
  witnessSignatureAlgorithm := entry.witnessSignatureAlgorithm
  witnessSigs := entry.witnessSigs
  consistencyWithPrev := consistencyEvidence prev entry consistencyWithPrev

def previousEntry (db : NucleusDb P) : Option CommitEntry :=
  if db.entries.length ≥ 2 then db.entries[db.entries.length - 2]? else none

def lastEvidence (db : NucleusDb P) (entry : CommitEntry) : CommitEvidence :=
  let prev := previousEntry db
  let consistencyWithPrev := prev.bind fun p => (db.consistencyFrom p.sth.treeSize).map (·.2)
  CommitEvidence.fromEntry prev entry consistencyWithPrev

def commitWithEvidence (db : NucleusDb P) (delta : Delta) (localViews : List LocalSection) (now : Nat) :
    Option (Except CommitError (CommitEntry × CommitEvidence) × NucleusDb P) :=
  match db.commit delta localViews now with
  | none => none
  | some (.error e, db') => some (.error e, db')
  | some (.ok entry, db') => some (.ok (entry, lastEvidence db' entry), db')

/-! ### Replaying evidence -/

def msgForEntry (e : CommitEvidence) : String :=
  commitMessage e.height e.prevStateRoot e.stateRoot e.sthRoot e.sthTimestampUnixSecs

def normalizeBackendId (e : CommitEvidence) : Option String :=
  if Text.trim e.vcBackendId ≠ "" then some (Text.trim e.vcBackendId)
  else
    let scheme := Text.trim e.vcSchemeId
    if scheme = "ipa" then some "ipa" else if scheme = "kzg" then some "kzg" else none

/-- The checks every record undergoes, up to the signature algorithm they establish. -/
def checkHeader (P : Platform) (i : Nat) (e : CommitEvidence) : Except ReplayError WitnessSignatureAlgorithm :=
  if e.height ≠ i + 1 then .error (.heightMismatch (i + 1) e.height)
  else if e.sthSize ≠ e.height then .error (.sthSizeMismatch e.height e.sthSize)
  else
    match decodeHexExact 32 e.sthRoot with
    | none => .error (.invalidHashHex e.height)
    | some sthRoot =>
      let expectedSig := sthSignature P e.sthSize sthRoot e.sthTimestampUnixSecs
      if e.sthSig ≠ expectedSig then .error (.invalidSthSignature expectedSig e.sthSig)
      else if Text.trim e.vcSchemeId = "" ∨ Text.trim e.vcDomainSeparator = "" then
        .error (.invalidConsistencyEvidence e.height)
      else if e.vcMaxDegree = 0 then .error (.invalidConsistencyEvidence e.height)
      else
        match normalizeBackendId e with
        | none => .error (.invalidVcBackend e.height e.vcBackendId)
        | some backendId =>
          if backendId ≠ "ipa" ∧ backendId ≠ "kzg" ∧ backendId ≠ "binary_merkle" then
            .error (.invalidVcBackend e.height backendId)
          else
            match parseAlgorithmTag e.witnessSignatureAlgorithm with
            | .error _ => .error (.invalidWitnessSignatureAlgorithm e.height e.witnessSignatureAlgorithm)
            | .ok sigAlg => .ok sigAlg

def decodePath (height : Nat) : List String → Except ReplayError (List NodeHash)
  | [] => .ok []
  | nodeHex :: rest =>
    match decodeHexExact 32 nodeHex with
    | none => .error (.invalidHashHex height)
    | some node =>
      match decodePath height rest with
      | .error e => .error e
      | .ok path => .ok (node :: path)

/-- The link from the previous record: the state roots and the consistency of the two heads. -/
def checkLink (P : Platform) (prev e : CommitEvidence) : Except ReplayError Unit :=
  if e.prevStateRoot ≠ prev.stateRoot then .error (.prevRootMismatch prev.stateRoot e.prevStateRoot)
  else
    match e.consistencyWithPrev with
    | none => .error (.missingConsistencyEvidence e.height)
    | some c =>
      if c.oldSize ≠ prev.sthSize ∨ c.newSize ≠ e.sthSize then .error (.invalidConsistencyEvidence e.height)
      else if c.oldRoot ≠ prev.sthRoot ∨ c.newRoot ≠ e.sthRoot then .error (.invalidConsistencyEvidence e.height)
      else
        match decodeHexExact 32 c.oldRoot with
        | none => .error (.invalidHashHex e.height)
        | some oldRoot =>
          match decodeHexExact 32 c.newRoot with
          | none => .error (.invalidHashHex e.height)
          | some newRoot =>
            match decodePath e.height c.proof with
            | .error err => .error err
            | .ok path =>
              if !verifyConsistencyProof (hasher P) ⟨c.oldSize, c.newSize, path⟩ oldRoot newRoot then
                .error (.invalidConsistencyEvidence e.height)
              else .ok ()

/-- The genesis record has nothing to be consistent with. -/
def checkGenesis (e : CommitEvidence) : Except ReplayError Unit :=
  if e.consistencyWithPrev.isSome then .error .unexpectedConsistencyEvidenceAtGenesis else .ok ()

/-- The checks that depend on the record before, absent at the first. -/
def checkPosition (P : Platform) (prev : Option CommitEvidence) (e : CommitEvidence) : Except ReplayError Unit :=
  match prev with
  | none => checkGenesis e
  | some prev => checkLink P prev e

/-- One round of the replay loop; `prev` is the record before, absent at the first. -/
def checkRecord (cfg : WitnessConfig P) (i : Nat) (prev : Option CommitEvidence) (e : CommitEvidence) :
    Except ReplayError Unit :=
  match checkHeader P i e with
  | .error err => .error err
  | .ok sigAlg =>
    match checkPosition P prev e with
    | .error err => .error err
    | .ok () =>
      if !verifyQuorumForAlgorithm cfg sigAlg (msgForEntry e) e.witnessSigs then .error (.witnessQuorumFailed e.height)
      else .ok ()

def replayFrom (cfg : WitnessConfig P) (i : Nat) (prev : Option CommitEvidence) :
    List CommitEvidence → Except ReplayError Unit
  | [] => .ok ()
  | e :: rest =>
    match checkRecord cfg i prev e with
    | .error err => .error err
    | .ok () => replayFrom cfg (i + 1) (some e) rest

def replayVerifyEvidence (evidence : List CommitEvidence) (cfg : WitnessConfig P) : Except ReplayError Unit :=
  if evidence.isEmpty then .error .emptyEvidence else replayFrom cfg 0 none evidence

end AgentHalo.Audit
