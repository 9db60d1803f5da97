import AgentHalo.Base.Scan
import AgentHalo.Engine.Protocol
import AgentHalo.Lib.HashTree

/-!
# Payment channels over the key-value state

The settlement adapter keeps payment channels in a `NucleusDb`: a channel of `a` and `b` lives under keys that start with
`channel:a:b`, and every operation writes its fields under the next sequence number. Which channels there are, and at which
number each stands, is read back by scanning the names of all keys. Keys are registered before the writes are committed.
`apply` answers `none` for a panic, which only the commitment backend can raise; sequence numbers wrap around.
-/

namespace AgentHalo.Pcn

open Text (utf8 startsWith endsWith after stripPrefix splitOnce parseU64 trimEndMatchesStr toLeBytes toBeBytes fromLeBytes)
open Engine (NucleusDb CommitError)
open Transparency (nodeHash)

/-! ### Schema -/

inductive ChannelStatus where
  | open_
  | closing
  | closed
deriving DecidableEq, Repr

structure ChannelRecord where
  participant1 : String
  participant2 : String
  capacity : UInt64
  status : ChannelStatus
  createdAt : UInt64
  lastSeq : UInt64
deriving DecidableEq, Repr

inductive SettlementOp where
  | open_ (p1 p2 : String) (capacity : UInt64)
  | close (p1 p2 : String)
  | splice (p1 p2 : String) (newCapacity : UInt64)
  | update (p1 p2 : String) (balance1 balance2 : UInt64)
deriving DecidableEq, Repr

inductive PcnError where
  | channelAlreadyExists
  | channelMissing
  | channelNotOpen
  | invalidConservation (left right capacity : UInt64)
  | commit (e : CommitError)
deriving DecidableEq, Repr

structure ChannelOpView where
  seq : UInt64
  kind : String
deriving DecidableEq, Repr

structure ChannelSnapshot where
  record : ChannelRecord
  balance1 : UInt64
  balance2 : UInt64
  ops : List ChannelOpView
deriving DecidableEq, Repr

structure PcnComplianceWitness where
  feasibilityRoot : NodeHash
  replaySeq : UInt64
  channelCount : UInt64
  validChannels : UInt64
  invalidChannels : UInt64
deriving DecidableEq

/-! ### Names and codes -/

def canonicalPair (p1 p2 : String) : String × String := if p1 ≤ p2 then (p1, p2) else (p2, p1)

def channelBase (p1 p2 : String) : String :=
  let (a, b) := canonicalPair p1 p2
  "channel:" ++ a ++ ":" ++ b

def statusCode : ChannelStatus → UInt64
  | .open_ => 1
  | .closing => 2
  | .closed => 3

def statusFromCode (v : UInt64) : ChannelStatus :=
  if v = 1 then .open_ else if v = 2 then .closing else if v = 3 then .closed else .open_

def opCode : SettlementOp → UInt64
  | .open_ .. => 1
  | .close .. => 2
  | .splice .. => 3
  | .update .. => 4

def opName (code : UInt64) : String :=
  if code = 1 then "open" else if code = 2 then "close" else if code = 3 then "splice" else if code = 4 then "update"
  else "unknown"

def saturatingAdd (a b : UInt64) : UInt64 := if a.toNat + b.toNat < 2 ^ 64 then a + b else 0xFFFFFFFFFFFFFFFF

def saturatingSub (a b : UInt64) : UInt64 := if b ≤ a then a - b else 0

/-! ### Digests -/

section Digests

variable (P : Platform)

def complianceLeaf (base : String) (seq capacity balance1 balance2 : UInt64) (status : ChannelStatus)
    (feasible : Bool) : NodeHash :=
  P.sha256 (0x00 :: (utf8 "nucleusdb.pcn.compliance.v1|" ++ utf8 base ++ [0] ++ toBeBytes seq ++ toBeBytes capacity
    ++ toBeBytes balance1 ++ toBeBytes balance2 ++ toBeBytes (statusCode status) ++ [if feasible then 1 else 0]))

/-- Layers are paired up until one node is left; a last node without a partner is promoted. -/
def complianceMerkleRoot (leaves : List NodeHash) : NodeHash :=
  match leaves with
  | [] => Vector.replicate 32 0
  | [leaf] => leaf
  | x :: y :: rest => complianceMerkleRoot (Layers.pairUp (nodeHash P) (x :: y :: rest))
termination_by leaves.length
decreasing_by simp only [Layers.length_pairUp, List.length_cons]; omega

/-- The word that marks a channel as existing. -/
def recordSentinel (record : ChannelRecord) : UInt64 :=
  fromLeBytes (P.sha256 (utf8 "nucleusdb.pcn.channel_record.v1|" ++ utf8 record.participant1 ++ [0]
    ++ utf8 record.participant2 ++ toLeBytes record.capacity ++ toLeBytes (statusCode record.status)
    ++ toLeBytes record.createdAt ++ toLeBytes record.lastSeq)).toList

end Digests

/-! ### Reading the store -/

variable {P : Platform}

def valueAt (db : NucleusDb P) (key : String) : Option UInt64 := (db.keymap.get key).bind fun idx => db.state.values[idx]?

def parseSeqFromKey (pre key : String) : Option UInt64 :=
  if !startsWith key pre then none else parseU64 (after pre key)

/-- One key in the first loop of `latest_seq`. -/
def scanWhole (base : String) (best : UInt64) (entry : String × Nat) : UInt64 :=
  match parseSeqFromKey (base ++ ":state:") entry.1 with
  | some raw =>
    let seq := ((stripPrefix entry.1 (base ++ ":state:" ++ toString raw ++ ":")).map fun _ => raw).getD 0
    if seq > best then seq else best
  | none => best

/-- One key in the second loop, for keys in which the sequence number is followed by a field. -/
def scanField (base : String) (best : UInt64) (entry : String × Nat) : UInt64 :=
  let pre := base ++ ":state:"
  if !startsWith entry.1 pre then best
  else
    match splitOnce ':' (after pre entry.1) with
    | some (seqStr, _) =>
      match parseU64 seqStr with
      | some seq => max best seq
      | none => best
    | none => best

def latestSeq (db : NucleusDb P) (base : String) : UInt64 :=
  let best := db.keymap.allKeys.foldl (scanWhole base) 0
  if best > 0 then best else db.keymap.allKeys.foldl (scanField base) best

def capacityFor (db : NucleusDb P) (base : String) : Option UInt64 := valueAt db (base ++ ":meta:capacity")

def existsChannel (db : NucleusDb P) (base : String) : Bool := (valueAt db base).getD 0 != 0

/-! ### Operations -/

def putKey (writes : List (Nat × UInt64)) (db : NucleusDb P) (key : String) (value : UInt64) :
    List (Nat × UInt64) × NucleusDb P :=
  let (idx, keymap) := db.keymap.getOrCreate key
  (writes ++ [(idx, value)], { db with keymap })

def applyWrites (db : NucleusDb P) (writes : List (Nat × UInt64)) (now : Nat) :
    Option (Except PcnError Unit × NucleusDb P) :=
  match db.commit ⟨writes⟩ [] now with
  | none => none
  | some (.error e, db) => some (.error (.commit e), db)
  | some (.ok _, db) => some (.ok (), db)

def SettlementOp.apply (op : SettlementOp) (db : NucleusDb P) (createdAt : UInt64) (now : Nat) :
    Option (Except PcnError Unit × NucleusDb P) :=
  match op with
  | .open_ p1 p2 capacity =>
    let base := channelBase p1 p2
    if existsChannel db base then some (.error .channelAlreadyExists, db)
    else
      let db := db.setAppendOnly
      let record : ChannelRecord :=
        { participant1 := (canonicalPair p1 p2).1, participant2 := (canonicalPair p1 p2).2, capacity, status := .open_
          createdAt, lastSeq := 1 }
      let (writes, db) := putKey [] db base (recordSentinel P record)
      let (writes, db) := putKey writes db (base ++ ":meta:capacity") record.capacity
      let (writes, db) := putKey writes db (base ++ ":meta:created_at") record.createdAt
      let (writes, db) := putKey writes db (base ++ ":ops:1:kind") (opCode op)
      let (writes, db) := putKey writes db (base ++ ":state:1:status") (statusCode .open_)
      let (writes, db) := putKey writes db (base ++ ":state:1:b1") capacity
      let (writes, db) := putKey writes db (base ++ ":state:1:b2") 0
      applyWrites db writes now
  | .update p1 p2 balance1 balance2 =>
    let base := channelBase p1 p2
    if !existsChannel db base then some (.error .channelMissing, db)
    else
      match capacityFor db base with
      | none => some (.error .channelMissing, db)
      | some cap =>
        if saturatingAdd balance1 balance2 ≠ cap then some (.error (.invalidConservation balance1 balance2 cap), db)
        else
          let curSeq := latestSeq db base
          if curSeq = 0 then some (.error .channelMissing, db)
          else if statusFromCode ((valueAt db (base ++ ":state:" ++ toString curSeq ++ ":status")).getD 1) ≠ .open_ then
            some (.error .channelNotOpen, db)
          else
            let nextSeq := curSeq + 1
            let (writes, db) := putKey [] db (base ++ ":ops:" ++ toString nextSeq ++ ":kind") (opCode op)
            let (writes, db) := putKey writes db (base ++ ":state:" ++ toString nextSeq ++ ":status") (statusCode .open_)
            let (writes, db) := putKey writes db (base ++ ":state:" ++ toString nextSeq ++ ":b1") balance1
            let (writes, db) := putKey writes db (base ++ ":state:" ++ toString nextSeq ++ ":b2") balance2
            applyWrites db writes now
  | .close p1 p2 =>
    let base := channelBase p1 p2
    if !existsChannel db base then some (.error .channelMissing, db)
    else
      let curSeq := latestSeq db base
      if curSeq = 0 then some (.error .channelMissing, db)
      else
        let b1 := (valueAt db (base ++ ":state:" ++ toString curSeq ++ ":b1")).getD 0
        let b2 := (valueAt db (base ++ ":state:" ++ toString curSeq ++ ":b2")).getD 0
        let nextSeq := curSeq + 1
        let (writes, db) := putKey [] db (base ++ ":ops:" ++ toString nextSeq ++ ":kind") (opCode op)
        let (writes, db) := putKey writes db (base ++ ":state:" ++ toString nextSeq ++ ":status") (statusCode .closed)
        let (writes, db) := putKey writes db (base ++ ":state:" ++ toString nextSeq ++ ":b1") b1
        let (writes, db) := putKey writes db (base ++ ":state:" ++ toString nextSeq ++ ":b2") b2
        applyWrites db writes now
  | .splice p1 p2 newCapacity =>
    let base := channelBase p1 p2
    if !existsChannel db base then some (.error .channelMissing, db)
    else
      let curSeq := latestSeq db base
      let b1 := (valueAt db (base ++ ":state:" ++ toString curSeq ++ ":b1")).getD 0
      let nextSeq := curSeq + 1
      let newB1 := min b1 newCapacity
      let newB2 := saturatingSub newCapacity newB1
      let (writes, db) := putKey [] db (base ++ ":ops:" ++ toString nextSeq ++ ":kind") (opCode op)
      let (writes, db) := putKey writes db (base ++ ":state:" ++ toString nextSeq ++ ":status") (statusCode .open_)
      let (writes, db) := putKey writes db (base ++ ":state:" ++ toString nextSeq ++ ":capacity") newCapacity
      let (writes, db) := putKey writes db (base ++ ":state:" ++ toString nextSeq ++ ":b1") newB1
      let (writes, db) := putKey writes db (base ++ ":state:" ++ toString nextSeq ++ ":b2") newB2
      applyWrites db writes now

/-! ### Views -/

/-- One key in the loop over the operations of a channel. -/
def indexOp (db : NucleusDb P) (base : String) (index : OrdMap UInt64 String) (entry : String × Nat) :
    OrdMap UInt64 String :=
  let pre := base ++ ":ops:"
  if !startsWith entry.1 pre || !endsWith entry.1 ":kind" then index
  else
    match splitOnce ':' (after pre entry.1) with
    | none => index
    | some (seqStr, _) =>
      match parseU64 seqStr with
      | none => index
      | some opSeq => index.insert opSeq (opName (db.state.values[entry.2]?.getD 0))

/-- The operations of a channel by sequence number. -/
def opIndex (db : NucleusDb P) (base : String) : OrdMap UInt64 String := db.keymap.allKeys.foldl (indexOp db base) ∅

def channelSnapshot (db : NucleusDb P) (p1 p2 : String) : Option ChannelSnapshot :=
  let base := channelBase p1 p2
  if !existsChannel db base then none
  else
    match capacityFor db base with
    | none => none
    | some capacity =>
      let createdAt := (valueAt db (base ++ ":meta:created_at")).getD 0
      let seq := latestSeq db base
      if seq = 0 then none
      else
        let status := statusFromCode ((valueAt db (base ++ ":state:" ++ toString seq ++ ":status")).getD 1)
        let balance1 := (valueAt db (base ++ ":state:" ++ toString seq ++ ":b1")).getD 0
        let balance2 := (valueAt db (base ++ ":state:" ++ toString seq ++ ":b2")).getD 0
        let (a, b) := canonicalPair p1 p2
        some {
          record := { participant1 := a, participant2 := b, capacity, status, createdAt, lastSeq := seq }
          balance1, balance2
          ops := (opIndex db base).toList.map fun (seq, kind) => ⟨seq, kind⟩ }

/-- The channels a compliance witness is about, sorted and without repetitions. -/
def channelBases (db : NucleusDb P) : List String :=
  let found := db.keymap.allKeys.filterMap fun (key, _) =>
    if !startsWith key "channel:" || !endsWith key ":meta:capacity" then none
    else
      let base := trimEndMatchesStr ":meta:capacity" key
      if existsChannel db base then some base else none
  (found.mergeSort fun a b => decide (a ≤ b)).destutter (· ≠ ·)

structure Tally where
  replaySeq : UInt64
  valid : UInt64
  invalid : UInt64
  leaves : List NodeHash

def tallyChannel (db : NucleusDb P) (tally : Tally) (base : String) : Tally :=
  let seq := latestSeq db base
  if seq = 0 then tally
  else
    let cap := (valueAt db (base ++ ":meta:capacity")).getD 0
    let status := statusFromCode ((valueAt db (base ++ ":state:" ++ toString seq ++ ":status")).getD 1)
    let b1 := (valueAt db (base ++ ":state:" ++ toString seq ++ ":b1")).getD 0
    let b2 := (valueAt db (base ++ ":state:" ++ toString seq ++ ":b2")).getD 0
    let feasible := saturatingAdd b1 b2 == cap
    { replaySeq := max tally.replaySeq seq
      valid := if feasible then tally.valid + 1 else tally.valid
      invalid := if feasible then tally.invalid else tally.invalid + 1
      leaves := tally.leaves ++ [complianceLeaf P base seq cap b1 b2 status feasible] }

def complianceWitness (db : NucleusDb P) : PcnComplianceWitness :=
  let bases := channelBases db
  let tally := bases.foldl (tallyChannel db) ⟨0, 0, 0, []⟩
  { feasibilityRoot := complianceMerkleRoot P tally.leaves
    replaySeq := tally.replaySeq
    channelCount := UInt64.ofNat bases.length
    validChannels := tally.valid
    invalidChannels := tally.invalid }

end AgentHalo.Pcn
