import AgentHalo.Engine.Verdict
import AgentHalo.Pcn.Views

/-!
# What one settlement does

`apply` decides first and writes afterwards. `plan` is the decision: an error, or the slots to write with their words.
`apply_cases` lists what can come of it: refused with the database as it was; refused by the commit, with the keys
registered and perhaps the state installed; or done. Later results start from there and do not open `apply` again.
-/

namespace AgentHalo.Pcn

open Engine (NucleusDb CommitError Delta)
open Engine.NucleusDb (commit_sameFrame commit_cases)
open Store (KeyMap)
open SettlementOp (open_ update close splice)

variable {P : Platform}

/-! ### The decision -/

def SettlementOp.base : SettlementOp → String
  | .open_ p1 p2 _ | .close p1 p2 | .splice p1 p2 _ | .update p1 p2 _ _ => channelBase p1 p2

def openRecord (p1 p2 : String) (capacity createdAt : UInt64) : ChannelRecord :=
  { participant1 := (canonicalPair p1 p2).1, participant2 := (canonicalPair p1 p2).2, capacity, status := .open_
    createdAt, lastSeq := 1 }

def openSlots (sentinel capacity createdAt : UInt64) : List (Slot × UInt64) :=
  [(.record, sentinel), (.capacity, capacity), (.createdAt, createdAt), (.kind 1, 1), (.state 1 .status, 1),
    (.state 1 .b1, capacity), (.state 1 .b2, 0)]

def stepSlots (op : SettlementOp) (seq : UInt64) (status : ChannelStatus) (b1 b2 : UInt64) : List (Slot × UInt64) :=
  [(.kind seq, opCode op), (.state seq .status, statusCode status), (.state seq .b1, b1), (.state seq .b2, b2)]

@[simp] theorem length_stepSlots (op : SettlementOp) (seq : UInt64) (status : ChannelStatus) (b1 b2 : UInt64) :
    (stepSlots op seq status b1 b2).length = 4 := rfl

/-- What an operation is going to write, or why it is refused. -/
def SettlementOp.plan (op : SettlementOp) (db : NucleusDb P) (createdAt : UInt64) :
    Except PcnError (List (Slot × UInt64)) :=
  let seq := latestSeq db op.base
  match op with
  | .open_ p1 p2 capacity =>
    if existsChannel db op.base then .error .channelAlreadyExists
    else .ok (openSlots (recordSentinel P (openRecord p1 p2 capacity createdAt)) capacity createdAt)
  | .update _ _ balance1 balance2 =>
    if !existsChannel db op.base then .error .channelMissing
    else
      match capacityFor db op.base with
      | none => .error .channelMissing
      | some cap =>
        if saturatingAdd balance1 balance2 ≠ cap then .error (.invalidConservation balance1 balance2 cap)
        else if seq = 0 then .error .channelMissing
        else if statusFromCode (word db ((Slot.state seq .status).key op.base)) ≠ .open_ then .error .channelNotOpen
        else .ok (stepSlots op (seq + 1) .open_ balance1 balance2)
  | .close .. =>
    if !existsChannel db op.base then .error .channelMissing
    else if seq = 0 then .error .channelMissing
    else .ok (stepSlots op (seq + 1) .closed (word db ((Slot.state seq .b1).key op.base))
      (word db ((Slot.state seq .b2).key op.base)))
  | .splice _ _ newCapacity =>
    if !existsChannel db op.base then .error .channelMissing
    else
      let b1 := min (word db ((Slot.state seq .b1).key op.base)) newCapacity
      .ok [(.kind (seq + 1), 3), (.state (seq + 1) .status, 1), (.state (seq + 1) .capacity, newCapacity),
        (.state (seq + 1) .b1, b1), (.state (seq + 1) .b2, saturatingSub newCapacity b1)]

variable {createdAt : UInt64}

variable {db db' : NucleusDb P} {plan : List (Slot × UInt64)}

theorem plan_open_of_missing {p1 p2 : String} {capacity : UInt64} (h : existsChannel db (channelBase p1 p2) = false) :
    (open_ p1 p2 capacity).plan db createdAt =
      .ok (openSlots (recordSentinel P (openRecord p1 p2 capacity createdAt)) capacity createdAt) := by
  have hbase : (open_ p1 p2 capacity).base = channelBase p1 p2 := rfl
  unfold SettlementOp.plan
  dsimp only
  rw [hbase, h]
  rfl

def keyed (base : String) (plan : List (Slot × UInt64)) : List (String × UInt64) := plan.map fun w => (w.1.key base, w.2)

/-- The database as it goes into the commit: opening locks it, and the keys are registered. -/
def SettlementOp.enter (op : SettlementOp) (db : NucleusDb P) (plan : List (Slot × UInt64)) : NucleusDb P :=
  { db with
    writeMode := match op with | .open_ .. => .appendOnly | _ => db.writeMode
    keymap := db.keymap.register ((keyed op.base plan).map Prod.fst) }

@[simp] theorem enter_state (op : SettlementOp) (db : NucleusDb P) (plan : List (Slot × UInt64)) :
    (op.enter db plan).state = db.state := rfl

@[simp] theorem enter_securityParams (op : SettlementOp) (db : NucleusDb P) (plan : List (Slot × UInt64)) :
    (op.enter db plan).securityParams = db.securityParams := rfl

def SettlementOp.delta (op : SettlementOp) (db : NucleusDb P) (plan : List (Slot × UInt64)) : Delta :=
  ⟨(op.enter db plan).keymap.indexed (keyed op.base plan)⟩

@[simp] theorem length_delta (op : SettlementOp) (db : NucleusDb P) (plan : List (Slot × UInt64)) :
    (op.delta db plan).writes.length = plan.length := by
  simp [SettlementOp.delta, KeyMap.indexed, keyed]

theorem foldl_putKey (db : NucleusDb P) (writes : List (Nat × UInt64)) (l : List (String × UInt64)) :
    l.foldl (fun acc w => putKey acc.1 acc.2 w.1 w.2) (writes, db) =
      (writes ++ (db.keymap.register (l.map Prod.fst)).indexed l,
        { db with keymap := db.keymap.register (l.map Prod.fst) }) := by
  induction l generalizing db writes with
  | nil => simp [KeyMap.indexed]
  | cons w rest ih =>
    have hput : putKey writes db w.1 w.2 =
        (writes ++ [((db.keymap.getOrCreate w.1).1, w.2)], { db with keymap := (db.keymap.getOrCreate w.1).2 }) := rfl
    have hindex : (db.keymap.register ((w :: rest).map Prod.fst)).get w.1 = some (db.keymap.getOrCreate w.1).1 :=
      KeyMap.get_register (KeyMap.get_getOrCreate_self db.keymap w.1) (rest.map Prod.fst)
    rw [List.foldl_cons]
    dsimp only
    rw [hput, ih]
    unfold KeyMap.indexed
    rw [List.map_cons (l := rest), hindex, Option.getD_some, List.append_assoc]
    rfl

theorem key_state_one (base : String) (field : StateField) :
    (Slot.state 1 field).key base = base ++ (":state:1:" ++ field.name) := by
  have hone : toString (1 : UInt64) = "1" := by decide
  simp [Slot.key, Slot.tail, hone, ← String.append_assoc]

theorem key_kind_one (base : String) : (Slot.kind 1).key base = base ++ ":ops:1:kind" := by
  have hone : toString (1 : UInt64) = "1" := by decide
  simp [Slot.key, Slot.tail, hone]

theorem applyWrites_foldl_putKey (db : NucleusDb P) (l : List (String × UInt64)) (now : Nat) :
    applyWrites (l.foldl (fun acc w => putKey acc.1 acc.2 w.1 w.2) ([], db)).2
        (l.foldl (fun acc w => putKey acc.1 acc.2 w.1 w.2) ([], db)).1 now =
      applyWrites { db with keymap := db.keymap.register (l.map Prod.fst) }
        ((db.keymap.register (l.map Prod.fst)).indexed l) now := by
  rw [foldl_putKey]
  rfl

/-- Commit a plan, or stop with the error and the database as it is. -/
def SettlementOp.carryOut (op : SettlementOp) (db : NucleusDb P) (now : Nat) :
    Except PcnError (List (Slot × UInt64)) → Option (Except PcnError Unit × NucleusDb P)
  | .error e => some (.error e, db)
  | .ok plan => applyWrites (op.enter db plan) (op.delta db plan).writes now

theorem apply_open (db : NucleusDb P) (p1 p2 : String) (capacity createdAt : UInt64) (now : Nat) :
    (open_ p1 p2 capacity).apply db createdAt now =
      (open_ p1 p2 capacity).carryOut db now ((open_ p1 p2 capacity).plan db createdAt) := by
  have hbase : (open_ p1 p2 capacity).base = channelBase p1 p2 := rfl
  unfold SettlementOp.apply SettlementOp.plan
  dsimp only
  rw [hbase]
  by_cases hexists : existsChannel db (channelBase p1 p2) = true
  · rw [if_pos hexists, if_pos hexists]
    rfl
  · rw [if_neg hexists, if_neg hexists]
    refine Eq.trans ?_ (applyWrites_foldl_putKey db.setAppendOnly (keyed (channelBase p1 p2) _) now)
    simp only [keyed, openSlots, List.map_cons, List.map_nil, List.foldl_cons, List.foldl_nil, key_record, key_kind_one,
      key_state_one]
    rfl

theorem apply_update (db : NucleusDb P) (p1 p2 : String) (balance1 balance2 createdAt : UInt64) (now : Nat) :
    (update p1 p2 balance1 balance2).apply db createdAt now =
      (update p1 p2 balance1 balance2).carryOut db now
        ((update p1 p2 balance1 balance2).plan db createdAt) := by
  have hbase : (update p1 p2 balance1 balance2).base = channelBase p1 p2 := rfl
  unfold SettlementOp.apply SettlementOp.plan
  dsimp only
  rw [hbase]
  by_cases hexists : (!existsChannel db (channelBase p1 p2)) = true
  · rw [if_pos hexists, if_pos hexists]
    rfl
  rw [if_neg hexists, if_neg hexists]
  cases capacityFor db (channelBase p1 p2) with
  | none => rfl
  | some cap =>
    dsimp only
    by_cases hsum : saturatingAdd balance1 balance2 ≠ cap
    · rw [if_pos hsum, if_pos hsum]
      rfl
    rw [if_neg hsum, if_neg hsum]
    by_cases hseq : latestSeq db (channelBase p1 p2) = 0
    · rw [if_pos hseq, if_pos hseq]
      rfl
    rw [if_neg hseq, if_neg hseq, valueAt_status]
    by_cases hstatus : statusFromCode (word db ((Slot.state (latestSeq db (channelBase p1 p2)) .status).key
        (channelBase p1 p2))) ≠ .open_
    · rw [if_pos hstatus, if_pos hstatus]
      rfl
    · rw [if_neg hstatus, if_neg hstatus]
      refine Eq.trans ?_ (applyWrites_foldl_putKey db (keyed (channelBase p1 p2) _) now)
      simp only [keyed, stepSlots, List.map_cons, List.map_nil, List.foldl_cons, List.foldl_nil, key_kind, key_state]
      rfl

theorem apply_close (db : NucleusDb P) (p1 p2 : String) (createdAt : UInt64) (now : Nat) :
    (close p1 p2).apply db createdAt now =
      (close p1 p2).carryOut db now ((close p1 p2).plan db createdAt) := by
  have hbase : (close p1 p2).base = channelBase p1 p2 := rfl
  unfold SettlementOp.apply SettlementOp.plan
  dsimp only
  rw [hbase]
  by_cases hexists : (!existsChannel db (channelBase p1 p2)) = true
  · rw [if_pos hexists, if_pos hexists]
    rfl
  rw [if_neg hexists, if_neg hexists]
  by_cases hseq : latestSeq db (channelBase p1 p2) = 0
  · rw [if_pos hseq, if_pos hseq]
    rfl
  · rw [if_neg hseq, if_neg hseq]
    refine Eq.trans ?_ (applyWrites_foldl_putKey db (keyed (channelBase p1 p2) _) now)
    simp only [keyed, stepSlots, List.map_cons, List.map_nil, List.foldl_cons, List.foldl_nil, key_kind, key_state, word]
    rfl

theorem apply_splice (db : NucleusDb P) (p1 p2 : String) (newCapacity createdAt : UInt64) (now : Nat) :
    (splice p1 p2 newCapacity).apply db createdAt now =
      (splice p1 p2 newCapacity).carryOut db now
        ((splice p1 p2 newCapacity).plan db createdAt) := by
  have hbase : (splice p1 p2 newCapacity).base = channelBase p1 p2 := rfl
  unfold SettlementOp.apply SettlementOp.plan
  dsimp only
  rw [hbase]
  by_cases hexists : (!existsChannel db (channelBase p1 p2)) = true
  · rw [if_pos hexists, if_pos hexists]
    rfl
  · rw [if_neg hexists, if_neg hexists]
    refine Eq.trans ?_ (applyWrites_foldl_putKey db (keyed (channelBase p1 p2) _) now)
    simp only [keyed, List.map_cons, List.map_nil, List.foldl_cons, List.foldl_nil, key_kind, key_state, word]
    rfl

theorem apply_eq_carryOut (op : SettlementOp) (db : NucleusDb P) (createdAt : UInt64) (now : Nat) :
    op.apply db createdAt now = op.carryOut db now (op.plan db createdAt) := by
  cases op with
  | open_ p1 p2 capacity => exact apply_open db p1 p2 capacity createdAt now
  | close p1 p2 => exact apply_close db p1 p2 createdAt now
  | splice p1 p2 newCapacity => exact apply_splice db p1 p2 newCapacity createdAt now
  | update p1 p2 balance1 balance2 => exact apply_update db p1 p2 balance1 balance2 createdAt now

variable {op : SettlementOp} {now : Nat}

theorem apply_of_commit_ok {entry : Engine.CommitEntry} (hplan : op.plan db createdAt = .ok plan)
    (hcommit : (op.enter db plan).commit (op.delta db plan) [] now = some (.ok entry, db')) :
    op.apply db createdAt now = some (.ok (), db') := by
  rw [apply_eq_carryOut, hplan]
  dsimp only [SettlementOp.carryOut, applyWrites]
  rw [hcommit]

theorem apply_of_commit_error {e : CommitError} (hplan : op.plan db createdAt = .ok plan)
    (hcommit : (op.enter db plan).commit (op.delta db plan) [] now = some (.error e, db')) :
    op.apply db createdAt now = some (.error (.commit e), db') := by
  rw [apply_eq_carryOut, hplan]
  dsimp only [SettlementOp.carryOut, applyWrites]
  rw [hcommit]

/-! ### Outcomes -/

/-- The keys of the writes are registered and the state is as it was. -/
structure Registered (db : NucleusDb P) (writes : List (String × UInt64)) (db' : NucleusDb P) : Prop where
  keymap : db'.keymap = db.keymap.register (writes.map Prod.fst)
  state : db'.state = db.state

/-- The keys of the writes are registered and the words are in the state. -/
structure Written (db : NucleusDb P) (writes : List (String × UInt64)) (db' : NucleusDb P) : Prop where
  keymap : db'.keymap = db.keymap.register (writes.map Prod.fst)
  state : db'.state = Engine.apply db.state ⟨db'.keymap.indexed writes⟩

variable {r : Except PcnError Unit}

theorem applyWrites_eq_some {writes : List (Nat × UInt64)} (h : applyWrites db writes now = some (r, db')) :
    (∃ e, db.commit ⟨writes⟩ [] now = some (.error e, db') ∧ r = .error (.commit e)) ∨
      ∃ entry, db.commit ⟨writes⟩ [] now = some (.ok entry, db') ∧ r = .ok () := by
  unfold applyWrites at h
  split at h
  · cases h
  · rename_i e db'' hcommit
    obtain ⟨rfl, rfl⟩ := Prod.mk.inj (Option.some.inj h)
    exact .inl ⟨e, hcommit, rfl⟩
  · rename_i entry db'' hcommit
    obtain ⟨rfl, rfl⟩ := Prod.mk.inj (Option.some.inj h)
    exact .inr ⟨entry, hcommit, rfl⟩

theorem apply_cases (h : op.apply db createdAt now = some (r, db')) :
    (∃ e, op.plan db createdAt = .error e ∧ r = .error e ∧ db' = db) ∨
    ∃ plan, op.plan db createdAt = .ok plan ∧
      ((∃ e, (op.enter db plan).commit (op.delta db plan) [] now = some (.error e, db') ∧ r = .error (.commit e) ∧
          (Registered db (keyed op.base plan) db' ∨ Written db (keyed op.base plan) db')) ∨
        ∃ entry, (op.enter db plan).commit (op.delta db plan) [] now = some (.ok entry, db') ∧ r = .ok () ∧
          Written db (keyed op.base plan) db') := by
  rw [apply_eq_carryOut] at h
  cases hplan : op.plan db createdAt with
  | error e =>
    rw [hplan] at h
    obtain ⟨rfl, rfl⟩ := Prod.mk.inj (Option.some.inj h)
    exact .inl ⟨e, rfl, rfl, rfl⟩
  | ok plan =>
    rw [hplan] at h
    refine .inr ⟨plan, rfl, ?_⟩
    -- whatever the commit returned, it left the registered keys alone
    have hwritten : ∀ {rc}, (op.enter db plan).commit (op.delta db plan) [] now = some (rc, db') →
        db'.state = Engine.apply db.state (op.delta db plan) → Written db (keyed op.base plan) db' := by
      intro rc hcommit hstate
      have hkeymap := (commit_sameFrame hcommit).keymap
      refine ⟨hkeymap, ?_⟩
      rw [hkeymap]
      exact hstate
    rcases applyWrites_eq_some h with ⟨e, hcommit, rfl⟩ | ⟨entry, hcommit, rfl⟩
    · refine .inl ⟨e, hcommit, rfl, ?_⟩
      have hkeymap := (commit_sameFrame hcommit).keymap
      rcases commit_cases hcommit with ⟨-, -, rfl⟩ | ⟨-, -, rs, -, rfl | rfl⟩ | ⟨rs, sigs, entry, he, -⟩
      · exact .inl ⟨rfl, rfl⟩
      · exact .inl ⟨rfl, rfl⟩
      · exact .inr (hwritten hcommit rfl)
      · cases he
    · exact .inr ⟨entry, hcommit, rfl, hwritten hcommit (Engine.NucleusDb.commit_advanced hcommit).state⟩

/-- The commit of the plan installs its state. -/
def SettlementOp.Accepted (op : SettlementOp) (db : NucleusDb P) (plan : List (Slot × UInt64)) : Prop :=
  (op.enter db plan).Installs (op.delta db plan)

theorem SettlementOp.Accepted.length_le (h : op.Accepted db plan) :
    (Engine.apply db.state (op.delta db plan)).values.length ≤ db.securityParams.maxVectorLen := by
  have hlen := h.admissible.length_le
  rwa [enter_state, enter_securityParams] at hlen

/-- What an accepted operation returns. The commit still fails if the log is out of step. -/
def acceptedResult (db : NucleusDb P) : Except PcnError Unit :=
  if db.ctLeaves.length = db.entries.length then .ok () else .error (.commit db.lateRefusal)

theorem apply_planned (hP : P.SignaturesCorrect) (hplan : op.plan db createdAt = .ok plan)
    (h : op.apply db createdAt now = some (r, db')) :
    (op.Accepted db plan ∧ r = acceptedResult db ∧ Written db (keyed op.base plan) db') ∨
      (¬ op.Accepted db plan ∧ r = .error (.commit ((op.enter db plan).refusal (op.delta db plan))) ∧
        Registered db (keyed op.base plan) db') := by
  rw [apply_eq_carryOut, hplan] at h
  have hcommit : ∃ rc, (op.enter db plan).commit (op.delta db plan) [] now = some (rc, db') ∧
      (∀ e, rc = .error e → r = .error (.commit e)) ∧ (∀ entry, rc = .ok entry → r = .ok ()) := by
    rcases applyWrites_eq_some h with ⟨e, hcommit, rfl⟩ | ⟨entry, hcommit, rfl⟩
    · exact ⟨_, hcommit, fun e' he => by rw [Except.error.inj he], fun _ he => nomatch he⟩
    · exact ⟨_, hcommit, fun e' he => (nomatch he), fun _ _ => rfl⟩
  obtain ⟨rc, hcommit, hresult, hresult'⟩ := hcommit
  have hkeymap := (commit_sameFrame hcommit).keymap
  by_cases hacc : op.Accepted db plan
  · left
    obtain ⟨hstate, hverdict⟩ := Engine.NucleusDb.commit_of_installs hP hacc hcommit
    refine ⟨hacc, ?_, hkeymap, ?_⟩
    · unfold acceptedResult
      rcases hverdict with ⟨⟨entry, hok⟩, hstep⟩ | ⟨hlate, hstep⟩
      · rw [hresult' entry hok]
        exact (if_pos hstep).symm
      · rw [hresult _ hlate]
        exact (if_neg hstep).symm
    · rw [hstate, hkeymap]
      rfl
  · right
    obtain ⟨hrefused, hstate⟩ := Engine.NucleusDb.commit_of_not_installs hP hacc hcommit
    exact ⟨hacc, hresult _ hrefused, hkeymap, hstate⟩

theorem accepted_of_ok (hP : P.SignaturesCorrect) (hplan : op.plan db createdAt = .ok plan)
    (h : op.apply db createdAt now = some (.ok (), db')) : op.Accepted db plan := by
  rcases apply_planned hP hplan h with ⟨hacc, -, -⟩ | ⟨-, he, -⟩
  · exact hacc
  · cases he

/-! ### Reading afterwards -/

section Reading

variable {db db' : NucleusDb P} {writes : List (String × UInt64)}

theorem Written.present (h : Written db writes db') : ∀ w ∈ writes, (db'.keymap.get w.1).isSome := by
  intro w hw
  rw [h.keymap, KeyMap.isSome_get_register]
  exact .inr (List.mem_map_of_mem hw)

theorem Written.sound (h : Written db writes db') (hsound : db.keymap.Sound) : db'.keymap.Sound := by
  rw [h.keymap]
  exact hsound.register _

theorem Written.isSome_get (h : Written db writes db') (key : String) :
    (db'.keymap.get key).isSome ↔ (db.keymap.get key).isSome ∨ key ∈ writes.map Prod.fst := by
  rw [h.keymap, KeyMap.isSome_get_register]

theorem Written.word (h : Written db writes db') (hsound : db.keymap.Sound) (key : String) :
    word db' key = (Writes.last writes key).getD (word db key) := by
  have hsound' := h.sound hsound
  by_cases hmem : key ∈ writes.map Prod.fst
  · obtain ⟨idx, hidx⟩ := Option.isSome_iff_exists.mp ((h.isSome_get key).mpr (.inr hmem))
    have hlast : Writes.last writes key ≠ none := by
      rw [Ne, Writes.last_eq_none_iff_not_mem]
      exact not_not.mpr hmem
    obtain ⟨v, hv⟩ := Option.ne_none_iff_exists'.mp hlast
    rw [word_of_get hidx, h.state, Engine.cell_apply_indexed hsound' db.state h.present hidx, hv]
    rfl
  · have hnone := (Writes.last_eq_none_iff_not_mem writes key).mpr hmem
    have hget : db'.keymap.get key = db.keymap.get key := by
      rw [h.keymap, KeyMap.get_register_of_not_mem db.keymap hmem]
    rw [hnone, Option.getD_none]
    cases hold : db.keymap.get key with
    | none => rw [word_of_absent hold, word_of_absent (hget.trans hold)]
    | some idx =>
      have hidx := hget.trans hold
      rw [word_of_get hold, word_of_get hidx, h.state, Engine.cell_apply_indexed hsound' db.state h.present hidx, hnone]
      rfl

variable {key : String}

theorem Written.valueAt_of_mem (h : Written db writes db') (hsound : db.keymap.Sound) {v : UInt64}
    (hlast : Writes.last writes key = some v) : valueAt db' key = some v := by
  have hmem : key ∈ writes.map Prod.fst := by
    by_contra hout
    rw [(Writes.last_eq_none_iff_not_mem writes key).mpr hout] at hlast
    cases hlast
  obtain ⟨w, hw, rfl⟩ := List.mem_map.mp hmem
  obtain ⟨idx, hidx⟩ := Option.isSome_iff_exists.mp ((h.isSome_get w.1).mpr (.inr hmem))
  have hlt : idx < db'.state.values.length := by
    rw [h.state]
    have hwrite : (idx, w.2) ∈ db'.keymap.indexed writes := by
      refine List.mem_map.mpr ⟨w, hw, ?_⟩
      rw [hidx]
      rfl
    exact @Engine.lt_length_apply_of_mem ⟨_⟩ db.state _ hwrite
  have hword := h.word hsound w.1
  rw [word_of_get hidx, hlast] at hword
  rw [valueAt_of_lt hidx hlt, hword]
  rfl

theorem Written.valueAt_of_not_mem (h : Written db writes db') (hsound : db.keymap.Sound) {v : UInt64}
    (hout : key ∉ writes.map Prod.fst) (hv : valueAt db key = some v) : valueAt db' key = some v := by
  obtain ⟨idx, hidx, hlt, rfl⟩ := valueAt_eq_some hv
  have hget : db'.keymap.get key = some idx := by
    rw [h.keymap, KeyMap.get_register_of_not_mem db.keymap hout, hidx]
  have hlt' : idx < db'.state.values.length := by
    rw [h.state]
    exact Nat.lt_of_lt_of_le hlt (Engine.length_le_apply _ _)
  have hword := h.word hsound key
  rw [(Writes.last_eq_none_iff_not_mem writes key).mpr hout, Option.getD_none, word_of_get hget, word_of_get hidx]
    at hword
  rw [valueAt_of_lt hget hlt', hword]

theorem Registered.isSome_get (h : Registered db writes db') (key : String) :
    (db'.keymap.get key).isSome ↔ (db.keymap.get key).isSome ∨ key ∈ writes.map Prod.fst := by
  rw [h.keymap, KeyMap.isSome_get_register]

theorem Registered.sound (h : Registered db writes db') (hsound : db.keymap.Sound) : db'.keymap.Sound := by
  rw [h.keymap]
  exact hsound.register _

theorem Registered.valueAt (h : Registered db writes db') (hkey : (db.keymap.get key).isSome) :
    valueAt db' key = valueAt db key := by
  obtain ⟨idx, hidx⟩ := Option.isSome_iff_exists.mp hkey
  have hget : db'.keymap.get key = some idx := by
    rw [h.keymap]
    exact KeyMap.get_register hidx _
  unfold Pcn.valueAt
  rw [hget, hidx, h.state]

theorem Registered.valueAt_of_not_mem (h : Registered db writes db') (hout : key ∉ writes.map Prod.fst) :
    Pcn.valueAt db' key = Pcn.valueAt db key := by
  unfold Pcn.valueAt
  rw [h.keymap, KeyMap.get_register_of_not_mem db.keymap hout, h.state]

theorem latestSeq_of_register {base : String} {plan : List (Slot × UInt64)} {seq : UInt64}
    (hkeymap : db'.keymap = db.keymap.register ((keyed base plan).map Prod.fst))
    (honly : ∀ w ∈ plan, ∀ n, w.1.seq? = some n → n = seq) (hstate : ∃ w ∈ plan, ∃ field, w.1 = .state seq field) :
    latestSeq db' base = max (latestSeq db base) seq := by
  obtain ⟨hlatest, hseq, hmax⟩ := max_spec (latestSeq db base) seq
  have hkeys : ∀ key, (db'.keymap.get key).isSome ↔
      (db.keymap.get key).isSome ∨ key ∈ (keyed base plan).map Prod.fst := by
    intro key
    rw [hkeymap, KeyMap.isSome_get_register]
  refine latestSeq_eq_of_max ?_ ?_
  · rcases hmax with hmax | hmax
    · rw [hmax]
      rcases latestSeq_mem db base with hzero | ⟨key, hsome, hkey⟩
      · exact .inl hzero
      · exact .inr ⟨key, (hkeys key).mpr (.inl hsome), hkey⟩
    · rw [hmax]
      obtain ⟨w, hw, field, hslot⟩ := hstate
      refine .inr ⟨w.1.key base, (hkeys _).mpr (.inr ?_), ?_⟩
      · exact List.mem_map_of_mem (List.mem_map_of_mem (f := fun w => (w.1.key base, w.2)) hw)
      · rw [stateSeq_key, hslot]
  · intro key n hsome hn
    rcases (hkeys key).mp hsome with hold | hmem
    · exact UInt64.le_trans (le_latestSeq hold hn) hlatest
    · obtain ⟨kv, hkv, rfl⟩ := List.mem_map.mp hmem
      obtain ⟨w, hw, rfl⟩ := List.mem_map.mp hkv
      dsimp only at hn
      rw [stateSeq_key] at hn
      have hslot : w.1.seq? = some n := by
        revert hn
        cases w.1 <;> simp [Slot.seq?]
      rw [honly w hw n hslot]
      exact hseq

end Reading

end AgentHalo.Pcn
