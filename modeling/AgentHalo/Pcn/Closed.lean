import AgentHalo.Pcn.Runs

/-!
# Closed channels

An update looks at the status of the channel and an opening at its existence, so a closed channel refuses both. A close
and a splice look at neither: they take the next step whatever the status is, and a splice writes the channel open
again. A closed channel stays closed as long as nobody closes or splices it and no key of another channel gets in its
way (`closed_final`).
-/

namespace AgentHalo.Pcn

open Engine (NucleusDb)

variable {P : Platform}

/-- The operations that take the next step whatever the status of the channel is. -/
def SettlementOp.ignoresStatus : SettlementOp → Bool
  | .close .. | .splice .. => true
  | .open_ .. | .update .. => false

/-- The call neither closes nor splices the channel at the base, and it writes no key that is read for it. -/
structure Harmless (base : String) (db : NucleusDb P) (call : Call) : Prop where
  heeds : call.op.base = base → call.op.ignoresStatus = false
  clear : call.op.base ≠ base → Clear db call.op call.createdAt base

/-- What a snapshot says about the database. -/
structure Shows (db : NucleusDb P) (base : String) (snap : ChannelSnapshot) : Prop where
  existsChannel : existsChannel db base = true
  capacity : capacityFor db base = some snap.record.capacity
  seq : latestSeq db base = snap.record.lastSeq
  opened : snap.record.lastSeq ≠ 0
  status : statusFromCode (word db ((Slot.state snap.record.lastSeq .status).key base)) = snap.record.status
  b1 : word db ((Slot.state snap.record.lastSeq .b1).key base) = snap.balance1
  b2 : word db ((Slot.state snap.record.lastSeq .b2).key base) = snap.balance2

variable {db : NucleusDb P} {snap : ChannelSnapshot}

theorem shows_of_snapshot {p1 p2 : String}
    (h : channelSnapshot db p1 p2 = some snap) : Shows db (channelBase p1 p2) snap := by
  rw [channelSnapshot_eq] at h
  split at h
  · rename_i hlive
    obtain ⟨capacity, hcapacity, rfl⟩ := Option.map_eq_some_iff.mp h
    exact ⟨hlive.1, hcapacity, rfl, hlive.2, rfl, rfl, rfl⟩
  · cases h

theorem Shows.plan_of_closed {op : SettlementOp}
    (h : Shows db op.base snap) (hclosed : snap.record.status = .closed) (hop : op.ignoresStatus = false)
    (createdAt : UInt64) : ∃ e, op.plan db createdAt = .error e := by
  cases op with
  | close p1 p2 => cases hop
  | splice p1 p2 newCapacity => cases hop
  | open_ p1 p2 capacity => exact ⟨.channelAlreadyExists, if_pos h.existsChannel⟩
  | update p1 p2 balance1 balance2 =>
    unfold SettlementOp.plan
    dsimp only
    rw [h.existsChannel, h.capacity, h.seq, h.status, hclosed, if_neg (by decide)]
    dsimp only
    rw [if_neg h.opened]
    split
    · exact ⟨_, rfl⟩
    · exact ⟨.channelNotOpen, rfl⟩

theorem Shows.apply_of_closed {op : SettlementOp}
    (h : Shows db op.base snap) (hclosed : snap.record.status = .closed) (hop : op.ignoresStatus = false)
    (createdAt : UInt64) (now : Nat) : ∃ e, op.apply db createdAt now = some (.error e, db) := by
  obtain ⟨e, he⟩ := h.plan_of_closed hclosed hop createdAt
  refine ⟨e, ?_⟩
  rw [apply_eq_carryOut, he]
  rfl

/-- The channel is as the snapshot says, in a database whose key map is sound. -/
structure SeenAs (p1 p2 : String) (snap : ChannelSnapshot) (db : NucleusDb P) : Prop where
  sound : db.keymap.Sound
  snapshot : channelSnapshot db p1 p2 = some snap

theorem seenAs_step {p1 p2 : String} (hclosed : snap.record.status = .closed)
    (db : NucleusDb P) (call : Call) (h : SeenAs p1 p2 snap db) (hcall : Harmless (channelBase p1 p2) db call) :
    SeenAs p1 p2 snap (settle db call) := by
  have hshows := shows_of_snapshot h.snapshot
  refine ⟨sound_settle h.sound call, ?_⟩
  rw [← h.snapshot]
  rcases settle_cases db call with hsame | ⟨r, happly⟩
  · rw [hsame]
  by_cases hbase : call.op.base = channelBase p1 p2
  · rw [← hbase] at hshows
    obtain ⟨e, hrefused⟩ := hshows.apply_of_closed hclosed (hcall.heeds hbase) call.createdAt call.now
    rw [settle_of_apply call hrefused]
  · exact (apply_sameView h.sound (hcall.clear hbase) (anchored_of_capacityFor hshows.capacity) happly).snapshot

/-- **Closed channels stay closed, unless somebody closes or splices them.** Let a snapshot of `p1` and `p2` report a
closed channel in a reachable database. Along any run of calls that neither close nor splice this channel, and write
under no name that is read for it, the snapshot stays as it was, and every attempt to open or update the channel returns
an error and changes nothing. -/
theorem closed_final {db : NucleusDb P} (hreach : Reachable db) {p1 p2 : String} {snap : ChannelSnapshot}
    (hsnap : channelSnapshot db p1 p2 = some snap) (hclosed : snap.record.status = .closed) {calls : List Call}
    (hrun : Run.Along settle (Harmless (channelBase p1 p2)) db calls) :
    channelSnapshot (Run.exec settle db calls) p1 p2 = some snap ∧
      ∀ op : SettlementOp, op.base = channelBase p1 p2 → op.ignoresStatus = false → ∀ createdAt now,
        ∃ e, op.apply (Run.exec settle db calls) createdAt now = some (.error e, Run.exec settle db calls) := by
  have hinv := Run.exec_invariant_along (seenAs_step hclosed) ⟨hreach.sound, hsnap⟩ hrun
  refine ⟨hinv.snapshot, ?_⟩
  intro op hbase hop createdAt now
  have hshows := shows_of_snapshot hinv.snapshot
  rw [← hbase] at hshows
  exact hshows.apply_of_closed hclosed hop createdAt now

theorem singleWitnessDb_open_close :
    ∃ db, Run.exec settle NucleusDb.singleWitnessDb [⟨.open_ "a" "b" 100, 0, 0⟩, ⟨.close "a" "b", 0, 0⟩] = db ∧
      Running 11 db (channelBase "a" "b")
        ((Channel.opened 0x100000000000000 100 0).extend ⟨2, .closed, 100, 0⟩) := by
  obtain ⟨db₁, hopen, hrun₁⟩ := singleWitnessDb_open "a" "b" 100
  obtain ⟨db₂, hclose, hrun₂⟩ := hrun₁.call (.close "a" "b") rfl hrun₁.live.plan_close (by simp) (by simp)
  refine ⟨db₂, ?_, hrun₂⟩
  rw [Run.exec_cons, Run.exec_cons, Run.exec_nil, settle_of_apply ⟨.open_ "a" "b" 100, 0, 0⟩ hopen]
  exact settle_of_apply ⟨.close "a" "b", 0, 0⟩ hclose

theorem closed_final_after_update :
    ∃ db snap, Run.exec settle NucleusDb.singleWitnessDb [⟨.open_ "a" "b" 100, 0, 0⟩, ⟨.close "a" "b", 0, 0⟩] = db ∧
      channelSnapshot (Run.exec settle db [⟨.update "b" "a" 50 50, 0, 0⟩]) "a" "b" = some snap ∧
      snap.record.status = .closed ∧ snap.balance1 = 100 := by
  obtain ⟨db, hexec, hrun⟩ := singleWitnessDb_open_close
  have hharmless : Run.Along settle (Harmless (channelBase "a" "b")) db [⟨.update "b" "a" 50 50, 0, 0⟩] :=
    ⟨⟨fun _ => rfl, fun hne => absurd (channelBase_comm "b" "a") hne⟩, trivial⟩
  exact ⟨db, _, hexec, (closed_final hrun.reachable hrun.live.snapshot rfl hharmless).1, rfl, rfl⟩

/-- A splice opens a closed channel again, with other balances. -/
theorem splice_reopens_closed :
    ∃ db db' snap snap',
      Run.exec settle NucleusDb.singleWitnessDb [⟨.open_ "a" "b" 100, 0, 0⟩, ⟨.close "a" "b", 0, 0⟩] = db ∧
      channelSnapshot db "a" "b" = some snap ∧ snap.record.status = .closed ∧ snap.balance1 = 100 ∧
      (SettlementOp.splice "a" "b" 70).apply db 0 0 = some (.ok (), db') ∧
      channelSnapshot db' "a" "b" = some snap' ∧ snap'.record.status = .open_ ∧ snap'.balance1 = 70 := by
  obtain ⟨db, hexec, hrun⟩ := singleWitnessDb_open_close
  obtain ⟨db', hsplice, hrun'⟩ := hrun.call (.splice "a" "b" 70) rfl hrun.live.plan_splice (by simp) (by simp)
  exact ⟨db, db', _, _, hexec, hrun.live.snapshot, rfl, rfl, hsplice, hrun'.live.snapshot, rfl, by decide⟩

end AgentHalo.Pcn
