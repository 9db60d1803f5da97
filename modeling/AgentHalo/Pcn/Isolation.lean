import AgentHalo.Pcn.Runs

/-!
# Isolation of channels

Channels are kept apart by the names of their keys alone. Names without colons, or with the same number of them, keep
their channels apart; other names may not, and two different pairs may even have one base.
-/

namespace AgentHalo.Pcn

open Engine (NucleusDb)
open Store (KeyMap)

variable {P : Platform}

/-- **Channels are isolated by name.** In a reachable database, let an operation write no key that is read for the
channel of `q1` and `q2`, and let that channel's capacity cell be inside the state vector. Whatever comes of the
operation, the snapshot of `q1` and `q2` is the same before and after it, existence included. -/
theorem snapshot_eq_of_clear {op : SettlementOp} {db db' : NucleusDb P} {createdAt : UInt64} {now : Nat}
    {r : Except PcnError Unit} {q1 q2 : String} (hreach : Reachable db)
    (hclear : Clear db op createdAt (channelBase q1 q2)) (hanchored : Anchored db (channelBase q1 q2))
    (h : op.apply db createdAt now = some (r, db')) : channelSnapshot db' q1 q2 = channelSnapshot db q1 q2 :=
  (apply_sameView hreach.sound hclear hanchored h).snapshot

theorem singleWitnessDb_open_open :
    ∃ db db' : NucleusDb .reference, Reachable db ∧
      Live db (channelBase "a" "b") (Channel.opened 0x100000000000000 100 0) ∧
      (SettlementOp.open_ "c" "d" 5).apply db 0 0 = some (.ok (), db') := by
  obtain ⟨db, hopen, hrun⟩ := singleWitnessDb_open "a" "b" 100
  have hblank := singleWitnessDb_noChannelKeys
  have hnames : SameColons 0 "a" "b" "c" "d" := ⟨by decide, by decide, by decide, by decide⟩
  have hclear : Clear NucleusDb.singleWitnessDb (.open_ "a" "b" 100) 0 (channelBase "c" "d") :=
    hnames.clear rfl (by decide) _ _
  have hdormant : Dormant db (channelBase "c" "d") :=
    holds_of_clear (t := none) KeyMap.sound_new hclear (hblank.dormant "c" "d") hopen
  have hanchored : Anchored NucleusDb.singleWitnessDb (channelBase "c" "d") := fun hexists => by
    rw [(hblank.dormant "c" "d").existsChannel] at hexists
    cases hexists
  have hview := apply_sameView KeyMap.sound_new hclear hanchored hopen
  have hfresh : ∀ slot : Slot, db.keymap.get (slot.key (channelBase "c" "d")) = none := fun slot =>
    (hview.keys _ (readFor_key _ slot)).trans (hblank.get_eq_none (under_key _ slot))
  have hmark := recordSentinel_reference "c" "d" 5 0
  obtain ⟨db', happly, -⟩ := hrun.order.open_ Platform.reference_signaturesCorrect "c" "d" 5 0 0
    (by rw [hrun.limits]; decide) hdormant hfresh (by rw [hmark]; decide) (by rw [hrun.limits]; decide)
    (by rw [hrun.limits]; decide)
  exact ⟨db, db', hrun.reachable, hrun.live, happly⟩

theorem snapshot_eq_of_clear_open :
    ∃ (db db' : NucleusDb .reference) (snap : ChannelSnapshot), channelSnapshot db "a" "b" = some snap ∧
      (SettlementOp.open_ "c" "d" 5).apply db 0 0 = some (.ok (), db') ∧ channelSnapshot db' "a" "b" = some snap := by
  obtain ⟨db, db', hreach, hlive, happly⟩ := singleWitnessDb_open_open
  have hnames : SameColons 0 "c" "d" "a" "b" := ⟨by decide, by decide, by decide, by decide⟩
  refine ⟨db, db', _, hlive.snapshot, happly, ?_⟩
  rw [snapshot_eq_of_clear hreach (hnames.clear rfl (by decide) _ _) (anchored_of_capacityFor hlive.capacityFor) happly]
  exact hlive.snapshot

/-- Two pairs with one base: opening a channel for the one makes a channel of the other. -/
theorem open_shows_other_pair :
    ¬ SamePair "a:b" "c" "a" "b:c" ∧ Reachable NucleusDb.singleWitnessDb ∧
      channelSnapshot NucleusDb.singleWitnessDb "a" "b:c" = none ∧
      ∃ db, (SettlementOp.open_ "a:b" "c" 100).apply NucleusDb.singleWitnessDb 0 0 = some (.ok (), db) ∧
        (channelSnapshot db "a" "b:c").isSome := by
  have hbase : channelBase "a:b" "c" = channelBase "a" "b:c" := by
    rw [← String.toList_inj, channelBase_toList, channelBase_toList]
    decide
  obtain ⟨db, hopen, hrun⟩ := singleWitnessDb_open "a:b" "c" 100
  have hlive := hrun.live
  rw [hbase] at hlive
  refine ⟨by decide, .opened NucleusDb.singleWitnessDb_freshlyBuilt,
    (singleWitnessDb_noChannelKeys.dormant "a" "b:c").snapshot, db, hopen, ?_⟩
  rw [hlive.snapshot]
  rfl

end AgentHalo.Pcn
