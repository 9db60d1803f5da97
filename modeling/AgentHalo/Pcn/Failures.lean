import AgentHalo.Pcn.Runs
import Mathlib.Data.List.Destutter

/-!
# What a failed settlement leaves behind

An operation that is refused outright changes nothing. One that is refused by the commit has registered the keys of its
step before, and the next reader counts the step: the channel stands at the next sequence number, with balances of zero.
Only an opening can be refused by the commit's checks without leaving a trace, because a channel without a mark is not
looked at; its keys must not mean anything to the channels there are, and their cells must be zero.
-/

namespace AgentHalo.Pcn

open Text (startsWith endsWith trimEndMatchesStr repeated)
open Engine (NucleusDb WitnessConfig ParameterSet ReductionContract)
open Store (KeyMap)
open SettlementOp (open_)

variable {P : Platform}

/-! ### Traces -/

/-- The settings a caller may change to remove the cause of a failed commit. -/
structure Setup (P : Platform) where
  witnessCfg : WitnessConfig P
  securityParams : ParameterSet
  reductionContracts : List ReductionContract

def reconfigure (db : NucleusDb P) (setup : Setup P) : NucleusDb P :=
  { db with
    witnessCfg := setup.witnessCfg, securityParams := setup.securityParams
    reductionContracts := setup.reductionContracts }

/-- All views are the same, and the operation, tried again under any settings, does what it would have done without the
first attempt. -/
structure NoTrace (op : SettlementOp) (db db' : NucleusDb P) : Prop where
  snapshots : ∀ q1 q2, channelSnapshot db' q1 q2 = channelSnapshot db q1 q2
  compliance : complianceWitness db' = complianceWitness db
  retry : ∀ setup createdAt now,
    op.apply (reconfigure db' setup) createdAt now = op.apply (reconfigure db setup) createdAt now

theorem NoTrace.refl (op : SettlementOp) (db : NucleusDb P) : NoTrace op db db :=
  ⟨fun _ _ => rfl, rfl, fun _ _ _ => rfl⟩

/-! ### Steps that are seen -/

variable {op : SettlementOp} {db db' : NucleusDb P} {createdAt : UInt64} {plan : List (Slot × UInt64)} {now : Nat}
  {r : Except PcnError Unit}

theorem plan_step (hexists : existsChannel db op.base = true) (hplan : op.plan db createdAt = .ok plan) :
    (∀ w ∈ plan, ∀ n, w.1.seq? = some n → n = latestSeq db op.base + 1) ∧
      ∃ w ∈ plan, ∃ field, w.1 = .state (latestSeq db op.base + 1) field := by
  have hslots : ∀ (status : ChannelStatus) (b1 b2 : UInt64),
      (∀ w ∈ stepSlots op (latestSeq db op.base + 1) status b1 b2, ∀ n, w.1.seq? = some n → n = latestSeq db op.base + 1) ∧
        ∃ w ∈ stepSlots op (latestSeq db op.base + 1) status b1 b2, ∃ field,
          w.1 = .state (latestSeq db op.base + 1) field := by
    intro status b1 b2
    refine ⟨?_, _, .tail _ (.head _), .status, rfl⟩
    intro w hw n hn
    exact Option.some.inj (hn.symm.trans ((writesStep_stepSlots op _ status b1 b2).only w hw))
  unfold SettlementOp.plan at hplan
  dsimp only at hplan
  cases op with
  | open_ p1 p2 capacity =>
    dsimp only at hplan
    rw [hexists, if_pos rfl] at hplan
    cases hplan
  | update p1 p2 balance1 balance2 =>
    dsimp only at hplan
    rw [hexists, if_neg (by decide)] at hplan
    split at hplan
    · cases hplan
    split at hplan
    · cases hplan
    split at hplan
    · cases hplan
    split at hplan
    · cases hplan
    · rw [← Except.ok.inj hplan]
      exact hslots _ _ _
  | close p1 p2 =>
    dsimp only at hplan
    rw [hexists, if_neg (by decide)] at hplan
    split at hplan
    · cases hplan
    · rw [← Except.ok.inj hplan]
      exact hslots _ _ _
  | splice p1 p2 newCapacity =>
    dsimp only at hplan
    rw [hexists, if_neg (by decide)] at hplan
    rw [← Except.ok.inj hplan]
    refine ⟨?_, _, .tail _ (.head _), .status, rfl⟩
    intro w hw n hn
    simp only [List.mem_cons, List.not_mem_nil, or_false] at hw
    rcases hw with rfl | rfl | rfl | rfl | rfl <;> exact (Option.some.inj hn).symm

theorem keymap_of_planned (hplan : op.plan db createdAt = .ok plan) (h : op.apply db createdAt now = some (r, db')) :
    db'.keymap = db.keymap.register ((keyed op.base plan).map Prod.fst) := by
  rcases apply_cases h with ⟨e, herror, -⟩ | ⟨plan', hplan', ⟨e, -, -, hreg | hwritten⟩ | ⟨entry, -, -, hwritten⟩⟩
  · rw [hplan] at herror
    cases herror
  all_goals obtain rfl := Except.ok.inj (hplan.symm.trans hplan')
  · exact hreg.keymap
  · exact hwritten.keymap
  · exact hwritten.keymap

theorem snapshot_ne_of_planned {p1 p2 : String} {snap : ChannelSnapshot} (hbase : op.base = channelBase p1 p2)
    (hsnap : channelSnapshot db p1 p2 = some snap) (hlast : snap.record.lastSeq ≠ 0xFFFFFFFFFFFFFFFF)
    (hplan : op.plan db createdAt = .ok plan) (h : op.apply db createdAt now = some (r, db')) :
    channelSnapshot db' p1 p2 ≠ channelSnapshot db p1 p2 := by
  rw [channelSnapshot_eq] at hsnap
  split at hsnap
  · rename_i hlive
    obtain ⟨capacity, hcapacity, rfl⟩ := Option.map_eq_some_iff.mp hsnap
    have hexists : existsChannel db op.base = true := by
      rw [hbase]
      exact hlive.1
    obtain ⟨honly, hstate⟩ := plan_step hexists hplan
    have hseq := latestSeq_of_register (keymap_of_planned hplan h) honly hstate
    have hshort : latestSeq db (channelBase p1 p2) ≠ 0xFFFFFFFFFFFFFFFF := hlast
    rw [hbase, max_succ hshort] at hseq
    intro hsame
    rw [channelSnapshot_eq db, if_pos hlive, hcapacity, Option.map_some, channelSnapshot_eq] at hsame
    split at hsame
    · obtain ⟨capacity', -, hsame⟩ := Option.map_eq_some_iff.mp hsame
      have hnum := congrArg (fun s : ChannelSnapshot => s.record.lastSeq) hsame
      have hnum' : latestSeq db' (channelBase p1 p2) = latestSeq db (channelBase p1 p2) := hnum
      rw [hseq] at hnum'
      simp at hnum'
    · cases hsame
  · cases hsnap

/-! ### Keys that mean nothing -/

/-- The keys the operation is about to register are not read for any channel there is, and they are not the name of one
continued by that of a capacity key. -/
structure Unseen (db : NucleusDb P) (op : SettlementOp) (plan : List (Slot × UInt64)) : Prop where
  read : ∀ q, existsChannel db q = true → ∀ w ∈ plan, ¬ ReadFor q (w.1.key op.base)
  counted : ∀ q, existsChannel db q = true → ∀ w ∈ plan, ∀ k,
    w.1.key op.base ≠ q ++ repeated ":meta:capacity" (k + 1)

theorem unseen_of_separate (plan : List (Slot × UInt64)) (h : ∀ q, existsChannel db q = true → Separate op.base q) :
    Unseen db op plan where
  read q hq w _ := (h q hq).apart w.1
  counted q hq w _ k heq := by
    refine (h q hq).not_under (under_key op.base w.1) ?_
    rw [heq, Text.repeated_succ]
    exact .inr ⟨"meta:capacity" ++ repeated ":meta:capacity" k, by rw [← @String.append_assoc ":"]; rfl⟩

section Hidden

variable {db db' : NucleusDb P} {op : SettlementOp} {plan : List (Slot × UInt64)}

theorem existsChannel_of_registered (hreg : Registered db (keyed op.base plan) db') (htidy : Tidy db) (q : String) :
    existsChannel db' q = existsChannel db q := by
  rw [Bool.eq_iff_iff, existsChannel_iff, existsChannel_iff, hreg.word htidy]

theorem Unseen.sameView (h : Unseen db op plan) (hreg : Registered db (keyed op.base plan) db') {q : String}
    (hq : existsChannel db q = true) : SameView q db db' := by
  refine hreg.sameView ?_
  intro w hw
  obtain ⟨slot, hslot, rfl⟩ := List.mem_map.mp hw
  exact h.read q hq slot hslot

theorem Unseen.snapshot (h : Unseen db op plan) (hreg : Registered db (keyed op.base plan) db') (htidy : Tidy db)
    (q1 q2 : String) : channelSnapshot db' q1 q2 = channelSnapshot db q1 q2 := by
  by_cases hq : existsChannel db (channelBase q1 q2) = true
  · exact (h.sameView hreg hq).snapshot
  · have hq' : ¬ existsChannel db' (channelBase q1 q2) = true := by
      rwa [existsChannel_of_registered hreg htidy]
    rw [channelSnapshot_eq, channelSnapshot_eq, if_neg fun hlive => hq' hlive.1, if_neg fun hlive => hq hlive.1]

/-- One key in the search for the channels of a compliance witness. -/
def countedBase (db : NucleusDb P) (kv : String × Nat) : Option String :=
  if !startsWith kv.1 "channel:" || !endsWith kv.1 ":meta:capacity" then none
  else if existsChannel db (trimEndMatchesStr ":meta:capacity" kv.1) then some (trimEndMatchesStr ":meta:capacity" kv.1)
  else none

theorem channelBases_eq (db : NucleusDb P) :
    channelBases db =
      ((db.keymap.allKeys.filterMap (countedBase db)).mergeSort fun a b => decide (a ≤ b)).destutter (· ≠ ·) := rfl

theorem Unseen.channelBases (h : Unseen db op plan) (hreg : Registered db (keyed op.base plan) db') (htidy : Tidy db) :
    Pcn.channelBases db' = Pcn.channelBases db := by
  have hsame : countedBase db' = countedBase db := by
    funext kv
    unfold countedBase
    rw [existsChannel_of_registered hreg htidy]
  rw [channelBases_eq, channelBases_eq, hsame]
  congr 2
  refine KeyMap.filterMap_allKeys_congr (fun key => db'.keymap.get key = db.keymap.get key) (fun _ hkey => hkey) ?_ ?_
    fun _ _ _ => rfl
  all_goals
    -- a key that was registered now is not counted
    rintro ⟨key, idx⟩ hnew
    have hmem : key ∈ (keyed op.base plan).map Prod.fst := by
      by_contra hout
      rw [hreg.keymap] at hnew
      exact hnew (KeyMap.get_register_of_not_mem db.keymap hout)
    obtain ⟨w, hw, rfl⟩ := mem_keyed_fst hmem
    unfold countedBase
    dsimp only
    split
    · rfl
    rename_i hform
    simp only [Bool.or_eq_true, Bool.not_eq_true', not_or, Bool.not_eq_false] at hform
    split
    · rename_i hexists
      obtain ⟨k, hk⟩ := Text.eq_trimEndMatchesStr_append hform.2
      exact absurd hk (h.counted _ hexists w hw k)
    · rfl

theorem tallyChannel_congr {base : String} (hview : SameView base db db') (tally : Tally) :
    tallyChannel db' tally base = tallyChannel db tally base := by
  have hcapacity : (valueAt db' (base ++ ":meta:capacity")).getD 0 = (valueAt db (base ++ ":meta:capacity")).getD 0 :=
    hview.word_key .capacity
  have hb1 : ∀ seq : UInt64, (valueAt db' (base ++ ":state:" ++ toString seq ++ ":b1")).getD 0 =
      (valueAt db (base ++ ":state:" ++ toString seq ++ ":b1")).getD 0 := by
    intro seq
    have hword := hview.word_key (.state seq .b1)
    rwa [key_state] at hword
  have hb2 : ∀ seq : UInt64, (valueAt db' (base ++ ":state:" ++ toString seq ++ ":b2")).getD 0 =
      (valueAt db (base ++ ":state:" ++ toString seq ++ ":b2")).getD 0 := by
    intro seq
    have hword := hview.word_key (.state seq .b2)
    rwa [key_state] at hword
  unfold tallyChannel
  simp only [hview.latestSeq, valueAt_status, hview.word_key, hcapacity, hb1, hb2]

theorem Unseen.compliance (h : Unseen db op plan) (hreg : Registered db (keyed op.base plan) db') (htidy : Tidy db) :
    complianceWitness db' = complianceWitness db := by
  have hexists : ∀ base ∈ Pcn.channelBases db, existsChannel db base = true := by
    intro base hmem
    rw [channelBases_eq] at hmem
    have hfound := List.mem_mergeSort.mp ((List.destutter_sublist _ _).subset hmem)
    obtain ⟨kv, -, hkv⟩ := List.mem_filterMap.mp hfound
    unfold countedBase at hkv
    split at hkv
    · cases hkv
    split at hkv
    · rename_i hexists
      rwa [← Option.some.inj hkv]
    · cases hkv
  have hfold : ∀ (l : List String) (tally : Tally), (∀ base ∈ l, existsChannel db base = true) →
      l.foldl (tallyChannel db') tally = l.foldl (tallyChannel db) tally := by
    intro l
    induction l with
    | nil => exact fun _ _ => rfl
    | cons base rest ih =>
      intro tally hall
      rw [List.foldl_cons, List.foldl_cons, tallyChannel_congr (h.sameView hreg (hall base List.mem_cons_self))]
      exact ih _ fun b hb => hall b (List.mem_cons_of_mem base hb)
  unfold complianceWitness
  dsimp only
  rw [h.channelBases hreg htidy, hfold _ _ hexists]

end Hidden

/-! ### Openings tried again -/

section Retry

variable {db : NucleusDb P} {p1 p2 : String} {capacity createdAt : UInt64} {plan : List (Slot × UInt64)}

theorem map_fst_openSlots (base : String) (sentinel capacity createdAt : UInt64) :
    (keyed base (openSlots sentinel capacity createdAt)).map Prod.fst = (keyed base (openSlots 0 0 0)).map Prod.fst := rfl

theorem map_fst_of_plan_open {db' : NucleusDb P} {createdAt' : UInt64} {plan' : List (Slot × UInt64)}
    (hplan : (open_ p1 p2 capacity).plan db createdAt = .ok plan)
    (hplan' : (open_ p1 p2 capacity).plan db' createdAt' = .ok plan') (base : String) :
    (keyed base plan').map Prod.fst = (keyed base plan).map Prod.fst := by
  unfold SettlementOp.plan at hplan hplan'
  dsimp only at hplan hplan'
  split at hplan
  · cases hplan
  split at hplan'
  · cases hplan'
  rw [← Except.ok.inj hplan, ← Except.ok.inj hplan']
  exact (map_fst_openSlots _ _ _ _).trans (map_fst_openSlots _ _ _ _).symm

theorem apply_open_reconfigure (htidy : Tidy db) (hplan : (open_ p1 p2 capacity).plan db createdAt = .ok plan)
    (setup : Setup P) (createdAt' : UInt64) (now : Nat) :
    (open_ p1 p2 capacity).apply
        (reconfigure ((open_ p1 p2 capacity).enter db plan) setup) createdAt' now =
      (open_ p1 p2 capacity).apply (reconfigure db setup) createdAt' now := by
  have hreg : Registered db (keyed (open_ p1 p2 capacity).base plan)
      ((open_ p1 p2 capacity).enter db plan) := ⟨rfl, rfl⟩
  have hexists := existsChannel_of_registered hreg htidy (open_ p1 p2 capacity).base
  have hsame : (open_ p1 p2 capacity).plan
      (reconfigure ((open_ p1 p2 capacity).enter db plan) setup) createdAt' =
      (open_ p1 p2 capacity).plan (reconfigure db setup) createdAt' := by
    have hleft : existsChannel (reconfigure ((open_ p1 p2 capacity).enter db plan) setup)
        (open_ p1 p2 capacity).base = existsChannel (reconfigure db setup)
        (open_ p1 p2 capacity).base := hexists
    unfold SettlementOp.plan
    dsimp only
    rw [hleft]
  rw [apply_eq_carryOut, apply_eq_carryOut, hsame]
  cases hplan' : (open_ p1 p2 capacity).plan (reconfigure db setup) createdAt' with
  | error e =>
    unfold SettlementOp.plan at hplan hplan'
    dsimp only at hplan hplan'
    have hmissing : existsChannel (reconfigure db setup) (open_ p1 p2 capacity).base =
      existsChannel db (open_ p1 p2 capacity).base := rfl
    split at hplan
    · cases hplan
    · rename_i hnone
      rw [hmissing, if_neg hnone] at hplan'
      cases hplan'
  | ok plan' =>
    have henter : (open_ p1 p2 capacity).enter
        (reconfigure ((open_ p1 p2 capacity).enter db plan) setup) plan' =
        (open_ p1 p2 capacity).enter (reconfigure db setup) plan' := by
      have hkeys := map_fst_of_plan_open hplan hplan' (open_ p1 p2 capacity).base
      unfold SettlementOp.enter reconfigure
      dsimp only
      rw [hkeys, KeyMap.register_register]
    unfold SettlementOp.carryOut SettlementOp.delta
    dsimp only
    rw [henter]

end Retry

/-! ### Which failures leave no trace -/

/-- An opening that the commit's checks refuse. The cells of its keys are zero, and the keys mean nothing. -/
structure HarmlessOpening (db : NucleusDb P) (op : SettlementOp) (plan : List (Slot × UInt64)) : Prop where
  opening : ∃ p1 p2 capacity, op = .open_ p1 p2 capacity
  refused : ¬ (op.enter db plan).Admissible (op.delta db plan) []
  tidy : Tidy db
  unseen : Unseen db op plan

/-- The operation is refused outright, or it is a harmless opening. -/
def Traceless (db : NucleusDb P) (op : SettlementOp) (createdAt : UInt64) : Prop :=
  (∃ e, op.plan db createdAt = .error e) ∨ ∃ plan, op.plan db createdAt = .ok plan ∧ HarmlessOpening db op plan

theorem HarmlessOpening.noTrace {db db' : NucleusDb P} {op : SettlementOp} {createdAt : UInt64} {now : Nat}
    {r : Except PcnError Unit} {plan : List (Slot × UInt64)} (h : HarmlessOpening db op plan)
    (hplan : op.plan db createdAt = .ok plan) (happly : op.apply db createdAt now = some (r, db')) :
    NoTrace op db db' := by
  obtain ⟨e, hcommit⟩ := NucleusDb.commit_of_not_admissible now h.refused
  have hrefused := apply_of_commit_error hplan hcommit
  obtain ⟨-, rfl⟩ := Prod.mk.inj (Option.some.inj (happly.symm.trans hrefused))
  have hreg : Registered db (keyed op.base plan) (op.enter db plan) := ⟨rfl, rfl⟩
  obtain ⟨p1, p2, capacity, rfl⟩ := h.opening
  exact ⟨h.unseen.snapshot hreg h.tidy, h.unseen.compliance hreg h.tidy,
    fun setup createdAt' now' => apply_open_reconfigure h.tidy hplan setup createdAt' now'⟩

/-- **When a failed settlement changes nothing.** Let an operation return an error. If it was refused outright, or is an
opening that the commit's checks refused and whose keys mean nothing, then every snapshot and the compliance witness
are as before, and the operation can be tried again under other settings as if it had not been tried. On a channel that
is visible and has not reached the last step number, this is so only if the operation was refused outright. -/
theorem failed_settlement_noTrace {db db' : NucleusDb P} {op : SettlementOp} {createdAt : UInt64} {now : Nat}
    {e : PcnError} (h : op.apply db createdAt now = some (.error e, db')) :
    (Traceless db op createdAt → NoTrace op db db') ∧
      (∀ p1 p2 snap, op.base = channelBase p1 p2 → channelSnapshot db p1 p2 = some snap →
        snap.record.lastSeq ≠ 0xFFFFFFFFFFFFFFFF →
        (NoTrace op db db' ↔ ∃ e, op.plan db createdAt = .error e)) := by
  have houtright : (∃ e, op.plan db createdAt = .error e) → NoTrace op db db' := by
    rintro ⟨e', he'⟩
    rw [apply_eq_carryOut, he'] at h
    obtain ⟨-, rfl⟩ := Prod.mk.inj (Option.some.inj h)
    exact NoTrace.refl op db
  constructor
  · rintro (hrefused | ⟨plan, hplan, hharmless⟩)
    · exact houtright hrefused
    · exact hharmless.noTrace hplan h
  · intro p1 p2 snap hbase hsnap hlast
    refine ⟨?_, houtright⟩
    intro htrace
    cases hplan : op.plan db createdAt with
    | error e' => exact ⟨e', rfl⟩
    | ok plan => exact absurd (htrace.snapshots p1 p2) (snapshot_ne_of_planned hbase hsnap hlast hplan h)

/-- The reference database with a limit that no opening meets. -/
def crampedDb : NucleusDb .reference :=
  { NucleusDb.singleWitnessDb with
    securityParams := { NucleusDb.singleWitnessDb.securityParams with maxDeltaWrites := 3 } }

theorem failed_settlement_noTrace_open :
    ∃ e db, (open_ "a" "b" 100).apply crampedDb 0 0 = some (.error e, db) ∧
      NoTrace (.open_ "a" "b" 100) crampedDb db := by
  have hget : ∀ key, crampedDb.keymap.get key = none := fun _ => Std.ExtTreeMap.getElem?_empty
  have hmissing : ∀ q, ¬ existsChannel crampedDb q = true := by
    intro q
    rw [existsChannel_iff]
    exact not_not.mpr (word_of_absent (hget q))
  have hplan : (open_ "a" "b" 100).plan crampedDb 0 =
      .ok (openSlots (recordSentinel .reference (openRecord "a" "b" 100 0)) 100 0) :=
    plan_open_of_missing (Bool.not_eq_true _ ▸ hmissing _)
  have hrefused : ¬ ((open_ "a" "b" 100).enter crampedDb
      (openSlots (recordSentinel .reference (openRecord "a" "b" 100 0)) 100 0)).Admissible
      ((open_ "a" "b" 100).delta crampedDb
        (openSlots (recordSentinel .reference (openRecord "a" "b" 100 0)) 100 0)) [] := by
    intro hadm
    have hshape := hadm.shape
    unfold Engine.validateCommitShape at hshape
    rw [length_delta, enter_securityParams, if_pos (by decide)] at hshape
    cases hshape
  obtain ⟨e, hcommit⟩ := NucleusDb.commit_of_not_admissible 0 hrefused
  have happly := apply_of_commit_error hplan hcommit
  refine ⟨_, _, happly, (failed_settlement_noTrace happly).1 (.inr ⟨_, hplan, ⟨⟨_, _, _, rfl⟩, hrefused, ?_, ?_⟩⟩)⟩
  · exact fun _ _ => rfl
  · exact unseen_of_separate _ fun q hq => absurd hq (hmissing q)

def littered : NucleusDb .reference :=
  { NucleusDb.singleWitnessDb with state := ⟨[5, 5, 5, 5, 5, 5, 5]⟩ }

/-- An opening that fails, and afterwards there is a channel. -/
theorem failed_open_shows_channel :
    Reachable littered ∧ channelSnapshot littered "a" "b" = none ∧
      ∃ e db, (open_ "a" "b" 100).apply littered 0 0 = some (.error e, db) ∧
        (channelSnapshot db "a" "b").isSome := by
  have hblank : NoChannelKeys littered := by
    intro key hsome
    have hnone : littered.keymap.get key = none := Std.ExtTreeMap.getElem?_empty
    rw [hnone] at hsome
    cases hsome
  have hdormant := hblank.dormant "a" "b"
  have hmark := recordSentinel_reference "a" "b" 100 0
  have hplan : (open_ "a" "b" 100).plan littered 0 = .ok (openSlots 0x100000000000000 100 0) := by
    rw [plan_open_of_missing hdormant.existsChannel, hmark]
  generalize hdb : (open_ "a" "b" 100).enter littered (openSlots 0x100000000000000 100 0) = db
  have hreg : Registered littered (keyed (channelBase "a" "b") (openSlots 0x100000000000000 100 0)) db := by
    rw [← hdb]
    exact ⟨rfl, rfl⟩
  have hsound : db.keymap.Sound := hreg.sound KeyMap.sound_new
  -- every key of the opening has got one of the seven cells
  have hcell : ∀ slot v, Writes.last (openSlots 0x100000000000000 100 0) slot = some v →
      ∃ idx, db.keymap.get (slot.key (channelBase "a" "b")) = some idx ∧ idx < littered.state.values.length ∧
        db.state.cell idx = 5 := by
    intro slot v hlast
    have hmem : slot.key (channelBase "a" "b") ∈
        (keyed (channelBase "a" "b") (openSlots 0x100000000000000 100 0)).map Prod.fst := by
      by_contra hout
      have hnone := (Writes.last_eq_none_iff_not_mem _ _).mpr hout
      rw [last_keyed, hlast] at hnone
      cases hnone
    obtain ⟨idx, hidx⟩ := Option.isSome_iff_exists.mp ((hreg.isSome_get _).mpr (.inr hmem))
    have hbelow := hsound.below _ idx hidx
    have hnext : db.keymap.nextIndex ≤ 7 := by
      rw [hreg.keymap]
      exact KeyMap.nextIndex_register_le _ _
    have hlt : idx < 7 := Nat.lt_of_lt_of_le hbelow hnext
    have hfive : ∀ i < 7, littered.state.cell i = 5 := by decide
    exact ⟨idx, hidx, hlt, by rw [hreg.state]; exact hfive idx hlt⟩
  have hrefused : ¬ ((open_ "a" "b" 100).enter littered (openSlots 0x100000000000000 100 0)).Admissible
      ((open_ "a" "b" 100).delta littered (openSlots 0x100000000000000 100 0)) [] := by
    intro hadm
    have hmono := hadm.monotone rfl
    unfold Engine.verifyMonotoneExtension at hmono
    split at hmono
    · cases hmono
    rename_i hraw
    rw [Bool.not_eq_true', Bool.not_eq_false, Engine.verifyRawMonotoneExtension_iff] at hraw
    obtain ⟨idx, hidx, -, hfive⟩ := hcell .record 0x100000000000000 rfl
    have hkept := hraw idx
    rw [enter_state, ← hreg.state, hfive] at hkept
    have hpresent : ∀ w ∈ keyed (channelBase "a" "b") (openSlots 0x100000000000000 100 0),
        (db.keymap.get w.1).isSome := fun w hw => (hreg.isSome_get _).mpr (.inr (List.mem_map_of_mem hw))
    have hnew := Engine.cell_apply_indexed hsound db.state hpresent hidx
    rw [last_keyed] at hnew
    have hdelta : (open_ "a" "b" 100).delta littered (openSlots 0x100000000000000 100 0) =
        ⟨db.keymap.indexed (keyed (channelBase "a" "b") (openSlots 0x100000000000000 100 0))⟩ := by
      rw [← hdb]
      rfl
    have hrecord : Writes.last (openSlots 0x100000000000000 100 0) .record = some 0x100000000000000 := rfl
    rw [hdelta, hnew, hrecord, Option.getD_some] at hkept
    exact absurd (hkept (by decide)) (by decide)
  obtain ⟨e, hcommit⟩ := NucleusDb.commit_of_not_admissible 0 hrefused
  have happly := apply_of_commit_error hplan hcommit
  rw [hdb] at happly
  have hnew : NucleusDb.new ⟨[5, 5, 5, 5, 5, 5, 5]⟩ .binaryMerkle NucleusDb.singleWitnessCfg ⟨0, 0⟩ = some littered := rfl
  refine ⟨.opened (.inl ⟨_, _, _, hnew⟩), hdormant.snapshot, _, db, happly, ?_⟩
  obtain ⟨idx, hidx, -, hfive⟩ := hcell .record 0x100000000000000 rfl
  have hexists : existsChannel db (channelBase "a" "b") = true := by
    rw [existsChannel_iff, ← key_record (channelBase "a" "b"), word_of_get hidx, hfive]
    decide
  have hseq : latestSeq db (channelBase "a" "b") ≠ 0 := by
    rw [latestSeq_of_register hreg.keymap (fun w hw n hn => seq?_openSlots hw n hn)
      ⟨(.state 1 .status, 1), by simp [openSlots], .status, rfl⟩]
    obtain ⟨-, hle, -⟩ := max_spec (latestSeq littered (channelBase "a" "b")) 1
    intro hzero
    rw [hzero] at hle
    exact absurd hle (by decide)
  obtain ⟨idx', hidx', hlt', -⟩ := hcell .capacity 100 rfl
  have hcapacity : capacityFor db (channelBase "a" "b") = some (db.state.cell idx') :=
    valueAt_of_lt hidx' (by rw [hreg.state]; exact hlt')
  rw [channelSnapshot_eq, if_pos ⟨hexists, hseq⟩, hcapacity]
  rfl

end AgentHalo.Pcn
