import AgentHalo.Pcn.Runs

/-!
# Sequence numbers

Every successful operation on a channel takes the next sequence number. The current number is found by scanning all keys
of the store, so the claim is about all channels at once: along a run of successful operations every channel holds
exactly the operations applied to it (`Sequenced`). The invariant also says that cells without a key are zero, which is
what the append-only check of the next commit needs: the keys of a step are new, so its writes go to such cells.
-/

namespace AgentHalo.Pcn

open Engine (NucleusDb)
open Store (KeyMap)

variable {P : Platform}

/-! ### What a run does to a pair -/

def SettlementOp.participants : SettlementOp → String × String
  | .open_ p1 p2 _ | .close p1 p2 | .splice p1 p2 _ | .update p1 p2 _ _ => (p1, p2)

theorem SettlementOp.base_eq (op : SettlementOp) : op.base = channelBase op.participants.1 op.participants.2 := by
  cases op <;> rfl

def SettlementOp.IsOn (op : SettlementOp) (p1 p2 : String) : Prop := SamePair op.participants.1 op.participants.2 p1 p2

instance (op : SettlementOp) (p1 p2 : String) : Decidable (op.IsOn p1 p2) := inferInstanceAs (Decidable (SamePair ..))

/-- The operations of a run on one pair, in order. -/
def opsOn (calls : List Call) (p1 p2 : String) : List SettlementOp :=
  (calls.map Call.op).filter fun op => decide (op.IsOn p1 p2)

def SettlementOp.kind : SettlementOp → String
  | .open_ .. => "open"
  | .close .. => "close"
  | .splice .. => "splice"
  | .update .. => "update"

theorem opName_opCode (op : SettlementOp) : opName (opCode op) = op.kind := by cases op <;> rfl

/-- The balances an operation writes, given those before it. -/
def SettlementOp.balances (before : UInt64 × UInt64) : SettlementOp → UInt64 × UInt64
  | .open_ _ _ capacity => (capacity, 0)
  | .close .. => before
  | .splice _ _ newCapacity => (min before.1 newCapacity, saturatingSub newCapacity (min before.1 newCapacity))
  | .update _ _ balance1 balance2 => (balance1, balance2)

/-- The balances written by the last of the operations. -/
def balancesAfter (ops : List SettlementOp) : UInt64 × UInt64 := ops.foldl SettlementOp.balances (0, 0)

/-- The channel is the one that the operations make. -/
def Reflects (ops : List SettlementOp) : Option Channel → Prop
  | none => ops = []
  | some c => c.steps.map (·.kind) = ops.map opCode ∧ (c.last.b1, c.last.b2) = balancesAfter ops

/-! ### The condition on a call -/

def Succeeds (db : NucleusDb P) (call : Call) : Prop :=
  ∃ db', call.op.apply db call.createdAt call.now = some (.ok (), db')

/-- Names without a colon, and a record whose mark is not zero. -/
structure Call.Plain (P : Platform) (call : Call) : Prop where
  p1 : ColonFree call.op.participants.1
  p2 : ColonFree call.op.participants.2
  marked : ∀ q1 q2 capacity, call.op = .open_ q1 q2 capacity →
    recordSentinel P (openRecord q1 q2 capacity call.createdAt) ≠ 0

/-! ### The invariant -/

/-- Since `start`, every channel holds the operations applied to it. -/
structure Sequenced (start : NucleusDb P) (done : List Call) (db : NucleusDb P) : Prop where
  sound : db.keymap.Sound
  tidy : Tidy start → Tidy db
  word : db.securityParams.maxVectorLen < 2 ^ 64
  channel : ∀ p1 p2, ColonFree p1 → ColonFree p2 → ∃ t, Holds db (channelBase p1 p2) t ∧
    Reflects (opsOn done p1 p2) t ∧ (t = none → ∀ slot : Slot, db.keymap.get (slot.key (channelBase p1 p2)) = none)

theorem opsOn_concat (done : List Call) (call : Call) (p1 p2 : String) :
    opsOn (done ++ [call]) p1 p2 = opsOn done p1 p2 ++ (if call.op.IsOn p1 p2 then [call.op] else []) := by
  unfold opsOn
  rw [List.map_append, List.filter_append]
  by_cases h : call.op.IsOn p1 p2
  · simp [h]
  · simp [h]

variable {db db' : NucleusDb P} {call : Call} {done : List Call}

theorem reflects_next {t : Option Channel} {ops : List SettlementOp} (hplain : call.Plain P)
    (hholds : Holds db call.op.base t) (hreflects : Reflects ops t)
    (happly : call.op.apply db call.createdAt call.now = some (.ok (), db')) :
    ∃ c, call.op.next P call.createdAt t = some c ∧ Reflects (ops ++ [call.op]) (some c) := by
  obtain ⟨plan, hplan⟩ : ∃ plan, call.op.plan db call.createdAt = .ok plan := by
    rcases apply_cases happly with ⟨e, -, he, -⟩ | ⟨plan, hplan, -⟩
    · cases he
    · exact ⟨plan, hplan⟩
  cases t with
  | none =>
    have hdormant : Dormant db call.op.base := hholds
    obtain ⟨q1, q2, capacity, hop, -⟩ := hdormant.plan hplan
    have hmark := hplain.marked q1 q2 capacity hop
    have hnil : ops = [] := hreflects
    rw [hop, hnil]
    refine ⟨_, if_neg hmark, rfl, rfl⟩
  | some c =>
    have hlive : Live db call.op.base c := hholds
    obtain ⟨hkinds, hbalances⟩ := hreflects
    refine ⟨_, rfl, ?_, ?_⟩
    · rw [Channel.steps_extend, List.map_append, List.map_append, hkinds]
      congr 1
      cases hop : call.op with
      | open_ q1 q2 capacity =>
        rw [hop] at hlive hplan
        rw [hlive.plan_open] at hplan
        cases hplan
      | _ => rfl
    · unfold balancesAfter at hbalances ⊢
      rw [List.foldl_concat, ← hbalances]
      cases hop : call.op with
      | open_ q1 q2 capacity =>
        rw [hop] at hlive hplan
        rw [hlive.plan_open] at hplan
        cases hplan
      | _ => rfl

theorem sequenced_step {start : NucleusDb P} (h : Sequenced start done db) (hcall : Succeeds db call ∧ call.Plain P) :
    Sequenced start (done ++ [call]) (settle db call) := by
  obtain ⟨⟨db', happly⟩, hplain⟩ := hcall
  rw [settle_of_apply call happly]
  have hwritten : ∃ writes, Written db writes db' := by
    rcases apply_cases happly with ⟨e, -, he, -⟩ | ⟨plan, -, ⟨e, -, he, -⟩ | ⟨entry, -, -, hwritten⟩⟩
    · cases he
    · cases he
    · exact ⟨_, hwritten⟩
  obtain ⟨writes, hwritten⟩ := hwritten
  constructor
  case sound => exact hwritten.sound h.sound
  case tidy => exact fun htidy => hwritten.tidy h.sound (h.tidy htidy)
  case word =>
    rw [apply_securityParams happly]
    exact h.word
  case channel =>
    intro p1 p2 hp1 hp2
    obtain ⟨t, hholds, hreflects, huntouched⟩ := h.channel p1 p2 hp1 hp2
    rw [opsOn_concat]
    by_cases hon : call.op.IsOn p1 p2
    · have hbase : call.op.base = channelBase p1 p2 := by
        rw [call.op.base_eq]
        exact SamePair.channelBase_eq hon
      rw [← hbase] at hholds
      obtain ⟨c, hnext, hreflects'⟩ := reflects_next hplain hholds hreflects happly
      have hholds' := holds_of_ok h.sound h.word hholds happly
      rw [hnext, hbase] at hholds'
      rw [if_pos hon]
      exact ⟨some c, hholds', hreflects', fun hnone => nomatch hnone⟩
    · have hclear : Clear db call.op call.createdAt (channelBase p1 p2) :=
        SameColons.clear call.op.base_eq ⟨hplain.p1, hplain.p2, hp1, hp2⟩ hon db call.createdAt
      rw [if_neg hon, List.append_nil]
      refine ⟨t, holds_of_clear h.sound hclear hholds happly, hreflects, ?_⟩
      intro hnone slot
      have hanchored : Anchored db (channelBase p1 p2) := by
        intro _ idx hidx
        rw [huntouched hnone .capacity] at hidx
        cases hidx
      rw [(apply_sameView h.sound hclear hanchored happly).keys _ (readFor_key _ slot)]
      exact huntouched hnone slot

/-! ### Runs -/

theorem Sequenced.start (hsound : db.keymap.Sound) (hblank : NoChannelKeys db)
    (hword : db.securityParams.maxVectorLen < 2 ^ 64) : Sequenced db [] db where
  sound := hsound
  tidy := id
  word := hword
  channel p1 p2 _ _ := ⟨none, hblank.dormant p1 p2, rfl, fun _ slot => hblank.get_eq_none (under_key _ slot)⟩

theorem sequenced_exec (hsound : db.keymap.Sound) (hblank : NoChannelKeys db)
    (hword : db.securityParams.maxVectorLen < 2 ^ 64) {calls : List Call}
    (hrun : Run.Along settle (fun db call => Succeeds db call ∧ call.Plain P) db calls) :
    Sequenced db calls (Run.exec settle db calls) := by
  have hnote : ∀ (l done : List Call), l.foldl (fun done call => done ++ [call]) done = done ++ l := by
    intro l
    induction l with
    | nil => simp
    | cons call rest ih => intro done; simp [ih]
  have hinv := Run.exec_invariant_noting (I := Sequenced db) (fun done call => done ++ [call])
    (fun done s call => sequenced_step) (Sequenced.start hsound hblank hword) hrun
  rwa [hnote, List.nil_append] at hinv

theorem Sequenced.snapshot {start : NucleusDb P} {p1 p2 : String} (h : Sequenced start done db) (hp1 : ColonFree p1)
    (hp2 : ColonFree p2) (hne : opsOn done p1 p2 ≠ []) :
    ∃ snap, channelSnapshot db p1 p2 = some snap ∧
      snap.record.lastSeq.toNat = (opsOn done p1 p2).length ∧
      snap.ops = (opsOn done p1 p2).zipIdx.map (fun (op, i) => ⟨UInt64.ofNat (i + 1), op.kind⟩) ∧
      (snap.balance1, snap.balance2) = balancesAfter (opsOn done p1 p2) := by
  obtain ⟨t, hholds, hreflects, -⟩ := h.channel p1 p2 hp1 hp2
  cases t with
  | none => exact absurd hreflects hne
  | some c =>
    have hlive : Live db (channelBase p1 p2) c := hholds
    obtain ⟨hkinds, hbalances⟩ := hreflects
    have hlen : c.steps.length = (opsOn done p1 p2).length := by
      have hlengths := congrArg List.length hkinds
      rwa [List.length_map, List.length_map] at hlengths
    refine ⟨c.snapshot p1 p2, hlive.snapshot, ?_, ?_, hbalances⟩
    · exact (Channel.seq_toNat hlive.short).trans hlen
    · calc
        c.ops = (c.steps.map (·.kind)).zipIdx.map fun entry => ⟨UInt64.ofNat (entry.2 + 1), opName entry.1⟩ := by
          rw [List.zipIdx_map, List.map_map]
          rfl
        _ = ((opsOn done p1 p2).map opCode).zipIdx.map fun entry => ⟨UInt64.ofNat (entry.2 + 1), opName entry.1⟩ := by
          rw [hkinds]
        _ = (opsOn done p1 p2).zipIdx.map fun (op, i) => ⟨UInt64.ofNat (i + 1), op.kind⟩ := by
          rw [List.zipIdx_map, List.map_map]
          refine List.map_congr_left ?_
          rintro ⟨op, i⟩ -
          dsimp only
          rw [← opName_opCode]
          rfl

theorem plan_ne_commit (op : SettlementOp) (db : NucleusDb P) (createdAt : UInt64) (e : Engine.CommitError) :
    op.plan db createdAt ≠ .error (.commit e) := by
  intro h
  unfold SettlementOp.plan at h
  dsimp only at h
  cases op with
  | open_ p1 p2 capacity =>
    dsimp only at h
    split at h <;> cases h
  | update p1 p2 balance1 balance2 =>
    dsimp only at h
    split at h
    · cases h
    split at h
    · cases h
    split at h
    · cases h
    split at h
    · cases h
    split at h <;> cases h
  | close p1 p2 =>
    dsimp only at h
    split at h
    · cases h
    split at h <;> cases h
  | splice p1 p2 newCapacity =>
    dsimp only at h
    split at h <;> cases h

theorem Sequenced.not_monotoneViolation {start : NucleusDb P} (h : Sequenced start done db) (htidy : Tidy start)
    (hplain : call.Plain P) :
    call.op.apply db call.createdAt call.now ≠ some (.error (.commit .monotoneViolation), db') := by
  intro happly
  obtain ⟨t, hholds, -, huntouched⟩ := h.channel _ _ hplain.p1 hplain.p2
  rw [← call.op.base_eq] at hholds huntouched
  rcases apply_cases happly with ⟨e, hplan, he, -⟩ | ⟨plan, hplan, ⟨e, hcommit, he, -⟩ | ⟨entry, -, he, -⟩⟩
  · rw [← Except.error.inj he] at hplan
    exact plan_ne_commit _ _ _ _ hplan
  · obtain rfl := PcnError.commit.inj (Except.error.inj he)
    have hfresh : ∀ w ∈ plan, db.keymap.get (w.1.key call.op.base) = none := by
      intro w hw
      cases t with
      | none => exact huntouched rfl w.1
      | some c =>
        have hlive : Live db call.op.base c := hholds
        exact hlive.get_next_eq_none ((hlive.writesStep hplan).only w hw)
    have hmono := NucleusDb.commit_monotoneViolation hcommit
    have hpass := monotone_of_fresh call.op (h.tidy htidy) hfresh
    have hcontra := hmono.symm.trans hpass
    cases hcontra
  · cases he

/-- **Channel sequencing.** Take a database without channel keys and a run of successful operations on participants
without a colon in their names, with nonzero record marks. For a pair that `n > 0` of the operations were on, the
snapshot's last sequence number is `n`, its operations are `(1, kind₁), …, (n, kindₙ)` in the order in which they were
applied, and its balances are those the last of them wrote; a pair without operations has no snapshot. If the database
started out with nothing in cells that no key has, no further operation fails with a monotone violation. -/
theorem channel_sequencing {db : NucleusDb P} (hsound : db.keymap.Sound) (hblank : NoChannelKeys db)
    (hword : db.securityParams.maxVectorLen < 2 ^ 64) {calls : List Call}
    (hrun : Run.Along settle (fun db call => Succeeds db call ∧ call.Plain P) db calls) :
    (∀ p1 p2, ColonFree p1 → ColonFree p2 → opsOn calls p1 p2 ≠ [] →
      ∃ snap, channelSnapshot (Run.exec settle db calls) p1 p2 = some snap ∧
        snap.record.lastSeq.toNat = (opsOn calls p1 p2).length ∧
        snap.ops = (opsOn calls p1 p2).zipIdx.map (fun (op, i) => ⟨UInt64.ofNat (i + 1), op.kind⟩) ∧
        (snap.balance1, snap.balance2) = balancesAfter (opsOn calls p1 p2)) ∧
      (∀ p1 p2, ColonFree p1 → ColonFree p2 → opsOn calls p1 p2 = [] →
        channelSnapshot (Run.exec settle db calls) p1 p2 = none) ∧
      (Tidy db → ∀ call : Call, call.Plain P → ∀ db', call.op.apply (Run.exec settle db calls) call.createdAt call.now ≠
        some (.error (.commit .monotoneViolation), db')) := by
  have hinv := sequenced_exec hsound hblank hword hrun
  refine ⟨fun p1 p2 hp1 hp2 hne => hinv.snapshot hp1 hp2 hne, ?_, ?_⟩
  · intro p1 p2 hp1 hp2 hnil
    obtain ⟨t, hholds, hreflects, -⟩ := hinv.channel p1 p2 hp1 hp2
    cases t with
    | none => exact Dormant.snapshot hholds
    | some c =>
      have hkinds := hreflects.1
      rw [hnil] at hkinds
      have hlen := congrArg List.length hkinds
      rw [List.length_map, c.length_steps] at hlen
      simp at hlen
  · intro htidy call hplain db'
    exact hinv.not_monotoneViolation htidy hplain

theorem channel_sequencing_open_update_close :
    ∃ snap, channelSnapshot (Run.exec settle NucleusDb.singleWitnessDb
        [⟨.open_ "b" "a" 100, 0, 0⟩, ⟨.update "a" "b" 60 40, 0, 0⟩, ⟨.close "a" "b", 0, 0⟩]) "a" "b" = some snap ∧
      snap.record.lastSeq = 3 ∧ snap.ops = [⟨1, "open"⟩, ⟨2, "update"⟩, ⟨3, "close"⟩] ∧
      (snap.balance1, snap.balance2) = (60, 40) := by
  have hbase : channelBase "b" "a" = channelBase "a" "b" := channelBase_comm _ _
  obtain ⟨db₁, hopen, hrun₁⟩ := singleWitnessDb_open "b" "a" 100
  rw [hbase] at hrun₁
  obtain ⟨db₂, hupdate, hrun₂⟩ := hrun₁.call (.update "a" "b" 60 40) rfl
    (hrun₁.live.plan_update_of_open (by decide) rfl) (by simp) (by simp)
  obtain ⟨db₃, hclose, -⟩ := hrun₂.call (.close "a" "b") rfl hrun₂.live.plan_close (by simp) (by simp)
  have hplain : ∀ op : SettlementOp, op.participants = ("a", "b") ∨ op.participants = ("b", "a") →
      Call.Plain Platform.reference ⟨op, 0, 0⟩ := by
    intro op hop
    have hnames : ColonFree op.participants.1 ∧ ColonFree op.participants.2 := by
      rcases hop with hop | hop <;> rw [hop] <;> exact ⟨by decide, by decide⟩
    refine ⟨hnames.1, hnames.2, fun q1 q2 capacity _ => ?_⟩
    rw [recordSentinel_reference]
    decide
  have hrun : Run.Along settle (fun db call => Succeeds db call ∧ call.Plain Platform.reference)
      NucleusDb.singleWitnessDb
      [⟨.open_ "b" "a" 100, 0, 0⟩, ⟨.update "a" "b" 60 40, 0, 0⟩, ⟨.close "a" "b", 0, 0⟩] := by
    refine ⟨⟨⟨db₁, hopen⟩, hplain _ (.inr rfl)⟩, ?_⟩
    rw [settle_of_apply ⟨.open_ "b" "a" 100, 0, 0⟩ hopen]
    refine ⟨⟨⟨db₂, hupdate⟩, hplain _ (.inl rfl)⟩, ?_⟩
    rw [settle_of_apply ⟨.update "a" "b" 60 40, 0, 0⟩ hupdate]
    exact ⟨⟨⟨db₃, hclose⟩, hplain _ (.inl rfl)⟩, trivial⟩
  have hops : opsOn [⟨.open_ "b" "a" 100, 0, 0⟩, ⟨.update "a" "b" 60 40, 0, 0⟩, ⟨.close "a" "b", 0, 0⟩] "a" "b" =
      [.open_ "b" "a" 100, .update "a" "b" 60 40, .close "a" "b"] := by decide
  obtain ⟨snap, hsnap, hseq, hlist, hbalances⟩ := (channel_sequencing KeyMap.sound_new singleWitnessDb_noChannelKeys
    (by decide) hrun).1 "a" "b" (by decide) (by decide) (by rw [hops]; simp)
  rw [hops] at hseq hlist hbalances
  exact ⟨snap, hsnap, UInt64.toNat_inj.mp hseq, hlist, hbalances⟩

end AgentHalo.Pcn
