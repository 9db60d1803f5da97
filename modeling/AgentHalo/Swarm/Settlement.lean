import AgentHalo.Pcn.Closed
import AgentHalo.Pcn.Failures
import AgentHalo.Pcn.Symmetry

/-!
# Settling a chunk transfer

The seeder of chunks is paid through the channel that it shares with the leecher: the price leaves the leecher's balance
and enters the seeder's, by an update of the channel. Price and balances are computed with saturation, and the update
only compares their saturated sum to the capacity. So the settlement moves what fits into a word, which is the price if
the price and the seeder's new balance do. A settlement that fails is a failed update: if the commit refused it, the
step it was going to take is counted.
-/

namespace AgentHalo.Swarm

open Engine (NucleusDb)
open Pcn (ChannelSnapshot SettlementOp PcnError channelSnapshot channelBase canonicalPair saturatingAdd saturatingSub
  Updatable UpdateAdmissible Reachable)

variable {P : Platform}

inductive BitswapTransferError where
  | missingChannel
  | insufficientCredit
  | applyFailed
deriving DecidableEq, Repr

structure SwarmConfig where
  chunkCreditCost : UInt64 := 1

def saturatingMul (a b : UInt64) : UInt64 := if a.toNat * b.toNat < 2 ^ 64 then a * b else 0xFFFFFFFFFFFFFFFF

/-- The balances once the cost has gone from the leecher to the other participant, if the leecher has it. -/
def newBalances (snapshot : ChannelSnapshot) (leecher : String) (cost : UInt64) : Option (UInt64 × UInt64) :=
  if leecher = snapshot.record.participant1 then
    if snapshot.balance1 < cost then none
    else some (saturatingSub snapshot.balance1 cost, saturatingAdd snapshot.balance2 cost)
  else
    if snapshot.balance2 < cost then none
    else some (saturatingAdd snapshot.balance1 cost, saturatingSub snapshot.balance2 cost)

def settleChunkTransfer (db : NucleusDb P) (seeder leecher : String) (chunkCount : UInt64) (config : SwarmConfig)
    (createdAt : UInt64) (now : Nat) : Option (Except BitswapTransferError Unit × NucleusDb P) :=
  match channelSnapshot db seeder leecher with
  | none => some (.error .missingChannel, db)
  | some snapshot =>
    let cost := saturatingMul chunkCount config.chunkCreditCost
    match newBalances snapshot leecher cost with
    | none => some (.error .insufficientCredit, db)
    | some (newBalance1, newBalance2) =>
      let op := SettlementOp.update snapshot.record.participant1 snapshot.record.participant2 newBalance1 newBalance2
      (op.apply db createdAt now).map fun (result, db) => (result.mapError fun _ => .applyFailed, db)

/-! ### What a settlement is for -/

def leecherBalance (snapshot : ChannelSnapshot) (leecher : String) : UInt64 :=
  if leecher = snapshot.record.participant1 then snapshot.balance1 else snapshot.balance2

def seederBalance (snapshot : ChannelSnapshot) (seeder : String) : UInt64 :=
  if seeder = snapshot.record.participant2 then snapshot.balance2 else snapshot.balance1

/-- The price has gone from the leecher to the seeder. -/
structure Moves (before after : ChannelSnapshot) (seeder leecher : String) (price : Nat) : Prop where
  leecher : (leecherBalance after leecher).toNat + price = (leecherBalance before leecher).toNat
  seeder : (seederBalance after seeder).toNat = (seederBalance before seeder).toNat + price
  capacity : after.record.capacity = before.record.capacity

/-- The price has been moved, or nothing has been. -/
def Settled (db db' : NucleusDb P) (seeder leecher : String) (price : Nat) : Except BitswapTransferError Unit → Prop
  | .ok () => ∃ before after, channelSnapshot db seeder leecher = some before ∧
      channelSnapshot db' seeder leecher = some after ∧ Moves before after seeder leecher price
  | .error _ => channelSnapshot db' seeder leecher = channelSnapshot db seeder leecher

def price (chunkCount : UInt64) (config : SwarmConfig) : Nat := chunkCount.toNat * config.chunkCreditCost.toNat

/-! ### The two sides -/

section Sides

variable {before after : ChannelSnapshot} {seeder leecher : String} {cost balance1 balance2 : UInt64}

theorem sides (h : (before.record.participant1, before.record.participant2) = canonicalPair seeder leecher) :
    (leecher = before.record.participant1 ∧ seeder = before.record.participant2) ∨
      (leecher ≠ before.record.participant1 ∧ leecher = before.record.participant2 ∧
        seeder = before.record.participant1 ∧ seeder ≠ before.record.participant2) := by
  by_cases hfirst : leecher = before.record.participant1
  · left
    obtain hpair | hpair := Pcn.canonicalPair_cases seeder leecher
    · rw [hpair] at h
      obtain ⟨h1, h2⟩ := Prod.mk.inj h
      exact ⟨hfirst, by rw [h2, hfirst, h1]⟩
    · rw [hpair] at h
      exact ⟨hfirst, (Prod.mk.inj h).2.symm⟩
  · right
    obtain hpair | hpair := Pcn.canonicalPair_cases seeder leecher
    · rw [hpair] at h
      obtain ⟨h1, h2⟩ := Prod.mk.inj h
      refine ⟨hfirst, h2.symm, h1.symm, ?_⟩
      rw [h2, ← h1]
      exact Ne.symm hfirst
    · rw [hpair] at h
      exact absurd (Prod.mk.inj h).1.symm hfirst

theorem toNat_saturatingMul (a b : UInt64) : (saturatingMul a b).toNat = min (a.toNat * b.toNat) (2 ^ 64 - 1) := by
  unfold saturatingMul
  split_ifs with hfits
  · rw [UInt64.toNat_mul, Nat.mod_eq_of_lt hfits]
    omega
  · have hmax : (0xFFFFFFFFFFFFFFFF : UInt64).toNat = 2 ^ 64 - 1 := rfl
    omega

theorem toNat_saturatingAdd (a b : UInt64) : (saturatingAdd a b).toNat = min (a.toNat + b.toNat) (2 ^ 64 - 1) := by
  unfold saturatingAdd
  split_ifs with hfits
  · rw [UInt64.toNat_add, Nat.mod_eq_of_lt hfits]
    omega
  · have hmax : (0xFFFFFFFFFFFFFFFF : UInt64).toNat = 2 ^ 64 - 1 := rfl
    omega

theorem toNat_saturatingSub {a b : UInt64} (h : b ≤ a) : (saturatingSub a b).toNat = a.toNat - b.toNat := by
  unfold saturatingSub
  rw [if_pos h, UInt64.toNat_sub_of_le _ _ h]

theorem newBalances_spec (hpair : (before.record.participant1, before.record.participant2) = canonicalPair seeder leecher)
    (hafter : (after.record.participant1, after.record.participant2) = canonicalPair seeder leecher)
    (h : newBalances before leecher cost = some (after.balance1, after.balance2)) :
    cost ≤ leecherBalance before leecher ∧
      leecherBalance after leecher = saturatingSub (leecherBalance before leecher) cost ∧
      seederBalance after seeder = saturatingAdd (seederBalance before seeder) cost := by
  obtain ⟨h1, h2⟩ := Prod.mk.inj (hafter.trans hpair.symm)
  unfold newBalances at h
  unfold leecherBalance seederBalance
  rw [h1, h2]
  obtain ⟨hleecher, hseeder⟩ | ⟨hleecher, -, -, hseeder⟩ := sides hpair
  · rw [if_pos hleecher] at h
    rw [if_pos hleecher, if_pos hleecher, if_pos hseeder, if_pos hseeder]
    split_ifs at h with hshort
    obtain ⟨hb1, hb2⟩ := Prod.mk.inj (Option.some.inj h)
    exact ⟨UInt64.not_lt.mp hshort, hb1.symm, hb2.symm⟩
  · rw [if_neg hleecher] at h
    rw [if_neg hleecher, if_neg hleecher, if_neg hseeder, if_neg hseeder]
    split_ifs at h with hshort
    obtain ⟨hb1, hb2⟩ := Prod.mk.inj (Option.some.inj h)
    exact ⟨UInt64.not_lt.mp hshort, hb2.symm, hb1.symm⟩

theorem moves_iff {chunkCount : UInt64} {config : SwarmConfig}
    (hpair : (before.record.participant1, before.record.participant2) = canonicalPair seeder leecher)
    (hafter : (after.record.participant1, after.record.participant2) = canonicalPair seeder leecher)
    (hcapacity : after.record.capacity = before.record.capacity)
    (h : newBalances before leecher (saturatingMul chunkCount config.chunkCreditCost) =
      some (after.balance1, after.balance2)) :
    Moves before after seeder leecher (price chunkCount config) ↔
      price chunkCount config < 2 ^ 64 ∧ (seederBalance before seeder).toNat + price chunkCount config < 2 ^ 64 := by
  obtain ⟨hcovered, hleecher, hseeder⟩ := newBalances_spec hpair hafter h
  have hcost := toNat_saturatingMul chunkCount config.chunkCreditCost
  have hleecher' := congrArg UInt64.toNat hleecher
  have hseeder' := congrArg UInt64.toNat hseeder
  have hword := (seederBalance after seeder).toNat_lt
  have hword' := (leecherBalance before leecher).toNat_lt
  rw [toNat_saturatingSub hcovered] at hleecher'
  rw [toNat_saturatingAdd] at hseeder'
  have hle := UInt64.le_iff_toNat_le.mp hcovered
  have hprice : price chunkCount config = chunkCount.toNat * config.chunkCreditCost.toNat := rfl
  rw [← hprice] at hcost
  constructor
  · rintro ⟨hl, hs, -⟩
    omega
  · rintro ⟨hfits, hfits'⟩
    exact ⟨by omega, by omega, hcapacity⟩

end Sides

/-! ### How a settlement goes -/

section Runs

variable {db db' : NucleusDb P} {seeder leecher : String} {chunkCount createdAt : UInt64} {config : SwarmConfig} {now : Nat}
  {before : ChannelSnapshot} {balance1 balance2 : UInt64}

theorem participants_of_snapshot (h : channelSnapshot db seeder leecher = some before) :
    (before.record.participant1, before.record.participant2) = canonicalPair seeder leecher := by
  rw [Pcn.channelSnapshot_eq] at h
  split at h
  · obtain ⟨capacity, -, rfl⟩ := Option.map_eq_some_iff.mp h
    rfl
  · cases h

theorem apply_update_participants (h : channelSnapshot db seeder leecher = some before) :
    (SettlementOp.update before.record.participant1 before.record.participant2 balance1 balance2).apply db createdAt now =
      (SettlementOp.update seeder leecher balance1 balance2).apply db createdAt now := by
  have hpair := participants_of_snapshot h
  obtain hsame | hswapped := Pcn.canonicalPair_cases seeder leecher
  · rw [hsame] at hpair
    obtain ⟨h1, h2⟩ := Prod.mk.inj hpair
    rw [h1, h2]
  · rw [hswapped] at hpair
    obtain ⟨h1, h2⟩ := Prod.mk.inj hpair
    rw [h1, h2, Pcn.apply_update_names]

/-- The update has not even been tried. -/
def Unpayable (db : NucleusDb P) (seeder leecher : String) (cost : UInt64) : Prop :=
  ∀ before balance1 balance2, channelSnapshot db seeder leecher = some before →
    newBalances before leecher cost = some (balance1, balance2) →
      ¬ Updatable db (channelBase seeder leecher) balance1 balance2

/-- The update is written, all of it, and nothing in it was cut off at the largest word. -/
structure Payable (db : NucleusDb P) (seeder leecher : String) (chunkCount : UInt64) (config : SwarmConfig) : Prop where
  inStep : db.ctLeaves.length = db.entries.length
  usable : db.witnessCfg.Usable
  fits : price chunkCount config < 2 ^ 64
  paid : ∀ before balance1 balance2, channelSnapshot db seeder leecher = some before →
    newBalances before leecher (saturatingMul chunkCount config.chunkCreditCost) = some (balance1, balance2) →
      UpdateAdmissible db seeder leecher balance1 balance2 ∧ before.record.lastSeq ≠ 0xFFFFFFFFFFFFFFFF ∧
        (seederBalance before seeder).toNat + price chunkCount config < 2 ^ 64

theorem settle_of_unpayable {r : Except BitswapTransferError Unit}
    (hun : Unpayable db seeder leecher (saturatingMul chunkCount config.chunkCreditCost))
    (h : settleChunkTransfer db seeder leecher chunkCount config createdAt now = some (r, db')) :
    (∃ e, r = .error e) ∧ db' = db := by
  unfold settleChunkTransfer at h
  cases hsnap : channelSnapshot db seeder leecher with
  | none =>
    rw [hsnap] at h
    obtain ⟨rfl, rfl⟩ := Prod.mk.inj (Option.some.inj h)
    exact ⟨⟨_, rfl⟩, rfl⟩
  | some before =>
    rw [hsnap] at h
    dsimp only at h
    cases hnew : newBalances before leecher (saturatingMul chunkCount config.chunkCreditCost) with
    | none =>
      rw [hnew] at h
      obtain ⟨rfl, rfl⟩ := Prod.mk.inj (Option.some.inj h)
      exact ⟨⟨_, rfl⟩, rfl⟩
    | some balances =>
      obtain ⟨e, hrefused⟩ := Pcn.plan_of_not_updatable (hun before balances.1 balances.2 hsnap hnew) createdAt
      rw [hnew] at h
      dsimp only at h
      rw [apply_update_participants hsnap, Pcn.apply_eq_carryOut, hrefused] at h
      obtain ⟨rfl, rfl⟩ := Prod.mk.inj (Option.some.inj h)
      exact ⟨⟨_, rfl⟩, rfl⟩

theorem settle_of_newBalances {r : Except BitswapTransferError Unit}
    (hsnap : channelSnapshot db seeder leecher = some before)
    (hnew : newBalances before leecher (saturatingMul chunkCount config.chunkCreditCost) = some (balance1, balance2))
    (h : settleChunkTransfer db seeder leecher chunkCount config createdAt now = some (r, db')) :
    ∃ result, (SettlementOp.update seeder leecher balance1 balance2).apply db createdAt now = some (result, db') ∧
      r = result.mapError fun _ => .applyFailed := by
  unfold settleChunkTransfer at h
  rw [hsnap] at h
  dsimp only at h
  rw [hnew] at h
  dsimp only at h
  rw [apply_update_participants hsnap] at h
  obtain ⟨⟨result, db''⟩, happly, heq⟩ := Option.map_eq_some_iff.mp h
  obtain ⟨rfl, rfl⟩ := Prod.mk.inj heq
  exact ⟨result, happly, rfl⟩

theorem settled_iff_payable (hP : P.SignaturesCorrect) (hsound : db.keymap.Sound)
    (hsnap : channelSnapshot db seeder leecher = some before)
    (hnew : newBalances before leecher (saturatingMul chunkCount config.chunkCreditCost) = some (balance1, balance2))
    (hup : Updatable db (channelBase seeder leecher) balance1 balance2)
    (hlast : before.record.lastSeq ≠ 0xFFFFFFFFFFFFFFFF) {result : Except PcnError Unit}
    (happly : (SettlementOp.update seeder leecher balance1 balance2).apply db createdAt now = some (result, db')) :
    Settled db db' seeder leecher (price chunkCount config) (result.mapError fun _ => .applyFailed) ↔
      Payable db seeder leecher chunkCount config := by
  have hchanged : channelSnapshot db' seeder leecher ≠ channelSnapshot db seeder leecher :=
    Pcn.snapshot_ne_of_planned rfl hsnap hlast (Pcn.plan_of_updatable hup createdAt) happly
  have hshows := Pcn.shows_of_snapshot hsnap
  obtain ⟨hadm, husable, hresult, hwritten⟩ | ⟨hrefused, hresult, -⟩ := Pcn.apply_of_updatable hP hup happly
  · unfold Pcn.acceptedResult at hresult
    by_cases hstep : db.ctLeaves.length = db.entries.length
    · rw [if_pos hstep] at hresult
      subst hresult
      obtain ⟨after, hafter, rfl, rfl⟩ := hup.snapshot hsound hwritten (by rw [hshows.seq]; exact hlast)
      have hcapacity : after.record.capacity = before.record.capacity := by
        have hkept := (hup.kept hsound hwritten).2.1
        rw [(Pcn.shows_of_snapshot hafter).capacity, ← hup.capacity, hshows.capacity] at hkept
        exact Option.some.inj hkept
      have hmoves := moves_iff (participants_of_snapshot hsnap) (participants_of_snapshot hafter) hcapacity hnew
      constructor
      · rintro ⟨before', after', hbefore', hafter', hmoved⟩
        obtain rfl := Option.some.inj (hsnap.symm.trans hbefore')
        obtain rfl := Option.some.inj (hafter.symm.trans hafter')
        obtain ⟨hfits, hcredit⟩ := hmoves.mp hmoved
        refine ⟨hstep, husable, hfits, fun before' balance1 balance2 hbefore' hnew' => ?_⟩
        obtain rfl := Option.some.inj (hsnap.symm.trans hbefore')
        obtain ⟨rfl, rfl⟩ := Prod.mk.inj (Option.some.inj (hnew.symm.trans hnew'))
        exact ⟨hadm, hlast, hcredit⟩
      · intro hpay
        exact ⟨before, after, hsnap, hafter, hmoves.mpr ⟨hpay.fits, (hpay.paid _ _ _ hsnap hnew).2.2⟩⟩
    · -- The update shows, although the call failed.
      rw [if_neg hstep] at hresult
      subst hresult
      exact iff_of_false hchanged fun hpay => hstep hpay.inStep
  · -- The step the update was going to take is counted.
    subst hresult
    exact iff_of_false hchanged fun hpay => hrefused ⟨(hpay.paid _ _ _ hsnap hnew).1, hpay.usable⟩

end Runs

/-- **A settlement moves the price or changes nothing**, in a reachable database, if its update is not tried, or it is
written in full and nothing is cut off at the largest word; and it does so only then, unless the channel has reached the
last step number. -/
theorem settleChunkTransfer_exact (hP : P.SignaturesCorrect) {db db' : NucleusDb P} (hreach : Reachable db)
    {seeder leecher : String} {chunkCount createdAt : UInt64} {config : SwarmConfig} {now : Nat}
    {r : Except BitswapTransferError Unit}
    (h : settleChunkTransfer db seeder leecher chunkCount config createdAt now = some (r, db')) :
    (Unpayable db seeder leecher (saturatingMul chunkCount config.chunkCreditCost) ∨
        Payable db seeder leecher chunkCount config →
      Settled db db' seeder leecher (price chunkCount config) r) ∧
    ((∀ before, channelSnapshot db seeder leecher = some before → before.record.lastSeq ≠ 0xFFFFFFFFFFFFFFFF) →
      Settled db db' seeder leecher (price chunkCount config) r →
        Unpayable db seeder leecher (saturatingMul chunkCount config.chunkCreditCost) ∨
          Payable db seeder leecher chunkCount config) := by
  by_cases hun : Unpayable db seeder leecher (saturatingMul chunkCount config.chunkCreditCost)
  · obtain ⟨⟨e, rfl⟩, rfl⟩ := settle_of_unpayable hun h
    exact ⟨fun _ => rfl, fun _ _ => .inl hun⟩
  · have hpayable := hun
    unfold Unpayable at hpayable
    push Not at hpayable
    obtain ⟨before, balance1, balance2, hsnap, hnew, hup⟩ := hpayable
    obtain ⟨result, happly, rfl⟩ := settle_of_newBalances hsnap hnew h
    constructor
    · intro hexact
      have hpay := hexact.resolve_left hun
      exact (settled_iff_payable hP hreach.sound hsnap hnew hup (hpay.paid _ _ _ hsnap hnew).2.1 happly).mpr hpay
    · intro hlast hsettled
      exact .inr ((settled_iff_payable hP hreach.sound hsnap hnew hup (hlast _ hsnap) happly).mp hsettled)

theorem singleWitnessDb_settle (capacity chunkCount : UInt64) (config : SwarmConfig) {balance1 balance2 : UInt64}
    (hnew : newBalances ((Pcn.Channel.opened 0x100000000000000 capacity 0).snapshot "seeder" "leecher") "leecher"
      (saturatingMul chunkCount config.chunkCreditCost) = some (balance1, balance2))
    (hsum : saturatingAdd balance1 balance2 = capacity) :
    ∃ (db db' : NucleusDb .reference) (after : ChannelSnapshot), Reachable db ∧
      channelSnapshot db "seeder" "leecher" =
        some ((Pcn.Channel.opened 0x100000000000000 capacity 0).snapshot "seeder" "leecher") ∧
      settleChunkTransfer db "seeder" "leecher" chunkCount config 0 0 = some (.ok (), db') ∧
      channelSnapshot db' "seeder" "leecher" = some after ∧ after.record.capacity = capacity ∧
      after.balance1 = balance1 ∧ after.balance2 = balance2 := by
  obtain ⟨db, -, hrun⟩ := Pcn.singleWitnessDb_open "seeder" "leecher" capacity
  have hsnap := hrun.live.snapshot
  obtain ⟨db', happly, hrun'⟩ := hrun.call (.update "seeder" "leecher" balance1 balance2) rfl
    (hrun.live.plan_update_of_open hsum rfl) (by simp) (by simp)
  refine ⟨db, db', _, hrun.reachable, hsnap, ?_, hrun'.live.snapshot, rfl, rfl, rfl⟩
  unfold settleChunkTransfer
  rw [hsnap]
  dsimp only
  rw [hnew]
  dsimp only
  rw [apply_update_participants hsnap, happly]
  rfl

theorem settleChunkTransfer_exact_two :
    ∃ db db' : NucleusDb .reference, Reachable db ∧
      settleChunkTransfer db "seeder" "leecher" 2 {} 0 0 = some (.ok (), db') ∧
      Settled db db' "seeder" "leecher" (price 2 {}) (.ok ()) ∧
      (Unpayable db "seeder" "leecher" (saturatingMul 2 1) ∨ Payable db "seeder" "leecher" 2 {}) := by
  obtain ⟨db, db', after, hreach, hsnap, hsettle, hafter, hcapacity, hb1, hb2⟩ :=
    singleWitnessDb_settle 100 2 {} (show _ = some (98, 2) by decide) (by decide)
  have hsettled : Settled db db' "seeder" "leecher" (price 2 {}) (.ok ()) := by
    refine ⟨_, after, hsnap, hafter, ?_⟩
    refine (moves_iff (participants_of_snapshot hsnap) (participants_of_snapshot hafter) hcapacity ?_).mpr
      ⟨by decide, by decide⟩
    rw [hb1, hb2]
    decide
  refine ⟨db, db', hreach, hsettle, hsettled, ?_⟩
  refine (settleChunkTransfer_exact Platform.reference_signaturesCorrect hreach hsettle).2 ?_ hsettled
  intro before hbefore
  obtain rfl := Option.some.inj (hsnap.symm.trans hbefore)
  decide

/-- A price that exceeds every word is settled with the largest word. -/
theorem settleChunkTransfer_cut_off :
    ∃ db db' : NucleusDb .reference, Reachable db ∧
      settleChunkTransfer db "seeder" "leecher" 0x8000000000000000 ⟨4⟩ 0 0 = some (.ok (), db') ∧
      ¬ Settled db db' "seeder" "leecher" (price 0x8000000000000000 ⟨4⟩) (.ok ()) := by
  obtain ⟨db, db', after, hreach, hsnap, hsettle, hafter, -, -, -⟩ :=
    singleWitnessDb_settle 0xFFFFFFFFFFFFFFFF 0x8000000000000000 ⟨4⟩ (show _ = some (0, 0xFFFFFFFFFFFFFFFF) by decide)
      (by decide)
  refine ⟨db, db', hreach, hsettle, ?_⟩
  rintro ⟨before, after', hbefore, -, hmoves⟩
  have hleecher := hmoves.leecher
  have hword := (leecherBalance before "leecher").toNat_lt
  have hprice : price 0x8000000000000000 ⟨4⟩ = 2 ^ 65 := by decide
  omega

end AgentHalo.Swarm
