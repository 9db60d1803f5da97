import AgentHalo.Pcn.Runs

/-!
# The order of the participants

The keys of a channel and its record are made from the sorted pair of names, whoever is named first. The balances are
not sorted along: they are stored as the caller numbered them. So an update with names and balances exchanged is not the
same update, and an opening credits the first of the sorted names. This module says exactly when the order makes no
difference.
-/

namespace AgentHalo.Pcn

open Engine (NucleusDb)
open SettlementOp (update open_)

variable {P : Platform}

/-! ### Updates with the balances exchanged -/

theorem saturatingAdd_comm (a b : UInt64) : saturatingAdd a b = saturatingAdd b a := by
  unfold saturatingAdd
  rw [UInt64.add_comm, Nat.add_comm]

theorem apply_update_names (db : NucleusDb P) (p1 p2 : String) (balance1 balance2 createdAt : UInt64) (now : Nat) :
    (update p1 p2 balance1 balance2).apply db createdAt now =
      (update p2 p1 balance1 balance2).apply db createdAt now := by
  unfold SettlementOp.apply
  dsimp only [opCode]
  rw [channelBase_comm p1 p2]

/-- The update is refused for a reason that has nothing to do with the order of the balances. -/
def RefusedAlike (db : NucleusDb P) (base : String) (balance1 balance2 : UInt64) : Prop :=
  existsChannel db base = false ∨ capacityFor db base = none ∨
    (capacityFor db base = some (saturatingAdd balance1 balance2) ∧ (latestSeq db base = 0 ∨
      statusFromCode (word db ((Slot.state (latestSeq db base) .status).key base)) ≠ .open_))

structure Updatable (db : NucleusDb P) (base : String) (balance1 balance2 : UInt64) : Prop where
  existsChannel : existsChannel db base = true
  capacity : capacityFor db base = some (saturatingAdd balance1 balance2)
  seq : latestSeq db base ≠ 0
  status : statusFromCode (word db ((Slot.state (latestSeq db base) .status).key base)) = .open_

variable {db : NucleusDb P} {base : String} {balance1 balance2 : UInt64}

theorem Updatable.symm (h : Updatable db base balance1 balance2) : Updatable db base balance2 balance1 :=
  ⟨h.existsChannel, by rw [saturatingAdd_comm]; exact h.capacity, h.seq, h.status⟩

theorem RefusedAlike.symm (h : RefusedAlike db base balance1 balance2) : RefusedAlike db base balance2 balance1 := by
  unfold RefusedAlike at h ⊢
  rwa [saturatingAdd_comm]

def updateSlots (db : NucleusDb P) (p1 p2 : String) (balance1 balance2 : UInt64) : List (Slot × UInt64) :=
  stepSlots (.update p1 p2 balance1 balance2) (latestSeq db (channelBase p1 p2) + 1) .open_ balance1 balance2

section Plans

variable {db : NucleusDb P} {p1 p2 : String} {balance1 balance2 : UInt64}

theorem plan_of_refusedAlike (h : RefusedAlike db (channelBase p1 p2) balance1 balance2) (createdAt : UInt64) :
    (update p1 p2 balance1 balance2).plan db createdAt =
      .error (if existsChannel db (channelBase p1 p2) = false ∨ capacityFor db (channelBase p1 p2) = none ∨
        latestSeq db (channelBase p1 p2) = 0 then .channelMissing else .channelNotOpen) := by
  have hbase : (update p1 p2 balance1 balance2).base = channelBase p1 p2 := rfl
  unfold SettlementOp.plan
  dsimp only
  rw [hbase]
  cases hexists : existsChannel db (channelBase p1 p2) with
  | false => simp
  | true =>
    rw [if_neg (by decide)]
    cases hcapacity : capacityFor db (channelBase p1 p2) with
    | none => simp
    | some cap =>
      rcases h with hmissing | hnone | ⟨hsum, hrest⟩
      · rw [hexists] at hmissing
        cases hmissing
      · rw [hcapacity] at hnone
        cases hnone
      · obtain rfl := Option.some.inj (hcapacity.symm.trans hsum)
        dsimp only
        rw [if_neg (not_not.mpr rfl)]
        by_cases hseq : latestSeq db (channelBase p1 p2) = 0
        · rw [if_pos hseq, if_pos (.inr (.inr hseq))]
        · rw [if_neg hseq, if_pos (hrest.resolve_left hseq), if_neg (by simp [hseq])]

theorem plan_of_updatable (h : Updatable db (channelBase p1 p2) balance1 balance2) (createdAt : UInt64) :
    (update p1 p2 balance1 balance2).plan db createdAt = .ok (updateSlots db p1 p2 balance1 balance2) := by
  have hbase : (update p1 p2 balance1 balance2).base = channelBase p1 p2 := rfl
  unfold SettlementOp.plan
  dsimp only
  rw [hbase, h.existsChannel, h.capacity, if_neg (by decide)]
  dsimp only
  rw [if_neg (not_not.mpr rfl), if_neg h.seq, if_neg (not_not.mpr h.status)]
  rfl

theorem plan_of_unbalanced {cap : UInt64} (hexists : existsChannel db (channelBase p1 p2) = true)
    (hcapacity : capacityFor db (channelBase p1 p2) = some cap) (hsum : saturatingAdd balance1 balance2 ≠ cap)
    (createdAt : UInt64) :
    (update p1 p2 balance1 balance2).plan db createdAt =
      .error (.invalidConservation balance1 balance2 cap) := by
  have hbase : (update p1 p2 balance1 balance2).base = channelBase p1 p2 := rfl
  unfold SettlementOp.plan
  dsimp only
  rw [hbase, hexists, hcapacity, if_neg (by decide)]
  dsimp only
  rw [if_pos hsum]

theorem update_cases (db : NucleusDb P) (base : String) (balance1 balance2 : UInt64) :
    RefusedAlike db base balance1 balance2 ∨
      (∃ cap, existsChannel db base = true ∧ capacityFor db base = some cap ∧ saturatingAdd balance1 balance2 ≠ cap) ∨
      Updatable db base balance1 balance2 := by
  cases hexists : existsChannel db base with
  | false => exact .inl (.inl hexists)
  | true =>
    cases hcapacity : capacityFor db base with
    | none => exact .inl (.inr (.inl hcapacity))
    | some cap =>
      by_cases hsum : saturatingAdd balance1 balance2 = cap
      · subst hsum
        by_cases hseq : latestSeq db base = 0
        · exact .inl (.inr (.inr ⟨hcapacity, .inl hseq⟩))
        · by_cases hstatus : statusFromCode (word db ((Slot.state (latestSeq db base) .status).key base)) = .open_
          · exact .inr (.inr ⟨hexists, hcapacity, hseq, hstatus⟩)
          · exact .inl (.inr (.inr ⟨hcapacity, .inr hstatus⟩))
      · exact .inr (.inl ⟨cap, rfl, rfl, hsum⟩)

theorem plan_of_not_updatable (h : ¬ Updatable db (channelBase p1 p2) balance1 balance2) (createdAt : UInt64) :
    ∃ e, (update p1 p2 balance1 balance2).plan db createdAt = .error e := by
  obtain halike | ⟨cap, hexists, hcapacity, hsum⟩ | hup := update_cases db (channelBase p1 p2) balance1 balance2
  · exact ⟨_, plan_of_refusedAlike halike createdAt⟩
  · exact ⟨_, plan_of_unbalanced hexists hcapacity hsum createdAt⟩
  · exact absurd hup h

end Plans

/-! ### The two commits -/

/-- The database as an update enters the commit. The order of the balances makes no difference to it. -/
def updateEntry (db : NucleusDb P) (p1 p2 : String) : NucleusDb P :=
  (update p1 p2 0 0).enter db (updateSlots db p1 p2 0 0)

def updateDelta (db : NucleusDb P) (p1 p2 : String) (balance1 balance2 : UInt64) : Engine.Delta :=
  (update p1 p2 balance1 balance2).delta db (updateSlots db p1 p2 balance1 balance2)

/-- The commit's checks pass for these balances. -/
def UpdateAdmissible (db : NucleusDb P) (p1 p2 : String) (balance1 balance2 : UInt64) : Prop :=
  (updateEntry db p1 p2).Admissible (updateDelta db p1 p2 balance1 balance2) []

section Commits

variable {db db' : NucleusDb P} {p1 p2 : String} {balance1 balance2 : UInt64}

theorem map_fst_updateDelta (db : NucleusDb P) (p1 p2 : String) (balance1 balance2 : UInt64) :
    (updateDelta db p1 p2 balance1 balance2).writes.map Prod.fst = (updateDelta db p1 p2 0 0).writes.map Prod.fst := rfl

theorem length_apply_updateDelta (db : NucleusDb P) (p1 p2 : String) (balance1 balance2 : UInt64) :
    (Engine.apply (updateEntry db p1 p2).state (updateDelta db p1 p2 balance1 balance2)).values.length =
      (Engine.apply (updateEntry db p1 p2).state (updateDelta db p1 p2 0 0)).values.length := by
  -- both write the same cells
  have hle : ∀ {d d' : Engine.Delta}, d.writes.map Prod.fst = d'.writes.map Prod.fst →
      (Engine.apply (updateEntry db p1 p2).state d).values.length ≤
        (Engine.apply (updateEntry db p1 p2).state d').values.length := by
    intro d d' hsame
    refine Engine.length_apply_le (Engine.length_le_apply _ _) ?_
    intro w hw
    have hcell : w.1 ∈ d'.writes.map Prod.fst := by
      rw [← hsame]
      exact List.mem_map_of_mem hw
    obtain ⟨w', hw', heq⟩ := List.mem_map.mp hcell
    rw [← heq]
    exact Engine.lt_length_apply_of_mem _ hw'
  have hsame := map_fst_updateDelta db p1 p2 balance1 balance2
  exact Nat.le_antisymm (hle hsame) (hle hsame.symm)

theorem apply_of_updatable (hP : P.SignaturesCorrect) (h : Updatable db (channelBase p1 p2) balance1 balance2)
    {createdAt : UInt64} {now : Nat} {r : Except PcnError Unit}
    (happly : (update p1 p2 balance1 balance2).apply db createdAt now = some (r, db')) :
    (UpdateAdmissible db p1 p2 balance1 balance2 ∧ db.witnessCfg.Usable ∧ r = acceptedResult db ∧
        Written db (keyed (channelBase p1 p2) (updateSlots db p1 p2 balance1 balance2)) db') ∨
      (¬ (UpdateAdmissible db p1 p2 balance1 balance2 ∧ db.witnessCfg.Usable) ∧
        r = .error (.commit ((updateEntry db p1 p2).refusal (updateDelta db p1 p2 balance1 balance2))) ∧
        Registered db (keyed (channelBase p1 p2) (updateSlots db p1 p2 balance1 balance2)) db') := by
  rcases apply_planned hP (plan_of_updatable h createdAt) happly with ⟨haccepted, hr, hwritten⟩ | ⟨hrefused, hr, hreg⟩
  · exact .inl ⟨haccepted.admissible, haccepted.usable, hr, hwritten⟩
  · exact .inr ⟨fun h => hrefused ⟨h.1, h.2⟩, hr, hreg⟩

end Commits

/-! ### The two snapshots -/

section Snapshots

variable {db db' : NucleusDb P} {p1 p2 : String} {balance1 balance2 : UInt64}

theorem writesStep_updateSlots (db : NucleusDb P) (p1 p2 : String) (balance1 balance2 : UInt64) :
    WritesStep (updateSlots db p1 p2 balance1 balance2) (latestSeq db (channelBase p1 p2) + 1)
      ⟨4, .open_, balance1, balance2⟩ :=
  writesStep_stepSlots _ _ _ _ _

theorem Updatable.kept (h : Updatable db (channelBase p1 p2) balance1 balance2) (hsound : db.keymap.Sound)
    (hwritten : Written db (keyed (channelBase p1 p2) (updateSlots db p1 p2 balance1 balance2)) db') :
    Pcn.existsChannel db' (channelBase p1 p2) = true ∧
      capacityFor db' (channelBase p1 p2) = some (saturatingAdd balance1 balance2) ∧
      latestSeq db' (channelBase p1 p2) =
        max (latestSeq db (channelBase p1 p2)) (latestSeq db (channelBase p1 p2) + 1) := by
  have hstep := writesStep_updateSlots db p1 p2 balance1 balance2
  refine ⟨?_, ?_, ?_⟩
  · rw [existsChannel_iff, ← key_record (channelBase p1 p2), hwritten.word hsound, last_keyed]
    have hrecord : Writes.last (updateSlots db p1 p2 balance1 balance2) .record = none := by
      simp [updateSlots, stepSlots, Writes.last]
    rw [hrecord, Option.getD_none, key_record, ← existsChannel_iff]
    exact h.existsChannel
  · exact hwritten.valueAt_of_not_mem hsound (hstep.not_mem _ (show Slot.capacity.seq? ≠ some _ by simp [Slot.seq?])) h.capacity
  · refine latestSeq_of_register hwritten.keymap ?_ ⟨_, .tail _ (.head _), .status, rfl⟩
    intro w hw n hn
    exact Option.some.inj (hn.symm.trans (hstep.only w hw))

theorem Updatable.snapshot (h : Updatable db (channelBase p1 p2) balance1 balance2) (hsound : db.keymap.Sound)
    (hwritten : Written db (keyed (channelBase p1 p2) (updateSlots db p1 p2 balance1 balance2)) db')
    (hlast : latestSeq db (channelBase p1 p2) ≠ 0xFFFFFFFFFFFFFFFF) :
    ∃ snap, channelSnapshot db' p1 p2 = some snap ∧ snap.balance1 = balance1 ∧ snap.balance2 = balance2 := by
  obtain ⟨hexists, hcapacity, hseq⟩ := h.kept hsound hwritten
  have hstep := writesStep_updateSlots db p1 p2 balance1 balance2
  rw [max_succ hlast] at hseq
  have hpos : latestSeq db' (channelBase p1 p2) ≠ 0 := by
    obtain ⟨hle, -⟩ := max_spec (latestSeq db (channelBase p1 p2)) (latestSeq db (channelBase p1 p2) + 1)
    rw [max_succ hlast] at hle
    rw [hseq]
    intro hzero
    rw [hzero] at hle
    exact h.seq (UInt64.le_antisymm hle UInt64.zero_le)
  refine ⟨slotSnapshot db' p1 p2 (saturatingAdd balance1 balance2), ?_, ?_, ?_⟩
  · rw [channelSnapshot_eq, if_pos ⟨hexists, hpos⟩, hcapacity, Option.map_some]
  · unfold slotSnapshot
    dsimp only
    rw [hseq, hwritten.word hsound, last_keyed, hstep.b1]
    rfl
  · unfold slotSnapshot
    dsimp only
    rw [hseq, hwritten.word hsound, last_keyed, hstep.b2]
    rfl

theorem Updatable.snapshot_of_last {db₁ db₂ : NucleusDb P}
    (h : Updatable db (channelBase p1 p2) balance1 balance2) (hsound : db.keymap.Sound)
    (hwritten₁ : Written db (keyed (channelBase p1 p2) (updateSlots db p1 p2 balance1 balance2)) db₁)
    (hwritten₂ : Written db (keyed (channelBase p1 p2) (updateSlots db p1 p2 balance2 balance1)) db₂)
    (hlast : latestSeq db (channelBase p1 p2) = 0xFFFFFFFFFFFFFFFF) :
    channelSnapshot db₁ p1 p2 = channelSnapshot db₂ p1 p2 := by
  obtain ⟨hexists₁, hcapacity₁, hseq₁⟩ := h.kept hsound hwritten₁
  obtain ⟨hexists₂, hcapacity₂, hseq₂⟩ := h.symm.kept hsound hwritten₂
  have hstep₁ := writesStep_updateSlots db p1 p2 balance1 balance2
  have hstep₂ := writesStep_updateSlots db p1 p2 balance2 balance1
  have hother : ∀ slot : Slot, slot.seq? ≠ some (latestSeq db (channelBase p1 p2) + 1) →
      word db₁ (slot.key (channelBase p1 p2)) = word db₂ (slot.key (channelBase p1 p2)) := by
    intro slot hslot
    rw [hwritten₁.word hsound, hwritten₂.word hsound,
      (Writes.last_eq_none_iff_not_mem _ _).mpr (hstep₁.not_mem _ hslot),
      (Writes.last_eq_none_iff_not_mem _ _).mpr (hstep₂.not_mem _ hslot)]
  have hkeymap : db₁.keymap = db₂.keymap := hwritten₁.keymap.trans hwritten₂.keymap.symm
  have hops : opEntries db₁ (channelBase p1 p2) = opEntries db₂ (channelBase p1 p2) := by
    unfold opEntries
    rw [hkeymap]
    refine List.filterMap_congr ?_
    rintro ⟨key, idx⟩ hmem
    have hget := (db₂.keymap.mem_allKeys key idx).mp hmem
    have hget' := hget
    rw [← hkeymap] at hget'
    dsimp only
    cases hop : opSeq (channelBase p1 p2) key with
    | none => rfl
    | some n =>
      -- both updates are listed under one kind
      have hword : word db₁ key = word db₂ key := by
        by_cases hkey : key ∈ (keyed (channelBase p1 p2) (updateSlots db p1 p2 balance1 balance2)).map Prod.fst
        · obtain ⟨w, hw, rfl⟩ := mem_keyed_fst hkey
          have hslot := hstep₁.only w hw
          rw [opSeq_key] at hop
          rw [hwritten₁.word hsound, hwritten₂.word hsound, last_keyed, last_keyed]
          generalize w.1 = slot at hop hslot
          cases slot with
          | kind m =>
            obtain rfl := Option.some.inj hslot
            rw [hstep₁.kind, hstep₂.kind]
          | _ => cases hop
        · have hkey₂ : key ∉ (keyed (channelBase p1 p2) (updateSlots db p1 p2 balance2 balance1)).map Prod.fst := hkey
          rw [hwritten₁.word hsound, hwritten₂.word hsound, (Writes.last_eq_none_iff_not_mem _ _).mpr hkey,
            (Writes.last_eq_none_iff_not_mem _ _).mpr hkey₂]
      rw [word_of_get hget, word_of_get hget'] at hword
      rw [hword]
  have hnot : ∀ field, (Slot.state (max (latestSeq db (channelBase p1 p2)) (latestSeq db (channelBase p1 p2) + 1))
      field).seq? ≠ some (latestSeq db (channelBase p1 p2) + 1) := by
    intro field
    rw [hlast]
    exact fun heq => absurd (Option.some.inj heq) (by decide)
  rw [channelSnapshot_eq, channelSnapshot_eq, hexists₁, hexists₂, hseq₁, hseq₂, hcapacity₁, hcapacity₂,
    saturatingAdd_comm balance2]
  congr 2
  funext capacity
  unfold slotSnapshot
  dsimp only
  rw [hseq₁, hseq₂, hother _ (hnot .status), hother _ (hnot .b1), hother _ (hnot .b2),
    hother .createdAt (by simp [Slot.seq?]), opIndex_eq, opIndex_eq, hops]

end Snapshots

/-! ### When the order makes no difference -/

/-- The order of the balances makes no difference to an update: they are equal; it is refused for another reason than
their sum; or the commit treats both orders alike, and installs neither or writes past the last step number. -/
def OrderFree (db : NucleusDb P) (p1 p2 : String) (balance1 balance2 : UInt64) : Prop :=
  balance1 = balance2 ∨ RefusedAlike db (channelBase p1 p2) balance1 balance2 ∨
    (Updatable db (channelBase p1 p2) balance1 balance2 ∧
      (UpdateAdmissible db p1 p2 balance1 balance2 ↔ UpdateAdmissible db p1 p2 balance2 balance1) ∧
      (¬ (UpdateAdmissible db p1 p2 balance1 balance2 ∧ db.witnessCfg.Usable) ∨
        latestSeq db (channelBase p1 p2) = 0xFFFFFFFFFFFFFFFF))

theorem acceptedResult_ne (db : NucleusDb P) : acceptedResult db ≠ .error (.commit .monotoneViolation) := by
  unfold acceptedResult
  split
  · exact fun h => nomatch h
  · exact fun h => nomatch h

variable {db₁ db₂ : NucleusDb P}

theorem snapshot_of_registered
    (hreg₁ : Registered db (keyed (channelBase p1 p2) (updateSlots db p1 p2 balance1 balance2)) db₁)
    (hreg₂ : Registered db (keyed (channelBase p1 p2) (updateSlots db p1 p2 balance2 balance1)) db₂) :
    channelSnapshot db₁ p1 p2 = channelSnapshot db₂ p1 p2 :=
  (SameView.of_eq (hreg₁.keymap.trans hreg₂.keymap.symm) (hreg₁.state.trans hreg₂.state.symm) _).snapshot

theorem update_swap_iff (hP : P.SignaturesCorrect) (hsound : db.keymap.Sound) {createdAt : UInt64} {now : Nat}
    {r₁ r₂ : Except PcnError Unit}
    (h₁ : (update p1 p2 balance1 balance2).apply db createdAt now = some (r₁, db₁))
    (h₂ : (update p1 p2 balance2 balance1).apply db createdAt now = some (r₂, db₂)) :
    (r₁ = r₂ ∧ channelSnapshot db₁ p1 p2 = channelSnapshot db₂ p1 p2) ↔ OrderFree db p1 p2 balance1 balance2 := by
  by_cases hequal : balance1 = balance2
  · subst hequal
    obtain ⟨rfl, rfl⟩ := Prod.mk.inj (Option.some.inj (h₁.symm.trans h₂))
    exact ⟨fun _ => .inl rfl, fun _ => ⟨rfl, rfl⟩⟩
  rcases update_cases db (channelBase p1 p2) balance1 balance2 with halike | ⟨cap, hexists, hcapacity, hsum⟩ | hup
  · -- one error for both
    rw [apply_eq_carryOut, plan_of_refusedAlike halike] at h₁
    rw [apply_eq_carryOut, plan_of_refusedAlike halike.symm] at h₂
    obtain ⟨rfl, rfl⟩ := Prod.mk.inj (Option.some.inj h₁)
    obtain ⟨rfl, rfl⟩ := Prod.mk.inj (Option.some.inj h₂)
    exact ⟨fun _ => .inr (.inl halike), fun _ => ⟨rfl, rfl⟩⟩
  · -- the error names the balances
    rw [apply_eq_carryOut, plan_of_unbalanced hexists hcapacity hsum] at h₁
    rw [apply_eq_carryOut, plan_of_unbalanced hexists hcapacity (by rwa [saturatingAdd_comm])] at h₂
    obtain ⟨rfl, rfl⟩ := Prod.mk.inj (Option.some.inj h₁)
    obtain ⟨rfl, rfl⟩ := Prod.mk.inj (Option.some.inj h₂)
    constructor
    · rintro ⟨hsame, -⟩
      exact absurd (PcnError.invalidConservation.inj (Except.error.inj hsame)).1 hequal
    · rintro (hsame | (hmissing | hnone | ⟨hbalanced, -⟩) | ⟨hup, -⟩)
      · exact absurd hsame hequal
      · rw [hexists] at hmissing
        cases hmissing
      · rw [hcapacity] at hnone
        cases hnone
      · exact absurd (Option.some.inj (hcapacity.symm.trans hbalanced)).symm hsum
      · exact absurd (Option.some.inj (hcapacity.symm.trans hup.capacity)).symm hsum
  · have hnotAlike : ¬ RefusedAlike db (channelBase p1 p2) balance1 balance2 := by
      rintro (hmissing | hnone | ⟨-, hseq | hstatus⟩)
      · rw [hup.existsChannel] at hmissing
        cases hmissing
      · rw [hup.capacity] at hnone
        cases hnone
      · exact hup.seq hseq
      · exact hstatus hup.status
    have hwrites : ∀ a b, (updateDelta db p1 p2 a b).writes.length = (updateDelta db p1 p2 b a).writes.length :=
      fun _ _ => rfl
    have hlen : ∀ a b, (Engine.apply (updateEntry db p1 p2).state (updateDelta db p1 p2 a b)).values.length =
        (Engine.apply (updateEntry db p1 p2).state (updateDelta db p1 p2 b a)).values.length := fun a b =>
      (length_apply_updateDelta db p1 p2 a b).trans (length_apply_updateDelta db p1 p2 b a).symm
    have hiff : OrderFree db p1 p2 balance1 balance2 ↔
        (UpdateAdmissible db p1 p2 balance1 balance2 ↔ UpdateAdmissible db p1 p2 balance2 balance1) ∧
          (¬ (UpdateAdmissible db p1 p2 balance1 balance2 ∧ db.witnessCfg.Usable) ∨
            latestSeq db (channelBase p1 p2) = 0xFFFFFFFFFFFFFFFF) := by
      unfold OrderFree
      simp only [hequal, hnotAlike, hup, false_or, true_and]
    rw [hiff]
    rcases apply_of_updatable hP hup h₁ with ⟨hadm₁, husable, hr₁, hw₁⟩ | ⟨hnot₁, hr₁, hreg₁⟩
    · rcases apply_of_updatable hP hup.symm h₂ with ⟨hadm₂, -, hr₂, hw₂⟩ | ⟨hnot₂, hr₂, hreg₂⟩
      · -- both are written
        constructor
        · rintro ⟨-, hsnap⟩
          refine ⟨⟨fun _ => hadm₂, fun _ => hadm₁⟩, .inr ?_⟩
          by_contra hlast
          obtain ⟨snap₁, hsnap₁, hb₁, -⟩ := hup.snapshot hsound hw₁ hlast
          obtain ⟨snap₂, hsnap₂, hb₂, -⟩ := hup.symm.snapshot hsound hw₂ hlast
          rw [hsnap₁, hsnap₂] at hsnap
          rw [Option.some.inj hsnap] at hb₁
          exact hequal (hb₁.symm.trans hb₂)
        · rintro ⟨-, hnot | hlast⟩
          · exact absurd ⟨hadm₁, husable⟩ hnot
          · exact ⟨hr₁.trans hr₂.symm, hup.snapshot_of_last hsound hw₁ hw₂ hlast⟩
      · -- only the first is written: the second is refused by the monotone check
        have hbad₂ : ¬ UpdateAdmissible db p1 p2 balance2 balance1 := fun h => hnot₂ ⟨h, husable⟩
        constructor
        · rintro ⟨hsame, -⟩
          rw [hr₁, hr₂, (NucleusDb.refusal_of_mixed (hwrites _ _) (hlen _ _) hadm₁ hbad₂).1] at hsame
          exact absurd hsame (acceptedResult_ne db)
        · rintro ⟨hsame, -⟩
          exact absurd (hsame.mp hadm₁) hbad₂
    · rcases apply_of_updatable hP hup.symm h₂ with ⟨hadm₂, husable, hr₂, hw₂⟩ | ⟨hnot₂, hr₂, hreg₂⟩
      · have hbad₁ : ¬ UpdateAdmissible db p1 p2 balance1 balance2 := fun h => hnot₁ ⟨h, husable⟩
        constructor
        · rintro ⟨hsame, -⟩
          rw [hr₁, hr₂, (NucleusDb.refusal_of_mixed (hwrites _ _) (hlen _ _) hadm₂ hbad₁).1] at hsame
          exact absurd hsame.symm (acceptedResult_ne db)
        · rintro ⟨hsame, -⟩
          exact absurd (hsame.mpr hadm₂) hbad₁
      · -- neither is written
        constructor
        · rintro ⟨hsame, -⟩
          refine ⟨?_, .inl hnot₁⟩
          have herror := PcnError.commit.inj (Except.error.inj (hr₁.symm.trans (hsame.trans hr₂)))
          by_contra hmixed
          by_cases hadm₁ : UpdateAdmissible db p1 p2 balance1 balance2
          · have hbad₂ : ¬ UpdateAdmissible db p1 p2 balance2 balance1 := fun h =>
              hmixed ⟨fun _ => h, fun _ => hadm₁⟩
            obtain ⟨hmono, hother⟩ := NucleusDb.refusal_of_mixed (hwrites _ _) (hlen _ _) hadm₁ hbad₂
            exact hother (herror.trans hmono)
          · have hadm₂ : UpdateAdmissible db p1 p2 balance2 balance1 := by
              by_contra hbad₂
              exact hmixed ⟨fun h => absurd h hadm₁, fun h => absurd h hbad₂⟩
            obtain ⟨hmono, hother⟩ := NucleusDb.refusal_of_mixed (hwrites _ _) (hlen _ _) hadm₂ hadm₁
            exact hother (herror.symm.trans hmono)
        · rintro ⟨hsame, -⟩
          refine ⟨?_, snapshot_of_registered hreg₁ hreg₂⟩
          rw [hr₁, hr₂, NucleusDb.refusal_of_same_shape (hwrites _ _) (hlen _ _) hsame]

/-! ### Openings -/

/-- The amount is on the participant's side of the channel, and nothing on the other. -/
def ChannelSnapshot.Credits (snap : ChannelSnapshot) (p : String) (amount : UInt64) : Prop :=
  (snap.record.participant1 = p ∧ snap.balance1 = amount ∧ snap.balance2 = 0) ∨
    (snap.record.participant2 = p ∧ snap.balance2 = amount ∧ snap.balance1 = 0)

/-- The balances that show after an opening: those of the first step, unless keys of a later step were there before. -/
def openedBalances (db : NucleusDb P) (base : String) (capacity : UInt64) : UInt64 × UInt64 :=
  if latestSeq db base ≤ 1 then (capacity, 0)
  else (word db ((Slot.state (latestSeq db base) .b1).key base), word db ((Slot.state (latestSeq db base) .b2).key base))

section Opening

variable {db db' : NucleusDb P} {p1 p2 : String} {sentinel capacity createdAt : UInt64}

theorem balances_of_open (hsound : db.keymap.Sound)
    (hwritten : Written db (keyed (channelBase p1 p2) (openSlots sentinel capacity createdAt)) db') :
    (word db' ((Slot.state (max (latestSeq db (channelBase p1 p2)) 1) .b1).key (channelBase p1 p2)),
      word db' ((Slot.state (max (latestSeq db (channelBase p1 p2)) 1) .b2).key (channelBase p1 p2))) =
        openedBalances db (channelBase p1 p2) capacity := by
  have hmax : max (latestSeq db (channelBase p1 p2)) 1 =
      if latestSeq db (channelBase p1 p2) ≤ 1 then 1 else latestSeq db (channelBase p1 p2) := rfl
  rw [hwritten.word hsound, hwritten.word hsound, last_keyed, last_keyed, hmax]
  unfold openedBalances
  by_cases hle : latestSeq db (channelBase p1 p2) ≤ 1
  · rw [if_pos hle, if_pos hle]
    simp [openSlots, Writes.last]
  · have hne : ¬ (1 = latestSeq db (channelBase p1 p2)) := fun heq => hle (heq ▸ UInt64.le_refl 1)
    rw [if_neg hle, if_neg hle]
    simp [openSlots, Writes.last, hne]

theorem snapshot_of_open (hsound : db.keymap.Sound)
    (hwritten : Written db (keyed (channelBase p1 p2) (openSlots sentinel capacity createdAt)) db') :
    (sentinel = 0 → channelSnapshot db' p1 p2 = none) ∧
      (sentinel ≠ 0 → ∃ snap, channelSnapshot db' p1 p2 = some snap ∧
        (snap.record.participant1, snap.record.participant2) = canonicalPair p1 p2 ∧
        (snap.balance1, snap.balance2) = openedBalances db (channelBase p1 p2) capacity) := by
  have hmark : word db' (channelBase p1 p2) = sentinel := by
    rw [← key_record (channelBase p1 p2), hwritten.word hsound, last_keyed]
    simp [openSlots, Writes.last]
  have hseq : latestSeq db' (channelBase p1 p2) = max (latestSeq db (channelBase p1 p2)) 1 := by
    refine latestSeq_of_register hwritten.keymap ?_ ⟨(.state 1 .status, 1), by simp [openSlots], .status, rfl⟩
    intro w hw n hn
    exact seq?_openSlots hw n hn
  have hpos : latestSeq db' (channelBase p1 p2) ≠ 0 := by
    obtain ⟨-, hle, -⟩ := max_spec (latestSeq db (channelBase p1 p2)) 1
    rw [hseq]
    intro hzero
    rw [hzero] at hle
    exact absurd hle (by decide)
  have hcapacity : capacityFor db' (channelBase p1 p2) = some capacity :=
    hwritten.valueAt_of_mem hsound ((last_keyed _ _ .capacity).trans (by simp [openSlots, Writes.last]))
  constructor
  · intro hzero
    rw [channelSnapshot_eq, if_neg]
    rintro ⟨hexists, -⟩
    rw [existsChannel_iff, hmark] at hexists
    exact hexists hzero
  · intro hne
    have hexists : existsChannel db' (channelBase p1 p2) = true := by
      rw [existsChannel_iff, hmark]
      exact hne
    refine ⟨slotSnapshot db' p1 p2 capacity, ?_, rfl, ?_⟩
    · rw [channelSnapshot_eq, if_pos ⟨hexists, hpos⟩, hcapacity, Option.map_some]
    · unfold slotSnapshot
      dsimp only
      rw [hseq]
      exact balances_of_open hsound hwritten

theorem open_credits_iff {now : Nat} (hsound : db.keymap.Sound)
    (h : (open_ p1 p2 capacity).apply db createdAt now = some (.ok (), db')) :
    (∃ snap, channelSnapshot db' p1 p2 = some snap ∧ snap.Credits p1 capacity) ↔
      recordSentinel P (openRecord p1 p2 capacity createdAt) ≠ 0 ∧
        ((p1 ≤ p2 ∧ openedBalances db (channelBase p1 p2) capacity = (capacity, 0)) ∨
          (p2 ≤ p1 ∧ openedBalances db (channelBase p1 p2) capacity = (0, capacity))) := by
  have hwritten : Written db (keyed (channelBase p1 p2)
      (openSlots (recordSentinel P (openRecord p1 p2 capacity createdAt)) capacity createdAt)) db' := by
    rcases apply_cases h with ⟨e, -, he, -⟩ | ⟨plan, hplan, ⟨e, -, he, -⟩ | ⟨entry, -, -, hwritten⟩⟩
    · cases he
    · cases he
    · unfold SettlementOp.plan at hplan
      dsimp only at hplan
      split at hplan
      · cases hplan
      · rw [← Except.ok.inj hplan] at hwritten
        exact hwritten
  obtain ⟨hnone, hsome⟩ := snapshot_of_open hsound hwritten
  by_cases hmark : recordSentinel P (openRecord p1 p2 capacity createdAt) = 0
  · rw [hnone hmark]
    constructor
    · rintro ⟨snap, hsnap, -⟩
      cases hsnap
    · rintro ⟨hne, -⟩
      exact absurd hmark hne
  · obtain ⟨snap, hsnap, hnames, hbalances⟩ := hsome hmark
    have hcredits : (∃ snap, channelSnapshot db' p1 p2 = some snap ∧ snap.Credits p1 capacity) ↔
        snap.Credits p1 capacity := by
      rw [hsnap]
      simp
    rw [hcredits, ← hbalances]
    unfold ChannelSnapshot.Credits canonicalPair at *
    by_cases hle : p1 ≤ p2
    · rw [if_pos hle] at hnames
      obtain ⟨h1, h2⟩ := Prod.mk.inj hnames
      have hback : p2 ≤ p1 ↔ p2 = p1 := ⟨fun hge => String.le_antisymm hge hle, fun heq => heq ▸ String.le_refl p2⟩
      rw [h1, h2, hback]
      simp [hmark, hle, and_comm]
    · rw [if_neg hle] at hnames
      obtain ⟨h1, h2⟩ := Prod.mk.inj hnames
      have hne : p2 ≠ p1 := fun heq => hle (heq ▸ String.le_refl p2)
      have hge : p2 ≤ p1 := (String.le_total p1 p2).resolve_left hle
      rw [h1, h2]
      simp [hmark, hle, hge, hne, and_comm]

end Opening

/-- **Participant symmetry, exactly.** In a reachable database, let an update be applied with names and balances as they
are, and with both exchanged. The result and the snapshot afterwards are the same if and only if the order of the
balances makes no difference to it (`OrderFree`). And a successful opening credits its capacity to the participant named
first if and only if its mark is not zero and the balances that show are on the side on which that participant sorts;
where no key of a later step is left over, that is the case if the first name sorts first or the capacity is zero. -/
theorem participant_symmetry_iff (hP : P.SignaturesCorrect) {db : NucleusDb P} (hreach : Reachable db) (p1 p2 : String)
    (createdAt : UInt64) (now : Nat) :
    (∀ balance1 balance2 r₁ r₂ db₁ db₂,
      (update p1 p2 balance1 balance2).apply db createdAt now = some (r₁, db₁) →
      (update p2 p1 balance2 balance1).apply db createdAt now = some (r₂, db₂) →
      (r₁ = r₂ ∧ channelSnapshot db₁ p1 p2 = channelSnapshot db₂ p1 p2 ↔ OrderFree db p1 p2 balance1 balance2)) ∧
      (∀ capacity db', (open_ p1 p2 capacity).apply db createdAt now = some (.ok (), db') →
        ((∃ snap, channelSnapshot db' p1 p2 = some snap ∧ snap.Credits p1 capacity) ↔
          recordSentinel P (openRecord p1 p2 capacity createdAt) ≠ 0 ∧
            ((p1 ≤ p2 ∧ openedBalances db (channelBase p1 p2) capacity = (capacity, 0)) ∨
              (p2 ≤ p1 ∧ openedBalances db (channelBase p1 p2) capacity = (0, capacity))))) := by
  constructor
  · intro balance1 balance2 r₁ r₂ db₁ db₂ h₁ h₂
    rw [apply_update_names] at h₂
    exact update_swap_iff hP hreach.sound h₁ h₂
  · intro capacity db' h
    exact open_credits_iff hreach.sound h

theorem participant_symmetry_iff_open :
    ∃ (db : NucleusDb .reference) (snap : ChannelSnapshot),
      (open_ "a" "b" 100).apply NucleusDb.singleWitnessDb 0 0 = some (.ok (), db) ∧
        channelSnapshot db "a" "b" = some snap ∧ snap.Credits "a" 100 := by
  obtain ⟨db, hopen, -⟩ := singleWitnessDb_open "a" "b" 100
  have hseq : latestSeq NucleusDb.singleWitnessDb (channelBase "a" "b") = 0 := by
    refine latestSeq_eq_of_max (.inl rfl) ?_
    intro key n hsome
    have hnone : NucleusDb.singleWitnessDb.keymap.get key = none := Std.ExtTreeMap.getElem?_empty
    rw [hnone] at hsome
    cases hsome
  have hmark : recordSentinel .reference (openRecord "a" "b" 100 0) ≠ 0 := by
    rw [recordSentinel_reference]
    decide
  have hbalances : openedBalances NucleusDb.singleWitnessDb (channelBase "a" "b") 100 = (100, 0) := by
    unfold openedBalances
    rw [hseq]
    exact if_pos (by decide)
  obtain ⟨snap, hsnap, hcredits⟩ := ((participant_symmetry_iff Platform.reference_signaturesCorrect
    (.opened NucleusDb.singleWitnessDb_freshlyBuilt) "a" "b" 0 0).2 100 db hopen).mpr
    ⟨hmark, .inl ⟨by decide, hbalances⟩⟩
  exact ⟨db, snap, hopen, hsnap, hcredits⟩

/-- An opening credits the other participant, and exchanged updates write different balances. -/
theorem participants_not_symmetric :
    (∃ (db : NucleusDb .reference) (snap : ChannelSnapshot),
      (open_ "b" "a" 100).apply NucleusDb.singleWitnessDb 0 0 = some (.ok (), db) ∧
        channelSnapshot db "b" "a" = some snap ∧ snap.Credits "a" 100 ∧ ¬ snap.Credits "b" 100) ∧
      ∃ db db₁ db₂ : NucleusDb .reference, Reachable db ∧
        (update "a" "b" 60 40).apply db 0 0 = some (.ok (), db₁) ∧
        (update "b" "a" 40 60).apply db 0 0 = some (.ok (), db₂) ∧
        channelSnapshot db₁ "a" "b" ≠ channelSnapshot db₂ "a" "b" := by
  constructor
  · obtain ⟨db, hopen, hrun⟩ := singleWitnessDb_open "b" "a" 100
    refine ⟨db, _, hopen, hrun.live.snapshot, .inl (by decide), ?_⟩
    unfold ChannelSnapshot.Credits
    decide
  · obtain ⟨db, hopen, hrun⟩ := singleWitnessDb_open "a" "b" 100
    obtain ⟨db₁, h₁, hrun₁⟩ := hrun.call (.update "a" "b" 60 40) rfl
      (hrun.live.plan_update_of_open (by decide) rfl) (by simp) (by simp)
    obtain ⟨db₂, h₂, hrun₂⟩ := hrun.call (.update "a" "b" 40 60) rfl
      (hrun.live.plan_update_of_open (by decide) rfl) (by simp) (by simp)
    rw [apply_update_names] at h₂
    refine ⟨db, db₁, db₂, hrun.reachable, h₁, h₂, ?_⟩
    rw [hrun₁.live.snapshot, hrun₂.live.snapshot]
    intro hsame
    exact absurd (congrArg ChannelSnapshot.balance1 (Option.some.inj hsame)) (by decide)

end AgentHalo.Pcn
