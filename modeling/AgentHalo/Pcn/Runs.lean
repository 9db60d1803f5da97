import AgentHalo.Pcn.Channel

/-!
# Runs of settlements

A run is a list of calls. Its state, as far as one base is concerned, is a channel or none (`Holds`), and `next` is what
a successful operation makes of it. `holds_of_ok` is the step for the base that is written, `holds_of_clear` the one for
every other base.
-/

namespace AgentHalo.Pcn

open Engine (NucleusDb)
open Store (KeyMap)
open Text (startsWith)

variable {P : Platform}

/-- One call of `apply`, with the readings of the clock. -/
structure Call where
  op : SettlementOp
  createdAt : UInt64
  now : Nat

/-- The database after a call, whatever it returned. A panic comes from the commit, before it writes a value, and ends the
caller: the keys registered by then are left out. -/
def settle (db : NucleusDb P) (call : Call) : NucleusDb P :=
  match call.op.apply db call.createdAt call.now with
  | some (_, db') => db'
  | none => db

variable {db db' : NucleusDb P} {r : Except PcnError Unit}

theorem settle_of_apply (call : Call)
    (h : call.op.apply db call.createdAt call.now = some (r, db')) : settle db call = db' := by
  unfold settle
  rw [h]

theorem settle_cases (db : NucleusDb P) (call : Call) :
    settle db call = db ∨ ∃ r, call.op.apply db call.createdAt call.now = some (r, settle db call) := by
  cases h : call.op.apply db call.createdAt call.now with
  | none =>
    left
    unfold settle
    rw [h]
  | some outcome =>
    obtain ⟨r, db'⟩ := outcome
    rw [settle_of_apply call h]
    exact .inr ⟨r, rfl⟩

theorem sound_settle (h : db.keymap.Sound) (call : Call) : (settle db call).keymap.Sound := by
  rcases settle_cases db call with hsame | ⟨r, happly⟩
  · rw [hsame]
    exact h
  · exact sound_of_apply h happly

variable {op : SettlementOp} {createdAt : UInt64} {now used : Nat}

theorem apply_securityParams (h : op.apply db createdAt now = some (r, db')) :
    db'.securityParams = db.securityParams := by
  rcases apply_cases h with ⟨e, -, -, rfl⟩ | ⟨plan, -, ⟨e, hcommit, -⟩ | ⟨entry, hcommit, -⟩⟩
  · rfl
  · exact (NucleusDb.commit_sameFrame hcommit).securityParams
  · exact (NucleusDb.commit_sameFrame hcommit).securityParams

/-! ### A base along a run -/

/-- The channel, or the lack of one, that the database holds under the base. -/
def Holds (db : NucleusDb P) (base : String) : Option Channel → Prop
  | none => Dormant db base
  | some c => Live db base c

/-- What a successful operation makes of a channel. -/
def SettlementOp.next (P : Platform) (op : SettlementOp) (createdAt : UInt64) : Option Channel → Option Channel
  | some c => some (c.extend (op.step c))
  | none =>
    match op with
    | .open_ p1 p2 capacity =>
      let sentinel := recordSentinel P (openRecord p1 p2 capacity createdAt)
      if sentinel = 0 then none else some (Channel.opened sentinel capacity createdAt)
    | _ => none

theorem Dormant.plan {plan : List (Slot × UInt64)} (h : Dormant db op.base) (hplan : op.plan db createdAt = .ok plan) :
    ∃ p1 p2 capacity, op = .open_ p1 p2 capacity ∧
      plan = openSlots (recordSentinel P (openRecord p1 p2 capacity createdAt)) capacity createdAt := by
  have hmissing := h.existsChannel
  cases op with
  | open_ p1 p2 capacity =>
    unfold SettlementOp.plan at hplan
    dsimp only at hplan
    rw [hmissing, if_neg (by decide)] at hplan
    exact ⟨p1, p2, capacity, rfl, (Except.ok.inj hplan).symm⟩
  | _ =>
    unfold SettlementOp.plan at hplan
    dsimp only at hplan
    rw [hmissing, if_pos (by decide)] at hplan
    cases hplan

variable {t : Option Channel}

theorem holds_of_written {plan : List (Slot × UInt64)} (hsound : db.keymap.Sound) (h : Holds db op.base t)
    (hplan : op.plan db createdAt = .ok plan)
    (hwritten : Written db (keyed op.base plan) db') (hlen : db'.state.values.length < 2 ^ 64) :
    Holds db' op.base (op.next P createdAt t) := by
  cases t with
  | none =>
    have hdormant : Dormant db op.base := h
    obtain ⟨p1, p2, capacity, rfl, rfl⟩ := hdormant.plan hplan
    unfold SettlementOp.next
    dsimp only
    split
    · rename_i hzero
      exact hdormant.unopened hsound hzero hwritten
    · rename_i hmark
      exact hdormant.open_ hsound hmark hwritten
  | some c =>
    have hlive : Live db op.base c := h
    exact hlive.extend hsound (hlive.writesStep hplan) hwritten hlen

theorem holds_of_ok (hsound : db.keymap.Sound) (hword : db.securityParams.maxVectorLen < 2 ^ 64) (h : Holds db op.base t)
    (happly : op.apply db createdAt now = some (.ok (), db')) : Holds db' op.base (op.next P createdAt t) := by
  rcases apply_cases happly with ⟨e, -, he, -⟩ | ⟨plan, hplan, ⟨e, -, he, -⟩ | ⟨entry, hcommit, -, hwritten⟩⟩
  · cases he
  · cases he
  refine holds_of_written hsound h hplan hwritten ?_
  obtain ⟨rs, sigs, hc⟩ := NucleusDb.commit_ok hcommit
  have hlen := hc.admissible.length_le
  rw [← hc.advanced.state] at hlen
  exact Nat.lt_of_le_of_lt hlen hword

variable {base : String}

theorem holds_of_clear (hsound : db.keymap.Sound)
    (hclear : Clear db op createdAt base) (h : Holds db base t) (happly : op.apply db createdAt now = some (r, db')) :
    Holds db' base t := by
  cases t with
  | none =>
    have hdormant : Dormant db base := h
    have hanchored : Anchored db base := fun hexists => by
      rw [hdormant.existsChannel] at hexists
      cases hexists
    have hview := apply_sameView hsound hclear hanchored happly
    refine ⟨(hview.words base (.inl rfl)).trans hdormant.unmarked, ?_⟩
    intro key hread hsome
    rw [hview.keys key hread] at hsome
    exact hdormant.only key hread hsome
  | some c =>
    have hlive : Live db base c := h
    have hview := apply_sameView hsound hclear (anchored_of_capacityFor hlive.capacityFor) happly
    exact hlive.of_sameView hview (fun key v hread hv => apply_valueAt hsound hclear hread hv happly)
      (apply_nextIndex_le happly)

/-! ### Databases without channels -/

/-- No key looks like a channel's. -/
def NoChannelKeys (db : NucleusDb P) : Prop := ∀ key, (db.keymap.get key).isSome → startsWith key "channel:" = false

variable {p1 p2 key : String} {writes : List (String × UInt64)} {c : Channel}

theorem startsWith_of_under (h : Under (channelBase p1 p2) key) :
    startsWith key "channel:" = true := by
  have hbase : startsWith (channelBase p1 p2) "channel:" = true := by
    unfold channelBase
    dsimp only
    rw [String.append_assoc, String.append_assoc]
    exact Text.startsWith_append _ _
  obtain ⟨tail, htail⟩ := (Text.startsWith_iff _ _).mp hbase
  rcases h with rfl | ⟨rest, rfl⟩
  · exact hbase
  · rw [htail, String.append_assoc]
    exact Text.startsWith_append _ _

theorem NoChannelKeys.get_eq_none (h : NoChannelKeys db) (hunder : Under (channelBase p1 p2) key) :
    db.keymap.get key = none := by
  by_contra hsome
  have hstarts := h key (Option.isSome_iff_ne_none.mpr hsome)
  rw [startsWith_of_under hunder] at hstarts
  cases hstarts

theorem NoChannelKeys.dormant (h : NoChannelKeys db) (p1 p2 : String) : Dormant db (channelBase p1 p2) where
  unmarked := word_of_absent (h.get_eq_none (.inl rfl))
  only key hread hsome := by
    rw [h.get_eq_none hread.under] at hsome
    cases hsome

/-! ### Operations that go through -/

/-- Cells that no key has are zero. -/
def Tidy (db : NucleusDb P) : Prop := ∀ idx, db.keymap.nextIndex ≤ idx → db.state.cell idx = 0

theorem Written.tidy (h : Written db writes db') (hsound : db.keymap.Sound) (htidy : Tidy db) : Tidy db' := by
  intro idx hidx
  have hnext : db.keymap.nextIndex ≤ db'.keymap.nextIndex := by
    rw [h.keymap]
    exact KeyMap.nextIndex_le_register _ _
  rw [h.state, Engine.cell_apply, KeyMap.last_indexed_of_nextIndex_le (h.sound hsound) h.present hidx]
  exact htidy idx (Nat.le_trans hnext hidx)

theorem Registered.word (h : Registered db writes db') (htidy : Tidy db) (key : String) : word db' key = word db key := by
  cases hold : db.keymap.get key with
  | some idx =>
    unfold Pcn.word
    rw [h.valueAt (by rw [hold]; rfl)]
  | none =>
    rw [word_of_absent hold]
    cases hnew : db'.keymap.get key with
    | none => exact word_of_absent hnew
    | some idx =>
      rw [word_of_get hnew, h.state]
      rw [h.keymap] at hnew
      exact htidy idx (KeyMap.nextIndex_le_of_get_register hold hnew)

theorem Dormant.registered {sentinel capacity : UInt64} (h : Dormant db base) (htidy : Tidy db)
    (hreg : Registered db (keyed base (openSlots sentinel capacity createdAt)) db') : Dormant db' base where
  unmarked := (hreg.word htidy base).trans h.unmarked
  only key hread hsome := by
    rcases (hreg.isSome_get key).mp hsome with hold | hmem
    · exact h.only key hread hold
    · obtain ⟨w, hw, rfl⟩ := mem_keyed_fst hmem
      exact ⟨w.1, rfl, seq?_openSlots hw⟩

theorem monotone_of_fresh (op : SettlementOp) {plan : List (Slot × UInt64)} (htidy : Tidy db)
    (hfresh : ∀ w ∈ plan, db.keymap.get (w.1.key op.base) = none) :
    Engine.verifyMonotoneExtension db.state (op.enter db plan).keymap (Engine.apply db.state (op.delta db plan))
      (op.enter db plan).keymap = true := by
  refine Engine.verifyMonotoneExtension_of_zero ?_
  intro w hw
  obtain ⟨kv, hkv, rfl⟩ := List.mem_map.mp hw
  obtain ⟨slot, hslot, rfl⟩ := List.mem_map.mp hkv
  have hsome := (KeyMap.isSome_get_register db.keymap (slot.1.key op.base)
    ((keyed op.base plan).map Prod.fst)).mpr (.inr (List.mem_map_of_mem hkv))
  obtain ⟨idx, hidx⟩ := Option.isSome_iff_exists.mp hsome
  have hnew := KeyMap.nextIndex_le_of_get_register (hfresh slot hslot) hidx
  have hget : (op.enter db plan).keymap.get (slot.1.key op.base) = some idx := hidx
  dsimp only
  rw [hget]
  exact htidy idx hnew

/-- A database in good order, with at most `used` cells and keys. -/
structure InOrder (used : Nat) (db : NucleusDb P) : Prop where
  healthy : db.Healthy
  sound : db.keymap.Sound
  tidy : Tidy db
  cells : db.state.values.length ≤ used
  keys : db.keymap.nextIndex ≤ used

theorem InOrder.apply (hP : P.SignaturesCorrect) (h : InOrder used db) {plan : List (Slot × UInt64)} (now : Nat)
    (hplan : op.plan db createdAt = .ok plan) (hfresh : ∀ w ∈ plan, db.keymap.get (w.1.key op.base) = none)
    (hwrites : plan.length ≤ db.securityParams.maxDeltaWrites)
    (hroom : used + plan.length ≤ db.securityParams.maxVectorLen) :
    ∃ db', op.apply db createdAt now = some (.ok (), db') ∧ InOrder (used + plan.length) db' := by
  have hkeys : (op.enter db plan).keymap.nextIndex ≤ used + plan.length := by
    have hle := KeyMap.nextIndex_register_le db.keymap ((keyed op.base plan).map Prod.fst)
    have hcount : ((keyed op.base plan).map Prod.fst).length = plan.length := by simp [keyed]
    have hused := h.keys
    have hsame : (op.enter db plan).keymap.nextIndex =
      (db.keymap.register ((keyed op.base plan).map Prod.fst)).nextIndex := rfl
    omega
  have hsound' : (op.enter db plan).keymap.Sound := h.sound.register _
  have hpresent : ∀ w ∈ keyed op.base plan, ((op.enter db plan).keymap.get w.1).isSome := fun w hw =>
    (KeyMap.isSome_get_register _ _ _).mpr (.inr (List.mem_map_of_mem hw))
  have hcells : (Engine.apply db.state (op.delta db plan)).values.length ≤ used + plan.length := by
    refine Engine.length_apply_le (Nat.le_trans h.cells (Nat.le_add_right _ _)) ?_
    intro w hw
    obtain ⟨kv, hkv, rfl⟩ := List.mem_map.mp hw
    obtain ⟨idx, hidx⟩ := Option.isSome_iff_exists.mp (hpresent kv hkv)
    have hbelow := hsound'.below _ idx hidx
    rw [hidx]
    exact Nat.lt_of_lt_of_le hbelow hkeys
  have hhealthy : (op.enter db plan).Healthy :=
    ⟨h.healthy.parameters, h.healthy.contracts, h.healthy.witnesses, h.healthy.usable, h.healthy.rooted,
      h.healthy.inStep⟩
  have hshape : (op.delta db plan).writes.length ≤ (op.enter db plan).securityParams.maxDeltaWrites := by
    rw [length_delta, enter_securityParams]
    exact hwrites
  have hlen : (Engine.apply (op.enter db plan).state (op.delta db plan)).values.length ≤
      (op.enter db plan).securityParams.maxVectorLen := by
    rw [enter_state, enter_securityParams]
    exact Nat.le_trans hcells hroom
  have hmono := monotone_of_fresh op h.tidy hfresh
  rw [← enter_state op db plan] at hmono
  obtain ⟨entry, db', hcommit⟩ := hhealthy.commit hP now hshape hlen hmono
  have happly := apply_of_commit_ok hplan hcommit
  refine ⟨db', happly, ?_⟩
  rcases apply_cases happly with ⟨e, -, he, -⟩ | ⟨plan', hplan', ⟨e, -, he, -⟩ | ⟨entry', -, -, hwritten⟩⟩
  · cases he
  · cases he
  obtain rfl := Except.ok.inj (hplan.symm.trans hplan')
  constructor
  case healthy => exact hhealthy.of_commit hcommit
  case sound => exact hwritten.sound h.sound
  case tidy => exact hwritten.tidy h.sound h.tidy
  case cells =>
    rw [(NucleusDb.commit_advanced hcommit).state]
    exact hcells
  case keys =>
    rw [(NucleusDb.commit_sameFrame hcommit).keymap]
    exact hkeys

theorem InOrder.open_ (hP : P.SignaturesCorrect) (h : InOrder used db)
    (p1 p2 : String) (capacity createdAt : UInt64) (now : Nat) (hword : db.securityParams.maxVectorLen < 2 ^ 64)
    (hdormant : Dormant db (channelBase p1 p2))
    (hfresh : ∀ slot : Slot, db.keymap.get (slot.key (channelBase p1 p2)) = none)
    (hmark : recordSentinel P (openRecord p1 p2 capacity createdAt) ≠ 0)
    (hwrites : 7 ≤ db.securityParams.maxDeltaWrites) (hroom : used + 7 ≤ db.securityParams.maxVectorLen) :
    ∃ db', (SettlementOp.open_ p1 p2 capacity).apply db createdAt now = some (.ok (), db') ∧ InOrder (used + 7) db' ∧
      Live db' (channelBase p1 p2)
        (Channel.opened (recordSentinel P (openRecord p1 p2 capacity createdAt)) capacity createdAt) := by
  have hplan : (SettlementOp.open_ p1 p2 capacity).plan db createdAt =
      .ok (openSlots (recordSentinel P (openRecord p1 p2 capacity createdAt)) capacity createdAt) :=
    plan_open_of_missing hdormant.existsChannel
  obtain ⟨db', happly, horder⟩ := h.apply hP now hplan (fun w _ => hfresh w.1) hwrites hroom
  refine ⟨db', happly, horder, ?_⟩
  have hholds := holds_of_ok h.sound hword
    (show Holds db (SettlementOp.open_ p1 p2 capacity).base none from hdormant) happly
  have hnext : (SettlementOp.open_ p1 p2 capacity).next P createdAt none =
      some (Channel.opened (recordSentinel P (openRecord p1 p2 capacity createdAt)) capacity createdAt) := if_neg hmark
  rw [hnext] at hholds
  exact hholds

theorem InOrder.step (hP : P.SignaturesCorrect) (h : InOrder used db) {plan : List (Slot × UInt64)} (now : Nat)
    (hword : db.securityParams.maxVectorLen < 2 ^ 64) (hlive : Live db op.base c) (hplan : op.plan db createdAt = .ok plan)
    (hwrites : plan.length ≤ db.securityParams.maxDeltaWrites) (hroom : used + plan.length ≤ db.securityParams.maxVectorLen) :
    ∃ db', op.apply db createdAt now = some (.ok (), db') ∧ InOrder (used + plan.length) db' ∧
      Live db' op.base (c.extend (op.step c)) := by
  have hfresh : ∀ w ∈ plan, db.keymap.get (w.1.key op.base) = none := fun w hw =>
    hlive.get_next_eq_none ((hlive.writesStep hplan).only w hw)
  obtain ⟨db', happly, horder⟩ := h.apply hP now hplan hfresh hwrites hroom
  exact ⟨db', happly, horder, holds_of_ok (t := some c) h.sound hword hlive happly⟩

/-! ### A channel to run

Witnesses of the results about channels start from these. -/

theorem recordSentinel_reference (p1 p2 : String) (capacity createdAt : UInt64) :
    recordSentinel .reference (openRecord p1 p2 capacity createdAt) = 0x100000000000000 := by
  have hdigest : ∀ bs : Bytes, Text.fromLeBytes (Reference.digest 32 (bs ++ Text.toLeBytes 1)).toList =
      0x100000000000000 := by
    intro bs
    have hlast : (Reference.digest 32 (bs ++ Text.toLeBytes 1)).toList.take 8 = (Text.toLeBytes 1).reverse := by
      refine List.ext_getElem (by simp [Text.toLeBytes]) ?_
      intro i hi _
      rw [List.length_take] at hi
      have hi8 : i < (Text.toLeBytes 1).reverse.length := by simp [Text.toLeBytes]; omega
      simp only [Reference.digest, List.getElem_take, Vector.getElem_toList, Vector.getElem_ofFn, List.reverse_append]
      rw [List.getD_eq_getElem?_getD, List.getElem?_append_left hi8, List.getElem?_eq_getElem hi8, Option.getD_some]
    unfold Text.fromLeBytes
    rw [hlast]
    decide
  exact hdigest _

theorem singleWitnessDb_inOrder : InOrder 0 NucleusDb.singleWitnessDb where
  healthy := NucleusDb.singleWitnessDb_healthy
  sound := KeyMap.sound_new
  tidy _ _ := rfl
  cells := Nat.le_refl 0
  keys := Nat.le_refl 0

theorem singleWitnessDb_noChannelKeys : NoChannelKeys NucleusDb.singleWitnessDb := by
  intro key hsome
  have hnone : NucleusDb.singleWitnessDb.keymap.get key = none := Std.ExtTreeMap.getElem?_empty
  rw [hnone] at hsome
  cases hsome

/-- A database with the default limits, in good order, that holds a channel. -/
structure Running (used : Nat) (db : NucleusDb .reference) (base : String) (c : Channel) : Prop where
  reachable : Reachable db
  order : InOrder used db
  limits : db.securityParams = NucleusDb.singleWitnessDb.securityParams
  live : Live db base c

theorem singleWitnessDb_open (p1 p2 : String) (capacity : UInt64) :
    ∃ db, (SettlementOp.open_ p1 p2 capacity).apply NucleusDb.singleWitnessDb 0 0 = some (.ok (), db) ∧
      Running 7 db (channelBase p1 p2) (Channel.opened 0x100000000000000 capacity 0) := by
  have hmark := recordSentinel_reference p1 p2 capacity 0
  have hblank := singleWitnessDb_noChannelKeys
  have hopen := singleWitnessDb_inOrder.open_ Platform.reference_signaturesCorrect p1 p2 capacity 0 0 (by decide)
    (hblank.dormant p1 p2) (fun slot => hblank.get_eq_none (under_key _ slot)) (by rw [hmark]; decide) (by decide) (by decide)
  rw [hmark] at hopen
  obtain ⟨db, happly, horder, hlive⟩ := hopen
  refine ⟨db, happly, ?_, horder, apply_securityParams happly, hlive⟩
  exact .settle (.opened NucleusDb.singleWitnessDb_freshlyBuilt) happly

theorem Running.call {db : NucleusDb .reference} (h : Running used db base c) (op : SettlementOp)
    {plan : List (Slot × UInt64)} (hbase : op.base = base) (hplan : op.plan db 0 = .ok plan) (hwrites : plan.length ≤ 5)
    (hroom : used ≤ 1000) :
    ∃ db', op.apply db 0 0 = some (.ok (), db') ∧ Running (used + plan.length) db' base (c.extend (op.step c)) := by
  subst hbase
  have hword : db.securityParams.maxVectorLen = 1048576 := by rw [h.limits]; rfl
  have hdelta : db.securityParams.maxDeltaWrites = NucleusDb.singleWitnessDb.securityParams.maxDeltaWrites := by
    rw [h.limits]
  have hlimit : 5 ≤ NucleusDb.singleWitnessDb.securityParams.maxDeltaWrites := by decide
  obtain ⟨db', happly, horder, hlive⟩ := h.order.step Platform.reference_signaturesCorrect 0 (by omega) h.live hplan
    (by omega) (by omega)
  exact ⟨db', happly, .settle h.reachable happly, horder, (apply_securityParams happly).trans h.limits, hlive⟩

end AgentHalo.Pcn
