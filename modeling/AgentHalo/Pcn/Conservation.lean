import AgentHalo.Pcn.Runs
import Mathlib.Data.List.Destutter

/-!
# Conservation of balances

The two balances of a channel should add up to its capacity. An update checks it with saturating arithmetic; a splice
writes the new capacity where nobody reads it; and an operation that the commit refuses leaves the keys of its step
behind, with balances of zero. Where none of this happens, and no channel is written under the names of another, every
visible channel is balanced, and the compliance witness counts none as invalid (`conservation`).
-/

namespace AgentHalo.Pcn

open Text (startsWith trimEndMatchesStr repeated)
open Engine (NucleusDb)
open Store (KeyMap)

variable {P : Platform}

/-! ### Balanced channels -/

/-- The balances add up to the capacity, as exact integers. -/
def Channel.Balanced (c : Channel) : Prop := c.last.b1.toNat + c.last.b2.toNat = c.capacity.toNat

theorem toNat_saturatingAdd {a b : UInt64} (h : a.toNat + b.toNat < 2 ^ 64) :
    (saturatingAdd a b).toNat = a.toNat + b.toNat := by
  unfold saturatingAdd
  rw [if_pos h, UInt64.toNat_add]
  exact Nat.mod_eq_of_lt h

theorem toNat_split (a b : UInt64) : (min a b).toNat + (saturatingSub b (min a b)).toNat = b.toNat := by
  have hmin : min a b ≤ b := by
    have h : min a b = if a ≤ b then a else b := rfl
    rw [h]
    split
    · rename_i hle
      exact hle
    · exact UInt64.le_refl b
  unfold saturatingSub
  rw [if_pos hmin, UInt64.toNat_sub_of_le _ _ hmin]
  have hle := UInt64.le_iff_toNat_le.mp hmin
  omega

theorem balanced_opened (sentinel capacity createdAt : UInt64) :
    (Channel.opened sentinel capacity createdAt).Balanced := by
  unfold Channel.Balanced
  simp [Channel.opened]

variable {plan : List (Slot × UInt64)} {bases : Set String} {key : String}

theorem balanced_extend {db : NucleusDb P} {op : SettlementOp} {createdAt : UInt64} {c : Channel} (hlive : Live db op.base c)
    (hbalanced : c.Balanced) (hplan : op.plan db createdAt = .ok plan)
    (hfits : ∀ p1 p2 balance1 balance2, op = .update p1 p2 balance1 balance2 →
      balance1.toNat + balance2.toNat < 2 ^ 64)
    (hkeeps : ∀ p1 p2 newCapacity, op = .splice p1 p2 newCapacity → capacityFor db op.base = some newCapacity) :
    (c.extend (op.step c)).Balanced := by
  cases op with
  | open_ p1 p2 capacity =>
    rw [hlive.plan_open] at hplan
    cases hplan
  | close p1 p2 => exact hbalanced
  | update p1 p2 balance1 balance2 =>
    rw [hlive.plan_update] at hplan
    split at hplan
    · cases hplan
    · rename_i hsum
      have hcapacity := congrArg UInt64.toNat (not_not.mp hsum)
      rw [toNat_saturatingAdd (hfits p1 p2 balance1 balance2 rfl)] at hcapacity
      exact hcapacity
  | splice p1 p2 newCapacity =>
    have hsame := hkeeps p1 p2 newCapacity rfl
    rw [hlive.capacityFor] at hsame
    obtain rfl := Option.some.inj hsame
    exact toNat_split c.last.b1 c.capacity

/-! ### Names that go together -/

/-- The key is that of a slot of one of the bases. -/
def Spelled (bases : Set String) (key : String) : Prop := ∃ p ∈ bases, ∃ slot : Slot, key = slot.key p

/-- The bases of channels that do not get in each other's way. No key written for one is read for another, and no other
pair's channel is spelled out by their keys. -/
structure Compatible (bases : Set String) : Prop where
  named : ∀ p ∈ bases, ∃ a b, p = channelBase a b
  apart : ∀ p ∈ bases, ∀ q ∈ bases, p ≠ q → Apart p q
  own : ∀ q k, Spelled bases q → Spelled bases (q ++ repeated ":meta:capacity" (k + 1)) → q ∈ bases

theorem Spelled.startsWith (hnames : Compatible bases) (h : Spelled bases key) :
    startsWith key "channel:" = true := by
  obtain ⟨p, hp, slot, rfl⟩ := h
  obtain ⟨a, b, rfl⟩ := hnames.named p hp
  exact startsWith_of_under (under_key _ slot)

theorem count_colon_tail (slot : Slot) :
    slot.tail.toList.count ':' ≤ 3 ∧ (slot ≠ .record → 2 ≤ slot.tail.toList.count ':') := by
  have hseq : ∀ seq : UInt64, (toString seq).toList.count ':' = 0 := fun seq =>
    List.count_eq_zero_of_not_mem (Text.colon_not_mem_toString seq.toNat)
  cases slot with
  | record | capacity | createdAt => decide
  | kind seq =>
    simp [Slot.tail, String.toList_append, hseq]
  | state seq field =>
    cases field <;> simp [Slot.tail, StateField.name, String.toList_append, hseq]

theorem compatible_of_separate (hnamed : ∀ p ∈ bases, ∃ a b, p = channelBase a b)
    (hsep : ∀ p ∈ bases, ∀ q ∈ bases, p ≠ q → Separate p q) : Compatible bases where
  named := hnamed
  apart p hp q hq hne := (hsep p hp q hq hne).apart
  own q k hq hrest := by
    rw [Text.repeated_succ] at hrest
    generalize repeated ":meta:capacity" k = rest at hrest
    obtain ⟨p, hp, slot, rfl⟩ := hq
    obtain ⟨p', hp', slot', heq⟩ := hrest
    have hunder : Under p (slot'.key p') := by
      rw [← heq]
      rcases under_key p slot with hsame | ⟨tail, htail⟩
      · exact .inr ⟨"meta:capacity" ++ rest, by rw [hsame, ← @String.append_assoc ":"]; rfl⟩
      · exact .inr ⟨tail ++ (":meta:capacity" ++ rest), by rw [htail]; simp only [String.append_assoc]⟩
    have hpp : p = p' := by
      by_contra hne
      exact (hsep p hp p' hp' hne).not_under hunder (under_key p' slot')
    subst hpp
    -- no tail of a slot has room for that of another slot before it
    have htail : slot.tail ++ (":meta:capacity" ++ rest) = slot'.tail := by
      unfold Slot.key at heq
      rw [String.append_assoc, String.append_right_inj] at heq
      exact heq
    have hcount := congrArg (fun s : String => s.toList.count ':') htail
    simp only [String.toList_append, List.count_append] at hcount
    have hmeta : ":meta:capacity".toList.count ':' = 2 := by decide
    have hlow := (count_colon_tail slot).2
    have hhigh := (count_colon_tail slot').1
    have hrecord : slot = .record := by
      by_contra hne
      have htwo := hlow hne
      omega
    rw [hrecord, key_record]
    exact hp

/-! ### The invariant -/

/-- Every channel of the bases is balanced, and no key but theirs looks like a channel's. -/
structure Conserved (bases : Set String) (db : NucleusDb P) : Prop where
  sound : db.keymap.Sound
  word : db.securityParams.maxVectorLen < 2 ^ 64
  keys : ∀ key, (db.keymap.get key).isSome → startsWith key "channel:" = true → Spelled bases key
  bare : existsChannel db "channel" = false
  channel : ∀ p ∈ bases, ∃ t, Holds db p t ∧ ∀ c, t = some c → c.Balanced

/-- The condition on what is about to be written. It belongs to one of the bases; its commit installs the state, or it is
an opening and the cells it takes are zero; an update does not overflow; and a splice keeps the capacity as it is. -/
structure Careful (bases : Set String) (db : NucleusDb P) (op : SettlementOp) (plan : List (Slot × UInt64)) : Prop where
  named : op.base ∈ bases
  accepted : op.Accepted db plan ∨ ((∃ p1 p2 capacity, op = .open_ p1 p2 capacity) ∧ Tidy db)
  fits : ∀ p1 p2 balance1 balance2, op = .update p1 p2 balance1 balance2 → balance1.toNat + balance2.toNat < 2 ^ 64
  keeps : ∀ p1 p2 newCapacity, op = .splice p1 p2 newCapacity → capacityFor db op.base = some newCapacity

/-- The condition on a call, which is none if the call is refused outright. -/
def Call.Careful (bases : Set String) (db : NucleusDb P) (call : Call) : Prop :=
  ∀ plan, call.op.plan db call.createdAt = .ok plan → Pcn.Careful bases db call.op plan

theorem spelled_of_mem_keyed {base : String} (hbase : base ∈ bases) (h : key ∈ (keyed base plan).map Prod.fst) :
    Spelled bases key := by
  obtain ⟨w, -, rfl⟩ := mem_keyed_fst h
  exact ⟨base, hbase, w.1, rfl⟩

theorem not_spelled_bare (hnames : Compatible bases) : ¬ Spelled bases "channel" := by
  intro h
  exact absurd (h.startsWith hnames) (by decide)

section Step

variable {bases : Set String} {db db' : NucleusDb P} {op : SettlementOp} {createdAt : UInt64} {now : Nat}
  {plan : List (Slot × UInt64)}

theorem Conserved.written (h : Conserved bases db)
    (hplan : op.plan db createdAt = .ok plan) (hcareful : Careful bases db op plan)
    (hwritten : Written db (keyed op.base plan) db') (hlen : db'.state.values.length < 2 ^ 64) :
    ∃ t, Holds db' op.base t ∧ ∀ c, t = some c → c.Balanced := by
  obtain ⟨t, hholds, hbalanced⟩ := h.channel op.base hcareful.named
  refine ⟨op.next P createdAt t, holds_of_written h.sound hholds hplan hwritten hlen, ?_⟩
  intro c hc
  cases t with
  | some c' =>
    obtain rfl := Option.some.inj hc
    exact balanced_extend hholds (hbalanced c' rfl) hplan hcareful.fits hcareful.keeps
  | none =>
    have hdormant : Dormant db op.base := hholds
    obtain ⟨p1, p2, capacity, rfl, -⟩ := hdormant.plan hplan
    unfold SettlementOp.next at hc
    dsimp only at hc
    split at hc
    · cases hc
    · obtain rfl := Option.some.inj hc
      exact balanced_opened _ _ _

theorem Conserved.registered (h : Conserved bases db) (hplan : op.plan db createdAt = .ok plan)
    (hcareful : Careful bases db op plan) (htidy : Tidy db) {p1 p2 : String} {capacity : UInt64}
    (hop : op = .open_ p1 p2 capacity) (hreg : Registered db (keyed op.base plan) db') :
    ∃ t, Holds db' op.base t ∧ ∀ c, t = some c → c.Balanced := by
  obtain ⟨t, hholds, -⟩ := h.channel op.base hcareful.named
  subst hop
  cases t with
  | some c =>
    rw [Live.plan_open hholds] at hplan
    cases hplan
  | none =>
    have hdormant : Dormant db (SettlementOp.open_ p1 p2 capacity).base := hholds
    obtain ⟨q1, q2, capacity', -, rfl⟩ := hdormant.plan hplan
    exact ⟨none, hdormant.registered htidy hreg, fun c hc => nomatch hc⟩

theorem conserved_step (hP : P.SignaturesCorrect) (hnames : Compatible bases) (db : NucleusDb P) (call : Call)
    (h : Conserved bases db) (hcall : call.Careful bases db) : Conserved bases (settle db call) := by
  rcases settle_cases db call with hsame | ⟨r, happly⟩
  · rw [hsame]
    exact h
  generalize settle db call = db' at happly
  cases hplan : call.op.plan db call.createdAt with
  | error e =>
    rw [apply_eq_carryOut, hplan] at happly
    obtain ⟨-, rfl⟩ := Prod.mk.inj (Option.some.inj happly)
    exact h
  | ok plan =>
    have hcareful := hcall plan hplan
    have hother : ∀ p ∈ bases, p ≠ call.op.base → ∃ t, Holds db' p t ∧ ∀ c, t = some c → c.Balanced := by
      intro p hp hne
      obtain ⟨t, hholds, hbalanced⟩ := h.channel p hp
      have hclear := (hnames.apart call.op.base hcareful.named p hp hne.symm).clear db call.createdAt
      exact ⟨t, holds_of_clear h.sound hclear hholds happly, hbalanced⟩
    have hbareKey : "channel" ∉ (keyed call.op.base plan).map Prod.fst := fun hmem =>
      not_spelled_bare hnames (spelled_of_mem_keyed hcareful.named hmem)
    have hword : db'.securityParams.maxVectorLen < 2 ^ 64 := by
      rw [apply_securityParams happly]
      exact h.word
    have hbare : word db' "channel" = word db "channel" → existsChannel db' "channel" = false := by
      intro hsame
      have hmissing := h.bare
      rw [← Bool.not_eq_true, existsChannel_iff] at hmissing ⊢
      rwa [hsame]
    rcases apply_planned hP hplan happly with ⟨haccepted, -, hwritten⟩ | ⟨hrefused, -, hreg⟩
    · have hlen : db'.state.values.length < 2 ^ 64 := by
        have hkeymap : (call.op.enter db plan).keymap = db'.keymap := hwritten.keymap.symm
        rw [hwritten.state, ← hkeymap]
        exact Nat.lt_of_le_of_lt haccepted.length_le h.word
      constructor
      case sound => exact hwritten.sound h.sound
      case word => exact hword
      case keys =>
        intro key hsome hstarts
        rcases (hwritten.isSome_get key).mp hsome with hold | hmem
        · exact h.keys key hold hstarts
        · exact spelled_of_mem_keyed hcareful.named hmem
      case bare =>
        refine hbare ?_
        rw [hwritten.word h.sound, (Writes.last_eq_none_iff_not_mem _ _).mpr hbareKey, Option.getD_none]
      case channel =>
        intro p hp
        by_cases hne : p = call.op.base
        · rw [hne]
          exact h.written hplan hcareful hwritten hlen
        · exact hother p hp hne
    · rcases hcareful.accepted with haccepted | ⟨⟨p1, p2, capacity, hop⟩, htidy⟩
      · exact absurd haccepted hrefused
      constructor
      case sound => exact hreg.sound h.sound
      case word => exact hword
      case keys =>
        intro key hsome hstarts
        rcases (hreg.isSome_get key).mp hsome with hold | hmem
        · exact h.keys key hold hstarts
        · exact spelled_of_mem_keyed hcareful.named hmem
      case bare => exact hbare (hreg.word htidy "channel")
      case channel =>
        intro p hp
        by_cases hne : p = call.op.base
        · rw [hne]
          exact h.registered hplan hcareful htidy hop hreg
        · exact hother p hp hne

end Step

/-! ### What is visible -/

section Visible

variable {bases : Set String} {db : NucleusDb P}

theorem Conserved.live (h : Conserved bases db) (hnames : Compatible bases) {base : String} {k : Nat}
    (hleading : startsWith base "channel:" = true) (hexists : existsChannel db base = true)
    (hcapacity : (db.keymap.get (base ++ repeated ":meta:capacity" (k + 1))).isSome) :
    ∃ c, Live db base c ∧ c.Balanced := by
  have hkey : (db.keymap.get base).isSome := by
    rw [existsChannel_iff] at hexists
    by_contra hnone
    exact hexists (word_of_absent (Option.not_isSome_iff_eq_none.mp hnone))
  have hlonger : startsWith (base ++ repeated ":meta:capacity" (k + 1)) "channel:" = true := by
    obtain ⟨tail, rfl⟩ := (Text.startsWith_iff _ _).mp hleading
    rw [String.append_assoc]
    exact Text.startsWith_append _ _
  have hmem := hnames.own base k (h.keys base hkey hleading) (h.keys _ hcapacity hlonger)
  obtain ⟨t, hholds, hbalanced⟩ := h.channel base hmem
  cases t with
  | some c => exact ⟨c, hholds, hbalanced c rfl⟩
  | none =>
    have hdormant : Dormant db base := hholds
    rw [hdormant.existsChannel] at hexists
    cases hexists

theorem Conserved.snapshot (h : Conserved bases db) (hnames : Compatible bases) {p1 p2 : String} {snap : ChannelSnapshot}
    (hsnap : channelSnapshot db p1 p2 = some snap) :
    snap.balance1.toNat + snap.balance2.toNat = snap.record.capacity.toNat := by
  have hvisible : existsChannel db (channelBase p1 p2) = true ∧ (capacityFor db (channelBase p1 p2)).isSome := by
    rw [channelSnapshot_eq] at hsnap
    split at hsnap
    · rename_i hlive
      obtain ⟨capacity, hcapacity, -⟩ := Option.map_eq_some_iff.mp hsnap
      exact ⟨hlive.1, by rw [hcapacity]; rfl⟩
    · cases hsnap
  obtain ⟨capacity, hcapacity⟩ := Option.isSome_iff_exists.mp hvisible.2
  obtain ⟨idx, hidx, -⟩ := valueAt_eq_some hcapacity
  have hkey : repeated ":meta:capacity" (0 + 1) = ":meta:capacity" := by
    rw [Text.repeated_succ]
    exact String.append_empty
  obtain ⟨c, hlive, hbalanced⟩ := h.live hnames (startsWith_of_under (.inl rfl)) hvisible.1
    (by rw [hkey, hidx]; rfl)
  rw [hlive.snapshot] at hsnap
  obtain rfl := Option.some.inj hsnap
  exact hbalanced

theorem Conserved.live_of_mem_channelBases (h : Conserved bases db) (hnames : Compatible bases) {base : String}
    (hmem : base ∈ channelBases db) : ∃ c, Live db base c ∧ c.Balanced := by
  unfold channelBases at hmem
  have hfound := List.mem_mergeSort.mp ((List.destutter_sublist _ _).subset hmem)
  obtain ⟨⟨key, idx⟩, hkey, hentry⟩ := List.mem_filterMap.mp hfound
  dsimp only at hentry
  split at hentry
  · cases hentry
  rename_i hform
  simp only [Bool.or_eq_true, Bool.not_eq_true', not_or, Bool.not_eq_false] at hform
  split at hentry
  · rename_i hexists
    obtain rfl := Option.some.inj hentry
    obtain ⟨k, hrest⟩ := Text.eq_trimEndMatchesStr_append hform.2
    have hget := (db.keymap.mem_allKeys key idx).mp hkey
    generalize trimEndMatchesStr ":meta:capacity" key = base at hexists hrest
    subst hrest
    have hunder : Under base (base ++ repeated ":meta:capacity" (k + 1)) := by
      rw [Text.repeated_succ]
      exact .inr ⟨"meta:capacity" ++ repeated ":meta:capacity" k, by rw [← @String.append_assoc ":"]; rfl⟩
    have hbare : Under "channel" (base ++ repeated ":meta:capacity" (k + 1)) := by
      obtain ⟨tail, htail⟩ := (Text.startsWith_iff _ _).mp hform.1
      exact .inr ⟨tail, by rw [htail, ← String.append_assoc]; rfl⟩
    have hleading : startsWith base "channel:" = true := by
      rcases hunder.comparable hbare with (hsame | ⟨tail, htail⟩) | (hsame | ⟨tail, htail⟩)
      · rw [← hsame, h.bare] at hexists
        cases hexists
      · -- the bare prefix has no colon
        have hcolon := congrArg (fun s : String => s.toList.count ':') htail
        have hnone : "channel".toList.count ':' = 0 := by decide
        simp [String.toList_append, List.count_append] at hcolon
      · rw [hsame, h.bare] at hexists
        cases hexists
      · rw [htail, ← String.append_assoc]
        exact Text.startsWith_append _ _
    exact h.live hnames hleading hexists (by rw [hget]; rfl)
  · cases hentry

theorem invalid_tallyChannel {base : String} {c : Channel} (hlive : Live db base c) (hbalanced : c.Balanced)
    (tally : Tally) : (tallyChannel db tally base).invalid = tally.invalid := by
  have hsum : saturatingAdd c.last.b1 c.last.b2 = c.capacity := by
    unfold Channel.Balanced at hbalanced
    refine UInt64.toNat_inj.mp ?_
    rw [toNat_saturatingAdd (by rw [hbalanced]; exact c.capacity.toNat_lt), hbalanced]
  have hcapacity : (valueAt db (base ++ ":meta:capacity")).getD 0 = c.capacity := by
    have hvalue := hlive.capacityFor
    unfold capacityFor at hvalue
    rw [hvalue]
    rfl
  have hb1 := hlive.word hlive.cell_b1
  have hb2 := hlive.word hlive.cell_b2
  rw [key_state] at hb1 hb2
  unfold tallyChannel
  dsimp only
  rw [hlive.latestSeq, if_neg (Channel.seq_ne_zero hlive.short), hcapacity]
  have hfeasible : (saturatingAdd
      ((valueAt db (base ++ ":state:" ++ toString c.seq ++ ":b1")).getD 0)
      ((valueAt db (base ++ ":state:" ++ toString c.seq ++ ":b2")).getD 0) == c.capacity) = true := by
    rw [beq_iff_eq, ← hsum]
    exact congrArg₂ saturatingAdd hb1 hb2
  rw [hfeasible]
  rfl

theorem Conserved.invalidChannels (h : Conserved bases db) (hnames : Compatible bases) :
    (complianceWitness db).invalidChannels = 0 := by
  have hfold : ∀ (l : List String) (tally : Tally), (∀ base ∈ l, ∃ c, Live db base c ∧ c.Balanced) →
      (l.foldl (tallyChannel db) tally).invalid = tally.invalid := by
    intro l
    induction l with
    | nil => exact fun _ _ => rfl
    | cons base rest ih =>
      intro tally hall
      obtain ⟨c, hlive, hbalanced⟩ := hall base List.mem_cons_self
      rw [List.foldl_cons, ih _ fun b hb => hall b (List.mem_cons_of_mem base hb),
        invalid_tallyChannel hlive hbalanced]
  exact hfold (channelBases db) ⟨0, 0, 0, []⟩ fun base hmem => h.live_of_mem_channelBases hnames hmem

end Visible

/-! ### Runs -/

/-- **Conservation.** Take a database without channel keys and a run of calls, each succeeding or failing, on bases that
do not get in each other's way. Let no operation that has been checked be refused by the commit, except for openings
whose cells are zero; let updates not overflow, and let splices keep the capacity. Then, at the end of the run, the
balances of every visible channel add up to its capacity, and the compliance witness reports no invalid channel. -/
theorem conservation (hP : P.SignaturesCorrect) {bases : Set String} (hnames : Compatible bases) {db : NucleusDb P}
    (hsound : db.keymap.Sound) (hblank : NoChannelKeys db) (hbare : existsChannel db "channel" = false)
    (hword : db.securityParams.maxVectorLen < 2 ^ 64) {calls : List Call}
    (hrun : Run.Along settle (fun db call => call.Careful bases db) db calls) :
    (∀ p1 p2 snap, channelSnapshot (Run.exec settle db calls) p1 p2 = some snap →
      snap.balance1.toNat + snap.balance2.toNat = snap.record.capacity.toNat) ∧
      (complianceWitness (Run.exec settle db calls)).invalidChannels = 0 := by
  have hstart : Conserved bases db := by
    constructor
    case sound => exact hsound
    case word => exact hword
    case keys =>
      intro key hsome hstarts
      rw [hblank key hsome] at hstarts
      cases hstarts
    case bare => exact hbare
    case channel =>
      intro p hp
      obtain ⟨a, b, rfl⟩ := hnames.named p hp
      exact ⟨none, hblank.dormant a b, fun c hc => nomatch hc⟩
  have hinv := Run.exec_invariant_along (conserved_step hP hnames) hstart hrun
  exact ⟨fun p1 p2 snap hsnap => hinv.snapshot hnames hsnap, hinv.invalidChannels hnames⟩

theorem compatible_singleton (p1 p2 : String) : Compatible {channelBase p1 p2} := by
  refine compatible_of_separate ?_ ?_
  · rintro p rfl
    exact ⟨p1, p2, rfl⟩
  · rintro p rfl q rfl hne
    exact absurd rfl hne

theorem conservation_open_update :
    (complianceWitness (Run.exec settle NucleusDb.singleWitnessDb
      [⟨.open_ "b" "a" 100, 0, 0⟩, ⟨.update "a" "b" 60 40, 0, 0⟩])).invalidChannels = 0 := by
  have hP := Platform.reference_signaturesCorrect
  have hbase : channelBase "b" "a" = channelBase "a" "b" := channelBase_comm _ _
  obtain ⟨db₁, hopen, hrun₁⟩ := singleWitnessDb_open "b" "a" 100
  rw [hbase] at hrun₁
  obtain ⟨db₂, hupdate, -⟩ := hrun₁.call (.update "a" "b" 60 40) rfl
    (hrun₁.live.plan_update_of_open (by decide) rfl) (by simp) (by simp)
  have hrun : Run.Along settle (fun db call => call.Careful {channelBase "a" "b"} db) NucleusDb.singleWitnessDb
      [⟨.open_ "b" "a" 100, 0, 0⟩, ⟨.update "a" "b" 60 40, 0, 0⟩] := by
    refine ⟨?_, ?_⟩
    · intro plan hplan
      exact ⟨hbase, .inl (accepted_of_ok hP hplan hopen), fun _ _ _ _ h => (nomatch h), fun _ _ _ h => (nomatch h)⟩
    · rw [settle_of_apply ⟨.open_ "b" "a" 100, 0, 0⟩ hopen]
      refine ⟨?_, trivial⟩
      intro plan hplan
      refine ⟨rfl, .inl (accepted_of_ok hP hplan hupdate), ?_, fun _ _ _ h => nomatch h⟩
      rintro _ _ _ _ ⟨⟩
      decide
  have hbare : existsChannel NucleusDb.singleWitnessDb "channel" = false := by
    rw [← Bool.not_eq_true, existsChannel_iff]
    exact not_not.mpr (word_of_absent Std.ExtTreeMap.getElem?_empty)
  exact (conservation hP (compatible_singleton "a" "b") KeyMap.sound_new singleWitnessDb_noChannelKeys hbare (by decide)
    hrun).2

/-- A splice leaves the balances of the new capacity under the old one. -/
theorem splice_not_conserved :
    NoChannelKeys NucleusDb.singleWitnessDb ∧
      ∃ snap, channelSnapshot (Run.exec settle NucleusDb.singleWitnessDb
          [⟨.open_ "a" "b" 100, 0, 0⟩, ⟨.splice "a" "b" 50, 0, 0⟩]) "a" "b" = some snap ∧
        snap.balance1.toNat + snap.balance2.toNat = 50 ∧ snap.record.capacity.toNat = 100 := by
  obtain ⟨db₁, hopen, hrun₁⟩ := singleWitnessDb_open "a" "b" 100
  obtain ⟨db₂, hsplice, hrun₂⟩ := hrun₁.call (.splice "a" "b" 50) rfl hrun₁.live.plan_splice (by simp) (by simp)
  refine ⟨singleWitnessDb_noChannelKeys, _, Eq.trans ?_ hrun₂.live.snapshot, by decide, by decide⟩
  rw [Run.exec_cons, Run.exec_cons, Run.exec_nil, settle_of_apply ⟨.open_ "a" "b" 100, 0, 0⟩ hopen,
    settle_of_apply ⟨.splice "a" "b" 50, 0, 0⟩ hsplice]

end AgentHalo.Pcn
