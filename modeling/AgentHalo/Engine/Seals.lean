import AgentHalo.Engine.KeyDigest
import AgentHalo.Engine.Registration

/-!
# The monotone seal chain

In append-only mode each commit appends a seal, the hash of the seal before it and of a digest of all keys and values.
What `verifySealChainWithAnchor` accepts is exactly the hash chain of the snapshots, `sealsOf`. So the seals the engine
issues are accepted. What they bind are texts: not where the values are, and not where a key ends. Which snapshots fit a
chain is not settled by it, so that no chain of two seals certifies that one snapshot extends the other, and that keys are
kept only where the texts say so however they are read (`sealChain_certifies_iff`).
-/

namespace AgentHalo.Engine

open Store (KeyMap TypedValue)

section Verifier

variable (P : Platform)

/-- The loop of the verifier, from the seal `prev`. -/
def verifySealsFrom (prev : NodeHash) : List NodeHash → List (State × KeyMap) → Bool
  | [], _ => true
  | _ :: _, [] => false
  | issued :: seals, (state, keymap) :: states =>
    let kv := keyValueDigest P state keymap
    let expected := nextSeal P prev kv
    if issued ≠ expected then false else verifySealsFrom issued seals states

def verifySealChainWithAnchor (seals : List NodeHash) (states : List (State × KeyMap)) (anchor : Option String) :
    Bool :=
  if seals.length ≠ states.length then false
  else verifySealsFrom P ((anchor.map (genesisSealWithAnchor P)).getD (genesisSeal P)) seals states

/-- The seals of successive snapshots, chained onto `prev`. -/
def sealsOf (prev : NodeHash) : List (State × KeyMap) → List NodeHash
  | [] => []
  | (state, keymap) :: states =>
    let next := nextSeal P prev (keyValueDigest P state keymap)
    next :: sealsOf next states

theorem sealsOf_length (prev : NodeHash) (states : List (State × KeyMap)) :
    (sealsOf P prev states).length = states.length := by
  induction states generalizing prev with
  | nil => rfl
  | cons snapshot rest ih => rw [sealsOf, List.length_cons, List.length_cons, ih]

theorem sealsOf_concat (prev : NodeHash) (states : List (State × KeyMap)) (state : State) (keymap : KeyMap) :
    sealsOf P prev (states ++ [(state, keymap)]) =
      sealsOf P prev states ++
        [nextSeal P ((sealsOf P prev states).getLast?.getD prev) (keyValueDigest P state keymap)] := by
  induction states generalizing prev with
  | nil => rfl
  | cons snapshot rest ih =>
    rw [List.cons_append, sealsOf, sealsOf, ih, List.getLast?_cons]
    rfl

theorem verifySealsFrom_iff (prev : NodeHash) (seals : List NodeHash) (states : List (State × KeyMap))
    (hlen : seals.length = states.length) :
    verifySealsFrom P prev seals states = true ↔ seals = sealsOf P prev states := by
  induction seals generalizing prev states with
  | nil =>
    have hnil : states = [] := List.eq_nil_of_length_eq_zero hlen.symm
    subst hnil
    exact ⟨fun _ => rfl, fun _ => rfl⟩
  | cons issued seals ih =>
    cases states with
    | nil => cases hlen
    | cons snapshot rest =>
      rw [verifySealsFrom, sealsOf, List.cons.injEq]
      by_cases hseal : issued = nextSeal P prev (keyValueDigest P snapshot.1 snapshot.2)
      · rw [if_neg (not_not.mpr hseal), ih issued rest (Nat.succ.inj hlen), ← hseal]
        simp
      · rw [if_pos hseal]
        simp [hseal]

/-- **What the verifier accepts.** Exactly the hash chain of the snapshots. -/
theorem verifySealChainWithAnchor_iff (seals : List NodeHash) (states : List (State × KeyMap))
    (anchor : Option String) :
    verifySealChainWithAnchor P seals states anchor = true ↔
      seals = sealsOf P ((anchor.map (genesisSealWithAnchor P)).getD (genesisSeal P)) states := by
  unfold verifySealChainWithAnchor
  by_cases hlen : seals.length = states.length
  · rw [if_neg (not_not.mpr hlen)]
    exact verifySealsFrom_iff P _ seals states hlen
  · rw [if_pos hlen]
    refine iff_of_false Bool.false_ne_true ?_
    intro heq
    apply hlen
    rw [heq, sealsOf_length]

end Verifier

/-! ### Acceptance and deletions -/

/-- Each snapshot is a monotone extension of the one before it. -/
def SuccessivelyExtended (states : List (State × KeyMap)) : Prop :=
  ∀ i old new, states[i]? = some old → states[i + 1]? = some new →
    verifyMonotoneExtension old.1 old.2 new.1 new.2 = true

/-- Every key with a nonzero value has it in the next snapshot as well. -/
def KeysKept (states : List (State × KeyMap)) : Prop :=
  ∀ i old new, states[i]? = some old → states[i + 1]? = some new →
    ∀ key value, denoted old.1 old.2 key = some value → value ≠ 0 → denoted new.1 new.2 key = some value

/-- The entries are in key order, and `key=value;` for each of them gives the text. -/
def Reads (text : String) (es : List (String × UInt64)) : Prop :=
  es.Pairwise (fun a b => compare a.1 b.1 = .lt) ∧ String.ofList (es.flatMap fun e => segment (e.1.toList, e.2)) = text

/-- However the texts are read, what is nonzero in the first is in the second. -/
def Binds (text text' : String) : Prop :=
  ∀ es es', Reads text es → Reads text' es' → ∀ e ∈ es, e.2 ≠ 0 → e ∈ es'

/-- The texts that the seals are made of bind one another. -/
def TextsBind (sealed : List (State × KeyMap)) : Prop :=
  ∀ i old new, sealed[i]? = some old → sealed[i + 1]? = some new →
    Binds (digestText old.1 old.2) (digestText new.1 new.2)

section Readings

variable {text text' : String} {es es' : List (String × UInt64)}

theorem reads_entries (state : State) (keymap : KeyMap) : Reads (digestText state keymap) (entries state keymap) :=
  ⟨entries_sorted state keymap, rfl⟩

def snapshotOf (es : List (String × UInt64)) : State × KeyMap :=
  (apply ⟨[]⟩ ⟨(KeyMap.new.register (es.map Prod.fst)).indexed es⟩, KeyMap.new.register (es.map Prod.fst))

theorem mem_entries_snapshotOf (hsorted : es.Pairwise fun a b => compare a.1 b.1 = .lt) (e : String × UInt64) :
    e ∈ entries (snapshotOf es).1 (snapshotOf es).2 ↔ e ∈ es := by
  obtain ⟨key, value⟩ := e
  have hall : ∀ w ∈ es, ((KeyMap.new.register (es.map Prod.fst)).get w.1).isSome := fun w hw =>
    (KeyMap.isSome_get_register _ _ _).mpr (.inr (List.mem_map_of_mem hw))
  have hdistinct : es.Pairwise fun a b => a.1 ≠ b.1 :=
    hsorted.imp fun hlt heq => by simp [heq] at hlt
  rw [mem_entries, ← Writes.last_eq_some_iff hdistinct]
  unfold snapshotOf denoted
  dsimp only
  cases hkey : (KeyMap.new.register (es.map Prod.fst)).get key with
  | none =>
    have hmem : key ∉ es.map Prod.fst := by
      intro hmem
      have hsome := (KeyMap.isSome_get_register KeyMap.new key (es.map Prod.fst)).mpr (.inr hmem)
      rw [hkey] at hsome
      cases hsome
    rw [(Writes.last_eq_none_iff_not_mem es key).mpr hmem]
    rfl
  | some idx =>
    rw [Option.map_some, cell_apply_indexed (KeyMap.sound_new.register _) _ hall hkey]
    cases hlast : Writes.last es key with
    | some written => rfl
    | none =>
      have hmem := (Writes.last_eq_none_iff_not_mem es key).mp hlast
      rw [KeyMap.get_register_of_not_mem _ hmem] at hkey
      cases hkey

theorem entries_snapshotOf (hsorted : es.Pairwise fun a b => compare a.1 b.1 = .lt) :
    entries (snapshotOf es).1 (snapshotOf es).2 = es := by
  refine OrdMap.eq_of_sorted_of_mem_iff (r := fun a b => compare a.1 b.1 = .lt) ?_ ?_ (entries_sorted _ _) hsorted
    (mem_entries_snapshotOf hsorted)
  · intro a
    simp
  · intro a b c hab hbc
    exact Std.TransCmp.lt_trans hab hbc

theorem Reads.digestText_snapshotOf (h : Reads text es) : digestText (snapshotOf es).1 (snapshotOf es).2 = text := by
  unfold digestText
  rw [entries_snapshotOf h.1]
  exact h.2

theorem not_binds_of_two (hes : Reads text es) (hes' : Reads text' es') {e : String × UInt64} (he : e ∈ es) (hne : e.2 ≠ 0)
    (htwo : 2 ≤ es'.length) : ¬ Binds text text' := by
  intro hbinds
  obtain ⟨front, last, rfl⟩ : ∃ front last, es' = front ++ [last] :=
    ⟨_, _, (List.dropLast_append_getLast (List.ne_nil_of_length_pos (Nat.lt_of_lt_of_le Nat.zero_lt_two htwo))).symm⟩
  let joined : List Char := front.flatMap fun e => segment (e.1.toList, e.2)
  have hmerged : Reads text' [(String.ofList (joined ++ last.1.toList), last.2)] := by
    refine ⟨List.pairwise_singleton _ _, ?_⟩
    rw [← hes'.2]
    simp [joined, segment]
  have heq := List.mem_singleton.mp (hbinds es _ hes hmerged e he hne)
  have hlength : e.1.toList.length = joined.length + last.1.toList.length := by
    rw [heq, String.toList_ofList, List.length_append]
  rcases List.mem_append.mp (hbinds es _ hes hes' e he hne) with hfront | hlast
  · -- its segment is a part of the joined text
    obtain ⟨before, after, hsplit⟩ := List.append_of_mem hfront
    have hpart : e.1.toList.length < joined.length := by
      simp only [joined, hsplit, List.flatMap_append, List.flatMap_cons, List.length_append, segment, List.length_cons]
      omega
    omega
  · rw [List.mem_singleton.mp hlast] at hlength
    have hpos : 0 < joined.length := by
      obtain ⟨first, rest, rfl⟩ := List.exists_cons_of_length_pos (show 0 < front.length by
        rw [List.length_append, List.length_singleton] at htwo
        omega)
      simp only [joined, List.flatMap_cons, List.length_append, segment, List.length_cons]
      omega
    omega

end Readings

theorem sealsOf_congr (P : Platform) (prev : NodeHash) {states states' : List (State × KeyMap)}
    (h : (states.map fun s => digestText s.1 s.2) = states'.map fun s => digestText s.1 s.2) :
    sealsOf P prev states = sealsOf P prev states' := by
  induction states generalizing prev states' with
  | nil =>
    rw [List.map_eq_nil_iff.mp h.symm]
  | cons snapshot rest ih =>
    cases states' with
    | nil => cases h
    | cons snapshot' rest' =>
      obtain ⟨htext, hrest⟩ := List.cons.inj h
      dsimp only at htext
      rw [sealsOf, sealsOf, keyValueDigest_eq, keyValueDigest_eq, htext, ih _ hrest]

theorem exists_unkeyed (state : State) (keymap : KeyMap) (bound : Nat) : ∃ idx, bound ≤ idx ∧
    digestText (apply state ⟨[(idx, 1)]⟩) keymap = digestText state keymap ∧ (apply state ⟨[(idx, 1)]⟩).cell idx = 1 := by
  have hcell (idx other : Nat) : (apply state ⟨[(idx, 1)]⟩).cell other = if idx = other then 1 else state.cell other := by
    rw [cell_apply]
    by_cases heq : idx = other <;> simp [Writes.last, heq]
  refine ⟨bound + (keymap.allKeys.map Prod.snd).sum + 1, by omega, ?_, by rw [hcell, if_pos rfl]⟩
  unfold digestText entries
  rw [List.flatMap_map, List.flatMap_map]
  refine congrArg String.ofList (List.flatMap_congr ?_)
  rintro ⟨key, other⟩ hmem
  have hle : other ≤ (keymap.allKeys.map Prod.snd).sum := List.le_sum_of_mem (List.mem_map_of_mem hmem)
  dsimp only
  rw [hcell, if_neg (by omega)]

section Certified

variable (P : Platform) (prev : NodeHash) (seals : List NodeHash)

theorem successivelyExtended_iff : (∀ states : List (State × KeyMap), seals.length = states.length →
      seals = sealsOf P prev states → SuccessivelyExtended states) ↔
    seals.length < 2 ∨ ∀ sealed, seals ≠ sealsOf P prev sealed := by
  constructor
  · intro hcertifies
    by_contra! hlong
    obtain ⟨htwo, sealed, hsealed⟩ := hlong
    have hlen := congrArg List.length hsealed
    rw [sealsOf_length] at hlen
    match sealed, hlen with
    | [], hlen => exact absurd htwo (by rw [show seals.length = 0 from hlen]; decide)
    | [_], hlen => exact absurd htwo (by rw [show seals.length = 1 from hlen]; decide)
    | old :: new :: rest, hlen =>
      obtain ⟨idx, hbound, htext, hcell⟩ := exists_unkeyed old.1 old.2 new.1.values.length
      have hsame : seals = sealsOf P prev ((apply old.1 ⟨[(idx, 1)]⟩, old.2) :: new :: rest) := by
        rw [hsealed]
        refine sealsOf_congr P prev ?_
        exact congrArg (· :: (new :: rest).map fun s => digestText s.1 s.2) htext.symm
      have hextended := hcertifies ((apply old.1 ⟨[(idx, 1)]⟩, old.2) :: new :: rest) hlen hsame 0 _ new rfl rfl
      have hraw := (verifyRawMonotoneExtension_iff _ _).mp
        (verifyRawMonotoneExtension_of_verifyMonotoneExtension hextended) idx (by rw [hcell]; decide)
      rw [hcell] at hraw
      unfold State.cell at hraw
      rw [List.getElem?_eq_none hbound] at hraw
      exact absurd hraw (by decide)
  · rintro (hshort | hnone) states hlen hsealed i old new hold hnew
    · have hlt := (List.getElem?_eq_some_iff.mp hnew).1
      omega
    · exact absurd hsealed (hnone states)

theorem keysKept_iff : (∀ states : List (State × KeyMap), seals.length = states.length →
      seals = sealsOf P prev states → KeysKept states) ↔
    ∀ sealed, seals = sealsOf P prev sealed → TextsBind sealed := by
  constructor
  · intro hcertifies sealed hsealed i old new hold hnew es es' hes hes' e he hne
    have hi := (List.getElem?_eq_some_iff.mp hold).1
    have hi' := (List.getElem?_eq_some_iff.mp hnew).1
    -- the two readings in the places of the snapshots
    let shown := (sealed.set i (snapshotOf es)).set (i + 1) (snapshotOf es')
    have htexts : (sealed.map fun s => digestText s.1 s.2) = shown.map fun s => digestText s.1 s.2 := by
      unfold shown
      rw [List.map_set, List.map_set, hes.digestText_snapshotOf, hes'.digestText_snapshotOf]
      refine List.ext_getElem? fun j => ?_
      rw [List.getElem?_set, List.getElem?_set]
      split_ifs <;> simp_all
    have hshown : seals = sealsOf P prev shown := hsealed.trans (sealsOf_congr P prev htexts)
    have hlen : seals.length = shown.length := by rw [hshown, sealsOf_length]
    have hfirst : shown[i]? = some (snapshotOf es) := by
      unfold shown
      rw [List.getElem?_set_ne (Nat.succ_ne_self i), List.getElem?_set_self hi]
    have hsecond : shown[i + 1]? = some (snapshotOf es') := List.getElem?_set_self (by rwa [List.length_set])
    have hvalue := mem_entries.mp ((mem_entries_snapshotOf hes.1 e).mpr he)
    exact (mem_entries_snapshotOf hes'.1 e).mp
      (mem_entries.mpr (hcertifies shown hlen hshown i _ _ hfirst hsecond e.1 e.2 hvalue hne))
  · intro hbind states _ hsealed i old new hold hnew key value hvalue hne
    exact mem_entries.mp (hbind states hsealed i old new hold hnew _ _ (reads_entries _ _) (reads_entries _ _) (key, value)
      (mem_entries.mpr hvalue) hne)

end Certified

/-- **What acceptance certifies.** Whatever snapshots a chain of seals is accepted against, each extends the one before it:
this holds of chains of fewer than two seals, and of lists of seals that are the chain of no snapshots. Each has the keys of
the one before it: this holds if the texts under the seals bind one another. -/
theorem sealChain_certifies_iff (P : Platform) (seals : List NodeHash) (anchor : Option String) :
    ((∀ states : List (State × KeyMap), seals.length = states.length →
        verifySealChainWithAnchor P seals states anchor = true → SuccessivelyExtended states) ↔
      seals.length < 2 ∨
        ∀ sealed, seals ≠ sealsOf P ((anchor.map (genesisSealWithAnchor P)).getD (genesisSeal P)) sealed) ∧
    ((∀ states : List (State × KeyMap), seals.length = states.length →
        verifySealChainWithAnchor P seals states anchor = true → KeysKept states) ↔
      ∀ sealed, seals = sealsOf P ((anchor.map (genesisSealWithAnchor P)).getD (genesisSeal P)) sealed →
        TextsBind sealed) := by
  simp only [verifySealChainWithAnchor_iff]
  exact ⟨successivelyExtended_iff P _ seals, keysKept_iff P _ seals⟩

def keyA : KeyMap := (KeyMap.new.getOrCreate "a").2

/-- The record `a = 1` is deleted between two snapshots, and the seals of the two are accepted. -/
theorem sealChain_accepts_deletion :
    verifySealChainWithAnchor .reference
        (sealsOf .reference (genesisSeal .reference) [(⟨[1]⟩, keyA), (⟨[]⟩, KeyMap.new)])
        [(⟨[1]⟩, keyA), (⟨[]⟩, KeyMap.new)] none = true ∧
      verifyMonotoneExtension ⟨[1]⟩ keyA ⟨[]⟩ KeyMap.new = false := by
  refine ⟨(verifySealChainWithAnchor_iff _ _ _ _).mpr rfl, ?_⟩
  decide

/-! ### The seals of the engine -/

namespace NucleusDb

variable {P : Platform}

/-- The operations of a client that may also create keys on its own. -/
inductive ClientOp (P : Platform) where
  | op (op : DbOp P)
  | getOrCreate (key : String)

/-- A database and the snapshots a client took of it. -/
structure Observed (P : Platform) where
  db : NucleusDb P
  snapshots : List (State × KeyMap)

/-- An operation, and a snapshot right after it if it is a successful commit made in append-only mode. -/
def Observed.step (o : Observed P) : ClientOp P → Observed P
  | .op (.commit delta localViews now) =>
    match o.db.commit delta localViews now with
    | some (.ok _, db) =>
      ⟨db, if o.db.writeMode = .appendOnly then o.snapshots ++ [(db.state, db.keymap)] else o.snapshots⟩
    | some (.error _, db) => ⟨db, o.snapshots⟩
    | none => o
  | .op op => ⟨o.db.applyOp op, o.snapshots⟩
  | .getOrCreate key => ⟨{ o.db with keymap := (o.db.keymap.getOrCreate key).2 }, o.snapshots⟩

/-- The anchor the seals start from: the identity ledger has no completed genesis. -/
def genesisAnchor : Option String := latestCompletedGenesisHash.toOption.join

/-- The seals are the chain of the snapshots. -/
def Observed.SealsMatch (o : Observed P) : Prop := o.db.monotoneSeals = sealsOf P (genesisSeal P) o.snapshots

theorem pushSeal_monotoneSeals (db : NucleusDb P) :
    db.pushSeal.monotoneSeals =
      if db.writeMode = .appendOnly then
        db.monotoneSeals ++
          [nextSeal P (db.monotoneSeals.getLast?.getD (genesisSeal P)) (keyValueDigest P db.state db.keymap)]
      else db.monotoneSeals := by
  unfold pushSeal
  by_cases hmode : db.writeMode = .appendOnly
  · rw [if_pos hmode, if_pos hmode]
    rfl
  · rw [if_neg hmode, if_neg hmode]

variable {db db' : NucleusDb P} {delta : Delta} {localViews : List LocalSection} {now : Nat}

theorem commit_monotoneSeals {entry : CommitEntry} (h : db.commit delta localViews now = some (.ok entry, db')) :
    db'.monotoneSeals =
      if db.writeMode = .appendOnly then
        db.monotoneSeals ++
          [nextSeal P (db.monotoneSeals.getLast?.getD (genesisSeal P)) (keyValueDigest P db'.state db'.keymap)]
      else db.monotoneSeals := by
  obtain ⟨rs, sigs, hc⟩ := commit_ok h
  rw [hc.db_eq, pushSeal_monotoneSeals, pushSeal_state, pushSeal_keymap]

theorem commit_error_monotoneSeals {e : CommitError} (h : db.commit delta localViews now = some (.error e, db')) :
    db'.monotoneSeals = db.monotoneSeals := by
  rcases commit_cases h with ⟨-, -, rfl⟩ | ⟨-, -, rs, -, rfl | rfl⟩ | ⟨rs, sigs, entry, hr, -⟩
  · rfl
  · rfl
  · rfl
  · cases hr

theorem putTyped_monotoneSeals (db : NucleusDb P) (key : String) (value : TypedValue P) (clock : Clock) :
    (db.putTyped key value clock).2.monotoneSeals = db.monotoneSeals := by
  unfold putTyped
  dsimp only
  split
  · rfl
  · rfl

theorem Observed.SealsMatch.step {o : Observed P} (h : o.SealsMatch) (op : ClientOp P) : (o.step op).SealsMatch := by
  unfold SealsMatch at h ⊢
  cases op with
  | getOrCreate key => exact h
  | op op =>
    cases op with
    | putTyped key value clock => exact (putTyped_monotoneSeals o.db key value clock).trans h
    | setAppendOnly => exact h
    | commit delta localViews now =>
      unfold Observed.step
      dsimp only
      split
      · rename_i entry db hcommit
        rw [commit_monotoneSeals hcommit]
        by_cases hmode : o.db.writeMode = .appendOnly
        · rw [if_pos hmode]
          dsimp only
          rw [if_pos hmode, sealsOf_concat, h]
        · rw [if_neg hmode]
          dsimp only
          rw [if_neg hmode, h]
      · rename_i e db hcommit
        exact (commit_error_monotoneSeals hcommit).trans h
      · exact h

theorem FreshlyBuilt.monotoneSeals {initial : State} (h : FreshlyBuilt initial db) :
    db.monotoneSeals = [] := by
  rcases h with ⟨backend, cfg, clock, h⟩ | ⟨backend, cfg, params, contracts, clock, h⟩
  · obtain ⟨setup, rfl⟩ := new_eq_some h
    rfl
  · obtain ⟨-, -, setup, -, rfl⟩ := withSecurity_ok h
    rfl

/-- **The engine's seals verify.** Along any run of commits, typed writes, key creations and `set_append_only` on a
freshly built database, whatever succeeds or fails, the seals are accepted against the snapshots taken right after each
successful commit made in append-only mode. -/
theorem engine_seals_verify {initial : State} {db : NucleusDb P} (hfresh : FreshlyBuilt initial db)
    (ops : List (ClientOp P)) :
    verifySealChainWithAnchor P (Run.exec Observed.step ⟨db, []⟩ ops).db.monotoneSeals
      (Run.exec Observed.step ⟨db, []⟩ ops).snapshots genesisAnchor = true := by
  have hstart : Observed.SealsMatch ⟨db, []⟩ := hfresh.monotoneSeals
  have hend := Run.exec_invariant (I := Observed.SealsMatch) (fun o op h => h.step op) hstart ops
  exact (verifySealChainWithAnchor_iff P _ _ _).mpr hend

/-- A commit, the switch to append-only mode, a new key and a second commit, from a database opened by `new`. -/
theorem engine_seals_verify_locked :
    FreshlyBuilt ⟨[]⟩ singleWitnessDb ∧
      verifySealChainWithAnchor .reference
        (Run.exec Observed.step ⟨singleWitnessDb, []⟩ [.op (.commit ⟨[(0, 1)]⟩ [] 0), .op .setAppendOnly,
          .getOrCreate "a", .op (.commit ⟨[(1, 2)]⟩ [] 1)]).db.monotoneSeals
        (Run.exec Observed.step ⟨singleWitnessDb, []⟩ [.op (.commit ⟨[(0, 1)]⟩ [] 0), .op .setAppendOnly,
          .getOrCreate "a", .op (.commit ⟨[(1, 2)]⟩ [] 1)]).snapshots genesisAnchor = true :=
  ⟨singleWitnessDb_freshlyBuilt, engine_seals_verify singleWitnessDb_freshlyBuilt _⟩

end NucleusDb

end AgentHalo.Engine
