import AgentHalo.Engine.CommitSpec

/-!
# The commit chain

Along a run of successful commits the history, the log and the state move together. `Chain` is the invariant, one field
for each fact; `Chain.step` carries it over one commit and `chain_of_commitRun` over a run. Most fields are indexed by a
position in the history, which is an old one or the last: `getElem?_concat` makes that split once.
-/

namespace AgentHalo.Engine

open Transparency (makeSth hasher merkleTreeHash)

variable {P : Platform}

theorem getElem?_concat {α : Type} {l : List α} {a b : α} {i : Nat} (h : (l ++ [a])[i]? = some b) :
    l[i]? = some b ∨ (i = l.length ∧ b = a) := by
  rcases Nat.lt_trichotomy i l.length with hlt | heq | hgt
  · left
    rwa [List.getElem?_append_left hlt] at h
  · right
    subst heq
    rw [List.getElem?_append_right (Nat.le_refl _), Nat.sub_self] at h
    exact ⟨rfl, (Option.some.inj h).symm⟩
  · rw [List.getElem?_eq_none (by simp; omega)] at h
    cases h

theorem getElem?_concat_of_some {α : Type} {l : List α} {a b : α} {i : Nat} (h : l[i]? = some b) :
    (l ++ [a])[i]? = some b := by
  have hlt : i < l.length := (List.getElem?_eq_some_iff.mp h).1
  rw [List.getElem?_append_left hlt, h]

namespace NucleusDb

def FreshlyBuilt (initial : State) (db : NucleusDb P) : Prop :=
  (∃ backend cfg clock, new initial backend cfg clock = some db) ∨
    ∃ backend cfg params contracts clock, withSecurity initial backend cfg params contracts clock = .ok db

variable {initial : State} {backend : VcBackend} {cfg : WitnessConfig P} {clock : Clock} {db : NucleusDb P}

theorem withSecurity_ok {params : ParameterSet} {contracts : List ReductionContract}
    (h : withSecurity initial backend cfg params contracts clock = .ok db) :
    validateParameters params backend.profile cfg = .ok () ∧ validateReductionContracts contracts = .ok () ∧
      ∃ setup, loadKzgSetupIfRequired P backend params = .ok setup ∧
        db = fresh initial backend cfg params contracts setup clock := by
  unfold withSecurity at h
  split at h
  · cases h
  rename_i hparams
  split at h
  · cases h
  rename_i hcontracts
  split at h
  · cases h
  rename_i setup hsetup
  exact ⟨hparams, hcontracts, setup, hsetup, (Except.ok.inj h).symm⟩

theorem new_eq_some (h : new initial backend cfg clock = some db) : ∃ setup, db = NucleusDb.fresh initial backend cfg
      (defaultParams backend) (defaultReductionContracts backend.profile) setup clock := by
  unfold new at h
  cases hopen : withSecurity initial backend cfg (defaultParams backend) (defaultReductionContracts backend.profile)
      clock with
  | error e =>
    rw [hopen] at h
    cases h
  | ok db' =>
    rw [hopen] at h
    obtain rfl := Option.some.inj h
    obtain ⟨-, -, setup, -, heq⟩ := withSecurity_ok hopen
    exact ⟨setup, heq⟩

theorem FreshlyBuilt.fresh (h : FreshlyBuilt initial db) :
    db.state = initial ∧ db.entries = [] ∧ db.ctLeaves = [] ∧ db.currentSth = none := by
  rcases h with ⟨backend, cfg, clock, h⟩ | ⟨backend, cfg, params, contracts, clock, h⟩
  · obtain ⟨setup, rfl⟩ := new_eq_some h
    exact ⟨rfl, rfl, rfl, rfl⟩
  · obtain ⟨-, -, setup, -, rfl⟩ := withSecurity_ok h
    exact ⟨rfl, rfl, rfl, rfl⟩

theorem singleWitnessDb_freshlyBuilt : FreshlyBuilt ⟨[]⟩ singleWitnessDb := .inl ⟨_, _, _, singleWitnessDb_new⟩

/-- The run of successful commits of `deltas`, oldest first, from `start`. -/
inductive CommitRun (start : NucleusDb P) : List Delta → NucleusDb P → Prop where
  | nil : CommitRun start [] start
  | snoc {deltas : List Delta} {db db' : NucleusDb P} {delta : Delta} {localViews : List LocalSection} {now : Nat}
      {entry : CommitEntry} (run : CommitRun start deltas db)
      (commit : db.commit delta localViews now = some (.ok entry, db')) : CommitRun start (deltas ++ [delta]) db'

def leafOf (P : Platform) (e : CommitEntry) : NodeHash :=
  entryLeaf P e.height e.prevStateRoot e.stateRoot e.deltaDigest e.certDigest e.sheafCoherenceDigest

/-- The history, the log and the state of a database that has committed `deltas` onto `initial`. -/
structure Chain (initial : State) (deltas : List Delta) (db : NucleusDb P) : Prop where
  length_eq : db.entries.length = db.ctLeaves.length
  count_eq : db.entries.length = deltas.length
  height_eq : ∀ (i : Nat) (e : CommitEntry), db.entries[i]? = some e → e.height = i + 1
  treeSize_eq : ∀ (i : Nat) (e : CommitEntry), db.entries[i]? = some e → e.sth.treeSize = i + 1
  rootHash_eq : ∀ (i : Nat) (e : CommitEntry), db.entries[i]? = some e →
    e.sth.rootHash = merkleTreeHash (hasher P) (db.ctLeaves.take (i + 1))
  leaf_eq : ∀ (i : Nat) (e : CommitEntry), db.entries[i]? = some e → db.ctLeaves[i]? = some (leafOf P e)
  linked : ∀ (i : Nat) (e e' : CommitEntry), db.entries[i]? = some e → db.entries[i + 1]? = some e' →
    e'.prevStateRoot = e.stateRoot
  first_prevStateRoot : ∀ e : CommitEntry, db.entries[0]? = some e →
    db.stateRootFor (materialize initial) = some e.prevStateRoot
  last_stateRoot : ∀ e : CommitEntry, db.entries.getLast? = some e →
    db.stateRootFor (materialize db.state) = some e.stateRoot
  state_eq : db.state = deltas.foldl apply initial
  currentSth_eq : db.currentSth = db.entries.getLast?.map (·.sth)

theorem Chain.of_fresh (h : FreshlyBuilt initial db) : Chain initial [] db := by
  obtain ⟨hstate, hentries, hleaves, hsth⟩ := h.fresh
  constructor
  case length_eq => rw [hentries, hleaves]; rfl
  case count_eq => rw [hentries]; rfl
  case state_eq => exact hstate
  case currentSth_eq => rw [hsth, hentries]; rfl
  all_goals
    rw [hentries]
    intros
    contradiction

/-- The roots a commit uses: the new one is that of the new state, the old one is the last entry's, or that of the
current state before the first entry. -/
theorem roots_eq_some {next : State} {rs : NodeHash × NodeHash} (h : db.roots next = some rs) :
    db.stateRootFor (materialize next) = some rs.2 ∧
      ((∃ e, db.entries.getLast? = some e ∧ rs.1 = e.stateRoot) ∨
        (db.entries = [] ∧ db.stateRootFor (materialize db.state) = some rs.1)) := by
  unfold roots at h
  split at h
  · cases h
  rename_i stateRoot hnext
  split at h
  · rename_i e hlast
    obtain rfl := Option.some.inj h
    exact ⟨hnext, .inl ⟨e, hlast, rfl⟩⟩
  · rename_i hlast
    obtain ⟨prevRoot, hprev, rfl⟩ := Option.map_eq_some_iff.mp h
    exact ⟨hnext, .inr ⟨List.getLast?_eq_none_iff.mp hlast, hprev⟩⟩

/-! ### One commit -/

section Step

variable {initial : State} {deltas : List Delta} {db db' : NucleusDb P} {delta : Delta} {localViews : List LocalSection}
  {now : Nat} {rs : NodeHash × NodeHash} {sigs : List (String × String)} {entry : CommitEntry}

theorem Committed.ctLeaves_eq (hc : Committed db delta localViews now rs sigs entry db') :
    db'.ctLeaves = db.ctLeaves ++ [leafOf P entry] := by
  rw [hc.db_eq, pushSeal_ctLeaves, hc.entry_eq]
  rfl

theorem Committed.length_ctLeaves (hc : Committed db delta localViews now rs sigs entry db') :
    db'.ctLeaves.length = db.entries.length + 1 := by
  rw [hc.ctLeaves_eq, List.length_append, List.length_singleton, hc.inStep]

theorem Committed.sth_eq (hc : Committed db delta localViews now rs sigs entry db') :
    entry.sth = makeSth P db'.ctLeaves now := by
  rw [hc.ctLeaves_eq, hc.entry_eq]
  rfl

theorem Committed.prevStateRoot_eq (hc : Committed db delta localViews now rs sigs entry db') :
    (∃ e, db.entries.getLast? = some e ∧ entry.prevStateRoot = e.stateRoot) ∨
      (db.entries = [] ∧ db.stateRootFor (materialize db.state) = some entry.prevStateRoot) := by
  have hprevRoot : entry.prevStateRoot = rs.1 := by
    rw [hc.entry_eq]
    rfl
  rw [hprevRoot]
  exact (roots_eq_some hc.roots).2

theorem Committed.stateRoot_eq (hc : Committed db delta localViews now rs sigs entry db') :
    db.stateRootFor (materialize db'.state) = some entry.stateRoot := by
  have hstateRoot : entry.stateRoot = rs.2 := by
    rw [hc.entry_eq]
    rfl
  rw [hc.advanced.state, hstateRoot]
  exact (roots_eq_some hc.roots).1

theorem Chain.linked_step (hchain : Chain initial deltas db) (hc : Committed db delta localViews now rs sigs entry db')
    {i : Nat} {e e' : CommitEntry} (he : db'.entries[i]? = some e) (he' : db'.entries[i + 1]? = some e') :
    e'.prevStateRoot = e.stateRoot := by
  rw [hc.advanced.entries] at he he'
  have hlt : i < db.entries.length := by
    have hbound := (List.getElem?_eq_some_iff.mp he').1
    rw [List.length_append, List.length_singleton] at hbound
    omega
  rw [List.getElem?_append_left hlt] at he
  rcases getElem?_concat he' with hold | ⟨hi, rfl⟩
  · exact hchain.linked i e e' he hold
  · have hlast : db.entries.getLast? = some e := by
      rw [List.getLast?_eq_getElem?, show db.entries.length - 1 = i by omega, he]
    rcases hc.prevStateRoot_eq with ⟨e₀, he₀, hroot⟩ | ⟨hempty, -⟩
    · rw [hroot, Option.some.inj (he₀.symm.trans hlast)]
    · rw [hempty] at hlt
      exact absurd hlt (Nat.not_lt_zero i)

theorem Chain.first_step (hchain : Chain initial deltas db) (hc : Committed db delta localViews now rs sigs entry db')
    {e : CommitEntry} (he : db'.entries[0]? = some e) :
    db.stateRootFor (materialize initial) = some e.prevStateRoot := by
  rw [hc.advanced.entries] at he
  rcases getElem?_concat he with hold | ⟨hzero, rfl⟩
  · exact hchain.first_prevStateRoot e hold
  · have hempty : db.entries = [] := List.eq_nil_of_length_eq_zero hzero.symm
    have hdeltas : deltas = [] := List.eq_nil_of_length_eq_zero (by rw [← hchain.count_eq, ← hzero])
    rcases hc.prevStateRoot_eq with ⟨e₀, he₀, -⟩ | ⟨-, hroot⟩
    · rw [hempty] at he₀
      cases he₀
    · rw [← hroot, hchain.state_eq, hdeltas]
      rfl

theorem Chain.rootHash_step (hchain : Chain initial deltas db)
    (hc : Committed db delta localViews now rs sigs entry db') {i : Nat} {e : CommitEntry}
    (he : db'.entries[i]? = some e) : e.sth.rootHash = merkleTreeHash (hasher P) (db'.ctLeaves.take (i + 1)) := by
  rw [hc.advanced.entries] at he
  rcases getElem?_concat he with hold | ⟨rfl, rfl⟩
  · have hlt : i < db.entries.length := (List.getElem?_eq_some_iff.mp hold).1
    have hreach : i + 1 ≤ db.ctLeaves.length := by
      rw [hc.inStep]
      exact hlt
    rw [hchain.rootHash_eq i e hold, hc.ctLeaves_eq, List.take_append_of_le_length hreach]
  · rw [hc.sth_eq, ← hc.length_ctLeaves, List.take_length]
    rfl

theorem Chain.step (hchain : Chain initial deltas db) (hc : Committed db delta localViews now rs sigs entry db') :
    Chain initial (deltas ++ [delta]) db' := by
  have hadv := hc.advanced
  constructor
  case length_eq => rw [hadv.entries, hc.length_ctLeaves, List.length_append, List.length_singleton]
  case count_eq =>
    rw [hadv.entries, List.length_append, List.length_append, hchain.count_eq]
    rfl
  case height_eq =>
    intro i e he
    rw [hadv.entries] at he
    rcases getElem?_concat he with hold | ⟨rfl, rfl⟩
    · exact hchain.height_eq i e hold
    · exact hadv.height
  case treeSize_eq =>
    intro i e he
    rw [hadv.entries] at he
    rcases getElem?_concat he with hold | ⟨rfl, rfl⟩
    · exact hchain.treeSize_eq i e hold
    · rw [hc.sth_eq]
      exact hc.length_ctLeaves
  case rootHash_eq =>
    intro i e he
    exact hchain.rootHash_step hc he
  case leaf_eq =>
    intro i e he
    rw [hadv.entries] at he
    rw [hc.ctLeaves_eq]
    rcases getElem?_concat he with hold | ⟨rfl, rfl⟩
    · exact getElem?_concat_of_some (hchain.leaf_eq i e hold)
    · rw [← hc.inStep, List.getElem?_concat_length]
  case linked =>
    intro i e e' he he'
    exact hchain.linked_step hc he he'
  case first_prevStateRoot =>
    intro e he
    rw [hc.sameFrame.stateRootFor]
    exact hchain.first_step hc he
  case last_stateRoot =>
    intro e he
    rw [hadv.entries, List.getLast?_concat] at he
    rw [hc.sameFrame.stateRootFor, ← Option.some.inj he]
    exact hc.stateRoot_eq
  case state_eq =>
    rw [hadv.state, hchain.state_eq, List.foldl_append]
    rfl
  case currentSth_eq =>
    rw [hadv.currentSth, hadv.entries, List.getLast?_concat]
    rfl

end Step

/-- **The commit chain.** After any run of successful commits on a freshly built database, the history, the log, the
head and the state are linked as `Chain` says. -/
theorem chain_of_commitRun {initial : State} {start db : NucleusDb P} {deltas : List Delta}
    (hfresh : FreshlyBuilt initial start) (hrun : CommitRun start deltas db) : Chain initial deltas db := by
  induction hrun with
  | nil => exact Chain.of_fresh hfresh
  | snoc run commit ih =>
    obtain ⟨rs, sigs, hc⟩ := commit_ok commit
    exact ih.step hc

/-- Two commits on a database opened by `new`. -/
theorem chain_of_commitRun_two : ∃ db, CommitRun singleWitnessDb [⟨[(0, 1)]⟩, ⟨[(1, 2)]⟩] db ∧
    Chain ⟨[]⟩ [⟨[(0, 1)]⟩, ⟨[(1, 2)]⟩] db := by
  obtain ⟨_, _, _, db, hcommit, hcommit'⟩ := singleWitnessDb_commit_commit
  have hrun : CommitRun singleWitnessDb ([⟨[(0, 1)]⟩] ++ [⟨[(1, 2)]⟩]) db := (CommitRun.nil.snoc hcommit).snoc hcommit'
  exact ⟨db, hrun, chain_of_commitRun singleWitnessDb_freshlyBuilt hrun⟩

end NucleusDb

end AgentHalo.Engine
