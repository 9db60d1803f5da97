import AgentHalo.Container.PidLock

/-!
# When the lock excludes

Between the verdict on a lock file and the removal of what is at its path another process can reclaim the file and create
its own, which is then removed; and a creator that is slow to write its id loses its file to age. If neither happens
(`Undisturbed`), the file of every process in the lock stays at the path (`Sound`), and there is one path.
-/

namespace AgentHalo.Container.PidLock

open Run

namespace State

variable {s : State} {p q : Pid} {phase : Phase} {file : FileId}

/-- The process has created the file and not dropped it. -/
def Owns (s : State) (p : Pid) (file : FileId) : Prop := (s.procs p).owned = some file

theorem setPhase_procs : (s.setPhase p phase).procs q = if q = p then phase else s.procs q := by
  simp [setPhase, Function.update_apply]

theorem owns_setPhase : (s.setPhase p phase).Owns q file ↔ if q = p then phase.owned = some file else s.Owns q file := by
  unfold Owns
  rw [setPhase_procs]
  split <;> rfl

end State

/-- What keeps the lock: the file of a process in the lock is at the path and is its own, an id that was read from a file
can only be that of its creator, and a file that was judged stale has no owner. -/
structure Sound (s : State) : Prop where
  path : ∀ file, s.path = some file → file < s.nextFile
  owned : ∀ p file, s.Owns p file → s.path = some file
  sole : ∀ p q file, s.Owns p file → s.Owns q file → p = q
  content : ∀ p file pid, s.Owns p file → (s.files file).pid = some pid → pid = p
  tested : ∀ q attempt pid file, s.procs q = .testing attempt pid file →
    file < s.nextFile ∧ ∀ p, s.Owns p file → p = pid
  judged : ∀ q attempt file, s.procs q = .removing attempt file → file < s.nextFile ∧ ∀ p, ¬ s.Owns p file

theorem Initial.sound {s : State} (h : Initial s) : Sound s := by
  have hphase (p : Pid) : (s.procs p).owned = none ∧ (∀ attempt pid file, s.procs p ≠ .testing attempt pid file) ∧
      ∀ attempt file, s.procs p ≠ .removing attempt file := by
    obtain hdead | hidle := h.procs p
    · simp [hdead, Phase.owned]
    · simp [hidle, Phase.owned]
  have howns (p : Pid) (file : FileId) : ¬ s.Owns p file := by simp [State.Owns, (hphase p).1]
  exact ⟨h.path, fun p file hp => absurd hp (howns p file), fun p _ file hp => absurd hp (howns p file),
    fun p file _ hp => absurd hp (howns p file), fun q _ _ _ hq => absurd hq ((hphase q).2.1 _ _ _),
    fun q _ _ hq => absurd hq ((hphase q).2.2 _ _)⟩

/-! ### One step -/

section Steps

variable {s : State} {p : Pid} {phase : Phase}

theorem Sound.setPhase (h : Sound s) (howned : phase.owned = none ∨ phase.owned = (s.procs p).owned)
    (htested : ∀ attempt pid file, phase = .testing attempt pid file →
      file < s.nextFile ∧ ∀ q, s.Owns q file → q = pid)
    (hjudged : ∀ attempt file, phase = .removing attempt file → file < s.nextFile ∧ ∀ q, ¬ s.Owns q file) :
    Sound (s.setPhase p phase) := by
  have howns {q : Pid} {file : FileId} (hq : (s.setPhase p phase).Owns q file) : s.Owns q file := by
    rw [State.owns_setPhase] at hq
    split at hq
    · rename_i hqp
      subst hqp
      obtain hnone | hsame := howned
      · rw [hnone] at hq
        cases hq
      · exact hsame.symm.trans hq
    · exact hq
  refine ⟨h.path, fun q file hq => h.owned q file (howns hq), fun q r file hq hr => h.sole q r file (howns hq) (howns hr),
    fun q file pid hq => h.content q file pid (howns hq), ?_, ?_⟩
  · intro q attempt pid file hq
    rw [State.setPhase_procs] at hq
    have hbefore : file < s.nextFile ∧ ∀ r, s.Owns r file → r = pid := by
      split at hq
      · exact htested attempt pid file hq
      · exact h.tested q attempt pid file hq
    exact ⟨hbefore.1, fun r hr => hbefore.2 r (howns hr)⟩
  · intro q attempt file hq
    rw [State.setPhase_procs] at hq
    have hbefore : file < s.nextFile ∧ ∀ r, ¬ s.Owns r file := by
      split at hq
      · exact hjudged attempt file hq
      · exact h.judged q attempt file hq
    exact ⟨hbefore.1, fun r hr => hbefore.2 r (howns hr)⟩

theorem Sound.leave (h : Sound s) (howned : phase.owned = none)
    (hquiet : (∀ attempt pid file, phase ≠ .testing attempt pid file) ∧ ∀ attempt file, phase ≠ .removing attempt file) :
    Sound (s.setPhase p phase) :=
  h.setPhase (.inl howned) (fun _ _ _ heq => absurd heq (hquiet.1 _ _ _)) fun _ _ heq => absurd heq (hquiet.2 _ _)

theorem Sound.clearPath (h : Sound s) (hfree : ∀ file, s.path = some file → ∀ q, ¬ s.Owns q file) :
    Sound (s.setPath none) where
  path _ hfile := nomatch hfile
  owned q file hq := absurd hq (hfree file (h.owned q file hq) q)
  sole := h.sole
  content := h.content
  tested := h.tested
  judged := h.judged

theorem Sound.create (h : Sound s) (hpath : s.path = none) :
    Sound { (s.setPhase p (.writing s.nextFile)).setFile s.nextFile ⟨none, s.now⟩ with
      path := some s.nextFile, nextFile := s.nextFile + 1 } := by
  have hnone (q : Pid) (file : FileId) : ¬ s.Owns q file := fun hq => by
    have howned := h.owned q file hq
    rw [hpath] at howned
    cases howned
  have howns {q : Pid} {file : FileId} (hq : (s.setPhase p (.writing s.nextFile)).Owns q file) :
      q = p ∧ file = s.nextFile := by
    rw [State.owns_setPhase] at hq
    split at hq
    · rename_i hqp
      exact ⟨hqp, (Option.some.inj hq).symm⟩
    · exact absurd hq (hnone q file)
  refine ⟨?_, ?_, ?_, ?_, ?_, ?_⟩
  · intro file hfile
    obtain rfl := Option.some.inj hfile
    exact Nat.lt_succ_self _
  · intro q file hq
    rw [(howns hq).2]
  · intro q r file hq hr
    rw [(howns hq).1, (howns hr).1]
  · intro q file pid hq hpid
    obtain ⟨-, rfl⟩ := howns hq
    simp [State.setFile] at hpid
  · intro q attempt pid file hq
    have hbefore : s.procs q = .testing attempt pid file := by
      have hprocs := (State.setPhase_procs (q := q)).symm.trans hq
      split at hprocs
      · cases hprocs
      · exact hprocs
    have hlt := (h.tested q attempt pid file hbefore).1
    exact ⟨Nat.lt_succ_of_lt hlt, fun r hr => absurd (howns hr).2 hlt.ne⟩
  · intro q attempt file hq
    have hbefore : s.procs q = .removing attempt file := by
      have hprocs := (State.setPhase_procs (q := q)).symm.trans hq
      split at hprocs
      · cases hprocs
      · exact hprocs
    have hlt := (h.judged q attempt file hbefore).1
    exact ⟨Nat.lt_succ_of_lt hlt, fun r hr => absurd (howns hr).2 hlt.ne⟩

theorem Sound.setFile (h : Sound s) {file : FileId} (hp : s.Owns p file) (modified : Nat) :
    Sound (s.setFile file ⟨some p, modified⟩) where
  path := h.path
  owned := h.owned
  sole := h.sole
  content q other pid hq hpid := by
    unfold State.setFile at hpid
    dsimp only at hpid
    rw [Function.update_apply] at hpid
    split at hpid
    · rename_i heq
      subst heq
      obtain rfl := Option.some.inj hpid
      exact h.sole _ _ _ hp hq
    · exact h.content q other pid hq hpid
  tested := h.tested
  judged := h.judged

end Steps

/-- What a step may not do to the others: remove another file than the one that was judged, or judge a file by its age
that a live process has created and not dropped. -/
def Undisturbed (s : State) : Action → Prop
  | .remove p ok => ok = true → ∀ attempt file, s.procs p = .removing attempt file → s.path = none ∨ s.path = some file
  | .age p => ∀ attempt file, s.procs p = .aging attempt → s.path = some file →
      tooOld s.now attempt.retry (s.files file).modified = true → ∀ q, ¬ s.Owns q file
  | _ => True

theorem step_sound (s : State) (action : Action) (h : Sound s) (hrun : Undisturbed s action) : Sound (step s action) := by
  cases action with
  | acquire p timeout retry =>
    simp only [step]
    split
    · exact h.leave rfl ⟨nofun, nofun⟩
    · exact h
  | create p ok =>
    simp only [step]
    split
    · split
      · exact h.leave rfl ⟨nofun, nofun⟩
      · exact h.leave rfl ⟨nofun, nofun⟩
      · rename_i hpath
        exact h.create hpath
    · exact h
  | write p ok =>
    simp only [step]
    split
    · rename_i file hphase
      have hp : s.Owns p file := by simp [State.Owns, hphase, Phase.owned]
      split
      · refine (h.setFile hp s.now).setPhase (.inr ?_) nofun nofun
        exact hp.symm
      · exact h.setPhase (.inr hp.symm) nofun nofun
    · exact h
  | read p ok =>
    simp only [step]
    split
    · split
      · rename_i pid file hread
        obtain ⟨file', hpath, hcontent⟩ := Option.bind_eq_some_iff.mp hread
        obtain ⟨pid', hpid, heq⟩ := Option.map_eq_some_iff.mp hcontent
        obtain ⟨rfl, rfl⟩ := Prod.mk.inj heq
        have hfile : s.path = some file' := by
          split at hpath
          · exact hpath
          · cases hpath
        refine h.setPhase (.inl rfl) ?_ nofun
        rintro _ _ _ heq'
        cases heq'
        exact ⟨h.path _ hfile, fun q hq => (h.content q _ _ hq hpid).symm⟩
      · exact h.leave rfl ⟨nofun, nofun⟩
    · exact h
  | test p =>
    simp only [step]
    split
    · rename_i attempt pid file hphase
      obtain ⟨hlt, howner⟩ := h.tested p attempt pid file hphase
      split
      · rename_i hdead
        refine h.setPhase (.inl rfl) nofun ?_
        rintro _ _ heq
        cases heq
        refine ⟨hlt, fun q hq => ?_⟩
        -- the owner would be the process that is gone
        obtain rfl := howner q hq
        simp [State.Owns, hdead, Phase.owned] at hq
      · exact h.leave rfl ⟨nofun, nofun⟩
    · exact h
  | age p =>
    simp only [step]
    split
    · rename_i attempt hphase
      split
      · rename_i file hold
        obtain ⟨hpath, hold⟩ := Option.filter_eq_some_iff.mp hold
        refine h.setPhase (.inl rfl) nofun ?_
        rintro _ _ heq
        cases heq
        exact ⟨h.path file hpath, hrun attempt file hphase hpath hold⟩
      · exact h.leave rfl ⟨nofun, nofun⟩
    · exact h
  | remove p ok =>
    simp only [step]
    split
    · rename_i attempt file hphase
      have hfree := (h.judged p attempt file hphase).2
      cases ok with
      | false => exact h.leave rfl ⟨nofun, nofun⟩
      | true =>
        refine (h.clearPath fun other hother q => ?_).leave rfl ⟨nofun, nofun⟩
        obtain hnone | hsame := hrun rfl attempt file hphase
        · rw [hnone] at hother
          cases hother
        · obtain rfl := Option.some.inj (hsame.symm.trans hother)
          exact hfree q
    · exact h
  | wait p =>
    simp only [step]
    split
    · split
      · exact h.leave rfl ⟨nofun, nofun⟩
      · exact h.leave rfl ⟨nofun, nofun⟩
    · exact h
  | drop p ok =>
    simp only [step]
    split
    · rename_i file hphase
      have hp : s.Owns p file := by simp [State.Owns, hphase, Phase.owned]
      have hleft : Sound (s.setPhase p .idle) := h.leave rfl ⟨nofun, nofun⟩
      cases ok with
      | false => exact hleft
      | true =>
        refine hleft.clearPath fun other hother q hq => ?_
        obtain rfl := Option.some.inj ((h.owned p file hp).symm.trans hother)
        rw [State.owns_setPhase] at hq
        split at hq
        · cases hq
        · rename_i hne
          exact hne (h.sole q p file hq hp)
    · exact h
  | die p => exact h.leave rfl ⟨nofun, nofun⟩
  | spawn p =>
    simp only [step]
    split
    · exact h.leave rfl ⟨nofun, nofun⟩
    · exact h
  | tick elapsed now => exact ⟨h.path, h.owned, h.sole, h.content, h.tested, h.judged⟩

theorem Sound.exclusive {s : State} (h : Sound s) {p q : Pid} (hp : Holds s p) (hq : Holds s q) : p = q := by
  obtain ⟨file, hp⟩ := hp
  obtain ⟨file', hq⟩ := hq
  have howns : s.Owns p file := by simp [State.Owns, hp, Phase.owned]
  have howns' : s.Owns q file' := by simp [State.Owns, hq, Phase.owned]
  obtain rfl := Option.some.inj ((h.owned p file howns).symm.trans (h.owned q file' howns'))
  exact h.sole p q file howns howns'

/-- In a run without such a disturbance no two live processes hold the lock at any time. -/
theorem exec_exclusive {s : State} (hs : Initial s) {actions : List Action} (hrun : Along step Undisturbed s actions)
    (p q : Pid) (hp : Holds (exec step s actions) p) (hq : Holds (exec step s actions) q) : p = q :=
  (exec_invariant_along step_sound hs.sound hrun).exclusive hp hq

/-! ### Two reclaims of one file -/

/-- Processes 1, 2 and 3 are there; process 9 left a file behind. -/
def afterCrash : State where
  path := some 0
  files _ := ⟨some 9, 0⟩
  nextFile := 1
  now := 0
  instant := 0
  procs p := if p < 4 then .idle else .dead

theorem afterCrash_initial : Initial afterCrash where
  procs p := by
    by_cases h : p < 4 <;> simp [afterCrash, h]
  path file h := by
    obtain rfl := Option.some.inj h
    exact Nat.one_pos

/-- One process takes the lock that another left behind. -/
def reclaim (p : Pid) : List Action := [.acquire p 10 1, .create p true, .read p true, .test p]

def enter (p : Pid) : List Action := [.remove p true, .create p true, .write p true]

/-- The file is reclaimed by one process, a second one waits, and gets the lock when the first leaves. -/
def succeed : List Action := reclaim 1 ++ enter 1 ++ reclaim 2 ++ [.drop 1 true, .wait 2, .create 2 true, .write 2 true]

theorem reclaim_exclusive :
    Holds (exec step afterCrash (reclaim 1 ++ enter 1 ++ reclaim 2)) 1 ∧ Holds (exec step afterCrash succeed) 2 ∧
      ∀ p, Holds (exec step afterCrash succeed) p → p = 2 := by
  have hrun : Along step Undisturbed afterCrash succeed := by
    refine ⟨trivial, trivial, trivial, trivial, ?_, trivial, trivial, trivial, trivial, trivial, trivial, trivial, trivial,
      trivial, trivial, trivial⟩
    rintro - attempt file hphase
    cases hphase
    exact .inr rfl
  have hheld : Holds (exec step afterCrash succeed) 2 := ⟨2, rfl⟩
  exact ⟨⟨1, rfl⟩, hheld, fun p hp => exec_exclusive afterCrash_initial hrun p 2 hp hheld⟩

/-- Two processes judge the file that was left behind; the second then removes that of the first. -/
theorem both_hold : ∃ actions, Initial afterCrash ∧ Holds (exec step afterCrash actions) 1 ∧
    Holds (exec step afterCrash actions) 2 :=
  ⟨reclaim 1 ++ reclaim 2 ++ enter 1 ++ enter 2, afterCrash_initial, ⟨1, rfl⟩, ⟨2, rfl⟩⟩

end AgentHalo.Container.PidLock
