import AgentHalo.Lib.Run

/-!
# The lock file of a process

A process takes the lock at a path by creating a file there that did not exist, and writes its process id into it. When
the file exists and its process is gone, or there is no id in it and it is old, the process removes it and tries again.
Every file operation is one step, in any order of the processes (`step`). A file keeps its identity when its name is
removed, and a phase between a verdict and the removal remembers the file that was judged.
-/

namespace AgentHalo.Container.PidLock

abbrev Pid := Nat

/-- The identity of a file, as an inode number that is not used twice. -/
abbrev FileId := Nat

/-- What `stale_lock_path` can see of a file: the id that is parsed from it and when it was modified. -/
structure LockFile where
  pid : Option Pid
  modified : Nat

/-- The deadline and the retry interval of one call of `acquire_pid_lock`. -/
structure Attempt where
  deadline : Nat
  retry : Nat
deriving DecidableEq, Repr

/-- Where a process is: in one of the file operations of `acquire_pid_lock`, behind it, or outside. -/
inductive Phase where
  | dead
  | idle
  /-- About to create the file. -/
  | opening (attempt : Attempt)
  /-- The file was created and has no id yet. -/
  | writing (file : FileId)
  /-- The guard is held. -/
  | holding (file : FileId)
  /-- The file existed; about to read it. -/
  | reading (attempt : Attempt)
  /-- About to test whether the process is alive whose id was read from the file. -/
  | testing (attempt : Attempt) (pid : Pid) (file : FileId)
  /-- No id was read; about to look at the age of the file. -/
  | aging (attempt : Attempt)
  /-- The file was judged stale; about to remove what is at the path. -/
  | removing (attempt : Attempt) (file : FileId)
  /-- The file was not stale; about to look at the deadline and sleep. -/
  | waiting (attempt : Attempt)
deriving DecidableEq, Repr

/-- The file that a process has created and not dropped. -/
def Phase.owned : Phase → Option FileId
  | .writing file => some file
  | .holding file => some file
  | _ => none

/-- The file at the lock path, all files that were ever there, the wall clock and the monotonic clock, the processes. -/
structure State where
  path : Option FileId
  files : FileId → LockFile
  nextFile : FileId
  now : Nat
  instant : Nat
  procs : Pid → Phase

namespace State

def setPhase (s : State) (p : Pid) (phase : Phase) : State := { s with procs := Function.update s.procs p phase }

def setPath (s : State) (path : Option FileId) : State := { s with path }

def setFile (s : State) (file : FileId) (content : LockFile) : State :=
  { s with files := Function.update s.files file content }

end State

/-- What happens next: a step of one process, with the answer of the file system, or something outside. -/
inductive Action where
  | acquire (p : Pid) (timeout retry : Nat)
  /-- Fails for another reason than that the file exists, unless `ok`. -/
  | create (p : Pid) (ok : Bool)
  /-- Both the write and its failure are passed over. -/
  | write (p : Pid) (ok : Bool)
  | read (p : Pid) (ok : Bool)
  | test (p : Pid)
  | age (p : Pid)
  | remove (p : Pid) (ok : Bool)
  | wait (p : Pid)
  | drop (p : Pid) (ok : Bool)
  | die (p : Pid)
  /-- A new process, perhaps under the id of one that died. -/
  | spawn (p : Pid)
  /-- The monotonic clock advances and the wall clock is set. -/
  | tick (elapsed now : Nat)
deriving DecidableEq, Repr

/-- `elapsed > retry.saturating_mul(4)`, and no verdict when the file is from the future. -/
def tooOld (now retry modified : Nat) : Bool := decide (modified ≤ now ∧ 4 * retry < now - modified)

/-- One step; an action of a process that is somewhere else does nothing. -/
def step (s : State) : Action → State
  | .acquire p timeout retry =>
    match s.procs p with
    | .idle => s.setPhase p (.opening ⟨s.instant + timeout, retry⟩)
    | _ => s
  | .create p ok =>
    match s.procs p with
    | .opening attempt =>
      match ok, s.path with
      | false, _ => s.setPhase p .idle
      | true, some _ => s.setPhase p (.reading attempt)
      | true, none =>
        { (s.setPhase p (.writing s.nextFile)).setFile s.nextFile ⟨none, s.now⟩ with
          path := some s.nextFile, nextFile := s.nextFile + 1 }
    | _ => s
  | .write p ok =>
    match s.procs p with
    | .writing file =>
      if ok then (s.setFile file ⟨some p, s.now⟩).setPhase p (.holding file) else s.setPhase p (.holding file)
    | _ => s
  | .read p ok =>
    match s.procs p with
    | .reading attempt =>
      match (if ok then s.path else none).bind fun file => (s.files file).pid.map (·, file) with
      | some (pid, file) => s.setPhase p (.testing attempt pid file)
      | none => s.setPhase p (.aging attempt)
    | _ => s
  | .test p =>
    match s.procs p with
    | .testing attempt pid file =>
      if s.procs pid = .dead then s.setPhase p (.removing attempt file) else s.setPhase p (.waiting attempt)
    | _ => s
  | .age p =>
    match s.procs p with
    | .aging attempt =>
      match s.path.filter fun file => tooOld s.now attempt.retry (s.files file).modified with
      | some file => s.setPhase p (.removing attempt file)
      | none => s.setPhase p (.waiting attempt)
    | _ => s
  | .remove p ok =>
    match s.procs p with
    | .removing attempt _ => (if ok then s.setPath none else s).setPhase p (.opening attempt)
    | _ => s
  | .wait p =>
    match s.procs p with
    | .waiting attempt =>
      if attempt.deadline ≤ s.instant then s.setPhase p .idle else s.setPhase p (.opening attempt)
    | _ => s
  | .drop p ok =>
    match s.procs p with
    | .holding _ => (if ok then s.setPath none else s).setPhase p .idle
    | _ => s
  | .die p => s.setPhase p .dead
  | .spawn p =>
    match s.procs p with
    | .dead => s.setPhase p .idle
    | _ => s
  | .tick elapsed now => { s with instant := s.instant + elapsed, now }

/-- Nobody is in the lock; what an earlier process left at the path is arbitrary. -/
structure Initial (s : State) : Prop where
  procs : ∀ p, s.procs p = .dead ∨ s.procs p = .idle
  path : ∀ file, s.path = some file → file < s.nextFile

def Holds (s : State) (p : Pid) : Prop := ∃ file, s.procs p = .holding file

end AgentHalo.Container.PidLock
