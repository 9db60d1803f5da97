import AgentHalo.Orchestrator.Sections

/-!
# What a run does to the tasks of other runs

A run acts on its own task and on the tasks it creates. Of any other task it can only take the entry away, by pruning
(`Spares`). So while the runs of follow-ups are on the stack of a call, what holds at the phase of the run below them
stays (`Rooted.next`): it is enough to look at the sections that this run takes itself.
-/

namespace AgentHalo.Orchestrator

/-- What is left of a task by those who do not run it: its entry is as it was or gone, no agent becomes busy with it, and
no handle is registered for it. -/
structure Spares (id : String) (s s' : OrchestratorInner) : Prop where
  task : s'.tasks.get? id = s.tasks.get? id ∨ s'.tasks.get? id = none
  pool : ∀ agentId, s'.pool.agents.BusyWith agentId id → s.pool.agents.BusyWith agentId id
  containers : ∀ agentId, s'.containerAgents.BusyWith agentId id → s.containerAgents.BusyWith agentId id
  handle : s.backgroundRuns[id]? = none → s'.backgroundRuns[id]? = none

namespace Spares

variable {id : String} {s s' s'' : OrchestratorInner}

theorem refl (id : String) (s : OrchestratorInner) : Spares id s s := ⟨.inl rfl, fun _ h => h, fun _ h => h, fun h => h⟩

theorem putTask {task : Task} (hne : task.taskId ≠ id) : Spares id s (s.putTask task) where
  task := .inl (by simp [OrchestratorInner.putTask, hne])
  pool _ h := h
  containers _ h := h
  handle h := h

theorem upsertNode (task : Task) : Spares id s (s.upsertNode task) := ⟨.inl rfl, fun _ h => h, fun _ h => h, fun h => h⟩

theorem graph (graph : TaskGraph) : Spares id s { s with graph } := ⟨.inl rfl, fun _ h => h, fun _ h => h, fun h => h⟩

theorem ofPool {pool : AgentPool} (h : ∀ agentId, pool.agents.BusyWith agentId id → s.pool.agents.BusyWith agentId id) :
    Spares id s { s with pool } := ⟨.inl rfl, h, fun _ h => h, fun h => h⟩

theorem ofContainers {containerAgents : AgentTable}
    (h : ∀ agentId, containerAgents.BusyWith agentId id → s.containerAgents.BusyWith agentId id) :
    Spares id s { s with containerAgents } := ⟨.inl rfl, fun _ h => h, h, fun h => h⟩

theorem prune (now : Nat) : Spares id s { s with tasks := s.tasks.prune now } where
  task := by
    cases h : (TaskTable.prune now s.tasks).get? id with
    | none => exact .inr rfl
    | some task => exact .inl (TaskTable.get?_of_get?_prune h).symm
  pool _ h := h
  containers _ h := h
  handle h := h

theorem clear (taskId : String) : Spares id s { s with backgroundRuns := s.backgroundRuns.erase taskId } where
  task := .inl rfl
  pool _ h := h
  containers _ h := h
  handle h := by
    dsimp only
    rw [OrdMap.get?_erase]
    split
    · rfl
    · exact h

end Spares

/-! ### The task of a phase -/

@[simp] theorem settleOutcome_taskId (o : Outside) (task : Task) (execution : TaskExecution)
    (outcome : Except String TaskRunOutcome) : (settleOutcome o task execution outcome).1.taskId = task.taskId := by
  unfold settleOutcome
  split
  · dsimp only
    split <;> rfl
  · split <;> rfl

@[simp] theorem settleResponse_taskId (o : Outside) (task : Task) (timeoutSecs : Nat)
    (response : Option (Except String AgentResponse)) :
    (settleResponse o task timeoutSecs response).1.taskId = task.taskId := by
  unfold settleResponse
  split <;> rfl

namespace RunPhase

def taskId : RunPhase → String
  | getTask id | clear id _ | prune id _ => id
  | markTask task | markNode task _ | route task | startTask task | findSession task _ _ | storeOutcome task _ _
  | upsertOutcome task _ _ | completeTask task _ _ | containerSession task | countBusy task _ | admission task _ _
  | storeResponse task _ _ | upsertResponse task _ | releaseAgent task _ | collect task | followups task _
  | upsertFollowup task _ _ _ | setGenerated task _ _ _ => task.taskId

/-- The follow-up that the run has created and not started. -/
def created : RunPhase → Option String
  | upsertFollowup _ _ task _ | setGenerated _ _ task _ => some task.taskId
  | _ => none

/-- A run of another task, which has not created this one either. -/
structure Avoids (id : String) (phase : RunPhase) : Prop where
  taskId : phase.taskId ≠ id
  created : phase.created ≠ some id

end RunPhase

/-- The move leads the run to a phase of the kind, past the run of another task if it starts one, or out of the run. -/
def Move.Lands (id : String) (I : RunPhase → Prop) (E : Prop) : Move → Prop
  | .goto phase => I phase
  | .run taskId phase => taskId ≠ id ∧ I phase
  | .ret _ => E

section Other

variable {J : JsonValues} {timeoutOverride : Option Nat} {o : Outside} {s : OrchestratorInner} {id : String} {phase : RunPhase}

theorem RunPhase.Avoids.next_spares (h : phase.Avoids id) (hnew : o.newTaskId ≠ id) :
    Spares id s (phase.next J timeoutOverride o s).2 := by
  have hid := h.taskId
  cases phase with
  | getTask taskId =>
    unfold RunPhase.next
    dsimp only
    split <;> exact .refl _ _
  | markTask task => exact .putTask hid
  | markNode task updated => exact .upsertNode _
  | route task => exact .refl _ _
  | startTask task =>
    unfold RunPhase.next
    dsimp only
    by_cases hstarts : ∃ agent, s.pool.Starts task.agentId task.taskId (o.effectivePrompt task) o.createAnswerFile
      o.createSession agent
    · obtain ⟨agent, hagent⟩ := hstarts
      obtain ⟨execution, -, -, heq⟩ := hagent.startTask_eq (timeoutOverride.map (clamp 1 maxTaskTimeoutSecs))
      rw [heq]
      refine .ofPool fun agentId hbusy => ?_
      obtain ⟨-, heq⟩ | hbefore := hagent.busyWith hbusy
      · exact absurd heq.symm hid
      · exact hbefore
    · obtain ⟨e, heq⟩ := AgentPool.startTask_of_not_starts (timeoutOverride.map (clamp 1 maxTaskTimeoutSecs)) hstarts
      rw [heq]
      exact .refl _ _
  | findSession task execution prompt =>
    unfold RunPhase.next
    dsimp only
    split <;> exact .refl _ _
  | storeOutcome task execution prompt => exact .putTask ((settleOutcome_taskId _ _ _ _).trans_ne hid)
  | upsertOutcome updated agentId result => exact .upsertNode _
  | completeTask updated agentId result => exact .ofPool fun _ hbusy => (AgentPool.busyWith_completeTask hbusy).2
  | containerSession task =>
    unfold RunPhase.next
    dsimp only
    split <;> exact .refl _ _
  | countBusy task session => exact .refl _ _
  | admission task session ptyBusyCount =>
    unfold RunPhase.next
    dsimp only
    by_cases hadmits : ∃ agent, s.containerAgents.Admits s.pool.budget ptyBusyCount task.agentId agent
    · obtain ⟨agent, hagent⟩ := hadmits
      obtain ⟨timeoutSecs, heq⟩ := hagent.admitTask_eq task.taskId timeoutOverride
      rw [heq]
      refine .ofContainers fun agentId hbusy => ?_
      obtain ⟨-, heq⟩ | hbefore := hagent.busyWith hbusy
      · exact absurd heq.symm hid
      · exact hbefore
    · obtain ⟨e, heq⟩ := AgentTable.admitTask_of_not_admits task.taskId timeoutOverride hadmits
      rw [heq]
      exact .refl _ _
  | storeResponse task session timeoutSecs => exact .putTask ((settleResponse_taskId _ _ _ _).trans_ne hid)
  | upsertResponse updated result => exact .upsertNode _
  | releaseAgent updated result =>
    cases result with
    | ok => exact .ofContainers fun _ hbusy => (AgentTable.busyWith_release hbusy).2
    | error e => exact .ofContainers fun _ hbusy => (AgentTable.busyWith_release hbusy).2
  | collect updated => exact .refl _ _
  | followups source remaining =>
    cases remaining with
    | nil => exact .refl _ _
    | cons head rest => exact .putTask hnew
  | upsertFollowup source edge task remaining => exact .upsertNode _
  | setGenerated source edge task remaining => exact .graph _
  | clear taskId result => exact .clear _
  | prune taskId result => exact .prune _

variable (J timeoutOverride s) in
theorem RunPhase.next_lands (h : phase.created ≠ some id) (hnew : o.newTaskId ≠ id) :
    (phase.next J timeoutOverride o s).1.Lands id
      (fun q => q.taskId = phase.taskId ∧ q.created ≠ some id) True := by
  have hnone (q : RunPhase) (hq : q.created = none) : q.created ≠ some id := by simp [hq]
  cases phase with
  | getTask taskId =>
    unfold RunPhase.next
    dsimp only
    split
    · trivial
    · rename_i task htask
      have hkey : task.taskId = taskId := KeyedMap.key_of_get? htask
      unfold Move.Lands
      dsimp only
      split
      · exact ⟨hkey, hnone _ rfl⟩
      · exact ⟨hkey, hnone _ rfl⟩
  | markTask task => exact ⟨rfl, hnone _ rfl⟩
  | markNode task updated => exact ⟨rfl, hnone _ rfl⟩
  | route task =>
    unfold RunPhase.next Move.Lands
    dsimp only
    split
    · exact ⟨rfl, hnone _ rfl⟩
    · exact ⟨rfl, hnone _ rfl⟩
  | startTask task =>
    unfold RunPhase.next
    dsimp only
    split
    · trivial
    · exact ⟨rfl, hnone _ rfl⟩
  | findSession task execution prompt =>
    unfold RunPhase.next
    dsimp only
    split
    · exact ⟨rfl, hnone _ rfl⟩
    · trivial
  | storeOutcome task execution prompt => exact ⟨settleOutcome_taskId _ _ _ _, hnone _ rfl⟩
  | upsertOutcome updated agentId result => exact ⟨rfl, hnone _ rfl⟩
  | completeTask updated agentId result =>
    cases result with
    | ok => exact ⟨rfl, hnone _ rfl⟩
    | error e => exact ⟨rfl, hnone _ rfl⟩
  | containerSession task =>
    unfold RunPhase.next
    dsimp only
    split
    · exact ⟨rfl, hnone _ rfl⟩
    · exact ⟨rfl, hnone _ rfl⟩
  | countBusy task session => exact ⟨rfl, hnone _ rfl⟩
  | admission task session ptyBusyCount =>
    unfold RunPhase.next
    dsimp only
    split
    · exact ⟨rfl, hnone _ rfl⟩
    · exact ⟨rfl, hnone _ rfl⟩
  | storeResponse task session timeoutSecs => exact ⟨settleResponse_taskId _ _ _ _, hnone _ rfl⟩
  | upsertResponse updated result => exact ⟨rfl, hnone _ rfl⟩
  | releaseAgent updated result =>
    cases result with
    | ok => exact ⟨rfl, hnone _ rfl⟩
    | error e => exact ⟨rfl, hnone _ rfl⟩
  | collect updated => exact ⟨rfl, hnone _ rfl⟩
  | followups source remaining =>
    cases remaining with
    | nil => exact ⟨rfl, hnone _ rfl⟩
    | cons head rest => exact ⟨rfl, fun heq => hnew (Option.some.inj heq)⟩
  | upsertFollowup source edge task remaining => exact ⟨rfl, h⟩
  | setGenerated source edge task remaining =>
    exact ⟨fun heq => h (congrArg some heq), rfl, hnone _ rfl⟩
  | clear taskId result => exact ⟨rfl, hnone _ rfl⟩
  | prune taskId result => trivial

end Other

/-! ### The stack of a call -/

/-- Other tasks run above the outermost run, which waits among its follow-ups. -/
def Under (id : String) (I : RunPhase → Prop) : List RunFrame → Prop
  | [] => False
  | [bottom] => (∃ source remaining, bottom.phase = .followups source remaining) ∧ I bottom.phase
  | frame :: below => frame.phase.Avoids id ∧ Under id I below

/-- `I` holds at the phase of the outermost run, above which only other tasks run; `E` holds if the call has returned. -/
def Rooted (id : String) (I : RunPhase → Prop) (E : Prop) : List RunFrame → Prop
  | [] => E
  | [bottom] => I bottom.phase
  | frame :: below => frame.phase.Avoids id ∧ Under id I below

theorem Under.imp {id : String} {I I' : RunPhase → Prop} {frames : List RunFrame} (h : Under id I frames)
    (hI : ∀ source remaining, I (.followups source remaining) → I' (.followups source remaining)) :
    Under id I' frames := by
  induction frames with
  | nil => exact h
  | cons frame below ih =>
    cases below with
    | nil =>
      obtain ⟨⟨source, remaining, hphase⟩, hbottom⟩ := h
      refine ⟨⟨source, remaining, hphase⟩, ?_⟩
      rw [hphase] at hbottom ⊢
      exact hI _ _ hbottom
    | cons next rest => exact ⟨h.1, ih h.2⟩

theorem Under.rooted {id : String} {I : RunPhase → Prop} {E : Prop} {frames : List RunFrame} (h : Under id I frames) :
    Rooted id I E frames :=
  match frames with
  | [] => nomatch h
  | [_] => h.2
  | _ :: _ :: _ => h

theorem RunPhase.followups_of_run {J : JsonValues} {timeoutOverride : Option Nat} {o : Outside} {s : OrchestratorInner}
    {phase q : RunPhase} {i : String} (h : (phase.next J timeoutOverride o s).1 = .run i q) :
    ∃ source remaining, q = .followups source remaining := by
  cases phase with
  | setGenerated source edge task remaining =>
    cases h
    exact ⟨source, remaining, rfl⟩
  | followups source remaining =>
    cases remaining with
    | nil => cases h
    | cons head rest => cases h
  | releaseAgent updated result =>
    cases result with
    | ok => cases h
    | error e => cases h
  | getTask | startTask | findSession | containerSession | admission =>
    unfold RunPhase.next at h
    dsimp only at h
    split at h
    · cases h
    · cases h
  | _ => cases h

theorem Rooted.alone {J : JsonValues} {o : Outside} {timeoutOverride : Option Nat} {phase : RunPhase}
    {result : Option (Except String Unit)} {s : OrchestratorInner} {id : String} {I : RunPhase → Prop} {E : Prop}
    (h : (phase.next J timeoutOverride o s).1.Lands id I E) :
    Rooted id I E (RunCall.next J o ⟨[⟨timeoutOverride, phase⟩], result⟩ s).1.frames := by
  unfold RunCall.next
  dsimp only
  cases hmove : (phase.next J timeoutOverride o s).1 with
  | goto q =>
    rw [hmove] at h
    exact h
  | run i q =>
    rw [hmove] at h
    exact ⟨⟨h.1, by simp [RunPhase.created]⟩, RunPhase.followups_of_run hmove, h.2⟩
  | ret r =>
    rw [hmove] at h
    exact h

/-- A section of a call: the outermost run goes where its own section lands, and keeps what it has during the sections of
the others. -/
theorem Rooted.next {J : JsonValues} {o : Outside} {call : RunCall} {s : OrchestratorInner} {id : String}
    {I K : RunPhase → OrchestratorInner → Prop} {E F : OrchestratorInner → Prop}
    (h : Rooted id (I · s) (E s) call.frames) (hnew : o.newTaskId ≠ id)
    (other : ∀ source remaining s', Spares id s s' → I (.followups source remaining) s →
      K (.followups source remaining) s')
    (returned : E s → F s)
    (own : ∀ timeoutOverride phase, call.frames = [⟨timeoutOverride, phase⟩] → I phase s →
      (phase.next J timeoutOverride o s).1.Lands id (K · (phase.next J timeoutOverride o s).2)
        (F (phase.next J timeoutOverride o s).2)) :
    Rooted id (K · (call.next J o s).2) (F (call.next J o s).2) (call.next J o s).1.frames := by
  obtain ⟨frames, result⟩ := call
  match frames with
  | [] => exact returned h
  | [⟨timeoutOverride, phase⟩] => exact .alone (own timeoutOverride phase rfl h)
  | ⟨timeoutOverride, phase⟩ :: next :: rest =>
    obtain ⟨havoids, hbelow⟩ := h
    have hspares : Spares id s (phase.next J timeoutOverride o s).2 := havoids.next_spares hnew
    have hland := RunPhase.next_lands J timeoutOverride s havoids.created hnew
    have hbelow' : Under id (K · (phase.next J timeoutOverride o s).2) (next :: rest) :=
      hbelow.imp fun source remaining => other source remaining _ hspares
    unfold RunCall.next
    dsimp only
    cases hmove : (phase.next J timeoutOverride o s).1 with
    | goto q =>
      rw [hmove] at hland
      exact ⟨⟨hland.1.trans_ne havoids.taskId, hland.2⟩, hbelow'⟩
    | run i q =>
      rw [hmove] at hland
      exact ⟨⟨hland.1, by simp [RunPhase.created]⟩, ⟨hland.2.1.trans_ne havoids.taskId, hland.2.2⟩, hbelow'⟩
    | ret r => exact hbelow'.rooted

end AgentHalo.Orchestrator
