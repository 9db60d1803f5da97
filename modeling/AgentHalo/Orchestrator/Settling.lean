import AgentHalo.Orchestrator.Stack

/-!
# What a run leaves of its task

A run whose dispatch is accepted ends with its task finished, its handle gone and its agent free (`Settled`). Dispatch is
the start on an agent: the sections that can turn the task away once its status says running. The exits there leave the
status as it is.
-/

namespace AgentHalo.Orchestrator

open Run

/-- The task in the table, if it is there, has ended. -/
def Ended (s : OrchestratorInner) (id : String) : Prop := ∀ task, s.tasks.get? id = some task → task.Finished

def Running (s : OrchestratorInner) (id : String) : Prop :=
  ∃ task, s.tasks.get? id = some task ∧ task.status = .running

/-- Since the state `s₀` no agent has become busy with the task but the given ones. -/
structure Marked (s₀ s : OrchestratorInner) (id : String) (terminal container : Option String) : Prop where
  pool : ∀ agentId, s.pool.agents.BusyWith agentId id → s₀.pool.agents.BusyWith agentId id ∨ terminal = some agentId
  containers : ∀ agentId, s.containerAgents.BusyWith agentId id →
    s₀.containerAgents.BusyWith agentId id ∨ container = some agentId

/-- What a run should leave when it returns: the task has ended, its handle is not registered, and no agent is busy with
it that was not before. -/
structure Settled (s₀ s : OrchestratorInner) (id : String) : Prop where
  ended : Ended s id
  cleared : s.backgroundRuns[id]? = none
  pool : ∀ agentId, s.pool.agents.BusyWith agentId id → s₀.pool.agents.BusyWith agentId id
  containers : ∀ agentId, s.containerAgents.BusyWith agentId id → s₀.containerAgents.BusyWith agentId id

namespace RunPhase

/-- The section does not turn the task away: a terminal agent takes it and its session is there; a container agent has a
session and takes it. -/
def Accepts (o : Outside) (s : OrchestratorInner) : RunPhase → Prop
  | startTask task => ∃ agent, s.pool.Starts task.agentId task.taskId (o.effectivePrompt task) o.createAnswerFile
      o.createSession agent
  | findSession _ execution _ => o.sessionOpen execution.sessionId = true
  | containerSession task => ∃ session, s.containerSessions[task.agentId]? = some session
  | admission task _ ptyBusyCount => ∃ agent, s.containerAgents.Admits s.pool.budget ptyBusyCount task.agentId agent
  | _ => True

/-- What holds of the task at a phase of its run as long as no section has turned it away. -/
def Holds (s₀ s : OrchestratorInner) (id : String) : RunPhase → Prop
  | getTask _ | markTask _ => (∃ task, s.tasks.get? id = some task) ∧ Marked s₀ s id none none
  | markNode _ _ | route _ | startTask _ | containerSession _ | countBusy _ _ | admission _ _ _ =>
    Running s id ∧ Marked s₀ s id none none
  | findSession _ execution _ | storeOutcome _ execution _ =>
    Running s id ∧ Marked s₀ s id (some execution.agentId) none
  | upsertOutcome _ agentId _ | completeTask _ agentId _ => Ended s id ∧ Marked s₀ s id (some agentId) none
  | storeResponse task _ _ => Running s id ∧ Marked s₀ s id none (some task.agentId)
  | upsertResponse updated _ | releaseAgent updated _ => Ended s id ∧ Marked s₀ s id none (some updated.agentId)
  | collect _ | followups _ _ | upsertFollowup _ _ _ _ | setGenerated _ _ _ _ | clear _ _ =>
    Ended s id ∧ Marked s₀ s id none none
  | prune _ _ => Ended s id ∧ Marked s₀ s id none none ∧ s.backgroundRuns[id]? = none

/-- The phase is one of the run of the task, and what should hold there does. -/
structure Sound (s₀ : OrchestratorInner) (id : String) (phase : RunPhase) (s : OrchestratorInner) : Prop where
  taskId : phase.taskId = id
  created : phase.created ≠ some id
  holds : phase.Holds s₀ s id

end RunPhase

theorem Running.not_ended {s : OrchestratorInner} {id : String} (h : Running s id) : ¬ Ended s id := by
  obtain ⟨task, htask, hstatus⟩ := h
  exact fun hended => Task.not_finished_of_running hstatus (hended task htask)

theorem running_putTask {s : OrchestratorInner} (task : Task) (h : task.status = .running) :
    Running (s.putTask task) task.taskId := ⟨task, by simp [OrchestratorInner.putTask], h⟩

theorem ended_putTask {s : OrchestratorInner} {task : Task} (h : task.Finished) : Ended (s.putTask task) task.taskId := by
  intro found hfound
  simp only [OrchestratorInner.putTask, KeyedMap.get?_put, if_true, Option.some.injEq] at hfound
  exact hfound ▸ h

theorem finished_settleOutcome (o : Outside) (task : Task) (execution : TaskExecution)
    (outcome : Except String TaskRunOutcome) : (settleOutcome o task execution outcome).1.Finished := by
  unfold settleOutcome
  split
  · dsimp only
    split
    · exact ⟨.inl rfl, rfl⟩
    · exact ⟨.inr (.inl rfl), rfl⟩
  · split
    · exact Task.finished_markTimeout _
    · exact Task.finished_markFailed _ _

theorem finished_settleResponse (o : Outside) (task : Task) (timeoutSecs : Nat)
    (response : Option (Except String AgentResponse)) : (settleResponse o task timeoutSecs response).1.Finished := by
  unfold settleResponse
  split
  · exact ⟨.inl rfl, rfl⟩
  · exact Task.finished_markFailed _ _
  · exact Task.finished_markTimeout _

@[simp] theorem settleResponse_agentId (o : Outside) (task : Task) (timeoutSecs : Nat)
    (response : Option (Except String AgentResponse)) :
    (settleResponse o task timeoutSecs response).1.agentId = task.agentId := by
  unfold settleResponse
  split <;> rfl

section Spare

variable {s₀ s s' : OrchestratorInner} {id : String} {terminal container : Option String}

theorem Spares.ended (h : Spares id s s') (hs : Ended s id) : Ended s' id := by
  intro task htask
  obtain heq | hnone := h.task
  · exact hs task (heq ▸ htask)
  · rw [hnone] at htask
    cases htask

theorem Spares.marked (h : Spares id s s') (hs : Marked s₀ s id terminal container) :
    Marked s₀ s' id terminal container :=
  ⟨fun agentId hbusy => hs.pool agentId (h.pool agentId hbusy),
    fun agentId hbusy => hs.containers agentId (h.containers agentId hbusy)⟩

theorem Marked.free (h : Marked s₀ s id none none) (hended : Ended s id) (hcleared : s.backgroundRuns[id]? = none) :
    Settled s₀ s id where
  ended := hended
  cleared := hcleared
  pool agentId hbusy := (h.pool agentId hbusy).resolve_right (by simp)
  containers agentId hbusy := (h.containers agentId hbusy).resolve_right (by simp)

end Spare

/-! ### The sections of the run itself -/

section Own

variable {J : JsonValues} {timeoutOverride : Option Nat} {o : Outside} {s₀ s : OrchestratorInner} {id : String}
  {phase : RunPhase}

variable (J timeoutOverride) in
theorem RunPhase.Sound.next_holds (h : phase.Sound s₀ id s) (hnew : o.newTaskId ≠ id) (haccepts : phase.Accepts o s) :
    (phase.next J timeoutOverride o s).1.Lands id
      (RunPhase.Holds s₀ (phase.next J timeoutOverride o s).2 id)
      (Settled s₀ (phase.next J timeoutOverride o s).2 id) := by
  obtain ⟨rfl, hcreated, hholds⟩ := h
  cases phase with
  | getTask taskId =>
    obtain ⟨⟨task, htask⟩, hmarked⟩ := hholds
    replace htask : s.tasks.get? taskId = some task := htask
    unfold RunPhase.next
    simp only [htask]
    unfold Move.Lands
    dsimp only
    split
    · rename_i hrunning
      exact ⟨⟨task, htask, hrunning⟩, hmarked⟩
    · exact ⟨⟨task, htask⟩, hmarked⟩
  | markTask task => exact ⟨running_putTask (task.markRunning o.now) rfl, ⟨hholds.2.pool, hholds.2.containers⟩⟩
  | markNode task updated => exact ⟨hholds.1, hholds.2.pool, hholds.2.containers⟩
  | route task =>
    unfold RunPhase.next Move.Lands
    dsimp only
    split
    · exact hholds
    · exact hholds
  | startTask task =>
    obtain ⟨agent, hagent⟩ := haccepts
    obtain ⟨execution, hid, -, heq⟩ := hagent.startTask_eq (timeoutOverride.map (clamp 1 maxTaskTimeoutSecs))
    unfold RunPhase.next
    simp only [heq]
    refine ⟨hholds.1, fun agentId hbusy => ?_, hholds.2.containers⟩
    obtain ⟨hagentId, -⟩ | hbefore := hagent.busyWith hbusy
    · exact .inr (congrArg some (hid.trans hagentId.symm))
    · exact .inl ((hholds.2.pool agentId hbefore).resolve_right (by simp))
  | findSession task execution prompt =>
    have hopen : o.sessionOpen execution.sessionId = true := haccepts
    unfold RunPhase.next
    simp only [hopen, if_true]
    exact hholds
  | storeOutcome task execution prompt =>
    have hended := ended_putTask (s := s) (finished_settleOutcome o task execution
      (o.collectTaskOutput execution ("orch-trace-" ++ task.taskId) prompt))
    rw [settleOutcome_taskId] at hended
    exact ⟨hended, hholds.2.pool, hholds.2.containers⟩
  | upsertOutcome updated agentId result => exact ⟨hholds.1, hholds.2.pool, hholds.2.containers⟩
  | completeTask updated agentId result =>
    have hmarked : Marked s₀ { s with pool := s.pool.completeTask agentId } updated.taskId none none := by
      refine ⟨fun other hbusy => ?_, hholds.2.containers⟩
      obtain ⟨hne, hbefore⟩ := AgentPool.busyWith_completeTask hbusy
      exact .inl ((hholds.2.pool other hbefore).resolve_right fun heq => hne (Option.some.inj heq).symm)
    cases result with
    | ok => exact ⟨hholds.1, hmarked⟩
    | error e => exact ⟨hholds.1, hmarked⟩
  | containerSession task =>
    obtain ⟨session, hsession⟩ := haccepts
    unfold RunPhase.next
    simp only [hsession]
    exact hholds
  | countBusy task session => exact hholds
  | admission task session ptyBusyCount =>
    obtain ⟨agent, hagent⟩ := haccepts
    obtain ⟨timeoutSecs, heq⟩ := hagent.admitTask_eq task.taskId timeoutOverride
    unfold RunPhase.next
    simp only [heq]
    refine ⟨hholds.1, hholds.2.pool, fun agentId hbusy => ?_⟩
    obtain ⟨hagentId, -⟩ | hbefore := hagent.busyWith hbusy
    · exact .inr (congrArg some hagentId.symm)
    · exact .inl ((hholds.2.containers agentId hbefore).resolve_right (by simp))
  | storeResponse task session timeoutSecs =>
    have hended := ended_putTask (s := s) (finished_settleResponse o task timeoutSecs
      (o.sendPrompt session.peerAgentId (o.effectivePrompt task) timeoutSecs))
    rw [settleResponse_taskId] at hended
    refine ⟨hended, hholds.2.pool, fun agentId hbusy => ?_⟩
    exact (hholds.2.containers agentId hbusy).imp_right (congrArg some (settleResponse_agentId _ _ _ _)).trans
  | upsertResponse updated result => exact ⟨hholds.1, hholds.2.pool, hholds.2.containers⟩
  | releaseAgent updated result =>
    have hmarked (completed : Bool) :
        Marked s₀ { s with containerAgents := s.containerAgents.release updated.agentId completed } updated.taskId none
          none := by
      refine ⟨hholds.2.pool, fun other hbusy => ?_⟩
      obtain ⟨hne, hbefore⟩ := AgentTable.busyWith_release hbusy
      exact .inl ((hholds.2.containers other hbefore).resolve_right fun heq => hne (Option.some.inj heq).symm)
    cases result with
    | ok => exact ⟨hholds.1, hmarked true⟩
    | error e => exact ⟨hholds.1, hmarked false⟩
  | collect updated => exact hholds
  | followups source remaining =>
    cases remaining with
    | nil => exact hholds
    | cons head rest =>
      have hspares : Spares source.taskId s (s.putTask (newTask o head.2.1 head.2.2)) := .putTask hnew
      exact ⟨hspares.ended hholds.1, hspares.marked hholds.2⟩
  | upsertFollowup source edge task remaining => exact ⟨hholds.1, hholds.2.pool, hholds.2.containers⟩
  | setGenerated source edge task remaining =>
    exact ⟨fun heq => hcreated (congrArg some heq), hholds.1, hholds.2.pool, hholds.2.containers⟩
  | clear taskId result =>
    refine ⟨hholds.1, ⟨hholds.2.pool, hholds.2.containers⟩, ?_⟩
    exact OrdMap.get?_erase _ _ _ |>.trans (if_pos rfl)
  | prune taskId result =>
    obtain ⟨hended, hmarked, hcleared⟩ := hholds
    have hspares : Spares taskId s { s with tasks := s.tasks.prune o.now } := .prune o.now
    exact (hspares.marked hmarked).free (hspares.ended hended) hcleared

theorem RunPhase.Sound.next (h : phase.Sound s₀ id s) (hnew : o.newTaskId ≠ id) (haccepts : phase.Accepts o s) :
    (phase.next J timeoutOverride o s).1.Lands id (fun q => q.Sound s₀ id (phase.next J timeoutOverride o s).2)
      (Settled s₀ (phase.next J timeoutOverride o s).2 id) := by
  have hholds := h.next_holds J timeoutOverride hnew haccepts
  have hstays := RunPhase.next_lands J timeoutOverride s h.created hnew
  cases hmove : (phase.next J timeoutOverride o s).1 with
  | goto q =>
    rw [hmove] at hholds hstays
    exact ⟨hstays.1.trans h.taskId, hstays.2, hholds⟩
  | run i q =>
    rw [hmove] at hholds hstays
    exact ⟨hholds.1, hstays.2.1.trans h.taskId, hstays.2.2, hholds.2⟩
  | ret r =>
    rw [hmove] at hholds
    exact hholds

/-- The run on its way out after a container agent did not take the task, of which nothing else has changed. -/
def RunPhase.Refused (s₀ : OrchestratorInner) (id : String) (phase : RunPhase) (s : OrchestratorInner) : Prop :=
  Running s id ∧ Marked s₀ s id none none ∧
    ((∃ result, phase = .clear id result) ∨ ∃ result, phase = .prune id result ∧ s.backgroundRuns[id]? = none)

/-- What is left then: the task still runs, unless pruning has taken it away. -/
def Unsettled (s₀ s : OrchestratorInner) (id : String) : Prop :=
  Running s id ∨ (s.tasks.get? id = none ∧ Settled s₀ s id)

theorem RunPhase.Sound.refused (h : phase.Sound s₀ id s) (hrefuses : ¬ phase.Accepts o s) :
    (phase.next J timeoutOverride o s).1.Lands id (fun q => q.Refused s₀ id (phase.next J timeoutOverride o s).2)
      (Unsettled s₀ (phase.next J timeoutOverride o s).2 id) := by
  obtain ⟨rfl, -, hholds⟩ := h
  cases phase with
  | startTask task =>
    obtain ⟨e, heq⟩ := AgentPool.startTask_of_not_starts (timeoutOverride.map (clamp 1 maxTaskTimeoutSecs)) hrefuses
    unfold RunPhase.next
    simp only [heq]
    exact .inl hholds.1
  | findSession task execution prompt =>
    have hclosed : ¬ o.sessionOpen execution.sessionId = true := hrefuses
    unfold RunPhase.next
    simp only [if_neg hclosed]
    exact .inl hholds.1
  | containerSession task =>
    have hnone : s.containerSessions[task.agentId]? = none :=
      Option.eq_none_iff_forall_ne_some.mpr fun session hsession => hrefuses ⟨session, hsession⟩
    unfold RunPhase.next
    simp only [hnone]
    exact ⟨hholds.1, hholds.2, .inl ⟨_, rfl⟩⟩
  | admission task session ptyBusyCount =>
    obtain ⟨e, heq⟩ := AgentTable.admitTask_of_not_admits task.taskId timeoutOverride hrefuses
    unfold RunPhase.next
    simp only [heq]
    exact ⟨hholds.1, hholds.2, .inl ⟨_, rfl⟩⟩
  | _ => exact absurd trivial hrefuses

theorem RunPhase.Refused.next (h : phase.Refused s₀ id s) :
    (phase.next J timeoutOverride o s).1.Lands id (fun q => q.Refused s₀ id (phase.next J timeoutOverride o s).2)
      (Unsettled s₀ (phase.next J timeoutOverride o s).2 id) := by
  obtain ⟨hrunning, hmarked, ⟨result, rfl⟩ | ⟨result, rfl, hcleared⟩⟩ := h
  · exact ⟨hrunning, ⟨hmarked.pool, hmarked.containers⟩, .inr ⟨result, rfl, (OrdMap.get?_erase _ _ _).trans (if_pos rfl)⟩⟩
  · have hspares : Spares id s { s with tasks := s.tasks.prune o.now } := .prune o.now
    obtain heq | hnone := hspares.task
    · obtain ⟨task, htask, hstatus⟩ := hrunning
      exact .inl ⟨task, heq.trans htask, hstatus⟩
    · refine .inr ⟨hnone, (hspares.marked hmarked).free ?_ hcleared⟩
      intro task htask
      rw [hnone] at htask
      cases htask

end Own

/-! ### The whole call -/

def RunCall.step (J : JsonValues) (c : RunCall × OrchestratorInner) (o : Outside) : RunCall × OrchestratorInner :=
  c.1.next J o c.2

/-- If the next section is one of the run that the call is of, it does not turn the task away. -/
def Accepted (c : RunCall × OrchestratorInner) (o : Outside) : Prop :=
  match c.1.frames with
  | [bottom] => bottom.phase.Accepts o c.2
  | _ => True

/-- What holds of the call as long as no section has turned its task away. -/
def SoundCall (s₀ : OrchestratorInner) (id : String) (c : RunCall × OrchestratorInner) : Prop :=
  Rooted id (RunPhase.Sound s₀ id · c.2) (Settled s₀ c.2 id) c.1.frames

/-- What holds of the call once a section has. -/
def RefusedCall (s₀ : OrchestratorInner) (id : String) (c : RunCall × OrchestratorInner) : Prop :=
  Rooted id (RunPhase.Refused s₀ id · c.2) (Unsettled s₀ c.2 id) c.1.frames

section Call

variable {J : JsonValues} {s₀ : OrchestratorInner} {id : String} {timeoutOverride : Option Nat}
  {c : RunCall × OrchestratorInner} {o : Outside}

theorem SoundCall.start (hstored : ∃ task, s₀.tasks.get? id = some task) :
    SoundCall s₀ id (RunCall.start id timeoutOverride, s₀) :=
  ⟨rfl, by simp [RunPhase.created], hstored, fun _ h => .inl h, fun _ h => .inl h⟩

theorem SoundCall.step (h : SoundCall s₀ id c) (haccepted : Accepted c o) (hnew : o.newTaskId ≠ id) :
    SoundCall s₀ id (RunCall.step J c o) := by
  refine Rooted.next (I := RunPhase.Sound s₀ id) (E := (Settled s₀ · id)) (F := (Settled s₀ · id)) h hnew ?_
    (fun hE => hE) ?_
  · intro source remaining s' hspares hsound
    exact ⟨hsound.taskId, hsound.created, hspares.ended hsound.holds.1, hspares.marked hsound.holds.2⟩
  · intro timeoutOverride phase hframes hsound
    unfold Accepted at haccepted
    rw [hframes] at haccepted
    exact hsound.next hnew haccepted

theorem SoundCall.refused (h : SoundCall s₀ id c) (hrefused : ¬ Accepted c o) :
    RefusedCall s₀ id (RunCall.step J c o) := by
  obtain ⟨⟨frames, result⟩, s⟩ := c
  match frames with
  | [] => exact absurd trivial hrefused
  | [⟨timeoutOverride, phase⟩] => exact .alone (RunPhase.Sound.refused h hrefused)
  | _ :: _ :: _ => exact absurd trivial hrefused

theorem RefusedCall.step (h : RefusedCall s₀ id c) (hnew : o.newTaskId ≠ id) :
    RefusedCall s₀ id (RunCall.step J c o) := by
  refine Rooted.next (I := RunPhase.Refused s₀ id) (E := (Unsettled s₀ · id)) (F := (Unsettled s₀ · id)) h hnew ?_
    (fun hE => hE) ?_
  · rintro source remaining s' - ⟨-, -, ⟨result, heq⟩ | ⟨result, heq, -⟩⟩
    · cases heq
    · cases heq
  · intro timeoutOverride phase _ hrefused
    exact hrefused.next

theorem SoundCall.exec {outside : List Outside} (h : SoundCall s₀ id c) (hnew : ∀ o ∈ outside, o.newTaskId ≠ id)
    (haccepted : Along (RunCall.step J) Accepted c outside) : SoundCall s₀ id (exec (RunCall.step J) c outside) :=
  exec_invariant_along (fun _ _ hc hguard => SoundCall.step hc hguard.1 hguard.2) h (haccepted.and_mem hnew)

theorem RefusedCall.exec {outside : List Outside} (h : RefusedCall s₀ id c) (hnew : ∀ o ∈ outside, o.newTaskId ≠ id) :
    RefusedCall s₀ id (exec (RunCall.step J) c outside) := by
  refine exec_invariant_along (G := fun _ o => o.newTaskId ≠ id) (fun _ _ hc hguard => RefusedCall.step hc hguard) h ?_
  exact along_iff.mpr fun front o back heq => hnew o (by simp [heq])

/-- A call of `run_task` that returns has settled its task if and only if the dispatch did not turn it away, or the task
is no longer in the table. -/
theorem settled_iff_accepted (outside : List Outside) (hstored : ∃ task, s₀.tasks.get? id = some task)
    (hnew : ∀ o ∈ outside, o.newTaskId ≠ id)
    (hreturned : (exec (RunCall.step J) (RunCall.start id timeoutOverride, s₀) outside).1.frames = []) :
    Settled s₀ (exec (RunCall.step J) (RunCall.start id timeoutOverride, s₀) outside).2 id ↔
      ((∃ task, (exec (RunCall.step J) (RunCall.start id timeoutOverride, s₀) outside).2.tasks.get? id = some task) →
        Along (RunCall.step J) Accepted (RunCall.start id timeoutOverride, s₀) outside) := by
  have hstart : SoundCall s₀ id (RunCall.start id timeoutOverride, s₀) := .start hstored
  by_cases haccepted : Along (RunCall.step J) Accepted (RunCall.start id timeoutOverride, s₀) outside
  · have hend := hstart.exec hnew haccepted
    unfold SoundCall at hend
    rw [hreturned] at hend
    exact iff_of_true hend fun _ => haccepted
  · have hend : RefusedCall s₀ id (exec (RunCall.step J) (RunCall.start id timeoutOverride, s₀) outside) := by
      obtain ⟨front, o, back, rfl, hfront, hrefused⟩ := exists_first_of_not_along haccepted
      have hbefore := hstart.exec (fun o ho => hnew o (List.mem_append_left _ ho)) hfront
      rw [exec_append, exec_cons]
      exact (hbefore.refused hrefused).exec fun o ho => hnew o (List.mem_append_right _ (List.mem_cons_of_mem _ ho))
    unfold RefusedCall at hend
    rw [hreturned] at hend
    obtain hrunning | ⟨hnone, hsettled⟩ := hend
    · refine iff_of_false (fun hsettled => hrunning.not_ended hsettled.ended) fun h => haccepted (h ?_)
      obtain ⟨task, htask, -⟩ := hrunning
      exact ⟨task, htask⟩
    · refine iff_of_true hsettled ?_
      rintro ⟨task, htask⟩
      cases hnone.symm.trans htask

end Call

/-! ### A run that is dispatched, and one that is not -/

def noJson : JsonValues where
  Value := Unit
  fromStr _ := none
  getField _ _ := none
  getIndex _ _ := none
  asStr _ := none
  toString _ := ""

def sampleAgent : ManagedAgent where
  agentId := "agent-1"
  agentName := "worker"
  agentType := "shell"
  ptySessionId := none
  capabilities := []
  status := .idle
  launchedAt := 0
  timeoutSecs := 10
  model := none
  workingDir := none
  tasksCompleted := 0
  traceEnabled := false
  command := "sh"
  staticArgs := ["-c"]
  env := []
  envRemove := []

/-- A terminal opens and the command in it succeeds. -/
def sampleOutside : Outside where
  now := 5
  newTaskId := "task-2"
  effectivePrompt task := task.prompt
  createAnswerFile _ := .error "no space"
  createSession _ := .ok "pty-1"
  sessionOpen _ := true
  collectTaskOutput _ _ _ := .ok ⟨"done", none, 0, 1, 1, none⟩
  readToString _ := none
  sendPrompt _ _ _ := none

/-- One task has been sent to `agent-1`; `agents` are the agents that are there. -/
def sampleState (agents : AgentTable) : OrchestratorInner where
  pool := ⟨agents, ⟨64, 10, []⟩⟩
  containerAgents := .empty
  containerSessions := ∅
  tasks := KeyedMap.empty.put ((Task.create "task-1" "agent-1" "ls").markRunning 0)
  graph := TaskGraph.empty.upsertNode "task-1" "agent-1" .running
  backgroundRuns := (∅ : OrdMap String Nat).insert "task-1" 0

theorem sampleState_stored (agents : AgentTable) : ∃ task, (sampleState agents).tasks.get? "task-1" = some task :=
  ⟨(Task.create "task-1" "agent-1" "ls").markRunning 0, by simp [sampleState, Task.markRunning, Task.create]⟩

theorem settled_iff_accepted_sample :
    Settled (sampleState (KeyedMap.empty.put sampleAgent))
        (exec (RunCall.step noJson) (RunCall.start "task-1" none, sampleState (KeyedMap.empty.put sampleAgent))
          (List.replicate 11 sampleOutside)).2 "task-1" ↔
      ((∃ task, (exec (RunCall.step noJson)
          (RunCall.start "task-1" none, sampleState (KeyedMap.empty.put sampleAgent))
          (List.replicate 11 sampleOutside)).2.tasks.get? "task-1" = some task) →
        Along (RunCall.step noJson) Accepted
          (RunCall.start "task-1" none, sampleState (KeyedMap.empty.put sampleAgent))
          (List.replicate 11 sampleOutside)) :=
  settled_iff_accepted (List.replicate 11 sampleOutside) (sampleState_stored _) (by simp [sampleOutside])
    (List.eq_nil_of_length_eq_zero (by decide))

/-- The agent of the task is not there: the call returns after three sections and the task runs for ever. -/
theorem unknown_agent_not_settled :
    ¬ ∀ (s₀ : OrchestratorInner) (id : String) (timeoutOverride : Option Nat) (outside : List Outside),
      (∃ task, s₀.tasks.get? id = some task) → (∀ o ∈ outside, o.newTaskId ≠ id) →
      (exec (RunCall.step noJson) (RunCall.start id timeoutOverride, s₀) outside).1.frames = [] →
      Settled s₀ (exec (RunCall.step noJson) (RunCall.start id timeoutOverride, s₀) outside).2 id := by
  intro h
  have hended := (h (sampleState .empty) "task-1" none (List.replicate 3 sampleOutside) (sampleState_stored _)
    (by simp [sampleOutside]) (List.eq_nil_of_length_eq_zero (by decide))).ended
  have hstatus : ((exec (RunCall.step noJson) (RunCall.start "task-1" none, sampleState .empty)
      (List.replicate 3 sampleOutside)).2.tasks.get? "task-1").map (·.status) = some .running := by decide
  obtain ⟨task, htask, hrunning⟩ := Option.map_eq_some_iff.mp hstatus
  exact Task.not_finished_of_running hrunning (hended task htask)

end AgentHalo.Orchestrator
