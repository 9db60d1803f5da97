import AgentHalo.Orchestrator.Pool
import AgentHalo.Lib.Run

/-!
# The sections of a run

`run_task` takes one lock after another. It is cut at the locks: a phase is what the run has in hand between two of them,
and `RunPhase.next` is the section that follows, with what it does to the state that all calls share. Completing a task
runs its follow-ups inside the same call, so a call is a stack of runs.
-/

namespace AgentHalo.Orchestrator

open Text

structure TaskRunOutcome where
  output : String
  answer : Option String
  exitCode : Int
  inputTokens : Nat
  outputTokens : Nat
  traceSessionId : Option String

structure AgentResponse where
  content : String
  inputTokens : Nat
  outputTokens : Nat

structure ContainerAgentSession where
  sessionId : String
  containerId : String
  peerAgentId : String

structure OrchestratorInner where
  pool : AgentPool
  containerAgents : AgentTable
  containerSessions : OrdMap String ContainerAgentSession
  tasks : TaskTable
  graph : TaskGraph
  /-- The handles of spawned runs by task. -/
  backgroundRuns : OrdMap String Nat

/-- What the world outside answers to a section. -/
structure Outside where
  now : Nat
  /-- The id made for a new task. -/
  newTaskId : String
  /-- The prompt with what the memory has on it. -/
  effectivePrompt : Task → String
  createAnswerFile : String → Except String String
  createSession : SessionSpec → Except String String
  sessionOpen : String → Bool
  /-- By the execution, the trace session and the prompt. -/
  collectTaskOutput : TaskExecution → String → String → Except String TaskRunOutcome
  readToString : String → Option String
  /-- By the peer, the prompt and the time it has; no answer in that time is `none`. -/
  sendPrompt : String → String → Nat → Option (Except String AgentResponse)

inductive RunPhase where
  | getTask (taskId : String)
  | markTask (task : Task)
  | markNode (task updated : Task)
  | route (task : Task)
  | startTask (task : Task)
  | findSession (task : Task) (execution : TaskExecution) (prompt : String)
  | storeOutcome (task : Task) (execution : TaskExecution) (prompt : String)
  | upsertOutcome (updated : Task) (agentId : String) (result : Except String Unit)
  | completeTask (updated : Task) (agentId : String) (result : Except String Unit)
  | containerSession (task : Task)
  | countBusy (task : Task) (session : ContainerAgentSession)
  | admission (task : Task) (session : ContainerAgentSession) (ptyBusyCount : Nat)
  | storeResponse (task : Task) (session : ContainerAgentSession) (timeoutSecs : Nat)
  | upsertResponse (updated : Task) (result : Except String Unit)
  | releaseAgent (updated : Task) (result : Except String Unit)
  | collect (updated : Task)
  | followups (source : Task) (remaining : List (String × String × String))
  | upsertFollowup (source : Task) (edge : String × String) (task : Task) (remaining : List (String × String × String))
  | setGenerated (source : Task) (edge : String × String) (task : Task) (remaining : List (String × String × String))
  | clear (taskId : String) (result : Except String Unit)
  | prune (taskId : String) (result : Except String Unit)

/-- Where a section leaves its run. -/
inductive Move where
  | goto (phase : RunPhase)
  /-- Run another task and go on from the phase. -/
  | run (taskId : String) (phase : RunPhase)
  | ret (result : Except String Unit)

/-- What the run of a terminal stores, and what it returns. -/
def settleOutcome (o : Outside) (task : Task) (execution : TaskExecution) :
    Except String TaskRunOutcome → Task × Except String Unit
  | .ok outcome =>
    let fileAnswer := ((execution.answerPath.bind o.readToString).map trim).filter (· ≠ "")
    if outcome.exitCode = 0 then
      let updated := task.markComplete o.now outcome.output outcome.exitCode
        ⟨outcome.inputTokens, outcome.outputTokens⟩ outcome.traceSessionId
      ({ updated with answer := fileAnswer.or outcome.answer }, .ok ())
    else
      let updated := task.markFailed o.now ("task exited with code " ++ toString outcome.exitCode) (some outcome.exitCode)
      ({ updated with result := some outcome.output, answer := outcome.answer }, .ok ())
  | .error err =>
    if contains (toAsciiLowercase err) "timeout" then (task.markTimeout o.now err, .error err)
    else (task.markFailed o.now err none, .error err)

/-- What the run of a container stores, and what it returns. -/
def settleResponse (o : Outside) (task : Task) (timeoutSecs : Nat) :
    Option (Except String AgentResponse) → Task × Except String Unit
  | some (.ok response) =>
    let updated := task.markComplete o.now response.content 0 ⟨response.inputTokens, response.outputTokens⟩ none
    ({ updated with answer := some response.content }, .ok ())
  | some (.error err) => (task.markFailed o.now err none, .error err)
  | none =>
    let err := "container task timed out after " ++ toString timeoutSecs ++ "s"
    (task.markTimeout o.now err, .error err)

/-- Source, target agent and prompt of each follow-up. -/
def collectFollowups (J : JsonValues) (graph : TaskGraph) (task : Task) : List (String × String × String) :=
  if task.status = .complete then
    (graph.outgoingFor task.taskId).map fun edge =>
      (task.taskId, edge.targetAgentId, edge.transform.applyWithAnswer J task.answer (task.result.getD ""))
  else []

namespace OrchestratorInner

variable (s : OrchestratorInner)

def putTask (task : Task) : OrchestratorInner := { s with tasks := s.tasks.put task }

def upsertNode (task : Task) : OrchestratorInner :=
  { s with graph := s.graph.upsertNode task.taskId task.agentId task.status }

end OrchestratorInner

def newTask (o : Outside) (agentId prompt : String) : Task := (Task.create o.newTaskId agentId prompt).markRunning o.now

def RunPhase.next (J : JsonValues) (timeoutOverride : Option Nat) (o : Outside) (s : OrchestratorInner) :
    RunPhase → Move × OrchestratorInner
  | getTask taskId =>
    match s.tasks.get? taskId with
    | none => (.ret (.error ("unknown task " ++ taskId)), s)
    | some task => (.goto (if task.status = .running then route task else markTask task), s)
  | markTask task => (.goto (markNode task (task.markRunning o.now)), s.putTask (task.markRunning o.now))
  -- The run goes on with the task as it was read.
  | markNode task updated => (.goto (route task), s.upsertNode updated)
  | route task =>
    (.goto (if s.containerAgents.contains task.agentId then containerSession task else startTask task), s)
  | startTask task =>
    let prompt := o.effectivePrompt task
    match s.pool.startTask task.agentId task.taskId prompt (timeoutOverride.map (clamp 1 maxTaskTimeoutSecs))
      o.createAnswerFile o.createSession with
    | (.error e, pool) => (.ret (.error e), { s with pool })
    | (.ok execution, pool) => (.goto (findSession task execution prompt), { s with pool })
  | findSession task execution prompt =>
    if o.sessionOpen execution.sessionId then (.goto (storeOutcome task execution prompt), s)
    else (.ret (.error ("missing PTY session " ++ execution.sessionId)), s)
  | storeOutcome task execution prompt =>
    let outcome := o.collectTaskOutput execution ("orch-trace-" ++ task.taskId) prompt
    let (updated, result) := settleOutcome o task execution outcome
    (.goto (upsertOutcome updated execution.agentId result), s.putTask updated)
  | upsertOutcome updated agentId result => (.goto (completeTask updated agentId result), s.upsertNode updated)
  | completeTask updated agentId result =>
    (.goto (match result with
      | .ok () => collect updated
      | .error e => clear updated.taskId (.error e)), { s with pool := s.pool.completeTask agentId })
  | containerSession task =>
    match s.containerSessions[task.agentId]? with
    | none => (.goto (clear task.taskId (.error ("missing container session metadata for " ++ task.agentId))), s)
    | some session => (.goto (countBusy task session), s)
  | countBusy task session => (.goto (admission task session s.pool.agents.busyCount), s)
  | admission task session ptyBusyCount =>
    match s.containerAgents.admitTask s.pool.budget ptyBusyCount task.agentId task.taskId timeoutOverride with
    | (.error e, containerAgents) => (.goto (clear task.taskId (.error e)), { s with containerAgents })
    | (.ok timeoutSecs, containerAgents) =>
      (.goto (storeResponse task session timeoutSecs), { s with containerAgents })
  | storeResponse task session timeoutSecs =>
    let (updated, result) := settleResponse o task timeoutSecs
      (o.sendPrompt session.peerAgentId (o.effectivePrompt task) timeoutSecs)
    (.goto (upsertResponse updated result), s.putTask updated)
  | upsertResponse updated result => (.goto (releaseAgent updated result), s.upsertNode updated)
  | releaseAgent updated result =>
    match result with
    | .ok () =>
      (.goto (collect updated), { s with containerAgents := s.containerAgents.release updated.agentId true })
    | .error e =>
      (.goto (clear updated.taskId (.error e)),
        { s with containerAgents := s.containerAgents.release updated.agentId false })
  | collect updated => (.goto (followups updated (collectFollowups J s.graph updated)), s)
  | followups source [] => (.goto (clear source.taskId (.ok ())), s)
  | followups source ((sourceTaskId, targetAgentId, transformed) :: remaining) =>
    let task := newTask o targetAgentId transformed
    (.goto (upsertFollowup source (sourceTaskId, targetAgentId) task remaining), s.putTask task)
  | upsertFollowup source edge task remaining =>
    (.goto (setGenerated source edge task remaining), s.upsertNode task)
  | setGenerated source edge task remaining =>
    (.run task.taskId (followups source remaining),
      { s with graph := s.graph.setGeneratedTask edge.1 edge.2 task.taskId })
  | clear taskId result => (.goto (prune taskId result), { s with backgroundRuns := s.backgroundRuns.erase taskId })
  | prune _ result => (.ret result, { s with tasks := s.tasks.prune o.now })

structure RunFrame where
  timeoutOverride : Option Nat
  phase : RunPhase

/-- A call of `run_task`: the runs it is in, innermost first, and the result of the one that returned last. -/
structure RunCall where
  frames : List RunFrame
  result : Option (Except String Unit)

namespace RunCall

/-- The call of `run_task`. -/
def start (taskId : String) (timeoutOverride : Option Nat) : RunCall := ⟨[⟨timeoutOverride, .getTask taskId⟩], none⟩

def move (timeoutOverride : Option Nat) (below : List RunFrame) (result : Option (Except String Unit)) : Move → RunCall
  | .goto phase => ⟨⟨timeoutOverride, phase⟩ :: below, result⟩
  | .run taskId phase => ⟨⟨none, .getTask taskId⟩ :: ⟨timeoutOverride, phase⟩ :: below, result⟩
  | .ret returned => ⟨below, some returned⟩

/-- The next section of the call, in its innermost run. -/
def next (J : JsonValues) (o : Outside) (call : RunCall) (s : OrchestratorInner) : RunCall × OrchestratorInner :=
  match call.frames with
  | [] => (call, s)
  | ⟨timeoutOverride, phase⟩ :: below =>
    let (m, s') := phase.next J timeoutOverride o s
    (move timeoutOverride below call.result m, s')

end RunCall

end AgentHalo.Orchestrator
