import AgentHalo.Orchestrator.Task

/-!
# Agents

An agent is idle, busy with one task, or stopped. The agents of terminals and those of containers are in two tables; a
task starts on an agent of either kind if the agent is idle and few enough are busy. What terminals, temporary files and
containers answer is given to the functions that ask them.
-/

namespace AgentHalo.Orchestrator

inductive AgentStatus where
  | idle
  | busy (taskId : String)
  | stopped (exitCode : Int)
deriving DecidableEq, Repr

structure ManagedAgent where
  agentId : String
  agentName : String
  agentType : String
  ptySessionId : Option String
  capabilities : List String
  status : AgentStatus
  launchedAt : Nat
  timeoutSecs : Nat
  model : Option String
  workingDir : Option String
  tasksCompleted : Nat
  traceEnabled : Bool
  command : String
  staticArgs : List String
  env : List (String × String)
  envRemove : List String
deriving DecidableEq, Repr

structure ContainerBudget where
  maxAgents : Nat
  maxConcurrentBusy : Nat
  allowedKinds : List String
deriving DecidableEq, Repr

/-- What a terminal session is created with. -/
structure SessionSpec where
  command : String
  args : List String
  env : List (String × String)
  envRemove : List String
  workingDir : Option String
  cols : Nat
  rows : Nat
  agentType : Option String
deriving DecidableEq, Repr

structure TaskExecution where
  agentId : String
  agentType : String
  taskId : String
  sessionId : String
  timeoutSecs : Nat
  traceEnabled : Bool
  answerPath : Option String
deriving DecidableEq, Repr

/-- Rust's `clamp`, with the bounds first. -/
def clamp (low high n : Nat) : Nat := max low (min n high)

namespace ManagedAgent

def isBusy (agent : ManagedAgent) : Bool :=
  match agent.status with
  | .busy _ => true
  | _ => false

/-- The arguments with the prompt, and the file for the answer. Only codex has one, which may fail to be created. -/
def commandLine (agent : ManagedAgent) (prompt : String) (answerFile : Except String String) :
    Except String (List String × Option String) :=
  if agent.agentType = "codex" then
    answerFile.map fun path => (agent.staticArgs ++ ["--output-last-message", path, prompt], some path)
  else if agent.agentType = "gemini" then .ok (agent.staticArgs ++ ["--prompt", prompt], none)
  else .ok (agent.staticArgs ++ [prompt], none)

def sessionSpec (agent : ManagedAgent) (args : List String) : SessionSpec where
  command := agent.command
  args
  env := agent.env
  envRemove := agent.envRemove
  workingDir := agent.workingDir
  cols := 120
  rows := 24
  agentType := some agent.agentType

/-- Counting saturates. -/
def countTask (agent : ManagedAgent) : Nat := min (agent.tasksCompleted + 1) (2 ^ 32 - 1)

end ManagedAgent

abbrev AgentTable := KeyedMap String ManagedAgent ManagedAgent.agentId

def AgentTable.busyCount (agents : AgentTable) : Nat := agents.values.countP ManagedAgent.isBusy

def AgentTable.BusyWith (agents : AgentTable) (agentId taskId : String) : Prop :=
  ∃ agent, agents.get? agentId = some agent ∧ agent.status = .busy taskId

variable {agent : ManagedAgent} {other id : String}

theorem AgentTable.busyWith_put {agents : AgentTable} {agent' : ManagedAgent} {agentId taskId : String}
    (hagent : agents.get? agentId = some agent) (h : AgentTable.BusyWith (agents.put agent') other taskId)
    (hid : agent'.agentId = agent.agentId) :
    (other = agentId ∧ agent'.status = .busy taskId) ∨ (other ≠ agentId ∧ agents.BusyWith other taskId) := by
  have hkey : agent'.agentId = agentId := hid.trans (KeyedMap.key_of_get? hagent)
  obtain ⟨found, hfound, hstatus⟩ := h
  rw [KeyedMap.get?_put, hkey] at hfound
  split at hfound
  · rename_i heq
    obtain rfl := Option.some.inj hfound
    exact .inl ⟨heq.symm, hstatus⟩
  · rename_i hne
    exact .inr ⟨fun heq => hne heq.symm, found, hfound, hstatus⟩

def busyLimitReached (busyCount limit : Nat) : String :=
  "concurrent busy limit reached (" ++ toString busyCount ++ "/" ++ toString limit ++ ")"

structure AgentPool where
  agents : AgentTable
  budget : ContainerBudget

namespace AgentPool

/-- The answer and the pool it leaves; `createAnswerFile` and `createSession` ask the system. -/
def startTask (pool : AgentPool) (agentId taskId prompt : String) (timeoutSecs : Option Nat)
    (createAnswerFile : String → Except String String) (createSession : SessionSpec → Except String String) :
    Except String TaskExecution × AgentPool :=
  match pool.agents.get? agentId with
  | none => (.error ("unknown agent_id " ++ agentId), pool)
  | some agent =>
    if pool.budget.maxConcurrentBusy ≤ pool.agents.busyCount then
      (.error (busyLimitReached pool.agents.busyCount pool.budget.maxConcurrentBusy), pool)
    else
      match agent.status with
      | .stopped _ => (.error ("agent " ++ agentId ++ " is stopped"), pool)
      | .busy _ => (.error ("agent " ++ agentId ++ " is busy"), pool)
      | .idle =>
        match agent.commandLine prompt (createAnswerFile taskId) with
        | .error e => (.error e, pool)
        | .ok (args, answerPath) =>
          match createSession (agent.sessionSpec args) with
          | .error e => (.error ("start task PTY session failed: " ++ e), pool)
          | .ok sessionId =>
            (.ok
              { agentId := agent.agentId
                agentType := agent.agentType
                taskId
                sessionId
                timeoutSecs := clamp 1 3600 (timeoutSecs.getD agent.timeoutSecs)
                traceEnabled := agent.traceEnabled
                answerPath },
              { pool with
                agents := pool.agents.put { agent with ptySessionId := some sessionId, status := .busy taskId } })

def completeTask (pool : AgentPool) (agentId : String) : AgentPool :=
  match pool.agents.get? agentId with
  | none => pool
  | some agent =>
    let status := match agent.status with
      | .stopped exitCode => .stopped exitCode
      | _ => .idle
    { pool with
      agents := pool.agents.put { agent with status, tasksCompleted := agent.countTask, ptySessionId := none } }

/-- The agent takes the task: it is there and idle, the limit is not reached, and the system creates what it needs. -/
structure Starts (pool : AgentPool) (agentId taskId prompt : String)
    (createAnswerFile : String → Except String String) (createSession : SessionSpec → Except String String)
    (agent : ManagedAgent) : Prop where
  known : pool.agents.get? agentId = some agent
  free : pool.agents.busyCount < pool.budget.maxConcurrentBusy
  idle : agent.status = .idle
  created : ∃ args answerPath sessionId, agent.commandLine prompt (createAnswerFile taskId) = .ok (args, answerPath) ∧
    createSession (agent.sessionSpec args) = .ok sessionId

variable {pool : AgentPool} {agentId taskId prompt : String} {timeoutSecs : Option Nat}
  {createAnswerFile : String → Except String String} {createSession : SessionSpec → Except String String}

variable (timeoutSecs) in
theorem Starts.startTask_eq (h : pool.Starts agentId taskId prompt createAnswerFile createSession agent) :
    ∃ execution : TaskExecution, execution.agentId = agentId ∧ execution.taskId = taskId ∧
      pool.startTask agentId taskId prompt timeoutSecs createAnswerFile createSession = (.ok execution,
        { pool with
          agents := pool.agents.put { agent with ptySessionId := some execution.sessionId, status := .busy taskId } }) := by
  obtain ⟨args, answerPath, sessionId, hline, hsession⟩ := h.created
  unfold startTask
  simp only [h.known, if_neg (Nat.not_le.mpr h.free), h.idle, hline, hsession]
  exact ⟨_, (KeyedMap.key_of_get? h.known : agent.agentId = agentId), rfl, rfl⟩

theorem Starts.busyWith {sessionId : String} (h : pool.Starts agentId taskId prompt createAnswerFile createSession agent)
    (hbusy : AgentTable.BusyWith (pool.agents.put { agent with ptySessionId := some sessionId, status := .busy taskId })
      other id) : (other = agentId ∧ id = taskId) ∨ pool.agents.BusyWith other id := by
  obtain ⟨hother, hstatus⟩ | ⟨-, hbefore⟩ := AgentTable.busyWith_put h.known hbusy rfl
  · exact .inl ⟨hother, (AgentStatus.busy.inj hstatus).symm⟩
  · exact .inr hbefore

theorem busyWith_completeTask (h : (pool.completeTask agentId).agents.BusyWith other id) :
    other ≠ agentId ∧ pool.agents.BusyWith other id := by
  unfold completeTask at h
  split at h
  · rename_i hnone
    refine ⟨?_, h⟩
    rintro rfl
    obtain ⟨agent, hagent, -⟩ := h
    cases hnone.symm.trans hagent
  · rename_i agent hagent
    dsimp only at h
    obtain ⟨-, hstatus⟩ | hbefore := AgentTable.busyWith_put hagent h rfl
    · dsimp only at hstatus
      split at hstatus
      · cases hstatus
      · cases hstatus
    · exact hbefore

variable (timeoutSecs) in
theorem startTask_of_not_starts
    (h : ¬ ∃ agent, pool.Starts agentId taskId prompt createAnswerFile createSession agent) :
    ∃ e, pool.startTask agentId taskId prompt timeoutSecs createAnswerFile createSession = (.error e, pool) := by
  unfold startTask
  split
  · exact ⟨_, rfl⟩
  · rename_i agent hagent
    split
    · exact ⟨_, rfl⟩
    · rename_i hfree
      split
      · exact ⟨_, rfl⟩
      · exact ⟨_, rfl⟩
      · rename_i hidle
        split
        · exact ⟨_, rfl⟩
        · rename_i args answerPath hline
          split
          · exact ⟨_, rfl⟩
          · rename_i sessionId hsession
            exact absurd ⟨agent, hagent, Nat.not_le.mp hfree, hidle, args, answerPath, sessionId, hline, hsession⟩ h

end AgentPool

namespace AgentTable

/-- The container agent takes the task, in the one section that checks it and marks it: the time it has, and the table.
`ptyBusyCount` was read before. -/
def admitTask (agents : AgentTable) (budget : ContainerBudget) (ptyBusyCount : Nat) (agentId taskId : String)
    (timeoutOverride : Option Nat) : Except String Nat × AgentTable :=
  let busyCount := ptyBusyCount + agents.busyCount
  if budget.maxConcurrentBusy ≤ busyCount then (.error (busyLimitReached busyCount budget.maxConcurrentBusy), agents)
  else
    match agents.get? agentId with
    | none => (.error ("unknown agent_id " ++ agentId), agents)
    | some agent =>
      match agent.status with
      | .stopped _ => (.error ("agent " ++ agentId ++ " is stopped"), agents)
      | .busy _ => (.error ("agent " ++ agentId ++ " is busy"), agents)
      | .idle =>
        (.ok (clamp 1 maxTaskTimeoutSecs (timeoutOverride.getD agent.timeoutSecs)),
          agents.put { agent with status := .busy taskId })

/-- The container agent is idle again, whatever its status has become; `completed` counts the task. -/
def release (agents : AgentTable) (agentId : String) (completed : Bool) : AgentTable :=
  match agents.get? agentId with
  | none => agents
  | some agent =>
    agents.put
      { agent with
        status := .idle
        tasksCompleted := if completed then agent.countTask else agent.tasksCompleted }

variable {agents : AgentTable} {budget : ContainerBudget} {ptyBusyCount : Nat} {agentId taskId : String}
  {timeoutOverride : Option Nat}

/-- The container agent takes the task. -/
structure Admits (agents : AgentTable) (budget : ContainerBudget) (ptyBusyCount : Nat) (agentId : String)
    (agent : ManagedAgent) : Prop where
  known : agents.get? agentId = some agent
  free : ptyBusyCount + agents.busyCount < budget.maxConcurrentBusy
  idle : agent.status = .idle

variable (taskId timeoutOverride) in
theorem Admits.admitTask_eq (h : agents.Admits budget ptyBusyCount agentId agent) :
    ∃ timeoutSecs, agents.admitTask budget ptyBusyCount agentId taskId timeoutOverride =
      (.ok timeoutSecs, agents.put { agent with status := .busy taskId }) := by
  unfold admitTask
  simp only [h.known, if_neg (Nat.not_le.mpr h.free), h.idle]
  exact ⟨_, rfl⟩

theorem Admits.busyWith (h : agents.Admits budget ptyBusyCount agentId agent)
    (hbusy : AgentTable.BusyWith (agents.put { agent with status := .busy taskId }) other id) :
    (other = agentId ∧ id = taskId) ∨ agents.BusyWith other id := by
  obtain ⟨hother, hstatus⟩ | ⟨-, hbefore⟩ := busyWith_put h.known hbusy rfl
  · exact .inl ⟨hother, (AgentStatus.busy.inj hstatus).symm⟩
  · exact .inr hbefore

theorem busyWith_release {completed : Bool} (h : AgentTable.BusyWith (agents.release agentId completed) other id) :
    other ≠ agentId ∧ agents.BusyWith other id := by
  unfold release at h
  split at h
  · rename_i hnone
    refine ⟨?_, h⟩
    rintro rfl
    obtain ⟨agent, hagent, -⟩ := h
    cases hnone.symm.trans hagent
  · rename_i agent hagent
    obtain ⟨-, hstatus⟩ | hbefore := busyWith_put hagent h rfl
    · cases hstatus
    · exact hbefore

variable (taskId timeoutOverride) in
theorem admitTask_of_not_admits (h : ¬ ∃ agent, agents.Admits budget ptyBusyCount agentId agent) :
    ∃ e, agents.admitTask budget ptyBusyCount agentId taskId timeoutOverride = (.error e, agents) := by
  unfold admitTask
  dsimp only
  split
  · exact ⟨_, rfl⟩
  · rename_i hfree
    split
    · exact ⟨_, rfl⟩
    · rename_i agent hagent
      split
      · exact ⟨_, rfl⟩
      · exact ⟨_, rfl⟩
      · rename_i hidle
        exact absurd ⟨agent, hagent, Nat.not_le.mp hfree, hidle⟩ h

end AgentTable

end AgentHalo.Orchestrator
