import AgentHalo.Orchestrator.TaskGraph

/-!
# Tasks

A task is pending until its run starts and finished when its status is complete, failed or timed out. The table of tasks
forgets finished tasks after a day and keeps at most two thousand.
-/

namespace AgentHalo.Orchestrator

structure TaskUsage where
  inputTokens : Nat
  outputTokens : Nat
deriving DecidableEq, Repr

def TaskUsage.empty : TaskUsage := ⟨0, 0⟩

structure Task where
  taskId : String
  agentId : String
  prompt : String
  status : TaskStatus
  answer : Option String
  result : Option String
  error : Option String
  exitCode : Option Int
  usage : TaskUsage
  startedAt : Option Nat
  completedAt : Option Nat
  traceSessionId : Option String
deriving DecidableEq, Repr

def maxTaskTimeoutSecs : Nat := 3600
def taskRetentionSecs : Nat := 86400
def maxTasksRetained : Nat := 2000

namespace Task

def create (taskId agentId prompt : String) : Task where
  taskId
  agentId
  prompt
  status := .pending
  answer := none
  result := none
  error := none
  exitCode := none
  usage := .empty
  startedAt := none
  completedAt := none
  traceSessionId := none

variable (task : Task) (now : Nat)

def markRunning : Task := { task with status := .running, startedAt := some now }

def markComplete (result : String) (exitCode : Int) (usage : TaskUsage) (traceSessionId : Option String) : Task :=
  { task with
    status := .complete
    result := some result
    error := none
    exitCode := some exitCode
    usage
    traceSessionId
    completedAt := some now }

def markFailed (error : String) (exitCode : Option Int) : Task :=
  { task with status := .failed, error := some error, exitCode, completedAt := some now }

def markTimeout (error : String) : Task :=
  { task with status := .timeout, error := some error, completedAt := some now }

/-- The task has ended and says when. -/
structure Finished : Prop where
  status : task.status = .complete ∨ task.status = .failed ∨ task.status = .timeout
  completedAt : task.completedAt.isSome

variable {task now}

theorem finished_markFailed (error : String) (exitCode : Option Int) : (task.markFailed now error exitCode).Finished :=
  ⟨.inr (.inl rfl), rfl⟩

theorem finished_markTimeout (error : String) : (task.markTimeout now error).Finished := ⟨.inr (.inr rfl), rfl⟩

theorem not_finished_of_running (h : task.status = .running) : ¬ task.Finished := by
  rintro ⟨hstatus, -⟩
  simp [h] at hstatus

end Task

abbrev TaskTable := KeyedMap String Task Task.taskId

namespace TaskTable

/-- Remove tasks in the given order while there are too many. -/
def evict : List (String × Nat) → Nat → TaskTable → TaskTable
  | [], _, tasks => tasks
  | _ :: _, 0, tasks => tasks
  | (id, _) :: rest, excess + 1, tasks =>
    if tasks.contains id then evict rest excess (tasks.erase id) else evict rest (excess + 1) tasks

/-- A finished task is retained for a day. -/
def retained (now : Nat) (task : Task) : Bool :=
  match task.completedAt with
  | some doneAt => now - doneAt ≤ taskRetentionSecs
  | none => true

/-- `prune_tasks`: then the oldest tasks go until there are few enough. -/
def prune (now : Nat) (tasks : TaskTable) : TaskTable :=
  let kept := tasks.filter (retained now)
  if kept.size ≤ maxTasksRetained then kept
  else
    let idsByAge := (kept.values.map fun task => (task.taskId, (task.completedAt.or task.startedAt).getD 0)).mergeSort
      fun a b => a.2 ≤ b.2
    evict idsByAge (kept.size - maxTasksRetained) kept

variable {now : Nat} {tasks : TaskTable} {id : String} {task : Task}

theorem get?_of_get?_evict {order : List (String × Nat)} {excess : Nat}
    (h : (evict order excess tasks).get? id = some task) : tasks.get? id = some task := by
  induction order generalizing excess tasks with
  | nil => exact h
  | cons entry rest ih =>
    cases excess with
    | zero => exact h
    | succ excess =>
      unfold evict at h
      split at h
      · have hkept := ih h
        rw [KeyedMap.get?_erase] at hkept
        split at hkept
        · cases hkept
        · exact hkept
      · exact ih h

theorem get?_of_get?_prune (h : (prune now tasks).get? id = some task) : tasks.get? id = some task := by
  have hfilter (hkept : (tasks.filter (retained now)).get? id = some task) : tasks.get? id = some task := by
    rw [KeyedMap.get?_filter, Option.filter_eq_some_iff] at hkept
    exact hkept.1
  unfold prune at h
  dsimp only at h
  split at h
  · exact hfilter h
  · exact hfilter (get?_of_get?_evict h)

end TaskTable

end AgentHalo.Orchestrator
