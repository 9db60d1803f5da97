import AgentHalo.Orchestrator.Acyclic
import AgentHalo.Orchestrator.Settling

/-!
# A pipe next to the run of its source

`pipe` reads the source task, adds the edge, and runs the follow-up itself if what it read was complete. The run of the
source stores that it is complete, and sections later collects the edges that are there by then. The follow-up of the
edge is created once if the pipe adds it before the collection having read that the source was not complete, or after it
having read that it was; in the two other orders it is created never or twice.
-/

namespace AgentHalo.Orchestrator

open Run

structure PipeRequest where
  sourceTaskId : String
  targetAgentId : String
  transform : Option String
  taskPrefix : Option String

/-- What a call of `pipe` has in hand between two sections. -/
inductive PipePhase where
  | read (transform : PipeTransform)
  | addEdge (source : Task) (transform : PipeTransform)
  | submit (source : Task) (transform : PipeTransform)
  | upsertSubmitted (submitted : Task)
  | run (submitted : Task) (call : RunCall)
  | finalTask (submitted : Task)
  | setGenerated (final : Task)
  | returned (result : Except String (Option Task))

namespace PipeRequest

variable (req : PipeRequest)

def edge (transform : PipeTransform) : TaskEdge where
  sourceTaskId := req.sourceTaskId
  targetAgentId := req.targetAgentId
  transform
  generatedTaskId := none

/-- The transform is parsed before any section. -/
def start : PipePhase :=
  match PipeTransform.parse req.transform req.taskPrefix with
  | .error e => .returned (.error e)
  | .ok transform => .read transform

def next (J : JsonValues) (o : Outside) (s : OrchestratorInner) : PipePhase → PipePhase × OrchestratorInner
  | .read transform =>
    match s.tasks.get? req.sourceTaskId with
    | none => (.returned (.error ("unknown source_task_id " ++ req.sourceTaskId)), s)
    | some source => (.addEdge source transform, s)
  | .addEdge source transform =>
    match s.graph.addEdge (req.edge transform) with
    | (.error e, graph) => (.returned (.error e), { s with graph })
    -- Whether to submit is decided by the source as it was read.
    | (.ok (), graph) =>
      (if source.status = .complete then .submit source transform else .returned (.ok none), { s with graph })
  | .submit source transform =>
    let task := newTask o req.targetAgentId (transform.applyWithAnswer J source.answer (source.result.getD ""))
    (.upsertSubmitted task, s.putTask task)
  | .upsertSubmitted submitted => (.run submitted (.start submitted.taskId none), s.upsertNode submitted)
  | .run submitted call =>
    let (call', s') := call.next J o s
    (match call'.frames with
      | [] => .finalTask submitted
      | _ => .run submitted call', s')
  | .finalTask submitted => (.setGenerated ((s.tasks.get? submitted.taskId).getD submitted), s)
  | .setGenerated final =>
    (.returned (.ok (some final)),
      { s with graph := s.graph.setGeneratedTask req.sourceTaskId req.targetAgentId final.taskId })
  | .returned result => (.returned result, s)

end PipeRequest

/-- The run of the source and the pipe, over the state they share. -/
structure Piping where
  run : RunCall
  pipe : PipePhase
  inner : OrchestratorInner

inductive Party where
  | run
  | pipe
deriving DecidableEq

namespace Piping

def start (req : PipeRequest) (timeoutOverride : Option Nat) (s₀ : OrchestratorInner) : Piping :=
  ⟨.start req.sourceTaskId timeoutOverride, req.start, s₀⟩

/-- One of the two takes its next section. -/
def step (J : JsonValues) (req : PipeRequest) (c : Piping) (action : Party × Outside) : Piping :=
  match action.1 with
  | .run =>
    let (run, inner) := c.run.next J action.2 c.inner
    { c with run, inner }
  | .pipe =>
    let (pipe, inner) := req.next J action.2 c.inner c.pipe
    { c with pipe, inner }

end Piping

/-! ### Follow-ups of the edge -/

/-- How many edges lead from the task to the agent. -/
def TaskGraph.edgesTo (graph : TaskGraph) (taskId agentId : String) : Nat :=
  graph.edges.countP fun edge => edge.sourceTaskId = taskId ∧ edge.targetAgentId = agentId

namespace RunPhase

/-- The section creates a follow-up of the task for the agent. -/
def creates (taskId agentId : String) : RunPhase → Bool
  | followups _ ((sourceTaskId, targetAgentId, _) :: _) => sourceTaskId = taskId ∧ targetAgentId = agentId
  | _ => false

/-- The run has looked at the edges of its task, or ends without. -/
def collected : RunPhase → Bool
  | followups _ _ | upsertFollowup _ _ _ _ | setGenerated _ _ _ _ | clear _ _ | prune _ _ => true
  | _ => false

/-- The section collects the follow-ups of the completed task. -/
def collects : RunPhase → Bool
  | collect updated => updated.status = .complete
  | _ => false

/-- How many follow-ups for the agent the run has collected and not created. -/
def owed (agentId : String) : RunPhase → Nat
  | followups _ remaining | upsertFollowup _ _ _ remaining | setGenerated _ _ _ remaining =>
    remaining.countP fun followup => followup.2.1 = agentId
  | _ => 0

/-- What the run has collected are edges of its own task. -/
def OwnEdges : RunPhase → Prop
  | followups source remaining | upsertFollowup source _ _ remaining | setGenerated source _ _ remaining =>
    ∀ followup ∈ remaining, followup.1 = source.taskId
  | _ => True

end RunPhase

namespace RunCall

def creates (call : RunCall) (taskId agentId : String) : Bool :=
  match call.frames with
  | [] => false
  | top :: _ => top.phase.creates taskId agentId

/-- The run that the call is of has looked at the edges of its task. -/
def collected (call : RunCall) : Bool := call.frames.getLast?.all (·.phase.collected)

def collects (call : RunCall) : Bool :=
  match call.frames with
  | [bottom] => bottom.phase.collects
  | _ => false

end RunCall

def PipePhase.succeeded : PipePhase → Bool
  | .returned (.ok _) => true
  | _ => false

/-- The section of the pipe creates a follow-up of the source for the target. -/
def PipePhase.creates (req : PipeRequest) : PipePhase → Bool
  | .submit _ _ => true
  | .run _ call => call.creates req.sourceTaskId req.targetAgentId
  | _ => false

namespace Piping

/-- The section creates a follow-up of the source for the target of the pipe. -/
def creates (req : PipeRequest) (c : Piping) (action : Party × Outside) : Bool :=
  match action.1 with
  | .run => c.run.creates req.sourceTaskId req.targetAgentId
  | .pipe => c.pipe.creates req

/-- The run of the source ends by collecting the follow-ups of the completed task. -/
def Completes (J : JsonValues) (c : Piping) (action : Party × Outside) : Prop :=
  action.1 = .run → c.run.collected = false → (c.run.next J action.2 c.inner).1.collected = true →
    c.run.collects = true

instance (J : JsonValues) (c : Piping) (action : Party × Outside) : Decidable (c.Completes J action) :=
  inferInstanceAs (Decidable (_ → _ → _ → _))

/-- When the pipe adds the edge, the source as it read it is complete exactly if the run has collected its follow-ups. -/
def Timely (c : Piping) (action : Party × Outside) : Prop :=
  match action.1, c.pipe with
  | .pipe, .addEdge source _ => source.status = .complete ↔ c.run.collected = true
  | _, _ => True

end Piping

/-! ### What a section of a run pays -/

section Sections

variable {J : JsonValues} {timeoutOverride : Option Nat} {o : Outside} {s : OrchestratorInner} {phase : RunPhase}
  {taskId agentId : String}

theorem TaskGraph.edgesTo_setGeneratedTask (graph : TaskGraph) (sourceTaskId targetAgentId generated : String) :
    (graph.setGeneratedTask sourceTaskId targetAgentId generated).edgesTo taskId agentId =
      graph.edgesTo taskId agentId := by
  unfold TaskGraph.edgesTo TaskGraph.setGeneratedTask
  rw [List.countP_map]
  congr 1
  funext edge
  dsimp only [Function.comp_apply]
  split
  · rfl
  · rfl

theorem RunPhase.edgesTo_next (phase : RunPhase) :
    (phase.next J timeoutOverride o s).2.graph.edgesTo taskId agentId = s.graph.edgesTo taskId agentId := by
  cases phase with
  | setGenerated source edge task remaining => exact TaskGraph.edgesTo_setGeneratedTask _ _ _ _
  | getTask | findSession | containerSession =>
    unfold RunPhase.next
    dsimp only
    split <;> rfl
  | startTask | admission =>
    unfold RunPhase.next
    dsimp only
    split <;> rfl
  | releaseAgent updated result => cases result <;> rfl
  | followups source remaining => cases remaining <;> rfl
  | _ => rfl

/-- How many follow-ups the run creates from a phase on, if there are `edges` edges when it collects. -/
def RunPhase.pending (agentId : String) (edges : Nat) (phase : RunPhase) : Nat :=
  if phase.collected then phase.owed agentId else edges

def Move.pending (agentId : String) (edges : Nat) : Move → Nat
  | .goto phase | .run _ phase => phase.pending agentId edges
  | .ret _ => 0

/-- The phase that the run is in after the move, if it has not returned, is of the kind. -/
def Move.Stays (I : RunPhase → Prop) : Move → Prop
  | .goto phase | .run _ phase => I phase
  | .ret _ => True

/-- The run has looked at the edges after the move, or has returned. -/
def Move.collected : Move → Bool
  | .goto phase | .run _ phase => phase.collected
  | .ret _ => true

theorem RunPhase.OwnEdges.next (h : phase.OwnEdges) :
    (phase.next J timeoutOverride o s).1.Stays RunPhase.OwnEdges := by
  cases phase with
  | collect updated =>
    intro followup hmem
    unfold collectFollowups at hmem
    split at hmem
    · obtain ⟨edge, -, rfl⟩ := List.mem_map.mp hmem
      rfl
    · cases hmem
  | followups source remaining =>
    cases remaining with
    | nil => trivial
    | cons head rest => exact fun followup hmem => h followup (List.mem_cons_of_mem _ hmem)
  | upsertFollowup | setGenerated => exact h
  | getTask =>
    unfold RunPhase.next
    dsimp only
    split
    · trivial
    · unfold Move.Stays
      dsimp only
      split <;> trivial
  | route =>
    unfold RunPhase.next Move.Stays
    dsimp only
    split <;> trivial
  | startTask | findSession | containerSession | admission =>
    unfold RunPhase.next
    dsimp only
    split <;> trivial
  | completeTask updated agentId result => cases result <;> trivial
  | releaseAgent updated result => cases result <;> trivial
  | _ => trivial

theorem RunPhase.OwnEdges.not_creates (h : phase.OwnEdges) (hne : phase.taskId ≠ taskId) :
    phase.creates taskId agentId = false := by
  cases phase with
  | followups source remaining =>
    cases remaining with
    | nil => rfl
    | cons head rest =>
      have hown : head.1 = source.taskId := h head List.mem_cons_self
      have hother : source.taskId ≠ taskId := hne
      unfold RunPhase.creates
      simp [hown, hother]
  | _ => rfl

theorem countP_collectFollowups {updated : Task} (hstatus : updated.status = .complete) :
    (collectFollowups J s.graph updated).countP (fun followup => followup.2.1 = agentId) =
      s.graph.edgesTo updated.taskId agentId := by
  unfold collectFollowups TaskGraph.outgoingFor TaskGraph.edgesTo
  rw [if_pos hstatus, List.countP_map, List.countP_filter]
  congr 1
  funext edge
  rw [Bool.decide_and, Bool.and_comm]
  rfl

/-- What is pending after a section is what was before it less what it creates. A section that ends the run otherwise than
by collecting the follow-ups of the completed task is left out. -/
theorem RunPhase.pending_next (hown : phase.OwnEdges)
    (hcompletes : phase.collected = false → (phase.next J timeoutOverride o s).1.collected = true →
      phase.collects = true) :
    phase.pending agentId (s.graph.edgesTo phase.taskId agentId) =
      (if phase.creates phase.taskId agentId then 1 else 0) +
        (phase.next J timeoutOverride o s).1.pending agentId (s.graph.edgesTo phase.taskId agentId) := by
  cases hcollected : phase.collected with
  | false =>
    have hcreates : phase.creates phase.taskId agentId = false := by
      cases phase with
      | followups => cases hcollected
      | _ => rfl
    rw [hcreates, if_neg Bool.false_ne_true, Nat.zero_add, RunPhase.pending, hcollected, if_neg Bool.false_ne_true]
    cases hnext : (phase.next J timeoutOverride o s).1.collected with
    | false =>
      cases hmove : (phase.next J timeoutOverride o s).1 with
      | goto q =>
        rw [hmove] at hnext
        exact (if_neg (by rw [show q.collected = false from hnext]; exact Bool.false_ne_true)).symm
      | run i q =>
        rw [hmove] at hnext
        exact (if_neg (by rw [show q.collected = false from hnext]; exact Bool.false_ne_true)).symm
      | ret r =>
        rw [hmove] at hnext
        cases hnext
    | true =>
      have hcollects := hcompletes hcollected hnext
      cases phase with
      | collect updated => exact (countP_collectFollowups (of_decide_eq_true hcollects)).symm
      | _ => cases hcollects
  | true =>
    cases phase with
    | followups source remaining =>
      cases remaining with
      | nil => rfl
      | cons head rest =>
        have hhead : head.1 = source.taskId := hown head List.mem_cons_self
        have hcreates : (RunPhase.followups source (head :: rest)).creates source.taskId agentId =
            decide (head.2.1 = agentId) := by
          unfold RunPhase.creates
          simp [hhead]
        have hpending : (RunPhase.followups source (head :: rest)).pending agentId
            (s.graph.edgesTo source.taskId agentId) =
              (head :: rest).countP fun followup => followup.2.1 = agentId := rfl
        have hrest : ((RunPhase.followups source (head :: rest)).next J timeoutOverride o s).1.pending agentId
            (s.graph.edgesTo source.taskId agentId) = rest.countP fun followup => followup.2.1 = agentId := rfl
        rw [show (RunPhase.followups source (head :: rest)).taskId = source.taskId from rfl, hcreates, hpending, hrest,
          List.countP_cons]
        omega
    | upsertFollowup | setGenerated | clear | prune => exact (Nat.zero_add _).symm
    | _ => cases hcollected

end Sections

/-! ### What a section of a call pays -/

namespace RunCall

section Calls

variable {J : JsonValues} {o : Outside} {s : OrchestratorInner} {call : RunCall} {taskId agentId : String}

/-- How many follow-ups the run that the call is of creates from here on. -/
def pending (agentId : String) (edges : Nat) (call : RunCall) : Nat :=
  call.frames.getLast?.elim 0 (·.phase.pending agentId edges)

/-- All runs of the call have collected only edges of their own tasks. -/
def OwnEdges (call : RunCall) : Prop := ∀ frame ∈ call.frames, frame.phase.OwnEdges

/-- All runs of the call are of other tasks. -/
def Avoids (taskId : String) (call : RunCall) : Prop := ∀ frame ∈ call.frames, frame.phase.Avoids taskId

theorem edgesTo_next (call : RunCall) :
    (call.next J o s).2.graph.edgesTo taskId agentId = s.graph.edgesTo taskId agentId := by
  obtain ⟨frames, result⟩ := call
  cases frames with
  | nil => rfl
  | cons top below => exact RunPhase.edgesTo_next top.phase

theorem OwnEdges.next (h : call.OwnEdges) : (call.next J o s).1.OwnEdges := by
  obtain ⟨frames, result⟩ := call
  cases frames with
  | nil => exact h
  | cons top below =>
    have hmove : (top.phase.next J top.timeoutOverride o s).1.Stays RunPhase.OwnEdges :=
      RunPhase.OwnEdges.next (h top List.mem_cons_self)
    have hbelow : ∀ frame ∈ below, frame.phase.OwnEdges := fun frame hmem => h frame (List.mem_cons_of_mem _ hmem)
    unfold RunCall.next OwnEdges
    dsimp only
    generalize (top.phase.next J top.timeoutOverride o s).1 = m at hmove
    cases m with
    | goto q => exact List.forall_mem_cons.mpr ⟨hmove, hbelow⟩
    | run i q => exact List.forall_mem_cons.mpr ⟨trivial, List.forall_mem_cons.mpr ⟨hmove, hbelow⟩⟩
    | ret r => exact hbelow

theorem Avoids.next (h : call.Avoids taskId) (hnew : o.newTaskId ≠ taskId) : (call.next J o s).1.Avoids taskId := by
  obtain ⟨frames, result⟩ := call
  cases frames with
  | nil => exact h
  | cons top below =>
    have htop : top.phase.Avoids taskId := h top List.mem_cons_self
    have hmove := RunPhase.next_lands J top.timeoutOverride s htop.created hnew
    have hbelow : ∀ frame ∈ below, frame.phase.Avoids taskId := fun frame hmem => h frame (List.mem_cons_of_mem _ hmem)
    unfold RunCall.next Avoids
    dsimp only
    generalize (top.phase.next J top.timeoutOverride o s).1 = m at hmove
    cases m with
    | goto q => exact List.forall_mem_cons.mpr ⟨⟨hmove.1.trans_ne htop.taskId, hmove.2⟩, hbelow⟩
    | run i q =>
      exact List.forall_mem_cons.mpr ⟨⟨hmove.1, by simp [RunPhase.created]⟩,
        List.forall_mem_cons.mpr ⟨⟨hmove.2.1.trans_ne htop.taskId, hmove.2.2⟩, hbelow⟩⟩
    | ret r => exact hbelow

theorem Avoids.not_creates (h : call.Avoids taskId) (hown : call.OwnEdges) : call.creates taskId agentId = false := by
  obtain ⟨frames, result⟩ := call
  cases frames with
  | nil => rfl
  | cons top below =>
    exact RunPhase.OwnEdges.not_creates (hown top List.mem_cons_self) (h top List.mem_cons_self).taskId

/-- The run that the call is of is the run of the task. -/
def Of (taskId : String) (call : RunCall) : Prop :=
  Rooted taskId (fun phase => phase.taskId = taskId ∧ phase.created ≠ some taskId) True call.frames

theorem of_start (taskId : String) (timeoutOverride : Option Nat) : (start taskId timeoutOverride).Of taskId :=
  ⟨rfl, by simp [RunPhase.created]⟩

theorem Of.next (h : call.Of taskId) (hnew : o.newTaskId ≠ taskId) : (call.next J o s).1.Of taskId := by
  refine Rooted.next (I := fun phase _ => phase.taskId = taskId ∧ phase.created ≠ some taskId)
    (K := fun phase _ => phase.taskId = taskId ∧ phase.created ≠ some taskId) (E := fun _ => True)
    (F := fun _ => True) (s := s) h hnew (fun _ _ _ _ hI => hI) (fun hE => hE) ?_
  rintro timeoutOverride phase - ⟨rfl, hcreated⟩
  exact RunPhase.next_lands J timeoutOverride s hcreated hnew

theorem pending_singleton (timeoutOverride : Option Nat) (result : Option (Except String Unit)) (edges : Nat) (m : Move) :
    (move timeoutOverride [] result m).pending agentId edges = m.pending agentId edges := by
  cases m with
  | goto q => rfl
  | run i q => rfl
  | ret r => rfl

theorem collected_singleton (timeoutOverride : Option Nat) (result : Option (Except String Unit)) (m : Move) :
    (move timeoutOverride [] result m).collected = m.collected := by
  cases m with
  | goto q => rfl
  | run i q => rfl
  | ret r => rfl

theorem getLast?_move (timeoutOverride : Option Nat) (frame : RunFrame) (below : List RunFrame)
    (result : Option (Except String Unit)) (m : Move) :
    (move timeoutOverride (frame :: below) result m).frames.getLast? = (frame :: below).getLast? := by
  cases m with
  | goto q => rfl
  | run i q => rfl
  | ret r => rfl

variable (agentId) in
theorem pending_next (h : call.Of taskId) (hown : call.OwnEdges)
    (hcompletes : call.collected = false → (call.next J o s).1.collected = true → call.collects = true) :
    call.pending agentId (s.graph.edgesTo taskId agentId) =
      (if call.creates taskId agentId then 1 else 0) +
        (call.next J o s).1.pending agentId (s.graph.edgesTo taskId agentId) := by
  obtain ⟨frames, result⟩ := call
  match frames with
  | [] => rfl
  | [⟨timeoutOverride, phase⟩] =>
    obtain ⟨rfl, -⟩ := h
    have hphase : phase.OwnEdges := hown _ List.mem_cons_self
    have hpaid : phase.pending agentId (s.graph.edgesTo phase.taskId agentId) =
        (if phase.creates phase.taskId agentId then 1 else 0) +
          (phase.next J timeoutOverride o s).1.pending agentId (s.graph.edgesTo phase.taskId agentId) := by
      refine RunPhase.pending_next hphase fun hbefore hafter => ?_
      exact hcompletes (by simp [collected, hbefore]) ((collected_singleton timeoutOverride result _).trans hafter)
    exact hpaid.trans (congrArg _ (pending_singleton timeoutOverride result _ _).symm)
  | top :: frame :: below =>
    have hcreates : RunCall.creates ⟨top :: frame :: below, result⟩ taskId agentId = false :=
      RunPhase.OwnEdges.not_creates (hown top List.mem_cons_self) h.1.taskId
    have hlast := getLast?_move top.timeoutOverride frame below result (top.phase.next J top.timeoutOverride o s).1
    rw [hcreates, if_neg Bool.false_ne_true, Nat.zero_add]
    exact (congrArg (Option.elim · _ _) hlast).symm

end Calls

end RunCall

end AgentHalo.Orchestrator
