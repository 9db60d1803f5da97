import AgentHalo.Orchestrator.Piping

/-!
# How often a pipe fires

The run of the source creates the follow-ups that it collects, and the pipe creates one if it read that the source was
complete. Counted over both calls, one follow-up is created for the edge exactly when the pipe adds it in time. There are
runs in which none is created, and runs in which two are.
-/

namespace AgentHalo.Orchestrator

open Run

/-! ### The two calls together -/

section Together

variable {J : JsonValues} {req : PipeRequest} {o : Outside} {s : OrchestratorInner} {c : Piping}
  {action : Party × Outside}

namespace PipePhase

def past : PipePhase → Bool
  | read _ | addEdge _ _ => false
  | _ => true

/-- How many follow-ups the pipe creates from a phase on at which it has added its edge. -/
def pending : PipePhase → Nat
  | submit _ _ => 1
  | _ => 0

/-- The task that the pipe runs is another one. -/
def Avoids (taskId : String) : PipePhase → Prop
  | upsertSubmitted submitted => submitted.taskId ≠ taskId
  | run _ call => call.Avoids taskId ∧ call.OwnEdges
  | _ => True

variable {phase : PipePhase}

theorem past_of_succeeded (h : phase.succeeded = true) : phase.past = true := by
  cases phase with
  | returned result => rfl
  | _ => cases h

theorem pending_of_succeeded (h : phase.succeeded = true) : phase.pending = 0 := by
  cases phase with
  | returned result => rfl
  | _ => cases h

theorem past_next (h : phase.past = true) : (req.next J o s phase).1.past = true := by
  cases phase with
  | run submitted call =>
    unfold PipeRequest.next
    dsimp only
    split <;> rfl
  | read | addEdge => cases h
  | _ => rfl

theorem past_addEdge (source : Task) (transform : PipeTransform) :
    (req.next J o s (addEdge source transform)).1.past = true := by
  unfold PipeRequest.next
  dsimp only
  split
  · rfl
  · dsimp only
    split <;> rfl

theorem Avoids.next (h : phase.Avoids req.sourceTaskId) (hnew : o.newTaskId ≠ req.sourceTaskId) :
    (req.next J o s phase).1.Avoids req.sourceTaskId := by
  cases phase with
  | read transform =>
    unfold PipeRequest.next
    dsimp only
    split <;> trivial
  | addEdge source transform =>
    unfold PipeRequest.next
    dsimp only
    split
    · trivial
    · dsimp only
      split <;> trivial
  | submit source transform => exact hnew
  | upsertSubmitted submitted =>
    refine ⟨List.forall_mem_singleton.mpr ⟨h, by simp [RunPhase.created]⟩, List.forall_mem_singleton.mpr trivial⟩
  | run submitted call =>
    have hcall := h.1.next (J := J) (s := s) hnew
    have hown : (call.next J o s).1.OwnEdges := h.2.next
    unfold PipeRequest.next
    dsimp only
    split
    · trivial
    · exact ⟨hcall, hown⟩
  | _ => trivial

theorem pending_next (h : phase.Avoids req.sourceTaskId) (hpast : phase.past = (req.next J o s phase).1.past) :
    phase.pending = (if phase.creates req then 1 else 0) + (req.next J o s phase).1.pending ∧
      (req.next J o s phase).2.graph.edgesTo req.sourceTaskId req.targetAgentId =
        s.graph.edgesTo req.sourceTaskId req.targetAgentId := by
  cases phase with
  | read transform =>
    unfold PipeRequest.next
    dsimp only
    cases s.tasks.get? req.sourceTaskId with
    | none => exact ⟨rfl, rfl⟩
    | some source => exact ⟨rfl, rfl⟩
  | addEdge source transform =>
    rw [past_addEdge] at hpast
    cases hpast
  | submit source transform => exact ⟨rfl, rfl⟩
  | upsertSubmitted submitted => exact ⟨rfl, rfl⟩
  | run submitted call =>
    refine ⟨?_, RunCall.edgesTo_next call⟩
    have hcreates : (PipePhase.run submitted call).creates req = false := h.1.not_creates h.2
    rw [hcreates, if_neg Bool.false_ne_true]
    unfold PipeRequest.next
    dsimp only
    split <;> rfl
  | finalTask submitted => exact ⟨rfl, rfl⟩
  | setGenerated final => exact ⟨rfl, TaskGraph.edgesTo_setGeneratedTask _ _ _ _⟩
  | returned result => exact ⟨rfl, rfl⟩

end PipePhase

namespace Piping

/-- The run is that of the source, and the pipe runs another task. -/
structure Sound (req : PipeRequest) (c : Piping) : Prop where
  run : c.run.Of req.sourceTaskId
  own : c.run.OwnEdges
  pipe : c.pipe.Avoids req.sourceTaskId

/-- How many follow-ups are created from here on, if the pipe adds no edge. -/
def pending (req : PipeRequest) (c : Piping) : Nat :=
  c.run.pending req.targetAgentId (c.inner.graph.edgesTo req.sourceTaskId req.targetAgentId) + c.pipe.pending

theorem Sound.start (req : PipeRequest) (timeoutOverride : Option Nat) (s₀ : OrchestratorInner) :
    (start req timeoutOverride s₀).Sound req where
  run := RunCall.of_start _ _
  own := List.forall_mem_singleton.mpr trivial
  pipe := by
    unfold Piping.start PipeRequest.start
    dsimp only
    split <;> trivial

theorem Sound.step (h : c.Sound req) (hnew : action.2.newTaskId ≠ req.sourceTaskId) :
    (c.step J req action).Sound req := by
  obtain ⟨party, o⟩ := action
  cases party with
  | run => exact ⟨h.run.next hnew, h.own.next, h.pipe⟩
  | pipe => exact ⟨h.run, h.own, h.pipe.next hnew⟩

theorem past_step (h : c.pipe.past = true) : (c.step J req action).pipe.past = true := by
  obtain ⟨party, o⟩ := action
  cases party with
  | run => exact h
  | pipe => exact PipePhase.past_next h

theorem Sound.pending_step (h : c.Sound req) (hcompletes : c.Completes J action)
    (hpast : c.pipe.past = (c.step J req action).pipe.past) :
    c.pending req = (if c.creates req action then 1 else 0) + (c.step J req action).pending req := by
  obtain ⟨party, o⟩ := action
  cases party with
  | run =>
    have hpaid := RunCall.pending_next (J := J) (o := o) (s := c.inner) req.targetAgentId h.run h.own
      (hcompletes rfl)
    have hedges : (c.run.next J o c.inner).2.graph.edgesTo req.sourceTaskId req.targetAgentId =
        c.inner.graph.edgesTo req.sourceTaskId req.targetAgentId := RunCall.edgesTo_next c.run
    unfold Piping.pending Piping.creates Piping.step
    dsimp only
    rw [hedges, hpaid]
    omega
  | pipe =>
    obtain ⟨hpaid, hedges⟩ := PipePhase.pending_next (J := J) (o := o) (s := c.inner) h.pipe hpast
    unfold Piping.pending Piping.creates Piping.step
    dsimp only
    rw [hedges, hpaid]
    omega

end Piping

theorem TaskGraph.edgesTo_addEdge {graph : TaskGraph} {transform : PipeTransform}
    (h : (graph.addEdge (req.edge transform)).1 = .ok ()) :
    (graph.addEdge (req.edge transform)).2.edgesTo req.sourceTaskId req.targetAgentId =
      graph.edgesTo req.sourceTaskId req.targetAgentId + 1 := by
  obtain ⟨node, -, -, heq⟩ := TaskGraph.addEdge_ok h
  rw [heq]
  unfold TaskGraph.edgesTo TaskGraph.withEdge
  simp [PipeRequest.edge]

theorem RunCall.pending_succ (call : RunCall) (agentId : String) (edges : Nat) :
    call.pending agentId (edges + 1) = call.pending agentId edges + (if call.collected then 0 else 1) := by
  unfold RunCall.pending RunCall.collected
  cases call.frames.getLast? with
  | none => rfl
  | some bottom =>
    show bottom.phase.pending agentId (edges + 1) = bottom.phase.pending agentId edges +
      if bottom.phase.collected then 0 else 1
    unfold RunPhase.pending
    split
    · rfl
    · rfl

namespace Piping

theorem returned_exec {result : Except String (Option Task)} (h : c.pipe = .returned result)
    (actions : List (Party × Outside)) : (exec (step J req) c actions).pipe = .returned result := by
  refine exec_invariant (I := fun c : Piping => c.pipe = .returned result) ?_ h actions
  rintro c ⟨party, o⟩ hpipe
  cases party with
  | run => exact hpipe
  | pipe =>
    unfold Piping.step
    dsimp only
    rw [hpipe]
    rfl

variable {actions : List (Party × Outside)}

theorem exists_addEdge (h : c.pipe.past = false) (hpipe : (exec (step J req) c actions).pipe.succeeded = true) :
    ∃ front o back source transform, actions = front ++ (.pipe, o) :: back ∧
      (exec (step J req) c front).pipe = .addEdge source transform ∧
      ((exec (step J req) c front).inner.graph.addEdge (req.edge transform)).1 = .ok () := by
  obtain ⟨front, ⟨party, o⟩, back, rfl, hbefore, hafter⟩ := exists_turn (P := fun c : Piping => c.pipe.past = true)
    (by rw [h]; exact Bool.false_ne_true) (PipePhase.past_of_succeeded hpipe)
  rw [exec_append, exec_cons] at hpipe
  have hfails (e : String) : (step J req (exec (step J req) c front) (party, o)).pipe ≠ .returned (.error e) := by
    intro hreturned
    rw [returned_exec hreturned] at hpipe
    cases hpipe
  cases party with
  | run => exact absurd hafter hbefore
  | pipe =>
    refine ⟨front, o, back, ?_⟩
    generalize exec (step J req) c front = d at hbefore hafter hfails ⊢
    unfold Piping.step at hfails hafter
    dsimp only at hfails hafter
    cases hphase : d.pipe with
    | read transform =>
      rw [hphase] at hfails hafter
      unfold PipeRequest.next at hfails hafter
      dsimp only at hfails hafter
      cases hget : d.inner.tasks.get? req.sourceTaskId with
      | none =>
        rw [hget] at hfails
        exact absurd rfl (hfails _)
      | some source =>
        rw [hget] at hafter
        cases hafter
    | addEdge source transform =>
      refine ⟨source, transform, rfl, rfl, ?_⟩
      rw [hphase] at hfails
      unfold PipeRequest.next at hfails
      dsimp only at hfails
      cases hadd : d.inner.graph.addEdge (req.edge transform) with
      | mk answer graph =>
        rw [hadd] at hfails
        cases answer with
        | error e => exact absurd rfl (hfails e)
        | ok => rfl
    | _ =>
      rw [hphase] at hbefore
      exact absurd rfl hbefore

/-- Adding the edge: a run that has not looked will create its follow-up, and so will a pipe that has read that the source
is complete. -/
theorem pending_addEdge {source : Task} {transform : PipeTransform} (hphase : c.pipe = .addEdge source transform)
    (hadd : (c.inner.graph.addEdge (req.edge transform)).1 = .ok ()) :
    (c.step J req (.pipe, o)).pending req =
      c.pending req + (if c.run.collected then 0 else 1) + (if source.status = .complete then 1 else 0) := by
  have hedges := TaskGraph.edgesTo_addEdge hadd
  unfold Piping.pending Piping.step
  dsimp only
  rw [hphase]
  unfold PipeRequest.next
  dsimp only
  cases hanswer : c.inner.graph.addEdge (req.edge transform) with
  | mk answer graph =>
    rw [hanswer] at hadd hedges
    obtain rfl : answer = .ok () := hadd
    dsimp only at hedges ⊢
    rw [hedges, RunCall.pending_succ]
    by_cases hstatus : source.status = .complete
    · rw [if_pos hstatus, if_pos hstatus]
      rfl
    · rw [if_neg hstatus, if_neg hstatus]
      rfl

theorem Sound.pending_exec (h : c.Sound req) (hnew : ∀ action ∈ actions, action.2.newTaskId ≠ req.sourceTaskId)
    (hcompletes : Along (Piping.step J req) (Completes J) c actions)
    (hpast : Along (Piping.step J req) (fun c action => c.pipe.past = (c.step J req action).pipe.past) c actions) :
    (exec (Piping.step J req) c actions).Sound req ∧
      c.pending req = tally (Piping.step J req) (creates req) c actions + (exec (Piping.step J req) c actions).pending req := by
  have hguard := along_and (hcompletes.and_mem hnew) hpast
  have hsound (c : Piping) (action : Party × Outside) (hc : c.Sound req)
      (hnew : action.2.newTaskId ≠ req.sourceTaskId) : (c.step J req action).Sound req := hc.step hnew
  constructor
  · exact exec_invariant_along (I := Sound req) (fun c action hc hG => hsound c action hc hG.1.2) h hguard
  · exact eq_tally_add (fun c action hc hG => ⟨hsound c action hc hG.1.2, hc.pending_step hG.1.1 hG.2⟩) h hguard

theorem along_timely_of_past
    (hpast : Along (step J req) (fun c action => c.pipe.past = (c.step J req action).pipe.past) c actions) :
    Along (step J req) Timely c actions := by
  rw [along_iff] at hpast ⊢
  intro front action back hactions
  have hsame := hpast front action back hactions
  generalize exec (step J req) c front = d at hsame
  obtain ⟨party, o⟩ := action
  cases party with
  | run => trivial
  | pipe =>
    unfold Timely
    cases hphase : d.pipe with
    | addEdge source transform =>
      unfold Piping.step at hsame
      dsimp only at hsame
      rw [hphase, PipePhase.past_addEdge] at hsame
      cases hsame
    | _ => trivial

/-- The actions interleave a call of the pipe, which succeeds, with the run of its source, which completes. -/
structure Interleaves (J : JsonValues) (req : PipeRequest) (timeoutOverride : Option Nat) (s₀ : OrchestratorInner)
    (actions : List (Party × Outside)) : Prop where
  fresh : ∀ action ∈ actions, action.2.newTaskId ≠ req.sourceTaskId
  completes : Along (step J req) (Completes J) (start req timeoutOverride s₀) actions
  returned : (exec (step J req) (start req timeoutOverride s₀) actions).run.frames = []
  succeeded : (exec (step J req) (start req timeoutOverride s₀) actions).pipe.succeeded = true

/-- Exactly one follow-up is created for the edge that the pipe adds, over those for edges that were there, if and only if
the pipe adds it in time. -/
theorem fires_once_iff_timely {timeoutOverride : Option Nat} {s₀ : OrchestratorInner}
    {actions : List (Party × Outside)} (h : Interleaves J req timeoutOverride s₀ actions) :
    tally (step J req) (creates req) (start req timeoutOverride s₀) actions =
        s₀.graph.edgesTo req.sourceTaskId req.targetAgentId + 1 ↔
      Along (step J req) Timely (start req timeoutOverride s₀) actions := by
  obtain ⟨hnew, hcompletes, hrun, hpipe⟩ := h
  have hstart : (start req timeoutOverride s₀).pipe.past = false ∧
      (start req timeoutOverride s₀).pending req = s₀.graph.edgesTo req.sourceTaskId req.targetAgentId := by
    cases hparse : PipeTransform.parse req.transform req.taskPrefix with
    | error e =>
      have hreturned : (start req timeoutOverride s₀).pipe = .returned (.error e) := by
        unfold Piping.start PipeRequest.start
        rw [hparse]
      rw [returned_exec hreturned] at hpipe
      cases hpipe
    | ok transform =>
      have hread : (start req timeoutOverride s₀).pipe = .read transform := by
        unfold Piping.start PipeRequest.start
        rw [hparse]
      unfold Piping.pending
      rw [hread]
      exact ⟨rfl, rfl⟩
  obtain ⟨front, o, back, source, transform, rfl, hphase, hadd⟩ := exists_addEdge hstart.1 hpipe
  obtain ⟨hcompletes₁, hadding, hcompletes₂⟩ := along_append.mp hcompletes
  -- Up to the edge the pipe is not past it, and afterwards it is.
  have hbefore : Along (step J req) (fun c action => c.pipe.past = (c.step J req action).pipe.past)
      (start req timeoutOverride s₀) front := by
    refine along_iff.mpr fun before action after hfront => ?_
    have hnever : Along (step J req) (fun c action => ¬ (c.step J req action).pipe.past = true)
        (start req timeoutOverride s₀) front :=
      along_of_not_exec (P := fun c : Piping => c.pipe.past = true) (fun _ _ => past_step)
        (by rw [hphase]; exact Bool.false_ne_true)
    have hnot := along_iff.mp hnever before action after hfront
    rw [Bool.eq_false_iff.mpr hnot, Bool.eq_false_iff.mpr fun hpast => hnot (past_step hpast)]
  obtain ⟨hsound, hpaid₁⟩ := (Sound.start req timeoutOverride s₀).pending_exec
    (fun action hmem => hnew action (List.mem_append_left _ hmem)) hcompletes₁ hbefore
  have hjump := pending_addEdge (J := J) (o := o) hphase hadd
  have hnotCreates : (exec (step J req) (start req timeoutOverride s₀) front).creates req (.pipe, o) = false := by
    unfold Piping.creates
    dsimp only
    rw [hphase]
    rfl
  have hnewPipe : (Party.pipe, o).2.newTaskId ≠ req.sourceTaskId := hnew (.pipe, o) (by simp)
  have hstepSound := hsound.step (J := J) hnewPipe
  rw [exec_append, exec_cons] at hrun hpipe
  rw [along_append, Along, tally_append, tally, hnotCreates, if_neg Bool.false_ne_true]
  have htimely : Timely (exec (step J req) (start req timeoutOverride s₀) front) (.pipe, o) ↔
      (source.status = .complete ↔
        (exec (step J req) (start req timeoutOverride s₀) front).run.collected = true) := by
    unfold Timely
    dsimp only
    rw [hphase]
  generalize exec (step J req) (start req timeoutOverride s₀) front = d at *
  have hpast : (d.step J req (.pipe, o)).pipe.past = true := by
    unfold Piping.step
    dsimp only
    rw [hphase]
    exact PipePhase.past_addEdge source transform
  have hafter : Along (step J req) (fun c action => c.pipe.past = (c.step J req action).pipe.past)
      (d.step J req (.pipe, o)) back := by
    refine along_iff.mpr fun before action after _ => ?_
    have hkept : (exec (step J req) (d.step J req (.pipe, o)) before).pipe.past = true :=
      exec_invariant (I := fun c : Piping => c.pipe.past = true) (fun _ _ => past_step) hpast before
    rw [hkept, past_step hkept]
  obtain ⟨-, hpaid₂⟩ := hstepSound.pending_exec
    (fun action hmem => hnew action (List.mem_append_right _ (List.mem_cons_of_mem _ hmem))) hcompletes₂ hafter
  have hend : (exec (step J req) (d.step J req (.pipe, o)) back).pending req = 0 := by
    unfold Piping.pending RunCall.pending
    rw [hrun, PipePhase.pending_of_succeeded hpipe]
    rfl
  rw [htimely, and_iff_left (along_timely_of_past hafter), and_iff_right (along_timely_of_past hbefore)]
  by_cases hcollected : d.run.collected = true <;> by_cases hstatus : source.status = .complete <;>
    simp only [hcollected, hstatus, if_true, if_false, iff_true, iff_false, not_true, Bool.false_eq_true] at hjump ⊢ <;>
    omega

end Piping

end Together

/-! ### The two orders that fail -/

section Orders

/-- Two idle agents, and a task running on the first. -/
def pipedState : OrchestratorInner :=
  sampleState ((KeyedMap.empty.put sampleAgent).put { sampleAgent with agentId := "agent-2" })

def sampleRequest : PipeRequest := ⟨"task-1", "agent-2", none, none⟩

def samplePiping : Piping := .start sampleRequest none pipedState

namespace Piping

/-- The pipe is about to add the first edge of the graph. -/
def addsFirst (c : Piping) : Bool :=
  match c.pipe with
  | .addEdge _ _ => c.inner.graph.edges.isEmpty ∧ c.inner.graph.nodes["task-1"]?.map (·.agentId) = some "agent-1"
  | _ => false

def adding (c : Piping) : Piping :=
  match c.pipe with
  | .addEdge source transform =>
    { c with
      pipe := if source.status = .complete then .submit source transform else .returned (.ok none)
      inner := { c.inner with graph := c.inner.graph.withEdge (sampleRequest.edge transform) } }
  | _ => c

variable {c : Piping} {o : Outside}

theorem step_addsFirst (h : c.addsFirst = true) : c.step noJson sampleRequest (.pipe, o) = c.adding := by
  obtain ⟨run, pipe, inner⟩ := c
  cases pipe with
  | addEdge source transform =>
    obtain ⟨hedges, hagent⟩ : inner.graph.edges.isEmpty = true ∧
      inner.graph.nodes["task-1"]?.map (·.agentId) = some "agent-1" := of_decide_eq_true h
    obtain ⟨node, hnode, hid⟩ := Option.map_eq_some_iff.mp hagent
    have hacyclic : ¬ inner.graph.agentWouldCycle node.agentId "agent-2" = true := by
      rw [TaskGraph.agentWouldCycle_iff]
      intro hpath
      have hno (a b : String) : ¬ inner.graph.agentEdge a b := by
        unfold TaskGraph.agentEdge
        simp [List.isEmpty_iff.mp hedges]
      cases hpath.cases_head with
      | inl heq => simp [hid] at heq
      | inr hstep =>
        obtain ⟨next, hnext, -⟩ := hstep
        exact hno _ _ hnext
    have hadd : inner.graph.addEdge (sampleRequest.edge transform) =
        (.ok (), inner.graph.withEdge (sampleRequest.edge transform)) := by
      have hids : Text.trim "task-1" ≠ "" ∧ Text.trim "agent-2" ≠ "" := by decide
      have hsource : (sampleRequest.edge transform).sourceTaskId = "task-1" := rfl
      have htarget : (sampleRequest.edge transform).targetAgentId = "agent-2" := rfl
      rw [TaskGraph.addEdge_of_known (hsource ▸ hids.1) (htarget ▸ hids.2) (hsource ▸ hnode), htarget,
        if_neg hacyclic]
    unfold Piping.step PipeRequest.next adding
    dsimp only
    rw [hadd]
  | _ => cases h

theorem not_creates_addsFirst (h : c.addsFirst = true) : c.creates sampleRequest (.pipe, o) = false := by
  obtain ⟨run, pipe, inner⟩ := c
  cases pipe with
  | addEdge source transform => rfl
  | _ => cases h

theorem exec_addsFirst {front : List (Party × Outside)} (back : List (Party × Outside))
    (h : (exec (step noJson sampleRequest) samplePiping front).addsFirst = true) :
    exec (step noJson sampleRequest) samplePiping (front ++ (.pipe, o) :: back) =
      exec (step noJson sampleRequest) (exec (step noJson sampleRequest) samplePiping front).adding back := by
  rw [exec_append, exec_cons, step_addsFirst h]

theorem tally_addsFirst {front : List (Party × Outside)} (back : List (Party × Outside))
    (h : (exec (step noJson sampleRequest) samplePiping front).addsFirst = true) :
    tally (step noJson sampleRequest) (creates sampleRequest) samplePiping (front ++ (.pipe, o) :: back) =
      tally (step noJson sampleRequest) (creates sampleRequest) samplePiping front +
        tally (step noJson sampleRequest) (creates sampleRequest)
          (exec (step noJson sampleRequest) samplePiping front).adding back := by
  rw [tally_append, tally, step_addsFirst h, not_creates_addsFirst h, if_neg Bool.false_ne_true, Nat.zero_add]

theorem completes_addsFirst {front back : List (Party × Outside)}
    (h : (exec (step noJson sampleRequest) samplePiping front).addsFirst = true)
    (hfront : Along (step noJson sampleRequest) (Completes noJson) samplePiping front)
    (hback : Along (step noJson sampleRequest) (Completes noJson)
      (exec (step noJson sampleRequest) samplePiping front).adding back) :
    Along (step noJson sampleRequest) (Completes noJson) samplePiping (front ++ (.pipe, o) :: back) := by
  refine along_append.mpr ⟨hfront, (fun hparty => by cases hparty), ?_⟩
  rw [step_addsFirst h]
  exact hback

end Piping

variable {o : Outside}

theorem interleaves_addsFirst {front back : List (Party × Outside)}
    (h : (exec (Piping.step noJson sampleRequest) samplePiping front).addsFirst = true)
    (hnew : ∀ action ∈ front ++ (.pipe, o) :: back, action.2.newTaskId ≠ "task-1")
    (hfront : Along (Piping.step noJson sampleRequest) (Piping.Completes noJson) samplePiping front)
    (hback : Along (Piping.step noJson sampleRequest) (Piping.Completes noJson)
      (exec (Piping.step noJson sampleRequest) samplePiping front).adding back)
    (hreturned : (exec (Piping.step noJson sampleRequest)
      (exec (Piping.step noJson sampleRequest) samplePiping front).adding back).run.frames.length = 0)
    (hsucceeded : (exec (Piping.step noJson sampleRequest)
      (exec (Piping.step noJson sampleRequest) samplePiping front).adding back).pipe.succeeded = true) :
    Piping.Interleaves noJson sampleRequest none pipedState (front ++ (.pipe, o) :: back) where
  fresh := hnew
  completes := Piping.completes_addsFirst h hfront hback
  returned := (congrArg (·.run.frames) (Piping.exec_addsFirst back h)).trans (List.eq_nil_of_length_eq_zero hreturned)
  succeeded := (congrArg (·.pipe.succeeded) (Piping.exec_addsFirst back h)).trans hsucceeded

def pipeSection : Party × Outside := (.pipe, { sampleOutside with newTaskId := "task-3" })

def runSection : Party × Outside := (.run, sampleOutside)

/-- The pipe reads that the source runs and adds the edge, and the run collects its follow-ups later. -/
def promptEdge : List (Party × Outside) := [pipeSection] ++ pipeSection :: List.replicate 40 runSection

theorem promptEdge_interleaves : Piping.Interleaves noJson sampleRequest none pipedState promptEdge :=
  interleaves_addsFirst (by decide) (by decide) (by decide) (by decide)
    (by decide) (by decide)

theorem fires_once_iff_timely_promptEdge :
    tally (Piping.step noJson sampleRequest) (Piping.creates sampleRequest) (.start sampleRequest none pipedState)
        promptEdge = pipedState.graph.edgesTo "task-1" "agent-2" + 1 ↔
      Along (Piping.step noJson sampleRequest) Piping.Timely (.start sampleRequest none pipedState) promptEdge :=
  Piping.fires_once_iff_timely promptEdge_interleaves

/-- The pipe reads that the source runs, and adds the edge after the run has collected its follow-ups. -/
def lateEdge : List (Party × Outside) :=
  ([pipeSection] ++ List.replicate 8 runSection) ++ pipeSection :: List.replicate 3 runSection

/-- The pipe reads that the source is complete, and adds the edge before the run collects its follow-ups. -/
def hastyEdge : List (Party × Outside) :=
  (List.replicate 7 runSection ++ [pipeSection]) ++
    pipeSection :: (List.replicate 30 runSection ++ List.replicate 30 pipeSection)

theorem fires_never_and_twice :
    pipedState.graph.edgesTo "task-1" "agent-2" = 0 ∧
      (Piping.Interleaves noJson sampleRequest none pipedState lateEdge ∧
        tally (Piping.step noJson sampleRequest) (Piping.creates sampleRequest) (.start sampleRequest none pipedState)
          lateEdge = 0) ∧
      (Piping.Interleaves noJson sampleRequest none pipedState hastyEdge ∧
        tally (Piping.step noJson sampleRequest) (Piping.creates sampleRequest) (.start sampleRequest none pipedState)
          hastyEdge = 2) := by
  refine ⟨rfl, ⟨?_, ?_⟩, ?_, ?_⟩
  · exact interleaves_addsFirst (by decide) (by decide) (by decide) (by decide)
      (by decide) (by decide)
  · exact (Piping.tally_addsFirst _ (by decide)).trans (by decide)
  · exact interleaves_addsFirst (by decide) (by decide) (by decide) (by decide)
      (by decide +kernel) (by decide +kernel)
  · exact (Piping.tally_addsFirst _ (by decide +kernel)).trans (by decide +kernel)

end Orders

end AgentHalo.Orchestrator
