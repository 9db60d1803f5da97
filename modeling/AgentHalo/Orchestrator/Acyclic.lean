import AgentHalo.Lib.Run
import AgentHalo.Orchestrator.TaskGraph

/-!
# The task graph has no cycles

Two facts are carried through every order of calls: the source of an edge is a known task, and the relation that the
edges induce on the agents has no cycle (`WellFormed`). A task that is known keeps its agent, so later tasks do not move
an edge; and an edge that is added closes no cycle because the search is exact (`agentWouldCycle_iff`).
-/

namespace AgentHalo.Orchestrator

open Relation (ReflTransGen TransGen)
open Text (trim)
open Worklist (Acyclic)

/-! ### The graph that is searched -/

namespace AgentGraph

theorem mem_next_insertEdge {graph : AgentGraph} {source target a b : String} :
    b ∈ (graph.insertEdge source target).next a ↔ b ∈ graph.next a ∨ a = source ∧ b = target := by
  unfold next insertEdge
  rw [OrdMap.get?_insert]
  by_cases h : source = a
  · subst h
    rw [if_pos rfl]
    simp only [Std.ExtTreeSet.mem_toList, Std.ExtTreeSet.mem_insert, Std.compare_eq_iff_eq, true_and]
    cases graph[source]? with
    | none => simp [eq_comm]
    | some successors => simp [eq_comm, or_comm]
  · rw [if_neg h]
    simp [Ne.symm h]

end AgentGraph

namespace TaskGraph

variable {graph : TaskGraph}

/-- Some edge leads from a task of the one agent to the other. -/
def agentEdge (graph : TaskGraph) (source target : String) : Prop :=
  ∃ edge ∈ graph.edges, ∃ node, graph.nodes[edge.sourceTaskId]? = some node ∧ node.agentId = source ∧
    edge.targetAgentId = target

theorem mem_next_agentGraph {a b : String} : b ∈ graph.agentGraph.next a ↔ graph.agentEdge a b := by
  have hfold (edges : List TaskEdge) (agents : AgentGraph) : b ∈ (edges.foldl graph.collectEdge agents).next a ↔
      b ∈ agents.next a ∨ ∃ edge ∈ edges, ∃ node, graph.nodes[edge.sourceTaskId]? = some node ∧ node.agentId = a ∧
        edge.targetAgentId = b := by
    induction edges generalizing agents with
    | nil => simp
    | cons edge rest ih =>
      rw [List.foldl_cons, ih, collectEdge]
      cases hnode : graph.nodes[edge.sourceTaskId]? with
      | none => simp [hnode]
      | some node =>
        rw [AgentGraph.mem_next_insertEdge]
        simp [hnode, or_assoc, eq_comm]
  have hempty : b ∉ (∅ : AgentGraph).next a := by simp [AgentGraph.next]
  unfold agentGraph agentEdge
  rw [hfold, or_iff_right hempty]

theorem agentWouldCycle_iff {source target : String} :
    graph.agentWouldCycle source target = true ↔ ReflTransGen graph.agentEdge target source := by
  unfold agentWouldCycle
  split
  · rename_i heq
    subst heq
    exact iff_of_true rfl .refl
  · have hedge : (graph.agentGraph.insertEdge source target).toGraph.edge =
        Worklist.addEdge graph.agentEdge source target := by
      funext a b
      exact propext (AgentGraph.mem_next_insertEdge.trans (or_congr mem_next_agentGraph Iff.rfl))
    rw [Worklist.search_eq_true_iff, hedge]
    simp only [List.mem_singleton, exists_eq_left]
    exact Worklist.reflTransGen_addEdge_iff

/-! ### One call -/

def withEdge (graph : TaskGraph) (edge : TaskEdge) : TaskGraph := { graph with edges := graph.edges ++ [edge] }

variable {edge : TaskEdge} {node : TaskNode}

theorem agentEdge_withEdge (h : graph.nodes[edge.sourceTaskId]? = some node) :
    (graph.withEdge edge).agentEdge = Worklist.addEdge graph.agentEdge node.agentId edge.targetAgentId := by
  funext a b
  simp only [agentEdge, withEdge, Worklist.addEdge, List.mem_append, List.mem_singleton, or_and_right, exists_or,
    exists_eq_left, h, Option.some.injEq, exists_eq_left']
  simp only [eq_comm]

structure WellFormed (graph : TaskGraph) : Prop where
  known : ∀ edge ∈ graph.edges, ∃ node, graph.nodes[edge.sourceTaskId]? = some node
  acyclic : Acyclic graph.agentEdge

theorem empty_wellFormed : empty.WellFormed where
  known edge h := absurd h List.not_mem_nil
  acyclic a h := by
    obtain ⟨b, ⟨edge, hedge, -⟩, -⟩ := TransGen.head'_iff.mp h
    exact List.not_mem_nil hedge

theorem agentEdge_upsertNode (h : graph.WellFormed) (taskId agentId : String) (status : TaskStatus) :
    (graph.upsertNode taskId agentId status).agentEdge = graph.agentEdge := by
  funext a b
  refine propext (exists_congr fun edge => and_congr_right fun hedge => ?_)
  obtain ⟨node, hnode⟩ := h.known edge hedge
  unfold upsertNode
  dsimp only
  rw [OrdMap.get?_insert]
  by_cases heq : taskId = edge.sourceTaskId
  · subst heq
    simp [hnode]
  · simp [heq, hnode]

theorem upsertNode_wellFormed (h : graph.WellFormed) (taskId agentId : String) (status : TaskStatus) :
    (graph.upsertNode taskId agentId status).WellFormed where
  known edge hedge := by
    obtain ⟨node, hnode⟩ := h.known edge hedge
    unfold upsertNode
    dsimp only
    rw [OrdMap.get?_insert]
    split
    · exact ⟨_, rfl⟩
    · exact ⟨node, hnode⟩
  acyclic := by
    rw [agentEdge_upsertNode h]
    exact h.acyclic

theorem addEdge_of_known (hsource : trim edge.sourceTaskId ≠ "") (htarget : trim edge.targetAgentId ≠ "")
    (hnode : graph.nodes[edge.sourceTaskId]? = some node) :
    graph.addEdge edge = if graph.agentWouldCycle node.agentId edge.targetAgentId then
      (.error "pipe edge would introduce a cycle", graph) else (.ok (), graph.withEdge edge) := by
  unfold addEdge withEdge
  rw [if_neg hsource, if_neg htarget, hnode]
  dsimp only
  split
  · rename_i heq
    rw [if_pos (agentWouldCycle_iff.mpr (heq ▸ .refl))]
  · rfl

theorem addEdge_error {e : String} (h : (graph.addEdge edge).1 = .error e) :
    (graph.addEdge edge).2 = graph := by
  unfold addEdge at h ⊢
  split
  · rfl
  · split
    · rfl
    · split
      · rfl
      · split
        · rfl
        · split
          · rfl
          · simp_all

theorem addEdge_ok (h : (graph.addEdge edge).1 = .ok ()) : ∃ node,
    graph.nodes[edge.sourceTaskId]? = some node ∧ ¬ ReflTransGen graph.agentEdge edge.targetAgentId node.agentId ∧
      (graph.addEdge edge).2 = graph.withEdge edge := by
  by_cases hsource : trim edge.sourceTaskId = ""
  · simp [addEdge, hsource] at h
  · by_cases htarget : trim edge.targetAgentId = ""
    · simp [addEdge, hsource, htarget] at h
    · cases hnode : graph.nodes[edge.sourceTaskId]? with
      | none => simp [addEdge, hsource, htarget, hnode] at h
      | some node =>
        rw [addEdge_of_known hsource htarget hnode] at h ⊢
        by_cases hcycle : graph.agentWouldCycle node.agentId edge.targetAgentId = true
        · simp [hcycle] at h
        · exact ⟨node, rfl, fun hpath => hcycle (agentWouldCycle_iff.mpr hpath), by rw [if_neg hcycle]⟩

theorem addEdge_wellFormed (h : graph.WellFormed) (edge : TaskEdge) : (graph.addEdge edge).2.WellFormed := by
  cases hanswer : (graph.addEdge edge).1 with
  | error e =>
    rw [addEdge_error hanswer]
    exact h
  | ok u =>
    obtain ⟨node, hnode, hpath, hgraph⟩ := addEdge_ok hanswer
    rw [hgraph]
    refine ⟨?_, ?_⟩
    · intro other hother
      obtain hother | rfl : other ∈ graph.edges ∨ other = edge := by simpa [withEdge] using hother
      · exact h.known other hother
      · exact ⟨node, hnode⟩
    · rw [agentEdge_withEdge hnode]
      exact (Worklist.acyclic_add_iff h.acyclic).mpr hpath

/-! ### Every order of calls -/

inductive Call where
  | upsertNode (taskId agentId : String) (status : TaskStatus)
  | addEdge (edge : TaskEdge)

def step (graph : TaskGraph) : Call → TaskGraph
  | .upsertNode taskId agentId status => graph.upsertNode taskId agentId status
  | .addEdge edge => (graph.addEdge edge).2

theorem step_wellFormed (graph : TaskGraph) (call : Call) (h : graph.WellFormed) : (graph.step call).WellFormed := by
  cases call with
  | upsertNode taskId agentId status => exact upsertNode_wellFormed h taskId agentId status
  | addEdge edge => exact addEdge_wellFormed h edge

/-- No order of calls makes a cycle, an edge is refused exactly when it would close one, and otherwise it is added. -/
theorem exec_acyclic (calls : List Call) :
    Acyclic (Run.exec step empty calls).agentEdge ∧
      ∀ edge, trim edge.sourceTaskId ≠ "" → trim edge.targetAgentId ≠ "" →
        (∃ node, (Run.exec step empty calls).nodes[edge.sourceTaskId]? = some node) →
        ((∃ e, ((Run.exec step empty calls).addEdge edge).1 = .error e) ↔
          ¬ Acyclic ((Run.exec step empty calls).withEdge edge).agentEdge) ∧
        (∀ e, ((Run.exec step empty calls).addEdge edge).1 = .error e →
          ((Run.exec step empty calls).addEdge edge).2 = Run.exec step empty calls) ∧
        (((Run.exec step empty calls).addEdge edge).1 = .ok () →
          ((Run.exec step empty calls).addEdge edge).2 = (Run.exec step empty calls).withEdge edge) := by
  have h : (Run.exec step empty calls).WellFormed := Run.exec_invariant step_wellFormed empty_wellFormed calls
  refine ⟨h.acyclic, fun edge hsource htarget ⟨node, hnode⟩ => ⟨?_, fun e => addEdge_error, fun hok => ?_⟩⟩
  case refine_2 =>
    obtain ⟨-, -, -, hadded⟩ := addEdge_ok hok
    exact hadded
  rw [agentEdge_withEdge hnode, Worklist.acyclic_add_iff h.acyclic, not_not, addEdge_of_known hsource htarget hnode,
    ← agentWouldCycle_iff]
  split <;> simp [*]

def twoTasks : TaskGraph := (empty.upsertNode "t1" "a1" .running).upsertNode "t2" "a2" .running

def forward : TaskEdge := ⟨"t1", "a2", .identity, none⟩

def back : TaskEdge := ⟨"t2", "a1", .identity, none⟩

theorem nodes_twoTasks : twoTasks.nodes["t1"]? = some ⟨"t1", "a1", .running, []⟩ ∧
    twoTasks.nodes["t2"]? = some ⟨"t2", "a2", .running, []⟩ := by
  simp only [twoTasks, upsertNode, OrdMap.get?_insert]
  exact ⟨rfl, rfl⟩

theorem twoTasks_addEdge : (twoTasks.addEdge forward).2 = twoTasks.withEdge forward := by
  have hfree : ¬ twoTasks.agentWouldCycle "a1" "a2" = true := by
    rw [agentWouldCycle_iff]
    intro hpath
    obtain heq | ⟨b, ⟨edge, hedge, -⟩, -⟩ := hpath.cases_head
    · exact absurd heq (by decide)
    · exact List.not_mem_nil hedge
  rw [addEdge_of_known (by decide) (by decide) nodes_twoTasks.1]
  exact congrArg Prod.snd (if_neg hfree)

theorem exec_acyclic_back :
    ∃ e, ((Run.exec step empty [.upsertNode "t1" "a1" .running, .upsertNode "t2" "a2" .running,
      .addEdge forward]).addEdge back).1 = .error e := by
  have hrun : Run.exec step empty [.upsertNode "t1" "a1" .running, .upsertNode "t2" "a2" .running, .addEdge forward] =
      twoTasks.withEdge forward := twoTasks_addEdge
  obtain ⟨hfirst, hsecond⟩ := nodes_twoTasks
  refine ((exec_acyclic _).2 back (by decide) (by decide) ?_).1.mpr ?_
  · rw [hrun]
    exact ⟨_, hsecond⟩
  · rw [hrun]
    exact fun h => h "a1" (.tail (.single ⟨forward, .head _, _, hfirst, rfl, rfl⟩)
      ⟨back, .tail _ (.head _), _, hsecond, rfl, rfl⟩)

end TaskGraph

end AgentHalo.Orchestrator
