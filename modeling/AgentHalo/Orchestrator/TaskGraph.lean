import AgentHalo.Lib.OrdMap
import AgentHalo.Lib.Worklist
import AgentHalo.Base.Scan

/-!
# The task graph

Tasks are the nodes of the graph, each with the agent that runs it. An edge pipes the result of a task to an agent, so
the edges also connect agents: the agent of the source task with the target. An edge is added unless a search over the
agents finds that its target already leads to its source.
-/

namespace AgentHalo.Orchestrator

open Text (trim)

inductive TaskStatus where
  | pending
  | running
  | complete
  | failed
  | timeout
deriving DecidableEq, Repr

inductive PipeTransform where
  | identity
  | claudeAnswer
  | jsonExtract (path : String)
  | addPrefix (text : String)
  | addSuffix (text : String)
  | chain (transforms : List PipeTransform)

structure TaskNode where
  taskId : String
  agentId : String
  status : TaskStatus
  dependsOn : List String

structure TaskEdge where
  sourceTaskId : String
  targetAgentId : String
  transform : PipeTransform
  generatedTaskId : Option String

structure TaskGraph where
  nodes : OrdMap String TaskNode
  edges : List TaskEdge

abbrev AgentGraph := OrdMap String (Std.ExtTreeSet String compare)

namespace AgentGraph

def insertEdge (graph : AgentGraph) (source target : String) : AgentGraph :=
  graph.insert source ((graph[source]?.getD ∅).insert target)

/-- The successors of an agent in ascending order. -/
def next (graph : AgentGraph) (agent : String) : List String :=
  match graph[agent]? with
  | some next => next.toList
  | none => []

def toGraph (graph : AgentGraph) : Worklist.Graph String where
  nodes := (graph.toList.map (·.1)).toFinset
  next := graph.next
  next_eq_nil agent h := by
    have hnone : graph[agent]? = none := by
      rw [Option.eq_none_iff_forall_not_mem]
      intro successors hsuccessors
      have hmem := Std.ExtTreeMap.mem_toList_iff_getElem?_eq_some.mpr hsuccessors
      exact h (List.mem_toFinset.mpr (List.mem_map.mpr ⟨_, hmem, rfl⟩))
    unfold next
    rw [hnone]

end AgentGraph

namespace TaskGraph

def empty : TaskGraph := ⟨∅, []⟩

/-- The agent of a task that is there stays. -/
def upsertNode (graph : TaskGraph) (taskId agentId : String) (status : TaskStatus) : TaskGraph :=
  let entry := graph.nodes[taskId]?.getD { taskId, agentId, status, dependsOn := [] }
  { graph with nodes := graph.nodes.insert taskId { entry with status } }

def setGeneratedTask (graph : TaskGraph) (sourceTaskId targetAgentId taskId : String) : TaskGraph :=
  { graph with
    edges := graph.edges.map fun edge =>
      if edge.sourceTaskId = sourceTaskId ∧ edge.targetAgentId = targetAgentId then
        { edge with generatedTaskId := some taskId }
      else edge }

def outgoingFor (graph : TaskGraph) (sourceTaskId : String) : List TaskEdge :=
  graph.edges.filter fun edge => edge.sourceTaskId = sourceTaskId

/-- The agents with one edge more; an edge without a source is skipped. -/
def collectEdge (graph : TaskGraph) (agents : AgentGraph) (edge : TaskEdge) : AgentGraph :=
  match graph.nodes[edge.sourceTaskId]? with
  | none => agents
  | some sourceNode => agents.insertEdge sourceNode.agentId edge.targetAgentId

/-- The agents that the edges lead to, by the agent they come from. -/
def agentGraph (graph : TaskGraph) : AgentGraph := graph.edges.foldl graph.collectEdge ∅

/-- A new edge introduces a cycle if its target can already reach its source. -/
def agentWouldCycle (graph : TaskGraph) (sourceAgent targetAgent : String) : Bool :=
  if sourceAgent = targetAgent then true
  else Worklist.search (graph.agentGraph.insertEdge sourceAgent targetAgent).toGraph sourceAgent ∅ [targetAgent]

def addEdge (graph : TaskGraph) (edge : TaskEdge) : Except String Unit × TaskGraph :=
  if trim edge.sourceTaskId = "" then (.error "source_task_id must not be empty", graph)
  else if trim edge.targetAgentId = "" then (.error "target_agent_id must not be empty", graph)
  else
    match graph.nodes[edge.sourceTaskId]? with
    | none => (.error ("unknown source_task_id " ++ edge.sourceTaskId), graph)
    | some sourceNode =>
      if sourceNode.agentId = edge.targetAgentId then (.error "pipe edge would introduce a cycle", graph)
      else if graph.agentWouldCycle sourceNode.agentId edge.targetAgentId then
        (.error "pipe edge would introduce a cycle", graph)
      else (.ok (), { graph with edges := graph.edges ++ [edge] })

end TaskGraph

end AgentHalo.Orchestrator

/-!
## Pipe transforms

What an edge does to the result of its source before the target's agent gets it as a task.
-/

namespace AgentHalo.Orchestrator

open Text

/-- A `serde_json::Value` and what a path needs of it. -/
structure JsonValues where
  Value : Type
  fromStr : String → Option Value
  getField : Value → String → Option Value
  getIndex : Value → Nat → Option Value
  asStr : Value → Option String
  toString : Value → String

namespace JsonValues

variable (J : JsonValues)

/-- One part of a path: a field, or a field and an index into it. -/
def descend (cur : J.Value) (part : String) : Option J.Value :=
  if part = "" then some cur
  else
    match splitOnce '[' part with
    | some (name, idxRaw) => do
      let field ← J.getField cur name
      let idx ← (stripSuffix ']' idxRaw).bind parseU64
      J.getIndex field idx.toNat
    | none => J.getField cur part

def jsonExtract (input path : String) : Option String := do
  let value ← J.fromStr input
  let parts := (((trim path).toList.dropWhile (· == '.')).splitOn '.').map String.ofList
  let cur ← parts.foldlM J.descend value
  return (J.asStr cur).getD (J.toString cur)

end JsonValues

namespace PipeTransform

def parseBase (base : String) : Except String PipeTransform :=
  if base = "" || eqIgnoreAsciiCase base "identity" then .ok .identity
  else if eqIgnoreAsciiCase base "claude_answer" || eqIgnoreAsciiCase base "assistant_answer" then .ok .claudeAnswer
  else
    match stripPrefix base "json_extract:", stripPrefix base "prefix:", stripPrefix base "suffix:" with
    | some path, _, _ => .ok (.jsonExtract (trim path))
    | none, some text, _ => .ok (.addPrefix text)
    | none, none, some text => .ok (.addSuffix text)
    | none, none, none => .error ("unknown pipe transform '" ++ base ++ "'")

def parse (raw taskPrefix : Option String) : Except String PipeTransform :=
  (parseBase (trim (raw.getD "identity"))).map fun transform =>
    match taskPrefix.filter (· ≠ "") with
    | some text => .chain [.addPrefix text, transform]
    | none => transform

mutual

def applyWithAnswer (J : JsonValues) (answer : Option String) : PipeTransform → String → String
  | .identity, input => input
  | .claudeAnswer, input => ((answer.map trim).filter (· ≠ "")).getD input
  | .jsonExtract path, input => (J.jsonExtract input path).getD input
  | .addPrefix text, input => text ++ input
  | .addSuffix text, input => input ++ text
  | .chain transforms, input => applyChain J answer transforms input

def applyChain (J : JsonValues) (answer : Option String) : List PipeTransform → String → String
  | [], acc => acc
  | transform :: rest, acc => applyChain J answer rest (applyWithAnswer J answer transform acc)

end

end PipeTransform

end AgentHalo.Orchestrator
