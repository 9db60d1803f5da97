import AgentHalo.Pod.Provenance

/-!
# Walks with any resolver

A resolver need not be a function: it asks a store or a network, and may give another envelope each time. Here the walk of
a provenance graph carries the state of the resolver along, and writes down its own calls and the questions it asks. With
a resolver that is a function it is the walk of `verifyProvenanceDagWithOptions` (`verifyProvenanceDagAsking_pure`); with any
resolver it keeps to its budget (`walk_within_budget`).
-/

namespace AgentHalo.Pod

abbrev Resolver (P : Platform) (World : Type) := NodeHash → World → Option (ProofEnvelope P) × World

inductive WalkEvent where
  /-- `walk_provenance_ref` is called. -/
  | call (depth : Nat)
  | resolve (depth : Nat) (hash : NodeHash)
deriving DecidableEq

def WalkEvent.isResolve : WalkEvent → Bool
  | .call _ => false
  | .resolve _ _ => true

/-- A walk under way. -/
structure Walking (World : Type) where
  stats : DagWalkState
  world : World
  events : List WalkEvent

namespace Walking

variable {World : Type}

def note (w : Walking World) (event : WalkEvent) : Walking World := { w with events := w.events ++ [event] }

def withStats (w : Walking World) (stats : DagWalkState) : Walking World := { w with stats }

end Walking

section Walk

variable {P : Platform} {World : Type} (J : EnvelopeJson P) (resolve : Resolver P World)
  (options : ProvenanceDagVerifyOptions)

/-- A loop over the references of a node. -/
def walkEdgesAsking (visit : NodeHash → Walking World → Except String Unit × Walking World) :
    List EnvelopeRef → Walking World → Except String Unit × Walking World
  | [], w => (.ok (), w)
  | edge :: rest, w =>
    if w.stats.stopWalk then (.ok (), w)
    else
      match visit edge.envelopeHash w with
      | (.error e, w) => (.error e, w)
      | (.ok (), w) => walkEdgesAsking visit rest w

def walkProvenanceRefAsking (expectedHash : NodeHash) (depth : Nat) (path : List NodeHash) (before : Walking World) :
    Except String Unit × Walking World :=
  let w := before.note (.call depth)
  let stats := before.stats
  if stats.stopWalk then (.ok (), w)
  else if depth > options.maxDepth then
    (.ok (), w.withStats { stats with depthLimitExceeded := true, stopWalk := true })
  else if expectedHash ∈ path then (.ok (), w.withStats { stats.reach depth with cycleDetected := true })
  else if expectedHash ∈ stats.visited then (.ok (), w.withStats (stats.reach depth))
  else
    let entered := (stats.reach depth).enter expectedHash
    if entered.visited.card > options.maxNodes then
      (.ok (), w.withStats { entered with nodesLimitExceeded := true, stopWalk := true })
    else
      let answer := resolve expectedHash w.world
      let w : Walking World := { stats := entered, world := answer.2, events := w.events ++ [.resolve depth expectedHash] }
      match answer.1 with
      | none => (.ok (), w.withStats { entered with missingRefs := entered.missingRefs + 1 })
      | some envelope =>
        match envelope.provenanceHash J with
        | .error e => (.error e, w)
        | .ok actualHash =>
          if actualHash ≠ expectedHash ∧ options.failFastOnHashMismatch then
            (.ok (), w.withStats { entered with hashMismatches := entered.hashMismatches + 1, stopWalk := true })
          else
            let edges := canonicalUpstreamRefs envelope.upstreamEnvelopes
            walkEdgesAsking (fun hash => walkProvenanceRefAsking hash (depth + 1) (path ++ [expectedHash])) edges
              (w.withStats (entered.examine (actualHash = expectedHash) envelope.verifyLocally.accepted edges.length))
termination_by options.maxDepth + 1 - depth

/-- The answer of `verify_provenance_dag_with_options`, and the walk that led to it. -/
def ProofEnvelope.verifyProvenanceDagAsking (root : ProofEnvelope P) (world : World) :
    Except String ProvenanceDagVerification × Walking World :=
  let start : Walking World := { stats := .start root.upstreamEnvelopes.length, world, events := [] }
  match root.provenanceHash J with
  | .error e => (.error e, start)
  | .ok rootHash =>
    let rootAccepted := root.verifyLocally.accepted
    match walkEdgesAsking (fun hash => walkProvenanceRefAsking J resolve options hash 1 [rootHash])
      (canonicalUpstreamRefs root.upstreamEnvelopes) start with
    | (.error e, w) => (.error e, w)
    | (.ok (), w) =>
      (.ok
        { rootHash := hexEncode32 rootHash
          rootAccepted
          visitedNodes := w.stats.visited.card + 1
          upstreamEdges := w.stats.upstreamEdges
          maxDepthReached := w.stats.maxDepthReached
          missingRefs := w.stats.missingRefs
          hashMismatches := w.stats.hashMismatches
          invalidNodes := w.stats.invalidNodes
          cycleDetected := w.stats.cycleDetected
          depthLimitExceeded := w.stats.depthLimitExceeded
          nodesLimitExceeded := w.stats.nodesLimitExceeded
          accepted := rootAccepted && w.stats.unflagged }, w)

/-! ### Resolvers that are functions -/

section Pure

variable (find : NodeHash → Option (ProofEnvelope P))

def Resolver.pure : Resolver P World := fun hash world => (find hash, world)

/-- What the walk comes to, without what it carries along. -/
def settled (result : Except String Unit × Walking World) : Except String DagWalkState :=
  result.1.map fun _ => result.2.stats

variable {find J options}

theorem settled_walkEdgesAsking {visit : NodeHash → DagWalkState → Except String DagWalkState}
    {visit' : NodeHash → Walking World → Except String Unit × Walking World}
    (hvisit : ∀ hash w, settled (visit' hash w) = visit hash w.stats) (edges : List EnvelopeRef) (w : Walking World) :
    settled (walkEdgesAsking visit' edges w) = walkEdges visit edges w.stats := by
  induction edges generalizing w with
  | nil => rfl
  | cons edge rest ih =>
    rw [walkEdgesAsking, walkEdges]
    split_ifs
    · rfl
    · rw [← hvisit]
      obtain ⟨result, w'⟩ := visit' edge.envelopeHash w
      cases result with
      | error e => rfl
      | ok u => exact ih w'

theorem settled_walkProvenanceRefAsking (expectedHash : NodeHash) (depth : Nat) (path : List NodeHash)
    (w : Walking World) :
    settled (walkProvenanceRefAsking J (Resolver.pure find) options expectedHash depth path w) =
      walkProvenanceRef J find options expectedHash depth path w.stats := by
  induction hn : options.maxDepth + 1 - depth generalizing expectedHash depth path w with
  | zero =>
    have hdepth : depth > options.maxDepth := by omega
    rw [walkProvenanceRefAsking, walkProvenanceRef]
    dsimp only
    by_cases hstop : w.stats.stopWalk = true
    · rw [if_pos hstop, if_pos hstop]
      rfl
    · rw [if_neg hstop, if_neg hstop, if_pos hdepth, if_pos hdepth]
      rfl
  | succ n ih =>
    rw [walkProvenanceRefAsking, walkProvenanceRef]
    dsimp only [Resolver.pure]
    by_cases hstop : w.stats.stopWalk = true
    · rw [if_pos hstop, if_pos hstop]
      rfl
    rw [if_neg hstop, if_neg hstop]
    by_cases hdepth : depth > options.maxDepth
    · rw [if_pos hdepth, if_pos hdepth]
      rfl
    rw [if_neg hdepth, if_neg hdepth]
    by_cases hpath : expectedHash ∈ path
    · rw [if_pos hpath, if_pos hpath]
      rfl
    rw [if_neg hpath, if_neg hpath]
    by_cases hvisited : expectedHash ∈ w.stats.visited
    · rw [if_pos hvisited, if_pos hvisited]
      rfl
    rw [if_neg hvisited, if_neg hvisited]
    by_cases hfull : ((w.stats.reach depth).enter expectedHash).visited.card > options.maxNodes
    · rw [if_pos hfull, if_pos hfull]
      rfl
    rw [if_neg hfull, if_neg hfull]
    cases find expectedHash with
    | none => rfl
    | some envelope =>
      dsimp only
      cases envelope.provenanceHash J with
      | error e => rfl
      | ok actualHash =>
        dsimp only
        by_cases hfast : actualHash ≠ expectedHash ∧ options.failFastOnHashMismatch = true
        · rw [if_pos hfast, if_pos hfast]
          rfl
        rw [if_neg hfast, if_neg hfast]
        exact settled_walkEdgesAsking (fun hash w => ih hash (depth + 1) (path ++ [expectedHash]) w (by omega)) _ _

theorem verifyProvenanceDagAsking_pure (root : ProofEnvelope P) (world : World) :
    (root.verifyProvenanceDagAsking J (Resolver.pure find) options world).1 =
      root.verifyProvenanceDagWithOptions J find options := by
  unfold ProofEnvelope.verifyProvenanceDagAsking ProofEnvelope.verifyProvenanceDagWithOptions
  dsimp only
  cases root.provenanceHash J with
  | error e => rfl
  | ok rootHash =>
    dsimp only
    rw [← settled_walkEdgesAsking (fun hash w => settled_walkProvenanceRefAsking hash 1 [rootHash] w)
      (canonicalUpstreamRefs root.upstreamEnvelopes)
      { stats := .start root.upstreamEnvelopes.length, world, events := [] }]
    obtain ⟨result, w⟩ := walkEdgesAsking _ _ _
    cases result <;> rfl

end Pure

/-! ### The budget -/

/-- Each question was about a hash that was entered then, and there was room for it. -/
structure WithinBudget (options : ProvenanceDagVerifyOptions) (w : Walking World) : Prop where
  resolved : (w.events.filter WalkEvent.isResolve).length ≤ w.stats.visited.card
  nodes : (w.events.filter WalkEvent.isResolve).length ≤ options.maxNodes
  resolves : ∀ depth hash, .resolve depth hash ∈ w.events → depth ≤ options.maxDepth
  calls : ∀ depth, .call depth ∈ w.events → depth ≤ options.maxDepth + 1
  reached : w.stats.maxDepthReached ≤ options.maxDepth

variable {J resolve options}

variable {w : Walking World}

theorem WithinBudget.walkEdges {visit : NodeHash → Walking World → Except String Unit × Walking World}
    (hvisit : ∀ hash w, WithinBudget options w → WithinBudget options (visit hash w).2) (edges : List EnvelopeRef)
    (h : WithinBudget options w) : WithinBudget options (walkEdgesAsking visit edges w).2 := by
  induction edges generalizing w with
  | nil => exact h
  | cons edge rest ih =>
    rw [walkEdgesAsking]
    split_ifs
    · exact h
    · have hfirst := hvisit edge.envelopeHash w h
      generalize visit edge.envelopeHash w = first at hfirst
      obtain ⟨result, w'⟩ := first
      cases result with
      | error e => exact hfirst
      | ok u => exact ih hfirst

variable {depth : Nat}

theorem WithinBudget.note_call (h : WithinBudget options w)
    (hdepth : depth ≤ options.maxDepth + 1) : WithinBudget options (w.note (.call depth)) where
  resolved := by
    simpa [Walking.note, WalkEvent.isResolve] using h.resolved
  nodes := by
    simpa [Walking.note, WalkEvent.isResolve] using h.nodes
  resolves depth' hash hmem := by
    rcases List.mem_append.mp hmem with hmem | hmem
    · exact h.resolves depth' hash hmem
    · cases List.mem_singleton.mp hmem
  calls depth' hmem := by
    rcases List.mem_append.mp hmem with hmem | hmem
    · exact h.calls depth' hmem
    · cases List.mem_singleton.mp hmem
      exact hdepth
  reached := h.reached

theorem WithinBudget.withStats (h : WithinBudget options w) {stats : DagWalkState}
    (hvisited : w.stats.visited ⊆ stats.visited) (hreached : stats.maxDepthReached ≤ options.maxDepth) :
    WithinBudget options (w.withStats stats) :=
  ⟨h.resolved.trans (Finset.card_le_card hvisited), h.nodes, h.resolves, h.calls, hreached⟩

theorem WithinBudget.ask (h : WithinBudget options w)
    (hdepth : depth ≤ options.maxDepth) {hash : NodeHash} (hnew : hash ∉ w.stats.visited)
    (hroom : ((w.stats.reach depth).enter hash).visited.card ≤ options.maxNodes) (world : World) :
    WithinBudget options
      { stats := (w.stats.reach depth).enter hash, world, events := w.events ++ [.resolve depth hash] } := by
  have hcount : ((w.events ++ [WalkEvent.resolve depth hash]).filter WalkEvent.isResolve).length =
      (w.events.filter WalkEvent.isResolve).length + 1 := by
    rw [List.filter_append, List.length_append]
    rfl
  have hcard : ((w.stats.reach depth).enter hash).visited.card = w.stats.visited.card + 1 :=
    Finset.card_insert_of_notMem hnew
  have hresolved := h.resolved
  refine ⟨?_, ?_, fun depth' hash' hmem => ?_, fun depth' hmem => ?_, max_le h.reached hdepth⟩
  · dsimp only
    omega
  · dsimp only
    omega
  · rcases List.mem_append.mp hmem with hmem | hmem
    · exact h.resolves depth' hash' hmem
    · cases List.mem_singleton.mp hmem
      exact hdepth
  · rcases List.mem_append.mp hmem with hmem | hmem
    · exact h.calls depth' hmem
    · cases List.mem_singleton.mp hmem

theorem WithinBudget.walk (h : WithinBudget options w) (expectedHash : NodeHash)
    (hdepth : depth ≤ options.maxDepth + 1) (path : List NodeHash) :
    WithinBudget options (walkProvenanceRefAsking J resolve options expectedHash depth path w).2 := by
  induction hn : options.maxDepth + 1 - depth generalizing expectedHash depth path w with
  | zero =>
    have hcalled := h.note_call hdepth
    have hbeyond : depth > options.maxDepth := by omega
    rw [walkProvenanceRefAsking]
    dsimp only
    rw [if_pos hbeyond]
    split_ifs
    · exact hcalled
    · exact hcalled.withStats (Finset.Subset.refl _) hcalled.reached
  | succ n ih =>
    have hcalled := h.note_call hdepth
    have hwithin : depth ≤ options.maxDepth := by omega
    have hreach : max (w.note (.call depth)).stats.maxDepthReached depth ≤ options.maxDepth :=
      max_le hcalled.reached hwithin
    rw [walkProvenanceRefAsking]
    dsimp only
    split_ifs with hstop hbeyond hpath hvisited hfull
    · exact hcalled
    · omega
    · exact hcalled.withStats (Finset.Subset.refl _) hreach
    · exact hcalled.withStats (Finset.Subset.refl _) hreach
    · exact hcalled.withStats (Finset.subset_insert _ _) hreach
    have hasked := hcalled.ask hwithin hvisited (Nat.not_lt.mp hfull)
      (resolve expectedHash (w.note (.call depth)).world).2
    cases (resolve expectedHash (w.note (.call depth)).world).1 with
    | none => exact hasked.withStats (Finset.Subset.refl _) hasked.reached
    | some envelope =>
      dsimp only
      cases envelope.provenanceHash J with
      | error e => exact hasked
      | ok actualHash =>
        dsimp only
        split_ifs
        · exact hasked.withStats (Finset.Subset.refl _) hasked.reached
        · exact WithinBudget.walkEdges (fun hash w hw => ih hw hash (by omega) _ (by omega)) _
            (hasked.withStats (Finset.Subset.refl _) hasked.reached)

theorem walkProvenanceRefAsking_beyond (expectedHash : NodeHash) (hdepth : options.maxDepth < depth)
    (path : List NodeHash) (w : Walking World) :
    (walkProvenanceRefAsking J resolve options expectedHash depth path w).1 = .ok () ∧
      (walkProvenanceRefAsking J resolve options expectedHash depth path w).2.world = w.world ∧
      (walkProvenanceRefAsking J resolve options expectedHash depth path w).2.events = w.events ++ [.call depth] := by
  rw [walkProvenanceRefAsking]
  dsimp only
  rw [if_pos hdepth]
  split_ifs <;> exact ⟨rfl, rfl, rfl⟩

/-- **The walk keeps to its budget**, whatever the resolver does: it ends, it asks at most `maxNodes` questions, and it
does not go deeper than `maxDepth`, neither with a question nor with a call that does more than raise the flag. -/
theorem walk_within_budget (J : EnvelopeJson P) (resolve : Resolver P World) (options : ProvenanceDagVerifyOptions)
    (root : ProofEnvelope P) (world : World) :
    (((root.verifyProvenanceDagAsking J resolve options world).2.events.filter WalkEvent.isResolve).length ≤
      options.maxNodes) ∧
    (∀ depth hash, .resolve depth hash ∈ (root.verifyProvenanceDagAsking J resolve options world).2.events →
      depth ≤ options.maxDepth) ∧
    (∀ depth, .call depth ∈ (root.verifyProvenanceDagAsking J resolve options world).2.events →
      depth ≤ options.maxDepth + 1) ∧
    (∀ (hash : NodeHash) (path : List NodeHash) (w : Walking World) (depth : Nat), options.maxDepth < depth →
      (walkProvenanceRefAsking J resolve options hash depth path w).1 = .ok () ∧
      (walkProvenanceRefAsking J resolve options hash depth path w).2.world = w.world ∧
      (walkProvenanceRefAsking J resolve options hash depth path w).2.events = w.events ++ [.call depth]) ∧
    ∀ r, (root.verifyProvenanceDagAsking J resolve options world).1 = .ok r → r.maxDepthReached ≤ options.maxDepth := by
  have hstart : WithinBudget options
      ({ stats := .start root.upstreamEnvelopes.length, world, events := [] } : Walking World) :=
    ⟨Nat.zero_le _, Nat.zero_le _, nofun, nofun, Nat.zero_le _⟩
  have hend : WithinBudget options (root.verifyProvenanceDagAsking J resolve options world).2 ∧
      ∀ r, (root.verifyProvenanceDagAsking J resolve options world).1 = .ok r →
        r.maxDepthReached = (root.verifyProvenanceDagAsking J resolve options world).2.stats.maxDepthReached := by
    unfold ProofEnvelope.verifyProvenanceDagAsking
    dsimp only
    cases root.provenanceHash J with
    | error e => exact ⟨hstart, nofun⟩
    | ok rootHash =>
      dsimp only
      have hvisit : ∀ hash w, WithinBudget options w →
          WithinBudget options (walkProvenanceRefAsking J resolve options hash 1 [rootHash] w).2 :=
        fun hash w hw => hw.walk hash (Nat.le_add_left 1 _) [rootHash]
      have hwalked := WithinBudget.walkEdges hvisit (canonicalUpstreamRefs root.upstreamEnvelopes) hstart
      generalize walkEdgesAsking _ _ _ = walked at hwalked
      obtain ⟨result, w⟩ := walked
      cases result with
      | error e => exact ⟨hwalked, nofun⟩
      | ok u =>
        refine ⟨hwalked, fun r hr => ?_⟩
        rw [← Except.ok.inj hr]
  refine ⟨hend.1.nodes, hend.1.resolves, hend.1.calls,
    fun hash path w depth hdepth => walkProvenanceRefAsking_beyond hash hdepth path w, fun r hr => ?_⟩
  rw [hend.2 r hr]
  exact hend.1.reached

end Walk

end AgentHalo.Pod
