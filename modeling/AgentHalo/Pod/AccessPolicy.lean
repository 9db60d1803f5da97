import AgentHalo.Lib.Run
import AgentHalo.Pod.Capability

/-!
# Access policies

A policy says which agents it is about, on which resources and when, and which modes it allows them and denies them. The
store keeps one policy for each identifier, and `evaluate` looks at those that apply to a request: a denial overrides
what others allow.
-/

namespace AgentHalo.Pod

open Text (trim startsWith)
open Run (exec)

inductive AgentMatcher where
  | anyAgent
  | anyAuthenticated
  | byDID (didUris : List String)
  | byTier (minTier : UInt8)
  | byPUF (pufFingerprints : List NodeHash)
deriving DecidableEq

structure AccessPolicy where
  policyId : String
  matcher : AgentMatcher
  resourcePatterns : List String
  allowedModes : List AccessMode
  deniedModes : List AccessMode
  effectiveFrom : Option UInt64
  effectiveUntil : Option UInt64
  active : Bool
deriving DecidableEq

inductive AccessDecision where
  | allow (policyId : String)
  | deny (policyId reason : String)
  | noMatch
deriving DecidableEq, Repr

structure PolicyStore where
  policies : List AccessPolicy
deriving DecidableEq

structure AccessContext where
  agentDid : Option String
  agentTier : Option UInt8
  agentPuf : Option NodeHash
  resourceKey : String
  mode : AccessMode
  now : UInt64
deriving DecidableEq

/-! ### Which policies apply -/

def modeIn (modes : List AccessMode) (mode : AccessMode) : Bool := modes.contains mode

namespace AccessPolicy

variable (policy : AccessPolicy)

def matchesTimeWindow (now : UInt64) : Bool :=
  policy.active && policy.effectiveFrom.all (fun start => start ≤ now) &&
    policy.effectiveUntil.all fun stop => now < stop

def matchesResource (key : String) : Bool :=
  let patterns := normalizePatterns policy.resourcePatterns
  !patterns.isEmpty && patterns.any (keyPatternMatches · key)

def matchesAgent (ctx : AccessContext) : Bool :=
  match policy.matcher with
  | .anyAgent => true
  | .anyAuthenticated => ctx.agentDid.any fun did => trim did ≠ "" && startsWith did "did:"
  | .byDID didUris => ctx.agentDid.any fun did => trim did ≠ "" && didUris.any (· = did)
  | .byTier minTier => ctx.agentTier.any fun tier => minTier ≤ tier
  | .byPUF pufFingerprints => ctx.agentPuf.any fun puf => pufFingerprints.any (· = puf)

def applies (ctx : AccessContext) : Bool :=
  policy.matchesTimeWindow ctx.now && policy.matchesAgent ctx && policy.matchesResource ctx.resourceKey

end AccessPolicy

/-! ### The store -/

namespace PolicyStore

def new : PolicyStore := ⟨[]⟩

def add (store : PolicyStore) (policy : AccessPolicy) : PolicyStore :=
  ⟨store.policies.filter (·.policyId ≠ policy.policyId) ++ [policy]⟩

def remove (store : PolicyStore) (policyId : String) : Bool × PolicyStore :=
  let policies := store.policies.filter (·.policyId ≠ policyId)
  (policies.length ≠ store.policies.length, ⟨policies⟩)

/-- ACP-style evaluation: deny overrides allow. -/
def evaluate (store : PolicyStore) (ctx : AccessContext) : AccessDecision :=
  let applicable := store.policies.filter (·.applies ctx)
  match applicable.find? (modeIn ·.deniedModes ctx.mode) with
  | some policy => .deny policy.policyId "deny rule matched"
  | none =>
    match applicable.find? (modeIn ·.allowedModes ctx.mode) with
    | some policy => .allow policy.policyId
    | none => .noMatch

end PolicyStore

inductive PolicyChange where
  | add (policy : AccessPolicy)
  | remove (policyId : String)

def PolicyStore.change (store : PolicyStore) : PolicyChange → PolicyStore
  | .add policy => store.add policy
  | .remove policyId => (store.remove policyId).2

inductive DecisionKind where
  | allow
  | deny
  | noMatch
deriving DecidableEq, Repr

def AccessDecision.kind : AccessDecision → DecisionKind
  | .allow _ => .allow
  | .deny _ _ => .deny
  | .noMatch => .noMatch

/-! ### Verdicts -/

namespace PolicyStore

variable {store store' : PolicyStore} {ctx : AccessContext}

/-- A policy of the store applies to the request and denies it. -/
def Denies (store : PolicyStore) (ctx : AccessContext) : Prop :=
  ∃ policy ∈ store.policies, policy.applies ctx = true ∧ ctx.mode ∈ policy.deniedModes

def Allows (store : PolicyStore) (ctx : AccessContext) : Prop :=
  ∃ policy ∈ store.policies, policy.applies ctx = true ∧ ctx.mode ∈ policy.allowedModes

theorem find?_applicable (store : PolicyStore) (ctx : AccessContext) (modes : AccessPolicy → List AccessMode) :
    ((store.policies.filter (·.applies ctx)).find? fun policy => modeIn (modes policy) ctx.mode).isSome = true ↔
      ∃ policy ∈ store.policies, policy.applies ctx = true ∧ ctx.mode ∈ modes policy := by
  rw [List.find?_isSome]
  simp only [List.mem_filter, modeIn, List.contains_iff_mem, and_assoc]

theorem kind_evaluate (store : PolicyStore) (ctx : AccessContext) :
    ((store.evaluate ctx).kind = .deny ↔ store.Denies ctx) ∧
      ((store.evaluate ctx).kind = .allow ↔ ¬ store.Denies ctx ∧ store.Allows ctx) := by
  rw [Denies, Allows, ← find?_applicable store ctx (·.deniedModes), ← find?_applicable store ctx (·.allowedModes)]
  unfold evaluate
  dsimp only
  cases (store.policies.filter (·.applies ctx)).find? (modeIn ·.deniedModes ctx.mode) with
  | some policy => simp [AccessDecision.kind]
  | none =>
    cases (store.policies.filter (·.applies ctx)).find? (modeIn ·.allowedModes ctx.mode) with
    | some policy => simp [AccessDecision.kind]
    | none => simp [AccessDecision.kind]

theorem kind_evaluate_congr (h : ∀ policy, policy ∈ store.policies ↔ policy ∈ store'.policies) (ctx : AccessContext) :
    (store.evaluate ctx).kind = (store'.evaluate ctx).kind := by
  have hdenies : store.Denies ctx ↔ store'.Denies ctx := by
    unfold Denies
    simp only [h]
  have hallows : store.Allows ctx ↔ store'.Allows ctx := by
    unfold Allows
    simp only [h]
  obtain ⟨hdeny, hallow⟩ := kind_evaluate store ctx
  obtain ⟨hdeny', hallow'⟩ := kind_evaluate store' ctx
  rw [← hdenies] at hdeny' hallow'
  rw [← hallows] at hallow'
  cases hkind : (store'.evaluate ctx).kind with
  | deny => exact hdeny.mpr (hdeny'.mp hkind)
  | allow => exact hallow.mpr (hallow'.mp hkind)
  | noMatch =>
    cases hkind' : (store.evaluate ctx).kind with
    | deny => rw [hdeny'.mpr (hdeny.mp hkind')] at hkind; cases hkind
    | allow => rw [hallow'.mpr (hallow.mp hkind')] at hkind; cases hkind
    | noMatch => rfl

/-! ### Changes -/

/-- No two policies have one identifier. -/
def OnePerId (store : PolicyStore) : Prop := (store.policies.map (·.policyId)).Nodup

theorem OnePerId.add (h : store.OnePerId) (policy : AccessPolicy) : (store.add policy).OnePerId := by
  unfold OnePerId PolicyStore.add
  rw [List.map_append, List.nodup_append]
  refine ⟨h.sublist (List.filter_sublist.map _), by simp, ?_⟩
  intro a ha b hb
  obtain ⟨other, hother, rfl⟩ := List.mem_map.mp ha
  obtain rfl : b = policy.policyId := by simpa using hb
  exact of_decide_eq_true (List.mem_filter.mp hother).2

theorem OnePerId.change (h : store.OnePerId) (change : PolicyChange) : (store.change change).OnePerId := by
  cases change with
  | add policy => exact h.add policy
  | remove policyId => exact h.sublist (List.filter_sublist.map _)

theorem onePerId_new : new.OnePerId := List.nodup_nil

theorem onePerId_exec (changes : List PolicyChange) : (exec change new changes).OnePerId :=
  Run.exec_invariant (I := OnePerId) (fun _ change h => h.change change) onePerId_new changes

theorem mem_foldl_add {extra : List AccessPolicy} {policy : AccessPolicy}
    (hfresh : ∀ other ∈ extra, other.policyId ≠ policy.policyId) (h : policy ∈ store.policies) :
    policy ∈ (extra.foldl PolicyStore.add store).policies := by
  induction extra generalizing store with
  | nil => exact h
  | cons first rest ih =>
    obtain ⟨hfirst, hrest⟩ := List.forall_mem_cons.mp hfresh
    refine ih hrest (List.mem_append_left _ (List.mem_filter.mpr ⟨h, ?_⟩))
    exact decide_eq_true hfirst.symm

theorem policies_foldl_add {extra : List AccessPolicy} (hdistinct : ((store.policies ++ extra).map (·.policyId)).Nodup) :
    (extra.foldl PolicyStore.add store).policies = store.policies ++ extra := by
  induction extra generalizing store with
  | nil => exact (List.append_nil _).symm
  | cons first rest ih =>
    have hkept : (store.add first).policies = store.policies ++ [first] := by
      have hfresh : ∀ policy ∈ store.policies, policy.policyId ≠ first.policyId := by
        intro policy hpolicy heq
        rw [List.map_append, List.nodup_append] at hdistinct
        exact hdistinct.2.2 _ (List.mem_map_of_mem hpolicy) _ (List.mem_map_of_mem List.mem_cons_self) heq
      unfold PolicyStore.add
      rw [List.filter_eq_self.mpr fun policy hpolicy => decide_eq_true (hfresh policy hpolicy)]
    rw [List.foldl_cons, ih (by rwa [hkept, List.append_assoc, List.singleton_append]), hkept, List.append_assoc,
      List.singleton_append]

/-- **A denial overrides**, whatever changes have led to the store. The kind of the verdict is the same for all stores
with the same policies, so it does not matter in which order policies with different identifiers were added; no
identifier is there twice; and a denial stays one when policies with new identifiers are added. -/
theorem evaluate_deny_overrides (changes : List PolicyChange) :
    (∀ ctx, (((exec change new changes).evaluate ctx).kind = .deny ↔
      ∃ policy ∈ (exec change new changes).policies, policy.applies ctx = true ∧ ctx.mode ∈ policy.deniedModes)) ∧
    (∀ changes', (∀ policy, policy ∈ (exec change new changes).policies ↔ policy ∈ (exec change new changes').policies) →
      ∀ ctx, ((exec change new changes).evaluate ctx).kind = ((exec change new changes').evaluate ctx).kind) ∧
    (∀ policies policies' : List AccessPolicy, policies'.Perm policies →
      (((exec change new changes).policies ++ policies).map (·.policyId)).Nodup →
      ∀ ctx, ((policies'.foldl PolicyStore.add (exec change new changes)).evaluate ctx).kind =
        ((policies.foldl PolicyStore.add (exec change new changes)).evaluate ctx).kind) ∧
    ((exec change new changes).policies.map (·.policyId)).Nodup ∧
    ∀ (extra : List AccessPolicy) ctx,
      (∀ policy ∈ extra, policy.policyId ∉ (exec change new changes).policies.map (·.policyId)) →
      ((exec change new changes).evaluate ctx).kind = .deny →
      ((extra.foldl PolicyStore.add (exec change new changes)).evaluate ctx).kind = .deny := by
  refine ⟨fun ctx => (kind_evaluate _ ctx).1, fun changes' hsame ctx => kind_evaluate_congr hsame ctx,
    fun policies policies' hperm hdistinct ctx => kind_evaluate_congr (fun policy => ?_) ctx,
    onePerId_exec changes, fun extra ctx hfresh hdeny => ?_⟩
  · have hdistinct' := ((hperm.append_left (exec change new changes).policies).map (·.policyId)).nodup_iff.mpr hdistinct
    rw [policies_foldl_add hdistinct, policies_foldl_add hdistinct', List.mem_append, List.mem_append, hperm.mem_iff]
  · obtain ⟨policy, hpolicy, happlies, hmode⟩ := (kind_evaluate _ ctx).1.mp hdeny
    refine (kind_evaluate _ ctx).1.mpr ⟨policy, mem_foldl_add (fun other hother heq => ?_) hpolicy, happlies, hmode⟩
    exact hfresh other hother (heq ▸ List.mem_map_of_mem hpolicy)

/-- Two policies with one identifier: the first lets everybody read, the second nobody. -/
def permissive : AccessPolicy := ⟨"p", .anyAgent, ["*"], [.read], [], none, none, true⟩
def restrictive : AccessPolicy := ⟨"p", .anyAgent, ["*"], [], [.read], none, none, true⟩

def readRequest : AccessContext := ⟨none, none, none, "key", .read, 0⟩

/-- The verdict is that of the policy that was added last. -/
theorem replaced_by_last :
    ((exec change new [.add permissive, .add restrictive]).evaluate readRequest).kind = .deny ∧
      ((exec change new [.add restrictive, .add permissive]).evaluate readRequest).kind = .allow := by
  have happlies : ∀ policy ∈ [permissive, restrictive], policy.applies readRequest = true := by
    intro policy hpolicy
    have hpatterns : policy.resourcePatterns = ["*"] ∧ policy.matcher = .anyAgent ∧ policy.effectiveFrom = none ∧
        policy.effectiveUntil = none ∧ policy.active = true := by
      simp only [List.mem_cons, List.not_mem_nil, or_false] at hpolicy
      obtain rfl | rfl := hpolicy <;> exact ⟨rfl, rfl, rfl, rfl, rfl⟩
    obtain ⟨hpatterns, hmatcher, hfrom, huntil, hactive⟩ := hpatterns
    simp [AccessPolicy.applies, AccessPolicy.matchesTimeWindow, AccessPolicy.matchesAgent,
      AccessPolicy.matchesResource, hpatterns, hmatcher, hfrom, huntil, hactive, normalizePatterns_star,
      keyPatternMatches]
  have hlast : (exec change new [.add permissive, .add restrictive]).policies = [restrictive] ∧
      (exec change new [.add restrictive, .add permissive]).policies = [permissive] := by
    constructor <;> decide
  refine ⟨(kind_evaluate _ _).1.mpr ⟨restrictive, ?_, happlies _ (by simp), by decide⟩,
    (kind_evaluate _ _).2.mpr ⟨?_, permissive, ?_, happlies _ (by simp), by decide⟩⟩
  · rw [hlast.1]
    exact List.mem_singleton_self _
  · rintro ⟨policy, hpolicy, -, hmode⟩
    rw [hlast.2, List.mem_singleton] at hpolicy
    subst hpolicy
    cases hmode
  · rw [hlast.2]
    exact List.mem_singleton_self _

end PolicyStore

end AgentHalo.Pod
