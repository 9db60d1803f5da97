import AgentHalo.Audit.Tamper
import AgentHalo.Tenant.Recovery
import AgentHalo.Tenant.SealLoss
import AgentHalo.Pcn.Sequencing
import AgentHalo.Pcn.Conservation
import AgentHalo.Pcn.Isolation
import AgentHalo.Pod.Binding
import AgentHalo.Pod.Revocation
import AgentHalo.Identity.Keeping
import AgentHalo.Container.Exclusion
import AgentHalo.Tenant.Isolation
import AgentHalo.Swarm.RoundTrip
import AgentHalo.Vcs.Interference
import AgentHalo.Orchestrator.Firing
import AgentHalo.Orchestrator.Turns
import AgentHalo.Contract.Finding
import AgentHalo.Verifier.Gate
import AgentHalo.Governance.Policy
import AgentHalo.Memory.Chunks
import AgentHalo.License.Minting
import AgentHalo.Discord.Recorder
import AgentHalo.Comms.Didcomm
import AgentHalo.Trace.Restart
import AgentHalo.Persistence.Durable
import AgentHalo.Sql.KeyLiteral
import AgentHalo.Discovery.Convergence
import AgentHalo.Discovery.Counting
import AgentHalo.Discovery.Rollback
import AgentHalo.Engine.Gluing
import AgentHalo.Pcn.Compliance
import AgentHalo.Swarm.Verification
import AgentHalo.Swarm.Possession
import AgentHalo.Swarm.Settlement
import AgentHalo.Store.Eviction
import AgentHalo.Vcs.Merge
import AgentHalo.Pod.AccessPolicy
import AgentHalo.Pod.Budget
import AgentHalo.Pod.Depth
import AgentHalo.Discovery.Trust
import AgentHalo.Trace.Persistence
import AgentHalo.Orchestrator.Pruning
import AgentHalo.Pod.Enforcement
import AgentHalo.Pod.Canonical
import AgentHalo.Discovery.Formation
import AgentHalo.Attest.Paths
import AgentHalo.Engine.Dense
import AgentHalo.Credential.Completeness
import AgentHalo.Trace.Accounts
