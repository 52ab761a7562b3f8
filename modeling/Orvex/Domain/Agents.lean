import Orvex.Core.Database

/-!
# The agent registry

An agent belongs to one company, and every read is scoped to it.  An update
by id is not: the service checks the company first.
-/

namespace Orvex
namespace Agents

structure CreateAgentInput where
  companyId : String
  name : Option String
  purpose : Option String
  executionMode : Option ExecutionMode
  deriving DecidableEq

def getAgent (companyId agentId : String) (db : Database) : Option Agent :=
  agentTable.find
    (fun agent => agent.id = agentId ∧ agent.companyId = companyId) db

def agentNotFound (companyId agentId : String) : Failure :=
  .of .agentNotFound "Agent not found in this company."
    [("companyId", companyId), ("agentId", agentId)]

def requireAgent (companyId agentId : String) (db : Database) :
    Except Failure Agent :=
  match getAgent companyId agentId db with
  | some agent => .ok agent
  | none => .error (agentNotFound companyId agentId)

/-- The constraints on a new agent besides its id. -/
def agentAllowed (agent : Agent) (db : Database) : Bool :=
  companyExists agent.companyId db &&
    db.agents.all (fun other =>
      other.companyId != agent.companyId || other.name != agent.name)

def createAgent (input : CreateAgentInput) (uuid : String) :
    Service Agent := do
  let name := jsTrim (input.name.getD "")
  if name = "" then
    Fallible.fail (.of .invalidInput "Agent name is required." [])
  else if ← Fallible.query (companyExists input.companyId) then
    let agent : Agent :=
      { id := uuid
        companyId := input.companyId
        name := name
        purpose := input.purpose.getD ""
        status := .created
        executionMode := input.executionMode.getD .simulate
        activeConstitutionId := none
        activePolicyId := none }
    match ← Fallible.attempt
        (agentTable.create .constraint (agentAllowed agent) agent) with
    | .ok created => pure created
    | .error _ =>
        Fallible.fail (.of .conflict "An agent with this name already exists."
          [("companyId", input.companyId), ("name", name)])
  else
    Fallible.fail (.of .tenantError "Company not found for agent."
      [("companyId", input.companyId)])

def transition (companyId agentId : String) (status : AgentStatus) :
    Service Agent := do
  let _ ← reading (requireAgent companyId agentId)
  agentTable.update .recordNotFound agentId
    (fun agent => { agent with status := status })

def activateAgent (companyId agentId : String) : Service Agent :=
  transition companyId agentId .active

def pauseAgent (companyId agentId : String) : Service Agent :=
  transition companyId agentId .paused

def suspendAgent (companyId agentId : String) : Service Agent :=
  transition companyId agentId .suspended

def disableAgent (companyId agentId : String) : Service Agent :=
  transition companyId agentId .disabled

theorem getAgent_eq_some {companyId agentId : String} {db : Database}
    {agent : Agent} (h : getAgent companyId agentId db = some agent) :
    agent ∈ db.agents ∧ agent.id = agentId ∧
      agent.companyId = companyId := by
  have hmem := List.mem_of_find?_eq_some h
  have hkeys := List.find?_some h
  rw [decide_eq_true_eq] at hkeys
  exact ⟨hmem, hkeys⟩

end Agents
end Orvex
