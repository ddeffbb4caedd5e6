import AccessPlan.Compile
import AccessPlan.Text.Quoted

/-!
# Enforcement

An enforcer asks a decision point for a plan and compiles the answer into a filter.

* `Enforcer.buildRequest`: the request for a principal, a kind of resources and an action.
* `Enforcer.filterForRequest`: asks with a request and compiles the answer.
* `Enforcer.filterFor`: builds the request and asks with it.
* `filterForRequest_of_error`: a failing decision point leaves the resolver alone.
  `filterForRequest_of_ok`: any other has its response compiled.
-/

namespace AccessPlan

/-- A decision point, as seen by one who asks it for plans. It may keep a state. -/
abbrev Client (κ : Type) := Request → κ → Except PlanError Response × κ

/-- Why there is no filter for a request. -/
inductive EnforcerError where
  /-- The decision point gave no plan. -/
  | planFailed (error : PlanError)
  /-- The answer has no filter. -/
  | compileFailed (error : CompileError)
deriving DecidableEq

/-- The error as a sentence. -/
def EnforcerError.message : EnforcerError → String
  | .planFailed e => "query plan request failed: " ++ e.message
  | .compileFailed e => "query plan compilation failed: " ++ e.message

/-- Asks a decision point for plans and compiles them. -/
structure Enforcer (κ : Type) where
  client : Client κ
  treatment : Treatment
  policyVersion : Option String

namespace Enforcer

variable {κ σ : Type}

/-- An enforcer that skips what has no filter and asks for no policy version. -/
def ofClient (client : Client κ) : Enforcer κ := ⟨client, .skip, none⟩

/-- The enforcer with another treatment of nodes that have no filter. -/
def withTreatment (e : Enforcer κ) (treatment : Treatment) : Enforcer κ := { e with treatment }

/-- The enforcer that asks for a policy version. -/
def withPolicyVersion (e : Enforcer κ) (version : String) : Enforcer κ :=
  { e with policyVersion := some version }

/-- The request for a principal, a kind of resources and an action. A policy version that the
principal brings along stays. -/
def buildRequest (e : Enforcer κ) (principal : Principal) (resourceKind action : String) :
    Request where
  requestId := none
  principal := { principal with policyVersion := principal.policyVersion.or e.policyVersion }
  resource := ⟨resourceKind, .empty, e.policyVersion⟩
  action := action

/-- Asks the decision point; a failure is put on the log. -/
def askPlan (e : Enforcer κ) (request : Request) : LogM (κ × σ) EnforcerError Response :=
  fun (client, state) =>
    match e.client request client with
    | (.ok response, client') => ⟨.ok response, [], client', state⟩
    | (.error error, client') =>
      ⟨.error (.planFailed error), [.planCallFailed error], client', state⟩

/-- The filter for a request. -/
def filterForRequest (e : Enforcer κ) (resolver : Resolver σ) (request : Request) :
    LogM (κ × σ) EnforcerError Filter := do
  LogM.log (.requestingFilter request.action request.resource.kind)
  let response ← e.askPlan request
  LogM.mapError .compileFailed (LogM.focus (response.compile e.treatment resolver))

/-- The filter for a principal, a kind of resources and an action. -/
def filterFor (e : Enforcer κ) (resolver : Resolver σ) (principal : Principal)
    (resourceKind action : String) : LogM (κ × σ) EnforcerError Filter :=
  e.filterForRequest resolver (e.buildRequest principal resourceKind action)

/-- The settings of the enforcer in words. -/
def describe (e : Enforcer κ) : String :=
  let treatment := match e.treatment with
    | .skip => "Skip"
    | .reject => "Reject"
  let version := match e.policyVersion with
    | none => "None"
    | some version => "Some(" ++ Text.quoted version ++ ")"
  "PlanEnforcer \x7b compiler: PlanCompiler \x7b unknown_operators: " ++ treatment ++
    " \x7d, policy_version: " ++ version ++ ", .. \x7d"

theorem filterForRequest_of_error {e : Enforcer κ} {resolver : Resolver σ} {request : Request}
    {client client' : κ} {state : σ} {error : PlanError}
    (h : e.client request client = (.error error, client')) :
    (e.filterForRequest resolver request).run (client, state) =
      ⟨.error (.planFailed error),
        [.requestingFilter request.action request.resource.kind, .planCallFailed error],
        client', state⟩ := by
  have ask : (e.askPlan request).run (client, state) =
      ⟨.error (.planFailed error), [.planCallFailed error], client', state⟩ := by
    simp [LogM.run, askPlan, h]
  simp [filterForRequest, LogM.run_bind, ask]

theorem filterForRequest_of_ok {e : Enforcer κ} {resolver : Resolver σ} {request : Request}
    {client client' : κ} {state : σ} {response : Response}
    (h : e.client request client = (.ok response, client')) :
    (e.filterForRequest resolver request).run (client, state) =
      let compiled := (response.compile e.treatment resolver).run state
      ⟨compiled.result.mapError .compileFailed,
        .requestingFilter request.action request.resource.kind :: compiled.log,
        client', compiled.state⟩ := by
  have ask : (e.askPlan request).run (client, state) = ⟨.ok response, [], client', state⟩ := by
    simp [LogM.run, askPlan, h]
  simp [filterForRequest, LogM.run_bind, ask]

end Enforcer

end AccessPlan
