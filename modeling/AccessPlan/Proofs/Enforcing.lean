import AccessPlan.Enforcer
import Mathlib.Data.List.Induction

/-!
# Runs of an enforcer

An enforcer is configured, builds requests and asks for filters, in any order. The decision point
and the resolvers keep what they learn from one step to the next.

* `Enforcer.Step`: one step. `Enforcer.takeAll`: what the steps of a run give, put on the log and
  leave.
* `Enforcer.configured`: the enforcer in terms of the steps taken so far, searched backwards.
  `foldl_after`: that is what the steps make of it.
* `Enforcer.Enforces`: what a step of a configured enforcer gives. `Request.For`: the request that
  it builds.
* `Client.noting`: a decision point that keeps the requests. `Enforcer.takeAll_noting`: this changes
  nothing else.
* `Enforcer.enforces_throughout`: every step of every run gives what it should.
-/

namespace AccessPlan

variable {κ σ : Type}

/-- The decision point together with the requests that were handed to it. -/
def Client.noting (client : Client κ) : Client (κ × List Request) :=
  fun request (k, handed) =>
    let (answer, k') := client request k
    (answer, k', handed ++ [request])

/-- The request asks for a principal, a kind of resources and an action, under a policy version
unless the principal brings one along. -/
structure Request.For (request : Request) (version : Option String) (principal : Principal)
    (resourceKind action : String) : Prop where
  id : request.principal.id = principal.id
  roles : request.principal.roles = principal.roles
  attributes : request.principal.attributes = principal.attributes
  pinned : ∀ own, principal.policyVersion = some own → request.principal.policyVersion = some own
  unpinned : principal.policyVersion = none → request.principal.policyVersion = version
  kind : request.resource.kind = resourceKind
  bare : request.resource.attributes = .empty
  version : request.resource.policyVersion = version
  action : request.action = action
  anonymous : request.requestId = none

namespace Enforcer

theorem for_buildRequest (e : Enforcer κ) (principal : Principal) (resourceKind action : String) :
    (e.buildRequest principal resourceKind action).For e.policyVersion principal resourceKind
      action where
  id := rfl
  roles := rfl
  attributes := rfl
  pinned own h := by simp [buildRequest, h]
  unpinned h := by simp [buildRequest, h]
  kind := rfl
  bare := rfl
  version := rfl
  action := rfl
  anonymous := rfl

/-! ## Steps -/

/-- A step of a run. The resolvers of a run have one state, of which each may use a part. -/
inductive Step (σ : Type) where
  | useTreatment (treatment : Treatment)
  | usePolicyVersion (version : String)
  | build (principal : Principal) (resourceKind action : String)
  | ask (resolver : Resolver σ) (principal : Principal) (resourceKind action : String)
  | askWith (resolver : Resolver σ) (request : Request)

/-- What a step gives. -/
inductive Reply where
  | configured
  | built (request : Request)
  | filtered (result : Except EnforcerError Filter)

/-- What a step gives and puts on the log, and where it leaves the decision point and the
resolvers. -/
structure Taken (κ σ : Type) where
  reply : Reply
  log : List LogEntry
  state : κ × σ

/-- A run that asked for a filter, as a step. -/
def Taken.ofOutcome (left : Outcome (κ × σ) EnforcerError Filter) : Taken κ σ :=
  ⟨.filtered left.result, left.log, left.state⟩

namespace Step

/-- The enforcer after a step. -/
def after (e : Enforcer κ) : Step σ → Enforcer κ
  | .useTreatment treatment => e.withTreatment treatment
  | .usePolicyVersion version => e.withPolicyVersion version
  | _ => e

/-- Takes a step. -/
def take (e : Enforcer κ) (state : κ × σ) : Step σ → Taken κ σ
  | .useTreatment _ => ⟨.configured, [], state⟩
  | .usePolicyVersion _ => ⟨.configured, [], state⟩
  | .build principal resourceKind action =>
    ⟨.built (e.buildRequest principal resourceKind action), [], state⟩
  | .ask resolver principal resourceKind action =>
    .ofOutcome ((e.filterFor resolver principal resourceKind action).run state)
  | .askWith resolver request => .ofOutcome ((e.filterForRequest resolver request).run state)

/-- The treatment that a step configures. -/
def treatment? : Step σ → Option Treatment
  | .useTreatment treatment => some treatment
  | _ => none

/-- The policy version that a step configures. -/
def policyVersion? : Step σ → Option String
  | .usePolicyVersion version => some version
  | _ => none

/-- The step asks with a request: the one that the enforcer builds, or one that is given. -/
inductive Asks (e : Enforcer κ) : Step σ → Resolver σ → Request → Prop where
  | built (resolver : Resolver σ) (principal : Principal) (resourceKind action : String) :
      Asks e (.ask resolver principal resourceKind action) resolver
        (e.buildRequest principal resourceKind action)
  | given (resolver : Resolver σ) (request : Request) :
      Asks e (.askWith resolver request) resolver request

end Step

/-- Takes the steps of a run one after the other. -/
def takeAll (e : Enforcer κ) : List (Step σ) → κ × σ → List (Taken κ σ)
  | [], _ => []
  | step :: rest, state =>
    let taken := step.take e state
    taken :: takeAll (step.after e) rest taken.state

/-- Where a run leaves the decision point and the resolvers. -/
def stateAfter (e : Enforcer κ) : List (Step σ) → κ × σ → κ × σ
  | [], state => state
  | step :: rest, state => stateAfter (step.after e) rest (step.take e state).state

/-- An enforcer after steps: each setting is that of the last step that configured it. -/
def configured (client : Client κ) (earlier : List (Step σ)) : Enforcer κ where
  client := client
  treatment := (earlier.reverse.findSome? Step.treatment?).getD .skip
  policyVersion := earlier.reverse.findSome? Step.policyVersion?

theorem configured_concat (client : Client κ) (earlier : List (Step σ)) (step : Step σ) :
    configured client (earlier ++ [step]) = step.after (configured client earlier) := by
  rw [configured, List.reverse_concat]
  cases step <;> rfl

/-- The last settings are those in force. -/
theorem foldl_after (client : Client κ) (earlier : List (Step σ)) :
    earlier.foldl Step.after (ofClient client) = configured client earlier := by
  -- from the end, since the last step that configures a setting is the one that counts
  induction earlier using List.reverseRecOn with
  | nil => rfl
  | append_singleton earlier step ih =>
    rw [List.foldl_append, ih, configured_concat]
    rfl

theorem takeAll_append (e : Enforcer κ) (front back : List (Step σ)) (state : κ × σ) :
    takeAll e (front ++ back) state =
      takeAll e front state ++
        takeAll (front.foldl Step.after e) back (stateAfter e front state) := by
  induction front generalizing e state with
  | nil => rfl
  | cons step rest ih => exact congrArg (step.take e state :: ·) (ih (step.after e) _)

theorem length_takeAll (e : Enforcer κ) (steps : List (Step σ)) (state : κ × σ) :
    (takeAll e steps state).length = steps.length := by
  induction steps generalizing e state with
  | nil => rfl
  | cons step rest ih => exact congrArg (· + 1) (ih (step.after e) _)

/-- The step after others is taken by the enforcer that these configured. -/
theorem getElem?_takeAll (client : Client κ) (earlier : List (Step σ)) (step : Step σ)
    (later : List (Step σ)) (state : κ × σ) :
    (takeAll (ofClient client) (earlier ++ step :: later) state)[earlier.length]? =
      some (step.take (configured client earlier)
        (stateAfter (ofClient client) earlier state)) := by
  have hlength := length_takeAll (ofClient client) earlier state
  rw [takeAll_append, foldl_after, ← hlength, List.getElem?_append_right (Nat.le_refl _),
    Nat.sub_self]
  rfl

/-! ## One question -/

variable {e : Enforcer κ} {resolver : Resolver σ} {request : Request} {k k' : κ} {s : σ}

/-- The enforcer of a decision point that keeps the requests. -/
def noting (e : Enforcer κ) : Enforcer (κ × List Request) := { e with client := e.client.noting }

theorem client_noting {answer : Except PlanError Response} (h : e.client request k = (answer, k'))
    (handed : List Request) :
    e.noting.client request (k, handed) = (answer, k', handed ++ [request]) := by
  simp [noting, Client.noting, h]

/-- What a step of an enforcer gives, where the requests are kept that were handed out. -/
inductive Enforces (e : Enforcer κ) :
    Step σ → (κ × List Request) × σ → Taken (κ × List Request) σ → Prop where
  | treatment (treatment : Treatment) (state : (κ × List Request) × σ) :
      Enforces e (.useTreatment treatment) state ⟨.configured, [], state⟩
  | policyVersion (version : String) (state : (κ × List Request) × σ) :
      Enforces e (.usePolicyVersion version) state ⟨.configured, [], state⟩
  /-- A request is built, and not handed out. -/
  | built (principal : Principal) (resourceKind action : String)
      (state : (κ × List Request) × σ) :
      Enforces e (.build principal resourceKind action) state
        ⟨.built (e.buildRequest principal resourceKind action), [], state⟩
  /-- One request is handed out, and the decision point fails. The resolver is left alone. -/
  | failed {step : Step σ} {resolver : Resolver σ} {request : Request}
      (hasks : step.Asks e resolver request) {k k' : κ} {error : PlanError}
      (hclient : e.client request k = (.error error, k')) (handed : List Request) (s : σ) :
      Enforces e step ((k, handed), s)
        ⟨.filtered (.error (.planFailed error)),
          [.requestingFilter request.action request.resource.kind, .planCallFailed error],
          (k', handed ++ [request]), s⟩
  /-- One request is handed out, and the response is compiled. -/
  | answered {step : Step σ} {resolver : Resolver σ} {request : Request}
      (hasks : step.Asks e resolver request) {k k' : κ} {response : Response}
      (hclient : e.client request k = (.ok response, k')) (handed : List Request) (s : σ)
      {compiled : Outcome σ CompileError Filter}
      (hcompiled : (response.compile e.treatment resolver).run s = compiled) :
      Enforces e step ((k, handed), s)
        ⟨.filtered (compiled.result.mapError .compileFailed),
          .requestingFilter request.action request.resource.kind :: compiled.log,
          (k', handed ++ [request]), compiled.state⟩

theorem enforces_of_asks {step : Step σ} (hasks : step.Asks e resolver request)
    (state : (κ × List Request) × σ) :
    Enforces e step state
      (.ofOutcome ((e.noting.filterForRequest resolver request).run state)) := by
  obtain ⟨⟨k, handed⟩, s⟩ := state
  -- one call of the decision point decides whether the resolver comes in at all
  rcases hclient : e.client request k with ⟨error | response, k'⟩
  · rw [filterForRequest_of_error (client_noting hclient handed)]
    exact .failed hasks hclient handed s
  · rw [filterForRequest_of_ok (client_noting hclient handed)]
    exact .answered hasks hclient handed s rfl

/-- Every step gives what it should. -/
theorem enforces_take (e : Enforcer κ) (state : (κ × List Request) × σ) (step : Step σ) :
    Enforces e step state (step.take e.noting state) := by
  cases step with
  | useTreatment treatment => exact .treatment treatment state
  | usePolicyVersion version => exact .policyVersion version state
  | build principal resourceKind action => exact .built principal resourceKind action state
  | ask resolver principal resourceKind action =>
    exact enforces_of_asks (.built resolver principal resourceKind action) state
  | askWith resolver request => exact enforces_of_asks (.given resolver request) state

/-! ## Keeping the requests -/

/-- A step without the requests that were kept. -/
def Taken.plain (taken : Taken (κ × List Request) σ) : Taken κ σ :=
  ⟨taken.reply, taken.log, taken.state.1.1, taken.state.2⟩

theorem run_filterForRequest_noting (e : Enforcer κ) (resolver : Resolver σ) (request : Request)
    (state : (κ × List Request) × σ) :
    (Taken.ofOutcome ((e.noting.filterForRequest resolver request).run state)).plain =
      .ofOutcome ((e.filterForRequest resolver request).run (state.1.1, state.2)) := by
  obtain ⟨⟨k, handed⟩, s⟩ := state
  rcases hclient : e.client request k with ⟨error | response, k'⟩
  · rw [filterForRequest_of_error (client_noting hclient handed), filterForRequest_of_error hclient]
    rfl
  · rw [filterForRequest_of_ok (client_noting hclient handed), filterForRequest_of_ok hclient]
    rfl

theorem take_noting (e : Enforcer κ) (step : Step σ) (state : (κ × List Request) × σ) :
    (step.take e.noting state).plain = step.take e (state.1.1, state.2) := by
  cases step with
  | ask resolver principal resourceKind action =>
    exact run_filterForRequest_noting e resolver _ state
  | askWith resolver request => exact run_filterForRequest_noting e resolver request state
  | _ => rfl

theorem after_noting (e : Enforcer κ) (step : Step σ) :
    step.after e.noting = (step.after e).noting := by
  cases step <;> rfl

/-- Keeping the requests changes nothing else. -/
theorem takeAll_noting (e : Enforcer κ) (steps : List (Step σ)) (state : (κ × List Request) × σ) :
    (takeAll e.noting steps state).map Taken.plain = takeAll e steps (state.1.1, state.2) := by
  induction steps generalizing e state with
  | nil => rfl
  | cons step rest ih =>
    rw [takeAll, takeAll, List.map_cons, take_noting, after_noting, ih, ← take_noting]
    rfl

/-! ## Runs -/

/-- Every step of every run gives what it should, by the settings that were configured last. The
requests that are handed to the decision point are kept, which changes nothing else. -/
theorem enforces_throughout (client : Client κ) (k : κ) (s : σ) (earlier : List (Step σ))
    (step : Step σ) (later : List (Step σ)) :
    let steps := earlier ++ step :: later
    let e := configured client earlier
    let before := stateAfter (ofClient client.noting) earlier ((k, []), s)
    let run := takeAll (ofClient client.noting) steps ((k, []), s)
    takeAll (ofClient client) steps (k, s) = run.map Taken.plain ∧
      (∃ taken, run[earlier.length]? = some taken ∧ Enforces e step before taken) ∧
      ∀ principal resourceKind action,
        (e.buildRequest principal resourceKind action).For
          (earlier.reverse.findSome? Step.policyVersion?) principal resourceKind action := by
  refine ⟨(takeAll_noting (ofClient client) _ ((k, []), s)).symm, ?_, for_buildRequest _⟩
  exact ⟨_, getElem?_takeAll client.noting earlier step later _,
    enforces_take (configured client earlier) _ step⟩

end Enforcer

end AccessPlan
