import AccessPlan.Filter.Basic
import AccessPlan.Resolver.Basic
import AccessPlan.LogM

/-!
# Compiling plans into filters

Compiling goes through a plan depth first. Conjunctions and disjunctions keep their operands in
order; a comparison of a variable with a literal becomes a condition on the field that the resolver
gives for the variable. What to do with any other node is a matter of treatment: it is skipped,
which leaves a filter without constraint in its place and an entry in the log, or the plan is
rejected.

* `Comparison.condition`: the condition of a comparison on a literal.
* `Operand.compile`: the filter of a plan.
* `Response.compile`: the filter of a response. It fails closed: no access unless the response
  allows everything or its plan has a filter.
-/

namespace AccessPlan

/-- What is done with a node that has no filter. -/
inductive Treatment where
  /-- It contributes no constraint. -/
  | skip
  /-- The plan is rejected. -/
  | reject
deriving DecidableEq, Repr

/-- Why there is no filter. -/
inductive CompileError where
  /-- The response denies access to everything. -/
  | denied
  /-- The response is conditional and has no plan. -/
  | missingCondition
  /-- A node has no filter. -/
  | untranslatable (obstacle : Obstacle)
  /-- A variable has no field. -/
  | resolver (error : ResolveError)
deriving DecidableEq

/-- The error as a sentence. -/
def CompileError.message : CompileError → String
  | .denied => "access denied by PDP"
  | .missingCondition => "conditional query plan has no filter"
  | .untranslatable (.operator tag) => "unsupported operator `" ++ tag ++ "` in access plan"
  | .untranslatable obstacle => "malformed access plan node: " ++ obstacle.reason?.getD ""
  | .resolver e => e.message

/-- The candidates that a literal stands for: its items if it is an array, otherwise itself. -/
def Json.candidates : Json → List Json
  | .arr items => items
  | scalar => [scalar]

/-- The condition of a comparison on a literal. -/
def Comparison.condition : Comparison → Json → Condition
  | .relate relation, literal => .relate relation literal
  | .oneOf, literal => .oneOf literal.candidates

namespace Treatment

variable {σ : Type}

/-- Treats a node that has no filter. -/
def apply (treatment : Treatment) (obstacle : Obstacle) : LogM σ CompileError Filter :=
  match treatment with
  | .skip => do
    LogM.log (.skipped obstacle)
    return .empty
  | .reject => LogM.fail (.untranslatable obstacle)

end Treatment

namespace Operand

variable {σ : Type}

/-- Calls the resolver for the field of a path. -/
def resolveField (resolver : Resolver σ) (path : String) : LogM σ CompileError String :=
  LogM.mapError .resolver (LogM.step (resolver path))

/-- The filter of a comparison. The resolver is called only if the operands are a variable and a
literal. -/
def compileComparison (treatment : Treatment) (resolver : Resolver σ) (comparison : Comparison) :
    List Operand → LogM σ CompileError Filter
  | [.reference path, .literal value] => do
    let field ← resolveField resolver path
    return .field field (comparison.condition value)
  | _ => treatment.apply .comparison

mutual

/-- The filter of a plan. -/
def compile (treatment : Treatment) (resolver : Resolver σ) :
    Operand → LogM σ CompileError Filter
  | .expression .and operands => do
    let filters ← compileAll treatment resolver operands
    return .allOf filters
  | .expression .or operands => do
    let filters ← compileAll treatment resolver operands
    return .anyOf filters
  | .expression (.compare comparison) operands =>
    compileComparison treatment resolver comparison operands
  | .expression (.other tag) _ => treatment.apply (.operator tag)
  | .reference _ => treatment.apply .leaf
  | .literal _ => treatment.apply .leaf
  | .unrecognized _ => treatment.apply .unrecognized
termination_by structural o => o

/-- The filters of several plans, in order; the first error ends the whole. -/
def compileAll (treatment : Treatment) (resolver : Resolver σ) :
    List Operand → LogM σ CompileError (List Filter)
  | [] => return []
  | o :: rest => do
    let filter ← o.compile treatment resolver
    let filters ← compileAll treatment resolver rest
    return filter :: filters
termination_by structural os => os

end

end Operand

namespace Response

variable {σ : Type}

/-- The filter of a response. -/
def compile (treatment : Treatment) (resolver : Resolver σ) (response : Response) :
    LogM σ CompileError Filter := do
  LogM.log (.compilingResponse response.kind response.resourceKind)
  match response.kind, response.filter with
  | .alwaysDenied, _ =>
    LogM.log .alwaysDenied
    LogM.fail .denied
  | .alwaysAllowed, _ =>
    LogM.log .alwaysAllowed
    return .empty
  | .conditional, none => LogM.fail .missingCondition
  | .conditional, some plan => plan.compile treatment resolver

end Response

end AccessPlan
