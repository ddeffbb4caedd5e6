import AccessPlan.Plan.Request

/-!
# The log

Compiling a plan and asking for one leave entries in a log: spans, which open an activity, and
events.

* `LogEntry`: what happened.
* `LogEntry.line`: the entry as a line with a level and named fields.
* `Obstacle`: why a node of a plan has no filter.
-/

namespace AccessPlan

/-- Why a node of a plan has no filter. -/
inductive Obstacle where
  /-- The operator has no counterpart among filters. -/
  | operator (tag : String)
  /-- A variable or a literal stands where a condition is due. -/
  | leaf
  /-- The value is no operand. -/
  | unrecognized
  /-- The operands of a comparison are not a variable and a literal. -/
  | comparison
deriving DecidableEq, Repr

/-- Why the shape of a node is wrong; an operator without counterpart is well shaped. -/
def Obstacle.reason? : Obstacle → Option String
  | .operator _ => none
  | .leaf => some "leaf operand in expression position"
  | .unrecognized => some "unrecognized operand shape"
  | .comparison => some "comparison operands must be a variable followed by a value"

/-- Something worth a line in the log. -/
inductive LogEntry where
  /-- A node without a filter was left out. -/
  | skipped (obstacle : Obstacle)
  /-- A response is being compiled. -/
  | compilingResponse (kind : PlanKind) (resourceKind : String)
  /-- The response denies access to everything. -/
  | alwaysDenied
  /-- The response allows access to everything. -/
  | alwaysAllowed
  /-- A filter is being asked for. -/
  | requestingFilter (action : String) (resourceKind : String)
  /-- The decision point gave no plan. -/
  | planCallFailed (error : PlanError)
deriving DecidableEq

/-- How important an entry is. -/
inductive LogLevel where
  | debug
  | info
  | warn
  | error
deriving DecidableEq, Repr

/-- The name of the level. -/
def LogLevel.name : LogLevel → String
  | debug => "DEBUG"
  | info => "INFO"
  | warn => "WARN"
  | error => "ERROR"

/-- A line of the log: the name of a span or the message of an event, its level and its fields. -/
structure LogLine where
  span : Bool
  title : String
  level : LogLevel
  fields : List (String × String)
deriving DecidableEq

/-- The line of an entry. -/
def LogEntry.line : LogEntry → LogLine
  | .skipped (.operator tag) =>
    ⟨false, "unsupported access plan operator contributes no constraint", .warn,
      [("operator", tag)]⟩
  | .skipped obstacle =>
    ⟨false, "skipping malformed access plan node", .debug,
      [("reason", obstacle.reason?.getD "")]⟩
  | .compilingResponse kind resourceKind =>
    ⟨true, "compile_response", .info, [("kind", kind.name), ("resource_kind", resourceKind)]⟩
  | .alwaysDenied => ⟨false, "query plan is always denied", .debug, []⟩
  | .alwaysAllowed => ⟨false, "query plan is always allowed, no filter applied", .debug, []⟩
  | .requestingFilter action resourceKind =>
    ⟨true, "filter_for_request", .info, [("action", action), ("resource_kind", resourceKind)]⟩
  | .planCallFailed e =>
    ⟨false, "query plan call failed", .error,
      [("operation", "plan_resources"), ("error", e.message)]⟩

end AccessPlan
