import AccessPlan.Decode.Record
import AccessPlan.Plan.Equality

/-!
# Responses

A policy decision point answers a request for a plan with a response. Its kind says whether every
resource is accessible, none is, or whether that depends on a plan that the response then carries.

* `Response.decoder`: what is taken for a response; a kind that is not given is conditional.
* `Response.written`: the wire form, in which parts that are absent are left out.
-/

namespace AccessPlan

/-- What a response says as a whole. -/
inductive PlanKind where
  | alwaysAllowed
  | alwaysDenied
  | conditional
deriving DecidableEq, Repr

namespace PlanKind

/-- The tag of the kind on the wire. -/
def tag : PlanKind → String
  | alwaysAllowed => "KIND_ALWAYS_ALLOWED"
  | alwaysDenied => "KIND_ALWAYS_DENIED"
  | conditional => "KIND_CONDITIONAL"

/-- The name of the kind in the log. -/
def name : PlanKind → String
  | alwaysAllowed => "AlwaysAllowed"
  | alwaysDenied => "AlwaysDenied"
  | conditional => "Conditional"

/-- All kinds. -/
def all : List PlanKind := [alwaysAllowed, alwaysDenied, conditional]

/-- Decodes a kind from its tag. -/
def decoder : Decoder PlanKind := .variant (all.map fun kind => (kind.tag, kind))

/-- The kind as it is put out. -/
def written (kind : PlanKind) : Written := .str kind.tag

end PlanKind

/-- The answer to a request for a plan. -/
structure Response where
  requestId : Option String
  action : String
  resourceKind : String
  policyVersion : String
  kind : PlanKind
  filter : Option Operand
deriving DecidableEq

namespace Operand

/-- Decodes an operand; every value is one. -/
def decoder : Decoder Operand := fun medium d => ofJson <$> Decoder.json medium d

end Operand

namespace Response

/-- The fields of a response. -/
def schema : Schema Response where
  name := "QueryPlanResponse"
  fields := [
    .defaulted "requestId" (.optional .string) fun r value => { r with requestId := value },
    .defaulted "action" .string fun r value => { r with action := value },
    .defaulted "resourceKind" .string fun r value => { r with resourceKind := value },
    .defaulted "policyVersion" .string fun r value => { r with policyVersion := value },
    .defaulted "kind" PlanKind.decoder fun r value => { r with kind := value },
    .defaulted "filter" (.optional Operand.decoder) fun r value => { r with filter := value }]
  closed := false
  default := ⟨none, "", "", "", .conditional, none⟩

/-- Decodes a response. -/
def decoder : Decoder Response := schema.decoder

/-- A response as it is put out. -/
def written (r : Response) : Written :=
  .record (Written.optional "requestId" .str r.requestId ++
    [("action", .str r.action), ("resourceKind", .str r.resourceKind),
      ("policyVersion", .str r.policyVersion), ("kind", r.kind.written)] ++
    Written.optional "filter" Operand.written r.filter)

/-- The JSON value of a response. -/
def toJson (r : Response) : Json := r.written.toJson

/-- Whether two responses are equal, the literals of their plans compared as JSON. -/
def same (r s : Response) : Bool :=
  r.requestId == s.requestId && r.action == s.action && r.resourceKind == s.resourceKind &&
    r.policyVersion == s.policyVersion && r.kind == s.kind &&
    match r.filter, s.filter with
    | some a, some b => a.same b
    | none, none => true
    | _, _ => false

end Response

end AccessPlan
