import AccessPlan.Plan.Response

/-!
# Requests

A request asks under which conditions a principal may perform an action on resources of a kind.

* `Principal`, `Resource`, `Request`: who asks, about what, and the whole request.
* `Principal.decoder`, `Resource.decoder`, `Request.decoder`: what is taken for them.
* `Principal.written`, `Resource.written`, `Request.written`: their wire forms.
* `PlanError`: why a decision point gives no plan.
-/

namespace AccessPlan

/-- Who asks. -/
structure Principal where
  id : String
  roles : List String
  attributes : Dict Json
  policyVersion : Option String
deriving DecidableEq

namespace Principal

/-- The fields of a principal. -/
def schema : Schema Principal where
  name := "Principal"
  fields := [
    .required "id" .string fun p value => { p with id := value },
    .defaulted "roles" (.listOf .string) fun p value => { p with roles := value },
    .defaulted "attr" (.dictOf .json) fun p value => { p with attributes := value },
    .defaulted "policyVersion" (.optional .string) fun p value => { p with policyVersion := value }]
  closed := false
  default := ⟨"", [], .empty, none⟩

/-- Decodes a principal. -/
def decoder : Decoder Principal := schema.decoder

/-- A principal as it is put out. -/
def written (p : Principal) : Written :=
  .record ([("id", .str p.id), ("roles", .list (p.roles.map .str)), ("attr", .dict p.attributes)] ++
    Written.optional "policyVersion" .str p.policyVersion)

/-- Whether two principals are equal, their attributes compared as JSON. -/
def same (p q : Principal) : Bool :=
  p.id == q.id && p.roles == q.roles && Json.sameDict p.attributes q.attributes &&
    p.policyVersion == q.policyVersion

end Principal

/-- The resources asked about: their kind, and what is known of them beforehand. -/
structure Resource where
  kind : String
  attributes : Dict Json
  policyVersion : Option String
deriving DecidableEq

namespace Resource

/-- The fields of a resource. -/
def schema : Schema Resource where
  name := "PlanResource"
  fields := [
    .required "kind" .string fun r value => { r with kind := value },
    .defaulted "attr" (.dictOf .json) fun r value => { r with attributes := value },
    .defaulted "policyVersion" (.optional .string) fun r value => { r with policyVersion := value }]
  closed := false
  default := ⟨"", .empty, none⟩

/-- Decodes a resource. -/
def decoder : Decoder Resource := schema.decoder

/-- A resource as it is put out. -/
def written (r : Resource) : Written :=
  .record ([("kind", .str r.kind), ("attr", .dict r.attributes)] ++
    Written.optional "policyVersion" .str r.policyVersion)

/-- Whether two resources are equal, their attributes compared as JSON. -/
def same (r s : Resource) : Bool :=
  r.kind == s.kind && Json.sameDict r.attributes s.attributes && r.policyVersion == s.policyVersion

end Resource

/-- A request for a plan. -/
structure Request where
  requestId : Option String
  principal : Principal
  resource : Resource
  action : String
deriving DecidableEq

namespace Request

/-- The fields of a request. -/
def schema : Schema Request where
  name := "PlanRequest"
  fields := [
    .defaulted "requestId" (.optional .string) fun r value => { r with requestId := value },
    .required "principal" Principal.decoder fun r value => { r with principal := value },
    .required "resource" Resource.decoder fun r value => { r with resource := value },
    .required "action" .string fun r value => { r with action := value }]
  closed := false
  default := ⟨none, Principal.schema.default, Resource.schema.default, ""⟩

/-- Decodes a request. -/
def decoder : Decoder Request := schema.decoder

/-- A request as it is put out. -/
def written (r : Request) : Written :=
  .record (Written.optional "requestId" .str r.requestId ++
    [("principal", r.principal.written), ("resource", r.resource.written),
      ("action", .str r.action)])

/-- The JSON value of a request. -/
def toJson (r : Request) : Json := r.written.toJson

/-- Whether two requests are equal, their attributes compared as JSON. -/
def same (r s : Request) : Bool :=
  r.requestId == s.requestId && r.principal.same s.principal && r.resource.same s.resource &&
    r.action == s.action

end Request

/-- Why a decision point gives no plan. -/
inductive PlanError where
  /-- It takes the request for invalid. -/
  | invalidRequest (reason : String)
  /-- It cannot be reached. -/
  | unavailable (reason : String)
  /-- It fails otherwise. -/
  | internal (reason : String)
deriving DecidableEq, Repr

/-- The error as a sentence. -/
def PlanError.message : PlanError → String
  | .invalidRequest reason => "invalid query plan request: " ++ reason
  | .unavailable reason => "policy decision point unavailable: " ++ reason
  | .internal reason => "internal error: " ++ reason

end AccessPlan
