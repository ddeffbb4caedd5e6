import AccessPlan.Compile
import AccessPlan.Resolver.FieldMap

/-!
# Configuration

A configuration says how plans are compiled: what is done with nodes that have no filter, and which
fields the variables have.

* `Config.decoder`: what is taken for a configuration; members that it does not know are refused.
* `Config.fieldMap`: the field map that it describes.
-/

namespace AccessPlan

namespace Treatment

/-- The name of a treatment in a configuration. -/
def name : Treatment → String
  | skip => "skip"
  | reject => "reject"

/-- All treatments. -/
def all : List Treatment := [skip, reject]

/-- Decodes a treatment from its name. -/
def decoder : Decoder Treatment := .variant (all.map fun treatment => (treatment.name, treatment))

end Treatment

/-- How plans are compiled. -/
structure Config where
  unknownOperators : Treatment
  fieldNames : Dict String
  strictFieldNames : Bool
deriving DecidableEq

namespace Config

/-- The fields of a configuration. -/
def schema : Schema Config where
  name := "CompilerConfig"
  fields := [
    .defaulted "unknown_operators" Treatment.decoder
      fun c value => { c with unknownOperators := value },
    .defaulted "field_names" (.dictOf .string) fun c value => { c with fieldNames := value },
    .defaulted "strict_field_names" .boolean fun c value => { c with strictFieldNames := value }]
  closed := true
  default := ⟨.skip, .empty, false⟩

/-- Decodes a configuration. -/
def decoder : Decoder Config := schema.decoder

/-- The field map of a configuration. -/
def fieldMap (c : Config) : FieldMap :=
  let map := FieldMap.ofList c.fieldNames.toList
  if c.strictFieldNames then map.toStrict else map

theorem strict_fieldMap (c : Config) : c.fieldMap.strict = c.strictFieldNames := by
  unfold fieldMap
  split <;> simp_all [FieldMap.toStrict, FieldMap.ofList]

end Config

end AccessPlan
