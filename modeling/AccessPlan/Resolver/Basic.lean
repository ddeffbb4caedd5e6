/-!
# Resolvers

A resolver answers the path of a variable with the name of a field. It may keep a state of its own,
so that two calls on one path need not agree.

* `Resolver.ofFunction`: a resolver whose answers depend on the path alone.
* `Resolver.identity`: every path is its own field.
* `Resolver.traced`: a resolver that keeps the paths it was called with.
-/

namespace AccessPlan

/-- Why a path has no field. -/
inductive ResolveError where
  /-- A strict mapping has no entry for the path. -/
  | unmapped (path : String)
  /-- The resolver refuses the path. -/
  | refused (path : String) (reason : String)
deriving DecidableEq, Repr

namespace ResolveError

/-- The path that has no field. -/
def path : ResolveError → String
  | .unmapped path => path
  | .refused path _ => path

/-- The error as a sentence. -/
def message : ResolveError → String
  | .unmapped path => "no field mapping for variable `" ++ path ++ "`"
  | .refused path reason => "cannot resolve field name for variable `" ++ path ++ "`: " ++ reason

end ResolveError

/-- Answers a path with a field, from a state that the call may change. -/
abbrev Resolver (σ : Type) := String → σ → Except ResolveError String × σ

namespace Resolver

variable {σ : Type}

/-- The resolver that answers by a function of the path. -/
def ofFunction (f : String → Except ResolveError String) : Resolver σ :=
  fun path state => (f path, state)

/-- The resolver that answers every path with itself. -/
def identity : Resolver σ := ofFunction .ok

/-- The resolver together with the paths that it was called with, the last one in front. -/
def traced (resolver : Resolver σ) : Resolver (σ × List String) :=
  fun path (state, calls) =>
    let (answer, state') := resolver path state
    (answer, state', path :: calls)

end Resolver

end AccessPlan
