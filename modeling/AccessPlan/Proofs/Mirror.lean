import AccessPlan.Proofs.Positions
import AccessPlan.Proofs.Uses

/-!
# Filters mirror plans

A filter has at every position what its plan has there: the same conjunction or disjunction, the
condition of a comparison, or no constraint in place of a dead node. The calls of the resolver and
the entries of the log come in the same order: a call for each condition, an entry for each
constraint that is missing.

* `Operand.Mirrors`: plans and their filters, with the calls and the entries that came with them.
* `Operand.leaves_compile`: if a plan compiles, it is mirrored by its filter.
* `Mirrors.node?`: what is mirrored is mirrored at every position.
* `Mirrors.lists`: the calls and the entries belong to positions, in depth-first order.
* `Operand.filter_mirrors_plan`: all of this, in the words of the wire and of the log.
-/

namespace AccessPlan

variable {σ : Type}

/-! ## Conditions and lines of the log -/

namespace Comparison

/-- The operators of comparisons in plans, and their keys in filters. -/
def table : List (String × String) :=
  [("eq", "equals"), ("ne", "not"), ("lt", "lt"), ("gt", "gt"), ("lte", "lte"), ("gte", "gte"),
    ("in", "in")]

/-- What a comparison with a literal asks of a field: the key is that of the table, and under it
stands the literal as it is, or for `in` an array, which a literal of another kind is put into. -/
structure Renders (c : Comparison) (value : Json) (condition : Condition) : Prop where
  key : (c.tag, condition.key) ∈ table
  literal : c.tag ≠ "in" → condition.operand = value
  items : c.tag = "in" → ∀ items, value = .arr items → condition.operand = .arr items
  scalar : c.tag = "in" → (∀ items, value ≠ .arr items) → condition.operand = .arr [value]

theorem renders_condition (c : Comparison) (value : Json) :
    c.Renders value (c.condition value) := by
  -- the table is gone through line by line; the literal differs for `in` only
  have hkey : (c.tag, (c.condition value).key) ∈ table := by
    cases c with
    | relate relation =>
      cases relation <;>
        simp [table, tag, Relation.tag, condition, Condition.key, Condition.comparison, key,
          Relation.key]
    | oneOf => simp [table, tag, condition, Condition.key, Condition.comparison, key]
  cases c with
  | relate relation =>
    have hne : (relate relation).tag ≠ "in" := by cases relation <;> decide
    exact ⟨hkey, fun _ => rfl, fun h => absurd h hne, fun h => absurd h hne⟩
  | oneOf =>
    refine ⟨hkey, fun h => absurd rfl h, ?_, ?_⟩
    · rintro - items rfl
      rfl
    · intro _ h
      cases value with
      | arr items => exact absurd rfl (h items)
      | _ => rfl

end Comparison

namespace Operand

/-- The line that a dead node leaves in the log: a warning that names its operator, or a remark that
gives the reason of its shape. -/
inductive Reported : Operand → LogLine → Prop where
  | unsupported (tag : String) (operands : List Operand) :
      Reported (.expression (.other tag) operands)
        ⟨false, "unsupported access plan operator contributes no constraint", .warn,
          [("operator", tag)]⟩
  | malformed {node : Operand} {reason : String} (h : node.Malformed reason) :
      Reported node
        ⟨false, "skipping malformed access plan node", .debug, [("reason", reason)]⟩

theorem reported_of_obstacle? {o : Operand} {obstacle : Obstacle}
    (h : o.obstacle? = some obstacle) : o.Reported (LogEntry.skipped obstacle).line := by
  have hoffends : Offends .reject Resolver.identity () o (.untranslatable obstacle) :=
    offends_of_obstacle? h
  cases hoffends with
  | unsupported ht tag operands => exact .unsupported tag operands
  | malformed ht hnode hreason =>
    cases obstacle with
    | operator tag => cases hreason
    | _ =>
      cases hreason
      exact .malformed hnode

/-- A call that a comparison makes. Its answer is the field of the condition. -/
def CalledFor (node : Operand) (sub : Filter) (call : String × Except ResolveError String) : Prop :=
  ∃ c value name condition,
    node = .expression (.compare c) [.reference call.1, .literal value] ∧ call.2 = .ok name ∧
      sub = .field name condition ∧ c.Renders value condition

/-- An entry that a dead node makes where the constraint is missing. -/
def LoggedFor (node : Operand) (sub : Filter) (entry : LogEntry) : Prop :=
  sub = .empty ∧ node.Reported entry.line

/-! ## Plans and their filters -/

/-- Plans and their filters, with the calls and the entries of the log that came with them. -/
inductive Mirrors : List Operand → List Filter → History → List LogEntry → Prop where
  | nil : Mirrors [] [] [] []
  | and {operands rest : List Operand} {filters others : List Filter} {calls calls' : History}
      {log log' : List LogEntry} (hbelow : Mirrors operands filters calls log)
      (hrest : Mirrors rest others calls' log') :
      Mirrors (.expression .and operands :: rest) (.allOf filters :: others) (calls ++ calls')
        (log ++ log')
  | or {operands rest : List Operand} {filters others : List Filter} {calls calls' : History}
      {log log' : List LogEntry} (hbelow : Mirrors operands filters calls log)
      (hrest : Mirrors rest others calls' log') :
      Mirrors (.expression .or operands :: rest) (.anyOf filters :: others) (calls ++ calls')
        (log ++ log')
  | comparison (c : Comparison) (path name : String) (value : Json) {rest : List Operand}
      {others : List Filter} {calls : History} {log : List LogEntry}
      (hrest : Mirrors rest others calls log) :
      Mirrors (.expression (.compare c) [.reference path, .literal value] :: rest)
        (.field name (c.condition value) :: others) ((path, .ok name) :: calls) log
  | dead {o : Operand} {obstacle : Obstacle} (h : o.obstacle? = some obstacle)
      {rest : List Operand} {others : List Filter} {calls : History} {log : List LogEntry}
      (hrest : Mirrors rest others calls log) :
      Mirrors (o :: rest) (.empty :: others) calls (.skipped obstacle :: log)

variable {operands rest : List Operand} {filters others : List Filter} {calls calls' : History}
  {log log' : List LogEntry} {o : Operand} {filter : Filter}

namespace Mirrors

theorem append (h : Mirrors operands filters calls log) (hrest : Mirrors rest others calls' log') :
    Mirrors (operands ++ rest) (filters ++ others) (calls ++ calls') (log ++ log') := by
  induction h with
  | nil => exact hrest
  | and hbelow _ _ ih =>
    rw [List.append_assoc, List.append_assoc]
    exact .and hbelow ih
  | or hbelow _ _ ih =>
    rw [List.append_assoc, List.append_assoc]
    exact .or hbelow ih
  | comparison c path name value _ ih => exact .comparison c path name value ih
  | dead h _ ih => exact .dead h ih

theorem length_eq (h : Mirrors operands filters calls log) : operands.length = filters.length := by
  induction h with
  | nil => rfl
  | and _ _ _ ih => simpa using ih
  | or _ _ _ ih => simpa using ih
  | comparison c path name value _ ih => simpa using ih
  | dead h _ ih => simpa using ih

/-- At an index there is a plan with its filter, or there is neither. -/
theorem getElem? (h : Mirrors operands filters calls log) (index : Nat) :
    (operands[index]? = none ∧ filters[index]? = none) ∨
      ∃ o filter calls log, operands[index]? = some o ∧ filters[index]? = some filter ∧
        Mirrors [o] [filter] calls log := by
  induction h generalizing index with
  | nil => exact .inl ⟨rfl, rfl⟩
  | and hbelow _ _ ih =>
    cases index with
    | zero => exact .inr ⟨_, _, _, _, rfl, rfl, .and hbelow .nil⟩
    | succ index => exact ih index
  | or hbelow _ _ ih =>
    cases index with
    | zero => exact .inr ⟨_, _, _, _, rfl, rfl, .or hbelow .nil⟩
    | succ index => exact ih index
  | comparison c path name value _ ih =>
    cases index with
    | zero => exact .inr ⟨_, _, _, _, rfl, rfl, .comparison c path name value .nil⟩
    | succ index => exact ih index
  | dead h _ ih =>
    cases index with
    | zero => exact .inr ⟨_, _, _, _, rfl, rfl, .dead h .nil⟩
    | succ index => exact ih index

theorem branches (h : Mirrors [o] [filter] calls log) :
    ∃ calls log, Mirrors o.branches filter.branches calls log := by
  cases h with
  | and hbelow => exact ⟨_, _, hbelow⟩
  | or hbelow => exact ⟨_, _, hbelow⟩
  | comparison => exact ⟨_, _, .nil⟩
  | dead hdead =>
    rw [branches_of_obstacle? hdead]
    exact ⟨_, _, .nil⟩

/-- At a position there is a node with its filter, or there is neither. -/
theorem node? (h : Mirrors [o] [filter] calls log) (position : List Nat) :
    (o.node? position = none ∧ filter.node? position = none) ∨
      ∃ node sub calls log, o.node? position = some node ∧ filter.node? position = some sub ∧
        Mirrors [node] [sub] calls log := by
  induction position generalizing o filter calls log with
  | nil => exact .inr ⟨o, filter, _, _, rfl, rfl, h⟩
  | cons index position ih =>
    obtain ⟨_, _, hbranches⟩ := h.branches
    rcases hbranches.getElem? index with ⟨ho, hf⟩ | ⟨p, g, _, _, hp, hg, hchild⟩
    · exact .inl ⟨by rw [Operand.node?, ho]; rfl, by rw [Filter.node?, hf]; rfl⟩
    · rw [Operand.node?, Filter.node?, hp, hg]
      exact ih hchild

/-- The names of the fields are the answers to the calls. -/
theorem answers_eq (h : Mirrors operands filters calls log) :
    calls.map Prod.snd = (Filter.fieldNamesOf filters).map .ok := by
  induction h with
  | nil => rfl
  | and _ _ hbelow hrest => simp [Filter.fieldNamesOf, Filter.fieldNames, hbelow, hrest]
  | or _ _ hbelow hrest => simp [Filter.fieldNamesOf, Filter.fieldNames, hbelow, hrest]
  | comparison c path name value _ ih => simp [Filter.fieldNamesOf, Filter.fieldNames, ih]
  | dead h _ ih => simpa [Filter.fieldNamesOf, Filter.fieldNames] using ih

/-- The calls and the entries are those of the positions, in order. -/
theorem lists (h : Mirrors operands filters calls log) (index : Nat) :
    ListsFrom CalledFor index operands filters calls ∧
      ListsFrom LoggedFor index operands filters log := by
  induction h generalizing index with
  | nil => exact ⟨listsFrom_nil, listsFrom_nil⟩
  | and _ _ hbelow hrest =>
    exact ⟨listsFrom_cons (lists_of_branches (by simp [CalledFor]) (hbelow 0).1) (hrest _).1,
      listsFrom_cons (lists_of_branches (by simp [LoggedFor]) (hbelow 0).2) (hrest _).2⟩
  | or _ _ hbelow hrest =>
    exact ⟨listsFrom_cons (lists_of_branches (by simp [CalledFor]) (hbelow 0).1) (hrest _).1,
      listsFrom_cons (lists_of_branches (by simp [LoggedFor]) (hbelow 0).2) (hrest _).2⟩
  | comparison c path name value _ ih =>
    -- a comparison has a call and no entry, a dead node an entry and no call
    have hcall : CalledFor (.expression (.compare c) [.reference path, .literal value])
        (.field name (c.condition value)) (path, .ok name) :=
      ⟨c, value, name, _, rfl, rfl, rfl, c.renders_condition value⟩
    exact ⟨listsFrom_cons (lists_leaf rfl hcall) (ih _).1,
      listsFrom_cons (lists_none rfl (by simp [LoggedFor])) (ih _).2⟩
  | dead h _ ih =>
    have hbranches := branches_of_obstacle? h
    exact ⟨listsFrom_cons (lists_none hbranches (by simp [CalledFor])) (ih _).1,
      listsFrom_cons (lists_leaf hbranches ⟨rfl, reported_of_obstacle? h⟩) (ih _).2⟩

end Mirrors

/-! ## Compiling -/

variable {treatment : Treatment} {resolver : Resolver σ} {state : σ} {history : History}

/-- A run went through plans to their filters. The calls that it made are kept after those of
before. -/
def Leaves {β : Type} (operands : List Operand) (filters : List Filter) (history : History)
    (left : Outcome (σ × History) CompileError β) : Prop :=
  ∃ calls, left.state.2 = history ++ calls ∧ Mirrors operands filters calls left.log

theorem leaves_compileAll
    (each : ∀ o ∈ operands, ∀ (state : σ) (history : History) (filter : Filter),
      ((o.compile treatment resolver.noting).run (state, history)).result = .ok filter →
        Leaves [o] [filter] history ((o.compile treatment resolver.noting).run (state, history)))
    (h : ((compileAll treatment resolver.noting operands).run (state, history)).result =
      .ok filters) :
    Leaves operands filters history
      ((compileAll treatment resolver.noting operands).run (state, history)) := by
  induction operands generalizing state history filters with
  | nil =>
    obtain rfl : [] = filters := Except.ok.inj h
    exact ⟨[], (List.append_nil history).symm, .nil⟩
  | cons o rest ih =>
    rw [compileAll_cons] at h ⊢
    obtain ⟨first, ho, h⟩ := LogM.result_bind_ok_iff.1 h
    obtain ⟨others, hothers, h⟩ := LogM.result_bind_ok_iff.1 h
    obtain rfl : first :: others = filters := Except.ok.inj h
    -- the other plans find the calls of the first one kept, which is why `history` is general
    obtain ⟨calls, hcalls, hfirst⟩ := each o List.mem_cons_self state history first ho
    obtain ⟨calls', hcalls', hrest⟩ :=
      ih (fun p hp => each p (List.mem_cons_of_mem o hp)) hothers
    simp only [LogM.run_bind, ho, hothers, LogM.run_pure, List.append_nil]
    refine ⟨calls ++ calls', ?_, hfirst.append hrest⟩
    rw [hcalls', hcalls, List.append_assoc]

/-- A plan that compiles is mirrored by its filter. -/
theorem leaves_compile
    (h : ((o.compile treatment resolver.noting).run (state, history)).result = .ok filter) :
    Leaves [o] [filter] history ((o.compile treatment resolver.noting).run (state, history)) := by
  induction o using induct_nodes generalizing state history filter with
  | and os ih =>
    rw [compile_and] at h ⊢
    obtain ⟨filters, hall, rfl⟩ := LogM.result_map_ok_iff.1 h
    obtain ⟨calls, hcalls, hbelow⟩ := leaves_compileAll (fun o ho _ _ _ => ih o ho) hall
    rw [LogM.run_map]
    exact ⟨calls, hcalls, by simpa using Mirrors.and hbelow .nil⟩
  | or os ih =>
    rw [compile_or] at h ⊢
    obtain ⟨filters, hall, rfl⟩ := LogM.result_map_ok_iff.1 h
    obtain ⟨calls, hcalls, hbelow⟩ := leaves_compileAll (fun o ho _ _ _ => ih o ho) hall
    rw [LogM.run_map]
    exact ⟨calls, hcalls, by simpa using Mirrors.or hbelow .nil⟩
  | comparison c path value =>
    rw [compile_comparison] at h ⊢
    obtain ⟨name, hname, rfl⟩ := LogM.result_map_ok_iff.1 h
    have hanswer : (resolver path state).1 = .ok name := (result_resolveField_ok_iff _).1 hname
    rw [LogM.run_map, run_resolveField, Resolver.noting_of_eq (Resolver.eq_of_answer hanswer)]
    exact ⟨[(path, .ok name)], rfl, .comparison c path name value .nil⟩
  | dead o obstacle ho =>
    rw [compile_of_obstacle? _ _ ho] at h ⊢
    obtain ⟨rfl, rfl⟩ := Treatment.result_apply_ok_iff.1 h
    exact ⟨[], (List.append_nil history).symm, .dead ho .nil⟩

/-! ## Position by position -/

/-- A plan and its filter, position by position, with the calls that were made for it and what was
put on the log. -/
structure Mirrored (o : Operand) (filter : Filter) (calls : History) (log : List LogEntry) :
    Prop where
  conjunctions : ∀ position n,
    (∃ operands, o.node? position = some (.expression .and operands) ∧ operands.length = n) ↔
      ∃ filters, filter.node? position = some (.allOf filters) ∧ filters.length = n
  disjunctions : ∀ position n,
    (∃ operands, o.node? position = some (.expression .or operands) ∧ operands.length = n) ↔
      ∃ filters, filter.node? position = some (.anyOf filters) ∧ filters.length = n
  comparisons : ∀ position,
    (∃ c path value, o.node? position =
        some (.expression (.compare c) [.reference path, .literal value])) ↔
      ∃ name condition, filter.node? position = some (.field name condition)
  dropped : ∀ position,
    (∃ node, o.node? position = some node ∧ node.Dead) ↔ filter.node? position = some .empty
  /-- There is one call for each field, and it gave the field its name. -/
  calls : InOrder (fun position => ∃ name condition,
    filter.node? position = some (.field name condition)) (At CalledFor o filter) calls
  /-- There is one entry for each constraint that is missing. -/
  log : InOrder (fun position => filter.node? position = some .empty) (At LoggedFor o filter) log

namespace Mirrors

/-- Of what is mirrored, each is of the sort that the other one asks for. -/
structure Alike (o : Operand) (filter : Filter) : Prop where
  conjunction : ∀ n, (∃ operands, o = .expression .and operands ∧ operands.length = n) ↔
    ∃ filters, filter = .allOf filters ∧ filters.length = n
  disjunction : ∀ n, (∃ operands, o = .expression .or operands ∧ operands.length = n) ↔
    ∃ filters, filter = .anyOf filters ∧ filters.length = n
  comparison : (∃ c path value, o = .expression (.compare c) [.reference path, .literal value]) ↔
    ∃ name condition, filter = .field name condition
  dropped : o.Dead ↔ filter = .empty

theorem alike (h : Mirrors [o] [filter] calls log) : Alike o filter := by
  cases h with
  | and hbelow => constructor <;> simp [hbelow.length_eq, Dead, Alive.and]
  | or hbelow => constructor <;> simp [hbelow.length_eq, Dead, Alive.or]
  | comparison c path name value => constructor <;> simp [Dead, Alive.comparison]
  | dead hobstacle =>
    have hdead : o.Dead := dead_iff_obstacle?.2 ⟨_, hobstacle⟩
    constructor
    case conjunction =>
      refine fun n => iff_of_false ?_ (by simp)
      rintro ⟨operands, rfl, -⟩
      exact hdead (.and operands)
    case disjunction =>
      refine fun n => iff_of_false ?_ (by simp)
      rintro ⟨operands, rfl, -⟩
      exact hdead (.or operands)
    case comparison =>
      refine iff_of_false ?_ (by simp)
      rintro ⟨c, path, value, rfl⟩
      exact hdead (.comparison c path value)
    case dropped => exact iff_of_true hdead rfl

/-- At a position the plan has a node of one sort if the filter has one of the other. -/
theorem node?_iff (h : Mirrors [o] [filter] calls log) {p : Operand → Prop} {q : Filter → Prop}
    (each : ∀ {node sub}, Alike node sub → (p node ↔ q sub)) (position : List Nat) :
    (∃ node, o.node? position = some node ∧ p node) ↔
      ∃ sub, filter.node? position = some sub ∧ q sub := by
  rcases h.node? position with ⟨ho, hf⟩ | ⟨node, sub, _, _, ho, hf, hnode⟩
  · simp [ho, hf]
  · simpa [ho, hf] using each hnode.alike

/-- At a position of the filter there is a node that is mirrored there. -/
theorem exists_node (h : Mirrors [o] [filter] calls log) {position : List Nat} {sub : Filter}
    (hsub : filter.node? position = some sub) :
    ∃ node calls log, o.node? position = some node ∧ Mirrors [node] [sub] calls log := by
  rcases h.node? position with ⟨-, hnone⟩ | ⟨node, sub', calls, log, hnode, hsub', hmirrors⟩
  · simp [hnone] at hsub
  · obtain rfl : sub' = sub := Option.some.inj (hsub'.symm.trans hsub)
    exact ⟨node, calls, log, hnode, hmirrors⟩

/-- There is a call at a position if the filter has a field there. -/
theorem exists_calledFor_iff (h : Mirrors [o] [filter] calls log) (position : List Nat) :
    (∃ call, At CalledFor o filter position call) ↔
      ∃ name condition, filter.node? position = some (.field name condition) := by
  constructor
  · rintro ⟨call, node, sub, -, hsub, c, value, name, condition, -, -, rfl, -⟩
    exact ⟨name, condition, hsub⟩
  · rintro ⟨name, condition, hsub⟩
    obtain ⟨node, _, _, hnode, hmirrors⟩ := h.exists_node hsub
    cases hmirrors with
    | comparison c path name value =>
      exact ⟨(path, .ok name), _, _, hnode, hsub, c, value, name, _, rfl, rfl, rfl,
        c.renders_condition value⟩

/-- There is an entry at a position if the filter has no constraint there. -/
theorem exists_loggedFor_iff (h : Mirrors [o] [filter] calls log) (position : List Nat) :
    (∃ entry, At LoggedFor o filter position entry) ↔ filter.node? position = some .empty := by
  constructor
  · rintro ⟨entry, node, sub, -, hsub, rfl, -⟩
    exact hsub
  · intro hsub
    obtain ⟨node, _, _, hnode, hmirrors⟩ := h.exists_node hsub
    cases hmirrors with
    | dead hobstacle =>
      exact ⟨.skipped _, _, _, hnode, hsub, rfl, reported_of_obstacle? hobstacle⟩

theorem mirrored (h : Mirrors [o] [filter] calls log) : Mirrored o filter calls log where
  conjunctions position n := by
    simpa using h.node?_iff (fun halike => halike.conjunction n) position
  disjunctions position n := by
    simpa using h.node?_iff (fun halike => halike.disjunction n) position
  comparisons position := by simpa using h.node?_iff (fun halike => halike.comparison) position
  dropped position := by simpa using h.node?_iff (fun halike => halike.dropped) position
  calls := (lists_of_listsFrom (h.lists 0).1).congr h.exists_calledFor_iff
  log := (lists_of_listsFrom (h.lists 0).2).congr h.exists_loggedFor_iff

end Mirrors

/-- If a plan compiles, its filter mirrors it position by position. The calls of the resolver are
kept, which changes nothing else; each gives a field its name, and each entry of the log stands for
a constraint that is missing. -/
theorem filter_mirrors_plan (treatment : Treatment) (resolver : Resolver σ) (o : Operand)
    (state : σ) :
    let noted := (o.compile treatment resolver.noting).run (state, [])
    (o.compile treatment resolver).run state = ⟨noted.result, noted.log, noted.state.1⟩ ∧
      ∀ filter, noted.result = .ok filter → Mirrored o filter noted.state.2 noted.log := by
  refine ⟨run_compile_noting treatment resolver o state [], fun filter h => ?_⟩
  obtain ⟨calls, hcalls, hmirrors⟩ := leaves_compile h
  rw [hcalls, List.nil_append]
  exact hmirrors.mirrored

/-- A resolver that deals out names may answer one path with two fields. -/
theorem filter_mirrors_plan_of_dealt_names :
    Mirrored
      (.expression .or [.comparison (.compare (.relate .equal)) "owner" (.str "me"), .literal .null,
        .expression .and [.comparison (.compare .oneOf) "owner" (.str "me")]])
      (.anyOf [.field "author" (.relate .equal (.str "me")), .empty,
        .allOf [.field "editor" (.oneOf [.str "me"])]])
      [("owner", .ok "author"), ("owner", .ok "editor")] [.skipped .leaf] :=
  (filter_mirrors_plan .skip
    (fun path names => match names with
      | [] => (.error (.unmapped path), [])
      | name :: rest => (.ok name, rest)) _ ["author", "editor"]).2 _ rfl

end Operand

end AccessPlan
