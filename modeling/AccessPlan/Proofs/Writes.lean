import AccessPlan.Config
import AccessPlan.Proofs.Pairs
import Mathlib.Data.List.Induction

/-!
# Field maps and their writes

A field map is made in steps: fields are written, the map is made strict, or a new map of pairs
takes its place. What it answers depends on the last write to each path, and on whether it was made
strict, since it was last replaced.

* `FieldMap.Step`: one step. `FieldMap.built`: the map that steps make. `FieldMap.replies`: what the
  steps give on the way.
* `FieldMap.standing`: the steps that count. `FieldMap.writes`: the pairs that they write.
  `FieldMap.LastWrite`: the last of them for a path.
* `fields_built`, `strict_built_iff`: the map in terms of these.
* `FieldMap.Reflects`: all answers of a map in these terms. `FieldMap.reflects_built`.
* `built_overwritten`, `built_exchanged`: writes that leave no trace.
* `Config.fieldMap_eq_built`: the map of a configuration is made of its pairs in any order.
* `FieldMap.maps_reflect_writes`: all of this together (`FieldMap.WriteLaws`).
-/

namespace AccessPlan

namespace FieldMap

/-! ## Steps -/

/-- A step in the making of a field map. -/
inductive Step where
  /-- The field of a path is written. -/
  | write (path field : String)
  /-- The field of a path is written, and the one that it had before is given. -/
  | insert (path field : String)
  /-- The map is made strict. -/
  | tighten
  /-- A map of pairs takes the place of the one there was. -/
  | replace (pairs : List (String × String))

namespace Step

/-- The map after a step. -/
def after : Step → FieldMap → FieldMap
  | write path field, m => m.insert path field
  | insert path field, m => (m.getThenInsert path field).2
  | tighten, m => m.toStrict
  | replace pairs, _ => .ofList pairs

/-- What a step gives: an insertion gives the field that the path had before. -/
def given : Step → FieldMap → Option String
  | insert path field, m => (m.getThenInsert path field).1
  | _, _ => none

/-- The pairs that a step writes. -/
def pairs : Step → List (String × String)
  | write path field => [(path, field)]
  | insert path field => [(path, field)]
  | tighten => []
  | replace pairs => pairs

/-- Whether a step forgets the map there was. -/
def forgets : Step → Bool
  | replace _ => true
  | _ => false

end Step

/-- The map after steps in a row. -/
def afterAll (m : FieldMap) (steps : List Step) : FieldMap :=
  steps.foldl (fun m step => step.after m) m

/-- What steps in a row give. -/
def replies (m : FieldMap) : List Step → List (Option String)
  | [] => []
  | step :: later => step.given m :: (step.after m).replies later

/-- The map that steps make, beginning with the map of no path. -/
def built (steps : List Step) : FieldMap := empty.afterAll steps

/-- The steps that count: those from the last one on that forgets what was before. -/
def standing : List Step → List Step
  | [] => []
  | step :: later => if later.any Step.forgets then standing later else step :: later

/-- The pairs that are written by the steps that count, in order. -/
def writes (steps : List Step) : List (String × String) := (standing steps).flatMap Step.pairs

/-- The last one of the pairs with a path. -/
def LastWrite (pairs : List (String × String)) (path field : String) : Prop :=
  ∃ before later, pairs = before ++ (path, field) :: later ∧ ∀ other ∈ later, other.1 ≠ path

theorem lastWrite_iff {pairs : List (String × String)} {path field : String} :
    LastWrite pairs path field ↔ pairs.reverse.lookup path = some field := by
  rw [List.lookup_eq_some_iff]
  constructor
  · rintro ⟨before, later, rfl, h⟩
    refine ⟨later.reverse, before.reverse, by simp, fun other hother => ?_⟩
    exact bne_iff_ne.2 (h other (List.mem_reverse.1 hother)).symm
  · rintro ⟨later, before, hpairs, h⟩
    refine ⟨before.reverse, later.reverse, ?_, fun other hother => ?_⟩
    · rw [← List.reverse_reverse pairs, hpairs]
      simp
    · exact (bne_iff_ne.1 (h other (List.mem_reverse.1 hother))).symm

/-! ## The map in terms of the writes -/

variable {steps : List Step} {step : Step} {m n : FieldMap} {path field : String}

@[simp] theorem afterAll_cons (m : FieldMap) (step : Step) (later : List Step) :
    m.afterAll (step :: later) = (step.after m).afterAll later := rfl

theorem afterAll_append (m : FieldMap) (earlier later : List Step) :
    m.afterAll (earlier ++ later) = (m.afterAll earlier).afterAll later :=
  List.foldl_append

theorem built_append (earlier later : List Step) :
    built (earlier ++ later) = (built earlier).afterAll later :=
  afterAll_append empty earlier later

theorem built_concat (steps : List Step) (step : Step) :
    built (steps ++ [step]) = step.after (built steps) :=
  built_append steps [step]

/-- A step that forgets is the only one that counts; any other counts besides those before. -/
theorem standing_concat (steps : List Step) (step : Step) :
    standing (steps ++ [step]) = if step.forgets then [step] else standing steps ++ [step] := by
  induction steps with
  | nil => simp [standing]
  | cons first rest ih =>
    rw [List.cons_append, standing, standing, ih]
    -- `standing` looks for the last step that forgets, which is the new one if it does
    cases hstep : step.forgets with
    | true => simp [hstep]
    | false =>
      cases hrest : rest.any Step.forgets with
      | true => simp [hstep, hrest]
      | false => simp [hstep, hrest]

theorem writes_concat (h : step.forgets = false) :
    writes (steps ++ [step]) = writes steps ++ step.pairs := by
  simp [writes, standing_concat, h]

theorem writes_concat_replace (pairs : List (String × String)) :
    writes (steps ++ [.replace pairs]) = pairs := by
  simp [writes, standing_concat, Step.forgets, Step.pairs]

theorem ofList_concat (pairs : List (String × String)) (path field : String) :
    Dict.ofList (pairs ++ [(path, field)]) = (Dict.ofList pairs).insert path field := by
  rw [Dict.ofList, Dict.insertAll, List.foldl_append]
  rfl

/-- The map holds the pairs that are written by the steps that count. -/
theorem fields_built (steps : List Step) : (built steps).fields = .ofList (writes steps) := by
  -- from the end, where a step either adds its pairs to the writes or starts them anew
  induction steps using List.reverseRecOn with
  | nil => rfl
  | append_singleton steps step ih =>
    rw [built_concat]
    cases step with
    | write path field =>
      rw [writes_concat rfl, Step.pairs, ofList_concat, ← ih]
      rfl
    | insert path field =>
      rw [writes_concat rfl, Step.pairs, ofList_concat, ← ih]
      rfl
    | tighten =>
      rw [writes_concat rfl, Step.pairs, List.append_nil, ← ih]
      rfl
    | replace pairs =>
      rw [writes_concat_replace]
      rfl

/-- The map is strict if it was made so by a step that counts. -/
theorem strict_built_iff (steps : List Step) :
    (built steps).strict = true ↔ Step.tighten ∈ standing steps := by
  induction steps using List.reverseRecOn with
  | nil => simp [built, afterAll, standing, empty]
  | append_singleton steps step ih =>
    rw [built_concat, standing_concat]
    cases step with
    | write path field => simpa [Step.after, FieldMap.insert, Step.forgets] using ih
    | insert path field =>
      simpa [Step.after, getThenInsert, FieldMap.insert, Step.forgets] using ih
    | tighten => simp [Step.after, toStrict, Step.forgets]
    | replace pairs => simp [Step.after, ofList, Step.forgets]

theorem get?_built (steps : List Step) (path : String) :
    (built steps).get? path = (writes steps).reverse.lookup path := by
  rw [get?, fields_built, Dict.get?_ofList]

theorem get?_built_eq_some_iff :
    (built steps).get? path = some field ↔ LastWrite (writes steps) path field := by
  rw [get?_built, lastWrite_iff]

theorem get?_built_eq_none_iff :
    (built steps).get? path = none ↔ ∀ pair ∈ writes steps, pair.1 ≠ path := by
  rw [get?_built, List.lookup_eq_none_iff]
  simp only [List.mem_reverse, bne_iff_ne, ne_comm]

/-- There are as many entries as different paths that are written. -/
theorem size_built (steps : List Step) :
    (built steps).size = ((writes steps).map Prod.fst).dedup.length := by
  refine Entries.size_eq_length_dedup fun path => ?_
  have hnone : (built steps).fields.get? path = none ↔ _ := get?_built_eq_none_iff
  rw [← Option.ne_none_iff_isSome, Ne, hnone]
  simp

/-- The answers of a field map in terms of the steps that it was made in. -/
structure Reflects (steps : List Step) (m : FieldMap) : Prop where
  /-- The field of a path is that of the last write to it. -/
  written : ∀ path field, m.get? path = some field ↔ LastWrite (writes steps) path field
  unwritten : ∀ path, m.get? path = none ↔ ∀ pair ∈ writes steps, pair.1 ≠ path
  /-- There are as many entries as different paths that were written. -/
  size : m.size = ((writes steps).map Prod.fst).dedup.length
  vanishing : m.isEmpty = true ↔ m.size = 0
  /-- The map is strict if it was made so since it was last replaced. -/
  strict : m.strict = true ↔ Step.tighten ∈ standing steps
  /-- A path is answered with the field that was last written. -/
  resolved : ∀ path field, LastWrite (writes steps) path field → m.resolve path = .ok field
  /-- A path that was not written is refused if the map is strict. -/
  refused : ∀ path, (∀ pair ∈ writes steps, pair.1 ≠ path) → Step.tighten ∈ standing steps →
    m.resolve path = .error (.unmapped path)
  /-- Otherwise it is its own field. -/
  own : ∀ path, (∀ pair ∈ writes steps, pair.1 ≠ path) → Step.tighten ∉ standing steps →
    m.resolve path = .ok path

theorem reflects_built (steps : List Step) : Reflects steps (built steps) where
  written _ _ := get?_built_eq_some_iff
  unwritten _ := get?_built_eq_none_iff
  size := size_built steps
  vanishing := Entries.isEmpty_iff_size _
  strict := strict_built_iff steps
  resolved path field h := by rw [resolve, get?_built_eq_some_iff.2 h]
  refused path h hstrict := by
    rw [resolve, get?_built_eq_none_iff.2 h, if_pos ((strict_built_iff steps).2 hstrict)]
  own path h hstrict := by
    rw [resolve, get?_built_eq_none_iff.2 h, if_neg (mt (strict_built_iff steps).1 hstrict)]

/-- What a step gives is a matter of the map that the steps before it make. -/
theorem getElem?_replies (m : FieldMap) (earlier later : List Step) (step : Step) :
    (m.replies (earlier ++ step :: later))[earlier.length]? =
      some (step.given (m.afterAll earlier)) := by
  induction earlier generalizing m with
  | nil => rfl
  | cons first rest ih => exact ih (first.after m)

/-! ## Writes that leave no trace -/

/-- Maps are equal if they are equally strict and hold the same fields, and only then. -/
theorem eq_iff_get? : m = n ↔ m.strict = n.strict ∧ ∀ path, m.get? path = n.get? path := by
  constructor
  · rintro rfl
    exact ⟨rfl, fun _ => rfl⟩
  · rintro ⟨hstrict, hget⟩
    exact ext_get? hstrict hget

/-- The step writes the field of a path. -/
inductive Step.Writes : Step → String → String → Prop where
  | write (path field : String) : Writes (.write path field) path field
  | insert (path field : String) : Writes (.insert path field) path field

theorem Step.Writes.after_eq (h : step.Writes path field) (m : FieldMap) :
    step.after m = m.insert path field := by
  cases h <;> rfl

/-- The maps are equally strict and differ at most in the field of one path. -/
structure AgreeOff (path : String) (m n : FieldMap) : Prop where
  strict : m.strict = n.strict
  get? : ∀ other ≠ path, m.get? other = n.get? other

namespace AgreeOff

theorem insert_self (m : FieldMap) (path field : String) :
    AgreeOff path (m.insert path field) m where
  strict := rfl
  get? other h := by rw [get?_insert, if_neg h]

theorem insert (h : AgreeOff path m n) (other field : String) :
    AgreeOff path (m.insert other field) (n.insert other field) where
  strict := h.strict
  get? q hq := by rw [get?_insert, get?_insert, h.get? q hq]

/-- A step does not make them differ elsewhere. -/
theorem after (h : AgreeOff path m n) (step : Step) :
    AgreeOff path (step.after m) (step.after n) := by
  cases step with
  | write other field => exact h.insert other field
  | insert other field => exact h.insert other field
  | tighten => exact ⟨rfl, h.get?⟩
  | replace pairs => exact ⟨rfl, fun _ _ => rfl⟩

/-- Nor do steps in a row. -/
theorem afterAll (h : AgreeOff path m n) (steps : List Step) :
    AgreeOff path (m.afterAll steps) (n.afterAll steps) := by
  induction steps generalizing m n with
  | nil => exact h
  | cons step later ih => exact ih (h.after step)

/-- A write to the path makes them equal. -/
theorem insert_eq (h : AgreeOff path m n) (field : String) :
    m.insert path field = n.insert path field := by
  refine ext_get? h.strict fun q => ?_
  rw [get?_insert, get?_insert]
  split
  · rfl
  · rename_i hq
    exact h.get? q hq

end AgreeOff

/-- A write leaves no trace if its path is written again, whatever comes in between. -/
theorem built_overwritten {first second : Step} {field' : String} (hfirst : first.Writes path field)
    (hsecond : second.Writes path field') (earlier between later : List Step) :
    built (earlier ++ first :: between ++ second :: later) =
      built (earlier ++ between ++ second :: later) := by
  have hagree : AgreeOff path (((built earlier).insert path field).afterAll between)
      ((built earlier).afterAll between) :=
    (AgreeOff.insert_self (built earlier) path field).afterAll between
  rw [built_append, built_append, built_append, built_append, afterAll_cons, afterAll_cons,
    afterAll_cons, hfirst.after_eq, hsecond.after_eq, hsecond.after_eq, hagree.insert_eq]

/-- The order of two writes leaves no trace if their paths differ. -/
theorem built_exchanged {first second : Step} {path' field' : String}
    (hfirst : first.Writes path field) (hsecond : second.Writes path' field') (hne : path ≠ path')
    (earlier later : List Step) :
    built (earlier ++ first :: second :: later) = built (earlier ++ second :: first :: later) := by
  have hcomm : ((built earlier).insert path field).insert path' field' =
      ((built earlier).insert path' field').insert path field := by
    refine ext_get? rfl fun q => ?_
    simp only [get?_insert]
    by_cases hq : q = path
    · subst hq
      simp [hne]
    · simp [hq]
  simp only [built_append, afterAll_cons, hfirst.after_eq, hsecond.after_eq, hcomm]

theorem afterAll_map_write (m : FieldMap) (pairs : List (String × String)) :
    m.afterAll (pairs.map fun pair => .write pair.1 pair.2) =
      { m with fields := m.fields.insertAll pairs } := by
  induction pairs generalizing m with
  | nil => rfl
  | cons pair rest ih =>
    rw [List.map_cons, afterAll_cons, ih]
    rfl

end FieldMap

/-! ## Configurations -/

namespace Config

/-- The step, if any, that makes the map of a configuration strict. -/
def tightening (c : Config) : List FieldMap.Step :=
  if c.strictFieldNames then [.tighten] else []

theorem afterAll_tightening (c : Config) (m : FieldMap) :
    m.afterAll c.tightening = if c.strictFieldNames then m.toStrict else m := by
  unfold tightening
  split <;> rfl

/-- The map of a configuration is made of its pairs in any order, written one by one or all at
once. -/
theorem fieldMap_eq_built (c : Config) {pairs : List (String × String)}
    (h : pairs.Perm c.fieldNames.toList) :
    c.fieldMap = .built (.replace pairs :: c.tightening) ∧
      c.fieldMap =
        .built (pairs.map (fun pair => .write pair.1 pair.2) ++ c.tightening) := by
  have hmap : c.fieldMap = (FieldMap.ofList pairs).afterAll c.tightening := by
    rw [afterAll_tightening, fieldMap, FieldMap.ofList, FieldMap.ofList, Dict.ofList_of_perm h,
      Dict.ofList_toList]
  refine ⟨hmap, ?_⟩
  rw [hmap, FieldMap.built_append, FieldMap.built, FieldMap.afterAll_map_write]
  rfl

end Config

/-- What the writes to field maps come to. -/
structure FieldMap.WriteLaws : Prop where
  /-- A map answers by the last write to each path since it was last replaced. -/
  reflects : ∀ steps, Reflects steps (built steps)
  /-- An insertion gives what the path was answered with just before. -/
  inserted : ∀ earlier later path field,
    (empty.replies (earlier ++ .insert path field :: later))[earlier.length]? =
      some ((built earlier).get? path)
  /-- Nothing but strictness and the fields of the paths tells maps apart. -/
  equal : ∀ steps steps', built steps = built steps' ↔
    (built steps).strict = (built steps').strict ∧
      ∀ path, (built steps).get? path = (built steps').get? path
  /-- A write leaves no trace if its path is written again. -/
  overwritten : ∀ (first second : Step) (path field field' : String), first.Writes path field →
    second.Writes path field' → ∀ earlier between later,
      built (earlier ++ first :: between ++ second :: later) =
        built (earlier ++ between ++ second :: later)
  /-- The order of writes leaves no trace if their paths differ. -/
  exchanged : ∀ (first second : Step) (path path' field field' : String), first.Writes path field →
    second.Writes path' field' → path ≠ path' → ∀ earlier later,
      built (earlier ++ first :: second :: later) = built (earlier ++ second :: first :: later)
  /-- The map of a configuration is made of its pairs in any order, and strict if it says so. -/
  configured : ∀ (c : Config) (pairs : List (String × String)), pairs.Perm c.fieldNames.toList →
    c.fieldMap = built (.replace pairs :: c.tightening) ∧
      c.fieldMap = built (pairs.map (fun pair => .write pair.1 pair.2) ++ c.tightening) ∧
      (c.fieldMap.strict = true ↔ c.strictFieldNames = true)

/-- A field map reflects the writes since it was last replaced: the last one of each path, and
nothing else but whether it was made strict. -/
theorem FieldMap.maps_reflect_writes : WriteLaws where
  reflects := reflects_built
  inserted earlier later path field := getElem?_replies empty earlier later (.insert path field)
  equal _ _ := eq_iff_get?
  overwritten _ _ _ _ _ hfirst hsecond earlier between later :=
    built_overwritten hfirst hsecond earlier between later
  exchanged _ _ _ _ _ _ hfirst hsecond hne earlier later :=
    built_exchanged hfirst hsecond hne earlier later
  configured c pairs h := by
    obtain ⟨hreplaced, hwritten⟩ := c.fieldMap_eq_built h
    exact ⟨hreplaced, hwritten, by rw [c.strict_fieldMap]⟩

-- replacing the map forgets that it was strict; the last of two pairs with one path counts
example :
    let m := FieldMap.built [.write "a" "x", .tighten, .replace [("b", "y"), ("b", "z")],
      .insert "c" "u"]
    m.resolve "a" = .ok "a" ∧ m.get? "b" = some "z" ∧ m.size = 2 ∧ m.strict = false := by
  decide

end AccessPlan
