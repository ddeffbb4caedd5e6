import AccessPlan.Filter.Equality
import Mathlib.Data.List.Forall2

/-!
# What filters are rendered as

The rendering of a filter says everything about it, and there is only one: the object that is built
and the object that is put out piece by piece are the same, as a JSON value and as a text.

* `Condition.agree_toJson`, `Filter.agree_toJson`: renderings compare as what they are renderings
  of.
* `Filter.rendering_tells_apart`: equal renderings come from equal filters
  (`Filter.RenderingLaws`).
* `Written.Gives`: what is written gives a JSON value and its text. `Condition.gives_toJson`,
  `Filter.gives_toJson`: a condition and a filter give what they are rendered as.
* `Filter.renderers_agree`: the same in terms of values and texts.
-/

namespace AccessPlan

variable {number : Number → Number → Bool}

/-! ## Renderings compare as filters -/

namespace Condition

theorem agree_toJson (c d : Condition) : c.toJson.agree number d.toJson = c.agree number d := by
  rw [toJson, toJson, Json.agree_single, agree_eq, key, key, Comparison.key_beq]

/-! The filters of a conjunction or disjunction stand in an array and a condition is an object, so
that no keys make the two agree. -/

theorem agree_single_arr (name key : String) (c : Condition) (items : List Json) :
    (Json.single name c.toJson).agree number (.single key (.arr items)) = false := by
  rw [Json.agree_single]
  exact Bool.and_false _

theorem single_arr_agree (key name : String) (items : List Json) (c : Condition) :
    (Json.single key (.arr items)).agree number (.single name c.toJson) = false := by
  rw [Json.agree_single]
  exact Bool.and_false _

end Condition

namespace Filter

mutual

/-- Renderings compare as the filters. -/
theorem agree_toJson : (f g : Filter) → f.toJson.agree number g.toJson = f.agree number g
  | .allOf fs, g => by
    cases g with
    | allOf gs =>
      rw [toJson, toJson, Json.agree_single, agree]
      exact agree_toJsonAll fs gs
    | anyOf gs =>
      rw [toJson, toJson, Json.agree_single]
      rfl
    | field name c => exact Condition.single_arr_agree "AND" name _ c
    | empty => rfl
  | .anyOf fs, g => by
    cases g with
    | allOf gs =>
      rw [toJson, toJson, Json.agree_single]
      rfl
    | anyOf gs =>
      rw [toJson, toJson, Json.agree_single, agree]
      exact agree_toJsonAll fs gs
    | field name c => exact Condition.single_arr_agree "OR" name _ c
    | empty => rfl
  | .field name c, g => by
    cases g with
    | allOf gs => exact Condition.agree_single_arr name "AND" c _
    | anyOf gs => exact Condition.agree_single_arr name "OR" c _
    | field other d => rw [toJson, toJson, Json.agree_single, Condition.agree_toJson, agree]
    | empty => rfl
  | .empty, g => by cases g <;> rfl

theorem agree_toJsonAll : (fs gs : List Filter) →
    Json.agreeItems number (toJsonAll fs) (toJsonAll gs) = agreeAll number fs gs
  | [], gs => by cases gs <;> rfl
  | f :: fs, [] => rfl
  | f :: fs, g :: gs => by
    rw [toJsonAll, toJsonAll, Json.agreeItems, agreeAll, agree_toJson f g, agree_toJsonAll fs gs]

end

theorem toJson_eq_iff (f g : Filter) : f.toJson = g.toJson ↔ f = g := by
  rw [← Json.agree_iff_eq, agree_toJson, agree_iff_eq]

theorem toJson_same (f g : Filter) : f.toJson.same g.toJson = f.same g := agree_toJson f g

/-- What the renderings of filters and conditions tell apart. -/
structure RenderingLaws : Prop where
  filters : ∀ f g : Filter, f.toJson = g.toJson ↔ f = g
  filtersAsJson : ∀ f g : Filter, f.toJson.same g.toJson = true ↔ f.same g = true
  conditions : ∀ c d : Condition, c.toJson = d.toJson ↔ c = d
  conditionsAsJson : ∀ c d : Condition, c.toJson.same d.toJson = true ↔ c.same d = true
  /-- A condition on a field is no conjunction, whatever the field is called. -/
  allOf : ∀ (name : String) (c : Condition) (fs : List Filter),
    (field name c).toJson.same (allOf fs).toJson = false
  /-- Nor is it a disjunction. -/
  anyOf : ∀ (name : String) (c : Condition) (fs : List Filter),
    (field name c).toJson.same (anyOf fs).toJson = false
  /-- Only the filter without constraint is rendered as this one is. -/
  unconstrained : ∀ f : Filter, f.toJson.same Filter.empty.toJson = true ↔ f = .empty

/-- Two filters have the same rendering if and only if they are equal, be it exactly or with
literals compared as JSON, and so have two conditions. -/
theorem rendering_tells_apart : RenderingLaws where
  filters := toJson_eq_iff
  filtersAsJson f g := by rw [toJson_same]
  conditions c d := by rw [← Json.agree_iff_eq, Condition.agree_toJson, Condition.agree_iff_eq]
  conditionsAsJson c d := by rw [Json.same, Condition.agree_toJson, Condition.same]
  allOf name c fs := by
    rw [toJson_same]
    rfl
  anyOf name c fs := by
    rw [toJson_same]
    rfl
  unconstrained f := by
    rw [toJson_same]
    cases f <;> simp [same, agree]

-- the field called `AND` is told from a conjunction by what stands under the key
example : (field "AND" (.oneOf [.obj .nil])).toJson.same (allOf [.empty]).toJson = false := rfl

end Filter

/-! ## What is put out is what is built -/

/-- What is written gives a JSON value: put into a value it is this one, put into a text it is the
text of this one. -/
structure Written.Gives (w : Written) (j : Json) : Prop where
  toJson : w.toJson = j
  text : w.text = j.text

namespace Written.Gives

variable {w : Written} {j : Json} {items : List Written} {values : List Json}

theorem json (value : Json) : (Written.json value).Gives value := ⟨rfl, rfl⟩

theorem emptyRecord : (record []).Gives (.obj .nil) := ⟨rfl, rfl⟩

theorem single (h : w.Gives j) (key : String) : (Written.single key w).Gives (.single key j) where
  toJson := by rw [toJson_single, h.toJson]
  text := by rw [text_single, Json.text_single, h.text]

theorem list (h : List.Forall₂ Gives items values) :
    (Written.list items).Gives (.arr values) := by
  have hitems : toItems items = values ∧ textItems items = Json.textItems values := by
    induction h with
    | nil => exact ⟨rfl, rfl⟩
    | cons h _ ih =>
      rw [toItems, textItems, Json.textItems, h.toJson, h.text, ih.1, ih.2]
      exact ⟨rfl, rfl⟩
  exact ⟨congrArg Json.arr hitems.1, by rw [Written.text, Json.text, hitems.2]⟩

end Written.Gives

/-- A condition is put out as it is rendered. -/
theorem Condition.gives_toJson (c : Condition) : c.written.Gives c.toJson := by
  cases c with
  | relate r literal => exact .single (.json literal) _
  | oneOf candidates =>
    refine .single (.list ?_) _
    rw [List.forall₂_map_left_iff, List.forall₂_same]
    exact fun candidate _ => .json candidate

namespace Filter

mutual

/-- A filter is put out as it is rendered. -/
theorem gives_toJson : (f : Filter) → f.written.Gives f.toJson
  | .allOf fs => .single (.list (givesAll_toJsonAll fs)) "AND"
  | .anyOf fs => .single (.list (givesAll_toJsonAll fs)) "OR"
  | .field name c => .single c.gives_toJson name
  | .empty => .emptyRecord

theorem givesAll_toJsonAll : (fs : List Filter) →
    List.Forall₂ Written.Gives (writtenAll fs) (toJsonAll fs)
  | [] => .nil
  | f :: rest => .cons (gives_toJson f) (givesAll_toJsonAll rest)

end

/-- A filter that is put out piece by piece becomes the value that it is rendered as, or the text of
this value, and so does a condition. -/
theorem renderers_agree :
    (∀ f : Filter, f.written.toJson = f.toJson ∧ f.written.text = f.toJson.text) ∧
      ∀ c : Condition, c.written.toJson = c.toJson ∧ c.written.text = c.toJson.text :=
  ⟨fun f => ⟨f.gives_toJson.toJson, f.gives_toJson.text⟩,
    fun c => ⟨c.gives_toJson.toJson, c.gives_toJson.text⟩⟩

end Filter

end AccessPlan
