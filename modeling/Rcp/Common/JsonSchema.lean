/-
JSON Schema, as far as the event contracts use it.

A schema says what it asks of a value by keywords, and every keyword asks something of
the values of one kind only: `minimum` of numbers, `maxLength` and `pattern` of strings,
`required`, `properties` and `additionalProperties` of objects, `items` of arrays.
`format` is an annotation and asks nothing.
-/
import Rcp.Common.Python

namespace Rcp
namespace JsonSchema

inductive Kind
  | object
  | array
  | string
  | integer
  | number
  | boolean
  | null
  deriving DecidableEq

/-- A value is of the kind.  A float without a fraction is an integer too, and a Boolean is
no number. -/
def Kind.holds : Kind → Json → Bool
  | object, .obj _ => true
  | array, .arr _ => true
  | string, .str _ => true
  | integer, .int _ => true
  | integer, .float (.finite q) => q.den == 1
  | number, .int _ => true
  | number, .float _ => true
  | boolean, .bool _ => true
  | null, .null => true
  | _, _ => false

/-- The keywords that look at the value itself. -/
structure Keywords where
  /-- No kind at all stands for an absent `type`. -/
  type : List Kind := []
  enum : Option (List String) := none
  minimum : Option Int := none
  maxLength : Option Nat := none
  pattern : Option (String → Bool) := none
  required : List String := []
  additionalProperties : Bool := true

inductive Schema
  | mk (keywords : Keywords) (properties : List (String × Schema)) (items : Option Schema)

def Schema.keywords : Schema → Keywords
  | mk keywords _ _ => keywords

def Schema.properties : Schema → List (String × Schema)
  | mk _ properties _ => properties

def Schema.items : Schema → Option Schema
  | mk _ _ items => items

namespace Keywords

def acceptsMinimum (keywords : Keywords) (value : Json) : Bool :=
  match keywords.minimum, value with
  | some least, .int n => decide (least ≤ n)
  | some least, .float (.finite q) => decide ((least : Rat) ≤ q)
  | some _, .float .negInf => false
  | _, _ => true

def acceptsEnum (keywords : Keywords) (value : Json) : Bool :=
  match keywords.enum, value with
  | none, _ => true
  | some values, .str s => values.contains s
  | some _, _ => false

def acceptsText (keywords : Keywords) (value : Json) : Bool :=
  match value with
  | .str s => keywords.maxLength.all (fun most => decide (s.length ≤ most)) &&
      keywords.pattern.all fun pattern => pattern s
  | _ => true

/-- `required` and `additionalProperties`, `names` being the names of the properties. -/
def acceptsKeys (keywords : Keywords) (names : List String) (value : Json) : Bool :=
  match value with
  | .obj entries => (keywords.required.all fun name => (Dict.keys entries).contains name) &&
      (keywords.additionalProperties || (Dict.keys entries).all fun key => names.contains key)
  | _ => true

def accepts (keywords : Keywords) (names : List String) (value : Json) : Bool :=
  (keywords.type == [] || keywords.type.any fun kind => kind.holds value) &&
    keywords.acceptsEnum value && keywords.acceptsMinimum value && keywords.acceptsText value &&
    keywords.acceptsKeys names value

end Keywords

mutual

def Schema.accepts : Schema → Json → Bool
  | .mk keywords properties items, value =>
      keywords.accepts (properties.map Prod.fst) value && acceptsProperties properties value &&
        acceptsItems items value

/-- Every entry of an object that a property names is accepted by it. -/
def acceptsProperties : List (String × Schema) → Json → Bool
  | [], _ => true
  | property :: rest, value => acceptsProperty property value && acceptsProperties rest value

def acceptsProperty : String × Schema → Json → Bool
  | (name, schema), value =>
      match value with
      | .obj entries =>
          match Dict.get? entries name with
          | none => true
          | some entry => schema.accepts entry
      | _ => true

def acceptsItems : Option Schema → Json → Bool
  | none, _ => true
  | some schema, value =>
      match value with
      | .arr xs => xs.all fun x => schema.accepts x
      | _ => true

end

attribute [local simp] Kind.holds Keywords.acceptsMinimum Keywords.acceptsEnum
  Keywords.acceptsText Keywords.acceptsKeys Keywords.accepts Schema.accepts acceptsProperties
  acceptsProperty acceptsItems

/-! ## Objects -/

theorem get?_nil {V : Type} {key : String} : Dict.get? ([] : Dict String V) key = none := rfl

/- A proof by `rfl` alone would let `simp` compute the comparison of two keys. -/
theorem get?_cons {V : Type} {key : String} (entry : String × V) (entries : Dict String V) :
    Dict.get? (entry :: entries) key =
      if entry.1 = key then some entry.2 else Dict.get? entries key := by
  cases entry
  rfl

theorem acceptsProperties_iff {properties : List (String × Schema)} {entries : Object} :
    acceptsProperties properties (.obj entries) = true ↔
      ∀ property ∈ properties, ∀ value, entries.get? property.1 = some value →
        property.2.accepts value = true := by
  induction properties with
  | nil => simp [acceptsProperties]
  | cons property rest ih =>
      obtain ⟨name, schema⟩ := property
      rw [acceptsProperties, Bool.and_eq_true, ih, List.forall_mem_cons]
      refine and_congr_left fun _ => ?_
      rw [acceptsProperty]
      cases hget : Dict.get? entries name with
      | none => simp
      | some value => simp

/-- What a schema for objects asks of one. -/
theorem accepts_object_iff {schema : Schema} {entries : Object}
    (hkind : .object ∈ schema.keywords.type) (henum : schema.keywords.enum = none)
    (hitems : schema.items = none) :
    schema.accepts (.obj entries) = true ↔
      (∀ name ∈ schema.keywords.required, name ∈ entries.keys) ∧
        (schema.keywords.additionalProperties = true ∨
          ∀ key ∈ entries.keys, key ∈ schema.properties.map Prod.fst) ∧
        ∀ property ∈ schema.properties, ∀ value, entries.get? property.1 = some value →
          property.2.accepts value = true := by
  obtain ⟨keywords, properties, items⟩ := schema
  simp only [Schema.keywords, Schema.items, Schema.properties] at hkind henum hitems ⊢
  subst hitems
  have hany : (keywords.type.any fun kind => kind.holds (.obj entries)) = true :=
    List.any_eq_true.mpr ⟨.object, hkind, rfl⟩
  rw [Schema.accepts, Bool.and_eq_true, Bool.and_eq_true, acceptsProperties_iff]
  simp only [Keywords.accepts, Keywords.acceptsEnum, Keywords.acceptsMinimum,
    Keywords.acceptsText, Keywords.acceptsKeys, hany, henum, Bool.or_true, acceptsItems]
  cases keywords.minimum <;> simp [and_assoc]

/-! ## Schemas by kind -/

/-- A schema without properties or items. -/
def leaf (keywords : Keywords) : Schema := .mk keywords [] none

def text : Schema := leaf { type := [.string] }

def textOrNull : Schema := leaf { type := [.string, .null] }

def oneOf (values : List String) : Schema := leaf { type := [.string], enum := some values }

def atLeast (least : Int) : Schema := leaf { type := [.integer], minimum := some least }

def numberOrNull : Schema := leaf { type := [.number, .null] }

def boolean : Schema := leaf { type := [.boolean] }

def record (required : List String) (properties : List (String × Schema)) : Schema :=
  .mk { type := [.object], required := required } properties none

/-- An object with these properties only. -/
def sealedRecord (required : List String) (properties : List (String × Schema)) : Schema :=
  .mk { type := [.object], required := required, additionalProperties := false } properties none

def recordOrNull (properties : List (String × Schema)) : Schema :=
  .mk { type := [.object, .null] } properties none

def listOf (items : Schema) : Schema := .mk { type := [.array] } [] (some items)

/-- A schema without properties asks for no more than its keywords. -/
theorem leaf_accepts {keywords : Keywords} {value : Json} :
    (leaf keywords).accepts value = keywords.accepts [] value := by
  simp [leaf, Schema.accepts, acceptsProperties, acceptsItems]

section Kinds

variable {s : String} {n : Int} {b : Bool}

@[simp] theorem text_accepts : text.accepts (.str s) = true := rfl

@[simp] theorem text_accepts_null : text.accepts .null = false := rfl

@[simp] theorem textOrNull_accepts : textOrNull.accepts (.str s) = true := rfl

@[simp] theorem textOrNull_accepts_null : textOrNull.accepts .null = true := rfl

@[simp] theorem boolean_accepts : boolean.accepts (.bool b) = true := rfl

@[simp] theorem numberOrNull_accepts {x : PyFloat} : numberOrNull.accepts (.float x) = true := rfl

@[simp] theorem numberOrNull_accepts_null : numberOrNull.accepts .null = true := rfl

@[simp] theorem oneOf_accepts {values : List String} :
    (oneOf values).accepts (.str s) = values.contains s := by
  simp [oneOf, leaf_accepts, Keywords.accepts, Keywords.acceptsEnum, Keywords.acceptsMinimum,
    Keywords.acceptsText, Keywords.acceptsKeys, Kind.holds]

@[simp] theorem atLeast_accepts {least : Int} :
    (atLeast least).accepts (.int n) = decide (least ≤ n) := by
  simp [atLeast, leaf_accepts, Keywords.accepts, Keywords.acceptsEnum, Keywords.acceptsMinimum,
    Keywords.acceptsText, Keywords.acceptsKeys, Kind.holds]

@[simp] theorem pattern_accepts {pattern : String → Bool} :
    (leaf { type := [.string], pattern := some pattern }).accepts (.str s) = pattern s := by
  simp [leaf_accepts, Keywords.accepts, Keywords.acceptsEnum, Keywords.acceptsMinimum,
    Keywords.acceptsText, Keywords.acceptsKeys, Kind.holds]

@[simp] theorem maxLength_accepts {most : Nat} :
    (leaf { type := [.string], maxLength := some most }).accepts (.str s) =
      decide (s.length ≤ most) := by
  simp [leaf_accepts, Keywords.accepts, Keywords.acceptsEnum, Keywords.acceptsMinimum,
    Keywords.acceptsText, Keywords.acceptsKeys, Kind.holds]

@[simp] theorem object_accepts {entries : Object} :
    (leaf { type := [.object] }).accepts (.obj entries) = true := by
  simp [leaf_accepts, Keywords.accepts, Keywords.acceptsEnum, Keywords.acceptsMinimum,
    Keywords.acceptsText, Keywords.acceptsKeys, Kind.holds]

theorem record_accepts {required : List String} {properties : List (String × Schema)}
    {entries : Object} :
    (record required properties).accepts (.obj entries) = true ↔
      (∀ name ∈ required, name ∈ entries.keys) ∧
        ∀ property ∈ properties, ∀ value, entries.get? property.1 = some value →
          property.2.accepts value = true := by
  have hiff : (record required properties).accepts (.obj entries) = true ↔ _ :=
    accepts_object_iff (List.mem_singleton.mpr rfl) rfl rfl
  simpa [record, Schema.keywords, Schema.properties] using hiff

theorem recordOrNull_accepts {properties : List (String × Schema)} {entries : Object} :
    (recordOrNull properties).accepts (.obj entries) = true ↔
      ∀ property ∈ properties, ∀ value, entries.get? property.1 = some value →
        property.2.accepts value = true := by
  have hiff : (recordOrNull properties).accepts (.obj entries) = true ↔ _ :=
    accepts_object_iff List.mem_cons_self rfl rfl
  simpa [recordOrNull, Schema.keywords, Schema.properties] using hiff

end Kinds

end JsonSchema
end Rcp
