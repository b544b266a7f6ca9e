/-
The form of a resource category (`services/logistics/app/services/form_schema.py`).

`validateDefinition` checks the fields an admin submits and returns them in a normal form, and
`validatePayload` checks the `extra_fields` of a request against it.  A normal field is a dict
in the source, and a record here: an entry that the dict may lack is an option.
-/
import Mathlib.Data.List.Sort
import Rcp.Common.Values

namespace Rcp
namespace Logistics
namespace FormSchema

def maxFields : Nat := 50

def maxOptions : Nat := 100

def specKeys : List String :=
  ["key", "label", "type", "required", "options", "min", "max", "max_length", "help_text"]

inductive FieldType
  | text
  | textarea
  | integer
  | number
  | boolean
  | date
  | select
  | multiselect
  | phone
  deriving DecidableEq, Repr

namespace FieldType

def value : FieldType → String
  | text => "text"
  | textarea => "textarea"
  | integer => "integer"
  | number => "number"
  | boolean => "boolean"
  | date => "date"
  | select => "select"
  | multiselect => "multiselect"
  | phone => "phone"

def all : List FieldType :=
  [text, textarea, integer, number, boolean, date, select, multiselect, phone]

/-- `FieldType(value)`.  Only strings name a type. -/
def ofJson? : Json → Option FieldType
  | .str s => all.find? fun type => type.value == s
  | _ => none

/-- `_NUMERIC`. -/
def isNumeric : FieldType → Bool
  | integer | number => true
  | _ => false

/-- `_CHOICE`. -/
def isChoice : FieldType → Bool
  | select | multiselect => true
  | _ => false

/-- `_DEFAULT_MAX_LENGTH`.  The types it has are `_TEXTUAL`. -/
def defaultMaxLength : FieldType → Option Nat
  | text => some 500
  | textarea => some 5000
  | phone => some 30
  | _ => none

end FieldType

/-- A field in normal form. -/
structure Spec where
  key : String
  label : String
  type : FieldType
  required : Bool
  helpText : Option String := none
  options : Option (List String) := none
  min : Option Number := none
  max : Option Number := none
  maxLength : Option Int := none

/-! ## Definitions -/

/-- `FormSchemaError`, one constructor for each place that raises it. -/
inductive SchemaError
  | notAList
  | tooManyFields
  | duplicateKey (key : String)
  | notAnObject (index : Nat)
  | unsupportedKeys (index : Nat) (keys : List String)
  | badKey (index : Nat)
  | unknownType (key : String)
  | badLabel (key : String)
  | badRequired (key : String)
  | badHelpText (key : String)
  | noOptions (key : String) (type : FieldType)
  | tooManyOptions (key : String)
  | badOption (key : String)
  | duplicateOption (key : String)
  | optionsNotAllowed (key : String)
  | notANumber (key name : String)
  | emptyRange (key : String)
  | boundsNotAllowed (key : String)
  | badMaxLength (key : String)
  | maxLengthExceeds (key : String) (limit : Nat)
  | maxLengthNotAllowed (key : String)

/-- The text of the exception, for a `repr` of the keys that are not supported. -/
def SchemaError.message (repr : List String → String) : SchemaError → String
  | notAList => "form_schema must be a list of field definitions"
  | tooManyFields => "form_schema may define at most " ++ toString maxFields ++ " fields"
  | duplicateKey key => "duplicate field key '" ++ key ++ "'"
  | notAnObject index =>
      "field #" ++ toString index ++ ": each field definition must be an object"
  | unsupportedKeys index keys =>
      "field #" ++ toString index ++ ": unsupported keys " ++ repr keys
  | badKey index =>
      "field #" ++ toString index ++ ": 'key' must be lower snake_case starting with a letter"
  | unknownType key => "field '" ++ key ++ "': 'type' must be one of " ++
      pyReprList ((FieldType.all.map FieldType.value).insertionSort (· ≤ ·))
  | badLabel key => "field '" ++ key ++ "': 'label' must be a non-empty string"
  | badRequired key => "field '" ++ key ++ "': 'required' must be a boolean"
  | badHelpText key => "field '" ++ key ++ "': 'help_text' must be a string"
  | noOptions key type =>
      "field '" ++ key ++ "': '" ++ type.value ++ "' requires a non-empty 'options' list"
  | tooManyOptions key => "field '" ++ key ++ "': at most " ++ toString maxOptions ++ " options"
  | badOption key => "field '" ++ key ++ "': 'options' must be non-empty strings"
  | duplicateOption key => "field '" ++ key ++ "': 'options' contains duplicates"
  | optionsNotAllowed key =>
      "field '" ++ key ++ "': 'options' only applies to select/multiselect"
  | notANumber key name => "field '" ++ key ++ "': '" ++ name ++ "' must be a number"
  | emptyRange key => "field '" ++ key ++ "': 'min' is greater than 'max'"
  | boundsNotAllowed key => "field '" ++ key ++ "': 'min'/'max' only apply to numeric fields"
  | badMaxLength key => "field '" ++ key ++ "': 'max_length' must be a positive integer"
  | maxLengthExceeds key limit =>
      "field '" ++ key ++ "': 'max_length' may not exceed " ++ toString limit
  | maxLengthNotAllowed key => "field '" ++ key ++ "': 'max_length' only applies to text fields"

/-- `[a-z]`. -/
def isKeyStart (c : Char) : Bool := decide ('a' ≤ c ∧ c ≤ 'z')

/-- `[a-z0-9_]`. -/
def isKeyChar (c : Char) : Bool :=
  decide (('a' ≤ c ∧ c ≤ 'z') ∨ ('0' ≤ c ∧ c ≤ '9') ∨ c = '_')

/-- `KEY_PATTERN.match(s)`.  The dollar matches at the end of the text and also before a
newline at its end. -/
def keyPattern (s : String) : Bool :=
  match s.toList with
  | [] => false
  | c :: rest =>
      let body := rest.takeWhile isKeyChar
      let tail := rest.dropWhile isKeyChar
      isKeyStart c && decide (body.length ≤ 49) && (tail == [] || tail == ['\n'])

def readKey (raw : Object) (index : Nat) : Except SchemaError String :=
  match raw.get? "key" with
  | some (.str key) => if keyPattern key then .ok key else .error (.badKey index)
  | _ => .error (.badKey index)

def readType (raw : Object) (key : String) : Except SchemaError FieldType :=
  match FieldType.ofJson? ((raw.get? "type").getD .null) with
  | some type => .ok type
  | none => .error (.unknownType key)

def readLabel (raw : Object) (key : String) : Except SchemaError String :=
  match (raw.get? "label").getD (.str key) with
  | .str label => if strip label = "" then .error (.badLabel key) else .ok label
  | _ => .error (.badLabel key)

def readRequired (raw : Object) (key : String) : Except SchemaError Bool :=
  match (raw.get? "required").getD (.bool false) with
  | .bool required => .ok required
  | _ => .error (.badRequired key)

def readHelpText (raw : Object) (key : String) : Except SchemaError (Option String) :=
  match (raw.get? "help_text").getD .null with
  | .null => .ok none
  | .str text => .ok (some text)
  | _ => .error (.badHelpText key)

/-- The options as texts, when none of them is blank or no string. -/
def optionTexts : List Json → Option (List String)
  | [] => some []
  | .str s :: rest => if strip s = "" then none else (optionTexts rest).map (s :: ·)
  | _ :: _ => none

def readOptions (raw : Object) (key : String) (type : FieldType) :
    Except SchemaError (Option (List String)) :=
  if type.isChoice then
    match raw.get? "options" with
    | some (.arr (first :: others)) => do
        refuse (maxOptions < (first :: others).length) (.tooManyOptions key)
        match optionTexts (first :: others) with
        | none => .error (.badOption key)
        | some texts =>
            if texts.Nodup then .ok (some texts) else .error (.duplicateOption key)
    | _ => .error (.noOptions key type)
  else if (raw.get? "options").isSome then .error (.optionsNotAllowed key)
  else .ok none

/-- `_optional_number`. -/
def optionalNumber (raw : Object) (name key : String) : Except SchemaError (Option Number) :=
  match raw.get? name with
  | none => .ok none
  | some value =>
      match Number.ofJson? value with
      | some number => .ok (some number)
      | none => .error (.notANumber key name)

/-- Both numbers are given and the first one is greater. -/
def exceeds : Option Number → Option Number → Bool
  | some minimum, some maximum => maximum.value.lt minimum.value
  | _, _ => false

def readBounds (raw : Object) (key : String) (type : FieldType) :
    Except SchemaError (Option Number × Option Number) :=
  if type.isNumeric then do
    let minimum ← optionalNumber raw "min" key
    let maximum ← optionalNumber raw "max" key
    refuse (exceeds minimum maximum = true) (.emptyRange key)
    return (minimum, maximum)
  else if (raw.get? "min").isSome ∨ (raw.get? "max").isSome then .error (.boundsNotAllowed key)
  else .ok (none, none)

def readMaxLength (raw : Object) (key : String) (type : FieldType) :
    Except SchemaError (Option Int) :=
  match type.defaultMaxLength with
  | some limit =>
      match (raw.get? "max_length").getD (.int limit) with
      | .int n => do
          refuse (n ≤ 0) (.badMaxLength key)
          refuse ((limit : Int) < n) (.maxLengthExceeds key limit)
          return some n
      | _ => .error (.badMaxLength key)
  | none =>
      if (raw.get? "max_length").isSome then .error (.maxLengthNotAllowed key)
      else .ok none

/-- The checks of a field that is an object. -/
def validateFieldObject (raw : Object) (index : Nat) : Except SchemaError Spec := do
  let unknown := raw.keys.filter fun key => key ∉ specKeys
  refuse (unknown ≠ []) (.unsupportedKeys index (unknown.insertionSort (· ≤ ·)))
  let key ← readKey raw index
  let type ← readType raw key
  let label ← readLabel raw key
  let required ← readRequired raw key
  let helpText ← readHelpText raw key
  let options ← readOptions raw key type
  let (minimum, maximum) ← readBounds raw key type
  let maxLength ← readMaxLength raw key type
  return {
    key := key
    label := label
    type := type
    required := required
    helpText := helpText
    options := options
    min := minimum
    max := maximum
    maxLength := maxLength }

/-- `_validate_field_spec`. -/
def validateFieldSpec (raw : Json) (index : Nat) : Except SchemaError Spec :=
  match raw with
  | .obj raw => validateFieldObject raw index
  | _ => .error (.notAnObject index)

/-- The loop of `validate_definition` over the fields. -/
def validateFields : List Json → Nat → List String → Except SchemaError (List Spec)
  | [], _, _ => .ok []
  | raw :: rest, index, seen => do
      let spec ← validateFieldSpec raw index
      refuse (spec.key ∈ seen) (.duplicateKey spec.key)
      let specs ← validateFields rest (index + 1) (spec.key :: seen)
      return spec :: specs

def validateDefinition (formSchema : Json) : Except SchemaError (Option (List Spec)) :=
  match formSchema with
  | .null => .ok none
  | .arr fields => do
      refuse (maxFields < fields.length) .tooManyFields
      let specs ← validateFields fields 0 []
      return some specs
  | _ => .error .notAList

/-! ## Payloads -/

/-- The text of a `ValueError`, as the data it is made of. -/
inductive Message
  | mustBeObject
  | notDefined
  | required (label : String)
  | mustBeText
  | atMostCharacters (maxLength : Int)
  | wholeNumber
  | nanToInteger
  | mustBeNumber
  | atLeast (minimum : Number)
  | atMost (maximum : Number)
  | trueOrFalse
  | isoDate
  | oneOf (options : List String)
  | listOfOptions
  | notOffered (invalid : List Json)
  | duplicateOptions

/-- The text itself, for a `repr` of JSON values. -/
def Message.text (repr : Json → String) : Message → String
  | mustBeObject => "must be an object"
  | notDefined => "not defined on this category"
  | required label => "'" ++ label ++ "' is required"
  | mustBeText => "must be text"
  | atMostCharacters maxLength => "must be at most " ++ toString maxLength ++ " characters"
  | wholeNumber => "must be a whole number"
  | nanToInteger => "cannot convert float NaN to integer"
  | mustBeNumber => "must be a number"
  | atLeast minimum => "must be at least " ++ repr minimum.json
  | atMost maximum => "must be at most " ++ repr maximum.json
  | trueOrFalse => "must be true or false"
  | isoDate => "must be an ISO date (YYYY-MM-DD)"
  | oneOf options => "must be one of " ++ repr (.arr (options.map .str))
  | listOfOptions => "must be a list of options"
  | notOffered invalid => "contains options not offered: " ++ repr (.arr invalid)
  | duplicateOptions => "contains duplicate options"

/-- What a coercion may raise. -/
inductive Raised
  | valueError (message : Message)
  | overflowError
  | typeError
  | keyError (key : String)

structure FieldError where
  field : String
  message : Message

/-- What `validate_payload` may raise. -/
inductive Failure
  | formValidationError (errors : List FieldError)
  | raised (e : Raised)

/-- `bool(value)`. -/
def truthy : Json → Bool
  | .null => false
  | .bool b => b
  | .int n => n != 0
  | .float x => x != .finite 0
  | .str s => s != ""
  | .arr xs => !xs.isEmpty
  | .obj entries => !entries.isEmpty

/-- `_is_blank`. -/
def isBlank : Json → Bool
  | .null => true
  | .str s => strip s == ""
  | .arr xs => xs.isEmpty
  | _ => false

/-- `_to_number`. -/
def toNumber (value : Json) : Except Raised Number :=
  match Number.ofJson? value with
  | some number => .ok number
  | none => .error (.valueError .mustBeNumber)

/-- `int(number)`. -/
def toInt : Number → Except Raised Int
  | .int n => .ok n
  | .float (.finite q) => .ok (Number.trunc q)
  | .float .nan => .error (.valueError .nanToInteger)
  | .float .posInf | .float .negInf => .error .overflowError

def checkMin (spec : Spec) (number : Number) : Except Raised Unit :=
  match spec.min with
  | some minimum =>
      refuse (number.value.lt minimum.value = true) (.valueError (.atLeast minimum))
  | none => .ok ()

def checkMax (spec : Spec) (number : Number) : Except Raised Unit :=
  match spec.max with
  | some maximum =>
      refuse (maximum.value.lt number.value = true) (.valueError (.atMost maximum))
  | none => .ok ()

/-- `_check_range`. -/
def checkRange (spec : Spec) (number : Number) : Except Raised Number := do
  checkMin spec number
  checkMax spec number
  return number

def coerceText (spec : Spec) (limit : Nat) : Json → Except Raised Json
  | .str value => do
      let text := strip value
      let maxLength := spec.maxLength.getD limit
      refuse (maxLength < text.length) (.valueError (.atMostCharacters maxLength))
      return .str text
  | _ => .error (.valueError .mustBeText)

def coerceInteger (spec : Spec) (value : Json) : Except Raised Json := do
  let number ← toNumber value
  let n ← toInt number
  refuse (number.value ≠ .finite n) (.valueError .wholeNumber)
  let result ← checkRange spec (.int n)
  return result.json

def coerceNumber (spec : Spec) (value : Json) : Except Raised Json := do
  let number ← toNumber value
  let result ← checkRange spec number
  return result.json

/-- No character outside ASCII has a lower case among the letters of the two words. -/
def coerceBoolean : Json → Except Raised Json
  | .bool b => .ok (.bool b)
  | .str s =>
      if lower s = "true" then .ok (.bool true)
      else if lower s = "false" then .ok (.bool false)
      else .error (.valueError .trueOrFalse)
  | _ => .error (.valueError .trueOrFalse)

/-- `value.replace("Z", "+00:00")`. -/
def replaceZ (s : String) : String :=
  String.ofList (s.toList.flatMap fun c => if c = 'Z' then "+00:00".toList else [c])

def coerceDate : Json → Except Raised Json
  | .str s =>
      match Date.fromIsoformat s with
      | some parsed => .ok (.str parsed.isoformat)
      | none =>
          match Date.fromDatetime (replaceZ s) with
          | some parsed => .ok (.str parsed.isoformat)
          | none => .error (.valueError .isoDate)
  | _ => .error (.valueError .isoDate)

/-- `spec["options"]`. -/
def offered (spec : Spec) : Except Raised (List String) :=
  match spec.options with
  | some options => .ok options
  | none => .error (.keyError "options")

/-- `value in options`. -/
def isOffered (options : List String) (value : Json) : Bool :=
  options.any fun option => value.pyEq (.str option)

def coerceSelect (spec : Spec) (value : Json) : Except Raised Json := do
  let options ← offered spec
  refuse (isOffered options value = false) (.valueError (.oneOf options))
  return value

def hashable : Json → Bool
  | .arr _ | .obj _ => false
  | _ => true

/-- `len(set(values)) == len(values)`. -/
def distinct : List Json → Bool
  | [] => true
  | value :: rest => !(rest.any fun other => value.pyEq other) && distinct rest

def coerceMultiselect (spec : Spec) : Json → Except Raised Json
  | .arr values => do
      let options ← offered spec
      let invalid := values.filter fun item => !isOffered options item
      refuse (invalid.isEmpty = false) (.valueError (.notOffered invalid))
      refuse (values.all hashable = false) .typeError
      refuse (distinct values = false) (.valueError .duplicateOptions)
      return .arr values
  | _ => .error (.valueError .listOfOptions)

/-- `_coerce`. -/
def coerce (spec : Spec) (value : Json) : Except Raised Json :=
  match spec.type.defaultMaxLength with
  | some limit => coerceText spec limit value
  | none =>
      match spec.type with
      | .integer => coerceInteger spec value
      | .number => coerceNumber spec value
      | .boolean => coerceBoolean value
      | .date => coerceDate value
      | .select => coerceSelect spec value
      | _ => coerceMultiselect spec value

/-- `payload.get(key)`. -/
def given (payload : Object) (key : String) : Json := (payload.get? key).getD .null

/-- The loop of `validate_payload` over the fields.  It catches a `ValueError` and nothing
else. -/
def coerceFields (payload : Object) : List Spec → Object → List FieldError →
    Except Raised (Object × List FieldError)
  | [], coerced, errors => .ok (coerced, errors)
  | spec :: rest, coerced, errors =>
      let value := given payload spec.key
      if isBlank value then
        if spec.required then
          coerceFields payload rest coerced (errors ++ [⟨spec.key, .required spec.label⟩])
        else coerceFields payload rest coerced errors
      else
        match coerce spec value with
        | .ok x => coerceFields payload rest (coerced.set spec.key x) errors
        | .error (.valueError message) =>
            coerceFields payload rest coerced (errors ++ [⟨spec.key, message⟩])
        | .error e => .error e

/-- The loop of `validate_payload` over the keys of the payload. -/
def undefinedKeys (specs : List Spec) (payload : Object) : List FieldError :=
  (payload.keys.filter fun key => key ∉ specs.map Spec.key).map fun key => ⟨key, .notDefined⟩

def validateObject (specs : List Spec) (payload : Object) : Except Failure (Option Object) :=
  match coerceFields payload specs [] (undefinedKeys specs payload) with
  | .error e => .error (.raised e)
  | .ok (coerced, errors) =>
      if errors.isEmpty = false then .error (.formValidationError errors)
      else .ok (if coerced.isEmpty then none else some coerced)

/-- `extra_fields or {}`, when that is a dict. -/
def payloadOf : Json → Option Object
  | .obj payload => some payload
  | other => if truthy other then none else some []

def validatePayload (formSchema : Option (List Spec)) (extraFields : Json) :
    Except Failure (Option Object) :=
  match payloadOf extraFields with
  | none => .error (.formValidationError [⟨"extra_fields", .mustBeObject⟩])
  | some payload => validateObject (formSchema.getD []) payload

end FormSchema
end Logistics
end Rcp
