/-
What `validate_payload` answers for an accepted definition.

Three properties of the answer fail at the edges of the numbers: NaN passes the range check of
a field, an infinite value for an integer field raises an exception that nobody catches, and an
integer field may have bounds with no integer between them.
-/
import Rcp.Logistics.FormPayload

namespace Rcp
namespace Logistics
namespace FormSchema

/-! ## The answer -/

theorem accepted_definition {v : Json} {definition : Option (List Spec)}
    (h : validateDefinition v = .ok definition) : Accepted (definition.getD []) := by
  cases definition with
  | none => exact ⟨by simp, List.nodup_nil, fun spec hspec => by cases hspec⟩
  | some specs => exact (validateDefinition_ok h).1

section Answer

variable {specs : List Spec} {payload : Object}

theorem Accepted.normal (h : Accepted specs) {spec : Spec} (hspec : spec ∈ specs) :
    Normal spec := by
  obtain ⟨raw, hraw⟩ := h.each spec hspec
  exact hraw.toNormal

/-- Without an infinite value for an integer field the answer lists all errors. -/
theorem validateObject_eq (h : Accepted specs)
    (hfinite : ∀ spec ∈ specs, ¬ Infinite spec (given payload spec.key)) :
    validateObject specs payload =
      if (undefinedKeys specs payload ++ fieldErrors payload specs).isEmpty = false then
        .error (.formValidationError (undefinedKeys specs payload ++ fieldErrors payload specs))
      else .ok (if (values payload specs).isEmpty then none else some (values payload specs)) := by
  have hcaught : ∀ spec ∈ specs, uncaught payload spec = none :=
    fun spec hspec => (uncaught_eq_none_iff (h.normal hspec)).mpr (hfinite spec hspec)
  have hloop : coerceFields payload specs [] (undefinedKeys specs payload) =
      .ok ([] ++ values payload specs, undefinedKeys specs payload ++ fieldErrors payload specs) :=
    coerceFields_eq hcaught h.keys fun spec _ => by simp [Dict.keys]
  unfold validateObject
  rw [hloop]
  rfl

theorem validateObject_raises (h : Accepted specs) {spec : Spec} (hspec : spec ∈ specs)
    (hinfinite : Infinite spec (given payload spec.key)) :
    ∃ e, validateObject specs payload = .error (.raised e) := by
  have huncaught : ∃ e, uncaught payload spec = some e := by
    refine Option.ne_none_iff_exists'.mp fun hnone => ?_
    exact (uncaught_eq_none_iff (h.normal hspec)).mp hnone hinfinite
  obtain ⟨e, he⟩ := huncaught
  have hloop : ∃ e', coerceFields payload specs [] (undefinedKeys specs payload) = .error e' :=
    coerceFields_raises hspec he
  obtain ⟨e', he'⟩ := hloop
  refine ⟨e', ?_⟩
  unfold validateObject
  rw [he']

theorem mem_values {entry : String × Json} : entry ∈ values payload specs ↔
    ∃ spec ∈ specs, spec.key = entry.1 ∧ fieldValue payload spec = some entry.2 := by
  simp only [values, List.mem_filterMap, Option.map_eq_some_iff]
  constructor
  · rintro ⟨spec, hspec, x, hx, rfl⟩
    exact ⟨spec, hspec, rfl, hx⟩
  · rintro ⟨spec, hspec, hkey, hx⟩
    exact ⟨spec, hspec, entry.2, hx, by rw [hkey]⟩

theorem keys_values_sublist (payload : Object) (specs : List Spec) :
    (values payload specs).keys.Sublist (specs.map Spec.key) := by
  have hkeys : (values payload specs).keys =
      (specs.filter fun spec => (fieldValue payload spec).isSome).map Spec.key := by
    unfold values Dict.keys
    induction specs with
    | nil => rfl
    | cons spec rest ih =>
        cases hvalue : fieldValue payload spec with
        | none => simp [hvalue, ih]
        | some x => simp [hvalue, ih]
  rw [hkeys]
  exact List.filter_sublist.map _

/-- A field is found under its key, as the keys are distinct. -/
theorem get?_values (hkeys : (specs.map Spec.key).Nodup) {spec : Spec} (hspec : spec ∈ specs) :
    (values payload specs).get? spec.key = fieldValue payload spec := by
  have hnodup : (values payload specs).keys.Nodup := hkeys.sublist (keys_values_sublist _ _)
  cases hvalue : fieldValue payload spec with
  | some x => exact Dict.get?_of_mem hnodup (mem_values.mpr ⟨spec, hspec, rfl, hvalue⟩)
  | none =>
      refine Dict.get?_eq_none fun hmem => ?_
      obtain ⟨entry, hentry, hkey⟩ := List.mem_map.mp hmem
      obtain ⟨other, hother, hother', hsome⟩ := mem_values.mp hentry
      obtain rfl := List.inj_on_of_nodup_map hkeys hother hspec (hother'.trans hkey)
      rw [hvalue] at hsome
      cases hsome

/-- The payload is accepted and its values are the ones returned. -/
structure Passes (specs : List Spec) (payload result : Object) : Prop where
  keys : ∀ key ∈ payload.keys, key ∈ specs.map Spec.key
  result : result = values payload specs
  optional : ∀ spec ∈ specs, isBlank (given payload spec.key) = true → spec.required = false
  coerced : ∀ spec ∈ specs, isBlank (given payload spec.key) = false →
    ∃ x, coerce spec (given payload spec.key) = .ok x ∧ fieldValue payload spec = some x

theorem undefinedKeys_eq_nil_iff : undefinedKeys specs payload = [] ↔
    ∀ key ∈ payload.keys, key ∈ specs.map Spec.key := by
  unfold undefinedKeys
  rw [List.map_eq_nil_iff, List.filter_eq_nil_iff]
  simp

theorem fieldErrors_eq_nil_iff : fieldErrors payload specs = [] ↔
    ∀ spec ∈ specs, fieldError payload spec = none := by
  unfold fieldErrors
  rw [List.filterMap_eq_nil_iff]
  simp

theorem validateObject_ok (h : Accepted specs) {p : Option Object}
    (hp : validateObject specs payload = .ok p) : Passes specs payload (p.getD []) := by
  have hfinite : ∀ spec ∈ specs, ¬ Infinite spec (given payload spec.key) := by
    intro spec hspec hinfinite
    obtain ⟨e, he⟩ := validateObject_raises h hspec hinfinite
    rw [he] at hp
    cases hp
  rw [validateObject_eq h hfinite] at hp
  split at hp
  · cases hp
  · rename_i hempty
    rw [Bool.not_eq_false, List.isEmpty_iff, List.append_eq_nil_iff,
      undefinedKeys_eq_nil_iff, fieldErrors_eq_nil_iff] at hempty
    obtain ⟨hdefined, hnone⟩ := hempty
    cases hp
    refine ⟨hdefined, ?_, fun spec hspec hblank => ?_, fun spec hspec hblank => ?_⟩
    · cases values payload specs with
      | nil => rfl
      | cons entry rest => rfl
    · have herror := hnone spec hspec
      rw [fieldError, if_pos hblank] at herror
      cases hrequired : spec.required with
      | false => rfl
      | true =>
          rw [hrequired] at herror
          cases herror
    · have herror := hnone spec hspec
      have hcaught := (coerce_caught_iff (h.normal hspec)).mpr (hfinite spec hspec)
      simp only [fieldError, hblank] at herror
      simp only [fieldValue, hblank]
      cases hcoerce : coerce spec (given payload spec.key) with
      | ok x => exact ⟨x, rfl, rfl⟩
      | error e =>
          obtain ⟨message, rfl⟩ := hcaught e hcoerce
          rw [hcoerce] at herror
          cases herror

end Answer

/-! ## Values within the bounds -/

/-- The payload is one that the form is meant to let through. -/
structure Satisfies (specs : List Spec) (p : Object) : Prop where
  defined : ∀ key ∈ p.keys, key ∈ specs.map Spec.key
  required : ∀ spec ∈ specs, spec.required = true → spec.key ∈ p.keys
  holds : ∀ spec ∈ specs, ∀ x, p.get? spec.key = some x → Holds spec x

/-- An accepted payload satisfies the form if and only if NaN is not compared with a bound: no
number is given for a field with a bound when it or the bound is NaN. -/
theorem accepted_satisfies_iff {v : Json} {definition : Option (List Spec)}
    (hdefinition : validateDefinition v = .ok definition) {payload : Object}
    {p : Option Object} (hp : validatePayload definition (.obj payload) = .ok p) :
    Satisfies (definition.getD []) (p.getD []) ↔
      ∀ spec ∈ definition.getD [], Comparable spec (given payload spec.key) := by
  have haccepted := accepted_definition hdefinition
  have hpasses : Passes (definition.getD []) payload (p.getD []) :=
    validateObject_ok haccepted hp
  generalize definition.getD [] = specs at haccepted hpasses ⊢
  have hresult := hpasses.result
  generalize p.getD [] = result at hpasses hresult ⊢
  subst hresult
  constructor
  · intro hsatisfies spec hspec
    cases hblank : isBlank (given payload spec.key) with
    | true =>
        intro number hnumber
        rw [hnumber] at hblank
        cases number with
        | int n => cases hblank
        | float y => cases hblank
    | false =>
        obtain ⟨x, hcoerce, hvalue⟩ := hpasses.coerced spec hspec hblank
        have hget : (values payload specs).get? spec.key = some x :=
          (get?_values haccepted.keys hspec).trans hvalue
        have hholds := hsatisfies.holds spec hspec x hget
        exact (coerce_holds_iff (haccepted.normal hspec) hblank hcoerce).mp hholds
  · intro hcomparable
    refine ⟨fun key hkey => ?_, fun spec hspec hrequired => ?_, fun spec hspec x hx => ?_⟩
    · obtain ⟨entry, hentry, rfl⟩ := List.mem_map.mp hkey
      obtain ⟨spec, hspec, hkey, -⟩ := mem_values.mp hentry
      exact List.mem_map.mpr ⟨spec, hspec, hkey⟩
    · cases hblank : isBlank (given payload spec.key) with
      | true =>
          rw [hpasses.optional spec hspec hblank] at hrequired
          cases hrequired
      | false =>
          obtain ⟨x, -, hvalue⟩ := hpasses.coerced spec hspec hblank
          exact List.mem_map.mpr ⟨(spec.key, x), mem_values.mpr ⟨spec, hspec, rfl, hvalue⟩, rfl⟩
    · rw [get?_values haccepted.keys hspec] at hx
      cases hblank : isBlank (given payload spec.key) with
      | true =>
          rw [fieldValue, if_pos hblank] at hx
          cases hx
      | false =>
          obtain ⟨y, hcoerce, hvalue⟩ := hpasses.coerced spec hspec hblank
          obtain rfl : y = x := Option.some.inj (hvalue.symm.trans hx)
          exact (coerce_holds_iff (haccepted.normal hspec) hblank hcoerce).mpr
            (hcomparable spec hspec)

/-- A number field with a lower bound. -/
def weightForm : List Object :=
  [[("key", .str "weight"), ("type", .str "number"), ("min", .int 1)]]

def weightSpecs : List Spec :=
  [{ key := "weight", label := "weight", type := .number, required := false,
      min := some (.int 1) }]

theorem weight_accepted : validateDefinition (formJson weightForm) = .ok (some weightSpecs) := by
  rfl

/-- A finite number above the bound satisfies the form. -/
theorem accepted_satisfies_weight :
    validatePayload (some weightSpecs) (.obj [("weight", .int 2)]) =
      .ok (some [("weight", .int 2)]) ∧ Satisfies weightSpecs [("weight", .int 2)] := by
  have hpassed : validatePayload (some weightSpecs) (.obj [("weight", .int 2)]) =
      .ok (some [("weight", .int 2)]) := rfl
  refine ⟨hpassed, (accepted_satisfies_iff weight_accepted hpassed).mpr fun spec hspec => ?_⟩
  obtain rfl := List.mem_singleton.mp hspec
  intro number hnumber bound hbound
  obtain rfl : Number.int 2 = number := json_injective hnumber
  rcases hbound with hbound | hbound
  · cases hbound
    exact ⟨by decide, by decide⟩
  · cases hbound

/-- The property that fails for NaN. -/
theorem nan_passes_range : ¬ ∀ (v : Json) (definition : Option (List Spec)),
    validateDefinition v = .ok definition → ∀ (payload : Object) (p : Option Object),
      validatePayload definition (.obj payload) = .ok p →
        Satisfies (definition.getD []) (p.getD []) := by
  intro hclaim
  have hpassed : validatePayload (some weightSpecs) (.obj [("weight", .float .nan)]) =
      .ok (some [("weight", .float .nan)]) := rfl
  have hsatisfies := hclaim _ _ weight_accepted _ _ hpassed
  obtain ⟨number, hnumber, hrange⟩ := hsatisfies.holds _ List.mem_cons_self (.float .nan) rfl
  obtain rfl : Number.float .nan = number := json_injective hnumber
  have hle := hrange.1 _ rfl
  cases hle

/-! ## The keys that are reported -/

/-- The declared type of `extra_fields`, a dict or `None`. -/
abbrev ExtraFields := Option { payload : Object // payload.keys.Nodup }

namespace ExtraFields

def json : ExtraFields → Json
  | none => .null
  | some payload => .obj payload.1

/-- `extra_fields or {}`. -/
def dict : ExtraFields → Object
  | none => []
  | some payload => payload.1

theorem nodup_keys (extra : ExtraFields) : extra.dict.keys.Nodup := by
  cases extra with
  | none => exact List.nodup_nil
  | some payload => exact payload.2

theorem validatePayload_json (definition : Option (List Spec)) (extra : ExtraFields) :
    validatePayload definition extra.json = validateObject (definition.getD []) extra.dict := by
  cases extra with
  | none => rfl
  | some payload => rfl

end ExtraFields

/-- The value given for a field is missing or fails its coercion. -/
def FieldFault (payload : Object) (spec : Spec) : Prop :=
  (isBlank (given payload spec.key) = true ∧ spec.required = true) ∨
    (isBlank (given payload spec.key) = false ∧
      ∃ e, coerce spec (given payload spec.key) = .error e)

/-- The key is undefined, or it is the key of a field whose value is missing or fails. -/
def Faulty (specs : List Spec) (payload : Object) (key : String) : Prop :=
  (key ∈ payload.keys ∧ key ∉ specs.map Spec.key) ∨
    ∃ spec ∈ specs, spec.key = key ∧ FieldFault payload spec

/-- Either nothing is at fault and the call returns, or it raises `FormValidationError` with
one entry for each key at fault. -/
def Answers (specs : List Spec) (payload : Object) (answer : Except Failure (Option Object)) :
    Prop :=
  match answer with
  | .ok _ => ∀ key, ¬ Faulty specs payload key
  | .error (.formValidationError errors) =>
      (∃ key, Faulty specs payload key) ∧ (errors.map FieldError.field).Nodup ∧
        ∀ key, key ∈ errors.map FieldError.field ↔ Faulty specs payload key
  | .error (.raised _) => False

section Reported

variable {specs : List Spec} {payload : Object}

theorem undefined_fields : (undefinedKeys specs payload).map FieldError.field =
    payload.keys.filter fun key => key ∉ specs.map Spec.key := by
  unfold undefinedKeys
  rw [List.map_map]
  exact List.map_id _

theorem error_fields : (fieldErrors payload specs).map FieldError.field =
    (specs.filter fun spec => (fieldError payload spec).isSome).map Spec.key := by
  induction specs with
  | nil => rfl
  | cons spec rest ih =>
      unfold fieldErrors at ih ⊢
      cases herror : fieldError payload spec with
      | none => simp [herror, ih]
      | some message => simp [herror, ih]

theorem fieldError_isSome_iff {spec : Spec} (hspec : Normal spec)
    (hfinite : ¬ Infinite spec (given payload spec.key)) :
    (fieldError payload spec).isSome = true ↔ FieldFault payload spec := by
  have hcaught := (coerce_caught_iff hspec).mpr hfinite
  unfold fieldError FieldFault
  cases hblank : isBlank (given payload spec.key) with
  | true => cases spec.required <;> simp
  | false =>
      cases hcoerce : coerce spec (given payload spec.key) with
      | ok x => simp
      | error e =>
          obtain ⟨message, rfl⟩ := hcaught e hcoerce
          simp

/-- The errors name each key at fault once. -/
theorem reported (h : Accepted specs)
    (hfinite : ∀ spec ∈ specs, ¬ Infinite spec (given payload spec.key))
    (hdict : payload.keys.Nodup) :
    ((undefinedKeys specs payload ++ fieldErrors payload specs).map FieldError.field).Nodup ∧
      ∀ key, key ∈ (undefinedKeys specs payload ++ fieldErrors payload specs).map
        FieldError.field ↔ Faulty specs payload key := by
  rw [List.map_append, undefined_fields, error_fields]
  constructor
  · refine List.nodup_append.mpr ⟨hdict.filter _, ?_, ?_⟩
    · exact h.keys.sublist (List.filter_sublist.map _)
    · intro key hkey key' hkey' heq
      have hundefined : key ∉ specs.map Spec.key := by
        simpa using (List.mem_filter.mp hkey).2
      obtain ⟨spec, hspec, rfl⟩ := List.mem_map.mp hkey'
      exact hundefined (List.mem_map.mpr ⟨spec, (List.mem_filter.mp hspec).1, heq.symm⟩)
  · intro key
    rw [List.mem_append]
    refine or_congr (by simp) ?_
    rw [List.mem_map]
    constructor
    · rintro ⟨spec, hspec, rfl⟩
      obtain ⟨hspec, herror⟩ := List.mem_filter.mp hspec
      exact ⟨spec, hspec, rfl,
        (fieldError_isSome_iff (h.normal hspec) (hfinite spec hspec)).mp herror⟩
    · rintro ⟨spec, hspec, rfl, hfault⟩
      have herror :=
        (fieldError_isSome_iff (h.normal hspec) (hfinite spec hspec)).mpr hfault
      exact ⟨spec, List.mem_filter.mpr ⟨hspec, herror⟩, rfl⟩

end Reported

/-- The call answers as it should if and only if no integer field is given an infinite value. -/
theorem payload_answered_iff {v : Json} {definition : Option (List Spec)}
    (hdefinition : validateDefinition v = .ok definition) (extra : ExtraFields) :
    Answers (definition.getD []) extra.dict (validatePayload definition extra.json) ↔
      ∀ spec ∈ definition.getD [], ¬ (spec.type = .integer ∧
        (given extra.dict spec.key = .float .posInf ∨
          given extra.dict spec.key = .float .negInf)) := by
  have haccepted := accepted_definition hdefinition
  rw [ExtraFields.validatePayload_json]
  have hdict := extra.nodup_keys
  generalize definition.getD [] = specs at haccepted ⊢
  generalize extra.dict = payload at hdict ⊢
  constructor
  · intro hanswers spec hspec hinfinite
    obtain ⟨e, he⟩ := validateObject_raises haccepted hspec hinfinite
    rw [he] at hanswers
    exact hanswers
  · intro hfinite
    obtain ⟨hnodup, hreported⟩ := reported haccepted hfinite hdict
    rw [validateObject_eq haccepted hfinite]
    generalize undefinedKeys specs payload ++ fieldErrors payload specs = errors
      at hnodup hreported ⊢
    cases errors with
    | nil =>
        intro key hfaulty
        have hmem := (hreported key).mpr hfaulty
        cases hmem
    | cons error rest =>
        exact ⟨⟨error.field, (hreported _).mp List.mem_cons_self⟩, hnodup, hreported⟩

/-- A text in place of the number and a key that is not defined. -/
def strayExtra : ExtraFields :=
  some ⟨[("weight", .str "heavy"), ("stray", .int 1)], by decide⟩

/-- Both are reported. -/
theorem payload_answered_stray :
    validatePayload (some weightSpecs) strayExtra.json = .error (.formValidationError
      [⟨"stray", .notDefined⟩, ⟨"weight", .mustBeNumber⟩]) ∧
    Answers weightSpecs strayExtra.dict (validatePayload (some weightSpecs) strayExtra.json) := by
  refine ⟨rfl, (payload_answered_iff weight_accepted strayExtra).mpr fun spec hspec => ?_⟩
  obtain rfl := List.mem_singleton.mp hspec
  rintro ⟨htype, -⟩
  cases htype

def peopleForm : List Object := [[("key", .str "people"), ("type", .str "integer")]]

def peopleSpecs : List Spec :=
  [{ key := "people", label := "people", type := .integer, required := false }]

theorem people_accepted : validateDefinition (formJson peopleForm) = .ok (some peopleSpecs) := by
  rfl

/-- The property that fails for an infinite number of people. -/
theorem infinity_raises : ¬ ∀ (v : Json) (definition : Option (List Spec)),
    validateDefinition v = .ok definition → ∀ extra : ExtraFields,
      Answers (definition.getD []) extra.dict (validatePayload definition extra.json) := by
  intro hclaim
  have hanswers := hclaim _ _ people_accepted (some ⟨[("people", .float .posInf)], by decide⟩)
  have hraised : validatePayload (some peopleSpecs) (.obj [("people", .float .posInf)]) =
      .error (.raised .overflowError) := rfl
  simp only [ExtraFields.json, hraised, Answers] at hanswers

/-! ## Forms that can be filled in -/

/-- Some integer lies between the bounds: no bound is the wrong infinity, and between two
finite bounds there is an integer. -/
structure IntegerBetween (spec : Spec) : Prop where
  low : ∀ minimum, spec.min = some minimum → minimum.value ≠ .posInf
  high : ∀ maximum, spec.max = some maximum → maximum.value ≠ .negInf
  between : ∀ minimum maximum a b, spec.min = some minimum → spec.max = some maximum →
    minimum.value = .finite a → maximum.value = .finite b → ⌈a⌉ ≤ ⌊b⌋

/-- The integer passes the range check. -/
def Passing (spec : Spec) (n : Int) : Prop :=
  (∀ minimum, spec.min = some minimum → (PyFloat.finite n).lt minimum.value = false) ∧
    ∀ maximum, spec.max = some maximum → maximum.value.lt (.finite n) = false

section Filled

variable {spec : Spec}

theorem not_lt_low {n : Int} {x : PyFloat} : (PyFloat.finite n).lt x = false ↔
    x ≠ .posInf ∧ ∀ a, x = .finite a → ⌈a⌉ ≤ n := by
  cases x with
  | finite a => simp [PyFloat.lt, Int.ceil_le]
  | posInf => simp [PyFloat.lt]
  | negInf => simp [PyFloat.lt]
  | nan => simp [PyFloat.lt]

theorem not_lt_high {n : Int} {x : PyFloat} : x.lt (.finite n) = false ↔
    x ≠ .negInf ∧ ∀ b, x = .finite b → n ≤ ⌊b⌋ := by
  cases x with
  | finite b => simp [PyFloat.lt, Int.le_floor]
  | posInf => simp [PyFloat.lt]
  | negInf => simp [PyFloat.lt]
  | nan => simp [PyFloat.lt]

/-- The finite value of a bound. -/
def finiteBound (bound : Option Number) : Option Rat :=
  match bound.map Number.value with
  | some (.finite a) => some a
  | _ => none

theorem finiteBound_eq_some {bound : Option Number} {a : Rat} :
    finiteBound bound = some a ↔ ∃ number, bound = some number ∧ number.value = .finite a := by
  unfold finiteBound
  cases bound with
  | none => simp
  | some number => cases hvalue : number.value <;> simp [hvalue]

theorem exists_passing_iff : (∃ n, Passing spec n) ↔ IntegerBetween spec := by
  constructor
  · rintro ⟨n, hlow, hhigh⟩
    refine ⟨fun minimum hmin => (not_lt_low.mp (hlow minimum hmin)).1,
      fun maximum hmax => (not_lt_high.mp (hhigh maximum hmax)).1, ?_⟩
    intro minimum maximum a b hmin hmax ha hb
    have hlow := (not_lt_low.mp (hlow minimum hmin)).2 a ha
    have hhigh := (not_lt_high.mp (hhigh maximum hmax)).2 b hb
    omega
  · intro h
    have hn : ∃ n : Int, (∀ a, finiteBound spec.min = some a → ⌈a⌉ ≤ n) ∧
        ∀ b, finiteBound spec.max = some b → n ≤ ⌊b⌋ := by
      cases hmin : finiteBound spec.min with
      | some a =>
          refine ⟨⌈a⌉, by simp, fun b hb => ?_⟩
          obtain ⟨minimum, hminimum, ha⟩ := finiteBound_eq_some.mp hmin
          obtain ⟨maximum, hmaximum, hb⟩ := finiteBound_eq_some.mp hb
          exact h.between minimum maximum a b hminimum hmaximum ha hb
      | none =>
          cases hmax : finiteBound spec.max with
          | some b => exact ⟨⌊b⌋, by simp, by simp⟩
          | none => exact ⟨0, by simp, by simp⟩
    obtain ⟨n, hlow, hhigh⟩ := hn
    refine ⟨n, fun minimum hmin => ?_, fun maximum hmax => ?_⟩
    · refine not_lt_low.mpr ⟨h.low minimum hmin, fun a ha => ?_⟩
      exact hlow a (finiteBound_eq_some.mpr ⟨minimum, hmin, ha⟩)
    · refine not_lt_high.mpr ⟨h.high maximum hmax, fun b hb => ?_⟩
      exact hhigh b (finiteBound_eq_some.mpr ⟨maximum, hmax, hb⟩)

/-- Some value that is not blank passes the coercion of the field. -/
def Fillable (spec : Spec) : Prop :=
  ∃ value x, isBlank value = false ∧ coerce spec value = .ok x

theorem fillable_text (hspec : Normal spec) {limit : Nat}
    (hlimit : spec.type.defaultMaxLength = some limit) : Fillable spec := by
  refine ⟨.str "x", .str "x", by decide, ?_⟩
  have hsome : spec.maxLength.isSome = true := by
    rw [hspec.textual, hlimit]
    rfl
  obtain ⟨n, hn⟩ := Option.isSome_iff_exists.mp hsome
  have hpos := (hspec.maxLength n limit hn hlimit).1
  unfold coerce
  rw [hlimit]
  refine coerceText_ok.mpr ⟨"x", rfl, rfl, ?_⟩
  rw [hn]
  exact hpos

/-- One of the bounds lies in the range. -/
theorem fillable_number (hrange : exceeds spec.min spec.max = false)
    (htype : spec.type = .number) : Fillable spec := by
  have hpick : ∃ number : Number,
      (∀ minimum, spec.min = some minimum → number.value.lt minimum.value = false) ∧
      ∀ maximum, spec.max = some maximum → maximum.value.lt number.value = false := by
    cases hmin : spec.min with
    | some low =>
        refine ⟨low, fun minimum hminimum => ?_, fun maximum hmaximum => ?_⟩
        · cases hminimum
          exact PyFloat.lt_irrefl _
        · rw [hmin, hmaximum] at hrange
          exact hrange
    | none =>
        cases hmax : spec.max with
        | some high =>
            refine ⟨high, by simp, fun maximum hmaximum => ?_⟩
            cases hmaximum
            exact PyFloat.lt_irrefl _
        | none => exact ⟨.int 0, by simp, by simp⟩
  obtain ⟨number, hlow, hhigh⟩ := hpick
  refine ⟨number.json, number.json, ?_, ?_⟩
  · cases number with
    | int n => rfl
    | float y => rfl
  · simp only [coerce, htype, FieldType.defaultMaxLength]
    exact coerceNumber_ok.mpr ⟨number, rfl, rfl, hlow, hhigh⟩

theorem fillable_integer_iff (htype : spec.type = .integer) :
    Fillable spec ↔ IntegerBetween spec := by
  rw [← exists_passing_iff]
  constructor
  · rintro ⟨value, x, -, hcoerce⟩
    simp only [coerce, htype, FieldType.defaultMaxLength] at hcoerce
    obtain ⟨number, n, -, hwhole, -, hlow, hhigh⟩ := coerceInteger_ok.mp hcoerce
    rw [hwhole] at hlow hhigh
    exact ⟨n, hlow, hhigh⟩
  · rintro ⟨n, hlow, hhigh⟩
    refine ⟨.int n, .int n, rfl, ?_⟩
    simp only [coerce, htype, FieldType.defaultMaxLength]
    exact coerceInteger_ok.mpr ⟨.int n, n, rfl, rfl, rfl, hlow, hhigh⟩

/-- The first option of a choice, which is not blank. -/
theorem Normal.first_option (hspec : Normal spec) (hchoice : spec.type.isChoice = true) :
    ∃ options option, spec.options = some options ∧ option ∈ options ∧ strip option ≠ "" := by
  obtain ⟨options, hoptions⟩ := hspec.offers hchoice
  obtain ⟨hlength, -, -, hnonblank⟩ := hspec.options options hoptions
  have hmem := List.getElem_mem (l := options) hlength
  exact ⟨options, _, hoptions, hmem, hnonblank _ hmem⟩

/-- A field of an accepted definition can be given a value, unless it is an integer field with
no integer between its bounds. -/
theorem fillable_iff (hspec : Normal spec) (hrange : exceeds spec.min spec.max = false) :
    Fillable spec ↔ (spec.type = .integer → IntegerBetween spec) := by
  cases htype : spec.type with
  | text | textarea | phone =>
      refine iff_of_true (fillable_text hspec (by rw [htype]; rfl)) fun h => ?_
      cases h
  | integer =>
      rw [fillable_integer_iff htype]
      exact ⟨fun h _ => h, fun h => h rfl⟩
  | number =>
      refine iff_of_true (fillable_number hrange htype) fun h => ?_
      cases h
  | boolean =>
      refine iff_of_true ⟨.bool true, .bool true, rfl, ?_⟩ fun h => ?_
      · simp only [coerce, htype, FieldType.defaultMaxLength, coerceBoolean]
      · cases h
  | date =>
      refine iff_of_true ⟨.str "2000-01-01", .str "2000-01-01", by decide, ?_⟩ fun h => ?_
      · simp only [coerce, htype, FieldType.defaultMaxLength]
        rfl
      · cases h
  | select =>
      obtain ⟨options, option, hoptions, hmem, hstrip⟩ := hspec.first_option (by rw [htype]; rfl)
      refine iff_of_true ⟨.str option, .str option, ?_, ?_⟩ fun h => ?_
      · simpa [isBlank] using hstrip
      · simp only [coerce, htype, FieldType.defaultMaxLength]
        exact (coerceSelect_ok hoptions).mpr ⟨rfl, option, hmem, rfl⟩
      · cases h
  | multiselect =>
      obtain ⟨options, option, hoptions, hmem, -⟩ := hspec.first_option (by rw [htype]; rfl)
      refine iff_of_true ⟨.arr [.str option], .arr [.str option], rfl, ?_⟩ fun h => ?_
      · simp only [coerce, htype, FieldType.defaultMaxLength]
        refine (coerceMultiselect_ok hoptions).mpr ⟨[option], rfl, rfl, by simp, ?_⟩
        simpa using hmem
      · cases h

end Filled

/-- Some payload is accepted and gives every field a value. -/
def CanBeFilledIn (definition : Option (List Spec)) : Prop :=
  ∃ (extra : ExtraFields) (p : Option Object),
    validatePayload definition extra.json = .ok p ∧
      ∀ spec ∈ definition.getD [], ∃ x, (p.getD []).get? spec.key = some x

/-- An accepted payload is a value for each field. -/
theorem fillable_of_passes {specs : List Spec} {payload result : Object} (h : Accepted specs)
    (hpasses : Passes specs payload result) {spec : Spec} (hspec : spec ∈ specs) {x : Json}
    (hx : result.get? spec.key = some x) : Fillable spec := by
  rw [hpasses.result, get?_values h.keys hspec] at hx
  cases hblank : isBlank (given payload spec.key) with
  | true =>
      rw [fieldValue, if_pos hblank] at hx
      cases hx
  | false =>
      obtain ⟨y, hcoerce, -⟩ := hpasses.coerced spec hspec hblank
      exact ⟨_, y, hblank, hcoerce⟩

/-- A payload that gives each field a value that its coercion accepts. -/
theorem passes_of_fillable {specs : List Spec} (h : Accepted specs)
    (hfill : ∀ spec ∈ specs, Fillable spec) :
    ∃ payload : Object, payload.keys.Nodup ∧ (∀ key ∈ payload.keys, key ∈ specs.map Spec.key) ∧
      ∀ spec ∈ specs, isBlank (given payload spec.key) = false ∧
        ∃ x, coerce spec (given payload spec.key) = .ok x := by
  have hchoose : ∀ spec : Spec, ∃ value, spec ∈ specs →
      isBlank value = false ∧ ∃ x, coerce spec value = .ok x := by
    intro spec
    by_cases hspec : spec ∈ specs
    · obtain ⟨value, x, hblank, hcoerce⟩ := hfill spec hspec
      exact ⟨value, fun _ => ⟨hblank, x, hcoerce⟩⟩
    · exact ⟨.null, fun hmem => absurd hmem hspec⟩
  choose value hvalue using hchoose
  have hkeys : Dict.keys (specs.map fun spec => (spec.key, value spec)) = specs.map Spec.key := by
    simp [Dict.keys]
  have hnodup : (Dict.keys (specs.map fun spec => (spec.key, value spec))).Nodup := by
    rw [hkeys]
    exact h.keys
  refine ⟨specs.map fun spec => (spec.key, value spec), hnodup, fun key hkey => hkeys ▸ hkey, ?_⟩
  intro spec hspec
  have hgiven : given (specs.map fun spec => (spec.key, value spec)) spec.key = value spec := by
    unfold given
    rw [Dict.get?_of_mem hnodup (List.mem_map.mpr ⟨spec, hspec, rfl⟩)]
    rfl
  rw [hgiven]
  exact hvalue spec hspec

theorem validateObject_of_coerced {specs : List Spec} {payload : Object} (h : Accepted specs)
    (hdefined : ∀ key ∈ payload.keys, key ∈ specs.map Spec.key)
    (hcoerced : ∀ spec ∈ specs, isBlank (given payload spec.key) = false ∧
      ∃ x, coerce spec (given payload spec.key) = .ok x) :
    ∃ p, validateObject specs payload = .ok p := by
  have hfinite : ∀ spec ∈ specs, ¬ Infinite spec (given payload spec.key) := by
    intro spec hspec hinfinite
    obtain ⟨-, x, hx⟩ := hcoerced spec hspec
    refine (coerce_caught_iff (h.normal hspec)).mp ?_ hinfinite
    rw [hx]
    exact .ok x
  have herrors : ∀ spec ∈ specs, fieldError payload spec = none := by
    intro spec hspec
    obtain ⟨hblank, x, hx⟩ := hcoerced spec hspec
    simp only [fieldError, hblank, hx]
    rfl
  rw [validateObject_eq h hfinite, undefinedKeys_eq_nil_iff.mpr hdefined,
    fieldErrors_eq_nil_iff.mpr herrors]
  exact ⟨_, rfl⟩

/-- An accepted form can be filled in if and only if each of its integer fields has an integer
between its bounds. -/
theorem form_filled_iff {v : Json} {definition : Option (List Spec)}
    (hdefinition : validateDefinition v = .ok definition) :
    CanBeFilledIn definition ↔
      ∀ spec ∈ definition.getD [], spec.type = .integer → IntegerBetween spec := by
  have haccepted := accepted_definition hdefinition
  have hfillable : ∀ spec ∈ definition.getD [],
      (Fillable spec ↔ (spec.type = .integer → IntegerBetween spec)) := by
    intro spec hspec
    obtain ⟨raw, hraw⟩ := haccepted.each spec hspec
    exact fillable_iff hraw.toNormal hraw.range
  constructor
  · rintro ⟨extra, p, hp, hfilled⟩ spec hspec
    rw [ExtraFields.validatePayload_json] at hp
    obtain ⟨x, hx⟩ := hfilled spec hspec
    exact (hfillable spec hspec).mp
      (fillable_of_passes haccepted (validateObject_ok haccepted hp) hspec hx)
  · intro hbetween
    obtain ⟨payload, hnodup, hdefined, hcoerced⟩ := passes_of_fillable haccepted
      fun spec hspec => (hfillable spec hspec).mpr (hbetween spec hspec)
    obtain ⟨p, hp⟩ := validateObject_of_coerced haccepted hdefined hcoerced
    have hpasses := validateObject_ok haccepted hp
    refine ⟨some ⟨payload, hnodup⟩, p, hp, fun spec hspec => ?_⟩
    obtain ⟨x, -, hvalue⟩ := hpasses.coerced spec hspec (hcoerced spec hspec).1
    rw [hpasses.result, get?_values haccepted.keys hspec]
    exact ⟨x, hvalue⟩

/-- The form of the people can be filled in. -/
theorem form_filled_people : CanBeFilledIn (some peopleSpecs) := by
  refine (form_filled_iff people_accepted).mpr fun spec hspec _ => ?_
  obtain rfl := List.mem_singleton.mp hspec
  exact ⟨by simp, by simp, by simp⟩

/-- An integer field with the bounds of a proper fraction. -/
def fractionForm : List Object :=
  [[("key", .str "people"), ("type", .str "integer"), ("min", .float (.finite (mkRat 1 5))),
    ("max", .float (.finite (mkRat 4 5)))]]

def fractionSpec : Spec :=
  { key := "people", label := "people", type := .integer, required := false,
    min := some (.float (.finite (mkRat 1 5))), max := some (.float (.finite (mkRat 4 5))) }

theorem fraction_accepted :
    validateDefinition (formJson fractionForm) = .ok (some [fractionSpec]) := by
  rfl

/-- The property that fails for such a field. -/
theorem fraction_never_filled : ¬ ∀ (v : Json) (definition : Option (List Spec)),
    validateDefinition v = .ok definition → CanBeFilledIn definition := by
  intro hclaim
  obtain ⟨extra, p, hp, hfilled⟩ := hclaim _ _ fraction_accepted
  rw [ExtraFields.validatePayload_json] at hp
  have haccepted := accepted_definition fraction_accepted
  obtain ⟨x, hx⟩ := hfilled fractionSpec (List.mem_singleton_self _)
  have hfillable := fillable_of_passes haccepted (validateObject_ok haccepted hp)
    (List.mem_singleton_self _) hx
  have hbetween := ((fillable_integer_iff rfl).mp hfillable).between _ _ _ _ rfl rfl rfl rfl
  exact absurd hbetween (by decide +kernel)

end FormSchema
end Logistics
end Rcp
