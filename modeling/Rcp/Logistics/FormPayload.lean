/-
The payloads that `validate_payload` accepts.

Each field of a definition contributes by itself: a value, an error or an exception that the
loop does not catch.  `coerceFields_eq` says what the loop collects of all of them, and the
coercion of each type is compared with the values the field is meant to hold.
-/
import Rcp.Logistics.FormDefinition

namespace Rcp
namespace Logistics
namespace FormSchema

/-! ## The loop -/

section Loop

variable (payload : Object)

/-- The value that a field contributes. -/
def fieldValue (spec : Spec) : Option Json :=
  if isBlank (given payload spec.key) then none
  else (coerce spec (given payload spec.key)).toOption

/-- The error that a field contributes. -/
def fieldError (spec : Spec) : Option Message :=
  if isBlank (given payload spec.key) then
    if spec.required then some (.required spec.label) else none
  else
    match coerce spec (given payload spec.key) with
    | .error (.valueError message) => some message
    | _ => none

/-- The exception of a field that the loop does not catch. -/
def uncaught (spec : Spec) : Option Raised :=
  if isBlank (given payload spec.key) then none
  else
    match coerce spec (given payload spec.key) with
    | .ok _ => none
    | .error (.valueError _) => none
    | .error e => some e

/-- The payload that the fields make. -/
def values (specs : List Spec) : Object :=
  specs.filterMap fun spec => (fieldValue payload spec).map (spec.key, ·)

def fieldErrors (specs : List Spec) : List FieldError :=
  specs.filterMap fun spec => (fieldError payload spec).map fun message => ⟨spec.key, message⟩

variable {payload}

/-- Where every exception is caught, the loop collects the values and the errors in order. -/
theorem coerceFields_eq {specs : List Spec} {coerced : Object} {errors : List FieldError}
    (hcaught : ∀ spec ∈ specs, uncaught payload spec = none)
    (hkeys : (specs.map Spec.key).Nodup) (hfresh : ∀ spec ∈ specs, spec.key ∉ coerced.keys) :
    coerceFields payload specs coerced errors =
      .ok (coerced ++ values payload specs, errors ++ fieldErrors payload specs) := by
  induction specs generalizing coerced errors with
  | nil => simp [coerceFields, values, fieldErrors]
  | cons spec rest ih =>
      rw [List.map_cons, List.nodup_cons] at hkeys
      have hrest : ∀ other ∈ rest, uncaught payload other = none :=
        fun other hother => hcaught other (List.mem_cons_of_mem _ hother)
      have hfresh' : ∀ other ∈ rest, other.key ∉ coerced.keys :=
        fun other hother => hfresh other (List.mem_cons_of_mem _ hother)
      have hspec := hcaught spec List.mem_cons_self
      unfold coerceFields
      by_cases hblank : isBlank (given payload spec.key) = true
      · rw [if_pos hblank]
        have hvalue : fieldValue payload spec = none := by rw [fieldValue, if_pos hblank]
        by_cases hrequired : spec.required = true
        · have herror : fieldError payload spec = some (.required spec.label) := by
            rw [fieldError, if_pos hblank, if_pos hrequired]
          rw [if_pos hrequired, ih hrest hkeys.2 hfresh']
          simp [values, fieldErrors, hvalue, herror]
        · have herror : fieldError payload spec = none := by
            rw [fieldError, if_pos hblank, if_neg hrequired]
          rw [if_neg hrequired, ih hrest hkeys.2 hfresh']
          simp [values, fieldErrors, hvalue, herror]
      · rw [if_neg hblank]
        unfold uncaught at hspec
        rw [if_neg hblank] at hspec
        cases hcoerce : coerce spec (given payload spec.key) with
        | ok x =>
            have hvalue : fieldValue payload spec = some x := by
              rw [fieldValue, if_neg hblank, hcoerce]
              rfl
            have herror : fieldError payload spec = none := by
              rw [fieldError, if_neg hblank, hcoerce]
            have hset := Dict.set_of_notMem x (hfresh spec List.mem_cons_self)
            have hfresh'' : ∀ other ∈ rest, other.key ∉ (coerced.set spec.key x).keys := by
              intro other hother hmem
              rcases Dict.mem_keys_set hmem with heq | hmem
              · exact hkeys.1 (List.mem_map.mpr ⟨other, hother, heq⟩)
              · exact hfresh' other hother hmem
            show coerceFields payload rest (coerced.set spec.key x) errors = _
            rw [ih hrest hkeys.2 hfresh'', hset]
            simp [values, fieldErrors, hvalue, herror]
        | error e =>
            rw [hcoerce] at hspec
            cases e with
            | valueError message =>
                have hvalue : fieldValue payload spec = none := by
                  rw [fieldValue, if_neg hblank, hcoerce]
                  rfl
                have herror : fieldError payload spec = some message := by
                  rw [fieldError, if_neg hblank, hcoerce]
                show coerceFields payload rest coerced (errors ++ [⟨spec.key, message⟩]) = _
                rw [ih hrest hkeys.2 hfresh']
                simp [values, fieldErrors, hvalue, herror]
            | overflowError => cases hspec
            | typeError => cases hspec
            | keyError key => cases hspec

theorem uncaught_eq_some {spec : Spec} {e : Raised} (h : uncaught payload spec = some e) :
    isBlank (given payload spec.key) = false ∧
      coerce spec (given payload spec.key) = .error e ∧ ∀ message, e ≠ .valueError message := by
  unfold uncaught at h
  cases hblank : isBlank (given payload spec.key) with
  | true =>
      rw [if_pos hblank] at h
      cases h
  | false =>
      rw [if_neg (by rw [hblank]; decide)] at h
      cases hcoerce : coerce spec (given payload spec.key) with
      | ok x =>
          rw [hcoerce] at h
          cases h
      | error e' =>
          rw [hcoerce] at h
          cases e' with
          | valueError message => cases h
          | overflowError =>
              cases h
              exact ⟨rfl, rfl, fun message => nofun⟩
          | typeError =>
              cases h
              exact ⟨rfl, rfl, fun message => nofun⟩
          | keyError key =>
              cases h
              exact ⟨rfl, rfl, fun message => nofun⟩

/-- An exception that is not caught ends the loop. -/
theorem coerceFields_raises {specs : List Spec} {coerced : Object} {errors : List FieldError}
    {spec : Spec} (hspec : spec ∈ specs) {e : Raised} (he : uncaught payload spec = some e) :
    ∃ e', coerceFields payload specs coerced errors = .error e' := by
  induction specs generalizing coerced errors with
  | nil => cases hspec
  | cons first rest ih =>
      unfold coerceFields
      rcases List.mem_cons.mp hspec with rfl | hrest
      · obtain ⟨hblank, hcoerce, hraised⟩ := uncaught_eq_some he
        simp only [hblank, hcoerce, Bool.false_eq_true, if_false]
        cases e with
        | valueError message => exact absurd rfl (hraised message)
        | overflowError => exact ⟨_, rfl⟩
        | typeError => exact ⟨_, rfl⟩
        | keyError key => exact ⟨_, rfl⟩
      · by_cases hblank : isBlank (given payload first.key) = true
        · rw [if_pos hblank]
          split
          · exact ih hrest
          · exact ih hrest
        · rw [if_neg hblank]
          split
          · exact ih hrest
          · exact ih hrest
          · exact ⟨_, rfl⟩

end Loop

/-! ## The values of a field -/

/-- The number lies between the bounds that are given. -/
def InRange (spec : Spec) (x : PyFloat) : Prop :=
  (∀ minimum, spec.min = some minimum → minimum.value.le x = true) ∧
    ∀ maximum, spec.max = some maximum → x.le maximum.value = true

/-- The values that a field is meant to hold. -/
def Holds (spec : Spec) (x : Json) : Prop :=
  match spec.type with
  | .text | .textarea | .phone =>
      ∃ s, x = .str s ∧ strip s = s ∧ s ≠ "" ∧
        ∀ maxLength, spec.maxLength = some maxLength → s.length ≤ maxLength
  | .integer => ∃ n : Int, x = .int n ∧ InRange spec (.finite n)
  | .number => ∃ number : Number, x = number.json ∧ InRange spec number.value
  | .boolean => ∃ b, x = .bool b
  | .date => ∃ d : Date, x = .str d.isoformat
  | .select => ∃ option ∈ spec.options.getD [], x = .str option
  | .multiselect => ∃ l : List String, x = .arr (l.map Json.str) ∧ l.Nodup ∧
      ∀ option ∈ l, option ∈ spec.options.getD []

/-- A number that is compared with a bound is compared without NaN. -/
def Comparable (spec : Spec) (value : Json) : Prop :=
  ∀ number : Number, value = number.json → ∀ bound : Number,
    spec.min = some bound ∨ spec.max = some bound →
      number.value ≠ .nan ∧ bound.value ≠ .nan

section Coercions

variable {spec : Spec} {value x : Json}

theorem checkMin_ok {number : Number} {u : Unit} : checkMin spec number = .ok u ↔
    ∀ minimum, spec.min = some minimum → number.value.lt minimum.value = false := by
  unfold checkMin
  cases spec.min with
  | none => simp
  | some minimum => simp [refuse_ok]

theorem checkMax_ok {number : Number} {u : Unit} : checkMax spec number = .ok u ↔
    ∀ maximum, spec.max = some maximum → maximum.value.lt number.value = false := by
  unfold checkMax
  cases spec.max with
  | none => simp
  | some maximum => simp [refuse_ok]

theorem checkRange_ok {number result : Number} :
    checkRange spec number = .ok result ↔
      (∀ minimum, spec.min = some minimum → number.value.lt minimum.value = false) ∧
      (∀ maximum, spec.max = some maximum → maximum.value.lt number.value = false) ∧
      number = result := by
  unfold checkRange
  simp only [bind_ok, checkMin_ok, checkMax_ok, pure, Except.pure, Except.ok.injEq,
    exists_const]

/-- A number that passed the check lies between the bounds if and only if NaN took no part. -/
theorem inRange_iff {number : Number}
    (hmin : ∀ minimum, spec.min = some minimum → number.value.lt minimum.value = false)
    (hmax : ∀ maximum, spec.max = some maximum → maximum.value.lt number.value = false) :
    InRange spec number.value ↔ ∀ bound : Number,
      spec.min = some bound ∨ spec.max = some bound →
        number.value ≠ .nan ∧ bound.value ≠ .nan := by
  constructor
  · rintro ⟨hlow, hhigh⟩ bound hbound
    rcases hbound with hbound | hbound
    · obtain ⟨hnan, hnan', -⟩ := PyFloat.le_iff_not_lt.mp (hlow bound hbound)
      exact ⟨hnan', hnan⟩
    · obtain ⟨hnan, hnan', -⟩ := PyFloat.le_iff_not_lt.mp (hhigh bound hbound)
      exact ⟨hnan, hnan'⟩
  · intro hnan
    constructor
    · intro minimum hminimum
      obtain ⟨hx, hbound⟩ := hnan minimum (.inl hminimum)
      exact PyFloat.le_iff_not_lt.mpr ⟨hbound, hx, hmin minimum hminimum⟩
    · intro maximum hmaximum
      obtain ⟨hx, hbound⟩ := hnan maximum (.inr hmaximum)
      exact PyFloat.le_iff_not_lt.mpr ⟨hx, hbound, hmax maximum hmaximum⟩

theorem toNumber_ok {number : Number} : toNumber value = .ok number ↔ value = number.json := by
  unfold toNumber
  rw [← Number.ofJson?_eq_some]
  cases Number.ofJson? value with
  | none => simp
  | some y => simp

/-- `int` keeps the value of a number that is whole. -/
theorem toInt_of_whole {number : Number} {n : Int} (h : number.value = .finite n) :
    toInt number = .ok n := by
  cases number with
  | int m =>
      have hm : (m : Rat) = n := PyFloat.finite.inj h
      rw [Int.cast_inj.mp hm]
      rfl
  | float y =>
      obtain rfl : y = .finite n := h
      show Except.ok (Number.trunc n) = _
      rw [Number.trunc_intCast]

theorem coerceNumber_ok : coerceNumber spec value = .ok x ↔ ∃ number : Number,
    value = number.json ∧ x = number.json ∧
      (∀ minimum, spec.min = some minimum → number.value.lt minimum.value = false) ∧
      ∀ maximum, spec.max = some maximum → maximum.value.lt number.value = false := by
  unfold coerceNumber
  simp only [bind_ok, toNumber_ok, checkRange_ok]
  constructor
  · rintro ⟨number, hvalue, result, ⟨hmin, hmax, rfl⟩, hx⟩
    exact ⟨number, hvalue, (Except.ok.inj hx).symm, hmin, hmax⟩
  · rintro ⟨number, hvalue, rfl, hmin, hmax⟩
    exact ⟨number, hvalue, number, ⟨hmin, hmax, rfl⟩, rfl⟩

theorem coerceInteger_ok : coerceInteger spec value = .ok x ↔ ∃ (number : Number) (n : Int),
    value = number.json ∧ number.value = .finite n ∧ x = .int n ∧
      (∀ minimum, spec.min = some minimum → number.value.lt minimum.value = false) ∧
      ∀ maximum, spec.max = some maximum → maximum.value.lt number.value = false := by
  unfold coerceInteger
  simp only [bind_ok, toNumber_ok, checkRange_ok, refuse_ok, not_not]
  constructor
  · rintro ⟨number, hvalue, n, -, _, hwhole, result, ⟨hmin, hmax, rfl⟩, hx⟩
    refine ⟨number, n, hvalue, hwhole, (Except.ok.inj hx).symm, ?_⟩
    rw [hwhole]
    exact ⟨hmin, hmax⟩
  · rintro ⟨number, n, hvalue, hwhole, rfl, hrange⟩
    rw [hwhole] at hrange
    obtain ⟨hmin, hmax⟩ := hrange
    exact ⟨number, hvalue, n, toInt_of_whole hwhole, (), hwhole, .int n, ⟨hmin, hmax, rfl⟩, rfl⟩

theorem isOffered_iff {options : List String} :
    isOffered options value = true ↔ ∃ option ∈ options, value = .str option := by
  have heq : ∀ option : String, value.pyEq (.str option) = true ↔ value = .str option := by
    intro option
    cases value with
    | str s => simp [Json.pyEq]
    | null => simp [Json.pyEq, Json.number?]
    | bool b => simp [Json.pyEq, Json.number?]
    | int n => simp [Json.pyEq, Json.number?]
    | float y => simp [Json.pyEq, Json.number?]
    | arr xs => simp [Json.pyEq, Json.number?]
    | obj entries => simp [Json.pyEq, Json.number?]
  unfold isOffered
  simp only [List.any_eq_true, heq]

theorem offered_texts {options : List String} {items : List Json}
    (h : ∀ item ∈ items, isOffered options item = true) :
    ∃ l : List String, items = l.map Json.str ∧ ∀ option ∈ l, option ∈ options := by
  induction items with
  | nil => exact ⟨[], rfl, fun option hoption => by cases hoption⟩
  | cons item rest ih =>
      obtain ⟨l, rfl, hl⟩ := ih fun other hother => h other (List.mem_cons_of_mem _ hother)
      obtain ⟨option, hoption, rfl⟩ := isOffered_iff.mp (h item List.mem_cons_self)
      refine ⟨option :: l, rfl, fun other hother => ?_⟩
      rcases List.mem_cons.mp hother with rfl | hother
      · exact hoption
      · exact hl other hother

theorem distinct_texts (l : List String) : distinct (l.map Json.str) = true ↔ l.Nodup := by
  induction l with
  | nil => simp [distinct]
  | cons s rest ih =>
      have hany : ((rest.map Json.str).any fun other => (Json.str s).pyEq other) = true ↔
          s ∈ rest := by
        simp [List.any_map, Json.pyEq]
      rw [List.map_cons, distinct, List.nodup_cons, Bool.and_eq_true, ih, Bool.not_eq_true',
        ← Bool.not_eq_true, hany]

theorem hashable_texts (l : List String) : (l.map Json.str).all hashable = true := by
  simp [hashable]

theorem coerceMultiselect_ok {options : List String} (hoptions : spec.options = some options) :
    coerceMultiselect spec value = .ok x ↔ ∃ l : List String, value = .arr (l.map Json.str) ∧
      x = .arr (l.map Json.str) ∧ l.Nodup ∧ ∀ option ∈ l, option ∈ options := by
  have hoffered : offered spec = .ok options := by
    unfold offered
    rw [hoptions]
  constructor
  · intro h
    cases value with
    | arr items =>
        obtain ⟨found, hfound, h⟩ := bind_ok.mp h
        rw [hoffered] at hfound
        cases hfound
        obtain ⟨_, hinvalid, h⟩ := bind_ok.mp h
        obtain ⟨_, -, h⟩ := bind_ok.mp h
        obtain ⟨_, hdistinct, h⟩ := bind_ok.mp h
        cases h
        have hall : ∀ item ∈ items, isOffered options item = true := by
          simpa using refuse_ok.mp hinvalid
        obtain ⟨l, rfl, hl⟩ := offered_texts hall
        have hnodup : distinct (l.map Json.str) = true := by
          simpa using refuse_ok.mp hdistinct
        exact ⟨l, rfl, rfl, (distinct_texts l).mp hnodup, hl⟩
    | null => cases h
    | bool b => cases h
    | int n => cases h
    | float y => cases h
    | str s => cases h
    | obj entries => cases h
  · rintro ⟨l, rfl, rfl, hnodup, hl⟩
    have hall : ∀ item ∈ l.map Json.str, isOffered options item = true := by
      intro item hitem
      obtain ⟨option, hoption, rfl⟩ := List.mem_map.mp hitem
      exact isOffered_iff.mpr ⟨option, hl option hoption, rfl⟩
    refine bind_ok.mpr ⟨options, hoffered, bind_ok.mpr ⟨(), refuse_ok.mpr ?_, ?_⟩⟩
    · rw [Bool.not_eq_false, List.isEmpty_iff, List.filter_eq_nil_iff]
      intro item hitem
      simp [hall item hitem]
    · refine bind_ok.mpr ⟨(), refuse_ok.mpr ?_, bind_ok.mpr ⟨(), refuse_ok.mpr ?_, rfl⟩⟩
      · rw [hashable_texts]
        decide
      · rw [(distinct_texts l).mpr hnodup]
        decide

theorem coerceSelect_ok {options : List String} (hoptions : spec.options = some options) :
    coerceSelect spec value = .ok x ↔ x = value ∧ ∃ option ∈ options, value = .str option := by
  unfold coerceSelect offered
  rw [hoptions, ← isOffered_iff]
  simp only [bind_ok, refuse_ok, Bool.not_eq_false]
  constructor
  · rintro ⟨found, hfound, _, hmem, hx⟩
    cases hfound
    exact ⟨(Except.ok.inj hx).symm, hmem⟩
  · rintro ⟨rfl, hmem⟩
    exact ⟨options, rfl, (), hmem, rfl⟩

theorem coerceText_ok {limit : Nat} : coerceText spec limit value = .ok x ↔
    ∃ s, value = .str s ∧ x = .str (strip s) ∧
      ((strip s).length : Int) ≤ spec.maxLength.getD limit := by
  constructor
  · intro h
    cases value with
    | str s =>
        obtain ⟨_, hmost, h⟩ := bind_ok.mp h
        cases h
        exact ⟨s, rfl, rfl, Int.not_lt.mp (refuse_ok.mp hmost)⟩
    | null => cases h
    | bool b => cases h
    | int n => cases h
    | float y => cases h
    | arr xs => cases h
    | obj entries => cases h
  · rintro ⟨s, rfl, rfl, hmost⟩
    exact bind_ok.mpr ⟨(), refuse_ok.mpr (Int.not_lt.mpr hmost), rfl⟩

theorem coerceBoolean_ok (h : coerceBoolean value = .ok x) : ∃ b, x = .bool b := by
  unfold coerceBoolean at h
  split at h
  · rename_i b
    cases h
    exact ⟨b, rfl⟩
  · split at h
    · cases h
      exact ⟨true, rfl⟩
    · split at h
      · cases h
        exact ⟨false, rfl⟩
      · cases h
  · cases h

theorem coerceDate_ok (h : coerceDate value = .ok x) : ∃ d : Date, x = .str d.isoformat := by
  unfold coerceDate at h
  split at h
  · split at h
    · rename_i parsed _
      cases h
      exact ⟨parsed, rfl⟩
    · split at h
      · rename_i parsed _
        cases h
        exact ⟨parsed, rfl⟩
      · cases h
  · cases h

/-- A field without bounds compares nothing. -/
theorem Normal.comparable (hspec : Normal spec) (hnumeric : spec.type.isNumeric = false) :
    Comparable spec value := by
  intro number _ bound hbound
  have hsome : spec.min.isSome = true ∨ spec.max.isSome = true := by
    rcases hbound with hbound | hbound
    · exact .inl (by rw [hbound]; rfl)
    · exact .inr (by rw [hbound]; rfl)
  rw [hspec.numeric hsome] at hnumeric
  cases hnumeric

theorem Normal.offers (hspec : Normal spec) (hchoice : spec.type.isChoice = true) :
    ∃ options, spec.options = some options :=
  Option.isSome_iff_exists.mp (hspec.choice.trans hchoice)

theorem coerceText_holds {limit : Nat} (hblank : isBlank value = false)
    (h : coerceText spec limit value = .ok x) :
    ∃ s, x = .str s ∧ strip s = s ∧ s ≠ "" ∧
      ∀ maxLength, spec.maxLength = some maxLength → s.length ≤ maxLength := by
  obtain ⟨s, rfl, rfl, hmost⟩ := coerceText_ok.mp h
  refine ⟨strip s, rfl, strip_strip s, ?_, fun maxLength hmaxLength => ?_⟩
  · simpa [isBlank] using hblank
  · rw [hmaxLength] at hmost
    exact hmost

theorem inRange_iff_comparable {number : Number} (hvalue : value = number.json)
    (hmin : ∀ minimum, spec.min = some minimum → number.value.lt minimum.value = false)
    (hmax : ∀ maximum, spec.max = some maximum → maximum.value.lt number.value = false) :
    InRange spec number.value ↔ Comparable spec value := by
  rw [inRange_iff hmin hmax]
  constructor
  · intro hrange other hother
    obtain rfl := json_injective (hvalue.symm.trans hother)
    exact hrange
  · intro hcomparable
    exact hcomparable number hvalue

/-- A value that the coercion accepts is what the field is meant to hold if and only if no
NaN was compared with a bound. -/
theorem coerce_holds_iff (hspec : Normal spec) (hblank : isBlank value = false)
    (h : coerce spec value = .ok x) : Holds spec x ↔ Comparable spec value := by
  unfold Holds
  cases htype : spec.type with
  | text | textarea | phone =>
      simp only [coerce, htype, FieldType.defaultMaxLength] at h
      exact iff_of_true (coerceText_holds hblank h) (hspec.comparable (by rw [htype]; rfl))
  | integer =>
      simp only [coerce, htype, FieldType.defaultMaxLength] at h
      obtain ⟨number, n, hvalue, hwhole, rfl, hmin, hmax⟩ := coerceInteger_ok.mp h
      rw [← inRange_iff_comparable hvalue hmin hmax, hwhole]
      constructor
      · rintro ⟨m, hm, hrange⟩
        cases hm
        exact hrange
      · intro hrange
        exact ⟨n, rfl, hrange⟩
  | number =>
      simp only [coerce, htype, FieldType.defaultMaxLength] at h
      obtain ⟨number, hvalue, rfl, hmin, hmax⟩ := coerceNumber_ok.mp h
      rw [← inRange_iff_comparable hvalue hmin hmax]
      constructor
      · rintro ⟨other, hother, hrange⟩
        obtain rfl := json_injective hother
        exact hrange
      · intro hrange
        exact ⟨number, rfl, hrange⟩
  | boolean =>
      simp only [coerce, htype, FieldType.defaultMaxLength] at h
      exact iff_of_true (coerceBoolean_ok h) (hspec.comparable (by rw [htype]; rfl))
  | date =>
      simp only [coerce, htype, FieldType.defaultMaxLength] at h
      exact iff_of_true (coerceDate_ok h) (hspec.comparable (by rw [htype]; rfl))
  | select =>
      simp only [coerce, htype, FieldType.defaultMaxLength] at h
      obtain ⟨options, hoptions⟩ := hspec.offers (by rw [htype]; rfl)
      obtain ⟨rfl, hoffered⟩ := (coerceSelect_ok hoptions).mp h
      refine iff_of_true ?_ (hspec.comparable (by rw [htype]; rfl))
      rw [hoptions]
      exact hoffered
  | multiselect =>
      simp only [coerce, htype, FieldType.defaultMaxLength] at h
      obtain ⟨options, hoptions⟩ := hspec.offers (by rw [htype]; rfl)
      obtain ⟨l, -, rfl, hnodup, hl⟩ := (coerceMultiselect_ok hoptions).mp h
      refine iff_of_true ⟨l, rfl, hnodup, ?_⟩ (hspec.comparable (by rw [htype]; rfl))
      rw [hoptions]
      exact hl

end Coercions

/-! ## What a coercion raises -/

/-- Whatever is raised is a `ValueError`. -/
def Caught {α : Type} (r : Except Raised α) : Prop :=
  ∀ e, r = .error e → ∃ message, e = .valueError message

namespace Caught

variable {α β : Type}

theorem ok (a : α) : Caught (.ok a : Except Raised α) := by
  intro e he
  cases he

theorem valueError (message : Message) :
    Caught (.error (.valueError message) : Except Raised α) := by
  intro e he
  cases he
  exact ⟨message, rfl⟩

theorem bind {r : Except Raised α} {f : α → Except Raised β} (hr : Caught r)
    (hf : ∀ a, r = .ok a → Caught (f a)) : Caught (r >>= f) := by
  intro e he
  cases r with
  | error e' =>
      cases he
      exact hr e rfl
  | ok a => exact hf a rfl e he

theorem refuse (c : Prop) [Decidable c] (message : Message) :
    Caught (Rcp.refuse c (Raised.valueError message)) := by
  unfold Rcp.refuse
  split
  · exact valueError message
  · exact ok ()

end Caught

section Raises

variable {spec : Spec} {value : Json}

theorem caught_toNumber : Caught (toNumber value) := by
  unfold toNumber
  split
  · exact .ok _
  · exact .valueError _

theorem caught_checkRange (number : Number) : Caught (checkRange spec number) := by
  refine .bind ?_ fun _ _ => .bind ?_ fun _ _ => .ok _
  · unfold checkMin
    split
    · exact .refuse _ _
    · exact .ok _
  · unfold checkMax
    split
    · exact .refuse _ _
    · exact .ok _

/-- An infinite value for an integer field. -/
def Infinite (spec : Spec) (value : Json) : Prop :=
  spec.type = .integer ∧ (value = .float .posInf ∨ value = .float .negInf)

theorem caught_coerceInteger (h : ¬ (value = .float .posInf ∨ value = .float .negInf)) :
    Caught (coerceInteger spec value) := by
  refine .bind caught_toNumber fun number hnumber => ?_
  have hvalue := toNumber_ok.mp hnumber
  refine .bind ?_ fun n _ => .bind (.refuse _ _) fun _ _ =>
    .bind (caught_checkRange _) fun _ _ => .ok _
  cases number with
  | int n => exact .ok n
  | float y =>
      cases y with
      | finite q => exact .ok _
      | nan => exact .valueError _
      | posInf => exact absurd (.inl hvalue) h
      | negInf => exact absurd (.inr hvalue) h

theorem coerceInteger_infinite (h : value = .float .posInf ∨ value = .float .negInf) :
    coerceInteger spec value = .error .overflowError := by
  rcases h with rfl | rfl
  · rfl
  · rfl

theorem caught_coerceMultiselect {options : List String} (hoptions : spec.options = some options) :
    Caught (coerceMultiselect spec value) := by
  unfold coerceMultiselect
  split
  · rename_i items
    have hoffered : offered spec = .ok options := by
      unfold offered
      rw [hoptions]
    rw [hoffered]
    refine .bind (.ok options) fun found hfound => .bind (.refuse _ _) fun _ hinvalid => ?_
    cases hfound
    -- The set is built of offered options only, and these are strings.
    have hall : ∀ item ∈ items, isOffered options item = true := by
      simpa using refuse_ok.mp hinvalid
    obtain ⟨l, rfl, -⟩ := offered_texts hall
    rw [hashable_texts]
    exact .bind (.ok ()) fun _ _ => .bind (.refuse _ _) fun _ _ => .ok _
  · exact .valueError _

/-- A coercion raises something other than a `ValueError` if and only if an integer field is
given an infinite value. -/
theorem coerce_caught_iff (hspec : Normal spec) :
    Caught (coerce spec value) ↔ ¬ Infinite spec value := by
  constructor
  · rintro hcaught ⟨htype, hinfinite⟩
    have hraise : coerce spec value = .error .overflowError := by
      simp only [coerce, htype, FieldType.defaultMaxLength]
      exact coerceInteger_infinite hinfinite
    obtain ⟨message, hmessage⟩ := hcaught _ hraise
    cases hmessage
  · intro hfinite
    unfold coerce
    cases htype : spec.type with
    | text | textarea | phone =>
        simp only [FieldType.defaultMaxLength]
        unfold coerceText
        split
        · exact .bind (.refuse _ _) fun _ _ => .ok _
        · exact .valueError _
    | integer => exact caught_coerceInteger fun hinfinite => hfinite ⟨htype, hinfinite⟩
    | number =>
        exact .bind caught_toNumber fun number _ => .bind (caught_checkRange number) fun _ _ =>
          .ok _
    | boolean =>
        show Caught (coerceBoolean value)
        unfold coerceBoolean
        split
        · exact .ok _
        · split
          · exact .ok _
          · split
            · exact .ok _
            · exact .valueError _
        · exact .valueError _
    | date =>
        show Caught (coerceDate value)
        unfold coerceDate
        split
        · split
          · exact .ok _
          · split
            · exact .ok _
            · exact .valueError _
        · exact .valueError _
    | select =>
        obtain ⟨options, hoptions⟩ := hspec.offers (by rw [htype]; rfl)
        show Caught (coerceSelect spec value)
        unfold coerceSelect offered
        rw [hoptions]
        exact .bind (.ok options) fun _ _ => .bind (.refuse _ _) fun _ _ => .ok _
    | multiselect =>
        obtain ⟨options, hoptions⟩ := hspec.offers (by rw [htype]; rfl)
        exact caught_coerceMultiselect hoptions

theorem uncaught_eq_none_iff {payload : Object} (hspec : Normal spec) :
    uncaught payload spec = none ↔ ¬ Infinite spec (given payload spec.key) := by
  rw [← coerce_caught_iff hspec]
  unfold uncaught Caught
  by_cases hblank : isBlank (given payload spec.key) = true
  · rw [if_pos hblank]
    refine iff_of_true rfl ((coerce_caught_iff hspec).mpr ?_)
    rintro ⟨-, hinfinite | hinfinite⟩
    · rw [hinfinite] at hblank
      cases hblank
    · rw [hinfinite] at hblank
      cases hblank
  · rw [if_neg hblank]
    cases coerce spec (given payload spec.key) with
    | ok x => simp
    | error e => cases e <;> simp

end Raises

end FormSchema
end Logistics
end Rcp
