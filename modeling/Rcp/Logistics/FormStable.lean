/-
Forms and payloads that have been normalised stay as they are.

`Spec.dict` is the dict that stands for a field in the source.  Reading it again finds every
entry where the field has it, and every value that a coercion returns is one that the same
coercion accepts and returns.
-/
import Rcp.Logistics.FormAnswer

namespace Rcp

namespace Dict

variable {K V : Type} [DecidableEq K]

theorem get?_append (d e : Dict K V) (k : K) :
    get? (d ++ e) k = (d.get? k).or (e.get? k) := by
  induction d with
  | nil => rfl
  | cons entry rest ih =>
      show (if entry.1 = k then some entry.2 else get? (rest ++ e) k) =
        (if entry.1 = k then some entry.2 else get? rest k).or (e.get? k)
      by_cases h : entry.1 = k
      · rw [if_pos h, if_pos h]
        rfl
      · rw [if_neg h, if_neg h]
        exact ih

/-- The entry of a dict that may lack it. -/
def optional (k : K) (v : Option V) : Dict K V := (v.map (k, ·)).toList

theorem get?_optional (k j : K) (v : Option V) :
    get? (optional k v) j = if k = j then v else none := by
  cases v with
  | none => simp [optional, get?]
  | some x => simp [optional, get?]

omit [DecidableEq K] in
theorem mem_keys_optional {k j : K} {v : Option V} (h : j ∈ keys (optional k v)) : j = k := by
  cases v with
  | none => simp [optional, keys] at h
  | some x => simpa [optional, keys] using h

end Dict

namespace Logistics
namespace FormSchema

/-! ## Definitions -/

/-- The dict of a field in normal form. -/
def Spec.dict (spec : Spec) : Object :=
  [("key", .str spec.key), ("label", .str spec.label), ("type", .str spec.type.value),
      ("required", .bool spec.required)] ++
    Dict.optional "help_text" (spec.helpText.map Json.str) ++
    Dict.optional "options" (spec.options.map fun options => .arr (options.map Json.str)) ++
    Dict.optional "min" (spec.min.map Number.json) ++
    Dict.optional "max" (spec.max.map Number.json) ++
    Dict.optional "max_length" (spec.maxLength.map Json.int)

/-- What `validate_definition` returns, as a value that it may be given. -/
def definitionJson : Option (List Spec) → Json
  | none => .null
  | some specs => .arr (specs.map fun spec => .obj spec.dict)

section Fields

variable (spec : Spec)

theorem mem_dict_keys {key : String} (h : key ∈ spec.dict.keys) : key ∈ specKeys := by
  unfold Spec.dict Dict.keys at h
  simp only [List.map_append, List.mem_append] at h
  rcases h with ((((h | h) | h) | h) | h) | h
  · simp only [List.map_cons, List.map_nil, List.mem_cons, List.not_mem_nil, or_false] at h
    rcases h with rfl | rfl | rfl | rfl <;> decide
  all_goals
    obtain rfl := Dict.mem_keys_optional h
    decide

@[simp] theorem get?_key : spec.dict.get? "key" = some (.str spec.key) := rfl

@[simp] theorem get?_label : spec.dict.get? "label" = some (.str spec.label) := rfl

@[simp] theorem get?_type : spec.dict.get? "type" = some (.str spec.type.value) := rfl

@[simp] theorem get?_required : spec.dict.get? "required" = some (.bool spec.required) := rfl

@[simp] theorem get?_helpText : spec.dict.get? "help_text" = spec.helpText.map Json.str := by
  simp [Spec.dict, Dict.get?_append, Dict.get?_optional, Dict.get?]

@[simp] theorem get?_options : spec.dict.get? "options" =
    spec.options.map fun options => .arr (options.map Json.str) := by
  simp [Spec.dict, Dict.get?_append, Dict.get?_optional, Dict.get?]

@[simp] theorem get?_min : spec.dict.get? "min" = spec.min.map Number.json := by
  simp [Spec.dict, Dict.get?_append, Dict.get?_optional, Dict.get?]

@[simp] theorem get?_max : spec.dict.get? "max" = spec.max.map Number.json := by
  simp [Spec.dict, Dict.get?_append, Dict.get?_optional, Dict.get?]

@[simp] theorem get?_maxLength : spec.dict.get? "max_length" = spec.maxLength.map Json.int := by
  simp [Spec.dict, Dict.get?_append, Dict.get?_optional, Dict.get?]

end Fields

section Reading

variable {spec : Spec}

theorem ofJson?_value (type : FieldType) : FieldType.ofJson? (.str type.value) = some type := by
  cases type <;> decide

theorem optionTexts_map {options : List String} (h : ∀ option ∈ options, strip option ≠ "") :
    optionTexts (options.map Json.str) = some options := by
  induction options with
  | nil => rfl
  | cons option rest ih =>
      have hhead : strip option ≠ "" := h option List.mem_cons_self
      have hrest := ih fun other hother => h other (List.mem_cons_of_mem _ hother)
      simp [optionTexts, hhead, hrest]

theorem readOptions_dict (h : Normal spec) (key : String) :
    readOptions spec.dict key spec.type = .ok spec.options := by
  unfold readOptions
  rw [get?_options]
  cases hoptions : spec.options with
  | none =>
      have hchoice : spec.type.isChoice = false := by
        rw [← h.choice, hoptions]
        rfl
      simp [hchoice]
  | some options =>
      have hchoice : spec.type.isChoice = true := by
        rw [← h.choice, hoptions]
        rfl
      obtain ⟨hpos, hmost, hnodup, hstrip⟩ := h.options options hoptions
      have htexts := optionTexts_map hstrip
      cases options with
      | nil => simp at hpos
      | cons first others =>
          have hfew : ¬ maxOptions < (Json.str first :: others.map Json.str).length := by
            simpa [maxOptions] using hmost
          rw [List.map_cons] at htexts
          simp only [hchoice, if_true, Option.map_some, List.map_cons]
          refine bind_ok.mpr ⟨(), refuse_ok.mpr hfew, ?_⟩
          simp only [htexts, if_pos hnodup]

theorem optionalNumber_dict {name key : String} {number : Option Number}
    (h : spec.dict.get? name = number.map Number.json) :
    optionalNumber spec.dict name key = .ok number := by
  unfold optionalNumber
  rw [h]
  cases number with
  | none => rfl
  | some x =>
      simp only [Option.map_some]
      rw [Number.ofJson?_eq_some.mpr rfl]

theorem readBounds_dict (h : Normal spec) (hrange : exceeds spec.min spec.max = false)
    (key : String) : readBounds spec.dict key spec.type = .ok (spec.min, spec.max) := by
  unfold readBounds
  cases hnumeric : spec.type.isNumeric with
  | true =>
      rw [optionalNumber_dict (get?_min spec), optionalNumber_dict (get?_max spec)]
      show (refuse (exceeds spec.min spec.max = true) _ >>= fun _ => _) = _
      rw [hrange]
      rfl
  | false =>
      have hnone : spec.min = none ∧ spec.max = none := by
        constructor
        · cases hmin : spec.min with
          | none => rfl
          | some x =>
              have hsome := h.numeric (.inl (by rw [hmin]; rfl))
              rw [hnumeric] at hsome
              cases hsome
        · cases hmax : spec.max with
          | none => rfl
          | some x =>
              have hsome := h.numeric (.inr (by rw [hmax]; rfl))
              rw [hnumeric] at hsome
              cases hsome
      rw [get?_min, get?_max, hnone.1, hnone.2]
      rfl

theorem readMaxLength_dict (h : Normal spec) (key : String) :
    readMaxLength spec.dict key spec.type = .ok spec.maxLength := by
  unfold readMaxLength
  rw [get?_maxLength]
  have htextual := h.textual
  cases hlimit : spec.type.defaultMaxLength with
  | none =>
      rw [hlimit] at htextual
      cases hmax : spec.maxLength with
      | none => rfl
      | some n =>
          rw [hmax] at htextual
          cases htextual
  | some limit =>
      rw [hlimit] at htextual
      cases hmax : spec.maxLength with
      | none =>
          rw [hmax] at htextual
          cases htextual
      | some n =>
          obtain ⟨hpos, hmost⟩ := h.maxLength n limit hmax hlimit
          have hpos' : ¬ n ≤ 0 := by omega
          have hmost' : ¬ (limit : Int) < n := by omega
          show (refuse (n ≤ 0) _ >>= fun _ => refuse ((limit : Int) < n) _ >>= fun _ => _) = _
          unfold refuse
          rw [if_neg hpos', if_neg hmost']
          rfl

/-- A field in normal form is read from its own dict. -/
theorem validateFieldObject_dict (h : Normal spec) (hpattern : keyPattern spec.key = true)
    (hrange : exceeds spec.min spec.max = false) (index : Nat) :
    validateFieldObject spec.dict index = .ok spec := by
  have hkeys : ¬ spec.dict.keys.filter (fun key => key ∉ specKeys) ≠ [] := by
    rw [not_not, List.filter_eq_nil_iff]
    intro key hkey
    simpa using mem_dict_keys spec hkey
  have hkey : readKey spec.dict index = .ok spec.key := by
    unfold readKey
    rw [get?_key]
    exact if_pos hpattern
  have htype : readType spec.dict spec.key = .ok spec.type := by
    unfold readType
    rw [get?_type, Option.getD_some, ofJson?_value]
  have hlabel : readLabel spec.dict spec.key = .ok spec.label := by
    unfold readLabel
    rw [get?_label]
    exact if_neg h.label
  have hhelp : readHelpText spec.dict spec.key = .ok spec.helpText := by
    unfold readHelpText
    rw [get?_helpText]
    cases spec.helpText with
    | none => rfl
    | some text => rfl
  refine bind_ok.mpr ⟨(), refuse_ok.mpr hkeys, bind_ok.mpr ⟨spec.key, hkey, ?_⟩⟩
  refine bind_ok.mpr ⟨spec.type, htype, bind_ok.mpr ⟨spec.label, hlabel, ?_⟩⟩
  refine bind_ok.mpr ⟨spec.required, rfl, bind_ok.mpr ⟨spec.helpText, hhelp, ?_⟩⟩
  refine bind_ok.mpr ⟨spec.options, readOptions_dict h spec.key, ?_⟩
  refine bind_ok.mpr ⟨(spec.min, spec.max), readBounds_dict h hrange spec.key, ?_⟩
  exact bind_ok.mpr ⟨spec.maxLength, readMaxLength_dict h spec.key, rfl⟩

end Reading

theorem validateFields_dict {specs : List Spec} {index : Nat} {seen : List String}
    (heach : ∀ spec ∈ specs, ∃ raw, Reads raw spec) (hkeys : (specs.map Spec.key).Nodup)
    (hseen : ∀ spec ∈ specs, spec.key ∉ seen) :
    validateFields (specs.map fun spec => .obj spec.dict) index seen = .ok specs := by
  induction specs generalizing index seen with
  | nil => rfl
  | cons spec rest ih =>
      obtain ⟨raw, hraw⟩ := heach spec List.mem_cons_self
      rw [List.map_cons, List.nodup_cons] at hkeys
      have hfield := validateFieldObject_dict hraw.toNormal hraw.pattern hraw.range index
      have hfresh : ∀ other ∈ rest, other.key ∉ spec.key :: seen := by
        intro other hother hmem
        rcases List.mem_cons.mp hmem with heq | hmem
        · exact hkeys.1 (heq ▸ List.mem_map.mpr ⟨other, hother, rfl⟩)
        · exact hseen other (List.mem_cons_of_mem _ hother) hmem
      have hothers : validateFields (rest.map fun spec => .obj spec.dict) (index + 1)
          (spec.key :: seen) = .ok rest :=
        ih (fun other hother => heach other (List.mem_cons_of_mem _ hother)) hkeys.2 hfresh
      refine bind_ok.mpr ⟨spec, hfield, bind_ok.mpr ⟨(), refuse_ok.mpr ?_, ?_⟩⟩
      · exact hseen spec List.mem_cons_self
      · exact bind_ok.mpr ⟨rest, hothers, rfl⟩

theorem validateDefinition_stable {v : Json} {definition : Option (List Spec)}
    (h : validateDefinition v = .ok definition) :
    validateDefinition (definitionJson definition) = .ok definition := by
  cases definition with
  | none => rfl
  | some specs =>
      obtain ⟨haccepted, -⟩ := validateDefinition_ok h
      have hfew : ¬ maxFields < (specs.map fun spec => Json.obj spec.dict).length := by
        rw [List.length_map]
        exact Nat.not_lt.mpr haccepted.fields
      have hfields : validateFields (specs.map fun spec => .obj spec.dict) 0 [] = .ok specs :=
        validateFields_dict haccepted.each haccepted.keys fun spec _ => by simp
      exact bind_ok.mpr ⟨(), refuse_ok.mpr hfew, bind_ok.mpr ⟨specs, hfields, rfl⟩⟩

/-! ## Payloads -/

/-- What `validate_payload` returns, as a value that it may be given. -/
def payloadJson : Option Object → Json
  | none => .null
  | some payload => .obj payload

section Coercions

variable {spec : Spec} {value x : Json}

theorem isBlank_number (number : Number) : isBlank number.json = false := by
  cases number with
  | int n => rfl
  | float y => rfl

theorem isBlank_isoformat (d : Date) : isBlank (.str d.isoformat) = false := by
  have hspace : isSpace (Date.digit (d.year / 100 / 10)) = false := by
    have hdigits : ∀ m < 10, isSpace (Char.ofNat (48 + m)) = false := by decide
    exact hdigits _ (Nat.mod_lt _ (by decide))
  have hmem : Date.digit (d.year / 100 / 10) ∈ d.isoformat.toList := by
    unfold Date.isoformat Date.twoDigits
    rw [String.toList_ofList]
    exact List.mem_cons_self
  have hstrip : strip d.isoformat ≠ "" := by
    intro hempty
    have hall := strip_eq_empty_iff.mp hempty _ hmem
    rw [hspace] at hall
    cases hall
  simpa [isBlank] using hstrip

/-- A value that a coercion returns is not blank, and the coercion returns it again. -/
theorem coerce_fixed (hspec : Normal spec) (hblank : isBlank value = false)
    (h : coerce spec value = .ok x) : isBlank x = false ∧ coerce spec x = .ok x := by
  cases htype : spec.type with
  | text | textarea | phone =>
      simp only [coerce, htype, FieldType.defaultMaxLength] at h ⊢
      obtain ⟨s, rfl, rfl, hmost⟩ := coerceText_ok.mp h
      constructor
      · simpa [isBlank, strip_strip] using hblank
      · refine coerceText_ok.mpr ⟨strip s, rfl, ?_, ?_⟩
        · rw [strip_strip]
        · rw [strip_strip]
          exact hmost
  | integer =>
      simp only [coerce, htype, FieldType.defaultMaxLength] at h ⊢
      obtain ⟨number, n, -, hwhole, rfl, hmin, hmax⟩ := coerceInteger_ok.mp h
      rw [hwhole] at hmin hmax
      exact ⟨rfl, coerceInteger_ok.mpr ⟨.int n, n, rfl, rfl, rfl, hmin, hmax⟩⟩
  | number =>
      simp only [coerce, htype, FieldType.defaultMaxLength] at h ⊢
      obtain ⟨number, -, rfl, hmin, hmax⟩ := coerceNumber_ok.mp h
      exact ⟨isBlank_number number, coerceNumber_ok.mpr ⟨number, rfl, rfl, hmin, hmax⟩⟩
  | boolean =>
      simp only [coerce, htype, FieldType.defaultMaxLength] at h ⊢
      obtain ⟨b, rfl⟩ := coerceBoolean_ok h
      exact ⟨rfl, rfl⟩
  | date =>
      simp only [coerce, htype, FieldType.defaultMaxLength] at h ⊢
      obtain ⟨d, rfl⟩ := coerceDate_ok h
      refine ⟨isBlank_isoformat d, ?_⟩
      simp only [coerceDate, Date.fromIsoformat_isoformat]
  | select =>
      obtain ⟨options, hoptions⟩ := hspec.offers (by rw [htype]; rfl)
      simp only [coerce, htype, FieldType.defaultMaxLength] at h ⊢
      obtain ⟨rfl, hmem⟩ := (coerceSelect_ok hoptions).mp h
      exact ⟨hblank, (coerceSelect_ok hoptions).mpr ⟨rfl, hmem⟩⟩
  | multiselect =>
      obtain ⟨options, hoptions⟩ := hspec.offers (by rw [htype]; rfl)
      simp only [coerce, htype, FieldType.defaultMaxLength] at h ⊢
      obtain ⟨l, rfl, rfl, hnodup, hmem⟩ := (coerceMultiselect_ok hoptions).mp h
      exact ⟨hblank, (coerceMultiselect_ok hoptions).mpr ⟨l, rfl, rfl, hnodup, hmem⟩⟩

end Coercions

section Payloads

variable {specs : List Spec} {payload : Object}

/-- The payload that was returned gives each field the value that it has there. -/
theorem given_values (hkeys : (specs.map Spec.key).Nodup) {spec : Spec} (hspec : spec ∈ specs) :
    given (values payload specs) spec.key = (fieldValue payload spec).getD .null := by
  unfold given
  rw [get?_values hkeys hspec]

theorem fieldValue_values (h : Accepted specs) {spec : Spec} (hspec : spec ∈ specs) :
    fieldValue (values payload specs) spec = fieldValue payload spec := by
  cases hvalue : fieldValue payload spec with
  | none =>
      unfold fieldValue
      rw [given_values h.keys hspec, hvalue]
      rfl
  | some x =>
      have hx := hvalue
      unfold fieldValue at hx
      split at hx
      · cases hx
      · rename_i hblank
        have hcoerce : coerce spec (given payload spec.key) = .ok x := by
          cases hc : coerce spec (given payload spec.key) with
          | ok y =>
              rw [hc] at hx
              cases hx
              rfl
          | error e =>
              rw [hc] at hx
              cases hx
        obtain ⟨hblank', hfixed⟩ := coerce_fixed (h.normal hspec) (by simpa using hblank) hcoerce
        unfold fieldValue
        rw [given_values h.keys hspec, hvalue]
        simp [hblank', hfixed, Except.toOption]

theorem values_values (h : Accepted specs) :
    values (values payload specs) specs = values payload specs := by
  show List.filterMap _ specs = List.filterMap _ specs
  refine List.filterMap_congr fun spec hspec => ?_
  rw [fieldValue_values h hspec]

/-- What is returned is `None` if it is empty. -/
theorem validateObject_answer (h : Accepted specs) {p : Option Object}
    (hp : validateObject specs payload = .ok p) :
    p = if (values payload specs).isEmpty then none else some (values payload specs) := by
  have hfinite : ∀ spec ∈ specs, ¬ Infinite spec (given payload spec.key) := by
    intro spec hspec hinfinite
    obtain ⟨e, he⟩ := validateObject_raises h hspec hinfinite
    rw [he] at hp
    cases hp
  rw [validateObject_eq h hfinite] at hp
  split at hp
  · cases hp
  · exact (Except.ok.inj hp).symm

/-- The payload that was returned is accepted again. -/
theorem validateObject_values (h : Accepted specs) {result : Object}
    (hpasses : Passes specs payload result) :
    validateObject specs (values payload specs) =
      .ok (if (values payload specs).isEmpty then none else some (values payload specs)) := by
  have hgiven : ∀ spec ∈ specs,
      (isBlank (given (values payload specs) spec.key) = true ∧ spec.required = false) ∨
      ∃ x, isBlank (given (values payload specs) spec.key) = false ∧
        coerce spec (given (values payload specs) spec.key) = .ok x := by
    intro spec hspec
    rw [given_values h.keys hspec]
    cases hblank : isBlank (given payload spec.key) with
    | true =>
        have hnone : fieldValue payload spec = none := if_pos hblank
        rw [hnone]
        exact .inl ⟨rfl, hpasses.optional spec hspec hblank⟩
    | false =>
        obtain ⟨x, hcoerce, hvalue⟩ := hpasses.coerced spec hspec hblank
        obtain ⟨hblank', hfixed⟩ := coerce_fixed (h.normal hspec) hblank hcoerce
        rw [hvalue]
        exact .inr ⟨x, hblank', hfixed⟩
  have hfinite : ∀ spec ∈ specs, ¬ Infinite spec (given (values payload specs) spec.key) := by
    intro spec hspec hinfinite
    rcases hgiven spec hspec with ⟨hblank, -⟩ | ⟨x, -, hcoerce⟩
    · rcases hinfinite.2 with heq | heq <;>
        rw [heq] at hblank <;> cases hblank
    · refine (coerce_caught_iff (h.normal hspec)).mp ?_ hinfinite
      rw [hcoerce]
      exact .ok x
  have hdefined : ∀ key ∈ (values payload specs).keys, key ∈ specs.map Spec.key :=
    fun key hkey => (keys_values_sublist payload specs).subset hkey
  have herrors : ∀ spec ∈ specs, fieldError (values payload specs) spec = none := by
    intro spec hspec
    unfold fieldError
    rcases hgiven spec hspec with ⟨hblank, hoptional⟩ | ⟨x, hblank, hcoerce⟩
    · simp [hblank, hoptional]
    · simp [hblank, hcoerce]
  rw [validateObject_eq h hfinite, undefinedKeys_eq_nil_iff.mpr hdefined,
    fieldErrors_eq_nil_iff.mpr herrors, values_values h]
  rfl

end Payloads

/-- A definition that was returned is returned again, and so is every payload that was
returned for it. -/
theorem normalisation_stable {v : Json} {definition : Option (List Spec)}
    (h : validateDefinition v = .ok definition) :
    validateDefinition (definitionJson definition) = .ok definition ∧
      ∀ p q, validatePayload definition p = .ok q →
        validatePayload definition (payloadJson q) = .ok q := by
  refine ⟨validateDefinition_stable h, fun p q hq => ?_⟩
  have haccepted := accepted_definition h
  unfold validatePayload at hq
  split at hq
  · cases hq
  · rename_i payload _
    have hagain := validateObject_values haccepted (validateObject_ok haccepted hq)
    have hanswer := validateObject_answer haccepted hq
    rw [← hanswer] at hagain
    have hpayload : payloadOf (payloadJson q) = some (values payload (definition.getD [])) := by
      rw [hanswer]
      cases values payload (definition.getD []) with
      | nil => rfl
      | cons entry rest => rfl
    unfold validatePayload
    rw [hpayload]
    exact hagain

/-- The form of the weights and a payload for it. -/
theorem normalisation_stable_weight :
    validateDefinition (definitionJson (some weightSpecs)) = .ok (some weightSpecs) ∧
      validatePayload (some weightSpecs) (payloadJson (some [("weight", .int 3)])) =
        .ok (some [("weight", .int 3)]) := by
  have hstable := normalisation_stable weight_accepted
  exact ⟨hstable.1, hstable.2 (.obj [("weight", .int 3)]) (some [("weight", .int 3)]) rfl⟩

end FormSchema
end Logistics
end Rcp
