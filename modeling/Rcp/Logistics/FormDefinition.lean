/-
The definitions that `validate_definition` accepts.

`Reads` says once what an accepted field keeps of the object it was read from and which
checks it has passed.  Two of the checks let something through: the dollar of the pattern of
a key matches before a newline at the end, and no comparison with NaN is true.
-/
import Rcp.Logistics.FormSchema

namespace Rcp
namespace Logistics
namespace FormSchema

/-! ## Well-formed fields -/

/-- A lower-case ASCII letter and at most 49 lower-case letters, digits or underscores. -/
def IsKey (s : String) : Prop :=
  ∃ c body, s.toList = c :: body ∧ isKeyStart c = true ∧ body.length ≤ 49 ∧
    ∀ x ∈ body, isKeyChar x = true

/-- What is well formed about a field apart from its key and the order of its bounds. -/
structure Normal (spec : Spec) : Prop where
  label : strip spec.label ≠ ""
  choice : spec.options.isSome = spec.type.isChoice
  options : ∀ l, spec.options = some l →
    1 ≤ l.length ∧ l.length ≤ 100 ∧ l.Nodup ∧ ∀ option ∈ l, strip option ≠ ""
  numeric : spec.min.isSome = true ∨ spec.max.isSome = true → spec.type.isNumeric = true
  textual : spec.maxLength.isSome = spec.type.defaultMaxLength.isSome
  maxLength : ∀ n limit, spec.maxLength = some n → spec.type.defaultMaxLength = some limit →
    1 ≤ n ∧ n ≤ limit

structure WellFormed (spec : Spec) : Prop extends Normal spec where
  key : IsKey spec.key
  range : ∀ minimum maximum, spec.min = some minimum → spec.max = some maximum →
    minimum.value.le maximum.value = true

structure WellFormedForm (specs : List Spec) : Prop where
  fields : specs.length ≤ 50
  keys : (specs.map Spec.key).Nodup
  each : ∀ spec ∈ specs, WellFormed spec

/-! ## What a field reads -/

/-- The field is read from an object. -/
structure Reads (raw : Object) (spec : Spec) : Prop extends Normal spec where
  key : raw.get? "key" = some (.str spec.key)
  pattern : keyPattern spec.key = true
  min : raw.get? "min" = spec.min.map Number.json
  max : raw.get? "max" = spec.max.map Number.json
  range : exceeds spec.min spec.max = false

section

variable {raw : Object} {index : Nat} {key : String} {type : FieldType}

theorem readKey_ok (h : readKey raw index = .ok key) :
    raw.get? "key" = some (.str key) ∧ keyPattern key = true := by
  unfold readKey at h
  split at h
  · rename_i s hs
    split at h
    · rename_i hpattern
      cases h
      exact ⟨hs, hpattern⟩
    · cases h
  · cases h

theorem readLabel_ok {label : String} (h : readLabel raw key = .ok label) :
    strip label ≠ "" := by
  unfold readLabel at h
  split at h
  · split at h
    · cases h
    · rename_i hstrip
      cases h
      exact hstrip
  · cases h

theorem optionTexts_length {values : List Json} {texts : List String}
    (h : optionTexts values = some texts) :
    texts.length = values.length ∧ ∀ text ∈ texts, strip text ≠ "" := by
  induction values generalizing texts with
  | nil =>
      cases h
      simp
  | cons value rest ih =>
      cases value with
      | str s =>
          simp only [optionTexts] at h
          split at h
          · cases h
          · rename_i hstrip
            obtain ⟨others, hothers, rfl⟩ := Option.map_eq_some_iff.mp h
            obtain ⟨hlength, hnonblank⟩ := ih hothers
            constructor
            · simp [hlength]
            · intro text htext
              rcases List.mem_cons.mp htext with rfl | hrest
              · exact hstrip
              · exact hnonblank text hrest
      | null => cases h
      | bool b => cases h
      | int n => cases h
      | float x => cases h
      | arr xs => cases h
      | obj entries => cases h

theorem readOptions_ok {options : Option (List String)}
    (h : readOptions raw key type = .ok options) :
    options.isSome = type.isChoice ∧ ∀ l, options = some l →
      1 ≤ l.length ∧ l.length ≤ 100 ∧ l.Nodup ∧ ∀ option ∈ l, strip option ≠ "" := by
  unfold readOptions at h
  split at h
  · rename_i hchoice
    split at h
    · rename_i first others _
      obtain ⟨_, hmany, h⟩ := bind_ok.mp h
      have hmost : (first :: others).length ≤ 100 := Nat.not_lt.mp (refuse_ok.mp hmany)
      split at h
      · cases h
      · rename_i texts htexts
        split at h
        · rename_i hnodup
          cases h
          obtain ⟨hlength, hnonblank⟩ := optionTexts_length htexts
          constructor
          · exact hchoice.symm
          · intro l hl
            cases hl
            rw [hlength]
            exact ⟨by simp, hmost, hnodup, hnonblank⟩
        · cases h
    · cases h
  · rename_i hchoice
    split at h
    · cases h
    · cases h
      constructor
      · simpa using hchoice
      · intro l hl
        cases hl

theorem optionalNumber_ok {name : String} {number : Option Number}
    (h : optionalNumber raw name key = .ok number) :
    raw.get? name = number.map Number.json := by
  unfold optionalNumber at h
  split at h
  · rename_i hnone
    cases h
    exact hnone
  · rename_i value hvalue
    split at h
    · rename_i x hx
      cases h
      rw [hvalue, Number.ofJson?_eq_some.mp hx]
      rfl
    · cases h

theorem readBounds_ok {minimum maximum : Option Number}
    (h : readBounds raw key type = .ok (minimum, maximum)) :
    (raw.get? "min" = minimum.map Number.json ∧ raw.get? "max" = maximum.map Number.json) ∧
      exceeds minimum maximum = false ∧
      (minimum.isSome = true ∨ maximum.isSome = true → type.isNumeric = true) := by
  unfold readBounds at h
  split at h
  · rename_i hnumeric
    obtain ⟨a, ha, h⟩ := bind_ok.mp h
    obtain ⟨b, hb, h⟩ := bind_ok.mp h
    obtain ⟨_, hrange, h⟩ := bind_ok.mp h
    cases h
    have hle : exceeds minimum maximum = false := by
      simpa using refuse_ok.mp hrange
    exact ⟨⟨optionalNumber_ok ha, optionalNumber_ok hb⟩, hle, fun _ => hnumeric⟩
  · split at h
    · cases h
    · rename_i hnone
      cases h
      rw [not_or, Option.not_isSome_iff_eq_none, Option.not_isSome_iff_eq_none] at hnone
      exact ⟨hnone, rfl, fun hsome => by simp at hsome⟩

theorem readMaxLength_ok {maxLength : Option Int}
    (h : readMaxLength raw key type = .ok maxLength) :
    maxLength.isSome = type.defaultMaxLength.isSome ∧ ∀ n limit, maxLength = some n →
      type.defaultMaxLength = some limit → 1 ≤ n ∧ n ≤ limit := by
  unfold readMaxLength at h
  split at h
  · rename_i limit hlimit
    rw [hlimit]
    split at h
    · rename_i n _
      obtain ⟨_, hpos, h⟩ := bind_ok.mp h
      obtain ⟨_, hmost, h⟩ := bind_ok.mp h
      cases h
      have hpos := refuse_ok.mp hpos
      have hmost := refuse_ok.mp hmost
      constructor
      · rfl
      · intro m limit' hm hlimit'
        cases hm
        cases hlimit'
        omega
    · cases h
  · rename_i hlimit
    rw [hlimit]
    split at h
    · cases h
    · cases h
      constructor
      · rfl
      · intro n limit hn
        cases hn

end

theorem validateFieldObject_ok {raw : Object} {index : Nat} {spec : Spec}
    (h : validateFieldObject raw index = .ok spec) : Reads raw spec := by
  obtain ⟨-, -, h⟩ := bind_ok.mp h
  obtain ⟨key, hkey, h⟩ := bind_ok.mp h
  obtain ⟨type, -, h⟩ := bind_ok.mp h
  obtain ⟨label, hlabel, h⟩ := bind_ok.mp h
  obtain ⟨required, -, h⟩ := bind_ok.mp h
  obtain ⟨helpText, -, h⟩ := bind_ok.mp h
  obtain ⟨options, hoptions, h⟩ := bind_ok.mp h
  obtain ⟨⟨minimum, maximum⟩, hbounds, h⟩ := bind_ok.mp h
  obtain ⟨maxLength, hmaxLength, h⟩ := bind_ok.mp h
  cases h
  obtain ⟨hkey, hpattern⟩ := readKey_ok hkey
  obtain ⟨hchoice, hoptions⟩ := readOptions_ok hoptions
  obtain ⟨⟨hmin, hmax⟩, hrange, hnumeric⟩ := readBounds_ok hbounds
  obtain ⟨htextual, hmost⟩ := readMaxLength_ok hmaxLength
  exact {
    label := readLabel_ok hlabel
    choice := hchoice
    options := hoptions
    numeric := hnumeric
    textual := htextual
    maxLength := hmost
    key := hkey
    pattern := hpattern
    min := hmin
    max := hmax
    range := hrange }

/-- The partner of an element of the first list. -/
theorem exists_partner {α β : Type} {R : α → β → Prop} {l : List α} {l' : List β}
    (h : List.Forall₂ R l l') {a : α} (ha : a ∈ l) : ∃ b ∈ l', R a b := by
  induction h with
  | nil => cases ha
  | cons hab _ ih =>
      rcases List.mem_cons.mp ha with rfl | ha
      · exact ⟨_, List.mem_cons_self, hab⟩
      · obtain ⟨b, hb, hR⟩ := ih ha
        exact ⟨b, List.mem_cons_of_mem _ hb, hR⟩

theorem validateFields_ok {fields : List Json} {index : Nat} {seen : List String}
    {specs : List Spec} (h : validateFields fields index seen = .ok specs) :
    List.Forall₂ (fun field spec => ∃ raw, field = .obj raw ∧ Reads raw spec) fields specs ∧
      (specs.map Spec.key).Nodup ∧ ∀ spec ∈ specs, spec.key ∉ seen := by
  induction fields generalizing index seen specs with
  | nil =>
      cases h
      exact ⟨.nil, List.nodup_nil, fun spec hspec => by cases hspec⟩
  | cons field rest ih =>
      obtain ⟨spec, hspec, h⟩ := bind_ok.mp h
      obtain ⟨_, hfresh, h⟩ := bind_ok.mp h
      obtain ⟨others, hothers, h⟩ := bind_ok.mp h
      cases h
      have hfresh := refuse_ok.mp hfresh
      obtain ⟨hrest, hnodup, hseen⟩ := ih hothers
      have hfield : ∃ raw, field = .obj raw ∧ Reads raw spec := by
        unfold validateFieldSpec at hspec
        split at hspec
        · rename_i raw
          exact ⟨raw, rfl, validateFieldObject_ok hspec⟩
        · cases hspec
      refine ⟨.cons hfield hrest, ?_, ?_⟩
      · rw [List.map_cons, List.nodup_cons]
        refine ⟨fun hmem => ?_, hnodup⟩
        obtain ⟨other, hother, hkey⟩ := List.mem_map.mp hmem
        exact hseen other hother (by rw [hkey]; exact List.mem_cons_self)
      · intro other hother
        rcases List.mem_cons.mp hother with rfl | hother
        · exact hfresh
        · exact fun hmem => hseen other hother (List.mem_cons_of_mem _ hmem)

/-- What is known of an accepted definition. -/
structure Accepted (specs : List Spec) : Prop where
  fields : specs.length ≤ 50
  keys : (specs.map Spec.key).Nodup
  each : ∀ spec ∈ specs, ∃ raw, Reads raw spec

theorem validateDefinition_ok {v : Json} {specs : List Spec}
    (h : validateDefinition v = .ok (some specs)) :
    Accepted specs ∧ ∃ fields, v = .arr fields ∧
      List.Forall₂ (fun field spec => ∃ raw, field = .obj raw ∧ Reads raw spec)
        fields specs := by
  unfold validateDefinition at h
  split at h
  · cases h
  · rename_i fields
    obtain ⟨_, hmany, h⟩ := bind_ok.mp h
    obtain ⟨specs', hspecs, h⟩ := bind_ok.mp h
    cases h
    obtain ⟨hreads, hkeys, -⟩ := validateFields_ok hspecs
    have hmost : fields.length ≤ 50 := Nat.not_lt.mp (refuse_ok.mp hmany)
    refine ⟨⟨?_, hkeys, ?_⟩, fields, rfl, hreads⟩
    · rw [← hreads.length_eq]
      exact hmost
    · intro spec hspec
      obtain ⟨field, -, raw, -, hraw⟩ := exists_partner hreads.flip hspec
      exact ⟨raw, hraw⟩
  · cases h

/-! ## Keys and bounds -/

/-- A text that the pattern matches is a key unless a newline ends it. -/
theorem isKey_iff {s : String} (h : keyPattern s = true) :
    IsKey s ↔ ¬ ['\n'] <:+ s.toList := by
  unfold keyPattern at h
  split at h
  · cases h
  · rename_i c rest hs
    simp only [Bool.and_eq_true, decide_eq_true_eq, Bool.or_eq_true, beq_iff_eq] at h
    obtain ⟨⟨hstart, hlength⟩, htail⟩ := h
    have hsplit : rest = rest.takeWhile isKeyChar ++ rest.dropWhile isKeyChar :=
      List.takeWhile_append_dropWhile.symm
    constructor
    · rintro ⟨c', body, hs', -, -, hbody⟩ hnewline
      rw [hs] at hs'
      cases hs'
      rw [hs, List.singleton_suffix_iff_getLast?_eq_some] at hnewline
      have hmem : '\n' ∈ c :: rest := List.mem_of_getLast? hnewline
      rcases List.mem_cons.mp hmem with heq | hmem
      · rw [← heq] at hstart
        revert hstart
        decide
      · have hchar := hbody _ hmem
        revert hchar
        decide
    · intro hnewline
      have hempty : rest.dropWhile isKeyChar = [] := by
        refine htail.resolve_right fun htail => hnewline ?_
        rw [hs, hsplit, htail]
        exact ⟨c :: rest.takeWhile isKeyChar, by simp⟩
      have hall : ∀ x ∈ rest, isKeyChar x = true := List.dropWhile_eq_nil_iff.mp hempty
      rw [List.takeWhile_eq_self_iff.mpr hall] at hlength
      exact ⟨c, rest, hs, hstart, hlength, hall⟩

/-- Neither key nor bounds of a field use what the checks let through. -/
def Plain (raw : Object) : Prop :=
  (∀ key, raw.get? "key" = some (.str key) → ¬ ['\n'] <:+ key.toList) ∧
    ∀ minimum maximum : Number, raw.get? "min" = some minimum.json →
      raw.get? "max" = some maximum.json → minimum.value ≠ .nan ∧ maximum.value ≠ .nan

theorem json_injective {x y : Number} (h : x.json = y.json) : x = y := by
  cases x with
  | int n =>
      cases y with
      | int m => cases h; rfl
      | float q => cases h
  | float p =>
      cases y with
      | int m => cases h
      | float q => cases h; rfl

theorem Reads.wellFormed_iff {raw : Object} {spec : Spec} (h : Reads raw spec) :
    WellFormed spec ↔ Plain raw := by
  constructor
  · intro hwf
    constructor
    · intro key hkey
      obtain rfl : spec.key = key := by
        have heq := h.key.symm.trans hkey
        cases heq
        rfl
      exact (isKey_iff h.pattern).mp hwf.key
    · intro minimum maximum hmin hmax
      obtain ⟨a, ha, haj⟩ := Option.map_eq_some_iff.mp (h.min.symm.trans hmin)
      obtain ⟨b, hb, hbj⟩ := Option.map_eq_some_iff.mp (h.max.symm.trans hmax)
      obtain rfl := json_injective haj
      obtain rfl := json_injective hbj
      obtain ⟨hnan, hnan', -⟩ := PyFloat.le_iff_not_lt.mp (hwf.range _ _ ha hb)
      exact ⟨hnan, hnan'⟩
  · rintro ⟨hnewline, hnan⟩
    have hnormal : Normal spec := h.toNormal
    refine { hnormal with
      key := (isKey_iff h.pattern).mpr (hnewline _ h.key)
      range := fun minimum maximum hmin hmax => ?_ }
    obtain ⟨hmin', hmax'⟩ := hnan minimum maximum (by rw [h.min, hmin]; rfl)
      (by rw [h.max, hmax]; rfl)
    have hrange := h.range
    rw [hmin, hmax] at hrange
    exact PyFloat.le_iff_not_lt.mpr ⟨hmin', hmax', hrange⟩

/-! ## Accepted definitions -/

/-- An accepted definition is well formed if and only if no key of a submitted field ends with
a newline and no field is given NaN as one of two bounds. -/
theorem accepted_wellFormed_iff {v : Json} {specs : List Spec}
    (h : validateDefinition v = .ok (some specs)) :
    WellFormedForm specs ↔
      ∀ fields raw, v = .arr fields → Json.obj raw ∈ fields → Plain raw := by
  obtain ⟨haccepted, fields, rfl, hreads⟩ := validateDefinition_ok h
  constructor
  · intro hwf fields' raw hfields hraw
    cases hfields
    obtain ⟨spec, hspec, raw', hraw', hread⟩ := exists_partner hreads hraw
    cases hraw'
    exact hread.wellFormed_iff.mp (hwf.each spec hspec)
  · intro hplain
    refine ⟨haccepted.fields, haccepted.keys, fun spec hspec => ?_⟩
    obtain ⟨field, hfield, raw, rfl, hread⟩ := exists_partner hreads.flip hspec
    exact hread.wellFormed_iff.mpr (hplain fields raw rfl hfield)

/-- The form in the documentation of the module. -/
def shelterForm : List Object :=
  [[("key", .str "household_size"), ("label", .str "Household size"), ("type", .str "integer"),
      ("required", .bool true), ("min", .int 1), ("max", .int 50)],
    [("key", .str "shelter_type"), ("type", .str "select"),
      ("options", .arr [.str "tent", .str "community hall"])]]

def shelterSpecs : List Spec :=
  [{ key := "household_size", label := "Household size", type := .integer, required := true,
      min := some (.int 1), max := some (.int 50) },
    { key := "shelter_type", label := "shelter_type", type := .select, required := false,
      options := some ["tent", "community hall"] }]

/-- The JSON value of a form. -/
def formJson (fields : List Object) : Json := .arr (fields.map Json.obj)

theorem shelter_accepted : validateDefinition (formJson shelterForm) = .ok (some shelterSpecs) := by
  rfl

/-- The form in the documentation is accepted and well formed. -/
theorem accepted_wellFormed_shelter :
    validateDefinition (formJson shelterForm) = .ok (some shelterSpecs) ∧
      WellFormedForm shelterSpecs := by
  refine ⟨shelter_accepted, (accepted_wellFormed_iff shelter_accepted).mpr ?_⟩
  intro fields raw hfields hraw
  cases hfields
  obtain ⟨raw', hraw', heq⟩ := List.mem_map.mp hraw
  cases heq
  rcases List.mem_cons.mp hraw' with rfl | hraw'
  · constructor
    · intro key hkey
      cases hkey
      decide
    · intro minimum maximum hmin hmax
      obtain rfl : Number.int 1 = minimum := json_injective (Option.some.inj hmin)
      obtain rfl : Number.int 50 = maximum := json_injective (Option.some.inj hmax)
      exact ⟨by decide, by decide⟩
  · obtain rfl := List.mem_singleton.mp hraw'
    constructor
    · intro key hkey
      cases hkey
      decide
    · intro minimum maximum hmin
      cases hmin

/-- A text field whose key ends with a newline. -/
def newlineSpec : Spec :=
  { key := "abc\n", label := "Name", type := .text, required := false, maxLength := some 500 }

theorem newline_accepted : validateDefinition (formJson
    [[("key", .str "abc\n"), ("label", .str "Name"), ("type", .str "text")]]) =
      .ok (some [newlineSpec]) := by
  rfl

/-- The property that fails for such a key. -/
theorem newline_key_accepted : ¬ ∀ (v : Json) (specs : List Spec),
    validateDefinition v = .ok (some specs) → WellFormedForm specs := by
  intro hclaim
  have hwf := (hclaim _ _ newline_accepted).each newlineSpec (List.mem_singleton_self _)
  have hpattern : keyPattern newlineSpec.key = true := by decide
  exact (isKey_iff hpattern).mp hwf.key ⟨['a', 'b', 'c'], by decide⟩

end FormSchema
end Logistics
end Rcp
