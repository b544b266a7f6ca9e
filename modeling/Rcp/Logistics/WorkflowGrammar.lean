/-
The definitions that `validate_definition` accepts, and what they mean.

`Grammar` says of a submitted object what it reads as: a table of next states and an initial
status.  The validator accepts an object exactly if it reads as one, the normal form that it
returns is the table written out again, and the functions that read a stored definition find
the table in it.
-/
import Rcp.Common.Values
import Rcp.Logistics.Traps

namespace Rcp
namespace Logistics
namespace Workflow

/-! ## The grammar -/

/-- A table of next states as a JSON object. -/
def written (transitions : Dict RequestStatus (List RequestStatus)) : Object :=
  transitions.map fun entry => (entry.1.value, .arr (entry.2.map fun target => .str target.value))

/-- The next states of a source: it is not terminal, there are some, each of them once, and it
is none of them. -/
structure Entry (source : RequestStatus) (targets : List RequestStatus) : Prop where
  continues : source ∉ terminalStates
  nonempty : targets ≠ []
  nodup : targets.Nodup
  proper : source ∉ targets

/-- The object reads as a table of next states and an initial status. -/
structure Grammar (workflow : Object) (initial : RequestStatus)
    (transitions : Dict RequestStatus (List RequestStatus)) : Prop where
  keys : ∀ key ∈ workflow.keys, key = "initial" ∨ key = "transitions"
  table : workflow.get? "transitions" = some (.obj (written transitions))
  nonempty : transitions ≠ []
  entries : ∀ entry ∈ transitions, Entry entry.1 entry.2
  begins : (workflow.get? "initial").getD (.str "pending") = .str initial.value
  source : initial ∈ transitions.keys
  reachable : ∀ source ∈ transitions.keys,
    Relation.ReflTransGen (Edge transitions) initial source
  finishes : ∃ final ∈ terminalStates, Relation.ReflTransGen (Edge transitions) initial final

/-- The value is an object that reads as a definition. -/
def InGrammar (w : Json) : Prop :=
  ∃ workflow initial transitions, w = .obj workflow ∧ Grammar workflow initial transitions

/-! ## Parsing -/

theorem ofValue?_eq_some {s : String} {status : RequestStatus} :
    RequestStatus.ofValue? s = some status ↔ s = status.value := by
  constructor
  · intro h
    have hbeq := List.find?_some h
    simpa using (beq_iff_eq.mp hbeq).symm
  · rintro rfl
    exact RequestStatus.ofValue?_value status

theorem state_ok {value : Json} {place : String} {status : RequestStatus} :
    state value place = .ok status ↔ value = .str status.value := by
  unfold state RequestStatus.ofJson?
  cases value with
  | str s =>
      dsimp only
      rw [Json.str.injEq, ← ofValue?_eq_some]
      cases RequestStatus.ofValue? s with
      | none => simp
      | some found => simp
  | null | bool | int | float | arr | obj => simp

theorem states_ok {place : String} {values : List Json} {statuses : List RequestStatus} :
    states place values = .ok statuses ↔
      values = statuses.map fun status => .str status.value := by
  induction values generalizing statuses with
  | nil =>
      cases statuses with
      | nil => simp [states]
      | cons status rest => simp [states]
  | cons value rest ih =>
      unfold states
      simp only [bind_ok, state_ok, ih]
      cases statuses with
      | nil => simp [pure, Except.pure]
      | cons status others => simp [pure, Except.pure]

theorem nextStates_ok {source : RequestStatus} {value : Json} {targets : List RequestStatus} :
    nextStates source value = .ok targets ↔
      targets ≠ [] ∧ value = .arr (targets.map fun target => .str target.value) := by
  unfold nextStates
  split
  · rename_i first others
    rw [states_ok, Json.arr.injEq]
    cases targets with
    | nil => simp
    | cons target rest => simp
  · rename_i hnot
    constructor
    · intro h
      cases h
    · rintro ⟨hne, rfl⟩
      cases targets with
      | nil => exact absurd rfl hne
      | cons target rest => exact absurd rfl (hnot _ _)

theorem parseEntry_ok {key : String} {value : Json} {source : RequestStatus}
    {targets : List RequestStatus} :
    parseEntry key value = .ok (source, targets) ↔
      key = source.value ∧ value = .arr (targets.map fun target => .str target.value) ∧
        Entry source targets := by
  unfold parseEntry
  simp only [bind_ok, state_ok, refuse_ok, nextStates_ok, Json.str.injEq, not_not]
  constructor
  · rintro ⟨found, rfl, _, hsource, parsed, ⟨hne, rfl⟩, _, hnodup, _, hproper, h⟩
    cases h
    exact ⟨rfl, rfl, hsource, hne, hnodup, hproper⟩
  · rintro ⟨rfl, rfl, hentry⟩
    exact ⟨source, rfl, (), hentry.continues, targets, ⟨hentry.nonempty, rfl⟩, (), hentry.nodup,
      (), hentry.proper, rfl⟩

/-- On an object with distinct keys the loop reads exactly the tables that are written so. -/
theorem parseTransitions_ok {raw : Object}
    {acc transitions : Dict RequestStatus (List RequestStatus)} (hkeys : raw.keys.Nodup)
    (hfresh : ∀ source ∈ acc.keys, RequestStatus.value source ∉ raw.keys) :
    parseTransitions raw acc = .ok transitions ↔
      ∃ parsed, transitions = acc ++ parsed ∧ raw = written parsed ∧
        ∀ entry ∈ parsed, Entry entry.1 entry.2 := by
  induction raw generalizing acc with
  | nil =>
      constructor
      · intro h
        cases h
        exact ⟨[], (List.append_nil _).symm, rfl, fun entry hentry => by cases hentry⟩
      · rintro ⟨parsed, rfl, hraw, -⟩
        have hnil : parsed = [] := List.map_eq_nil_iff.mp hraw.symm
        rw [hnil, List.append_nil]
        rfl
  | cons first rest ih =>
      obtain ⟨key, value⟩ := first
      have hkeys' : key ∉ Dict.keys rest ∧ (Dict.keys rest).Nodup := List.nodup_cons.mp hkeys
      -- A source that is parsed now is in no later entry.
      have hstep : ∀ source targets, key = RequestStatus.value source →
          source ∉ acc.keys ∧ ∀ other ∈ (acc ++ [(source, targets)]).keys,
            RequestStatus.value other ∉ Dict.keys rest := by
        intro source targets hkey
        constructor
        · intro hmem
          exact hfresh source hmem (hkey ▸ List.mem_cons_self)
        · intro other hother
          rw [Dict.keys, List.map_append, List.mem_append] at hother
          rcases hother with hother | hother
          · exact fun hmem => hfresh other hother (List.mem_cons_of_mem _ hmem)
          · rw [List.mem_singleton.mp hother]
            exact hkey ▸ hkeys'.1
      show (parseEntry key value >>= fun entry =>
        parseTransitions rest (acc.set entry.1 entry.2)) = .ok transitions ↔ _
      rw [bind_ok]
      constructor
      · rintro ⟨⟨source, targets⟩, hentry, hrest⟩
        obtain ⟨hkey, hvalue, hproper⟩ := parseEntry_ok.mp hentry
        obtain ⟨hnew, hfresh'⟩ := hstep source targets hkey
        rw [Dict.set_of_notMem targets hnew, ih hkeys'.2 hfresh'] at hrest
        obtain ⟨parsed, rfl, rfl, hparsed⟩ := hrest
        refine ⟨(source, targets) :: parsed, by simp, ?_, ?_⟩
        · rw [hkey, hvalue]
          rfl
        · intro entry hmem
          rcases List.mem_cons.mp hmem with rfl | hmem
          · exact hproper
          · exact hparsed entry hmem
      · rintro ⟨parsed, rfl, hraw, hparsed⟩
        cases parsed with
        | nil => cases hraw
        | cons entry others =>
            obtain ⟨source, targets⟩ := entry
            obtain ⟨hhead, hrest⟩ := List.cons.inj hraw
            obtain ⟨hkey, hvalue⟩ := Prod.mk.inj hhead
            obtain ⟨hnew, hfresh'⟩ := hstep source targets hkey
            have hproper : Entry source targets := hparsed _ List.mem_cons_self
            refine ⟨(source, targets), parseEntry_ok.mpr ⟨hkey, hvalue, hproper⟩, ?_⟩
            rw [Dict.set_of_notMem targets hnew, ih hkeys'.2 hfresh']
            refine ⟨others, by simp, hrest, fun entry hmem => ?_⟩
            exact hparsed entry (List.mem_cons_of_mem _ hmem)

theorem rawTransitions_ok {workflow raw : Object} :
    rawTransitions workflow = .ok raw ↔
      raw ≠ [] ∧ workflow.get? "transitions" = some (.obj raw) := by
  unfold rawTransitions
  split
  · rename_i first others hget
    rw [hget]
    constructor
    · intro h
      cases h
      simp
    · rintro ⟨-, h⟩
      cases h
      rfl
  · rename_i hnot
    constructor
    · intro h
      cases h
    · rintro ⟨hne, hget⟩
      cases raw with
      | nil => exact absurd rfl hne
      | cons first others => exact absurd hget (hnot first others)

theorem unknown_eq_nil_iff {workflow : Object} :
    workflow.keys.filter (fun key => key ∉ definitionKeys) = [] ↔
      ∀ key ∈ workflow.keys, key = "initial" ∨ key = "transitions" := by
  rw [List.filter_eq_nil_iff]
  simp only [definitionKeys, List.mem_cons, List.not_mem_nil, or_false, decide_eq_true_eq,
    not_not]

/-- The object is accepted exactly if it reads as a definition, which is then written out. -/
theorem validateObject_iff {workflow definition : Object} (hw : Json.Distinct (.obj workflow)) :
    validateObject workflow = .ok definition ↔ ∃ initial transitions,
      Grammar workflow initial transitions ∧ definition = normalForm initial transitions := by
  have hraw : ∀ raw : Object, workflow.get? "transitions" = some (.obj raw) → raw.keys.Nodup :=
    fun raw hget => (hw.2.get? hget).1
  have hno : ∀ raw : Object, ∀ source ∈ Dict.keys ([] : Dict RequestStatus (List RequestStatus)),
      RequestStatus.value source ∉ raw.keys := fun _ _ h => by cases h
  unfold validateObject
  simp only [bind_ok, refuse_ok, state_ok, not_not, rawTransitions_ok]
  constructor
  · rintro ⟨_, hkeys, raw, ⟨hne, hget⟩, transitions, hparse, initial, hinitial, _, hsource, _,
      hreachable, _, hfinishes, h⟩
    rw [parseTransitions_ok (hraw raw hget) (hno raw)] at hparse
    obtain ⟨parsed, htransitions, rfl, hentries⟩ := hparse
    obtain rfl : transitions = parsed := htransitions
    refine ⟨initial, transitions, ?_, (Except.ok.inj h).symm⟩
    push Not at hfinishes
    exact {
      keys := unknown_eq_nil_iff.mp hkeys
      table := hget
      nonempty := fun hnil => hne (by rw [hnil]; rfl)
      entries := hentries
      begins := hinitial
      source := hsource
      reachable := fun source hmem => by
        have hreach := List.filter_eq_nil_iff.mp hreachable source hmem
        exact mem_reachableFrom.mp (by simpa using hreach)
      finishes := by
        obtain ⟨final, hreach, hterminal⟩ := hfinishes
        exact ⟨final, hterminal, mem_reachableFrom.mp hreach⟩ }
  · rintro ⟨initial, transitions, h, rfl⟩
    have hparse : parseTransitions (written transitions) [] = .ok transitions :=
      (parseTransitions_ok (hraw _ h.table) (hno _)).mpr
        ⟨transitions, (List.nil_append _).symm, rfl, h.entries⟩
    have hne : written transitions ≠ [] := fun hnil => h.nonempty (List.map_eq_nil_iff.mp hnil)
    refine ⟨(), unknown_eq_nil_iff.mpr h.keys, written transitions, ⟨hne, h.table⟩, transitions,
      hparse, initial, h.begins, (), h.source, (), ?_, (), ?_, rfl⟩
    · rw [List.filter_eq_nil_iff]
      intro source hmem
      simpa using mem_reachableFrom.mpr (h.reachable source hmem)
    · push Not
      obtain ⟨final, hterminal, hreach⟩ := h.finishes
      exact ⟨final, mem_reachableFrom.mpr hreach, hterminal⟩

/-! ## Accepted definitions again -/

/-- A table whose keys are distinct is written as an object whose keys are. -/
theorem distinct_normalForm {initial : RequestStatus}
    {transitions : Dict RequestStatus (List RequestStatus)} (hkeys : transitions.keys.Nodup) :
    Json.Distinct (.obj (normalForm initial transitions)) := by
  have htexts : ∀ l : List RequestStatus,
      Json.DistinctItems (l.map fun target => .str target.value) := by
    intro l
    induction l with
    | nil => trivial
    | cons target rest ih => exact ⟨trivial, ih⟩
  have hvalues : Json.DistinctValues (written transitions) := by
    clear hkeys
    induction transitions with
    | nil => trivial
    | cons entry rest ih => exact ⟨htexts entry.2, ih⟩
  have hwritten : (written transitions).keys = transitions.keys.map RequestStatus.value := by
    simp [written, Dict.keys]
  have hnodup : (written transitions).keys.Nodup := by
    rw [hwritten]
    exact hkeys.map RequestStatus.value_injective
  have htop : (normalForm initial transitions).keys.Nodup := by
    show ["initial", "transitions"].Nodup
    decide
  exact ⟨htop, trivial, ⟨hnodup, hvalues⟩, trivial⟩

/-- The normal form of a definition reads as that definition. -/
theorem Grammar.normalForm {workflow : Object} {initial : RequestStatus}
    {transitions : Dict RequestStatus (List RequestStatus)}
    (h : Grammar workflow initial transitions) :
    Grammar (Workflow.normalForm initial transitions) initial transitions where
  keys := fun key hkey => by
    have hmem : key ∈ ["initial", "transitions"] := hkey
    simpa using hmem
  table := rfl
  nonempty := h.nonempty
  entries := h.entries
  begins := rfl
  source := h.source
  reachable := h.reachable
  finishes := h.finishes

/-- The keys of the table are those of the object. -/
theorem Grammar.nodup {workflow : Object} {initial : RequestStatus}
    {transitions : Dict RequestStatus (List RequestStatus)}
    (h : Grammar workflow initial transitions) (hw : Json.Distinct (.obj workflow)) :
    transitions.keys.Nodup := by
  have hraw : (written transitions).keys.Nodup := (hw.2.get? h.table).1
  have hwritten : (written transitions).keys = transitions.keys.map RequestStatus.value := by
    simp [written, Dict.keys]
  rw [hwritten] at hraw
  exact hraw.of_map _

theorem get?_getD_nodup {transitions : Dict RequestStatus (List RequestStatus)}
    (h : ∀ entry ∈ transitions, entry.2.Nodup) (status : RequestStatus) :
    ((transitions.get? status).getD []).Nodup := by
  induction transitions with
  | nil => exact List.nodup_nil
  | cons entry rest ih =>
      rw [Dict.get?]
      split
      · exact h entry List.mem_cons_self
      · exact ih fun other hother => h other (List.mem_cons_of_mem _ hother)

/-- An object reads as one definition only. -/
theorem Grammar.unique {workflow : Object} {initial initial' : RequestStatus}
    {transitions transitions' : Dict RequestStatus (List RequestStatus)}
    (h : Grammar workflow initial transitions) (h' : Grammar workflow initial' transitions') :
    initial = initial' ∧ transitions = transitions' := by
  have hvalue : Function.Injective fun target : RequestStatus => Json.str target.value :=
    fun a b hab => RequestStatus.value_injective (Json.str.inj hab)
  have hentry : Function.Injective fun entry : RequestStatus × List RequestStatus =>
      (entry.1.value, Json.arr (entry.2.map fun target => .str target.value)) := by
    rintro ⟨a, l⟩ ⟨b, m⟩ hab
    obtain ⟨hsource, htargets⟩ := Prod.mk.inj hab
    have ha : a = b := RequestStatus.value_injective hsource
    have hl : l = m := List.map_injective_iff.mpr hvalue (Json.arr.inj htargets)
    rw [ha, hl]
  constructor
  · exact RequestStatus.value_injective (Json.str.inj (h.begins.symm.trans h'.begins))
  · have htable := Json.obj.inj (Option.some.inj (h.table.symm.trans h'.table))
    exact List.map_injective_iff.mpr hentry htable

/-- The validator accepts exactly the grammar.  What it returns begins and continues as the
submitted definition says, and is returned again. -/
theorem workflow_validated {w : Json} (hw : w.Distinct) (hnull : w ≠ .null) :
    ((∃ definition, validateDefinition w = .ok (some definition)) ↔ InGrammar w) ∧
      (¬ InGrammar w → ∃ e : Error, validateDefinition w = .error e) ∧
      ∀ definition, validateDefinition w = .ok (some definition) →
        ∀ workflow initial transitions, w = .obj workflow →
          Grammar workflow initial transitions →
            initialStatus (some definition) = .ok initial ∧
            (∀ status, allowedNext (some definition) status =
              .ok ((transitions.get? status).getD [])) ∧
            validateDefinition (.obj definition) = .ok (some definition) := by
  have hobject : ∀ workflow definition, validateDefinition (.obj workflow) =
      .ok (some definition) ↔ validateObject workflow = .ok definition := by
    intro workflow definition
    show (validateObject workflow >>= fun d => pure (some d)) = _ ↔ _
    rw [bind_ok]
    constructor
    · rintro ⟨d, hd, h⟩
      cases h
      exact hd
    · intro h
      exact ⟨definition, h, rfl⟩
  have hiff : (∃ definition, validateDefinition w = .ok (some definition)) ↔ InGrammar w := by
    constructor
    · rintro ⟨definition, h⟩
      cases w with
      | obj workflow =>
          obtain ⟨initial, transitions, hgrammar, -⟩ :=
            (validateObject_iff hw).mp ((hobject _ _).mp h)
          exact ⟨workflow, initial, transitions, rfl, hgrammar⟩
      | null | bool | int | float | str | arr => cases h
    · rintro ⟨workflow, initial, transitions, rfl, hgrammar⟩
      exact ⟨_, (hobject _ _).mpr
        ((validateObject_iff hw).mpr ⟨initial, transitions, hgrammar, rfl⟩)⟩
  refine ⟨hiff, fun hnot => ?_, ?_⟩
  · cases hv : validateDefinition w with
    | error e => exact ⟨e, rfl⟩
    | ok found =>
        cases found with
        | some definition => exact absurd (hiff.mp ⟨definition, hv⟩) hnot
        | none =>
            cases w with
            | null => exact absurd rfl hnull
            | obj workflow =>
                obtain ⟨definition, -, h⟩ := bind_ok.mp hv
                cases h
            | bool | int | float | str | arr => cases hv
  · rintro definition h workflow initial transitions rfl hgrammar
    obtain ⟨initial', transitions', hgrammar', rfl⟩ :=
      (validateObject_iff hw).mp ((hobject _ _).mp h)
    obtain ⟨rfl, rfl⟩ := hgrammar.unique hgrammar'
    refine ⟨initialStatus_normalForm _ _, fun status => ?_, ?_⟩
    · rw [allowedNext_normalForm]
      have hnodup := get?_getD_nodup (fun entry hentry => (hgrammar.entries entry hentry).nodup)
        status
      rw [hnodup.dedup]
    · have hagain := @distinct_normalForm initial _ (hgrammar.nodup hw)
      exact (hobject _ _).mpr ((validateObject_iff hagain).mpr ⟨_, _, hgrammar.normalForm, rfl⟩)

/-- A definition that leaves out its initial status. -/
def briefly : Object := [("transitions", .obj [("pending", .arr [.str "fulfilled"])])]

theorem workflow_validated_briefly :
    initialStatus (some [("initial", .str "pending"),
        ("transitions", .obj [("pending", .arr [.str "fulfilled"])])]) = .ok .pending ∧
      validateDefinition (.obj briefly) = .ok (some [("initial", .str "pending"),
        ("transitions", .obj [("pending", .arr [.str "fulfilled"])])]) := by
  have hdistinct : Json.Distinct (.obj briefly) :=
    ⟨by decide, ⟨⟨by decide, ⟨trivial, trivial⟩, trivial⟩, trivial⟩⟩
  have haccepted : validateDefinition (.obj briefly) = .ok (some [("initial", .str "pending"),
      ("transitions", .obj [("pending", .arr [.str "fulfilled"])])]) := rfl
  obtain ⟨hiff, -, hmeaning⟩ := workflow_validated hdistinct (by intro h; cases h)
  obtain ⟨workflow, initial, transitions, hw, hgrammar⟩ := hiff.mp ⟨_, haccepted⟩
  have hinitial : initial = .pending := by
    obtain rfl := Json.obj.inj hw
    have hbegins : Json.str (RequestStatus.value .pending) = .str initial.value := hgrammar.begins
    exact (RequestStatus.value_injective (Json.str.inj hbegins)).symm
  rw [hinitial] at hgrammar
  exact ⟨(hmeaning _ haccepted workflow _ transitions hw hgrammar).1, haccepted⟩

end Workflow
end Logistics
end Rcp
