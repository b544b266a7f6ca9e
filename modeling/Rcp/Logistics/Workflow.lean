/-
The state machine of a resource category
(`services/logistics/app/services/workflow.py`).

A definition is the JSON value an admin submits.  `validateDefinition` accepts it
in a normal form, which is what the category stores, and `initialStatus` and
`allowedNext` read the stored form.
-/
import Mathlib.Algebra.GroupWithZero.Nat
import Mathlib.Data.List.Sort
import Rcp.Common.Python

namespace Rcp
namespace Logistics

inductive RequestStatus
  | pending
  | verified
  | approved
  | inProgress
  | fulfilled
  | rejected
  | cancelled
  deriving DecidableEq, Repr

namespace RequestStatus

def value : RequestStatus → String
  | pending => "pending"
  | verified => "verified"
  | approved => "approved"
  | inProgress => "in_progress"
  | fulfilled => "fulfilled"
  | rejected => "rejected"
  | cancelled => "cancelled"

def all : List RequestStatus :=
  [pending, verified, approved, inProgress, fulfilled, rejected, cancelled]

/-- `RequestStatus(value)` on a string. -/
def ofValue? (s : String) : Option RequestStatus :=
  all.find? fun status => status.value == s

theorem ofValue?_value (status : RequestStatus) : ofValue? status.value = some status := by
  cases status <;> decide

theorem value_injective : Function.Injective value := by
  intro a b h
  have hsome : some a = some b := by
    rw [← ofValue?_value a, h, ofValue?_value]
  exact Option.some.inj hsome

/-- `RequestStatus(value)`.  Only strings name a status. -/
def ofJson? : Json → Option RequestStatus
  | .str s => ofValue? s
  | _ => none

end RequestStatus

namespace Workflow

def defaultInitial : RequestStatus := .pending

def defaultTransitions : Dict RequestStatus (List RequestStatus) :=
  [(.pending, [.verified, .rejected, .cancelled]),
    (.verified, [.approved, .rejected, .cancelled]),
    (.approved, [.inProgress, .cancelled]),
    (.inProgress, [.fulfilled, .cancelled])]

def terminalStates : List RequestStatus := [.fulfilled, .rejected, .cancelled]

def definitionKeys : List String := ["initial", "transitions"]

/-- `WorkflowError`, one constructor for each place that raises it. -/
inductive Error
  | notAnObject
  | unsupportedKeys (keys : List String)
  | noTransitions
  | notAStatus (place : String) (value : Json)
  | terminalSource (source : RequestStatus)
  | noNextState (source : RequestStatus)
  | duplicateNextState (source : RequestStatus)
  | selfTransition (source : RequestStatus)
  | initialNotASource (initial : RequestStatus)
  | unreachableStates (states : List String)
  | noTerminalState

/-- The text of the exception, `str` being Python's `str` on a JSON value. -/
def Error.message (str : Json → String) : Error → String
  | notAnObject => "workflow must be an object"
  | unsupportedKeys keys => "workflow: unsupported keys " ++ pyReprList keys
  | noTransitions => "workflow.transitions must be a non-empty object"
  | notAStatus place value =>
      place ++ ": '" ++ str value ++ "' is not a request status (" ++
        pyReprList ((RequestStatus.all.map RequestStatus.value).insertionSort (· ≤ ·)) ++ ")"
  | terminalSource source =>
      "workflow: '" ++ source.value ++ "' is terminal and cannot have transitions"
  | noNextState source =>
      "workflow: '" ++ source.value ++ "' must list at least one next state"
  | duplicateNextState source =>
      "workflow: '" ++ source.value ++ "' lists a duplicate next state"
  | selfTransition source => "workflow: '" ++ source.value ++ "' cannot transition to itself"
  | initialNotASource initial =>
      "workflow.initial '" ++ initial.value ++ "' must be one of the transition sources"
  | unreachableStates states => "workflow: unreachable states " ++ pyReprList states
  | noTerminalState =>
      "workflow: no terminal state (fulfilled/rejected/cancelled) is reachable"

/-- `_state`. -/
def state (value : Json) (place : String) : Except Error RequestStatus :=
  match RequestStatus.ofJson? value with
  | some status => .ok status
  | none => .error (.notAStatus place value)

/-! ## Reachability -/

section Reachable

variable {V : Type} [DecidableEq V]

/-- The loop of `_reachable_from` over the targets of one state. -/
def visit : List V → List V → List V → List V × List V
  | [], seen, queue => (seen, queue)
  | target :: rest, seen, queue =>
      if target ∈ seen then visit rest seen queue
      else visit rest (target :: seen) (target :: queue)

/- The queue is a stack whose top is the head of the list.  A state is pushed only
when it is first seen, so one more pop than there are targets empties it. -/
def reachLoop (transitions : Dict V (List V)) : Nat → List V → List V → List V
  | 0, seen, _ => seen
  | _ + 1, seen, [] => seen
  | fuel + 1, seen, top :: queue =>
      let (seen, queue) := visit ((transitions.get? top).getD []) seen queue
      reachLoop transitions fuel seen queue

/-- `_reachable_from`. -/
def reachableFrom (initial : V) (transitions : Dict V (List V)) : List V :=
  reachLoop transitions (1 + (transitions.map fun entry => entry.2.length).sum) [initial]
    [initial]

end Reachable

/-! ## Definitions -/

/-- `[_state(target, place) for target in targets]`. -/
def states (place : String) : List Json → Except Error (List RequestStatus)
  | [] => .ok []
  | target :: rest => do
      let status ← state target place
      let others ← states place rest
      return status :: others

/-- The value must be a non-empty list. -/
def nextStates (source : RequestStatus) : Json → Except Error (List RequestStatus)
  | .arr (first :: others) =>
      states ("workflow.transitions." ++ source.value) (first :: others)
  | _ => .error (.noNextState source)

/-- The checks of one entry of `transitions`. -/
def parseEntry (key : String) (targets : Json) :
    Except Error (RequestStatus × List RequestStatus) := do
  let source ← state (.str key) "workflow.transitions"
  refuse (source ∈ terminalStates) (.terminalSource source)
  let parsed ← nextStates source targets
  refuse (¬ parsed.Nodup) (.duplicateNextState source)
  refuse (source ∈ parsed) (.selfTransition source)
  return (source, parsed)

/-- The loop of `validate_definition` over `transitions`. -/
def parseTransitions : Object → Dict RequestStatus (List RequestStatus) →
    Except Error (Dict RequestStatus (List RequestStatus))
  | [], transitions => .ok transitions
  | (key, targets) :: rest, transitions => do
      let (source, parsed) ← parseEntry key targets
      parseTransitions rest (transitions.set source parsed)

/-- `transitions` must be a non-empty object. -/
def rawTransitions (workflow : Object) : Except Error Object :=
  match workflow.get? "transitions" with
  | some (.obj (first :: others)) => .ok (first :: others)
  | _ => .error .noTransitions

/-- The normal form that `validate_definition` returns. -/
def normalForm (initial : RequestStatus) (transitions : Dict RequestStatus (List RequestStatus)) :
    Object :=
  [("initial", .str initial.value),
    ("transitions", .obj (transitions.map fun entry =>
      (entry.1.value, .arr (entry.2.map fun target => .str target.value))))]

def validateObject (workflow : Object) : Except Error Object := do
  let unknown := workflow.keys.filter fun key => key ∉ definitionKeys
  refuse (unknown ≠ []) (.unsupportedKeys (unknown.insertionSort (· ≤ ·)))
  let raw ← rawTransitions workflow
  let transitions ← parseTransitions raw []
  let initial ← state ((workflow.get? "initial").getD (.str defaultInitial.value))
    "workflow.initial"
  refuse (initial ∉ transitions.keys) (.initialNotASource initial)
  let reachable := reachableFrom initial transitions
  let unreachable := transitions.keys.filter fun source => source ∉ reachable
  refuse (unreachable ≠ []) (.unreachableStates
    ((unreachable.map RequestStatus.value).insertionSort (· ≤ ·)))
  refuse (∀ status ∈ reachable, status ∉ terminalStates) .noTerminalState
  return normalForm initial transitions

/-- `validate_definition`: `None`, or the normal form of the definition. -/
def validateDefinition : Json → Except Error (Option Object)
  | .null => .ok none
  | .obj workflow => do
      let definition ← validateObject workflow
      return some definition
  | _ => .error .notAnObject

/-! ## Reading a definition

A dict without the keys or with other values in their places raises. -/

inductive ReadError
  | valueError (value : Json)
  | attributeError
  | typeError
  deriving Inhabited

def statusOf (value : Json) : Except ReadError RequestStatus :=
  match RequestStatus.ofJson? value with
  | some status => .ok status
  | none => .error (.valueError value)

/-- Iteration over a JSON value. -/
def iterate : Json → Except ReadError (List Json)
  | .arr xs => .ok xs
  | .obj entries => .ok (entries.map fun entry => .str entry.1)
  | .str s => .ok (s.toList.map fun c => .str (String.ofList [c]))
  | _ => .error .typeError

def initialStatus : Option Object → Except ReadError RequestStatus
  | none => .ok defaultInitial
  | some [] => .ok defaultInitial
  | some workflow => statusOf ((workflow.get? "initial").getD (.str defaultInitial.value))

def statusesOf : List Json → Except ReadError (List RequestStatus)
  | [] => .ok []
  | value :: rest => do
      let status ← statusOf value
      let others ← statusesOf rest
      return status :: others

/-- The set of next states, in the order of the definition. -/
def allowedNext (workflow : Option Object) (current : RequestStatus) :
    Except ReadError (List RequestStatus) :=
  match workflow with
  | none => .ok ((defaultTransitions.get? current).getD [])
  | some [] => .ok ((defaultTransitions.get? current).getD [])
  | some workflow =>
      match (workflow.get? "transitions").getD (.obj []) with
      | .obj transitions => do
          let targets ← iterate ((Dict.get? transitions current.value).getD (.arr []))
          let statuses ← statusesOf targets
          return statuses.dedup
      | _ => .error .attributeError

/-! ## Accepted definitions -/

/-- A workflow a category can store: none, or a validated definition. -/
def Accepted (workflow : Option Object) : Prop :=
  ∃ submitted, validateDefinition submitted = .ok workflow

theorem accepted_none : Accepted none := ⟨.null, rfl⟩

theorem parseEntry_source {key : String} {targets : Json} {source : RequestStatus}
    {parsed : List RequestStatus} (h : parseEntry key targets = .ok (source, parsed)) :
    source ∉ terminalStates := by
  unfold parseEntry at h
  obtain ⟨found, -, h⟩ := bind_ok.mp h
  obtain ⟨_, hsource, h⟩ := bind_ok.mp h
  obtain ⟨next, -, h⟩ := bind_ok.mp h
  obtain ⟨_, -, h⟩ := bind_ok.mp h
  obtain ⟨_, -, h⟩ := bind_ok.mp h
  cases h
  exact refuse_ok.mp hsource

theorem parseTransitions_sources {raw : Object}
    {acc transitions : Dict RequestStatus (List RequestStatus)}
    (h : parseTransitions raw acc = .ok transitions)
    (hacc : ∀ source ∈ acc.keys, source ∉ terminalStates) :
    ∀ source ∈ transitions.keys, source ∉ terminalStates := by
  induction raw generalizing acc with
  | nil =>
      cases h
      exact hacc
  | cons entry rest ih =>
      obtain ⟨⟨source, parsed⟩, hentry, hrest⟩ := bind_ok.mp h
      refine ih hrest fun other hother => ?_
      rcases Dict.mem_keys_set hother with heq | hmem
      · rw [heq]
        exact parseEntry_source hentry
      · exact hacc other hmem

/-- What the checks of `validate_definition` leave. -/
theorem validateObject_ok {workflow definition : Object}
    (h : validateObject workflow = .ok definition) :
    ∃ initial transitions, definition = normalForm initial transitions ∧
      (∀ source ∈ transitions.keys, source ∉ terminalStates) ∧ initial ∈ transitions.keys ∧
      (∀ source ∈ transitions.keys, source ∈ reachableFrom initial transitions) ∧
      ∃ status ∈ reachableFrom initial transitions, status ∈ terminalStates := by
  unfold validateObject at h
  obtain ⟨_, -, h⟩ := bind_ok.mp h
  obtain ⟨raw, -, h⟩ := bind_ok.mp h
  obtain ⟨transitions, htransitions, h⟩ := bind_ok.mp h
  obtain ⟨initial, -, h⟩ := bind_ok.mp h
  obtain ⟨_, hinitial, h⟩ := bind_ok.mp h
  obtain ⟨_, hreachable, h⟩ := bind_ok.mp h
  obtain ⟨_, hterminal, h⟩ := bind_ok.mp h
  cases h
  have hsources : ∀ source ∈ transitions.keys, source ∉ terminalStates := by
    apply parseTransitions_sources htransitions
    intro source hsource
    cases hsource
  have hall := not_not.mp (refuse_ok.mp hreachable)
  refine ⟨initial, transitions, rfl, hsources, not_not.mp (refuse_ok.mp hinitial), ?_, ?_⟩
  · intro source hsource
    by_contra hnot
    exact List.filter_eq_nil_iff.mp hall source hsource (decide_eq_true hnot)
  · have hsome := refuse_ok.mp hterminal
    push Not at hsome
    exact hsome

/-- What a category stores. -/
theorem Accepted.cases {workflow : Option Object} (h : Accepted workflow) :
    workflow = none ∨ ∃ initial transitions, workflow = some (normalForm initial transitions) ∧
      ∀ source ∈ transitions.keys, source ∉ terminalStates := by
  obtain ⟨submitted, h⟩ := h
  cases submitted with
  | null =>
      cases h
      exact .inl rfl
  | obj fields =>
      obtain ⟨definition, hobject, hret⟩ := bind_ok.mp h
      cases hret
      obtain ⟨initial, transitions, hdefinition, hsources, -⟩ := validateObject_ok hobject
      exact .inr ⟨initial, transitions, congrArg some hdefinition, hsources⟩
  | bool | int | float | str | arr => cases h

theorem statusOf_value (status : RequestStatus) : statusOf (.str status.value) = .ok status := by
  cases status <;> rfl

theorem initialStatus_normalForm (initial : RequestStatus)
    (transitions : Dict RequestStatus (List RequestStatus)) :
    initialStatus (some (normalForm initial transitions)) = .ok initial :=
  statusOf_value initial

theorem statusesOf_values (statuses : List RequestStatus) :
    statusesOf (statuses.map fun status => .str status.value) = .ok statuses := by
  induction statuses with
  | nil => rfl
  | cons status rest ih =>
      show (statusOf (.str status.value) >>= fun _ => _) = _
      rw [statusOf_value]
      show (statusesOf _ >>= fun _ => _) = _
      rw [ih]
      rfl

theorem allowedNext_normalForm (initial : RequestStatus)
    (transitions : Dict RequestStatus (List RequestStatus)) (current : RequestStatus) :
    allowedNext (some (normalForm initial transitions)) current =
      .ok ((transitions.get? current).getD []).dedup := by
  have hget := Dict.get?_map RequestStatus.value_injective
    (fun targets : List RequestStatus => Json.arr (targets.map fun target => .str target.value))
    transitions current
  show (iterate ((Dict.get? (transitions.map fun entry =>
    (entry.1.value, Json.arr (entry.2.map fun target => .str target.value)))
      current.value).getD (.arr [])) >>= fun _ => _) = _
  rw [hget]
  cases transitions.get? current with
  | none => rfl
  | some targets =>
      show (statusesOf (targets.map fun target => .str target.value) >>= fun _ => _) = _
      rw [statusesOf_values]
      rfl

theorem Accepted.initialStatus_ok {workflow : Option Object} (h : Accepted workflow) :
    ∃ status, initialStatus workflow = .ok status := by
  rcases h.cases with rfl | ⟨initial, transitions, rfl, -⟩
  · exact ⟨_, rfl⟩
  · exact ⟨initial, initialStatus_normalForm initial transitions⟩

theorem Accepted.allowedNext_ok {workflow : Option Object} (h : Accepted workflow)
    (current : RequestStatus) : ∃ allowed, allowedNext workflow current = .ok allowed := by
  rcases h.cases with rfl | ⟨initial, transitions, rfl, -⟩
  · exact ⟨_, rfl⟩
  · exact ⟨_, allowedNext_normalForm initial transitions current⟩

/-- No accepted definition leaves a terminal state. -/
theorem Accepted.allowedNext_terminal {workflow : Option Object} (h : Accepted workflow)
    {current : RequestStatus} (hcurrent : current ∈ terminalStates) :
    allowedNext workflow current = .ok [] := by
  rcases h.cases with rfl | ⟨initial, transitions, rfl, hsources⟩
  · have hdefault : ∀ status ∈ terminalStates, allowedNext none status = .ok [] := by
      intro status hstatus
      simp only [terminalStates, List.mem_cons, List.not_mem_nil, or_false] at hstatus
      rcases hstatus with rfl | rfl | rfl <;> rfl
    exact hdefault current hcurrent
  · have hnone : transitions.get? current = none :=
      Dict.get?_eq_none fun hmem => hsources current hmem hcurrent
    rw [allowedNext_normalForm, hnone]
    rfl

/-- No accepted definition starts in a terminal state. -/
theorem Accepted.initialStatus_not_terminal {workflow : Option Object} (h : Accepted workflow)
    {status : RequestStatus} (hstatus : initialStatus workflow = .ok status) :
    status ∉ terminalStates := by
  obtain ⟨submitted, h⟩ := h
  cases submitted with
  | null =>
      cases h
      cases hstatus
      decide
  | obj fields =>
      obtain ⟨definition, hobject, hret⟩ := bind_ok.mp h
      cases hret
      obtain ⟨initial, transitions, rfl, hsources, hinitial, -⟩ := validateObject_ok hobject
      rw [initialStatus_normalForm] at hstatus
      cases hstatus
      exact hsources _ hinitial
  | bool | int | float | str | arr => cases h

/-! ## What a workflow says -/

/-- A request starts in this status. -/
def Begins (workflow : Option Object) (status : RequestStatus) : Prop :=
  match initialStatus workflow with
  | .ok initial => status = initial
  | .error _ => False

/-- A request may move from `old` to `new`. -/
def Permits (workflow : Option Object) (old new : RequestStatus) : Prop :=
  match allowedNext workflow old with
  | .ok allowed => new ∈ allowed
  | .error _ => False

instance (workflow : Option Object) (status : RequestStatus) :
    Decidable (Begins workflow status) := by
  unfold Begins
  split <;> infer_instance

instance (workflow : Option Object) (old new : RequestStatus) :
    Decidable (Permits workflow old new) := by
  unfold Permits
  split <;> infer_instance

theorem begins_of_initialStatus {workflow : Option Object} {status : RequestStatus}
    (h : initialStatus workflow = .ok status) : Begins workflow status := by
  simp [Begins, h]

theorem permits_of_allowedNext {workflow : Option Object} {old new : RequestStatus}
    {allowed : List RequestStatus} (h : allowedNext workflow old = .ok allowed)
    (hnew : new ∈ allowed) : Permits workflow old new := by
  simp [Permits, h, hnew]

/-- The food bank of the tests, which skips field verification. -/
def fastTrack : Object :=
  [("initial", .str "pending"),
    ("transitions", .obj [("pending", .arr [.str "approved", .str "rejected"]),
      ("approved", .arr [.str "fulfilled", .str "cancelled"])])]

theorem fastTrack_accepted : Accepted (some fastTrack) := ⟨.obj fastTrack, rfl⟩

end Workflow
end Logistics
end Rcp
