/-
Whether a request can still be finished.

`_reachable_from` finds exactly the states that the transitions lead to.
`validate_definition` asks it about the initial state alone, so an accepted
definition can hold states that no terminal state follows: a next state without
transitions of its own, or a cycle that is left by no transition.
-/
import Rcp.Logistics.Search

namespace Rcp
namespace Logistics
namespace Workflow

/-! ## Traps -/

/-- A request can be moved from one status to the other. -/
def Leads (workflow : Option Object) : RequestStatus → RequestStatus → Prop :=
  Relation.ReflTransGen (Permits workflow)

/-- A request in this status can still be finished. -/
def Finishes (workflow : Option Object) (status : RequestStatus) : Prop :=
  ∃ final ∈ terminalStates, Leads workflow status final

/-- The next states of every status, as a dict that `_reachable_from` can search. -/
def graph (workflow : Option Object) : Dict RequestStatus (List RequestStatus) :=
  RequestStatus.all.map fun status =>
    (status, RequestStatus.all.filter fun next => Permits workflow status next)

/-- What `validate_definition` leaves open: every next state is terminal or has next states
of its own, and the search finds a terminal state from each status that has next states. -/
structure Continued (workflow : Option Object) : Prop where
  targets : ∀ source target, Permits workflow source target →
    target ∈ terminalStates ∨ ∃ next, Permits workflow target next
  sources : ∀ source next, Permits workflow source next →
    ∃ final ∈ reachableFrom source (graph workflow), final ∈ terminalStates

theorem edge_graph {workflow : Option Object} {source target : RequestStatus} :
    Edge (graph workflow) source target ↔ Permits workflow source target := by
  have hget : (graph workflow).get? source =
      some (RequestStatus.all.filter fun next => Permits workflow source next) := by
    cases source <;> rfl
  have hall : target ∈ RequestStatus.all := by
    cases target <;> decide
  rw [Edge, hget, Option.getD_some, List.mem_filter, decide_eq_true_iff]
  exact and_iff_right hall

theorem mem_reachableFrom_graph {workflow : Option Object} {source status : RequestStatus} :
    status ∈ reachableFrom source (graph workflow) ↔ Leads workflow source status := by
  have hedge : Edge (graph workflow) = Permits workflow := by
    funext source target
    exact propext edge_graph
  rw [mem_reachableFrom, hedge]
  rfl

theorem permits_normalForm {initial source target : RequestStatus}
    {transitions : Dict RequestStatus (List RequestStatus)} :
    Permits (some (normalForm initial transitions)) source target ↔
      Edge transitions source target := by
  unfold Permits
  rw [allowedNext_normalForm]
  exact List.mem_dedup

theorem leads_normalForm {initial source target : RequestStatus}
    {transitions : Dict RequestStatus (List RequestStatus)} :
    Leads (some (normalForm initial transitions)) source target ↔
      target ∈ reachableFrom source transitions := by
  have hedge : Permits (some (normalForm initial transitions)) = Edge transitions := by
    funext source target
    exact propext permits_normalForm
  rw [mem_reachableFrom, Leads, hedge]

theorem Edge.mem_keys {V : Type} [DecidableEq V] {transitions : Dict V (List V)}
    {source target : V} (h : Edge transitions source target) : source ∈ transitions.keys := by
  by_contra hnot
  rw [Edge, Dict.get?_eq_none hnot] at h
  cases h

/-- What acceptance says of the initial status: every status with next states comes after it,
and so does a terminal one. -/
structure Sound (workflow : Option Object) (initial : RequestStatus) : Prop where
  begins : initialStatus workflow = .ok initial
  sources : ∀ source next, Permits workflow source next → Leads workflow initial source
  finishes : Finishes workflow initial

theorem sound_default : Sound none defaultInitial where
  begins := rfl
  sources := by
    intro source next hnext
    apply mem_reachableFrom_graph.mp
    revert hnext
    cases source <;> cases next <;> decide
  finishes := by
    refine ⟨.rejected, by decide, mem_reachableFrom_graph.mp ?_⟩
    decide

theorem sound_normalForm {initial : RequestStatus}
    {transitions : Dict RequestStatus (List RequestStatus)}
    (hsources : ∀ source ∈ transitions.keys, source ∈ reachableFrom initial transitions)
    (hterminal : ∃ status ∈ reachableFrom initial transitions, status ∈ terminalStates) :
    Sound (some (normalForm initial transitions)) initial where
  begins := initialStatus_normalForm initial transitions
  sources := by
    intro source next hnext
    have hsource := (permits_normalForm.mp hnext).mem_keys
    exact leads_normalForm.mpr (hsources source hsource)
  finishes := by
    obtain ⟨status, hreach, hstatus⟩ := hterminal
    exact ⟨status, hstatus, leads_normalForm.mpr hreach⟩

theorem Accepted.sound {workflow : Option Object} (h : Accepted workflow) :
    ∃ initial, Sound workflow initial := by
  obtain ⟨submitted, h⟩ := h
  cases submitted with
  | null =>
      cases h
      exact ⟨_, sound_default⟩
  | obj fields =>
      obtain ⟨definition, hobject, hret⟩ := bind_ok.mp h
      cases hret
      obtain ⟨initial, transitions, rfl, -, -, hreach, hterminal⟩ := validateObject_ok hobject
      exact ⟨initial, sound_normalForm hreach hterminal⟩
  | bool | int | float | str | arr => cases h

/-- A status after the initial one is a next state, so it is terminal or continues. -/
theorem Sound.finishes_of_continued {workflow : Option Object} {initial status : RequestStatus}
    (h : Sound workflow initial) (hcontinued : Continued workflow)
    (hleads : Leads workflow initial status) : Finishes workflow status := by
  rcases Relation.ReflTransGen.cases_tail hleads with heq | ⟨source, -, hstep⟩
  · rw [heq]
    exact h.finishes
  · rcases hcontinued.targets source status hstep with hterminal | ⟨next, hnext⟩
    · exact ⟨status, hterminal, .refl⟩
    · obtain ⟨final, hreach, hfinal⟩ := hcontinued.sources status next hnext
      exact ⟨final, hfinal, mem_reachableFrom_graph.mp hreach⟩

theorem Sound.continued_of_finishes {workflow : Option Object} {initial : RequestStatus}
    (h : Sound workflow initial)
    (hall : ∀ status, Leads workflow initial status → Finishes workflow status) :
    Continued workflow where
  targets := by
    intro source target hstep
    have htarget : Leads workflow initial target := (h.sources source target hstep).tail hstep
    obtain ⟨final, hfinal, hleads⟩ := hall target htarget
    rcases Relation.ReflTransGen.cases_head hleads with heq | ⟨next, hnext, -⟩
    · left
      rw [heq]
      exact hfinal
    · exact .inr ⟨next, hnext⟩
  sources := by
    intro source next hstep
    obtain ⟨final, hfinal, hleads⟩ := hall source (h.sources source next hstep)
    exact ⟨final, mem_reachableFrom_graph.mpr hleads, hfinal⟩

/-- A request can be finished from the initial status of every accepted definition, and every
status with next states comes after that one.  It can be finished from every status it gets to
just when the definition is continued. -/
theorem accepted_finishes {submitted : Json} {workflow : Option Object}
    (h : validateDefinition submitted = .ok workflow) :
    ∃ initial, initialStatus workflow = .ok initial ∧ Finishes workflow initial ∧
      (∀ source next, Permits workflow source next → Leads workflow initial source) ∧
      ((∀ status, Leads workflow initial status → Finishes workflow status) ↔
        Continued workflow) := by
  obtain ⟨initial, hsound⟩ := Accepted.sound ⟨submitted, h⟩
  refine ⟨initial, hsound.begins, hsound.finishes, hsound.sources, ?_, ?_⟩
  · exact hsound.continued_of_finishes
  · intro hcontinued status
    exact hsound.finishes_of_continued hcontinued

theorem accepted_finishes_fastTrack :
    ∃ initial, initialStatus (some fastTrack) = .ok initial ∧
      Finishes (some fastTrack) initial :=
  have h : validateDefinition (.obj fastTrack) = .ok (some fastTrack) := rfl
  let ⟨initial, hbegins, hfinishes, _⟩ := accepted_finishes h
  ⟨initial, hbegins, hfinishes⟩

/-- `{"transitions": {"pending": ["approved", "rejected"]}}`. -/
def halfway : Object :=
  [("transitions", .obj [("pending", .arr [.str "approved", .str "rejected"])])]

/-- The definition is accepted, and an approved request stays approved for good. -/
theorem approved_is_a_trap :
    ∃ submitted workflow initial status, validateDefinition submitted = .ok workflow ∧
      initialStatus workflow = .ok initial ∧ Leads workflow initial status ∧
      ¬ Finishes workflow status := by
  refine ⟨.obj halfway, some (normalForm .pending [(.pending, [.approved, .rejected])]),
    .pending, .approved, rfl, rfl, ?_, ?_⟩
  · exact leads_normalForm.mpr (by decide)
  · rintro ⟨final, hfinal, hleads⟩
    have hreach := leads_normalForm.mp hleads
    revert hfinal hreach
    cases final <;> decide

end Workflow
end Logistics
end Rcp
