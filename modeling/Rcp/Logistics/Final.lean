/-
What stays of a request while admins redefine its category.

Whatever definition a category holds was accepted, so it leads nowhere from a terminal
state and starts in none.  `assign_task` asks for `approved` or `in_progress` itself.
So a terminal status is final under every sequence of definitions.
-/
import Rcp.Logistics.Categories
import Rcp.Logistics.Sequential

namespace Rcp
namespace Logistics

open Sql Sql.Table

/-- `fulfilled_at` is set just when the request is fulfilled. -/
def Dated (request : HelpRequest) : Prop :=
  request.fulfilledAt.isSome ↔ request.status = .fulfilled

/-- What the later row of a request has kept of the earlier one. -/
structure Lasting (request later : HelpRequest) : Prop where
  status : request.status ∈ Workflow.terminalStates → later.status = request.status
  extraFields : later.extraFields = request.extraFields

theorem Lasting.refl (request : HelpRequest) : Lasting request request :=
  ⟨fun _ => rfl, rfl⟩

theorem Lasting.trans {request later last : HelpRequest} (h : Lasting request later)
    (h' : Lasting later last) : Lasting request last where
  status := by
    intro hterminal
    have hlater := h.status hterminal
    rw [← hlater] at hterminal
    rw [h'.status hterminal, hlater]
  extraFields := h'.extraFields.trans h.extraFields

/-- What a step keeps of every request, and how a new one starts. -/
structure Carries (w w' : Rows) : Prop where
  kept : ∀ r request, w.requests r = some request →
    ∃ later, w'.requests r = some later ∧ Lasting request later ∧ (Dated request → Dated later)
  fresh : ∀ r request, w.requests r = none → w'.requests r = some request → Dated request

section Steps

variable {w w' W : Rows}

theorem Carries.of_eq (h : w'.requests = w.requests) : Carries w w' where
  kept := by
    intro r request hr
    rw [h]
    exact ⟨request, hr, Lasting.refl request, id⟩
  fresh := by
    intro r request hnone hr
    rw [h, hnone] at hr
    cases hr

theorem over_requests_single {I : Nat → Option InventoryItem} {O : Nat → Option (Outbox Message)}
    {k : Nat} {new : HelpRequest} (r : Nat) :
    ((Rows.writing I (single k new) O).overlay w).requests r =
      if r = k then some new else w.requests r := by
  show (single k new r).or (w.requests r) = _
  by_cases hr : r = k
  · rw [if_pos hr, hr, single_self]
    rfl
  · rw [if_neg hr, single_of_ne new hr]
    rfl

/-- A commit that writes one request row. -/
theorem Carries.single {I : Nat → Option InventoryItem} {O : Nat → Option (Outbox Message)}
    {k : Nat} {new : HelpRequest}
    (hkept : ∀ request, w.requests k = some request →
      Lasting request new ∧ (Dated request → Dated new))
    (hfresh : w.requests k = none → Dated new) :
    Carries w ((Rows.writing I (single k new) O).overlay w) where
  kept := by
    intro r request hr
    rw [over_requests_single]
    by_cases hk : r = k
    · rw [if_pos hk]
      rw [hk] at hr
      exact ⟨new, rfl, hkept request hr⟩
    · rw [if_neg hk]
      exact ⟨request, hr, Lasting.refl request, id⟩
  fresh := by
    intro r request hnone hr
    rw [over_requests_single] at hr
    by_cases hk : r = k
    · rw [if_pos hk] at hr
      cases hr
      rw [hk] at hnone
      exact hfresh hnone
    · rw [if_neg hk, hnone] at hr
      cases hr

theorem applyStatus_extraFields (newStatus : RequestStatus) (principal : Principal) (now : Time)
    (request : HelpRequest) :
    (applyStatus newStatus principal now request).extraFields = request.extraFields := by
  cases newStatus <;> rfl

theorem dated_applyStatus {newStatus : RequestStatus} {principal : Principal} {now : Time}
    {request : HelpRequest} (hold : request.status ≠ .fulfilled) (h : Dated request) :
    Dated (applyStatus newStatus principal now request) := by
  have hnone : request.fulfilledAt.isSome = false := by
    rw [Bool.eq_false_iff]
    exact fun hsome => hold (h.mp hsome)
  unfold Dated
  cases newStatus <;> simp [applyStatus, hnone]

theorem Effect.carries {a : Call} {l : List (Outbox Message)} (h : Effect a w W l) :
    Carries w (W.overlay w) := by
  cases h with
  | submitted hcategory htenant hstatus hfits hrequest hr ho hrow =>
      rename_i category status extraFields r o request row
      have hfree : w.requests r = none := hr.fresh
      apply Carries.single
      · intro old hold
        rw [hfree] at hold
        cases hold
      · intro _
        have hopen := category.accepted.initialStatus_not_terminal hstatus
        have hne : status ≠ .fulfilled := by
          rintro rfl
          exact hopen (by decide)
        subst hrequest
        simp [Dated, newRequest, hne]
  | moved hallowed hnew hr ho hrow =>
      rename_i r o request newStatus principal now allowed row
      -- Nothing is allowed next in a terminal state.
      have hopen : request.status ∉ Workflow.terminalStates := by
        intro hterminal
        rw [(w.workflowOf_accepted request).allowedNext_terminal hterminal] at hallowed
        cases hallowed
        cases hnew
      have hne : request.status ≠ .fulfilled := fun heq => hopen (by rw [heq]; decide)
      apply Carries.single
      · intro old hold
        rw [hr] at hold
        cases hold
        refine ⟨⟨fun hterminal => absurd hterminal hopen, ?_⟩, dated_applyStatus hne⟩
        exact applyStatus_extraFields newStatus principal now request
      · intro hnone
        rw [hr] at hnone
        cases hnone
  | started hr htenant hvolunteer happroved ho hrow =>
      apply Carries.single
      · intro old hold
        rw [hr] at hold
        cases hold
        refine ⟨⟨fun hterminal => ?_, rfl⟩, fun hdated => ?_⟩
        · rw [happroved] at hterminal
          exact absurd hterminal (by decide)
        · unfold Dated at hdated ⊢
          rw [happroved] at hdated
          simpa using hdated
      · intro hnone
        rw [hr] at hnone
        cases hnone
  | joined => exact .of_eq rfl
  | added => exact .of_eq rfl
  | stocked => exact .of_eq rfl

theorem Operation.Result.carries {a : Operation} (h : a.Result w w') : Carries w w' := by
  cases a with
  | category a =>
      rcases h with rfl | ⟨W, x, he, rfl⟩
      · exact .of_eq rfl
      · cases he with
        | created => exact .of_eq rfl
        | saved => exact .of_eq rfl
  | call a =>
      rcases h with ⟨rfl, -⟩ | ⟨W, l, he, rfl⟩
      · exact .of_eq rfl
      · exact he.carries

end Steps

/-! ## The value validated at creation -/

section Forms

variable (validatePayload : Option (List Json) → Option Object →
  Except FormErrors (Option Object))

/-- A row that is new in `w'` holds what the form check of its category has returned. -/
def Checked (a : Operation) (w w' : Rows) : Prop :=
  ∀ r request, w.requests r = none → w'.requests r = some request →
    ∃ principal data now category, a = .call (.createRequest principal data now) ∧
      w.categories data.categoryId = some category ∧
      validatePayload category.formSchema data.extraFields = .ok request.extraFields

variable {validatePayload} {t : Sid} {w w' : Rows} {s : Db}

theorem Checked.of_eq {a : Operation} (h : w'.requests = w.requests) :
    Checked validatePayload a w w' := by
  intro r request hnone hr
  rw [h, hnone] at hr
  cases hr

variable (validatePayload) in
theorem solo_createRequest_checked (principal : Principal) (data : HelpRequestCreate)
    (now : Time) (h : Solo schema t .nothing w s) :
    Meets t (fun _ s' => ∃ W w', Solo schema t W w' s' ∧
        Checked validatePayload (.call (.createRequest principal data now)) w w')
      (createRequest validatePayload principal data now) s := by
  have hsame : ∃ W w', Solo schema t W w' s ∧
      Checked validatePayload (.call (.createRequest principal data now)) w w' :=
    ⟨_, w, h, .of_eq rfl⟩
  unfold createRequest
  refine solo_getCategory h (fun _ => hsame) fun category hcategory _ => ?_
  split
  · exact meets_raise hsame
  · split
    · exact meets_raise hsame
    · rename_i extraFields hvalid
      split
      · exact meets_raise hsame
      · split
        · exact meets_raise hsame
        · refine h.insert Column.requests (.free fun _ => trivial) fun r _ _ s₁ h₁ => ?_
          refine h₁.insert Column.outbox (.free fun _ => trivial) fun o _ _ s₂ h₂ => ?_
          refine h₂.commit fun s₃ h₃ => ?_
          have hchecked : ∃ W w', Solo schema t W w' s₃ ∧
              Checked validatePayload (.call (.createRequest principal data now)) w w' := by
            refine ⟨_, _, h₃, fun r' request hnone hr' => ?_⟩
            replace hr' := (over_requests_single r').symm.trans hr'
            by_cases heq : r' = r
            · rw [if_pos heq] at hr'
              cases hr'
              exact ⟨principal, data, now, category, rfl, hcategory, hvalid⟩
            · rw [if_neg heq, hnone] at hr'
              cases hr'
          refine meets_bind (h₃.query ?_)
          split
          · exact meets_raise hchecked
          · exact meets_ret (meets_ret hchecked)

/-- No operation but `create_request` adds a row. -/
theorem Operation.Result.checked {a : Operation} (h : a.Result w w')
    (ha : ∀ principal data now, a ≠ .call (.createRequest principal data now)) :
    Checked validatePayload a w w' := by
  have hkept : ∀ {I O k} {new old : HelpRequest}, w.requests k = some old →
      Checked validatePayload a w ((Rows.writing I (single k new) O).overlay w) := by
    intro I O k new old hk r request hnone hr
    rw [over_requests_single] at hr
    by_cases heq : r = k
    · rw [heq, hk] at hnone
      cases hnone
    · rw [if_neg heq, hnone] at hr
      cases hr
  cases a with
  | category a =>
      rcases h with rfl | ⟨W, x, he, rfl⟩
      · exact .of_eq rfl
      · cases he with
        | created => exact .of_eq rfl
        | saved => exact .of_eq rfl
  | call a =>
      rcases h with ⟨rfl, -⟩ | ⟨W, l, he, rfl⟩
      · exact .of_eq rfl
      · cases he with
        | submitted => exact absurd rfl (ha _ _ _)
        | moved hallowed hnew hr ho hrow => exact hkept hr
        | started hr htenant hvolunteer happroved ho hrow => exact hkept hr
        | joined => exact .of_eq rfl
        | added => exact .of_eq rfl
        | stocked => exact .of_eq rfl

variable (validatePayload) in
theorem operations_checked : Leads schema (Operation.body validatePayload)
    fun a w w' => a.Result w w' ∧ Checked validatePayload a w w' := by
  intro a t w s hs
  have hleads := operations_lead validatePayload a t w s hs
  by_cases ha : ∃ principal data now, a = .call (.createRequest principal data now)
  · obtain ⟨principal, data, now, rfl⟩ := ha
    have hchecked : Meets t (fun _ s' => ∃ W w', Solo schema t W w' s' ∧
        Checked validatePayload (.call (.createRequest principal data now)) w w')
        (Operation.body validatePayload (.call (.createRequest principal data now))) s := by
      obtain ⟨r, s', hx, hr⟩ := solo_createRequest_checked validatePayload principal data now
        (hs.solo t)
      refine meets_bind ⟨r, s', hx, ?_⟩
      cases r with
      | ok reply => exact meets_ret hr
      | error e => exact hr
    obtain ⟨r, s', hx, ⟨W, w', hsolo, hresult⟩, W', w'', hsolo', hform⟩ := hleads.and hchecked
    have hrows : w'' = w' := hsolo'.rows.symm.trans hsolo.rows
    rw [hrows] at hform
    exact ⟨r, s', hx, W, w', hsolo, hresult, hform⟩
  · obtain ⟨r, s', hx, W, w', hsolo, hresult⟩ := hleads
    refine ⟨r, s', hx, W, w', hsolo, hresult, hresult.checked ?_⟩
    intro principal data now heq
    exact ha ⟨principal, data, now, heq⟩

end Forms

/-! ## Runs -/

section Runs

variable (validatePayload : Option (List Json) → Option Object →
  Except FormErrors (Option Object))

/-- The extra fields of the row are what the form check returned for a `create_request` of
the sequence, on the category as it was when that call was made. -/
def ValidatedAt (s₀ : Db) (l : List Operation) (request : HelpRequest) : Prop :=
  ∃ before principal data now after s category,
    l = before ++ .call (.createRequest principal data now) :: after ∧
    calls (Operation.body validatePayload) before 0 s₀ = some s ∧
    s.categories.committed data.categoryId = some category ∧
    validatePayload category.formSchema data.extraFields = .ok request.extraFields

/-- What holds of every request after the operations `l`. -/
structure Filed (s₀ : Db) (l : List Operation) (s : Db) : Prop where
  dated : ∀ r request, s.requests.committed r = some request → Dated request
  validated : ∀ r request, s.requests.committed r = some request →
    ValidatedAt validatePayload s₀ l request

variable {validatePayload} {s₀ s s' : Db} {l : List Operation} {w w' : Rows}

theorem ValidatedAt.snoc {request later : HelpRequest} {a : Operation}
    (h : ValidatedAt validatePayload s₀ l request)
    (hsame : later.extraFields = request.extraFields) :
    ValidatedAt validatePayload s₀ (l ++ [a]) later := by
  obtain ⟨before, principal, data, now, after, s, category, rfl, hcalls, hcategory, hvalid⟩ := h
  refine ⟨before, principal, data, now, after ++ [a], s, category, ?_, hcalls, hcategory, ?_⟩
  · simp
  · rw [hsame]
    exact hvalid

theorem Filed.snoc {a : Operation} (h : Filed validatePayload s₀ l s)
    (hcalls : calls (Operation.body validatePayload) l 0 s₀ = some s)
    (hrows : s.rows = w) (hrows' : s'.rows = w') (hcarries : Carries w w')
    (hchecked : Checked validatePayload a w w') :
    Filed validatePayload s₀ (l ++ [a]) s' := by
  subst hrows hrows'
  -- The row was there before, or the last operation has added it.
  have hcases : ∀ r request, s'.requests.committed r = some request →
      (∃ old, s.requests.committed r = some old ∧ Lasting old request ∧
        (Dated old → Dated request)) ∨
      (Dated request ∧ ValidatedAt validatePayload s₀ (l ++ [a]) request) := by
    intro r request hr
    cases hold : s.requests.committed r with
    | some old =>
        obtain ⟨later, hlater, hkept⟩ := hcarries.kept r old hold
        rw [show s'.rows.requests r = s'.requests.committed r from rfl, hr] at hlater
        cases hlater
        exact .inl ⟨old, rfl, hkept⟩
    | none =>
        obtain ⟨principal, data, now, category, rfl, hcategory, hvalid⟩ :=
          hchecked r request hold hr
        exact .inr ⟨hcarries.fresh r request hold hr, l, principal, data, now, [], s, category,
          rfl, hcalls, hcategory, hvalid⟩
  constructor
  · intro r request hr
    rcases hcases r request hr with ⟨old, hold, -, hdated⟩ | ⟨hdated, -⟩
    · exact hdated (h.dated r old hold)
    · exact hdated
  · intro r request hr
    rcases hcases r request hr with ⟨old, hold, hlasting, -⟩ | ⟨-, hvalid⟩
    · exact (h.validated r old hold).snoc hlasting.extraFields
    · exact hvalid

variable (validatePayload) in
theorem calls_filed (h₀ : Rested schema w s₀) (hempty : s₀.requests.committed = noRows)
    (l : List Operation) :
    ∃ w s, calls (Operation.body validatePayload) l 0 s₀ = some s ∧ Rested schema w s ∧
      Filed validatePayload s₀ l s := by
  induction l using List.reverseRecOn with
  | nil =>
      refine ⟨w, s₀, rfl, h₀, ?_, ?_⟩
      · intro r request hr
        rw [hempty] at hr
        cases hr
      · intro r request hr
        rw [hempty] at hr
        cases hr
  | append_singleton l a ih =>
      obtain ⟨w₁, s₁, hcalls, hs₁, hfiled⟩ := ih
      obtain ⟨w₂, s₂, hlast, hs₂, hresult, hchecked⟩ :=
        (operations_checked validatePayload).once hs₁ a (0 + l.length)
      refine ⟨w₂, s₂, ?_, hs₂, ?_⟩
      · rw [calls_append, hcalls]
        exact hlast
      · exact hfiled.snoc hcalls hs₁.rows hs₂.rows hresult.carries hchecked

variable (validatePayload) in
/-- The rows of the requests under any further operations. -/
theorem calls_carry (h : Rested schema w s) (l : List Operation) (t : Sid) :
    ∃ s', calls (Operation.body validatePayload) l t s = some s' ∧
      ∀ r request, s.requests.committed r = some request →
        ∃ later, s'.requests.committed r = some later ∧ Lasting request later := by
  induction l generalizing w s t with
  | nil => exact ⟨s, rfl, fun r request hr => ⟨request, hr, Lasting.refl request⟩⟩
  | cons a rest ih =>
      obtain ⟨w₁, s₁, hfirst, hs₁, hresult⟩ := (operations_lead validatePayload).once h a t
      obtain ⟨s', hrest, hkept⟩ := ih hs₁ (t + [a].length)
      refine ⟨s', ?_, fun r request hr => ?_⟩
      · rw [← List.singleton_append, calls_append, hfirst]
        exact hrest
      · have hw : w.requests r = some request := by
          rw [← h.rows]
          exact hr
        obtain ⟨later, hlater, hlasting, -⟩ := hresult.carries.kept r request hw
        rw [← hs₁.rows] at hlater
        obtain ⟨last, hlast, hlasting'⟩ := hkept r later hlater
        exact ⟨last, hlast, hlasting.trans hlasting'⟩

end Runs

/-- After any operations `l`, made one after the other, `fulfilled_at` of every request is set
just when it is fulfilled and its extra fields are those validated when it was created.  After
any further operations `l'` a status that was terminal is still the same, and so are the
extra fields. -/
theorem terminal_is_final (validatePayload : Option (List Json) → Option Object →
      Except FormErrors (Option Object)) (categories : List ResourceCategory)
    (replicas : List UserReplica) (l l' : List Operation) :
    ∃ s s', calls (Operation.body validatePayload) l 0 (Db.initial categories replicas) = some s ∧
      calls (Operation.body validatePayload) l' (0 + l.length) s = some s' ∧
      ∀ r request, s.requests.committed r = some request →
        (request.fulfilledAt.isSome ↔ request.status = .fulfilled) ∧
        ValidatedAt validatePayload (Db.initial categories replicas) l request ∧
        ∃ later, s'.requests.committed r = some later ∧
          (request.status ∈ Workflow.terminalStates → later.status = request.status) ∧
          later.extraFields = request.extraFields := by
  obtain ⟨w, s, hcalls, hs, hfiled⟩ :=
    calls_filed validatePayload (initial_rested categories replicas) rfl l
  obtain ⟨s', hcalls', hkept⟩ := calls_carry validatePayload hs l' (0 + l.length)
  refine ⟨s, s', hcalls, hcalls', fun r request hr => ?_⟩
  obtain ⟨later, hlater, hlasting⟩ := hkept r request hr
  exact ⟨hfiled.dated r request hr, hfiled.validated r request hr, later, hlater,
    hlasting.status, hlasting.extraFields⟩

end Logistics
end Rcp
