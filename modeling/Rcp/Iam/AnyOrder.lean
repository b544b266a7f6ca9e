/-
Whether a user is active, under deliveries in any order.

The state that an event carries wins if its stamp is the newest.  A deactivation carries
no stamp and is applied whenever it comes.  So a user that was enabled again is shown as
inactive if an old deactivation comes after the last state.
-/
import Mathlib.Order.WithBot
import Rcp.Delivery.LastWriter
import Rcp.Iam.Follow

namespace Rcp
namespace Iam

open Sql Sql.Table Delivery

/-- The event carries the state of user `k`. -/
def tellsState (k : Uuid) (e : Envelope Message) : Prop := (e.data.userData? k).isSome = true

instance (k : Uuid) : DecidablePred (tellsState k) :=
  fun _ => inferInstanceAs (Decidable (_ = true))

/-- The stamp of the state that an event carries. -/
def stateStamp (k : Uuid) (e : Envelope Message) : WithBot Time :=
  match e.data.userData? k with
  | some data => (data.updatedAt : WithBot Time)
  | none => ⊥

/-- All deactivations of user `k` come before event `e`, first deliveries compared. -/
def DeactivatedBefore (k : Uuid) (d : List (Envelope Message)) (e : Envelope Message) : Prop :=
  ∀ x ∈ d, x.data.deactivates k = true → d.idxOf x < d.idxOf e

instance (k : Uuid) (d : List (Envelope Message)) (e : Envelope Message) :
    Decidable (DeactivatedBefore k d e) :=
  inferInstanceAs (Decidable (∀ x ∈ d, x.data.deactivates k = true → d.idxOf x < d.idxOf e))

/-- What is kept of user `k` after the deliveries `d` of events in `A`. -/
structure Kept {R : Type} (k : Uuid) (A : Envelope Message → Prop) (row : R → Option Identity)
    (d : List (Envelope Message)) (p : Inbox R) : Prop where
  done : ∀ x, A x → (x.eventId ∈ p.processed ↔ x ∈ d)
  row : (∃ e data i, Leader (tellsState k) (stateStamp k) d e ∧ e.data.userData? k = some data ∧
      row p.rows = some i ∧ i.sourceUpdatedAt = data.updatedAt ∧
      (i.isActive = true ↔ data.isActive = true ∧ DeactivatedBefore k d e)) ∨
    ((∀ x ∈ d, x.data.userData? k = none) ∧ row p.rows = none)

section Deliveries

variable {R ε : Type} {keepsRoles : Bool} {keeps : UserType → Prop} {k : Uuid}
  {apply : Envelope Message → R → Except ε R} {row : R → Option Identity}
  {A : Envelope Message → Prop} {d : List (Envelope Message)} {e f : Envelope Message}
  {data : UserData} {p : Inbox R}

theorem stateStamp_eq (h : e.data.userData? k = some data) :
    stateStamp k e = (data.updatedAt : WithBot Time) := by
  unfold stateStamp
  rw [h]

theorem tellsState_of (h : e.data.userData? k = some data) : tellsState k e := by
  unfold tellsState
  rw [h]
  rfl

/-- No event both carries a state and deactivates. -/
theorem not_deactivates (h : e.data.userData? k = some data) : e.data.deactivates k = false := by
  cases hdata : e.data with
  | user data => rfl
  | userDeactivated => rw [hdata] at h; cases h
  | tenantDeactivated => rfl
  | tenantStatusChanged => rfl

/-- An event that is no new deactivation changes nothing for those before it. -/
theorem deactivatedBefore_snoc (he : e ∈ d)
    (hf : f ∈ d ∨ f.data.deactivates k = false) :
    DeactivatedBefore k (d ++ [f]) e ↔ DeactivatedBefore k d e := by
  unfold DeactivatedBefore
  rw [idxOf_append_of_mem he]
  constructor
  · intro h x hx hdeactivates
    have hlt := h x (List.mem_append_left _ hx) hdeactivates
    rwa [idxOf_append_of_mem hx] at hlt
  · intro h x hx hdeactivates
    have hxd : x ∈ d := by
      rcases List.mem_append.mp hx with hx | hx
      · exact hx
      · have hxf := List.mem_singleton.mp hx
        subst hxf
        rcases hf with hf | hf
        · exact hf
        · rw [hf] at hdeactivates
          cases hdeactivates
    rw [idxOf_append_of_mem hxd]
    exact h x hxd hdeactivates

/-- A new state comes after all deactivations so far. -/
theorem deactivatedBefore_last (hnew : f ∉ d) (hf : f.data.deactivates k = false) :
    DeactivatedBefore k (d ++ [f]) f := by
  intro x hx hdeactivates
  rw [idxOf_append_last hnew]
  rcases List.mem_append.mp hx with hx | hx
  · rw [idxOf_append_of_mem hx]
    exact List.idxOf_lt_length_iff.mpr hx
  · rw [List.mem_singleton.mp hx, hf] at hdeactivates
    cases hdeactivates

/-- The new state takes the lead. -/
theorem Kept.takes (hnew : f ∉ d) (hf : f.data.userData? k = some data)
    (hge : ∀ x ∈ d, tellsState k x → stateStamp k x ≤ stateStamp k f)
    (hdone : ∀ x, A x → (x.eventId ∈ p.processed ↔ x ∈ d ++ [f]))
    (hrow : row p.rows = some (data.identity keepsRoles)) : Kept k A row (d ++ [f]) p := by
  refine ⟨hdone, .inl ⟨f, data, _, .takes hnew (tellsState_of hf) hge, hf, hrow, rfl, ?_⟩⟩
  exact (and_iff_left (deactivatedBefore_last hnew (not_deactivates hf))).symm

/-- An event that tells nothing new leaves the leader and the row. -/
theorem Kept.quiet {p' : Inbox R} (hp : Kept k A row d p)
    (hdone : ∀ x, A x → (x.eventId ∈ p'.processed ↔ x ∈ d ++ [f]))
    (hrow : row p'.rows = row p.rows) (hno : tellsState k f → f ∈ d)
    (hf : f ∈ d ∨ f.data.deactivates k = false) : Kept k A row (d ++ [f]) p' := by
  refine ⟨hdone, ?_⟩
  rw [hrow]
  rcases hp.row with ⟨e, data, i, hlead, hdata, hkept, hstamp, hactive⟩ | ⟨hnone, hkept⟩
  · refine .inl ⟨e, data, i, hlead.same hno, hdata, hkept, hstamp, ?_⟩
    rw [deactivatedBefore_snoc hlead.mem hf]
    exact hactive
  · refine .inr ⟨fun x hx => ?_, hkept⟩
    rcases List.mem_append.mp hx with hx | hx
    · exact hnone x hx
    · rw [List.mem_singleton.mp hx]
      cases hstate : f.data.userData? k with
      | none => rfl
      | some data => exact hstate.symm.trans (hnone f (hno (tellsState_of hstate)))

/-- One more delivery. -/
theorem Kept.deliver (h : Replicates keepsRoles keeps k apply row)
    (hids : ∀ x y, A x → A y → x.eventId = y.eventId → x = y)
    (hA : ∀ e, A e → e.data.FitsType e.eventType ∧
      ∀ data, e.data.userData? k = some data → keeps data.userType)
    (hp : Kept k A row d p) (hf : A f) :
    Kept k A row (d ++ [f]) (Inbox.onMessage (Inbox.handle apply) p f) := by
  by_cases hseen : f.eventId ∈ p.processed
  · have hmem : f ∈ d := (hp.done f hf).mp hseen
    rw [Inbox.onMessage_seen hseen]
    have hd : ∀ x, x ∈ d ++ [f] ↔ x ∈ d := by
      intro x
      rw [List.mem_append, List.mem_singleton]
      exact ⟨fun hx => hx.elim id fun heq => heq ▸ hmem, .inl⟩
    exact hp.quiet (fun x hx => by rw [hp.done x hx, hd]) rfl (fun _ => hmem) (.inl hmem)
  · have hnew : f ∉ d := fun hmem => hseen ((hp.done f hf).mpr hmem)
    obtain ⟨hfits, hkeeps⟩ := hA f hf
    obtain ⟨rows, happly, hfollow⟩ := h f p.rows hfits hkeeps
    rw [Inbox.onMessage_ok hseen happly]
    have hdone : ∀ x, A x → (x.eventId ∈ f.eventId :: p.processed ↔ x ∈ d ++ [f]) := by
      intro x hx
      rw [List.mem_cons, hp.done x hx, List.mem_append, List.mem_singleton, or_comm]
      exact or_congr_right ⟨hids x f hx hf, fun heq => heq ▸ rfl⟩
    cases hstate : f.data.userData? k with
    | some data' =>
        rcases hp.row with ⟨e, data, i, hlead, hdata, hrow, hstamp, hactive⟩ | ⟨hnone, hrow⟩
        · rw [hrow] at hfollow
          by_cases hle : i.sourceUpdatedAt ≤ data'.updatedAt
          · refine Kept.takes hnew hstate (fun x hx hok => ?_) hdone
              (hfollow.trans (follow_newer hstate hle))
            refine le_trans (hlead.newest x hx hok) ?_
            rw [stateStamp_eq hdata, stateStamp_eq hstate, ← hstamp]
            exact WithBot.coe_le_coe.mpr hle
          · have hlt : data'.updatedAt < i.sourceUpdatedAt := not_le.mp hle
            have hstays : stateStamp k f < stateStamp k e := by
              rw [stateStamp_eq hdata, stateStamp_eq hstate, ← hstamp]
              exact WithBot.coe_lt_coe.mpr hlt
            refine ⟨hdone, .inl ⟨e, data, i, hlead.stays hstays, hdata,
              hfollow.trans (follow_stale hstate hlt), hstamp, ?_⟩⟩
            rw [deactivatedBefore_snoc hlead.mem (.inr (not_deactivates hstate))]
            exact hactive
        · rw [hrow] at hfollow
          refine Kept.takes hnew hstate (fun x hx hok => ?_) hdone
            (hfollow.trans (follow_first hstate))
          unfold tellsState at hok
          rw [hnone x hx] at hok
          cases hok
    | none =>
        have hno : tellsState k f → f ∈ d := by
          intro hok
          unfold tellsState at hok
          rw [hstate] at hok
          cases hok
        cases hdeactivates : f.data.deactivates k with
        | true =>
            rw [follow_deactivated hstate hdeactivates] at hfollow
            rcases hp.row with ⟨e, data, i, hlead, hdata, hrow, hstamp, -⟩ | ⟨hnone, hrow⟩
            · rw [hrow] at hfollow
              refine ⟨hdone, .inl ⟨e, data, _, hlead.same hno, hdata, hfollow, hstamp,
                iff_of_false Bool.false_ne_true fun hbefore => ?_⟩⟩
              -- The deactivation comes after the leader.
              have hlt := hbefore.2 f (List.mem_append_right _ List.mem_cons_self) hdeactivates
              rw [idxOf_append_last hnew, idxOf_append_of_mem hlead.mem] at hlt
              have hle : d.idxOf e < d.length := List.idxOf_lt_length_iff.mpr hlead.mem
              omega
            · rw [hrow] at hfollow
              refine ⟨hdone, .inr ⟨fun x hx => ?_, hfollow⟩⟩
              rcases List.mem_append.mp hx with hx | hx
              · exact hnone x hx
              · rw [List.mem_singleton.mp hx]
                exact hstate
        | false =>
            rw [follow_aside hstate hdeactivates] at hfollow
            exact hp.quiet hdone hfollow hno (.inr hdeactivates)

theorem Replicates.kept (h : Replicates keepsRoles keeps k apply row)
    (hids : ∀ x y, A x → A y → x.eventId = y.eventId → x = y)
    (hA : ∀ e, A e → e.data.FitsType e.eventType ∧
      ∀ data, e.data.userData? k = some data → keeps data.userType)
    (hnew : ∀ e, A e → e.eventId ∉ p.processed) (hrow : row p.rows = none)
    (d : List (Envelope Message)) (hd : ∀ e ∈ d, A e) :
    Kept k A row d (d.foldl (Inbox.onMessage (Inbox.handle apply)) p) := by
  induction d using List.reverseRecOn with
  | nil =>
      refine ⟨fun x hx => ?_, .inr ⟨fun x hx => ?_, hrow⟩⟩
      · simp [hnew x hx]
      · cases hx
  | append_singleton d f ih =>
      rw [List.foldl_append]
      refine Kept.deliver h hids hA (ih fun x hx => hd x (List.mem_append_left _ hx)) (hd f ?_)
      exact List.mem_append_right _ List.mem_cons_self

end Deliveries

/-! ## Histories -/

/-- The call registers a user or sets the status of one. -/
def UserCall.setsStatus : UserCall → Bool
  | updateUserProfile .. => false
  | _ => true

/-- The last event that carries the state of user `k`. -/
def lastState (k : Uuid) (events : List (Envelope Message)) : Option (Envelope Message) :=
  (events.filter (tellsState k ·)).getLast?

/-- The last event of user `k` shows its status, with a newer stamp than all others. -/
structure Shown (k : Uuid) (past : List UserCall) (events : List (Envelope Message))
    (user : User) (f : Envelope Message) (data : UserData) : Prop where
  last : lastState k events = some f
  state : f.data.userData? k = some data
  isActive : data.isActive = user.isActive
  newest : ∀ e ∈ events, ∀ d, e.data.userData? k = some d → e = f ∨ d.updatedAt < data.updatedAt
  source : ∃ a ∈ past, data.updatedAt ≤ a.clock.later
  userType : ∀ e ∈ events, ∀ d, e.data.userData? k = some d → d.userType = user.userType

/-- What the events after the calls `past` say of user `k`. -/
def Told (k : Uuid) (past : List UserCall) (s : Db) : Prop :=
  match s.users.committed k with
  | none => ∀ e ∈ s.events, e.data.userData? k = none
  | some user => ∃ f data, Shown k past s.events user f data

section Histories

variable {a : UserCall} {k : Nat} {past : List UserCall} {w w' : Rows} {s s' : Db}
  {user : User} {events l : List (Envelope Message)} {f : Envelope Message} {data : UserData}

theorem filter_aside (hl : ∀ e ∈ l, e.data.userData? k = none) :
    l.filter (tellsState k ·) = [] := by
  refine List.filter_eq_nil_iff.mpr fun e he => ?_
  have hno : ¬ tellsState k e := by
    unfold tellsState
    rw [hl e he]
    exact Bool.false_ne_true
  simpa using hno

theorem lastState_aside (hl : ∀ e ∈ l, e.data.userData? k = none) :
    lastState k (events ++ l) = lastState k events := by
  unfold lastState
  rw [List.filter_append, filter_aside hl, List.append_nil]

theorem lastState_snoc (hf : f.data.userData? k = some data) :
    lastState k (events ++ [f]) = some f := by
  unfold lastState
  rw [List.filter_append, List.filter_cons_of_pos (by simpa using tellsState_of hf),
    List.filter_nil]
  exact List.getLast?_concat

theorem Shown.mem (h : Shown k past events user f data) : f ∈ events :=
  List.mem_of_mem_filter (List.mem_of_getLast? h.last)

/-- Events without a state of user `k` come after it. -/
theorem Shown.aside (h : Shown k past events user f data)
    (hl : ∀ e ∈ l, e.data.userData? k = none) :
    Shown k (past ++ [a]) (events ++ l) user f data := by
  have hold : ∀ e ∈ events ++ l, ∀ d, e.data.userData? k = some d → e ∈ events := by
    intro e he d hd
    rcases List.mem_append.mp he with he | he
    · exact he
    · rw [hl e he] at hd
      cases hd
  obtain ⟨b, hb, hsource⟩ := h.source
  exact ⟨(lastState_aside hl).trans h.last, h.state, h.isActive,
    fun e he d hd => h.newest e (hold e he d hd) d hd, ⟨b, List.mem_append_left _ hb, hsource⟩,
    fun e he d hd => h.userType e (hold e he d hd) d hd⟩

theorem Told.aside (h : Told k past s) (huser : s'.users.committed k = s.users.committed k)
    (hevents : s'.events = s.events ++ l) (hl : ∀ e ∈ l, e.data.userData? k = none) :
    Told k (past ++ [a]) s' := by
  unfold Told at h ⊢
  rw [huser, hevents]
  cases hk : s.users.committed k with
  | none =>
      rw [hk] at h
      intro e he
      rcases List.mem_append.mp he with he | he
      · exact h e he
      · exact hl e he
  | some user =>
      rw [hk] at h
      obtain ⟨f, data, hshown⟩ := h
      exact ⟨f, data, hshown.aside hl⟩

/-- A newer state of user `k` comes last. -/
theorem Shown.renewed {d : List (Envelope Message)}
    (hd : ∀ e ∈ d, e.data.userData? k = none) (hf : f.data.userData? k = some data)
    (hactive : data.isActive = user.isActive) (htype : data.userType = user.userType)
    (hold : ∀ e ∈ events, ∀ x, e.data.userData? k = some x →
      x.updatedAt < data.updatedAt ∧ x.userType = user.userType)
    (hsource : data.updatedAt ≤ a.clock.later) :
    Shown k (past ++ [a]) (events ++ (d ++ [f])) user f data := by
  have hcases : ∀ e ∈ events ++ (d ++ [f]), ∀ x, e.data.userData? k = some x →
      e ∈ events ∨ e = f ∧ x = data := by
    intro e he x hx
    rcases List.mem_append.mp he with he | he
    · exact .inl he
    · rcases List.mem_append.mp he with he | he
      · rw [hd e he] at hx
        cases hx
      · have hef := List.mem_singleton.mp he
        rw [hef, hf] at hx
        exact .inr ⟨hef, (Option.some.inj hx).symm⟩
  refine ⟨?_, hf, hactive, fun e he x hx => ?_,
    ⟨a, List.mem_append_right _ List.mem_cons_self, hsource⟩, fun e he x hx => ?_⟩
  · rw [← List.append_assoc]
    exact lastState_snoc hf
  · rcases hcases e he x hx with he | ⟨rfl, -⟩
    · exact .inr (hold e he x hx).1
    · exact .inl rfl
  · rcases hcases e he x hx with he | ⟨-, rfl⟩
    · exact (hold e he x hx).2
    · exact htype

/-- All stamps so far are older than those of a call that is made next. -/
theorem Shown.older (h : Shown k past events user f data)
    (hclock : ∀ b ∈ past, b.clock.later ≤ a.clock.transaction) {e : Envelope Message}
    (he : e ∈ events) {d : UserData} (hd : e.data.userData? k = some d) :
    d.updatedAt < a.clock.later := by
  obtain ⟨b, hb, hsource⟩ := h.source
  have hle : d.updatedAt ≤ data.updatedAt := by
    rcases h.newest e he d hd with rfl | hlt
    · rw [h.state] at hd
      exact le_of_eq (congrArg UserData.updatedAt (Option.some.inj hd).symm)
    · exact le_of_lt hlt
  calc d.updatedAt ≤ data.updatedAt := hle
    _ ≤ b.clock.later := hsource
    _ ≤ a.clock.transaction := hclock b hb
    _ < a.clock.now := a.clock.started
    _ ≤ a.clock.later := a.clock.ordered

theorem told_status {o : Nat} {status : String} {clock : Clock} {d : List (Envelope Message)}
    (ha : a = .setUserStatus k status clock) (hk : s.users.committed k = some user)
    (hk' : s'.users.committed k =
      some (flushed (user.status ≠ status) (setStatus status) clock user))
    (h : Told k past s) (hclock : ∀ b ∈ past, b.clock.later ≤ a.clock.transaction)
    (hd : ∀ e ∈ d, e.data.userData? k = none)
    (hevents : s'.events = s.events ++ (d ++ [(statusUpdate k o user status
      s.roleAssignments.values clock.later).payload])) :
    Told k (past ++ [a]) s' := by
  unfold Told at h ⊢
  rw [hk] at h
  rw [hk', hevents]
  obtain ⟨f, data, hshown⟩ := h
  have hac : a.clock = clock := by
    rw [ha]
    rfl
  obtain ⟨-, -, hstatus, htype⟩ := flushed_kept clock
    fun (h : decide (user.status ≠ status) = false) => setStatus_of_same h
  have hdata : Message.userData? k (statusUpdate k o user status s.roleAssignments.values
      clock.later).payload.data = some (statusData k (setStatus status user)
        (user.roles (assigned k s.roleAssignments.values)) clock.later) := if_pos rfl
  refine ⟨_, _, Shown.renewed hd hdata ?_ htype.symm (fun e he x hx => ⟨?_, ?_⟩) ?_⟩
  · unfold User.isActive
    rw [hstatus]
    rfl
  · show x.updatedAt < clock.later
    rw [← hac]
    exact hshown.older hclock he hx
  · rw [hshown.userType e he x hx, htype]
    rfl
  · rw [hac]
    exact le_refl _

/-- One call on its own. -/
theorem Told.step (h : Told k past s) (hs : Rested schema w s) (hs' : Rested schema w' s')
    (hresult : UserResult a w w') (hcall : a.setsStatus = true)
    (hclock : ∀ b ∈ past, b.clock.later ≤ a.clock.transaction) : Told k (past ++ [a]) s' := by
  obtain ⟨-, hcases⟩ := hresult.events hs hs'
  rcases hcases with ⟨husers, hvalues, -⟩ | ⟨j, user, l, hchange, husers, hvalues⟩
  · have hevents : s'.events = s.events ++ [] := by
      unfold Db.events
      rw [hvalues, List.append_nil]
    exact h.aside (by rw [husers]) hevents fun e he => by cases he
  · have hevents : s'.events = s.events ++ l.map Outbox.payload := by
      unfold Db.events
      rw [hvalues, List.map_append]
    by_cases hjk : j = k
    · subst hjk
      have hk' : s'.users.committed j = some user := by
        rw [husers]
        exact Function.update_self ..
      cases hbefore : s.users.committed j with
      | none =>
          rw [hbefore] at hchange
          cases hchange with
          | registered hname hactive hnow =>
              unfold Told at h ⊢
              rw [hbefore] at h
              rw [hk', hevents]
              refine ⟨_, _, Shown.renewed (d := []) (fun e he => by cases he) (if_pos rfl) rfl rfl
                (fun e he x hx => ?_) ?_⟩
              · rw [h e he] at hx
                cases hx
              · show user.updatedAt ≤ a.clock.later
                rw [hnow]
                exact transaction_le_later a
      | some old =>
          rw [hbefore] at hchange
          cases hchange with
          | profiled => cases hcall
          | shutOut hdeactivates =>
              refine told_status (d := [_]) rfl hbefore hk' h hclock (fun e he => ?_) hevents
              rw [List.mem_singleton.mp he]
              rfl
          | statusSet hdeactivates =>
              exact told_status (d := []) rfl hbefore hk' h hclock (fun e he => by cases he) hevents
    · refine h.aside ?_ hevents fun e he => ?_
      · rw [husers]
        exact Function.update_of_ne (fun h => hjk h.symm) ..
      · obtain ⟨row, hrow, rfl⟩ := List.mem_map.mp he
        exact (hchange.elsewhere hjk row hrow).1

/-- What holds after calls that register users and set their status, one after the other. -/
theorem status_history (env : Env) (tenants : List Tenant) (roleAssignments : List RoleAssignment)
    (l : List UserCall) (hturn : InTurn l) (hl : ∀ a ∈ l, a.setsStatus = true) :
    ∃ s, calls (UserCall.body env) l 0 (Db.initial tenants [] roleAssignments) = some s ∧
      Written s ∧ ∀ k, Told k l s := by
  let J : List UserCall → Db → Prop := fun past s => Written s ∧
    (InTurn past → (∀ a ∈ past, a.setsStatus = true) → ∀ k, Told k past s)
  have hstep : ∀ past a w w' s s', Rested schema w s → Rested schema w' s' → UserResult a w w' →
      J past s → J (past ++ [a]) s' := by
    intro past a w w' s s' hs hs' hresult hJ
    refine ⟨hJ.1.step hs hs' hresult, fun hpast hall k => ?_⟩
    have htold := hJ.2 hpast.init (fun b hb => hall b (List.mem_append_left _ hb)) k
    exact htold.step hs hs' hresult (hall a (List.mem_append_right _ List.mem_cons_self)) hpast.last
  have hstart : J [] (Db.initial tenants [] roleAssignments) := by
    refine ⟨⟨Numbered.nothing, fun e he => by cases he⟩, fun _ _ k => ?_⟩
    exact fun e he => by cases he
  obtain ⟨w, s, hcalls, -, hwritten, htold⟩ := (user_leads env).history hstep
    (initial_rested tenants [] roleAssignments) hstart l 0
  exact ⟨s, hcalls, hwritten, htold hturn hl⟩

/-- No two events of the outbox have the same id. -/
theorem Written.event_eq (h : Written s) {x y : Envelope Message} (hx : x ∈ s.events)
    (hy : y ∈ s.events) (hid : x.eventId = y.eventId) : x = y :=
  List.inj_on_of_nodup_map h.numbered.nodup hx hy hid

end Histories

section Consumers

variable {R ε : Type} {keepsRoles : Bool} {keeps : UserType → Prop} {k : Uuid}
  {apply : Envelope Message → R → Except ε R} {row : R → Option Identity} {p : Inbox R}
  {past : List UserCall} {s : Db} {user : User} {f : Envelope Message} {data : UserData}

/-- A consumer that has received all events, in any order. -/
theorem Replicates.activation_iff (h : Replicates keepsRoles keeps k apply row)
    (hwritten : Written s) (hshown : Shown k past s.events user f data)
    (hkeeps : keeps user.userType) (hnew : p.processed = []) (hrow : row p.rows = none)
    {d : List (Envelope Message)} (hd : ∀ e, e ∈ d ↔ e ∈ s.events) :
    ∃ i, row (d.foldl (Inbox.onMessage (Inbox.handle apply)) p).rows = some i ∧
      (i.isActive = user.isActive ↔ (user.isActive = true → DeactivatedBefore k d f)) := by
  have hkept := h.kept (A := fun e => e ∈ s.events) (fun _ _ => hwritten.event_eq)
    (fun e he => ⟨hwritten.fits e he, fun x hx => hshown.userType e he x hx ▸ hkeeps⟩)
    (fun e _ => hnew ▸ List.not_mem_nil) hrow d fun e he => (hd e).mp he
  have hf : f ∈ d := (hd f).mpr hshown.mem
  rcases hkept.row with ⟨e, x, i, hlead, hx, hi, -, hactive⟩ | ⟨hnone, -⟩
  · -- The leader is the last state.
    have hef : e = f := by
      rcases hshown.newest e ((hd e).mp hlead.mem) x hx with hef | hlt
      · exact hef
      · have hle := hlead.newest f hf (tellsState_of hshown.state)
        rw [stateStamp_eq hshown.state, stateStamp_eq hx] at hle
        exact absurd hlt (not_lt.mpr (WithBot.coe_le_coe.mp hle))
    subst hef
    rw [hshown.state] at hx
    cases hx
    rw [hshown.isActive] at hactive
    refine ⟨i, hi, ?_⟩
    cases huser : user.isActive with
    | true =>
        rw [huser] at hactive
        rw [hactive]
        exact ⟨fun hboth _ => hboth.2, fun hbefore => ⟨rfl, hbefore rfl⟩⟩
    | false =>
        rw [huser] at hactive
        refine iff_of_true ?_ fun hno => absurd hno Bool.false_ne_true
        exact Bool.eq_false_iff.mpr fun hyes => Bool.false_ne_true (hactive.mp hyes).1
  · have hno := hnone f hf
    rw [hshown.state] at hno
    cases hno

end Consumers

/-- The logistics service shows user `k` as active or not after the deliveries `d`. -/
def ReplicaActive (d : List (Envelope Message)) (k : Uuid) (isActive : Bool) : Prop :=
  ∃ replica, (d.foldl Logistics.deliverIam Logistics.noReplicas).rows k = some replica ∧
    replica.isActive = isActive

/-- The volunteer service shows user `k` as active or not after the deliveries `d`. -/
def ProfileActive (now : Envelope Message → Time) (d : List (Envelope Message)) (k : Uuid)
    (isActive : Bool) : Prop :=
  ∃ profile, (d.foldl (Volunteer.deliverIam now) Volunteer.noProfiles).rows k = some profile ∧
    profile.isActive = isActive

/-- After calls that register users and set their status, and any deliveries `d` of all events:
each service shows a user as it is exactly if the user is inactive or all its deactivations came
before its last state. -/
theorem activation_converges_iff (env : Env) (tenants : List Tenant)
    (roleAssignments : List RoleAssignment) (now : Envelope Message → Time) (l : List UserCall)
    (hturn : InTurn l) (hl : ∀ a ∈ l, a.setsStatus = true) :
    ∃ s, calls (UserCall.body env) l 0 (Db.initial tenants [] roleAssignments) = some s ∧
      ∀ k user, s.users.committed k = some user →
        ∃ f, lastState k s.events = some f ∧
          ∀ d, (∀ e, e ∈ d ↔ e ∈ s.events) →
            (ReplicaActive d k user.isActive ↔
              (user.isActive = true → DeactivatedBefore k d f)) ∧
            (user.userType = .volunteer →
              (ProfileActive now d k user.isActive ↔
                (user.isActive = true → DeactivatedBefore k d f))) := by
  obtain ⟨s, hcalls, hwritten, htold⟩ := status_history env tenants roleAssignments l hturn hl
  refine ⟨s, hcalls, fun k user hk => ?_⟩
  have htold := htold k
  unfold Told at htold
  rw [hk] at htold
  obtain ⟨f, data, hshown⟩ := htold
  refine ⟨f, hshown.last, fun d hd => ⟨?_, fun hvolunteer => ?_⟩⟩
  · obtain ⟨i, hi, hiff⟩ := (Logistics.replicas_replicate k).activation_iff hwritten hshown trivial
      (p := Logistics.noReplicas) rfl rfl hd
    obtain ⟨replica, hreplica, rfl⟩ := Option.map_eq_some_iff.mp hi
    rw [← hiff]
    constructor
    · rintro ⟨other, hother, hactive⟩
      have hsame := hother.symm.trans hreplica
      cases hsame
      exact hactive
    · exact fun hactive => ⟨replica, hreplica, hactive⟩
  · obtain ⟨i, hi, hiff⟩ := (Volunteer.profiles_replicate now k).activation_iff hwritten hshown
      hvolunteer (p := Volunteer.noProfiles) rfl rfl hd
    obtain ⟨profile, hprofile, hidentity⟩ := Option.bind_eq_some_iff.mp hi
    have hsame : i.isActive = profile.isActive := by
      obtain ⟨source, -, rfl⟩ := Option.map_eq_some_iff.mp hidentity
      rfl
    rw [← hiff, hsame]
    constructor
    · rintro ⟨other, hother, hactive⟩
      have hsame := hother.symm.trans hprofile
      cases hsame
      exact hactive
    · exact fun hactive => ⟨profile, hprofile, hactive⟩

/-- Amara registers, is disabled and is enabled again. -/
def enableAgain : List UserCall :=
  [.registerGlobalUser amara "salt" (tick 0), .setUserStatus 0 "disabled" (tick 10),
    .setUserStatus 0 "active" (tick 20)]

/-- All events are delivered in order and then once more. -/
theorem activation_converges_amara : ∃ s, calls (UserCall.body plain) enableAgain 0
      (Db.initial [] [] []) = some s ∧ ReplicaActive (s.events ++ s.events) 0 true ∧
    ProfileActive (fun _ => 0) (s.events ++ s.events) 0 true := by
  obtain ⟨s, hcalls, hconverges⟩ :=
    activation_converges_iff plain [] [] (fun _ => 0) enableAgain (by decide) (by decide)
  have hfacts : (calls (UserCall.body plain) enableAgain 0 (Db.initial [] [] [])).map (fun s =>
      ((s.users.committed 0).map fun user => (user.isActive, user.userType),
        (lastState 0 s.events).map fun f => decide (DeactivatedBefore 0 (s.events ++ s.events) f))) =
      some (some (true, .volunteer), some true) := by
    decide +kernel
  rw [hcalls] at hfacts
  simp only [Option.map_some, Option.some.injEq, Prod.mk.injEq, Option.map_eq_some_iff] at hfacts
  obtain ⟨⟨user, huser, hactive, hvolunteer⟩, f, hlast, hbefore⟩ := hfacts
  obtain ⟨f', hlast', hconverges⟩ := hconverges 0 user huser
  rw [hlast] at hlast'
  cases hlast'
  obtain ⟨hreplica, hprofile⟩ := hconverges (s.events ++ s.events) fun e => by simp
  rw [hactive] at hreplica hprofile
  exact ⟨s, hcalls, hreplica.mpr fun _ => of_decide_eq_true hbefore,
    (hprofile hvolunteer).mpr fun _ => of_decide_eq_true hbefore⟩

/-- Delivered in reverse order, the deactivation comes after the last state. -/
theorem enabling_undone : ¬ ∀ (env : Env) (tenants : List Tenant)
    (roleAssignments : List RoleAssignment) (now : Envelope Message → Time) (l : List UserCall)
    (s : Db) (k : Uuid) (user : User) (d : List (Envelope Message)), InTurn l →
    (∀ a ∈ l, a.setsStatus = true) →
    calls (UserCall.body env) l 0 (Db.initial tenants [] roleAssignments) = some s →
    s.users.committed k = some user → (∀ e, e ∈ d ↔ e ∈ s.events) →
    ReplicaActive d k user.isActive ∧
      (user.userType = .volunteer → ProfileActive now d k user.isActive) := by
  intro hclaim
  have hfacts : (calls (UserCall.body plain) enableAgain 0 (Db.initial [] [] [])).map (fun s =>
      ((s.users.committed 0).map User.isActive,
        ((s.events.reverse.foldl Logistics.deliverIam Logistics.noReplicas).rows 0).map
          Logistics.UserReplica.isActive)) = some (some true, some false) := by
    decide +kernel
  obtain ⟨s, hcalls, hfacts⟩ := Option.map_eq_some_iff.mp hfacts
  simp only [Prod.mk.injEq, Option.map_eq_some_iff] at hfacts
  obtain ⟨⟨user, huser, hactive⟩, replica, hreplica, hinactive⟩ := hfacts
  obtain ⟨⟨replica', hreplica', hsame⟩, -⟩ := hclaim plain [] [] (fun _ => 0) enableAgain s 0 user
    s.events.reverse (by decide) (by decide) hcalls huser fun e => List.mem_reverse
  rw [hreplica] at hreplica'
  cases hreplica'
  rw [hinactive, hactive] at hsame
  cases hsame

end Iam
end Rcp
