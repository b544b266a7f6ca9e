/-
Closed events.

Calls made one after the other.  A CLOSED event stays CLOSED under every call but
one: an acceptance that fills its last open bucket takes the branch of
`_mark_requirement_fulfilled` that asks only whether the team was formed before,
sets TEAM_FORMED and announces the team.
-/
import Rcp.Volunteer.Quota

namespace Rcp
namespace Volunteer

open Sql Sql.Table Relation

/-- The call accepts a NOTIFIED mapping of event `e` whose bucket has one place
left, all other buckets of the event being FULFILLED. -/
def FillsLastBucket (w : Rows) (a : Call) (e : Uuid) : Prop :=
  ∃ k user now row q, a = .acceptAssignment k user now ∧ Answers w k user row q ∧
    q.eventId = e ∧ q.filledCount + 1 = q.requiredCount ∧
    OthersFulfilled w row.requirementId e

def IsClosed (w : Rows) (e : Uuid) : Prop :=
  ∃ ev, w.events e = some ev ∧ ev.status = .closed

theorem over_event_of_ne {w W : Rows} {e e₀ : Uuid} {ev : DisasterEvent}
    (hW : W.events = single e₀ ev) (he : e ≠ e₀) : (W.overlay w).events e = w.events e := by
  simp [Rows.overlay, hW, single_of_ne _ he]

theorem Commit.stays_closed {a : Call} {w W : Rows} (h : Commit a w W) {e : Uuid}
    (hclosed : IsClosed w e) (hre : ∀ tenantId, a ≠ .rebroadcast tenantId e)
    (hlast : ¬ FillsLastBucket w a e) :
    IsClosed (W.overlay w) e ∧
      posted Message.formedEvent (W.overlay w) e = posted Message.formedEvent w e := by
  obtain ⟨ev, hev, hst⟩ := hclosed
  have hother : ∀ {e₀ : Uuid} {ev₀ : DisasterEvent}, W.events = single e₀ ev₀ → e ≠ e₀ →
      IsClosed (W.overlay w) e := by
    intro e₀ ev₀ hW he
    exact ⟨ev, (over_event_of_ne hW he).trans hev, hst⟩
  cases h with
  | declared hnew hstatus hR hne hO =>
      refine ⟨hother rfl fun he => ?_, posted_of_plain hO.formedEvent_none e⟩
      rw [he, hnew] at hev
      cases hev
  | @matched _ _ e₀ ev₀ status M O hev₀ ha hM hO =>
      refine ⟨?_, posted_of_plain hO.formedEvent_none e⟩
      by_cases he : e = e₀
      · subst he
        rw [hev] at hev₀
        cases hev₀
        rcases ha with ⟨-, hopen, -⟩ | ⟨⟨tenantId, rfl⟩, -⟩
        · rw [hst] at hopen
          simp at hopen
        · exact absurd rfl (hre tenantId)
      · exact hother rfl he
  | rejected | accepted => exact ⟨⟨ev, hev, hst⟩, rfl⟩
  | @fulfilled _ _ _ _ row q ev₀ _ h hlt hle hev₀ hleft ho =>
      refine ⟨?_, posted_of_plain
        (posts_single (P := fun d => d.formedEvent = none) ho rfl) e⟩
      by_cases he : e = q.eventId
      · subst he
        rw [hev] at hev₀
        cases hev₀
        exact ⟨ev, over_event_self rfl, hst⟩
      · exact hother rfl he
  | @formed _ m user now row q ev₀ o o' ks team h hlt hle hev₀ hall hstatus ho ho' hne hroster =>
      have he : e ≠ q.eventId := by
        intro he
        refine hlast ⟨m, user, now, row, q, rfl, h, he.symm, by omega, ?_⟩
        intro r' q' hr hq' hqe
        exact hall r' q' hr hq' (hqe.trans he)
      have hrow : (teamWrites m now row q ev₀ team o o').outbox o' =
          some (formedRow ev₀ q.eventId team o') := by
        simp [teamWrites, Rows.writing]
      obtain ⟨-, -, hrest⟩ := posted_of_row (f := Message.formedEvent) ho' hrow rfl (by
        intro o₁ row₁ hne₁ hrow₁
        simp only [teamWrites, Rows.writing, Function.update_apply, hne₁, if_false] at hrow₁
        obtain ⟨rfl, rfl⟩ := single_eq_some.mp hrow₁
        exact ⟨ho, rfl⟩)
      exact ⟨hother rfl he, hrest e he⟩
  | moved hnew hrow hfrom hown hev₀ ho =>
      exact ⟨⟨ev, hev, hst⟩, posted_of_plain
        (posts_single (P := fun d => d.formedEvent = none) ho rfl) e⟩
  | @closed _ _ e₀ ev₀ hev₀ =>
      refine ⟨?_, rfl⟩
      by_cases he : e = e₀
      · subst he
        exact ⟨_, over_event_self rfl, rfl⟩
      · exact hother rfl he

/-! ## One call -/

theorem tenantEvent_exec (tenantId e : Uuid) (t : Sid) (s : Db) :
    (tenantEvent tenantId e).exec t s =
      match s.events.read t e with
      | none => some (.error (.httpException 404 "Event not found"), s)
      | some ev =>
          if ev.tenantId = tenantId then
            some (.ok (ev, (s.requirements.scan t).filter fun r => r.2.eventId == e), s)
          else some (.error (.httpException 404 "Event not found"), s) := by
  show Prog.exec t (match s.events.read t e with | none => _ | some event => _) s = _
  split
  · rfl
  · split
    · rfl
    · rfl

theorem settled_read_event {s : Db} (h : schema.Settled s) (t : Sid) (e : Uuid) :
    s.events.read t e = s.rows.events e :=
  read_of_not_written (congrFun (congrArg Rows.events (h t)) e)

/-- A rebroadcast of a CLOSED event is refused. -/
theorem rebroadcast_closed {s : Db} (hs : schema.Settled s) {e : Uuid}
    (hclosed : IsClosed s.rows e) (tenantId : Uuid) (t : Sid) :
    ∃ err, (rebroadcast tenantId e).exec t s = some (.error err, s) := by
  obtain ⟨ev, hev, hst⟩ := hclosed
  have hopen : ev.status ≠ .declared ∧ ev.status ≠ .broadcasting := by
    rw [hst]
    decide
  unfold rebroadcast
  rw [Prog.exec_bind, tenantEvent_exec, settled_read_event hs, hev]
  by_cases ht : ev.tenantId = tenantId
  · refine ⟨.httpException 409 ("Event is " ++ ev.status.value), ?_⟩
    simp only [ht, if_true]
    rw [if_pos hopen]
    rfl
  · refine ⟨.httpException 404 "Event not found", ?_⟩
    simp only [ht, if_false]

theorem closeEvent_closes {s s' : Db} (hs : schema.Settled s) {tenantId e : Uuid} {t : Sid}
    {r : Reply}
    (h : (closeEvent tenantId e).exec t s = some (.ok r, s')) : IsClosed s'.rows e := by
  obtain ⟨loaded, s₁, htenant, h⟩ := Prog.exec_bind_ok h
  obtain ⟨_, s₂, hset, h⟩ := Prog.exec_bind_ok h
  obtain ⟨_, s₃, hcommit, h⟩ := Prog.exec_bind_ok h
  obtain ⟨row, s₄, hrefresh, hret⟩ := Prog.exec_bind_ok h
  have hlast : s' = s₃ := by
    obtain ⟨found, s₅, hread, hfound⟩ := Prog.exec_bind_ok hrefresh
    cases Prog.exec_stmt_ok hread
    split at hfound
    · cases hfound
    · cases hfound
      cases hret
      rfl
  have hrows : s'.rows = (s₂.writes t).overlay s₂.rows := by
    rw [hlast]
    cases Prog.exec_stmt_ok hcommit
    rfl
  have hloaded : s₁ = s ∧ s.rows.events e = some loaded.1 := by
    rw [tenantEvent_exec, settled_read_event hs] at htenant
    split at htenant
    · cases htenant
    · rename_i ev hev
      split at htenant
      · cases htenant
        exact ⟨rfl, hev⟩
      · cases htenant
  obtain ⟨rfl, hev⟩ := hloaded
  unfold setEventStatus at hset
  split at hset
  · rename_i hst
    cases hset
    have hidle : s₁.writes t = .nothing := hs t
    rw [hidle] at hrows
    rw [hrows]
    exact ⟨loaded.1, hev, hst⟩
  · obtain ⟨found, s₅, hupdate, hret⟩ := Prog.exec_bind_ok hset
    cases hret
    have hrun := Prog.exec_stmt_ok hupdate
    cases found with
    | none =>
        have hno := (runUpdate_none hrun).2 loaded.1 ((settled_read_event hs t e).trans hev)
        cases hno
    | some ev =>
        obtain ⟨ev₀, -, -, -, -, rfl⟩ := runUpdate_some hrun
        rw [hrows]
        exact ⟨{ ev₀ with status := .closed }, write_read_self s₁.events t e _, rfl⟩

/-- An answered mapping is not accepted again. -/
theorem Commit.answers_once {w W : Rows} {k user : Uuid} {now : Time}
    (h : Commit (.acceptAssignment k user now) w W) :
    (∃ m, w.mappings k = some m ∧ m.status = .notified) ∧
      ∃ m, (W.overlay w).mappings k = some m ∧ m.status ≠ .notified := by
  have hpair : ∀ {row : EventVolunteerMapping} {st : AssignmentStatus},
      W.mappings = single k (setMapping st now row) → st ≠ .notified →
      ∃ m, (W.overlay w).mappings k = some m ∧ m.status ≠ .notified := by
    intro row st hW hst
    exact ⟨setMapping st now row, by simp [Rows.overlay, hW, single_self], hst⟩
  obtain ⟨row, q, hanswers, hcase⟩ := h.answer
  refine ⟨⟨row, hanswers.mapping, hanswers.notified⟩, ?_⟩
  rcases hcase with ⟨-, -, hW⟩ | ⟨-, hW, -⟩
  · exact hpair hW (by decide)
  · exact hpair hW (by decide)

theorem call_stays_closed {a : Call} {t : Sid} {s s' : Db} {r : Except Error Reply} {e : Uuid}
    (hi : discipline.Inv s) (hs : schema.Settled s) (hclosed : IsClosed s.rows e)
    (hlast : ¬ FillsLastBucket s.rows a e) (h : (Call.body a).call t s = some (r, s')) :
    IsClosed s'.rows e ∧
      posted Message.formedEvent s'.rows e = posted Message.formedEvent s.rows e := by
  obtain ⟨-, -, s₁, hx, hrows, hchain⟩ := call_chain (verified _) hi hs h
  have hrows' : s'.rows = s₁.rows := hrows
  rw [hrows']
  by_cases hre : ∃ tenantId, a = .rebroadcast tenantId e
  · obtain ⟨tenantId, rfl⟩ := hre
    obtain ⟨err, herr⟩ := rebroadcast_closed hs hclosed tenantId t
    have heq := hx.symm.trans herr
    cases heq
    exact ⟨hclosed, rfl⟩
  have hre' : ∀ tenantId, a ≠ .rebroadcast tenantId e := fun tenantId ha => hre ⟨tenantId, ha⟩
  by_cases haccept : ∃ k user now, a = .acceptAssignment k user now
  · -- only the first commit of an acceptance meets the mapping as NOTIFIED
    obtain ⟨k, user, now, rfl⟩ := haccept
    have hkeep : s₁.rows = s.rows ∨
        ((∃ m, s₁.rows.mappings k = some m ∧ m.status ≠ .notified) ∧ IsClosed s₁.rows e ∧
          posted Message.formedEvent s₁.rows e = posted Message.formedEvent s.rows e) := by
      refine chain_keeps (J := fun w => w = s.rows ∨
        ((∃ m, w.mappings k = some m ∧ m.status ≠ .notified) ∧ IsClosed w e ∧
          posted Message.formedEvent w e = posted Message.formedEvent s.rows e)) hchain ?_
        (.inl rfl)
      intro w W _ hc hw
      obtain ⟨⟨m, hm, hnotified⟩, hafter⟩ := hc.answers_once
      rcases hw with rfl | ⟨⟨m', hm', hanswered⟩, -⟩
      · obtain ⟨hstay, hpost⟩ := hc.stays_closed hclosed hre' hlast
        exact .inr ⟨hafter, hstay, hpost⟩
      · rw [hm] at hm'
        cases hm'
        exact absurd hnotified hanswered
    rcases hkeep with heq | ⟨-, hstay, hpost⟩
    · rw [heq]
      exact ⟨hclosed, rfl⟩
    · exact ⟨hstay, hpost⟩
  · refine chain_keeps (J := fun w => IsClosed w e ∧
      posted Message.formedEvent w e = posted Message.formedEvent s.rows e) hchain ?_
      ⟨hclosed, rfl⟩
    intro w W _ hc hw
    have hnot : ¬ FillsLastBucket w a e := by
      intro hfill
      obtain ⟨k, user, now, -, -, ha, -⟩ := hfill
      exact haccept ⟨k, user, now, ha⟩
    obtain ⟨hstay, hpost⟩ := hc.stays_closed hw.1 hre' hnot
    exact ⟨hstay, hpost.trans hw.2⟩

/-! ## Sequences of calls -/

theorem calls_evolve {l : List Call} {t : Sid} {s s' : Db} (hi : discipline.Inv s)
    (hs : schema.Settled s) (h : calls Call.body l t s = some s') :
    discipline.Inv s' ∧ schema.Settled s' ∧ Evolves s.rows s'.rows :=
  calls_sound (J := Evolves s.rows) (verified _) (fun _ _ _ _ hc hw => hw.trans hc.evolves)
    hi hs (.refl _) h

theorem calls_stay_closed {l : List Call} {t : Sid} {s s' : Db} {e : Uuid}
    (hi : discipline.Inv s) (hs : schema.Settled s) (hclosed : IsClosed s.rows e)
    (hmeet : CallsMeet Call.body (fun s a => ¬ FillsLastBucket s.rows a e) l t s)
    (h : calls Call.body l t s = some s') :
    IsClosed s'.rows e ∧
      posted Message.formedEvent s'.rows e = posted Message.formedEvent s.rows e := by
  induction l generalizing t s with
  | nil =>
      cases h
      exact ⟨hclosed, rfl⟩
  | cons a rest ih =>
      simp only [calls] at h
      split at h
      · cases h
      · rename_i r s₁ hcall
        obtain ⟨hi₁, hs₁, -⟩ := call_chain (verified _) hi hs hcall
        obtain ⟨hclosed₁, hpost₁⟩ := call_stays_closed hi hs hclosed hmeet.1 hcall
        obtain ⟨hclosed', hpost'⟩ := ih hi₁ hs₁ hclosed₁ (hmeet.2 r s₁ hcall) h
        exact ⟨hclosed', hpost'.trans hpost₁⟩

theorem initial_settled (profiles : List VolunteerProfile) : schema.Settled (Db.initial profiles) :=
  fun _ => rfl

theorem closed_event_stays_closed {profiles : List VolunteerProfile} {before after : List Call}
    {tenantId e : Uuid} {t : Sid} {r : Reply} {s₁ s₂ s₃ : Db}
    (hbefore : calls Call.body before 0 (Db.initial profiles) = some s₁)
    (hclose : (Call.body (.closeEvent tenantId e)).call t s₁ = some (.ok r, s₂))
    (hafter : calls Call.body after (t + 1) s₂ = some s₃)
    (hmeet : CallsMeet Call.body (fun s a => ¬ FillsLastBucket s.rows a e) after (t + 1) s₂) :
    (∃ ev, (e, ev) ∈ s₃.events.rows ∧ ev.status = .closed) ∧
      ∀ o row, (o, row) ∈ s₃.outbox.rows → row.payload.data.formedEvent = some e →
        (o, row) ∈ s₂.outbox.rows := by
  obtain ⟨hi₁, hs₁, -⟩ := calls_evolve (initial_inv profiles) (initial_settled profiles) hbefore
  obtain ⟨hi₂, hs₂, s', hx, hrows, -⟩ := call_chain (verified _) hi₁ hs₁ hclose
  have hrows' : s₂.rows = s'.rows := hrows
  have hclosed₂ : IsClosed s₂.rows e := by
    rw [hrows']
    exact closeEvent_closes hs₁ hx
  obtain ⟨hi₃, -, hev₃⟩ := calls_evolve hi₂ hs₂ hafter
  obtain ⟨⟨ev, hev, hst⟩, hpost⟩ := calls_stay_closed hi₂ hs₂ hclosed₂ hmeet hafter
  refine ⟨⟨ev, (mem_rows (Db.bounded hi₃.1).events).mpr hev, hst⟩, fun o row ho hformed => ?_⟩
  have ho₃ : s₃.rows.outbox o = some row := (mem_rows (Db.bounded hi₃.1).outbox).mp ho
  have hmem : o ∈ posted Message.formedEvent s₂.rows e := by
    rw [← hpost]
    exact ⟨row, ho₃, hformed⟩
  obtain ⟨row₂, ho₂, -⟩ := hmem
  rw [hev₃.outbox o row₂ ho₂] at ho₃
  cases ho₃
  exact (mem_rows (Db.bounded hi₂.1).outbox).mpr ho₂

/-- The first event is closed by tenant 1 between two sequences of calls.  The
answer holds the stores after the closing and at the end. -/
def closeBetween (n : Int) (hpos : 0 < n) (hle : n ≤ 1000) (after : List Call) :
    Option (Bool × Db × Db) :=
  match calls Call.body [.declareEvent 1 2 (flood n hpos hle), .runMatching 0,
      .acceptAssignment 0 7 100] 0 (Db.initial [boatDriver 7, boatDriver 8]) with
  | none => none
  | some s₁ =>
      match (Call.body (.closeEvent 1 0)).call 3 s₁ with
      | some (.ok _, s₂) => (calls Call.body after 4 s₂).map fun s₃ => (true, s₂, s₃)
      | _ => none

theorem closeBetween_some {n : Int} {hpos : 0 < n} {hle : n ≤ 1000} {after : List Call}
    {b : Bool} {s₂ s₃ : Db} (h : closeBetween n hpos hle after = some (b, s₂, s₃)) :
    ∃ before s₁ r, calls Call.body before 0 (Db.initial [boatDriver 7, boatDriver 8]) = some s₁ ∧
      (Call.body (.closeEvent 1 0)).call 3 s₁ = some (.ok r, s₂) ∧
      calls Call.body after 4 s₂ = some s₃ := by
  unfold closeBetween at h
  split at h
  · cases h
  · rename_i s₁ hbefore
    split at h
    · rename_i r s₂' hclose
      obtain ⟨s₃', hafter, heq⟩ := Option.map_eq_some_iff.mp h
      cases heq
      exact ⟨_, s₁, r, hbefore, hclose, hafter⟩
    · cases h

/-- Of three places one is taken before the closing and one after it. -/
theorem closed_event_stays_closed_flood :
    ∃ s₂ s₃, closeBetween 3 (by decide) (by decide) [.acceptAssignment 1 8 101] =
        some (true, s₂, s₃) ∧
      s₃.requirements.rows = [(0, ⟨0, "boat_driver", 3, 2, .opened⟩)] ∧
      ∃ ev, (0, ev) ∈ s₃.events.rows ∧ ev.status = .closed := by
  have hrun : (closeBetween 3 (by decide) (by decide) [.acceptAssignment 1 8 101]).map
      (fun x => (x.1, x.2.1.requirements.rows, x.2.2.requirements.rows)) =
      some (true, [(0, ⟨0, "boat_driver", 3, 1, .opened⟩)],
        [(0, ⟨0, "boat_driver", 3, 2, .opened⟩)]) := by
    decide +kernel
  obtain ⟨⟨b, s₂, s₃⟩, hsome, hrows⟩ := Option.map_eq_some_iff.mp hrun
  simp only [Prod.mk.injEq] at hrows
  obtain ⟨rfl, hrows₂, hrows₃⟩ := hrows
  obtain ⟨before, s₁, r, hbefore, hclose, hafter⟩ := closeBetween_some hsome
  obtain ⟨hi₁, hs₁, -⟩ := calls_evolve (initial_inv _) (initial_settled _) hbefore
  obtain ⟨hi₂, -⟩ := call_chain (verified _) hi₁ hs₁ hclose
  refine ⟨s₂, s₃, hsome, hrows₃, ?_⟩
  refine (closed_event_stays_closed hbefore hclose hafter ⟨?_, fun _ _ _ => trivial⟩).1
  intro hfill
  obtain ⟨k, user, now, row, q, -, hanswers, -, hlast, -⟩ := hfill
  have hmem := (mem_rows (Db.bounded hi₂.1).requirements).mpr hanswers.bucket
  rw [hrows₂, List.mem_singleton] at hmem
  have hq : q = ⟨0, "boat_driver", 3, 1, .opened⟩ := congrArg Prod.snd hmem
  rw [hq] at hlast
  exact absurd hlast (by decide)

theorem closed_event_reopened :
    ¬ ∀ (profiles : List VolunteerProfile) (before after : List Call) (tenantId e : Uuid)
      (t : Sid) (r : Reply) (s₁ s₂ s₃ : Db),
      calls Call.body before 0 (Db.initial profiles) = some s₁ →
      (Call.body (.closeEvent tenantId e)).call t s₁ = some (.ok r, s₂) →
      calls Call.body after (t + 1) s₂ = some s₃ →
      (∃ ev, (e, ev) ∈ s₃.events.rows ∧ ev.status = .closed) ∧
        ∀ o row, (o, row) ∈ s₃.outbox.rows → row.payload.data.formedEvent = some e →
          (o, row) ∈ s₂.outbox.rows := by
  intro hclaim
  have hrun : (closeBetween 2 (by decide) (by decide) [.acceptAssignment 1 8 101]).map
      (fun x => (x.1, x.2.1.formedRows 0, x.2.2.formedRows 0, x.2.2.events.rows)) =
      some (true, 0, 1, [(0, ⟨1, "Flood", "Colombo", .radiusL1, [], .teamFormed, 2⟩)]) := by
    decide +kernel
  obtain ⟨⟨b, s₂, s₃⟩, hsome, hrows⟩ := Option.map_eq_some_iff.mp hrun
  simp only [Prod.mk.injEq] at hrows
  obtain ⟨rfl, -, -, hevents⟩ := hrows
  obtain ⟨before, s₁, r, hbefore, hclose, hafter⟩ := closeBetween_some hsome
  obtain ⟨⟨ev, hev, hst⟩, -⟩ := hclaim _ before _ 1 0 3 r s₁ s₂ s₃ hbefore hclose hafter
  rw [hevents, List.mem_singleton] at hev
  cases hev
  cases hst

end Volunteer
end Rcp
