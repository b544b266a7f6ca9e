/-
The lifecycle of an assignment, in every run.

One list of what a commit does to a mapping (`MappingStep`) gives the automaton, the
owner who asked for the step and the event that goes with it.  That a call which raises
has changed nothing is a fact of the programs: each commits once, at the end, and only a
full quota is raised after the commit.
-/
import Rcp.Sql.Phases
import Rcp.Volunteer.Quota

namespace Rcp
namespace Volunteer

open Sql Sql.Table Relation

/-! ## The outcome of a call -/

theorem Answered.commit {a : Call} {w W : Rows} {k : Uuid} {refused : Prop}
    {r : Except Error Reply} (h : Answered k refused r w) (hc : Commit a w W) :
    Answered k refused r (W.overlay w) := by
  match r, h with
  | .ok _, ⟨m, hm, hst⟩ =>
      obtain ⟨m', hm', hsame⟩ := hc.evolves.mappings k m hm
      exact ⟨m', hm', hsame.counted hst⟩
  | .error (.quotaFullError _), hm => exact hc.rejectedFull hm
  | .error (.assignmentError _), .inl hno => exact .inl hno
  | .error (.assignmentError _), .inr ⟨m, hm, hst⟩ =>
      obtain ⟨m', hm', hsame⟩ := hc.evolves.mappings k m hm
      exact .inr ⟨m', hm', hsame.answered hst⟩

/-- What is known of an ended call. -/
def Concludes (refused : Prop) : Call → Except Error Reply → Rows → Prop
  | .acceptAssignment k _ _, r, w => Answered k refused r w
  | .transitionAssignment _ _ _ _, r, _ => Refuses r
  | _, _, _ => True

/-- `refused` tells the sessions whose user may not have the mapping. -/
@[reducible] def outcomes (refused : Sid → Prop) : Ensures schema policy Error Reply where
  Done t b r w := Concludes (refused t) b r w
  keep a w W _ b r _ hc hdone := by
    cases b with
    | acceptAssignment k user now => exact Answered.commit hdone hc
    | transitionAssignment => exact hdone
    | declareEvent | runMatching | rebroadcast | closeEvent => trivial

abbrev answering (refused : Sid → Prop) : Discipline Db Error Reply Call :=
  schema.discipline policy (outcomes refused)

theorem verified_outcomes (adm : Call → Db → Db → Db → Prop) :
    (answering fun _ => True).Verified adm Call.body := by
  intro a t s hi hidle
  have hs : Holding t .nothing s := ⟨hi.1, hi.2, hidle⟩
  have hends := verified adm a t s hi hidle
  cases a with
  | acceptAssignment k user now =>
      exact (safe_acceptAssignment k user now True hs fun _ => trivial).ensures
  | transitionAssignment k user new now =>
      exact (safe_transitionAssignment k user new now hs).ensures
  | declareEvent | runMatching | rebroadcast | closeEvent => exact hends.ensures

/-! ## Calls commit once -/

/-- What a call may raise after its commit. -/
def RaisedLate : Call → Error → Prop
  | .acceptAssignment _ _ _, .quotaFullError _ => True
  | .runMatching _, _ => False
  | _, .noResult => True
  | _, _ => False

section Once

variable {P : Error → Prop}

theorem eventsT_reflects : Reflects Db.rows Db.eventsT := by
  intro s T h
  simp only [Db.rows, Db.eventsT] at h ⊢
  rw [h]

theorem requirementsT_reflects : Reflects Db.rows Db.requirementsT := by
  intro s T h
  simp only [Db.rows, Db.requirementsT] at h ⊢
  rw [h]

theorem mappingsT_reflects : Reflects Db.rows Db.mappingsT := by
  intro s T h
  simp only [Db.rows, Db.mappingsT] at h ⊢
  rw [h]

theorem outboxT_reflects : Reflects Db.rows Db.outboxT := by
  intro s T h
  simp only [Db.rows, Db.outboxT] at h ⊢
  rw [h]

theorem still_emit (key : String) (tenant : Option Uuid) (d : Message) :
    (emit Db.outboxT key tenant d : Prog Db Error Uuid).Still Db.rows P :=
  still_insert outboxT_reflects _

theorem still_refresh {V : Type} (T : Access Db V) (k : Nat) (hP : P .noResult) :
    (refresh T k).Still Db.rows P := by
  refine still_bind (still_query _) fun v => ?_
  cases v with
  | none => exact hP
  | some v => trivial

theorem still_setEventStatus (e : Uuid) (loaded new : EventStatus) :
    (setEventStatus e loaded new).Still Db.rows P := by
  unfold setEventStatus
  split
  · trivial
  · exact still_bind (still_updateWhere eventsT_reflects _ _ _) fun _ => trivial

theorem still_insertRequirements (e : Uuid) (l : List RequirementCreate) :
    (insertRequirements e l).Still Db.rows P := by
  induction l with
  | nil => trivial
  | cons r rest ih => exact still_bind (still_insert requirementsT_reflects _) fun _ => ih

theorem still_planBuckets (e : Uuid) (event : DisasterEvent) (districts : List String)
    (l : List (Uuid × EventRequirement)) (mapped : List Uuid) :
    (planBuckets e event districts l mapped).Still Db.rows P := by
  induction l generalizing mapped with
  | nil => trivial
  | cons b rest ih =>
      unfold planBuckets
      split
      · exact ih mapped
      · refine still_bind (still_bind (still_query _) fun _ => trivial) fun volunteers => ?_
        exact still_bind (ih _) fun _ => trivial

theorem still_flushAdditions (xs : List Addition) :
    (flushAdditions xs).Still Db.rows fun _ => True := by
  induction xs with
  | nil => trivial
  | cons x rest ih =>
      refine still_bind (still_insertUnique mappingsT_reflects _ _) fun n => ?_
      cases n with
      | none => trivial
      | some n => exact still_bind (still_emit _ _ _) fun _ => ih

theorem still_teamMembers (l : List EventVolunteerMapping) :
    (teamMembers l).Still Db.rows fun _ => True := by
  induction l with
  | nil => trivial
  | cons m rest ih =>
      refine still_bind ?_ fun member => still_bind ih fun _ => trivial
      refine still_bind (still_query _) fun v => ?_
      cases v with
      | none => trivial
      | some v =>
          refine still_bind (still_query _) fun r => ?_
          cases r with
          | none => trivial
          | some r => trivial

theorem still_markRequirementFulfilled (r : Uuid) :
    (markRequirementFulfilled r).Still Db.rows fun _ => True := by
  refine still_bind (still_query _) fun q => ?_
  cases q with
  | none => trivial
  | some q =>
      refine still_bind (still_selectForUpdate eventsT_reflects _) fun ev => ?_
      cases ev with
      | none => trivial
      | some ev =>
          refine still_bind (still_updateWhere requirementsT_reflects _ _ _) fun _ => ?_
          refine still_bind (still_emit _ _ _) fun _ => ?_
          refine still_bind (still_query _) fun openLeft => ?_
          split
          · refine still_bind (still_query _) fun accepted => ?_
            refine still_bind (still_teamMembers _) fun team => ?_
            refine still_bind (still_setEventStatus _ _ _) fun _ => ?_
            exact still_bind (still_emit _ _ _) fun _ => trivial
          · trivial

theorem still_tenantEvent (tenantId e : Uuid) :
    (tenantEvent tenantId e).Still Db.rows fun _ => True := by
  refine still_bind (still_query _) fun ev => ?_
  cases ev with
  | none => trivial
  | some ev =>
      show Prog.Still Db.rows _ (if _ then _ else _)
      split
      · exact still_bind (still_query _) fun _ => trivial
      · trivial

theorem once_matchBuckets (e : Uuid) (event : DisasterEvent)
    (l : List (Uuid × EventRequirement)) : (matchBuckets e event l).Once Db.rows P := by
  unfold matchBuckets
  split
  · trivial
  · split
    · trivial
    · refine once_bind (still_query _) fun mapped => ?_
      refine once_bind (still_planBuckets _ _ _ _ _) fun additions => ?_
      refine once_bind (still_flushAdditions _) fun _ => ?_
      refine once_bind (still_setEventStatus _ _ _) fun _ => ?_
      exact once_commit trivial

theorem once_runMatching (loaded : Option (DisasterEvent × List (Uuid × EventRequirement)))
    (e : Uuid) : (runMatching loaded e).Once Db.rows P := by
  refine once_bind (still_selectForUpdate eventsT_reflects _) fun row => ?_
  cases row with
  | none => trivial
  | some row =>
      cases loaded with
      | none => exact once_bind (still_query _) fun _ => once_matchBuckets _ _ _
      | some loaded => exact once_matchBuckets _ _ _

theorem once_acceptAssignment (k user : Uuid) (now : Time) :
    (acceptAssignment k user now).Once Db.rows (RaisedLate (.acceptAssignment k user now)) := by
  refine once_bind (still_query _) fun m => ?_
  cases m with
  | none => trivial
  | some m =>
      refine once_bind (still_updateWhere mappingsT_reflects _ _ _) fun row => ?_
      cases row with
      | none => trivial
      | some row =>
          refine once_bind (still_updateWhere requirementsT_reflects _ _ _) fun q => ?_
          cases q with
          | none =>
              refine once_bind (still_updateWhere mappingsT_reflects _ _ _) fun _ => ?_
              exact once_commit trivial
          | some q =>
              have hrest : (commit >>= fun _ => refresh Db.mappingsT k >>= fun m =>
                  pure (.mapping k m) : Prog Db Error Reply).Once Db.rows
                    (RaisedLate (.acceptAssignment k user now)) :=
                once_commit (still_bind (still_refresh _ _ trivial) fun _ => trivial)
              show Prog.Once Db.rows _ (if _ then _ else _)
              split
              · exact once_bind (still_markRequirementFulfilled _) fun _ => hrest
              · exact hrest

theorem once_transitionAssignment (k user : Uuid) (new : AssignmentStatus) (now : Time) :
    (transitionAssignment k user new now).Once Db.rows
      (RaisedLate (.transitionAssignment k user new now)) := by
  unfold transitionAssignment
  split
  · trivial
  · refine once_bind (still_query _) fun m => ?_
    cases m with
    | none => trivial
    | some m =>
        refine once_bind (still_updateWhere mappingsT_reflects _ _ _) fun row => ?_
        cases row with
        | none => trivial
        | some row =>
            refine once_bind (still_query _) fun ev => ?_
            cases ev with
            | none => trivial
            | some ev =>
                refine once_bind (still_emit _ _ _) fun _ => ?_
                exact once_commit (still_bind (still_refresh _ _ trivial) fun _ => trivial)

theorem body_once (a : Call) : (Call.body a).Once Db.rows (RaisedLate a) := by
  cases a with
  | declareEvent tenantId createdBy data =>
      show Prog.Once Db.rows _ (Volunteer.declareEvent tenantId createdBy data)
      unfold Volunteer.declareEvent
      split
      · trivial
      · refine once_bind (still_insert eventsT_reflects _) fun e => ?_
        refine once_bind (still_insertRequirements _ _) fun _ => ?_
        refine once_bind (still_emit _ _ _) fun _ => ?_
        exact once_commit (still_bind (still_refresh _ _ trivial) fun _ => trivial)
  | runMatching e => exact once_then (once_runMatching _ _) fun _ => trivial
  | rebroadcast tenantId e =>
      refine once_bind (still_tenantEvent _ _) fun loaded => ?_
      show Prog.Once Db.rows _ (if _ then _ else _)
      split
      · trivial
      · refine once_then (once_runMatching _ _) fun _ => ?_
        exact still_bind (still_refresh _ _ trivial) fun _ => trivial
  | acceptAssignment k user now => exact once_acceptAssignment k user now
  | transitionAssignment k user new now => exact once_transitionAssignment k user new now
  | closeEvent tenantId e =>
      refine once_bind (still_tenantEvent _ _) fun loaded => ?_
      refine once_bind (still_setEventStatus _ _ _) fun _ => ?_
      exact once_commit (still_bind (still_refresh _ _ trivial) fun _ => trivial)

end Once

/-! ## Steps of a run -/

section Steps

variable {profiles : List VolunteerProfile} {c c' : Cluster} {t : Sid}

theorem run_outcomes (h : Run Call.body (Config.start (Db.initial profiles)) c) :
    c.Sound (answering fun _ => True) fun _ _ _ _ => True :=
  h.sound (verified_outcomes _) (Config.start_sound (initial_inv profiles) fun _ => rfl)

/-- A step keeps the committed rows, or publishes what its call may commit. -/
theorem step_commits (h : Run Call.body (Config.start (Db.initial profiles)) c)
    (hstep : Step Call.body c t c') :
    c'.store.rows = c.store.rows ∨ ∃ se W, c.sessions t = some se ∧
      Commit se.call c.store.rows W ∧ c'.store.rows = W.overlay c.store.rows := by
  have hsound := h.sound (verified _) (start_sound _ profiles)
  rcases (hstep.sound (verified _) hsound fun _ _ => trivial).2 with heq | ⟨se, hse, hg⟩
  · rw [heq]
    exact .inl rfl
  · rcases hg.2 with heq | ⟨hc, heq⟩
    · exact .inl heq
    · exact .inr ⟨se, _, hse, hc, heq⟩

theorem run_evolves (h : Run Call.body (Config.start (Db.initial profiles)) c)
    (hrun : Run Call.body c c') : Evolves c.store.rows c'.store.rows := by
  induction hrun with
  | refl => exact .refl _
  | tail hrun hstep ih =>
      obtain ⟨t, hs⟩ := hstep
      rcases step_commits (ReflTransGen.trans h hrun) hs with heq | ⟨se, W, -, hc, heq⟩
      · rw [heq]
        exact ih
      · rw [heq]
        exact ih.trans hc.evolves

/-- The call asks to move mapping `k` to the given status, in the name of a user. -/
inductive Asks (k user : Uuid) : AssignmentStatus → Call → Prop
  | accept (now : Time) {st : AssignmentStatus} (h : st = .accepted ∨ st = .rejectedFull) :
      Asks k user st (.acceptAssignment k user now)
  | move (st : AssignmentStatus) (now : Time) :
      Asks k user st (.transitionAssignment k user st now)

/-- What a step of session `t` may do to mapping `k`. -/
structure Follows (c c' : Cluster) (t : Sid) (k : Uuid) (m m' : EventVolunteerMapping) :
    Prop where
  edge : AssignmentStatus.Edge m.status m'.status
  asked : ∃ se v, c.sessions t = some se ∧ c.store.profiles.committed m.volunteerId = some v ∧
    Asks k v.userId m'.status se.call
  /-- DECLINED, EN_ROUTE and COMPLETED go with one event, the others with none of theirs. -/
  event : m'.status = .declined ∨ m'.status = .enRoute ∨ m'.status = .completed →
    ∃ o ev v, c.store.outbox.committed o = none ∧
      c.store.events.committed m.eventId = some ev ∧
      c.store.profiles.committed m.volunteerId = some v ∧
      c'.store.outbox.committed = Function.update c.store.outbox.committed o
        (some (outboxRow (transitionKey m'.status) (some ev.tenantId)
          (.assignmentMoved m.eventId m.requirementId v.userId m'.status) o))

theorem over_outbox_single {W w : Rows} {o : Uuid} {row : Outbox Message}
    (hW : W.outbox = single o row) :
    (W.overlay w).outbox = Function.update w.outbox o (some row) := by
  funext j
  by_cases hj : j = o
  · subst hj
    simp [Rows.overlay, hW, single_self]
  · simp [Rows.overlay, hW, single_of_ne _ hj, hj]

theorem MappingStep.follows {se : Session Db Error Reply Call} {W : Rows} {k : Uuid}
    {m m' : EventVolunteerMapping} (h : MappingStep se.call c.store.rows W k m m')
    (hse : c.sessions t = some se) (hrows : c'.store.rows = W.overlay c.store.rows) :
    m' = m ∨ Follows c c' t k m m' := by
  cases h with
  | kept => exact .inl rfl
  | @accepted user now ha hm howned =>
      right
      obtain ⟨v, hv, rfl⟩ := howned
      refine ⟨hm ▸ .accept, ⟨se, v, hse, hv, ?_⟩, fun h => ?_⟩
      · rw [ha]
        exact .accept now (.inl rfl)
      · simp [setMapping] at h
  | @rejected user now ha hm howned hW =>
      right
      obtain ⟨v, hv, rfl⟩ := howned
      refine ⟨hm ▸ .turnAway, ⟨se, v, hse, hv, ?_⟩, fun h => ?_⟩
      · rw [ha]
        exact .accept now (.inr rfl)
      · simp [setMapping] at h
  | @moved user new now allowedFrom ev o ha hnew hm howned hev ho hW =>
      right
      obtain ⟨v, hv, rfl⟩ := howned
      refine ⟨transitions_edge hnew hm, ⟨se, v, hse, hv, ?_⟩, fun _ => ?_⟩
      · rw [ha]
        exact .move new now
      · refine ⟨o, ev, v, ho, hev, hv, ?_⟩
        have hout : c'.store.rows.outbox = (W.overlay c.store.rows).outbox := by rw [hrows]
        exact hout.trans (over_outbox_single (by rw [hW]; rfl))

/-- A mapping after a step is new and NOTIFIED, as it was, or one step further. -/
theorem step_mapping (h : Run Call.body (Config.start (Db.initial profiles)) c)
    (hstep : Step Call.body c t c') {k : Uuid} {m' : EventVolunteerMapping}
    (hm' : c'.store.mappings.committed k = some m') :
    (c.store.mappings.committed k = none ∧ m'.status = .notified) ∨
      ∃ m, c.store.mappings.committed k = some m ∧ (m' = m ∨ Follows c c' t k m m') := by
  have hrow' : c'.store.rows.mappings k = some m' := hm'
  rcases step_commits h hstep with heq | ⟨se, W, hse, hc, heq⟩
  · rw [heq] at hrow'
    exact .inr ⟨m', hrow', .inl rfl⟩
  · cases hm : c.store.mappings.committed k with
    | none =>
        rw [heq] at hrow'
        rcases hc.mapping_origin hrow' with ⟨m₀, hm₀, -⟩ | ⟨e, -, hM, hnew⟩
        · cases hm.symm.trans hm₀
        · exact .inl ⟨rfl, (hM.row k m' hnew).2.2⟩
    | some m =>
        have hover : (W.overlay c.store.rows).mappings k = some m' := heq ▸ hrow'
        exact .inr ⟨m, rfl, (hc.mapping_step hm hover).follows hse heq⟩

/-- No mapping is lost. -/
theorem step_mapping_stays (h : Run Call.body (Config.start (Db.initial profiles)) c)
    (hstep : Step Call.body c t c') {k : Uuid} {m : EventVolunteerMapping}
    (hm : c.store.mappings.committed k = some m) :
    ∃ m', c'.store.mappings.committed k = some m' := by
  rcases step_commits h hstep with heq | ⟨se, W, hse, hc, heq⟩
  · have hrow : c'.store.rows.mappings k = some m := heq ▸ hm
    exact ⟨m, hrow⟩
  · obtain ⟨m', hm', -⟩ := hc.evolves.mappings k m hm
    have hrow : c'.store.rows.mappings k = some m' := heq ▸ hm'
    exact ⟨m', hrow⟩

/-- DECLINED, REJECTED_FULL and COMPLETED. -/
def AssignmentStatus.final : AssignmentStatus → Bool
  | .declined | .rejectedFull | .completed => true
  | .notified | .accepted | .enRoute => false

theorem AssignmentStatus.Edge.not_final {st st' : AssignmentStatus} (h : Edge st st') :
    st.final = false := by
  cases h <;> rfl

theorem run_final_stays (h : Run Call.body (Config.start (Db.initial profiles)) c)
    (hrun : Run Call.body c c') {k : Uuid} {m : EventVolunteerMapping}
    (hm : c.store.mappings.committed k = some m) (hfinal : m.status.final = true) :
    c'.store.mappings.committed k = some m := by
  induction hrun with
  | refl => exact hm
  | tail hrun hstep ih =>
      obtain ⟨t, hs⟩ := hstep
      have hreach := ReflTransGen.trans h hrun
      obtain ⟨m', hm'⟩ := step_mapping_stays hreach hs ih
      rcases step_mapping hreach hs hm' with ⟨hnone, -⟩ | ⟨m₀, hm₀, hstep⟩
      · cases ih.symm.trans hnone
      · cases ih.symm.trans hm₀
        rcases hstep with rfl | hfollows
        · exact hm'
        · rw [hfollows.edge.not_final] at hfinal
          cases hfinal

/-- The calls of the matching engine. -/
def Call.engine : Call → Bool
  | .runMatching _ | .acceptAssignment _ _ _ | .transitionAssignment _ _ _ _ => true
  | .declareEvent _ _ _ | .rebroadcast _ _ | .closeEvent _ _ => false

/-- Of what an engine call may raise after its commit only the full quota is raised. -/
theorem raisedLate_quotaFull {a : Call} {e : Error} {w : Rows} (ha : a.engine = true)
    (hlate : RaisedLate a e) (hdone : Concludes True a (.error e) w) :
    ∃ k user now text, a = .acceptAssignment k user now ∧ e = .quotaFullError text ∧
      ∃ m, w.mappings k = some m ∧ m.status = .rejectedFull := by
  cases a with
  | declareEvent | rebroadcast | closeEvent => cases ha
  | runMatching => exact hlate.elim
  | acceptAssignment k user now =>
      cases e with
      | quotaFullError text => exact ⟨k, user, now, text, rfl, rfl, hdone⟩
      | noResult => exact hdone.elim
      | assignmentError | valueError | httpException | integrityError => exact hlate.elim
  | transitionAssignment =>
      cases e with
      | noResult => exact hdone.elim
      | assignmentError | quotaFullError | valueError | httpException | integrityError =>
          exact hlate.elim

/-- The only commit of an acceptance whose mapping ends REJECTED_FULL. -/
theorem Commit.rejects {k user : Uuid} {now : Time} {w W : Rows}
    (h : Commit (.acceptAssignment k user now) w W)
    (hend : ∀ m, (W.overlay w).mappings k = some m → m.status.counted = false) :
    ∃ m, w.mappings k = some m ∧
      W = .writing noRows noRows (single k (setMapping .rejectedFull now m)) noRows := by
  have haccepted : ∀ row, W.mappings ≠ single k (setMapping .accepted now row) := by
    intro row hW
    have hcount := hend (setMapping .accepted now row) (by simp [Rows.overlay, hW, single_self])
    cases hcount
  cases h with
  | matched _ ha => rcases ha with ⟨h, -⟩ | ⟨⟨_, h⟩, -⟩ <;> cases h
  | rejected h => exact ⟨_, h.mapping, rfl⟩
  | accepted h | fulfilled h => exact absurd rfl (haccepted _)
  | formed h => exact absurd rfl (haccepted _)

theorem over_mapping_single {w : Rows} {k : Uuid} {m : EventVolunteerMapping} :
    (Rows.writing noRows noRows (single k m) noRows).overlay w =
      { w with mappings := Function.update w.mappings k (some m) } := by
  have hM : ∀ j, (single k m j).or (w.mappings j) =
      Function.update w.mappings k (some m) j := by
    intro j
    by_cases hj : j = k
    · subst hj
      simp [single_self]
    · simp [single_of_ne _ hj, hj]
  simp only [Rows.overlay, Rows.writing, noRows, Option.none_or]
  congr 1
  exact funext hM

/-- A step of a call that raises changes nothing, except that a full quota turns the one
mapping away. -/
theorem step_of_raised (h : Run Call.body (Config.start (Db.initial profiles)) c)
    (hstep : Step Call.body c t c') {c'' : Cluster} (hrun : Run Call.body c' c'') {a : Call}
    {e : Error} (ha : a.engine = true) (hlog : (t, a, .error e) ∈ c''.log) :
    c'.store.rows = c.store.rows ∨
      ∃ k user now text m, a = .acceptAssignment k user now ∧ e = .quotaFullError text ∧
        c.store.mappings.committed k = some m ∧
        c'.store.rows = { c.store.rows with
          mappings := Function.update c.store.mappings.committed k
            (some (setMapping .rejectedFull now m)) } := by
  by_cases hsame : c'.store.rows = c.store.rows
  · exact .inl hsame
  right
  have hlogged := h.logged (Config.start_logged _)
  have hphased := h.phased body_once (Config.start_phased _)
  obtain ⟨se', hse', hmoved⟩ := hstep.moved (fun _ _ => rfl) hlogged hphased hsame
  obtain ⟨hcall, hlate⟩ := (hrun.moved hmoved).ended a _ hlog
  have hreach := (h.tail ⟨t, hstep⟩).trans hrun
  have hdone : Concludes True a (.error e) c''.store.rows := (run_outcomes hreach).log _ hlog
  rw [← hcall] at hlate
  obtain ⟨k, user, now, text, rfl, rfl, m'', hm'', hst''⟩ :=
    raisedLate_quotaFull ha (hlate e rfl) hdone
  obtain heq | ⟨se, W, hse, hc, heq⟩ := step_commits h hstep
  · exact absurd heq hsame
  cases hse.symm.trans hse'
  rw [← hcall] at hc
  have hend : ∀ m, (W.overlay c.store.rows).mappings k = some m → m.status.counted = false := by
    intro m hm
    by_contra hcount
    have hcount' : m.status.counted = true := by simpa using hcount
    have hrow' : c'.store.rows.mappings k = some m := heq ▸ hm
    obtain ⟨m₂, hm₂, hsame₂⟩ := (run_evolves (h.tail ⟨t, hstep⟩) hrun).mappings k m hrow'
    cases hm₂.symm.trans hm''
    have hcounted := hsame₂.counted hcount'
    rw [hst''] at hcounted
    cases hcounted
  obtain ⟨m, hm, rfl⟩ := hc.rejects hend
  refine ⟨k, user, now, text, m, rfl, rfl, hm, ?_⟩
  rw [heq, over_mapping_single]
  rfl

theorem assignment_lifecycle (h : Run Call.body (Config.start (Db.initial profiles)) c) :
    (∀ t c', Step Call.body c t c' →
      (∀ k m, c.store.mappings.committed k = some m →
        ∃ m', c'.store.mappings.committed k = some m') ∧
      (∀ k m', c'.store.mappings.committed k = some m' →
        (c.store.mappings.committed k = none ∧ m'.status = .notified) ∨
          ∃ m, c.store.mappings.committed k = some m ∧ (m' = m ∨ Follows c c' t k m m')) ∧
      (∀ c'' a e, Run Call.body c' c'' → a.engine = true → (t, a, .error e) ∈ c''.log →
        c'.store.rows = c.store.rows ∨
          ∃ k user now text m, a = .acceptAssignment k user now ∧ e = .quotaFullError text ∧
            c.store.mappings.committed k = some m ∧
            c'.store.rows = { c.store.rows with
              mappings := Function.update c.store.mappings.committed k
                (some (setMapping .rejectedFull now m)) })) ∧
    (∀ c', Run Call.body c c' → ∀ k m, c.store.mappings.committed k = some m →
      m.status.final = true → c'.store.mappings.committed k = some m) ∧
    (∀ t k user now text, (t, .acceptAssignment k user now, .error (.quotaFullError text)) ∈ c.log →
      ∃ m, c.store.mappings.committed k = some m ∧ m.status = .rejectedFull) := by
  refine ⟨fun t c' hstep => ⟨?_, ?_, ?_⟩, ?_, ?_⟩
  · intro k m hm
    exact step_mapping_stays h hstep hm
  · intro k m' hm'
    exact step_mapping h hstep hm'
  · intro c'' a e hrun ha hlog
    exact step_of_raised h hstep hrun ha hlog
  · intro c' hrun k m hm hfinal
    exact run_final_stays h hrun hm hfinal
  · intro t k user now text hlog
    have hdone : Concludes True (.acceptAssignment k user now)
        (.error (.quotaFullError text)) c.store.rows := (run_outcomes h).log _ hlog
    exact hdone

end Steps

/-- A volunteer is notified and about to commit that they decline. -/
def declining : List (Move Call) :=
  List.flatten
    [ .begin (.declareEvent 1 2 (flood 2 two_pos_places two_le_places)) :: List.replicate 5 (.next 0),
      .close 0 :: .begin (.runMatching 0) :: List.replicate 8 (.next 1),
      .close 1 :: .begin (.transitionAssignment 0 7 .declined 100) :: List.replicate 4 (.next 2) ]

theorem assignment_lifecycle_declined : ∃ c c' : Cluster,
    Run Call.body (Config.start (Db.initial [boatDriver 7])) c ∧ Step Call.body c 2 c' ∧
      ∃ m m', m.status = .notified ∧ m'.status = .declined ∧ Follows c c' 2 0 m m' := by
  have hplay : ((Config.start (Db.initial [boatDriver 7])).play Call.body declining).map
      (fun c => (c.store.mappings.committed 0,
        (c.move Call.body (.next 2)).map fun c' => c'.store.mappings.committed 0)) =
      some (some ⟨0, 0, 0, .notified, none⟩, some (some ⟨0, 0, 0, .declined, some 100⟩)) := by
    decide +kernel
  obtain ⟨c, hc, hrows⟩ := Option.map_eq_some_iff.mp hplay
  obtain ⟨hm, hmove⟩ := Prod.mk.inj hrows
  obtain ⟨c', hc', hm'⟩ := Option.map_eq_some_iff.mp hmove
  have hrun := Config.play_run hc
  have hstep : Step Call.body c 2 c' := Config.move_step hc'
  refine ⟨c, c', hrun, hstep, ⟨0, 0, 0, .notified, none⟩, ⟨0, 0, 0, .declined, some 100⟩,
    rfl, rfl, ?_⟩
  rcases ((assignment_lifecycle hrun).1 2 c' hstep).2.1 0 _ hm' with ⟨hnone, -⟩ | ⟨m, hm₀, hor⟩
  · cases hm.symm.trans hnone
  · cases hm.symm.trans hm₀
    rcases hor with heq | hfollows
    · cases heq
    · exact hfollows

end Volunteer
end Rcp
