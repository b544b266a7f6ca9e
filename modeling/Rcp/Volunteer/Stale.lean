/-
Rebroadcasts decide on what they loaded first.

A rebroadcast loads the event with its requirements, and `run_matching` locks the
event's row afterwards without refreshing them.  So it may set a TEAM_FORMED or CLOSED
event that it loaded as DECLARED back to BROADCASTING, and notify volunteers for a
requirement that has been FULFILLED meanwhile.  It does neither when, at its commit, no
such change lies between the load and the commit.  From the lock to the commit the
event's row stands still, and a FULFILLED requirement stays so: what is said below of
the rows before the commit holds of the rows when the lock was obtained.
-/
import Rcp.Volunteer.Lifecycle

namespace Rcp
namespace Volunteer

open Sql Sql.Table Relation

/-- The event was loaded as DECLARED and its team is formed or it is closed. -/
def StaleEvent (e : Uuid) (s₀ s : Db) : Prop :=
  ∃ ev₀ ev, s₀.events.committed e = some ev₀ ∧ s.events.committed e = some ev ∧
    ev₀.status = .declared ∧ (ev.status = .teamFormed ∨ ev.status = .closed)

/-- A requirement of the event was loaded as OPEN and is FULFILLED. -/
def StaleRequirement (e : Uuid) (s₀ s : Db) : Prop :=
  ∃ r q₀ q, s₀.requirements.committed r = some q₀ ∧ s.requirements.committed r = some q ∧
    q₀.eventId = e ∧ q₀.status = .opened ∧ q.status = .fulfilled

/-- When a rebroadcast publishes something, what it has loaded is not stale. -/
def LoadsFresh (a : Call) (s₀ s s' : Db) : Prop :=
  ∀ tenantId e, a = .rebroadcast tenantId e → s'.rows ≠ s.rows →
    ¬ StaleEvent e s₀ s ∧ ¬ StaleRequirement e s₀ s

/-! ## A narrower policy -/

/-- The requirement is not FULFILLED. -/
def Unfilled (w : Rows) (r : Uuid) : Prop :=
  ∀ q, w.requirements r = some q → q.status ≠ .fulfilled

/-- What a rebroadcast of event `e` should publish. -/
structure Careful (e : Uuid) (w W : Rows) : Prop where
  others : ∀ e', e' ≠ e → W.events e' = none
  event : ∀ ev ev', w.events e = some ev → ev.status = .teamFormed ∨ ev.status = .closed →
    W.events e = some ev' → ev'.status = ev.status
  mappings : ∀ k m, W.mappings k = some m → Unfilled w m.requirementId
  notices : ∀ o row r, W.outbox o = some row →
    row.payload.data.notifiedRequirement = some r → Unfilled w r

@[reducible] def careful : Policy Rows Call where
  Commit a w W := Commit a w W ∧ ∀ tenantId e, a = .rebroadcast tenantId e → Careful e w W
  WellFormed := WellFormed

theorem careful_narrows : careful.Narrows policy := ⟨rfl, fun _ _ _ h => h.1⟩

theorem careful_lawful : careful.Lawful schema := fun _ _ _ hc hw => hc.1.wellFormed hw

abbrev vigilance : Discipline Db Error Reply Call :=
  schema.discipline careful (.nothing schema careful)

section

variable {adm : Db → Db → Prop} {a : Call} {t : Sid} {s : Db}

/-! ## What was loaded -/

/-- A requirement of an event that was there before was there with it. -/
theorem Drift.requirement_origin {W w w' : Rows} (h : Drift W w w') {e r : Uuid}
    {ev : DisasterEvent} (hev : w.events e = some ev) {q' : EventRequirement}
    (hq' : w'.requirements r = some q') (he : q'.eventId = e) :
    ∃ q, w.requirements r = some q ∧ SameBucket q q' := by
  induction h generalizing q' with
  | refl => exact ⟨q', hq', .refl q'⟩
  | step hd _ hc _ ih =>
      rcases hc.requirement_origin hq' with ⟨q₁, hq₁, hsame⟩ | ⟨-, hnone, -⟩
      · obtain ⟨q, hq, hsame₁⟩ := ih hq₁ (hsame.event.symm.trans he)
        exact ⟨q, hq, hsame₁.trans hsame⟩
      · obtain ⟨st, hst⟩ := (Drift.evolves hd).events e ev hev
        rw [he, hst] at hnone
        cases hnone

/-- The event and requirements that a session has loaded from the rows `w`. -/
structure Loaded (w : Rows) (e : Uuid) (x : DisasterEvent × List (Uuid × EventRequirement)) :
    Prop where
  event : w.events e = some x.1
  buckets : ∀ r q, (r, q) ∈ x.2 → q.status = .opened →
    ∃ q₀, w.requirements r = some q₀ ∧ q₀.eventId = e ∧ q₀.status = .opened

theorem safe_tenantEvent_loaded {tenantId e : Uuid} (hs : Holding t .nothing s) :
    Safe discipline adm a t (Returns fun x u => Holding t .nothing u ∧
      BucketsOf u.rows e x.2 ∧ Loaded s.rows e x) (tenantEvent tenantId e) s := by
  refine safe_selectKey Column.events hs fun u hu => ?_
  split
  · trivial
  · rename_i event hevent
    have hev : s.rows.events e = some event := hevent
    show Safe discipline adm a t _ (if _ then _ else _) u
    split
    · refine safe_query hu.toHolding fun v hv => ?_
      have hb := bucketsOf_select hu.toHolding rfl e
      refine ⟨hv.toHolding, hb.evolves (Drift.evolves hv.drift), hev, fun r q hrq hst => ?_⟩
      obtain ⟨hmem, hqe⟩ := List.mem_filter.mp hrq
      have hread := (mem_scan (Db.bounded hu.bounded).requirements).mp hmem
      have hunwritten : u.requirements.writes t r = none :=
        congrFun (congrArg Rows.requirements hu.writes) r
      rw [read_of_not_written hunwritten] at hread
      have hqe' : q.eventId = e := by simpa using hqe
      obtain ⟨q₀, hq₀, hsame⟩ := Drift.requirement_origin hu.drift hev hread hqe'
      refine ⟨q₀, hq₀, hsame.event.symm.trans hqe', ?_⟩
      cases hst₀ : q₀.status with
      | opened => rfl
      | fulfilled =>
          have hfull := hsame.fulfilled hst₀
          rw [hst] at hfull
          cases hfull
    · trivial

/-! ## The commit of a rebroadcast -/

/-- The status that goes with the commit. -/
def resultingStatus (loaded current : EventStatus) : EventStatus :=
  if loaded = .broadcasting then current else .broadcasting

/-- What a rebroadcast publishes is careful if it changes nothing, or if nothing that was
loaded is stale. -/
theorem careful_of_fresh {e : Uuid} {s₀ : Db} {ev : DisasterEvent}
    {x : DisasterEvent × List (Uuid × EventRequirement)}
    {M : Nat → Option EventVolunteerMapping} {O : Nat → Option (Outbox Message)}
    (hloaded : Loaded s₀.rows e x) (hopen : x.1.status = .declared ∨ x.1.status = .broadcasting)
    (hev : s.rows.events e = some ev) (hM : NewMappings s.rows e M)
    (hO : Posts s.rows O Message.Plain) (hadded : Added (fun y => y.For x.2) M O)
    (hfresh : Rows.overlay (.writing (single e { ev with
        status := resultingStatus x.1.status ev.status }) noRows M O) s.rows ≠ s.rows →
      ¬ StaleEvent e s₀ s ∧ ¬ StaleRequirement e s₀ s) :
    Careful e s.rows (.writing (single e { ev with
      status := resultingStatus x.1.status ev.status }) noRows M O) := by
  by_cases hsame : Rows.overlay (.writing (single e { ev with
      status := resultingStatus x.1.status ev.status }) noRows M O) s.rows = s.rows
  · -- a new row would be a change
    refine ⟨fun e' he' => single_of_ne _ he', fun ev₁ ev' hev₁ _ hev' => ?_, fun k m hk => ?_,
      fun o row r ho _ => ?_⟩
    · have hrow := congrArg (fun w : Rows => w.events e) hsame
      have hnew : Rows.events (.writing (single e { ev with
          status := resultingStatus x.1.status ev.status }) noRows M O) e = some ev' := hev'
      simp only [Rows.overlay, hnew, Option.some_or] at hrow
      rw [hev₁] at hrow
      cases hrow
      rfl
    · have hrow := congrArg (fun w : Rows => w.mappings k) hsame
      have hk' : M k = some m := hk
      simp only [Rows.overlay, Rows.writing, hk', Option.some_or] at hrow
      rw [(hM.row k m hk').1] at hrow
      cases hrow
    · have hrow := congrArg (fun w : Rows => w.outbox o) hsame
      have ho' : O o = some row := ho
      simp only [Rows.overlay, Rows.writing, ho', Option.some_or] at hrow
      rw [(hO o row ho').1] at hrow
      cases hrow
  · obtain ⟨hevent, hbucket⟩ := hfresh hsame
    have hunfilled : ∀ y : Addition, y.For x.2 → ∀ r, y.notice.notifiedRequirement = some r →
        Unfilled s.rows r := by
      rintro y ⟨r', q', hmem, hst', -, hnotice⟩ r hr q hq hfull
      cases hnotice.symm.trans hr
      obtain ⟨q₀, hq₀, hqe, hst₀⟩ := hloaded.buckets r' q' hmem hst'
      exact hbucket ⟨r', q₀, q, hq₀, hq, hqe, hst₀, hfull⟩
    refine ⟨fun e' he' => single_of_ne _ he', fun ev₁ ev' hev₁ hover hev' => ?_, fun k m hk => ?_,
      fun o row r ho hr => ?_⟩
    · cases hev₁.symm.trans hev
      have hev'' : single e { ev with status := resultingStatus x.1.status ev.status } e =
          some ev' := hev'
      rw [single_self] at hev''
      cases hev''
      show resultingStatus x.1.status ev.status = ev.status
      rcases hopen with hst | hst
      · exact absurd ⟨x.1, ev, hloaded.event, hev, hst, hover⟩ hevent
      · rw [hst]
        rfl
    · obtain ⟨y, hy, rfl⟩ := hadded.mappings k m hk
      obtain ⟨r', q', hmem, hst', hr', hnotice⟩ := hy
      rw [hr']
      exact hunfilled y ⟨r', q', hmem, hst', hr', hnotice⟩ r' hnotice
    · obtain ⟨y, hy, hdata⟩ := hadded.notices o row ho
      rw [hdata] at hr
      exact hunfilled y hy r hr

theorem careful_matchBuckets {tenantId e : Uuid} {s₀ : Db} {ev : DisasterEvent}
    {x : DisasterEvent × List (Uuid × EventRequirement)}
    (hs : Broadcast t e ev noRows noRows s) (hl : BucketsOf s.rows e x.2)
    (hloaded : Loaded s₀.rows e x)
    (hopen : x.1.status = .declared ∨ x.1.status = .broadcasting) :
    Safe vigilance (LoadsFresh (.rebroadcast tenantId e) s₀) (.rebroadcast tenantId e) t
      (Returns fun _ u => ∃ W, Holding t W u) (matchBuckets e x.1 x.2) s := by
  unfold matchBuckets
  split
  · exact ⟨_, hs.toHolding⟩
  · split
    · trivial
    · refine safe_query (careful_narrows.holding hs.toHolding) fun s₁ h₁ => ?_
      obtain ⟨h₁, hev₁⟩ := hs.keep (careful_narrows.resumed h₁)
      refine safe_returns_bind (Safe.narrow_still careful_narrows
        (still_planBuckets (P := fun _ => True) _ _ _ _ _)
        (safe_planBuckets x.2 _ h₁ (hl.evolves hev₁))) ?_
      intro xs s₂ h₂
      obtain ⟨h₂, -, hxs⟩ := h₂
      refine safe_returns_bind (Safe.narrow_still careful_narrows (still_flushAdditions xs)
        (safe_flushAdditions xs h₂ (added_nothing _) hxs)) ?_
      intro _ s₃ h₃
      obtain ⟨M, O, h₃, hadded⟩ := h₃
      refine safe_returns_bind (R := fun _ u => Holding t (.writing (single e { ev with
          status := resultingStatus x.1.status ev.status }) noRows M O) u ∧
        u.rows.events e = some ev ∧ NewMappings u.rows e M ∧ Posts u.rows O Message.Plain) ?_ ?_
      · unfold setEventStatus resultingStatus
        split
        · exact ⟨h₃.toHolding, h₃.event, h₃.mappings, h₃.notices⟩
        · refine safe_update Column.events (careful_narrows.holding h₃.toHolding)
            (.free fun _ => trivial) (fun hno => ?_) fun v hv _ s₄ h₄ => ?_
          · have := hno ev (by simp [Rows.writing, single_self])
            cases this
          · have hve : v = ev := by
              simpa [Rows.overlay, Rows.writing, single_self, eq_comm] using hv
            subst hve
            have h₄' : Resumed t (.writing (Function.update (single e v) e
                (some { v with status := .broadcasting })) noRows M O) s₃.rows s₄ :=
              careful_narrows.resumed h₄
            rw [update_single] at h₄'
            exact ⟨h₄'.toHolding,
              h₄'.locked Column.events (k := e) (single_self _ _) h₃.event,
              h₃.mappings.drift h₄'.drift (single_self _ _) rfl,
              h₃.notices.drift h₄'.drift rfl⟩
      · intro _ u hu
        obtain ⟨hu, hev, hM, hO⟩ := hu
        refine safe_commit careful_lawful (careful_narrows.holding hu) (fun hadm => .inl ?_)
          fun v hv => ⟨_, (careful_narrows.resumed hv).toHolding⟩
        refine ⟨.matched hev (.inr ⟨⟨tenantId, rfl⟩, ?_⟩) hM hO, fun tenantId' e' heq => ?_⟩
        · unfold resultingStatus
          split
          · exact .inl rfl
          · exact .inr rfl
        · cases heq
          refine careful_of_fresh hloaded hopen hev hM hO hadded fun hchanged => ?_
          refine hadm tenantId e rfl ?_
          have hrows : (Transactional.commit t u).rows = _ := schema.commit_rows t u
          rw [hrows, show schema.writes t u = _ from hu.writes]
          exact hchanged

theorem careful_rebroadcast (tenantId e : Uuid) (hs : Holding t .nothing s) :
    Safe vigilance (LoadsFresh (.rebroadcast tenantId e) s) (.rebroadcast tenantId e) t Ends
      (rebroadcast tenantId e) s := by
  refine safe_bind (Safe.narrow_still careful_narrows (still_tenantEvent _ _)
    (safe_tenantEvent_loaded hs)) ?_
  intro x s₁ h₁
  obtain ⟨h₁, hl, hloaded⟩ := h₁
  show Safe vigilance _ _ t Ends (if _ then _ else _) s₁
  split
  · trivial
  · rename_i hst
    have hopen : x.1.status = .declared ∨ x.1.status = .broadcasting := by
      by_contra hno
      exact hst (not_or.mp hno)
    refine safe_bind (R := fun _ u => ∃ W, Holding t W u) ?_ fun _ u hu => ?_
    · refine safe_forUpdate Column.events (careful_narrows.holding h₁) (.free fun _ => trivial)
        ?_ ?_
      · intro _ u hu
        exact ⟨_, (careful_narrows.resumed hu).toHolding⟩
      · intro ev hev s₂ h₂
        have h₂' := careful_narrows.resumed h₂
        exact careful_matchBuckets (.locked h₂' hev) (hl.evolves (Drift.evolves h₂'.drift))
          hloaded hopen
    · obtain ⟨W, hu⟩ := hu
      refine Safe.narrow_still (X := fun _ => True) careful_narrows ?_ (safe_refresh _ _ _ hu)
      exact still_bind (still_refresh _ _ trivial) fun _ => trivial

theorem verified_careful : vigilance.Verified LoadsFresh Call.body := by
  intro a t s hi hidle
  have hs : Holding t .nothing s := ⟨hi.1, hi.2, hidle⟩
  have hsafe := verified LoadsFresh a t s hi hidle
  have hother : (∀ tenantId e, a ≠ .rebroadcast tenantId e) →
      Safe vigilance (LoadsFresh a s) a t Ends (Call.body a) s := by
    intro hne
    refine hsafe.narrow careful_narrows fun w W hc => ⟨hc, fun tenantId e heq => ?_⟩
    exact absurd heq (hne tenantId e)
  show Safe vigilance _ a t Ends _ s
  cases a with
  | rebroadcast tenantId e => exact careful_rebroadcast tenantId e hs
  | declareEvent | runMatching | acceptAssignment | transitionAssignment | closeEvent =>
      exact hother fun _ _ h => by cases h

end

/-! ## Steps of a run -/

/-- A step of a rebroadcast leaves the status of an event whose team is formed or that is
closed, and adds no mapping and no notification for a FULFILLED requirement. -/
def NeverStale (c : Cluster) (t : Sid) (c' : Cluster) : Prop :=
  ∀ se tenantId e, c.sessions t = some se → se.call = .rebroadcast tenantId e →
    (∀ e' ev, c.store.events.committed e' = some ev →
      ev.status = .teamFormed ∨ ev.status = .closed →
      ∃ ev', c'.store.events.committed e' = some ev' ∧ ev'.status = ev.status) ∧
    (∀ k m q, c.store.mappings.committed k = none → c'.store.mappings.committed k = some m →
      c.store.requirements.committed m.requirementId = some q → q.status ≠ .fulfilled) ∧
    (∀ o row r q, c.store.outbox.committed o = none → c'.store.outbox.committed o = some row →
      row.payload.data.notifiedRequirement = some r →
      c.store.requirements.committed r = some q → q.status ≠ .fulfilled)

theorem NeverStale.of_same {c c' : Cluster} {t : Sid} (h : c'.store.rows = c.store.rows) :
    NeverStale c t c' := by
  intro se tenantId e _ _
  refine ⟨fun e' ev hev _ => ⟨ev, ?_, rfl⟩, fun k m q hnone hm => ?_,
    fun o row r q hnone ho => ?_⟩
  · exact (congrArg (fun w : Rows => w.events e') h).trans hev
  · have hkeep : c'.store.rows.mappings k = none := h ▸ hnone
    cases hkeep.symm.trans hm
  · have hkeep : c'.store.rows.outbox o = none := h ▸ hnone
    cases hkeep.symm.trans ho

theorem NeverStale.of_careful {c c' : Cluster} {t : Sid} {se : Session Db Error Reply Call}
    {W : Rows} (hse : c.sessions t = some se)
    (hc : ∀ tenantId e, se.call = .rebroadcast tenantId e → Careful e c.store.rows W)
    (hrows : c'.store.rows = W.overlay c.store.rows) : NeverStale c t c' := by
  intro se' tenantId e hse' hcall
  cases hse.symm.trans hse'
  have hcareful := hc tenantId e hcall
  refine ⟨fun e' ev hev hover => ?_, fun k m q hnone hm hq => ?_,
    fun o row r q hnone ho hr hq => ?_⟩
  · have hrow : c'.store.events.committed e' = (W.events e').or (c.store.events.committed e') :=
      congrArg (fun w : Rows => w.events e') hrows
    rw [hrow]
    cases hW : W.events e' with
    | none => exact ⟨ev, hev, rfl⟩
    | some ev' =>
        by_cases he : e' = e
        · subst he
          exact ⟨ev', rfl, hcareful.event ev ev' hev hover hW⟩
        · rw [hcareful.others e' he] at hW
          cases hW
  · have hrow : (W.mappings k).or (c.store.mappings.committed k) = some m :=
      (congrArg (fun w : Rows => w.mappings k) hrows).symm.trans hm
    rw [hnone, Option.or_none] at hrow
    exact hcareful.mappings k m hrow q hq
  · have hrow : (W.outbox o).or (c.store.outbox.committed o) = some row :=
      (congrArg (fun w : Rows => w.outbox o) hrows).symm.trans ho
    rw [hnone, Option.or_none] at hrow
    exact hcareful.notices o row r hrow hr q hq

theorem rebroadcast_never_stale {profiles : List VolunteerProfile} {c c' : Cluster} {t : Sid}
    (h : RunWith Call.body LoadsFresh (Config.start (Db.initial profiles)) c)
    (hstep : Step Call.body c t c') (hadm : Admissible LoadsFresh c t c') :
    NeverStale c t c' := by
  have hsound := RunWith.sound verified_careful
    (Config.start_sound (initial_inv profiles) fun _ => rfl) h
  rcases (hstep.sound verified_careful hsound hadm).2 with heq | ⟨se, hse, hg⟩
  · exact .of_same (congrArg Db.rows heq)
  · rcases hg.2 with heq | ⟨hc, heq⟩
    · exact .of_same heq
    · exact .of_careful hse hc.2 heq

/-- No event is over and every requirement is OPEN. -/
def AllOpen (_ : Call) (_ s _ : Db) : Prop :=
  (s.events.rows.all fun e => e.2.status == .declared || e.2.status == .broadcasting) = true ∧
    (s.requirements.rows.all fun r => r.2.status == .opened) = true

instance (a : Call) (s₀ s s' : Db) : Decidable (AllOpen a s₀ s s') :=
  inferInstanceAs (Decidable (_ ∧ _))

theorem AllOpen.loadsFresh {a : Call} {s₀ s s' : Db} (hi : discipline.Inv s)
    (h : AllOpen a s₀ s s') : LoadsFresh a s₀ s s' := by
  have hb := Db.bounded hi.1
  intro tenantId e _ _
  constructor
  · rintro ⟨ev₀, ev, -, hev, -, hover⟩
    have hst := List.all_eq_true.mp h.1 (e, ev) ((mem_rows hb.events).mpr hev)
    rcases hover with hover | hover
    · simp [hover] at hst
    · simp [hover] at hst
  · rintro ⟨r, q₀, q, -, hq, -, -, hfull⟩
    have hst := List.all_eq_true.mp h.2 (r, q) ((mem_rows hb.requirements).mpr hq)
    simp [hfull] at hst

/-- A volunteer is about to be notified by a rebroadcast of tenant 1. -/
def rebroadcasting (between : List (Move Call)) : List (Move Call) :=
  List.flatten
    [ .begin (.declareEvent 1 2 (flood 2 two_pos_places two_le_places)) :: List.replicate 5 (.next 0),
      .close 0 :: .begin (.rebroadcast 1 0) :: List.replicate 2 (.next 1), between,
      List.replicate 6 (.next 1) ]

/-- The rebroadcast of an event that stays DECLARED adds a mapping. -/
theorem rebroadcast_never_stale_flood : ∃ c c' : Cluster,
    RunWith Call.body LoadsFresh (Config.start (Db.initial [boatDriver 7])) c ∧
      Step Call.body c 1 c' ∧ c.store.mappings.committed 0 = none ∧
      c'.store.mappings.committed 0 = some ⟨0, 0, 0, .notified, none⟩ ∧ NeverStale c 1 c' := by
  have hplay : ((Config.start (Db.initial [boatDriver 7])).playWith Call.body AllOpen
      (rebroadcasting [])).bind (fun c => (c.playWith Call.body AllOpen [.next 1]).map fun c' =>
        (c.store.mappings.committed 0, c'.store.mappings.committed 0)) =
      some (none, some ⟨0, 0, 0, .notified, none⟩) := by
    decide +kernel
  obtain ⟨c, hc, hrest⟩ := Option.bind_eq_some_iff.mp hplay
  obtain ⟨c', hc', hrows⟩ := Option.map_eq_some_iff.mp hrest
  obtain ⟨hm, hm'⟩ := Prod.mk.inj hrows
  have hopen := Config.playWith_run hc
  have hsound := RunWith.sound (verified AllOpen) (start_sound _ _) hopen
  have hrun : RunWith Call.body LoadsFresh (Config.start (Db.initial [boatDriver 7])) c :=
    RunWith.imp (verified AllOpen) (fun _ _ _ _ _ hi _ h => h.loadsFresh hi)
      (start_sound _ _) hopen
  obtain ⟨hstep, hadm⟩ := Config.playWith_step hc'
  have hadm' : Admissible LoadsFresh c 1 c' := fun se hse => (hadm se hse).loadsFresh hsound.inv
  exact ⟨c, c', hrun, hstep, hm, hm', rebroadcast_never_stale hrun hstep hadm'⟩

/-- The event is closed after it was loaded and before it is locked. -/
theorem rebroadcast_reopens_closed_event :
    ¬ ∀ (profiles : List VolunteerProfile) (c c' : Cluster) (t : Sid),
      Run Call.body (Config.start (Db.initial profiles)) c → Step Call.body c t c' →
        NeverStale c t c' := by
  intro hall
  have hplay : ((Config.start (Db.initial [boatDriver 7])).play Call.body
      (rebroadcasting (.begin (.closeEvent 1 0) :: List.replicate 5 (.next 2) ++ [.close 2]))).bind
      (fun c => (c.move Call.body (.next 1)).map fun c' =>
        ((c.sessions 1).map fun se => match se.call with
          | .rebroadcast tenantId e => (tenantId, e)
          | _ => (0, 1), (c.store.events.committed 0).map DisasterEvent.status,
        (c'.store.events.committed 0).map DisasterEvent.status)) =
      some (some (1, 0), some .closed, some .broadcasting) := by
    decide +kernel
  obtain ⟨c, hc, hrest⟩ := Option.bind_eq_some_iff.mp hplay
  obtain ⟨c', hc', hrows⟩ := Option.map_eq_some_iff.mp hrest
  simp only [Prod.mk.injEq] at hrows
  obtain ⟨hcall, hbefore, hafter⟩ := hrows
  obtain ⟨se, hse, hpair⟩ := Option.map_eq_some_iff.mp hcall
  obtain ⟨ev, hev, hst⟩ := Option.map_eq_some_iff.mp hbefore
  obtain ⟨ev', hev', hst'⟩ := Option.map_eq_some_iff.mp hafter
  have hre : ∃ tenantId e, se.call = .rebroadcast tenantId e := by
    cases ha : se.call with
    | rebroadcast tenantId e => exact ⟨tenantId, e, rfl⟩
    | declareEvent | runMatching | acceptAssignment | transitionAssignment | closeEvent =>
        rw [ha] at hpair
        cases hpair
  obtain ⟨tenantId, e, ha⟩ := hre
  have hnever := hall _ c c' 1 (Config.play_run hc) (Config.move_step hc') se tenantId e hse ha
  obtain ⟨ev'', hev'', hkept⟩ := hnever.1 0 ev hev (.inr hst)
  cases hev'.symm.trans hev''
  rw [hst', hst] at hkept
  cases hkept

end Volunteer
end Rcp
