/-
The acceptance keeps the discipline.

The claim locks the mapping, the gate locks the bucket, and
`_mark_requirement_fulfilled` locks the event.  With the event's row locked the
count of open buckets cannot become outdated in the one direction that matters,
since a commit that fulfils a bucket writes that row.  Once all buckets are
FULFILLED nobody else can be accepted, so the team list read before the commit is
still right at the commit.
-/
import Rcp.Volunteer.Verified

namespace Rcp
namespace Volunteer

open Sql Sql.Table

/-! ## What a drift cannot do -/

/-- The buckets of the event other than `r` are FULFILLED. -/
def OthersFulfilled (w : Rows) (r e : Uuid) : Prop :=
  ∀ r' q', r' ≠ r → w.requirements r' = some q' → q'.eventId = e → q'.status = .fulfilled

theorem Commit.othersFulfilled {a : Call} {w W : Rows} (h : Commit a w W) {r e : Uuid}
    {ev : DisasterEvent} (hev : w.events e = some ev) (ho : OthersFulfilled w r e) :
    OthersFulfilled (W.overlay w) r e := by
  intro r' q' hr hq' he
  rcases h.requirement_origin hq' with ⟨q, hq, hsame⟩ | ⟨-, hnone, -⟩
  · exact hsame.fulfilled (ho r' q hr hq (hsame.event.symm.trans he))
  · rw [he, hev] at hnone
    cases hnone

theorem Drift.othersFulfilled {W w w' : Rows} (h : Drift W w w') {r e : Uuid}
    {ev : DisasterEvent} (hev : w.events e = some ev) (ho : OthersFulfilled w r e) :
    OthersFulfilled w' r e := by
  induction h with
  | refl => exact ho
  | step hd _ hc _ ih =>
      obtain ⟨st, hst⟩ := (Drift.evolves hd).events e ev hev
      exact hc.othersFulfilled hst ih

/-- A bucket is fulfilled only by a commit that writes its event's row. -/
theorem Commit.stays_open {a : Call} {w W : Rows} (h : Commit a w W) {r : Uuid}
    {q : EventRequirement} (hq : w.requirements r = some q) (hst : q.status ≠ .fulfilled)
    (hlock : W.events q.eventId = none) :
    ∃ q', (W.overlay w).requirements r = some q' ∧ q'.eventId = q.eventId ∧
      q'.status ≠ .fulfilled := by
  cases h with
  | declared _ _ hR =>
      exact ⟨q, over_of_fresh (fun j u hj => (hR j u hj).1) hq, rfl, hst⟩
  | matched | rejected | moved | closed => exact ⟨q, hq, rfl, hst⟩
  | accepted h =>
      refine over_single (g := w.requirements) hq (fun hj => ?_) ⟨rfl, hst⟩
      have hb := h.bucket
      rw [hj, hq] at hb
      cases hb
      exact ⟨rfl, hst⟩
  | fulfilled h =>
      refine over_single (g := w.requirements) hq (fun hj => ?_) ⟨rfl, hst⟩
      have hb := h.bucket
      rw [hj, hq] at hb
      cases hb
      simp [Rows.writing, single_self] at hlock
  | formed h =>
      refine over_single (g := w.requirements) hq (fun hj => ?_) ⟨rfl, hst⟩
      have hb := h.bucket
      rw [hj, hq] at hb
      cases hb
      simp [teamWrites, Rows.writing, single_self] at hlock

/-- Another bucket of the event is still open. -/
def OtherOpen (w : Rows) (r e : Uuid) : Prop :=
  ∃ r' q', r' ≠ r ∧ w.requirements r' = some q' ∧ q'.eventId = e ∧ q'.status ≠ .fulfilled

theorem Drift.otherOpen {W w w' : Rows} (h : Drift W w w') {r e : Uuid} {ev : DisasterEvent}
    (he : W.events e = some ev) (ho : OtherOpen w r e) : OtherOpen w' r e := by
  induction h with
  | refl => exact ho
  | step _ _ hc hapart ih =>
      obtain ⟨r', q', hr, hq', hqe, hst⟩ := ih
      have hlock : Rows.events _ e = none := hapart .events e ev he
      rw [← hqe] at hlock
      obtain ⟨q₂, hq₂, he₂, hst₂⟩ := hc.stays_open hq' hst hlock
      exact ⟨r', q₂, hr, hq₂, he₂.trans hqe, hst₂⟩

/-- A mapping that is turned away stays so. -/
theorem Commit.rejectedFull {a : Call} {w W : Rows} (h : Commit a w W) {k : Nat}
    (hm : ∃ m, w.mappings k = some m ∧ m.status = .rejectedFull) :
    ∃ m, (W.overlay w).mappings k = some m ∧ m.status = .rejectedFull := by
  obtain ⟨m, hm, hst⟩ := hm
  obtain ⟨m', hm', -⟩ := h.evolves.mappings k m hm
  rcases (h.mapping_step hm hm').edge with rfl | hedge
  · exact ⟨m', hm', hst⟩
  · rw [hst] at hedge
    cases hedge

theorem Drift.rejectedFull {W w w' : Rows} (h : Drift W w w') {k : Nat}
    (hm : ∃ m, w.mappings k = some m ∧ m.status = .rejectedFull) :
    ∃ m, w'.mappings k = some m ∧ m.status = .rejectedFull := by
  induction h with
  | refl => exact hm
  | step _ _ hc _ ih => exact hc.rejectedFull ih

/-- An ACCEPTED mapping was ACCEPTED before, or has just taken a place. -/
theorem Commit.accepted_origin {a : Call} {w W : Rows} (h : Commit a w W) {k : Nat}
    {m : EventVolunteerMapping} (hm : (W.overlay w).mappings k = some m)
    (hst : m.status = .accepted) :
    w.mappings k = some m ∨
      ∃ row q q', w.mappings k = some row ∧ SameMapping row m ∧
        w.requirements m.requirementId = some q ∧ q.filledCount < q.requiredCount ∧
        W.requirements m.requirementId = some q' := by
  rcases over_cases hm with hnew | ⟨-, hold⟩
  · cases h with
    | declared | closed => cases hnew
    | matched _ _ hM =>
        rw [(hM.row k m hnew).2.2] at hst
        cases hst
    | rejected =>
        obtain ⟨-, rfl⟩ := single_eq_some.mp hnew
        cases hst
    | @accepted _ _ _ _ row q h hlt =>
        obtain ⟨rfl, rfl⟩ := single_eq_some.mp hnew
        exact .inr ⟨row, q, _, h.mapping, sameMapping_of_notified h.notified _ _, h.bucket,
          by omega, single_self _ _⟩
    | @fulfilled _ _ _ _ row q _ _ h hlt =>
        obtain ⟨rfl, rfl⟩ := single_eq_some.mp hnew
        exact .inr ⟨row, q, _, h.mapping, sameMapping_of_notified h.notified _ _, h.bucket,
          hlt, single_self _ _⟩
    | @formed _ _ _ _ row q _ _ _ _ _ h hlt =>
        obtain ⟨rfl, rfl⟩ := single_eq_some.mp hnew
        exact .inr ⟨row, q, _, h.mapping, sameMapping_of_notified h.notified _ _, h.bucket,
          hlt, single_self _ _⟩
    | @moved _ _ _ _ new _ row _ _ htrans =>
        obtain ⟨-, rfl⟩ := single_eq_some.mp hnew
        have hacc : new = .accepted := hst
        subst hacc
        cases htrans
  · exact .inl hold

/-- When the last open bucket is locked, nobody else is accepted. -/
theorem Drift.accepted_origin {W w w' : Rows} (h : Drift W w w') {r e : Uuid}
    {q : EventRequirement} {ev : DisasterEvent} (hr : W.requirements r = some q)
    (hev : w.events e = some ev) (ho : OthersFulfilled w r e) {k : Nat}
    {m : EventVolunteerMapping} (hm : w'.mappings k = some m) (hme : m.eventId = e)
    (hst : m.status = .accepted) : w.mappings k = some m := by
  induction h generalizing m with
  | refl => exact hm
  | step hd hw hc hapart ih =>
      rcases hc.accepted_origin hm hst with hold | ⟨row, q₁, q₂, hrow, hsame, hq₁, hlt, hq₂⟩
      · exact ih hold hme hst
      · have hne : m.requirementId ≠ r := by
          intro heq
          have hlock : Rows.requirements _ r = none := hapart .requirements r q hr
          rw [heq, hlock] at hq₂
          cases hq₂
        have hqe : q₁.eventId = e := by
          obtain ⟨q₀, hq₀, he₀⟩ := hw.linked.bucket k row hrow
          rw [← hsame.requirement, hq₁] at hq₀
          cases hq₀
          rw [he₀, ← hsame.event, hme]
        have hfull := Drift.othersFulfilled hd hev ho _ q₁ hne hq₁ hqe
        exact absurd hfull ((hw.ledger _ q₁ hq₁).opened hlt)

theorem Evolves.overlay {w w' : Rows} (h : Evolves w w') (W : Rows) :
    Evolves (W.overlay w) (W.overlay w') where
  events := by
    intro e ev he
    rcases over_cases he with hnew | ⟨hn, hold⟩
    · exact ⟨ev.status, by simp [Rows.overlay, hnew]⟩
    · obtain ⟨st, hst⟩ := h.events e ev hold
      exact ⟨st, by simp [Rows.overlay, hn, hst]⟩
  requirements := by
    intro r q hq
    rcases over_cases hq with hnew | ⟨hn, hold⟩
    · exact ⟨q, by simp [Rows.overlay, hnew], .refl q⟩
    · obtain ⟨q', hq', hsame⟩ := h.requirements r q hold
      exact ⟨q', by simp [Rows.overlay, hn, hq'], hsame⟩
  mappings := by
    intro k m hm
    rcases over_cases hm with hnew | ⟨hn, hold⟩
    · exact ⟨m, by simp [Rows.overlay, hnew], .refl m⟩
    · obtain ⟨m', hm', hsame⟩ := h.mappings k m hold
      exact ⟨m', by simp [Rows.overlay, hn, hm'], hsame⟩
  profiles := by
    simp only [Rows.overlay, h.profiles]
  outbox := by
    intro o row ho
    rcases over_cases ho with hnew | ⟨hn, hold⟩
    · simp [Rows.overlay, hnew]
    · simp [Rows.overlay, hn, h.outbox o row hold]

theorem Listed.evolves {w w' : Rows} {k : Nat} {member : TeamMember} (h : Listed w k member)
    (hw : Evolves w w') : Listed w' k member := by
  obtain ⟨m, v, q, hm, hv, hq, huser, hskill⟩ := h
  obtain ⟨m', hm', hsame⟩ := hw.mappings k m hm
  obtain ⟨q', hq', hbucket⟩ := hw.requirements _ q hq
  refine ⟨m', v, q', hm', ?_, ?_, huser, hskill.trans hbucket.skill.symm⟩
  · rw [hw.profiles, hsame.volunteer]
    exact hv
  · rw [hsame.requirement]
    exact hq'

/-- The roster is about mappings, profiles and buckets only. -/
theorem Roster.congr {w w' : Rows} {e : Uuid} {ks : List Nat} {team : List TeamMember}
    (h : Roster w e ks team) (hm : w'.mappings = w.mappings) (hp : w'.profiles = w.profiles)
    (hr : w'.requirements = w.requirements) : Roster w' e ks team where
  nodup := h.nodup
  holds := by
    rw [hm]
    exact h.holds
  accepted := by
    rw [hm]
    exact h.accepted
  listed := by
    unfold Listed
    rw [hm, hp, hr]
    exact h.listed

theorem Roster.drift {W w w' : Rows} {r e : Uuid} {q : EventRequirement} {ev : DisasterEvent}
    {ks : List Nat} {team : List TeamMember} (h : Roster (W.overlay w) e ks team)
    (hd : Drift W w w') (hr : W.requirements r = some q) (hev : w.events e = some ev)
    (ho : OthersFulfilled w r e) : Roster (W.overlay w') e ks team where
  nodup := h.nodup
  holds := by
    intro k hk
    obtain ⟨m, hm, hme, hc⟩ := h.holds k hk
    obtain ⟨m', hm', hsame⟩ := (hd.evolves.overlay W).mappings k m hm
    exact ⟨m', hm', hsame.event.trans hme, hsame.counted hc⟩
  accepted := by
    intro k m hm hme hst
    refine h.accepted k m ?_ hme hst
    rcases over_cases hm with hnew | ⟨hn, hold⟩
    · simp [Rows.overlay, hnew]
    · have hback := hd.accepted_origin hr hev ho hold hme hst
      simp [Rows.overlay, hn, hback]
  listed := h.listed.imp fun k member hl => hl.evolves (hd.evolves.overlay W)

/-! ## The acceptance, statement by statement -/

section

variable {adm : Db → Db → Prop} {a : Call} {t : Sid} {s : Db}

theorem Answers.drift {W w w' : Rows} {k user : Uuid} {row : EventVolunteerMapping}
    {q : EventRequirement} (h : Answers w k user row q) (hd : Drift W w w')
    {m : EventVolunteerMapping} {p : EventRequirement} (hM : W.mappings k = some m)
    (hR : W.requirements row.requirementId = some p) : Answers w' k user row q where
  mapping := (hd.locked Column.mappings hM).trans h.mapping
  notified := h.notified
  owned := h.owned.evolves hd.evolves
  bucket := (hd.locked Column.requirements hR).trans h.bucket

/-- The volunteer and the bucket of a mapping. -/
def Known (w : Rows) (m : EventVolunteerMapping) : Prop :=
  (∃ v, w.profiles m.volunteerId = some v) ∧ ∃ q, w.requirements m.requirementId = some q

theorem Known.evolves {w w' : Rows} {m : EventVolunteerMapping} (h : Known w m)
    (hw : Evolves w w') : Known w' m := by
  obtain ⟨hv, q, hq⟩ := h
  obtain ⟨q', hq', -⟩ := hw.requirements _ q hq
  refine ⟨?_, q', hq'⟩
  rw [hw.profiles]
  exact hv

theorem Linked.known {w : Rows} (h : Linked w) {k : Nat} {m : EventVolunteerMapping}
    (hm : w.mappings k = some m) : Known w m := by
  obtain ⟨q, hq, -⟩ := h.bucket k m hm
  exact ⟨h.volunteer k m hm, q, hq⟩

/-- The entries of the team list are read while the session keeps its locks. -/
theorem safe_teamMember {W w : Rows} {k : Nat} {m : EventVolunteerMapping}
    (hs : Resumed t W w s)
    (hm : ∃ m', (W.overlay s.rows).mappings k = some m' ∧ SameMapping m m')
    (hknown : Known s.rows m) :
    Safe discipline adm a t (Yields fun member u => Resumed t W w u ∧
      Evolves s.rows u.rows ∧ Listed (W.overlay u.rows) k member) (teamMember m) s := by
  obtain ⟨m', hm', hsame⟩ := hm
  refine safe_selectKey Column.profiles hs.toHolding fun s₁ h₁ => ?_
  have hs₁ := hs.trans h₁
  have hev₁ : Evolves s.rows s₁.rows := Drift.evolves h₁.drift
  split
  · rename_i hmissing
    obtain ⟨v, hv⟩ := hknown.1
    have hor : (W.profiles m.volunteerId).or (s.rows.profiles m.volunteerId) = none := hmissing
    simp [hv] at hor
  · rename_i v hv
    refine safe_selectKey Column.requirements hs₁.toHolding fun s₂ h₂ => ?_
    have hs₂ := hs₁.trans h₂
    have hev₂ : Evolves s₁.rows s₂.rows := Drift.evolves h₂.drift
    split
    · rename_i hmissing
      obtain ⟨q, hq⟩ := (hknown.evolves hev₁).2
      have hor : (W.requirements m.requirementId).or
          (s₁.rows.requirements m.requirementId) = none := hmissing
      simp [hq] at hor
    · rename_i q hq
      refine ⟨hs₂, hev₁.trans hev₂, ?_⟩
      have hlisted : Listed (W.overlay s₁.rows) k
          ⟨v.userId, v.fullName, v.phone, q.skill, v.baseDistrict⟩ := by
        obtain ⟨m₁, hm₁, hsame₁⟩ := (hev₁.overlay W).mappings k m' hm'
        refine ⟨m₁, v, q, hm₁, ?_, ?_, rfl, rfl⟩
        · rw [(hev₁.overlay W).profiles, hsame₁.volunteer, hsame.volunteer]
          exact hv
        · rw [hsame₁.requirement, hsame.requirement]
          exact hq
      exact hlisted.evolves (hev₂.overlay W)

theorem safe_teamMembers {W w : Rows} (l : List (Nat × EventVolunteerMapping))
    (hs : Resumed t W w s)
    (hl : ∀ x ∈ l, ∃ m', (W.overlay s.rows).mappings x.1 = some m' ∧ SameMapping x.2 m')
    (hknown : ∀ x ∈ l, Known s.rows x.2) :
    Safe discipline adm a t (Yields fun team u => Resumed t W w u ∧
      Evolves s.rows u.rows ∧ List.Forall₂ (Listed (W.overlay u.rows)) (l.map Prod.fst) team)
      (teamMembers (l.map Prod.snd)) s := by
  induction l generalizing s with
  | nil => exact ⟨hs, .refl _, .nil⟩
  | cons x rest ih =>
      refine safe_yields_bind (safe_teamMember hs (hl x (List.mem_cons_self ..))
        (hknown x (List.mem_cons_self ..))) ?_
      intro member s₁ h₁
      obtain ⟨hs₁, hev₁, hmember⟩ := h₁
      have hrest : ∀ y ∈ rest,
          ∃ m', (W.overlay s₁.rows).mappings y.1 = some m' ∧ SameMapping y.2 m' := by
        intro y hy
        obtain ⟨m', hm', hsame⟩ := hl y (List.mem_cons_of_mem _ hy)
        obtain ⟨m₁, hm₁, hsame₁⟩ := (hev₁.overlay W).mappings _ m' hm'
        exact ⟨m₁, hm₁, hsame.trans hsame₁⟩
      refine safe_yields_bind (ih hs₁ hrest fun y hy =>
        (hknown y (List.mem_cons_of_mem _ hy)).evolves hev₁) ?_
      intro others s₂ h₂
      obtain ⟨hs₂, hev₂, hothers⟩ := h₂
      exact ⟨hs₂, hev₁.trans hev₂, .cons (hmember.evolves (hev₂.overlay W)) hothers⟩

/-- The bucket is full, marked, and announced; the event's row is locked. -/
structure Filling (t : Sid) (k user : Uuid) (now : Time) (row : EventVolunteerMapping)
    (q : EventRequirement) (ev ev' : DisasterEvent) (o : Uuid) (s : Db) : Prop
    extends Holding t (.writing (single q.eventId ev')
      (single row.requirementId (fillLastPlace q)) (single k (setMapping .accepted now row))
      (single o (fulfilledRow ev row.requirementId q o))) s where
  answers : Answers s.rows k user row q
  event : s.rows.events q.eventId = some ev
  post : s.rows.outbox o = none

section Filling

variable {k user : Uuid} {now : Time} {row : EventVolunteerMapping} {q : EventRequirement}
  {ev ev' : DisasterEvent} {o : Uuid}

theorem Filling.resumed {w : Rows} {u : Db}
    (hu : Resumed t (.writing (single q.eventId ev')
      (single row.requirementId (fillLastPlace q)) (single k (setMapping .accepted now row))
      (single o (fulfilledRow ev row.requirementId q o))) w u)
    (ha : Answers w k user row q) (hev : w.events q.eventId = some ev)
    (ho : w.outbox o = none) : Filling t k user now row q ev ev' o u where
  toHolding := hu.toHolding
  answers := ha.drift hu.drift (single_self _ _) (single_self _ _)
  event := hu.locked Column.events (k := q.eventId) (single_self _ _) hev
  post := hu.locked Column.outbox (k := o) (single_self _ _) ho

/-- The rows `formTeam` selects, before the team list is read. -/
theorem roster_of_select {W : Rows} {u : Db} {e : Uuid} {p : EventRequirement}
    {team : List TeamMember} (hs : Holding t W s)
    (hR : W.requirements row.requirementId = some p) (hev : s.rows.events e = some ev)
    (hothers : OthersFulfilled s.rows row.requirementId e) (hd : Drift W s.rows u.rows)
    (hteam : List.Forall₂ (Listed (W.overlay u.rows)) (((s.mappings.scan t).filter fun r =>
      r.2.eventId == e && r.2.status == .accepted).map Prod.fst) team) :
    Roster (W.overlay u.rows) e (((s.mappings.scan t).filter fun r =>
      r.2.eventId == e && r.2.status == .accepted).map Prod.fst) team := by
  have hmem : ∀ j m, (j, m) ∈ ((s.mappings.scan t).filter fun r =>
      r.2.eventId == e && r.2.status == .accepted) ↔
        (W.overlay s.rows).mappings j = some m ∧ m.eventId = e ∧ m.status = .accepted := by
    intro j m
    have hview : s.mappings.read t j = (W.overlay s.rows).mappings j := hs.read_eq Column.mappings j
    rw [List.mem_filter, mem_scan (Db.bounded hs.bounded).mappings, hview]
    simp
  refine ⟨?_, ?_, ?_, hteam⟩
  · exact (keys_nodup _ _).sublist (List.filter_sublist.map Prod.fst)
  · intro j hj
    obtain ⟨⟨j, m⟩, hx, rfl⟩ := List.mem_map.mp hj
    obtain ⟨hm, hme, hst⟩ := (hmem j m).mp hx
    obtain ⟨m', hm', hsame⟩ := (hd.evolves.overlay W).mappings j m hm
    exact ⟨m', hm', hsame.event.trans hme, hsame.counted (by rw [hst]; rfl)⟩
  · intro j m hm hme hst
    have hback : (W.overlay s.rows).mappings j = some m := by
      rcases over_cases hm with hnew | ⟨hn, hold⟩
      · simp [Rows.overlay, hnew]
      · have := hd.accepted_origin hR hev hothers hold hme hst
        simp [Rows.overlay, hn, this]
    exact List.mem_map.mpr ⟨(j, m), (hmem j m).mpr ⟨hback, hme, hst⟩, rfl⟩

/-- What the acceptance publishes: besides the rest it accepts the mapping. -/
def Accepts (k user : Uuid) (now : Time) (row : EventVolunteerMapping) (w W : Rows) : Prop :=
  Commit (.acceptAssignment k user now) w W ∧
    W.mappings = single k (setMapping .accepted now row)

theorem safe_formTeam (hs : Filling t k user now row q ev ev o s)
    (hlt : q.filledCount < q.requiredCount) (hle : q.requiredCount ≤ q.filledCount + 1)
    (hothers : OthersFulfilled s.rows row.requirementId q.eventId)
    (hst : ev.status ≠ .teamFormed) :
    Safe discipline adm (.acceptAssignment k user now) t (Yields fun _ u =>
      ∃ W, Holding t W u ∧ Accepts k user now row u.rows W)
      (formTeam q.eventId ev) s := by
  refine safe_query hs.toHolding fun s₁ h₁ => ?_
  have hselected : ∀ x ∈ (s.mappings.scan t).filter fun r =>
      r.2.eventId == q.eventId && r.2.status == .accepted,
      Rows.mappings (Rows.overlay (.writing (single q.eventId ev)
        (single row.requirementId (fillLastPlace q)) (single k (setMapping .accepted now row))
        (single o (fulfilledRow ev row.requirementId q o))) s.rows) x.1 = some x.2 := by
    intro x hx
    have hm := (mem_scan (Db.bounded hs.bounded).mappings).mp (List.mem_of_mem_filter hx)
    exact (hs.read_eq Column.mappings x.1).symm.trans hm
  refine safe_yields_bind (safe_teamMembers _ h₁ ?_ ?_) ?_
  · intro x hx
    exact ((Drift.evolves h₁.drift).overlay _).mappings x.1 x.2 (hselected x hx)
  · intro x hx
    refine Known.evolves ?_ (Drift.evolves h₁.drift)
    rcases over_cases (hselected x hx) with hnew | ⟨-, hold⟩
    · obtain ⟨-, hx₂⟩ := single_eq_some.mp hnew
      rw [hx₂]
      have hrow : Known s.rows row := hs.wellFormed.linked.known hs.answers.mapping
      exact hrow
    · exact hs.wellFormed.linked.known hold
  intro team s₂ h₂
  obtain ⟨h₂, -, hteam⟩ := h₂
  obtain ⟨ks, hroster₂⟩ : ∃ ks, Roster (Rows.overlay (.writing (single q.eventId ev)
      (single row.requirementId (fillLastPlace q)) (single k (setMapping .accepted now row))
      (single o (fulfilledRow ev row.requirementId q o))) s₂.rows) q.eventId ks team :=
    ⟨_, roster_of_select hs.toHolding (single_self _ _) hs.event hothers h₂.drift hteam⟩
  have hs₂ : Filling t k user now row q ev ev o s₂ :=
    .resumed h₂ hs.answers hs.event hs.post
  have hothers₂ := Drift.othersFulfilled h₂.drift hs.event hothers
  -- the status of the event, in the session's own locked version
  refine safe_yields_bind (R := fun _ u =>
    Filling t k user now row q ev { ev with status := .teamFormed } o u ∧
      OthersFulfilled u.rows row.requirementId q.eventId ∧
      Roster (Rows.overlay (.writing (single q.eventId { ev with status := .teamFormed })
        (single row.requirementId (fillLastPlace q)) (single k (setMapping .accepted now row))
        (single o (fulfilledRow ev row.requirementId q o))) u.rows) q.eventId ks team) ?_ ?_
  · unfold setEventStatus
    rw [if_neg hst]
    refine safe_update Column.events hs₂.toHolding (.free fun _ => trivial)
      (fun hno => ?_) fun v hv _ s₃ h₃ => ?_
    · have := hno ev (by simp [Rows.writing, single_self])
      cases this
    · have hve : v = ev := by
        simpa [Rows.overlay, Rows.writing, single_self, eq_comm] using hv
      subst hve
      have h₃' : Resumed t (.writing (Function.update (single q.eventId v) q.eventId
          (some { v with status := .teamFormed })) (single row.requirementId (fillLastPlace q))
          (single k (setMapping .accepted now row))
          (single o (fulfilledRow v row.requirementId q o))) s₂.rows s₃ := h₃
      rw [update_single] at h₃'
      refine ⟨.resumed h₃' hs₂.answers hs₂.event hs₂.post,
        Drift.othersFulfilled h₃'.drift hs₂.event hothers₂, ?_⟩
      refine Roster.drift ?_ h₃'.drift (single_self _ _) hs₂.event hothers₂
      exact hroster₂.congr rfl rfl rfl
  · intro _ s₃ h₃
    obtain ⟨hs₃, hothers₃, hroster₃⟩ := h₃
    refine safe_insert Column.outbox hs₃.toHolding (.free fun _ => trivial)
      fun o' ho' hunwritten s₄ h₄ => ?_
    have hne : o ≠ o' := by
      intro heq
      rw [← heq] at hunwritten
      simp [Rows.writing, single_self] at hunwritten
    have hlock : Function.update (single o (fulfilledRow ev row.requirementId q o)) o'
        (some (formedRow ev q.eventId team o')) o =
          some (fulfilledRow ev row.requirementId q o) := by
      simp [hne, single_self]
    have hroster₄ : Roster ((teamWrites k now row q ev team o o').overlay s₄.rows) q.eventId ks
        team := by
      refine Roster.drift ?_ h₄.drift (single_self _ _) hs₃.event hothers₃
      exact hroster₃.congr rfl rfl rfl
    refine ⟨_, h₄.toHolding, ?_, rfl⟩
    exact Commit.formed (hs₃.answers.drift h₄.drift (single_self _ _) (single_self _ _)) hlt hle
      (h₄.locked Column.events (k := q.eventId) (single_self _ _) hs₃.event)
      (Drift.othersFulfilled h₄.drift hs₃.event hothers₃) hst
      (h₄.locked Column.outbox (k := o) hlock hs₃.post)
      (h₄.locked Column.outbox (k := o') (Function.update_self ..) ho') hne hroster₄

/-- What the count of open buckets says, the bucket `r` being marked in the session's
own version. -/
theorem openLeft_count (hs : Filling t k user now row q ev ev o s) :
    (((s.requirements.scan t).filter fun r => r.2.eventId == q.eventId &&
        r.2.status != .fulfilled).length = 0 →
      OthersFulfilled s.rows row.requirementId q.eventId) ∧
    (((s.requirements.scan t).filter fun r => r.2.eventId == q.eventId &&
        r.2.status != .fulfilled).length ≠ 0 →
      OtherOpen s.rows row.requirementId q.eventId) := by
  have hread : ∀ r', s.requirements.read t r' = Rows.requirements (Rows.overlay (.writing
      (single q.eventId ev) (single row.requirementId (fillLastPlace q))
      (single k (setMapping .accepted now row))
      (single o (fulfilledRow ev row.requirementId q o))) s.rows) r' :=
    hs.read_eq Column.requirements
  constructor
  · intro hzero r' q' hr hq' he
    by_contra hst
    have hmem : (r', q') ∈ (s.requirements.scan t).filter fun r =>
        r.2.eventId == q.eventId && r.2.status != .fulfilled := by
      rw [List.mem_filter, mem_scan (Db.bounded hs.bounded).requirements, hread]
      simp [Rows.overlay, Rows.writing, single_of_ne _ hr, hq', he, hst]
    rw [List.length_eq_zero_iff] at hzero
    rw [hzero] at hmem
    cases hmem
  · intro hne
    obtain ⟨⟨r', q'⟩, hmem⟩ := List.exists_mem_of_length_pos (Nat.pos_of_ne_zero hne)
    rw [List.mem_filter, mem_scan (Db.bounded hs.bounded).requirements, hread] at hmem
    obtain ⟨hq', hcond⟩ := hmem
    have hpair : q'.eventId = q.eventId ∧ q'.status ≠ .fulfilled := by simpa using hcond
    rcases over_cases hq' with hnew | ⟨hn, hold⟩
    · obtain ⟨-, rfl⟩ := single_eq_some.mp hnew
      exact absurd rfl hpair.2
    · refine ⟨r', q', fun hr => ?_, hold, hpair.1, hpair.2⟩
      rw [hr] at hn
      simp [Rows.writing, single_self] at hn

theorem safe_markRequirementFulfilled {w : Rows}
    (hs : Resumed t (.writing noRows (single row.requirementId (fillPlace q))
      (single k (setMapping .accepted now row)) noRows) w s)
    (ha : Answers s.rows k user row q) (hlt : q.filledCount < q.requiredCount)
    (hle : q.requiredCount ≤ q.filledCount + 1) :
    Safe discipline adm (.acceptAssignment k user now) t (Yields fun _ u =>
      ∃ W, Holding t W u ∧ Accepts k user now row u.rows W)
      (markRequirementFulfilled row.requirementId) s := by
  refine safe_selectKey Column.requirements hs.toHolding fun s₁ h₁ => ?_
  have hself : Column.requirements.get (schema.overlay (.writing noRows
      (single row.requirementId (fillPlace q)) (single k (setMapping .accepted now row)) noRows)
      (schema.rows s)) row.requirementId = some (fillPlace q) := by
    simp [Rows.writing, single_self]
  rw [hself]
  have ha₁ := ha.drift h₁.drift (single_self _ _) (single_self _ _)
  -- the event's row, locked before the bucket is marked
  refine safe_forUpdate Column.events h₁.toHolding (.free fun _ => trivial)
    (fun hmissing => ?_) fun ev hev s₂ h₂ => ?_
  · obtain ⟨ev, hev⟩ := h₁.wellFormed.linked.event _ q ha₁.bucket
    cases hev.symm.trans hmissing
  have hev₁ : s₁.rows.events q.eventId = some ev := hev
  have ha₂ := ha₁.drift h₂.drift (single_self _ _) (single_self _ _)
  have hev₂ : s₂.rows.events q.eventId = some ev := 
    h₂.locked Column.events (k := q.eventId) (single_self _ _) hev₁
  refine safe_update Column.requirements h₂.toHolding (.free fun _ => trivial)
    (fun hno => ?_) fun v hv _ s₃ h₃ => ?_
  · have := hno (fillPlace q) (by
      simp [Rows.writing, single_self])
    cases this
  have hve : v = fillPlace q := by
    simpa [Rows.overlay, Rows.writing, single_self, eq_comm]
      using hv
  subst hve
  have h₃' : Resumed t (.writing (single q.eventId ev) (Function.update
      (single row.requirementId (fillPlace q)) row.requirementId (some (fillLastPlace q)))
      (single k (setMapping .accepted now row)) noRows) s₂.rows s₃ := h₃
  rw [update_single] at h₃'
  have ha₃ := ha₂.drift h₃'.drift (single_self _ _) (single_self _ _)
  have hev₃ : s₃.rows.events q.eventId = some ev := 
    h₃'.locked Column.events (k := q.eventId) (single_self _ _) hev₂
  refine safe_insert Column.outbox h₃'.toHolding (.free fun _ => trivial) fun o ho _ s₄ h₄ => ?_
  have hs₄ : Filling t k user now row q ev ev o s₄ := .resumed h₄ ha₃ hev₃ ho
  -- the count of the buckets still open
  refine safe_query hs₄.toHolding fun s₅ h₅ => ?_
  have hs₅ : Filling t k user now row q ev ev o s₅ :=
    .resumed h₅ hs₄.answers hs₄.event hs₄.post
  have hcount := openLeft_count hs₄
  split
  · rename_i hform
    have hothers := Drift.othersFulfilled h₅.drift hs₄.event (hcount.1 hform.1)
    show Safe discipline adm _ t _ (formTeam q.eventId ev) s₅
    exact safe_formTeam hs₅ hlt hle hothers hform.2
  · rename_i hform
    refine ⟨_, hs₅.toHolding, ?_, rfl⟩
    refine Commit.fulfilled hs₅.answers hlt hle hs₅.event ?_ hs₅.post
    by_cases hst : ev.status = .teamFormed
    · exact .inr hst
    · left
      exact Drift.otherOpen h₅.drift (single_self _ _) (hcount.2 fun hzero => hform ⟨hzero, hst⟩)

end Filling

/-- What the end of an acceptance says about its mapping.  `refused` is what is known when
the user has no such mapping. -/
def Answered (k : Uuid) (refused : Prop) : Except Error Reply → Rows → Prop
  | .ok _, w => ∃ m, w.mappings k = some m ∧ m.status.counted = true
  | .error (.quotaFullError _), w => ∃ m, w.mappings k = some m ∧ m.status = .rejectedFull
  | .error (.assignmentError _), w => refused ∨ ∃ m, w.mappings k = some m ∧ m.status ≠ .notified
  | .error _, _ => False

/-- A volunteer who is late for the bucket is rejected. -/
theorem safe_rejectFull {k user : Uuid} {now : Time} {refused : Prop}
    {row : EventVolunteerMapping} {q : EventRequirement}
    (hs : Holding t (.writing noRows noRows (single k (setMapping .accepted now row)) noRows) s)
    (ha : Answers s.rows k user row q) (hfull : q.requiredCount ≤ q.filledCount) :
    Safe discipline adm (.acceptAssignment k user now) t (fun r u => Answered k refused r u.rows)
      (update Db.mappingsT k (setMapping .rejectedFull now) >>= fun _ => commit >>= fun _ =>
        .raise (.quotaFullError "This skill quota is already filled")) s := by
  refine safe_update Column.mappings hs (.free fun _ => trivial)
    (fun hno => ?_) fun v hv _ s₁ h₁ => ?_
  · have := hno (setMapping .accepted now row) (by simp [Rows.writing, single_self])
    cases this
  have hve : v = setMapping .accepted now row := by
    simpa [Rows.overlay, Rows.writing, single_self, eq_comm] using hv
  subst hve
  have h₁' : Resumed t (.writing noRows noRows (Function.update
      (single k (setMapping .accepted now row)) k (some (setMapping .rejectedFull now row)))
      noRows) s.rows s₁ := h₁
  rw [update_single] at h₁'
  have hev := Drift.evolves h₁'.drift
  obtain ⟨q₁, hq₁, hbucket⟩ := hev.requirements _ q ha.bucket
  have hfull₁ : q₁.requiredCount ≤ q₁.filledCount := by
    rw [hbucket.required]
    exact Int.le_trans hfull hbucket.filled
  have hrow₁ : s₁.rows.mappings k = some row :=
    h₁'.locked Column.mappings (k := k) (single_self _ _) ha.mapping
  refine safe_commit policy_lawful h₁'.toHolding (fun _ => .inl ?_) fun s₂ h₂ => ?_
  · exact .rejected ⟨hrow₁, ha.notified, ha.owned.evolves hev, hq₁⟩ hfull₁
  · have hset : Rows.mappings (Rows.overlay (.writing noRows noRows
        (single k (setMapping .rejectedFull now row)) noRows) s₁.rows) k =
          some (setMapping .rejectedFull now row) := by
      simp [Rows.overlay, Rows.writing, single_self]
    obtain ⟨m₂, hm₂, hst⟩ := Drift.rejectedFull h₂.drift ⟨_, hset, rfl⟩
    exact ⟨m₂, hm₂, hst⟩

theorem safe_acceptAssignment (k user : Uuid) (now : Time) (refused : Prop)
    (hs : Holding t .nothing s)
    (hrefused : (¬ ∃ m, s.rows.mappings k = some m ∧ Owned s.rows m user) → refused) :
    Safe discipline adm (.acceptAssignment k user now) t (fun r u => Answered k refused r u.rows)
      (acceptAssignment k user now) s := by
  refine safe_ownMapping hs (fun hno _ => .inl (hrefused hno)) fun m s₁ h₁ hown => ?_
  refine safe_update Column.mappings h₁ (.free fun _ => trivial)
    (fun hno s₂ h₂ => ?_) fun row hrow hp s₂ h₂ => ?_
  · -- another call has answered
    obtain ⟨m', hm', -⟩ := hown.row
    have hanswered : m'.status ≠ .notified := by
      have := hno m' hm'
      simpa using this
    obtain ⟨m₂, hm₂, hsame₂⟩ := (Drift.evolves h₂.drift).mappings k m' hm'
    exact .inr ⟨m₂, hm₂, hsame₂.answered hanswered⟩
  have hrow₁ : s₁.rows.mappings k = some row := hrow
  have hnotified : row.status = .notified := by simpa using hp
  obtain ⟨m', hm', hsame⟩ := hown.row
  rw [hrow₁] at hm'
  cases hm'
  have hrow₂ : s₂.rows.mappings k = some row :=
    h₂.locked Column.mappings (k := k) (single_self _ _) hrow₁
  have hown₂ : Owned s₂.rows row user :=
    (hown.owned.same hsame).evolves (Drift.evolves h₂.drift)
  obtain ⟨q₀, hq₀, -⟩ := h₂.wellFormed.linked.bucket k row hrow₂
  rw [← hsame.requirement]
  refine safe_update Column.requirements h₂.toHolding (.free fun _ => trivial) (fun hno s₃ h₃ => ?_)
    fun q hq hlt s₃ h₃ => ?_
  · -- the bucket is full, and stays full
    have hfull : q₀.requiredCount ≤ q₀.filledCount := by
      have := hno q₀ hq₀
      simpa using this
    have hev₃ := Drift.evolves h₃.drift
    obtain ⟨q₃, hq₃, hbucket⟩ := hev₃.requirements _ q₀ hq₀
    have hfull₃ : q₃.requiredCount ≤ q₃.filledCount := by
      rw [hbucket.required]
      exact Int.le_trans hfull hbucket.filled
    have hrow₃ : s₃.rows.mappings k = some row :=
      h₃.locked Column.mappings (k := k) (single_self _ _) hrow₂
    exact safe_rejectFull h₃.toHolding ⟨hrow₃, hnotified, hown₂.evolves hev₃, hq₃⟩ hfull₃
  · have hq₂ : s₂.rows.requirements row.requirementId = some q := hq
    have hlt' : q.filledCount < q.requiredCount := by simpa using hlt
    have ha₂ : Answers s₂.rows k user row q := ⟨hrow₂, hnotified, hown₂, hq₂⟩
    have ha₃ := ha₂.drift h₃.drift (single_self _ _) (single_self _ _)
    have hend : ∀ (W u : Rows) (v : Db), W.mappings = single k (setMapping .accepted now row) →
        Resumed t .nothing (schema.overlay W u) v →
        Safe discipline adm (.acceptAssignment k user now) t
          (fun r u => Answered k refused r u.rows)
          (refresh Db.mappingsT k >>= fun m => pure (.mapping k m)) v := by
      intro W u v hW hv
      have hset : (W.overlay u).mappings k = some (setMapping .accepted now row) := by
        simp [Rows.overlay, hW, single_self]
      obtain ⟨m₄, hm₄, hsame₄⟩ := (Drift.evolves hv.drift).mappings k _ hset
      refine safe_refresh_mapping hv.toHolding hm₄ fun _ z hz => ?_
      obtain ⟨m₅, hm₅, hsame₅⟩ := (Drift.evolves hz).mappings k m₄ hm₄
      exact ⟨m₅, hm₅, hsame₅.counted (hsame₄.counted rfl)⟩
    show Safe discipline adm _ t _ (if _ then _ else _) s₃
    split
    · rename_i hge
      have hle : q.requiredCount ≤ q.filledCount + 1 := hge
      refine safe_yields_bind (safe_markRequirementFulfilled h₃ ha₃ hlt' hle) ?_
      intro _ s₄ h₄
      obtain ⟨W, h₄, hc⟩ := h₄
      exact safe_commit policy_lawful h₄ (fun _ => .inl hc.1) fun s₅ h₅ => hend W s₄.rows s₅ hc.2 h₅
    · rename_i hge
      have hroom : q.filledCount + 1 < q.requiredCount := Int.not_le.mp hge
      exact safe_commit policy_lawful h₃.toHolding (fun _ => .inl (.accepted ha₃ hroom))
        fun s₄ h₄ => hend (.writing noRows (single row.requirementId (fillPlace q))
          (single k (setMapping .accepted now row)) noRows) s₃.rows s₄ rfl h₄

theorem verified (adm : Call → Db → Db → Db → Prop) :
    discipline.Verified adm Call.body := by
  intro a t s hi hidle
  have hs : Holding t .nothing s := ⟨hi.1, hi.2, hidle⟩
  show Safe discipline _ a t Ends _ s
  cases a with
  | declareEvent tenantId createdBy data => exact safe_declareEvent tenantId createdBy data hs
  | runMatching e => exact safe_runMatching_call e hs
  | rebroadcast tenantId e => exact safe_rebroadcast tenantId e hs
  | acceptAssignment k user now =>
      exact (safe_acceptAssignment k user now True hs fun _ => trivial).mono
        fun _ _ _ => trivial
  | transitionAssignment k user new now =>
      exact (safe_transitionAssignment k user new now hs).mono fun _ _ _ => trivial
  | closeEvent tenantId e => exact safe_closeEvent tenantId e hs

end

end Volunteer
end Rcp
