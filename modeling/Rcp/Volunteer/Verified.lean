/-
Every call of the volunteer service keeps the discipline.

Each service function is walked through statement by statement.  Between two
statements the committed rows drift, so a fact is carried over either because it
is about a locked row or because rows only evolve.
-/
import Rcp.Volunteer.Discipline

namespace Rcp
namespace Volunteer

open Sql Sql.Table

section

variable {adm : Db → Db → Prop} {a : Call} {t : Sid} {s : Db}

/-- After the last commit only the refreshed row is read. -/
theorem safe_refresh {V : Type} (T : Access Db V) (k : Nat) (f : V → Reply)
    {W : Rows} (hs : Holding t W s) :
    Safe discipline adm a t Ends (refresh T k >>= fun v => pure (f v)) s := by
  refine safe_bind (R := fun _ _ => True) ?_ fun _ _ _ => trivial
  refine safe_query hs fun u _ => ?_
  split
  · trivial
  · trivial

/-- The refreshed row is there. -/
theorem safe_refresh_mapping {k : Uuid} {m : EventVolunteerMapping}
    {Q : Except Error Reply → Db → Prop} (hs : Holding t .nothing s)
    (hm : s.rows.mappings k = some m)
    (hQ : ∀ r u, Drift .nothing s.rows u.rows → Q (.ok r) u) :
    Safe discipline adm a t Q (refresh Db.mappingsT k >>= fun v => pure (.mapping k v)) s := by
  refine safe_yields_bind (R := fun _ u => Drift .nothing s.rows u.rows) ?_ fun v u hu => hQ _ u hu
  refine safe_selectKey Column.mappings hs fun u hu => ?_
  have hread : Column.mappings.get (schema.overlay .nothing (schema.rows s)) k = some m := by
    have hover := schema.nothing_over (schema.rows s)
    exact (congrArg (fun w : Rows => w.mappings k) hover).trans hm
  rw [hread]
  exact hu.drift

/-! ## Routes on an event -/

/-- Buckets of event `e`, possibly outdated. -/
def BucketsOf (w : Rows) (e : Uuid) (l : List (Uuid × EventRequirement)) : Prop :=
  ∀ r q, (r, q) ∈ l → ∃ q', w.requirements r = some q' ∧ q'.eventId = e

theorem BucketsOf.evolves {w w' : Rows} {e : Uuid} {l : List (Uuid × EventRequirement)}
    (h : BucketsOf w e l) (hw : Evolves w w') : BucketsOf w' e l := by
  intro r q hrq
  obtain ⟨q', hq', he⟩ := h r q hrq
  obtain ⟨q₂, hq₂, hsame⟩ := hw.requirements r q' hq'
  exact ⟨q₂, hq₂, hsame.event.trans he⟩

/-- The requirements an idle or locking session selects are buckets of the event. -/
theorem bucketsOf_select {W : Rows} (hs : Holding t W s) (hR : W.requirements = noRows)
    (e : Uuid) :
    BucketsOf s.rows e ((s.requirements.scan t).filter fun r => r.2.eventId == e) := by
  intro r q hrq
  obtain ⟨hmem, he⟩ := List.mem_filter.mp hrq
  have hread := (mem_scan (Db.bounded hs.bounded).requirements).mp hmem
  have hnone : s.requirements.writes t r = none :=
    congrFun ((congrArg Rows.requirements hs.writes).trans hR) r
  rw [read_of_not_written hnone] at hread
  exact ⟨q, hread, by simpa using he⟩

theorem safe_tenantEvent {tenantId e : Uuid} (hs : Holding t .nothing s) :
    Safe discipline adm a t (Returns fun r u => Holding t .nothing u ∧
      BucketsOf u.rows e r.2) (tenantEvent tenantId e) s := by
  refine safe_query hs fun u hu => ?_
  split
  · trivial
  · split
    · refine safe_query hu.toHolding fun v hv => ?_
      have hb := bucketsOf_select hu.toHolding rfl e
      exact ⟨hv.toHolding, hb.evolves (Drift.evolves hv.drift)⟩
    · trivial

theorem safe_closeEvent (tenantId e : Uuid) (hs : Holding t .nothing s) :
    Safe discipline adm (.closeEvent tenantId e) t Ends (closeEvent tenantId e) s := by
  refine safe_bind (safe_tenantEvent hs) ?_
  rintro ⟨event, buckets⟩ u ⟨hu, -⟩
  refine safe_bind (R := fun _ v => ∃ W, Holding t W v ∧
    (Commit (.closeEvent tenantId e) v.rows W ∨ W = .nothing)) ?_ ?_
  · unfold setEventStatus
    split
    · exact ⟨_, hu, .inr rfl⟩
    · refine safe_update Column.events hu (.free fun _ => trivial)
        (fun _ v hv => ?_) fun ev hev _ v hv => ?_
      · exact ⟨_, hv.toHolding, .inr rfl⟩
      · have hkeep : v.rows.events e = some ev :=
          hv.locked Column.events (k := e) (single_self _ _) hev
        exact ⟨_, hv.toHolding, .inl (Commit.closed hkeep)⟩
  · rintro - v ⟨W, hv, hc⟩
    exact safe_commit policy_lawful hv (fun _ => hc) fun z hz => safe_refresh _ _ _ hz.toHolding

/-! ## The own mapping -/

/-- The mapping read by its owner, possibly outdated. -/
structure OwnRow (w : Rows) (k u : Uuid) (m : EventVolunteerMapping) : Prop where
  row : ∃ m', w.mappings k = some m' ∧ SameMapping m m'
  owned : Owned w m u

theorem OwnRow.evolves {w w' : Rows} {k u : Uuid} {m : EventVolunteerMapping}
    (h : OwnRow w k u m) (hw : Evolves w w') : OwnRow w' k u m := by
  obtain ⟨⟨m', hm', hsame⟩, howned⟩ := h
  obtain ⟨m₂, hm₂, hsame₂⟩ := hw.mappings k m' hm'
  refine ⟨⟨m₂, hm₂, hsame.trans hsame₂⟩, ?_⟩
  unfold Owned
  rw [hw.profiles]
  exact howned

theorem Owned.same {w : Rows} {m m' : EventVolunteerMapping} {u : Uuid} (h : Owned w m u)
    (hs : SameMapping m m') : Owned w m' u := by
  unfold Owned
  rw [hs.volunteer]
  exact h

theorem Owned.evolves {w w' : Rows} {m : EventVolunteerMapping} {u : Uuid} (h : Owned w m u)
    (hw : Evolves w w') : Owned w' m u := by
  unfold Owned
  rw [hw.profiles]
  exact h

theorem ownRow_some {k u : Uuid} {m : EventVolunteerMapping} (hw : s.writes t = .nothing)
    (h : ownRow k u t s = some m) : OwnRow s.rows k u m := by
  have hM : s.mappings.writes t k = none := congrFun (congrArg Rows.mappings hw) k
  unfold ownRow at h
  split at h
  · cases h
  · rename_i m₁ hm₁
    have hP : s.profiles.writes t m₁.volunteerId = none :=
      congrFun (congrArg Rows.profiles hw) _
    split at h
    · cases h
    · rename_i v hv
      split at h
      · rename_i huser
        cases h
        rw [read_of_not_written hM] at hm₁
        rw [read_of_not_written hP] at hv
        exact ⟨⟨m, hm₁, .refl m⟩, v, hv, huser⟩
      · cases h

theorem ownRow_none {k u : Uuid} (hw : s.writes t = .nothing) (h : ownRow k u t s = none) :
    ¬ ∃ m, s.rows.mappings k = some m ∧ Owned s.rows m u := by
  rintro ⟨m, hm, v, hv, huser⟩
  have hM : s.mappings.writes t k = none := congrFun (congrArg Rows.mappings hw) k
  have hP : s.profiles.writes t m.volunteerId = none := congrFun (congrArg Rows.profiles hw) _
  have hm' : s.mappings.read t k = some m := (read_of_not_written hM).trans hm
  have hv' : s.profiles.read t m.volunteerId = some v := (read_of_not_written hP).trans hv
  simp [ownRow, hm', hv', huser] at h

/-- Both calls on a mapping start by reading it as its owner. -/
theorem safe_ownMapping {k u : Uuid} {γ : Type} {g : Option EventVolunteerMapping → Prog Db Error γ}
    {Q : Except Error γ → Db → Prop} (hs : Holding t .nothing s)
    (hnone : (¬ ∃ m, s.rows.mappings k = some m ∧ Owned s.rows m u) →
      ∀ v, Safe discipline adm a t Q (g none) v)
    (hsome : ∀ m v, Holding t .nothing v → OwnRow v.rows k u m →
      Safe discipline adm a t Q (g (some m)) v) :
    Safe discipline adm a t Q (ownMapping k u >>= g) s := by
  refine safe_query hs fun v hv => ?_
  cases hr : ownRow k u t s with
  | none => exact hnone (ownRow_none hs.writes hr) v
  | some m =>
      have hown := ownRow_some hs.writes hr
      exact hsome m v hv.toHolding (hown.evolves (Drift.evolves hv.drift))

/-- The call returns, or is refused. -/
def Refuses : Except Error Reply → Prop
  | .error (.assignmentError _) => True
  | .error _ => False
  | .ok _ => True

theorem safe_transitionAssignment (k user : Uuid) (new : AssignmentStatus) (now : Time)
    (hs : Holding t .nothing s) :
    Safe discipline adm (.transitionAssignment k user new now) t (fun r _ => Refuses r)
      (transitionAssignment k user new now) s := by
  unfold transitionAssignment
  split
  · trivial
  · rename_i allowedFrom hnew
    refine safe_ownMapping hs (fun _ _ => trivial) fun m s₁ h₁ hown => ?_
    refine safe_update Column.mappings h₁ (.free fun _ => trivial)
      (fun _ _ _ => trivial) fun row hrow hp s₂ h₂ => ?_
    have hrow₁ : s₁.rows.mappings k = some row := hrow
    obtain ⟨m', hm', hsame⟩ := hown.row
    rw [hrow₁] at hm'
    cases hm'
    have hrow₂ : s₂.rows.mappings k = some row := 
      h₂.locked Column.mappings (k := k) (single_self _ _) hrow₁
    have hown₂ : Owned s₂.rows row user :=
      (hown.owned.same hsame).evolves (Drift.evolves h₂.drift)
    -- the tenant of the event, which no commit changes
    obtain ⟨event, hevent₂⟩ : ∃ ev, s₂.rows.events row.eventId = some ev := by
      obtain ⟨q, hq, hqe⟩ := h₂.wellFormed.linked.bucket k row hrow₂
      rw [← hqe]
      exact h₂.wellFormed.linked.event _ q hq
    refine safe_selectKey Column.events h₂.toHolding fun s₃ h₃ => ?_
    rw [← hsame.event]
    split
    · rename_i hmissing
      cases hevent₂.symm.trans hmissing
    · rename_i ev hread
      cases hevent₂.symm.trans hread
      have hrow₃ : s₃.rows.mappings k = some row := 
        h₃.locked Column.mappings (k := k) (single_self _ _) hrow₂
      have hev₃ := Drift.evolves h₃.drift
      refine safe_insert Column.outbox h₃.toHolding (.free fun _ => trivial) fun o ho _ s₄ h₄ => ?_
      have hev₄ := Drift.evolves h₄.drift
      obtain ⟨st, hevent₄⟩ := (hev₃.trans hev₄).events _ event hevent₂
      have hrow₄ : s₄.rows.mappings k = some row :=
        h₄.locked Column.mappings (k := k) (single_self _ _) hrow₃
      have hown₄ := (hown₂.evolves hev₃).evolves hev₄
      have ho₄ : s₄.rows.outbox o = none := h₄.locked Column.outbox (k := o) (single_self _ _) ho
      have hc : Commit (.transitionAssignment k user new now) s₄.rows _ :=
        .moved hnew hrow₄ (by simpa using hp) hown₄ hevent₄ ho₄
      refine safe_commit policy_lawful h₄.toHolding (fun _ => .inl ?_) fun s₅ h₅ => ?_
      · rw [← hsame.requirement]
        exact hc
      · obtain ⟨m₅, hm₅, -⟩ := (Drift.evolves h₅.drift).mappings k (setMapping new now row) (by
          simp [Rows.nothing, Rows.writing])
        exact safe_refresh_mapping h₅.toHolding hm₅ fun _ _ _ => trivial

/-! ## Declaring an event -/

theorem NewRequirements.drift {W w w' : Rows} {e : Uuid} {R : Nat → Option EventRequirement}
    (h : NewRequirements w e R) (hd : Drift W w w') (hR : W.requirements = R) :
    NewRequirements w' e R := by
  intro r q hq
  obtain ⟨hnone, hrest⟩ := h r q hq
  exact ⟨(hd.locked Column.requirements (hR ▸ hq)).trans hnone, hrest⟩

theorem NewRequirements.insert {w : Rows} {e r : Uuid} {R : Nat → Option EventRequirement}
    {q : EventRequirement} (h : NewRequirements w e R) (hr : w.requirements r = none)
    (he : q.eventId = e) (hpos : 0 < q.requiredCount) (hzero : q.filledCount = 0)
    (hopen : q.status = .opened) : NewRequirements w e (Function.update R r (some q)) := by
  intro r' q' hq'
  rw [Function.update_apply] at hq'
  split at hq'
  · rename_i hr'
    cases hq'
    rw [hr']
    exact ⟨hr, he, hpos, hzero, hopen⟩
  · exact h r' q' hq'

/-- The session has inserted the new event `e` and some of its requirements. -/
structure Declaring (t : Sid) (e : Uuid) (ev : DisasterEvent) (R : Nat → Option EventRequirement)
    (s : Db) : Prop extends Holding t (.writing (single e ev) R noRows noRows) s where
  fresh : s.rows.events e = none
  buckets : NewRequirements s.rows e R

theorem Declaring.resumed {e : Uuid} {ev : DisasterEvent} {R : Nat → Option EventRequirement}
    {w : Rows} {u : Db} (hu : Resumed t (.writing (single e ev) R noRows noRows) w u)
    (hfresh : w.events e = none) (hR : NewRequirements w e R) : Declaring t e ev R u where
  toHolding := hu.toHolding
  fresh := hu.locked Column.events (k := e) (single_self _ _) hfresh
  buckets := hR.drift hu.drift rfl

theorem safe_insertRequirements {e : Uuid} {ev : DisasterEvent} (l : List RequirementCreate)
    {R : Nat → Option EventRequirement} (hs : Declaring t e ev R s)
    (hsome : l ≠ [] ∨ ∃ r q, R r = some q) :
    Safe discipline adm a t (Returns fun _ u => ∃ R, Declaring t e ev R u ∧ ∃ r q, R r = some q)
      (insertRequirements e l) s := by
  induction l generalizing s R with
  | nil =>
      have hne : ∃ r q, R r = some q := by simpa using hsome
      exact ⟨R, hs, hne⟩
  | cons c rest ih =>
      refine safe_insert Column.requirements hs.toHolding (.free fun _ => trivial)
        fun r hr _ u hu => ?_
      have hR := hs.buckets.insert (q := ⟨e, c.skill, c.requiredCount, 0, .opened⟩) hr rfl
        c.count_pos rfl rfl
      exact ih (.resumed hu hs.fresh hR) (.inr ⟨r, _, Function.update_self ..⟩)

theorem safe_declareEvent (tenantId createdBy : Uuid) (data : DisasterEventCreate)
    (hs : Holding t .nothing s) :
    Safe discipline adm (.declareEvent tenantId createdBy data) t Ends
      (declareEvent tenantId createdBy data) s := by
  unfold declareEvent
  split
  · trivial
  · refine safe_insert Column.events hs (.free fun _ => trivial) fun e he _ s₁ h₁ => ?_
    have hnew : NewRequirements s.rows e noRows := fun r q hq => by cases hq
    have hlist : data.requirements ≠ [] := by
      intro hnil
      have := data.requirements_pos
      rw [hnil] at this
      exact absurd this (by decide)
    refine safe_bind (safe_insertRequirements _ (.resumed h₁ he hnew) (.inl hlist)) ?_
    rintro - s₂ ⟨R, h₂, hne⟩
    refine safe_insert Column.outbox h₂.toHolding (.free fun _ => trivial) fun o ho _ s₃ h₃ => ?_
    have hfresh : s₃.rows.events e = none :=
      h₃.locked Column.events (k := e) (single_self _ _) h₂.fresh
    have hR : NewRequirements s₃.rows e R := h₂.buckets.drift h₃.drift rfl
    have ho₃ : s₃.rows.outbox o = none := h₃.locked Column.outbox (k := o) (single_self _ _) ho
    refine safe_commit policy_lawful h₃.toHolding (fun _ => .inl ?_)
      fun s₄ h₄ => safe_refresh _ _ _ h₄.toHolding
    exact .declared hfresh rfl hR hne (posts_single ho₃ ⟨rfl, rfl⟩)

/-! ## Matching -/

/-- While the event's row is locked no other call adds a mapping of the event. -/
theorem Drift.mapping_of_locked {W w w' : Rows} (h : Drift W w w') {e : Uuid}
    {ev : DisasterEvent} (he : W.events e = some ev) {j : Nat} {n : EventVolunteerMapping}
    (hn : w'.mappings j = some n) (hne : n.eventId = e) :
    ∃ n₀, w.mappings j = some n₀ ∧ SameMapping n₀ n := by
  induction h generalizing n with
  | refl => exact ⟨n, hn, .refl n⟩
  | step _ _ hc hapart ih =>
      rcases hc.mapping_origin hn with ⟨n₁, hn₁, hsame⟩ | ⟨e', ⟨ev', hev'⟩, hM, hnew⟩
      · obtain ⟨n₀, hn₀, hsame₀⟩ := ih hn₁ (hsame.event.symm.trans hne)
        exact ⟨n₀, hn₀, hsame₀.trans hsame⟩
      · have hee : e' = e := (hM.row j n hnew).2.1.symm.trans hne
        have hlock : Rows.events _ e = none := hapart .events e ev he
        rw [hee, hlock] at hev'
        cases hev'

theorem NewMappings.drift {W w w' : Rows} {e : Uuid} {ev : DisasterEvent}
    {M : Nat → Option EventVolunteerMapping} (h : NewMappings w e M) (hd : Drift W w w')
    (he : W.events e = some ev) (hM : W.mappings = M) : NewMappings w' e M where
  row := by
    intro k m hm
    have hkeep : w'.mappings k = w.mappings k := hd.locked Column.mappings (hM ▸ hm)
    rw [hkeep]
    exact h.row k m hm
  requirement := by
    intro k m hm
    obtain ⟨q, hq, hqe⟩ := h.requirement k m hm
    obtain ⟨q', hq', hsame⟩ := hd.evolves.requirements _ q hq
    exact ⟨q', hq', hsame.event.trans hqe⟩
  profile := by
    intro k m hm
    rw [hd.evolves.profiles]
    exact h.profile k m hm
  unmapped := by
    intro k m j n hm hn hne
    obtain ⟨n₀, hn₀, hsame⟩ := hd.mapping_of_locked he hn hne
    rw [hsame.volunteer]
    exact h.unmapped k m j n₀ hm hn₀ (hsame.event.symm.trans hne)
  distinct := h.distinct

theorem NewMappings.insert {w : Rows} {e : Uuid} {k : Nat}
    {M : Nat → Option EventVolunteerMapping} {m : EventVolunteerMapping} (h : NewMappings w e M)
    (hk : w.mappings k = none) (he : m.eventId = e) (hst : m.status = .notified)
    (hq : ∃ q, w.requirements m.requirementId = some q ∧ q.eventId = e)
    (hv : ∃ v, w.profiles m.volunteerId = some v)
    (hfree : ∀ j n, (M j).or (w.mappings j) = some n → n.eventId = e →
      n.volunteerId ≠ m.volunteerId) :
    NewMappings w e (Function.update M k (some m)) := by
  have hcases : ∀ j n, Function.update M k (some m) j = some n →
      (j = k ∧ n = m) ∨ (j ≠ k ∧ M j = some n) := by
    intro j n hj
    rw [Function.update_apply] at hj
    split at hj
    · rename_i hjk
      cases hj
      exact .inl ⟨hjk, rfl⟩
    · rename_i hjk
      exact .inr ⟨hjk, hj⟩
  refine ⟨?_, ?_, ?_, ?_, ?_⟩
  · intro j n hj
    rcases hcases j n hj with ⟨rfl, rfl⟩ | ⟨-, hj⟩
    · exact ⟨hk, he, hst⟩
    · exact h.row j n hj
  · intro j n hj
    rcases hcases j n hj with ⟨rfl, rfl⟩ | ⟨-, hj⟩
    · exact hq
    · exact h.requirement j n hj
  · intro j n hj
    rcases hcases j n hj with ⟨rfl, rfl⟩ | ⟨-, hj⟩
    · exact hv
    · exact h.profile j n hj
  · intro j n i l hj hi hie
    rcases hcases j n hj with ⟨rfl, rfl⟩ | ⟨-, hj⟩
    · refine hfree i l ?_ hie
      cases hMi : M i with
      | none => simpa using hi
      | some x =>
          rw [(h.row i x hMi).1] at hi
          cases hi
    · exact h.unmapped j n i l hj hi hie
  · intro j n i l hj hi hvol
    rcases hcases j n hj with ⟨rfl, rfl⟩ | ⟨-, hMj⟩
    · rcases hcases i l hi with ⟨rfl, -⟩ | ⟨-, hMi⟩
      · rfl
      · exact absurd hvol (hfree i l (by simp [hMi]) (h.row i l hMi).2.1)
    · rcases hcases i l hi with ⟨rfl, rfl⟩ | ⟨-, hMi⟩
      · exact absurd hvol.symm (hfree j n (by simp [hMj]) (h.row j n hMj).2.1)
      · exact h.distinct j n i l hMj hMi hvol

theorem Posts.drift {W w w' : Rows} {O : Nat → Option (Outbox Message)} {P : Message → Prop}
    (h : Posts w O P) (hd : Drift W w w') (hO : W.outbox = O) : Posts w' O P := by
  intro o row ho
  have hkeep : w'.outbox o = w.outbox o := hd.locked Column.outbox (hO ▸ ho)
  rw [hkeep]
  exact h o row ho

theorem Posts.insert {w : Rows} {O : Nat → Option (Outbox Message)} {P : Message → Prop}
    {o : Uuid} {row : Outbox Message} (h : Posts w O P) (ho : w.outbox o = none)
    (hP : P row.payload.data) : Posts w (Function.update O o (some row)) P := by
  intro o' row' ho'
  rw [Function.update_apply] at ho'
  split at ho'
  · rename_i heq
    cases ho'
    rw [heq]
    exact ⟨ho, hP⟩
  · exact h o' row' ho'

/-- The session has locked event `e` and added the mappings `M` and notices `O`. -/
structure Broadcast (t : Sid) (e : Uuid) (ev : DisasterEvent)
    (M : Nat → Option EventVolunteerMapping) (O : Nat → Option (Outbox Message)) (s : Db) :
    Prop extends Holding t (.writing (single e ev) noRows M O) s where
  event : s.rows.events e = some ev
  mappings : NewMappings s.rows e M
  notices : Posts s.rows O Message.Plain

section Broadcast

variable {e : Uuid} {ev : DisasterEvent} {M : Nat → Option EventVolunteerMapping}
  {O : Nat → Option (Outbox Message)}

theorem Broadcast.resumed {w : Rows} {u : Db}
    (hu : Resumed t (.writing (single e ev) noRows M O) w u) (hev : w.events e = some ev)
    (hM : NewMappings w e M) (hO : Posts w O Message.Plain) : Broadcast t e ev M O u where
  toHolding := hu.toHolding
  event := hu.locked Column.events (k := e) (single_self _ _) hev
  mappings := hM.drift hu.drift (single_self _ _) rfl
  notices := hO.drift hu.drift rfl

theorem Broadcast.keep {u : Db} (hs : Broadcast t e ev M O s)
    (hu : Resumed t (.writing (single e ev) noRows M O) s.rows u) :
    Broadcast t e ev M O u ∧ Evolves s.rows u.rows :=
  ⟨.resumed hu hs.event hs.mappings hs.notices, Drift.evolves hu.drift⟩

/-- The addition fits event `e`. -/
structure Fits (w : Rows) (e : Uuid) (x : Addition) : Prop where
  event : x.mapping.eventId = e
  status : x.mapping.status = .notified
  bucket : ∃ q, w.requirements x.mapping.requirementId = some q ∧ q.eventId = e
  volunteer : ∃ v, w.profiles x.mapping.volunteerId = some v
  notice : x.notice.Plain

theorem Fits.evolves {w w' : Rows} {x : Addition} (h : Fits w e x) (hw : Evolves w w') :
    Fits w' e x where
  event := h.event
  status := h.status
  bucket := by
    obtain ⟨q, hq, hqe⟩ := h.bucket
    obtain ⟨q', hq', hsame⟩ := hw.requirements _ q hq
    exact ⟨q', hq', hsame.event.trans hqe⟩
  volunteer := by
    rw [hw.profiles]
    exact h.volunteer
  notice := h.notice

/-- The addition is for a requirement of the list that was loaded as OPEN. -/
def Addition.For (x : Addition) (l : List (Uuid × EventRequirement)) : Prop :=
  ∃ r q, (r, q) ∈ l ∧ q.status = .opened ∧ x.mapping.requirementId = r ∧
    x.notice.notifiedRequirement = some r

theorem Addition.For.cons {x : Addition} {l : List (Uuid × EventRequirement)} (h : x.For l)
    (b : Uuid × EventRequirement) : x.For (b :: l) := by
  obtain ⟨r, q, hmem, hrest⟩ := h
  exact ⟨r, q, List.mem_cons_of_mem _ hmem, hrest⟩

/-- The rows that were added come from additions with `G`. -/
structure Added (G : Addition → Prop) (M : Nat → Option EventVolunteerMapping)
    (O : Nat → Option (Outbox Message)) : Prop where
  mappings : ∀ k m, M k = some m → ∃ x, G x ∧ m = x.mapping
  notices : ∀ o row, O o = some row → ∃ x, G x ∧ row.payload.data = x.notice

theorem Added.insert {G : Addition → Prop} {x : Addition} (h : Added G M O) (hx : G x) (k o : Nat)
    (key : String) (tenant : Option Uuid) :
    Added G (Function.update M k (some x.mapping))
      (Function.update O o (some (outboxRow key tenant x.notice o))) where
  mappings := by
    intro j m hj
    rw [Function.update_apply] at hj
    split at hj
    · cases hj
      exact ⟨x, hx, rfl⟩
    · exact h.mappings j m hj
  notices := by
    intro j row hj
    rw [Function.update_apply] at hj
    split at hj
    · cases hj
      exact ⟨x, hx, rfl⟩
    · exact h.notices j row hj

theorem safe_findCandidates {districts : List String} {skill : String} {mapped : List Uuid}
    (hs : Broadcast t e ev M O s) :
    Safe discipline adm a t (Returns fun l u => Broadcast t e ev M O u ∧
      Evolves s.rows u.rows ∧ ∀ v ∈ l, ∃ p, u.rows.profiles v.1 = some p)
      (findCandidates districts skill mapped) s := by
  refine safe_query hs.toHolding fun u hu => ?_
  obtain ⟨hu, hev⟩ := hs.keep hu
  refine ⟨hu, hev, fun v hv => ?_⟩
  have hmem := List.mem_of_mem_filter hv
  rw [List.mem_insertionSort] at hmem
  have hread := (mem_scan (Db.bounded hs.bounded).profiles).mp (List.mem_of_mem_filter hmem)
  have hnone : s.profiles.writes t v.1 = none := congrFun (congrArg Rows.profiles hs.writes) v.1
  rw [read_of_not_written hnone] at hread
  rw [hev.profiles]
  exact ⟨v.2, hread⟩

theorem safe_planBuckets {event : DisasterEvent} {districts : List String}
    (l : List (Uuid × EventRequirement)) (mapped : List Uuid) (hs : Broadcast t e ev M O s)
    (hl : BucketsOf s.rows e l) :
    Safe discipline adm a t (Returns fun xs u => Broadcast t e ev M O u ∧
      Evolves s.rows u.rows ∧ ∀ x ∈ xs, Fits u.rows e x ∧ x.For l)
      (planBuckets e event districts l mapped) s := by
  induction l generalizing s mapped with
  | nil => exact ⟨hs, .refl _, fun x hx => by cases hx⟩
  | cons b rest ih =>
      have hrest : BucketsOf s.rows e rest := fun r q hrq => hl r q (List.mem_cons_of_mem _ hrq)
      unfold planBuckets
      split
      · refine (ih mapped hs hrest).mono fun r u hr => ?_
        cases r with
        | error err => trivial
        | ok xs =>
            obtain ⟨hu, hev, hxs⟩ := hr
            exact ⟨hu, hev, fun x hx => ⟨(hxs x hx).1, (hxs x hx).2.cons b⟩⟩
      · rename_i hopen
        refine safe_returns_bind (safe_findCandidates hs) ?_
        intro volunteers s₁ hs₁
        obtain ⟨hs₁, hev₁, hvol⟩ := hs₁
        refine safe_returns_bind (ih _ hs₁ (hrest.evolves hev₁)) ?_
        intro others s₂ hs₂
        obtain ⟨hs₂, hev₂, hothers⟩ := hs₂
        refine ⟨hs₂, hev₁.trans hev₂, fun x hx => ?_⟩
        rcases List.mem_append.mp hx with hx | hx
        · obtain ⟨v, hv, rfl⟩ := List.mem_map.mp hx
          have hbucket := (hl.evolves (hev₁.trans hev₂)) b.1 b.2 (List.mem_cons_self ..)
          have hprofile := hvol v hv
          rw [← hev₂.profiles] at hprofile
          exact ⟨⟨rfl, rfl, hbucket, hprofile, rfl, rfl⟩, b.1, b.2, List.mem_cons_self ..,
            not_not.mp hopen, rfl, rfl⟩
        · exact ⟨(hothers x hx).1, (hothers x hx).2.cons b⟩

theorem safe_flushAdditions (xs : List Addition) {G : Addition → Prop}
    (hs : Broadcast t e ev M O s) (hadded : Added G M O)
    (hxs : ∀ x ∈ xs, Fits s.rows e x ∧ G x) :
    Safe discipline adm a t (Returns fun _ u => ∃ M O, Broadcast t e ev M O u ∧ Added G M O)
      (flushAdditions xs) s := by
  induction xs generalizing s M O with
  | nil => exact ⟨M, O, hs, hadded⟩
  | cons x rest ih =>
      refine safe_insertUnique Column.mappings hs.toHolding (.free fun _ => trivial)
        (fun _ _ => trivial) ?_
      intro k hk _ hfree s₁ h₁
      obtain ⟨hx, hG⟩ := hxs x (List.mem_cons_self ..)
      have hM := hs.mappings.insert hk hx.event hx.status hx.bucket hx.volunteer (by
        intro j n hj hne hv
        have hc := hfree j n hj
        rw [hne, hx.event, hv] at hc
        simp at hc)
      have hs₁ : Broadcast t e ev _ O s₁ := .resumed h₁ hs.event hM hs.notices
      have hev₁ := Drift.evolves h₁.drift
      refine safe_insert Column.outbox hs₁.toHolding (.free fun _ => trivial) fun o ho _ s₂ h₂ => ?_
      have hplain : (outboxRow "volunteer.assignment.notified" (some x.tenantId) x.notice
          o).payload.data.Plain := hx.notice
      have hO := hs₁.notices.insert ho hplain
      have hs₂ : Broadcast t e ev _ _ s₂ := .resumed h₂ hs₁.event hs₁.mappings hO
      refine ih hs₂ (hadded.insert hG k o _ _) fun y hy => ?_
      obtain ⟨hfits, hGy⟩ := hxs y (List.mem_cons_of_mem _ hy)
      exact ⟨(hfits.evolves hev₁).evolves (Drift.evolves h₂.drift), hGy⟩

theorem added_nothing (G : Addition → Prop) : Added G noRows noRows where
  mappings k m h := by cases h
  notices o row h := by cases h

theorem safe_matchBuckets {event : DisasterEvent} {l : List (Uuid × EventRequirement)}
    (hs : Broadcast t e ev noRows noRows s) (hl : BucketsOf s.rows e l)
    (hcall : event.status = .declared ∨ event.status = .broadcasting →
      MatchCall a e ev .broadcasting ∧
        (event.status = .broadcasting → MatchCall a e ev ev.status)) :
    Safe discipline adm a t (Returns fun _ u => ∃ W, Holding t W u)
      (matchBuckets e event l) s := by
  unfold matchBuckets
  split
  · exact ⟨_, hs.toHolding⟩
  · rename_i hst
    have hst' : event.status = .declared ∨ event.status = .broadcasting := by
      by_contra hno
      exact hst (not_or.mp hno)
    obtain ⟨hbroad, hsame⟩ := hcall hst'
    split
    · trivial
    · refine safe_query hs.toHolding fun s₁ h₁ => ?_
      obtain ⟨h₁, hev₁⟩ := hs.keep h₁
      refine safe_returns_bind (safe_planBuckets l _ h₁ (hl.evolves hev₁)) ?_
      intro xs s₂ h₂
      obtain ⟨h₂, -, hxs⟩ := h₂
      refine safe_returns_bind (safe_flushAdditions xs h₂ (added_nothing _) hxs) ?_
      intro _ s₃ h₃
      obtain ⟨M, O, h₃, -⟩ := h₃
      refine safe_returns_bind (R := fun _ u => ∃ W, Holding t W u ∧ Commit a u.rows W) ?_ ?_
      · unfold setEventStatus
        split
        · rename_i hb
          exact ⟨_, h₃.toHolding, .matched h₃.event (hsame hb) h₃.mappings h₃.notices⟩
        · refine safe_update Column.events h₃.toHolding (.free fun _ => trivial)
            (fun hno => ?_) fun v hv _ s₄ h₄ => ?_
          · have := hno ev (by simp [Rows.writing, single_self])
            cases this
          · have hve : v = ev := by
              simpa [Rows.overlay, Rows.writing, single_self, eq_comm] using hv
            subst hve
            have h₄' : Resumed t (.writing (Function.update (single e v) e
                (some { v with status := .broadcasting })) noRows M O) s₃.rows s₄ := h₄
            rw [update_single] at h₄'
            have hd : s₄.rows.events e = some v := 
              h₄'.locked Column.events (k := e) (single_self _ _) h₃.event
            refine ⟨_, h₄'.toHolding, ?_⟩
            exact .matched hd hbroad (h₃.mappings.drift h₄'.drift (single_self _ _) rfl)
              (h₃.notices.drift h₄'.drift rfl)
      · intro _ u hu
        obtain ⟨W, hu, hc⟩ := hu
        exact safe_commit policy_lawful hu (fun _ => .inl hc) fun v hv => ⟨_, hv.toHolding⟩

end Broadcast

/-- Nothing has been added when the event's row has just been locked. -/
theorem Broadcast.locked {e : Uuid} {ev : DisasterEvent} {w : Rows}
    (hs : Resumed t (.writing (single e ev) noRows noRows noRows) w s)
    (hev : w.events e = some ev) : Broadcast t e ev noRows noRows s := by
  refine .resumed hs hev ?_ (posts_nothing _)
  constructor <;> intro k m <;> simp

theorem safe_runMatching_call (e : Uuid) (hs : Holding t .nothing s) :
    Safe discipline adm (.runMatching e) t Ends (Call.body (.runMatching e)) s := by
  refine safe_bind (R := fun _ _ => True) ?_ fun _ _ _ => trivial
  refine safe_forUpdate Column.events hs (.free fun _ => trivial)
    (fun _ _ _ => trivial) fun ev hev s₁ h₁ => ?_
  have hb := Broadcast.locked h₁ hev
  refine safe_query hb.toHolding fun s₂ h₂ => ?_
  have hl := bucketsOf_select hb.toHolding rfl e
  obtain ⟨h₂, hev₂⟩ := hb.keep h₂
  refine (safe_matchBuckets h₂ (hl.evolves hev₂) ?_).mono ?_
  · intro hst
    refine ⟨.inl ⟨rfl, hst, rfl⟩, fun hbroad => .inl ⟨rfl, hst, hbroad⟩⟩
  · intro r u _
    cases r with
    | ok n => trivial
    | error err => trivial

theorem safe_rebroadcast (tenantId e : Uuid) (hs : Holding t .nothing s) :
    Safe discipline adm (.rebroadcast tenantId e) t Ends (rebroadcast tenantId e) s := by
  refine safe_bind (safe_tenantEvent hs) ?_
  intro loaded s₁ h₁
  obtain ⟨event, buckets⟩ := loaded
  obtain ⟨h₁, hl⟩ := h₁
  show Safe discipline adm _ t Ends (if _ then _ else _) s₁
  split
  · trivial
  · refine safe_bind (R := fun _ u => ∃ W, Holding t W u) ?_ fun _ u hu => ?_
    · refine safe_forUpdate Column.events h₁ (.free fun _ => trivial) ?_ ?_
      · intro _ u hu
        exact ⟨_, hu.toHolding⟩
      · intro ev hev s₂ h₂
        refine safe_matchBuckets (.locked h₂ hev) (hl.evolves (Drift.evolves h₂.drift)) ?_
        intro _
        exact ⟨.inr ⟨⟨_, rfl⟩, .inr rfl⟩, fun _ => .inr ⟨⟨_, rfl⟩, .inl rfl⟩⟩
    · obtain ⟨W, hu⟩ := hu
      exact safe_refresh _ _ _ hu

end

end Volunteer
end Rcp
