/-
First come, first served.

Some volunteers, each notified for the same bucket, accept at the same time.  Their
sessions interleave statement by statement, and any of them may be killed before it has
committed.  The rows keep a tally: the counter of the bucket has grown by the number of
mappings that are ACCEPTED, and nobody is turned away before it is full.  The sessions
keep an account of the mappings: a mapping is answered by its own session only, which
then ends with what the mapping shows.
-/
import Rcp.Volunteer.Lifecycle

namespace Rcp
namespace Volunteer

open Sql Sql.Table Relation

structure Acceptance where
  mappingId : Uuid
  volunteerUserId : Uuid
  now : Time

def Acceptance.call (x : Acceptance) : Call :=
  .acceptAssignment x.mappingId x.volunteerUserId x.now

def Rows.statusOf (w : Rows) (k : Uuid) : Option AssignmentStatus :=
  (w.mappings k).map EventVolunteerMapping.status

theorem Rows.statusOf_eq {w : Rows} {k : Uuid} {m : EventVolunteerMapping}
    (h : w.mappings k = some m) : w.statusOf k = some m.status := by
  unfold Rows.statusOf
  rw [h]
  rfl

theorem Rows.statusOf_over {W w : Rows} {k : Uuid} {m : EventVolunteerMapping}
    (hW : W.mappings = single k m) (j : Uuid) :
    (W.overlay w).statusOf j = if j = k then some m.status else w.statusOf j := by
  by_cases hj : j = k
  · subst hj
    simp [Rows.statusOf, Rows.overlay, hW, single_self]
  · simp [Rows.statusOf, Rows.overlay, hW, single_of_ne _ hj, hj]

/-! ## The tally -/

/-- Only one element changes from uncounted to counted. -/
theorem countP_flip {α : Type} {l : List α} {key : α → Nat} (hl : (l.map key).Nodup)
    {p p' : α → Bool} {x : α} (hx : x ∈ l) (hp : p x = false) (hp' : p' x = true)
    (hother : ∀ y ∈ l, key y ≠ key x → p' y = p y) : l.countP p' = l.countP p + 1 := by
  induction l with
  | nil => cases hx
  | cons y rest ih =>
      obtain ⟨hy, hrest⟩ := List.nodup_cons.mp hl
      rcases List.mem_cons.mp hx with rfl | hx
      · have hsame : rest.countP p' = rest.countP p := by
          refine List.countP_congr fun z hz => ?_
          have hne : key z ≠ key x := fun h => hy (List.mem_map.mpr ⟨z, hz, h⟩)
          rw [hother z (List.mem_cons_of_mem _ hz) hne]
        simp [hp, hp', hsame]
      · have hne : key y ≠ key x := fun h => hy (List.mem_map.mpr ⟨x, hx, h.symm⟩)
        have hrest' := ih hrest hx fun z hz => hother z (List.mem_cons_of_mem _ hz)
        rw [List.countP_cons, List.countP_cons, hrest', hother y (List.mem_cons_self ..) hne]
        omega

def accepted (w : Rows) (x : Acceptance) : Bool := w.statusOf x.mappingId = some .accepted

def rejectedFull (w : Rows) (x : Acceptance) : Bool := w.statusOf x.mappingId = some .rejectedFull

def notified (w : Rows) (x : Acceptance) : Bool := w.statusOf x.mappingId = some .notified

/-- The acceptances `l` compete for bucket `r`, of which `filled` of `required` places
were taken before. -/
structure Tally (l : List Acceptance) (r : Uuid) (required filled : Int) (w : Rows) : Prop where
  bucket : ∃ q, w.requirements r = some q ∧ q.requiredCount = required ∧
    q.filledCount = filled + l.countP (accepted w) ∧
    ((∃ x ∈ l, rejectedFull w x = true) → q.filledCount = q.requiredCount)
  mapping : ∀ x ∈ l, ∃ m, w.mappings x.mappingId = some m ∧ m.requirementId = r ∧
    (m.status = .notified ∨ m.status = .accepted ∨ m.status = .rejectedFull)

section Tally

variable {l : List Acceptance} {r : Uuid} {required filled : Int} {w W : Rows}

theorem Tally.mapping_commit (hs : Tally l r required filled w) {x y : Acceptance} (hy : y ∈ l)
    (h : Commit x.call w W) :
    ∃ m, (W.overlay w).mappings y.mappingId = some m ∧ m.requirementId = r ∧
      (m.status = .notified ∨ m.status = .accepted ∨ m.status = .rejectedFull) := by
  obtain ⟨m, hm, hmr, hst⟩ := hs.mapping y hy
  obtain ⟨m', hm', hsame⟩ := h.evolves.mappings _ m hm
  refine ⟨m', hm', hsame.requirement.trans hmr, ?_⟩
  cases h.mapping_step hm hm' with
  | kept => exact hst
  | accepted => exact .inr (.inl rfl)
  | rejected => exact .inr (.inr rfl)
  | moved ha => cases ha

theorem Tally.commit (hl : (l.map Acceptance.mappingId).Nodup) (hw : WellFormed w)
    (hs : Tally l r required filled w) {x : Acceptance} (hx : x ∈ l) (h : Commit x.call w W) :
    Tally l r required filled (W.overlay w) := by
  refine ⟨?_, fun y hy => hs.mapping_commit hy h⟩
  obtain ⟨q, hq, hrequired, hfilled, hfull⟩ := hs.bucket
  obtain ⟨row, q₀, hans, hcase⟩ := Commit.answer h
  obtain ⟨m, hm, hmr, -⟩ := hs.mapping x hx
  cases hm.symm.trans hans.mapping
  subst hmr
  cases hq.symm.trans hans.bucket
  have hbefore : w.statusOf x.mappingId = some .notified := by
    rw [Rows.statusOf_eq hm, hans.notified]
  rcases hcase with ⟨hle, hR, hM⟩ | ⟨hlt, hM, q', hR, hrequired', hfilled'⟩
  · -- turned away
    have hstatus := Rows.statusOf_over (w := w) hM
    refine ⟨q, by simp [Rows.overlay, hR, hq], hrequired, ?_, fun _ => ?_⟩
    · have hsame : l.countP (accepted (W.overlay w)) = l.countP (accepted w) := by
        refine List.countP_congr fun y hy => ?_
        unfold accepted
        rw [hstatus]
        split
        · rename_i hj
          rw [hj, hbefore]
          simp [setMapping]
        · rfl
      rw [hsame]
      exact hfilled
    · have hwithin := (hw.ledger _ q hq).within
      omega
  · -- accepted, so there was a place and nobody was turned away
    have hstatus := Rows.statusOf_over (w := w) hM
    have hcount : l.countP (accepted (W.overlay w)) = l.countP (accepted w) + 1 := by
      refine countP_flip hl hx ?_ ?_ fun y hy hne => ?_
      · simp [accepted, hbefore]
      · simp [accepted, hstatus, setMapping]
      · simp [accepted, hstatus, hne]
    refine ⟨q', by simp [Rows.overlay, hR, single_self], hrequired'.trans hrequired, ?_, ?_⟩
    · rw [hcount, hfilled', hfilled]
      omega
    · rintro ⟨y, hy, hrej⟩
      exfalso
      have hback : rejectedFull w y = true := by
        unfold rejectedFull at hrej ⊢
        rw [hstatus] at hrej
        split at hrej
        · simp [setMapping] at hrej
        · exact hrej
      have := hfull ⟨y, hy, hback⟩
      omega

/-- Every competitor stands in one of three ways. -/
theorem Tally.count (hs : Tally l r required filled w) :
    l.countP (fun x => !notified w x) = l.countP (accepted w) + l.countP (rejectedFull w) := by
  have hmapping := hs.mapping
  clear hs
  induction l with
  | nil => rfl
  | cons x rest ih =>
      have hrest := ih fun y hy => hmapping y (List.mem_cons_of_mem _ hy)
      obtain ⟨m, hm, -, hst⟩ := hmapping x (List.mem_cons_self ..)
      have hstatus := Rows.statusOf_eq hm
      rw [List.countP_cons, List.countP_cons, List.countP_cons, hrest]
      have hnotified : notified w x = decide (m.status = .notified) := by
        simp [notified, hstatus]
      have haccepted : accepted w x = decide (m.status = .accepted) := by
        simp [accepted, hstatus]
      have hrejected : rejectedFull w x = decide (m.status = .rejectedFull) := by
        simp [rejectedFull, hstatus]
      rw [hnotified, haccepted, hrejected]
      rcases hst with hst | hst | hst
      · simp [hst]
      · simp [hst]
        omega
      · simp [hst]
        omega

/-- Of those who are answered as many are accepted as there were places. -/
theorem Tally.served (hw : WellFormed w) (hs : Tally l r required filled w) {n : Nat}
    (hn : l.countP (fun x => !notified w x) = n) :
    l.countP (accepted w) = min n (required - filled).toNat ∧
      l.countP (rejectedFull w) = n - min n (required - filled).toNat := by
  obtain ⟨q, hq, hrequired, hfilled, hfull⟩ := hs.bucket
  have hcount := hs.count
  have hwithin := (hw.ledger r q hq).within
  by_cases hrej : ∃ x ∈ l, rejectedFull w x = true
  · have := hfull hrej
    omega
  · have hzero : l.countP (rejectedFull w) = 0 := by
      rw [List.countP_eq_zero]
      exact fun x hx h => hrej ⟨x, hx, h⟩
    omega

end Tally

/-! ## The sessions -/

/-- A session is killed only while its mapping is NOTIFIED, that is before it has
committed. -/
def EarlyAbort (c : Cluster) (t : Sid) (c' : Cluster) : Prop :=
  ∀ se k user now, c.sessions t = some se → se.call = .acceptAssignment k user now →
    c'.sessions t = none → c'.log = c.log → c.store.rows.statusOf k = some .notified

/-- The open sessions run on, and no other is opened. -/
def Competes : Cluster → Cluster → Prop :=
  ReflTransGen fun c c' => ∃ t, Step Call.body c t c' ∧ c'.fresh = c.fresh ∧ EarlyAbort c t c'

/-- What the sessions opened after `c₀` for the acceptances `l` have to show. -/
structure Account (c₀ : Cluster) (l : List Acceptance) (c : Cluster) : Prop where
  sessions : ∀ t se, c.sessions t = some se →
    ∃ i x, t = c₀.fresh + i ∧ l[i]? = some x ∧ se.call = x.call
  log : ∃ ended, c.log = ended ++ c₀.log ∧
    ∀ e ∈ ended, ∃ i x, e.1 = c₀.fresh + i ∧ l[i]? = some x ∧ e.2.1 = x.call
  left : ∀ i x, l[i]? = some x → c.sessions (c₀.fresh + i) = none →
    (∃ r, (c₀.fresh + i, x.call, r) ∈ c.log) ∨ notified c.store.rows x = true
  answered : ∀ i x, l[i]? = some x → notified c.store.rows x = false →
    c.Moved Db.rows RaisedLate (c₀.fresh + i) x.call

section Account

variable {profiles : List VolunteerProfile} {c₀ c c' : Cluster} {l : List Acceptance} {t : Sid}

theorem index_unique (hl : (l.map Acceptance.mappingId).Nodup) {i j : Nat} {x y : Acceptance}
    (hi : l[i]? = some x) (hj : l[j]? = some y) (h : x.mappingId = y.mappingId) : i = j := by
  obtain ⟨hlt, -⟩ := List.getElem?_eq_some_iff.mp hi
  refine (List.getElem?_inj (l := l.map Acceptance.mappingId) (by simpa using hlt) hl).mp ?_
  rw [List.getElem?_map, List.getElem?_map, hi, hj]
  simp [h]

/-- A mapping is answered by its own session. -/
theorem Account.own_step (h : Run Call.body (Config.start (Db.initial profiles)) c)
    (hl : (l.map Acceptance.mappingId).Nodup) (hc : Account c₀ l c)
    (hstep : Step Call.body c t c') {i : Nat} {x : Acceptance} (hi : l[i]? = some x)
    (hbefore : notified c.store.rows x = true) (hafter : notified c'.store.rows x = false) :
    t = c₀.fresh + i := by
  have hstatus : c.store.rows.statusOf x.mappingId = some .notified := by
    simpa [notified] using hbefore
  obtain ⟨m, hm, hst⟩ := Option.map_eq_some_iff.mp hstatus
  obtain ⟨m', hm'⟩ := step_mapping_stays h hstep hm
  rcases step_mapping h hstep hm' with ⟨hnone, -⟩ | ⟨m₀, hm₀, hor⟩
  · cases hnone.symm.trans hm
  · cases hm₀.symm.trans hm
    rcases hor with rfl | hfollows
    · have hstatus' := Rows.statusOf_eq (w := c'.store.rows) hm'
      simp [notified, hstatus', hst] at hafter
    · obtain ⟨se, v, hse, -, hasks⟩ := hfollows.asked
      obtain ⟨j, y, rfl, hj, hcall⟩ := hc.sessions t se hse
      rw [hcall] at hasks
      have hkey : x.mappingId = y.mappingId := by
        generalize hcy : y.call = a at hasks
        cases hasks with
        | accept now =>
            simp only [Acceptance.call, Call.acceptAssignment.injEq] at hcy
            exact hcy.1.symm
        | move => cases hcy
      rw [index_unique hl hi hj hkey]

/-- The session that was opened for an acceptance makes its call. -/
theorem Account.call_eq (hc : Account c₀ l c) {i : Nat} {x : Acceptance} (hi : l[i]? = some x)
    {se : Session Db Error Reply Call} (hse : c.sessions (c₀.fresh + i) = some se) :
    se.call = x.call := by
  obtain ⟨j, y, htj, hj, hcall⟩ := hc.sessions _ se hse
  have hij : i = j := Nat.add_left_cancel htj
  subst hij
  cases hi.symm.trans hj
  exact hcall

/-- A session that answers its mapping goes with the decision. -/
theorem Account.answers (h : Run Call.body (Config.start (Db.initial profiles)) c)
    (hl : (l.map Acceptance.mappingId).Nodup) (hc : Account c₀ l c)
    (hstep : Step Call.body c t c') {i : Nat} {x : Acceptance} (hi : l[i]? = some x)
    (hafter : notified c'.store.rows x = false) :
    c'.Moved Db.rows RaisedLate (c₀.fresh + i) x.call := by
  cases hbefore : notified c.store.rows x with
  | false => exact hstep.moved_keep (hc.answered i x hi hbefore)
  | true =>
      have ht := hc.own_step h hl hstep hi hbefore hafter
      have hrows : c'.store.rows ≠ c.store.rows := by
        intro heq
        rw [heq, hbefore] at hafter
        cases hafter
      obtain ⟨se, hse, hmoved⟩ := hstep.moved (fun _ _ => rfl) (h.logged (Config.start_logged _))
        (h.phased body_once (Config.start_phased _)) hrows
      subst ht
      rw [← hc.call_eq hi hse]
      exact hmoved

/-- A mapping whose session is gone has no one left to answer it. -/
theorem Account.left_step (h : Run Call.body (Config.start (Db.initial profiles)) c)
    (hl : (l.map Acceptance.mappingId).Nodup) (hc : Account c₀ l c)
    (hstep : Step Call.body c t c') {i : Nat} {x : Acceptance} (hi : l[i]? = some x)
    (hnone : c.sessions (c₀.fresh + i) = none) (hne : c₀.fresh + i ≠ t) :
    (∃ r, (c₀.fresh + i, x.call, r) ∈ c.log) ∨ notified c'.store.rows x = true := by
  rcases hc.left i x hi hnone with hlog | hbefore
  · exact .inl hlog
  · right
    by_contra hafter
    exact hne (hc.own_step h hl hstep hi hbefore (by simpa using hafter)).symm

theorem Account.step (h : Run Call.body (Config.start (Db.initial profiles)) c)
    (hl : (l.map Acceptance.mappingId).Nodup) (hc : Account c₀ l c)
    (hstep : Step Call.body c t c') (hfresh : c'.fresh = c.fresh) (habort : EarlyAbort c t c') :
    Account c₀ l c' := by
  have hanswered : ∀ i x, l[i]? = some x → notified c'.store.rows x = false →
      c'.Moved Db.rows RaisedLate (c₀.fresh + i) x.call := fun i x hi hafter =>
    hc.answers h hl hstep hi hafter
  have hleft : ∀ i x, l[i]? = some x → c.sessions (c₀.fresh + i) = none → c₀.fresh + i ≠ t →
      (∃ r, (c₀.fresh + i, x.call, r) ∈ c.log) ∨ notified c'.store.rows x = true :=
    fun i x hi hnone hne => hc.left_step h hl hstep hi hnone hne
  cases hstep with
  | start a => exact absurd hfresh (Nat.succ_ne_self _)
  | @exec _ se _ run k b s' hse hp hr =>
      refine ⟨fun o se' hse' => ?_, hc.log, fun i x hi hnone => ?_, hanswered⟩
      · by_cases ho : o = t
        · subst ho
          simp only [Function.update_self, Option.some.injEq] at hse'
          subst hse'
          exact hc.sessions o se hse
        · exact hc.sessions o se' (by simpa [ho] using hse')
      · have hne : c₀.fresh + i ≠ t := by
          intro heq
          simp [heq] at hnone
        exact hleft i x hi (by simpa [hne] using hnone) hne
  | @close _ se o hse hout =>
      refine ⟨fun o' se' hse' => ?_, ?_, fun i x hi hnone => ?_, hanswered⟩
      · by_cases ho : o' = t
        · simp [ho] at hse'
        · exact hc.sessions o' se' (by simpa [ho] using hse')
      · obtain ⟨ended, heq, hended⟩ := hc.log
        refine ⟨(t, se.call, o) :: ended, by simp [heq], fun e he => ?_⟩
        rcases List.mem_cons.mp he with rfl | he
        · exact hc.sessions t se hse
        · exact hended e he
      · by_cases ht : c₀.fresh + i = t
        · subst ht
          refine .inl ⟨o, ?_⟩
          rw [← hc.call_eq hi hse]
          exact List.mem_cons_self ..
        · rcases hleft i x hi (by simpa [ht] using hnone) ht with ⟨r, hlog⟩ | hafter
          · exact .inl ⟨r, List.mem_cons_of_mem _ hlog⟩
          · exact .inr hafter
  | @crash _ se hse =>
      refine ⟨fun o' se' hse' => ?_, hc.log, fun i x hi hnone => ?_, hanswered⟩
      · by_cases ho : o' = t
        · simp [ho] at hse'
        · exact hc.sessions o' se' (by simpa [ho] using hse')
      · by_cases ht : c₀.fresh + i = t
        · subst ht
          have hearly := habort se _ _ _ hse (hc.call_eq hi hse) (by simp) rfl
          right
          have hrows : (Transactional.rollback (c₀.fresh + i) c.store).rows = c.store.rows := rfl
          simpa [notified, hrows] using hearly
        · exact hleft i x hi (by simpa [ht] using hnone) ht

/-! ## From the opening to the end -/

/-- A volunteer notified for bucket `r` accepts in their own name. -/
def Acceptance.Invited (w : Rows) (r : Uuid) (x : Acceptance) : Prop :=
  ∃ m, w.mappings x.mappingId = some m ∧ m.requirementId = r ∧ m.status = .notified ∧
    Owned w m x.volunteerUserId

theorem Acceptance.Invited.notified {w : Rows} {r : Uuid} {x : Acceptance} (h : x.Invited w r) :
    notified w x = true := by
  obtain ⟨m, hm, -, hst, -⟩ := h
  simp [Volunteer.notified, Rows.statusOf_eq hm, hst]

theorem opens_session (hidle : ∀ t, c₀.sessions t = none) {se : Session Db Error Reply Call}
    (hse : (c₀.opens Call.body (l.map Acceptance.call)).sessions t = some se) :
    ∃ i x, t = c₀.fresh + i ∧ l[i]? = some x ∧ se = ⟨x.call, none, Call.body x.call⟩ := by
  by_cases ht : t < c₀.fresh
  · rw [Config.opens_old _ ht, hidle t] at hse
    cases hse
  · obtain ⟨i, rfl⟩ := Nat.exists_eq_add_of_le (Nat.le_of_not_lt ht)
    rw [Config.opens_new, List.getElem?_map, Option.map_map] at hse
    obtain ⟨x, hx, rfl⟩ := Option.map_eq_some_iff.mp hse
    exact ⟨i, x, rfl, hx, rfl⟩

theorem opens_account (hidle : ∀ t, c₀.sessions t = none)
    (hn : ∀ x ∈ l, notified c₀.store.rows x = true) :
    Account c₀ l (c₀.opens Call.body (l.map Acceptance.call)) := by
  refine ⟨fun t se hse => ?_, ⟨[], rfl, fun e he => by cases he⟩, fun i x hi hnone => ?_,
    fun i x hi hno => ?_⟩
  · obtain ⟨i, x, ht, hx, rfl⟩ := opens_session hidle hse
    exact ⟨i, x, ht, hx, rfl⟩
  · rw [Config.opens_new, List.getElem?_map, hi] at hnone
    cases hnone
  · have hyes := hn x (List.mem_of_getElem? hi)
    have hno' : notified c₀.store.rows x = false := hno
    rw [hyes] at hno'
    cases hno'

/-- The acceptances find the mappings of their users. -/
theorem opens_sound (h₀ : Run Call.body (Config.start (Db.initial profiles)) c₀)
    (hidle : ∀ t, c₀.sessions t = none) {r : Uuid}
    (hl : ∀ x ∈ l, x.Invited c₀.store.rows r) :
    (c₀.opens Call.body (l.map Acceptance.call)).Sound (answering fun t => t < c₀.fresh)
      fun _ _ _ _ => True := by
  have hsound := run_outcomes h₀
  have hopen : ∀ t, (answering fun t => t < c₀.fresh).Idle t c₀.store :=
    fun t => hsound.idle t (hidle t)
  refine ⟨hsound.inv, fun t _ => hopen t, fun t ht => ?_, fun t se hse s hrely => ?_,
    fun e he => ?_⟩
  · cases hse : (c₀.opens Call.body (l.map Acceptance.call)).sessions t with
    | none => rfl
    | some se =>
        obtain ⟨i, x, rfl, hi, -⟩ := opens_session hidle hse
        obtain ⟨hlt, -⟩ := List.getElem?_eq_some_iff.mp hi
        have hle : c₀.fresh + l.length ≤ c₀.fresh + i := by simpa [Config.opens] using ht
        exact absurd hlt (Nat.not_lt.mpr (Nat.le_of_add_le_add_left hle))
  · obtain ⟨i, x, rfl, hi, rfl⟩ := opens_session hidle hse
    have hs := resumed_of_rely hrely (Holding.resumed ⟨hsound.inv.1, hsound.inv.2, hopen _⟩)
    refine (safe_acceptAssignment _ _ _ _ hs.toHolding fun hno => ?_).ensures
    obtain ⟨m, hm, -, -, howned⟩ := hl x (List.mem_of_getElem? hi)
    have hev : Evolves c₀.store.rows s.rows := Drift.evolves hs.drift
    obtain ⟨m', hm', hsame⟩ := hev.mappings _ m hm
    exact absurd ⟨m', hm', (howned.evolves hev).same hsame⟩ hno
  · have hdone : Concludes True e.2.1 e.2.2 c₀.store.rows := hsound.log e he
    have hold : (e.1 < c₀.fresh) = True :=
      eq_true ((h₀.logged (Config.start_logged _)).ended e he).1
    show Concludes (e.1 < c₀.fresh) e.2.1 e.2.2 c₀.store.rows
    rw [hold]
    exact hdone

theorem opens_tally {r : Uuid} {q : EventRequirement}
    (hq : c₀.store.rows.requirements r = some q) (hl : ∀ x ∈ l, x.Invited c₀.store.rows r) :
    Tally l r q.requiredCount q.filledCount c₀.store.rows := by
  have hstatus : ∀ x ∈ l, c₀.store.rows.statusOf x.mappingId = some .notified := by
    intro x hx
    have hn := (hl x hx).notified
    simpa [notified] using hn
  refine ⟨⟨q, hq, rfl, ?_, ?_⟩, fun x hx => ?_⟩
  · have hzero : l.countP (accepted c₀.store.rows) = 0 := by
      rw [List.countP_eq_zero]
      intro x hx
      simp [accepted, hstatus x hx]
    simp [hzero]
  · rintro ⟨x, hx, hrej⟩
    simp [rejectedFull, hstatus x hx] at hrej
  · obtain ⟨m, hm, hmr, hst, -⟩ := hl x hx
    exact ⟨m, hm, hmr, .inl hst⟩

/-- What holds at every moment of the competition. -/
structure Contest (profiles : List VolunteerProfile) (c₀ : Cluster) (l : List Acceptance)
    (r : Uuid) (q : EventRequirement) (c : Cluster) : Prop where
  reached : Run Call.body (Config.start (Db.initial profiles)) c
  sound : c.Sound (answering fun t => t < c₀.fresh) fun _ _ _ _ => True
  tally : Tally l r q.requiredCount q.filledCount c.store.rows
  account : Account c₀ l c

theorem Contest.step {r : Uuid} {q : EventRequirement}
    (hl : (l.map Acceptance.mappingId).Nodup) (hc : Contest profiles c₀ l r q c)
    (hstep : Step Call.body c t c') (hfresh : c'.fresh = c.fresh) (habort : EarlyAbort c t c') :
    Contest profiles c₀ l r q c' where
  reached := hc.reached.tail ⟨t, hstep⟩
  sound := (hstep.sound_open (fun hne => absurd hfresh hne) hc.sound fun _ _ => trivial).1
  tally := by
    rcases step_commits hc.reached hstep with heq | ⟨se, W, hse, hcommit, heq⟩
    · rw [heq]
      exact hc.tally
    · obtain ⟨i, x, -, hi, hcall⟩ := hc.account.sessions t se hse
      rw [hcall] at hcommit
      rw [heq]
      exact hc.tally.commit hl (run_inv hc.reached).2 (List.mem_of_getElem? hi) hcommit
  account := hc.account.step hc.reached hl hstep hfresh habort

theorem Contest.run {r : Uuid} {q : EventRequirement}
    (hl : (l.map Acceptance.mappingId).Nodup) (hc : Contest profiles c₀ l r q c)
    (hrun : Competes c c') : Contest profiles c₀ l r q c' := by
  induction hrun with
  | refl => exact hc
  | tail _ hstep ih =>
      obtain ⟨t, hs, hfresh, habort⟩ := hstep
      exact ih.step hl hs hfresh habort

def quotaFull : Except Error Reply → Bool
  | .error (.quotaFullError _) => true
  | _ => false

/-- A session that has ended shows what its mapping shows. -/
theorem Contest.ended {r : Uuid} {q : EventRequirement} (hc : Contest profiles c₀ l r q c)
    {i : Nat} {x : Acceptance} (hi : l[i]? = some x) {o : Except Error Reply}
    (hlog : (c₀.fresh + i, x.call, o) ∈ c.log) :
    (o.isOk = true ∧ accepted c.store.rows x = true ∧ rejectedFull c.store.rows x = false) ∨
      (quotaFull o = true ∧ rejectedFull c.store.rows x = true ∧
        accepted c.store.rows x = false) := by
  have hdone : Answered x.mappingId (c₀.fresh + i < c₀.fresh) o c.store.rows :=
    hc.sound.log _ hlog
  obtain ⟨m, hm, -, hst⟩ := hc.tally.mapping x (List.mem_of_getElem? hi)
  have hstatus := Rows.statusOf_eq hm
  match o, hdone with
  | .ok reply, ⟨m', hm', hcounted⟩ =>
      cases hm.symm.trans hm'
      left
      rcases hst with hst | hst | hst
      · rw [hst] at hcounted
        cases hcounted
      · simp [accepted, rejectedFull, hstatus, hst, Except.isOk, Except.toBool]
      · rw [hst] at hcounted
        cases hcounted
  | .error (.quotaFullError text), ⟨m', hm', hrejected⟩ =>
      cases hm.symm.trans hm'
      right
      simp [accepted, rejectedFull, hstatus, hrejected, quotaFull]
  | .error (.assignmentError text), hor =>
      exfalso
      rcases hor with hlt | ⟨m', hm', hanswered⟩
      · exact absurd hlt (Nat.not_lt.mpr (Nat.le_add_right _ _))
      · cases hm.symm.trans hm'
        have hno : notified c.store.rows x = false := by
          simp [notified, hstatus, hanswered]
        exact ((hc.account.answered i x hi hno).ended _ _ hlog).2 _ rfl

def Call.mappingId : Call → Uuid
  | .acceptAssignment k _ _ => k
  | _ => 0

/-- When all sessions are over, the log has those whose mapping is answered. -/
theorem Contest.perm {r : Uuid} {q : EventRequirement}
    (hl : (l.map Acceptance.mappingId).Nodup) (hc : Contest profiles c₀ l r q c)
    (h₀ : c₀.Logged) (hend : ∀ t, c.sessions t = none)
    {ended : List (Sid × Call × Except Error Reply)} (hlog : c.log = ended ++ c₀.log)
    (hended : ∀ e ∈ ended, ∃ i x, e.1 = c₀.fresh + i ∧ l[i]? = some x ∧ e.2.1 = x.call) :
    (ended.map fun e => e.2.1.mappingId).Perm
      ((l.filter fun x => !notified c.store.rows x).map Acceptance.mappingId) := by
  have hnodup : (ended.map Prod.fst).Nodup := by
    have hall := (hc.reached.logged (Config.start_logged _)).nodup
    rw [hlog, List.map_append] at hall
    exact hall.of_append_left
  refine (List.perm_ext_iff_of_nodup ?_ ?_).mpr fun k => ?_
  · refine List.Nodup.map_on ?_ hnodup.of_map
    intro e he e' he' hkey
    obtain ⟨i, x, hi, hx, hcall⟩ := hended e he
    obtain ⟨j, y, hj, hy, hcall'⟩ := hended e' he'
    rw [hcall, hcall'] at hkey
    have hij := index_unique hl hx hy hkey
    refine List.inj_on_of_nodup_map hnodup he he' ?_
    rw [hi, hj, hij]
  · exact hl.sublist (List.filter_sublist.map _)
  · rw [List.mem_map, List.mem_map]
    constructor
    · rintro ⟨⟨t, a, o⟩, he, rfl⟩
      obtain ⟨i, x, rfl, hx, rfl⟩ := hended _ he
      have hmem : (c₀.fresh + i, x.call, o) ∈ c.log := by
        rw [hlog]
        exact List.mem_append_left _ he
      refine ⟨x, List.mem_filter.mpr ⟨List.mem_of_getElem? hx, ?_⟩, rfl⟩
      rcases hc.ended hx hmem with ⟨-, hacc, -⟩ | ⟨-, hrej, -⟩
      · simp only [accepted, decide_eq_true_eq] at hacc
        simp [notified, hacc]
      · simp only [rejectedFull, decide_eq_true_eq] at hrej
        simp [notified, hrej]
    · rintro ⟨x, hx, rfl⟩
      obtain ⟨hxl, hno⟩ := List.mem_filter.mp hx
      obtain ⟨i, hi⟩ := List.mem_iff_getElem?.mp hxl
      rcases hc.account.left i x hi (hend _) with ⟨o, ho⟩ | hn
      · rw [hlog] at ho
        rcases List.mem_append.mp ho with ho | ho
        · exact ⟨_, ho, rfl⟩
        · exact absurd (h₀.ended _ ho).1 (Nat.not_lt.mpr (Nat.le_add_right _ _))
      · rw [hn] at hno
        cases hno

/-- The entries of one kind are as many as the mappings of that kind. -/
theorem countP_of_perm {w : Rows} {ended : List (Sid × Call × Except Error Reply)}
    (hperm : (ended.map fun e => e.2.1.mappingId).Perm
      ((l.filter fun x => !notified w x).map Acceptance.mappingId))
    {st : AssignmentStatus} (hst : st ≠ .notified) {p : Sid × Call × Except Error Reply → Bool}
    (hp : ∀ e ∈ ended, p e = decide (w.statusOf e.2.1.mappingId = some st)) :
    ended.countP p = l.countP fun x => decide (w.statusOf x.mappingId = some st) := by
  have hkeys := hperm.countP_eq fun k => decide (w.statusOf k = some st)
  rw [List.countP_map, List.countP_map, List.countP_filter] at hkeys
  have hsame : ended.countP p =
      ended.countP fun e => decide (w.statusOf e.2.1.mappingId = some st) :=
    List.countP_congr fun e he => by rw [hp e he]
  refine hsame.trans (Eq.trans hkeys (List.countP_congr fun x hx => ?_))
  simp only [Function.comp, Bool.and_eq_true, decide_eq_true_eq]
  constructor
  · exact fun h => h.1
  · intro h
    refine ⟨h, ?_⟩
    simp [notified, h, hst]

theorem first_come_first_served {r : Uuid} {q : EventRequirement}
    (h₀ : Run Call.body (Config.start (Db.initial profiles)) c₀)
    (hidle : ∀ t, c₀.sessions t = none) (hq : c₀.store.requirements.committed r = some q)
    (hl : (l.map Acceptance.mappingId).Nodup) (hinvited : ∀ x ∈ l, x.Invited c₀.store.rows r)
    (hrun : Competes (c₀.opens Call.body (l.map Acceptance.call)) c)
    (hend : ∀ t, c.sessions t = none) :
    ∃ ended, c.log = ended ++ c₀.log ∧
      (∀ e ∈ ended, ∃ x ∈ l, e.2.1 = x.call ∧
        ((e.2.2.isOk = true ∧ c.store.rows.statusOf x.mappingId = some .accepted) ∨
          (quotaFull e.2.2 = true ∧ c.store.rows.statusOf x.mappingId = some .rejectedFull))) ∧
      (∀ x ∈ l, (∃ e ∈ ended, e.2.1 = x.call) ∨
        c.store.rows.statusOf x.mappingId = some .notified) ∧
      ended.countP (fun e => e.2.2.isOk) =
        min ended.length (q.requiredCount - q.filledCount).toNat ∧
      ended.countP (fun e => quotaFull e.2.2) =
        ended.length - min ended.length (q.requiredCount - q.filledCount).toNat := by
  have hlogged := h₀.logged (Config.start_logged _)
  have hstart : Contest profiles c₀ l r q (c₀.opens Call.body (l.map Acceptance.call)) := by
    refine ⟨h₀.trans (Config.opens_run (fun t _ => hidle t) _), opens_sound h₀ hidle hinvited,
      opens_tally hq hinvited, opens_account hidle fun x hx => (hinvited x hx).notified⟩
  have hc := hstart.run hl hrun
  obtain ⟨ended, hlog, hended⟩ := hc.account.log
  have hmem : ∀ e ∈ ended, e ∈ c.log := by
    intro e he
    rw [hlog]
    exact List.mem_append_left _ he
  have hshows : ∀ e ∈ ended, ∃ x ∈ l, e.2.1 = x.call ∧
      ((e.2.2.isOk = true ∧ accepted c.store.rows x = true ∧
          rejectedFull c.store.rows x = false) ∨
        (quotaFull e.2.2 = true ∧ rejectedFull c.store.rows x = true ∧
          accepted c.store.rows x = false)) := by
    rintro ⟨t, a, o⟩ he
    obtain ⟨i, x, rfl, hx, rfl⟩ := hended _ he
    exact ⟨x, List.mem_of_getElem? hx, rfl, hc.ended hx (hmem _ he)⟩
  have hperm := hc.perm hl hlogged hend hlog hended
  have hlength : l.countP (fun x => !notified c.store.rows x) = ended.length := by
    have hlen := hperm.length_eq
    rw [List.length_map, List.length_map] at hlen
    rw [List.countP_eq_length_filter, hlen]
  obtain ⟨haccepted, hrejected⟩ := hc.tally.served (run_inv hc.reached).2 hlength
  refine ⟨ended, hlog, fun e he => ?_, fun x hx => ?_, ?_, ?_⟩
  · obtain ⟨x, hx, hcall, hcase⟩ := hshows e he
    refine ⟨x, hx, hcall, ?_⟩
    rcases hcase with ⟨hok, hacc, -⟩ | ⟨hfull, hrej, -⟩
    · exact .inl ⟨hok, by simpa [accepted] using hacc⟩
    · exact .inr ⟨hfull, by simpa [rejectedFull] using hrej⟩
  · cases hno : notified c.store.rows x with
    | true => exact .inr (by simpa [notified] using hno)
    | false =>
        obtain ⟨i, hi⟩ := List.mem_iff_getElem?.mp hx
        rcases hc.account.left i x hi (hend _) with ⟨o, ho⟩ | hn
        · rw [hlog] at ho
          rcases List.mem_append.mp ho with ho | ho
          · exact .inl ⟨_, ho, rfl⟩
          · exact absurd (hlogged.ended _ ho).1 (Nat.not_lt.mpr (Nat.le_add_right _ _))
        · rw [hn] at hno
          cases hno
  · rw [← haccepted]
    refine countP_of_perm hperm (by decide) fun e he => ?_
    obtain ⟨x, hx, hcall, hcase⟩ := hshows e he
    have hkey : e.2.1.mappingId = x.mappingId := by rw [hcall]; rfl
    rw [hkey]
    rcases hcase with ⟨hok, hacc, -⟩ | ⟨hfull, -, hacc⟩
    · exact hok.trans hacc.symm
    · have hbad : e.2.2.isOk = false := by
        cases ho : e.2.2 with
        | ok reply =>
            rw [ho] at hfull
            cases hfull
        | error err => rfl
      exact hbad.trans hacc.symm
  · rw [← hrejected]
    refine countP_of_perm hperm (by decide) fun e he => ?_
    obtain ⟨x, hx, hcall, hcase⟩ := hshows e he
    have hkey : e.2.1.mappingId = x.mappingId := by rw [hcall]; rfl
    rw [hkey]
    rcases hcase with ⟨hok, -, hrej⟩ | ⟨hfull, hrej, -⟩
    · have hbad : quotaFull e.2.2 = false := by
        cases ho : e.2.2 with
        | ok reply => rfl
        | error err =>
            rw [ho] at hok
            cases hok
      exact hbad.trans hrej.symm
    · exact hfull.trans hrej.symm

end Account

/-- A session that moves on or ends by itself is not killed. -/
theorem move_competes {c c' : Cluster} {m : Move Call} (hm : ∀ a, m ≠ .begin a)
    (h : c.move Call.body m = some c') :
    c'.fresh = c.fresh ∧ EarlyAbort c (m.session c) c' := by
  rcases Config.move_cases h with ⟨a, rfl, rfl⟩ |
    ⟨t, se, β, run, k, b, s', rfl, -, -, -, rfl⟩ | ⟨t, se, o, rfl, -, -, rfl⟩
  · exact absurd rfl (hm a)
  · exact ⟨rfl, fun se k user now _ _ hnone => by simp [Move.session] at hnone⟩
  · exact ⟨rfl, fun se k user now _ _ _ hlog => by simp at hlog⟩

theorem play_competes {c c' : Cluster} {l : List (Move Call)}
    (hl : ∀ m ∈ l, ∀ a, m ≠ .begin a) (h : c.play Call.body l = some c') : Competes c c' := by
  induction l generalizing c with
  | nil =>
      cases h
      exact .refl
  | cons m rest ih =>
      simp only [Config.play] at h
      split at h
      · cases h
      · rename_i c₁ hm
        have hrest := ih (fun m' hm' => hl m' (List.mem_cons_of_mem _ hm')) h
        have hstep := move_competes (hl m (List.mem_cons_self ..)) hm
        exact .head ⟨m.session c, Config.move_step hm, hstep⟩ hrest

/-- Two volunteers are notified for one place. -/
def onePlace : List (Move Call) :=
  List.flatten
    [ .begin (.declareEvent 1 2 (flood 1 (by decide) (by decide))) :: List.replicate 5 (.next 0),
      .close 0 :: .begin (.runMatching 0) :: List.replicate 10 (.next 1), [.close 1] ]

/-- Both claim their mapping before the first takes the place. -/
def bothAccept : List (Move Call) :=
  List.flatten
    [ [.next 2, .next 3, .next 3, .next 2], List.replicate 13 (.next 2), [.close 2],
      List.replicate 3 (.next 3), [.close 3] ]

def boatDrivers : List Acceptance := [⟨0, 7, 100⟩, ⟨1, 8, 101⟩]

theorem first_come_first_served_flood : ∃ c₀ c : Cluster, ∃ ended,
    Run Call.body (Config.start (Db.initial [boatDriver 7, boatDriver 8])) c₀ ∧
      Competes (c₀.opens Call.body (boatDrivers.map Acceptance.call)) c ∧
      c.log = ended ++ c₀.log ∧ ended.length = 2 ∧
      ended.countP (fun e => e.2.2.isOk) = 1 ∧ ended.countP (fun e => quotaFull e.2.2) = 1 := by
  have hbefore : ((Config.start (Db.initial [boatDriver 7, boatDriver 8])).play Call.body
      onePlace).map (fun c₀ => ((c₀.fresh, (List.range 2).all fun t => (c₀.sessions t).isNone),
        c₀.store.requirements.committed 0, c₀.store.mappings.committed 0,
        c₀.store.mappings.committed 1)) =
      some ((2, true), some ⟨0, "boat_driver", 1, 0, .opened⟩, some ⟨0, 0, 0, .notified, none⟩,
        some ⟨0, 0, 1, .notified, none⟩) := by
    decide +kernel
  have hafter : ((Config.start (Db.initial [boatDriver 7, boatDriver 8])).play Call.body
      onePlace).bind (fun c₀ => ((c₀.opens Call.body (boatDrivers.map Acceptance.call)).play
        Call.body bothAccept).map fun c =>
          ((c.fresh, (List.range 4).all fun t => (c.sessions t).isNone),
            c.log.length - c₀.log.length)) = some ((4, true), 2) := by
    decide +kernel
  obtain ⟨c₀, hc₀, hfacts₀⟩ := Option.map_eq_some_iff.mp hbefore
  rw [hc₀] at hafter
  obtain ⟨c, hc, hfacts⟩ := Option.map_eq_some_iff.mp hafter
  simp only [Prod.mk.injEq] at hfacts₀ hfacts
  obtain ⟨⟨hfresh₀, hnone₀⟩, hq, hm₀, hm₁⟩ := hfacts₀
  obtain ⟨⟨hfresh, hnone⟩, hlength⟩ := hfacts
  have hrun₀ := Config.play_run hc₀
  have hcompetes := play_competes (by simp [bothAccept]) hc
  have hidle : ∀ t, c₀.sessions t = none := by
    intro t
    by_contra hopen
    have hlt := (hrun₀.logged (Config.start_logged _)).used t hopen
    rw [hfresh₀] at hlt
    have := List.all_eq_true.mp hnone₀ t (List.mem_range.mpr hlt)
    exact hopen (Option.isNone_iff_eq_none.mp this)
  have hrun : Run Call.body (Config.start (Db.initial [boatDriver 7, boatDriver 8])) c :=
    (hrun₀.trans (Config.opens_run (fun t _ => hidle t) _)).trans (Config.play_run hc)
  have hend : ∀ t, c.sessions t = none := by
    intro t
    by_contra hopen
    have hlt := (hrun.logged (Config.start_logged _)).used t hopen
    rw [hfresh] at hlt
    have := List.all_eq_true.mp hnone t (List.mem_range.mpr hlt)
    exact hopen (Option.isNone_iff_eq_none.mp this)
  have hinvited : ∀ x ∈ boatDrivers, x.Invited c₀.store.rows 0 := by
    intro x hx
    have hprofiles := (run_evolves .refl hrun₀).profiles
    have hv₀ : c₀.store.rows.profiles 0 = some (boatDriver 7) := by rw [hprofiles]; rfl
    have hv₁ : c₀.store.rows.profiles 1 = some (boatDriver 8) := by rw [hprofiles]; rfl
    simp only [boatDrivers, List.mem_cons, List.not_mem_nil, or_false] at hx
    rcases hx with rfl | rfl
    · exact ⟨_, hm₀, rfl, rfl, _, hv₀, rfl⟩
    · exact ⟨_, hm₁, rfl, rfl, _, hv₁, rfl⟩
  obtain ⟨ended, hlog, -, -, hok, hfull⟩ := first_come_first_served hrun₀ hidle hq
    (by simp [boatDrivers]) hinvited hcompetes hend
  have htwo : ended.length = 2 := by
    rw [hlog, List.length_append] at hlength
    omega
  rw [htwo] at hok hfull
  exact ⟨c₀, c, ended, hrun₀, hcompetes, hlog, htwo, hok, hfull⟩

end Volunteer
end Rcp
