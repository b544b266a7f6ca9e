/-
Matching is the greedy assignment.

`greedy` says what `run_matching` is for: each volunteer who can be reached and has no
mapping for the event is assigned the first OPEN requirement whose skill they hold.  The
code goes the other way round, requirement by requirement with a growing list of excluded
volunteers.  Run on its own it adds a permutation of `greedy`, and a second run adds
nothing.
-/
import Mathlib.Data.List.Perm.Basic
import Rcp.Sql.Solo
import Rcp.Volunteer.Lifecycle

namespace Rcp
namespace Volunteer

open Sql Sql.Table Relation

/-- Available, active and living in one of the districts. -/
def inReach (districts : List String) (v : VolunteerProfile) : Bool :=
  v.availableStatus && v.isActive && v.baseDistrict.any (districts.contains ·)

/-- The first OPEN requirement, in requirement order, whose skill the volunteer holds. -/
def firstOpen (requirements : List (Uuid × EventRequirement)) (v : VolunteerProfile) :
    Option (Uuid × EventRequirement) :=
  requirements.find? fun r => r.2.status == .opened && v.skills.contains r.2.skill

/-- What is to be added for one volunteer, if anything is. -/
def assigned (eventId : Uuid) (event : DisasterEvent) (districts : List String)
    (requirements : List (Uuid × EventRequirement)) (mapped : List Uuid)
    (v : Uuid × VolunteerProfile) : Option Addition :=
  if mapped.contains v.1 || !inReach districts v.2 then none
  else (firstOpen requirements v.2).map fun r => additionFor eventId event r.1 r.2 v

def greedy (eventId : Uuid) (event : DisasterEvent) (districts : List String)
    (requirements : List (Uuid × EventRequirement)) (mapped : List Uuid)
    (pool : List (Uuid × VolunteerProfile)) : List Addition :=
  pool.filterMap (assigned eventId event districts requirements mapped)

/-! ## Bucket by bucket -/

/-- The candidates of one bucket, out of the given pool. -/
def candidates (districts : List String) (skill : String) (excluded : List Uuid)
    (pool : List (Uuid × VolunteerProfile)) : List (Uuid × VolunteerProfile) :=
  ((pool.filter fun v => matchesBucket districts skill v.2).insertionSort
    fun a b => a.2.createdAt ≤ b.2.createdAt).filter fun v => !excluded.contains v.1

/-- What `planBuckets` returns when the pool stands still. -/
def planned (eventId : Uuid) (event : DisasterEvent) (districts : List String)
    (pool : List (Uuid × VolunteerProfile)) :
    List (Uuid × EventRequirement) → List Uuid → List Addition
  | [], _ => []
  | (requirementId, requirement) :: rest, mapped =>
      if requirement.status ≠ .opened then planned eventId event districts pool rest mapped
      else
        let volunteers := candidates districts requirement.skill mapped pool
        volunteers.map (additionFor eventId event requirementId requirement) ++
          planned eventId event districts pool rest (mapped ++ volunteers.map Prod.fst)

/-- Taking the elements that pass a test first permutes what is produced. -/
theorem filterMap_perm_split {α β : Type} {p : α → Bool} {f h : α → Option β} {g : α → β}
    (l : List α) (hpass : ∀ x ∈ l, p x = true → f x = some (g x) ∧ h x = none)
    (hfail : ∀ x ∈ l, p x = false → f x = h x) :
    (l.filterMap f).Perm ((l.filter p).map g ++ l.filterMap h) := by
  induction l with
  | nil => exact .nil
  | cons x rest ih =>
      have ih := ih (fun y hy => hpass y (List.mem_cons_of_mem x hy))
        (fun y hy => hfail y (List.mem_cons_of_mem x hy))
      cases hp : p x with
      | true =>
          obtain ⟨hf, hh⟩ := hpass x List.mem_cons_self hp
          simpa [hp, hf, hh] using ih
      | false =>
          have hf := hfail x List.mem_cons_self hp
          cases hh : h x with
          | none =>
              rw [hh] at hf
              simpa [hp, hf, hh] using ih
          | some b =>
              rw [hh] at hf
              simp only [List.filterMap_cons, hf, hh, List.filter_cons, hp, Bool.false_eq_true,
                if_false]
              exact (ih.cons b).trans List.perm_middle.symm

section Plan

variable {eventId : Uuid} {event : DisasterEvent} {districts : List String}
  {pool : List (Uuid × VolunteerProfile)}

theorem candidates_perm (skill : String) (excluded : List Uuid) :
    (candidates districts skill excluded pool).Perm (pool.filter fun v =>
      !excluded.contains v.1 && (inReach districts v.2 && v.2.skills.contains skill)) := by
  unfold candidates
  rw [← List.filter_filter]
  exact (List.perm_insertionSort _ _).filter _

theorem mem_candidates {skill : String} {excluded : List Uuid} {v : Uuid × VolunteerProfile} :
    v ∈ candidates districts skill excluded pool ↔ v ∈ pool ∧ v.1 ∉ excluded ∧
      inReach districts v.2 = true ∧ skill ∈ v.2.skills := by
  rw [(candidates_perm skill excluded).mem_iff, List.mem_filter]
  simp

/-- Volunteers are told apart by their ids. -/
theorem eq_of_key {v u : Uuid × VolunteerProfile} (hkeys : (pool.map Prod.fst).Nodup)
    (hv : v ∈ pool) (hu : u ∈ pool) (h : v.1 = u.1) : v = u :=
  List.inj_on_of_nodup_map hkeys hv hu h

/-- One OPEN bucket takes the volunteers it is the first for, and leaves the others. -/
theorem greedy_cons (hkeys : (pool.map Prod.fst).Nodup) {requirementId : Uuid}
    {requirement : EventRequirement} (hopen : requirement.status = .opened)
    (rest : List (Uuid × EventRequirement)) (mapped : List Uuid) :
    (greedy eventId event districts ((requirementId, requirement) :: rest) mapped pool).Perm
      ((candidates districts requirement.skill mapped pool).map
          (additionFor eventId event requirementId requirement) ++
        greedy eventId event districts rest
          (mapped ++ (candidates districts requirement.skill mapped pool).map Prod.fst) pool) := by
  have hsplit := filterMap_perm_split
    (p := fun v => !mapped.contains v.1 &&
      (inReach districts v.2 && v.2.skills.contains requirement.skill))
    (f := assigned eventId event districts ((requirementId, requirement) :: rest) mapped)
    (h := assigned eventId event districts rest
      (mapped ++ (candidates districts requirement.skill mapped pool).map Prod.fst))
    (g := additionFor eventId event requirementId requirement) pool ?_ ?_
  · exact hsplit.trans
      (((candidates_perm requirement.skill mapped).symm.map _).append_right _)
  · intro v hv hp
    have hcand : v ∈ candidates districts requirement.skill mapped pool := by
      rw [(candidates_perm requirement.skill mapped).mem_iff]
      exact List.mem_filter.mpr ⟨hv, hp⟩
    obtain ⟨-, hnot, hreach, hskill⟩ := mem_candidates.mp hcand
    constructor
    · simp [assigned, firstOpen, hnot, hreach, hskill, hopen]
    · have hmapped : v.1 ∈ (candidates districts requirement.skill mapped pool).map Prod.fst :=
        List.mem_map_of_mem hcand
      simp [assigned, hmapped]
  · intro v hv hp
    have hout : v.1 ∉ (candidates districts requirement.skill mapped pool).map Prod.fst := by
      intro hmem
      obtain ⟨u, hu, hkey⟩ := List.mem_map.mp hmem
      rw [(candidates_perm requirement.skill mapped).mem_iff, List.mem_filter] at hu
      rw [eq_of_key hkeys hu.1 hv hkey, hp] at hu
      exact Bool.noConfusion hu.2
    by_cases hnot : v.1 ∈ mapped
    · simp [assigned, hnot]
    · by_cases hreach : inReach districts v.2 = true
      · -- the volunteer lacks the skill of this bucket
        have hskill : requirement.skill ∉ v.2.skills := by
          simpa [hnot, hreach] using hp
        simp [assigned, firstOpen, hnot, hout, hskill, hreach]
      · simp [assigned, hreach]

theorem planned_perm_greedy (hkeys : (pool.map Prod.fst).Nodup)
    (requirements : List (Uuid × EventRequirement)) (mapped : List Uuid) :
    (planned eventId event districts pool requirements mapped).Perm
      (greedy eventId event districts requirements mapped pool) := by
  induction requirements generalizing mapped with
  | nil =>
      have hnil : greedy eventId event districts [] mapped pool = [] := by
        simp [greedy, List.filterMap_eq_nil_iff, assigned, firstOpen]
      rw [hnil]
      exact .nil
  | cons r rest ih =>
      obtain ⟨requirementId, requirement⟩ := r
      unfold planned
      by_cases hopen : requirement.status = .opened
      · rw [if_neg (by simpa using hopen)]
        exact ((ih _).append_left _).trans (greedy_cons hkeys hopen rest mapped).symm
      · rw [if_pos hopen]
        have hskip : greedy eventId event districts ((requirementId, requirement) :: rest)
            mapped pool = greedy eventId event districts rest mapped pool := by
          have hsame : assigned eventId event districts ((requirementId, requirement) :: rest)
              mapped = assigned eventId event districts rest mapped := by
            funext v
            simp [assigned, firstOpen, hopen]
          unfold greedy
          rw [hsame]
        rw [hskip]
        exact ih mapped

/-! ## What is added -/

/-- The volunteers of the additions are distinct and were not mapped. -/
structure Fresh (mapped : List Uuid) (additions : List Addition) : Prop where
  nodup : (additions.map fun a => a.mapping.volunteerId).Nodup
  unmapped : ∀ a ∈ additions, a.mapping.volunteerId ∉ mapped

theorem assigned_volunteer {requirements : List (Uuid × EventRequirement)} {mapped : List Uuid}
    {v : Uuid × VolunteerProfile} {a : Addition}
    (h : assigned eventId event districts requirements mapped v = some a) :
    a.mapping.volunteerId = v.1 ∧ v.1 ∉ mapped := by
  unfold assigned at h
  split at h
  · cases h
  · rename_i hfree
    obtain ⟨r, -, rfl⟩ := Option.map_eq_some_iff.mp h
    refine ⟨rfl, fun hmem => hfree ?_⟩
    simp [hmem]

theorem assigned_event {requirements : List (Uuid × EventRequirement)} {mapped : List Uuid}
    {v : Uuid × VolunteerProfile} {a : Addition}
    (h : assigned eventId event districts requirements mapped v = some a) :
    a.mapping.eventId = eventId := by
  unfold assigned at h
  split at h
  · cases h
  · obtain ⟨r, -, rfl⟩ := Option.map_eq_some_iff.mp h
    rfl

theorem greedy_volunteers (requirements : List (Uuid × EventRequirement)) (mapped : List Uuid) :
    ((greedy eventId event districts requirements mapped pool).map
      fun a => a.mapping.volunteerId).Sublist (pool.map Prod.fst) := by
  unfold greedy
  induction pool with
  | nil => exact .slnil
  | cons v rest ih =>
      cases ha : assigned eventId event districts requirements mapped v with
      | none =>
          rw [List.filterMap_cons_none ha]
          exact ih.cons v.1
      | some a =>
          rw [List.filterMap_cons_some ha, List.map_cons, List.map_cons,
            (assigned_volunteer ha).1]
          exact ih.cons_cons v.1

theorem fresh_planned (hkeys : (pool.map Prod.fst).Nodup)
    (requirements : List (Uuid × EventRequirement)) (mapped : List Uuid) :
    Fresh mapped (planned eventId event districts pool requirements mapped) := by
  have hperm : (planned eventId event districts pool requirements mapped).Perm
      (greedy eventId event districts requirements mapped pool) :=
    planned_perm_greedy hkeys requirements mapped
  constructor
  · exact (hperm.map _).nodup_iff.mpr
      ((greedy_volunteers requirements mapped).nodup hkeys)
  · intro a ha
    obtain ⟨v, -, hv⟩ := List.mem_filterMap.mp (hperm.mem_iff.mp ha)
    obtain ⟨heq, hnot⟩ := assigned_volunteer hv
    rw [heq]
    exact hnot

end Plan

/-! ## The call -/

/-- The outbox row of the notification that goes with an addition. -/
def NoticeOf (a : Addition) (row : Outbox Message) : Prop :=
  ∃ o, row = outboxRow "volunteer.assignment.notified" (some a.tenantId) a.notice o

section Meets

variable {t : Sid} {w : Rows} {s : Db} {e : Uuid} {ev : DisasterEvent}

theorem meets_findCandidates {W : Rows} (hs : Solo schema t W w s) (hW : W.profiles = noRows)
    (districts : List String) (skill : String) (excluded : List Uuid) :
    Meets t (fun r s' => r = .ok (candidates districts skill excluded s.profiles.rows) ∧ s' = s)
      (findCandidates districts skill excluded) s := by
  have hscan : s.profiles.scan t = s.profiles.rows := hs.scan_eq_rows Column.profiles hW
  refine hs.query (meets_ret ⟨?_, rfl⟩)
  show Except.ok _ = _
  rw [show Db.profilesT.get s = s.profiles from rfl, hscan]
  rfl

theorem meets_planBuckets {W : Rows} (hs : Solo schema t W w s) (hW : W.profiles = noRows)
    (districts : List String) (requirements : List (Uuid × EventRequirement))
    (mapped : List Uuid) :
    Meets t (fun r s' => r = .ok (planned e ev districts s.profiles.rows requirements mapped) ∧
      s' = s) (planBuckets e ev districts requirements mapped) s := by
  induction requirements generalizing mapped with
  | nil => exact meets_ret ⟨rfl, rfl⟩
  | cons r rest ih =>
      obtain ⟨requirementId, requirement⟩ := r
      unfold planBuckets planned
      by_cases hopen : requirement.status = .opened
      · rw [if_neg (by simpa using hopen), if_neg (by simpa using hopen)]
        obtain ⟨r₁, s₁, hx, rfl, rfl⟩ :=
          meets_findCandidates hs hW districts requirement.skill mapped
        obtain ⟨r₂, s₂, hx', rfl, rfl⟩ := ih
          (mapped ++ (candidates districts requirement.skill mapped s₁.profiles.rows).map Prod.fst)
        refine meets_bind ⟨_, _, hx, ?_⟩
        exact meets_bind ⟨_, _, hx', meets_ret ⟨rfl, rfl⟩⟩
      · rw [if_pos hopen, if_pos hopen]
        exact ih mapped

/-- The rows that adding `additions` appends to those of `w`. -/
structure Appends (w : Rows) (additions : List Addition)
    (M : Nat → Option EventVolunteerMapping) (O : Nat → Option (Outbox Message)) : Prop where
  mappings : Appended w.mappings (additions.map Addition.mapping) M
  notices : ∃ rows, Appended w.outbox rows O ∧ List.Forall₂ NoticeOf additions rows

theorem appends_nothing (w : Rows) : Appends w [] noRows noRows :=
  ⟨.nil, [], .nil, .nil⟩

theorem Appends.snoc {M : Nat → Option EventVolunteerMapping} {O : Nat → Option (Outbox Message)}
    {additions : List Addition} (h : Appends w additions M O) {x : Addition} {k o : Nat}
    (hk : Above w.mappings k) (hk' : Above M k) (ho : Above w.outbox o) (ho' : Above O o) :
    Appends w (additions ++ [x]) (Function.update M k (some x.mapping))
      (Function.update O o (some (outboxRow "volunteer.assignment.notified" (some x.tenantId)
        x.notice o))) := by
  obtain ⟨rows, hrows, hall⟩ := h.notices
  constructor
  · rw [List.map_append]
    exact h.mappings.snoc hk hk'
  · refine ⟨rows ++ [_], hrows.snoc ho ho', ?_⟩
    exact List.rel_append hall (.cons ⟨o, rfl⟩ .nil)

/-- No mapping for the event has the volunteer of an addition. -/
def Unclaimed (e : Uuid) (additions : List Addition) (f : Nat → Option EventVolunteerMapping) :
    Prop :=
  ∀ k m, f k = some m → m.eventId = e →
    m.volunteerId ∉ additions.map fun a => a.mapping.volunteerId

theorem Unclaimed.insert {f M : Nat → Option EventVolunteerMapping} {x : Addition}
    {rest : List Addition} {k : Nat} (h : Unclaimed e (x :: rest) fun j => (M j).or (f j))
    (hnodup : ((x :: rest).map fun a => a.mapping.volunteerId).Nodup) :
    Unclaimed e rest fun j => (Function.update M k (some x.mapping) j).or (f j) := by
  intro j m hj he
  by_cases hjk : j = k
  · subst hjk
    simp only [Function.update_self, Option.some_or, Option.some.injEq] at hj
    subst hj
    exact (List.nodup_cons.mp hnodup).1
  · simp only [Function.update_of_ne hjk] at hj
    exact fun hmem => h j m hj he (List.mem_cons_of_mem _ hmem)

theorem meets_flushAdditions {E : Nat → Option DisasterEvent} (additions : List Addition)
    {done : List Addition} {M : Nat → Option EventVolunteerMapping}
    {O : Nat → Option (Outbox Message)} (hs : Solo schema t (.writing E noRows M O) w s)
    (hdone : Appends w done M O) (hevent : ∀ a ∈ additions, a.mapping.eventId = e)
    (hnodup : (additions.map fun a => a.mapping.volunteerId).Nodup)
    (hfree : Unclaimed e additions fun j => (M j).or (w.mappings j)) :
    Meets t (fun r s' => r = .ok () ∧ ∃ M' O', Solo schema t (.writing E noRows M' O') w s' ∧
      Appends w (done ++ additions) M' O') (flushAdditions additions) s := by
  induction additions generalizing s done M O with
  | nil => exact meets_ret ⟨rfl, M, O, hs, by rwa [List.append_nil]⟩
  | cons x rest ih =>
      have hx : x.mapping.eventId = e := hevent x List.mem_cons_self
      refine hs.insertUnique Column.mappings (.free fun _ => trivial) ?_ fun k hk hk' s₁ h₁ => ?_
      · rintro ⟨j, m, hj, hc⟩
        simp only [Bool.and_eq_true, beq_iff_eq] at hc
        have hmem := hfree j m hj (hc.1.trans hx)
        exact absurd (by simp [hc.2]) hmem
      · have h₁' : Solo schema t (.writing E noRows (Function.update M k (some x.mapping)) O) w s₁ :=
          h₁
        refine h₁'.insert Column.outbox (.free fun _ => trivial) fun o ho ho' s₂ h₂ => ?_
        have hrest := ih h₂ (hdone.snoc hk hk' ho ho')
          (fun a ha => hevent a (List.mem_cons_of_mem x ha)) (List.nodup_cons.mp hnodup).2
          (hfree.insert hnodup)
        simpa using hrest

/-- The volunteers who have a mapping for the event. -/
def Db.mapped (s : Db) (e : Uuid) : List Uuid :=
  (s.mappings.rows.filter fun m => m.2.eventId == e).map fun m => m.2.volunteerId

/-- The requirements of the event, in requirement order. -/
def Db.requirementsOf (s : Db) (e : Uuid) : List (Uuid × EventRequirement) :=
  s.requirements.rows.filter fun r => r.2.eventId == e

theorem planned_event {districts : List String} {pool : List (Uuid × VolunteerProfile)}
    {requirements : List (Uuid × EventRequirement)} {mapped : List Uuid} {a : Addition}
    (hkeys : (pool.map Prod.fst).Nodup)
    (ha : a ∈ planned e ev districts pool requirements mapped) : a.mapping.eventId = e := by
  obtain ⟨v, -, hv⟩ := List.mem_filterMap.mp
    ((planned_perm_greedy hkeys requirements mapped).mem_iff.mp ha)
  exact assigned_event hv

theorem meets_setEventStatus {M : Nat → Option EventVolunteerMapping}
    {O : Nat → Option (Outbox Message)} (hev : w.events e = some ev)
    (hs : Solo schema t (.writing (single e ev) noRows M O) w s) :
    Meets t (fun r s' => r = .ok () ∧
      Solo schema t (.writing (single e { ev with status := .broadcasting }) noRows M O) w s')
      (setEventStatus e ev.status .broadcasting) s := by
  unfold setEventStatus
  split
  · rename_i hst
    have hsame : { ev with status := .broadcasting } = ev := by rw [← hst]
    rw [hsame]
    exact meets_ret ⟨rfl, hs⟩
  · have hrow : Column.events.get (schema.overlay (.writing (single e ev) noRows M O) w) e =
        some ev := by
      show (single e ev e).or (w.events e) = some ev
      rw [single_self, Option.some_or]
    refine hs.update Column.events (.free fun _ => trivial) (fun hno => ?_) fun v hv _ s₁ h₁ => ?_
    · cases hno ev hrow
    · cases hrow.symm.trans hv
      have h₁' : Solo schema t (.writing (Function.update (single e ev) e
          (some { ev with status := .broadcasting })) noRows M O) w s₁ := h₁
      rw [update_single] at h₁'
      exact meets_ret ⟨rfl, h₁'⟩

theorem meets_matchBuckets {districts : List String}
    (hs : Solo schema t (.writing (single e ev) noRows noRows noRows) w s)
    (hev : w.events e = some ev) (hopen : ev.status = .declared ∨ ev.status = .broadcasting)
    (hdistricts : resolveBroadcastDistricts ev.broadcastType ev.sourceDistrict
      ev.targetDistricts = .ok districts) :
    Meets t (fun r s' => ∃ additions M O,
      additions.Perm (greedy e ev districts (s.requirementsOf e) (s.mapped e) s.profiles.rows) ∧
      r = .ok additions.length ∧ Appends w additions M O ∧
      Solo schema t schema.nothing (Rows.overlay (.writing
        (single e { ev with status := .broadcasting }) noRows M O) w) s')
      (matchBuckets e ev (s.requirementsOf e)) s := by
  have hscan : s.mappings.scan t = s.mappings.rows := hs.scan_eq_rows Column.mappings rfl
  have hkeys : (s.profiles.rows.map Prod.fst).Nodup := keys_nodup _ _
  have hfresh : Fresh (s.mapped e)
      (planned e ev districts s.profiles.rows (s.requirementsOf e) (s.mapped e)) :=
    fresh_planned hkeys (s.requirementsOf e) (s.mapped e)
  unfold matchBuckets
  rw [if_neg (by rcases hopen with h | h <;> simp [h])]
  simp only [hdistricts]
  refine hs.query ?_
  show Meets t _ (planBuckets e ev districts (s.requirementsOf e)
    (((s.mappings.scan t).filter fun m => m.2.eventId == e).map fun m => m.2.volunteerId) >>= _) s
  rw [hscan]
  have hplan : Meets t (fun r s' => r = .ok (planned e ev districts s.profiles.rows
      (s.requirementsOf e) (s.mapped e)) ∧ s' = s)
      (planBuckets e ev districts (s.requirementsOf e) (s.mapped e)) s :=
    meets_planBuckets hs rfl districts (s.requirementsOf e) (s.mapped e)
  obtain ⟨r, s₁, hx, rfl, rfl⟩ := hplan
  refine meets_bind ⟨_, _, hx, ?_⟩
  have hunclaimed : Unclaimed e
      (planned e ev districts s₁.profiles.rows (s₁.requirementsOf e) (s₁.mapped e))
      fun j => (noRows j).or (w.mappings j) := by
    intro k m hm he hmem
    obtain ⟨a, ha, hv⟩ := List.mem_map.mp hmem
    refine hfresh.unmapped a ha ?_
    have hrow : s₁.mappings.committed k = some m := by
      have hrows : s₁.rows = w := hs.rows
      rw [← hrows] at hm
      exact hm
    rw [hv]
    exact List.mem_map_of_mem (List.mem_filter.mpr
      ⟨(mem_rows (Db.bounded hs.bounded).mappings).mpr hrow, by simpa using he⟩)
  obtain ⟨r₂, s₂, hx₂, rfl, M, O, h₂, happends⟩ := meets_flushAdditions _ hs (appends_nothing w)
    (fun a ha => planned_event hkeys ha) hfresh.nodup hunclaimed
  refine meets_bind ⟨_, _, hx₂, ?_⟩
  obtain ⟨r₃, s₃, hx₃, rfl, h₃⟩ := meets_setEventStatus hev h₂
  refine meets_bind ⟨_, _, hx₃, ?_⟩
  refine h₃.commit fun s₄ h₄ => meets_ret ?_
  exact ⟨_, M, O, planned_perm_greedy hkeys _ _, rfl, happends, h₄⟩

/-- The session holds the event as it is stored, or nothing of it. -/
def Current (s : Db) (e : Uuid) (ev : DisasterEvent)
    (loaded : Option (DisasterEvent × List (Uuid × EventRequirement))) : Prop :=
  ∀ x ∈ loaded, x = (ev, s.requirementsOf e)

/-- What matching reads is determined by the committed rows. -/
theorem read_eq_of_rows {s₁ : Db} (hb : s.Bounded) (hb₁ : s₁.Bounded) (h : s₁.rows = s.rows)
    (e : Uuid) : s₁.requirementsOf e = s.requirementsOf e ∧ s₁.mapped e = s.mapped e ∧
      s₁.profiles.rows = s.profiles.rows := by
  have hr : s₁.requirements.rows = s.requirements.rows :=
    rows_eq hb.requirements hb₁.requirements (congrArg Rows.requirements h)
  have hm : s₁.mappings.rows = s.mappings.rows :=
    rows_eq hb.mappings hb₁.mappings (congrArg Rows.mappings h)
  unfold Db.requirementsOf Db.mapped
  rw [hr, hm]
  exact ⟨rfl, rfl, rows_eq hb.profiles hb₁.profiles (congrArg Rows.profiles h)⟩

/-- All that the rows of `s'` have over those of `s` are the additions. -/
structure Notifies (s s' : Db) (e : Uuid) (ev : DisasterEvent) (additions : List Addition) :
    Prop where
  mappings : s.mappings.Gains s'.mappings (additions.map Addition.mapping)
  notices : ∃ rows, s.outbox.Gains s'.outbox rows ∧ List.Forall₂ NoticeOf additions rows
  event : s'.events.committed =
    Function.update s.events.committed e (some { ev with status := .broadcasting })
  requirements : s'.requirements.committed = s.requirements.committed
  profiles : s'.profiles.committed = s.profiles.committed

theorem notifies_of_appends {s' : Db} {additions : List Addition}
    {M : Nat → Option EventVolunteerMapping} {O : Nat → Option (Outbox Message)}
    (hs : Rested schema w s) (happends : Appends w additions M O)
    (hs' : Rested schema (Rows.overlay (.writing (single e { ev with status := .broadcasting })
      noRows M O) w) s') : Notifies s s' e ev additions := by
  obtain ⟨rows, hrows, hall⟩ := happends.notices
  have hbefore : s.rows = w := hs.rows
  have hafter : s'.rows = Rows.overlay (.writing (single e { ev with status := .broadcasting })
      noRows M O) w := hs'.rows
  refine ⟨?_, ⟨rows, ?_, hall⟩, ?_, ?_, ?_⟩
  · have hadded : Appended (Column.mappings.get w) (additions.map Addition.mapping)
        (Column.mappings.get (.writing (single e { ev with status := .broadcasting }) noRows
          M O)) := happends.mappings
    exact hs.gains Column.mappings hs' rfl hadded
  · have hadded : Appended (Column.outbox.get w) rows
        (Column.outbox.get (.writing (single e { ev with status := .broadcasting }) noRows
          M O)) := hrows
    exact hs.gains Column.outbox hs' rfl hadded
  · have hrow : s'.events.committed = fun k =>
        (single e { ev with status := .broadcasting } k).or (w.events k) :=
      congrArg Rows.events hafter
    rw [hrow, ← hbefore]
    funext k
    by_cases hk : k = e
    · subst hk
      simp [single_self]
    · simp [single_of_ne _ hk, hk, Db.rows]
  · have hrow : s'.requirements.committed = w.requirements := congrArg Rows.requirements hafter
    rw [hrow, ← hbefore]
    rfl
  · have hrow : s'.profiles.committed = w.profiles := congrArg Rows.profiles hafter
    rw [hrow, ← hbefore]
    rfl

theorem call_runMatching {districts : List String} (hs : Rested schema w s)
    {loaded : Option (DisasterEvent × List (Uuid × EventRequirement))}
    (hev : s.events.committed e = some ev)
    (hopen : ev.status = .declared ∨ ev.status = .broadcasting)
    (hdistricts : resolveBroadcastDistricts ev.broadcastType ev.sourceDistrict
      ev.targetDistricts = .ok districts) (hloaded : Current s e ev loaded) (t : Sid) :
    ∃ additions s', (runMatching loaded e).call t s = some (.ok additions.length, s') ∧
      Rested schema s'.rows s' ∧
      additions.Perm (greedy e ev districts (s.requirementsOf e) (s.mapped e) s.profiles.rows) ∧
      Notifies s s' e ev additions := by
  have hrow : w.events e = some ev := by
    rw [← hs.rows]
    exact hev
  have hmeets : Meets t (fun r s' => ∃ additions M O,
      additions.Perm (greedy e ev districts (s.requirementsOf e) (s.mapped e) s.profiles.rows) ∧
      r = .ok additions.length ∧ Appends w additions M O ∧
      Solo schema t schema.nothing (Rows.overlay (.writing
        (single e { ev with status := .broadcasting }) noRows M O) w) s')
      (runMatching loaded e) s := by
    refine (hs.solo t).forUpdate Column.events (.free fun _ => trivial) hrow fun s₁ h₁ => ?_
    have h₁' : Solo schema t (.writing (single e ev) noRows noRows noRows) w s₁ := h₁
    obtain ⟨hr, hm, hp⟩ := read_eq_of_rows (Db.bounded hs.bounded) (Db.bounded h₁.bounded)
      (h₁.rows.trans hs.rows.symm) e
    have hbuckets := meets_matchBuckets h₁' hrow hopen hdistricts
    rw [hr, hm, hp] at hbuckets
    cases loaded with
    | none =>
        have hscan : s₁.requirements.scan t = s₁.requirements.rows :=
          h₁'.scan_eq_rows Column.requirements rfl
        refine h₁'.query ?_
        show Meets t _ (matchBuckets e ev
          ((s₁.requirements.scan t).filter fun r => r.2.eventId == e)) s₁
        rw [hscan, show (s₁.requirements.rows.filter fun r => r.2.eventId == e) =
          s.requirementsOf e from hr]
        exact hbuckets
    | some x =>
        rw [hloaded x rfl]
        exact hbuckets
  obtain ⟨r, s₁, hx, additions, M, O, hperm, rfl, happends, hs₁⟩ := hmeets
  have hs' := hs₁.close
  refine ⟨additions, Transactional.rollback t s₁, by simp [Prog.call, hx], ?_, hperm,
    notifies_of_appends hs happends hs'⟩
  exact ⟨hs'.bounded, rfl, hs'.settled⟩

/-- Once the additions are made, nobody is left to assign. -/
theorem greedy_after {s' : Db} {districts : List String} {additions : List Addition}
    {ev' : DisasterEvent} (hb : s.Bounded) (hb' : s'.Bounded)
    (hperm : additions.Perm
      (greedy e ev districts (s.requirementsOf e) (s.mapped e) s.profiles.rows))
    (hnew : Notifies s s' e ev additions) :
    greedy e ev' districts (s'.requirementsOf e) (s'.mapped e) s'.profiles.rows = [] := by
  have hprofiles : s'.profiles.rows = s.profiles.rows :=
    rows_eq hb.profiles hb'.profiles hnew.profiles
  have hrequirements : s'.requirementsOf e = s.requirementsOf e := by
    unfold Db.requirementsOf
    rw [rows_eq hb.requirements hb'.requirements hnew.requirements]
  have hmapped : ∀ k m, s'.mappings.committed k = some m → m.eventId = e →
      m.volunteerId ∈ s'.mapped e := by
    intro k m hm he
    exact List.mem_map_of_mem (List.mem_filter.mpr
      ⟨(mem_rows hb'.mappings).mpr hm, by simpa using he⟩)
  rw [hprofiles, hrequirements]
  unfold greedy
  rw [List.filterMap_eq_nil_iff]
  intro v hv
  by_cases hold : v.1 ∈ s.mapped e
  · obtain ⟨m, hm, hvol⟩ := List.mem_map.mp hold
    obtain ⟨hmem, he⟩ := List.mem_filter.mp hm
    have hrow := hnew.mappings.kept m.1 m.2 ((mem_rows hb.mappings).mp hmem)
    have hstill := hmapped m.1 m.2 hrow (by simpa using he)
    rw [hvol] at hstill
    simp [assigned, hstill]
  · cases ha : assigned e ev districts (s.requirementsOf e) (s.mapped e) v with
    | none =>
        unfold assigned at ha ⊢
        by_cases hreach : inReach districts v.2 = true
        · have hfirst : firstOpen (s.requirementsOf e) v.2 = none := by
            simpa [hold, hreach] using ha
          simp [hfirst]
        · simp [hreach]
    | some a =>
        have hadded : a ∈ additions := hperm.mem_iff.mpr (List.mem_filterMap.mpr ⟨v, hv, ha⟩)
        have hvalue : a.mapping ∈ s'.mappings.values := by
          rw [hnew.mappings.values]
          exact List.mem_append_right _ (List.mem_map_of_mem hadded)
        obtain ⟨k, hk⟩ := committed_of_mem_values hvalue
        have hnow := hmapped k a.mapping hk (assigned_event ha)
        rw [(assigned_volunteer ha).1] at hnow
        simp [assigned, hnow]

theorem notifies_nothing {s' : Db} (hev : s.events.committed e = some ev)
    (hst : ev.status = .broadcasting) (h : Notifies s s' e ev []) : s'.rows = s.rows := by
  obtain ⟨rows, hrows, hnone⟩ := h.notices
  cases hnone
  have hevent : Function.update s.events.committed e (some { ev with status := .broadcasting }) =
      s.events.committed := by
    have hsame : { ev with status := .broadcasting } = ev := by rw [← hst]
    rw [hsame, Function.update_eq_self_iff]
    exact hev.symm
  unfold Db.rows
  rw [h.event, hevent, h.requirements, h.mappings.committed_eq, h.profiles, hrows.committed_eq]

end Meets

/-- Matching without concurrent activity, when `loaded` is what the session holds of the
event already, and once more right after it. -/
theorem matching_is_greedy {w : Rows} {s : Db} (hs : Rested schema w s) {e : Uuid}
    {ev : DisasterEvent} (hev : s.events.committed e = some ev)
    (hopen : ev.status = .declared ∨ ev.status = .broadcasting) {districts : List String}
    (hdistricts : resolveBroadcastDistricts ev.broadcastType ev.sourceDistrict
      ev.targetDistricts = .ok districts)
    {loaded : Option (DisasterEvent × List (Uuid × EventRequirement))}
    (hloaded : Current s e ev loaded) (t : Sid) :
    ∃ additions s', (runMatching loaded e).call t s = some (.ok additions.length, s') ∧
      additions.Perm (greedy e ev districts (s.requirementsOf e) (s.mapped e) s.profiles.rows) ∧
      Notifies s s' e ev additions ∧
      ∀ t' loaded', Current s' e { ev with status := .broadcasting } loaded' →
        ∃ s'', (runMatching loaded' e).call t' s' = some (.ok 0, s'') ∧ s''.rows = s'.rows := by
  obtain ⟨additions, s', hcall, hs', hperm, hnew⟩ :=
    call_runMatching hs hev hopen hdistricts hloaded t
  refine ⟨additions, s', hcall, hperm, hnew, fun t' loaded' hloaded' => ?_⟩
  have hev' : s'.events.committed e = some { ev with status := .broadcasting } := by
    rw [hnew.event, Function.update_self]
  obtain ⟨none', s'', hcall', -, hperm', hnew'⟩ :=
    call_runMatching hs' hev' (.inr rfl) hdistricts hloaded' t'
  rw [greedy_after (Db.bounded hs.bounded) (Db.bounded hs'.bounded) hperm hnew] at hperm'
  obtain rfl := hperm'.eq_nil
  exact ⟨s'', hcall', notifies_nothing hev' rfl hnew'⟩

/-- A volunteer in Colombo with the skills of a rescue team. -/
def rescuer (userId : Uuid) : VolunteerProfile :=
  { boatDriver userId with skills := ["boat_driver", "medic"] }

/-- A flood with a filled bucket and two OPEN ones: the first of three rescuers has
declined, the second is not available. -/
def floodStore : Db :=
  { events := .ofList [⟨1, "Flood", "Colombo", .radiusL1, [], .declared, 2⟩]
    requirements := .ofList
      [⟨0, "boat_driver", 1, 1, .fulfilled⟩, ⟨0, "medic", 2, 0, .opened⟩,
        ⟨0, "diver", 2, 0, .opened⟩]
    mappings := .ofList [⟨0, 1, 0, .declined, some 100⟩]
    profiles := .ofList [rescuer 7, { rescuer 8 with availableStatus := false }, rescuer 9]
    outbox := .empty
    processed := .empty }

theorem floodStore_rested : Rested schema floodStore.rows floodStore := by
  refine ⟨fun i => ?_, rfl, fun _ => rfl⟩
  cases i with
  | outbox => exact ⟨empty_bounded, trivial⟩
  | events | requirements | mappings | profiles => exact ⟨ofList_bounded _, trivial⟩

/-- The third rescuer is notified for the first OPEN bucket. -/
theorem matching_is_greedy_flood : ∃ s', (runMatching none 0).call 0 floodStore =
      some (.ok 1, s') ∧
    s'.mappings.values = [⟨0, 1, 0, .declined, some 100⟩, ⟨0, 1, 2, .notified, none⟩] ∧
    ∃ s'', (runMatching none 0).call 1 s' = some (.ok 0, s'') ∧ s''.rows = s'.rows := by
  have hev : floodStore.events.committed 0 =
      some ⟨1, "Flood", "Colombo", .radiusL1, [], .declared, 2⟩ := rfl
  have hdistricts : resolveBroadcastDistricts .radiusL1 "Colombo" [] = .ok ["Colombo"] := by
    decide +kernel
  have hloaded : Current floodStore 0 ⟨1, "Flood", "Colombo", .radiusL1, [], .declared, 2⟩ none :=
    fun x hx => by cases hx
  obtain ⟨additions, s', hcall, hperm, hnew, hagain⟩ :=
    matching_is_greedy floodStore_rested hev (.inl rfl) hdistricts hloaded 0
  have hgreedy : greedy 0 ⟨1, "Flood", "Colombo", .radiusL1, [], .declared, 2⟩ ["Colombo"]
      (floodStore.requirementsOf 0) (floodStore.mapped 0) floodStore.profiles.rows =
      [⟨⟨0, 1, 2, .notified, none⟩, 1, .assignmentNotified 0 1 9 "medic" "Colombo" "Flood"⟩] := by
    rfl
  rw [hgreedy] at hperm
  obtain rfl := hperm.eq_singleton
  have hvalues : floodStore.mappings.values = [⟨0, 1, 0, .declined, some 100⟩] := by rfl
  refine ⟨s', hcall, ?_, hagain 1 none fun x hx => by cases hx⟩
  rw [hnew.mappings.values, hvalues]
  rfl

/-! ## Declined volunteers -/

/-- The volunteer has declined a bucket of an event that is BROADCASTING, is in reach and
holds the skill of another bucket that is OPEN. -/
def CanRematch (s : Db) (e v : Uuid) : Prop :=
  ∃ ev districts profile k m r q, s.events.committed e = some ev ∧ ev.status = .broadcasting ∧
    resolveBroadcastDistricts ev.broadcastType ev.sourceDistrict ev.targetDistricts =
      .ok districts ∧
    s.profiles.committed v = some profile ∧ inReach districts profile = true ∧
    s.mappings.committed k = some m ∧ m.eventId = e ∧ m.volunteerId = v ∧
    m.status = .declined ∧ s.requirements.committed r = some q ∧ q.eventId = e ∧
    q.status = .opened ∧ q.skill ∈ profile.skills ∧ m.requirementId ≠ r

/-- The volunteer is notified for an OPEN bucket of the event whose skill they hold. -/
def Rematched (s : Db) (e v : Uuid) : Prop :=
  ∃ k m q profile, s.mappings.committed k = some m ∧ m.eventId = e ∧ m.volunteerId = v ∧
    m.status = .notified ∧ s.requirements.committed m.requirementId = some q ∧
    q.status = .opened ∧ s.profiles.committed v = some profile ∧ q.skill ∈ profile.skills

/-- Between the two states a call that matches the event has begun and ended. -/
def MatchedSince (c c' : Cluster) (e : Uuid) : Prop :=
  Run Call.body c c' ∧ ∃ t a r, c.fresh ≤ t ∧ (t, a, r) ∈ c'.log ∧
    (a = .runMatching e ∨ ∃ tenantId, a = .rebroadcast tenantId e)

/-- A declined mapping stays, and it is the only one of its volunteer for the event. -/
theorem declined_stays {profiles : List VolunteerProfile} {c c' : Cluster} {e v : Uuid}
    (h : Run Call.body (Config.start (Db.initial profiles)) c) (hc : CanRematch c.store e v)
    (hrun : Run Call.body c c') {j : Uuid} {n : EventVolunteerMapping}
    (hn : c'.store.mappings.committed j = some n) (he : n.eventId = e) (hv : n.volunteerId = v) :
    n.status = .declined := by
  obtain ⟨ev, districts, profile, k, m, r, q, -, -, -, -, -, hm, rfl, rfl, hst, -⟩ := hc
  have hfinal : m.status.final = true := by rw [hst]; rfl
  have hstays : c'.store.mappings.committed k = some m := run_final_stays h hrun hm hfinal
  have hsame : j = k := (run_inv (h.trans hrun)).2.linked.once k m j n hstays hn he hv
  rw [hsame, hstays] at hn
  cases hn
  exact hst

theorem declined_never_rematched {profiles : List VolunteerProfile} {c c' : Cluster} {e v : Uuid}
    (h : Run Call.body (Config.start (Db.initial profiles)) c) (hc : CanRematch c.store e v)
    (hafter : MatchedSince c c' e) : ¬ Rematched c'.store e v := by
  rintro ⟨j, n, q, profile, hn, he, hv, hst, -⟩
  rw [declined_stays h hc hafter.1 hn he hv] at hst
  cases hst

/-- A flood that needs boat drivers and medics. -/
def rescueFlood : DisasterEventCreate :=
  { flood 2 two_pos_places two_le_places with
    requirements := [⟨"boat_driver", 2, two_pos_places, two_le_places⟩,
      ⟨"medic", 2, two_pos_places, two_le_places⟩]
    requirements_pos := by simp
    requirements_le := by simp
    skills_nodup := by simp }

/-- The one rescuer is notified for the first bucket and declines. -/
def decliningRescuer : List (Move Call) :=
  List.flatten
    [ .begin (.declareEvent 1 2 rescueFlood) :: List.replicate 6 (.next 0),
      .close 0 :: .begin (.runMatching 0) :: List.replicate 9 (.next 1),
      .close 1 :: .begin (.transitionAssignment 0 7 .declined 100) :: List.replicate 6 (.next 2),
      [.close 2] ]

/-- The event is matched once more. -/
def matchingAgain : List (Move Call) :=
  .begin (.runMatching 0) :: List.replicate 6 (.next 3) ++ [.close 3]

/-- The rescuer who has declined qualifies for the second bucket, and the event is matched
once more. -/
theorem rescuer_matched_again : ∃ c c' : Cluster,
    Run Call.body (Config.start (Db.initial [rescuer 7])) c ∧ CanRematch c.store 0 0 ∧
      MatchedSince c c' 0 := by
  have hplay : ((Config.start (Db.initial [rescuer 7])).play Call.body decliningRescuer).bind
      (fun c => (c.play Call.body matchingAgain).map fun c' =>
        ((c.store.events.committed 0, c.store.requirements.committed 1),
          (c.store.mappings.committed 0, c.fresh),
          c'.log.any fun l => l.1 == 3 && match l.2.1 with
            | .runMatching e => e == 0
            | _ => false)) =
      some ((some ⟨1, "Flood", "Colombo", .radiusL1, [], .broadcasting, 2⟩,
        some ⟨0, "medic", 2, 0, .opened⟩), (some ⟨0, 0, 0, .declined, some 100⟩, 3), true) := by
    decide +kernel
  have hprofile : ((Config.start (Db.initial [rescuer 7])).play Call.body decliningRescuer).map
      (fun c => c.store.profiles.committed 0) = some (some (rescuer 7)) := by
    decide +kernel
  obtain ⟨c, hc, hrest⟩ := Option.bind_eq_some_iff.mp hplay
  obtain ⟨c', hc', hrows⟩ := Option.map_eq_some_iff.mp hrest
  simp only [Prod.mk.injEq] at hrows
  obtain ⟨⟨hev, hq⟩, ⟨hm, hfresh⟩, hlog⟩ := hrows
  rw [hc] at hprofile
  have hv : c.store.profiles.committed 0 = some (rescuer 7) := Option.some.inj hprofile
  refine ⟨c, c', Config.play_run hc, ⟨_, ["Colombo"], rescuer 7, 0, _, 1, _, hev, rfl,
    by decide +kernel, hv, by decide, hm, rfl, rfl, rfl, hq, rfl, rfl, by decide, by decide⟩,
    Config.play_run hc', ?_⟩
  obtain ⟨⟨t, a, r⟩, hmem, hcall⟩ := List.any_eq_true.mp hlog
  obtain ⟨ht, ha⟩ := (Bool.and_eq_true _ _).mp hcall
  have ht' : t = 3 := by simpa using ht
  refine ⟨t, a, r, by rw [hfresh, ht'], hmem, .inl ?_⟩
  cases a with
  | runMatching e =>
      have he : e = 0 := by simpa using ha
      rw [he]
  | declareEvent | rebroadcast | acceptAssignment | transitionAssignment | closeEvent => cases ha

theorem declined_never_rematched_rescuer : ∃ c c' : Cluster,
    Run Call.body (Config.start (Db.initial [rescuer 7])) c ∧ CanRematch c.store 0 0 ∧
      MatchedSince c c' 0 ∧ ¬ Rematched c'.store 0 0 := by
  obtain ⟨c, c', hrun, hc, hafter⟩ := rescuer_matched_again
  exact ⟨c, c', hrun, hc, hafter, declined_never_rematched hrun hc hafter⟩

theorem declined_rescuer_not_rematched :
    ¬ ∀ (profiles : List VolunteerProfile) (c c' : Cluster) (e v : Uuid),
      Run Call.body (Config.start (Db.initial profiles)) c → CanRematch c.store e v →
        MatchedSince c c' e → Rematched c'.store e v := by
  intro hall
  obtain ⟨c, c', hrun, hc, hafter⟩ := rescuer_matched_again
  obtain ⟨j, n, q, profile, hn, he, hv, hst, -⟩ := hall _ c c' 0 0 hrun hc hafter
  rw [declined_stays hrun hc hafter.1 hn he hv] at hst
  cases hst

end Volunteer
end Rcp
