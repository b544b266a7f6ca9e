/-
The quota ledger and the announcements, in every run.

The invariants of the committed rows, read off the tables: sets of keys become
counts of rows.
-/
import Rcp.Sql.Schedule
import Rcp.Volunteer.Accept

namespace Rcp
namespace Volunteer

open Sql Sql.Table

abbrev Cluster := Config Db Error Reply Call

theorem initial_inv (profiles : List VolunteerProfile) :
    discipline.Inv (Db.initial profiles) := by
  refine ⟨fun i => ?_, Rows.initial_wellFormed _⟩
  cases i with
  | profiles => exact ⟨ofList_bounded profiles, trivial⟩
  | events | requirements | mappings | outbox => exact ⟨empty_bounded, trivial⟩

theorem start_sound (adm : Call → Db → Db → Db → Prop) (profiles : List VolunteerProfile) :
    (Config.start (Db.initial profiles) : Cluster).Sound discipline adm :=
  Config.start_sound (initial_inv profiles) fun _ => rfl

theorem run_inv {profiles : List VolunteerProfile} {c : Cluster}
    (h : Run Call.body (Config.start (Db.initial profiles)) c) :
    c.store.Bounded ∧ WellFormed c.store.rows :=
  Db.sound (h.sound (verified _) (start_sound _ profiles)).inv

/-- The number of mappings of bucket `r` that hold a place. -/
def Db.placesTaken (s : Db) (r : Uuid) : Nat :=
  s.mappings.rows.countP fun m => m.2.requirementId == r && m.2.status.counted

/-- The number of `volunteer.requirement.fulfilled` rows of bucket `r`. -/
def Db.fulfilledRows (s : Db) (r : Uuid) : Nat :=
  s.outbox.rows.countP fun o => o.2.payload.data.fulfilledRequirement == some r

/-- The number of `volunteer.team.formed` rows of event `e`. -/
def Db.formedRows (s : Db) (e : Uuid) : Nat :=
  s.outbox.rows.countP fun o => o.2.payload.data.formedEvent == some e

theorem encard_holders {s : Db} (hb : s.Bounded) (r : Uuid) :
    (holders s.rows r).encard = s.placesTaken r := by
  have hset : holders s.rows r = {k | ∃ m, s.mappings.committed k = some m ∧
      (m.requirementId == r && m.status.counted) = true} := by
    ext k
    simp [holders, Db.rows]
  rw [hset, encard_rows hb.mappings fun m => m.requirementId == r && m.status.counted]
  rfl

theorem encard_posted {s : Db} (hb : s.Bounded) (f : Message → Option Uuid) (x : Uuid) :
    (posted f s.rows x).encard =
      (s.outbox.rows.countP fun o => f o.2.payload.data == some x : Nat) := by
  have hset : posted f s.rows x = {o | ∃ row, s.outbox.committed o = some row ∧
      (f row.payload.data == some x) = true} := by
    ext o
    simp [posted, Db.rows]
  rw [hset, encard_rows hb.outbox fun row => f row.payload.data == some x]

theorem quota_ledger {profiles : List VolunteerProfile} {c : Cluster}
    (h : Run Call.body (Config.start (Db.initial profiles)) c) {r : Uuid}
    {q : EventRequirement} (hq : (r, q) ∈ c.store.requirements.rows) :
    0 ≤ q.filledCount ∧ q.filledCount ≤ q.requiredCount ∧
      q.filledCount = c.store.placesTaken r ∧
      (q.status = .fulfilled ↔ q.filledCount = q.requiredCount) := by
  have hi := run_inv h
  have hq' : c.store.rows.requirements r = some q :=
    (mem_rows hi.1.requirements).mp hq
  have hbal := hi.2.ledger r q hq'
  obtain ⟨n, hn, hcard⟩ := hbal.count
  rw [encard_holders hi.1] at hcard
  have hcount : c.store.placesTaken r = n := by exact_mod_cast hcard
  refine ⟨by omega, hbal.within, ?_, hbal.full⟩
  rw [hn, hcount]

/-- A volunteer in Colombo who drives boats. -/
def boatDriver (userId : Uuid) : VolunteerProfile :=
  { userId := userId
    fullName := "Nimal"
    phone := none
    isActive := true
    sourceUpdatedAt := none
    baseDistrict := some "Colombo"
    city := none
    availableStatus := true
    skills := ["boat_driver"]
    createdAt := 0 }

/-- A flood in Colombo that needs boat drivers. -/
def flood (n : Int) (hpos : 0 < n) (hle : n ≤ 1000) : DisasterEventCreate :=
  { title := "Flood"
    sourceDistrict := "Colombo"
    broadcastType := .radiusL1
    targetDistricts := none
    requirements := [⟨"boat_driver", n, hpos, hle⟩]
    district_valid := by decide
    targets_match := by simp
    requirements_pos := by simp
    requirements_le := by simp
    skills_nodup := by simp }

theorem two_pos_places : (0 : Int) < 2 := by decide

theorem two_le_places : (2 : Int) ≤ 1000 := by decide

/-- One of two places is taken. -/
def floodCalls : List Call :=
  [.declareEvent 1 2 (flood 2 two_pos_places two_le_places), .runMatching 0,
    .acceptAssignment 0 7 100]

theorem quota_ledger_flood : ∃ c : Cluster,
    Run Call.body (Config.start (Db.initial [boatDriver 7, boatDriver 8])) c ∧
      ∃ q, (0, q) ∈ c.store.requirements.rows ∧ q.filledCount = 1 ∧
        q.filledCount = c.store.placesTaken 0 ∧ q.status ≠ .fulfilled := by
  have hcalls : (calls Call.body floodCalls 0 (Db.initial [boatDriver 7, boatDriver 8])).map
      (fun s => s.requirements.rows) = some [(0, ⟨0, "boat_driver", 2, 1, .opened⟩)] := by
    decide +kernel
  obtain ⟨s, hs, hrows⟩ := Option.map_eq_some_iff.mp hcalls
  obtain ⟨c, hrun, rfl⟩ := Run.calls (c := Config.start _) (fun _ => rfl) hs
  have hq : (0, ⟨0, "boat_driver", 2, 1, .opened⟩) ∈ c.store.requirements.rows := by
    rw [hrows]
    exact List.mem_cons_self ..
  exact ⟨c, hrun, _, hq, rfl, (quota_ledger hrun hq).2.2.1, by simp⟩

theorem team_announced_once {profiles : List VolunteerProfile} {c : Cluster}
    (h : Run Call.body (Config.start (Db.initial profiles)) c) :
    (∀ e ev, (e, ev) ∈ c.store.events.rows →
      ((∀ r q, (r, q) ∈ c.store.requirements.rows → q.eventId = e → q.status = .fulfilled) ↔
        c.store.formedRows e = 1)) ∧
    (∀ e, c.store.formedRows e ≤ 1) ∧
    (∀ r q, (r, q) ∈ c.store.requirements.rows →
      c.store.fulfilledRows r = if q.status = .fulfilled then 1 else 0) := by
  have hi := run_inv h
  have hall : ∀ e, (∀ r q, (r, q) ∈ c.store.requirements.rows → q.eventId = e →
      q.status = .fulfilled) ↔ AllFulfilled c.store.rows e := by
    intro e
    constructor
    · intro hrows r q hq
      exact hrows r q ((mem_rows hi.1.requirements).mpr hq)
    · intro hrows r q hq
      exact hrows r q ((mem_rows hi.1.requirements).mp hq)
  have hformed := fun e => encard_posted hi.1 Message.formedEvent e
  have hnone : ∀ e, posted Message.formedEvent c.store.rows e = ∅ → c.store.formedRows e = 0 := by
    intro e he
    have hcard := hformed e
    rw [he, Set.encard_empty] at hcard
    exact_mod_cast hcard.symm
  have hone : ∀ e ev, c.store.rows.events e = some ev → AllFulfilled c.store.rows e →
      c.store.formedRows e = 1 := by
    intro e ev hev hf
    have hcard := hformed e
    rw [hi.2.announced.team e ev hev hf] at hcard
    exact_mod_cast hcard.symm
  refine ⟨?_, ?_, ?_⟩
  · intro e ev hev
    have hev' : c.store.rows.events e = some ev := (mem_rows hi.1.events).mp hev
    rw [hall e]
    constructor
    · exact hone e ev hev'
    · intro hcount
      by_contra hopen
      have hzero := hnone e (hi.2.announced.team_none e fun _ _ => hopen)
      omega
  · intro e
    by_cases hcase : ∃ ev, c.store.rows.events e = some ev ∧ AllFulfilled c.store.rows e
    · obtain ⟨ev, hev, hf⟩ := hcase
      exact Nat.le_of_eq (hone e ev hev hf)
    · have hzero := hnone e (hi.2.announced.team_none e fun ev hev hf => hcase ⟨ev, hev, hf⟩)
      omega
  · intro r q hq
    have hq' : c.store.rows.requirements r = some q :=
      (mem_rows hi.1.requirements).mp hq
    have hcard := encard_posted hi.1 Message.fulfilledRequirement r
    split
    · rename_i hst
      rw [hi.2.announced.bucket r q hq' hst] at hcard
      exact_mod_cast hcard.symm
    · rename_i hst
      have hempty := hi.2.announced.bucket_none r fun q₂ hq₂ => by
        rw [hq'] at hq₂
        cases hq₂
        exact hst
      rw [hempty, Set.encard_empty] at hcard
      exact_mod_cast hcard.symm

/-- Both places are taken by acceptances whose statements alternate up to the
gate, where the second waits for the first. -/
def floodSchedule : List (Move Call) :=
  List.flatten
    [ .begin (.declareEvent 1 2 (flood 2 two_pos_places two_le_places)) :: List.replicate 5 (.next 0),
      .close 0 :: .begin (.runMatching 0) :: List.replicate 10 (.next 1),
      [.close 1, .begin (.acceptAssignment 0 7 100), .begin (.acceptAssignment 1 8 101),
        .next 2, .next 3, .next 3, .next 2, .next 2, .next 2],
      List.replicate 15 (.next 3) ]

theorem team_announced_once_flood : ∃ c : Cluster,
    Run Call.body (Config.start (Db.initial [boatDriver 7, boatDriver 8])) c ∧
      c.store.formedRows 0 = 1 ∧ c.store.fulfilledRows 0 = 1 := by
  have hplay : ((Config.start (Db.initial [boatDriver 7, boatDriver 8])).play Call.body
      floodSchedule).map (fun c => (c.store.events.rows, c.store.requirements.rows)) =
      some ([(0, ⟨1, "Flood", "Colombo", .radiusL1, [], .teamFormed, 2⟩)],
        [(0, ⟨0, "boat_driver", 2, 2, .fulfilled⟩)]) := by
    decide +kernel
  obtain ⟨c, hc, hrows⟩ := Option.map_eq_some_iff.mp hplay
  obtain ⟨hevents, hrequirements⟩ := Prod.mk.inj hrows
  have hrun := Config.play_run hc
  obtain ⟨hteam, -, hbucket⟩ := team_announced_once hrun
  refine ⟨c, hrun, ?_, ?_⟩
  · refine (hteam 0 ⟨1, "Flood", "Colombo", .radiusL1, [], .teamFormed, 2⟩ ?_).mp ?_
    · rw [hevents]
      exact List.mem_cons_self ..
    · intro r q hq _
      rw [hrequirements, List.mem_singleton] at hq
      cases hq
      rfl
  · refine hbucket 0 ⟨0, "boat_driver", 2, 2, .fulfilled⟩ ?_
    rw [hrequirements]
    exact List.mem_cons_self ..

end Volunteer
end Rcp
