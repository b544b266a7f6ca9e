/-
The announced team.

The roster of `volunteer.team.formed` is a query for ACCEPTED mappings, while a
place of a bucket is held by ACCEPTED, EN_ROUTE and COMPLETED mappings alike.
`Unmoved` says that nobody has set out before all buckets of the event are
FULFILLED.  As long as the steps keep that, `Complete` holds: the announced team
is the set of mappings that hold a place.
-/
import Rcp.Volunteer.Quota

namespace Rcp
namespace Volunteer

open Sql Sql.Table

/-! ## The rows -/

/-- A step that lets a volunteer set out finds all buckets of the event
FULFILLED. -/
def SetsOutLate (w w' : Rows) : Prop :=
  ∀ k m m', w.mappings k = some m → w'.mappings k = some m' → m.status.movedOn = false →
    m'.status.movedOn = true → AllFulfilled w m.eventId

def Unmoved (w : Rows) : Prop :=
  ∀ k m, w.mappings k = some m → m.status.movedOn = true → AllFulfilled w m.eventId

/-- Mapping `k` holds a place of event `e`. -/
def Serves (w : Rows) (e : Uuid) (k : Nat) : Prop :=
  ∃ m, w.mappings k = some m ∧ m.eventId = e ∧ m.status.counted = true

/-- The team announced for event `e` is everyone who holds a place of it. -/
structure FullTeam (w : Rows) (e : Uuid) (ks : List Nat) (team : List TeamMember) : Prop where
  nodup : ks.Nodup
  serves : ∀ k, k ∈ ks ↔ Serves w e k
  listed : List.Forall₂ (Listed w) ks team

def Complete (w : Rows) : Prop :=
  ∀ o row e title source team, w.outbox o = some row →
    row.payload.data = .teamFormed e title source team → ∃ ks, FullTeam w e ks team

/-- A mapping holds a place because it did before, or because it has just taken
one. -/
theorem Commit.serves_origin {a : Call} {w W : Rows} (h : Commit a w W) {e : Uuid} {k : Nat}
    (hk : Serves (W.overlay w) e k) :
    Serves w e k ∨ ∃ r q, w.requirements r = some q ∧ q.filledCount < q.requiredCount ∧
      ∃ m, w.mappings k = some m ∧ m.requirementId = r ∧ m.eventId = e := by
  obtain ⟨m, hm, hme, hc⟩ := hk
  rcases over_cases hm with hnew | ⟨-, hold⟩
  · cases h with
    | declared | closed => cases hnew
    | matched _ _ hM =>
        rw [(hM.row k m hnew).2.2] at hc
        cases hc
    | rejected =>
        obtain ⟨-, rfl⟩ := single_eq_some.mp hnew
        cases hc
    | @accepted _ _ _ _ row q h hlt =>
        obtain ⟨rfl, rfl⟩ := single_eq_some.mp hnew
        exact .inr ⟨_, q, h.bucket, by omega, row, h.mapping, rfl, hme⟩
    | @fulfilled _ _ _ _ row q _ _ h hlt =>
        obtain ⟨rfl, rfl⟩ := single_eq_some.mp hnew
        exact .inr ⟨_, q, h.bucket, hlt, row, h.mapping, rfl, hme⟩
    | @formed _ _ _ _ row q _ _ _ _ _ h hlt =>
        obtain ⟨rfl, rfl⟩ := single_eq_some.mp hnew
        exact .inr ⟨_, q, h.bucket, hlt, row, h.mapping, rfl, hme⟩
    | @moved _ _ _ _ new _ row _ _ htrans hrow hfrom =>
        obtain ⟨rfl, rfl⟩ := single_eq_some.mp hnew
        have hcount : new.counted = true := hc
        rw [(transitions_counted htrans hfrom).1] at hcount
        exact .inl ⟨row, hrow, hme, hcount⟩
  · exact .inl ⟨m, hold, hme, hc⟩

theorem Serves.evolves {w w' : Rows} {e : Uuid} {k : Nat} (h : Serves w e k)
    (hw : Evolves w w') : Serves w' e k := by
  obtain ⟨m, hm, hme, hc⟩ := h
  obtain ⟨m', hm', hsame⟩ := hw.mappings k m hm
  exact ⟨m', hm', hsame.event.trans hme, hsame.counted hc⟩

/-- Once all buckets are FULFILLED the holders of the event do not change. -/
theorem Commit.serves_iff {a : Call} {w W : Rows} (h : Commit a w W) (hw : WellFormed w)
    {e : Uuid} (hall : AllFulfilled w e) (k : Nat) :
    Serves (W.overlay w) e k ↔ Serves w e k := by
  constructor
  · intro hk
    rcases h.serves_origin hk with hold | ⟨r, q, hq, hlt, m, hm, hmr, hme⟩
    · exact hold
    · obtain ⟨q', hq', hqe⟩ := hw.linked.bucket k m hm
      rw [hmr, hq] at hq'
      cases hq'
      have hfull := hall r q hq (hqe.trans hme)
      exact absurd hfull ((hw.ledger r q hq).opened hlt)
  · intro hk
    exact hk.evolves h.evolves

theorem Commit.unmoved {a : Call} {w W : Rows} (h : Commit a w W) (hw : WellFormed w)
    (hlate : SetsOutLate w (W.overlay w)) (hu : Unmoved w) : Unmoved (W.overlay w) := by
  intro k m hm hmoved
  rcases h.mapping_origin hm with ⟨m₀, hm₀, hsame⟩ | ⟨e, -, hM, hnew⟩
  · have hall : AllFulfilled w m₀.eventId := by
      cases hm₀m : m₀.status.movedOn with
      | true => exact hu k m₀ hm₀ hm₀m
      | false => exact hlate k m₀ m hm₀ hm hm₀m hmoved
    obtain ⟨q, hq, hqe⟩ := hw.linked.bucket k m₀ hm₀
    obtain ⟨ev, hev⟩ := hw.linked.event _ q hq
    rw [hqe] at hev
    rw [hsame.event]
    exact h.allFulfilled_mono hev hall
  · rw [(hM.row k m hnew).2.2] at hmoved
    cases hmoved

/-- A `team.formed` row is there only if all buckets are FULFILLED. -/
theorem WellFormed.allFulfilled_of_formed {w : Rows} (hw : WellFormed w) {o : Uuid}
    {row : Outbox Message} {e : Uuid} (ho : w.outbox o = some row)
    (hrow : row.payload.data.formedEvent = some e) :
    AllFulfilled w e ∧ ∃ ev, w.events e = some ev := by
  by_contra hno
  have hempty := hw.announced.team_none e fun ev hev hall => hno ⟨hall, ev, hev⟩
  have hmem : o ∈ posted Message.formedEvent w e := ⟨row, ho, hrow⟩
  rw [hempty] at hmem
  cases hmem

theorem FullTeam.keep {a : Call} {w W : Rows} {e : Uuid} {ks : List Nat}
    {team : List TeamMember} (ht : FullTeam w e ks team) (h : Commit a w W)
    (hw : WellFormed w) (hall : AllFulfilled w e) : FullTeam (W.overlay w) e ks team where
  nodup := ht.nodup
  serves := fun k => (ht.serves k).trans (h.serves_iff hw hall k).symm
  listed := ht.listed.imp fun _ _ hl => hl.evolves h.evolves

/-- The outbox rows a commit adds: the team is announced by `formed` only. -/
theorem Commit.formed_row {a : Call} {w W : Rows} (h : Commit a w W) {o : Uuid}
    {row : Outbox Message} {e : Uuid} {title source : String} {team : List TeamMember}
    (ho : W.outbox o = some row) (hd : row.payload.data = .teamFormed e title source team) :
    ∃ ks, Roster (W.overlay w) e ks team ∧
      (∀ k m, (W.overlay w).mappings k = some m → m.status.movedOn = true →
        w.mappings k = some m) ∧
      ∃ r q, w.requirements r = some q ∧ q.eventId = e ∧ q.filledCount < q.requiredCount := by
  have hplain : row.payload.data.formedEvent = some e := by rw [hd]; rfl
  cases h with
  | declared _ _ _ _ hO | matched _ _ _ hO =>
      rw [(hO o row ho).2.2] at hplain
      cases hplain
  | rejected | accepted | closed => cases ho
  | fulfilled | moved =>
      obtain ⟨-, rfl⟩ := single_eq_some.mp ho
      cases hd
  | @formed _ k' _ now row' q ev o₁ o₂ ks team' h hlt hle hev hall hstatus ho₁ ho₂ hne hroster =>
      simp only [teamWrites, Rows.writing, Function.update_apply] at ho
      split at ho
      · cases ho
        cases hd
        refine ⟨ks, hroster, ?_, row'.requirementId, q, h.bucket, rfl, hlt⟩
        intro k m hm hmoved
        rcases over_cases hm with hnew | ⟨-, hold⟩
        · obtain ⟨-, rfl⟩ := single_eq_some.mp hnew
          cases hmoved
        · exact hold
      · obtain ⟨-, rfl⟩ := single_eq_some.mp ho
        cases hd

theorem counted_cases {st : AssignmentStatus} (h : st.counted = true) :
    st = .accepted ∨ st.movedOn = true := by
  cases st <;> simp_all [AssignmentStatus.counted, AssignmentStatus.movedOn]

theorem Commit.complete {a : Call} {w W : Rows} (h : Commit a w W) (hw : WellFormed w)
    (hu : Unmoved w) (hc : Complete w) : Complete (W.overlay w) := by
  intro o row e title source team ho hd
  rcases over_cases ho with hnew | ⟨-, hold⟩
  · obtain ⟨ks, hroster, hmoved, r, q, hq, hqe, hlt⟩ := h.formed_row hnew hd
    have hopen := (hw.ledger r q hq).opened hlt
    refine ⟨ks, hroster.nodup, fun k => ⟨hroster.holds k, fun hk => ?_⟩, hroster.listed⟩
    obtain ⟨m, hm, hme, hcount⟩ := hk
    rcases counted_cases hcount with hacc | hmv
    · exact hroster.accepted k m hm hme hacc
    · -- someone who has set out already would mean that the buckets were full before
      have hall := hu k m (hmoved k m hm hmv) hmv
      rw [hme] at hall
      exact absurd (hall r q hq hqe) hopen
  · obtain ⟨ks, hteam⟩ := hc o row e title source team hold hd
    have hrow : row.payload.data.formedEvent = some e := by rw [hd]; rfl
    exact ⟨ks, hteam.keep h hw (hw.allFulfilled_of_formed hold hrow).1⟩

/-! ## The tables -/

/-- The mappings of event `e` that were counted in some requirement's
`filled_count`. -/
def Db.counted (s : Db) (e : Uuid) : List (Nat × EventVolunteerMapping) :=
  s.mappings.rows.filter fun m => m.2.eventId == e && m.2.status.counted

/-- The user behind a mapping and the skill of its bucket. -/
def Db.servedAs (s : Db) (m : EventVolunteerMapping) : Option (Uuid × String) :=
  match s.profiles.committed m.volunteerId, s.requirements.committed m.requirementId with
  | some v, some q => some (v.userId, q.skill)
  | _, _ => none

/-- The sum of the `required_count` values of event `e`. -/
def Db.requiredTotal (s : Db) (e : Uuid) : Int :=
  ((s.requirements.rows.filter fun q => q.2.eventId == e).map fun q => q.2.requiredCount).sum

/-- The team list names everyone counted, once and with the bucket's skill, and
nobody else. -/
structure AnnouncesTeam (s : Db) (e : Uuid) (team : List TeamMember) : Prop where
  counted : (team.map fun x => some (x.volunteerUserId, x.skill)).Perm
    ((s.counted e).map fun m => s.servedAs m.2)
  once : (team.map TeamMember.volunteerUserId).Nodup
  length : (team.length : Int) = s.requiredTotal e

theorem mem_counted {s : Db} (hb : s.Bounded) {e : Uuid} {k : Nat} :
    k ∈ (s.counted e).map Prod.fst ↔ Serves s.rows e k := by
  simp only [Db.counted, List.mem_map, List.mem_filter, Prod.exists, exists_and_right,
    exists_eq_right, mem_rows hb.mappings, Bool.and_eq_true, beq_iff_eq]
  rfl

theorem FullTeam.perm {s : Db} (hb : s.Bounded) {e : Uuid} {ks : List Nat}
    {team : List TeamMember} (ht : FullTeam s.rows e ks team) :
    ks.Perm ((s.counted e).map Prod.fst) := by
  have hnodup : ((s.counted e).map Prod.fst).Nodup :=
    (keys_nodup s.mappings.committed s.mappings.next).sublist
      (List.filter_sublist.map Prod.fst)
  rw [List.perm_ext_iff_of_nodup ht.nodup hnodup]
  intro k
  rw [ht.serves k, mem_counted hb]

/-- The entry of the team list that stands for mapping `k`. -/
def Db.entry (s : Db) (k : Nat) : Option (Uuid × String) :=
  (s.mappings.committed k).bind s.servedAs

theorem entry_of_listed {s : Db} {k : Nat} {x : TeamMember} (h : Listed s.rows k x) :
    some (x.volunteerUserId, x.skill) = s.entry k := by
  obtain ⟨m, v, q, hm, hv, hq, huser, hskill⟩ := h
  have hm' : s.mappings.committed k = some m := hm
  have hv' : s.profiles.committed m.volunteerId = some v := hv
  have hq' : s.requirements.committed m.requirementId = some q := hq
  simp [Db.entry, Db.servedAs, hm', hv', hq', huser, hskill]

theorem FullTeam.counted {s : Db} (hb : s.Bounded) {e : Uuid} {ks : List Nat}
    {team : List TeamMember} (ht : FullTeam s.rows e ks team) :
    (team.map fun x => some (x.volunteerUserId, x.skill)).Perm
      ((s.counted e).map fun m => s.servedAs m.2) := by
  have hteam : (team.map fun x => some (x.volunteerUserId, x.skill)) = ks.map s.entry := by
    have hl := ht.listed
    clear ht
    induction hl with
    | nil => rfl
    | cons hx _ ih => rw [List.map_cons, List.map_cons, entry_of_listed hx, ih]
  have hcounted : ((s.counted e).map fun m => s.servedAs m.2) =
      ((s.counted e).map Prod.fst).map s.entry := by
    rw [List.map_map]
    refine List.map_congr_left fun m hm => ?_
    have hrow := (mem_rows hb.mappings).mp (List.mem_of_mem_filter hm)
    simp [Db.entry, hrow]
  rw [hteam, hcounted]
  exact (ht.perm hb).map s.entry

/-- User ids are unique among the profiles. -/
def UserIdsUnique (w : Rows) : Prop :=
  ∀ i j v u, w.profiles i = some v → w.profiles j = some u → v.userId = u.userId → i = j

theorem userIdsUnique_ofList {profiles : List VolunteerProfile}
    (h : (profiles.map VolunteerProfile.userId).Nodup) :
    UserIdsUnique (Db.initial profiles).rows := by
  intro i j v u hi hj huser
  have hi' : profiles[i]? = some v := hi
  have hj' : profiles[j]? = some u := hj
  obtain ⟨hlt, -⟩ := List.getElem?_eq_some_iff.mp hi'
  refine (List.getElem?_inj (l := profiles.map VolunteerProfile.userId) (by simpa using hlt)
    h).mp ?_
  rw [List.getElem?_map, List.getElem?_map, hi', hj']
  simp [huser]

theorem FullTeam.once {w : Rows} (hw : Linked w) (hu : UserIdsUnique w) {e : Uuid}
    {ks : List Nat} {team : List TeamMember} (ht : FullTeam w e ks team) :
    (team.map TeamMember.volunteerUserId).Nodup := by
  have hserves : ∀ k ∈ ks, Serves w e k := fun k hk => (ht.serves k).mp hk
  have hnodup := ht.nodup
  have hl := ht.listed
  clear ht
  induction hl with
  | nil => exact List.nodup_nil
  | @cons k x ks' team' hx hrest ih =>
      rw [List.nodup_cons] at hnodup
      rw [List.map_cons, List.nodup_cons]
      refine ⟨fun hmem => ?_, ih (fun j hj => hserves j (List.mem_cons_of_mem _ hj)) hnodup.2⟩
      obtain ⟨y, hy, hyx⟩ := List.mem_map.mp hmem
      obtain ⟨j, hj, hjy⟩ : ∃ j ∈ ks', Listed w j y := by
        clear ih hserves hnodup hmem
        induction hrest with
        | nil => cases hy
        | cons hx' _ ih =>
            rcases List.mem_cons.mp hy with rfl | hy
            · exact ⟨_, List.mem_cons_self .., hx'⟩
            · obtain ⟨j, hj, hjy⟩ := ih hy
              exact ⟨j, List.mem_cons_of_mem _ hj, hjy⟩
      obtain ⟨m, v, -, hm, hv, -, hmu, -⟩ := hx
      obtain ⟨n, u, -, hn, hun, -, hnu, -⟩ := hjy
      have hvol : m.volunteerId = n.volunteerId :=
        hu _ _ v u hv hun (by rw [← hmu, ← hnu, hyx])
      obtain ⟨m', hm', hme, -⟩ := hserves k (List.mem_cons_self ..)
      obtain ⟨n', hn', hne, -⟩ := hserves j (List.mem_cons_of_mem _ hj)
      rw [hm] at hm'
      rw [hn] at hn'
      cases hm'
      cases hn'
      have hkj := hw.once j n k m hn hm (by rw [hme, hne]) hvol
      rw [hkj] at hnodup
      exact hnodup.1 hj

/-- Counting by fibres. -/
theorem sum_countP_fibres {α : Type} (key : α → Nat) (p : α → Bool) (L : List α) (K : List Nat)
    (hK : K.Nodup) :
    (K.map fun r => L.countP fun x => key x == r && p x).sum =
      L.countP fun x => K.contains (key x) && p x := by
  induction K with
  | nil => simp
  | cons r rest ih =>
      obtain ⟨hr, hrest⟩ := List.nodup_cons.mp hK
      rw [List.map_cons, List.sum_cons, ih hrest]
      clear ih hK
      induction L with
      | nil => rfl
      | cons x L ih =>
          rw [List.countP_cons, List.countP_cons, List.countP_cons, ← ih]
          by_cases hx : key x = r
          · subst hx
            have hout : rest.contains (key x) = false := by simpa using hr
            simp only [BEq.rfl, Bool.true_and, hout, Bool.false_and, List.contains_cons,
              Bool.true_or, Bool.false_eq_true, if_false]
            omega
          · have hne : (key x == r) = false := by simpa using hx
            simp only [hne, Bool.false_and, List.contains_cons, Bool.false_or,
              Bool.false_eq_true, if_false]
            omega

theorem Balanced.placesTaken {s : Db} (hb : s.Bounded) {r : Uuid} {q : EventRequirement}
    (h : Balanced s.rows r q) : q.filledCount = s.placesTaken r := by
  obtain ⟨n, hn, hcard⟩ := h.count
  rw [encard_holders hb] at hcard
  have hcount : s.placesTaken r = n := by exact_mod_cast hcard
  rw [hn, hcount]

/-- When all buckets of the event are full, the places taken are the places
there are. -/
theorem length_counted {s : Db} (hi : s.Bounded ∧ WellFormed s.rows) {e : Uuid}
    (hall : AllFulfilled s.rows e) : ((s.counted e).length : Int) = s.requiredTotal e := by
  have hbuckets : ∀ x ∈ s.requirements.rows.filter (fun q => q.2.eventId == e),
      x.2.requiredCount = s.placesTaken x.1 := by
    intro x hx
    have hq := (mem_rows hi.1.requirements).mp (List.mem_of_mem_filter hx)
    have hxe : x.2.eventId = e := by simpa using List.of_mem_filter hx
    have hbal := hi.2.ledger x.1 x.2 hq
    rw [← hbal.full.mp (hall x.1 x.2 hq hxe)]
    exact hbal.placesTaken hi.1
  have hcounted : (s.counted e).length = s.mappings.rows.countP fun m =>
      ((s.requirements.rows.filter fun q => q.2.eventId == e).map Prod.fst).contains
        m.2.requirementId && m.2.status.counted := by
    rw [Db.counted, ← List.countP_eq_length_filter]
    refine List.countP_congr fun m hm => ?_
    obtain ⟨q, hq, hqe⟩ := hi.2.linked.bucket m.1 m.2 ((mem_rows hi.1.mappings).mp hm)
    have hcontains : ((s.requirements.rows.filter fun q => q.2.eventId == e).map
        Prod.fst).contains m.2.requirementId = (m.2.eventId == e) := by
      rw [Bool.eq_iff_iff, List.contains_iff_mem, beq_iff_eq, List.mem_map]
      constructor
      · intro hex
        obtain ⟨x, hx, hxr⟩ := hex
        have hq' := (mem_rows hi.1.requirements).mp (List.mem_of_mem_filter hx)
        rw [hxr] at hq'
        have hq₂ : s.requirements.committed m.2.requirementId = some q := hq
        rw [hq₂] at hq'
        have hxe : x.2.eventId = e := by simpa using List.of_mem_filter hx
        rw [← hqe, Option.some.inj hq', hxe]
      · intro hme
        refine ⟨(m.2.requirementId, q), ?_, rfl⟩
        rw [List.mem_filter]
        exact ⟨(mem_rows hi.1.requirements).mpr hq, by simp [hqe, hme]⟩
    rw [hcontains]
  have hnodup : ((s.requirements.rows.filter fun q => q.2.eventId == e).map Prod.fst).Nodup :=
    (keys_nodup s.requirements.committed s.requirements.next).sublist
      (List.filter_sublist.map Prod.fst)
  rw [hcounted, ← sum_countP_fibres (fun m => m.2.requirementId) (fun m => m.2.status.counted)
    s.mappings.rows _ hnodup, Db.requiredTotal, List.map_congr_left hbuckets, List.map_map]
  generalize s.requirements.rows.filter (fun q => q.2.eventId == e) = l
  induction l with
  | nil => rfl
  | cons x rest ih =>
      simp only [List.map_cons, List.sum_cons, Function.comp, Nat.cast_add]
      rw [← ih]
      rfl

theorem FullTeam.announces {s : Db} (hi : s.Bounded ∧ WellFormed s.rows) (hu : UserIdsUnique s.rows)
    {e : Uuid} {ks : List Nat} {team : List TeamMember} (ht : FullTeam s.rows e ks team)
    (hall : AllFulfilled s.rows e) : AnnouncesTeam s e team where
  counted := ht.counted hi.1
  once := ht.once hi.2.linked hu
  length := by
    rw [← length_counted hi hall, ← ht.listed.length_eq, (ht.perm hi.1).length_eq,
      List.length_map]

/-! ## Runs -/

/-- The steps of a run that let a volunteer set out (EN_ROUTE or COMPLETED) find
all buckets of the event FULFILLED. -/
def SetOutAfterForming (_ : Call) (_ s s' : Db) : Prop :=
  SetsOutLate s.rows s'.rows

theorem announced_team_complete {profiles : List VolunteerProfile}
    (hu : (profiles.map VolunteerProfile.userId).Nodup) {c : Cluster}
    (h : RunWith Call.body SetOutAfterForming (Config.start (Db.initial profiles)) c)
    {o : Uuid} {row : Outbox Message} {e : Uuid} {title source : String}
    {team : List TeamMember} (ho : (o, row) ∈ c.store.outbox.rows)
    (hrow : row.payload.data = .teamFormed e title source team) :
    AnnouncesTeam c.store e team := by
  have hi := Db.sound (RunWith.sound (verified _) (start_sound _ profiles) h).inv
  have hkept : Unmoved c.store.rows ∧ Complete c.store.rows ∧ UserIdsUnique c.store.rows := by
    refine RunWith.rows_keep (J := fun w => Unmoved w ∧ Complete w ∧ UserIdsUnique w)
      (verified _) ?_ (start_sound _ profiles) h ?_
    · intro a s₀ s s' W hw _ hc heq hlate hs
      obtain ⟨hun, hcomplete, hunique⟩ := hs
      have hrows : s'.rows = W.overlay s.rows := heq
      have hlate' : SetsOutLate s.rows (W.overlay s.rows) := hrows ▸ hlate
      have hprofiles : (schema.overlay W (schema.rows s)).profiles = (schema.rows s).profiles :=
        hc.evolves.profiles
      refine ⟨hc.unmoved hw hlate' hun, hc.complete hw hun hcomplete, ?_⟩
      unfold UserIdsUnique
      rw [hprofiles]
      exact hunique
    · refine ⟨fun k m hm => ?_, fun o row e title source team ho => ?_, userIdsUnique_ofList hu⟩
      · cases hm
      · cases ho
  obtain ⟨-, hcomplete, hunique⟩ := hkept
  have ho' : c.store.rows.outbox o = some row := (mem_rows hi.1.outbox).mp ho
  obtain ⟨ks, hteam⟩ := hcomplete o row e title source team ho' hrow
  have hformed : row.payload.data.formedEvent = some e := by rw [hrow]; rfl
  exact hteam.announces hi hunique (hi.2.allFulfilled_of_formed ho' hformed).1

def Call.setsOut : Call → Bool
  | .transitionAssignment _ _ new _ => new.movedOn
  | _ => false

/-- Only a transition lets a volunteer set out. -/
theorem Commit.setsOutLate {a : Call} {w W : Rows} (h : Commit a w W)
    (ha : a.setsOut = false) : SetsOutLate w (W.overlay w) := by
  intro k m m' hm hm' hstay hmoved
  exfalso
  rcases over_cases hm' with hnew | ⟨-, hold⟩
  · cases h with
    | declared | closed => cases hnew
    | matched _ _ hM =>
        rw [(hM.row k m' hnew).2.2] at hmoved
        cases hmoved
    | rejected | accepted | fulfilled =>
        obtain ⟨-, rfl⟩ := single_eq_some.mp hnew
        cases hmoved
    | formed =>
        obtain ⟨-, rfl⟩ := single_eq_some.mp hnew
        cases hmoved
    | moved =>
        obtain ⟨-, rfl⟩ := single_eq_some.mp hnew
        exact Bool.noConfusion (hmoved.symm.trans ha)
  · rw [hm] at hold
    cases hold
    rw [hstay] at hmoved
    cases hmoved

theorem SetsOutLate.refl (w : Rows) : SetsOutLate w w := by
  intro k m m' hm hm' hstay hmoved
  rw [hm] at hm'
  cases hm'
  rw [hstay] at hmoved
  cases hmoved

/-- A run without such a transition. -/
theorem runWith_setOutAfterForming {profiles : List VolunteerProfile} {c : Cluster}
    (h : RunWith Call.body (fun a _ _ _ => a.setsOut = false)
      (Config.start (Db.initial profiles)) c) :
    RunWith Call.body SetOutAfterForming (Config.start (Db.initial profiles)) c := by
  refine RunWith.imp (verified _) ?_ (start_sound _ _) h
  intro a t s₀ s s' hi hg ha
  show SetsOutLate (schema.rows s) (schema.rows s')
  rcases hg.2 with heq | ⟨hcommit, heq⟩
  · rw [heq]
    exact .refl _
  · rw [heq]
    exact hcommit.setsOutLate ha

theorem announced_team_complete_flood : ∃ c : Cluster,
    RunWith Call.body SetOutAfterForming
      (Config.start (Db.initial [boatDriver 7, boatDriver 8])) c ∧
      ∃ o row team, (o, row) ∈ c.store.outbox.rows ∧
        row.payload.data = .teamFormed 0 "Flood" "Colombo" team ∧ team.length = 2 ∧
        AnnouncesTeam c.store 0 team := by
  have hplay : ((Config.start (Db.initial [boatDriver 7, boatDriver 8])).playWith Call.body
      (fun a _ _ _ => a.setsOut = false) floodSchedule).map (fun c => c.store.outbox.committed 4) =
      some (some (outboxRow "volunteer.team.formed" (some 1) (.teamFormed 0 "Flood" "Colombo"
        [⟨7, "Nimal", none, "boat_driver", some "Colombo"⟩,
          ⟨8, "Nimal", none, "boat_driver", some "Colombo"⟩]) 4)) := by
    decide +kernel
  obtain ⟨c, hc, hrow⟩ := Option.map_eq_some_iff.mp hplay
  have hrun := runWith_setOutAfterForming (Config.playWith_run hc)
  have hbound := (Db.sound (RunWith.sound (verified _) (start_sound _ _) hrun).inv).1.outbox
  have hmem := (mem_rows hbound).mpr hrow
  exact ⟨c, hrun, 4, _, _, hmem, rfl, rfl, announced_team_complete (by decide) hrun hmem rfl⟩

/-- The first of two volunteers sets out before the second accepts. -/
def earlyCalls : List Call :=
  floodCalls ++ [.transitionAssignment 0 7 .enRoute 101, .acceptAssignment 1 8 102]

theorem announced_team_misses_early_volunteer :
    ¬ ∀ (profiles : List VolunteerProfile) (c : Cluster) (o : Uuid) (row : Outbox Message)
      (e : Uuid) (title source : String) (team : List TeamMember),
      (profiles.map VolunteerProfile.userId).Nodup →
      Run Call.body (Config.start (Db.initial profiles)) c →
      (o, row) ∈ c.store.outbox.rows → row.payload.data = .teamFormed e title source team →
      AnnouncesTeam c.store e team := by
  intro hclaim
  have hcalls : (calls Call.body earlyCalls 0 (Db.initial [boatDriver 7, boatDriver 8])).map
      (fun s => (s.outbox.rows.getLast?, s.requiredTotal 0)) =
      some (some (5, outboxRow "volunteer.team.formed" (some 1) (.teamFormed 0 "Flood" "Colombo"
        [⟨8, "Nimal", none, "boat_driver", some "Colombo"⟩]) 5), 2) := by
    decide +kernel
  obtain ⟨s, hs, hrows⟩ := Option.map_eq_some_iff.mp hcalls
  obtain ⟨hlast, htotal⟩ := Prod.mk.inj hrows
  obtain ⟨c, hrun, rfl⟩ := Run.calls (c := Config.start _) (fun _ => rfl) hs
  have hteam := hclaim _ c _ _ 0 _ _ _ (by decide) hrun (List.mem_of_getLast? hlast) rfl
  have hlength := hteam.length
  rw [htotal] at hlength
  simp at hlength

end Volunteer
end Rcp
