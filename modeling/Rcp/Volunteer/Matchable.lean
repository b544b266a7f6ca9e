/-
What holds of every committed profile.

The consumer and the endpoints write the same rows, each transaction the columns that it has
changed.  A row may have moved since it was loaded.  But no transaction takes a district away,
so a row that had one when it was loaded has one when it is written, and this is all that the
cross-field condition needs.
-/
import Rcp.Sql.Growth
import Rcp.Sql.Identity
import Rcp.Sql.Schedule
import Rcp.Volunteer.Skills

namespace Rcp
namespace Volunteer

open Sql Table

section Matchable

variable (finalSigma : List Char → List Char → Bool)

/-- What the matching engine may rely on. -/
structure Matchable (v : VolunteerProfile) : Prop where
  district : ∀ d, v.baseDistrict = some d → isValidDistrict d = true
  available : v.availableStatus = true → v.baseDistrict ≠ none
  skills : Slugs finalSigma v.skills

/-- An event of the consumer other than a deactivation. -/
def ProfileCall.Replicates : ProfileCall → Prop
  | .iam event _ => event.eventType ≠ "iam.user.deactivated"
  | .update .. | .availability .. => False

/-- The columns that the service owns are the same. -/
structure SameOperational (v v' : VolunteerProfile) : Prop where
  district : v'.baseDistrict = v.baseDistrict
  city : v'.city = v.city
  skills : v'.skills = v.skills
  available : v'.availableStatus = v.availableStatus

/-- What a transaction of the call may make of a committed row. -/
structure Allowed (a : ProfileCall) (v v' : VolunteerProfile) : Prop where
  user : v'.userId = v.userId
  placed : v.baseDistrict ≠ none → v'.baseDistrict ≠ none
  same : a.Replicates → SameOperational v v'

/-- What the assignments of the call make of a loaded row. -/
structure Edit (a : ProfileCall) (loaded new : VolunteerProfile) : Prop where
  district : new.baseDistrict = loaded.baseDistrict ∨
    ∃ d, new.baseDistrict = some d ∧ isValidDistrict d = true
  available : new.availableStatus = true →
    loaded.availableStatus = true ∨ new.baseDistrict ≠ none
  skills : new.skills = loaded.skills ∨ Slugs finalSigma new.skills
  same : a.Replicates → SameOperational loaded new

/-! ## Assignments -/

variable {finalSigma} {a : ProfileCall} {loaded new current : VolunteerProfile}

theorem column_cases {α : Type} [DecidableEq α] (loaded new current : α) :
    (new = loaded ∧ column loaded new current = current) ∨
      column loaded new current = new := by
  unfold column
  split
  · rename_i h
    exact .inl ⟨h, rfl⟩
  · exact .inr rfl

theorem column_same {α : Type} [DecidableEq α] {loaded new current : α} (h : new = loaded) :
    column loaded new current = current := if_pos h

/-- The district of the written row. -/
theorem Edit.placed (h : Edit finalSigma a loaded new)
    (hplaced : loaded.baseDistrict ≠ none → current.baseDistrict ≠ none)
    (hsome : new.baseDistrict ≠ none ∨ current.baseDistrict ≠ none) :
    (Profile.mergeColumns loaded new current).baseDistrict ≠ none := by
  show column loaded.baseDistrict new.baseDistrict current.baseDistrict ≠ none
  rcases column_cases loaded.baseDistrict new.baseDistrict current.baseDistrict with
    ⟨hsame, hcolumn⟩ | hcolumn
  · rw [hcolumn]
    rcases hsome with hnew | hcurrent
    · exact hplaced (hsame ▸ hnew)
    · exact hcurrent
  · rw [hcolumn]
    rcases h.district with hsame | ⟨d, hd, -⟩
    · rw [column_same hsame] at hcolumn
      rcases hsome with hnew | hcurrent
      · exact hnew
      · exact hcolumn ▸ hcurrent
    · rw [hd]
      exact Option.some_ne_none d

theorem Edit.matchable (h : Edit finalSigma a loaded new)
    (hplaced : loaded.baseDistrict ≠ none → current.baseDistrict ≠ none)
    (hcurrent : Matchable finalSigma current) :
    Matchable finalSigma (Profile.mergeColumns loaded new current) where
  district := by
    intro d hd
    have hmerged : column loaded.baseDistrict new.baseDistrict current.baseDistrict =
        some d := hd
    rcases h.district with hsame | ⟨d', hd', hvalid⟩
    · rw [column_same hsame] at hmerged
      exact hcurrent.district d hmerged
    · rcases column_cases loaded.baseDistrict new.baseDistrict current.baseDistrict with
        ⟨-, hcolumn⟩ | hcolumn
      · rw [hcolumn] at hmerged
        exact hcurrent.district d hmerged
      · rw [hcolumn, hd'] at hmerged
        cases hmerged
        exact hvalid
  available := by
    intro havailable
    have hmerged : column loaded.availableStatus new.availableStatus
        current.availableStatus = true := havailable
    apply h.placed hplaced
    rcases column_cases loaded.availableStatus new.availableStatus current.availableStatus with
      ⟨-, hcolumn⟩ | hcolumn
    · rw [hcolumn] at hmerged
      exact .inr (hcurrent.available hmerged)
    · rw [hcolumn] at hmerged
      rcases h.available hmerged with hloaded | hnew
      · rw [column_same (hmerged.trans hloaded.symm), hmerged] at hcolumn
        exact .inr (hcurrent.available hcolumn)
      · exact .inl hnew
  skills := by
    show Slugs finalSigma (column loaded.skills new.skills current.skills)
    rcases h.skills with hsame | hslugs
    · rw [column_same hsame]
      exact hcurrent.skills
    · rcases column_cases loaded.skills new.skills current.skills with
        ⟨-, hcolumn⟩ | hcolumn
      · rw [hcolumn]
        exact hcurrent.skills
      · rw [hcolumn]
        exact hslugs

theorem Edit.allowed (h : Edit finalSigma a loaded new)
    (hplaced : loaded.baseDistrict ≠ none → current.baseDistrict ≠ none) :
    Allowed a current (Profile.mergeColumns loaded new current) where
  user := rfl
  placed hcurrent := h.placed hplaced (.inr hcurrent)
  same hreplicates :=
    { district := column_same (h.same hreplicates).district
      city := column_same (h.same hreplicates).city
      skills := column_same (h.same hreplicates).skills
      available := column_same (h.same hreplicates).available }

theorem edit_assign (userId : Uuid) (input : ProfileInput)
    (data : VolunteerProfileUpdate finalSigma) (loaded : VolunteerProfile) :
    Edit finalSigma (.update userId input) loaded (Profile.assign data loaded) where
  district := .inr ⟨data.baseDistrict, rfl, data.district_valid⟩
  available _ := .inr (Option.some_ne_none _)
  skills := by
    obtain ⟨texts, -, htexts⟩ := data.skills_normal
    have hskills : (Profile.assign data loaded).skills = normaliseSkills finalSigma texts := htexts
    rw [hskills]
    exact .inr (normaliseSkills_slugs finalSigma texts)
  same h := h.elim

theorem edit_availability (userId : Uuid) {availableStatus : Bool} {loaded : VolunteerProfile}
    (h : availableStatus = true → loaded.baseDistrict ≠ none) :
    Edit finalSigma (.availability userId availableStatus) loaded
      { loaded with availableStatus := availableStatus } where
  district := .inl rfl
  available havailable := .inr (h havailable)
  skills := .inl rfl
  same h := h.elim

theorem edit_identity (a : ProfileCall) (data : Iam.UserData) (loaded : VolunteerProfile) :
    Edit finalSigma a loaded (identityFields data loaded) where
  district := .inl rfl
  available := .inl
  skills := .inl rfl
  same _ := ⟨rfl, rfl, rfl, rfl⟩

theorem edit_deactivate (ha : ¬ a.Replicates) (loaded : VolunteerProfile) :
    Edit finalSigma a loaded { loaded with isActive := false, availableStatus := false } where
  district := .inl rfl
  available h := by cases h
  skills := .inl rfl
  same h := absurd h ha

theorem newProfile_matchable (data : Iam.UserData) (now : Time) :
    Matchable finalSigma (newProfile data now) where
  district := by
    intro d hd
    cases hd
  available := by
    intro h
    cases h
  skills := .nil finalSigma

end Matchable

/-! ## What a session has written -/

/-- A version that a session has written over a committed row. -/
def WroteAllowed (a : ProfileCall) (t : Sid) (T : Table VolunteerProfile) : Prop :=
  ∀ k v', T.writes t k = some v' → ∀ v, T.committed k = some v → Allowed a v v'

/-- The committed rows stay, with what a transaction of the call may make of them. -/
def KeepsAllowed (a : ProfileCall) (T T' : Table VolunteerProfile) : Prop :=
  ∀ k v, T.committed k = some v → ∃ v', T'.committed k = some v' ∧ Allowed a v v'

/-- The row has been committed, and has a district if the loaded version has one. -/
def LoadedRow (k : Nat) (loaded : VolunteerProfile) (T : Table VolunteerProfile) : Prop :=
  ∃ v, T.committed k = some v ∧ (loaded.baseDistrict ≠ none → v.baseDistrict ≠ none)

section Rows

variable {a : ProfileCall} {t : Sid} {T T' : Table VolunteerProfile}

theorem Allowed.refl (a : ProfileCall) (v : VolunteerProfile) : Allowed a v v where
  user := rfl
  placed := id
  same _ := ⟨rfl, rfl, rfl, rfl⟩

theorem keepsAllowed_of_eq (h : T'.committed = T.committed) : KeepsAllowed a T T' := by
  intro k v hk
  exact ⟨v, by rw [h, hk], .refl a v⟩

theorem wroteAllowed_of_idle (h : T.writes t = noRows) : WroteAllowed a t T := by
  intro k v' hk
  rw [h] at hk
  cases hk

theorem WroteAllowed.commit (h : WroteAllowed a t T) : KeepsAllowed a T (T.commit t) := by
  intro k v hk
  rw [commit_committed]
  cases hw : T.writes t k with
  | none => exact ⟨v, by rw [read_of_not_written hw, hk], .refl a v⟩
  | some v' => exact ⟨v', read_of_writes hw, h k v' hw v hk⟩

theorem WroteAllowed.insert (h : WroteAllowed a t T) (hb : T.Bounded) (row : VolunteerProfile) :
    WroteAllowed a t (T.insert t row) := by
  intro j v' hj v hv
  rw [insert_writes] at hj
  by_cases hjn : j = T.next
  · subst hjn
    rw [insert_committed, (hb _ (Nat.le_refl _)).1] at hv
    cases hv
  · rw [Function.update_of_ne hjn] at hj
    exact h j v' hj v hv

/-- The first write of a session. -/
theorem wroteAllowed_write (hidle : T.writes t = noRows) {k : Nat} {v' : VolunteerProfile}
    (h : ∀ v, T.committed k = some v → Allowed a v v') : WroteAllowed a t (T.write t k v') := by
  intro j u hj v hv
  rw [write_writes, hidle] at hj
  by_cases hjk : j = k
  · subst hjk
    rw [Function.update_self] at hj
    cases hj
    exact h v hv
  · rw [Function.update_of_ne hjk] at hj
    cases hj

theorem LoadedRow.keeps {k : Nat} {loaded : VolunteerProfile} (h : LoadedRow k loaded T)
    (hkeeps : KeepsAllowed a T T') : LoadedRow k loaded T' := by
  obtain ⟨v, hv, hplaced⟩ := h
  obtain ⟨v', hv', hallowed⟩ := hkeeps k v hv
  exact ⟨v', hv', fun hloaded => hallowed.placed (hplaced hloaded)⟩

end Rows

/-! ## Discipline -/

section Discipline

variable (finalSigma : List Char → List Char → Bool)

/-- The table of the profiles. -/
structure ProfilesKept (T : Table VolunteerProfile) : Prop where
  bounded : T.Bounded
  keyed : T.Keyed VolunteerProfile.userId
  rows : ∀ k v, T.Has k v → Matchable finalSigma v

def upkeep : Discipline Db ProfileError (Option VolunteerProfile) ProfileCall where
  Inv s := ProfilesKept finalSigma s.profiles
  Guar a t s s' := Table.Frame t s.profiles s'.profiles ∧ KeepsAllowed a s.profiles s'.profiles
  Idle t s := s.profiles.writes t = noRows
  Done _ _ _ _ := True
  guar_refl _ t s _ := ⟨.refl t _, keepsAllowed_of_eq rfl⟩
  idle_keep _ t o s s' ho _ hg hidle := (hg.1.writes_eq ho).trans hidle
  done_keep _ _ _ _ _ _ _ _ _ _ _ := trivial
  rollback_inv t s h :=
    ⟨h.bounded.rollback t, h.keyed.rollback t, fun k v hv => h.rows k v (.of_rollback hv)⟩
  rollback_guar _ t s _ := ⟨rollback_frame t _, keepsAllowed_of_eq rfl⟩
  rollback_idle t s := rollback_writes _ t

variable {finalSigma} {t : Sid}

theorem wroteAllowed_stable (a : ProfileCall) (t : Sid) :
    (upkeep finalSigma).Stable t fun s => WroteAllowed a t s.profiles := by
  intro b o s s' ho _ hg _ h k v' hk v hv
  rw [hg.1.writes_eq ho.symm] at hk
  rw [hg.1.committed_eq ho.symm hk] at hv
  exact h k v' hk v hv

theorem loadedRow_stable (k : Nat) (loaded : VolunteerProfile) (t : Sid) :
    (upkeep finalSigma).Stable t fun s => LoadedRow k loaded s.profiles :=
  fun _ _ _ _ _ _ hg _ h => h.keeps hg.2

/-! ## Statements -/

variable (finalSigma) in
/-- The session has no open writes. -/
def Resting (t : Sid) (s : Db) : Prop :=
  ProfilesKept finalSigma s.profiles ∧ s.profiles.writes t = noRows

variable (finalSigma) in
/-- What the session has written may be committed. -/
def Ready (a : ProfileCall) (t : Sid) (s : Db) : Prop :=
  ProfilesKept finalSigma s.profiles ∧ WroteAllowed a t s.profiles

variable {a : ProfileCall} {s : Db}

theorem Resting.ready (h : Resting finalSigma t s) (a : ProfileCall) :
    Ready finalSigma a t s := ⟨h.1, wroteAllowed_of_idle h.2⟩

theorem Resting.rely {s' : Db} (h : Resting finalSigma t s)
    (hrely : (upkeep finalSigma).Rely t s s') : Resting finalSigma t s' :=
  ⟨hrely.inv h.1, ((upkeep finalSigma).idle_stable t).rely hrely h.2⟩

theorem Ready.rely {s' : Db} (h : Ready finalSigma a t s)
    (hrely : (upkeep finalSigma).Rely t s s') : Ready finalSigma a t s' :=
  ⟨hrely.inv h.1, (wroteAllowed_stable a t).rely hrely h.2⟩

theorem Resting.loaded (h : Resting finalSigma t s) {row : Nat × VolunteerProfile}
    (hrow : row ∈ s.profiles.scan t) : LoadedRow row.1 row.2 s.profiles := by
  have hread := (mem_scan h.1.bounded).mp hrow
  have hnone : s.profiles.writes t row.1 = none := by
    rw [h.2]
    rfl
  rw [read_of_not_written hnone] at hread
  exact ⟨row.2, hread, id⟩

theorem safe_resting_query {β : Type} (f : Sid → Db → β) (h : Resting finalSigma t s) :
    Safe (upkeep finalSigma) (fun _ _ => True) a t (Returns fun _ s => Resting finalSigma t s)
      (query f : Prog Db ProfileError β) s := by
  intro b s' hrun _
  cases hrun
  exact ⟨h.1, (upkeep finalSigma).guar_refl a t s h.1, fun _ hrely => h.rely hrely⟩

theorem safe_find (userId : Uuid) (h : Resting finalSigma t s) :
    Safe (upkeep finalSigma) (fun _ _ => True) a t
      (Returns fun r s => Resting finalSigma t s ∧ ∀ row, r = some row →
        LoadedRow row.1 row.2 s.profiles) (Profile.find userId) s := by
  intro found s' hrun _
  cases hrun
  refine ⟨h.1, (upkeep finalSigma).guar_refl a t s h.1, fun s'' hrely => ?_⟩
  refine ⟨h.rely hrely, fun row hrow => ?_⟩
  have hmem := List.mem_filter.mp (List.mem_of_head? hrow)
  exact (loadedRow_stable _ _ t).rely hrely (h.loaded hmem.1)

theorem safe_flush {k : Nat} {loaded new : VolunteerProfile} (h : Resting finalSigma t s)
    (hloaded : LoadedRow k loaded s.profiles) (hedit : Edit finalSigma a loaded new) :
    Safe (upkeep finalSigma) (fun _ _ => True) a t
      (Returns fun _ s => Ready finalSigma a t s) (Profile.flush k loaded new) s := by
  unfold Profile.flush
  split
  · exact h.ready a
  · intro b s' hrun _
    cases b with
    | none =>
        obtain ⟨rfl, -⟩ := runUpdate_none hrun
        exact ⟨h.1, (upkeep finalSigma).guar_refl a t _ h.1, fun _ hrely => (h.ready a).rely hrely⟩
    | some v' =>
        obtain ⟨v, hread, -, hlock, -, rfl⟩ := runUpdate_some hrun
        have hread : s.profiles.read t k = some v := hread
        have hcommitted : s.profiles.committed k = some v := by
          rw [← hread, read_of_not_written]
          rw [h.2]
          rfl
        -- The row is the committed one, and it still has a district if the loaded one had.
        have hplaced : loaded.baseDistrict ≠ none → v.baseDistrict ≠ none := by
          obtain ⟨u, hu, hplaced⟩ := hloaded
          rw [hcommitted] at hu
          cases hu
          exact hplaced
        have hmatchable := hedit.matchable hplaced (h.1.rows k v (.inl hcommitted))
        have hkept : ProfilesKept finalSigma
            (s.profiles.write t k (Profile.mergeColumns loaded new v)) := by
          refine ⟨h.1.bounded.write _ (h.1.bounded.lt_of_read hread),
            h.1.keyed.write (.inl hcommitted) rfl, fun j w hw => ?_⟩
          rcases Has.of_write hw with hw | ⟨-, rfl⟩
          · exact h.1.rows j w hw
          · exact hmatchable
        have hwrote : WroteAllowed a t
            (s.profiles.write t k (Profile.mergeColumns loaded new v)) := by
          refine wroteAllowed_write h.2 fun u hu => ?_
          rw [hcommitted] at hu
          cases hu
          exact hedit.allowed hplaced
        have hready : Ready finalSigma a t { s with
            profiles := s.profiles.write t k (Profile.mergeColumns loaded new v) } :=
          ⟨hkept, hwrote⟩
        exact ⟨hkept, ⟨write_frame _ hlock, keepsAllowed_of_eq rfl⟩,
          fun _ hrely => hready.rely hrely⟩

theorem safe_upkeep_commit (h : Ready finalSigma a t s) :
    Safe (upkeep finalSigma) (fun _ _ => True) a t
      (Returns fun _ s => Resting finalSigma t s) (commit : Prog Db ProfileError Unit) s := by
  intro b s' hrun _
  cases hrun
  have hkept : ProfilesKept finalSigma (s.profiles.commit t) :=
    ⟨h.1.bounded.commit t, h.1.keyed.commit t, fun k v hv => h.1.rows k v (.of_commit hv)⟩
  have hresting : Resting finalSigma t (Transactional.commit t s) :=
    ⟨hkept, commit_writes _ t⟩
  exact ⟨hkept, ⟨commit_frame t _, h.2.commit⟩, fun _ hrely => hresting.rely hrely⟩

theorem safe_insertProfile {data : Iam.UserData} {now : Time} (h : Ready finalSigma a t s) :
    Safe (upkeep finalSigma) (fun _ _ => True) a t
      (Returns fun _ s => Ready finalSigma a t s)
      (insertUnique Db.profilesT (fun v => v.userId == data.userId)
        (fun _ => newProfile data now) : Prog Db ProfileError (Option Nat)) s := by
  intro b s' hrun _
  cases b with
  | none =>
      rw [runInsertUnique_none hrun]
      exact ⟨h.1, (upkeep finalSigma).guar_refl a t s h.1, fun _ hrely => h.rely hrely⟩
  | some n =>
      obtain ⟨hscan, hforeign, -, rfl⟩ := runInsertUnique_some hrun
      have hkept : ProfilesKept finalSigma (s.profiles.insert t (newProfile data now)) := by
        refine ⟨h.1.bounded.insert t _, ?_, fun j w hw => ?_⟩
        · have hnew : ∀ x : VolunteerProfile, (x.userId == data.userId) = false →
              x.userId ≠ (newProfile data now).userId := by
            intro x hx
            exact ne_of_beq_false hx
          exact h.1.keyed.insert_unique h.1.bounded hnew hscan hforeign
        · rcases Has.of_insert hw with hw | ⟨-, rfl⟩
          · exact h.1.rows j w hw
          · exact newProfile_matchable data now
      have hready : Ready finalSigma a t { s with
          profiles := s.profiles.insert t (newProfile data now) } :=
        ⟨hkept, h.2.insert h.1.bounded _⟩
      exact ⟨hkept, ⟨insert_frame h.1.bounded _, keepsAllowed_of_eq rfl⟩,
        fun _ hrely => hready.rely hrely⟩

/-! ## Calls -/

theorem safe_upsertProfile (data : Iam.UserData) (now : Time) (h : Resting finalSigma t s) :
    Safe (upkeep finalSigma) (fun _ _ => True) a t
      (Returns fun _ s => Ready finalSigma a t s) (Profile.upsertProfile data now) s := by
  unfold Profile.upsertProfile
  split
  · exact h.ready a
  · refine safe_returns_bind (safe_find data.userId h) fun found u hfound => ?_
    obtain ⟨hresting, hloaded⟩ := hfound
    cases found with
    | none =>
        refine safe_returns_bind (safe_insertProfile (hresting.ready a)) fun inserted u hready => ?_
        cases inserted with
        | none => exact trivial
        | some n => exact hready
    | some row =>
        show Safe _ _ _ _ _ (if row.2.accepts data.updatedAt then _ else _) u
        split
        · exact safe_flush hresting (hloaded row rfl) (edit_identity a data row.2)
        · exact hresting.ready a

theorem safe_deactivateProfile (userId : Uuid) (ha : ¬ a.Replicates)
    (h : Resting finalSigma t s) :
    Safe (upkeep finalSigma) (fun _ _ => True) a t
      (Returns fun _ s => Ready finalSigma a t s) (Profile.deactivateProfile userId) s := by
  refine safe_returns_bind (safe_find userId h) fun found u hfound => ?_
  obtain ⟨hresting, hloaded⟩ := hfound
  cases found with
  | none => exact hresting.ready a
  | some row => exact safe_flush hresting (hloaded row rfl) (edit_deactivate ha row.2)

theorem safe_dispatch (event : Envelope Iam.Message) (now : Time) (h : Resting finalSigma t s) :
    Safe (upkeep finalSigma) (fun _ _ => True) (.iam event now) t
      (Returns fun _ s => Ready finalSigma (.iam event now) t s)
      (Profile.dispatch event now) s := by
  unfold Profile.dispatch
  split
  · split
    · exact safe_upsertProfile _ now h
    · exact trivial
  · split
    · rename_i htype
      split
      · exact safe_deactivateProfile _ (fun hreplicates => hreplicates htype) h
      · exact trivial
    · exact h.ready _

theorem safe_handle (event : Envelope Iam.Message) (now : Time) (h : Resting finalSigma t s) :
    Safe (upkeep finalSigma) (fun _ _ => True) (.iam event now) t Ends
      (Profile.handle event now) s := by
  refine safe_bind (safe_resting_query _ h) fun processed u hresting => ?_
  cases processed with
  | some _ => exact trivial
  | none =>
      refine safe_bind (safe_dispatch event now hresting) fun _ u hready => ?_
      have hinsert : Safe (upkeep finalSigma) (fun _ _ => True) (.iam event now) t
          (Returns fun _ s => Ready finalSigma (.iam event now) t s)
          (insertKey Db.processedT event.eventId () : Prog Db ProfileError Bool) u := by
        intro b s' hrun _
        have hsame : s'.profiles = u.profiles := by
          simp only [runInsertKey] at hrun
          split at hrun
          · cases hrun
            rfl
          · split at hrun
            · cases hrun
            · cases hrun
              rfl
        have hready' : Ready finalSigma (.iam event now) t s' := by
          unfold Ready
          rw [hsame]
          exact hready
        refine ⟨hready'.1, ?_, fun _ hrely => hready'.rely hrely⟩
        show Table.Frame t u.profiles s'.profiles ∧ _
        rw [hsame]
        exact ⟨.refl t _, keepsAllowed_of_eq rfl⟩
      refine safe_bind hinsert fun inserted u hready => ?_
      cases inserted with
      | false => exact trivial
      | true => exact safe_bind (safe_upkeep_commit hready) fun _ _ _ => trivial

theorem safe_profile_refresh (k : Uuid) (h : Resting finalSigma t s) :
    Safe (upkeep finalSigma) (fun _ _ => True) a t Ends
      (do
        let profile ← Profile.refresh k
        return some profile) s := by
  have hrefresh : Safe (upkeep finalSigma) (fun _ _ => True) a t (Returns fun _ _ => True)
      (Profile.refresh k) s := by
    refine safe_returns_bind (safe_resting_query _ h) fun found u _ => ?_
    cases found with
    | none => exact trivial
    | some v => exact trivial
  exact safe_bind hrefresh fun _ _ _ => trivial

theorem safe_ownProfile (userId : Uuid) (h : Resting finalSigma t s) :
    Safe (upkeep finalSigma) (fun _ _ => True) a t
      (Returns fun row s => Resting finalSigma t s ∧ LoadedRow row.1 row.2 s.profiles)
      (Profile.ownProfile userId) s := by
  refine safe_returns_bind (safe_find userId h) fun found u hfound => ?_
  obtain ⟨hresting, hloaded⟩ := hfound
  cases found with
  | none => exact trivial
  | some row => exact ⟨hresting, hloaded row rfl⟩

theorem safe_updateMyProfile (userId : Uuid) (input : ProfileInput)
    (data : VolunteerProfileUpdate finalSigma) (h : Resting finalSigma t s) :
    Safe (upkeep finalSigma) (fun _ _ => True) (.update userId input) t Ends
      (Profile.updateMyProfile userId data) s := by
  refine safe_bind (safe_ownProfile userId h) fun row u hrow => ?_
  refine safe_bind (safe_flush hrow.1 hrow.2 (edit_assign userId input data row.2)) ?_
  intro _ u hready
  exact safe_bind (safe_upkeep_commit hready) fun _ _ hresting => safe_profile_refresh _ hresting

theorem safe_setAvailability (userId : Uuid) (availableStatus : Bool)
    (h : Resting finalSigma t s) :
    Safe (upkeep finalSigma) (fun _ _ => True) (.availability userId availableStatus) t Ends
      (Profile.setAvailability userId availableStatus) s := by
  refine safe_bind (safe_ownProfile userId h) fun row u hrow => ?_
  show Safe _ _ _ _ _ (if availableStatus && row.2.baseDistrict.isNone then _ else _) u
  split
  · exact trivial
  · rename_i hguard
    have hplaced : availableStatus = true → row.2.baseDistrict ≠ none := by
      intro havailable hnone
      rw [havailable, hnone] at hguard
      exact hguard rfl
    refine safe_bind (safe_flush hrow.1 hrow.2 (edit_availability userId hplaced)) ?_
    intro _ u hready
    exact safe_bind (safe_upkeep_commit hready) fun _ _ hresting =>
      safe_profile_refresh _ hresting

theorem upkeep_verified :
    (upkeep finalSigma).Verified (fun _ _ _ _ => True) (ProfileCall.body finalSigma) := by
  intro a t s hs hidle
  have hresting : Resting finalSigma t s := ⟨hs, hidle⟩
  cases a with
  | iam event now => exact safe_handle event now hresting
  | update userId input =>
      simp only [ProfileCall.body]
      split
      · exact trivial
      · exact safe_updateMyProfile userId input _ hresting
  | availability userId availableStatus =>
      exact safe_setAvailability userId availableStatus hresting

theorem profilesKept_initial : ProfilesKept finalSigma (Db.initial []).profiles where
  bounded := ofList_bounded []
  keyed := by
    intro j k x y hj
    rcases hj with hj | ⟨o, hj⟩
    · cases hj
    · cases hj
  rows := by
    intro k v hv
    rcases hv with hv | ⟨o, hv⟩
    · cases hv
    · cases hv

theorem upkeep_sound {c : Config Db ProfileError (Option VolunteerProfile) ProfileCall}
    (hrun : Run (ProfileCall.body finalSigma) (Config.start (Db.initial [])) c) :
    c.Sound (upkeep finalSigma) fun _ _ _ _ => True :=
  Run.sound upkeep_verified (Config.start_sound profilesKept_initial fun _ => rfl) hrun

/-- In every run, every committed profile is matchable, a user has at most one, and a step of
an event other than a deactivation leaves the columns of the service. -/
theorem profiles_matchable
    {c : Config Db ProfileError (Option VolunteerProfile) ProfileCall}
    (hrun : Run (ProfileCall.body finalSigma) (Config.start (Db.initial [])) c) :
    (∀ k v, c.store.profiles.committed k = some v → Matchable finalSigma v ∧
      normaliseSkills finalSigma v.skills = v.skills) ∧
    (∀ j k v w, c.store.profiles.committed j = some v → c.store.profiles.committed k = some w →
      v.userId = w.userId → j = k) ∧
    (∀ t c' se event now, Step (ProfileCall.body finalSigma) c t c' → c.sessions t = some se →
      se.call = .iam event now → event.eventType ≠ "iam.user.deactivated" →
      ∀ k v, c.store.profiles.committed k = some v →
        ∃ v', c'.store.profiles.committed k = some v' ∧ SameOperational v v') := by
  have hsound := upkeep_sound hrun
  refine ⟨fun k v hv => ?_, fun j k v w hv hw huser => ?_, ?_⟩
  · have hmatchable := hsound.inv.rows k v (.inl hv)
    exact ⟨hmatchable, hmatchable.skills.normalised⟩
  · exact (hsound.inv.keyed j k v w (.inl hv) (.inl hw)).mp huser
  · intro t c' se event now hstep hse hcall htype k v hv
    obtain ⟨-, hmoved⟩ := hstep.sound upkeep_verified hsound fun _ _ => trivial
    rcases hmoved with hsame | ⟨se', hse', -, hkeeps⟩
    · rw [hsame]
      exact ⟨v, hv, ⟨rfl, rfl, rfl, rfl⟩⟩
    · rw [hse] at hse'
      cases hse'
      obtain ⟨v', hv', hallowed⟩ := hkeeps k v hv
      rw [hcall] at hallowed
      exact ⟨v', hv', hallowed.same htype⟩

end Discipline

/-! ## A rename that was loaded before the volunteer went available -/

def volunteerUser (fullName : String) (updatedAt : Time) : Iam.UserData :=
  { userId := 5, tenantId := none, userType := .volunteer, email := "n@example.org",
    fullName := fullName, phone := none, roles := ["volunteer"], isActive := true,
    updatedAt := updatedAt }

def iamEvent (eventId : Uuid) (eventType : String) (data : Iam.Message) : Envelope Iam.Message :=
  { eventId := eventId, eventType := eventType, tenantId := none, data := data }

/-- The rename and the completion of the profile load the same row, and the rename is written
last. -/
def renamedAmid : List (Move ProfileCall) :=
  [.begin (.iam (iamEvent 0 "iam.user.registered" (.user (volunteerUser "Nimal" 1))) 1), .next 0,
    .next 0, .next 0, .next 0, .next 0,
    .begin (.update 5
      { baseDistrict := "Kandy", availableStatus := true, skills := ["  First Aid", " "] }),
    .begin (.iam (iamEvent 1 "iam.user.updated" (.user (volunteerUser "Nimal P" 2))) 2), .next 1,
    .next 2, .next 2, .next 1, .next 1, .next 2, .next 2, .next 2]

def renamedRow : Option VolunteerProfile :=
  ((Config.start (Db.initial [])).play (ProfileCall.body fun _ _ => false) renamedAmid).bind
    fun c => c.store.profiles.committed 0

theorem profiles_matchable_renamed : ∃ v, renamedRow = some v ∧ v.fullName = "Nimal P" ∧
    v.baseDistrict = some "Kandy" ∧ v.availableStatus = true ∧ v.skills = ["first_aid"] ∧
    Matchable (fun _ _ => false) v := by
  have hrow : renamedRow = some
      { userId := 5, fullName := "Nimal P", phone := none, isActive := true,
        sourceUpdatedAt := some 2, baseDistrict := some "Kandy", city := none,
        availableStatus := true, skills := ["first_aid"], createdAt := 1 } := by
    decide +kernel
  obtain ⟨c, hplay, hcommitted⟩ := Option.bind_eq_some_iff.mp hrow
  have hmatchable := (profiles_matchable (Config.play_run hplay)).1 0 _ hcommitted
  exact ⟨_, hrow, rfl, rfl, rfl, rfl, hmatchable.1⟩

end Volunteer
end Rcp
