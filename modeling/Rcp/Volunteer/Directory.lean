/-
The volunteer directory (`services/volunteer/app/services/directory.py`) beside the matching
engine.

The requirement, the profile and the directory each have a normaliser of their own, and the
directory and the engine a filter.  The length of a requirement's skill is checked before it
is normalised, so a blank text is accepted there and becomes the empty skill, which the
normaliser of the profiles drops.
-/
import Rcp.Volunteer.Matchable
import Rcp.Volunteer.Matching

namespace Rcp
namespace Volunteer

open Sql Table

section Model

variable (finalSigma : List Char → List Char → Bool)

/-- `RequirementCreate.normalise_skill`. -/
def RequirementCreate.normaliseSkill (v : String) : String :=
  replaceChar ' ' '_' (Unicode.lower finalSigma (strip v))

/-- The validation of a requirement: the bounds of the fields, then the normaliser. -/
def RequirementCreate.validate (skill : String) (requiredCount : Int) :
    Option RequirementCreate :=
  if h : (2 ≤ skill.length ∧ skill.length ≤ 100) ∧ 0 < requiredCount ∧ requiredCount ≤ 1000 then
    some
      { skill := normaliseSkill finalSigma skill
        requiredCount := requiredCount
        count_pos := h.2.1
        count_le := h.2.2 }
  else none

namespace Directory

/-- `directory.normalise_skill`. -/
def normaliseSkill (skill : String) : String :=
  replaceChar ' ' '_' (Unicode.lower finalSigma (strip skill))

/-- The arguments of a search. -/
structure Query where
  q : Option String := none
  skill : Option String := none
  district : Option String := none
  city : Option String := none
  availableOnly : Bool := false

/-- `if text:` of a text that may be missing. -/
def given (text : Option String) : Option String := text.filter (· ≠ "")

-- The collation of the database decides what `ILIKE` matches.
variable (ilike : String → String → Bool)

/-- The conditions of a search, each added `if` its argument is given. -/
def buildFilters (query : Query) : List (VolunteerProfile → Bool) :=
  let isActive := fun v : VolunteerProfile => v.isActive
  let available := fun v : VolunteerProfile => v.availableStatus
  let inDistrict := fun district (v : VolunteerProfile) => v.baseDistrict == some district
  let inCity := fun city (v : VolunteerProfile) =>
    v.city.any fun text => ilike text ("%" ++ city ++ "%")
  let hasSkill := fun skill (v : VolunteerProfile) =>
    v.skills.contains (normaliseSkill finalSigma skill)
  let named := fun q (v : VolunteerProfile) =>
    let pattern := "%" ++ strip q ++ "%"
    ilike v.fullName pattern || v.phone.any fun text => ilike text pattern
  [isActive] ++ (if query.availableOnly then [available] else []) ++
    (given query.district).toList.map inDistrict ++ (given query.city).toList.map inCity ++
    (given query.skill).toList.map hasSkill ++ (given query.q).toList.map named

/-- `ORDER BY available_status DESC, created_at DESC`. -/
def Before (a b : Uuid × VolunteerProfile) : Prop :=
  (b.2.availableStatus = true → a.2.availableStatus = true) ∧
    (a.2.availableStatus = b.2.availableStatus → b.2.createdAt ≤ a.2.createdAt)

instance (a b : Uuid × VolunteerProfile) : Decidable (Before a b) :=
  inferInstanceAs (Decidable (_ ∧ _))

/-- A page, and how many rows match. -/
def search (query : Query) (limit offset : Nat) :
    Prog Db Error (List (Uuid × VolunteerProfile) × Nat) := do
  let filters := buildFilters finalSigma ilike query
  let total ← Sql.query fun t s =>
    ((s.profiles.scan t).filter fun r => filters.all fun f => f r.2).length
  let items ← select Db.profilesT fun _ v => filters.all fun f => f v
  return (((items.insertionSort Before).drop offset).take limit, total)

end Directory
end Model

/-! ## One rule -/

section Rule

variable {finalSigma : List Char → List Char → Bool} {ilike : String → String → Bool}

theorem requirement_normaliseSkill (s : String) :
    RequirementCreate.normaliseSkill finalSigma s = slug finalSigma s := by
  unfold RequirementCreate.normaliseSkill slug
  rfl

theorem directory_normaliseSkill (s : String) :
    Directory.normaliseSkill finalSigma s = slug finalSigma s := by
  unfold Directory.normaliseSkill slug
  rfl

theorem requirement_slug {s : String} {n : Int} {r : RequirementCreate}
    (h : RequirementCreate.validate finalSigma s n = some r) :
    2 ≤ s.length ∧ r.skill = slug finalSigma s := by
  unfold RequirementCreate.validate at h
  split at h
  · rename_i hbounds
    have hr := Option.some.inj h
    rw [← hr]
    exact ⟨hbounds.1.1, requirement_normaliseSkill s⟩
  · cases h

theorem given_some {s : String} (h : s ≠ "") : Directory.given (some s) = some s := by
  unfold Directory.given
  rw [Option.filter_some, if_pos (decide_eq_true h)]

/-- The available volunteers of a district who have the skill. -/
def Directory.bucket (district skill : String) : Directory.Query :=
  { skill := some skill, district := some district, availableOnly := true }

/-- The two filters let the same rows pass. -/
theorem bucket_matches {d s : String} (hd : d ≠ "") (hs : s ≠ "") (v : VolunteerProfile) :
    ((Directory.buildFilters finalSigma ilike (Directory.bucket d s)).all fun f => f v) =
      matchesBucket [d] (slug finalSigma s) v := by
  have hnone : Directory.given none = none := rfl
  have hdistrict : (v.baseDistrict == some d) = v.baseDistrict.any ([d].contains ·) := by
    cases v.baseDistrict with
    | none => rfl
    | some e =>
        rw [Bool.eq_iff_iff]
        simp
  unfold Directory.buildFilters Directory.bucket matchesBucket
  simp only [given_some hd, given_some hs, hnone, if_true, Option.toList_some, Option.toList_none,
    List.map_cons, List.map_nil, List.append_nil, List.all_append, List.all_cons, List.all_nil,
    Bool.and_true, hdistrict,
    directory_normaliseSkill]
  rw [Bool.and_comm v.isActive]

/-- A search takes its page from the sorted rows that pass the filters, and counts them. -/
theorem search_exec (query : Directory.Query) (t : Sid) (s : Db) :
    ∃ listing : List (Uuid × VolunteerProfile),
      listing.Perm ((s.profiles.scan t).filter fun r =>
        (Directory.buildFilters finalSigma ilike query).all fun f => f r.2) ∧
      ∀ limit offset, (Directory.search finalSigma ilike query limit offset).exec t s =
        some (.ok ((listing.drop offset).take limit, listing.length), s) := by
  refine ⟨_, List.perm_insertionSort Directory.Before _, fun limit offset => ?_⟩
  rw [List.length_insertionSort]
  rfl

theorem findCandidates_exec (d skill : String) (t : Sid) (s : Db) :
    ∃ candidates : List (Uuid × VolunteerProfile),
      candidates.Perm ((s.profiles.scan t).filter fun r => matchesBucket [d] skill r.2) ∧
      (findCandidates [d] skill []).exec t s = some (.ok candidates, s) := by
  refine ⟨_, List.perm_insertionSort (fun a b => a.2.createdAt ≤ b.2.createdAt) _, ?_⟩
  have hall : ∀ l : List (Uuid × VolunteerProfile),
      (l.filter fun v => !([] : List Uuid).contains v.1) = l := by
    intro l
    rw [List.filter_eq_self]
    intro v _
    rfl
  show some (Except.ok (List.filter _ _), s) = _
  rw [hall]
  rfl

/-! ## What a skill means -/

variable (finalSigma) in
/-- The skills of the profile are those of an update in which its user gave the text. -/
def Entered (c : Config Db ProfileError (Option VolunteerProfile) ProfileCall)
    (v : VolunteerProfile) (text : String) : Prop :=
  ∃ t input row, (t, .update v.userId input, .ok row) ∈ c.log ∧ text ∈ input.skills ∧
    v.skills = normaliseSkills finalSigma input.skills

variable (finalSigma ilike) in
/-- The search for the text lists the volunteers that the engine finds for the stored skill,
and every volunteer to be matched who gave the text is one of them. -/
def SameMeaning (text skill district : String)
    (c : Config Db ProfileError (Option VolunteerProfile) ProfileCall) : Prop :=
  ∀ t, c.sessions t = none → ∃ listing candidates : List (Uuid × VolunteerProfile),
    (∀ limit offset,
      (Directory.search finalSigma ilike (Directory.bucket district text) limit offset).exec t
          c.store = some (.ok ((listing.drop offset).take limit, listing.length), c.store)) ∧
    (findCandidates [district] skill []).exec t c.store = some (.ok candidates, c.store) ∧
    listing.Perm candidates ∧
    ∀ k v, c.store.profiles.committed k = some v → v.isActive = true →
      v.availableStatus = true → v.baseDistrict = some district → Entered finalSigma c v text →
      (k, v) ∈ candidates

theorem district_ne_empty {d : String} (h : isValidDistrict d = true) : d ≠ "" := by
  rintro rfl
  exact absurd h (by decide)

/-- A text that is not blank means the same everywhere. -/
theorem sameMeaning_of_slug {text district : String} (hdistrict : district ≠ "")
    (hblank : strip text ≠ "")
    {c : Config Db ProfileError (Option VolunteerProfile) ProfileCall}
    (hrun : Run (ProfileCall.body finalSigma) (Config.start (Db.initial [])) c) :
    SameMeaning finalSigma ilike text (slug finalSigma text) district c := by
  intro t hidle
  have htext : text ≠ "" := by
    rintro rfl
    exact hblank rfl
  have hsound := upkeep_sound hrun
  obtain ⟨listing, hlisting, hsearch⟩ :=
    @search_exec finalSigma ilike (Directory.bucket district text) t c.store
  obtain ⟨candidates, hcandidates, hfind⟩ :=
    findCandidates_exec district (slug finalSigma text) t c.store
  simp only [bucket_matches hdistrict htext] at hlisting
  refine ⟨listing, candidates, hsearch, hfind, hlisting.trans hcandidates.symm, ?_⟩
  intro k v hv hactive havailable hplace hentered
  obtain ⟨-, input, -, -, hmem, hskills⟩ := hentered
  have hskill : slug finalSigma text ∈ v.skills := by
    rw [hskills]
    exact (mem_normaliseSkills finalSigma).mpr ⟨text, hmem, hblank, rfl⟩
  have hscan : (k, v) ∈ c.store.profiles.scan t := by
    rw [mem_scan hsound.inv.bounded, read_of_not_written]
    · exact hv
    · have hwrites : c.store.profiles.writes t = noRows := hsound.idle t hidle
      rw [hwrites]
      rfl
  apply hcandidates.mem_iff.mpr
  apply List.mem_filter.mpr
  refine ⟨hscan, ?_⟩
  unfold matchesBucket
  rw [havailable, hactive, hplace]
  simpa using hskill

/-! ## A volunteer whose only skill is blank -/

theorem normaliseSkills_blank {text : String} (h : strip text = "") :
    normaliseSkills finalSigma [text] = [] := by
  unfold normaliseSkills
  rw [List.filter_cons_of_neg (by simp [h])]
  rfl

/-- The profile of a volunteer who has registered. -/
def registeredRow : VolunteerProfile := newProfile (volunteerUser "Nimal" 1) 1

def registration : ProfileCall :=
  .iam (iamEvent 0 "iam.user.registered" (.user (volunteerUser "Nimal" 1))) 1

/-- The store after the registration. -/
def registered : Db :=
  Transactional.rollback 0 (Transactional.commit 0
    { Db.initial [] with
      profiles := (Table.ofList []).insert 0 registeredRow
      processed := Table.empty.insertAt 0 0 () })

theorem registration_call :
    (registration.body finalSigma).call 0 (Db.initial []) = some (.ok none, registered) := rfl

theorem column_loaded {α : Type} [DecidableEq α] (loaded new : α) :
    column loaded new loaded = new := by
  unfold column
  split
  · rename_i h
    exact h.symm
  · rfl

/-- Nothing has moved since the row was loaded. -/
theorem mergeColumns_loaded (data : VolunteerProfileUpdate finalSigma)
    (loaded : VolunteerProfile) :
    Profile.mergeColumns loaded (Profile.assign data loaded) loaded =
      Profile.assign data loaded := by
  unfold Profile.mergeColumns
  simp only [column_loaded]
  rfl

/-- The store after the volunteer has completed the profile and gone available. -/
def completed (data : VolunteerProfileUpdate finalSigma) : Db :=
  Transactional.rollback 1 (Transactional.commit 1
    { registered with
      profiles := registered.profiles.write 1 0 (Profile.assign data registeredRow) })

theorem completion_call {data : VolunteerProfileUpdate finalSigma}
    (havailable : data.availableStatus = true) :
    (Profile.updateMyProfile 5 data).call 1 registered =
      some (.ok (some (Profile.assign data registeredRow)), completed data) := by
  have hchanged : Profile.assign data registeredRow ≠ registeredRow := by
    intro hsame
    have hstatus := congrArg VolunteerProfile.availableStatus hsame
    have hbefore : registeredRow.availableStatus = false := rfl
    have hafter : (Profile.assign data registeredRow).availableStatus = true := havailable
    rw [hbefore, hafter] at hstatus
    cases hstatus
  have hown : (Profile.ownProfile 5).exec 1 registered =
      some (.ok (0, registeredRow), registered) := rfl
  have hflush : (Profile.flush 0 registeredRow (Profile.assign data registeredRow)).exec 1
      registered = some (.ok (), { registered with
        profiles := registered.profiles.write 1 0 (Profile.assign data registeredRow) }) := by
    unfold Profile.flush
    rw [if_neg hchanged]
    have hwrite : (update Db.profilesT 0 (Profile.mergeColumns registeredRow
        (Profile.assign data registeredRow)) : Prog Db ProfileError _).exec 1 registered =
          some (.ok (some (Profile.mergeColumns registeredRow
            (Profile.assign data registeredRow) registeredRow)), { registered with
              profiles := registered.profiles.write 1 0 (Profile.mergeColumns registeredRow
                (Profile.assign data registeredRow) registeredRow) }) := rfl
    rw [Prog.exec_bind, hwrite, mergeColumns_loaded]
    rfl
  unfold Prog.call Profile.updateMyProfile
  rw [Prog.exec_bind, hown]
  simp only []
  rw [Prog.exec_bind, hflush]
  rfl

theorem validate_some {input : ProfileInput}
    (hdistrict : isValidDistrict input.baseDistrict = true) (hskills : input.skills.length ≤ 30) :
    ∃ data, input.validate finalSigma = some data ∧ data.baseDistrict = input.baseDistrict ∧
      data.availableStatus = input.availableStatus ∧
      data.skills = normaliseSkills finalSigma input.skills := by
  unfold ProfileInput.validate
  rw [dif_pos ⟨hdistrict, hskills⟩]
  exact ⟨_, rfl, rfl, rfl, rfl⟩

/-- A blank text can be entered, but the profile does not keep it. -/
theorem blank_entered {text district : String} (hblank : strip text = "")
    (hdistrict : isValidDistrict district = true) :
    ∃ (c : Config Db ProfileError (Option VolunteerProfile) ProfileCall) (v : VolunteerProfile),
      Run (ProfileCall.body finalSigma) (Config.start (Db.initial [])) c ∧
      c.sessions 2 = none ∧ c.store.profiles.committed 0 = some v ∧ v.isActive = true ∧
      v.availableStatus = true ∧ v.baseDistrict = some district ∧ v.skills = [] ∧
      Entered finalSigma c v text := by
  obtain ⟨data, hdata, hplace, havailable, hskills⟩ := @validate_some finalSigma
    { baseDistrict := district, availableStatus := true, skills := [text] } hdistrict (by simp)
  have hfirst : Run (ProfileCall.body finalSigma) (Config.start (Db.initial []))
      { store := registered, sessions := fun _ => none, fresh := 1,
        log := [(0, registration, .ok none)] } :=
    Run.call rfl registration_call
  have hbody : ProfileCall.body finalSigma (.update 5
      { baseDistrict := district, availableStatus := true, skills := [text] }) =
        Profile.updateMyProfile 5 data := by
    simp only [ProfileCall.body, hdata]
  have hcall := completion_call havailable
  rw [← hbody] at hcall
  have hsecond : Run (ProfileCall.body finalSigma)
      { store := registered, sessions := fun _ => none, fresh := 1,
        log := [(0, registration, .ok none)] } _ := Run.call rfl hcall
  refine ⟨_, Profile.assign data registeredRow, hfirst.trans hsecond, rfl, rfl, rfl, havailable,
    ?_, ?_, ?_⟩
  · show some data.baseDistrict = some district
    rw [hplace]
  · show data.skills = []
    rw [hskills, normaliseSkills_blank hblank]
  · refine ⟨1, _, _, List.mem_cons_self, List.mem_cons_self, ?_⟩
    show data.skills = normaliseSkills finalSigma [text]
    exact hskills

/-- A volunteer who has entered a blank text is not found for it. -/
theorem blank_differs {text district : String} (hblank : strip text = "")
    (hdistrict : isValidDistrict district = true) :
    ∃ c, Run (ProfileCall.body finalSigma) (Config.start (Db.initial [])) c ∧
      ¬ SameMeaning finalSigma ilike text (slug finalSigma text) district c := by
  obtain ⟨c, v, hrun, hidle, hv, hactive, havailable, hplace, hskills, hentered⟩ :=
    @blank_entered finalSigma text district hblank hdistrict
  refine ⟨c, hrun, fun hmeans => ?_⟩
  obtain ⟨-, candidates, -, hfind, -, hall⟩ := hmeans 2 hidle
  have hmem := hall 0 v hv hactive havailable hplace hentered
  obtain ⟨found, hperm, hfound⟩ := findCandidates_exec district (slug finalSigma text) 2 c.store
  rw [hfind, Option.some.injEq, Prod.mk.injEq, Except.ok.injEq] at hfound
  rw [hfound.1] at hmem
  have hmatches := (List.mem_filter.mp (hperm.mem_iff.mp hmem)).2
  unfold matchesBucket at hmatches
  rw [hskills] at hmatches
  simp at hmatches

/-- An accepted text means the same in every pool if and only if it is not blank. -/
theorem skill_means_same_iff {text district : String} {n : Int} {r : RequirementCreate}
    (hr : RequirementCreate.validate finalSigma text n = some r)
    (hdistrict : isValidDistrict district = true) :
    (∀ c, Run (ProfileCall.body finalSigma) (Config.start (Db.initial [])) c →
      SameMeaning finalSigma ilike text r.skill district c) ↔ strip text ≠ "" := by
  rw [(requirement_slug hr).2]
  constructor
  · intro hmeans hblank
    obtain ⟨c, hrun, hdiffers⟩ := blank_differs hblank hdistrict
    exact hdiffers (hmeans c hrun)
  · intro hblank c hrun
    exact sameMeaning_of_slug (district_ne_empty hdistrict) hblank hrun

theorem requirement_accepted {text : String} (h : 2 ≤ text.length ∧ text.length ≤ 100) :
    ∃ r, RequirementCreate.validate finalSigma text 3 = some r := by
  unfold RequirementCreate.validate
  rw [dif_pos ⟨h, by decide⟩]
  exact ⟨_, rfl⟩

end Rule

theorem skill_means_same_first_aid : ∃ r : RequirementCreate,
    RequirementCreate.validate (fun _ _ => false) "First Aid" 3 = some r ∧
    r.skill = "first_aid" ∧
    ∀ c, Run (ProfileCall.body fun _ _ => false) (Config.start (Db.initial [])) c →
      SameMeaning (fun _ _ => false) (fun _ _ => false) "First Aid" r.skill "Kandy" c := by
  obtain ⟨r, hr⟩ := @requirement_accepted (fun _ _ => false) "First Aid" (by decide)
  have hslug : slug (fun _ _ => false) "First Aid" = "first_aid" := by decide +kernel
  have hblank : strip "First Aid" ≠ "" := by decide +kernel
  exact ⟨r, hr, (requirement_slug hr).2.trans hslug,
    (skill_means_same_iff hr (by decide)).mpr hblank⟩

/-- Two blanks are accepted, and a volunteer who has entered them is not found for them. -/
theorem skill_means_other : ¬ ∀ (finalSigma : List Char → List Char → Bool)
    (ilike : String → String → Bool) (text district : String) (n : Int) (r : RequirementCreate),
    RequirementCreate.validate finalSigma text n = some r → isValidDistrict district = true →
    ∀ c, Run (ProfileCall.body finalSigma) (Config.start (Db.initial [])) c →
      SameMeaning finalSigma ilike text r.skill district c := by
  intro hclaim
  obtain ⟨r, hr⟩ := @requirement_accepted (fun _ _ => false) "  " (by decide)
  have hblank : strip "  " = "" := by decide +kernel
  have hdistrict : isValidDistrict "Kandy" = true := by decide
  obtain ⟨c, hrun, hdiffers⟩ := blank_differs hblank hdistrict
  apply hdiffers
  rw [← (requirement_slug hr).2]
  exact hclaim _ (fun _ _ => false) "  " "Kandy" 3 r hr hdistrict c hrun

end Volunteer
end Rcp
