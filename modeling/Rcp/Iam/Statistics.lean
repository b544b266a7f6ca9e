/-
The statistics of the operators' console (`list_tenants`, `get_tenant` and `platform_stats` of
`services/iam/app/services/admin.py`).

The users are counted once by tenant and once by type.  The counts agree because exactly the
portal actors belong to a tenant.  A query sees the rows of a table in some order.  The
`created_at` of a row stands beside the tables, and the name and the description of a
tenant, which the answers copy, are left out.
-/
import Mathlib.Data.List.Sort
import Rcp.Iam.Model
import Rcp.Sql.Aggregate

namespace Rcp
namespace Iam
namespace Statistics

open Sql

structure TenantSummary where
  id : Uuid
  slug : String
  status : String
  createdAt : Time
  userCount : Nat
  adminCount : Nat
  coordinatorCount : Nat
  deriving DecidableEq

/-- `UserTypeCount`. -/
structure UserTypeCount where
  userType : String
  count : Nat
  deriving DecidableEq

structure PlatformStats where
  totalTenants : Nat
  activeTenants : Nat
  suspendedTenants : Nat
  totalUsers : Nat
  globalUsers : Nat
  tenantUsers : Nat
  superAdmins : Nat
  usersByType : List UserTypeCount
  tenantsLast30d : Nat
  usersLast30d : Nat
  deriving DecidableEq

section Queries

variable (createdAt : Uuid → Time)

/-- The aggregates over the users of one tenant. -/
def summary (key : Uuid × String × String) (users : List (Uuid × User)) : TenantSummary :=
  { id := key.1
    slug := key.2.1
    status := key.2.2
    createdAt := createdAt key.1
    userCount := users.length
    adminCount := users.countP fun u => u.2.userType = .tenantAdmin
    coordinatorCount := users.countP fun u => u.2.userType = .coordinator }

/-- The outer join counts the user ids that are not null. -/
def listTenants (tenants : List (Uuid × Tenant)) (users : List (Uuid × User)) :
    List TenantSummary :=
  let joined := leftJoin (fun t u => u.2.tenantId == some t.1) tenants users
  let groups := groupBy (fun row => (row.1.1, row.1.2.slug, row.1.2.status)) joined
  (groups.map fun group => summary createdAt group.1 (group.2.filterMap Prod.snd)).mergeSort
    fun x y => y.createdAt ≤ x.createdAt

def getTenant (tenants : List (Uuid × Tenant)) (users : List (Uuid × User)) (tenantId : Uuid) :
    Option TenantSummary :=
  (tenants.find? fun t => t.1 == tenantId).map fun t =>
    summary createdAt (t.1, t.2.slug, t.2.status)
      (users.filter fun u => u.2.tenantId == some tenantId)

/-- `timedelta(days=30)`. -/
def thirtyDays : Time := 30 * 24 * 60 * 60 * 1000000

def platformStats (userCreatedAt : Uuid → Time) (now : Time) (tenants : List (Uuid × Tenant))
    (users : List (Uuid × User)) : PlatformStats :=
  let tenantsByStatus := (groupBy (fun t => t.2.status) tenants).map fun group =>
    (group.1, group.2.length)
  let byType := (groupBy (fun u => u.2.userType) users).map fun group =>
    (group.1, group.2.length)
  let since := now - thirtyDays
  { totalTenants := (tenantsByStatus.map Prod.snd).sum
    activeTenants := (tenantsByStatus.lookup "active").getD 0
    suspendedTenants := (tenantsByStatus.lookup "suspended").getD 0
    totalUsers := (byType.map Prod.snd).sum
    globalUsers := (globalUserTypes.map fun type => (byType.lookup type).getD 0).sum
    tenantUsers := (tenantUserTypes.map fun type => (byType.lookup type).getD 0).sum
    superAdmins := (byType.lookup .superAdmin).getD 0
    usersByType := byType.map fun entry =>
      { userType := entry.1.value, count := entry.2 }
    tenantsLast30d := tenants.countP fun t => since ≤ createdAt t.1
    usersLast30d := users.countP fun u => since ≤ userCreatedAt u.1 }

end Queries

/-! ## Counts by type -/

section Types

variable {users : List (Uuid × User)}

/-- The entry of one type. -/
theorem byType_lookup (type : UserType) :
    ((((groupBy (fun u : Uuid × User => u.2.userType) users).map fun group =>
      (group.1, group.2.length)).lookup type).getD 0) =
      users.countP fun u => u.2.userType = type := by
  have hlookup := groupBy_lookup (fun group : List (Uuid × User) => group.length)
    (fun u => u.2.userType) users type
  rw [hlookup, List.countP_eq_length_filter]
  split
  · rfl
  · rename_i hnone
    refine (List.length_eq_zero_iff.mpr (List.filter_eq_nil_iff.mpr fun u hu heq => ?_)).symm
    exact hnone ⟨u, hu, of_decide_eq_true heq⟩

/-- The users of some types. -/
theorem count_types {types : List UserType} (htypes : types.Nodup) :
    (types.map fun type => ((((groupBy (fun u : Uuid × User => u.2.userType) users).map
      fun group => (group.1, group.2.length)).lookup type).getD 0)).sum =
      users.countP fun u => u.2.userType ∈ types := by
  have hsum := sum_countP (fun u : Uuid × User => u.2.userType) (fun _ => true) users htypes
  simp only [Bool.and_true, beq_eq_decide] at hsum
  rw [← hsum]
  exact congrArg List.sum (List.map_congr_left fun type _ => byType_lookup type)

/-- Every user is a global one, a portal actor or an operator. -/
theorem count_all : users.length = (users.countP fun u => u.2.userType ∈ globalUserTypes) +
    (users.countP fun u => u.2.userType ∈ tenantUserTypes) +
    users.countP fun u => u.2.userType = .superAdmin := by
  induction users with
  | nil => rfl
  | cons u rest ih =>
      simp only [List.length_cons, List.countP_cons, ih]
      cases u.2.userType <;> simp [globalUserTypes, tenantUserTypes] <;> omega

end Types

/-! ## Counts by tenant -/

section Tenants

variable {createdAt : Uuid → Time} {tenants : List (Uuid × Tenant)}
  {users : List (Uuid × User)}

/-- Every tenant is listed once, with its own users. -/
theorem listTenants_perm (hkeys : (tenants.map Prod.fst).Nodup) :
    (listTenants createdAt tenants users).Perm (tenants.map fun t =>
      summary createdAt (t.1, t.2.slug, t.2.status)
        (users.filter fun u => u.2.tenantId == some t.1)) := by
  have hnodup : (tenants.map fun t => (t.1, t.2.slug, t.2.status)).Nodup := by
    refine List.Nodup.of_map Prod.fst ?_
    rw [List.map_map]
    exact hkeys
  have hgroups := groupBy_leftJoin
    (fun t : Uuid × Tenant => (t.1, t.2.slug, t.2.status))
    (fun t (u : Uuid × User) => u.2.tenantId == some t.1) users hnodup
  have hperm := hgroups.map fun group => summary createdAt group.1 group.2
  rw [List.map_map, List.map_map] at hperm
  exact (List.mergeSort_perm _ _).trans hperm

/-- The users of a tenant are its administrators and its coordinators. -/
theorem summary_staff (tenantId : Uuid) (key : Uuid × String × String) :
    (summary createdAt key (users.filter fun u => u.2.tenantId == some tenantId)).userCount =
      (summary createdAt key (users.filter fun u => u.2.tenantId == some tenantId)).adminCount +
      (summary createdAt key
        (users.filter fun u => u.2.tenantId == some tenantId)).coordinatorCount := by
  show (users.filter _).length = List.countP _ _ + List.countP _ _
  induction users with
  | nil => rfl
  | cons u rest ih =>
      rw [List.filter_cons]
      split
      · rename_i htenant
        have htype : u.2.userType ∈ tenantUserTypes :=
          u.2.tenancy.mpr (by rw [beq_iff_eq.mp htenant]; rfl)
        rw [List.length_cons, List.countP_cons, List.countP_cons, ih]
        revert htype
        cases u.2.userType <;> simp [tenantUserTypes] <;> omega
      · exact ih

/-- The tenant of the detail page is the one of the list. -/
theorem getTenant_iff (hkeys : (tenants.map Prod.fst).Nodup) {tenantId : Uuid}
    {found : TenantSummary} : getTenant createdAt tenants users tenantId = some found ↔
      found ∈ listTenants createdAt tenants users ∧ found.id = tenantId := by
  rw [(listTenants_perm hkeys).mem_iff, List.mem_map]
  unfold getTenant
  rw [Option.map_eq_some_iff]
  constructor
  · rintro ⟨t, ht, rfl⟩
    have hid : t.1 = tenantId := by simpa using List.find?_some ht
    subst hid
    exact ⟨⟨t, List.mem_of_find?_eq_some ht, rfl⟩, rfl⟩
  · rintro ⟨⟨t, ht, rfl⟩, rfl⟩
    have hsome : (tenants.find? fun x => x.1 == t.1).isSome :=
      List.find?_isSome.mpr ⟨t, ht, beq_self_eq_true t.1⟩
    obtain ⟨t', ht'⟩ := Option.isSome_iff_exists.mp hsome
    have hsame : t' = t := List.inj_on_of_nodup_map hkeys (List.mem_of_find?_eq_some ht') ht
      (by simpa using List.find?_some ht')
    exact ⟨t', ht', by rw [hsame]; rfl⟩

/-- The users of all tenants, if every user's tenant is there. -/
theorem sum_userCount (hkeys : (tenants.map Prod.fst).Nodup)
    (hfk : ∀ u ∈ users, ∀ tenantId, u.2.tenantId = some tenantId →
      tenantId ∈ tenants.map Prod.fst) :
    ((listTenants createdAt tenants users).map TenantSummary.userCount).sum =
      users.countP fun u => u.2.userType ∈ tenantUserTypes := by
  have hnodup : ((tenants.map Prod.fst).map some).Nodup :=
    hkeys.map (Option.some_injective Uuid)
  have hsum := sum_countP (fun u : Uuid × User => u.2.tenantId) (fun _ => true) users hnodup
  simp only [Bool.and_true, beq_eq_decide] at hsum
  rw [((listTenants_perm hkeys).map _).sum_eq, List.map_map]
  have hcounts : tenants.map (TenantSummary.userCount ∘ fun t =>
        summary createdAt (t.1, t.2.slug, t.2.status)
          (users.filter fun u => u.2.tenantId == some t.1)) =
      ((tenants.map Prod.fst).map some).map fun k =>
        users.countP fun u => u.2.tenantId = k := by
    rw [List.map_map, List.map_map]
    refine List.map_congr_left fun t _ => ?_
    show (users.filter _).length = users.countP _
    rw [← List.countP_eq_length_filter]
    simp only [beq_eq_decide]
  rw [hcounts, hsum]
  refine List.countP_congr fun u hu => ?_
  simp only [decide_eq_true_eq]
  rw [u.2.tenancy]
  constructor
  · intro hmem
    obtain ⟨tenantId, -, htenant⟩ := List.mem_map.mp hmem
    rw [← htenant]
    rfl
  · intro hsome
    obtain ⟨tenantId, htenant⟩ := Option.isSome_iff_exists.mp hsome
    rw [htenant]
    exact List.mem_map_of_mem (hfk u hu tenantId htenant)

end Tenants

/-! ## The console -/

/-- The figures of the pages agree with each other. -/
structure AddUp (users : Nat) (stats : PlatformStats) (summaries : List TenantSummary)
    (page : Uuid → Option TenantSummary) : Prop where
  total : stats.totalUsers = users
  types : stats.totalUsers = stats.globalUsers + stats.tenantUsers + stats.superAdmins
  tenants : stats.totalTenants = summaries.length
  portal : (summaries.map TenantSummary.userCount).sum = stats.tenantUsers
  staff : ∀ x ∈ summaries, x.userCount = x.adminCount + x.coordinatorCount
  pages : ∀ tenantId x, page tenantId = some x ↔ x ∈ summaries ∧ x.id = tenantId

/-- Whatever the tables hold, the console's figures add up, if the users' foreign keys hold. -/
theorem statistics_add_up (tenantCreatedAt userCreatedAt : Uuid → Time) (now : Time) (s : Db)
    {tenants : List (Uuid × Tenant)} {users : List (Uuid × User)}
    (htenants : Scan s.tenants.committed tenants) (husers : Scan s.users.committed users)
    (hfk : ∀ k user tenantId, s.users.committed k = some user →
      user.tenantId = some tenantId → (s.tenants.committed tenantId).isSome) :
    AddUp users.length (platformStats tenantCreatedAt userCreatedAt now tenants users)
      (listTenants tenantCreatedAt tenants users) (getTenant tenantCreatedAt tenants users) := by
  have hkeys := htenants.nodup
  have htotal : (platformStats tenantCreatedAt userCreatedAt now tenants users).totalUsers =
      users.length := by
    unfold platformStats
    simp only [List.map_map]
    exact groupBy_length _ users
  have htenantUsers : (platformStats tenantCreatedAt userCreatedAt now tenants users).tenantUsers =
      users.countP fun u => u.2.userType ∈ tenantUserTypes := count_types (by decide)
  refine ⟨htotal, ?_, ?_, ?_, fun x hx => ?_, fun _ _ => getTenant_iff hkeys⟩
  · have hglobal : (platformStats tenantCreatedAt userCreatedAt now tenants users).globalUsers =
        users.countP fun u => u.2.userType ∈ globalUserTypes := count_types (by decide)
    have hsuper : (platformStats tenantCreatedAt userCreatedAt now tenants users).superAdmins =
        users.countP fun u => u.2.userType = .superAdmin := byType_lookup _
    rw [htotal, hglobal, htenantUsers, hsuper]
    exact count_all
  · rw [(listTenants_perm hkeys).length_eq, List.length_map]
    unfold platformStats
    simp only [List.map_map]
    exact groupBy_length _ tenants
  · rw [htenantUsers]
    refine sum_userCount hkeys fun u hu tenantId htenant => ?_
    have huser := (husers.mem u.1 u.2).mp hu
    obtain ⟨tenant, ht⟩ := Option.isSome_iff_exists.mp (hfk _ _ _ huser htenant)
    exact List.mem_map.mpr ⟨(tenantId, tenant), (htenants.mem _ _).mpr ht, rfl⟩
  · obtain ⟨t, -, rfl⟩ := List.mem_map.mp ((listTenants_perm hkeys).mem_iff.mp hx)
    exact summary_staff t.1 _

/-- An operator, a volunteer and the staff of one of two tenants. -/
def staffed : Db :=
  let user := fun (tenantId : Option Uuid) (userType : UserType)
      (h : userType ∈ tenantUserTypes ↔ tenantId.isSome = true) =>
    { tenantId := tenantId
      userType := userType
      email := ""
      passwordHash := ""
      fullName := ""
      phone := none
      updatedAt := 0
      tenancy := h : User }
  Db.initial
    [{ slug := "north", latitude := none, longitude := none },
      { slug := "south", status := "suspended", latitude := none, longitude := none }]
    [user none .superAdmin (by decide), user none .volunteer (by decide),
      user (some 1) .tenantAdmin (by decide), user (some 1) .coordinator (by decide)] []

theorem statistics_add_up_staffed :
    let tenants := scanBelow staffed.tenants.committed 2
    let users := scanBelow staffed.users.committed 4
    (platformStats (fun _ => 0) (fun _ => 0) 0 tenants users).tenantUsers = 2 ∧
      AddUp users.length (platformStats (fun _ => 0) (fun _ => 0) 0 tenants users)
        (listTenants (fun _ => 0) tenants users) (getTenant (fun _ => 0) tenants users) := by
  refine ⟨by decide +kernel, statistics_add_up (fun _ => 0) (fun _ => 0) 0 staffed ?_ ?_ ?_⟩
  · exact scan_scanBelow fun k hk => List.getElem?_eq_none hk
  · exact scan_scanBelow fun k hk => List.getElem?_eq_none hk
  · intro k user tenantId hk htenant
    have hmem := List.mem_of_getElem? hk
    simp only [List.mem_cons, List.not_mem_nil, or_false] at hmem
    rcases hmem with rfl | rfl | rfl | rfl
    · cases htenant
    · cases htenant
    · cases htenant
      rfl
    · cases htenant
      rfl

end Statistics
end Iam
end Rcp
