/-
The hub as nested maps (`services/rto/internal/ws/hub.go`).

`conns` maps a tenant to a map from users to sets of clients.  A client is a pointer, so
its fields are functions of it.  A map lists its entries in some order, and nothing below
depends on it.  The list of entries by which `Rcp.Rto.Model` has the hub of a process is
an abstraction of these maps.
-/
import Mathlib.Data.List.AList
import Rcp.Rto.Model

namespace Rcp
namespace Rto

/-- A Go map. -/
abbrev GoMap (K V : Type) := AList fun _ : K => V

section

variable {K V : Type} [DecidableEq K]

/-- `len(m) == 0`. -/
def GoMap.isEmpty (m : GoMap K V) : Bool := m.entries.isEmpty

omit [DecidableEq K] in
theorem GoMap.isEmpty_iff {m : GoMap K V} : m.isEmpty = true ↔ m = ∅ := by
  unfold GoMap.isEmpty
  rw [List.isEmpty_iff]
  constructor
  · intro h
    exact AList.ext h
  · intro h
    rw [h]
    rfl

theorem GoMap.lookup_of_isEmpty {m : GoMap K V} (h : m.isEmpty = true) (k : K) :
    m.lookup k = none := by
  rw [GoMap.isEmpty_iff.mp h]
  rfl

end

section Hub

variable {T U P F : Type} [DecidableEq T] [DecidableEq U] [DecidableEq P]

/-- The type of `conns`. -/
abbrev Hub (T U P : Type) := GoMap T (GoMap U (GoMap P Unit))

/-- The fields of a client that the hub reads. -/
structure Fields (P T U : Type) where
  tenantId : P → T
  userId : P → U

namespace Hub

variable (fields : Fields P T U)

def register (c : P) (h : Hub T U P) : Hub T U P :=
  let users := (h.lookup (fields.tenantId c)).getD ∅
  let sockets := (users.lookup (fields.userId c)).getD ∅
  h.insert (fields.tenantId c) (users.insert (fields.userId c) (sockets.insert c ()))

/-- The map of a tenant without the client. -/
def forget (c : P) (users : GoMap U (GoMap P Unit)) : GoMap U (GoMap P Unit) :=
  match users.lookup (fields.userId c) with
  | none => users
  | some sockets =>
      let sockets := sockets.erase c
      if GoMap.isEmpty sockets then users.erase (fields.userId c)
      else users.insert (fields.userId c) sockets

def unregister (c : P) (h : Hub T U P) : Hub T U P :=
  match h.lookup (fields.tenantId c) with
  | none => h
  | some users =>
      let users := forget fields c users
      if GoMap.isEmpty users then h.erase (fields.tenantId c)
      else h.insert (fields.tenantId c) users

/-- The set under a tenant and a user. -/
def socketsOf (h : Hub T U P) (tenantId : T) (userId : U) : Option (GoMap P Unit) :=
  (h.lookup tenantId).bind fun users => users.lookup userId

/-- The clients that the loop over `users[userID]` visits. -/
def userClients (h : Hub T U P) (tenantId : T) (userId : U) : List P :=
  match h.socketsOf tenantId userId with
  | none => []
  | some sockets => sockets.keys

/-- The clients that the two loops over `conns[tenantID]` visit. -/
def tenantClients (h : Hub T U P) (tenantId : T) : List P :=
  match h.lookup tenantId with
  | none => []
  | some users => users.entries.flatMap fun entry => entry.2.keys

end Hub

/-- A call of the hub.  Its frame is of any type. -/
inductive HubCall (T U P F : Type)
  | register (c : P)
  | unregister (c : P)
  | sendToUser (tenantId : T) (userId : U) (message : F)
  | broadcastTenant (tenantId : T) (message : F)
  | dropUser (tenantId : T) (userId : U)
  | dropTenant (tenantId : T)

namespace HubCall

def apply (fields : Fields P T U) : HubCall T U P F → Hub T U P → Hub T U P
  | register c, h => h.register fields c
  | unregister c, h => h.unregister fields c
  | sendToUser .., h | broadcastTenant .., h | dropUser .., h | dropTenant _, h => h

/-- The calls of `TrySend` that the call makes.  `logout` is the frame for a reason. -/
def offers (logout : String → F) : HubCall T U P F → Hub T U P → List (P × F)
  | register _, _ | unregister _, _ => []
  | sendToUser tenantId userId message, h => (h.userClients tenantId userId).map (·, message)
  | broadcastTenant tenantId message, h => (h.tenantClients tenantId).map (·, message)
  | dropUser tenantId userId, h =>
      (h.userClients tenantId userId).map (·, logout "account_disabled")
  | dropTenant tenantId, h => (h.tenantClients tenantId).map (·, logout "tenant_suspended")

/-- The hub after a sequence of calls. -/
def run (fields : Fields P T U) (calls : List (HubCall T U P F)) : Hub T U P :=
  calls.foldl (fun h call => call.apply fields h) ∅

/-- The client was registered and has not been unregistered since. -/
def Registered (calls : List (HubCall T U P F)) (c : P) : Prop :=
  ∃ before after, calls = before ++ register c :: after ∧ unregister c ∉ after

end HubCall

/-! ## The set under a tenant and a user -/

namespace Hub

variable {fields : Fields P T U} {h : Hub T U P} {c : P} {t : T} {u : U}

theorem socketsOf_register : (h.register fields c).socketsOf t u =
    if t = fields.tenantId c ∧ u = fields.userId c then
      some (((h.socketsOf t u).getD ∅).insert c ())
    else h.socketsOf t u := by
  unfold register socketsOf
  by_cases ht : t = fields.tenantId c
  · subst ht
    rw [AList.lookup_insert, Option.bind_some]
    by_cases hu : u = fields.userId c
    · subst hu
      rw [AList.lookup_insert, if_pos ⟨rfl, rfl⟩]
      cases h.lookup (fields.tenantId c) <;> rfl
    · rw [AList.lookup_insert_ne hu, if_neg fun hboth => hu hboth.2]
      cases h.lookup (fields.tenantId c) <;> rfl
  · rw [AList.lookup_insert_ne ht, if_neg fun hboth => ht hboth.1]

/-- An emptied set is removed. -/
def pruned (sockets : GoMap P Unit) : Option (GoMap P Unit) :=
  if GoMap.isEmpty sockets then none else some sockets

omit [DecidableEq T] in
theorem lookup_forget {users : GoMap U (GoMap P Unit)} :
    (forget fields c users).lookup u =
      if u = fields.userId c then (users.lookup u).bind fun sockets => pruned (sockets.erase c)
      else users.lookup u := by
  unfold forget pruned
  by_cases hu : u = fields.userId c
  · subst hu
    rw [if_pos rfl]
    cases hs : users.lookup (fields.userId c) with
    | none => exact hs
    | some sockets =>
        by_cases he : GoMap.isEmpty (sockets.erase c) = true
        · simp only [he, if_true, Option.bind_some]
          exact AList.lookup_erase _ _
        · simp only [he, Bool.false_eq_true, if_false, Option.bind_some]
          exact AList.lookup_insert _
  · rw [if_neg hu]
    cases hs : users.lookup (fields.userId c) with
    | none => rfl
    | some sockets =>
        by_cases he : GoMap.isEmpty (sockets.erase c) = true
        · simp only [he, if_true]
          exact AList.lookup_erase_ne hu
        · simp only [he, Bool.false_eq_true, if_false]
          exact AList.lookup_insert_ne hu

theorem socketsOf_unregister : (h.unregister fields c).socketsOf t u =
    if t = fields.tenantId c ∧ u = fields.userId c then
      (h.socketsOf t u).bind fun sockets => pruned (sockets.erase c)
    else h.socketsOf t u := by
  unfold unregister socketsOf
  by_cases ht : t = fields.tenantId c
  · subst ht
    cases husers : h.lookup (fields.tenantId c) with
    | none => simp [husers]
    | some users =>
        -- whether or not the map of the tenant goes with the client
        have hlookup : ((if GoMap.isEmpty (forget fields c users) then
            h.erase (fields.tenantId c)
            else h.insert (fields.tenantId c) (forget fields c users)).lookup
              (fields.tenantId c)).bind (fun users => users.lookup u) =
            (forget fields c users).lookup u := by
          by_cases he : GoMap.isEmpty (forget fields c users) = true
          · rw [if_pos he, AList.lookup_erase, GoMap.lookup_of_isEmpty he]
            rfl
          · rw [if_neg he, AList.lookup_insert]
            rfl
        simp only [hlookup, Option.bind_some, lookup_forget, true_and]
  · rw [if_neg fun hboth => ht hboth.1]
    cases husers : h.lookup (fields.tenantId c) with
    | none => rfl
    | some users =>
        by_cases he : GoMap.isEmpty (forget fields c users) = true
        · simp only [he, if_true, AList.lookup_erase_ne ht]
        · simp only [he, Bool.false_eq_true, if_false, AList.lookup_insert_ne ht]

/-- The client stands under the tenant and the user. -/
def Holds (h : Hub T U P) (t : T) (u : U) (c : P) : Prop :=
  ∃ sockets, h.socketsOf t u = some sockets ∧ c ∈ sockets

theorem holds_register {d : P} : (h.register fields c).Holds t u d ↔
    (d = c ∧ t = fields.tenantId c ∧ u = fields.userId c) ∨ h.Holds t u d := by
  unfold Holds
  rw [socketsOf_register]
  by_cases hhere : t = fields.tenantId c ∧ u = fields.userId c
  · rw [if_pos hhere]
    cases hs : h.socketsOf t u with
    | none =>
        have hmem : d ∈ AList.insert c () (∅ : GoMap P Unit) ↔ d = c := by
          rw [AList.mem_insert]
          simp
        simpa [hhere] using hmem
    | some sockets => simp [hhere]
  · rw [if_neg hhere]
    simp [hhere]

omit [DecidableEq P] in
theorem mem_pruned {sockets : GoMap P Unit} {d : P} :
    (∃ left, pruned sockets = some left ∧ d ∈ left) ↔ d ∈ sockets := by
  unfold pruned
  by_cases he : GoMap.isEmpty sockets = true
  · rw [if_pos he, GoMap.isEmpty_iff.mp he]
    simp
  · rw [if_neg he]
    simp

theorem holds_unregister {d : P} : (h.unregister fields c).Holds t u d ↔
    h.Holds t u d ∧ ¬ (d = c ∧ t = fields.tenantId c ∧ u = fields.userId c) := by
  unfold Holds
  rw [socketsOf_unregister]
  by_cases hhere : t = fields.tenantId c ∧ u = fields.userId c
  · rw [if_pos hhere]
    cases hs : h.socketsOf t u with
    | none => simp
    | some sockets =>
        rw [Option.bind_some, mem_pruned]
        simp [hhere, and_comm]
  · rw [if_neg hhere]
    simp [hhere]

/-! ## No level is empty -/

/-- No inner map is empty. -/
structure Full (h : Hub T U P) : Prop where
  users : ∀ t users, h.lookup t = some users → users ≠ ∅
  sockets : ∀ t u sockets, h.socketsOf t u = some sockets → sockets ≠ ∅

theorem insert_ne_empty {K V : Type} [DecidableEq K] (m : GoMap K V) (k : K) (v : V) :
    m.insert k v ≠ ∅ := by
  intro hempty
  have hlookup : (m.insert k v).lookup k = some v := AList.lookup_insert m
  rw [hempty] at hlookup
  cases hlookup

omit [DecidableEq P] in
theorem full_empty : Full (∅ : Hub T U P) := by
  constructor
  · intro t users hlookup
    cases hlookup
  · intro t u sockets hlookup
    cases hlookup

theorem Full.register (hfull : h.Full) : (h.register fields c).Full := by
  constructor
  · intro t users hlookup
    unfold Hub.register at hlookup
    by_cases ht : t = fields.tenantId c
    · subst ht
      rw [AList.lookup_insert] at hlookup
      cases hlookup
      exact insert_ne_empty _ _ _
    · rw [AList.lookup_insert_ne ht] at hlookup
      exact hfull.users t users hlookup
  · intro t u sockets hlookup
    rw [socketsOf_register] at hlookup
    split at hlookup
    · cases hlookup
      exact insert_ne_empty _ _ _
    · exact hfull.sockets t u sockets hlookup

theorem Full.unregister (hfull : h.Full) : (h.unregister fields c).Full := by
  constructor
  · intro t users hlookup
    unfold Hub.unregister at hlookup
    cases husers : h.lookup (fields.tenantId c) with
    | none =>
        rw [husers] at hlookup
        exact hfull.users t users hlookup
    | some old =>
        simp only [husers] at hlookup
        by_cases ht : t = fields.tenantId c
        · subst ht
          split at hlookup
          · rw [AList.lookup_erase] at hlookup
            cases hlookup
          · rename_i he
            rw [AList.lookup_insert] at hlookup
            cases hlookup
            exact fun hempty => he (GoMap.isEmpty_iff.mpr hempty)
        · split at hlookup
          · rw [AList.lookup_erase_ne ht] at hlookup
            exact hfull.users t users hlookup
          · rw [AList.lookup_insert_ne ht] at hlookup
            exact hfull.users t users hlookup
  · intro t u sockets hlookup
    rw [socketsOf_unregister] at hlookup
    split at hlookup
    · obtain ⟨old, -, hpruned⟩ := Option.bind_eq_some_iff.mp hlookup
      unfold pruned at hpruned
      split at hpruned
      · cases hpruned
      · rename_i he
        cases hpruned
        exact fun hempty => he (GoMap.isEmpty_iff.mpr hempty)
    · exact hfull.sockets t u sockets hlookup

/-! ## What the loops visit -/

omit [DecidableEq P] in
theorem mem_userClients : c ∈ h.userClients t u ↔ h.Holds t u c := by
  unfold userClients Holds
  cases h.socketsOf t u with
  | none => simp
  | some sockets => simp [AList.mem_keys]

omit [DecidableEq P] in
theorem userClients_nodup : (h.userClients t u).Nodup := by
  unfold userClients
  split
  · exact List.nodup_nil
  · exact AList.keys_nodup _

omit [DecidableEq P] in
theorem mem_tenantClients : c ∈ h.tenantClients t ↔ ∃ u, h.Holds t u c := by
  unfold tenantClients Holds socketsOf
  cases h.lookup t with
  | none => simp
  | some users =>
      simp only [List.mem_flatMap, Option.bind_some]
      constructor
      · rintro ⟨⟨u, sockets⟩, hentry, hc⟩
        exact ⟨u, sockets, AList.mem_lookup_iff.mpr hentry, hc⟩
      · rintro ⟨u, sockets, hlookup, hc⟩
        exact ⟨⟨u, sockets⟩, AList.mem_lookup_iff.mp hlookup, hc⟩

omit [DecidableEq P] in
/-- No client stands under two users. -/
theorem tenantClients_nodup (hone : ∀ u u' c, h.Holds t u c → h.Holds t u' c → u = u') :
    (h.tenantClients t).Nodup := by
  unfold tenantClients
  cases husers : h.lookup t with
  | none => exact List.nodup_nil
  | some users =>
      have hholds : ∀ entry ∈ users.entries, ∀ c ∈ entry.2.keys, h.Holds t entry.1 c := by
        rintro ⟨u, sockets⟩ hentry c hc
        refine ⟨sockets, ?_, hc⟩
        unfold socketsOf
        rw [husers]
        exact AList.mem_lookup_iff.mpr hentry
      rw [List.nodup_flatMap]
      refine ⟨fun entry _ => AList.keys_nodup _, ?_⟩
      have hkeys := List.nodupKeys_iff_pairwise.mp users.nodupKeys
      refine hkeys.imp_of_mem fun {x y} hx hy hne => ?_
      intro c hcx hcy
      exact hne (hone _ _ c (hholds x hx c hcx) (hholds y hy c hcy))

end Hub

/-! ## Sequences of calls -/

namespace HubCall

variable {fields : Fields P T U} {calls : List (HubCall T U P F)} {c : P}

omit [DecidableEq T] [DecidableEq U] [DecidableEq P] in
theorem registered_snoc (call : HubCall T U P F) : Registered (calls ++ [call]) c ↔
    call = register c ∨ (call ≠ unregister c ∧ Registered calls c) := by
  constructor
  · rintro ⟨before, after, hcalls, hnot⟩
    rcases List.eq_nil_or_concat after with rfl | ⟨rest, last, rfl⟩
    · obtain ⟨-, hcall⟩ := List.append_inj' hcalls rfl
      exact .inl (List.head_eq_of_cons_eq hcall)
    · have hsplit : calls ++ [call] = (before ++ register c :: rest) ++ [last] := by
        rw [hcalls]
        simp
      obtain ⟨hinit, hlast⟩ := List.append_inj' hsplit rfl
      have hcall : call = last := List.head_eq_of_cons_eq hlast
      refine .inr ⟨fun heq => hnot ?_, before, rest, hinit, fun hmem => hnot ?_⟩
      · rw [← heq, hcall]
        simp
      · simp [hmem]
  · rintro (rfl | ⟨hne, before, after, rfl, hnot⟩)
    · exact ⟨calls, [], rfl, List.not_mem_nil⟩
    · refine ⟨before, after ++ [call], by simp, fun hmem => ?_⟩
      rcases List.mem_append.mp hmem with hmem | hmem
      · exact hnot hmem
      · exact hne (List.mem_singleton.mp hmem).symm

theorem run_snoc (call : HubCall T U P F) :
    run fields (calls ++ [call]) = call.apply fields (run fields calls) := by
  unfold run
  rw [List.foldl_append]
  rfl

theorem full_run : (run fields calls).Full := by
  induction calls using List.reverseRecOn with
  | nil => exact Hub.full_empty
  | append_singleton calls call ih =>
      rw [run_snoc]
      cases call with
      | register d => exact ih.register
      | unregister d => exact ih.unregister
      | sendToUser | broadcastTenant | dropUser | dropTenant => exact ih

theorem holds_run {t : T} {u : U} : (run fields calls).Holds t u c ↔
    Registered calls c ∧ fields.tenantId c = t ∧ fields.userId c = u := by
  induction calls using List.reverseRecOn with
  | nil =>
      constructor
      · rintro ⟨sockets, hlookup, -⟩
        cases hlookup
      · rintro ⟨⟨before, after, hcalls, -⟩, -⟩
        cases before <;> cases hcalls
  | append_singleton calls call ih =>
      rw [run_snoc, registered_snoc]
      cases call with
      | register d =>
          show (Hub.register fields d _).Holds t u c ↔ _
          rw [Hub.holds_register, ih]
          constructor
          · rintro (⟨rfl, rfl, rfl⟩ | ⟨hreg, ht, hu⟩)
            · exact ⟨.inl rfl, rfl, rfl⟩
            · exact ⟨.inr ⟨nofun, hreg⟩, ht, hu⟩
          · rintro ⟨hd | ⟨-, hreg⟩, ht, hu⟩
            · cases hd
              exact .inl ⟨rfl, ht.symm, hu.symm⟩
            · exact .inr ⟨hreg, ht, hu⟩
      | unregister d =>
          show (Hub.unregister fields d _).Holds t u c ↔ _
          rw [Hub.holds_unregister, ih]
          constructor
          · rintro ⟨⟨hreg, ht, hu⟩, hnot⟩
            refine ⟨.inr ⟨fun heq => ?_, hreg⟩, ht, hu⟩
            cases heq
            exact hnot ⟨rfl, ht.symm, hu.symm⟩
          · rintro ⟨heq | ⟨hne, hreg⟩, ht, hu⟩
            · cases heq
            · refine ⟨⟨hreg, ht, hu⟩, ?_⟩
              rintro ⟨rfl, -⟩
              exact hne rfl
      | sendToUser | broadcastTenant | dropUser | dropTenant =>
          show (run fields calls).Holds t u c ↔ _
          rw [ih]
          simp

/-- The frame of the call is meant for the client. -/
def Addresses (fields : Fields P T U) (logout : String → F) :
    HubCall T U P F → P → F → Prop
  | register _, _, _ | unregister _, _, _ => False
  | sendToUser tenantId userId message, c, frame =>
      frame = message ∧ fields.tenantId c = tenantId ∧ fields.userId c = userId
  | broadcastTenant tenantId message, c, frame =>
      frame = message ∧ fields.tenantId c = tenantId
  | dropUser tenantId userId, c, frame =>
      frame = logout "account_disabled" ∧ fields.tenantId c = tenantId ∧ fields.userId c = userId
  | dropTenant tenantId, c, frame =>
      frame = logout "tenant_suspended" ∧ fields.tenantId c = tenantId

theorem mem_userClients_run {t : T} {u : U} : c ∈ (run fields calls).userClients t u ↔
    Registered calls c ∧ fields.tenantId c = t ∧ fields.userId c = u :=
  Hub.mem_userClients.trans holds_run

theorem mem_tenantClients_run {t : T} : c ∈ (run fields calls).tenantClients t ↔
    Registered calls c ∧ fields.tenantId c = t := by
  rw [Hub.mem_tenantClients]
  constructor
  · rintro ⟨u, hholds⟩
    obtain ⟨hreg, ht, -⟩ := holds_run.mp hholds
    exact ⟨hreg, ht⟩
  · rintro ⟨hreg, ht⟩
    exact ⟨fields.userId c, holds_run.mpr ⟨hreg, ht, rfl⟩⟩

theorem tenantClients_run_nodup (t : T) : ((run fields calls).tenantClients t).Nodup := by
  refine Hub.tenantClients_nodup fun u u' c hu hu' => ?_
  obtain ⟨-, -, rfl⟩ := holds_run.mp hu
  exact (holds_run.mp hu').2.2

omit [DecidableEq P] in
theorem mem_pairs {l : List P} {message frame : F} :
    (c, frame) ∈ l.map (·, message) ↔ c ∈ l ∧ frame = message := by
  simp [eq_comm]

omit [DecidableEq P] in
theorem pairs_nodup {l : List P} (h : l.Nodup) (message : F) : (l.map (·, message)).Nodup :=
  h.map fun _ _ heq => congrArg Prod.fst heq

/-- The hub holds exactly the registered clients, no level of it is empty, and a frame is
offered once to each client it is meant for and to no other. -/
theorem hub_is_live_registrations (fields : Fields P T U) (logout : String → F)
    (calls : List (HubCall T U P F)) :
    (∀ t u c, (run fields calls).Holds t u c ↔
      Registered calls c ∧ fields.tenantId c = t ∧ fields.userId c = u) ∧
    (run fields calls).Full ∧
    ∀ call : HubCall T U P F, (call.offers logout (run fields calls)).Nodup ∧
      ∀ c frame, (c, frame) ∈ call.offers logout (run fields calls) ↔
        Registered calls c ∧ call.Addresses fields logout c frame := by
  refine ⟨fun t u c => holds_run, full_run, fun call => ?_⟩
  cases call with
  | register d | unregister d => exact ⟨List.nodup_nil, fun c frame => by simp [offers, Addresses]⟩
  | sendToUser t u message | dropUser t u =>
      refine ⟨pairs_nodup Hub.userClients_nodup _, fun c frame => ?_⟩
      show (c, frame) ∈ (Hub.userClients _ t u).map (·, _) ↔ _
      rw [mem_pairs, mem_userClients_run]
      simp only [Addresses]
      tauto
  | broadcastTenant t message | dropTenant t =>
      refine ⟨pairs_nodup (tenantClients_run_nodup t) _, fun c frame => ?_⟩
      show (c, frame) ∈ (Hub.tenantClients _ t).map (·, _) ↔ _
      rw [mem_pairs, mem_tenantClients_run]
      simp only [Addresses]
      tauto

end HubCall
end Hub

/-! ## The list of entries -/

section Entries

variable {F : Type}

/-- An entry of `Server.conns` stands for its client. -/
def Conn.fields : Fields Conn (Option Uuid) Uuid where
  tenantId := Conn.tenantId
  userId := Conn.userId

/-- What `World.register` and `World.unregister` do to the list of entries. -/
def HubCall.entries (conns : List Conn) : HubCall (Option Uuid) Uuid Conn F → List Conn
  | register c => if c ∈ conns then conns else conns ++ [c]
  | unregister c => conns.filter (· ≠ c)
  | sendToUser .. | broadcastTenant .. | dropUser .. | dropTenant _ => conns

theorem register_conns (w : World) (k : Nat) (c : Client) :
    ((w.register k c).servers c.server).conns =
      HubCall.entries (w.servers c.server).conns
        (.register (World.entry k c) : HubCall (Option Uuid) Uuid Conn F) := by
  simp [World.register, World.setServer, HubCall.entries]

theorem unregister_conns (w : World) (k : Nat) (c : Client) :
    ((w.unregister k c).servers c.server).conns =
      HubCall.entries (w.servers c.server).conns
        (.unregister (World.entry k c) : HubCall (Option Uuid) Uuid Conn F) := by
  simp [World.unregister, World.setServer, HubCall.entries]

theorem mem_entries {calls : List (HubCall (Option Uuid) Uuid Conn F)} {c : Conn} :
    c ∈ calls.foldl HubCall.entries [] ↔ HubCall.Registered calls c := by
  induction calls using List.reverseRecOn with
  | nil =>
      constructor
      · intro hmem
        cases hmem
      · rintro ⟨before, after, hcalls, -⟩
        cases before <;> cases hcalls
  | append_singleton calls call ih =>
      rw [List.foldl_append, HubCall.registered_snoc, ← ih]
      show c ∈ HubCall.entries _ call ↔ _
      cases call with
      | register d =>
          simp only [HubCall.entries, HubCall.register.injEq, ne_eq, reduceCtorEq,
            not_false_eq_true, true_and]
          split
          · rename_i hd
            constructor
            · exact .inr
            · rintro (rfl | hc)
              · exact hd
              · exact hc
          · simp [or_comm, eq_comm]
      | unregister d =>
          simp only [HubCall.entries, List.mem_filter, ne_eq, decide_not, Bool.not_eq_true',
            decide_eq_false_iff_not, reduceCtorEq, HubCall.unregister.injEq, false_or]
          constructor
          · rintro ⟨hc, hne⟩
            exact ⟨fun heq => hne heq.symm, hc⟩
          · rintro ⟨hne, hc⟩
            exact ⟨hc, fun heq => hne heq.symm⟩
      | sendToUser | broadcastTenant | dropUser | dropTenant => simp [HubCall.entries]

/-- The loops over the list of entries visit the sockets that the loops over the maps
visit. -/
theorem sockets_of_hub {calls : List (HubCall (Option Uuid) Uuid Conn F)} {s : Server}
    (hs : s.conns = calls.foldl HubCall.entries []) (t : Option Uuid) (u : Uuid) (k : Nat) :
    (k ∈ s.userSockets t u ↔
      k ∈ ((HubCall.run Conn.fields calls).userClients t u).map Conn.socket) ∧
    (k ∈ s.tenantSockets t ↔
      k ∈ ((HubCall.run Conn.fields calls).tenantClients t).map Conn.socket) := by
  unfold Server.userSockets Server.tenantSockets
  simp only [hs, List.mem_map, List.mem_filter, mem_entries, HubCall.mem_userClients_run,
    HubCall.mem_tenantClients_run, decide_eq_true_eq]
  exact ⟨Iff.rfl, Iff.rfl⟩

end Entries

end Rto
end Rcp
