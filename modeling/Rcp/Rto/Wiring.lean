/-
Where sockets stand in the hub, and how long the verifier denies.

A socket stands under the tenant and the user of the token it was opened with.  The
clock does not go back, so a later denial of a user lasts at least as long as an
earlier one.
-/
import Rcp.Rto.Steps

namespace Rcp
namespace Rto

open Sql Growth

/-- What a client is, apart from its channel and its connection. -/
def Client.core (c : Client) : Nat × Option Uuid × Uuid × Nat × Iam.Claims :=
  (c.server, c.tenantId, c.userId, c.device, c.token)

@[simp] theorem Client.core_close (c : Client) : c.close.core = c.core := rfl

@[simp] theorem Client.core_trySend (m : Frame) (c : Client) : (c.trySend m).core = c.core := by
  unfold trySend
  split <;> rfl

structure Wired (w : World) : Prop where
  /-- An entry of a hub is that of a client. -/
  conns : ∀ i conn, conn ∈ (w.servers i).conns → ∃ c, w.clients conn.socket = some c ∧
    c.server = i ∧ conn = World.entry conn.socket c
  clients : ∀ k c, w.clients k = some c → k < w.sockets ∧ c.tenantId = c.token.tenantId ∧
    c.userId = c.token.sub
  denied : ∀ i userId limit, (w.servers i).verifier.denyUser userId = some limit →
    limit ≤ w.now + denyPeriod

/-- Denials of users last. -/
structure Later (w w' : World) : Prop where
  now : w.now ≤ w'.now
  denied : ∀ i userId limit, (w.servers i).verifier.denyUser userId = some limit →
    ∃ limit', (w'.servers i).verifier.denyUser userId = some limit' ∧ limit ≤ limit'

theorem Later.refl (w : World) : Later w w := ⟨le_refl _, fun _ _ limit h => ⟨limit, h, le_refl _⟩⟩

theorem Later.trans {w w' w'' : World} (h : Later w w') (h' : Later w' w'') : Later w w'' := by
  refine ⟨le_trans h.now h'.now, fun i userId limit hlimit => ?_⟩
  obtain ⟨limit', hlimit', hle⟩ := h.denied i userId limit hlimit
  obtain ⟨limit'', hlimit'', hle'⟩ := h'.denied i userId limit' hlimit'
  exact ⟨limit'', hlimit'', le_trans hle hle'⟩

section Steps

variable {w w' : World}

/-- The hubs, the verifiers and the clock stay, and clients stay what they are. -/
theorem Wired.of_core (hw : Wired w) (hservers : w'.servers = w.servers) (hnow : w'.now = w.now)
    (hsockets : w'.sockets = w.sockets)
    (hclients : ∀ k, (w'.clients k).map Client.core = (w.clients k).map Client.core) :
    Wired w' ∧ Later w w' := by
  have hsome : ∀ k c, w.clients k = some c → ∃ c', w'.clients k = some c' ∧ c'.core = c.core := by
    intro k c hc
    have hk := hclients k
    rw [hc, Option.map_some] at hk
    obtain ⟨c', hc', hcore⟩ := Option.map_eq_some_iff.mp hk
    exact ⟨c', hc', hcore⟩
  refine ⟨⟨fun i conn hconn => ?_, fun k c hc => ?_, ?_⟩, ?_⟩
  · rw [hservers] at hconn
    obtain ⟨c, hc, rfl, hentry⟩ := hw.conns i conn hconn
    obtain ⟨c', hc', hcore⟩ := hsome _ c hc
    have hfields := Prod.mk.inj hcore
    have hkeys := Prod.mk.inj hfields.2
    refine ⟨c', hc', hfields.1, ?_⟩
    rw [hentry]
    simp only [World.entry, hkeys.1, (Prod.mk.inj hkeys.2).1]
  · have hk := hclients k
    rw [hc, Option.map_some, eq_comm] at hk
    obtain ⟨c', hc', hcore⟩ := Option.map_eq_some_iff.mp hk
    obtain ⟨hlt, htenant, huser⟩ := hw.clients k c' hc'
    simp only [Client.core, Prod.mk.injEq] at hcore
    obtain ⟨-, htenant', huser', -, htoken⟩ := hcore
    rw [hsockets, ← htenant', ← huser', ← htoken]
    exact ⟨hlt, htenant, huser⟩
  · rw [hservers, hnow]
    exact hw.denied
  · refine ⟨le_of_eq hnow.symm, fun i userId limit h => ⟨limit, ?_, le_refl _⟩⟩
    rw [hservers]
    exact h

theorem forEach_core (w : World) (sockets : List Nat) {f : Client → Client}
    (hf : ∀ c, (f c).core = c.core) (k : Nat) :
    ((w.forEach sockets f).clients k).map Client.core = (w.clients k).map Client.core := by
  simp only [World.forEach]
  split
  · rw [Option.map_map]
    congr 1
    funext c
    exact hf c
  · rfl

theorem Wired.forEach (hw : Wired w) (sockets : List Nat) {f : Client → Client}
    (hf : ∀ c, (f c).core = c.core) :
    Wired (w.forEach sockets f) ∧ Later w (w.forEach sockets f) :=
  hw.of_core rfl rfl rfl (forEach_core w sockets hf)

/-- Entries of a hub may be dropped. -/
theorem Wired.setServer (hw : Wired w) {i : Nat} {s : Server}
    (hconns : ∀ conn ∈ s.conns, conn ∈ (w.servers i).conns)
    (hdenied : ∀ userId limit, s.verifier.denyUser userId = some limit →
      limit ≤ w.now + denyPeriod)
    (hlater : ∀ userId limit, (w.servers i).verifier.denyUser userId = some limit →
      ∃ limit', s.verifier.denyUser userId = some limit' ∧ limit ≤ limit') :
    Wired (w.setServer i s) ∧ Later w (w.setServer i s) := by
  refine ⟨⟨fun j conn hconn => ?_, hw.clients, fun j => ?_⟩, ⟨le_refl _, fun j => ?_⟩⟩
  · by_cases hj : j = i
    · subst hj
      simp only [World.setServer, Function.update_self] at hconn
      exact hw.conns j conn (hconns conn hconn)
    · simp only [World.setServer, Function.update_of_ne hj] at hconn
      exact hw.conns j conn hconn
  · by_cases hj : j = i
    · subst hj
      simpa only [World.setServer, Function.update_self] using hdenied
    · simpa only [World.setServer, Function.update_of_ne hj] using hw.denied j
  · by_cases hj : j = i
    · subst hj
      simpa only [World.setServer, Function.update_self] using hlater
    · simp only [World.setServer, Function.update_of_ne hj]
      exact fun userId limit h => ⟨limit, h, le_refl _⟩

theorem Wired.denyUser (hw : Wired w) (server : Nat) (userId : Uuid) :
    Wired (w.denyUser server userId) ∧ Later w (w.denyUser server userId) := by
  refine hw.setServer (fun _ h => h) (fun u limit h => ?_) (fun u limit h => ?_)
  · by_cases hu : u = userId
    · simp only [hu, Function.update_self, Option.some.injEq] at h
      exact le_of_eq h.symm
    · simp only [Function.update_of_ne hu] at h
      exact hw.denied server u limit h
  · by_cases hu : u = userId
    · subst hu
      exact ⟨_, Function.update_self .., hw.denied server u limit h⟩
    · exact ⟨limit, by simpa only [Function.update_of_ne hu] using h, le_refl _⟩

theorem Wired.openSocket (hw : Wired w) {c : Client}
    (htoken : c.tenantId = c.token.tenantId ∧ c.userId = c.token.sub) :
    Wired (w.openSocket c) ∧ Later w (w.openSocket c) := by
  have hfree : ∀ k c', w.clients k = some c' → k ≠ w.sockets :=
    fun k c' hk => Nat.ne_of_lt (hw.clients k c' hk).1
  have hold : ∀ k c', w.clients k = some c' → (w.openSocket c).clients k = some c' := by
    intro k c' hk
    show Function.update w.clients w.sockets (some c) k = some c'
    rw [Function.update_of_ne (hfree k c' hk)]
    exact hk
  have hkeep : ∀ i conn, conn ∈ (w.servers i).conns → ∃ c', (w.openSocket c).clients conn.socket =
      some c' ∧ c'.server = i ∧ conn = World.entry conn.socket c' := by
    intro i conn hconn
    obtain ⟨c', hc', hi, hentry⟩ := hw.conns i conn hconn
    exact ⟨c', hold _ c' hc', hi, hentry⟩
  have hverifier : ∀ i, ((w.openSocket c).servers i).verifier = (w.servers i).verifier := by
    intro i
    by_cases hi : i = c.server
    · subst hi
      simp only [World.openSocket, World.register, World.setServer, Function.update_self]
    · simp only [World.openSocket, World.register, World.setServer, Function.update_of_ne hi]
  refine ⟨⟨fun i conn hconn => ?_, fun k c' hc' => ?_, fun i => ?_⟩, ⟨le_refl _, fun i => ?_⟩⟩
  · by_cases hi : i = c.server
    · subst hi
      simp only [World.openSocket, World.register, World.setServer, Function.update_self] at hconn
      split at hconn
      · exact hkeep _ conn hconn
      · rcases List.mem_append.mp hconn with hconn | hconn
        · exact hkeep _ conn hconn
        · rw [List.mem_singleton.mp hconn]
          exact ⟨c, Function.update_self .., rfl, rfl⟩
    · simp only [World.openSocket, World.register, World.setServer,
        Function.update_of_ne hi] at hconn
      exact hkeep i conn hconn
  · have hk : Function.update w.clients w.sockets (some c) k = some c' := hc'
    by_cases hks : k = w.sockets
    · subst hks
      rw [Function.update_self] at hk
      cases hk
      exact ⟨Nat.lt_succ_self _, htoken⟩
    · rw [Function.update_of_ne hks] at hk
      obtain ⟨hlt, hkeys⟩ := hw.clients k c' hk
      exact ⟨Nat.lt_succ_of_lt hlt, hkeys⟩
  · rw [hverifier]
    exact hw.denied i
  · rw [hverifier]
    exact fun userId limit h => ⟨limit, h, le_refl _⟩

theorem Wired.write (hw : Wired w) {k : Nat} {t : Sid} (h : runWrite k t w = some ((), w')) :
    Wired w' ∧ Later w w' := by
  unfold runWrite at h
  split at h
  · cases h
  · rename_i c hc
    split at h
    · cases h
    · rename_i m rest hsend
      have hcore : ∀ j, (Function.update w.clients k (some { c with send := rest }) j).map
          Client.core = (w.clients j).map Client.core := by
        intro j
        by_cases hj : j = k
        · subst hj
          rw [Function.update_self, hc]
          rfl
        · rw [Function.update_of_ne hj]
      split at h
      · cases h
        exact hw.of_core rfl rfl rfl hcore
      · cases h
        exact hw.of_core rfl rfl rfl hcore

end Steps

theorem Moves.wired {P : Frame → Prop} {t : Sid} {w w' : World} (hw : Wired w)
    (h : Moves P t w w') : Wired w' ∧ Later w w' := by
  cases h with
  | stay => exact ⟨hw, .refl w⟩
  | notifications T => exact hw.of_core rfl rfl rfl fun _ => rfl
  | processedEvents T => exact hw.of_core rfl rfl rfl fun _ => rfl
  | devices T => exact hw.of_core rfl rfl rfl fun _ => rfl
  | append row => exact hw.of_core rfl rfl rfl fun _ => rfl
  | commit => exact hw.of_core rfl rfl rfl fun _ => rfl
  | send sockets message _ => exact hw.forEach sockets (Client.core_trySend message)
  | drop sockets reason => exact hw.forEach sockets fun c => by simp
  | close sockets => exact hw.forEach sockets Client.core_close
  | push pushed => exact hw.of_core rfl rfl rfl fun _ => rfl
  | denyUser server userId => exact hw.denyUser server userId
  | denyJti server jti =>
      exact hw.setServer (fun _ h => h) (hw.denied server) fun _ limit h => ⟨limit, h, le_refl _⟩
  | opened c _ htoken => exact hw.openSocket htoken
  | unregister k c =>
      exact hw.setServer (fun _ h => (List.mem_filter.mp h).1) (hw.denied _)
        fun _ limit h => ⟨limit, h, le_refl _⟩
  | write k h => exact hw.write h
  | tick span =>
      have hle : w.now ≤ w.now + span := Int.le_add_of_nonneg_right (Int.natCast_nonneg span)
      refine ⟨⟨hw.conns, hw.clients, fun i userId limit h => ?_⟩, ⟨hle, fun _ _ limit h =>
        ⟨limit, h, le_refl _⟩⟩⟩
      exact le_trans (hw.denied i userId limit h) (Int.add_le_add_right hle denyPeriod)

def wiring : Growth World where
  Inv := Wired
  Le := Later
  refl := Later.refl
  trans _ _ _ := Later.trans
  rollback _ _ hw := hw.of_core rfl rfl rfl fun _ => rfl

theorem takes_wiring (a : Call) {w : World} (hw : Wired w) :
    wiring.Takes (fun _ _ => True) a.body w := by
  have honly : a.body.Only (Moves fun _ => True) := by
    by_cases h : ∀ socket frame, a ≠ .sync socket frame
    · exact (only_plain h).mono fun _ _ _ hm => hm.mono fun _ _ => trivial
    · push Not at h
      obtain ⟨socket, frame, rfl⟩ := h
      exact only_handleSync socket frame
  exact takes_only honly (fun _ _ _ hw hm => hm.wired hw) hw

theorem initial_wired (now : Time) : Wired (World.initial now) where
  conns := fun _ _ h => by cases h
  clients := fun _ _ h => by cases h
  denied := fun _ _ _ h => by cases h

theorem wiring_verified : (wiring.discipline (ε := Error) (fun (_ : Call) (_ : Unit) _ => True)
    fun _ _ _ _ _ _ => trivial).Verified (fun _ _ _ _ => True) Call.body :=
  verified fun a _ hw _ => takes_wiring a hw

theorem wiring_sound {now : Time} {c : Config World Error Unit Call}
    (h : Run Call.body (Config.start (World.initial now)) c) :
    c.Sound (wiring.discipline (fun _ _ _ => True) fun _ _ _ _ _ _ => trivial)
      fun _ _ _ _ => True :=
  Run.sound wiring_verified (Config.start_sound (initial_wired now) fun _ => trivial) h

end Rto
end Rcp
