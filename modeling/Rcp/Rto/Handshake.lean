/-
A handshake that meets a revocation.

The goroutine of the handshake verifies the token, upgrades the connection and registers the
socket; the goroutine of the consumer denies the user, takes a snapshot of the sockets of the
user and closes these.  Each of the steps is atomic, since the verifier and the hub have a lock
each, and the steps of the two goroutines interleave in any order while time passes.  Run without
interruption they are `connect` and `revokeUser`.
-/
import Rcp.Iam.Services
import Rcp.Rto.Revocation

namespace Rcp
namespace Rto

open Sql Growth

/-! ## Subsequences -/

section Subsequence

variable {α : Type} [DecidableEq α]

/-- What is left of a pattern after one more element. -/
def advance : List α → α → List α
  | [], _ => []
  | a :: rest, x => if a = x then rest else a :: rest

/-- What is left of a pattern that is matched greedily. -/
def remaining (p l : List α) : List α := l.foldl advance p

@[simp] theorem remaining_snoc (p l : List α) (x : α) :
    remaining p (l ++ [x]) = advance (remaining p l) x := by
  simp [remaining]

theorem mem_advance {p : List α} {a x : α} (h : a ∈ p) (hne : a ≠ x) : a ∈ advance p x := by
  cases p with
  | nil => cases h
  | cons b rest =>
      show a ∈ if b = x then rest else b :: rest
      split
      · rename_i hb
        rcases List.mem_cons.mp h with rfl | hrest
        · exact absurd hb hne
        · exact hrest
      · exact h

theorem remaining_eq_nil_iff (p l : List α) : remaining p l = [] ↔ p.Sublist l := by
  induction l generalizing p with
  | nil => simp [remaining]
  | cons x rest ih =>
      have hstep : remaining p (x :: rest) = remaining (advance p x) rest := rfl
      rw [hstep, ih]
      cases p with
      | nil => simp [advance]
      | cons a p =>
          show (if a = x then p else a :: p).Sublist rest ↔ _
          split
          · rename_i ha
            subst ha
            exact List.cons_sublist_cons.symm
          · rename_i ha
            constructor
            · exact fun h => h.cons x
            · exact fun h => h.of_cons_of_ne ha

end Subsequence

/-! ## The two goroutines -/

/-- Where the handshake stands. -/
inductive Handshake
  | verify
  | upgrade (claims : Claims)
  | register (claims : Claims)
  | opened (socket : Nat)
  | refused

/-- Where the revocation stands. -/
inductive Revocation
  | deny
  | snapshot
  | close (victims : List Nat)
  | done

inductive Turn
  | verify
  | upgrade
  | register
  | deny
  | snapshot
  | close
  | tick (span : Nat)
  deriving DecidableEq

structure Race where
  world : World
  handshake : Handshake := .verify
  revocation : Revocation := .deny

namespace Race

variable (server : Nat) (token : Iam.Claims) (device : Nat)

/-- The client that the handshake makes. -/
def client (claims : Claims) : Client :=
  { server := server
    tenantId := claims.tenantId
    userId := claims.userId
    device := device
    token := token }

/-- One step.  It is taken only where its goroutine stands. -/
def turn (r : Race) : Turn → Option Race
  | .verify =>
      match r.handshake with
      | .verify =>
          match (r.world.servers server).verifier.verify r.world.now token with
          | .error _ => some { r with handshake := .refused }
          | .ok claims => some { r with handshake := .upgrade claims }
      | _ => none
  | .upgrade =>
      match r.handshake with
      | .upgrade claims => some { r with handshake := .register claims }
      | _ => none
  | .register =>
      match r.handshake with
      | .register claims => some { r with
          world := r.world.openSocket (client server token device claims)
          handshake := .opened r.world.sockets }
      | _ => none
  | .deny =>
      match r.revocation with
      | .deny => some { r with
          world := r.world.denyUser server token.sub
          revocation := .snapshot }
      | _ => none
  | .snapshot =>
      match r.revocation with
      | .snapshot => some { r with
          revocation := .close
            ((r.world.servers server).userSockets token.tenantId token.sub) }
      | _ => none
  | .close =>
      match r.revocation with
      | .close victims => some { r with
          world := r.world.drop victims "account_disabled"
          revocation := .done }
      | _ => none
  | .tick span => some { r with world := { r.world with now := r.world.now + span } }

def play : Race → List Turn → Option Race
  | r, [] => some r
  | r, x :: rest => (turn server token device r x).bind fun r' => play r' rest

end Race

/-- Both goroutines have come to an end. -/
def Race.Ended (r : Race) : Prop :=
  (r.handshake = .refused ∨ ∃ k, r.handshake = .opened k) ∧ r.revocation = .done

/-- The socket of the handshake is open. -/
def Race.Live (r : Race) : Prop :=
  ∃ k c, r.handshake = .opened k ∧ r.world.clients k = some c ∧ c.closed = false

section Alone

variable {server : Nat} {token : Iam.Claims} {device : Nat} {w : World} {r : Race}

/-- The handshake by itself is `connect`. -/
theorem play_handshake (t : Sid)
    (h : Race.play server token device { world := w } [.verify, .upgrade, .register] = some r) :
    (connect server token device).exec t w = some (.ok (), r.world) := by
  cases hverify : (w.servers server).verifier.verify w.now token with
  | error e => simp [Race.play, Race.turn, hverify] at h
  | ok claims =>
      simp only [Race.play, Race.turn, hverify, Option.bind_some, Option.some.injEq] at h
      subst h
      show (match (w.servers server).verifier.verify w.now token with
        | .error e => Prog.raise e
        | .ok claims => effect fun w => ((), w.openSocket
            (Race.client server token device claims))).exec t w = _
      rw [hverify]
      rfl

/-- The revocation by itself is `revokeUser`. -/
theorem play_revocation (t : Sid)
    (h : Race.play server token device { world := w } [.deny, .snapshot, .close] = some r) :
    (revokeUser server token.tenantId (some token.sub)).exec t w = some (.ok (), r.world) := by
  simp only [Race.play, Race.turn, Option.bind_some, Option.some.injEq] at h
  subst h
  rfl

end Alone

/-! ## The order of the steps -/

/-- The handshake straddles the revocation. -/
def straddling : List Turn := [.verify, .deny, .snapshot, .register]

/-- Arithmetic of a token that was issued before the denial. -/
theorem expired_of_undenied {exp start now limit : Int} (hexp : exp ≤ start + Iam.accessTokenTtl)
    (hlimit : start + denyPeriod ≤ limit) (hnow : limit ≤ now) :
    ¬ now < exp / 1000000 * 1000000 + leeway := by
  have httl : Iam.accessTokenTtl = 900000000 := rfl
  have hperiod : denyPeriod = 1800000000 := rfl
  have hleeway : leeway = 60000000 := rfl
  rw [httl] at hexp
  rw [hperiod] at hlimit
  rw [hleeway]
  omega

/-- After the denial of the user the token is refused: the denial lasts longer than the token. -/
theorem verify_after_denial {v : Verifier} {now start limit : Time} {token : Iam.Claims}
    (hissued : token.exp ≤ start + Iam.accessTokenTtl)
    (hdenied : v.denyUser token.sub = some limit) (hlimit : start + denyPeriod ≤ limit) :
    ∃ e, v.verify now token = .error e := by
  by_cases hnow : now < limit
  · exact verify_denied hdenied hnow
  · have hexpired : ¬ now < (Verifier.claims token).expires + leeway :=
      expired_of_undenied hissued hlimit (Int.not_lt.mp hnow)
    refine ⟨.invalidToken, ?_⟩
    unfold Verifier.verify
    rw [if_pos (.inr (.inr hexpired))]

section Order

variable (server : Nat) (token : Iam.Claims)

/-- The socket was registered before the snapshot: the snapshot has it or will have it. -/
def Early (k : Nat) (c : Client) (w : World) : Revocation → Prop
  | .deny | .snapshot => k ∈ (w.servers server).userSockets token.tenantId token.sub
  | .close victims => k ∈ victims
  | .done => c.closed = true

/-- The socket was registered after the snapshot. -/
def Late (k : Nat) (c : Client) : Revocation → Prop
  | .deny | .snapshot => False
  | .close victims => k ∉ victims ∧ c.closed = false
  | .done => c.closed = false

/-- What is left of the straddling order while the handshake waits to register. -/
def waiting : Revocation → List Turn
  | .deny => [.deny, .snapshot, .register]
  | .snapshot => [.snapshot, .register]
  | .close _ | .done => [.register]

/-- The steps taken so far have led to the stage of the handshake. -/
def Ordered (l : List Turn) (r : Race) : Prop :=
  match r.handshake with
  | .verify => remaining straddling l = straddling
  | .upgrade claims | .register claims =>
      claims = Verifier.claims token ∧ remaining straddling l = waiting r.revocation
  | .opened k => ∃ c, r.world.clients k = some c ∧
      ((Turn.register ∈ remaining straddling l ∧ Early server token k c r.world r.revocation) ∨
        (remaining straddling l = [] ∧ Late k c r.revocation))
  | .refused => Turn.register ∈ remaining straddling l

structure RaceInv (start : Time) (l : List Turn) (r : Race) : Prop where
  wired : Wired r.world
  now : start ≤ r.world.now
  denied : r.revocation = .deny ∨ ∃ limit,
    (r.world.servers server).verifier.denyUser token.sub = some limit ∧
      start + denyPeriod ≤ limit
  victims : ∀ victims, r.revocation = .close victims → ∀ k ∈ victims, k < r.world.sockets
  ordered : Ordered server token l r

end Order

section Turns

variable {server : Nat} {token : Iam.Claims} {device : Nat} {start : Time} {l : List Turn}
  {r r' : Race}

/-- A denial lasts. -/
theorem denied_later {w w' : World} (hlater : Later w w')
    (h : ∃ limit, (w.servers server).verifier.denyUser token.sub = some limit ∧
      start + denyPeriod ≤ limit) :
    ∃ limit, (w'.servers server).verifier.denyUser token.sub = some limit ∧
      start + denyPeriod ≤ limit := by
  obtain ⟨limit, hlimit, hle⟩ := h
  obtain ⟨limit', hlimit', hle'⟩ := hlater.denied server token.sub limit hlimit
  exact ⟨limit', hlimit', le_trans hle hle'⟩

/-- A token that is accepted is accepted before the denial. -/
theorem RaceInv.turn_verify (hissued : token.exp ≤ start + Iam.accessTokenTtl)
    (h : RaceInv server token start l r)
    (hturn : Race.turn server token device r .verify = some r') :
    RaceInv server token start (l ++ [.verify]) r' := by
  obtain ⟨world, handshake, revocation⟩ := r
  cases handshake with
  | verify =>
      have hleft : remaining straddling l = straddling := h.ordered
      simp only [Race.turn] at hturn
      split at hturn
      · cases hturn
        refine ⟨h.wired, h.now, h.denied, h.victims, ?_⟩
        show Turn.register ∈ remaining straddling (l ++ [Turn.verify])
        rw [remaining_snoc, hleft]
        decide
      · rename_i claims hverify
        cases hturn
        refine ⟨h.wired, h.now, h.denied, h.victims, verify_claims hverify, ?_⟩
        rcases h.denied with rfl | ⟨limit, hlimit, hle⟩
        · rw [remaining_snoc, hleft]
          rfl
        · obtain ⟨e, he⟩ := verify_after_denial hissued hlimit hle
          rw [he] at hverify
          cases hverify
  | upgrade claims => cases hturn
  | register claims => cases hturn
  | opened k => cases hturn
  | refused => cases hturn

theorem RaceInv.turn_upgrade (h : RaceInv server token start l r)
    (hturn : Race.turn server token device r .upgrade = some r') :
    RaceInv server token start (l ++ [.upgrade]) r' := by
  obtain ⟨world, handshake, revocation⟩ := r
  cases handshake with
  | upgrade claims =>
      cases hturn
      obtain ⟨hclaims, hleft⟩ := h.ordered
      refine ⟨h.wired, h.now, h.denied, h.victims, hclaims, ?_⟩
      rw [remaining_snoc, hleft]
      cases revocation with
      | deny => rfl
      | snapshot => rfl
      | close victims => rfl
      | done => rfl
  | verify => cases hturn
  | register claims => cases hturn
  | opened k => cases hturn
  | refused => cases hturn

theorem openSocket_registered (w : World) (c : Client) :
    World.entry w.sockets c ∈ ((w.openSocket c).servers c.server).conns := by
  simp only [World.openSocket, World.register, World.setServer, Function.update_self]
  split
  · assumption
  · exact List.mem_append_right _ (List.mem_singleton_self _)

/-- The socket is early or late as the snapshot is still to be taken or not. -/
theorem RaceInv.turn_register (h : RaceInv server token start l r)
    (hturn : Race.turn server token device r .register = some r') :
    RaceInv server token start (l ++ [.register]) r' := by
  obtain ⟨world, handshake, revocation⟩ := r
  cases handshake with
  | register claims =>
      cases hturn
      obtain ⟨rfl, hleft⟩ := h.ordered
      have hopen := h.wired.openSocket
        (show (Race.client server token device (Verifier.claims token)).tenantId = _ ∧ _ from
          ⟨rfl, rfl⟩)
      have hvictims : ∀ victims, revocation = .close victims → world.sockets ∉ victims := by
        intro victims hclose hmem
        exact Nat.lt_irrefl _ (h.victims victims hclose _ hmem)
      refine ⟨hopen.1, le_trans h.now hopen.2.now, h.denied.imp_right (denied_later hopen.2),
        fun victims hclose k hk => Nat.lt_succ_of_lt (h.victims victims hclose k hk), ?_⟩
      refine ⟨_, Function.update_self .., ?_⟩
      rw [remaining_snoc, hleft]
      have hregistered := mem_userSockets.mpr (openSocket_registered world
        (Race.client server token device (Verifier.claims token)))
      have hdeny : Turn.register ∈ advance (waiting .deny) .register := by decide
      have hsnapshot : Turn.register ∈ advance (waiting .snapshot) .register := by decide
      cases revocation with
      | deny => exact .inl ⟨hdeny, hregistered⟩
      | snapshot => exact .inl ⟨hsnapshot, hregistered⟩
      | close victims => exact .inr ⟨rfl, hvictims victims rfl, rfl⟩
      | done => exact .inr ⟨rfl, rfl⟩
  | verify => cases hturn
  | upgrade claims => cases hturn
  | opened k => cases hturn
  | refused => cases hturn

/-- The order is kept by a step of the revocation that keeps the socket early or late. -/
theorem Ordered.revocation {w w' : World} {handshake : Handshake} {before after : Revocation}
    {x : Turn} (hx : x ≠ .verify ∧ x ≠ .register)
    (h : Ordered server token l { world := w, handshake := handshake, revocation := before })
    (hwaiting : advance (waiting before) x = waiting after)
    (hopened : ∀ k c, w.clients k = some c → ∃ c', w'.clients k = some c' ∧
      (Early server token k c w before → Early server token k c' w' after) ∧
      (Late k c before → Late k c' after)) :
    Ordered server token (l ++ [x])
      { world := w', handshake := handshake, revocation := after } := by
  cases handshake with
  | verify =>
      show remaining straddling (l ++ [x]) = straddling
      rw [remaining_snoc, show remaining straddling l = straddling from h]
      exact if_neg (Ne.symm hx.1)
  | upgrade claims =>
      refine ⟨h.1, ?_⟩
      rw [remaining_snoc, h.2]
      exact hwaiting
  | register claims =>
      refine ⟨h.1, ?_⟩
      rw [remaining_snoc, h.2]
      exact hwaiting
  | opened k =>
      obtain ⟨c, hc, hcases⟩ := h
      obtain ⟨c', hc', hearly, hlate⟩ := hopened k c hc
      refine ⟨c', hc', ?_⟩
      rw [remaining_snoc]
      rcases hcases with ⟨hleft, hcase⟩ | ⟨hleft, hcase⟩
      · exact .inl ⟨mem_advance hleft (Ne.symm hx.2), hearly hcase⟩
      · rw [hleft]
        exact .inr ⟨rfl, hlate hcase⟩
  | refused =>
      show Turn.register ∈ remaining straddling (l ++ [x])
      rw [remaining_snoc]
      exact mem_advance h (Ne.symm hx.2)

theorem RaceInv.turn_deny (h : RaceInv server token start l r)
    (hturn : Race.turn server token device r .deny = some r') :
    RaceInv server token start (l ++ [.deny]) r' := by
  obtain ⟨world, handshake, revocation⟩ := r
  cases revocation with
  | deny =>
      cases hturn
      have hdeny := h.wired.denyUser server token.sub
      have hlimit : ((world.denyUser server token.sub).servers server).verifier.denyUser
          token.sub = some (world.now + denyPeriod) := by
        simp only [World.denyUser, World.setServer, Function.update_self]
      refine ⟨hdeny.1, h.now, .inr ⟨_, hlimit, Int.add_le_add_right h.now _⟩, ?_, ?_⟩
      · intro victims hclose
        cases hclose
      · refine Ordered.revocation ⟨by decide, by decide⟩ h.ordered rfl fun k c hc => ?_
        refine ⟨c, hc, fun hearly => ?_, fun hlate => hlate⟩
        rw [Early, mem_userSockets, denyUser_conns]
        exact mem_userSockets.mp hearly
  | snapshot => cases hturn
  | close victims => cases hturn
  | done => cases hturn

theorem RaceInv.turn_snapshot (h : RaceInv server token start l r)
    (hturn : Race.turn server token device r .snapshot = some r') :
    RaceInv server token start (l ++ [.snapshot]) r' := by
  obtain ⟨world, handshake, revocation⟩ := r
  cases revocation with
  | snapshot =>
      cases hturn
      refine ⟨h.wired, h.now, h.denied.imp_left (fun hdeny => nomatch hdeny), ?_, ?_⟩
      · intro victims hclose k hk
        cases hclose
        obtain ⟨c, hc, -, -⟩ := h.wired.conns server _ (mem_userSockets.mp hk)
        exact (h.wired.clients k c hc).1
      · refine Ordered.revocation ⟨by decide, by decide⟩ h.ordered rfl fun k c hc => ?_
        exact ⟨c, hc, fun hearly => hearly, fun hlate => hlate.elim⟩
  | deny => cases hturn
  | close victims => cases hturn
  | done => cases hturn

/-- The sockets of the snapshot are closed, and no others. -/
theorem RaceInv.turn_close (h : RaceInv server token start l r)
    (hturn : Race.turn server token device r .close = some r') :
    RaceInv server token start (l ++ [.close]) r' := by
  obtain ⟨world, handshake, revocation⟩ := r
  cases revocation with
  | close victims =>
      cases hturn
      have hdrop : Wired (world.drop victims "account_disabled") ∧
          Later world (world.drop victims "account_disabled") :=
        h.wired.forEach _ fun c => by simp
      refine ⟨hdrop.1, h.now, .inr ?_, ?_, ?_⟩
      · exact denied_later hdrop.2 (h.denied.resolve_left fun hdeny => by cases hdeny)
      · intro others hclose
        cases hclose
      · refine Ordered.revocation ⟨by decide, by decide⟩ h.ordered rfl fun k c hc => ?_
        by_cases hk : k ∈ victims
        · refine ⟨(c.trySend (.forceLogout "account_disabled")).close, ?_, fun _ => rfl,
            fun hlate => absurd hk hlate.1⟩
          simp only [World.drop, World.forEach, if_pos hk, hc, Option.map_some]
        · refine ⟨c, ?_, fun hearly => absurd hearly hk, fun hlate => hlate.2⟩
          simp only [World.drop, World.forEach, if_neg hk, hc]
  | deny => cases hturn
  | snapshot => cases hturn
  | done => cases hturn

theorem RaceInv.turn_tick (h : RaceInv server token start l r) (span : Nat)
    (hturn : Race.turn server token device r (.tick span) = some r') :
    RaceInv server token start (l ++ [.tick span]) r' := by
  obtain ⟨world, handshake, revocation⟩ := r
  cases hturn
  have htick : Wired { world with now := world.now + span } ∧
      Later world { world with now := world.now + span } :=
    Moves.wired (P := Plain) (t := 0) h.wired (.tick span)
  refine ⟨htick.1, le_trans h.now htick.2.now, h.denied, h.victims, ?_⟩
  refine Ordered.revocation ⟨by simp, by simp⟩ h.ordered ?_ fun k c hc => ?_
  · cases revocation with
    | deny => rfl
    | snapshot => rfl
    | close victims => rfl
    | done => rfl
  · refine ⟨c, hc, fun hearly => ?_, fun hlate => hlate⟩
    cases revocation with
    | deny => exact hearly
    | snapshot => exact hearly
    | close victims => exact hearly
    | done => exact hearly

theorem RaceInv.turn (hissued : token.exp ≤ start + Iam.accessTokenTtl)
    (h : RaceInv server token start l r) {x : Turn}
    (hturn : Race.turn server token device r x = some r') :
    RaceInv server token start (l ++ [x]) r' := by
  cases x with
  | verify => exact h.turn_verify hissued hturn
  | upgrade => exact h.turn_upgrade hturn
  | register => exact h.turn_register hturn
  | deny => exact h.turn_deny hturn
  | snapshot => exact h.turn_snapshot hturn
  | close => exact h.turn_close hturn
  | tick span => exact h.turn_tick span hturn

theorem RaceInv.play (hissued : token.exp ≤ start + Iam.accessTokenTtl)
    (h : RaceInv server token start l r) {turns : List Turn}
    (hplay : Race.play server token device r turns = some r') :
    RaceInv server token start (l ++ turns) r' := by
  induction turns generalizing l r with
  | nil =>
      cases hplay
      rw [List.append_nil]
      exact h
  | cons x rest ih =>
      obtain ⟨r₁, hturn, hrest⟩ := Option.bind_eq_some_iff.mp hplay
      have hstep := ih (h.turn hissued hturn) hrest
      rwa [List.append_assoc] at hstep

end Turns

/-! ## A handshake and a revocation -/

/-- For every interleaving from a reachable store, once both have come to an end the socket is
not live if and only if the handshake did not straddle the revocation: not verified before the
denial and registered after the snapshot. -/
theorem revocation_meets_handshake_iff {now : Time} {d : Config World Error Unit Call}
    (hrun : Run Call.body (Config.start (World.initial now)) d) (server : Nat)
    (token : Iam.Claims) (device : Nat)
    (hissued : token.exp ≤ d.store.now + Iam.accessTokenTtl) {turns : List Turn} {r : Race}
    (hplay : Race.play server token device { world := d.store } turns = some r)
    (hended : r.Ended) :
    ¬ r.Live ↔ ¬ [Turn.verify, .deny, .snapshot, .register].Sublist turns := by
  have hstart : RaceInv server token d.store.now [] { world := d.store } :=
    ⟨(wiring_sound hrun).inv, le_refl _, .inl rfl, fun _ hclose => (nomatch hclose), rfl⟩
  have hinv : RaceInv server token d.store.now turns r := hstart.play hissued hplay
  have hordered := hinv.ordered
  rw [not_iff_not, ← remaining_eq_nil_iff]
  obtain ⟨hend, hdone⟩ := hended
  unfold Ordered at hordered
  rcases hend with hrefused | ⟨k, hopened⟩
  · rw [hrefused] at hordered
    constructor
    · rintro ⟨k, c, hopened, -⟩
      rw [hrefused] at hopened
      cases hopened
    · intro hnil
      have hmem : Turn.register ∈ remaining straddling turns := hordered
      rw [show remaining straddling turns = [] from hnil] at hmem
      cases hmem
  · rw [hopened] at hordered
    obtain ⟨c, hc, hcases⟩ := hordered
    rw [hdone] at hcases
    constructor
    · rintro ⟨k', c', hopened', hc', hopen⟩
      obtain rfl : k = k' := Handshake.opened.inj (hopened.symm.trans hopened')
      obtain rfl : c = c' := Option.some.inj (hc.symm.trans hc')
      rcases hcases with ⟨-, hclosed⟩ | ⟨hnil, -⟩
      · rw [show c.closed = true from hclosed] at hopen
        cases hopen
      · exact hnil
    · intro hnil
      rcases hcases with ⟨hmem, -⟩ | ⟨-, hopen⟩
      · rw [show remaining straddling turns = [] from hnil] at hmem
        cases hmem
      · exact ⟨k, c, hopened, hc, hopen⟩

/-- Whether the connection has been closed, once a socket was opened and the revocation is
done. -/
def Race.outcome (r : Race) : Option Bool :=
  match r.handshake, r.revocation with
  | .opened k, .done => (r.world.clients k).map Client.closed
  | _, _ => none

theorem Race.outcome_some {r : Race} {closed : Bool} (h : r.outcome = some closed) :
    r.Ended ∧ (closed = false → r.Live) := by
  unfold Race.outcome at h
  split at h
  · rename_i k hopened hdone
    obtain ⟨c, hc, hclosed⟩ := Option.map_eq_some_iff.mp h
    exact ⟨⟨.inr ⟨k, hopened⟩, hdone⟩, fun hopen => ⟨k, c, hopened, hc, hclosed.trans hopen⟩⟩
  · cases h

/-- A token that IAM issued at the start. -/
def raceToken : Iam.Claims :=
  { sub := 1, userType := "volunteer", roles := [], iat := 0, exp := Iam.accessTokenTtl, jti := 7,
    tenantId := some 2 }

theorem race_run : Run Call.body (Config.start (World.initial 0))
    (Config.start (World.initial 0) : Config World Error Unit Call) := .refl

/-- A socket that is registered before the revocation is closed. -/
theorem revocation_meets_handshake_early : ∃ r,
    Race.play 0 raceToken 0 { world := World.initial 0 }
      [.verify, .upgrade, .register, .tick 5, .deny, .snapshot, .close] = some r ∧
    r.Ended ∧ ¬ r.Live := by
  have houtcome : (Race.play 0 raceToken 0 { world := World.initial 0 }
      [.verify, .upgrade, .register, .tick 5, .deny, .snapshot, .close]).bind Race.outcome =
        some true := by
    decide +kernel
  obtain ⟨r, hplay, hr⟩ := Option.bind_eq_some_iff.mp houtcome
  have hended := (Race.outcome_some hr).1
  refine ⟨r, hplay, hended, ?_⟩
  exact (revocation_meets_handshake_iff race_run 0 raceToken 0 (by decide) hplay hended).mpr
    (by decide)

/-- The property that fails for a handshake that straddles the revocation. -/
theorem straddling_socket_survives : ¬ ∀ (now : Time) (d : Config World Error Unit Call),
    Run Call.body (Config.start (World.initial now)) d →
    ∀ (server : Nat) (token : Iam.Claims) (device : Nat),
      token.exp ≤ d.store.now + Iam.accessTokenTtl →
    ∀ (turns : List Turn) (r : Race),
      Race.play server token device { world := d.store } turns = some r → r.Ended →
      ¬ r.Live := by
  intro hclaim
  have houtcome : (Race.play 0 raceToken 0 { world := World.initial 0 }
      [.verify, .deny, .snapshot, .close, .upgrade, .register]).bind Race.outcome =
        some false := by
    decide +kernel
  obtain ⟨r, hplay, hr⟩ := Option.bind_eq_some_iff.mp houtcome
  obtain ⟨hended, hlive⟩ := Race.outcome_some hr
  exact hclaim 0 _ race_run 0 raceToken 0 (by decide) _ r hplay hended (hlive rfl)

end Rto
end Rcp
