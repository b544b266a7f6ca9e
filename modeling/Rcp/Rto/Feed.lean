/-
The change feed and its replay.

Whatever a client program has received, with what is in the channel of an open socket of
it, ends each replay where it should: when a `sync_complete` comes, the rows of the
tenant up to its cursor have come before it.  This holds as long as every `sync` request
runs its SELECT when no open transaction has drawn a number below a visible one.
-/
import Rcp.Rto.Steps
import Rcp.Rto.Wiring
import Rcp.Sql.AppendOnly
import Rcp.Sql.Schedule

namespace Rcp
namespace Rto

open Sql Growth

/-- The cursor of a frame that closes a replay. -/
def Frame.cursor? : Frame → Option Int
  | syncComplete cursor _ => some cursor
  | notification .. | alert .. | domainEvent .. | forceLogout .. | syncEvent .. => none

/-- The row belongs to the tenant. -/
def Ours (tenantId : Option Uuid) (row : SyncEvent) : Prop := row.tenantId = tenantId

/-- Rows of the tenant up to the cursor are all among the frames, now and later. -/
structure Complete (tenantId : Option Uuid) (cursor : Int) (frames : List Frame)
    (T : Table SyncEvent) : Prop where
  past : T.Past (Ours tenantId) cursor
  within : T.Within (Ours tenantId) cursor fun row => syncEventFrame row ∈ frames

/-- Every replay in the list of frames is complete where it is closed. -/
def Gapless (tenantId : Option Uuid) (frames : List Frame) (T : Table SyncEvent) : Prop :=
  ∀ pre m post cursor, frames = pre ++ m :: post → m.cursor? = some cursor →
    Complete tenantId cursor pre T

section Frames

variable {tenantId : Option Uuid} {cursor : Int} {frames : List Frame} {T T' : Table SyncEvent}

theorem Complete.mono {frames' : List Frame} (h : Complete tenantId cursor frames T)
    (hsub : ∀ m ∈ frames, m ∈ frames') : Complete tenantId cursor frames' T :=
  ⟨h.past, fun k row hk hrow hlt => hsub _ (h.within k row hk hrow hlt)⟩

theorem Complete.insert (h : Complete tenantId cursor frames T) (t : Sid) (row : SyncEvent) :
    Complete tenantId cursor frames (T.insert t row) :=
  ⟨h.past.insert t row, h.within⟩

theorem Complete.commit (h : Complete tenantId cursor frames T) (t : Sid) :
    Complete tenantId cursor frames (T.commit t) :=
  ⟨h.past.commit t, h.within.commit h.past t⟩

theorem Complete.rollback (h : Complete tenantId cursor frames T) (t : Sid) :
    Complete tenantId cursor frames (T.rollback t) :=
  ⟨h.past.rollback t, h.within⟩

theorem gapless_nil : Gapless tenantId [] T := by
  intro pre m post cursor h _
  exact absurd h (by simp)

/-- A frame in the middle of the list, complete where it stands. -/
theorem Gapless.insert {l l' : List Frame} {m : Frame} (h : Gapless tenantId (l ++ l') T)
    (hm : ∀ cursor, m.cursor? = some cursor → Complete tenantId cursor l T) :
    Gapless tenantId (l ++ m :: l') T := by
  intro pre x post cursor heq hx
  rcases List.append_eq_append_iff.mp heq with ⟨mid, hpre, hmid⟩ | ⟨mid, hl, hmid⟩
  · -- the frame stands at `m` or after it
    cases mid with
    | nil =>
        simp only [List.nil_append, List.cons.injEq] at hmid
        rw [List.append_nil] at hpre
        rw [← hmid.1] at hx
        rw [hpre]
        exact hm cursor hx
    | cons y rest =>
        simp only [List.cons_append, List.cons.injEq] at hmid
        obtain ⟨rfl, hl'⟩ := hmid
        have hold := h (l ++ rest) x post cursor (by rw [hl', List.append_assoc]) hx
        refine hold.mono fun z hz => ?_
        rw [hpre]
        rcases List.mem_append.mp hz with hz | hz
        · exact List.mem_append_left _ hz
        · exact List.mem_append_right _ (List.mem_cons_of_mem _ hz)
  · cases mid with
    | nil =>
        simp only [List.nil_append, List.cons.injEq] at hmid
        rw [List.append_nil] at hl
        rw [hmid.1] at hx
        rw [← hl]
        exact hm cursor hx
    | cons y rest =>
        simp only [List.cons_append, List.cons.injEq] at hmid
        obtain ⟨rfl, -⟩ := hmid
        exact h pre x (rest ++ l') cursor (by rw [hl]; simp) hx

theorem Gapless.snoc {m : Frame} (h : Gapless tenantId frames T)
    (hm : ∀ cursor, m.cursor? = some cursor → Complete tenantId cursor frames T) :
    Gapless tenantId (frames ++ [m]) T := by
  rw [← List.append_nil frames] at h
  exact h.insert hm

theorem Gapless.mono (h : Gapless tenantId frames T)
    (hcomplete : ∀ tenantId cursor frames, Complete tenantId cursor frames T →
      Complete tenantId cursor frames T') : Gapless tenantId frames T' :=
  fun pre m post cursor heq hm => hcomplete _ _ _ (h pre m post cursor heq hm)

theorem plain_cursor {m : Frame} (h : Plain m) : m.cursor? = none := by
  cases m with
  | syncComplete => cases h
  | notification | alert | domainEvent | forceLogout | syncEvent => rfl

end Frames

/-! ## What every step keeps -/

variable (p : Peer)

/-- What program `p` has received, and then what is in the channel of one of its sockets. -/
def World.stream (w : World) (c : Client) : List Frame := w.received p ++ c.send

structure Feeds (w : World) : Prop where
  feed : w.syncEvents.AppendOnly
  sockets : ∀ q c, w.clients q = some c → q < w.sockets
  received : Gapless p.tenantId (w.received p) w.syncEvents
  streams : ∀ q c, w.clients q = some c → c.peer = p → c.closed = false →
    Gapless p.tenantId (w.stream p c) w.syncEvents

/-- The client at the socket afterwards, and what has become of its frames. -/
structure Carried (w w' : World) (c c' : Client) : Prop where
  peer : c'.peer = c.peer
  opened : c'.closed = false → c.closed = false
  frames : c'.closed = false → c.peer = p → ∀ m ∈ w.stream p c, m ∈ w'.stream p c'

structure Onwards (w w' : World) : Prop where
  complete : ∀ tenantId cursor frames, Complete tenantId cursor frames w.syncEvents →
    Complete tenantId cursor frames w'.syncEvents
  received : ∀ m ∈ w.received p, m ∈ w'.received p
  clients : ∀ q c, w.clients q = some c → ∃ c', w'.clients q = some c' ∧ Carried p w w' c c'

variable {p} {w w' : World}

theorem Carried.refl (w : World) (c : Client) : Carried p w w c c :=
  ⟨rfl, fun h => h, fun _ _ _ hm => hm⟩

theorem Onwards.refl (w : World) : Onwards p w w :=
  ⟨fun _ _ _ h => h, fun _ h => h, fun _ c hc => ⟨c, hc, .refl w c⟩⟩

theorem Onwards.trans {w'' : World} (h : Onwards p w w') (h' : Onwards p w' w'') :
    Onwards p w w'' := by
  refine ⟨fun tenantId cursor frames hc => h'.complete _ _ _ (h.complete _ _ _ hc),
    fun m hm => h'.received m (h.received m hm), fun q c hc => ?_⟩
  obtain ⟨c', hc', hcarried⟩ := h.clients q c hc
  obtain ⟨c'', hc'', hcarried'⟩ := h'.clients q c' hc'
  refine ⟨c'', hc'', hcarried'.peer.trans hcarried.peer,
    fun ho => hcarried.opened (hcarried'.opened ho), fun ho hpeer m hm => ?_⟩
  exact hcarried'.frames ho (hcarried.peer.trans hpeer) m
    (hcarried.frames (hcarried'.opened ho) hpeer m hm)

/-- Steps of the database. -/
theorem Feeds.database (hw : Feeds p w) (hfeed : w'.syncEvents.AppendOnly)
    (hcomplete : ∀ tenantId cursor frames, Complete tenantId cursor frames w.syncEvents →
      Complete tenantId cursor frames w'.syncEvents)
    (hclients : w'.clients = w.clients) (hsockets : w'.sockets = w.sockets)
    (hreceived : w'.received = w.received) : Feeds p w' ∧ Onwards p w w' := by
  have hstream : ∀ c, w'.stream p c = w.stream p c := by
    intro c
    rw [World.stream, World.stream, hreceived]
  refine ⟨⟨hfeed, ?_, ?_, ?_⟩, ⟨hcomplete, ?_, ?_⟩⟩
  · rw [hclients, hsockets]
    exact hw.sockets
  · rw [hreceived]
    exact hw.received.mono hcomplete
  · intro q c hc hpeer hopen
    rw [hclients] at hc
    rw [hstream]
    exact (hw.streams q c hc hpeer hopen).mono hcomplete
  · rw [hreceived]
    exact fun _ h => h
  · intro q c hc
    refine ⟨c, by rw [hclients]; exact hc, rfl, fun h => h, fun _ _ m hm => ?_⟩
    rw [hstream]
    exact hm

/-- Steps that leave the feed, the sockets and the receivers alone. -/
theorem Feeds.aside (hw : Feeds p w) (hfeed : w'.syncEvents = w.syncEvents)
    (hclients : w'.clients = w.clients) (hsockets : w'.sockets = w.sockets)
    (hreceived : w'.received = w.received) : Feeds p w' ∧ Onwards p w w' := by
  refine hw.database ?_ (fun tenantId cursor frames h => ?_) hclients hsockets hreceived
  · rw [hfeed]
    exact hw.feed
  · rw [hfeed]
    exact h

/-- Steps that change clients in place. -/
theorem Feeds.forEach (hw : Feeds p w) (sockets : List Nat) {f : Client → Client}
    (hpeer : ∀ c, (f c).peer = c.peer) (hopened : ∀ c, (f c).closed = false → c.closed = false)
    (hsend : ∀ q ∈ sockets, ∀ c, w.clients q = some c → (f c).closed = false →
      ∃ l, (f c).send = c.send ++ l ∧
        (c.peer = p → Gapless p.tenantId (w.stream p c ++ l) w.syncEvents)) :
    Feeds p (w.forEach sockets f) ∧ Onwards p w (w.forEach sockets f) := by
  refine ⟨⟨hw.feed, fun q c hc => ?_, hw.received, fun q c hc hpeerc hopen => ?_⟩,
    ⟨fun _ _ _ h => h, fun _ h => h, fun q c hc => ?_⟩⟩
  · simp only [World.forEach] at hc
    split at hc
    · obtain ⟨c₀, hc₀, -⟩ := Option.map_eq_some_iff.mp hc
      exact hw.sockets q c₀ hc₀
    · exact hw.sockets q c hc
  · simp only [World.forEach] at hc
    split at hc
    · rename_i hq
      obtain ⟨c₀, hc₀, rfl⟩ := Option.map_eq_some_iff.mp hc
      obtain ⟨l, hl, hgapless⟩ := hsend q hq c₀ hc₀ hopen
      show Gapless p.tenantId (w.received p ++ (f c₀).send) w.syncEvents
      rw [hl, ← List.append_assoc]
      exact hgapless ((hpeer c₀).symm.trans hpeerc)
    · exact hw.streams q c hc hpeerc hopen
  · simp only [World.forEach]
    split
    · rename_i hq
      refine ⟨f c, by rw [hc]; rfl, hpeer c, hopened c, fun ho _ m hm => ?_⟩
      obtain ⟨l, hl, -⟩ := hsend q hq c hc ho
      show m ∈ w.received p ++ (f c).send
      rw [hl, ← List.append_assoc]
      exact List.mem_append_left _ hm
    · exact ⟨c, hc, rfl, fun h => h, fun _ _ _ hm => hm⟩

theorem trySend_open {m : Frame} {c : Client} (h : (c.trySend m).closed = false) :
    c.closed = false ∧ (c.trySend m).send = c.send ++ [m] := by
  unfold Client.trySend at h ⊢
  split at h
  · rename_i hroom
    rw [if_pos hroom]
    exact ⟨h, rfl⟩
  · cases h

theorem trySend_peer (m : Frame) (c : Client) : (c.trySend m).peer = c.peer := by
  unfold Client.trySend
  split
  · rfl
  · rfl

/-- A frame is sent.  A frame that closes a replay of `p` must be complete where it stands. -/
theorem Feeds.send (hw : Feeds p w) (sockets : List Nat) {m : Frame}
    (hm : ∀ q ∈ sockets, ∀ c cursor, w.clients q = some c → c.peer = p → c.closed = false →
      m.cursor? = some cursor → Complete p.tenantId cursor (w.stream p c) w.syncEvents) :
    Feeds p (w.forEach sockets (Client.trySend m)) ∧
      Onwards p w (w.forEach sockets (Client.trySend m)) := by
  refine hw.forEach sockets (trySend_peer m) (fun c h => (trySend_open h).1) ?_
  intro q hq c hc hopen
  obtain ⟨hopen', hsend⟩ := trySend_open hopen
  refine ⟨[m], hsend, fun hpeer => ?_⟩
  refine (hw.streams q c hc hpeer hopen').snoc fun cursor hcursor => ?_
  exact hm q hq c cursor hc hpeer hopen' hcursor

/-- Sockets are closed. -/
theorem Feeds.shut (hw : Feeds p w) (sockets : List Nat) {f : Client → Client}
    (hpeer : ∀ c, (f c).peer = c.peer) (hclosed : ∀ c, (f c).closed = true) :
    Feeds p (w.forEach sockets f) ∧ Onwards p w (w.forEach sockets f) := by
  have habsurd : ∀ c, (f c).closed ≠ false := by
    intro c h
    rw [hclosed c] at h
    cases h
  exact hw.forEach sockets hpeer (fun c h => absurd h (habsurd c))
    fun _ _ c _ h => absurd h (habsurd c)

theorem Feeds.openSocket (hw : Feeds p w) {c : Client} (hnew : c.send = []) :
    Feeds p (w.openSocket c) ∧ Onwards p w (w.openSocket c) := by
  have hclients : (w.openSocket c).clients = Function.update w.clients w.sockets (some c) := rfl
  refine ⟨⟨hw.feed, fun q c' hc' => ?_, hw.received, fun q c' hc' hpeer hopen => ?_⟩,
    ⟨fun _ _ _ h => h, fun _ h => h, fun q c' hc' =>
      ⟨c', ?_, rfl, fun h => h, fun _ _ _ hm => hm⟩⟩⟩
  · show q < w.sockets + 1
    rw [hclients] at hc'
    by_cases hq : q = w.sockets
    · rw [hq]
      exact Nat.lt_succ_self _
    · rw [Function.update_of_ne hq] at hc'
      exact Nat.lt_succ_of_lt (hw.sockets q c' hc')
  · rw [hclients] at hc'
    by_cases hq : q = w.sockets
    · rw [hq, Function.update_self] at hc'
      cases hc'
      show Gapless p.tenantId (w.received p ++ c.send) w.syncEvents
      rw [hnew, List.append_nil]
      exact hw.received
    · rw [Function.update_of_ne hq] at hc'
      exact hw.streams q c' hc' hpeer hopen
  · rw [hclients, Function.update_of_ne (Nat.ne_of_lt (hw.sockets q c' hc'))]
    exact hc'

/-- A frame is taken off the channel of a socket, and `received` grows by `l` at its peer. -/
theorem Feeds.take (hw : Feeds p w) {k : Nat} {c : Client} {m : Frame} {rest : List Frame}
    (hc : w.clients k = some c) (hsend : c.send = m :: rest) {received : Peer → List Frame}
    (hother : c.closed = true ∨ c.peer ≠ p → received p = w.received p)
    (hpeer : c.closed = false → c.peer = p → received p = w.received p ++ [m])
    (hw' : w' =
      { w with
        clients := Function.update w.clients k (some { c with send := rest })
        received := received }) : Feeds p w' ∧ Onwards p w w' := by
  subst hw'
  -- the new socket, if it is an open one of `p`, has the stream it had before
  have hkept : c.closed = false → c.peer = p →
      received p ++ rest = w.stream p c := by
    intro hopen hp
    rw [hpeer hopen hp, World.stream, hsend, List.append_assoc]
    rfl
  have hgrows : ∃ l, received p = w.received p ++ l ∧ ∀ l', Gapless p.tenantId
      (w.received p ++ l') w.syncEvents →
        Gapless p.tenantId (w.received p ++ l ++ l') w.syncEvents := by
    by_cases hours : c.closed = false ∧ c.peer = p
    · have hstream := hw.streams k c hc hours.2 hours.1
      refine ⟨[m], hpeer hours.1 hours.2, fun l' hl' => ?_⟩
      rw [List.append_assoc]
      refine hl'.insert fun cursor hcursor => ?_
      exact hstream (w.received p) m rest cursor (by rw [World.stream, hsend]) hcursor
    · refine ⟨[], ?_, fun l' hl' => by rwa [List.append_nil]⟩
      rw [List.append_nil]
      refine hother ?_
      by_cases hopen : c.closed = false
      · exact .inr fun hp => hours ⟨hopen, hp⟩
      · exact .inl (by simpa using hopen)
  obtain ⟨l, hl, hgapless⟩ := hgrows
  refine ⟨⟨hw.feed, fun q c' hc' => ?_, ?_, fun q c' hc' hp hopen => ?_⟩,
    ⟨fun _ _ _ h => h, fun m' hm' => ?_, fun q c' hc' => ?_⟩⟩
  · by_cases hq : q = k
    · rw [hq]
      exact hw.sockets k c hc
    · have hold : w.clients q = some c' := by simpa only [Function.update_of_ne hq] using hc'
      exact hw.sockets q c' hold
  · show Gapless p.tenantId (received p) w.syncEvents
    have hreceived := hgapless [] (by rw [List.append_nil]; exact hw.received)
    rwa [List.append_nil, ← hl] at hreceived
  · show Gapless p.tenantId (received p ++ c'.send) w.syncEvents
    by_cases hq : q = k
    · simp only [hq, Function.update_self, Option.some.injEq] at hc'
      subst hc'
      rw [hkept hopen hp]
      exact hw.streams k c hc hp hopen
    · have hold : w.clients q = some c' := by simpa only [Function.update_of_ne hq] using hc'
      rw [hl]
      exact hgapless _ (hw.streams q c' hold hp hopen)
  · show m' ∈ received p
    rw [hl]
    exact List.mem_append_left _ hm'
  · by_cases hq : q = k
    · rw [hq] at hc'
      rw [hc] at hc'
      cases hc'
      refine ⟨{ c with send := rest }, by rw [hq]; exact Function.update_self .., rfl,
        fun h => h, fun hopen hp m' hm' => ?_⟩
      show m' ∈ received p ++ rest
      rwa [hkept hopen hp]
    · refine ⟨c', by simpa only [Function.update_of_ne hq] using hc', rfl, fun h => h,
        fun hopen hp m' hm' => ?_⟩
      show m' ∈ received p ++ c'.send
      rw [hl]
      rcases List.mem_append.mp hm' with hm' | hm'
      · exact List.mem_append_left _ (List.mem_append_left _ hm')
      · exact List.mem_append_right _ hm'

/-- The writer of a socket delivers a frame, or loses it on a closed connection. -/
theorem Feeds.write (hw : Feeds p w) {k : Nat} {t : Sid} (h : runWrite k t w = some ((), w')) :
    Feeds p w' ∧ Onwards p w w' := by
  unfold runWrite at h
  split at h
  · cases h
  · rename_i c hc
    split at h
    · cases h
    · rename_i m rest hsend
      split at h
      · rename_i hclosed
        cases h
        refine hw.take hc hsend (fun _ => rfl) (fun hopen => ?_) rfl
        rw [hclosed] at hopen
        cases hopen
      · rename_i hopen
        cases h
        refine hw.take hc hsend (fun hother => ?_) (fun _ hp => ?_) rfl
        · rcases hother with hclosed | hp
          · exact absurd hclosed hopen
          · exact Function.update_of_ne (Ne.symm hp) ..
        · rw [← hp]
          exact Function.update_self ..

theorem Moves.feeds {t : Sid} (hw : Feeds p w) (h : Moves Plain t w w') :
    Feeds p w' ∧ Onwards p w w' := by
  cases h with
  | stay => exact ⟨hw, .refl w⟩
  | notifications T => exact hw.aside rfl rfl rfl rfl
  | processedEvents T => exact hw.aside rfl rfl rfl rfl
  | devices T => exact hw.aside rfl rfl rfl rfl
  | append row =>
      exact hw.database (hw.feed.insert t row) (fun _ _ _ h => h.insert t row) rfl rfl rfl
  | commit => exact hw.database (hw.feed.commit t) (fun _ _ _ h => h.commit t) rfl rfl rfl
  | send sockets message hplain =>
      refine hw.send sockets fun q _ c cursor _ _ _ hcursor => ?_
      rw [plain_cursor hplain] at hcursor
      cases hcursor
  | drop sockets reason =>
      exact hw.shut sockets (fun c => trySend_peer (.forceLogout reason) c) fun _ => rfl
  | close sockets => exact hw.shut sockets (fun _ => rfl) fun _ => rfl
  | push pushed => exact hw.aside rfl rfl rfl rfl
  | denyUser server userId => exact hw.aside rfl rfl rfl rfl
  | denyJti server jti => exact hw.aside rfl rfl rfl rfl
  | opened c hnew _ => exact hw.openSocket hnew.1
  | unregister k c => exact hw.aside rfl rfl rfl rfl
  | write k h => exact hw.write h
  | tick span => exact hw.aside rfl rfl rfl rfl

def feed (p : Peer) : Growth World where
  Inv := Feeds p
  Le := Onwards p
  refl := Onwards.refl
  trans _ _ _ := Onwards.trans
  rollback t _ hw :=
    hw.database (hw.feed.rollback t) (fun _ _ _ h => h.rollback t) rfl rfl rfl

theorem initial_feeds (p : Peer) (now : Time) : Feeds p (World.initial now) where
  feed := Table.empty_appendOnly
  sockets := fun _ _ h => by cases h
  received := gapless_nil
  streams := fun _ _ h => by cases h

end Rto
end Rcp
