/-
The WebSocket proxy of the gateway (`gateway/app/ws_proxy.py`).

The client is accepted before the upstream is connected, so its frames may wait.  Then one task
for each direction carries frames, the first of them to end has the other cancelled, and both
connections are closed.  The moves of the client, of the upstream, of the two tasks and of
`proxy_ws` itself interleave in any order, and each operation may fail.
-/
import Rcp.Common.Pump

namespace Rcp
namespace Gateway

/-- A frame is a `str` or `bytes`, on both connections. -/
inductive Frame
  | text (value : String)
  | bytes (value : List UInt8)
  deriving DecidableEq

/-- What `websocket.receive` returns. -/
inductive ClientMessage
  | receive (text : Option String) (bytes : Option (List UInt8))
  | disconnect
  deriving DecidableEq

/-- What `upstream.recv` returns or raises. -/
inductive UpstreamMessage
  | message (frame : Frame)
  | connectionClosed
  deriving DecidableEq

def clientToUpstream : ClientMessage → Carry Frame
  | .disconnect => .stop
  | .receive (some text) _ => .frame (.text text)
  | .receive none (some bytes) => .frame (.bytes bytes)
  | .receive none none => .skip

def upstreamToClient : UpstreamMessage → Carry Frame
  | .message frame => .frame frame
  | .connectionClosed => .stop

/-- One of the two connections. -/
inductive Connection
  | absent
  | open
  | closed (code : Nat)
  deriving DecidableEq

/-- Where `proxy_ws` stands. -/
inductive Phase
  | start
  | connecting
  | relaying
  /-- A task is done and the pending one is cancelled. -/
  | cancelling
  | closing
  | closed
  deriving DecidableEq

/-- How far the phase is from the end. -/
def Phase.work : Phase → Nat
  | start => 5
  | connecting => 4
  | relaying => 3
  | cancelling => 2
  | closing => 1
  | closed => 0

structure Proxy where
  phase : Phase := .start
  client : Connection := .absent
  upstream : Connection := .absent
  up : Pump ClientMessage Frame := {}
  down : Pump UpstreamMessage Frame := {}

namespace Proxy

inductive Move
  /-- `websockets` cannot be imported. -/
  | importFails
  | accept
  | connect
  | connectFails
  | up (m : Pump.Move ClientMessage)
  | down (m : Pump.Move UpstreamMessage)
  /-- `asyncio.wait` returns. -/
  | wake
  | closeUpstream
  | closeClient

/-- A move of the proxy, not of its peers. -/
def Move.own : Move → Bool
  | up m => m.own
  | down m => m.own
  | _ => true

/-- No operation fails with the move. -/
def Move.smooth : Move → Bool
  | importFails | connectFails => false
  | up m => m.smooth
  | down m => m.smooth
  | accept | connect | wake | closeUpstream | closeClient => true

/-- A peer sends while its connection is open.  The tasks run until `asyncio.wait` returns, and
then the pending one is cancelled. -/
def permits {α : Type} (phase : Phase) (peer : Connection) : Pump.Move α → Bool
  | .arrive _ => peer = .open
  | .cancel _ => phase = .cancelling
  | _ => phase = .relaying

/-- One move.  It is made only where the proxy stands. -/
def move (s : Proxy) : Move → Option Proxy
  | .importFails =>
      if s.phase = .start then some { s with
        phase := .closed
        client := .closed 1011 }
      else none
  | .accept =>
      if s.phase = .start then some { s with
        phase := .connecting
        client := .open }
      else none
  | .connect =>
      if s.phase = .connecting then some { s with
        phase := .relaying
        upstream := .open }
      else none
  | .connectFails =>
      if s.phase = .connecting then some { s with
        phase := .closed
        client := .closed 1011 }
      else none
  | .up m =>
      if permits s.phase s.client m then
        (s.up.move clientToUpstream m).map fun up => { s with up := up }
      else none
  | .down m =>
      if permits s.phase s.upstream m then
        (s.down.move upstreamToClient m).map fun down => { s with down := down }
      else none
  | .wake =>
      if s.phase = .relaying ∧ (s.up.task.over || s.down.task.over) then
        some { s with phase := .cancelling }
      else none
  | .closeUpstream =>
      if s.phase = .cancelling ∧ s.up.task.over ∧ s.down.task.over then some { s with
        phase := .closing
        upstream := .closed 1000 }
      else none
  | .closeClient =>
      if s.phase = .closing then some { s with
        phase := .closed
        client := .closed 1000 }
      else none

def play : Proxy → List Move → Option Proxy
  | s, [] => some s
  | s, m :: rest => (s.move m).bind fun s' => play s' rest

/-- What the client sends in a run. -/
def clientSent (moves : List Move) : List ClientMessage :=
  moves.filterMap fun
    | .up (.arrive a) => some a
    | _ => none

/-- What the upstream sends in a run. -/
def upstreamSent (moves : List Move) : List UpstreamMessage :=
  moves.filterMap fun
    | .down (.arrive a) => some a
    | _ => none

/-! ## Invariants -/

/-- No task has started. -/
def Untouched (s : Proxy) : Prop :=
  s.up.task = .waiting ∧ s.up.delivered = [] ∧ s.down.task = .waiting ∧ s.down.delivered = []

/-- Both tasks are done. -/
def Done (s : Proxy) : Prop := s.up.task.over = true ∧ s.down.task.over = true

/-- What holds at a phase. -/
def Stage (s : Proxy) : Prop :=
  match s.phase with
  | .start => s.client = .absent ∧ s.upstream = .absent ∧ s.Untouched
  | .connecting => s.client = .open ∧ s.upstream = .absent ∧ s.Untouched
  | .relaying => s.client = .open ∧ s.upstream = .open
  | .cancelling => s.client = .open ∧ s.upstream = .open
  | .closing => s.client = .open ∧ s.upstream = .closed 1000 ∧ s.Done
  | .closed => (s.client = .closed 1011 ∧ s.upstream = .absent ∧ s.Untouched) ∨
      (s.client = .closed 1000 ∧ s.upstream = .closed 1000 ∧ s.Done)

structure Inv (s : Proxy) : Prop where
  up : s.up.Faithful clientToUpstream
  down : s.down.Faithful upstreamToClient
  stage : s.Stage

theorem initial_inv : Inv {} :=
  ⟨Pump.faithful_initial, Pump.faithful_initial, rfl, rfl, rfl, rfl, rfl, rfl⟩

section Steps

variable {s s' : Proxy} {m : Move}

theorem permits_cases {α : Type} {phase : Phase} {peer : Connection} {m : Pump.Move α}
    (h : permits phase peer m = true) :
    (∃ a, m = .arrive a ∧ peer = .open) ∨ (∃ out, m = .cancel out ∧ phase = .cancelling) ∨
      (m.own = true ∧ (∀ out, m ≠ .cancel out) ∧ phase = .relaying) := by
  cases m with
  | arrive a => exact .inl ⟨a, rfl, of_decide_eq_true h⟩
  | cancel out => exact .inr (.inl ⟨out, rfl, of_decide_eq_true h⟩)
  | receive | receiveFails | deliver | deliverFails =>
      exact .inr (.inr ⟨rfl, fun _ => by simp, of_decide_eq_true h⟩)

/-- What a move does. -/
inductive Does (s : Proxy) : Move → Proxy → Prop
  | importFails (h : s.phase = .start) : Does s .importFails { s with
      phase := .closed
      client := .closed 1011 }
  | accept (h : s.phase = .start) : Does s .accept { s with
      phase := .connecting
      client := .open }
  | connect (h : s.phase = .connecting) : Does s .connect { s with
      phase := .relaying
      upstream := .open }
  | connectFails (h : s.phase = .connecting) : Does s .connectFails { s with
      phase := .closed
      client := .closed 1011 }
  | up (m : Pump.Move ClientMessage) (up : Pump ClientMessage Frame)
      (hpermits : permits s.phase s.client m = true)
      (h : s.up.move clientToUpstream m = some up) : Does s (.up m) { s with up := up }
  | down (m : Pump.Move UpstreamMessage) (down : Pump UpstreamMessage Frame)
      (hpermits : permits s.phase s.upstream m = true)
      (h : s.down.move upstreamToClient m = some down) : Does s (.down m) { s with down := down }
  | wake (h : s.phase = .relaying) (hover : (s.up.task.over || s.down.task.over) = true) :
      Does s .wake { s with phase := .cancelling }
  | closeUpstream (h : s.phase = .cancelling) (hdone : s.Done) : Does s .closeUpstream { s with
      phase := .closing
      upstream := .closed 1000 }
  | closeClient (h : s.phase = .closing) : Does s .closeClient { s with
      phase := .closed
      client := .closed 1000 }

theorem does_of_move (h : s.move m = some s') : Does s m s' := by
  cases m with
  | importFails =>
      obtain ⟨hphase, ⟨⟩⟩ := Option.ite_none_right_eq_some.mp h
      exact .importFails hphase
  | accept =>
      obtain ⟨hphase, ⟨⟩⟩ := Option.ite_none_right_eq_some.mp h
      exact .accept hphase
  | connect =>
      obtain ⟨hphase, ⟨⟩⟩ := Option.ite_none_right_eq_some.mp h
      exact .connect hphase
  | connectFails =>
      obtain ⟨hphase, ⟨⟩⟩ := Option.ite_none_right_eq_some.mp h
      exact .connectFails hphase
  | up m =>
      obtain ⟨hpermits, h⟩ := Option.ite_none_right_eq_some.mp h
      obtain ⟨up, hup, rfl⟩ := Option.map_eq_some_iff.mp h
      exact .up m up hpermits hup
  | down m =>
      obtain ⟨hpermits, h⟩ := Option.ite_none_right_eq_some.mp h
      obtain ⟨down, hdown, rfl⟩ := Option.map_eq_some_iff.mp h
      exact .down m down hpermits hdown
  | wake =>
      obtain ⟨⟨hphase, hover⟩, ⟨⟩⟩ := Option.ite_none_right_eq_some.mp h
      exact .wake hphase hover
  | closeUpstream =>
      obtain ⟨⟨hphase, hup, hdown⟩, ⟨⟩⟩ := Option.ite_none_right_eq_some.mp h
      exact .closeUpstream hphase ⟨hup, hdown⟩
  | closeClient =>
      obtain ⟨hphase, ⟨⟩⟩ := Option.ite_none_right_eq_some.mp h
      exact .closeClient hphase

/-- Only the tasks and the deliveries of the pumps matter to the stage. -/
theorem stage_congr (hs : s.Stage) {up : Pump ClientMessage Frame}
    {down : Pump UpstreamMessage Frame} (hup : up.task = s.up.task)
    (hupSent : up.delivered = s.up.delivered) (hdown : down.task = s.down.task)
    (hdownSent : down.delivered = s.down.delivered) :
    Stage { s with
      up := up
      down := down } := by
  simpa only [Stage, Untouched, Done, hup, hupSent, hdown, hdownSent] using hs

/-- The stage of a phase at which tasks move. -/
theorem stage_busy (hs : s.Stage) (h : s.phase = .relaying ∨ s.phase = .cancelling)
    (up : Pump ClientMessage Frame) (down : Pump UpstreamMessage Frame) :
    Stage { s with
      up := up
      down := down } := by
  obtain ⟨phase, client, upstream, _, _⟩ := s
  rcases h with h | h
  · obtain rfl : phase = .relaying := h
    exact hs
  · obtain rfl : phase = .cancelling := h
    exact hs

theorem Inv.move (hs : Inv s) (hmove : s.move m = some s') : Inv s' := by
  have hstage := hs.stage
  cases does_of_move hmove with
  | importFails h =>
      refine ⟨hs.up, hs.down, ?_⟩
      simp only [Stage, h] at hstage
      exact .inl ⟨rfl, hstage.2⟩
  | accept h =>
      refine ⟨hs.up, hs.down, ?_⟩
      simp only [Stage, h] at hstage
      exact ⟨rfl, hstage.2⟩
  | connect h =>
      refine ⟨hs.up, hs.down, ?_⟩
      simp only [Stage, h] at hstage
      exact ⟨hstage.1, rfl⟩
  | connectFails h =>
      refine ⟨hs.up, hs.down, ?_⟩
      simp only [Stage, h] at hstage
      exact .inl ⟨rfl, hstage.2⟩
  | up m up hpermits h =>
      refine ⟨hs.up.move h, hs.down, ?_⟩
      rcases permits_cases hpermits with ⟨a, rfl, -⟩ | ⟨out, rfl, hphase⟩ | ⟨-, -, hphase⟩
      · obtain rfl : _ = up := Option.some.inj h
        exact stage_congr hstage rfl rfl rfl rfl
      · exact stage_busy hstage (.inr hphase) up s.down
      · exact stage_busy hstage (.inl hphase) up s.down
  | down m down hpermits h =>
      refine ⟨hs.up, hs.down.move h, ?_⟩
      rcases permits_cases hpermits with ⟨a, rfl, -⟩ | ⟨out, rfl, hphase⟩ | ⟨-, -, hphase⟩
      · obtain rfl : _ = down := Option.some.inj h
        exact stage_congr hstage rfl rfl rfl rfl
      · exact stage_busy hstage (.inr hphase) s.up down
      · exact stage_busy hstage (.inl hphase) s.up down
  | wake h =>
      refine ⟨hs.up, hs.down, ?_⟩
      simpa only [Stage, h] using hstage
  | closeUpstream h hdone =>
      refine ⟨hs.up, hs.down, ?_⟩
      simp only [Stage, h] at hstage
      exact ⟨hstage.1, rfl, hdone⟩
  | closeClient h =>
      refine ⟨hs.up, hs.down, ?_⟩
      simp only [Stage, h] at hstage
      exact .inr ⟨rfl, hstage.2⟩

/-- While nothing has failed a task is broken only if the other has ended. -/
def Unbroken (s : Proxy) : Prop :=
  match s.phase with
  | .start | .connecting | .relaying => s.up.task ≠ .broken ∧ s.down.task ≠ .broken
  | .cancelling | .closing | .closed => s.up.task = .ended ∨ s.down.task = .ended

theorem unbroken_congr (hs : s.Unbroken) {up : Pump ClientMessage Frame}
    {down : Pump UpstreamMessage Frame} (hup : up.task = s.up.task)
    (hdown : down.task = s.down.task) :
    Unbroken { s with
      up := up
      down := down } := by
  simpa only [Unbroken, hup, hdown] using hs

theorem ended_of_over {β : Type} {task : Pump.Task β} (h : task ≠ .broken)
    (hover : task.over = true) : task = .ended := by
  cases task with
  | waiting | sending => cases hover
  | ended => rfl
  | broken => exact absurd rfl h

theorem Unbroken.move (hs : s.Unbroken) (hsmooth : m.smooth = true)
    (hmove : s.move m = some s') : s'.Unbroken := by
  cases does_of_move hmove with
  | importFails | connectFails => cases hsmooth
  | accept h | connect h | closeUpstream h | closeClient h => simpa only [Unbroken, h] using hs
  | up m up hpermits h =>
      rcases permits_cases hpermits with ⟨a, rfl, -⟩ | ⟨out, rfl, hphase⟩ | ⟨-, hcancel, hphase⟩
      · obtain rfl : _ = up := Option.some.inj h
        exact unbroken_congr hs rfl rfl
      · -- an ended task is not cancelled, so the other one has ended
        obtain ⟨hover, -⟩ := Pump.cancel_task h
        simp only [Unbroken, hphase] at hs ⊢
        refine .inr (hs.resolve_left fun hended => ?_)
        rw [hended] at hover
        cases hover
      · simp only [Unbroken, hphase] at hs ⊢
        exact ⟨Pump.unbroken_move hsmooth hcancel hs.1 h, hs.2⟩
  | down m down hpermits h =>
      rcases permits_cases hpermits with ⟨a, rfl, -⟩ | ⟨out, rfl, hphase⟩ | ⟨-, hcancel, hphase⟩
      · obtain rfl : _ = down := Option.some.inj h
        exact unbroken_congr hs rfl rfl
      · obtain ⟨hover, -⟩ := Pump.cancel_task h
        simp only [Unbroken, hphase] at hs ⊢
        refine .inl (hs.resolve_right fun hended => ?_)
        rw [hended] at hover
        cases hover
      · simp only [Unbroken, hphase] at hs ⊢
        exact ⟨hs.1, Pump.unbroken_move hsmooth hcancel hs.2 h⟩
  | wake h hover =>
      simp only [Unbroken, h] at hs ⊢
      rcases Bool.or_eq_true _ _ ▸ hover with hover | hover
      · exact .inl (ended_of_over hs.1 hover)
      · exact .inr (ended_of_over hs.2 hover)

/-! ## Runs -/

theorem clientSent_cons (m : Move) (rest : List Move) :
    clientSent (m :: rest) = clientSent [m] ++ clientSent rest :=
  List.filterMap_append (l := [m])

theorem upstreamSent_cons (m : Move) (rest : List Move) :
    upstreamSent (m :: rest) = upstreamSent [m] ++ upstreamSent rest :=
  List.filterMap_append (l := [m])

theorem sent_move (hmove : s.move m = some s') :
    s'.up.sent = s.up.sent ++ clientSent [m] ∧
      s'.down.sent = s.down.sent ++ upstreamSent [m] := by
  cases does_of_move hmove with
  | importFails | accept | connect | connectFails | wake | closeUpstream | closeClient =>
      exact ⟨(List.append_nil _).symm, (List.append_nil _).symm⟩
  | up m up hpermits h =>
      refine ⟨?_, (List.append_nil _).symm⟩
      cases m with
      | arrive a =>
          obtain rfl : _ = up := Option.some.inj h
          exact (List.append_assoc _ _ _).symm
      | receive | receiveFails | deliver | deliverFails | cancel =>
          exact (Pump.work_move rfl h).2.trans (List.append_nil _).symm
  | down m down hpermits h =>
      refine ⟨(List.append_nil _).symm, ?_⟩
      cases m with
      | arrive a =>
          obtain rfl : _ = down := Option.some.inj h
          exact (List.append_assoc _ _ _).symm
      | receive | receiveFails | deliver | deliverFails | cancel =>
          exact (Pump.work_move rfl h).2.trans (List.append_nil _).symm

theorem play_cons {moves : List Move} (h : s.play (m :: moves) = some s') :
    ∃ next, s.move m = some next ∧ next.play moves = some s' := Option.bind_eq_some_iff.mp h

theorem sent_play {moves : List Move} (h : s.play moves = some s') :
    s'.up.sent = s.up.sent ++ clientSent moves ∧
      s'.down.sent = s.down.sent ++ upstreamSent moves := by
  induction moves generalizing s with
  | nil =>
      obtain rfl : s = s' := Option.some.inj h
      exact ⟨(List.append_nil _).symm, (List.append_nil _).symm⟩
  | cons m rest ih =>
      obtain ⟨next, hmove, hrest⟩ := play_cons h
      obtain ⟨hup, hdown⟩ := ih hrest
      rw [hup, hdown, (sent_move hmove).1, (sent_move hmove).2, clientSent_cons m rest,
        upstreamSent_cons m rest]
      exact ⟨List.append_assoc _ _ _, List.append_assoc _ _ _⟩

theorem Inv.play {moves : List Move} (hs : Inv s) (h : s.play moves = some s') : Inv s' := by
  induction moves generalizing s with
  | nil => exact Option.some.inj h ▸ hs
  | cons m rest ih =>
      obtain ⟨next, hmove, hrest⟩ := play_cons h
      exact ih (hs.move hmove) hrest

theorem Unbroken.play {moves : List Move} (hs : s.Unbroken)
    (hsmooth : ∀ m ∈ moves, m.smooth = true) (h : s.play moves = some s') : s'.Unbroken := by
  induction moves generalizing s with
  | nil => exact Option.some.inj h ▸ hs
  | cons m rest ih =>
      obtain ⟨next, hmove, hrest⟩ := play_cons h
      exact ih (hs.move (hsmooth m List.mem_cons_self) hmove)
        (fun m' hm' => hsmooth m' (List.mem_cons_of_mem m hm')) hrest

/-! ## The end of a connection -/

/-- What is left to do if the peers send nothing more. -/
def work (s : Proxy) : Nat := s.phase.work + s.up.work + s.down.work

theorem work_move (hown : m.own = true) (hmove : s.move m = some s') :
    s'.work < s.work ∧ s'.up.sent = s.up.sent ∧ s'.down.sent = s.down.sent := by
  cases does_of_move hmove with
  | importFails h | accept h | connect h | connectFails h | wake h | closeUpstream h
  | closeClient h =>
      refine ⟨?_, rfl, rfl⟩
      simp only [work, h, Phase.work]
      omega
  | up m up hpermits h =>
      obtain ⟨hless, hsent⟩ := Pump.work_move hown h
      refine ⟨?_, hsent, rfl⟩
      simp only [work]
      omega
  | down m down hpermits h =>
      obtain ⟨hless, hsent⟩ := Pump.work_move hown h
      refine ⟨?_, rfl, hsent⟩
      simp only [work]
      omega

end Steps

/-- Whatever the interleaving, each side gets a prefix of what the other side sends, no frame
that was received is lost but the one in hand, and a direction whose source is seen to go has
delivered everything.  If nothing fails, one of the directions has when the proxy closes. -/
theorem relayed (moves : List Move) (s : Proxy) (h : play {} moves = some s) :
    (s.up.delivered <+: frames clientToUpstream (clientSent moves) ∧
      s.down.delivered <+: frames upstreamToClient (upstreamSent moves)) ∧
    ((frames clientToUpstream s.up.received).length ≤ s.up.delivered.length + 1 ∧
      (frames upstreamToClient s.down.received).length ≤ s.down.delivered.length + 1) ∧
    (s.up.task = .ended → s.up.delivered = frames clientToUpstream (clientSent moves)) ∧
    (s.down.task = .ended →
      s.down.delivered = frames upstreamToClient (upstreamSent moves)) ∧
    ((∀ m ∈ moves, m.smooth = true) → s.phase = .closed →
      s.up.delivered = frames clientToUpstream (clientSent moves) ∨
        s.down.delivered = frames upstreamToClient (upstreamSent moves)) := by
  have hs : Inv s := initial_inv.play h
  obtain ⟨hup, hdown⟩ := sent_play h
  have hup : s.up.sent = clientSent moves := hup
  have hdown : s.down.sent = upstreamSent moves := hdown
  rw [← hup, ← hdown]
  refine ⟨⟨hs.up.delivered_begins, hs.down.delivered_begins⟩, ⟨hs.up.length_le, hs.down.length_le⟩,
    hs.up.delivered_all, hs.down.delivered_all, fun hsmooth hclosed => ?_⟩
  have hinitial : Unbroken {} := ⟨by simp, by simp⟩
  have hended := hinitial.play hsmooth h
  simp only [Unbroken, hclosed] at hended
  exact hended.imp hs.up.delivered_all hs.down.delivered_all

/-- A client that sends one frame and goes. -/
def ping : List Move :=
  [.accept, .up (.arrive (.receive (some "ping") none)), .connect, .up .receive, .up .deliver,
    .down (.arrive (.message (.bytes [1]))), .up (.arrive .disconnect)]

/-- What the proxy does next. -/
def hangUp : List Move :=
  [.up .receive, .wake, .down (.cancel false), .closeUpstream, .closeClient]

def hungUp : Proxy :=
  { phase := .closed
    client := .closed 1000
    upstream := .closed 1000
    up := {
      received := [.receive (some "ping") none, .disconnect]
      delivered := [.text "ping"]
      task := .ended }
    down := {
      unread := [.message (.bytes [1])]
      task := .broken } }

theorem relayed_ping : play {} (ping ++ hangUp) = some hungUp ∧
    hungUp.up.delivered = frames clientToUpstream (clientSent (ping ++ hangUp)) :=
  ⟨rfl, (relayed (ping ++ hangUp) hungUp rfl).2.2.1 rfl⟩

end Proxy
end Gateway
end Rcp
