/-
Offline replay.

A client sends back the cursor of a reply that it has got.  If no transaction is open
that has drawn a number below one of those the SELECT finds, then the reply leaves
nothing out that commits below its cursor, now or later.
-/
import Rcp.Rto.Feed

namespace Rcp
namespace Rto

open Sql Growth

variable {p : Peer} {w : World}

/-- The cursor is that of a reply the program has got, or that of a new program. -/
def SendsBack (p : Peer) (w : World) (cursor : Int) : Prop :=
  cursor = 0 ∨ ∃ m ∈ w.received p, m.cursor? = some cursor

/-- No row of the tenant that is still uncommitted is below one that the reply has. -/
def InOrder (tenantId : Option Uuid) (w : World) (cursor : Int) : Prop :=
  ∀ k < w.syncEvents.next, ∀ x ∈ w.syncEvents.pending k, x.2.tenantId = tenantId →
    ∀ row ∈ syncSince w tenantId cursor syncBatchLimit, row.1 < k

instance (cursor : Int) : Decidable (SendsBack p w cursor) :=
  inferInstanceAs (Decidable (_ ∨ _))

instance (tenantId : Option Uuid) (cursor : Int) : Decidable (InOrder tenantId w cursor) :=
  inferInstanceAs (Decidable (∀ k < w.syncEvents.next, ∀ x ∈ w.syncEvents.pending k, _))

/-- What the program has received, and what is on the way to it. -/
inductive Reaches (p : Peer) (w : World) : List Frame → Prop
  | received : Reaches p w (w.received p)
  | sent {q : Nat} {c : Client} (hc : w.clients q = some c) (hpeer : c.peer = p)
      (hopen : c.closed = false) : Reaches p w (w.received p ++ c.send)

/-! ## One reply -/

theorem SendsBack.complete {cursor : Int} (h : SendsBack p w cursor) (hw : Feeds p w) :
    Complete p.tenantId cursor (w.received p) w.syncEvents := by
  rcases h with rfl | ⟨m, hm, hcursor⟩
  · refine ⟨⟨Int.natCast_nonneg _, fun k _ _ _ _ => Int.natCast_nonneg k⟩, fun k _ _ _ hlt => ?_⟩
    exact absurd (Int.natCast_nonneg k) (Int.not_le.mpr hlt)
  · obtain ⟨pre, post, hsplit⟩ := List.append_of_mem hm
    refine (hw.received pre m post cursor hsplit hcursor).mono fun x hx => ?_
    rw [hsplit]
    exact List.mem_append_left _ hx

theorem mem_syncSince (hw : Feeds p w) {tenantId : Option Uuid} {cursor : Int} {limit k : Nat}
    {row : SyncEvent} (h : (k, row) ∈ syncSince w tenantId cursor limit) :
    w.syncEvents.committed k = some row := by
  have hrow := (List.mem_filter.mp (List.mem_of_mem_take h)).1
  exact (Table.mem_rows hw.feed.bounded).mp hrow

/-- The rows up to the last one of the reply have come, or come with it. -/
theorem reply_complete {cursor : Int} (hw : Feeds p w) (hback : SendsBack p w cursor)
    (horder : InOrder p.tenantId w cursor) :
    Complete p.tenantId (nextCursor cursor (syncSince w p.tenantId cursor syncBatchLimit))
      (w.received p ++ (syncSince w p.tenantId cursor syncBatchLimit).map syncEventFrame)
      w.syncEvents := by
  have hbefore := hback.complete hw
  generalize hrows : syncSince w p.tenantId cursor syncBatchLimit = rows
  cases hlast : rows.getLast? with
  | none =>
      have hcursor : nextCursor cursor rows = cursor := by simp only [nextCursor, hlast]
      rw [hcursor]
      exact hbefore.mono fun m hm => List.mem_append_left _ hm
  | some last =>
      have hcursor : nextCursor cursor rows = seqOf last.1 := by simp only [nextCursor, hlast]
      have hmem : last ∈ rows := List.mem_of_getLast? hlast
      have hdrawn : last.1 < w.syncEvents.next := by
        rw [← hrows] at hmem
        exact hw.feed.bounded.lt_of_committed (mem_syncSince hw hmem)
      rw [hcursor]
      refine ⟨⟨?_, fun k o row hpending htenant => ?_⟩, fun k row hk htenant hlt => ?_⟩
      · unfold seqOf
        omega
      · have hk : k < w.syncEvents.next := by
          by_contra hge
          rw [(hw.feed.bounded k (Nat.le_of_not_lt hge)).2] at hpending
          cases hpending
        have hbelow := horder k hk (o, row) hpending htenant last (by rw [hrows]; exact hmem)
        unfold seqOf
        omega
      · -- a row is either below the cursor of the request or found by the SELECT
        by_cases hafter : cursor < seqOf k
        · refine List.mem_append_right _ (List.mem_map.mpr ⟨(k, row), ?_, rfl⟩)
          rw [← hrows] at hlast ⊢
          refine mem_take_of_le (w.syncEvents.rows_sorted.filter _) ?_ hlast ?_
          · refine List.mem_filter.mpr ⟨(Table.mem_rows hw.feed.bounded).mpr hk, ?_⟩
            simp only [decide_eq_true_eq]
            exact ⟨htenant, hafter⟩
          · unfold seqOf at hlt
            omega
        · refine List.mem_append_left _ (hbefore.within k row hk htenant ?_)
          unfold seqOf at hafter
          omega

/-! ## The replay of a socket -/

/-- The socket is one of `p`, and the frames that are still to be sent complete a replay. -/
def Replays (p : Peer) (socket : Nat) (cursor : Int) (rest : List Frame) (w : World) : Prop :=
  ∃ c, w.clients socket = some c ∧ c.peer = p ∧ (c.closed = false →
    Complete p.tenantId cursor (w.stream p c ++ rest) w.syncEvents)

theorem replays_lasting (socket : Nat) (cursor : Int) (rest : List Frame) :
    (feed p).Lasting (Replays p socket cursor rest) := by
  rintro w w' ⟨-, hle⟩ ⟨c, hc, hpeer, hcomplete⟩
  obtain ⟨c', hc', hcarried⟩ := hle.clients socket c hc
  refine ⟨c', hc', hcarried.peer.trans hpeer, fun hopen => ?_⟩
  refine (hle.complete _ _ _ (hcomplete (hcarried.opened hopen))).mono fun m hm => ?_
  rcases List.mem_append.mp hm with hm | hm
  · exact List.mem_append_left _ (hcarried.frames hopen hpeer m hm)
  · exact List.mem_append_right _ hm

/-- The socket is one of another program. -/
def Elsewhere (p : Peer) (socket : Nat) (w : World) : Prop :=
  ∃ c, w.clients socket = some c ∧ c.peer ≠ p

theorem elsewhere_lasting (socket : Nat) : (feed p).Lasting (Elsewhere p socket) := by
  rintro w w' ⟨-, hle⟩ ⟨c, hc, hpeer⟩
  obtain ⟨c', hc', hcarried⟩ := hle.clients socket c hc
  exact ⟨c', hc', fun h => hpeer (hcarried.peer.symm.trans h)⟩

/-- A frame goes into the channel. -/
theorem Replays.send {socket : Nat} {cursor : Int} {m : Frame} {rest : List Frame}
    (h : Replays p socket cursor (m :: rest) w) :
    Replays p socket cursor rest (w.forEach [socket] (Client.trySend m)) := by
  obtain ⟨c, hc, hpeer, hcomplete⟩ := h
  refine ⟨c.trySend m, ?_, (trySend_peer m c).trans hpeer, fun hopen => ?_⟩
  · simp [World.forEach, hc]
  · obtain ⟨hopen', hsend⟩ := trySend_open hopen
    refine (hcomplete hopen').mono fun x hx => ?_
    show x ∈ w.received p ++ (c.trySend m).send ++ rest
    rw [hsend]
    simpa [World.stream] using hx

theorem takes_trySendAll {socket : Nat} {cursor : Int} {l rest : List Frame} (hw : Feeds p w)
    (hplain : ∀ m ∈ l, Plain m) (h : Replays p socket cursor (l ++ rest) w) :
    (feed p).Takes (fun _ w => Replays p socket cursor rest w) (trySendAll socket l) w := by
  induction l generalizing w with
  | nil => exact h
  | cons m l ih =>
      intro t b w' hrun
      cases hrun
      have hup : (feed p).Up w (w.forEach [socket] (Client.trySend m)) :=
        Moves.feeds (t := t) hw (.send _ _ (hplain m List.mem_cons_self))
      refine ⟨hup, fun w'' hup' => ?_⟩
      exact ih hup'.1 (fun x hx => hplain x (List.mem_cons_of_mem _ hx))
        (replays_lasting socket cursor _ _ _ hup' h.send)

/-- The `sync_complete` of a replay of `p`, or one for another program. -/
theorem takes_complete {socket : Nat} {cursor : Int} {count : Nat} (hw : Feeds p w)
    (h : Replays p socket cursor [] w ∨ Elsewhere p socket w) :
    (feed p).Takes (fun _ _ => True) (trySend socket (.syncComplete cursor count)) w := by
  refine takes_stmt fun t b w' hrun => ⟨?_, fun _ _ => trivial⟩
  cases hrun
  refine hw.send [socket] fun q hq c k hc hpeer hopen hcursor => ?_
  rw [List.mem_singleton.mp hq] at hc
  cases hcursor
  rcases h with ⟨c', hc', -, hcomplete⟩ | ⟨c', hc', hne⟩
  · rw [hc] at hc'
    cases hc'
    have hframes := hcomplete hopen
    rwa [List.append_nil] at hframes
  · rw [hc] at hc'
    cases hc'
    exact absurd hpeer hne

theorem takes_plain {β : Type} {prog : Prog World Error β} (h : prog.Only (Moves Plain))
    (hw : Feeds p w) : (feed p).Takes (fun _ _ => True) prog w :=
  takes_only h (fun _ _ _ hs hm => Moves.feeds hs hm) hw

theorem plain_rows {rows : List (Nat × SyncEvent)} :
    ∀ m ∈ rows.map syncEventFrame, Plain m := by
  intro m hm
  obtain ⟨row, -, rfl⟩ := List.mem_map.mp hm
  rfl

/-- The request is served well, if it comes from `p`. -/
def Served (p : Peer) (w : World) : Call → Prop
  | .sync socket frame => ∀ c ∈ w.clients socket, c.peer = p →
      SendsBack p w frame.cursor ∧ InOrder p.tenantId w frame.cursor
  | .handle .. | .connect .. | .ack .. | .write .. | .leave .. | .tick .. => True

/-- The request sends back a cursor, if it comes from `p`. -/
def Honest (p : Peer) (w : World) : Call → Prop
  | .sync socket frame => ∀ c ∈ w.clients socket, c.peer = p → SendsBack p w frame.cursor
  | .handle .. | .connect .. | .ack .. | .write .. | .leave .. | .tick .. => True

instance (a : Call) : Decidable (Served p w a) :=
  match a with
  | .sync _ _ => inferInstanceAs (Decidable (∀ c ∈ w.clients _, _))
  | .handle .. | .connect .. | .ack .. | .write .. | .leave .. | .tick .. => isTrue trivial

instance (a : Call) : Decidable (Honest p w a) :=
  match a with
  | .sync _ _ => inferInstanceAs (Decidable (∀ c ∈ w.clients _, _))
  | .handle .. | .connect .. | .ack .. | .write .. | .leave .. | .tick .. => isTrue trivial

theorem takes_handleSync {socket : Nat} {frame : SyncFrame} (hw : Feeds p w)
    (hserved : Served p w (.sync socket frame)) :
    (feed p).Takes (fun _ _ => True) (handleSync socket frame) w := by
  -- what the SELECT finds is what the rest of the call sends
  refine takes_bind (R := fun found u => ∀ x, found = some x →
      (x.1.peer = p ∧ Replays p socket (nextCursor frame.cursor x.2)
        (x.2.map syncEventFrame) u) ∨ Elsewhere p socket u) hw ?_ ?_
  · refine takes_query hw fun t u hup x hx => ?_
    obtain ⟨c, hc, rfl⟩ := Option.map_eq_some_iff.mp hx
    by_cases hpeer : c.peer = p
    · refine .inl ⟨hpeer, replays_lasting socket _ _ _ _ hup ⟨c, hc, hpeer, fun _ => ?_⟩⟩
      obtain ⟨hback, horder⟩ := hserved c hc hpeer
      have htenant : c.tenantId = p.tenantId := by rw [← hpeer]; rfl
      simp only [htenant]
      refine (reply_complete hw hback horder).mono fun m hm => ?_
      rcases List.mem_append.mp hm with hm | hm
      · exact List.mem_append_left _ (List.mem_append_left _ hm)
      · exact List.mem_append_right _ hm
    · exact .inr (elsewhere_lasting socket _ _ hup ⟨c, hc, hpeer⟩)
  · intro found u hup hfound
    cases found with
    | none => exact takes_ret trivial
    | some x =>
        have hend : ∀ {w}, Feeds p w → (feed p).Takes (fun _ _ => True) (if frame.deviceId = ""
            then pure () else upsertDeviceCursor x.1.tenantId x.1.userId frame.deviceId
              (nextCursor frame.cursor x.2)) w := by
          intro w hw
          split
          · exact takes_ret trivial
          · exact takes_plain only_upsertDeviceCursor hw
        refine takes_bind (R := fun _ w => Replays p socket (nextCursor frame.cursor x.2) [] w ∨
          Elsewhere p socket w) hup.1 ?_ fun _ w hupw hw' => ?_
        · rcases hfound x rfl with ⟨-, hreplays⟩ | helse
          · have hall : Replays p socket (nextCursor frame.cursor x.2)
                (x.2.map syncEventFrame ++ []) u := by
              rw [List.append_nil]
              exact hreplays
            exact takes_mono (takes_trySendAll hup.1 plain_rows hall) hup.1
              fun _ _ _ h => .inl h
          · exact takes_mono (takes_plain (only_trySendAll plain_rows) hup.1) hup.1
              fun _ w hupw _ => .inr (elsewhere_lasting socket _ _ hupw helse)
        · exact takes_bind hupw.1 (takes_complete hupw.1 hw') fun _ w hupw _ => hend hupw.1

theorem feed_verified (p : Peer) :
    ((feed p).discipline (ε := Error) (fun (_ : Call) (_ : Unit) _ => True)
      fun _ _ _ _ _ _ => trivial).Verified (fun a w _ _ => Served p w a) Call.body := by
  refine verified fun a w hw hstart => ?_
  by_cases hsync : ∀ socket frame, a ≠ .sync socket frame
  · exact takes_plain (only_plain hsync) hw
  · push Not at hsync
    obtain ⟨socket, frame, rfl⟩ := hsync
    exact takes_handleSync hw (hstart rfl)

/-- In every run whose requests are served well, a row up to the cursor of a
`sync_complete` has come before it. -/
theorem replay_without_gap {now : Time} {c : Config World Error Unit Call}
    (h : RunWith Call.body (fun a w _ _ => Served p w a) (Config.start (World.initial now)) c)
    {frames pre post : List Frame} (hframes : Reaches p c.store frames) {cursor : Int}
    {count : Nat} (hsplit : frames = pre ++ .syncComplete cursor count :: post) {k : Nat}
    {row : SyncEvent} (hrow : c.store.syncEvents.committed k = some row)
    (htenant : row.tenantId = p.tenantId) (hle : seqOf k ≤ cursor) :
    syncEventFrame (k, row) ∈ pre := by
  have hw : Feeds p c.store :=
    (runWith_up (feed_verified p)
      (Config.start_sound (initial_feeds p now) fun _ => trivial) h).1
  have hgapless : Gapless p.tenantId frames c.store.syncEvents := by
    cases hframes with
    | received => exact hw.received
    | sent hc hpeer hopen => exact hw.streams _ _ hc hpeer hopen
  refine (hgapless pre _ post cursor hsplit rfl).within k row hrow htenant ?_
  unfold seqOf at hle
  omega

/-! ## Two alerts and one client -/

def mira : Peer := { tenantId := some 0, userId := 5, device := 0 }

def miraToken : Iam.Claims :=
  { sub := 5, userType := "volunteer", roles := [], iat := 0, exp := 900000000, jti := 1,
    tenantId := some 0 }

def alertEvent (id : Uuid) (title : String) : Event :=
  { eventId := id
    eventType := "logistics.alert.created"
    tenantId := some 0
    data := .alert id title "" "warning" "" "" }

/-- Two processes have drawn the numbers 1 and 2. -/
def bothDrawn : List (Move Call) :=
  [.begin (.handle 0 (alertEvent 8 "Flood")), .next 0, .next 0, .next 0,
    .begin (.handle 1 (alertEvent 9 "Shelter")), .next 1, .next 1, .next 1]

/-- The client connects and catches up, and gets so many frames. -/
def catchesUp (rows : Nat) : List (Move Call) :=
  [.begin (.connect 0 miraToken 0), .next 2, .next 2, .close 2, .begin (.sync 0 {}), .next 3] ++
    List.replicate (rows + 1) (.next 3) ++
    (List.range (rows + 1)).flatMap fun i => [.begin (.write 0), .next (4 + i)]

def alertFrame (seq : Int) (id : Uuid) (title : String) : Frame :=
  .syncEvent seq "alert" (some id) "created" (.alert id title "" "warning" "" "") 0

/-- The schedule can be played and gives the client these frames, and the first row is
committed. -/
def plays (adm : World → Call → Prop) [∀ w a, Decidable (adm w a)] (l : List (Move Call))
    (frames : List Frame) : Option Bool :=
  ((Config.start (World.initial 0)).playWith Call.body (fun a w _ _ => adm w a) l).bind fun c =>
  (c.store.syncEvents.committed 0).map fun row =>
    decide (c.store.received mira = frames ∧ row.tenantId = some 0 ∧
      syncEventFrame (0, row) = alertFrame 1 8 "Flood")

theorem run_of_plays (adm : World → Call → Prop) [∀ w a, Decidable (adm w a)]
    (l : List (Move Call)) (frames : List Frame) (h : plays adm l frames = some true) :
    ∃ (c : Config World Error Unit Call) (row : SyncEvent),
      RunWith Call.body (fun a w _ _ => adm w a) (Config.start (World.initial 0)) c ∧
      c.store.received mira = frames ∧ c.store.syncEvents.committed 0 = some row ∧
      row.tenantId = some 0 ∧ syncEventFrame (0, row) = alertFrame 1 8 "Flood" := by
  simp only [plays, Option.bind_eq_some_iff, Option.map_eq_some_iff, decide_eq_true_eq] at h
  obtain ⟨c, hc, row, hrow, hreceived, htenant, hframe⟩ := h
  exact ⟨c, row, Config.playWith_run hc, hreceived, hrow, htenant, hframe⟩

/-- Both alerts are committed when the client catches up. -/
theorem replay_without_gap_mira : ∃ (c : Config World Error Unit Call) (row : SyncEvent),
    c.store.received mira =
      [alertFrame 1 8 "Flood", alertFrame 2 9 "Shelter", .syncComplete 2 2] ∧
    c.store.syncEvents.committed 0 = some row ∧
    syncEventFrame (0, row) ∈ [alertFrame 1 8 "Flood", alertFrame 2 9 "Shelter"] := by
  obtain ⟨c, row, hrun, hreceived, hrow, htenant, -⟩ :=
    run_of_plays (Served mira) (bothDrawn ++ [.next 0, .next 1] ++ catchesUp 2)
      [alertFrame 1 8 "Flood", alertFrame 2 9 "Shelter", .syncComplete 2 2] (by decide +kernel)
  refine ⟨c, row, hreceived, hrow, ?_⟩
  have hsplit : c.store.received mira =
      [alertFrame 1 8 "Flood", alertFrame 2 9 "Shelter"] ++ .syncComplete 2 2 :: [] := hreceived
  exact replay_without_gap hrun .received hsplit hrow htenant (by decide)

/-- The second alert is committed when the client catches up, and the first one later. -/
theorem replay_misses_row : ¬ ∀ (p : Peer) (now : Time) (c : Config World Error Unit Call),
    RunWith Call.body (fun a w _ _ => Honest p w a) (Config.start (World.initial now)) c →
    ∀ frames pre post : List Frame, Reaches p c.store frames →
    ∀ (cursor : Int) (count : Nat), frames = pre ++ .syncComplete cursor count :: post →
    ∀ (k : Nat) (row : SyncEvent), c.store.syncEvents.committed k = some row →
      row.tenantId = p.tenantId → seqOf k ≤ cursor → syncEventFrame (k, row) ∈ pre := by
  intro hclaim
  obtain ⟨c, row, hrun, hreceived, hrow, htenant, hframe⟩ :=
    run_of_plays (Honest mira) (bothDrawn ++ [.next 1] ++ catchesUp 1 ++ [.next 0])
      [alertFrame 2 9 "Shelter", .syncComplete 2 1] (by decide +kernel)
  have hmem := hclaim mira 0 c hrun _ [alertFrame 2 9 "Shelter"] [] .received 2 1 hreceived 0 row
    hrow htenant (by decide)
  rw [hframe] at hmem
  revert hmem
  decide

end Rto
end Rcp
