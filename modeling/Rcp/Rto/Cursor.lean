/-
The cursor that a `sync` frame stores.

`handleSync` streams a page through the bounded channel of the socket and then stores the
cursor of the page, whether or not the frames have gone in.  Between two sends the writer
may take frames out of the channel, the hub may put others in, and the connection may be
closed.
-/
import Rcp.Rto.Pages

namespace Rcp
namespace Rto

open Sql

/-! ## The channel while a page is streamed -/

/-- What the other goroutines do to a socket. -/
inductive Between
  /-- `writePump` takes a frame. -/
  | take
  /-- The hub sends one. -/
  | send (message : Frame)
  | close

namespace Client

def between (c : Client) : Between → Client
  | .take => { c with send := c.send.tail }
  | .send message => c.trySend message
  | .close => c.close

def amid (c : Client) (actions : List Between) : Client := actions.foldl between c

/-- The loop of `handleSync`.  `pattern i` is what happens before the send with number `i`.
The rows are those for which `TrySend` returns true. -/
def stream (pattern : Nat → List Between) :
    Nat → Client → List (Nat × SyncEvent) → List (Nat × SyncEvent) × Client
  | _, c, [] => ([], c)
  | i, c, row :: rest =>
      let c := c.amid (pattern i)
      let result := stream pattern (i + 1) (c.trySend (syncEventFrame row)) rest
      (if c.hasRoom then row :: result.1 else result.1, result.2)

end Client

/-- What `handleSync` has done. -/
structure SyncOutcome where
  /-- The rows that went into the channel. -/
  enqueued : List (Nat × SyncEvent)
  client : Client
  /-- The cursor given to `UpsertDeviceCursor`, if it is called. -/
  written : Option Int

def syncOutcome (w : World) (c : Client) (frame : SyncFrame) (pattern : Nat → List Between) :
    SyncOutcome :=
  let rows := syncSince w c.tenantId frame.cursor syncBatchLimit
  let cursor := nextCursor frame.cursor rows
  let streamed := c.stream pattern 0 rows
  { enqueued := streamed.1
    client := (streamed.2.amid (pattern rows.length)).trySend (.syncComplete cursor rows.length)
    written := if frame.deviceId = "" then none else some cursor }

/-! ## The program behind it -/

/-- The pattern as changes of the world, none of them before the SELECT. -/
def environment (socket : Nat) (pattern : Nat → List Between) : Nat → World → World
  | 0, w => w
  | i + 1, w => w.forEach [socket] (Client.amid · (pattern i))

def World.setClient (w : World) (socket : Nat) (c : Client) : World :=
  { w with clients := Function.update w.clients socket (some c) }

theorem forEach_setClient (w : World) (socket : Nat) (c : Client) (f : Client → Client) :
    (w.setClient socket c).forEach [socket] f = w.setClient socket (f c) := by
  unfold World.forEach World.setClient
  congr 1
  funext k
  by_cases hk : k = socket
  · simp [hk]
  · simp [hk]

theorem setClient_self {w : World} {socket : Nat} {c : Client} (h : w.clients socket = some c) :
    w.setClient socket c = w := by
  unfold World.setClient
  rw [← h, Function.update_eq_self]

theorem execAmid_query {env : Nat → World → World} {t : Sid} {β γ : Type}
    (f : Sid → World → β) (g : β → Prog World Error γ) (n : Nat) (w : World) :
    (query f >>= g).execAmid env t n w =
      (g (f t (env n w))).execAmid env t (n + 1) (env n w) := rfl

theorem execAmid_trySend {socket : Nat} {pattern : Nat → List Between} {t : Sid} {β : Type}
    (message : Frame) (rest : Prog World Error β) (i : Nat) (w : World) (c : Client) :
    (trySend socket message >>= fun _ => rest).execAmid (environment socket pattern) t (i + 1)
        (w.setClient socket c) =
      rest.execAmid (environment socket pattern) t (i + 2)
        (w.setClient socket ((c.amid (pattern i)).trySend message)) := by
  have hsent : ((w.setClient socket c).forEach [socket]
        (Client.amid · (pattern i))).forEach [socket] (Client.trySend message) =
      w.setClient socket ((c.amid (pattern i)).trySend message) := by
    rw [forEach_setClient, forEach_setClient]
  show rest.execAmid _ t (i + 2) (((w.setClient socket c).forEach [socket]
    (Client.amid · (pattern i))).forEach [socket] (Client.trySend message)) = _
  rw [hsent]

theorem execAmid_trySendAll {socket : Nat} {pattern : Nat → List Between} {t : Sid} {β : Type}
    (rest : Prog World Error β) (rows : List (Nat × SyncEvent)) (i : Nat) (w : World)
    (c : Client) :
    (trySendAll socket (rows.map syncEventFrame) >>= fun _ => rest).execAmid
        (environment socket pattern) t (i + 1) (w.setClient socket c) =
      rest.execAmid (environment socket pattern) t (i + rows.length + 1)
        (w.setClient socket (c.stream pattern i rows).2) := by
  induction rows generalizing i c with
  | nil => rfl
  | cons row rows ih =>
      have hlength : i + (row :: rows).length + 1 = i + 1 + rows.length + 1 := by
        simp only [List.length_cons]
        omega
      rw [hlength]
      exact (execAmid_trySend (syncEventFrame row)
        (trySendAll socket (rows.map syncEventFrame) >>= fun _ => rest) i w c).trans
        (ih (i + 1) ((c.amid (pattern i)).trySend (syncEventFrame row)))

/-- The end of `handleSync`. -/
def storeCursor (c : Client) (frame : SyncFrame) : Option Int → Prog World Error Unit
  | none => return ()
  | some cursor => upsertDeviceCursor c.tenantId c.userId frame.deviceId cursor

/-- While the others follow the pattern, `handleSync` brings the socket to where the outcome
has it, and then stores the cursor that the outcome names. -/
theorem handleSync_amid {w : World} {socket : Nat} {c : Client} (frame : SyncFrame)
    (pattern : Nat → List Between) (t : Sid) (hc : w.clients socket = some c) :
    (handleSync socket frame).execAmid (environment socket pattern) t 0 w =
      (storeCursor c frame (syncOutcome w c frame pattern).written).execAmid
        (environment socket pattern) t
        ((syncSince w c.tenantId frame.cursor syncBatchLimit).length + 2)
        (w.setClient socket (syncOutcome w c frame pattern).client) := by
  have hstore : ∀ rows : List (Nat × SyncEvent),
      (if frame.deviceId = "" then pure ()
        else upsertDeviceCursor c.tenantId c.userId frame.deviceId
          (nextCursor frame.cursor rows)) =
      storeCursor c frame (if frame.deviceId = "" then none
        else some (nextCursor frame.cursor rows)) := by
    intro rows
    split
    · rfl
    · rfl
  have hself := setClient_self hc
  unfold handleSync syncOutcome
  rw [execAmid_query]
  simp only [environment, hc, Option.map_some, hstore]
  conv_lhs => rw [← hself]
  rw [execAmid_trySendAll, execAmid_trySend, hself]
  simp only [Nat.zero_add]

/-! ## What has been delivered -/

/-- Every row of the tenant above the cursor and up to `k` is among the given ones. -/
def DeliveredUpTo (w : World) (tenantId : Option Uuid) (cursor : Int)
    (enqueued : List (Nat × SyncEvent)) (k : Int) : Prop :=
  ∀ row ∈ w.syncEvents.rows, row.2.tenantId = tenantId → cursor < seqOf row.1 →
    seqOf row.1 ≤ k → row ∈ enqueued

/-- The value is not above the last `seq` up to which everything was delivered, which is the
cursor where nothing was. -/
def Behind (w : World) (tenantId : Option Uuid) (cursor : Int)
    (enqueued : List (Nat × SyncEvent)) (value : Int) : Prop :=
  ∃ k, (k = cursor ∨ ∃ row ∈ enqueued, seqOf row.1 = k) ∧
    DeliveredUpTo w tenantId cursor enqueued k ∧ value ≤ k

/-- How full the channel is after an action. -/
def Between.occupied (n : Nat) : Between → Nat
  | take => n - 1
  | send _ => if n < sendBuffer then n + 1 else n
  | close => n

/-- A channel that holds `n` frames has room for each of the next frames when it comes, the
first of them being the send with number `i`. -/
def KeepsUp (pattern : Nat → List Between) : Nat → Nat → Nat → Prop
  | _, _, 0 => True
  | i, n, frames + 1 =>
      (pattern i).foldl Between.occupied n < sendBuffer ∧
        KeepsUp pattern (i + 1) ((pattern i).foldl Between.occupied n + 1) frames

theorem trySend_length (message : Frame) (c : Client) : (c.trySend message).send.length =
    if c.send.length < sendBuffer then c.send.length + 1 else c.send.length := by
  by_cases h : c.send.length < sendBuffer
  · simp [Client.trySend, Client.hasRoom, h]
  · simp [Client.trySend, Client.hasRoom, Client.close, h]

theorem amid_length (actions : List Between) (c : Client) :
    (c.amid actions).send.length = actions.foldl Between.occupied c.send.length := by
  induction actions generalizing c with
  | nil => rfl
  | cons action rest ih =>
      have hone : (c.between action).send.length = Between.occupied c.send.length action := by
        cases action with
        | take => exact List.length_tail
        | send message => exact trySend_length message c
        | close => rfl
      show ((c.between action).amid rest).send.length = _
      rw [ih, hone]
      rfl

section Stream

variable (pattern : Nat → List Between)

theorem stream_sublist (rows : List (Nat × SyncEvent)) (i : Nat) (c : Client) :
    (c.stream pattern i rows).1.Sublist rows := by
  induction rows generalizing i c with
  | nil => exact List.Sublist.refl _
  | cons row rows ih =>
      simp only [Client.stream]
      split
      · exact (ih _ _).cons_cons row
      · exact (ih _ _).cons row

/-- The whole page goes in exactly if the channel keeps up. -/
theorem stream_eq_iff (rows : List (Nat × SyncEvent)) (i : Nat) (c : Client) :
    (c.stream pattern i rows).1 = rows ↔ KeepsUp pattern i c.send.length rows.length := by
  induction rows generalizing i c with
  | nil => exact iff_of_true rfl trivial
  | cons row rows ih =>
      have hlength := amid_length (pattern i) c
      simp only [Client.stream, List.length_cons, KeepsUp, Client.hasRoom, hlength,
        decide_eq_true_eq]
      by_cases hroom : (pattern i).foldl Between.occupied c.send.length < sendBuffer
      · have hnext : ((c.amid (pattern i)).trySend (syncEventFrame row)).send.length =
            (pattern i).foldl Between.occupied c.send.length + 1 := by
          rw [trySend_length, hlength, if_pos hroom]
        rw [if_pos hroom, List.cons.injEq, ih, hnext]
        simp [hroom]
      · rw [if_neg hroom]
        refine iff_of_false (fun heq => ?_) fun hkeeps => hroom hkeeps.1
        have hle := (stream_sublist pattern rows (i + 1)
          ((c.amid (pattern i)).trySend (syncEventFrame row))).length_le
        rw [heq, List.length_cons] at hle
        omega

end Stream

/-- No row of a page is above its last one. -/
theorem le_last {rows : List (Nat × SyncEvent)} (h : rows.Pairwise fun x y => x.1 < y.1)
    {row last : Nat × SyncEvent} (hlast : rows.getLast? = some last) (hrow : row ∈ rows) :
    row.1 ≤ last.1 := by
  obtain ⟨init, rfl⟩ := List.getLast?_eq_some_iff.mp hlast
  rcases List.mem_append.mp hrow with hinit | hend
  · have hlt := (List.pairwise_append.mp h).2.2 row hinit last (List.mem_singleton_self last)
    omega
  · rw [List.mem_singleton.mp hend]

theorem syncSince_sorted (w : World) (tenantId : Option Uuid) (cursor : Int) (limit : Nat) :
    (syncSince w tenantId cursor limit).Pairwise fun x y => x.1 < y.1 :=
  (w.syncEvents.rows_sorted.filter _).sublist (List.take_sublist _ _)

/-- A page delivers everything up to its cursor. -/
theorem deliveredUpTo_page (w : World) (tenantId : Option Uuid) (cursor : Int) (limit : Nat) :
    DeliveredUpTo w tenantId cursor (syncSince w tenantId cursor limit)
      (nextCursor cursor (syncSince w tenantId cursor limit)) := by
  intro row hrow htenant hafter hle
  cases hlast : (syncSince w tenantId cursor limit).getLast? with
  | none =>
      have hsame : nextCursor cursor (syncSince w tenantId cursor limit) = cursor := by
        rw [nextCursor, hlast]
      omega
  | some last =>
      rw [nextCursor_last hlast] at hle
      refine mem_take_of_le (w.syncEvents.rows_sorted.filter _) ?_ hlast ?_
      · exact List.mem_filter.mpr ⟨hrow, by simpa using ⟨htenant, hafter⟩⟩
      · unfold seqOf at hle
        omega

/-- What is behind the cursor of a page: only the whole page. -/
theorem behind_page_iff (w : World) (tenantId : Option Uuid) (cursor : Int) (limit : Nat)
    {enqueued : List (Nat × SyncEvent)}
    (hsub : enqueued.Sublist (syncSince w tenantId cursor limit)) :
    Behind w tenantId cursor enqueued
        (nextCursor cursor (syncSince w tenantId cursor limit)) ↔
      enqueued = syncSince w tenantId cursor limit := by
  have hsorted := syncSince_sorted w tenantId cursor limit
  constructor
  · rintro ⟨k, -, hdelivered, hle⟩
    have hnodup : (syncSince w tenantId cursor limit).Nodup :=
      hsorted.imp fun hlt heq => by rw [heq] at hlt; exact Nat.lt_irrefl _ hlt
    have hall : syncSince w tenantId cursor limit ⊆ enqueued := by
      intro row hrow
      obtain ⟨hmem, hcond⟩ := List.mem_filter.mp (List.mem_of_mem_take hrow)
      simp only [decide_eq_true_eq] at hcond
      have hsome := List.getLast?_isSome.mpr (List.ne_nil_of_mem hrow)
      obtain ⟨last, hlast⟩ := Option.isSome_iff_exists.mp hsome
      have hbelow := le_last hsorted hlast hrow
      rw [nextCursor_last hlast] at hle
      refine hdelivered row hmem hcond.1 hcond.2 ?_
      unfold seqOf at hle ⊢
      omega
    exact hsub.eq_of_length_le (hnodup.subperm hall).length_le
  · rintro rfl
    refine ⟨_, ?_, deliveredUpTo_page w tenantId cursor limit, le_rfl⟩
    cases hlast : (syncSince w tenantId cursor limit).getLast? with
    | none => exact .inl (by rw [nextCursor, hlast])
    | some last =>
        exact .inr ⟨last, List.mem_of_getLast? hlast, (nextCursor_last hlast).symm⟩

/-- The cursor that `handleSync` stores is behind what it has delivered exactly if no device
is named or the channel had room for every row of the page. -/
theorem stored_cursor_behind_iff (w : World) (c : Client) (frame : SyncFrame)
    (pattern : Nat → List Between) :
    (∀ cursor ∈ (syncOutcome w c frame pattern).written,
      Behind w c.tenantId frame.cursor (syncOutcome w c frame pattern).enqueued cursor) ↔
    frame.deviceId = "" ∨ KeepsUp pattern 0 c.send.length
      (syncSince w c.tenantId frame.cursor syncBatchLimit).length := by
  by_cases hdevice : frame.deviceId = ""
  · simp [syncOutcome, hdevice]
  · have hpage := behind_page_iff w c.tenantId frame.cursor syncBatchLimit
      (stream_sublist pattern (syncSince w c.tenantId frame.cursor syncBatchLimit) 0 c)
    rw [stream_eq_iff] at hpage
    simp only [syncOutcome, hdevice, if_false, false_or, Option.mem_def, Option.some.injEq,
      forall_eq']
    exact hpage

/-- One event, and a socket whose writer has stalled. -/
def stalledFeed : World :=
  { World.initial 0 with
    syncEvents := Table.ofList
      [{ tenantId := some 1, entityType := "task", entityId := none, op := "created",
         payload := .revoked none none, occurredAt := 0 }] }

def stalledClient : Client :=
  { server := 0
    tenantId := some 1
    userId := 5
    send := List.replicate 64 (.forceLogout "")
    device := 0
    token := { sub := 5, userType := "volunteer", roles := [], iat := 0, exp := 900000000,
               jti := 1, tenantId := some 1 } }

/-- The event is lost, and the cursor behind it is stored. -/
theorem stored_cursor_ahead : ¬ ∀ (w : World) (c : Client) (frame : SyncFrame)
    (pattern : Nat → List Between), ∀ cursor ∈ (syncOutcome w c frame pattern).written,
      Behind w c.tenantId frame.cursor (syncOutcome w c frame pattern).enqueued cursor := by
  intro hclaim
  have hwritten : (syncOutcome stalledFeed stalledClient { deviceId := "phone" }
      (fun _ => [])).written = some 1 := rfl
  have hnone : (syncOutcome stalledFeed stalledClient { deviceId := "phone" }
      (fun _ => [])).enqueued = [] := rfl
  obtain ⟨k, hk, -, hle⟩ := hclaim stalledFeed stalledClient { deviceId := "phone" }
    (fun _ => []) 1 hwritten
  rw [hnone] at hk
  rcases hk with rfl | ⟨row, hrow, -⟩
  · exact absurd hle (by decide)
  · cases hrow

end Rto
end Rcp
