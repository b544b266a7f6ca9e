/-
Who changes the row of a device.

The upsert of a cursor finds its row by the id that the client has chosen, and looks neither
at the tenant nor at the user of the row.  A step of a `sync` frame can so change the row of
that id only, and never lowers its cursor.
-/
import Rcp.Rto.Model
import Rcp.Sql.Growth
import Rcp.Sql.Schedule

namespace Rcp
namespace Rto

open Sql Table

/-! ## What a statement does to the devices -/

/-- A statement of a call that writes rows whose id is in `ids`. -/
inductive DeviceStep (ids : String → Prop) (t : Sid) (w w' : World) : Prop
  | aside (h : w'.devices = w.devices)
  | raised (k : Nat) (d : Device) (cursor : Int) (now : Time)
      (hread : w.devices.read t k = some d) (hid : ids d.id)
      (hlock : w.devices.lockedFor t k = false)
      (h : w'.devices = w.devices.write t k
        { d with syncCursor := max d.syncCursor cursor, lastSeenAt := now })
  | added (d : Device) (h : w'.devices = w.devices.insert t d)
  | committed (h : w'.devices = w.devices.commit t)

section Programs

variable {ids : String → Prop} {β V : Type}

theorem devices_effect {f : World → β × World} (h : ∀ w, (f w).2.devices = w.devices) :
    (effect f).Only (DeviceStep ids) := by
  refine only_stmt fun t w b w' hrun => .aside ?_
  have hw : (f w).2 = w' := congrArg Prod.snd (Option.some.inj hrun)
  rw [← hw]
  exact h w

theorem devices_query (f : Sid → World → β) :
    (query f : Prog World Error β).Only (DeviceStep ids) :=
  only_query (fun _ _ => .aside rfl) f

theorem devices_commit : (commit : Prog World Error Unit).Only (DeviceStep ids) := by
  refine only_stmt fun t w b w' hrun => ?_
  cases hrun
  exact .committed rfl

variable {T : Access World V}

theorem devices_insert (hT : ∀ w x, (T.set w x).devices = w.devices) (row : Nat → V) :
    (Sql.insert T row : Prog World Error Nat).Only (DeviceStep ids) := by
  refine only_stmt fun t w b w' hrun => ?_
  cases hrun
  exact .aside (hT w _)

theorem devices_insertUnique (hT : ∀ w x, (T.set w x).devices = w.devices) (c : V → Bool)
    (row : Sid → V) :
    (insertUnique T c row : Prog World Error (Option Nat)).Only (DeviceStep ids) := by
  refine only_stmt fun t w b w' hrun => ?_
  cases b with
  | none =>
      rw [runInsertUnique_none hrun]
      exact .aside rfl
  | some n =>
      obtain ⟨-, -, -, rfl⟩ := runInsertUnique_some hrun
      exact .aside (hT w _)

theorem devices_updateWhere (hT : ∀ w x, (T.set w x).devices = w.devices) (k : Nat)
    (p : V → Bool) (f : V → V) :
    (updateWhere T k p f : Prog World Error (Option V)).Only (DeviceStep ids) := by
  refine only_stmt fun t w b w' hrun => ?_
  cases b with
  | none =>
      obtain ⟨rfl, -⟩ := runUpdate_none hrun
      exact .aside rfl
  | some v =>
      obtain ⟨u, -, -, -, -, rfl⟩ := runUpdate_some hrun
      exact .aside (hT w _)

theorem devices_processEvent {eventId : Uuid} {fn : Prog World Error β}
    (h : fn.Only (DeviceStep ids)) : (processEvent eventId fn).Only (DeviceStep ids) := by
  refine only_bind (devices_insertUnique (fun _ _ => rfl) _ _) fun found => ?_
  cases found with
  | none => exact only_bind devices_commit fun _ => trivial
  | some n => exact only_bind h fun _ => only_bind devices_commit fun _ => trivial

theorem devices_appendSyncEvent {tenantId : Option Uuid} {entityType : String}
    {entityId : Option Uuid} {op : String} {payload : Payload} :
    (appendSyncEvent tenantId entityType entityId op payload).Only (DeviceStep ids) :=
  only_bind (devices_query _) fun _ =>
    only_bind (devices_insert (fun _ _ => rfl) _) fun _ => trivial

theorem devices_onTaskAssigned (server : Nat) (event : Event) :
    (onTaskAssigned server event).Only (DeviceStep ids) := by
  unfold onTaskAssigned
  split
  · trivial
  · refine only_bind (devices_processEvent ?_) fun found => ?_
    · refine only_bind ?_ fun id => only_bind devices_appendSyncEvent fun _ => trivial
      exact only_bind (devices_query _) fun _ => devices_insert (fun _ _ => rfl) _
    · cases found with
      | none => trivial
      | some id =>
          refine only_bind (devices_effect fun _ => rfl) fun delivered => ?_
          split
          · trivial
          · exact devices_effect fun _ => rfl

theorem devices_handle (server : Nat) (event : Event) :
    (handle server event).Only (DeviceStep ids) := by
  unfold handle
  split
  · exact devices_onTaskAssigned server event
  · split
    · refine only_bind (devices_processEvent devices_appendSyncEvent) fun found => ?_
      cases found with
      | none => trivial
      | some _ => exact devices_effect fun _ => rfl
    · split
      · refine only_bind ?_ fun _ => ?_
        · unfold revokeUser
          split
          · trivial
          · exact only_bind (devices_effect fun _ => rfl) fun _ => devices_effect fun _ => rfl
        · unfold revokeJti
          split
          · trivial
          · exact devices_effect fun _ => rfl
      · split
        · unfold onTenantDeactivated
          split
          · exact devices_effect fun _ => rfl
          · trivial
        · refine only_bind (devices_processEvent devices_appendSyncEvent) fun found => ?_
          cases found with
          | none => trivial
          | some _ => exact devices_effect fun _ => rfl

theorem devices_trySendAll (socket : Nat) (messages : List Frame) :
    (trySendAll socket messages).Only (DeviceStep ids) := by
  induction messages with
  | nil => trivial
  | cons m rest ih => exact only_bind (devices_effect fun _ => rfl) fun _ => ih

theorem devices_upsertDeviceCursor {tenantId : Option Uuid} {userId : Uuid} {deviceId : String}
    {cursor : Int} (h : ids deviceId) :
    (upsertDeviceCursor tenantId userId deviceId cursor).Only (DeviceStep ids) := by
  refine only_bind (devices_query _) fun now => only_bind (only_stmt fun t w b w' hrun => ?_)
    fun _ => devices_commit
  unfold runUpsert at hrun
  split at hrun
  · rename_i k d hfind
    split at hrun
    · cases hrun
    · rename_i hlock
      cases hrun
      have hid : d.id = deviceId := by simpa using List.find?_some hfind
      obtain ⟨j, -, hj⟩ := List.mem_filterMap.mp (List.mem_of_find?_eq_some hfind)
      obtain ⟨v, hv, heq⟩ := Option.map_eq_some_iff.mp hj
      cases heq
      refine .raised k d cursor now hv ?_ (Bool.eq_false_iff.mpr hlock) rfl
      rw [hid]
      exact h
  · split at hrun
    · cases hrun
    · cases hrun
      exact .added _ rfl

theorem devices_handleSync (socket : Nat) (frame : SyncFrame) :
    (handleSync socket frame).Only (DeviceStep (· = frame.deviceId)) := by
  refine only_bind (devices_query _) fun found => ?_
  cases found with
  | none => trivial
  | some found =>
      refine only_bind (devices_trySendAll socket _) fun _ => ?_
      refine only_bind (devices_effect fun _ => rfl) fun _ => ?_
      split
      · trivial
      · exact devices_upsertDeviceCursor rfl

theorem devices_write (socket : Nat) : (writePump socket).Only (DeviceStep ids) := by
  refine only_stmt fun t w b w' hrun => .aside ?_
  unfold runWrite at hrun
  split at hrun
  · cases hrun
  · split at hrun
    · cases hrun
    · split at hrun
      · cases hrun
        rfl
      · cases hrun
        rfl

theorem devices_connect (server : Nat) (token : Iam.Claims) (device : Nat) :
    (Rto.connect server token device).Only (DeviceStep ids) := by
  refine only_bind (devices_query _) fun found => ?_
  cases found with
  | error e => trivial
  | ok claims => exact devices_effect fun _ => rfl

theorem devices_leave (socket : Nat) : (Rto.leave socket).Only (DeviceStep ids) := by
  refine only_bind (devices_effect fun w => ?_) fun _ => devices_effect fun _ => rfl
  split
  · rfl
  · rfl

end Programs

/-- The ids of the rows that a call can write. -/
def Call.ids : Call → String → Prop
  | .sync _ frame, id => id = frame.deviceId
  | .handle .., _ | .connect .., _ | .ack .., _ | .write .., _ | .leave .., _ | .tick .., _ =>
      False

theorem devices_body (a : Call) : a.body.Only (DeviceStep a.ids) := by
  cases a with
  | handle server event => exact devices_handle server event
  | connect server token device => exact devices_connect server token device
  | sync socket frame => exact devices_handleSync socket frame
  | ack socket notificationId =>
      refine only_bind (devices_query _) fun found => ?_
      cases found with
      | none => trivial
      | some c =>
          exact only_bind (devices_query _) fun _ =>
            only_bind (devices_updateWhere (fun _ _ => rfl) _ _ _) fun _ => devices_commit
  | write socket => exact devices_write socket
  | leave socket => exact devices_leave socket
  | tick span => exact devices_effect fun _ => rfl

/-! ## What a session has written -/

/-- A version that a session has written over a row has the id of the row and no lower
cursor, and its id is one that the call may write. -/
def Raises (ids : String → Prop) (t : Sid) (T : Table Device) : Prop :=
  ∀ k d', T.writes t k = some d' → ∀ d, T.committed k = some d →
    d'.id = d.id ∧ ids d.id ∧ d.syncCursor ≤ d'.syncCursor

/-- The rows stay, and only those with an id of the call may change. -/
def Keeps (ids : String → Prop) (T T' : Table Device) : Prop :=
  ∀ k d, T.committed k = some d → ∃ d', T'.committed k = some d' ∧
    d.syncCursor ≤ d'.syncCursor ∧ (d' = d ∨ ids d.id)

section Rows

variable {ids : String → Prop} {t : Sid} {T : Table Device}

theorem keeps_of_eq {T' : Table Device} (h : T'.committed = T.committed) : Keeps ids T T' := by
  intro k d hk
  exact ⟨d, by rw [h, hk], le_rfl, .inl rfl⟩

theorem Raises.of_idle (h : T.writes t = noRows) : Raises ids t T := by
  intro k d' hk
  rw [h] at hk
  cases hk

theorem Raises.raised (h : Raises ids t T) {k : Nat} {d : Device} (cursor : Int) (now : Time)
    (hread : T.read t k = some d) (hid : ids d.id) :
    Raises ids t (T.write t k
      { d with syncCursor := max d.syncCursor cursor, lastSeenAt := now }) := by
  intro j d' hj old hold
  rw [write_writes] at hj
  by_cases hjk : j = k
  · subst hjk
    rw [Function.update_self] at hj
    cases hj
    have hbelow : d.id = old.id ∧ old.syncCursor ≤ d.syncCursor := by
      cases hw : T.writes t j with
      | none =>
          rw [read_of_not_written hw] at hread
          rw [write_committed, hread] at hold
          cases hold
          exact ⟨rfl, le_rfl⟩
      | some v =>
          rw [read_of_writes hw] at hread
          cases hread
          obtain ⟨hsame, -, hle⟩ := h j d hw old hold
          exact ⟨hsame, hle⟩
    refine ⟨hbelow.1, ?_, hbelow.2.trans (le_max_left _ _)⟩
    rw [← hbelow.1]
    exact hid
  · rw [Function.update_of_ne hjk] at hj
    exact h j d' hj old hold

theorem Raises.added (h : Raises ids t T) (hb : T.Bounded) (d : Device) :
    Raises ids t (T.insert t d) := by
  intro j d' hj old hold
  rw [insert_writes] at hj
  by_cases hjn : j = T.next
  · subst hjn
    rw [insert_committed, (hb _ (Nat.le_refl _)).1] at hold
    cases hold
  · rw [Function.update_of_ne hjn] at hj
    exact h j d' hj old hold

theorem Raises.commit (h : Raises ids t T) : Keeps ids T (T.commit t) := by
  intro k d hk
  rw [commit_committed]
  cases hw : T.writes t k with
  | none => exact ⟨d, by rw [read_of_not_written hw, hk], le_rfl, .inl rfl⟩
  | some d' =>
      obtain ⟨-, hid, hle⟩ := h k d' hw d hk
      exact ⟨d', read_of_writes hw, hle, .inr hid⟩

theorem Raises.frame {o : Sid} {T' : Table Device} (h : Raises ids t T) (ho : o ≠ t)
    (hframe : Table.Frame o T T') : Raises ids t T' := by
  intro k d' hk d hd
  rw [hframe.writes_eq ho.symm] at hk
  rw [hframe.committed_eq ho.symm hk] at hd
  exact h k d' hk d hd

end Rows

/-! ## Runs -/

/-- A step leaves what the other sessions have written, and changes rows of its call only. -/
def owning : Discipline World Error Unit Call where
  Inv w := w.devices.Bounded
  Guar a t w w' := Table.Frame t w.devices w'.devices ∧ Keeps a.ids w.devices w'.devices
  Idle t w := w.devices.writes t = noRows
  Done _ _ _ _ := True
  guar_refl _ t w _ := ⟨.refl t _, keeps_of_eq rfl⟩
  idle_keep _ t o w w' ho _ hg hidle := (hg.1.writes_eq ho).trans hidle
  done_keep _ _ _ _ _ _ _ _ _ _ _ := trivial
  rollback_inv t w h := h.rollback t
  rollback_guar _ t w _ := ⟨rollback_frame t _, keeps_of_eq rfl⟩
  rollback_idle t w := rollback_writes _ t

theorem raises_stable (ids : String → Prop) (t : Sid) :
    owning.Stable t fun w => Raises ids t w.devices :=
  fun _ _ _ _ ho _ hg _ h => h.frame ho hg.1

theorem DeviceStep.guaranteed {a : Call} {t : Sid} {w w' : World} (hb : w.devices.Bounded)
    (hs : Raises a.ids t w.devices) (h : DeviceStep a.ids t w w') :
    w'.devices.Bounded ∧ owning.Guar a t w w' ∧ Raises a.ids t w'.devices := by
  show w'.devices.Bounded ∧ (Table.Frame t w.devices w'.devices ∧
    Keeps a.ids w.devices w'.devices) ∧ Raises a.ids t w'.devices
  cases h with
  | aside h =>
      rw [h]
      exact ⟨hb, ⟨.refl t _, keeps_of_eq rfl⟩, hs⟩
  | raised k d cursor now hread hid hlock h =>
      rw [h]
      exact ⟨hb.write _ (hb.lt_of_read hread), ⟨write_frame _ hlock, keeps_of_eq rfl⟩,
        hs.raised cursor now hread hid⟩
  | added d h =>
      rw [h]
      exact ⟨hb.insert t d, ⟨insert_frame hb d, keeps_of_eq rfl⟩, hs.added hb d⟩
  | committed h =>
      rw [h]
      exact ⟨hb.commit t, ⟨commit_frame t _, hs.commit⟩, .of_idle (commit_writes _ t)⟩

theorem owning_verified : owning.Verified (fun _ _ _ _ => True) Call.body := by
  intro a t w hw hidle
  exact safe_only (raises_stable a.ids t) (fun _ _ hi hs hstep => hstep.guaranteed hi hs)
    (devices_body a) hw (.of_idle hidle)

/-- The row of the frame's device, if there is one, is that of the socket's tenant and
user. -/
def OwnDevice (w : World) : Call → Prop
  | .sync socket frame => ∀ row ∈ w.devices.rows, row.2.id = frame.deviceId →
      ∃ c ∈ w.clients socket, row.2.tenantId = c.tenantId ∧ row.2.userId = c.userId
  | .handle .. | .connect .. | .ack .. | .write .. | .leave .. | .tick .. => True

instance (w : World) (a : Call) : Decidable (OwnDevice w a) :=
  match a with
  | .sync _ _ => inferInstanceAs (Decidable (∀ row ∈ w.devices.rows, _))
  | .handle .. | .connect .. | .ack .. | .write .. | .leave .. | .tick .. => isTrue trivial

/-- In every run, no step lowers the cursor of a device, and a step of a frame whose device
is new or its user's own changes rows of this tenant and user only. -/
theorem device_rows_owned {now : Time} {c c' : Config World Error Unit Call} {t : Sid}
    (hrun : Run Call.body (Config.start (World.initial now)) c) (hstep : Step Call.body c t c')
    {k : Nat} {d : Device} (hd : c.store.devices.committed k = some d) :
    (∃ d', c'.store.devices.committed k = some d' ∧ d.syncCursor ≤ d'.syncCursor) ∧
    ((∀ se, c.sessions t = some se → OwnDevice c.store se.call) →
      c'.store.devices.committed k = some d ∨
      ∃ se socket frame client, c.sessions t = some se ∧ se.call = .sync socket frame ∧
        c.store.clients socket = some client ∧ d.tenantId = client.tenantId ∧
        d.userId = client.userId) := by
  have hstart : (Config.start (World.initial now) : Config World Error Unit Call).Sound owning
      fun _ _ _ _ => True :=
    Config.start_sound empty_bounded fun _ => rfl
  have hsound := Run.sound owning_verified hstart hrun
  obtain ⟨-, hmoved⟩ := hstep.sound owning_verified hsound fun _ _ => trivial
  rcases hmoved with hsame | ⟨se, hse, -, hkeeps⟩
  · rw [hsame]
    exact ⟨⟨d, hd, le_rfl⟩, fun _ => .inl hd⟩
  · obtain ⟨d', hd', hle, hchanged⟩ := hkeeps k d hd
    refine ⟨⟨d', hd', hle⟩, fun hown => ?_⟩
    rcases hchanged with rfl | hid
    · exact .inl hd'
    · refine .inr ?_
      cases hcall : se.call with
      | sync socket frame =>
          rw [hcall] at hid
          have hmine := hown se hse
          rw [hcall] at hmine
          have hrow := (mem_rows hsound.inv).mpr hd
          obtain ⟨client, hclient, htenant, huser⟩ := hmine (k, d) hrow hid
          exact ⟨se, socket, frame, client, hse, hcall, hclient, htenant, huser⟩
      | handle | connect | ack | write | leave | tick =>
          rw [hcall] at hid
          exact hid.elim

/-! ## Two users with one device id -/

def deviceToken (tenantId : Option Uuid) (userId : Uuid) : Iam.Claims :=
  { sub := userId, userType := "volunteer", roles := [], iat := 0, exp := 900000000, jti := 1,
    tenantId := tenantId }

/-- Two users connect, and the first one stores the cursor of a device.  Then one of the
sockets sends a cursor for the same id, which is about to be committed. -/
def sharedPhone (socket : Nat) : List (Move Call) :=
  [.begin (.connect 0 (deviceToken (some 0) 5) 0), .next 0, .next 0,
    .begin (.connect 0 (deviceToken (some 1) 6) 1), .next 1, .next 1,
    .begin (.sync 0 { deviceId := "phone" }), .next 2, .next 2, .next 2, .next 2, .next 2,
    .begin (.sync socket { cursor := 7, deviceId := "phone" }), .next 3, .next 3, .next 3,
    .next 3]

/-- The session answers a frame of this socket. -/
def answers (socket : Nat) : Call → Bool
  | .sync q _ => q == socket
  | .handle .. | .connect .. | .ack .. | .write .. | .leave .. | .tick .. => false

/-- The schedule can be played.  The row is that of the first user, and the last commit
changes its cursor. -/
def phoneFacts (socket : Nat) : Option Bool :=
  ((Config.start (World.initial 0)).play Call.body (sharedPhone socket)).bind fun c =>
  (c.move Call.body (.next 3)).bind fun c' =>
  (c.store.devices.committed 0).bind fun d =>
  (c'.store.devices.committed 0).bind fun d' =>
  (c.store.clients socket).bind fun client =>
  (c.sessions 3).map fun se =>
    decide (d.tenantId = some 0 ∧ d.syncCursor = 0 ∧ d'.syncCursor = 7 ∧
      answers socket se.call = true ∧ client.tenantId = some socket ∧
      (socket = 0 → OwnDevice c.store se.call))

theorem phone_of_facts {socket : Nat} (h : phoneFacts socket = some true) :
    ∃ (c c' : Config World Error Unit Call) (d d' : Device) (client : Client)
      (se : Session World Error Unit Call),
      Run Call.body (Config.start (World.initial 0)) c ∧ Step Call.body c 3 c' ∧
      c.store.devices.committed 0 = some d ∧ c'.store.devices.committed 0 = some d' ∧
      c.store.clients socket = some client ∧ c.sessions 3 = some se ∧ d.tenantId = some 0 ∧
      d.syncCursor = 0 ∧ d'.syncCursor = 7 ∧ answers socket se.call = true ∧
      client.tenantId = some socket ∧ (socket = 0 → OwnDevice c.store se.call) := by
  simp only [phoneFacts, Option.bind_eq_some_iff, Option.map_eq_some_iff,
    decide_eq_true_eq] at h
  obtain ⟨c, hc, c', hc', d, hd, d', hd', client, hclient, se, hse, hfacts⟩ := h
  exact ⟨c, c', d, d', client, se, Config.play_run hc, Config.move_step hc', hd, hd', hclient,
    hse, hfacts⟩

theorem device_rows_owned_phone : ∃ (c c' : Config World Error Unit Call) (d : Device),
    c.store.devices.committed 0 = some d ∧ d.syncCursor = 0 ∧
    (∃ d', c'.store.devices.committed 0 = some d' ∧ d.syncCursor ≤ d'.syncCursor) ∧
    (c'.store.devices.committed 0 = some d ∨
      ∃ se socket frame client, c.sessions 3 = some se ∧ se.call = .sync socket frame ∧
        c.store.clients socket = some client ∧ d.tenantId = client.tenantId ∧
        d.userId = client.userId) := by
  obtain ⟨c, c', d, d', client, se, hrun, hstep, hd, -, -, hse, -, hcursor, -, -, -, hown⟩ :=
    phone_of_facts (show phoneFacts 0 = some true by decide +kernel)
  obtain ⟨hraised, howned⟩ := device_rows_owned hrun hstep hd
  refine ⟨c, c', d, hd, hcursor, hraised, howned fun se' hse' => ?_⟩
  rw [hse] at hse'
  cases hse'
  exact hown rfl

/-- The second user moves the cursor of the first one's device. -/
theorem device_row_of_another : ¬ ∀ (now : Time) (c c' : Config World Error Unit Call) (t : Sid),
    Run Call.body (Config.start (World.initial now)) c → Step Call.body c t c' →
    ∀ k d, c.store.devices.committed k = some d →
      (∃ d', c'.store.devices.committed k = some d' ∧ d.syncCursor ≤ d'.syncCursor) ∧
      (c'.store.devices.committed k = some d ∨
        ∃ se socket frame client, c.sessions t = some se ∧ se.call = .sync socket frame ∧
          c.store.clients socket = some client ∧ d.tenantId = client.tenantId ∧
          d.userId = client.userId) := by
  intro hclaim
  obtain ⟨c, c', d, d', client, se, hrun, hstep, hd, hd', hclient, hse, htenant, hcursor,
    hcursor', hanswers, hother, -⟩ :=
    phone_of_facts (show phoneFacts 1 = some true by decide +kernel)
  obtain ⟨-, hsame | ⟨se', socket, frame, client', hse', hcall, hclient', htenant', -⟩⟩ :=
    hclaim 0 c c' 3 hrun hstep 0 d hd
  · rw [hd', Option.some.injEq] at hsame
    rw [hsame, hcursor] at hcursor'
    exact absurd hcursor' (by decide)
  · rw [hse] at hse'
    cases hse'
    rw [hcall] at hanswers
    have hsocket : socket = 1 := by simpa [answers] using hanswers
    rw [hsocket, hclient] at hclient'
    cases hclient'
    rw [htenant, hother] at htenant'
    exact absurd htenant' (by decide)

end Rto
end Rcp
