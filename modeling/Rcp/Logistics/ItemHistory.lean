/-
The events of one inventory item.

`reserve_stock` and `release_stock` read `updated_at` for the event before the flush
that sets it anew, so an event carries the stamp of the state before its own change.
What the events of an item then show, in the order they were emitted: the last one
shows the committed stock and no other has a newer stamp.  Those that share its stamp
all show the stock before it.
-/
import Mathlib.Order.WithBot
import Rcp.Logistics.Sequential

namespace Rcp
namespace Logistics

open Sql Sql.Table

/-- The envelopes in the outbox, in its order. -/
def Db.events (s : Db) : List (Envelope Message) := s.outbox.values.map Outbox.payload

/-- `updated_at` of the events that carry it. -/
def Message.stamp : Message → WithBot Time
  | requestSubmitted _ _ _ _ _ _ updatedAt => updatedAt
  | requestStatusChanged _ _ _ _ _ _ _ updatedAt => updatedAt
  | itemUpdated _ _ _ _ _ _ _ updatedAt => updatedAt
  | resourceCategory _ _ _ _ _ updatedAt => updatedAt
  | taskAssigned .. | lowStock .. => ⊥

/-- The transaction's time. -/
def Call.now : Call → Time
  | createRequest _ _ now => now
  | updateStatus _ _ _ now => now
  | assignTask _ _ now => now
  | addInventoryItem _ _ now => now
  | reserveStock _ _ _ now => now
  | releaseStock _ _ _ now => now

/-- The quantities of an item and its status. -/
structure Stock where
  quantityTotal : Int
  quantityReserved : Int
  quantityAvailable : Int
  status : String
  deriving DecidableEq

def InventoryItem.stock (item : InventoryItem) : Stock :=
  { quantityTotal := item.quantityTotal
    quantityReserved := item.quantityReserved
    quantityAvailable := item.quantityAvailable
    status := item.status.value }

/-- The stock that an event shows. -/
def Message.stock? : Message → Option Stock
  | itemUpdated _ _ _ total reserved available status _ =>
      some
        { quantityTotal := total
          quantityReserved := reserved
          quantityAvailable := available
          status := status.value }
  | _ => none

def Message.updates (k : Uuid) : Message → Bool
  | itemUpdated itemId .. => itemId == k
  | _ => false

/-- The item-updated events of item `k`. -/
def itemEvents (k : Uuid) (events : List (Envelope Message)) : List (Envelope Message) :=
  events.filter fun event => event.data.updates k

/-- An event that says of item `k` what the service says of it. -/
def ItemEvent (k : Uuid) (item : InventoryItem) (event : Envelope Message) : Prop :=
  event.eventType = "logistics.inventory.item-updated" ∧
    event.tenantId = some item.tenantId ∧ ∃ total reserved available status updatedAt,
      event.data = .itemUpdated k item.categoryId item.name total reserved available status
        updatedAt

/-- What the events `E` and the last one `f` tell of the item. -/
structure Story (k : Uuid) (item : InventoryItem) (E : List (Envelope Message))
    (f : Envelope Message) : Prop where
  form : ∀ x ∈ E ++ [f], ItemEvent k item x
  shown : f.data.stock? = some item.stock
  newest : ∀ x ∈ E ++ [f], x.data.stamp ≤ f.data.stamp
  behind : f.data.stamp ≤ item.updatedAt
  /-- An event with the stamp of the row shows the row. -/
  fresh : ∀ x ∈ E ++ [f], x.data.stamp = item.updatedAt → x.data.stock? = some item.stock
  ties : ∀ x ∈ E, ∀ y ∈ E, x.data.stamp = f.data.stamp → y.data.stamp = f.data.stamp →
    x.data.stock? = y.data.stock?

/-- The events of item `k` after the calls `past`. -/
def Told (k : Uuid) (past : List Call) (s : Db) : Prop :=
  match s.items.committed k with
  | none => itemEvents k s.events = []
  | some item => (∃ a ∈ past, item.updatedAt = a.now) ∧
      ∃ E f, itemEvents k s.events = E ++ [f] ∧ Story k item E f

section Stock

variable {a : Call} {k : Nat} {item changed : InventoryItem} {now : Time}

theorem StockCall.now_eq (h : StockCall a k item changed now) : a.now = now := by
  cases h with
  | reserved => rfl
  | released => rfl

/-- A stock call changes the reserved quantity and the status only. -/
theorem StockCall.kept (h : StockCall a k item changed now) :
    changed.tenantId = item.tenantId ∧ changed.categoryId = item.categoryId ∧
      changed.name = item.name ∧ changed.updatedAt = item.updatedAt := by
  have hcolumns := h.columns
  rw [← hcolumns]
  exact ⟨rfl, rfl, rfl, rfl⟩

theorem stamped_kept (item changed : InventoryItem) (now : Time) :
    (stamped item changed now).stock = changed.stock ∧
      (stamped item changed now).tenantId = changed.tenantId ∧
      (stamped item changed now).categoryId = changed.categoryId ∧
      (stamped item changed now).name = changed.name := by
  unfold stamped
  split
  · rename_i heq
    rw [heq]
    exact ⟨rfl, rfl, rfl, rfl⟩
  · exact ⟨rfl, rfl, rfl, rfl⟩

theorem ItemEvent.congr {item' : InventoryItem} {x : Envelope Message} (h : ItemEvent k item x)
    (htenant : item'.tenantId = item.tenantId) (hcategory : item'.categoryId = item.categoryId)
    (hname : item'.name = item.name) : ItemEvent k item' x := by
  unfold ItemEvent at h ⊢
  rw [htenant, hcategory, hname]
  exact h

/-- The new event stands under the stamp of the row before the call. -/
theorem Story.step {E : List (Envelope Message)} {f f' : Envelope Message} (h : Story k item E f)
    (ha : StockCall a k item changed now) (hnow : item.updatedAt < now)
    (htype : f'.eventType = "logistics.inventory.item-updated")
    (htenant : f'.tenantId = some item.tenantId)
    (hdata : f'.data = itemMessage k changed item.updatedAt) :
    Story k (stamped item changed now) (E ++ [f]) f' := by
  obtain ⟨hten, hcat, hname, -⟩ := ha.kept
  obtain ⟨hstock, hten', hcat', hname'⟩ := stamped_kept item changed now
  have hstamp : f'.data.stamp = item.updatedAt := by
    rw [hdata]
    rfl
  have hshown : f'.data.stock? = some changed.stock := by
    rw [hdata]
    rfl
  have hle : ∀ x ∈ E ++ [f], x.data.stamp ≤ item.updatedAt :=
    fun x hx => le_trans (h.newest x hx) h.behind
  have hform : ∀ x, ItemEvent k item x → ItemEvent k (stamped item changed now) x :=
    fun x hx => hx.congr (hten'.trans hten) (hcat'.trans hcat) (hname'.trans hname)
  refine ⟨fun x hx => ?_, ?_, fun x hx => ?_, ?_, fun x hx hx' => ?_, fun x hx y hy hx' hy' => ?_⟩
  · rcases List.mem_append.mp hx with hx | hx
    · exact hform x (h.form x hx)
    · rw [List.mem_singleton.mp hx]
      refine hform f' ⟨htype, htenant, ?_⟩
      rw [hdata, itemMessage, hcat, hname]
      exact ⟨_, _, _, _, _, rfl⟩
  · rw [hshown, hstock]
  · rw [hstamp]
    rcases List.mem_append.mp hx with hx | hx
    · exact hle x hx
    · rw [List.mem_singleton.mp hx, hstamp]
  · rw [hstamp]
    unfold stamped
    split
    · exact le_refl _
    · exact WithBot.coe_le_coe.mpr (le_of_lt hnow)
  · rw [hstock]
    unfold stamped at hx'
    split at hx'
    · rename_i heq
      rcases List.mem_append.mp hx with hx | hx
      · rw [h.fresh x hx hx', heq]
      · rw [List.mem_singleton.mp hx, hshown]
    · have hlt : x.data.stamp < (now : WithBot Time) := by
        refine lt_of_le_of_lt ?_ (WithBot.coe_lt_coe.mpr hnow)
        rcases List.mem_append.mp hx with hx | hx
        · exact hle x hx
        · rw [List.mem_singleton.mp hx, hstamp]
      exact absurd hx' (ne_of_lt hlt)
  · rw [hstamp] at hx' hy'
    rw [h.fresh x hx hx', h.fresh y hy hy']

end Stock

/-! ## Histories -/

section Histories

variable {a : Call} {k : Nat} {past : List Call} {w w' : Rows} {s s' : Db}

theorem itemEvents_append (k : Uuid) (events l : List (Envelope Message)) :
    itemEvents k (events ++ l) = itemEvents k events ++ itemEvents k l :=
  List.filter_append events l

/-- Nothing about item `k` happens. -/
theorem Told.aside (h : Told k past s) {l : List (Outbox Message)}
    (hitems : s'.items.committed k = s.items.committed k)
    (hvalues : s'.outbox.values = s.outbox.values ++ l)
    (hl : ∀ row ∈ l, row.payload.data.updates k = false) : Told k (past ++ [a]) s' := by
  have hevents : itemEvents k s'.events = itemEvents k s.events := by
    unfold Db.events
    rw [hvalues, List.map_append, itemEvents_append]
    have hnone : itemEvents k (l.map Outbox.payload) = [] := by
      refine List.filter_eq_nil_iff.mpr fun event hevent => ?_
      obtain ⟨row, hrow, rfl⟩ := List.mem_map.mp hevent
      simp [hl row hrow]
    rw [hnone, List.append_nil]
  unfold Told at h ⊢
  rw [hitems, hevents]
  cases hk : s.items.committed k with
  | none =>
      rw [hk] at h
      exact h
  | some item =>
      rw [hk] at h
      obtain ⟨⟨b, hb, hnow⟩, hstory⟩ := h
      exact ⟨⟨b, List.mem_append_left _ hb, hnow⟩, hstory⟩

/-- The first event of an item. -/
theorem Told.added {tenant : Uuid} {data : InventoryItemCreate} {row : Outbox Message} {o : Nat}
    {now : Time}
    (h : Told k past s) (hnone : s.items.committed k = none) (hnow : a.now = now)
    (hitems : s'.items.committed k = some (newItem tenant data now))
    (hvalues : s'.outbox.values = s.outbox.values ++ [row])
    (hrow : row = outboxRow "logistics.inventory.item-updated" (some tenant)
      (itemMessage k (newItem tenant data now) now) o) : Told k (past ++ [a]) s' := by
  have hevents : itemEvents k s'.events = [] ++ [row.payload] := by
    unfold Db.events
    rw [hvalues, List.map_append, itemEvents_append]
    unfold Told at h
    rw [hnone] at h
    have hold : itemEvents k (s.outbox.values.map Outbox.payload) = [] := h
    rw [hold, hrow]
    simp [itemEvents, outboxRow, buildEnvelope, itemMessage, Message.updates]
  unfold Told
  rw [hitems]
  refine ⟨⟨a, List.mem_append_right _ List.mem_cons_self, hnow.symm⟩, [], row.payload, hevents, ?_⟩
  have hself : ∀ x ∈ [] ++ [row.payload], x = row.payload := fun x hx => List.mem_singleton.mp hx
  have hstamp : row.payload.data.stamp = (now : WithBot Time) := by
    rw [hrow]
    rfl
  have hshown : row.payload.data.stock? = some (newItem tenant data now).stock := by
    rw [hrow]
    rfl
  refine ⟨fun x hx => ?_, hshown, fun x hx => ?_, ?_, fun x hx _ => ?_, fun x hx => by cases hx⟩
  · rw [hself x hx, hrow]
    exact ⟨rfl, rfl, _, _, _, _, _, rfl⟩
  · rw [hself x hx]
  · rw [hstamp]
    exact le_refl _
  · rw [hself x hx]
    exact hshown

/-- A call on its own continues the story of every item. -/
theorem Told.step (h : Told k past s) (hs : Rested schema w s) (hs' : Rested schema w' s')
    (hresult : Result a w w') (hclock : ∀ b ∈ past, b.now < a.now) :
    Told k (past ++ [a]) s' := by
  have hitems : s.items.committed = w.items := congrArg Rows.items hs.rows
  have hitems' : s'.items.committed = w'.items := congrArg Rows.items hs'.rows
  obtain ⟨l, hvalues, hresult⟩ := hresult.events hs hs'
  rcases hresult with ⟨rfl, rfl, -⟩ | ⟨W, he, rfl⟩
  · refine h.aside ?_ hvalues fun row hrow => by cases hrow
    rw [hitems, hitems']
  have hover : s'.items.committed k = (W.items k).or (w.items k) := congrFun hitems' k
  rw [← hitems] at hover
  cases he with
  | submitted hcategory htenant hstatus hfits hrequest hr ho hrow =>
      refine h.aside hover hvalues fun x hx => ?_
      rw [List.mem_singleton.mp hx, hrow]
      rfl
  | moved hallowed hnew hr ho hrow =>
      refine h.aside hover hvalues fun x hx => ?_
      rw [List.mem_singleton.mp hx, hrow]
      rfl
  | started hr htenant hvolunteer happroved ho hrow =>
      refine h.aside hover hvalues fun x hx => ?_
      rw [List.mem_singleton.mp hx, hrow]
      rfl
  | joined hr htenant hvolunteer hprogress ho hrow =>
      refine h.aside hover hvalues fun x hx => ?_
      rw [List.mem_singleton.mp hx, hrow]
      rfl
  | @added tenant data now _ j o row hj ho hrow =>
      change s'.items.committed k = (single j (newItem tenant data now) k).or _ at hover
      by_cases hkj : k = j
      · subst hkj
        rw [single_self] at hover
        refine h.added ?_ rfl hover hvalues hrow
        rw [hitems]
        exact hj.fresh
      · rw [single_of_ne _ hkj] at hover
        refine h.aside hover hvalues fun x hx => ?_
        rw [List.mem_singleton.mp hx, hrow]
        simpa [outboxRow, buildEnvelope, itemMessage, Message.updates] using Ne.symm hkj
  | @stocked _ j o item changed now _ O alarm row ha hj halarm hrow hO hids =>
      change s'.items.committed k = (single j (stamped item changed now) k).or _ at hover
      have halarm' : ∀ x ∈ alarm, x.payload.data.updates k = false := by
        intro x hx
        rw [halarm x hx]
        rfl
      by_cases hkj : k = j
      · subst hkj
        rw [single_self] at hover
        have hk : s.items.committed k = some item := by rw [hitems, hj]
        unfold Told at h
        rw [hk] at h
        obtain ⟨⟨b, hb, hbnow⟩, E, f, hE, hstory⟩ := h
        have hnow : item.updatedAt < now := by
          rw [hbnow, ← ha.now_eq]
          exact hclock b hb
        have hevents : itemEvents k s'.events = (E ++ [f]) ++ [row.payload] := by
          unfold Db.events
          rw [hvalues, List.map_append, List.map_append, itemEvents_append, itemEvents_append]
          have hnone : itemEvents k (alarm.map Outbox.payload) = [] := by
            refine List.filter_eq_nil_iff.mpr fun event hevent => ?_
            obtain ⟨x, hx, rfl⟩ := List.mem_map.mp hevent
            simp [halarm' x hx]
          have hself : itemEvents k ([row].map Outbox.payload) = [row.payload] := by
            rw [hrow]
            simp [itemEvents, outboxRow, buildEnvelope, itemMessage, Message.updates]
          rw [hnone, hself, List.nil_append]
          have hE' : itemEvents k (s.outbox.values.map Outbox.payload) = E ++ [f] := hE
          rw [hE']
        have hstory' : Story k (stamped item changed now) (E ++ [f]) row.payload :=
          hstory.step ha hnow (by rw [hrow]; rfl) (by rw [hrow]; rfl) (by rw [hrow]; rfl)
        unfold Told
        rw [hover]
        refine ⟨?_, E ++ [f], row.payload, hevents, hstory'⟩
        show ∃ b ∈ past ++ [a], (stamped item changed now).updatedAt = b.now
        unfold stamped
        split
        · exact ⟨b, List.mem_append_left _ hb, hbnow⟩
        · exact ⟨a, List.mem_append_right _ List.mem_cons_self, ha.now_eq.symm⟩
      · rw [single_of_ne _ hkj] at hover
        refine h.aside hover hvalues fun x hx => ?_
        rcases List.mem_append.mp hx with hx | hx
        · exact halarm' x hx
        · rw [List.mem_singleton.mp hx, hrow]
          simpa [outboxRow, buildEnvelope, itemMessage, Message.updates] using Ne.symm hkj

end Histories

/-! ## Event ids -/

section Ids

variable {a : Call} {w w' : Rows} {s s' : Db}

theorem Result.numbered (h : Result a w w') (hw : Numbered w.outbox) : Numbered w'.outbox := by
  rcases h with ⟨rfl, -⟩ | ⟨W, l, he, rfl⟩
  · exact hw
  · exact he.numbered.overlay hw

theorem Result.numbered_store (h : Result a w w') (hs : Rested schema w s)
    (hs' : Rested schema w' s') (hnum : Numbered s.outbox.committed) :
    Numbered s'.outbox.committed := by
  have hout : s.outbox.committed = w.outbox := congrArg Rows.outbox hs.rows
  have hout' : s'.outbox.committed = w'.outbox := congrArg Rows.outbox hs'.rows
  rw [hout']
  exact h.numbered (hout ▸ hnum)

/-- Different events have different ids. -/
theorem event_eq_of_id (hs : Numbered s.outbox.committed)
    {x y : Envelope Message} (hx : x ∈ s.events) (hy : y ∈ s.events)
    (hid : x.eventId = y.eventId) : x = y := by
  obtain ⟨row, hrow, rfl⟩ := List.mem_map.mp hx
  obtain ⟨row', hrow', rfl⟩ := List.mem_map.mp hy
  obtain ⟨o, ho⟩ := committed_of_mem_values hrow
  obtain ⟨o', ho'⟩ := committed_of_mem_values hrow'
  have hoo' : o = o' := by
    rw [← hs o row ho, hid, hs o' row' ho']
  subst hoo'
  rw [ho] at ho'
  cases ho'
  rfl

end Ids

/-- What holds after calls made one after the other at growing times. -/
theorem item_history (validatePayload : Option (List Json) → Option Object →
      Except FormErrors (Option Object)) (categories : List ResourceCategory)
    (replicas : List UserReplica) (l : List Call) (hclock : (l.map Call.now).Pairwise (· < ·)) :
    ∃ w s, calls (Call.body validatePayload) l 0 (Db.initial categories replicas) = some s ∧
      Rested schema w s ∧ Numbered s.outbox.committed ∧ ∀ k, Told k l s := by
  let J : List Call → Db → Prop := fun past s => Numbered s.outbox.committed ∧
    ((past.map Call.now).Pairwise (· < ·) → ∀ k, Told k past s)
  have hstep : ∀ past a w w' s s', Rested schema w s → Rested schema w' s' → Result a w w' →
      J past s → J (past ++ [a]) s' := by
    intro past a w w' s s' hs hs' hresult hJ
    obtain ⟨hnum, htold⟩ := hJ
    refine ⟨hresult.numbered_store hs hs' hnum, fun hpast k => ?_⟩
    rw [List.map_append, List.pairwise_append] at hpast
    refine (htold hpast.1 k).step hs hs' hresult fun b hb => ?_
    exact hpast.2.2 b.now (List.mem_map.mpr ⟨b, hb, rfl⟩) a.now List.mem_cons_self
  have hstart : J [] (Db.initial categories replicas) := ⟨Numbered.nothing, fun _ _ => rfl⟩
  obtain ⟨w, s, hcalls, hs, hnum, htold⟩ := (leads validatePayload).history hstep
    (initial_rested categories replicas) hstart l 0
  exact ⟨w, s, hcalls, hs, hnum, htold hclock⟩

end Logistics
end Rcp
