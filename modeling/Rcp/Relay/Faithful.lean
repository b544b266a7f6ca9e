/-
The relay loses and invents no event.

`Sound` is what holds of the rows and of the messages at the broker in every state,
`Holds` what a session knows of the rows it has locked.  Both are kept by every
statement of every session, and by crashes.
-/
import Rcp.Relay.Model

namespace Rcp
namespace Relay

open Sql Sql.Table

variable {D : Type}

structure Sound (s : World D) : Prop where
  bounded : s.outbox.Bounded
  numbered : ∀ k v, s.outbox.Has k v → v.eventId = k
  /-- What was published is the message of a committed row. -/
  origin : ∀ m ∈ s.broker.confirmed, ∃ k row, s.outbox.committed k = some row ∧ m = message row
  /-- A row is marked if the broker has confirmed its message. -/
  confirmed : ∀ k row, s.outbox.committed k = some row → row.publishedAt ≠ none →
    message row ∈ s.broker.confirmed
  versions : ∀ k o v row, s.outbox.pending k = some (o, v) → s.outbox.committed k = some row →
    message v = message row
  /-- A locked row is not published. -/
  held : ∀ k o v row, s.outbox.pending k = some (o, v) → s.outbox.committed k = some row →
    row.publishedAt = none
  marked : ∀ k o v, s.outbox.pending k = some (o, v) → v.publishedAt ≠ none →
    message v ∈ s.broker.confirmed

/-- Session `t` has no open writes. -/
def Clear (t : Sid) (s : World D) : Prop := ∀ k v, s.outbox.pending k ≠ some (t, v)

/-- Session `t` has locked the rows of its batch and has marked some of them. -/
structure Batch (t : Sid) (s : World D) (marked taken : List (Nat × Outbox D)) : Prop where
  nodup : ((marked ++ taken).map Prod.fst).Nodup
  only : ∀ k v, s.outbox.pending k = some (t, v) → k ∈ (marked ++ taken).map Prod.fst
  marked : ∀ x ∈ marked, s.outbox.committed x.1 = some x.2 ∧
    ∃ now, s.outbox.pending x.1 = some (t, mark now x.2)
  taken : ∀ x ∈ taken, s.outbox.committed x.1 = some x.2 ∧ s.outbox.pending x.1 = some (t, x.2)

/-- Session `t` has written new rows only. -/
def Fresh (t : Sid) (s : World D) : Prop :=
  ∀ k v, s.outbox.pending k = some (t, v) → s.outbox.committed k = none

/-- What session `t` knows between two statements. -/
def Holds (t : Sid) (s : World D) : Stage D → Prop
  | .selecting _ => Clear t s
  | .publishing _ done r rest =>
      Batch t s [] (done ++ r :: rest) ∧ ∀ x ∈ done, message x.2 ∈ s.broker.confirmed
  | .marking _ done r rest =>
      Batch t s done (r :: rest) ∧ ∀ x ∈ done ++ r :: rest, message x.2 ∈ s.broker.confirmed
  | .closing done => Batch t s done [] ∧ ∀ x ∈ done, message x.2 ∈ s.broker.confirmed
  | .emitting .. | .committing => Fresh t s
  | .ended _ => True

/-- What a step of session `t` leaves to the others. -/
structure Kept (t : Sid) (s s' : World D) : Prop where
  frame : Frame t s.outbox s'.outbox
  confirmed : ∀ m ∈ s.broker.confirmed, m ∈ s'.broker.confirmed

section Others

variable {s s' : World D} {t o : Sid}

theorem Clear.kept (h : Clear o s) (ho : o ≠ t) (hkept : Kept t s s') : Clear o s' :=
  fun k v hk => h k v (hkept.frame.only k o v ho hk)

theorem Fresh.kept (h : Fresh o s) (ho : o ≠ t) (hkept : Kept t s s') : Fresh o s' := by
  intro k v hk
  have hold := hkept.frame.only k o v ho hk
  exact (hkept.frame.keep k o v ho hold).2.trans (h k v hold)

theorem Clear.fresh (h : Clear t s) : Fresh t s := fun k v hk => absurd hk (h k v)

theorem Batch.kept {marked taken : List (Nat × Outbox D)} (h : Batch o s marked taken)
    (ho : o ≠ t) (hkept : Kept t s s') : Batch o s' marked taken := by
  refine ⟨h.nodup, fun k v hk => h.only k v (hkept.frame.only k o v ho hk), fun x hx => ?_,
    fun x hx => ?_⟩
  · obtain ⟨hcommitted, now, hpending⟩ := h.marked x hx
    obtain ⟨hpending', hsame⟩ := hkept.frame.keep x.1 o _ ho hpending
    exact ⟨hsame.trans hcommitted, now, hpending'⟩
  · obtain ⟨hcommitted, hpending⟩ := h.taken x hx
    obtain ⟨hpending', hsame⟩ := hkept.frame.keep x.1 o _ ho hpending
    exact ⟨hsame.trans hcommitted, hpending'⟩

theorem Holds.kept {st : Stage D} (h : Holds o s st) (ho : o ≠ t) (hkept : Kept t s s') :
    Holds o s' st := by
  cases st with
  | selecting clock => exact Clear.kept h ho hkept
  | publishing clock done r rest =>
      exact ⟨h.1.kept ho hkept, fun x hx => hkept.confirmed _ (h.2 x hx)⟩
  | marking clock done r rest =>
      exact ⟨h.1.kept ho hkept, fun x hx => hkept.confirmed _ (h.2 x hx)⟩
  | closing done => exact ⟨h.1.kept ho hkept, fun x hx => hkept.confirmed _ (h.2 x hx)⟩
  | emitting e rest commits => exact Fresh.kept h ho hkept
  | committing => exact Fresh.kept h ho hkept
  | ended outcome => trivial

end Others

section Moves

variable {s s' : World D} {t : Sid}

@[simp] theorem message_mark (now : Time) (row : Outbox D) : message (mark now row) = message row :=
  rfl

theorem unpublished_iff {row : Outbox D} : unpublished row = true ↔ row.publishedAt = none := by
  unfold unpublished
  exact Option.isNone_iff_eq_none

theorem Sound.emit (h : Sound s) (e : Event D) :
    Sound { s with outbox := s.outbox.insert t (e.row s.outbox.next) } := by
  have hnone := h.bounded s.outbox.next (Nat.le_refl _)
  have hpending : ∀ k o v, (s.outbox.insert t (e.row s.outbox.next)).pending k = some (o, v) →
      s.outbox.pending k = some (o, v) ∨ k = s.outbox.next ∧ v = e.row s.outbox.next := by
    intro k o v hk
    by_cases hnext : k = s.outbox.next
    · subst hnext
      have hself : Function.update s.outbox.pending s.outbox.next _ s.outbox.next = _ := hk
      rw [Function.update_self] at hself
      cases hself
      exact .inr ⟨rfl, rfl⟩
    · have hold : Function.update s.outbox.pending s.outbox.next _ k = _ := hk
      rw [Function.update_of_ne hnext] at hold
      exact .inl hold
  refine ⟨h.bounded.insert t _, fun k v hk => ?_, h.origin, h.confirmed, fun k o v row hk hrow => ?_,
    fun k o v row hk hrow => ?_, fun k o v hk hmarked => ?_⟩
  · have hcases : s.outbox.Has k v ∨ k = s.outbox.next ∧ v = e.row s.outbox.next :=
      Has.of_write (t := t) hk
    rcases hcases with hk | ⟨rfl, rfl⟩
    · exact h.numbered k v hk
    · rfl
  · rcases hpending k o v hk with hk | ⟨rfl, rfl⟩
    · exact h.versions k o v row hk hrow
    · have hrow' : s.outbox.committed s.outbox.next = some row := hrow
      rw [hnone.1] at hrow'
      cases hrow'
  · rcases hpending k o v hk with hk | ⟨rfl, rfl⟩
    · exact h.held k o v row hk hrow
    · have hrow' : s.outbox.committed s.outbox.next = some row := hrow
      rw [hnone.1] at hrow'
      cases hrow'
  · rcases hpending k o v hk with hk | ⟨rfl, rfl⟩
    · exact h.marked k o v hk hmarked
    · exact absurd rfl hmarked

/-- A commit publishes the marks, which are confirmed. -/
theorem Sound.commit (h : Sound s) : Sound { s with outbox := s.outbox.commit t } := by
  have hread : ∀ k row, s.outbox.read t k = some row → s.outbox.pending k = some (t, row) ∨
      s.outbox.committed k = some row := by
    intro k row hk
    unfold Table.read at hk
    cases hw : s.outbox.writes t k with
    | none =>
        rw [hw] at hk
        exact .inr hk
    | some v =>
        rw [hw] at hk
        cases hk
        exact .inl (writes_eq_some.mp hw)
  have hothers : ∀ k o v, (s.outbox.commit t).pending k = some (o, v) →
      s.outbox.pending k = some (o, v) ∧ s.outbox.read t k = s.outbox.committed k := by
    intro k o v hk
    have hne : o ≠ t := by
      rintro rfl
      have hw := congrFun (s.outbox.commit_writes o) k
      rw [noRows_apply, writes_eq_some.mpr hk] at hw
      cases hw
    have hold := (commit_frame t s.outbox).only k o v hne hk
    refine ⟨hold, read_of_not_written ?_⟩
    unfold Table.writes
    rw [hold]
    exact if_neg hne
  refine ⟨h.bounded.commit t, fun k v hk => h.numbered k v (Has.of_commit hk), fun m hm => ?_,
    fun k row hk hmarked => ?_, fun k o v row hk hrow => ?_, fun k o v row hk hrow => ?_,
    fun k o v hk hmarked => h.marked k o v (hothers k o v hk).1 hmarked⟩
  · obtain ⟨k, row, hrow, rfl⟩ := h.origin m hm
    cases hw : s.outbox.writes t k with
    | none => exact ⟨k, row, (read_of_not_written hw).trans hrow, rfl⟩
    | some v =>
        exact ⟨k, v, read_of_writes hw, (h.versions k t v row (writes_eq_some.mp hw) hrow).symm⟩
  · rcases hread k row hk with hk | hk
    · exact h.marked k t row hk hmarked
    · exact h.confirmed k row hk hmarked
  · obtain ⟨hold, hsame⟩ := hothers k o v hk
    exact h.versions k o v row hold (hsame.symm.trans hrow)
  · obtain ⟨hold, hsame⟩ := hothers k o v hk
    exact h.held k o v row hold (hsame.symm.trans hrow)

theorem Sound.rollback (h : Sound s) : Sound (Transactional.rollback t s) := by
  have hold : ∀ k o v, (s.outbox.rollback t).pending k = some (o, v) →
      s.outbox.pending k = some (o, v) := by
    intro k o v hk
    by_cases hl : s.outbox.lockedFor t k = true
    · simpa [Table.rollback, hl] using hk
    · simp [Table.rollback, hl] at hk
  exact ⟨h.bounded.rollback t, fun k v hk => h.numbered k v (Has.of_rollback hk), h.origin,
    h.confirmed, fun k o v row hk => h.versions k o v row (hold k o v hk),
    fun k o v row hk => h.held k o v row (hold k o v hk),
    fun k o v hk => h.marked k o v (hold k o v hk)⟩

/-- The rows of a batch are committed, not published and not locked. -/
theorem mem_batch (h : Sound s) (hclear : Clear t s) {x : Nat × Outbox D} (hx : x ∈ s.batch t) :
    s.outbox.committed x.1 = some x.2 ∧ x.2.publishedAt = none ∧ s.outbox.pending x.1 = none := by
  obtain ⟨hread, hp, hlocked⟩ := (mem_free h.bounded).mp (List.mem_of_mem_take hx)
  have hpending : s.outbox.pending x.1 = none := by
    cases hk : s.outbox.pending x.1 with
    | none => rfl
    | some w =>
        have ho := lockedFor_eq_false.mp hlocked w.1 w.2 hk
        rw [← Prod.eta w, ho] at hk
        exact absurd hk (hclear x.1 w.2)
  have hw : s.outbox.writes t x.1 = none := by
    unfold Table.writes
    rw [hpending]
  exact ⟨(read_of_not_written hw).symm.trans hread, unpublished_iff.mp hp, hpending⟩

theorem batch_nodup (s : World D) (t : Sid) : ((s.batch t).map Prod.fst).Nodup :=
  free_nodup s.outbox t unpublished batchSize

theorem select_pending {k : Nat} {o : Sid} {v : Outbox D}
    (hk : (s.outbox.lockRows t (s.batch t)).pending k = some (o, v)) :
    s.outbox.pending k = some (o, v) ∨ o = t ∧ (k, v) ∈ s.batch t := by
  by_cases hmem : k ∈ (s.batch t).map Prod.fst
  · obtain ⟨⟨j, u⟩, hu, rfl⟩ := List.mem_map.mp hmem
    rw [lockRows_of_mem (batch_nodup s t) hu] at hk
    cases hk
    exact .inr ⟨rfl, hu⟩
  · rw [lockRows_of_not_mem hmem] at hk
    exact .inl hk

theorem Sound.select (h : Sound s) (hclear : Clear t s) :
    Sound { s with outbox := s.outbox.lockRows t (s.batch t) } := by
  refine ⟨fun k hk => ?_, fun k v hk => ?_, ?_, ?_, fun k o v row hk hrow => ?_,
    fun k o v row hk hrow => ?_, fun k o v hk hmarked => ?_⟩
  · have hle : s.outbox.next ≤ k := by simpa using hk
    obtain ⟨hcommitted, hpending⟩ := h.bounded k hle
    refine ⟨by simpa using hcommitted, ?_⟩
    rw [lockRows_of_not_mem, hpending]
    intro hmem
    obtain ⟨x, hx, rfl⟩ := List.mem_map.mp hmem
    have hrow := (mem_batch h hclear hx).1
    rw [hcommitted] at hrow
    cases hrow
  · rcases hk with hk | ⟨o, hk⟩
    · exact h.numbered k v (.inl (by simpa using hk))
    · rcases select_pending hk with hk | ⟨-, hmem⟩
      · exact h.numbered k v (.inr ⟨o, hk⟩)
      · exact h.numbered k v (.inl (mem_batch h hclear hmem).1)
  · simpa using h.origin
  · simpa using h.confirmed
  · have hrow' : s.outbox.committed k = some row := by simpa using hrow
    rcases select_pending hk with hk | ⟨-, hmem⟩
    · exact h.versions k o v row hk hrow'
    · have hsame := (mem_batch h hclear hmem).1
      rw [hrow'] at hsame
      cases hsame
      rfl
  · have hrow' : s.outbox.committed k = some row := by simpa using hrow
    rcases select_pending hk with hk | ⟨-, hmem⟩
    · exact h.held k o v row hk hrow'
    · obtain ⟨hsame, hunpublished, -⟩ := mem_batch h hclear hmem
      rw [hrow'] at hsame
      cases hsame
      exact hunpublished
  · rcases select_pending hk with hk | ⟨-, hmem⟩
    · exact h.marked k o v hk hmarked
    · exact absurd (mem_batch h hclear hmem).2.1 hmarked

theorem Sound.confirm (h : Sound s) {x : Nat × Outbox D}
    (hx : s.outbox.committed x.1 = some x.2) : Sound (s.confirm (message x.2)) := by
  refine ⟨h.bounded, h.numbered, fun m hm => ?_, fun k row hk hmarked => ?_, h.versions, h.held,
    fun k o v hk hmarked => ?_⟩
  · rcases List.mem_append.mp hm with hm | hm
    · exact h.origin m hm
    · exact ⟨x.1, x.2, hx, List.mem_singleton.mp hm⟩
  · exact List.mem_append_left _ (h.confirmed k row hk hmarked)
  · exact List.mem_append_left _ (h.marked k o v hk hmarked)

theorem Sound.mark (h : Sound s) {x : Nat × Outbox D} {now : Time}
    (hcommitted : s.outbox.committed x.1 = some x.2)
    (hpending : s.outbox.pending x.1 = some (t, x.2))
    (hconfirmed : message x.2 ∈ s.broker.confirmed) :
    Sound { s with outbox := s.outbox.write t x.1 (Relay.mark now x.2) } := by
  have hcases : ∀ k o v, (s.outbox.write t x.1 (Relay.mark now x.2)).pending k = some (o, v) →
      s.outbox.pending k = some (o, v) ∨ k = x.1 ∧ v = Relay.mark now x.2 := by
    intro k o v hk
    by_cases hkx : k = x.1
    · subst hkx
      have hself : Function.update s.outbox.pending x.1 _ x.1 = _ := hk
      rw [Function.update_self] at hself
      cases hself
      exact .inr ⟨rfl, rfl⟩
    · have hold : Function.update s.outbox.pending x.1 _ k = _ := hk
      rw [Function.update_of_ne hkx] at hold
      exact .inl hold
  have hlt : x.1 < s.outbox.next := h.bounded.lt_of_committed hcommitted
  refine ⟨h.bounded.write _ hlt, fun k v hk => ?_, h.origin, h.confirmed,
    fun k o v row hk hrow => ?_, fun k o v row hk hrow => ?_, fun k o v hk hmarked => ?_⟩
  · rcases Has.of_write hk with hk | ⟨rfl, rfl⟩
    · exact h.numbered k v hk
    · exact h.numbered x.1 x.2 (.inl hcommitted)
  · rcases hcases k o v hk with hk | ⟨rfl, rfl⟩
    · exact h.versions k o v row hk hrow
    · exact h.versions x.1 t x.2 row hpending hrow
  · rcases hcases k o v hk with hk | ⟨rfl, rfl⟩
    · exact h.held k o v row hk hrow
    · exact h.held x.1 t x.2 row hpending hrow
  · rcases hcases k o v hk with hk | ⟨rfl, rfl⟩
    · exact h.marked k o v hk hmarked
    · exact hconfirmed

/-- The UPDATE of a row that the session has locked. -/
theorem runMark {x : Nat × Outbox D} {now : Time} {found : Option (Outbox D)}
    (hpending : s.outbox.pending x.1 = some (t, x.2))
    (h : runUpdate World.outboxT x.1 (fun _ => true) (Relay.mark now) t s = some (found, s')) :
    s' = { s with outbox := s.outbox.write t x.1 (Relay.mark now x.2) } := by
  have hread : s.outbox.read t x.1 = some x.2 := read_of_writes (writes_eq_some.mpr hpending)
  cases found with
  | none =>
      obtain ⟨-, hno⟩ := runUpdate_none h
      cases hno x.2 hread
  | some v' =>
      obtain ⟨v, hv, -, -, -, rfl⟩ := runUpdate_some h
      have hsame : some v = some x.2 := hv.symm.trans hread
      cases hsame
      rfl

theorem Holds.emit {events : List (Event D)} {commits : Bool} (h : Fresh t s) :
    Holds t s (.emit events commits) := by
  cases events with
  | cons e rest => exact h
  | nil =>
      cases commits with
      | true => exact h
      | false => trivial

theorem Holds.publish {clock : Nat → Time} {done todo : List (Nat × Outbox D)}
    (hbatch : Batch t s [] (done ++ todo))
    (hdone : ∀ x ∈ done, message x.2 ∈ s.broker.confirmed) :
    Holds t s (.publish clock done todo) := by
  cases todo with
  | cons r rest => exact ⟨hbatch, hdone⟩
  | nil =>
      rw [List.append_nil] at hbatch
      cases done with
      | nil => exact ⟨hbatch, fun x hx => by cases hx⟩
      | cons r rest => exact ⟨hbatch, hdone⟩

theorem Holds.mark {clock : Nat → Time} {done todo : List (Nat × Outbox D)}
    (hbatch : Batch t s done todo)
    (hconfirmed : ∀ x ∈ done ++ todo, message x.2 ∈ s.broker.confirmed) :
    Holds t s (.mark clock done todo) := by
  cases todo with
  | cons r rest => exact ⟨hbatch, hconfirmed⟩
  | nil =>
      rw [List.append_nil] at hconfirmed
      exact ⟨hbatch, hconfirmed⟩

/-- Marking one row keeps the rest of the batch. -/
theorem Batch.mark {done rest : List (Nat × Outbox D)} {r : Nat × Outbox D} {now : Time}
    (h : Batch t s done (r :: rest)) :
    Batch t { s with outbox := s.outbox.write t r.1 (Relay.mark now r.2) } (done ++ [r]) rest := by
  have hnodup : ((done ++ [r] ++ rest).map Prod.fst).Nodup := by simpa using h.nodup
  have hne : ∀ x, x ∈ done ∨ x ∈ rest → x.1 ≠ r.1 := by
    intro x hx heq
    have hsplit := h.nodup
    rw [List.map_append, List.map_cons, List.nodup_append] at hsplit
    rcases hx with hx | hx
    · exact hsplit.2.2 x.1 (List.mem_map_of_mem hx) r.1 List.mem_cons_self heq
    · exact (List.nodup_cons.mp hsplit.2.1).1 (heq ▸ List.mem_map_of_mem hx)
  refine ⟨hnodup, fun k v hk => ?_, fun x hx => ?_, fun x hx => ?_⟩
  · by_cases hkr : k = r.1
    · rw [hkr]
      simp
    · have hold : Function.update s.outbox.pending r.1 _ k = some (t, v) := hk
      rw [Function.update_of_ne hkr] at hold
      simpa using h.only k v hold
  · rcases List.mem_append.mp hx with hx | hx
    · obtain ⟨hcommitted, time, hpending⟩ := h.marked x hx
      refine ⟨hcommitted, time, ?_⟩
      exact (Function.update_of_ne (hne x (.inl hx)) ..).trans hpending
    · rw [List.mem_singleton.mp hx]
      exact ⟨(h.taken r List.mem_cons_self).1, now, Function.update_self ..⟩
  · obtain ⟨hcommitted, hpending⟩ := h.taken x (List.mem_cons_of_mem _ hx)
    exact ⟨hcommitted, (Function.update_of_ne (hne x (.inr hx)) ..).trans hpending⟩

theorem select_frame (h : Sound s) : Frame t s.outbox (s.outbox.lockRows t (s.batch t)) where
  next_le := by simp
  keep := by
    intro k o v ho hk
    refine ⟨?_, by simp⟩
    rw [lockRows_of_not_mem, hk]
    intro hmem
    obtain ⟨x, hx, rfl⟩ := List.mem_map.mp hmem
    have hlocked := ((mem_free h.bounded).mp (List.mem_of_mem_take hx)).2.2
    exact ho (lockedFor_eq_false.mp hlocked o v hk)
  only := by
    intro k o v ho hk
    rcases select_pending hk with hk | ⟨heq, -⟩
    · exact hk
    · exact absurd heq ho

/-- One statement. -/
theorem Sound.move {st st' : Stage D} (h : Sound s) (hst : Holds t s st)
    (hmove : Move t s st s' st') : Sound s' ∧ Holds t s' st' ∧ Kept t s s' := by
  cases hmove with
  | @emit e rest commits =>
      refine ⟨h.emit e, Holds.emit fun k v hk => ?_, insert_frame h.bounded _, fun _ hm => hm⟩
      by_cases hnext : k = s.outbox.next
      · rw [hnext]
        exact (h.bounded _ (Nat.le_refl _)).1
      · have hold : Function.update s.outbox.pending s.outbox.next _ k = some (t, v) := hk
        rw [Function.update_of_ne hnext] at hold
        exact hst k v hold
  | commit => exact ⟨h.commit, trivial, commit_frame t _, fun _ hm => hm⟩
  | select =>
      refine ⟨h.select hst, Holds.publish ⟨?_, fun k v hk => ?_, fun x hx => ?_, fun x hx => ?_⟩
        fun x hx => ?_, select_frame h, fun _ hm => hm⟩
      · exact batch_nodup s t
      · rcases select_pending hk with hk | ⟨-, hmem⟩
        · exact absurd hk (hst k v)
        · exact List.mem_map_of_mem (f := Prod.fst) hmem
      · cases hx
      · refine ⟨?_, lockRows_of_mem (batch_nodup s t) hx⟩
        simpa using (mem_batch h hst hx).1
      · cases hx
  | @confirm clock done rest r hok =>
      obtain ⟨hbatch, hdone⟩ := hst
      have hr := hbatch.taken r (List.mem_append_right _ List.mem_cons_self)
      have hsub : ∀ m ∈ s.broker.confirmed, m ∈ (s.confirm (message r.2)).broker.confirmed :=
        fun m hm => List.mem_append_left _ hm
      refine ⟨h.confirm hr.1, Holds.publish ?_ fun x hx => ?_, Frame.refl t _, hsub⟩
      · have happend : done ++ [r] ++ rest = done ++ r :: rest := by simp
        rw [happend]
        exact ⟨hbatch.nodup, hbatch.only, hbatch.marked, hbatch.taken⟩
      · rcases List.mem_append.mp hx with hx | hx
        · exact hsub _ (hdone x hx)
        · rw [List.mem_singleton.mp hx]
          exact List.mem_append_right _ List.mem_cons_self
  | refuse hno =>
      exact ⟨⟨h.bounded, h.numbered, h.origin, h.confirmed, h.versions, h.held, h.marked⟩, trivial,
        Frame.refl t _, fun _ hm => hm⟩
  | @mark _ clock done rest r found hr =>
      obtain ⟨hbatch, hconfirmed⟩ := hst
      obtain ⟨hcommitted, hpending⟩ := hbatch.taken r List.mem_cons_self
      have hmessage := hconfirmed r (List.mem_append_right _ List.mem_cons_self)
      rw [runMark hpending hr]
      refine ⟨h.mark hcommitted hpending hmessage, Holds.mark hbatch.mark fun x hx => ?_,
        write_frame _ ?_, fun _ hm => hm⟩
      · exact hconfirmed x (by simpa using hx)
      · exact lockedFor_eq_false.mpr fun o v hv => by
          rw [hpending] at hv
          cases hv
          rfl
  | close => exact ⟨h.commit, trivial, commit_frame t _, fun _ hm => hm⟩

end Moves

/-! ## Runs -/

/-- What holds between two steps of a cluster. -/
structure Inv (s : World D) (σ : Sid → Option (Stage D)) : Prop where
  sound : Sound s
  idle : ∀ t, σ t = none → Clear t s
  holds : ∀ t st, σ t = some st → Holds t s st

section Runs

variable {s s' : World D} {σ σ' : Sid → Option (Stage D)} {t : Sid}

theorem Inv.update (h : Inv s σ) (hsound : Sound s') (hkept : Kept t s s') {x : Option (Stage D)}
    (hidle : x = none → Clear t s') (hholds : ∀ st, x = some st → Holds t s' st) :
    Inv s' (Function.update σ t x) := by
  refine ⟨hsound, fun o ho => ?_, fun o st ho => ?_⟩
  · by_cases hot : o = t
    · subst hot
      rw [Function.update_self] at ho
      exact hidle ho
    · rw [Function.update_of_ne hot] at ho
      exact (h.idle o ho).kept hot hkept
  · by_cases hot : o = t
    · subst hot
      rw [Function.update_self] at ho
      exact hholds st ho
    · rw [Function.update_of_ne hot] at ho
      exact (h.holds o st ho).kept hot hkept

theorem rollback_clear (t : Sid) (s : World D) : Clear t (Transactional.rollback t s) := by
  intro k v hk
  have hw := congrFun (s.outbox.rollback_writes t) k
  rw [noRows_apply] at hw
  have hsome : (s.outbox.rollback t).writes t k = some v := writes_eq_some.mpr hk
  rw [hsome] at hw
  cases hw

theorem Inv.rollback (h : Inv s σ) : Inv (Transactional.rollback t s) (Function.update σ t none) := by
  refine h.update h.sound.rollback ⟨rollback_frame t _, fun _ hm => hm⟩ (fun _ => ?_) fun st hst => ?_
  · exact rollback_clear t s
  · cases hst

theorem Inv.turn (h : Inv s σ) (hturn : Turn t s σ s' σ') : Inv s' σ' := by
  cases hturn with
  | begin a hnone =>
      refine h.update h.sound ⟨Frame.refl t _, fun _ hm => hm⟩ (fun hx => by cases hx)
        fun st hst => ?_
      cases hst
      cases a with
      | drainOnce clock => exact h.idle t hnone
      | transact events commits => exact Holds.emit (h.idle t hnone).fresh
  | move hst hmove =>
      obtain ⟨hsound, hholds, hkept⟩ := h.sound.move (h.holds t _ hst) hmove
      refine h.update hsound hkept (fun hx => by cases hx) fun st hst => ?_
      cases hst
      exact hholds
  | close hst => exact h.rollback

theorem start_inv (refuses : Nat → Bool) : Inv (World.start refuses : World D) fun _ => none := by
  have hhas : ∀ k v, ¬ (Table.empty : Table (Outbox D)).Has k v := by
    rintro k v (hv | ⟨o, hv⟩)
    · cases hv
    · cases hv
  refine ⟨⟨empty_bounded, fun k v hk => absurd hk (hhas k v), ?_, ?_, ?_, ?_, ?_⟩, ?_, ?_⟩
  · intro m hm
    cases hm
  · intro k row hk
    cases hk
  · intro k o v row hk
    cases hk
  · intro k o v row hk
    cases hk
  · intro k o v hk
    cases hk
  · intro t _ k v hk
    cases hk
  · intro t st hst
    cases hst

theorem Run.inv {refuses : Nat → Bool} {c : Cluster D}
    (h : Run Call.body (Config.start (World.start refuses)) c) :
    ∃ σ, Staged c σ ∧ Inv c.store σ := by
  induction h with
  | refl => exact ⟨_, start_staged _, start_inv refuses⟩
  | tail _ hstep ih =>
      obtain ⟨σ, hstaged, hinv⟩ := ih
      obtain ⟨t, hstep⟩ := hstep
      obtain ⟨σ', hstaged', hturn | ⟨-, hstore, rfl, -⟩⟩ := hstaged.step hstep
      · exact ⟨σ', hstaged', hinv.turn hturn⟩
      · refine ⟨_, hstaged', ?_⟩
        rw [hstore]
        exact hinv.rollback

/-- A locked row is free again once its session is rolled back. -/
theorem Sound.freed (h : Sound s) {k : Nat} {v row : Outbox D}
    (hpending : s.outbox.pending k = some (t, v)) (hcommitted : s.outbox.committed k = some row)
    (o : Sid) :
    (k, row) ∈ (Transactional.rollback t s).outbox.free o unpublished := by
  have hnone : (s.outbox.rollback t).pending k = none := by
    have hunlocked : s.outbox.lockedFor t k = false := lockedFor_eq_false.mpr fun o' v' hv => by
      rw [hpending] at hv
      cases hv
      rfl
    show (if s.outbox.lockedFor t k = true then _ else none) = none
    rw [hunlocked]
    rfl
  have hread : (s.outbox.rollback t).read o k = some row := by
    refine (read_of_not_written ?_).trans hcommitted
    unfold Table.writes
    rw [hnone]
  refine (mem_free h.rollback.bounded).mpr ⟨hread, ?_, lockedFor_eq_false.mpr fun o' v' hv => ?_⟩
  · exact unpublished_iff.mpr (h.held k t v row hpending hcommitted)
  · have hsome : (s.outbox.rollback t).pending k = some (o', v') := hv
    rw [hnone] at hsome
    cases hsome

end Runs

end Relay
end Rcp
