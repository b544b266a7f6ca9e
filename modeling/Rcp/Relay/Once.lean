/-
Without refusals and crashes every row is published exactly once.

Between the publication of a row and the commit of its mark the row is in the hands of
one session.  A crash there makes the next worker publish the row again.
-/
import Rcp.Relay.Faithful

namespace Rcp
namespace Relay

open Sql Sql.Table

variable {D : Type}

/-- The rows that the session has published and not committed. -/
def Stage.handed : Stage D → List (Nat × Outbox D)
  | .publishing _ done _ _ => done
  | .marking _ done r rest => done ++ r :: rest
  | .closing done => done
  | .emitting .. | .committing | .selecting _ | .ended _ => []

/-- No message was published twice, and none before its time. -/
structure Once (s : World D) (σ : Sid → Option (Stage D)) : Prop where
  nodup : s.broker.confirmed.Nodup
  waiting : ∀ k row, s.outbox.committed k = some row → row.publishedAt = none →
    (∀ t st, σ t = some st → k ∉ st.handed.map Prod.fst) → message row ∉ s.broker.confirmed

namespace Stage

theorem handed_emit (events : List (Event D)) (commits : Bool) :
    (emit events commits).handed = [] := by
  cases events with
  | cons e rest => rfl
  | nil => cases commits <;> rfl

theorem handed_mark (clock : Nat → Time) (done todo : List (Nat × Outbox D)) :
    (mark clock done todo).handed = done ++ todo := by
  cases todo with
  | cons r rest => rfl
  | nil => exact (List.append_nil done).symm

theorem handed_publish (clock : Nat → Time) (done todo : List (Nat × Outbox D)) :
    (publish clock done todo).handed = done := by
  cases todo with
  | cons r rest => rfl
  | nil => exact handed_mark clock [] done

end Stage

section Turns

variable {s s' : World D} {σ σ' : Sid → Option (Stage D)} {t : Sid} {st st' : Stage D}

/-- A row in the hands of a session is locked by it. -/
theorem Holds.locked (h : Holds t s st) {x : Nat × Outbox D} (hx : x ∈ st.handed) :
    ∃ v, s.outbox.pending x.1 = some (t, v) := by
  cases st with
  | publishing clock done r rest => exact ⟨x.2, (h.1.taken x (List.mem_append_left _ hx)).2⟩
  | marking clock done r rest =>
      rcases List.mem_append.mp hx with hx | hx
      · obtain ⟨-, now, hpending⟩ := h.1.marked x hx
        exact ⟨_, hpending⟩
      · exact ⟨x.2, (h.1.taken x hx).2⟩
  | closing done =>
      obtain ⟨-, now, hpending⟩ := h.1.marked x hx
      exact ⟨_, hpending⟩
  | emitting e rest commits => cases hx
  | committing => cases hx
  | selecting clock => cases hx
  | ended outcome => cases hx

/-- The rows in the hands of the sessions stay the same. -/
theorem Once.same (h : Once s σ) (hcommitted : s'.outbox.committed = s.outbox.committed)
    (hconfirmed : s'.broker.confirmed = s.broker.confirmed) {x : Option (Stage D)}
    (hx : ∀ st, σ t = some st → ∀ y ∈ st.handed, ∃ st', x = some st' ∧ y ∈ st'.handed) :
    Once s' (Function.update σ t x) := by
  refine ⟨hconfirmed ▸ h.nodup, fun k row hk hnone hfree => ?_⟩
  rw [hcommitted] at hk
  rw [hconfirmed]
  refine h.waiting k row hk hnone fun o st ho hmem => ?_
  by_cases hot : o = t
  · subst hot
    obtain ⟨y, hy, rfl⟩ := List.mem_map.mp hmem
    obtain ⟨st', rfl, hy'⟩ := hx st ho y hy
    exact hfree o st' (Function.update_self ..) (List.mem_map_of_mem hy')
  · exact hfree o st ((Function.update_of_ne hot ..).trans ho) hmem

theorem Once.moved (h : Once s σ) (hst : σ t = some st)
    (hcommitted : s'.outbox.committed = s.outbox.committed)
    (hconfirmed : s'.broker.confirmed = s.broker.confirmed) (hsame : st'.handed = st.handed) :
    Once s' (Function.update σ t (some st')) := by
  refine h.same hcommitted hconfirmed fun st₁ hst₁ y hy => ⟨st', rfl, ?_⟩
  rw [hst] at hst₁
  cases hst₁
  rw [hsame]
  exact hy

/-- Rows with the same message are the same row. -/
theorem Sound.key_eq (h : Sound s) {j k : Nat} {u v : Outbox D} (hj : s.outbox.Has j u)
    (hk : s.outbox.Has k v) (heq : message u = message v) : j = k := by
  have hid : u.eventId = v.eventId := congrArg Published.messageId heq
  rw [← h.numbered j u hj, ← h.numbered k v hk, hid]

/-- A row that was not committed before was not published. -/
theorem Sound.unsent (h : Sound s) {k : Nat} {v : Outbox D}
    (hpending : s.outbox.pending k = some (t, v)) (hnone : s.outbox.committed k = none) :
    message v ∉ s.broker.confirmed := by
  intro hmem
  obtain ⟨j, row, hj, heq⟩ := h.origin _ hmem
  have hjk := h.key_eq (.inr ⟨t, hpending⟩) (.inl hj) heq
  rw [hjk] at hnone
  rw [hnone] at hj
  cases hj

/-- The commit of a session whose new rows were not committed before. -/
theorem Once.commit (h : Once s σ) (hsound : Sound s) (hst : σ t = some st)
    (hrows : ∀ k v, s.outbox.pending k = some (t, v) →
      s.outbox.committed k = none ∨ v.publishedAt ≠ none)
    (hhanded : ∀ y ∈ st.handed, ∃ v, s.outbox.pending y.1 = some (t, v) ∧ v.publishedAt ≠ none)
    {outcome : Except Error Nat} :
    Once { s with outbox := s.outbox.commit t } (Function.update σ t (some (.ended outcome))) := by
  refine ⟨h.nodup, fun k row hk hnone hfree => ?_⟩
  have hread : s.outbox.read t k = some row := hk
  cases hw : s.outbox.writes t k with
  | some v =>
      have hpending := writes_eq_some.mp hw
      rw [read_of_writes hw] at hread
      cases hread
      rcases hrows k row hpending with hk | hpublished
      · exact hsound.unsent hpending hk
      · exact absurd hnone hpublished
  | none =>
      rw [read_of_not_written hw] at hread
      refine h.waiting k row hread hnone fun o st₁ ho hmem => ?_
      by_cases hot : o = t
      · subst hot
        rw [hst] at ho
        cases ho
        obtain ⟨y, hy, rfl⟩ := List.mem_map.mp hmem
        obtain ⟨v, hv, -⟩ := hhanded y hy
        rw [writes_eq_some.mpr hv] at hw
        cases hw
      · exact hfree o st₁ ((Function.update_of_ne hot ..).trans ho) hmem

/-- The next row of a batch is in nobody's hands. -/
theorem Inv.unhanded (hinv : Inv s σ) {clock : Nat → Time} {done rest : List (Nat × Outbox D)}
    {r : Nat × Outbox D} (hst : σ t = some (.publishing clock done r rest)) (o : Sid)
    (st : Stage D) (ho : σ o = some st) : r.1 ∉ st.handed.map Prod.fst := by
  intro hmem
  obtain ⟨hbatch, -⟩ := hinv.holds t _ hst
  have hr := (hbatch.taken r (List.mem_append_right _ List.mem_cons_self)).2
  obtain ⟨y, hy, hyr⟩ := List.mem_map.mp hmem
  by_cases hot : o = t
  · subst hot
    rw [hst] at ho
    cases ho
    have hnodup := hbatch.nodup
    rw [List.nil_append, List.map_append, List.map_cons, List.nodup_append] at hnodup
    exact hnodup.2.2 y.1 (List.mem_map_of_mem hy) r.1 List.mem_cons_self hyr
  · obtain ⟨v, hv⟩ := (hinv.holds o st ho).locked hy
    rw [hyr, hr] at hv
    cases hv
    exact hot rfl

theorem Once.confirm (h : Once s σ) (hinv : Inv s σ) {clock : Nat → Time}
    {done rest : List (Nat × Outbox D)} {r : Nat × Outbox D}
    (hst : σ t = some (.publishing clock done r rest)) :
    Once (s.confirm (message r.2))
      (Function.update σ t (some (.publish clock (done ++ [r]) rest))) := by
  obtain ⟨hbatch, -⟩ := hinv.holds t _ hst
  obtain ⟨hcommitted, hpending⟩ :=
    hbatch.taken r (List.mem_append_right _ List.mem_cons_self)
  have hnone := hinv.sound.held r.1 t r.2 r.2 hpending hcommitted
  have hnew : message r.2 ∉ s.broker.confirmed :=
    h.waiting r.1 r.2 hcommitted hnone (hinv.unhanded hst)
  refine ⟨?_, fun k row hk hunpublished hfree hmem => ?_⟩
  · refine List.nodup_append.mpr ⟨h.nodup, List.nodup_singleton _, fun m hm m' hm' heq => ?_⟩
    rw [List.mem_singleton.mp hm'] at heq
    exact hnew (heq ▸ hm)
  · have hfree' : ∀ o st, σ o = some st → k ∉ st.handed.map Prod.fst := by
      intro o st ho hk'
      by_cases hot : o = t
      · subst hot
        rw [hst] at ho
        cases ho
        refine hfree o _ (Function.update_self ..) ?_
        rw [Stage.handed_publish, List.map_append]
        exact List.mem_append_left _ hk'
      · exact hfree o st ((Function.update_of_ne hot ..).trans ho) hk'
    rcases List.mem_append.mp hmem with hmem | hmem
    · exact h.waiting k row hk hunpublished hfree' hmem
    · have hkr : k = r.1 :=
        hinv.sound.key_eq (.inl hk) (.inl hcommitted) (List.mem_singleton.mp hmem)
      refine hfree t _ (Function.update_self ..) ?_
      rw [Stage.handed_publish, List.map_append, hkr]
      simp

/-- One step without a crash, the broker taking every message. -/
theorem Once.turn (h : Once s σ) (hinv : Inv s σ) (htakes : ∀ n, s.broker.refuses n = false)
    (hturn : Turn t s σ s' σ') : Once s' σ' ∧ s'.broker.refuses = s.broker.refuses := by
  cases hturn with
  | begin a hnone =>
      refine ⟨h.same rfl rfl fun st hst => ?_, rfl⟩
      rw [hnone] at hst
      cases hst
  | close hst =>
      have hsame : (Transactional.rollback t s).outbox.committed = s.outbox.committed := rfl
      refine ⟨h.same hsame rfl fun st hst' y hy => ?_, rfl⟩
      rw [hst] at hst'
      cases hst'
      cases hy
  | move hst hmove =>
      have hholds := hinv.holds t _ hst
      cases hmove with
      | @emit e rest commits =>
          exact ⟨h.moved hst rfl rfl (Stage.handed_emit rest commits), rfl⟩
      | commit =>
          refine ⟨h.commit hinv.sound hst (fun k v hk => .inl (hholds k v hk)) fun y hy => ?_, rfl⟩
          cases hy
      | select =>
          refine ⟨h.moved hst ?_ rfl (Stage.handed_publish _ _ _), rfl⟩
          exact lockRows_committed ..
      | confirm hok => exact ⟨h.confirm hinv hst, rfl⟩
      | refuse hno =>
          rw [htakes] at hno
          cases hno
      | @mark _ clock done rest r found hr =>
          obtain ⟨hbatch, -⟩ := hholds
          rw [runMark (hbatch.taken r List.mem_cons_self).2 hr]
          refine ⟨h.moved hst rfl rfl ?_, rfl⟩
          rw [Stage.handed_mark, List.append_assoc]
          rfl
      | @close done =>
          obtain ⟨hbatch, -⟩ := hholds
          have hmarked : ∀ y ∈ done, ∃ v, s.outbox.pending y.1 = some (t, v) ∧
              v.publishedAt ≠ none := by
            intro y hy
            obtain ⟨-, now, hpending⟩ := hbatch.marked y hy
            exact ⟨_, hpending, Option.some_ne_none now⟩
          refine ⟨h.commit hinv.sound hst (fun k v hk => .inr ?_) hmarked, rfl⟩
          have hmem := hbatch.only k v hk
          rw [List.append_nil] at hmem
          obtain ⟨y, hy, rfl⟩ := List.mem_map.mp hmem
          obtain ⟨v', hv', hpublished⟩ := hmarked y hy
          rw [hk] at hv'
          cases hv'
          exact hpublished

/-- What holds after a schedule, which has no crashes, if the broker refuses nothing. -/
theorem play_once {c : Cluster D} {l : List (Sql.Move (Call D))}
    (h : (Config.start (World.start fun _ => false)).play Call.body l = some c) :
    ∃ σ, Staged c σ ∧ Inv c.store σ ∧ Once c.store σ ∧ c.store.broker.refuses = fun _ => false := by
  have hrun : ∀ (l : List (Sql.Move (Call D))) (c₀ c : Cluster D) σ, Staged c₀ σ →
      Inv c₀.store σ → Once c₀.store σ → (c₀.store.broker.refuses = fun _ => false) →
      c₀.play Call.body l = some c → ∃ σ, Staged c σ ∧ Inv c.store σ ∧ Once c.store σ ∧
        c.store.broker.refuses = fun _ => false := by
    intro l
    induction l with
    | nil =>
        intro c₀ c σ hstaged hinv honce htakes hplay
        cases hplay
        exact ⟨σ, hstaged, hinv, honce, htakes⟩
    | cons m rest ih =>
        intro c₀ c σ hstaged hinv honce htakes hplay
        simp only [Config.play] at hplay
        split at hplay
        · cases hplay
        · rename_i c₁ hm
          obtain ⟨σ₁, hstaged₁, hturn⟩ := hstaged.move hm
          obtain ⟨honce₁, hbroker⟩ := honce.turn hinv (fun n => by rw [htakes]) hturn
          exact ih c₁ c σ₁ hstaged₁ (hinv.turn hturn) honce₁ (hbroker.trans htakes) hplay
  refine hrun l _ c _ (start_staged _) (start_inv _) ⟨List.nodup_nil, ?_⟩ rfl h
  intro k row hk
  cases hk

end Turns

/-! ## Workers on their own -/

/-- No session is open, and the broker has exactly the messages of the published rows. -/
structure Quiet (s : World D) : Prop where
  sound : Sound s
  unlocked : ∀ k, s.outbox.pending k = none
  takes : ∀ n, s.broker.refuses n = false
  nodup : s.broker.confirmed.Nodup
  waiting : ∀ k row, s.outbox.committed k = some row → row.publishedAt = none →
    message row ∉ s.broker.confirmed

section Alone

variable {s s' : World D} {t : Sid} {clock : Nat → Time} {rows : List (Nat × Outbox D)}

/-- The broker has taken all messages of a batch. -/
def World.confirmAll (s : World D) (rows : List (Nat × Outbox D)) : World D :=
  rows.foldl (fun s x => s.confirm (message x.2)) s

@[simp] theorem confirmAll_outbox (s : World D) (rows : List (Nat × Outbox D)) :
    (s.confirmAll rows).outbox = s.outbox := by
  unfold World.confirmAll
  induction rows generalizing s with
  | nil => rfl
  | cons x rest ih => exact ih (s.confirm (message x.2))

@[simp] theorem confirmAll_refuses (s : World D) (rows : List (Nat × Outbox D)) :
    (s.confirmAll rows).broker.refuses = s.broker.refuses := by
  unfold World.confirmAll
  induction rows generalizing s with
  | nil => rfl
  | cons x rest ih => exact ih (s.confirm (message x.2))

@[simp] theorem confirmAll_confirmed (s : World D) (rows : List (Nat × Outbox D)) :
    (s.confirmAll rows).broker.confirmed =
      s.broker.confirmed ++ rows.map fun x => message x.2 := by
  unfold World.confirmAll
  induction rows generalizing s with
  | nil => simp
  | cons x rest ih =>
      rw [List.foldl_cons, ih]
      simp [World.confirm]

theorem exec_publishAll (htakes : ∀ n, s.broker.refuses n = false) :
    (publishAll rows).exec t s = some (.ok (), s.confirmAll rows) := by
  induction rows generalizing s with
  | nil => rfl
  | cons x rest ih =>
      have hpublish : (basicPublish (message x.2)).exec t s =
          some (.ok (), s.confirm (message x.2)) := by
        unfold basicPublish
        rw [Prog.exec_bind]
        simp [Prog.exec, runPublish, htakes]
      unfold publishAll
      rw [Prog.exec_bind, hpublish]
      exact ih (s := s.confirm (message x.2)) htakes

/-- The rows of a batch with their marks. -/
def markedRows (clock : Nat → Time) (rows : List (Nat × Outbox D)) : List (Nat × Outbox D) :=
  rows.map fun x => (x.1, mark (clock x.1) x.2)

theorem markedRows_keys (clock : Nat → Time) (rows : List (Nat × Outbox D)) :
    (markedRows clock rows).map Prod.fst = rows.map Prod.fst := by
  unfold markedRows
  rw [List.map_map]
  rfl

theorem exec_markAll {clock : Nat → Time} (hnodup : (rows.map Prod.fst).Nodup)
    (hrows : ∀ x ∈ rows, s.outbox.pending x.1 = some (t, x.2)) :
    (markAll clock rows).exec t s =
      some (.ok (), { s with outbox := s.outbox.lockRows t (markedRows clock rows) }) := by
  induction rows generalizing s with
  | nil => rfl
  | cons x rest ih =>
      rw [List.map_cons, List.nodup_cons] at hnodup
      have hx := hrows x List.mem_cons_self
      have hread : (World.outboxT.get s).read t x.1 = some x.2 :=
        read_of_writes (writes_eq_some.mpr hx)
      have hunlocked : (World.outboxT.get s).lockedFor t x.1 = false :=
        lockedFor_eq_false.mpr fun o v hv => by
          have hsome : s.outbox.pending x.1 = some (o, v) := hv
          rw [hx] at hsome
          cases hsome
          rfl
      have hupdate : (update World.outboxT x.1 (mark (clock x.1)) :
          Prog (World D) Error (Option (Outbox D))).exec t s = some
            (.ok (some (mark (clock x.1) x.2)),
              { s with outbox := s.outbox.write t x.1 (mark (clock x.1) x.2) }) := by
        simp only [update, updateWhere, Prog.exec, runUpdate, hread, hunlocked]
        rfl
      unfold markAll
      rw [Prog.exec_bind, hupdate]
      refine ih (s := { s with outbox := s.outbox.write t x.1 (mark (clock x.1) x.2) }) hnodup.2
        fun y hy => ?_
      have hne : y.1 ≠ x.1 := fun heq => hnodup.1 (heq ▸ List.mem_map_of_mem hy)
      exact (Function.update_of_ne hne ..).trans (hrows y (List.mem_cons_of_mem _ hy))

/-- What a worker on its own makes of the store. -/
structure Drained (t : Sid) (clock : Nat → Time) (s s' : World D) : Prop where
  confirmed : s'.broker.confirmed = s.broker.confirmed ++ (s.batch t).map fun x => message x.2
  refuses : s'.broker.refuses = s.broker.refuses
  next : s'.outbox.next = s.outbox.next
  unlocked : ∀ k, s'.outbox.pending k = none
  marked : ∀ x ∈ s.batch t, s'.outbox.committed x.1 = some (mark (clock x.1) x.2)
  kept : ∀ k, k ∉ (s.batch t).map Prod.fst → s'.outbox.committed k = s.outbox.committed k

/-- A worker on its own publishes and marks its batch. -/
theorem drain_alone (h : Quiet s) (t : Sid) (clock : Nat → Time) :
    ∃ s' : World D, (drainOnce clock).call t s = some (.ok (s.batch t).length, s') ∧
      Drained t clock s s' := by
  have hnodup := batch_nodup s t
  let s₁ : World D := { s with outbox := s.outbox.lockRows t (s.batch t) }
  let s₂ : World D := s₁.confirmAll (s.batch t)
  let s₃ : World D := { s₂ with outbox := s₂.outbox.lockRows t (markedRows clock (s.batch t)) }
  have houtbox : s₂.outbox = s.outbox.lockRows t (s.batch t) := confirmAll_outbox s₁ _
  have htaken : ∀ x ∈ s.batch t, s₂.outbox.pending x.1 = some (t, x.2) := by
    intro x hx
    rw [houtbox]
    exact lockRows_of_mem hnodup hx
  have hexec : (drainOnce clock).exec t s =
      some (.ok (s.batch t).length, Transactional.commit t s₃) := by
    unfold drainOnce
    rw [Prog.exec_bind]
    have hselect : (selectSkipLocked World.outboxT unpublished batchSize :
        Prog (World D) Error _).exec t s = some (.ok (s.batch t), s₁) := rfl
    rw [hselect]
    show Prog.exec t (publishAll (s.batch t) >>= fun _ => flushBatch clock (s.batch t)) s₁ = _
    rw [Prog.exec_bind, exec_publishAll (s := s₁) h.takes]
    show Prog.exec t (flushBatch clock (s.batch t)) s₂ = _
    unfold flushBatch
    rw [Prog.exec_bind, exec_markAll hnodup htaken]
    rfl
  have hpending : ∀ k, k ∉ (s.batch t).map Prod.fst → s₃.outbox.pending k = none := by
    intro k hk
    show (s₂.outbox.lockRows t (markedRows clock (s.batch t))).pending k = none
    rw [lockRows_of_not_mem (by rwa [markedRows_keys]), houtbox, lockRows_of_not_mem hk]
    exact h.unlocked k
  have hmarked : ∀ x ∈ s.batch t, s₃.outbox.pending x.1 = some (t, mark (clock x.1) x.2) := by
    intro x hx
    refine lockRows_of_mem (by rwa [markedRows_keys]) ?_
    exact List.mem_map.mpr ⟨x, hx, rfl⟩
  have hcommitted : s₃.outbox.committed = s.outbox.committed := by
    show (s₂.outbox.lockRows t (markedRows clock (s.batch t))).committed = _
    rw [lockRows_committed, houtbox, lockRows_committed]
  refine ⟨Transactional.rollback t (Transactional.commit t s₃), ?_, confirmAll_confirmed s₁ _,
    confirmAll_refuses s₁ _, ?_, fun k => ?_, fun x hx => ?_, fun k hk => ?_⟩
  · unfold Prog.call
    rw [hexec]
    rfl
  · show (s₂.outbox.lockRows t (markedRows clock (s.batch t))).next = _
    rw [lockRows_next, houtbox, lockRows_next]
  · have hunlocked : (s₃.outbox.commit t).lockedFor t k = false := by
      refine lockedFor_eq_false.mpr fun o v hv => ?_
      by_contra ho
      have hold := (commit_frame t s₃.outbox).only k o v ho hv
      by_cases hk : k ∈ (s.batch t).map Prod.fst
      · obtain ⟨x, hx, rfl⟩ := List.mem_map.mp hk
        rw [hmarked x hx] at hold
        cases hold
        exact ho rfl
      · rw [hpending k hk] at hold
        cases hold
    show (if (s₃.outbox.commit t).lockedFor t k = true then _ else none) = none
    rw [hunlocked]
    rfl
  · exact read_of_writes (writes_eq_some.mpr (hmarked x hx))
  · show s₃.outbox.read t k = _
    rw [read_of_not_written, hcommitted]
    unfold Table.writes
    rw [hpending k hk]

theorem batch_messages_nodup (h : Sound s) (hclear : Clear t s) :
    ((s.batch t).map fun x => message x.2).Nodup := by
  have hnodup : (s.batch t).Nodup := (batch_nodup s t).of_map _
  refine List.Nodup.map_on (fun x hx y hy heq => ?_) hnodup
  have hkey := h.key_eq (.inl (mem_batch h hclear hx).1) (.inl (mem_batch h hclear hy).1) heq
  exact List.inj_on_of_nodup_map (batch_nodup s t) hx hy hkey

/-- The first row that waits is in the batch. -/
theorem first_taken (h : Quiet s) {n : Nat} {row : Outbox D}
    (hbelow : ∀ k row, k < n → s.outbox.committed k = some row → row.publishedAt ≠ none)
    (hn : s.outbox.committed n = some row) (hnone : row.publishedAt = none) :
    (n, row) ∈ s.batch t := by
  have hread : ∀ k, s.outbox.read t k = s.outbox.committed k := by
    intro k
    refine read_of_not_written ?_
    unfold Table.writes
    rw [h.unlocked k]
  have hfree : (n, row) ∈ s.outbox.free t unpublished := by
    refine (mem_free h.sound.bounded).mpr ⟨(hread n).trans hn, unpublished_iff.mpr hnone,
      lockedFor_eq_false.mpr fun o v hv => ?_⟩
    rw [h.unlocked n] at hv
    cases hv
  unfold World.batch
  have hsorted := s.outbox.free_sorted t unpublished
  cases hlist : s.outbox.free t unpublished with
  | nil =>
      rw [hlist] at hfree
      cases hfree
  | cons x rest =>
      rw [hlist] at hfree hsorted
      rcases List.mem_cons.mp hfree with rfl | hrest
      · exact List.mem_cons_self
      · -- A row before it would wait too.
        have hlt : x.1 < n :=
          (List.pairwise_cons.mp hsorted).1 n (List.mem_map.mpr ⟨_, hrest, rfl⟩)
        have hx : x ∈ s.outbox.free t unpublished := by
          rw [hlist]
          exact List.mem_cons_self
        obtain ⟨hxread, hxnone, -⟩ := (mem_free h.sound.bounded).mp hx
        rw [hread] at hxread
        exact absurd (unpublished_iff.mp hxnone) (hbelow x.1 x.2 hlt hxread)

theorem Quiet.clear (h : Quiet s) (t : Sid) : Clear t s := fun k v hk => by
  rw [h.unlocked k] at hk
  cases hk

/-- A row is one of the batch, with its mark, or as it was. -/
theorem Drained.row (h : Drained t clock s s') {k : Nat} {row : Outbox D}
    (hk : s'.outbox.committed k = some row) :
    (∃ old, (k, old) ∈ s.batch t ∧ row = mark (clock k) old) ∨
      k ∉ (s.batch t).map Prod.fst ∧ s.outbox.committed k = some row := by
  by_cases hmem : k ∈ (s.batch t).map Prod.fst
  · obtain ⟨⟨j, old⟩, hx, rfl⟩ := List.mem_map.mp hmem
    rw [h.marked _ hx] at hk
    cases hk
    exact .inl ⟨old, hx, rfl⟩
  · rw [h.kept k hmem] at hk
    exact .inr ⟨hmem, hk⟩

theorem Drained.isSome (h : Drained t clock s s') (hs : Quiet s) (k : Nat) :
    (s'.outbox.committed k).isSome = (s.outbox.committed k).isSome := by
  by_cases hmem : k ∈ (s.batch t).map Prod.fst
  · obtain ⟨x, hx, rfl⟩ := List.mem_map.mp hmem
    rw [h.marked x hx, (mem_batch hs.sound (hs.clear t) hx).1]
    rfl
  · rw [h.kept k hmem]

theorem Drained.sound (h : Drained t clock s s') (hs : Quiet s) : Sound s' := by
  have hclear := hs.clear t
  refine ⟨fun k hk => ⟨?_, h.unlocked k⟩, fun k v hv => ?_, fun m hm => ?_,
    fun k row hk hmarked => ?_, fun k o v row hk => ?_, fun k o v row hk => ?_, fun k o v hk => ?_⟩
  · have hnone := (hs.sound.bounded k (h.next ▸ hk)).1
    have hsame := h.isSome hs k
    rw [hnone] at hsame
    exact Option.not_isSome_iff_eq_none.mp (Bool.eq_false_iff.mp hsame)
  · rcases hv with hv | ⟨o, hv⟩
    · rcases h.row hv with ⟨old, hx, rfl⟩ | ⟨-, hv⟩
      · exact hs.sound.numbered k old (.inl (mem_batch hs.sound hclear hx).1)
      · exact hs.sound.numbered k v (.inl hv)
    · rw [h.unlocked k] at hv
      cases hv
  · rw [h.confirmed] at hm
    rcases List.mem_append.mp hm with hm | hm
    · obtain ⟨k, row, hk, rfl⟩ := hs.sound.origin m hm
      by_cases hmem : k ∈ (s.batch t).map Prod.fst
      · obtain ⟨x, hx, rfl⟩ := List.mem_map.mp hmem
        have hsame := (mem_batch hs.sound hclear hx).1
        rw [hk] at hsame
        cases hsame
        exact ⟨x.1, _, h.marked x hx, rfl⟩
      · exact ⟨k, row, (h.kept k hmem).trans hk, rfl⟩
    · obtain ⟨x, hx, rfl⟩ := List.mem_map.mp hm
      exact ⟨x.1, _, h.marked x hx, rfl⟩
  · rw [h.confirmed]
    rcases h.row hk with ⟨old, hx, rfl⟩ | ⟨-, hk⟩
    · exact List.mem_append_right _ (List.mem_map.mpr ⟨_, hx, rfl⟩)
    · exact List.mem_append_left _ (hs.sound.confirmed k row hk hmarked)
  · rw [h.unlocked k] at hk
    cases hk
  · rw [h.unlocked k] at hk
    cases hk
  · rw [h.unlocked k] at hk
    cases hk

theorem Drained.quiet (h : Drained t clock s s') (hs : Quiet s) : Quiet s' := by
  have hclear := hs.clear t
  refine ⟨h.sound hs, h.unlocked, fun m => ?_, ?_, fun k row hk hnone hmem => ?_⟩
  · rw [h.refuses]
    exact hs.takes m
  · rw [h.confirmed]
    refine List.nodup_append.mpr ⟨hs.nodup, batch_messages_nodup hs.sound hclear, ?_⟩
    rintro m hm m' hm' rfl
    obtain ⟨x, hx, rfl⟩ := List.mem_map.mp hm'
    obtain ⟨hcommitted, hnone, -⟩ := mem_batch hs.sound hclear hx
    exact hs.waiting x.1 x.2 hcommitted hnone hm
  · rcases h.row hk with ⟨old, hx, rfl⟩ | ⟨hout, hk⟩
    · cases hnone
    · rw [h.confirmed] at hmem
      rcases List.mem_append.mp hmem with hmem | hmem
      · exact hs.waiting k row hk hnone hmem
      · obtain ⟨x, hx, heq⟩ := List.mem_map.mp hmem
        have hkey := hs.sound.key_eq (.inl (mem_batch hs.sound hclear hx).1) (.inl hk) heq
        exact hout (hkey ▸ List.mem_map_of_mem hx)

/-- If all rows before row `n` are marked, then it is marked now. -/
theorem Drained.advances (h : Drained t clock s s') (hs : Quiet s) {n : Nat}
    (hbelow : ∀ k row, k < n → s.outbox.committed k = some row → row.publishedAt ≠ none) :
    ∀ k row, k < n + 1 → s'.outbox.committed k = some row → row.publishedAt ≠ none := by
  intro k row hlt hk
  rcases h.row hk with ⟨old, hx, rfl⟩ | ⟨hout, hk⟩
  · exact Option.some_ne_none _
  · intro hnone
    by_cases hkn : k < n
    · exact hbelow k row hkn hk hnone
    · have heq : k = n := by omega
      subst heq
      exact hout (List.mem_map.mpr ⟨_, first_taken hs hbelow hk hnone, rfl⟩)

/-- Workers that run one after the other publish every row. -/
theorem Quiet.drains (h : Quiet s) (t : Sid) (clock : Nat → Time) :
    ∃ n s', calls Call.body (List.replicate n (.drainOnce clock)) t s = some s' ∧ Quiet s' ∧
      (∀ k, (s'.outbox.committed k).isSome = (s.outbox.committed k).isSome) ∧
      ∀ k row, s'.outbox.committed k = some row → row.publishedAt ≠ none := by
  have hsteps : ∀ n, ∃ s', calls Call.body (List.replicate n (.drainOnce clock)) t s = some s' ∧
      Quiet s' ∧ s'.outbox.next = s.outbox.next ∧
      (∀ k, (s'.outbox.committed k).isSome = (s.outbox.committed k).isSome) ∧
      ∀ k row, k < n → s'.outbox.committed k = some row → row.publishedAt ≠ none := by
    intro n
    induction n with
    | zero => exact ⟨s, rfl, h, rfl, fun _ => rfl, fun k row hk => absurd hk (Nat.not_lt_zero k)⟩
    | succ n ih =>
        obtain ⟨s₁, hcalls, hquiet, hnext, hsome, hbelow⟩ := ih
        obtain ⟨s₂, hcall, hdrained⟩ := drain_alone hquiet (t + n) clock
        refine ⟨s₂, ?_, hdrained.quiet hquiet, hdrained.next.trans hnext,
          fun k => (hdrained.isSome hquiet k).trans (hsome k), hdrained.advances hquiet hbelow⟩
        rw [List.replicate_succ', calls_append, hcalls, List.length_replicate]
        have hbody : (Call.body (.drainOnce clock)).call (t + n) s₁ =
            some (.ok (s₁.batch (t + n)).length, s₂) := hcall
        simp only [Option.bind_some, calls, hbody]
  obtain ⟨s', hcalls, hquiet, hnext, hsome, hbelow⟩ := hsteps s.outbox.next
  refine ⟨_, s', hcalls, hquiet, hsome, fun k row hk => hbelow k row ?_ hk⟩
  rw [← hnext]
  exact hquiet.sound.bounded.lt_of_committed hk

end Alone

/-- For all runs of emitting transactions and workers, whatever the broker refuses and whoever
crashes: a row is marked only if the broker has confirmed its message, what was published is
the message of a committed row, and a row that is locked is not marked and is free again once
its session is rolled back.  If the broker refuses nothing and nobody crashes, no row is
published twice, a marked row was published exactly once, and when no session is open any more
then workers that run one after the other publish every row exactly once. -/
theorem outbox_relayed [DecidableEq D] (refuses : Nat → Bool) {c : Cluster D}
    (h : Run Call.body (Config.start (World.start refuses)) c) :
    (∀ k row, c.store.outbox.committed k = some row → row.publishedAt ≠ none →
      message row ∈ c.store.broker.confirmed) ∧
    (∀ m ∈ c.store.broker.confirmed, ∃ k row, c.store.outbox.committed k = some row ∧
      m = message row) ∧
    (∀ t k v row, c.store.outbox.pending k = some (t, v) → c.store.outbox.committed k = some row →
      row.publishedAt = none ∧
        ∀ o, (k, row) ∈ (Transactional.rollback t c.store).outbox.free o unpublished) ∧
    ∀ l, (refuses = fun _ => false) →
      (Config.start (World.start refuses)).play Call.body l = some c →
      (∀ k row, c.store.outbox.committed k = some row →
        c.store.broker.confirmed.count (message row) ≤ 1 ∧
          (row.publishedAt ≠ none → c.store.broker.confirmed.count (message row) = 1)) ∧
      ((∀ t, c.sessions t = none) → ∀ clock, ∃ n s',
        calls Call.body (List.replicate n (.drainOnce clock)) c.fresh c.store = some s' ∧
        (∀ k, (s'.outbox.committed k).isSome = (c.store.outbox.committed k).isSome) ∧
        ∀ k row, s'.outbox.committed k = some row →
          row.publishedAt ≠ none ∧ s'.broker.confirmed.count (message row) = 1) := by
  obtain ⟨σ, -, hinv⟩ := Run.inv h
  refine ⟨hinv.sound.confirmed, hinv.sound.origin, fun t k v row hpending hcommitted => ?_,
    fun l htakes hplay => ?_⟩
  · exact ⟨hinv.sound.held k t v row hpending hcommitted,
      fun o => hinv.sound.freed hpending hcommitted o⟩
  · rw [htakes] at hplay
    obtain ⟨σ', hstaged, hinv', honce, hbroker⟩ := play_once hplay
    refine ⟨fun k row hk => ⟨List.nodup_iff_count_le_one.mp honce.nodup _, fun hmarked => ?_⟩,
      fun hidle clock => ?_⟩
    · exact List.count_eq_one_of_mem honce.nodup (hinv'.sound.confirmed k row hk hmarked)
    · have hnone : ∀ t, σ' t = none := fun t => hstaged.of_none (hidle t)
      have hquiet : Quiet c.store := by
        refine ⟨hinv'.sound, fun k => ?_, fun n => by rw [hbroker], honce.nodup,
          fun k row hk hunpublished => ?_⟩
        · cases hk : c.store.outbox.pending k with
          | none => rfl
          | some w => exact absurd hk (hinv'.idle w.1 (hnone w.1) k w.2)
        · refine honce.waiting k row hk hunpublished fun t st hst => ?_
          rw [hnone t] at hst
          cases hst
      obtain ⟨n, s', hcalls, hquiet', hsome, hall⟩ := hquiet.drains c.fresh clock
      refine ⟨n, s', hcalls, hsome, fun k row hk => ⟨hall k row hk, ?_⟩⟩
      exact List.count_eq_one_of_mem hquiet'.nodup
        (hquiet'.sound.confirmed k row hk (hall k row hk))

/-- The event of a registration. -/
def registered : Event Unit :=
  { routingKey := "iam.user.registered", tenantId := none, data := () }

/-- One registration commits, another one is rolled back, and a worker runs. -/
def relaySchedule : List (Sql.Move (Call Unit)) :=
  [[.begin (.transact [registered] true), .next 0, .begin (.transact [registered] false), .next 1,
      .next 0, .close 0, .close 1],
    [.begin (.drainOnce fun _ => 7)], List.replicate 4 (.next 2), [.close 2]].flatten

theorem outbox_relayed_registered : ∃ c : Cluster Unit,
    (Config.start (World.start fun _ => false)).play Call.body relaySchedule = some c ∧
    c.store.outbox.committed 0 = some (mark 7 (registered.row 0)) ∧
    c.store.outbox.committed 1 = none ∧
    c.store.broker.confirmed.count (message (registered.row 0)) = 1 := by
  have hfacts : ((Config.start (World.start fun _ => false)).play Call.body relaySchedule).map
      (fun c : Cluster Unit => (c.store.outbox.committed 0, c.store.outbox.committed 1)) =
      some (some (mark 7 (registered.row 0)), none) := by
    decide +kernel
  obtain ⟨c, hplay, hrows⟩ := Option.map_eq_some_iff.mp hfacts
  simp only [Prod.mk.injEq] at hrows
  obtain ⟨-, -, -, hclean⟩ := outbox_relayed (fun _ => false) (Config.play_run hplay)
  obtain ⟨hcounts, -⟩ := hclean relaySchedule rfl hplay
  obtain ⟨-, hcount⟩ := hcounts 0 _ hrows.1
  exact ⟨c, hplay, hrows.1, hrows.2, hcount (Option.some_ne_none 7)⟩

end Relay
end Rcp
