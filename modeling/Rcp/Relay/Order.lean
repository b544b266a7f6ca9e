/-
The order in which the broker receives the events of one aggregate.

A worker publishes its batch in the order of the rows.  But it skips rows that another
worker has locked, so two workers may publish the events of one aggregate the wrong way
round.  If no worker takes a row while an earlier one of the same aggregate is locked,
the order is kept.
-/
import Rcp.Relay.Faithful

namespace Rcp
namespace Relay

open Sql Sql.Table Relation

variable {D κ : Type}

/-- Every occurrence of `m'` in the list comes after one of `m`. -/
def Before (m m' : Published D) (l : List (Published D)) : Prop :=
  ∀ a b, l = a ++ m' :: b → m ∈ a

/-- Row `k` is committed and not published. -/
def World.waits (s : World D) (k : Nat) : Bool := (s.outbox.committed k).any unpublished

/-- What the event of row `k` is about. -/
def World.about (aggregate : Envelope D → κ) (s : World D) (k : Nat) : Option κ :=
  (s.outbox.committed k).map fun row => aggregate row.payload

/-- The step locks no waiting row while an earlier one of the same aggregate is locked. -/
def TakesInOrder (aggregate : Envelope D → κ) (_ : Call D) (_ s s' : World D) : Prop :=
  ∀ j < s.outbox.next, ∀ i < j, s.waits i = true ∧ s.waits j = true ∧
    s.about aggregate i = s.about aggregate j ∧ (s.outbox.pending i).isSome = true ∧
    (s.outbox.pending j).isNone = true → (s'.outbox.pending j).isNone = true

instance [DecidableEq κ] (aggregate : Envelope D → κ) (a : Call D) (s₀ s s' : World D) :
    Decidable (TakesInOrder aggregate a s₀ s s') :=
  inferInstanceAs (Decidable (∀ j < s.outbox.next, ∀ i < j, _ → _))

/-- Before a session publishes row `j`, message `m` of row `i` is published, by whom ever. -/
def Leads (aggregate : Envelope D → κ) (x : κ) (m : Published D) (i j : Nat) (s : World D) :
    Stage D → Prop
  | .publishing _ _ r rest => ∀ v a b, r :: rest = a ++ (j, v) :: b → aggregate v.payload = x →
      m ∈ s.broker.confirmed ∨ i ∈ a.map Prod.fst
  | _ => True

/-- Message `m` of row `i` comes before what row `j` says of the aggregate `x`. -/
structure Ordered (aggregate : Envelope D → κ) (x : κ) (m : Published D) (i j : Nat)
    (s : World D) (σ : Sid → Option (Stage D)) : Prop where
  row : ∃ u, s.outbox.committed i = some u ∧ message u = m
  before : ∀ m', m'.messageId = j → aggregate m'.body = x → Before m m' s.broker.confirmed
  leads : ∀ t st, σ t = some st → Leads aggregate x m i j s st

section Steps

variable {aggregate : Envelope D → κ} {x : κ} {m : Published D} {i j : Nat} {s s' : World D}
  {σ σ' : Sid → Option (Stage D)} {t : Sid} {st st' : Stage D}

theorem Before.append {m' m₁ : Published D} {l : List (Published D)} (h : Before m m' l)
    (hlast : m₁ = m' → m ∈ l) : Before m m' (l ++ [m₁]) := by
  intro a b hab
  rcases List.append_eq_append_iff.mp hab with ⟨c, rfl, hc⟩ | ⟨c, rfl, hc⟩
  · cases c with
    | nil =>
        have heq : m₁ = m' := by
          have := congrArg List.head? hc
          simpa using this
        simpa using hlast heq
    | cons y rest =>
        have hlen := congrArg List.length hc
        simp at hlen
  · cases c with
    | nil =>
        have heq : m₁ = m' := by
          have := congrArg List.head? hc
          simpa using this.symm
        simpa using hlast heq
    | cons y rest =>
        rw [List.cons_append] at hc
        have hy : m' = y := (List.cons.inj hc).1
        exact h a rest (by rw [hy])

/-- Committed rows keep their messages. -/
theorem Sound.keeps_message (h : Sound s) (hmove : Move t s st s' st') (hst : Holds t s st)
    {k : Nat} {u : Outbox D} (hk : s.outbox.committed k = some u) :
    ∃ u', s'.outbox.committed k = some u' ∧ message u' = message u := by
  have hcommit : ∃ u', (s.outbox.commit t).committed k = some u' ∧ message u' = message u := by
    cases hw : s.outbox.writes t k with
    | none => exact ⟨u, (read_of_not_written hw).trans hk, rfl⟩
    | some v => exact ⟨v, read_of_writes hw, h.versions k t v u (writes_eq_some.mp hw) hk⟩
  cases hmove with
  | emit => exact ⟨u, hk, rfl⟩
  | commit => exact hcommit
  | select => exact ⟨u, by simpa using hk, rfl⟩
  | confirm hok => exact ⟨u, hk, rfl⟩
  | refuse hno => exact ⟨u, hk, rfl⟩
  | @mark _ clock done rest r found hr =>
      rw [runMark (hst.1.taken r List.mem_cons_self).2 hr]
      exact ⟨u, hk, rfl⟩
  | close => exact hcommit

theorem Leads.kept (h : Leads aggregate x m i j s st)
    (hsub : m ∈ s.broker.confirmed → m ∈ s'.broker.confirmed) :
    Leads aggregate x m i j s' st := by
  cases st with
  | publishing clock done r rest =>
      intro v a b hsplit hv
      exact (h v a b hsplit hv).imp_left hsub
  | emitting e rest commits => trivial
  | committing => trivial
  | selecting clock => trivial
  | marking clock done r rest => trivial
  | closing done => trivial
  | ended outcome => trivial

theorem Leads.mark (clock : Nat → Time) (done todo : List (Nat × Outbox D)) :
    Leads aggregate x m i j s (.mark clock done todo) := by
  cases todo <;> trivial

theorem Leads.publish {clock : Nat → Time} {done todo : List (Nat × Outbox D)}
    (h : ∀ v a b, todo = a ++ (j, v) :: b → aggregate v.payload = x →
      m ∈ s.broker.confirmed ∨ i ∈ a.map Prod.fst) :
    Leads aggregate x m i j s (.publish clock done todo) := by
  cases todo with
  | nil => exact Leads.mark clock [] done
  | cons r rest => exact h

theorem Ordered.update (h : Ordered aggregate x m i j s σ)
    (hrow : ∃ u, s'.outbox.committed i = some u ∧ message u = m)
    (hbefore : ∀ m', m'.messageId = j → aggregate m'.body = x →
      Before m m' s'.broker.confirmed)
    (hsub : m ∈ s.broker.confirmed → m ∈ s'.broker.confirmed) {y : Option (Stage D)}
    (hy : ∀ st, y = some st → Leads aggregate x m i j s' st) :
    Ordered aggregate x m i j s' (Function.update σ t y) := by
  refine ⟨hrow, hbefore, fun o st ho => ?_⟩
  by_cases hot : o = t
  · subst hot
    rw [Function.update_self] at ho
    exact hy st ho
  · rw [Function.update_of_ne hot] at ho
    exact (h.leads o st ho).kept hsub

/-- A worker takes the rows of its batch in order. -/
theorem Ordered.select (h : Ordered aggregate x m i j s σ) (hsound : Sound s) (hclear : Clear t s)
    (hij : i < j) (hm : aggregate m.body = x) {clock : Nat → Time} {a : Call D} {s₀ : World D}
    (hadm : TakesInOrder aggregate a s₀ s
      { s with outbox := s.outbox.lockRows t (s.batch t) }) :
    Leads aggregate x m i j { s with outbox := s.outbox.lockRows t (s.batch t) }
      (.publish clock [] (s.batch t)) := by
  refine Leads.publish fun v a b hsplit hv => ?_
  obtain ⟨u, hu, hmessage⟩ := h.row
  have hj : (j, v) ∈ s.batch t := by
    rw [hsplit]
    exact List.mem_append_right _ List.mem_cons_self
  obtain ⟨hcommitted, hnone, hpending⟩ := mem_batch hsound hclear hj
  cases hpublished : u.publishedAt with
  | some now =>
      left
      rw [← hmessage]
      exact hsound.confirmed i u hu (by rw [hpublished]; exact Option.some_ne_none now)
  | none =>
      right
      have hbody : u.payload = m.body := by
        rw [← hmessage]
        rfl
      have hfreei : s.outbox.pending i = none := by
        by_contra hlocked
        have hlt : j < s.outbox.next := hsound.bounded.lt_of_committed hcommitted
        have hwaitsi : s.waits i = true := by
          unfold World.waits
          rw [hu]
          exact unpublished_iff.mpr hpublished
        have hwaitsj : s.waits j = true := by
          unfold World.waits
          rw [hcommitted]
          exact unpublished_iff.mpr hnone
        have habout : s.about aggregate i = s.about aggregate j := by
          unfold World.about
          rw [hu, hcommitted]
          show some (aggregate u.payload) = some (aggregate v.payload)
          rw [hbody, hm, hv]
        have hstill := hadm j hlt i hij ⟨hwaitsi, hwaitsj, habout,
          Option.isSome_iff_ne_none.mpr hlocked, by rw [hpending]; rfl⟩
        have htaken : (s.outbox.lockRows t (s.batch t)).pending j = some (t, v) :=
          lockRows_of_mem (batch_nodup s t) hj
        simp only [htaken] at hstill
        cases hstill
      have hmem : (i, u) ∈ s.outbox.free t unpublished := by
        refine (mem_free hsound.bounded).mpr ⟨?_, unpublished_iff.mpr hpublished,
          lockedFor_eq_false.mpr fun o w hw => ?_⟩
        · refine (read_of_not_written ?_).trans hu
          unfold Table.writes
          rw [hfreei]
        · rw [hfreei] at hw
          cases hw
      exact List.mem_map.mpr ⟨_, free_before hsplit hmem hij, rfl⟩

theorem Ordered.confirm (h : Ordered aggregate x m i j s σ) (hinv : Inv s σ)
    {clock : Nat → Time} {done rest : List (Nat × Outbox D)} {r : Nat × Outbox D}
    (hst : σ t = some (.publishing clock done r rest)) :
    Ordered aggregate x m i j (s.confirm (message r.2))
      (Function.update σ t (some (.publish clock (done ++ [r]) rest))) := by
  obtain ⟨hbatch, -⟩ := hinv.holds t _ hst
  have hleads : ∀ v a b, r :: rest = a ++ (j, v) :: b → aggregate v.payload = x →
      m ∈ s.broker.confirmed ∨ i ∈ a.map Prod.fst := h.leads t _ hst
  have hr := (hbatch.taken r (List.mem_append_right _ List.mem_cons_self)).1
  have hsub : m ∈ s.broker.confirmed → m ∈ (s.confirm (message r.2)).broker.confirmed :=
    fun hmem => List.mem_append_left _ hmem
  have hrow : ∃ u, (s.confirm (message r.2)).outbox.committed i = some u ∧ message u = m := h.row
  refine h.update hrow (fun m' hid hbody => ?_) hsub fun st hy => ?_
  · refine (h.before m' hid hbody).append fun heq => ?_
    subst heq
    have hrj : r.1 = j := (hinv.sound.numbered r.1 r.2 (.inl hr)).symm.trans hid
    have hsplit : r :: rest = [] ++ (j, r.2) :: rest := by
      rw [← hrj]
      rfl
    rcases hleads r.2 [] rest hsplit hbody with hmem | hmem
    · exact hmem
    · cases hmem
  · cases hy
    refine Leads.publish fun v a b hsplit hv => ?_
    have hsplit' : r :: rest = (r :: a) ++ (j, v) :: b := by rw [hsplit]; rfl
    rcases hleads v (r :: a) b hsplit' hv with hmem | hmem
    · exact .inl (hsub hmem)
    · rcases List.mem_cons.mp hmem with hir | hmem
      · left
        obtain ⟨u, hu, hmessage⟩ := h.row
        rw [hir] at hu
        have hur : u = r.2 := Option.some.inj (hu.symm.trans hr)
        rw [← hmessage, hur]
        exact List.mem_append_right _ List.mem_cons_self
      · exact .inr hmem

theorem Ordered.rollback (h : Ordered aggregate x m i j s σ) :
    Ordered aggregate x m i j (Transactional.rollback t s) (Function.update σ t none) := by
  have hrow : ∃ u, (Transactional.rollback t s).outbox.committed i = some u ∧ message u = m :=
    h.row
  refine h.update hrow h.before id fun st hy => ?_
  cases hy

/-- One step that is no crash. -/
theorem Ordered.turn (h : Ordered aggregate x m i j s σ) (hinv : Inv s σ) (hij : i < j)
    (hm : aggregate m.body = x) (hturn : Turn t s σ s' σ')
    (hadm : ∀ st, σ t = some st → ∃ a s₀, TakesInOrder aggregate a s₀ s s') :
    Ordered aggregate x m i j s' σ' := by
  cases hturn with
  | begin a hnone =>
      refine h.update h.row h.before id fun st hy => ?_
      cases hy
      cases a with
      | drainOnce clock => trivial
      | transact events commits =>
          cases events with
          | cons e rest => trivial
          | nil => cases commits <;> trivial
  | close hst => exact h.rollback
  | move hst hmove =>
      have hholds := hinv.holds t _ hst
      obtain ⟨a, s₀, hadm⟩ := hadm _ hst
      obtain ⟨u, hu, hmessage⟩ := h.row
      obtain ⟨u', hu', hmessage'⟩ := hinv.sound.keeps_message hmove hholds hu
      have hrow : ∃ u, s'.outbox.committed i = some u ∧ message u = m :=
        ⟨u', hu', hmessage'.trans hmessage⟩
      cases hmove with
      | @emit e rest commits =>
          refine h.update hrow h.before id fun st hy => ?_
          cases hy
          cases rest with
          | cons e rest => trivial
          | nil => cases commits <;> trivial
      | commit =>
          refine h.update hrow h.before id fun st hy => ?_
          cases hy
          trivial
      | select =>
          refine h.update hrow h.before id fun st hy => ?_
          cases hy
          exact h.select hinv.sound hholds hij hm hadm
      | confirm hok => exact h.confirm hinv hst
      | refuse hno =>
          refine h.update hrow h.before id fun st hy => ?_
          cases hy
          trivial
      | @mark _ clock done rest r found hr =>
          rw [runMark (hholds.1.taken r List.mem_cons_self).2 hr] at hrow ⊢
          refine h.update hrow h.before id fun st hy => ?_
          cases hy
          exact Leads.mark clock (done ++ [r]) rest
      | close =>
          refine h.update hrow h.before id fun st hy => ?_
          cases hy
          trivial

end Steps

/-- Row `i` is committed before row `j` is drawn, and both are about the same aggregate.  If from
then on no worker takes a row while an earlier one of its aggregate is locked, the broker
receives the event of row `i` before that of row `j`.  This is so for any number of workers,
and whatever the broker refuses and whoever crashes. -/
theorem published_in_order (aggregate : Envelope D → κ) (refuses : Nat → Bool) {c c' : Cluster D}
    (hrun : Run Call.body (Config.start (World.start refuses)) c)
    (hafter : RunWith Call.body (TakesInOrder aggregate) c c') {i j : Nat} {u v : Outbox D}
    (hi : c.store.outbox.committed i = some u) (hj : c.store.outbox.next ≤ j)
    (hv : c'.store.outbox.committed j = some v)
    (habout : aggregate u.payload = aggregate v.payload) :
    Before (message u) (message v) c'.store.broker.confirmed := by
  obtain ⟨σ, hstaged, hinv⟩ := Run.inv hrun
  have hij : i < j := Nat.lt_of_lt_of_le (hinv.sound.bounded.lt_of_committed hi) hj
  have hnone := (hinv.sound.bounded j hj).1
  have hstart : Ordered aggregate (aggregate u.payload) (message u) i j c.store σ := by
    refine ⟨⟨u, hi, rfl⟩, fun m' hid _ a b hab => ?_, fun t st hst => ?_⟩
    · -- No message of row `j` was published so far.
      have hmem : m' ∈ c.store.broker.confirmed := by
        rw [hab]
        exact List.mem_append_right _ List.mem_cons_self
      obtain ⟨k, row, hk, rfl⟩ := hinv.sound.origin m' hmem
      have hkj : k = j := (hinv.sound.numbered k row (.inl hk)).symm.trans hid
      rw [hkj, hnone] at hk
      cases hk
    · have hholds := hinv.holds t st hst
      cases st with
      | publishing clock done r rest =>
          intro w a b hsplit _
          have hmem : (j, w) ∈ done ++ r :: rest := by
            rw [hsplit]
            simp
          have hcommitted := (hholds.1.taken _ hmem).1
          rw [hnone] at hcommitted
          cases hcommitted
      | emitting e rest commits => trivial
      | committing => trivial
      | selecting clock => trivial
      | marking clock done r rest => trivial
      | closing done => trivial
      | ended outcome => trivial
  have hend : ∃ σ', Staged c' σ' ∧ Inv c'.store σ' ∧
      Ordered aggregate (aggregate u.payload) (message u) i j c'.store σ' := by
    clear hv
    induction hafter with
    | refl => exact ⟨σ, hstaged, hinv, hstart⟩
    | tail _ hstep ih =>
        obtain ⟨σ₁, hstaged₁, hinv₁, hordered⟩ := ih
        obtain ⟨t, hstep, hadm⟩ := hstep
        obtain ⟨σ₂, hstaged₂, hturn | ⟨-, hstore, rfl, -⟩⟩ := hstaged₁.step hstep
        · refine ⟨σ₂, hstaged₂, hinv₁.turn hturn, hordered.turn hinv₁ hij rfl hturn fun st hst => ?_⟩
          have hprog := hstaged₁.prog t
          rw [hst] at hprog
          obtain ⟨se, hse, -⟩ := Option.map_eq_some_iff.mp hprog
          exact ⟨_, _, hadm se hse⟩
        · refine ⟨_, hstaged₂, ?_, ?_⟩
          · rw [hstore]
            exact hinv₁.rollback
          · rw [hstore]
            exact hordered.rollback
  obtain ⟨σ', -, hinv', hordered⟩ := hend
  exact hordered.before (message v) (hinv'.sound.numbered j v (.inl hv)) habout.symm

/-- An event about the one user there is. -/
def userUpdated : Event Unit :=
  { routingKey := "iam.user.updated", tenantId := none, data := () }

/-- A transaction that emits the event. -/
def emitUpdate (t : Sid) : List (Sql.Move (Call Unit)) :=
  [.begin (.transact [userUpdated] true), .next t, .next t, .close t]

/-- A worker publishes both events. -/
def drainBoth : List (Sql.Move (Call Unit)) :=
  .begin (.drainOnce fun _ => 7) :: List.replicate 6 (.next 2)

theorem published_in_order_updates : ∃ c c' : Cluster Unit,
    (Config.start (World.start fun _ => false)).play Call.body (emitUpdate 0) = some c ∧
    c.playWith Call.body (TakesInOrder fun _ => ()) (emitUpdate 1 ++ drainBoth) = some c' ∧
    message (userUpdated.row 1) ∈ c'.store.broker.confirmed ∧
    Before (message (userUpdated.row 0)) (message (userUpdated.row 1))
      c'.store.broker.confirmed := by
  have hfacts : ((Config.start (World.start fun _ => false)).play Call.body (emitUpdate 0)).bind
      (fun c : Cluster Unit => (c.playWith Call.body (TakesInOrder fun _ => ())
        (emitUpdate 1 ++ drainBoth)).map fun c' : Cluster Unit =>
          (c.store.outbox.committed 0, c.store.outbox.next, c'.store.outbox.committed 1,
            decide (message (userUpdated.row 1) ∈ c'.store.broker.confirmed))) =
      some (some (userUpdated.row 0), 1, some (mark 7 (userUpdated.row 1)), true) := by
    decide +kernel
  obtain ⟨c, hfirst, hfacts⟩ := Option.bind_eq_some_iff.mp hfacts
  obtain ⟨c', hsecond, hfacts⟩ := Option.map_eq_some_iff.mp hfacts
  simp only [Prod.mk.injEq, decide_eq_true_eq] at hfacts
  obtain ⟨hi, hnext, hj, hmem⟩ := hfacts
  have hbefore := published_in_order (fun _ => ()) (fun _ => false) (Config.play_run hfirst)
    (Config.playWith_run hsecond) hi (Nat.le_of_eq hnext) hj rfl
  exact ⟨c, c', hfirst, hsecond, hmem, hbefore⟩

/-- The first worker takes the first event.  While it waits to publish, the second event is
committed and a second worker publishes it. -/
def overtaking : List (Sql.Move (Call Unit)) :=
  [[.begin (.drainOnce fun _ => 7), .next 1], emitUpdate 2,
    [.begin (.drainOnce fun _ => 8), .next 3, .next 3, .next 1]].flatten

theorem published_out_of_order : ¬ ∀ (D κ : Type) (aggregate : Envelope D → κ)
    (l l' : List (Sql.Move (Call D))) (c c' : Cluster D) (i j : Nat) (u v : Outbox D),
    (Config.start (World.start fun _ => false)).play Call.body l = some c →
    c.play Call.body l' = some c' →
    (∀ t se events commits, c.sessions t = some se → se.call ≠ .transact events commits) →
    c.store.outbox.committed i = some u → c.store.outbox.next ≤ j →
    c'.store.outbox.committed j = some v → aggregate u.payload = aggregate v.payload →
    Before (message u) (message v) c'.store.broker.confirmed := by
  intro hclaim
  have hfacts : ((Config.start (World.start fun _ => false)).play Call.body (emitUpdate 0)).bind
      (fun c : Cluster Unit => (c.play Call.body overtaking).map fun c' : Cluster Unit =>
        (c.store.outbox.committed 0, c.store.outbox.next, c'.store.outbox.committed 1,
          c'.store.broker.confirmed)) =
      some (some (userUpdated.row 0), 1, some (userUpdated.row 1),
        [message (userUpdated.row 1), message (userUpdated.row 0)]) := by
    decide +kernel
  obtain ⟨c, hfirst, hfacts⟩ := Option.bind_eq_some_iff.mp hfacts
  obtain ⟨c', hsecond, hfacts⟩ := Option.map_eq_some_iff.mp hfacts
  simp only [Prod.mk.injEq] at hfacts
  obtain ⟨hi, hnext, hj, hconfirmed⟩ := hfacts
  have hidle : ∀ t se events commits, c.sessions t = some se →
      se.call ≠ .transact events commits := by
    cases hfirst
    intro t se events commits hse
    have hnone : Function.update (Function.update (Function.update (Function.update
        (fun _ => none) 0 _) 0 _) 0 _) 0 none t = some se := hse
    rw [Function.update_idem, Function.update_idem, Function.update_idem] at hnone
    by_cases ht : t = 0
    · rw [ht, Function.update_self] at hnone
      cases hnone
    · rw [Function.update_of_ne ht] at hnone
      cases hnone
  have hbefore := hclaim Unit Unit (fun _ => ()) (emitUpdate 0) overtaking c c' 0 1 _ _ hfirst
    hsecond hidle hi (Nat.le_of_eq hnext) hj rfl
  have hmem := hbefore [] [message (userUpdated.row 0)] hconfirmed
  cases hmem

end Relay
end Rcp
