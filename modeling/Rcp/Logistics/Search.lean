/-
The search of `_reachable_from` (`services/logistics/app/services/workflow.py`).

A turn of its loop pops a state and pushes those of its targets that are new.  A state is
pushed when it is first seen, so that the loop pops every state it sees once; what the turns
keep is `Searching`.
-/
import Mathlib.Data.Finset.Card
import Mathlib.Logic.Relation
import Rcp.Common.Loop
import Rcp.Logistics.Workflow

namespace Rcp
namespace Logistics
namespace Workflow

section Search

variable {V : Type} [DecidableEq V] {transitions : Dict V (List V)}

/-- `target` is listed among the next states of `source`. -/
def Edge (transitions : Dict V (List V)) (source target : V) : Prop :=
  target ∈ (transitions.get? source).getD []

theorem mem_visit_seen {targets seen queue : List V} {v : V} :
    v ∈ (visit targets seen queue).1 ↔ v ∈ targets ∨ v ∈ seen := by
  induction targets generalizing seen queue with
  | nil => simp [visit]
  | cons target rest ih =>
      by_cases h : target ∈ seen
      · have hv : v = target → v ∈ seen := fun heq => heq ▸ h
        rw [visit, if_pos h, ih, List.mem_cons]
        tauto
      · rw [visit, if_neg h, ih, List.mem_cons, List.mem_cons]
        tauto

theorem mem_visit_queue {targets seen queue : List V} {v : V} :
    v ∈ (visit targets seen queue).2 ↔ v ∈ queue ∨ v ∈ targets ∧ v ∉ seen := by
  induction targets generalizing seen queue with
  | nil => simp [visit]
  | cons target rest ih =>
      by_cases h : target ∈ seen
      · have hv : v = target → v ∈ seen := fun heq => heq ▸ h
        rw [visit, if_pos h, ih, List.mem_cons]
        tauto
      · have hv : v = target → v ∉ seen := fun heq => heq ▸ h
        rw [visit, if_neg h, ih, List.mem_cons, List.mem_cons, List.mem_cons]
        tauto

/-- A target that is pushed is no longer unseen, so a pop is paid for by the push. -/
theorem visit_pending {pool : Finset V} {targets : List V}
    (h : ∀ target ∈ targets, target ∈ pool) (seen queue : List V) :
    (visit targets seen queue).2.length +
        (pool.filter (· ∉ (visit targets seen queue).1)).card =
      queue.length + (pool.filter (· ∉ seen)).card := by
  induction targets generalizing seen queue with
  | nil => rfl
  | cons target rest ih =>
      have hrest : ∀ next ∈ rest, next ∈ pool :=
        fun next hnext => h next (List.mem_cons_of_mem _ hnext)
      by_cases hseen : target ∈ seen
      · rw [visit, if_pos hseen]
        exact ih hrest seen queue
      · have htarget : target ∈ pool.filter (· ∉ seen) :=
          Finset.mem_filter.mpr ⟨h target List.mem_cons_self, hseen⟩
        have herase : pool.filter (· ∉ target :: seen) =
            (pool.filter (· ∉ seen)).erase target := by
          ext v
          simp only [Finset.mem_filter, Finset.mem_erase, List.mem_cons]
          tauto
        have hcard := Finset.card_erase_add_one htarget
        rw [visit, if_neg hseen, ih hrest, herase, List.length_cons]
        omega

/-- Every state that is seen waits in the queue or has had its next states visited. -/
def Explored (transitions : Dict V (List V)) (seen queue : List V) : Prop :=
  ∀ v ∈ seen, v ∈ queue ∨ ∀ next, Edge transitions v next → next ∈ seen

theorem Explored.visit {seen queue : List V} {top : V}
    (h : Explored transitions seen (top :: queue)) :
    Explored transitions (visit ((transitions.get? top).getD []) seen queue).1
      (Workflow.visit ((transitions.get? top).getD []) seen queue).2 := by
  intro v hv
  by_cases hseen : v ∈ seen
  · rcases h v hseen with hqueue | hdone
    · rcases List.mem_cons.mp hqueue with rfl | hqueue
      · right
        intro next hnext
        exact mem_visit_seen.mpr (.inl hnext)
      · left
        exact mem_visit_queue.mpr (.inl hqueue)
    · right
      intro next hnext
      exact mem_visit_seen.mpr (.inr (hdone next hnext))
  · left
    rcases mem_visit_seen.mp hv with htarget | hold
    · exact mem_visit_queue.mpr (.inr ⟨htarget, hseen⟩)
    · exact absurd hold hseen

theorem Edge.mem_targets {source target : V} (h : Edge transitions source target) :
    target ∈ (transitions.flatMap Prod.snd).toFinset := by
  have hmem : target ∈ transitions.flatMap Prod.snd := by
    unfold Edge at h
    induction transitions with
    | nil => cases h
    | cons entry rest ih =>
        rw [List.flatMap_cons, List.mem_append]
        rw [Dict.get?] at h
        split at h
        · exact .inl h
        · exact .inr (ih h)
  exact List.mem_toFinset.mpr hmem

/-! ## The loop -/

/-- A turn of `while queue`, on the seen states and the queue. -/
def turn (transitions : Dict V (List V)) : List V × List V → Option (List V × List V)
  | (_, []) => none
  | (seen, top :: queue) => some (visit ((transitions.get? top).getD []) seen queue)

/-- With enough fuel, `reachLoop` is the loop. -/
theorem reachLoop_of_ends {n : Nat} {s t : List V × List V}
    (h : Loop.Ends (turn transitions) n s t) {fuel : Nat} (hfuel : n ≤ fuel) :
    reachLoop transitions fuel s.1 s.2 = t.1 := by
  obtain ⟨hgoes, hstopped⟩ := h
  induction hgoes generalizing fuel with
  | refl s =>
      obtain ⟨seen, queue⟩ := s
      cases queue with
      | nil => cases fuel <;> rfl
      | cons top queue => cases hstopped
  | @step n s s' t hturn rest ih =>
      obtain ⟨seen, queue⟩ := s
      cases queue with
      | nil => cases hturn
      | cons top queue =>
          cases hturn
          cases fuel with
          | zero => omega
          | succ fuel => exact ih (by omega) hstopped

theorem visit_nodup {targets seen queue : List V} (h : seen.Nodup) :
    (visit targets seen queue).1.Nodup := by
  induction targets generalizing seen queue with
  | nil => exact h
  | cons target rest ih =>
      unfold visit
      split
      · exact ih h
      · rename_i hnew
        exact ih (List.nodup_cons.mpr ⟨hnew, h⟩)

/-- As many states are pushed as are seen. -/
theorem visit_length (targets seen queue : List V) :
    (visit targets seen queue).1.length + queue.length =
      (visit targets seen queue).2.length + seen.length := by
  induction targets generalizing seen queue with
  | nil => exact Nat.add_comm ..
  | cons target rest ih =>
      unfold visit
      split
      · exact ih seen queue
      · have hrest := ih (target :: seen) (target :: queue)
        simp only [List.length_cons] at hrest
        omega

/-- What holds after `n` turns. -/
structure Searching (transitions : Dict V (List V)) (initial : V) (n : Nat)
    (s : List V × List V) : Prop where
  nodup : s.1.Nodup
  begins : initial ∈ s.1
  reached : ∀ v ∈ s.1, Relation.ReflTransGen (Edge transitions) initial v
  queued : ∀ v ∈ s.2, v ∈ s.1
  explored : Explored transitions s.1 s.2
  popped : n + s.2.length = s.1.length

theorem searching_turn {initial : V} (n : Nat) (s s' : List V × List V)
    (h : Searching transitions initial n s) (hturn : turn transitions s = some s') :
    Searching transitions initial (n + 1) s' := by
  obtain ⟨seen, queue⟩ := s
  cases queue with
  | nil => cases hturn
  | cons top queue =>
      cases hturn
      have htop : Relation.ReflTransGen (Edge transitions) initial top :=
        h.reached top (h.queued top List.mem_cons_self)
      constructor
      case nodup => exact visit_nodup h.nodup
      case begins => exact mem_visit_seen.mpr (.inr h.begins)
      case reached =>
        intro v hv
        rcases mem_visit_seen.mp hv with htarget | hold
        · exact htop.tail htarget
        · exact h.reached v hold
      case queued =>
        intro v hv
        rcases mem_visit_queue.mp hv with hold | ⟨htarget, -⟩
        · exact mem_visit_seen.mpr (.inr (h.queued v (List.mem_cons_of_mem _ hold)))
        · exact mem_visit_seen.mpr (.inl htarget)
      case explored => exact h.explored.visit
      case popped =>
        have hpushed := visit_length ((transitions.get? top).getD []) seen queue
        have hpopped : n + (queue.length + 1) = seen.length := h.popped
        show n + 1 + (visit _ seen queue).2.length = (visit _ seen queue).1.length
        omega

/-- The states that wait and those that are still unseen. -/
def pending (transitions : Dict V (List V)) (s : List V × List V) : Nat :=
  s.2.length + ((transitions.flatMap Prod.snd).toFinset.filter (· ∉ s.1)).card

theorem turn_pending (s s' : List V × List V) (h : turn transitions s = some s') :
    pending transitions s' < pending transitions s := by
  obtain ⟨seen, queue⟩ := s
  cases queue with
  | nil => cases h
  | cons top queue =>
      cases h
      have htargets : ∀ target ∈ (transitions.get? top).getD [],
          target ∈ (transitions.flatMap Prod.snd).toFinset := fun _ => Edge.mem_targets
      have hpaid := visit_pending htargets seen queue
      have hbefore : pending transitions (seen, top :: queue) = queue.length + 1 +
          ((transitions.flatMap Prod.snd).toFinset.filter (· ∉ seen)).card := rfl
      rw [hbefore, pending]
      omega

theorem pending_initial (transitions : Dict V (List V)) (initial : V) :
    pending transitions ([initial], [initial]) ≤
      1 + (transitions.map fun entry => entry.2.length).sum := by
  have hsub := Finset.card_filter_le (transitions.flatMap Prod.snd).toFinset (· ∉ [initial])
  have hcard := List.toFinset_card_le (transitions.flatMap Prod.snd)
  rw [List.length_flatMap] at hcard
  show 1 + ((transitions.flatMap Prod.snd).toFinset.filter (· ∉ [initial])).card ≤ _
  omega

/-- The loop ends, and `_reachable_from` returns what it has seen by then. -/
theorem search_ends (transitions : Dict V (List V)) (initial : V) :
    ∃ seen, Loop.Ends (turn transitions) seen.length ([initial], [initial]) (seen, []) ∧
      reachableFrom initial transitions = seen ∧ seen.Nodup ∧
      ∀ v, v ∈ seen ↔ Relation.ReflTransGen (Edge transitions) initial v := by
  obtain ⟨n, ⟨seen, queue⟩, hends, hle⟩ :=
    Loop.ends_of_measure (pending transitions) turn_pending ([initial], [initial])
  have hstart : Searching transitions initial 0 ([initial], [initial]) :=
    { nodup := List.nodup_singleton initial
      begins := List.mem_singleton_self initial
      reached := fun v hv => List.mem_singleton.mp hv ▸ .refl
      queued := fun v hv => hv
      explored := fun v hv => .inl hv
      popped := rfl }
  have hlast := hends.goes.keeps searching_turn hstart
  rw [Nat.zero_add] at hlast
  have hempty : queue = [] := by
    cases queue with
    | nil => rfl
    | cons top queue => cases hends.stopped
  subst hempty
  have hpopped : n = seen.length := hlast.popped
  subst hpopped
  refine ⟨seen, hends, ?_, hlast.nodup, fun v => ⟨hlast.reached v, fun hreach => ?_⟩⟩
  · exact reachLoop_of_ends hends (hle.trans (pending_initial transitions initial))
  · induction hreach with
    | refl => exact hlast.begins
    | tail _ hedge ih =>
        rcases hlast.explored _ ih with hqueue | hdone
        · cases hqueue
        · exact hdone _ hedge

/-- `_reachable_from` finds exactly the states that the transitions lead to. -/
theorem mem_reachableFrom {initial v : V} :
    v ∈ reachableFrom initial transitions ↔
      Relation.ReflTransGen (Edge transitions) initial v := by
  obtain ⟨seen, -, hseen, -, hmem⟩ := search_ends transitions initial
  rw [hseen]
  exact hmem v

/-- On every table the loop ends, whatever its cycles: it pops each state that the transitions
lead to once, sees those states and no others, and all that it does on the way leads there. -/
theorem worklist_exact (transitions : Dict V (List V)) (initial : V) :
    (reachableFrom initial transitions).Nodup ∧
    (∀ v, v ∈ reachableFrom initial transitions ↔
      Relation.ReflTransGen (Edge transitions) initial v) ∧
    Loop.Ends (turn transitions) (reachableFrom initial transitions).length
      ([initial], [initial]) (reachableFrom initial transitions, []) ∧
    ∀ n s, Loop.Goes (turn transitions) n ([initial], [initial]) s →
      n ≤ (reachableFrom initial transitions).length ∧
      Loop.Ends (turn transitions) ((reachableFrom initial transitions).length - n) s
        (reachableFrom initial transitions, []) := by
  obtain ⟨seen, hends, hseen, hnodup, hmem⟩ := search_ends transitions initial
  rw [hseen]
  exact ⟨hnodup, hmem, hends, fun n s hgoes => hends.resume hgoes⟩

end Search

end Workflow
end Logistics
end Rcp
