/-
Last writer wins.

A consumer keeps one row about a thing.  An event about it overwrites the row unless it
carries an older stamp, an event that was handled before is dropped, and some events
may be refused.  Whatever the order of the deliveries and however often each event is
delivered, the row is then that of the accepted event with the greatest stamp, and
among those with the same stamp of the one whose first delivery came last.
-/
import Mathlib.Order.Lattice
import Mathlib.Data.List.Basic
import Mathlib.Data.List.Induction

namespace Delivery

variable {E S B T : Type} [DecidableEq E] [LinearOrder T]

/-- Of the accepted events of the deliveries `d`, event `e` has the greatest stamp, and no
other event with this stamp came later for the first time. -/
structure Leader (ok : E → Prop) (stamp : E → T) (d : List E) (e : E) : Prop where
  mem : e ∈ d
  accepted : ok e
  newest : ∀ x ∈ d, ok x → stamp x ≤ stamp e
  last : ∀ x ∈ d, ok x → stamp x = stamp e → d.idxOf x ≤ d.idxOf e

/-- How a consumer in state `s` answers the events about one thing.  `row` is what it keeps
of the thing and `done` says which events it has handled. -/
structure LastWriter (about ok : E → Prop) (stamp : E → T) (content : E → Option B)
    (handle : S → E → S) (row : S → Option B) (done : S → E → Prop) (inv : S → Prop) : Prop where
  keep : ∀ s e, inv s → about e → inv (handle s e)
  seen : ∀ s e, inv s → about e → done s e → row (handle s e) = row s
  refused : ∀ s e, inv s → about e → ¬ ok e → row (handle s e) = row s
  first : ∀ s e, inv s → about e → ok e → ¬ done s e → row s = none →
    row (handle s e) = content e
  overwrites : ∀ s e x, inv s → about e → ok e → ¬ done s e → about x → row s = content x →
    row (handle s e) = if stamp e < stamp x then row s else content e
  handled : ∀ s e x, inv s → about e → about x → ok x →
    (done (handle s e) x ↔ done s x ∨ x = e)

section Leader

variable {ok : E → Prop} {stamp : E → T} {d : List E} {e f x : E}

omit [LinearOrder T] in
theorem idxOf_append_of_mem (h : x ∈ d) : (d ++ [e]).idxOf x = d.idxOf x := by
  rw [List.idxOf_append, if_pos h]

omit [LinearOrder T] in
theorem idxOf_append_last (hnew : e ∉ d) : (d ++ [e]).idxOf e = d.length := by
  rw [List.idxOf_append, if_neg hnew]
  simp

/-- An event that is not accepted or was there before does not change the leader. -/
theorem Leader.same (h : Leader ok stamp d e) (hf : ok f → f ∈ d) :
    Leader ok stamp (d ++ [f]) e := by
  have hold : ∀ x ∈ d ++ [f], ok x → x ∈ d := by
    intro x hx hok
    rcases List.mem_append.mp hx with hx | hx
    · exact hx
    · have hxf := List.mem_singleton.mp hx
      subst hxf
      exact hf hok
  refine ⟨List.mem_append_left _ h.mem, h.accepted, fun x hx hok => ?_, fun x hx hok heq => ?_⟩
  · exact h.newest x (hold x hx hok) hok
  · rw [idxOf_append_of_mem (hold x hx hok), idxOf_append_of_mem h.mem]
    exact h.last x (hold x hx hok) hok heq

/-- A new event with an older stamp does not change the leader. -/
theorem Leader.stays (h : Leader ok stamp d e) (hlt : stamp f < stamp e) :
    Leader ok stamp (d ++ [f]) e := by
  refine ⟨List.mem_append_left _ h.mem, h.accepted, fun x hx hok => ?_, fun x hx hok heq => ?_⟩
  · rcases List.mem_append.mp hx with hx | hx
    · exact h.newest x hx hok
    · rw [List.mem_singleton.mp hx]
      exact le_of_lt hlt
  · rcases List.mem_append.mp hx with hx | hx
    · rw [idxOf_append_of_mem hx, idxOf_append_of_mem h.mem]
      exact h.last x hx hok heq
    · rw [List.mem_singleton.mp hx] at heq
      exact absurd heq (ne_of_lt hlt)

/-- A new event that no accepted one is newer than takes the lead. -/
theorem Leader.takes (hnew : f ∉ d) (hok : ok f) (hge : ∀ x ∈ d, ok x → stamp x ≤ stamp f) :
    Leader ok stamp (d ++ [f]) f := by
  refine ⟨List.mem_append_right _ List.mem_cons_self, hok, fun x hx hokx => ?_,
    fun x hx hokx heq => ?_⟩
  · rcases List.mem_append.mp hx with hx | hx
    · exact hge x hx hokx
    · rw [List.mem_singleton.mp hx]
  · have hle : (d ++ [f]).idxOf x < (d ++ [f]).length := List.idxOf_lt_length_iff.mpr hx
    rw [idxOf_append_last hnew]
    simp only [List.length_append, List.length_cons, List.length_nil] at hle
    omega

variable {V : Type} (view : E → V)

/-- The leader shows what the newest event `f` shows exactly if the events that share its
stamp and show something else all came before it. -/
theorem Leader.view_iff (h : Leader ok stamp d e) (hf : f ∈ d) (hok : ok f)
    (hmax : ∀ x ∈ d, ok x → stamp x ≤ stamp f)
    (hties : ∀ x ∈ d, ∀ y ∈ d, x ≠ f → y ≠ f → stamp x = stamp f → stamp y = stamp f →
      view x = view y) :
    view e = view f ↔
      ∀ x ∈ d, ok x → stamp x = stamp f → view x ≠ view f → d.idxOf x < d.idxOf f := by
  have hstamp : stamp e = stamp f :=
    le_antisymm (hmax e h.mem h.accepted) (h.newest f hf hok)
  constructor
  · intro hview x hx hokx hsx hne
    by_contra hge
    have hxf : x ≠ f := by
      rintro rfl
      exact hne rfl
    have hlast := h.last x hx hokx (hsx.trans hstamp.symm)
    have hidx : d.idxOf x ≠ d.idxOf f := fun heq => hxf ((List.idxOf_inj hx).mp heq)
    have hef : e ≠ f := by
      rintro rfl
      omega
    exact hne ((hties x hx e h.mem hxf hef hsx hstamp).trans hview)
  · intro hbefore
    by_contra hne
    have hlt := hbefore e h.mem h.accepted hstamp hne
    have hle := h.last f hf hok hstamp.symm
    omega

end Leader

section Runs

variable {about ok : E → Prop} {stamp : E → T} {content : E → Option B} {handle : S → E → S}
  {row : S → Option B} {done : S → E → Prop} {inv : S → Prop} {s : S}

/-- What is known after the deliveries `d`. -/
structure LastWriter.Reached (about ok : E → Prop) (stamp : E → T) (content : E → Option B)
    (row : S → Option B) (done : S → E → Prop) (inv : S → Prop) (d : List E) (s : S) : Prop where
  inv : inv s
  done : ∀ x, about x → ok x → (done s x ↔ x ∈ d)
  row : (∃ e, about e ∧ Leader ok stamp d e ∧ row s = content e) ∨
    ((∀ x ∈ d, ¬ ok x) ∧ row s = none)

/-- One more delivery. -/
theorem LastWriter.Reached.deliver
    (h : LastWriter about ok stamp content handle row done inv) {d : List E} {f : E}
    (hs : LastWriter.Reached about ok stamp content row done inv d s) (hf : about f) :
    LastWriter.Reached about ok stamp content row done inv (d ++ [f]) (handle s f) := by
  have hdone : ∀ x, about x → ok x → (done (handle s f) x ↔ x ∈ d ++ [f]) := by
    intro x hx hok
    rw [h.handled s f x hs.inv hf hx hok, hs.done x hx hok]
    simp
  refine ⟨h.keep s f hs.inv hf, hdone, ?_⟩
  by_cases hok : ok f
  · by_cases hseen : done s f
    · have hmem := (hs.done f hf hok).mp hseen
      rw [h.seen s f hs.inv hf hseen]
      rcases hs.row with ⟨e, he, hlead, hrow⟩ | ⟨hnone, hrow⟩
      · exact .inl ⟨e, he, hlead.same fun _ => hmem, hrow⟩
      · exact absurd hok (hnone f hmem)
    · have hnew : f ∉ d := fun hmem => hseen ((hs.done f hf hok).mpr hmem)
      left
      rcases hs.row with ⟨e, he, hlead, hrow⟩ | ⟨hnone, hrow⟩
      · have hwritten := h.overwrites s f e hs.inv hf hok hseen he hrow
        by_cases hlt : stamp f < stamp e
        · rw [if_pos hlt] at hwritten
          exact ⟨e, he, hlead.stays hlt, hwritten.trans hrow⟩
        · rw [if_neg hlt] at hwritten
          refine ⟨f, hf, .takes hnew hok fun x hx hokx => ?_, hwritten⟩
          exact le_trans (hlead.newest x hx hokx) (not_lt.mp hlt)
      · refine ⟨f, hf, .takes hnew hok fun x hx hokx => absurd hokx (hnone x hx), ?_⟩
        exact h.first s f hs.inv hf hok hseen hrow
  · rw [h.refused s f hs.inv hf hok]
    rcases hs.row with ⟨e, he, hlead, hrow⟩ | ⟨hnone, hrow⟩
    · exact .inl ⟨e, he, hlead.same fun h => absurd h hok, hrow⟩
    · refine .inr ⟨fun x hx => ?_, hrow⟩
      rcases List.mem_append.mp hx with hx | hx
      · exact hnone x hx
      · rw [List.mem_singleton.mp hx]
        exact hok

/-- The row after any deliveries of events about the thing. -/
theorem LastWriter.reached (h : LastWriter about ok stamp content handle row done inv)
    (hinv : inv s) (hrow : row s = none) (hdone : ∀ x, about x → ok x → ¬ done s x) (d : List E)
    (hd : ∀ x ∈ d, about x) :
    LastWriter.Reached about ok stamp content row done inv d (d.foldl handle s) := by
  induction d using List.reverseRecOn with
  | nil =>
      refine ⟨hinv, fun x hx hok => ?_, .inr ⟨fun x hx => ?_, hrow⟩⟩
      · simp [hdone x hx hok]
      · cases hx
  | append_singleton d f ih =>
      rw [List.foldl_append]
      refine LastWriter.Reached.deliver h (ih fun x hx => ?_) (hd f ?_)
      · exact hd x (List.mem_append_left _ hx)
      · exact List.mem_append_right _ List.mem_cons_self

end Runs
end Delivery
