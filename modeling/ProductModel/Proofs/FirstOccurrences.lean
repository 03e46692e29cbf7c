import Mathlib.Data.List.Induction

/-!
# First occurrences

`List.eraseDups` keeps the first occurrence of each item of a list.  What comes in at the end of a
list comes to the end of what is kept, unless it is there already (`eraseDups_concat`).  The same is
said of the values that are read off the items of a list, where some items have none.
-/

namespace ProductModel

variable {α : Type} [BEq α] [LawfulBEq α]

theorem eraseDups_concat (xs : List α) (x : α) :
    (xs ++ [x]).eraseDups = if x ∈ xs then xs.eraseDups else xs.eraseDups ++ [x] := by
  rw [List.eraseDups_append]
  split
  · rename_i hmem
    simp [List.removeAll, hmem]
  · rename_i hmem
    have hnew : [x].removeAll xs = [x] := by simp [List.removeAll, hmem]
    rw [hnew]
    rfl

theorem nodup_eraseDups (xs : List α) : xs.eraseDups.Nodup := by
  induction xs using List.reverseRecOn with
  | nil => exact List.nodup_nil
  | append_singleton xs x ih =>
    rw [eraseDups_concat]
    split
    · exact ih
    · rename_i hmem
      refine List.nodup_append.mpr ⟨ih, List.pairwise_singleton _ _, ?_⟩
      rintro y hy z hz rfl
      obtain rfl := List.mem_singleton.mp hz
      exact hmem (List.mem_eraseDups.mp hy)

section FilterMap

variable {γ : Type} {f : γ → Option α} {xs : List γ} {x : γ}

theorem eraseDups_filterMap_concat_of_some {y : α} (h : f x = some y) :
    ((xs ++ [x]).filterMap f).eraseDups =
      if y ∈ (xs.filterMap f).eraseDups then (xs.filterMap f).eraseDups
      else (xs.filterMap f).eraseDups ++ [y] := by
  rw [List.filterMap_append, List.filterMap_cons_some h, List.filterMap_nil]
  simp only [List.mem_eraseDups]
  exact eraseDups_concat _ y

omit [LawfulBEq α] in
theorem eraseDups_filterMap_concat_of_none (h : f x = none) :
    ((xs ++ [x]).filterMap f).eraseDups = (xs.filterMap f).eraseDups := by
  rw [List.filterMap_append, List.filterMap_cons_none h, List.filterMap_nil, List.append_nil]

end FilterMap

end ProductModel
