import ProductModel.ProblemLog

/-!
# What a log of problems holds

A log is a list of groups, and a problem may have to be put into the middle of it.  Seen from
outside a log is simpler: for every order number there are the problems of that number, in the order
in which they were added (`ProblemLog.InOrder.problemsOf_pushAll`), and the list of all problems
goes through the numbers upward (`ProblemLog.InOrder.listed`).

Both rest on the groups being sorted by number, with no number twice (`ProblemLog.InOrder`).  Adding
problems keeps that, so it holds of every log that was filled from an empty one.
-/

namespace ProductModel.ProblemLog

variable {order o first : Nat} {p : Problem} {ps : List Problem}
  {groups rest : List (Nat × List Problem)} {log : ProblemLog} {entries later : List (Nat × Problem)}

/-- **Groups are sorted by order number**, and no number has two of them. -/
def InOrder (log : ProblemLog) : Prop := (log.groups.map (·.1)).Pairwise (· < ·)

/-- Adds several problems in turn, each under its order number. -/
def pushAll (log : ProblemLog) (entries : List (Nat × Problem)) : ProblemLog :=
  entries.foldl (fun log entry => log.push entry.1 entry.2) log

@[simp] theorem pushAll_nil : log.pushAll [] = log := rfl

@[simp] theorem pushAll_cons (entry : Nat × Problem) :
    log.pushAll (entry :: entries) = (log.push entry.1 entry.2).pushAll entries := rfl

theorem pushAll_append : log.pushAll (entries ++ later) = (log.pushAll entries).pushAll later :=
  List.foldl_append

/-- **The list of all problems goes through the order numbers upward**, and has all problems of each
number. -/
def Listed (log : ProblemLog) : Prop :=
  ∃ orders : List Nat, orders.Pairwise (· < ·) ∧ (∀ o, log.problemsOf o ≠ [] → o ∈ orders) ∧
    log.toList = orders.flatMap log.problemsOf

theorem inOrder_empty : empty.InOrder := List.Pairwise.nil

/-! ## Groups -/

/-- Adding a problem adds the number of its group, and no other one. -/
theorem mem_map_pushGroup :
    o ∈ (pushGroup order p groups).map (·.1) ↔ o = order ∨ o ∈ groups.map (·.1) := by
  induction groups with
  | nil => simp [pushGroup]
  | cons group rest ih =>
    rw [pushGroup]
    split
    · simp
    split
    · simp_all
    · simp only [List.map_cons, List.mem_cons, ih, or_left_comm]

theorem sorted_pushGroup (h : (groups.map (·.1)).Pairwise (· < ·)) :
    ((pushGroup order p groups).map (·.1)).Pairwise (· < ·) := by
  induction groups with
  | nil => simp [pushGroup]
  | cons group rest ih =>
    obtain ⟨hfirst, hrest⟩ := List.pairwise_cons.mp h
    rw [pushGroup]
    split
    next hlt =>
      refine List.pairwise_cons.mpr ⟨fun o ho => ?_, h⟩
      rcases List.mem_cons.mp ho with rfl | ho
      · exact hlt
      · exact Nat.lt_trans hlt (hfirst o ho)
    next hle =>
      split
      · exact List.pairwise_cons.mpr ⟨hfirst, hrest⟩
      next hne =>
        -- What is behind the first group was there already or has the greater order.
        refine List.pairwise_cons.mpr ⟨fun o ho => ?_, ih hrest⟩
        rcases mem_map_pushGroup.mp ho with rfl | ho
        · show group.1 < o
          omega
        · exact hfirst o ho

@[simp] theorem problemsOf_nil : problemsOf ⟨[]⟩ o = [] := rfl

theorem problemsOf_cons :
    problemsOf ⟨(first, ps) :: rest⟩ o = if first = o then ps else problemsOf ⟨rest⟩ o := by
  unfold problemsOf
  by_cases h : first = o <;> simp [h]

/-- A number without a group has no problems. -/
theorem problemsOf_eq_nil (h : o ∉ groups.map (·.1)) : problemsOf ⟨groups⟩ o = [] := by
  have hnone : groups.find? (·.1 == o) = none := by
    refine List.find?_eq_none.mpr fun group hmem => ?_
    rw [beq_iff_eq]
    rintro rfl
    exact h (List.mem_map_of_mem hmem)
  rw [problemsOf, hnone]
  rfl

/-- **Adding a problem** adds it to those of its number, at their end. -/
theorem problemsOf_pushGroup (h : (groups.map (·.1)).Pairwise (· < ·)) :
    problemsOf ⟨pushGroup order p groups⟩ o =
      problemsOf ⟨groups⟩ o ++ if order = o then [p] else [] := by
  induction groups with
  | nil => by_cases ho : order = o <;> simp [pushGroup, problemsOf_cons, ho]
  | cons group rest ih =>
    obtain ⟨first, ps⟩ := group
    obtain ⟨hfirst, hrest⟩ := List.pairwise_cons.mp h
    rw [pushGroup]
    split
    next hlt =>
      -- All numbers of the log are greater, so there was no problem of this one.
      rw [problemsOf_cons]
      split
      next heq =>
        subst heq
        rw [problemsOf_eq_nil, List.nil_append]
        intro hmem
        rcases List.mem_cons.mp hmem with heq | hmem
        · exact absurd heq (Nat.ne_of_lt hlt)
        · exact absurd (hfirst order hmem) (Nat.lt_asymm hlt)
      · rw [List.append_nil]
    next hle =>
      split
      next heq =>
        subst heq
        by_cases ho : order = o <;> simp [problemsOf_cons, ho]
      next hne =>
        rw [problemsOf_cons, problemsOf_cons, ih hrest]
        by_cases ho : first = o
        · simp [ho, show order ≠ o from fun h => hne (h.trans ho.symm)]
        · simp [ho]

/-- The problems of all groups are those of their numbers. -/
theorem flatMap_groups (h : (groups.map (·.1)).Pairwise (· < ·)) :
    groups.flatMap (·.2) = (groups.map (·.1)).flatMap (problemsOf ⟨groups⟩) := by
  induction groups with
  | nil => rfl
  | cons group rest ih =>
    obtain ⟨first, ps⟩ := group
    obtain ⟨hfirst, hrest⟩ := List.pairwise_cons.mp h
    have hbehind : ∀ o ∈ rest.map (·.1),
        problemsOf ⟨(first, ps) :: rest⟩ o = problemsOf ⟨rest⟩ o := by
      intro o ho
      rw [problemsOf_cons, if_neg (Nat.ne_of_lt (hfirst o ho))]
    rw [List.flatMap_cons, ih hrest, List.map_cons, List.flatMap_cons, problemsOf_cons, if_pos rfl,
      List.flatMap_def, List.flatMap_def, List.map_congr_left hbehind]

/-- Adding a problem makes the list of all problems longer by one. -/
theorem size_push : (log.push order p).size = log.size + 1 := by
  obtain ⟨groups⟩ := log
  show ((pushGroup order p groups).flatMap (·.2)).length = (groups.flatMap (·.2)).length + 1
  induction groups with
  | nil => rfl
  | cons group rest ih =>
    rw [pushGroup]
    split
    · simp
    split
    · simp
      omega
    · simp only [List.flatMap_cons, List.length_append, ih]
      omega

/-! ## Logs -/

/-- **As many problems are added as there are.** -/
theorem size_pushAll : (log.pushAll entries).size = log.size + entries.length := by
  induction entries generalizing log with
  | nil => rfl
  | cons entry entries ih =>
    rw [pushAll_cons, ih, size_push, List.length_cons]
    omega

namespace InOrder

theorem push (h : log.InOrder) : (log.push order p).InOrder := sorted_pushGroup h

/-- **A log stays sorted** when problems are added. -/
theorem pushAll (h : log.InOrder) : (log.pushAll entries).InOrder := by
  induction entries generalizing log with
  | nil => exact h
  | cons entry entries ih => exact ih h.push

/-- **Under every order number**, what was there stays in front, and what is added follows in the
order in which it is added. -/
theorem problemsOf_pushAll (h : log.InOrder) (o : Nat) :
    (log.pushAll entries).problemsOf o =
      log.problemsOf o ++ (entries.filter (·.1 == o)).map (·.2) := by
  induction entries generalizing log with
  | nil => simp
  | cons entry entries ih =>
    have hpush : (log.push entry.1 entry.2).problemsOf o =
        log.problemsOf o ++ if entry.1 = o then [entry.2] else [] := problemsOf_pushGroup h
    rw [pushAll_cons, ih h.push, hpush, List.append_assoc, List.filter_cons]
    by_cases ho : entry.1 = o <;> simp [ho]

/-- **A sorted log lists its problems by increasing order number.** -/
theorem listed (h : log.InOrder) : log.Listed := by
  refine ⟨log.groups.map Prod.fst, h, fun o ho => ?_, flatMap_groups h⟩
  exact Decidable.byContradiction fun hnot => ho (problemsOf_eq_nil hnot)

end InOrder

end ProductModel.ProblemLog
