import ProductModel.Naming

/-!
# Generated names

The names that are generated for elements are well-formed and kept for elements, and
`Naming.nextElementName` is indeed free: among as many names as are taken and one more, one is not
taken (`Naming.number_le_length`).
-/

namespace ProductModel.Naming

theorem toList_elementName (n : Nat) : (elementName n).toList = 'e' :: Nat.toDigits 10 n := by
  simp [elementName]

/-- **Elements of different numbers have different names.** -/
theorem elementName_injective {m n : Nat} (h : elementName m = elementName n) : m = n := by
  have hdigits : Nat.toDigits 10 m = Nat.toDigits 10 n := by
    have hlist := congrArg String.toList h
    rw [toList_elementName, toList_elementName] at hlist
    exact (List.cons.inj hlist).2
  calc
    m = Nat.ofDigitChars 10 (Nat.toDigits 10 m) 0 := Nat.ofDigitChars_ten_toDigits.symm
    _ = Nat.ofDigitChars 10 (Nat.toDigits 10 n) 0 := by rw [hdigits]
    _ = n := Nat.ofDigitChars_ten_toDigits

/-- The names of elements are kept for them. -/
theorem isElementName_elementName (n : Nat) : isElementName (elementName n) = true := by
  simp only [isElementName, toList_elementName]
  rw [Bool.and_eq_true, Bool.not_eq_true', List.isEmpty_eq_false_iff, List.all_eq_true]
  exact ⟨Nat.toDigits_ne_nil,
    fun _ hc => Nat.isDigit_of_mem_toDigits (by decide) (by decide) hc⟩

/-- Names that are kept for elements are well-formed. -/
theorem isIdentifier_of_isElementName {name : String} (h : isElementName name = true) :
    isIdentifier name = true := by
  unfold isElementName at h
  unfold isIdentifier
  split at h
  · rename_i digits hname
    rw [Bool.and_eq_true, List.all_eq_true] at h
    rw [hname]
    refine Bool.and_eq_true_iff.mpr ⟨by decide, List.all_eq_true.mpr fun c hc => ?_⟩
    simp [isNameChar, Char.isAlphanum, h.2 c hc]
  · cases h

theorem isIdentifier_elementName (n : Nat) : isIdentifier (elementName n) = true :=
  isIdentifier_of_isElementName (isElementName_elementName n)

/-- The name that is found has a number from the first one tried on, and the names of the numbers
before it are taken. -/
theorem exists_firstFree (taken : List String) (limit n : Nat) :
    ∃ k, n ≤ k ∧ firstFree taken limit n = elementName k ∧
      ∀ j, n ≤ j → j < k → elementName j ∈ taken := by
  induction limit generalizing n with
  | zero => exact ⟨n, Nat.le_refl n, rfl, fun j hle hlt => by omega⟩
  | succ limit ih =>
    unfold firstFree
    split
    · rename_i htaken
      obtain ⟨k, hle, heq, hall⟩ := ih (n + 1)
      refine ⟨k, by omega, heq, fun j hj hlt => ?_⟩
      rcases Nat.eq_or_lt_of_le hj with rfl | hj
      · exact List.contains_iff_mem.mp htaken
      · exact hall j hj hlt
    · exact ⟨n, Nat.le_refl n, rfl, fun j hle hlt => by omega⟩

/-- If the name that is found is taken, then so is every name that was tried. -/
theorem tried_of_firstFree_mem {taken : List String} {limit n : Nat}
    (h : firstFree taken limit n ∈ taken) :
    ∀ k ∈ List.range' n (limit + 1), elementName k ∈ taken := by
  induction limit generalizing n with
  | zero =>
    intro k hk
    rw [List.range'_one, List.mem_singleton] at hk
    rw [hk]
    exact h
  | succ limit ih =>
    intro k hk
    rw [List.range'_succ, List.mem_cons] at hk
    unfold firstFree at h
    split at h
    · rename_i htaken
      rcases hk with rfl | hk
      · exact List.contains_iff_mem.mp htaken
      · exact ih h k hk
    · rename_i hfree
      exact absurd (List.contains_iff_mem.mpr h) hfree

/-- Numbers from one on whose names are all listed are not more than the names of the list. -/
theorem number_le_length {names : List String} {n : Nat}
    (h : ∀ j, 1 ≤ j → j < n → elementName j ∈ names) : n ≤ names.length + 1 := by
  have hnodup : ((List.range' 1 (n - 1)).map elementName).Nodup :=
    List.Pairwise.map elementName (fun _ _ hne heq => hne (elementName_injective heq))
      List.nodup_range'
  have hsub : (List.range' 1 (n - 1)).map elementName ⊆ names := by
    intro name hname
    obtain ⟨j, hj, rfl⟩ := List.mem_map.mp hname
    obtain ⟨hle, hlt⟩ := List.mem_range'_1.mp hj
    exact h j hle (by omega)
  have hle := hnodup.length_le_of_subset hsub
  rw [List.length_map, List.length_range'] at hle
  omega

/-- **The generated name is free.** -/
theorem nextElementName_not_mem (taken : List String) : nextElementName taken ∉ taken := by
  intro hmem
  have htried := tried_of_firstFree_mem hmem
  -- These are more names than are taken.
  have hle : taken.length + 2 ≤ taken.length + 1 :=
    number_le_length fun j hj hlt => htried j (List.mem_range'_1.mpr ⟨hj, by omega⟩)
  omega

theorem isIdentifier_nextElementName (taken : List String) :
    isIdentifier (nextElementName taken) = true := by
  obtain ⟨k, -, hk, -⟩ := exists_firstFree taken taken.length 1
  rw [nextElementName, hk]
  exact isIdentifier_elementName k

/-- **The generated name has the first free number.** -/
theorem exists_nextElementName (taken : List String) :
    ∃ k, 1 ≤ k ∧ nextElementName taken = elementName k ∧ elementName k ∉ taken ∧
      ∀ j, 1 ≤ j → j < k → elementName j ∈ taken := by
  obtain ⟨k, hle, hk, hall⟩ := exists_firstFree taken taken.length 1
  exact ⟨k, hle, hk, hk ▸ nextElementName_not_mem taken, hall⟩

/-- A well-formed name has no dot. -/
theorem dot_not_mem_of_isIdentifier {name : String} (h : isIdentifier name = true) :
    '.' ∉ name.toList := by
  unfold isIdentifier at h
  cases hname : name.toList with
  | nil => exact List.not_mem_nil
  | cons c cs =>
    rw [hname] at h
    simp only [Bool.and_eq_true, List.all_eq_true] at h
    rw [List.mem_cons, not_or]
    constructor
    · rintro rfl
      have hletter : isLetter '.' = false := by decide
      rw [hletter] at h
      cases h.1
    · intro hmem
      have hchar : isNameChar '.' = false := by decide
      have hdot := h.2 '.' hmem
      rw [hchar] at hdot
      cases hdot

/-- A name that a user may choose is well-formed. -/
theorem isIdentifier_of_validate {name : String} (h : validate name = .ok ()) :
    isIdentifier name = true := by
  unfold validate at h
  split at h
  · cases h
  · rename_i hident
    simpa using hident

end ProductModel.Naming
