import Mathlib.Computability.Language
import Mathlib.Data.Finset.Card
import ProductModel.Proofs.Decimal.Reading
import ProductModel.Proofs.ElementName

/-!
# Chosen names and generated names

The names that users may choose are the words of one grammar that are not words of another one
(`Naming.Judged`), and the words of the other one are kept for elements.  A name for an element is
found by trying the numbers from one on.  However many names are taken, that comes to an end, at the
first number whose name is free (`Naming.Generated`), and what it finds is never a name that
somebody chose (`Naming.names_kept_apart`).

## Design

The grammars are languages put together from ranges of characters, and each of the two recognizers
is compared with one of them.  Both are sequences and repetitions of single characters
(`Naming.mem_mul_of_single`, `Naming.mem_kstar_of_single`).

The search for a free number has no limit in itself.  `Naming.Search` is its course.  It ends because
no two numbers have the same name: each number that is passed over uses up one of the names that are
taken.  `Naming.nextElementName` tries one number more than there are names, so it comes to the same
end, and a word is enough to count in as long as fewer names are taken than there are words.
-/

namespace ProductModel

namespace Naming

open scoped Computability

variable {name : String} {taken : List String} {w : List Char} {m n k : Nat}

/-! ## The grammars -/

/-- The words of one character in a range. -/
def between (first last : Char) : Language Char := {w | ∃ c, (first ≤ c ∧ c ≤ last) ∧ w = [c]}

/-- `[A-Za-z]` -/
def letters : Language Char := between 'A' 'Z' + between 'a' 'z'

/-- `[0-9]` -/
def digits : Language Char := between '0' '9'

/-- **Well-formed names**: `[A-Za-z][A-Za-z0-9_]*`. -/
def identifiers : Language Char := letters * (letters + digits + {['_']})∗

/-- **Names kept for elements**: `e[0-9][0-9]*`. -/
def elementNames : Language Char := {['e']} * (digits * digits∗)

/-- **What a check of a name tells.** -/
structure Judged (name : String) : Prop where
  accepted_iff : validate name = .ok () ↔ name.toList ∈ identifiers ∧ name.toList ∉ elementNames
  malformed_iff : validate name = .error (.malformedName name) ↔ name.toList ∉ identifiers
  reserved_iff : validate name = .error (.reservedName name) ↔ name.toList ∈ elementNames

/-! ## The search for a free number -/

/-- **The search for a number whose name is free**, from one number on: a number whose name is taken
is passed over. -/
inductive Search (taken : List String) : Nat → Nat → Prop where
  | free {n : Nat} (h : elementName n ∉ taken) : Search taken n n
  | next {n k : Nat} (h : elementName n ∈ taken) (rest : Search taken (n + 1) k) : Search taken n k

/-- **The name that is generated** where some are taken, and its number. -/
structure Generated (taken : List String) (n : Nat) : Prop where
  found : nextElementName taken = elementName n
  /-- the search from one on ends, and at this number only -/
  ends : ∀ k, Search taken 1 k ↔ k = n
  least : IsLeast {k | 1 ≤ k ∧ elementName k ∉ taken} n
  /-- names that are listed twice are taken once -/
  bounded : n ≤ taken.toFinset.card + 1
  /-- an `e` and the digits of the number, without leading zeros -/
  written : ∃ ds, (nextElementName taken).toList = 'e' :: ds ∧ Decimal.IsDigits ds ∧
    Decimal.ofDigits ds = n ∧ ds.head? ≠ some '0'
  wellFormed : (nextElementName taken).toList ∈ identifiers
  reserved : validate (nextElementName taken) = .error (.reservedName (nextElementName taken))

/-! ## Languages of single characters -/

/-- A language of words of one character. -/
def Single (l : Language Char) (p : Char → Bool) : Prop := ∀ w, w ∈ l ↔ ∃ c, p c = true ∧ w = [c]

theorem isUpper_iff {c : Char} : c.isUpper = true ↔ 'A' ≤ c ∧ c ≤ 'Z' := decide_eq_true_iff

theorem isLower_iff {c : Char} : c.isLower = true ↔ 'a' ≤ c ∧ c ≤ 'z' :=
  Bool.and_eq_true_iff.trans (and_congr decide_eq_true_iff decide_eq_true_iff)

theorem isDigit_iff {c : Char} : c.isDigit = true ↔ '0' ≤ c ∧ c ≤ '9' :=
  Bool.and_eq_true_iff.trans (and_congr decide_eq_true_iff decide_eq_true_iff)

theorem single_between {first last : Char} {p : Char → Bool}
    (h : ∀ c, p c = true ↔ first ≤ c ∧ c ≤ last) : Single (between first last) p :=
  fun _ => exists_congr fun c => and_congr_left' (h c).symm

theorem single_digits : Single digits Char.isDigit := single_between fun _ => isDigit_iff

theorem Single.add {l l' : Language Char} {p p' : Char → Bool} (h : Single l p)
    (h' : Single l' p') : Single (l + l') fun c => p c || p' c := by
  intro w
  rw [Language.mem_add, h w, h' w]
  simp only [Bool.or_eq_true, or_and_right, exists_or]

theorem single_letters : Single letters isLetter :=
  (single_between fun _ => isUpper_iff).add (single_between fun _ => isLower_iff)

theorem single_singleton (c : Char) : Single {[c]} (· == c) := by
  intro w
  simp only [beq_iff_eq, exists_eq_left]
  exact Iff.rfl

theorem single_nameChars : Single (letters + digits + {['_']}) isNameChar :=
  (single_letters.add single_digits).add (single_singleton '_')

/-- A word of a character and then some. -/
theorem mem_mul_of_single {l l' : Language Char} {p : Char → Bool} (h : Single l p) :
    w ∈ l * l' ↔ ∃ c cs, w = c :: cs ∧ p c = true ∧ cs ∈ l' := by
  rw [Language.mem_mul]
  constructor
  · rintro ⟨u, hu, cs, hcs, rfl⟩
    obtain ⟨c, hc, rfl⟩ := (h u).mp hu
    exact ⟨c, cs, rfl, hc, hcs⟩
  · rintro ⟨c, cs, rfl, hc, hcs⟩
    exact ⟨[c], (h _).mpr ⟨c, hc, rfl⟩, cs, hcs, rfl⟩

/-- A word of any number of characters. -/
theorem mem_kstar_of_single {l : Language Char} {p : Char → Bool} (h : Single l p) :
    w ∈ l∗ ↔ w.all p = true := by
  induction w with
  | nil => simp [Language.nil_mem_kstar]
  | cons c cs ih =>
    rw [← Language.one_add_self_mul_kstar_eq_kstar, Language.mem_add, Language.mem_one,
      or_iff_right (List.cons_ne_nil c cs), mem_mul_of_single h, List.all_cons, Bool.and_eq_true,
      ← ih]
    constructor
    · rintro ⟨d, ds, heq, hd, hds⟩
      obtain ⟨rfl, rfl⟩ := List.cons.inj heq
      exact ⟨hd, hds⟩
    · rintro ⟨hc, hcs⟩
      exact ⟨c, cs, rfl, hc, hcs⟩

/-! ## The recognizers -/

/-- **The names that are recognized as well-formed** are those of the grammar. -/
theorem isIdentifier_iff : isIdentifier name = true ↔ name.toList ∈ identifiers := by
  unfold identifiers isIdentifier
  rw [mem_mul_of_single single_letters]
  simp only [mem_kstar_of_single single_nameChars]
  cases name.toList with
  | nil => simp
  | cons c cs => simp [and_comm]

/-- **The names that are recognized as kept for elements** are those of the grammar. -/
theorem isElementName_iff : isElementName name = true ↔ name.toList ∈ elementNames := by
  unfold elementNames isElementName
  rw [mem_mul_of_single (single_singleton 'e')]
  simp only [mem_mul_of_single single_digits, mem_kstar_of_single single_digits]
  split
  · rename_i ds hname
    rw [hname]
    cases ds with
    | nil => simp
    | cons d ds => simp
  · rename_i hother
    refine iff_of_false Bool.false_ne_true ?_
    rintro ⟨c, cs, hname, hc, -⟩
    obtain rfl := eq_of_beq hc
    exact hother cs hname

/-- **A check of a name tells** whether it is well-formed, and whether it is kept for elements. -/
theorem judged (name : String) : Judged name where
  accepted_iff := by
    rw [← isIdentifier_iff, ← isElementName_iff, validate]
    cases isIdentifier name <;> cases isElementName name <;> simp
  malformed_iff := by
    rw [← isIdentifier_iff, validate]
    cases isIdentifier name <;> cases isElementName name <;> simp
  reserved_iff := by
    rw [← isElementName_iff, validate]
    cases helement : isElementName name with
    | false => cases isIdentifier name <;> simp
    | true => simp [isIdentifier_of_isElementName helement]

/-! ## The generated name -/

/-- A search ends at a number only if its name is the first one that is free. -/
theorem Search.least (h : Search taken m n) :
    m ≤ n ∧ elementName n ∉ taken ∧ ∀ j, m ≤ j → j < n → elementName j ∈ taken := by
  induction h with
  | free h => exact ⟨Nat.le_refl _, h, fun j hle hlt => absurd hlt (Nat.not_lt.mpr hle)⟩
  | @next m n h _ ih =>
    obtain ⟨hle, hfree, hused⟩ := ih
    refine ⟨Nat.le_of_succ_le hle, hfree, fun j hj hlt => ?_⟩
    rcases Nat.eq_or_lt_of_le hj with rfl | hj
    · exact h
    · exact hused j hj hlt

/-- A search ends at the first number whose name is free. -/
theorem search_of_least (hle : m ≤ n) (hfree : elementName n ∉ taken)
    (hused : ∀ j, m ≤ j → j < n → elementName j ∈ taken) : Search taken m n := by
  induction hle using Nat.decreasingInduction with
  | self => exact .free hfree
  | of_succ m hlt ih =>
    exact .next (hused m (Nat.le_refl m) hlt) (ih fun j hj => hused j (Nat.le_of_succ_le hj))

theorem Search.unique (h : Search taken m n) (h' : Search taken m k) : n = k := by
  obtain ⟨hle, hfree, hused⟩ := h.least
  obtain ⟨hle', hfree', hused'⟩ := h'.least
  rcases Nat.lt_trichotomy n k with hlt | heq | hlt
  · exact absurd (hused' n hle hlt) hfree
  · exact heq
  · exact absurd (hused k hle' hlt) hfree'

/-- A number from one on is written without leading zeros. -/
theorem head?_digitChars (h : 1 ≤ n) : (Decimal.digitChars n).head? ≠ some '0' := by
  intro hhead
  obtain ⟨cs, hcs⟩ := List.head?_eq_some_iff.mp hhead
  obtain rfl := Decimal.leading_digitChars hcs
  have hzero : Decimal.ofDigits (Decimal.digitChars n) = 0 := by
    rw [hcs]
    rfl
  rw [Decimal.ofDigits_digitChars] at hzero
  omega

/-- **A name is generated** wherever finitely many are taken. -/
theorem exists_generated (taken : List String) : ∃ n, Generated taken n := by
  obtain ⟨n, hle, hfound, hfree, hused⟩ := exists_nextElementName taken
  have hsearch := search_of_least hle hfree hused
  refine ⟨n, hfound, fun k => ⟨fun h => h.unique hsearch, ?_⟩, ⟨⟨hle, hfree⟩, ?_⟩,
    ?_, ⟨Decimal.digitChars n, ?_⟩, ?_, ?_⟩
  · rintro rfl
    exact hsearch
  · rintro k ⟨hk, hkfree⟩
    by_contra hlt
    exact hkfree (hused k hk (Nat.not_le.mp hlt))
  · rw [List.card_toFinset]
    exact number_le_length fun j hj hlt => List.mem_dedup.mpr (hused j hj hlt)
  · rw [hfound]
    exact ⟨toList_elementName n, Decimal.isDigits_digitChars n, Decimal.ofDigits_digitChars n,
      head?_digitChars hle⟩
  · rw [hfound]
    exact isIdentifier_iff.mp (isIdentifier_elementName n)
  · rw [hfound]
    exact (judged _).reserved_iff.mpr (isElementName_iff.mp (isElementName_elementName n))

/-- A gap is filled, and what is no name of an element counts for nothing. -/
example : nextElementName ["e1", "e02", "e3", "shelf"] = "e2" := by decide

/-- **Names are kept apart**: a name is generated wherever finitely many are taken, a check accepts
just the well-formed names that are not kept for elements, and no name that is generated is one that
is accepted. -/
theorem names_kept_apart :
    (∀ taken, ∃ n, Generated taken n) ∧ (∀ name, Judged name) ∧
      ∀ taken name, validate name = .ok () → nextElementName taken ≠ name := by
  refine ⟨exists_generated, judged, ?_⟩
  rintro taken _ haccepted rfl
  obtain ⟨n, h⟩ := exists_generated taken
  have hreserved := h.reserved.symm.trans haccepted
  cases hreserved

end Naming

end ProductModel
