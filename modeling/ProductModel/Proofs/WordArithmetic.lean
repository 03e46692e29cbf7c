import Mathlib.Data.Int.Bitwise
import ProductModel.Operator

/-!
# Arithmetic on words

The operators on two words are described by the integers that the words stand for
(`Word.computes`).  Sums, differences and products are cut to the range of words, and so is the one
quotient that leaves it.  Quotients go towards zero, remainders have the sign of the dividend, and
a word is the quotient by another times that one plus the remainder, whatever was cut.  A shift by
less than the width of a word multiplies, or divides and rounds down.  The other operators work on
each bit, and a number has bits without end, beyond those of its word that of its sign.  Nothing
fails but a division by zero and a shift by another number of places.

## Design

The library's words come with the meaning of sums, products and quotients in integers.  The meaning
of shifts and of operators on bits is read off bit vectors (`toInt_shiftLeft`, `testBit_toInt`).
-/

namespace ProductModel

namespace Word

variable {a b : Int64}

/-! ## Words and numbers -/

/-- A word is what is left of a number if it stands for that. -/
theorem eq_ofInt {n : Int64} {z : Int} (h : n.toInt = z.bmod (2 ^ 64)) : n = .ofInt z := by
  rw [← Int64.toInt_inj, h, Int64.toInt_ofInt]
  rfl

/-- **The bits of a number** are those of its word, and beyond them that of its sign. -/
theorem testBit_toInt {w : Nat} (x : BitVec w) (k : Nat) :
    x.toInt.testBit k = if k < w then x.getLsbD k else x.msb := by
  have hlt := x.isLt
  rw [BitVec.toInt_eq_msb_cond]
  cases hmsb : x.msb with
  | false =>
    rw [if_neg Bool.false_ne_true]
    show x.getLsbD k = _
    split
    · rfl
    · rename_i hk
      exact BitVec.getLsbD_of_ge x k (Nat.le_of_not_lt hk)
  | true =>
    -- A negative number is below zero by one more than the complement of its word.
    have hneg : (x.toNat : Int) - (2 ^ w : Nat) = Int.negSucc (~~~x).toNat := by
      rw [BitVec.toNat_not]
      omega
    rw [if_pos rfl, hneg]
    show (!(~~~x).getLsbD k) = _
    rw [BitVec.getLsbD_not]
    by_cases hk : k < w
    · simp [hk]
    · simp [hk]

/-- A number of places within the width of a word is taken as it is. -/
theorem smod_width (hb : 0 ≤ b.toInt ∧ b.toInt < 64) : b.toBitVec.smod 64 = b.toBitVec := by
  apply BitVec.eq_of_toInt_eq
  rw [BitVec.toInt_smod]
  exact Int.fmod_eq_of_lt hb.1 hb.2

theorem toNat_toBitVec (hb : 0 ≤ b.toInt) : b.toBitVec.toNat = b.toInt.toNat := by
  have hcond := BitVec.toInt_eq_toNat_cond b.toBitVec
  rw [Int64.toInt_toBitVec] at hcond
  split at hcond <;> omega

/-- **A shift to the left multiplies**. -/
theorem toInt_shiftLeft (hb : 0 ≤ b.toInt ∧ b.toInt < 64) :
    (a <<< b).toInt = (a.toInt * 2 ^ b.toInt.toNat).bmod (2 ^ 64) := by
  have ha : a.toInt = (a.toBitVec.toNat : Int).bmod (2 ^ 64) := BitVec.toInt_eq_toNat_bmod _
  rw [← Int64.toInt_toBitVec, Int64.toBitVec_shiftLeft, smod_width hb, BitVec.shiftLeft_eq',
    toNat_toBitVec hb.1, BitVec.toInt_shiftLeft, Nat.shiftLeft_eq, ha, Int.bmod_mul_bmod,
    Int.natCast_mul, Int.natCast_pow]
  rfl

/-- **A shift to the right divides** and rounds down. -/
theorem toInt_shiftRight (hb : 0 ≤ b.toInt ∧ b.toInt < 64) :
    (a >>> b).toInt = a.toInt / 2 ^ b.toInt.toNat := by
  rw [← Int64.toInt_toBitVec, Int64.toBitVec_shiftRight, smod_width hb, BitVec.sshiftRight_eq',
    toNat_toBitVec hb.1, BitVec.toInt_sshiftRight, Int.shiftRight_eq_div_pow,
    Int64.toInt_toBitVec]
  rfl

/-! ## Division -/

/-- **A quotient and a remainder** of two words. -/
structure Division (a b q r : Int64) : Prop where
  quotient : q = .ofInt (a.toInt.tdiv b.toInt)
  remainder : r.toInt = a.toInt.tmod b.toInt
  /-- nothing is cut but the one quotient that is too large, by one -/
  exact : ¬ (a = Int64.minValue ∧ b = -1) → q.toInt = a.toInt.tdiv b.toInt
  overflow : a = Int64.minValue → b = -1 → q = Int64.minValue ∧ r = 0
  small : r.toInt.natAbs < b.toInt.natAbs
  sign : r = 0 ∨ r.toInt.sign = a.toInt.sign
  restores : q * b + r = a

theorem division (hb : b ≠ 0) : Division a b (a / b) (a % b) where
  quotient := eq_ofInt (Int64.toInt_div a b)
  remainder := Int64.toInt_mod a b
  exact h := by
    by_cases ha : a = Int64.minValue
    · exact Int64.toInt_div_of_ne_right a b fun hb' => h ⟨ha, hb'⟩
    · exact Int64.toInt_div_of_ne_left a b ha
  overflow := by
    rintro rfl rfl
    decide
  small := by
    have hne : b.toInt.natAbs ≠ 0 := by
      rw [Int.natAbs_ne_zero]
      exact fun h => hb (Int64.toInt_inj.mp h)
    rw [Int64.toInt_mod, Int.natAbs_tmod]
    exact Nat.mod_lt _ (Nat.pos_of_ne_zero hne)
  sign := by
    rw [← Int64.toInt_inj, Int64.toInt_mod, Int.sign_tmod]
    split
    · rename_i hdvd
      exact .inl (Int.tmod_eq_zero_of_dvd hdvd)
    · exact .inr rfl
  restores := by
    rw [← Int64.toInt_inj, Int64.toInt_add, Int64.toInt_mul, Int64.toInt_div, Int64.toInt_mod,
      Int.bmod_mul_bmod, Int.bmod_add_bmod, Int.tdiv_mul_add_tmod]
    exact Int64.toInt_bmod a

/-! ## Operators -/

/-- **The operators on two words**, and on one. -/
structure Computes (a b : Int64) : Prop where
  add : applyBinary (.int a) .add (.int b) = .ok (.int (.ofInt (a.toInt + b.toInt)))
  sub : applyBinary (.int a) .sub (.int b) = .ok (.int (.ofInt (a.toInt - b.toInt)))
  mul : applyBinary (.int a) .mul (.int b) = .ok (.int (.ofInt (a.toInt * b.toInt)))
  division : b ≠ 0 → ∃ q r, applyBinary (.int a) .div (.int b) = .ok (.int q) ∧
    applyBinary (.int a) .mod (.int b) = .ok (.int r) ∧ Division a b q r
  shl : 0 ≤ b.toInt ∧ b.toInt < 64 → applyBinary (.int a) .shl (.int b) =
    .ok (.int (.ofInt (a.toInt * 2 ^ b.toInt.toNat)))
  /-- nothing is cut, and the quotient is rounded down -/
  shr : 0 ≤ b.toInt ∧ b.toInt < 64 → ∃ n, applyBinary (.int a) .shr (.int b) = .ok (.int n) ∧
    n.toInt = a.toInt / 2 ^ b.toInt.toNat
  bitAnd : ∃ n, applyBinary (.int a) .bitAnd (.int b) = .ok (.int n) ∧
    ∀ k, n.toInt.testBit k = (a.toInt.testBit k && b.toInt.testBit k)
  bitOr : ∃ n, applyBinary (.int a) .bitOr (.int b) = .ok (.int n) ∧
    ∀ k, n.toInt.testBit k = (a.toInt.testBit k || b.toInt.testBit k)
  bitXor : ∃ n, applyBinary (.int a) .bitXor (.int b) = .ok (.int n) ∧
    ∀ k, n.toInt.testBit k = (a.toInt.testBit k ^^ b.toInt.testBit k)
  neg : applyUnary .neg (.int a) = .ok (.int (.ofInt (-a.toInt)))
  bitNot : ∃ n, applyUnary .bitNot (.int a) = .ok (.int n) ∧ n.toInt = -a.toInt - 1
  /-- whatever else is asked of two words has a result -/
  fails_iff : ∀ op err, applyBinary (.int a) op (.int b) = .error err ↔
    (op = .div ∨ op = .mod) ∧ b = 0 ∧ err = .divisionByZero ∨
    (op = .shl ∨ op = .shr) ∧ ¬ (0 ≤ b.toInt ∧ b.toInt < 64) ∧
      err = typeMismatch op.token [.int a, .int b]

/-- The condition of a shift, on the number that a word stands for. -/
theorem isShift_iff : (0 ≤ b ∧ b < 64) ↔ 0 ≤ b.toInt ∧ b.toInt < 64 := by
  rw [Int64.le_iff_toInt_le, Int64.lt_iff_toInt_lt]
  rfl

/-- The bits that an operator on single bits leaves. -/
theorem testBit_toInt_of_bits {n : Int64} {f : Bool → Bool → Bool}
    (hbits : ∀ k < 64, n.toBitVec.getLsbD k = f (a.toBitVec.getLsbD k) (b.toBitVec.getLsbD k))
    (k : Nat) : n.toInt.testBit k = f (a.toInt.testBit k) (b.toInt.testBit k) := by
  simp only [← Int64.toInt_toBitVec, testBit_toInt, BitVec.msb_eq_getLsbD_last]
  split
  · rename_i hk
    exact hbits k hk
  · exact hbits 63 (by decide)

/-- **What operators compute on words**, whatever the words are. -/
theorem computes (a b : Int64) : Computes a b where
  add := congrArg (Except.ok ∘ Value.int) (eq_ofInt (Int64.toInt_add a b))
  sub := congrArg (Except.ok ∘ Value.int) (eq_ofInt (Int64.toInt_sub a b))
  mul := congrArg (Except.ok ∘ Value.int) (eq_ofInt (Int64.toInt_mul a b))
  division hb := by
    refine ⟨a / b, a % b, ?_, ?_, division hb⟩
    · simp only [applyBinary, arithmetic, intOp, if_neg hb, Except.map]
    · simp only [applyBinary, arithmetic, intOp, if_neg hb, Except.map]
  shl hb := by
    rw [← eq_ofInt (toInt_shiftLeft hb)]
    simp only [applyBinary, arithmetic, intOp, if_pos (isShift_iff.mpr hb), Except.map]
  shr hb := by
    refine ⟨a >>> b, ?_, toInt_shiftRight hb⟩
    simp only [applyBinary, arithmetic, intOp, if_pos (isShift_iff.mpr hb), Except.map]
  bitAnd := ⟨a &&& b, rfl, testBit_toInt_of_bits fun k _ => by
    rw [Int64.toBitVec_and, BitVec.getLsbD_and]⟩
  bitOr := ⟨a ||| b, rfl, testBit_toInt_of_bits fun k _ => by
    rw [Int64.toBitVec_or, BitVec.getLsbD_or]⟩
  bitXor := ⟨a ^^^ b, rfl, testBit_toInt_of_bits fun k _ => by
    rw [Int64.toBitVec_xor, BitVec.getLsbD_xor]⟩
  neg := congrArg (Except.ok ∘ Value.int) (eq_ofInt (Int64.toInt_neg a))
  bitNot := by
    refine ⟨~~~a, rfl, ?_⟩
    -- The complement of a word is a word, so nothing is cut off.
    have hrange := a.le_toInt
    have hrange' := a.toInt_lt
    rw [Int64.toInt_not, Int.bmod_eq_of_le (by omega) (by omega)]
  fails_iff op err := by
    cases op with
    | div | mod =>
      by_cases hb : b = 0
      · simp [applyBinary, arithmetic, intOp, hb, Except.map, eq_comm]
      · simp [applyBinary, arithmetic, intOp, hb, Except.map]
    | shl | shr =>
      rw [← isShift_iff]
      by_cases hb : 0 ≤ b ∧ b < 64
      · simp [applyBinary, arithmetic, intOp, hb, Except.map]
      · simp only [applyBinary, arithmetic, intOp, if_neg hb]
        simp [hb, eq_comm]
    | _ => simp [applyBinary, arithmetic, intOp, compareValues, Except.map]

end Word

end ProductModel
