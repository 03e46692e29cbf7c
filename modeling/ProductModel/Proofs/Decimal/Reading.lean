import ProductModel.Decimal.Notation

/-!
# Written numerals read back

A numeral is `Legible` when a reader takes exactly it off a text: it has digits wherever digits have
to stand, and no zero leads others.  Integers are written so, and so are floats in every notation
(`legible_ofInt`, `Notation.legible_ofFinite`).  `Numeral.read_text` is what comes of it.
-/

namespace ProductModel.Decimal

/-- **A sequence of digits**, at least one. -/
structure IsDigits (cs : List Char) : Prop where
  nonempty : cs ≠ []
  digits : ∀ c ∈ cs, c.isDigit = true

theorem isDigits_digitChars (n : Nat) : IsDigits (digitChars n) :=
  ⟨Nat.toDigits_ne_nil, fun _ hc => Nat.isDigit_of_mem_toDigits (by decide) (by decide) hc⟩

/-- Digits denote the number that they were made from. -/
theorem ofDigits_digitChars (n : Nat) : ofDigits (digitChars n) = n :=
  Nat.ofDigitChars_ten_toDigits

/-- Only zero is written with a zero in front. -/
theorem leading_digitChars {n : Nat} {cs : List Char} (h : digitChars n = '0' :: cs) : cs = [] := by
  induction n using Nat.strongRecOn generalizing cs with
  | ind n ih =>
    unfold digitChars at h ih
    by_cases hsmall : n < 10
    · rw [Nat.toDigits_of_lt_base hsmall] at h
      exact (List.cons.inj h).2.symm
    · rw [Nat.toDigits_of_base_le (by decide) (by omega)] at h
      -- The front is that of a tenth, which is not zero.
      cases hfront : Nat.toDigits 10 (n / 10) with
      | nil => exact absurd hfront Nat.toDigits_ne_nil
      | cons c ds =>
        rw [hfront] at h
        obtain rfl : c = '0' := (List.cons.inj h).1
        obtain rfl : ds = [] := ih (n / 10) (by omega) hfront
        have hzero : n / 10 = 0 := by
          rw [← ofDigits_digitChars (n / 10)]
          unfold digitChars
          rw [hfront]
          rfl
        omega

namespace Numeral

/-- **A numeral that can be read off a text.** -/
structure Legible (n : Numeral) : Prop where
  whole : IsDigits n.whole
  leading : ∀ {cs}, n.whole = '0' :: cs → cs = []
  fraction : ∀ {ds}, n.fraction = some ds → IsDigits ds
  power : ∀ {negative ds}, n.power = some (negative, ds) → IsDigits ds

/-- A text that does not go on with a numeral. -/
def Ends (rest : List Char) : Prop :=
  ∀ {c cs}, rest = c :: cs → c.isDigit = false ∧ c ≠ '.' ∧ c ≠ 'e' ∧ c ≠ 'E'

/-! ## Reading -/

/-- Digits are taken up to what is none. -/
theorem spanDigits_append {ds rest : List Char} (hds : ∀ c ∈ ds, c.isDigit = true)
    (hrest : ∀ {c cs}, rest = c :: cs → c.isDigit = false) :
    spanDigits (ds ++ rest) = (ds, rest) := by
  have hnone : rest.takeWhile Char.isDigit = [] ∧ rest.dropWhile Char.isDigit = rest := by
    cases rest with
    | nil => exact ⟨rfl, rfl⟩
    | cons c cs =>
      have hc := hrest rfl
      constructor
      · rw [List.takeWhile_cons_of_neg (by simp [hc])]
      · rw [List.dropWhile_cons_of_neg (by simp [hc])]
  unfold spanDigits
  rw [List.takeWhile_append_of_pos hds, List.dropWhile_append_of_pos hds, hnone.1, hnone.2,
    List.append_nil]

theorem readWhole_append {ds rest : List Char} (hds : IsDigits ds)
    (hleading : ∀ {cs}, ds = '0' :: cs → cs = [])
    (hrest : ∀ {c cs}, rest = c :: cs → c.isDigit = false) :
    readWhole (ds ++ rest) = some (ds, rest) := by
  unfold readWhole
  rw [spanDigits_append hds.digits hrest]
  dsimp only
  split
  · exact absurd rfl hds.nonempty
  · cases hleading rfl
  · rfl

/-- A sign in front of digits. -/
theorem readSign_cons (negative : Bool) (rest : List Char) :
    readSign ((if negative then '-' else '+') :: rest) = (negative, rest) := by
  cases negative <;> rfl

/-- The text of a written power of ten. -/
def powerText : Option (Bool × List Char) → List Char
  | none => []
  | some (negative, ds) => 'e' :: (if negative then '-' else '+') :: ds

/-- The text of a written fraction. -/
def fractionText : Option (List Char) → List Char
  | none => []
  | some ds => '.' :: ds

theorem readPower_append {power : Option (Bool × List Char)} {rest : List Char}
    (hpower : ∀ {negative ds}, power = some (negative, ds) → IsDigits ds) (hrest : Ends rest) :
    readPower (powerText power ++ rest) = some (power, rest) := by
  cases power with
  | none =>
    cases rest with
    | nil => rfl
    | cons c cs =>
      obtain ⟨-, -, he, hE⟩ := hrest rfl
      simp [powerText, readPower, he, hE]
  | some p =>
    obtain ⟨negative, ds⟩ := p
    have hds := hpower rfl
    show readPower ('e' :: (if negative then '-' else '+') :: (ds ++ rest)) = _
    unfold readPower
    simp only [true_or, if_true, readSign_cons,
      spanDigits_append hds.digits fun h => (hrest h).1]
    rw [if_neg (by simpa using hds.nonempty)]

/-- What follows the fraction of a numeral is no digit. -/
theorem ends_of_powerText {power : Option (Bool × List Char)} {rest : List Char}
    (hrest : Ends rest) {c : Char} {cs : List Char} (h : powerText power ++ rest = c :: cs) :
    c.isDigit = false ∧ c ≠ '.' := by
  cases power with
  | none => exact ⟨(hrest h).1, (hrest h).2.1⟩
  | some p =>
    obtain rfl := (List.cons.inj h).1
    decide

theorem readFraction_append {fraction : Option (List Char)} {rest : List Char}
    (hfraction : ∀ {ds}, fraction = some ds → IsDigits ds)
    (hrest : ∀ {c cs}, rest = c :: cs → c.isDigit = false ∧ c ≠ '.') :
    readFraction (fractionText fraction ++ rest) = some (fraction, rest) := by
  cases fraction with
  | none =>
    show readFraction rest = _
    unfold readFraction
    split
    · exact absurd rfl (hrest rfl).2
    · rfl
  | some ds =>
    show readFraction ('.' :: (ds ++ rest)) = _
    unfold readFraction
    simp only [spanDigits_append (hfraction rfl).digits fun h => (hrest h).1]
    rw [if_neg (by simpa using (hfraction rfl).nonempty)]

/-- What follows the digits before the point is no digit. -/
theorem not_digit_of_fractionText {fraction : Option (List Char)} {rest : List Char}
    (hrest : ∀ {c cs}, rest = c :: cs → c.isDigit = false ∧ c ≠ '.') {c : Char} {cs : List Char}
    (h : fractionText fraction ++ rest = c :: cs) : c.isDigit = false := by
  cases fraction with
  | none => exact (hrest h).1
  | some ds =>
    obtain rfl := (List.cons.inj h).1
    decide

/-- **A legible numeral reads back**, wherever its text ends. -/
theorem read_text {n : Numeral} (hn : n.Legible) {rest : List Char} (hrest : Ends rest) :
    read (n.text ++ rest) = some (n, rest) := by
  obtain ⟨negative, whole, fraction, power⟩ := n
  have hpower : readPower (powerText power ++ rest) = some (power, rest) :=
    readPower_append hn.power hrest
  have hfraction : readFraction (fractionText fraction ++ (powerText power ++ rest)) =
      some (fraction, powerText power ++ rest) :=
    readFraction_append hn.fraction fun h => ends_of_powerText hrest h
  have hwhole : readWhole (whole ++ (fractionText fraction ++ (powerText power ++ rest))) =
      some (whole, fractionText fraction ++ (powerText power ++ rest)) :=
    readWhole_append hn.whole hn.leading
      fun h => not_digit_of_fractionText (ends_of_powerText hrest) h
  have htext : text ⟨negative, whole, fraction, power⟩ =
      (if negative then ['-'] else []) ++ whole ++ fractionText fraction ++ powerText power := rfl
  rw [htext, List.append_assoc, List.append_assoc, List.append_assoc]
  unfold read
  cases negative with
  | true => simp [hwhole, hfraction, hpower]
  | false =>
    -- Without a sign the text starts with a digit.
    have hdigit : ∀ cs, whole ++ (fractionText fraction ++ (powerText power ++ rest)) ≠
        '-' :: cs := by
      intro cs h
      obtain ⟨c, ds, rfl⟩ := List.exists_cons_of_ne_nil hn.whole.nonempty
      obtain rfl := (List.cons.inj h).1
      exact absurd (hn.whole.digits _ List.mem_cons_self) (by decide)
    simp [hwhole, hfraction, hpower]

/-! ## What is legible -/

theorem legible_ofInt (n : Int) : (ofInt n).Legible where
  whole := isDigits_digitChars _
  leading := leading_digitChars
  fraction := nofun
  power := nofun

/-- An integer is the integer that its numeral denotes. -/
theorem toInt?_ofInt (n : Int) : (ofInt n).toInt? = some n := by
  unfold toInt? ofInt isIntegral
  simp only [Option.isNone_none, Bool.and_self, if_true, ofDigits_digitChars]
  by_cases hn : n < 0
  · simp only [hn, decide_true, if_true]
    rw [if_neg (by omega)]
    congr 1
    omega
  · simp only [hn, decide_false, Bool.false_eq_true, if_false]
    congr 1
    omega

/-- Some of a sequence of digits. -/
theorem isDigits_of_sublist {cs ds : List Char} (hds : ∀ c ∈ ds, c.isDigit = true)
    (hsub : cs.Sublist ds) (hlength : 0 < cs.length) : IsDigits cs :=
  ⟨List.ne_nil_of_length_pos hlength, fun c hc => hds c (hsub.subset hc)⟩

/-- **A point among digits** has digits on both sides, as zeros are put in front where they are
missing. -/
theorem isDigits_splitAtPoint {ds : List Char} (hds : IsDigits ds) {places : Nat}
    (hplaces : 0 < places) :
    IsDigits (splitAtPoint ds places).1 ∧ IsDigits (splitAtPoint ds places).2 := by
  unfold splitAtPoint
  have hlength : (List.replicate (places + 1 - ds.length) '0' ++ ds).length =
      max (places + 1) ds.length := by
    rw [List.length_append, List.length_replicate]
    omega
  have hpadded : ∀ c ∈ List.replicate (places + 1 - ds.length) '0' ++ ds, c.isDigit = true := by
    intro c hc
    rcases List.mem_append.mp hc with hc | hc
    · rw [(List.mem_replicate.mp hc).2]
      decide
    · exact hds.digits c hc
  constructor
  · refine isDigits_of_sublist hpadded (List.take_sublist _ _) ?_
    rw [List.length_take]
    omega
  · refine isDigits_of_sublist hpadded (List.drop_sublist _ _) ?_
    rw [List.length_drop]
    omega

theorem leading_splitAtPoint {ds : List Char} (hleading : ∀ {cs}, ds = '0' :: cs → cs = [])
    {places : Nat} (hplaces : 0 < places) {cs : List Char}
    (h : (splitAtPoint ds places).1 = '0' :: cs) : cs = [] := by
  unfold splitAtPoint at h
  dsimp only at h
  have hcount := congrArg List.length h
  rw [List.length_take, List.length_append, List.length_replicate, List.length_cons] at hcount
  by_cases hshort : ds.length ≤ places
  · -- Zeros were put in front, so there is one digit before the point.
    exact List.eq_nil_of_length_eq_zero (by omega)
  · have hnone : places + 1 - ds.length = 0 := by omega
    rw [hnone, List.replicate_zero, List.nil_append] at h
    obtain ⟨rest, hrest⟩ := List.take_prefix (ds.length - places) ds
    rw [h, List.cons_append] at hrest
    have hsingle := congrArg List.length (hleading hrest.symm)
    rw [← hrest] at hshort
    simp only [List.length_cons, List.length_nil] at hshort hsingle
    omega

/-- **A positional numeral is legible.** -/
theorem legible_positional (negative : Bool) (d : Decimal) : (positional negative d).Legible := by
  unfold positional
  split
  · rename_i hexponent
    have hplaces : 0 < (-d.exponent).toNat := by omega
    obtain ⟨hwhole, hfraction⟩ := isDigits_splitAtPoint (isDigits_digitChars d.digits) hplaces
    exact {
      whole := hwhole
      leading := leading_splitAtPoint leading_digitChars hplaces
      fraction := by
        rintro ds ⟨⟩
        exact hfraction
      power := nofun }
  · exact ⟨isDigits_digitChars _, leading_digitChars, nofun, nofun⟩

/-- **A numeral with one digit before the point is legible.** -/
theorem legible_scientific (negative : Bool) (d : Decimal) : (scientific negative d).Legible := by
  have hdigits := isDigits_digitChars d.digits
  have hlength := List.length_pos_iff.mpr hdigits.nonempty
  exact {
    whole := by
      refine isDigits_of_sublist hdigits.digits (List.take_sublist 1 _) ?_
      show 0 < (List.take 1 (digitChars d.digits)).length
      rw [List.length_take]
      omega
    leading := by
      intro cs h
      have hcount := congrArg List.length h
      simp only [scientific, List.length_take, List.length_cons] at hcount
      exact List.eq_nil_of_length_eq_zero (by omega)
    fraction := by
      intro ds h
      simp only [scientific] at h
      split at h
      · cases h
      · cases h
        refine isDigits_of_sublist hdigits.digits (List.drop_sublist _ _) ?_
        rw [List.length_drop]
        omega
    power := by
      rintro negative ds ⟨⟩
      exact isDigits_digitChars _ }

end Numeral

/-- **Floats are written legibly** in every notation. -/
theorem Notation.legible_ofFinite (n : Notation) (x : Float) : (n.ofFinite x).Legible := by
  unfold ofFinite write
  dsimp only
  split
  · have h := Numeral.legible_positional (Binary.isNegative x) (shortest n.tie (Binary.ofFloat x))
    split
    · refine ⟨h.whole, h.leading, ?_, h.power⟩
      rintro ds ⟨⟩
      exact ⟨nofun, fun c hc => List.mem_singleton.mp hc ▸ rfl⟩
    · exact h
  · exact Numeral.legible_scientific _ _

end ProductModel.Decimal
