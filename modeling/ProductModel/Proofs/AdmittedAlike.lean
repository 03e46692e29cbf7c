import ProductModel.Proofs.SameAsItself

/-!
# Same values are admitted alike

`Value.same` relates the two zeros, and lists that differ in zeros.  Nothing tells such values apart
that a definition asks of a value: neither the bounds, which compare numbers, nor the choices, which
are compared with the equality of the operators.  So a value may take the place of one that is the
same wherever that one was admitted (`PropertyDef.validate_of_same`).
-/

namespace ProductModel

/-! ## Floats -/

section Floats

open Float.Model

/-- Numbers that compare as equal are one number, or zeros. -/
theorem eq_or_zeros_of_compare {x y : UnpackedFloat} (h : x.compare y = some .eq) :
    x = y ∨ ∃ s t, x = .zero s ∧ y = .zero t := by
  cases x with
  | notANumber => cases h
  | zero s =>
    cases y with
    | zero t => exact Or.inr ⟨s, t, rfl, rfl⟩
    | infinity t => cases t <;> cases h
    | notANumber => cases h
    | finite t => cases t <;> cases h
  | infinity s =>
    cases y with
    | infinity t =>
      cases s <;> cases t
      case positive.positive => exact Or.inl rfl
      case negative.negative => exact Or.inl rfl
      all_goals cases h
    | notANumber => cases s <;> cases h
    | zero t => cases s <;> cases h
    | finite t => cases s <;> cases t <;> cases h
  | finite s m e hm =>
    cases y with
    | infinity t => cases s <;> cases t <;> cases h
    | notANumber => cases s <;> cases h
    | zero t => cases s <;> cases h
    | finite t m' e' hm' =>
      -- Finite numbers are compared by exponent and mantissa, in reverse below zero.
      have hparts : (compare e e').then (compare m m') = .eq → s = t →
          UnpackedFloat.finite s m e hm = .finite t m' e' hm' := by
        rintro hequal rfl
        obtain ⟨he, hm⟩ := Ordering.then_eq_eq.mp hequal
        obtain rfl := Int.compare_eq_eq.mp he
        obtain rfl := Nat.compare_eq_eq.mp hm
        rfl
      refine Or.inl ?_
      cases s <;> cases t
      case positive.positive => exact hparts (Option.some.inj h) rfl
      case negative.negative =>
        exact hparts (Ordering.swap_eq_eq.mp (Option.some.inj h)) rfl
      all_goals cases h

/-- The sign of a zero does not count. -/
theorem compare_zero_congr (s t : UnpackedFloat.Sign) (z : UnpackedFloat) :
    z.compare (.zero s) = z.compare (.zero t) ∧
      (UnpackedFloat.zero s).compare z = (UnpackedFloat.zero t).compare z := by
  cases z with
  | infinity u => cases u <;> exact ⟨rfl, rfl⟩
  | finite u => cases u <;> exact ⟨rfl, rfl⟩
  | _ => exact ⟨rfl, rfl⟩

/-- **Equal numbers compare alike** with any other. -/
theorem compare_congr {x y : UnpackedFloat} (h : x.compare y = some .eq) (z : UnpackedFloat) :
    z.compare x = z.compare y ∧ x.compare z = y.compare z := by
  obtain rfl | ⟨s, t, rfl, rfl⟩ := eq_or_zeros_of_compare h
  · exact ⟨rfl, rfl⟩
  · exact compare_zero_congr s t z

variable {x y : Float}

theorem compare_of_beq (h : (x == y) = true) :
    x.toModel.unpack.compare y.toModel.unpack = some .eq := by
  change (x.toModel.unpack.compare y.toModel.unpack == some .eq) = true at h
  simpa using h

theorem lt_iff_compare (x y : Float) :
    x < y ↔ x.toModel.unpack.compare y.toModel.unpack = some .lt := by
  show decide ((x.toModel.unpack.compare y.toModel.unpack == some .lt) = true) = true ↔ _
  rw [decide_eq_true_iff, beq_iff_eq]

theorem beq_congr_of_beq (h : (x == y) = true) (z : Float) : (z == x) = (z == y) := by
  show (z.toModel.unpack.compare x.toModel.unpack == some .eq) =
    (z.toModel.unpack.compare y.toModel.unpack == some .eq)
  rw [(compare_congr (compare_of_beq h) _).1]

theorem beq_congr_of_beq_left (h : (x == y) = true) (z : Float) : (x == z) = (y == z) := by
  show (x.toModel.unpack.compare z.toModel.unpack == some .eq) =
    (y.toModel.unpack.compare z.toModel.unpack == some .eq)
  rw [(compare_congr (compare_of_beq h) _).2]

theorem lt_congr_of_beq (h : (x == y) = true) (z : Float) : (x < z ↔ y < z) ∧ (z < x ↔ z < y) := by
  simp only [lt_iff_compare, (compare_congr (compare_of_beq h) z.toModel.unpack).1,
    (compare_congr (compare_of_beq h) z.toModel.unpack).2, and_self]

end Floats

/-! ## Values -/

namespace Value

/-- Same values are equal, or floats that are equal as numbers, or lists. -/
theorem same_cases {u v : Value} (h : u.same v = true) :
    u = v ∨ (∃ x y, u = .float x ∧ v = .float y ∧ (x == y) = true) ∨
      ∃ as bs, u = .list as ∧ v = .list bs ∧ sameItems as bs = true := by
  cases v with
  | float y =>
    cases u with
    | float x => exact Or.inr (Or.inl ⟨x, y, rfl, rfl, h⟩)
    | _ => cases h
  | list bs =>
    cases u with
    | list as => exact Or.inr (Or.inr ⟨as, bs, rfl, rfl, h⟩)
    | _ => cases h
  | _ => exact Or.inl (eq_of_same h rfl)

mutual

/-- What is the same as one of two same values is the same as the other. -/
theorem same_congr {u v : Value} (h : u.same v = true) (c : Value) : c.same u = c.same v := by
  obtain rfl | ⟨x, y, rfl, rfl, hxy⟩ | ⟨as, bs, rfl, rfl, hitems⟩ := same_cases h
  · rfl
  · cases c with
    | float z => exact beq_congr_of_beq hxy z
    | _ => rfl
  · cases c with
    | list cs => exact sameItems_congr hitems cs
    | _ => rfl

theorem sameItems_congr {as bs : List Value} (h : sameItems as bs = true) (cs : List Value) :
    sameItems cs as = sameItems cs bs := by
  cases as with
  | nil =>
    cases bs with
    | nil => rfl
    | cons b bs => cases h
  | cons a as =>
    cases bs with
    | nil => cases h
    | cons b bs =>
      cases cs with
      | nil => rfl
      | cons c cs =>
        obtain ⟨hfirst, hrest⟩ := (Bool.and_eq_true _ _).mp h
        rw [sameItems, sameItems, same_congr hfirst c, sameItems_congr hrest cs]

end

/-- What equals one of two same values equals the other. -/
theorem equals_congr {u v : Value} (h : u.same v = true) (c : Value) : c.equals u = c.equals v := by
  obtain rfl | ⟨x, y, rfl, rfl, hxy⟩ | ⟨as, bs, rfl, rfl, hitems⟩ := same_cases h
  · rfl
  · cases c with
    | int n => exact beq_congr_of_beq hxy _
    | float z => exact beq_congr_of_beq hxy z
    | _ => rfl
  · cases c with
    | list cs => exact sameItems_congr hitems cs
    | _ => rfl

/-- **Same values are alike in a condition.** -/
theorem isTruthy_of_same {u v : Value} (h : u.same v = true) : u.isTruthy = v.isTruthy := by
  obtain rfl | ⟨x, y, rfl, rfl, hxy⟩ | ⟨as, bs, rfl, rfl, hitems⟩ := same_cases h
  · rfl
  · exact congrArg (! ·) (beq_congr_of_beq_left hxy 0.0)
  · cases as <;> cases bs
    case nil.nil => rfl
    case cons.cons => rfl
    all_goals cases hitems

/-- Same values are both absent or both there. -/
theorem isVoid_of_same {u v : Value} (h : u.same v = true) : u.isVoid = v.isVoid := by
  obtain rfl | ⟨x, y, rfl, rfl, hxy⟩ | ⟨as, bs, rfl, rfl, hitems⟩ := same_cases h <;> rfl

/-- **Same values compare alike** with a number. -/
theorem lt_toFloat_of_same {u v : Value} (h : u.same v = true) (z default : Float) :
    z < u.toFloat?.getD default ↔ z < v.toFloat?.getD default := by
  obtain rfl | ⟨x, y, rfl, rfl, hxy⟩ | ⟨as, bs, rfl, rfl, hitems⟩ := same_cases h
  · rfl
  · exact (lt_congr_of_beq hxy z).2
  · rfl

end Value

/-! ## Definitions -/

namespace PropertyDef

theorem checkKind_choice {values : List Value} {v : Value} :
    checkKind (.choice values) v = .ok () ↔ values.any (·.equals v) = true := by
  have hcheck : checkKind (.choice values) v =
      if values.any (·.equals v) then .ok () else .error (notAChoice v) := by
    cases v <;> rfl
  rw [hcheck]
  split <;> simp_all

theorem checkKind_of_same {kind : PropertyKind} {u v : Value} (h : u.same v = true)
    (hv : checkKind kind v = .ok ()) : checkKind kind u = .ok () := by
  cases kind with
  | choice values =>
    rw [checkKind_choice] at hv ⊢
    simpa only [Value.equals_congr h] using hv
  | choiceFn method => rfl
  | editor name => rfl
  | _ =>
    -- The kinds that are left tell values apart by their own kind.
    obtain rfl | ⟨x, y, rfl, rfl, hxy⟩ | ⟨as, bs, rfl, rfl, hitems⟩ := Value.same_cases h
    · exact hv
    · exact hv
    · cases hv

theorem checkBounds_of_same {bounds : Option PropertyBounds} {u v : Value} (h : u.same v = true)
    (hv : checkBounds bounds v = .ok ()) : checkBounds bounds u = .ok () := by
  obtain rfl | ⟨x, y, rfl, rfl, hxy⟩ | ⟨as, bs, rfl, rfl, hitems⟩ := Value.same_cases h
  · exact hv
  · rcases bounds with _ | ⟨min, max⟩ | limit
    · rfl
    · simp only [checkBounds, Value.toFloat?] at hv ⊢
      rw [if_neg]
      · intro hout
        rw [if_pos] at hv
        · cases hv
        · simpa only [Bool.or_eq_true, decide_eq_true_eq, lt_congr_of_beq hxy] using hout
    · rfl
  · rcases bounds with _ | ⟨min, max⟩ | limit <;> rfl

/-- **A value is admitted if one that is the same is.** -/
theorem validate_of_same {d : PropertyDef} {u v : Value} (h : u.same v = true)
    (hv : d.validate v = .ok ()) : d.validate u = .ok () := by
  have hsteps : ∀ w, d.validate w = .ok () ↔
      checkKind d.kind w = .ok () ∧ checkBounds d.bounds w = .ok () := by
    intro w
    unfold validate
    cases checkKind d.kind w with
    | error message => simp [bind, Except.bind]
    | ok _ => simp [bind, Except.bind]
  rw [hsteps] at hv ⊢
  exact ⟨checkKind_of_same h hv.1, checkBounds_of_same h hv.2⟩

end PropertyDef

end ProductModel
