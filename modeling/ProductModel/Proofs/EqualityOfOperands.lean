import ProductModel.Proofs.AdmittedAlike
import ProductModel.Proofs.Run.Outcomes
import ProductModel.Proofs.Run.Refusals
import ProductModel.Proofs.Run.Unobtrusive

/-!
# Equal either way

Two values are compared in one of three ways: a null is equal to nulls alone, an instance on the left
is asked for a method of its type, and all other values are compared by what they are.  Where no type
has such a method, the order of the operands makes no difference but in one case.  An instance that
is gone has no type to ask, so it cannot stand on the left unless it meets a null; on the right it is
compared as any other value.  `Language.equality_evaluated` says so for all values, and that `!=` is
the opposite of `==` whenever there is an answer.

## Design

The equality of values is symmetric (`Value.equals_comm`), for which the comparison of floats is the
only reason that needs a proof.  What an evaluation comes to is said once for each kind of operand on
the left (`Language.evaluates_of_gone`, `Language.evaluates_of_kept`); everything else follows from
these two.
-/

namespace ProductModel

/-! ## Equality of values -/

/-- Numbers that compare as equal do so in either order. -/
theorem compare_eq_symm {x y : Float.Model.UnpackedFloat} (h : x.compare y = some .eq) :
    y.compare x = some .eq := by
  obtain rfl | ⟨s, t, rfl, rfl⟩ := eq_or_zeros_of_compare h
  · exact h
  · rfl

theorem beq_of_beq {x y : Float} (h : (x == y) = true) : (y == x) = true := by
  show (y.toModel.unpack.compare x.toModel.unpack == some .eq) = true
  rw [compare_eq_symm (compare_of_beq h)]
  rfl

/-- **Floats are equal in either order**, NaNs in none. -/
theorem float_beq_comm (x y : Float) : (x == y) = (y == x) :=
  Bool.eq_iff_iff.mpr ⟨beq_of_beq, beq_of_beq⟩

namespace Value

variable {a b : Value}

mutual

theorem same_comm (a b : Value) : a.same b = b.same a := by
  cases a <;> cases b
  case bool.bool => exact Bool.beq_comm
  case int.int => exact BEq.comm
  case float.float => exact float_beq_comm _ _
  case str.str => exact BEq.comm
  case symbol.symbol => exact BEq.comm
  case ref.ref => exact BEq.comm
  case list.list as bs => exact sameItems_comm as bs
  all_goals rfl

theorem sameItems_comm (as bs : List Value) : sameItems as bs = sameItems bs as := by
  cases as with
  | nil => cases bs <;> rfl
  | cons a as =>
    cases bs with
    | nil => rfl
    | cons b bs => rw [sameItems, sameItems, same_comm a b, sameItems_comm as bs]

end

/-- **Values are equal in either order.** -/
theorem equals_comm (a b : Value) : a.equals b = b.equals a := by
  cases a <;> cases b
  case int.int => exact BEq.comm
  case int.float => exact float_beq_comm _ _
  case float.int => exact float_beq_comm _ _
  case float.float => exact float_beq_comm _ _
  all_goals exact same_comm _ _

/-- A reference equals itself alone. -/
theorem equals_ref {id : InstanceId} (h : a ≠ .ref id) : a.equals (.ref id) = false := by
  cases a with
  | ref x => exact beq_false_of_ne fun hx => h (congrArg Value.ref hx)
  | _ => rfl

/-- A null equals nulls alone. -/
theorem equals_of_isNull (h : (a.isNull || b.isNull) = true) :
    a.equals b = (a.isNull && b.isNull) := by
  cases a <;> cases b <;> first | rfl | cases h

end Value

/-! ## Evaluation -/

variable {β σ : Type}

/-- The instance that a value refers to, if it is gone. -/
def World.gone? (w : World β σ) : Value → Option InstanceId
  | .ref id => if (w.model.arena.get? id).isNone then some id else none
  | _ => none

/-- **A value that no type compares**: if it refers to an instance, no type that this is of has a
method for either equality. -/
def World.Unhandled (w : World β σ) (v : Value) : Prop :=
  ∀ id i, v = .ref id → w.model.arena.get? id = some i → ∀ t ∈ w.model.types.lineage i.type,
    w.model.types.ownOperator? t .eq = none ∧ w.model.types.ownOperator? t .ne = none

/-- The two operators that compare for equality. -/
def BinaryOp.IsEquality (op : BinaryOp) : Prop := op = .eq ∨ op = .ne

/-- What an equality answers about values that are equal or not. -/
def BinaryOp.told (op : BinaryOp) (equal : Bool) : Value :=
  .bool (if op = .eq then equal else !equal)

/-- **What an operator comes to** on two values, with an allowance for nesting. -/
def Language.evaluates (L : Language β σ) (n : Nat) (w : World β σ) (a : Value) (op : BinaryOp)
    (b : Value) : Option (Except ModelError Value × World β σ) :=
  (perform L (n + 1) (.evalBinary a op b)).outcome w

section Evaluation

variable {w : World β σ} {a b : Value} {op : BinaryOp}

theorem World.gone?_eq_some {id : InstanceId} :
    w.gone? a = some id ↔ a = .ref id ∧ w.model.arena.get? id = none := by
  cases a with
  | ref x =>
    simp only [gone?, Option.ite_none_right_eq_some, Option.isNone_iff_eq_none, Option.some.injEq,
      Value.ref.injEq]
    constructor
    · rintro ⟨hx, rfl⟩
      exact ⟨rfl, hx⟩
    · rintro ⟨rfl, hx⟩
      exact ⟨hx, rfl⟩
  | _ => simp [gone?]

theorem World.exists_of_gone?_eq_none {id : InstanceId} (h : w.gone? (.ref id) = none) :
    ∃ i, w.model.arena.get? id = some i := by
  refine Option.ne_none_iff_exists'.mp fun hnone => ?_
  rw [gone?_eq_some.mpr ⟨rfl, hnone⟩] at h
  cases h

/-- A value that is no instance is compared by no type. -/
theorem World.unhandled_of_ne (h : ∀ id, a ≠ .ref id) : w.Unhandled a :=
  fun id _ ha => absurd ha (h id)

/-- What is gone is of no type. -/
theorem World.unhandled_of_gone {id : InstanceId} (h : w.gone? a = some id) : w.Unhandled a := by
  obtain ⟨rfl, hgone⟩ := gone?_eq_some.mp h
  intro x i hx hi
  cases hx
  rw [hgone] at hi
  cases hi

/-- Without a method for it, an equality is found nowhere. -/
theorem World.Unhandled.findOperator (h : w.Unhandled a) {id : InstanceId} {i : Instance β}
    (ha : a = .ref id) (hi : w.model.arena.get? id = some i) (hop : op.IsEquality) :
    w.model.types.findOperator i.type op = none := by
  refine List.findSome?_eq_none_iff.mpr fun t ht => ?_
  have hnone := h id i ha hi t (List.mem_reverse.mpr ht)
  obtain rfl | rfl := hop
  · exact hnone.1
  · exact hnone.2

theorem applyBinary_isEquality (hop : op.IsEquality) :
    applyBinary a op b = .ok (op.told (a.equals b)) := by
  obtain rfl | rfl := hop <;> rfl

theorem isNullComparison_isEquality (hop : op.IsEquality) :
    Engine.isNullComparison a op b = (a.isNull || b.isNull) := by
  obtain rfl | rfl := hop <;> rfl

variable (L : Language β σ) (n : Nat)

/-- **An instance that is gone** cannot be asked. -/
theorem Language.evaluates_of_gone {id : InstanceId} (ha : w.gone? a = some id)
    (hb : b.isNull = false) :
    L.evaluates n w a op b = some (.error (Arena.destroyedError id), w) := by
  obtain ⟨rfl, hgone⟩ := World.gone?_eq_some.mp ha
  have hnull : Engine.isNullComparison (.ref id) op b = false := by
    rw [Engine.isNullComparison, hb]
    exact Bool.and_false _
  have hfind : w.model.arena.find id = .error (Arena.destroyedError id) := by
    rw [Arena.find, hgone]
  have htype : (Action.typeOf id : Action β σ TypeId).outcome w =
      some (.error (Arena.destroyedError id), w) := by
    refine Action.outcome_bind_error ?_
    show (Action.ofExcept (w.model.arena.find id) : Action β σ _).outcome w = _
    rw [hfind]
    rfl
  show (Engine.evalBinary _ _ op b).outcome w = _
  unfold Engine.evalBinary
  rw [hnull]
  exact Action.outcome_bind_error htype

/-- **All else is compared**, and the world stays as it is. -/
theorem Language.evaluates_of_kept (hop : op.IsEquality) (h : w.Unhandled a)
    (ha : w.gone? a = none ∨ b.isNull = true) :
    L.evaluates n w a op b = some (.ok (op.told (a.equals b)), w) := by
  have happly : Action.ofExcept ((applyBinary a op b).mapError ModelError.dispatch) =
      (pure (op.told (a.equals b)) : Action β σ Value) := by
    rw [applyBinary_isEquality hop]
    rfl
  show (Engine.evalBinary _ a op b).outcome w = _
  unfold Engine.evalBinary
  rw [isNullComparison_isEquality hop]
  cases hnull : a.isNull || b.isNull with
  | true =>
    rw [Value.equals_of_isNull hnull]
    rfl
  | false =>
    -- An instance is asked for an operator of its own first, and has none.
    obtain ⟨-, hright⟩ := Bool.or_eq_false_iff.mp hnull
    have hkept : w.gone? a = none := ha.resolve_right (Bool.eq_false_iff.mp hright)
    cases a with
    | ref id =>
      obtain ⟨i, hi⟩ := World.exists_of_gone?_eq_none hkept
      show (Action.typeOf id >>= fun type => _ >>= _ : Action β σ Value).outcome w = _
      rw [Action.outcome_bind_ok (outcome_typeOf hi),
        Action.outcome_bind_ok (outcome_model w), h.findOperator rfl hi hop, happly]
      rfl
    | _ =>
      show (Action.ofExcept _ : Action β σ Value).outcome w = _
      rw [happly]
      rfl

end Evaluation

/-- **How two values compare**, one of them on the left.  An instance that is gone is refused there
unless it meets a null. -/
structure Language.ComparesAlike (L : Language β σ) (n : Nat) (w : World β σ) (a b : Value) :
    Prop where
  compared : w.gone? a = none ∨ b.isNull = true → ∃ equal,
    L.evaluates n w a .eq b = some (.ok (.bool equal), w) ∧
    L.evaluates n w a .ne b = some (.ok (.bool !equal), w)
  refused : ∀ id, w.gone? a = some id → b.isNull = false →
    L.evaluates n w a .eq b = some (.error (Arena.destroyedError id), w) ∧
    L.evaluates n w a .ne b = some (.error (Arena.destroyedError id), w)
  symmetric : w.gone? a = none ∨ b.isNull = true → w.gone? b = none ∨ a.isNull = true →
    L.evaluates n w a .eq b = L.evaluates n w b .eq a
  /-- what is gone equals nothing that is not, as the other order tells -/
  apart : ∀ id, w.gone? a = some id → b.isNull = false → w.gone? b = none →
    L.evaluates n w b .eq a = some (.ok (.bool false), w)

namespace Departure

/-- The language without code. -/
def language : Language Unit Unit where
  method _ _ := .pure .void
  rule _ _ := .pure .accept
  evaluate _ _ _ := .pure ()
  inspect _ _ := .pure ()
  transformed _ _ _ host := host

/-- Two guests come, and the second one leaves. -/
def visit : Body Unit Unit Unit := do
  let _ ← Program.call (Op.register { name := "Guest" })
  let _ ← Program.call (Op.instantiate "Guest" none "first" [])
  let second ← Program.call (Op.instantiate "Guest" none "second" [])
  let _ ← Program.call (Op.remove second)

/-- **One guest is there and one is gone**, and no type compares them. -/
theorem exists_departed : ∃ w : World Unit Unit, Reachable [] w.model ∧
    w.gone? (.ref ⟨0, 0⟩) = none ∧ w.gone? (.ref ⟨1, 0⟩) = some ⟨1, 0⟩ ∧
    w.Unhandled (.ref ⟨0, 0⟩) := by
  have hrun : ((Body.exec language 2 visit).outcome { host := () }).any (fun left =>
      decide (left.2.gone? (.ref ⟨1, 0⟩) = some ⟨1, 0⟩) &&
        (left.2.model.arena.get? ⟨0, 0⟩).any fun i =>
          (left.2.model.types.lineage i.type).all fun t =>
            (left.2.model.types.ownOperator? t .eq).isNone &&
              (left.2.model.types.ownOperator? t .ne).isNone) = true := by
    decide +kernel
  simp only [Option.any_eq_true, Bool.and_eq_true, decide_eq_true_eq, Prod.exists,
    Option.isNone_iff_eq_none, List.all_eq_true] at hrun
  obtain ⟨_, w, hleft, hgone, i, hi, hplain⟩ := hrun
  refine ⟨w, (Reachable.empty rfl rfl).after_exec hleft, ?_, hgone, ?_⟩
  · rw [World.gone?, hi]
    rfl
  · intro id j hid hj t ht
    cases hid
    rw [hi] at hj
    cases hj
    exact hplain t ht

end Departure

variable {w : World β σ} {a b : Value}

/-- **Equality is the same either way** where no type has a method for it.  Whatever the world and
the values are, what is compared is told to be equal or not, in either order, and `!=` tells the
opposite.  An instance that is gone is refused on the left of all but a null; on the right of
anything that is not refused it is unequal. -/
theorem Language.equality_evaluated (L : Language β σ) (n : Nat) (ha : w.Unhandled a)
    (hb : w.Unhandled b) : L.ComparesAlike n w a b where
  compared hkept := ⟨a.equals b, L.evaluates_of_kept n (.inl rfl) ha hkept,
    L.evaluates_of_kept n (.inr rfl) ha hkept⟩
  refused id hgone hnull := ⟨L.evaluates_of_gone n hgone hnull, L.evaluates_of_gone n hgone hnull⟩
  symmetric hkept hkept' := by
    rw [L.evaluates_of_kept n (.inl rfl) ha hkept, L.evaluates_of_kept n (.inl rfl) hb hkept',
      Value.equals_comm]
  apart id hgone hnull hkept := by
    obtain ⟨rfl, -⟩ := World.gone?_eq_some.mp hgone
    have hne : b ≠ .ref id := by
      rintro rfl
      rw [hgone] at hkept
      cases hkept
    rw [L.evaluates_of_kept n (.inl rfl) hb (.inl hkept), Value.equals_ref hne]
    rfl

/-- The guest who is there and the one who is gone are not equal, as the one who is there tells; the
other one is not asked.  With a number the guest who is there compares alike in both orders. -/
theorem Language.equality_evaluated_departure :
    ∃ w : World Unit Unit, w.Unhandled (.ref ⟨0, 0⟩) ∧ w.Unhandled (.ref ⟨1, 0⟩) ∧
      w.Unhandled (.int 1) ∧
      Departure.language.evaluates 0 w (.ref ⟨0, 0⟩) .eq (.ref ⟨1, 0⟩) =
        some (.ok (.bool false), w) ∧
      Departure.language.evaluates 0 w (.ref ⟨1, 0⟩) .ne (.ref ⟨0, 0⟩) =
        some (.error (Arena.destroyedError ⟨1, 0⟩), w) ∧
      Departure.language.evaluates 0 w (.ref ⟨0, 0⟩) .eq (.int 1) =
        Departure.language.evaluates 0 w (.int 1) .eq (.ref ⟨0, 0⟩) := by
  obtain ⟨w, -, hthere, hgone, hfirst⟩ := Departure.exists_departed
  have hsecond : w.Unhandled (.ref ⟨1, 0⟩) := World.unhandled_of_gone hgone
  have hone : w.Unhandled (.int 1) := World.unhandled_of_ne fun _ => nofun
  have hguests := Language.equality_evaluated Departure.language 0 hsecond hfirst
  have hnumber := Language.equality_evaluated Departure.language 0 hfirst hone
  exact ⟨w, hfirst, hsecond, hone, hguests.apart _ hgone rfl hthere,
    (hguests.refused _ hgone rfl).2, hnumber.symmetric (.inl hthere) (.inl rfl)⟩

/-- **A guest who is gone is refused on one side only**: on the right of a number, it is unequal. -/
theorem Language.equality_one_sided :
    ∃ w : World Unit Unit, Reachable [] w.model ∧ w.Unhandled (.ref ⟨1, 0⟩) ∧
      w.Unhandled (.int 1) ∧
      Departure.language.evaluates 0 w (.ref ⟨1, 0⟩) .eq (.int 1) =
        some (.error (Arena.destroyedError ⟨1, 0⟩), w) ∧
      Departure.language.evaluates 0 w (.int 1) .eq (.ref ⟨1, 0⟩) =
        some (.ok (.bool false), w) := by
  obtain ⟨w, hreach, -, hgone, -⟩ := Departure.exists_departed
  have hone : w.Unhandled (.int 1) := World.unhandled_of_ne fun _ => nofun
  exact ⟨w, hreach, World.unhandled_of_gone hgone, hone, Language.evaluates_of_gone _ 0 hgone rfl,
    Language.evaluates_of_kept _ 0 (.inl rfl) hone (.inl rfl)⟩

end ProductModel
