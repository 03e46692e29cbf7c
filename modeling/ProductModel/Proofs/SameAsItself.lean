import ProductModel.Property.Table

/-!
# What is the same as itself

`Value.same` compares floats as numbers, so a NaN is not the same as itself, and neither is anything
that contains one.  This is all there is to it: a value, a definition and a table of properties are
the same as themselves exactly if every float in them equals itself.

The floats of a definition are its bounds and those among its choices.
-/

namespace ProductModel

/-! ## The floats in data -/

mutual

/-- **The floats in a value.** -/
def Value.floats : Value → List Float
  | .float x => [x]
  | .list items => floatsOfItems items
  | _ => []

/-- The floats in several values. -/
def Value.floatsOfItems : List Value → List Float
  | [] => []
  | v :: vs => floats v ++ floatsOfItems vs

end

/-- The floats among the choices of a property. -/
def PropertyKind.floats : PropertyKind → List Float
  | .choice values => Value.floatsOfItems values
  | _ => []

/-- The floats among the bounds of a property. -/
def PropertyBounds.floats : PropertyBounds → List Float
  | .range min max => [min, max]
  | .length _ => []

/-- The floats in a definition. -/
def PropertyDef.floats (d : PropertyDef) : List Float :=
  (d.bounds.map PropertyBounds.floats).getD [] ++ d.kind.floats

/-- **The floats in a table of properties.** -/
def PropertyTable.floats (t : PropertyTable) : List Float :=
  t.entries.flatMap (·.definition.floats)

/-- **There is a NaN among some floats**: one that does not equal itself. -/
def HasNaN (xs : List Float) : Bool := xs.any fun x => !(x == x)

@[simp] theorem hasNaN_nil : HasNaN [] = false := rfl

@[simp] theorem hasNaN_append (xs ys : List Float) :
    HasNaN (xs ++ ys) = (HasNaN xs || HasNaN ys) := List.any_append

/-! ## Sameness -/

mutual

/-- **A value is the same as itself exactly if there is no NaN in it.** -/
theorem Value.same_self (v : Value) : v.same v = !HasNaN v.floats := by
  cases v with
  | float x => simp [same, floats, HasNaN]
  | list items => exact sameItems_self items
  | _ => simp [same, floats]

theorem Value.sameItems_self (items : List Value) :
    sameItems items items = !HasNaN (floatsOfItems items) := by
  cases items with
  | nil => rfl
  | cons v vs =>
    rw [sameItems, same_self v, sameItems_self vs, floatsOfItems, hasNaN_append, Bool.not_or]

end

mutual

/-- **Without floats, the same values are equal.** -/
theorem Value.eq_of_same {u v : Value} (hsame : u.same v = true) (hfloats : v.floats = []) :
    u = v := by
  cases u <;> cases v
  case list.list as bs => rw [eq_of_sameItems hsame hfloats]
  case float.float x y => cases hfloats
  all_goals simp_all [same]

theorem Value.eq_of_sameItems {as bs : List Value} (hsame : sameItems as bs = true)
    (hfloats : floatsOfItems bs = []) : as = bs := by
  cases as with
  | nil =>
    cases bs with
    | nil => rfl
    | cons b bs => cases hsame
  | cons a as =>
    cases bs with
    | nil => cases hsame
    | cons b bs =>
      obtain ⟨hfirst, hrest⟩ := (Bool.and_eq_true _ _).mp hsame
      obtain ⟨hnone, hnone'⟩ := List.append_eq_nil_iff.mp hfloats
      rw [eq_of_same hfirst hnone, eq_of_sameItems hrest hnone']

end

theorem PropertyKind.same_self (k : PropertyKind) : (k == k) = !HasNaN k.floats := by
  show k.same k = _
  cases k with
  | choice values => exact Value.sameItems_self values
  | _ => simp [same, floats]

theorem PropertyBounds.same_self (b : PropertyBounds) : (b == b) = !HasNaN b.floats := by
  show b.same b = _
  cases b with
  | range min max => simp [same, floats, HasNaN]
  | length limit => simp [same, floats]

theorem PropertyDef.same_self (d : PropertyDef) : (d == d) = !HasNaN d.floats := by
  have hbounds : (d.bounds == d.bounds) =
      !HasNaN ((d.bounds.map PropertyBounds.floats).getD []) := by
    cases d.bounds with
    | none => rfl
    | some b => exact b.same_self
  show d.same d = _
  unfold same floats
  rw [hbounds, PropertyKind.same_self, hasNaN_append]
  simp [Bool.not_or]

/-- **A table is the same as itself exactly if there is no NaN in it.** -/
theorem PropertyTable.same_self (t : PropertyTable) : (t == t) = !HasNaN t.floats := by
  have hentries : ∀ es : List PropertyEntry,
      (es == es) = !HasNaN (es.flatMap (·.definition.floats)) := by
    intro es
    induction es with
    | nil => rfl
    | cons entry es ih =>
      have hentry : (entry == entry) = !HasNaN entry.definition.floats := by
        show entry.same entry = _
        simp [PropertyEntry.same, PropertyDef.same_self]
      rw [List.cons_beq_cons, hentry, ih, List.flatMap_cons, hasNaN_append, Bool.not_or]
  show t.same t = _
  simp [same, hentries, floats]

end ProductModel
