import ProductModel.Proofs.Registry.WholeChanges

/-!
# Operators are methods

A type keeps a table of the methods that answer operators on its instances.  The table is filled
when a definition is accepted, and it is looked up along the supertypes on its own.
`Registry.methods_found` says that it never tells anything that the methods do not: the handler of
an operator is the method called `operator` and the operator's token, as it would be found by that
name, and there is none if there is no such method.  It also says which method that is, and which
definitions are refused because the table cannot be filled.

## Design

* `collectOperators` is compared with `TypeDef.method?` once, for a list of methods
  (`lookup_of_collectOperators`).  That every record holds the table of its present definition is
  what a change preserves (`Registry.Tabled`), so a type's own operators are its own methods.
* Both look-ups go up the same supertypes and ask one type after the other, so they agree because
  they agree on each type.
* A definition without its methods passes all checks but that of the operators, or fails as the
  whole definition would.  `ReportsStray` compares these two attempts, and is carried over each
  check that comes before.
-/

namespace ProductModel

variable {β : Type}

/-! ## Names of operators' methods -/

/-- The name of the method that handles an operator. -/
def BinaryOp.methodName (op : BinaryOp) : Symbol := ⟨operatorMark ++ op.token⟩

/-- The token of an operator's method is what follows the mark in its name. -/
theorem operatorToken?_eq_some {name : Symbol} {token : String} :
    operatorToken? name = some token ↔ name.label = operatorMark ++ token := by
  unfold operatorToken?
  constructor
  · intro h
    dsimp only at h
    split at h
    · rename_i hmark
      cases h
      apply String.toList_injective
      rw [String.toList_append, String.toList_ofList]
      have hsplit := List.take_append_drop operatorMark.toList.length name.label.toList
      rw [hmark] at hsplit
      exact hsplit.symm
    · cases h
  · intro h
    simp only [h, String.toList_append, List.take_left, List.drop_left, if_true,
      String.ofList_toList]

namespace BinaryOp

variable {op op' : BinaryOp} {token : String}

theorem token_inj : op.token = op'.token ↔ op = op' := by
  constructor
  · intro h
    have hsome : some op = some op' := by rw [← ofToken?_token, h, ofToken?_token]
    exact Option.some.inj hsome
  · rintro rfl
    rfl

theorem ofToken?_eq_some : ofToken? token = some op ↔ op.token = token := by
  constructor
  · intro h
    exact beq_iff_eq.mp (List.find?_some (p := fun op : BinaryOp => op.token == token) h)
  · rintro rfl
    exact ofToken?_token op

theorem ofToken?_eq_none : ofToken? token = none ↔ ∀ op : BinaryOp, op.token ≠ token := by
  rw [Option.eq_none_iff_forall_ne_some]
  exact forall_congr' fun op => not_congr ofToken?_eq_some

/-- A name is that of an operator's method if its token is the operator's. -/
theorem eq_methodName_iff {name : Symbol} :
    name = op.methodName ↔ operatorToken? name = some op.token := by
  rw [operatorToken?_eq_some]
  constructor
  · rintro rfl
    rfl
  · exact congrArg Symbol.mk

end BinaryOp

/-- A stray operator, by the text of its name. -/
theorem Method.isStrayOperator_iff {m : Method β} : m.IsStrayOperator ↔
    ∃ token, m.name.label = operatorMark ++ token ∧ ∀ op : BinaryOp, op.token ≠ token := by
  simp only [IsStrayOperator, operatorToken?_eq_some, BinaryOp.ofToken?_eq_none]

/-! ## The table of a definition -/

/-- **An operator is looked up as its method is.** -/
theorem lookup_of_collectOperators {methods : List (Method β)}
    {operators : List (BinaryOp × Method β)} (h : collectOperators methods = .ok operators)
    (op : BinaryOp) : operators.lookup op = methods.find? (·.name == op.methodName) := by
  induction methods generalizing operators with
  | nil =>
    cases h
    rfl
  | cons m methods ih =>
    unfold collectOperators at h
    split at h
    · -- A method of another kind is in neither list.
      rename_i hnone
      have hother : m.name ≠ op.methodName := by
        rw [Ne, BinaryOp.eq_methodName_iff, hnone]
        exact nofun
      rw [ih h, List.find?_cons, beq_false_of_ne hother]
    · rename_i token htoken
      split at h
      · cases h
      · rename_i op' hop
        obtain rfl := BinaryOp.ofToken?_eq_some.mp hop
        cases hrest : collectOperators methods with
        | error label =>
          rw [hrest] at h
          cases h
        | ok rest =>
          rw [hrest] at h
          cases h
          -- An operator is known by its token, and the token by the name of the method.
          have hsame : (m.name == op.methodName) = (op == op') := by
            rw [Bool.eq_iff_iff, beq_iff_eq, beq_iff_eq, BinaryOp.eq_methodName_iff, htoken,
              Option.some_inj, BinaryOp.token_inj, eq_comm]
          rw [List.lookup_cons, List.find?_cons, ih hrest, hsame]

/-- **The method that was added last** is the one of its name. -/
theorem TypeDef.method?_addMethod (d : TypeDef β) (m : Method β) (name : Symbol) :
    (d.addMethod m).method? name = if name = m.name then some m else d.method? name := by
  unfold method? addMethod
  rw [List.find?_append]
  by_cases hname : name = m.name
  · have hnone : (d.methods.filter (·.name ≠ m.name)).find? (·.name == name) = none := by
      refine List.find?_eq_none.mpr fun a ha heq => ?_
      exact of_decide_eq_true (List.mem_filter.mp ha).2 ((beq_iff_eq.mp heq).trans hname)
    rw [if_pos hname, hnone, hname, List.find?_singleton, if_pos (beq_self_eq_true _)]
    rfl
  · have hkept : (d.methods.filter (·.name ≠ m.name)).find? (·.name == name) =
        d.methods.find? (·.name == name) := by
      rw [List.find?_filter]
      congr 1
      funext a
      rw [Bool.eq_iff_iff, decide_eq_true_iff, and_iff_right_iff_imp]
      intro heq
      exact decide_eq_true fun h => hname ((beq_iff_eq.mp heq).symm.trans h)
    rw [if_neg hname, hkept, List.find?_singleton, if_neg fun h => hname (beq_iff_eq.mp h).symm,
      Option.or_none]

namespace Registry

variable {r r' : Registry β} {id : TypeId} {d : TypeDef β} {name : Symbol}

/-! ## The tables of a registry -/

/-- **Every type has the operators of its present definition.** -/
def Tabled (r : Registry β) : Prop :=
  ∀ id record, r.record? id = some record →
    collectOperators record.definition.methods = .ok record.operators

namespace Tabled

/-- A change of one record keeps the tables if the new record has its own. -/
theorem of_others (h : r.Tabled) (hothers : ∀ x, x ≠ id → r'.record? x = r.record? x)
    {record : RegisteredType β} (hrecord : r'.record? id = some record)
    (hoperators : collectOperators record.definition.methods = .ok record.operators) :
    r'.Tabled := by
  intro x found hfound
  by_cases hx : x = id
  · rw [hx, hrecord] at hfound
    cases hfound
    exact hoperators
  · rw [hothers x hx] at hfound
    exact h x found hfound

theorem changed (h : r.Tabled) (hr : r.Grounded) (c : TypeChange β) : (r.changed c).Tabled := by
  refine holds_changed c h (fun hc => ?_) fun hc => ?_
  · have hmade := registered_of_register hc
    obtain ⟨operators, hoperators, hrecord⟩ := hmade.record
    exact h.of_others hmade.others hrecord hoperators
  · have hmade := redefined_of_redefine hr hc
    obtain ⟨old, operators, -, hoperators, hrecord⟩ := hmade.record
    exact h.of_others hmade.others hrecord hoperators

/-- **What a type itself answers an operator with** is its method of that name. -/
theorem ownOperator?_eq (h : r.Tabled) (id : TypeId) (op : BinaryOp) :
    r.ownOperator? id op = r.ownMethod? id op.methodName := by
  unfold ownOperator? ownMethod? definition?
  cases hrecord : r.record? id with
  | none => rfl
  | some record => exact lookup_of_collectOperators (h id record hrecord) op

theorem findOperator_eq (h : r.Tabled) (id : TypeId) (op : BinaryOp) :
    r.findOperator id op = (r.findMethod id op.methodName).map Prod.snd := by
  unfold findOperator findMethod
  rw [List.map_findSome?]
  congr 1
  funext t
  rw [h.ownOperator?_eq, Function.comp_apply, Option.map_map]
  exact Option.map_id'.symm

end Tabled

theorem tabled_after (changes : List (TypeChange β)) : (after changes).Tabled := by
  induction changes with
  | nil => exact nofun
  | cons c changes ih => exact ih.changed (grounded_after changes) c

/-! ## What is found -/

/-- **What a type's instances answer with.** -/
structure FindsMethods (r : Registry β) (id : TypeId) : Prop where
  /-- found is the method of the last type of the lineage that has one, with that type -/
  findMethod_eq_some : ∀ {name owner m}, r.findMethod id name = some (owner, m) ↔
    ∃ above below, r.lineage id = above ++ owner :: below ∧ r.ownMethod? owner name = some m ∧
      ∀ t ∈ below, r.ownMethod? t name = none
  findMethod_eq_none : ∀ {name}, r.findMethod id name = none ↔
    ∀ t ∈ r.lineage id, r.ownMethod? t name = none
  /-- an operator is answered by the method of its name, or not at all -/
  findOperator_eq : ∀ op, r.findOperator id op = (r.findMethod id op.methodName).map Prod.snd

theorem findMethod_eq_some_iff {owner : TypeId} {m : Method β} :
    r.findMethod id name = some (owner, m) ↔
      ∃ above below, r.lineage id = above ++ owner :: below ∧ r.ownMethod? owner name = some m ∧
        ∀ t ∈ below, r.ownMethod? t name = none := by
  have hown : ∀ t, (r.ownMethod? t name).map (t, ·) = some (owner, m) ↔
      t = owner ∧ r.ownMethod? owner name = some m := by
    intro t
    rw [Option.map_eq_some_iff]
    constructor
    · rintro ⟨found, hfound, heq⟩
      cases heq
      exact ⟨rfl, hfound⟩
    · rintro ⟨rfl, hfound⟩
      exact ⟨m, hfound, rfl⟩
  unfold findMethod lineage
  rw [List.findSome?_eq_some_iff]
  simp only [hown, Option.map_eq_none_iff]
  -- The search goes up, and the lineage comes down.
  constructor
  · rintro ⟨below, t, above, hsplit, ⟨rfl, hfound⟩, hnone⟩
    refine ⟨above.reverse, below.reverse, ?_, hfound, fun t ht => ?_⟩
    · rw [hsplit, List.reverse_append, List.reverse_cons, List.append_assoc, List.singleton_append]
    · exact hnone t (List.mem_reverse.mp ht)
  · rintro ⟨above, below, hsplit, hfound, hnone⟩
    refine ⟨below.reverse, owner, above.reverse, ?_, ⟨rfl, hfound⟩, fun t ht => ?_⟩
    · rw [← List.reverse_reverse (r.ancestors id), hsplit, List.reverse_append,
        List.reverse_cons, List.append_assoc, List.singleton_append]
    · exact hnone t (List.mem_reverse.mp ht)

theorem findMethod_eq_none_iff : r.findMethod id name = none ↔
    ∀ t ∈ r.lineage id, r.ownMethod? t name = none := by
  unfold findMethod lineage
  simp only [List.findSome?_eq_none_iff, Option.map_eq_none_iff, List.mem_reverse]

theorem Tabled.findsMethods (h : r.Tabled) (id : TypeId) : r.FindsMethods id where
  findMethod_eq_some := findMethod_eq_some_iff
  findMethod_eq_none := findMethod_eq_none_iff
  findOperator_eq := h.findOperator_eq id

end Registry

/-! ## Refused definitions -/

namespace TypeChange

/-- The definition that a change would bring. -/
def definition : TypeChange β → TypeDef β
  | .register d => d
  | .redefine _ d => d

/-- The change without the methods of its definition. -/
def withoutMethods : TypeChange β → TypeChange β
  | .register d => .register { d with methods := [] }
  | .redefine typeName d => .redefine typeName { d with methods := [] }

end TypeChange

/-- **How stray operators are reported** when a definition is tried, and is tried without its
methods.  It is refused for them just when there is one and no other check fails that comes before;
only the check for room comes afterwards. -/
structure ReportsStray {γ : Type} (d : TypeDef β) (attempt bare : Except TypeError γ) : Prop where
  refused_iff : (∃ name label, attempt = .error (.invalidOperator name label)) ↔
    (∃ m ∈ d.methods, ∃ token, m.name.label = operatorMark ++ token ∧
      ∀ op : BinaryOp, op.token ≠ token) ∧
    ∀ err, bare = .error err → ∃ name, err = .tooManyTypes name
  named : ∀ {name label}, attempt = .error (.invalidOperator name label) →
    name = d.qualifiedName ∧ ∃ m ∈ d.methods, m.IsStrayOperator ∧ label = m.name.label

/-- The error of a check that comes before that of the operators. -/
def TypeError.IsEarly (err : TypeError) : Prop :=
  (∀ name label, err ≠ .invalidOperator name label) ∧ ∀ name, err ≠ .tooManyTypes name

namespace ReportsStray

variable {α γ : Type} {d : TypeDef β} {attempt bare : Except TypeError γ}

/-- Both attempts fail alike before the operators come up. -/
theorem of_isEarly {err : TypeError} (herr : err.IsEarly) :
    ReportsStray d (.error err : Except TypeError γ) (.error err) where
  refused_iff := by
    constructor
    · rintro ⟨name, label, heq⟩
      cases heq
      exact absurd rfl (herr.1 name label)
    · rintro ⟨-, hlate⟩
      obtain ⟨name, heq⟩ := hlate err rfl
      exact absurd heq (herr.2 name)
  named {name label} heq := by
    cases heq
    exact absurd rfl (herr.1 name label)

theorem bind {check : Except TypeError α} {next next' : α → Except TypeError γ}
    (hcheck : ∀ err, check = .error err → err.IsEarly)
    (hnext : ∀ a, check = .ok a → ReportsStray d (next a) (next' a)) :
    ReportsStray d (check >>= next) (check >>= next') := by
  cases check with
  | error err => exact of_isEarly (hcheck err rfl)
  | ok a => exact hnext a rfl

/-- After the operators, there is only the check for room. -/
theorem resolve {name : String} (hname : name = d.qualifiedName)
    {next : List (BinaryOp × Method β) → Except TypeError γ}
    (hnext : ∀ operators err, next operators = .error err → ∃ name, err = .tooManyTypes name)
    (hbare : ∀ err, bare = .error err → ∃ name, err = .tooManyTypes name) :
    ReportsStray d (Registry.resolveOperators name d >>= next) bare := by
  have hsettles : Settles (Registry.resolveOperators name d) (Registry.UnfitMethods name d) :=
    Registry.settles_resolveOperators
  cases hresolve : Registry.resolveOperators name d with
  | error err =>
    obtain ⟨hm, hstray⟩ := hsettles.of_error hresolve
    -- The stray operator is reported, and without methods there was nothing else to report.
    refine ⟨⟨fun _ => ⟨⟨_, hm, Method.isStrayOperator_iff.mp hstray⟩, hbare⟩,
      fun _ => ⟨_, _, rfl⟩⟩, fun heq => ?_⟩
    cases heq
    exact ⟨hname, _, hm, hstray, rfl⟩
  | ok operators =>
    have hnot : ∀ name label,
        (Except.ok operators >>= next : Except TypeError γ) ≠ .error (.invalidOperator name label) := by
      intro name label heq
      obtain ⟨_, hfull⟩ := hnext operators _ heq
      cases hfull
    rw [hresolve] at hsettles
    refine ⟨⟨fun ⟨_, _, heq⟩ => absurd heq (hnot _ _), fun ⟨⟨m, hm, hstray⟩, _⟩ => ?_⟩,
      fun heq => absurd heq (hnot _ _)⟩
    exact absurd (.operator hm (Method.isStrayOperator_iff.mpr hstray)) (hsettles _)

end ReportsStray

namespace Registry

variable {r : Registry β} {id : TypeId} {d : TypeDef β} {name : String}

theorem UnfitSupertype.isEarly {err : TypeError} (h : r.UnfitSupertype name d err) :
    err.IsEarly := by
  cases h <;> exact ⟨nofun, nofun⟩

/-- A check before that of the operators, by what speaks against the definition in it. -/
theorem isEarly_of_settles {α : Type} {check : Except TypeError α} {objection : TypeError → Prop}
    (h : Settles check objection) (hearly : ∀ err, objection err → err.IsEarly) (err : TypeError)
    (herr : check = .error err) : err.IsEarly :=
  hearly err (h.of_error herr)

/-- What a last check can fail with. -/
theorem eq_of_guard_error {α : Type} {p : Prop} [Decidable p] {err err' : TypeError} {a : α}
    (h : ((if p then .error err else .ok () : Except TypeError Unit) >>= fun _ => .ok a) =
      .error err') : err' = err := by
  split at h
  · cases h
    rfl
  · cases h

theorem reportsStray_register : ReportsStray d (r.register d)
    (r.register { d with methods := [] }) := by
  rw [register_eq, register_eq]
  refine .bind (isEarly_of_settles (Settles.guard _ _) ?_) fun _ _ =>
    .bind (isEarly_of_settles settles_newSupertype ?_) fun _ _ =>
    .resolve rfl (fun _ _ herr => ⟨_, eq_of_guard_error herr⟩)
      fun _ herr => ⟨_, eq_of_guard_error herr⟩
  · rintro err ⟨-, rfl⟩
    exact ⟨nofun, nofun⟩
  · rintro err (⟨_, -, -, rfl⟩ | hunfit)
    · exact ⟨nofun, nofun⟩
    · exact hunfit.isEarly

theorem reportsStray_redefine {typeName : String} : ReportsStray d (r.redefine typeName d)
    (r.redefine typeName { d with methods := [] }) := by
  rw [redefine_eq, redefine_eq]
  cases r.lookup typeName with
  | none => exact .of_isEarly ⟨nofun, nofun⟩
  | some id =>
    refine .bind (isEarly_of_settles (Settles.guard _ _) ?_) fun _ hname =>
      .bind (isEarly_of_settles settles_replacedSupertype ?_) fun _ _ =>
      .bind ?_ fun _ _ => .resolve ?_ (fun _ _ => nofun) nofun
    · rintro err ⟨-, rfl⟩
      exact ⟨nofun, nofun⟩
    · rintro err (hunfit | ⟨_, _, -, -, -, rfl⟩)
      · exact hunfit.isEarly
      · exact ⟨nofun, nofun⟩
    · intro err herr
      split at herr
      · cases herr
        exact ⟨nofun, nofun⟩
      · cases herr
    · split at hname
      · cases hname
      · rename_i hsame
        exact (Decidable.not_not.mp hsame).symm

/-- **Operators are methods**, whatever the registry has been through.  A type's instances answer
with the method of the last type of its lineage that has one of the name, an operator is answered by
the method of its name, and of two methods of a name the one that was added last counts.  A
definition is refused for the name of a method just when the name claims to be that of an operator,
there is none of that token, and the definition would pass all earlier checks. -/
theorem methods_found (changes : List (TypeChange β)) :
    (∀ id, (after changes).FindsMethods id) ∧
    (∀ (d : TypeDef β) (m : Method β) name,
      (d.addMethod m).method? name = if name = m.name then some m else d.method? name) ∧
    ∀ c : TypeChange β, ReportsStray c.definition ((after changes).change c)
      ((after changes).change c.withoutMethods) := by
  refine ⟨(tabled_after changes).findsMethods, TypeDef.method?_addMethod, fun c => ?_⟩
  cases c with
  | register d => exact reportsStray_register
  | redefine typeName d => exact reportsStray_redefine

end Registry

end ProductModel
