import ProductModel.Proofs.Outcome
import ProductModel.Proofs.Registry.Namesakes

/-!
# Types change as a whole

A definition may be refused for many reasons, and they are looked for one after the other.
`Language.types_change_whole` says that none of them is found too late: a definition that anything
speaks against leaves the world as it was, so no record, generation, supertype or operator table, no
answer of a lookup and no epoch is another.  A definition that nothing speaks against is taken over
as a whole: its record holds the definition with the supertype and the operators resolved from it,
and every other record stays.

## Design

`Registry.AgainstRegistration` and `Registry.AgainstRedefinition` list what can speak against a
definition, each objection with the error that it is reported by.  They are about the registry as it
stands and know nothing of the order of the checks.  `Settles` ties them to the checks: a check
fails with an objection that there is, and passes only if there is none.  So what is refused and
what is accepted are told apart by the objections alone.
-/

namespace ProductModel

/-- **A check settles objections**: it fails with one that there is, or passes if there is none. -/
def Settles {ε α : Type} (check : Except ε α) (objection : ε → Prop) : Prop :=
  match check with
  | .ok _ => ∀ err, ¬ objection err
  | .error err => objection err

namespace Settles

variable {ε α γ : Type} {check : Except ε α} {objection objection' : ε → Prop}

theorem congr (h : Settles check objection) (hiff : ∀ err, objection' err ↔ objection err) :
    Settles check objection' := by
  rwa [funext fun err => propext (hiff err)]

theorem of_error (h : Settles check objection) {err : ε} (herr : check = .error err) :
    objection err := by
  rw [herr] at h
  exact h

/-- What is checked first may be reported although more speaks against the same thing. -/
theorem bind {next : α → Except ε γ} (h : Settles check objection)
    (hnext : ∀ a, check = .ok a → Settles (next a) objection') :
    Settles (check >>= next) fun err => objection err ∨ objection' err := by
  cases check with
  | error err => exact Or.inl h
  | ok a =>
    show Settles (next a) _
    refine (hnext a rfl).congr fun err => or_iff_right (h err)

theorem map (h : Settles check objection) (f : α → γ) : Settles (check.map f) objection := by
  cases check <;> exact h

theorem pass (a : α) : Settles (Except.ok a) fun _ : ε => False := fun _ => id

/-- A condition that is reported by one error. -/
theorem guard (p : Prop) [Decidable p] (err : ε) :
    Settles (if p then Except.error err else Except.ok ()) fun err' => p ∧ err' = err := by
  by_cases hp : p
  · rw [if_pos hp]
    exact ⟨hp, rfl⟩
  · rw [if_neg hp]
    exact fun _ h => hp h.1

end Settles

/-! ## Operators -/

variable {β : Type}

/-- **A method that claims to be an operator** and is none. -/
def Method.IsStrayOperator (m : Method β) : Prop :=
  ∃ token, operatorToken? m.name = some token ∧ BinaryOp.ofToken? token = none

/-- The methods of a definition are refused by a stray operator among them. -/
theorem settles_collectOperators (methods : List (Method β)) :
    Settles (collectOperators methods) fun label =>
      ∃ m ∈ methods, m.IsStrayOperator ∧ label = m.name.label := by
  induction methods with
  | nil => exact fun _ ⟨_, hm, _⟩ => absurd hm List.not_mem_nil
  | cons m methods ih =>
    -- A method that is no stray operator leaves the matter to the others.
    have hrest : ¬ m.IsStrayOperator → ∀ label,
        (∃ x ∈ m :: methods, x.IsStrayOperator ∧ label = x.name.label) ↔
          ∃ x ∈ methods, x.IsStrayOperator ∧ label = x.name.label := by
      intro hm label
      simp only [List.mem_cons, exists_eq_or_imp, hm, false_and, false_or]
    unfold collectOperators
    split
    · rename_i hnone
      refine ih.congr (hrest ?_)
      rintro ⟨token, htoken, -⟩
      rw [hnone] at htoken
      cases htoken
    · rename_i token htoken
      split
      · rename_i hop
        exact ⟨m, List.mem_cons_self, ⟨token, htoken, hop⟩, rfl⟩
      · rename_i op hop
        refine Settles.congr (ih.map _) (hrest ?_)
        rintro ⟨token', htoken', hop'⟩
        rw [htoken] at htoken'
        cases htoken'
        rw [hop] at hop'
        cases hop'

namespace Registry

/-! ## What speaks against a definition -/

/-- **A supertype that cannot be extended**: its name denotes nothing, or a final type. -/
inductive UnfitSupertype (r : Registry β) (name : String) (d : TypeDef β) : TypeError → Prop
  | unknown {sup : String} : d.supertype = some sup → r.lookup sup = none →
      UnfitSupertype r name d (.unknownSupertype name sup)
  | final {sup : String} {id : TypeId} {d' : TypeDef β} : d.supertype = some sup →
      r.lookup sup = some id → r.definition? id = some d' → d'.isFinal = true →
      UnfitSupertype r name d (.finalSupertype name (r.name id))

/-- **Methods that cannot stand**: one claims to be an operator and is none. -/
inductive UnfitMethods (name : String) (d : TypeDef β) : TypeError → Prop
  | operator {m : Method β} : m ∈ d.methods → m.IsStrayOperator →
      UnfitMethods name d (.invalidOperator name m.name.label)

/-- **What speaks against a registration.** -/
inductive AgainstRegistration (r : Registry β) (d : TypeDef β) : TypeError → Prop
  | duplicate {x : TypeId} : x.index < r.size → r.name x = d.qualifiedName →
      AgainstRegistration r d (.duplicateType d.qualifiedName)
  /-- the supertype is written as the type is -/
  | itself {sup : String} : d.supertype = some sup → sup = d.qualifiedName ∨ sup = d.name →
      AgainstRegistration r d (.cyclicSupertype d.qualifiedName sup)
  | supertype {err : TypeError} : r.UnfitSupertype d.qualifiedName d err →
      AgainstRegistration r d err
  | methods {err : TypeError} : UnfitMethods d.qualifiedName d err → AgainstRegistration r d err
  | full : capacity ≤ r.size → AgainstRegistration r d (.tooManyTypes d.qualifiedName)

/-- **What speaks against a redefinition.** -/
inductive AgainstRedefinition (r : Registry β) (typeName : String) (d : TypeDef β) :
    TypeError → Prop
  | unknown : r.lookup typeName = none → AgainstRedefinition r typeName d (.unknownType typeName)
  | renamed {id : TypeId} : r.lookup typeName = some id → d.qualifiedName ≠ r.name id →
      AgainstRedefinition r typeName d (.renamed (r.name id) d.qualifiedName)
  | supertype {id : TypeId} {err : TypeError} : r.lookup typeName = some id →
      r.UnfitSupertype (r.name id) d err → AgainstRedefinition r typeName d err
  /-- the supertype is the type or below it -/
  | cyclic {id supId : TypeId} {sup : String} : r.lookup typeName = some id →
      d.supertype = some sup → r.lookup sup = some supId → r.isSubtypeOf supId id = true →
      AgainstRedefinition r typeName d (.cyclicSupertype (r.name id) (r.name supId))
  /-- the type has a subtype and would become final -/
  | extended {id sub : TypeId} : r.lookup typeName = some id → d.isFinal = true →
      r.firstSubtype? id = some sub →
      AgainstRedefinition r typeName d (.finalSupertype (r.name sub) (r.name id))
  | methods {id : TypeId} {err : TypeError} : r.lookup typeName = some id →
      UnfitMethods (r.name id) d err → AgainstRedefinition r typeName d err

variable {r r' : Registry β} {id x : TypeId} {d : TypeDef β} {name : String}

/-! ## What is checked -/

/-- A name that denotes a type which may be extended, or that does not. -/
theorem settles_resolveSupertype {sup : String} (hsup : d.supertype = some sup) :
    Settles (r.resolveSupertype name sup) (r.UnfitSupertype name d) := by
  unfold resolveSupertype
  split
  · rename_i hnone
    exact .unknown hsup hnone
  · rename_i id hid
    split
    · rename_i hfinal
      obtain ⟨d', hd', hfinal⟩ := (Option.any_eq_true _ _).mp hfinal
      exact .final hsup hid hd' hfinal
    · rename_i hopen
      intro err herr
      cases herr with
      | unknown hsup' hnone =>
        rw [hsup] at hsup'
        cases hsup'
        rw [hid] at hnone
        cases hnone
      | final hsup' hid' hd' hfinal =>
        rw [hsup] at hsup'
        cases hsup'
        rw [hid] at hid'
        cases hid'
        exact hopen ((Option.any_eq_true _ _).mpr ⟨_, hd', hfinal⟩)

theorem lookup_of_resolveSupertype {sup : String} (h : r.resolveSupertype name sup = .ok id) :
    r.lookup sup = some id := by
  unfold resolveSupertype at h
  split at h
  · cases h
  · rename_i hid
    split at h
    · cases h
    · cases h
      exact hid

/-- Without a supertype none can be unfit. -/
theorem not_unfitSupertype (hnone : d.supertype = none) (err : TypeError) :
    ¬ r.UnfitSupertype name d err := by
  rintro (⟨hsup, -⟩ | ⟨hsup, -⟩)
  all_goals
    rw [hnone] at hsup
    cases hsup

/-- Whether a type would extend itself, by the text of its supertype. -/
theorem settles_newSupertype : Settles (r.newSupertype d) fun err =>
    (∃ sup, d.supertype = some sup ∧ (sup = d.qualifiedName ∨ sup = d.name) ∧
      err = .cyclicSupertype d.qualifiedName sup) ∨ r.UnfitSupertype d.qualifiedName d err := by
  unfold newSupertype
  split
  · rename_i hnone
    rintro err (⟨sup, hsup, -⟩ | hunfit)
    · rw [hnone] at hsup
      cases hsup
    · exact not_unfitSupertype hnone err hunfit
  · rename_i sup hsup
    split
    · rename_i hself
      exact .inl ⟨sup, hsup, hself, rfl⟩
    · rename_i hother
      refine ((settles_resolveSupertype hsup).map some).congr fun err => or_iff_right ?_
      rintro ⟨sup', hsup', hself, -⟩
      rw [hsup] at hsup'
      cases hsup'
      exact hother hself

/-- Whether a type that is there already would come below itself. -/
theorem settles_replacedSupertype : Settles (r.replacedSupertype id d) fun err =>
    r.UnfitSupertype (r.name id) d err ∨ ∃ sup supId, d.supertype = some sup ∧
      r.lookup sup = some supId ∧ r.isSubtypeOf supId id = true ∧
      err = .cyclicSupertype (r.name id) (r.name supId) := by
  unfold replacedSupertype
  split
  · rename_i hnone
    rintro err (hunfit | ⟨sup, -, hsup, -⟩)
    · exact not_unfitSupertype hnone err hunfit
    · rw [hnone] at hsup
      cases hsup
  · rename_i sup hsup
    refine (settles_resolveSupertype hsup).bind fun supId hres => ?_
    have hlookup : r.lookup sup = some supId := lookup_of_resolveSupertype hres
    -- The name of the supertype and the type that it denotes are known here.
    have honly : ∀ err : TypeError,
        (∃ sup supId, d.supertype = some sup ∧ r.lookup sup = some supId ∧
          r.isSubtypeOf supId id = true ∧ err = .cyclicSupertype (r.name id) (r.name supId)) ↔
          r.isSubtypeOf supId id = true ∧ err = .cyclicSupertype (r.name id) (r.name supId) := by
      intro err
      constructor
      · rintro ⟨sup', supId', hsup', hlookup', hbelow⟩
        rw [hsup] at hsup'
        cases hsup'
        rw [hlookup] at hlookup'
        cases hlookup'
        exact hbelow
      · exact fun hbelow => ⟨sup, supId, hsup, hlookup, hbelow⟩
    refine Settles.congr ?_ honly
    split
    · rename_i hbelow
      exact ⟨hbelow, rfl⟩
    · rename_i hother
      exact fun err h => hother h.1

/-- The methods of a definition under a name. -/
theorem settles_resolveOperators : Settles (resolveOperators name d) (UnfitMethods name d) := by
  have hcollect := settles_collectOperators d.methods
  unfold resolveOperators
  split
  · rename_i hok
    rw [hok] at hcollect
    rintro err ⟨hm, hstray⟩
    exact hcollect _ ⟨_, hm, hstray, rfl⟩
  · rename_i hlabel
    rw [hlabel] at hcollect
    obtain ⟨m, hm, hstray, rfl⟩ := hcollect
    exact .operator hm hstray

/-- The checks of a registration, one after the other. -/
theorem register_eq : r.register d =
    (if r.byName.contains d.qualifiedName then .error (.duplicateType d.qualifiedName)
      else .ok ()) >>= fun _ => r.newSupertype d >>= fun supertype =>
    resolveOperators d.qualifiedName d >>= fun operators =>
    (if capacity ≤ r.size then .error (.tooManyTypes d.qualifiedName) else .ok ()) >>= fun _ =>
    .ok (⟨r.size⟩, r.append { definition := d, supertype, operators }) := by
  unfold register
  by_cases htaken : r.byName.contains d.qualifiedName = true
  · simp only [if_pos htaken]
    rfl
  · by_cases hfull : capacity ≤ r.size
    · simp only [if_neg htaken, if_pos hfull]
      rfl
    · simp only [if_neg htaken, if_neg hfull]
      rfl

/-- The checks of a redefinition, one after the other. -/
theorem redefine_eq {typeName : String} : r.redefine typeName d =
    match r.lookup typeName with
    | none => .error (.unknownType typeName)
    | some id =>
      (if d.qualifiedName ≠ r.name id then .error (.renamed (r.name id) d.qualifiedName)
        else .ok ()) >>= fun _ => r.replacedSupertype id d >>= fun supertype =>
      (match if d.isFinal then r.firstSubtype? id else none with
        | some sub => .error (.finalSupertype (r.name sub) (r.name id))
        | none => .ok ()) >>= fun _ =>
      resolveOperators (r.name id) d >>= fun operators =>
      .ok (id, r.replace id d supertype operators) := by
  unfold redefine
  cases r.lookup typeName with
  | none => rfl
  | some id =>
    by_cases hname : d.qualifiedName ≠ r.name id
    · simp only [if_pos hname]
      rfl
    · simp only [if_neg hname]
      refine congrArg (r.replacedSupertype id d >>= ·) (funext fun supertype => ?_)
      cases d.isFinal with
      | false => rfl
      | true => cases r.firstSubtype? id <;> rfl

/-- **A registration is refused for one of the objections** if there is any. -/
theorem settles_register (hr : r.Grounded) (h : r.Indexed) :
    Settles (r.register d) (r.AgainstRegistration d) := by
  have hname : r.byName.contains d.qualifiedName = true ↔
      ∃ x : TypeId, x.index < r.size ∧ r.name x = d.qualifiedName := by
    rw [Association.contains, Option.isSome_iff_exists]
    constructor
    · rintro ⟨x, hx⟩
      exact ⟨x, hr.names hx, h.names hx⟩
    · rintro ⟨x, hx, heq⟩
      exact ⟨x, heq ▸ h.listed hx⟩
  rw [register_eq]
  refine Settles.congr ((Settles.guard _ _).bind fun _ _ => settles_newSupertype.bind fun _ _ =>
    settles_resolveOperators.bind fun _ _ => (Settles.guard _ _).bind fun _ _ =>
    Settles.pass _) fun err => ?_
  constructor
  · rintro (⟨hx, hsame⟩ | ⟨hsup, hself⟩ | hunfit | hunfit | hfull)
    · exact .inl ⟨hname.mpr ⟨_, hx, hsame⟩, rfl⟩
    · exact .inr (.inl (.inl ⟨_, hsup, hself, rfl⟩))
    · exact .inr (.inl (.inr hunfit))
    · exact .inr (.inr (.inl hunfit))
    · exact .inr (.inr (.inr (.inl ⟨hfull, rfl⟩)))
  · rintro (⟨htaken, rfl⟩ | (⟨sup, hsup, hself, rfl⟩ | hunfit) | hunfit | ⟨hfull, rfl⟩ | ⟨⟨⟩⟩)
    · obtain ⟨x, hx, hsame⟩ := hname.mp htaken
      exact .duplicate hx hsame
    · exact .itself hsup hself
    · exact .supertype hunfit
    · exact .methods hunfit
    · exact .full hfull

/-- **A redefinition is refused for one of the objections** if there is any. -/
theorem settles_redefine {typeName : String} :
    Settles (r.redefine typeName d) (r.AgainstRedefinition typeName d) := by
  rw [redefine_eq]
  cases hid : r.lookup typeName with
  | none => exact .unknown hid
  | some id =>
    have hextended : Settles (match if d.isFinal then r.firstSubtype? id else none with
        | some sub => Except.error (.finalSupertype (r.name sub) (r.name id))
        | none => .ok ()) fun err : TypeError => ∃ sub, d.isFinal = true ∧
          r.firstSubtype? id = some sub ∧ err = .finalSupertype (r.name sub) (r.name id) := by
      split
      · rename_i sub hsub
        split at hsub
        · rename_i hfinal
          exact ⟨sub, hfinal, hsub, rfl⟩
        · cases hsub
      · rename_i hnone
        rintro err ⟨sub, hfinal, hsub, -⟩
        rw [if_pos hfinal, hsub] at hnone
        cases hnone
    -- The checks are chained as they are made; what remains is to sort the objections.
    refine Settles.congr ((Settles.guard _ _).bind fun _ _ => settles_replacedSupertype.bind
      fun _ _ => hextended.bind fun _ _ => settles_resolveOperators.bind fun _ _ =>
      Settles.pass _) fun err => ?_
    have hsame : ∀ {x}, r.lookup typeName = some x → x = id := fun hx =>
      Option.some.inj (hx.symm.trans hid)
    constructor
    · rintro (hnone | ⟨hx, hother⟩ | ⟨hx, hunfit⟩ | ⟨hx, hsup, hlookup, hbelow⟩ |
        ⟨hx, hfinal, hsub⟩ | ⟨hx, hunfit⟩)
      · rw [hid] at hnone
        cases hnone
      all_goals obtain rfl := hsame hx
      · exact .inl ⟨hother, rfl⟩
      · exact .inr (.inl (.inl hunfit))
      · exact .inr (.inl (.inr ⟨_, _, hsup, hlookup, hbelow, rfl⟩))
      · exact .inr (.inr (.inl ⟨_, hfinal, hsub, rfl⟩))
      · exact .inr (.inr (.inr (.inl hunfit)))
    · rintro (⟨hother, rfl⟩ | (hunfit | ⟨sup, supId, hsup, hlookup, hbelow, rfl⟩) |
        ⟨sub, hfinal, hsub, rfl⟩ | hunfit | ⟨⟨⟩⟩)
      · exact .renamed hid hother
      · exact .supertype hid hunfit
      · exact .cyclic hid hsup hlookup hbelow
      · exact .extended hid hfinal hsub
      · exact .methods hid hunfit

/-! ## What is taken over -/

/-- **What a registration changes**: there is one record more, with the next handle. -/
structure Registered (r : Registry β) (d : TypeDef β) (id : TypeId) (r' : Registry β) : Prop where
  next : id = ⟨r.size⟩
  size : r'.size = r.size + 1
  epoch : r'.epoch = r.epoch + 1
  others : ∀ x, x ≠ id → r'.record? x = r.record? x
  record : ∃ operators, collectOperators d.methods = .ok operators ∧
    r'.record? id = some
      { definition := d, supertype := d.supertype.bind r.lookup, operators, generation := 0 }
  /-- the type answers to its qualified name, and all others to theirs -/
  names : ∀ qualifiedName, r'.byName.get? qualifiedName =
    if qualifiedName = d.qualifiedName then some id else r.byName.get? qualifiedName

/-- **What a redefinition changes**: the record of the type that is denoted, and all of it. -/
structure Redefined (r : Registry β) (typeName : String) (d : TypeDef β) (id : TypeId)
    (r' : Registry β) : Prop where
  denoted : r.lookup typeName = some id
  size : r'.size = r.size
  epoch : r'.epoch = r.epoch + 1
  others : ∀ x, x ≠ id → r'.record? x = r.record? x
  record : ∃ old operators, r.record? id = some old ∧ collectOperators d.methods = .ok operators ∧
    r'.record? id = some { definition := d, supertype := d.supertype.bind r.lookup, operators,
                           generation := old.generation + 1 }
  name : ∀ x, r'.name x = r.name x
  lookup : ∀ name, r'.lookup name = r.lookup name

theorem collectOperators_of_resolve {operators : List (BinaryOp × Method β)}
    (h : resolveOperators name d = .ok operators) : collectOperators d.methods = .ok operators := by
  unfold resolveOperators at h
  split at h
  · rename_i hok
    cases h
    exact hok
  · cases h

theorem eq_lookup_of_newSupertype {supertype : Option TypeId}
    (h : r.newSupertype d = .ok supertype) : supertype = d.supertype.bind r.lookup := by
  unfold newSupertype at h
  split at h
  · rename_i hnone
    cases h
    rw [hnone]
    rfl
  · rename_i sup hsup
    split at h
    · cases h
    · cases hres : r.resolveSupertype d.qualifiedName sup with
      | error err =>
        rw [hres] at h
        cases h
      | ok x =>
        rw [hres] at h
        cases h
        rw [hsup]
        exact (lookup_of_resolveSupertype hres).symm

theorem eq_lookup_of_replacedSupertype {supertype : Option TypeId}
    (h : r.replacedSupertype id d = .ok supertype) : supertype = d.supertype.bind r.lookup := by
  unfold replacedSupertype at h
  split at h
  · rename_i hnone
    cases h
    rw [hnone]
    rfl
  · rename_i sup hsup
    cases hres : r.resolveSupertype (r.name id) sup with
    | error err =>
      rw [hres] at h
      cases h
    | ok x =>
      simp only [hres, bind, Except.bind] at h
      split at h
      · cases h
      · cases h
        rw [hsup]
        exact (lookup_of_resolveSupertype hres).symm

theorem registered_of_register (h : r.register d = .ok (id, r')) : r.Registered d id r' := by
  obtain ⟨supertype, operators, hnew, hsup, hops, rfl, rfl⟩ := register_cases h
  refine ⟨rfl, size_append _, rfl, fun x hx => ?_, ⟨operators, ?_, ?_⟩, fun qualifiedName => ?_⟩
  · rw [record?_append, if_neg fun heq => hx (congrArg TypeId.mk heq)]
  · exact collectOperators_of_resolve hops
  · rw [record?_append, if_pos rfl, eq_lookup_of_newSupertype hsup]
  · show (r.byName.insert d.qualifiedName ⟨r.size⟩).get? qualifiedName = _
    split
    · rename_i heq
      rw [heq, Association.get?_insert_self]
    · rename_i hne
      rw [Association.get?_insert_of_ne _ hne]

theorem redefined_of_redefine (hr : r.Grounded) {typeName : String}
    (h : r.redefine typeName d = .ok (id, r')) : r.Redefined typeName d id r' := by
  obtain ⟨supertype, operators, hlookup, hname, hsup, -, hops, rfl⟩ := redefine_cases h
  have hid := hr.lookup_lt hlookup
  have hold : r.record? id = some r.records[id.index] := List.getElem?_eq_getElem hid
  refine ⟨hlookup, size_replace _ _ _, rfl, fun x hx => ?_,
    ⟨_, operators, hold, collectOperators_of_resolve hops, ?_⟩,
    name_replace supertype operators hid hname, fun _ => rfl⟩
  · rw [record?_replace, if_neg hx]
  · rw [record?_replace, if_pos rfl, hold, eq_lookup_of_replacedSupertype hsup]
    rfl

end Registry

/-! ## Changes in a world -/

variable {σ : Type} {w : World β σ}

/-- **How a change of the types ends** in a world: it is refused by an objection that there is, and
the world is as it was, or there is no objection, and of the world only the types are others. -/
inductive RefusedOrMade (w : World β σ) (objection : TypeError → Prop)
    (made : TypeId → Registry β → Prop) : Option (Except ModelError TypeId × World β σ) → Prop
  | refused {err : TypeError} : objection err →
      RefusedOrMade w objection made (some (.error (.type err), w))
  | made {id : TypeId} {types : Registry β} : (∀ err, ¬ objection err) → made id types →
      RefusedOrMade w objection made (some (.ok id, { w with model := { w.model with types } }))

namespace RefusedOrMade

variable {objection : TypeError → Prop} {made : TypeId → Registry β → Prop}
  {outcome : Option (Except ModelError TypeId × World β σ)}

theorem of_ok (h : RefusedOrMade w objection made outcome) (id : TypeId)
    (hok : outcome.bind (·.1.toOption) = some id) : ∃ types, made id types ∧
      outcome = some (.ok id, { w with model := { w.model with types } }) := by
  cases h with
  | refused _ => cases hok
  | made _ hmade =>
    cases hok
    exact ⟨_, hmade, rfl⟩

theorem of_error (h : RefusedOrMade w objection made outcome) {err : ModelError}
    (herr : outcome.map Prod.fst = some (.error err)) : outcome = some (.error err, w) := by
  cases h with
  | refused _ =>
    cases herr
    rfl
  | made _ _ => cases herr

end RefusedOrMade

theorem refusedOrMade_changeTypes
    (change : Registry β → Except TypeError (TypeId × Registry β)) {objection : TypeError → Prop}
    {made : TypeId → Registry β → Prop} (hsettles : Settles (change w.model.types) objection)
    (hmade : ∀ {id types}, change w.model.types = .ok (id, types) → made id types) :
    RefusedOrMade w objection made ((Engine.changeTypes change : Action β σ TypeId).outcome w) := by
  unfold Engine.changeTypes
  rw [Action.outcome_bind_ok (a := w.model) rfl]
  cases hchange : change w.model.types with
  | error err =>
    rw [hchange] at hsettles
    exact .refused hsettles
  | ok result =>
    rw [hchange] at hsettles
    exact .made hsettles (hmade hchange)

/-- **Types change as a whole**, whatever the registry has been through.  A registration that
anything speaks against is refused for that, and so is a redefinition; the world is as it was then.
Any other one is made: the epoch is the next one, and one record is new or replaced, with the
definition and all that is resolved from it. -/
theorem Language.types_change_whole (L : Language β σ) (allowance : Nat)
    {changes : List (TypeChange β)} (hw : w.model.types = Registry.after changes) :
    (∀ d, RefusedOrMade w (w.model.types.AgainstRegistration d) (w.model.types.Registered d)
      ((perform L (allowance + 1) (.register d)).outcome w)) ∧
    ∀ typeName d, RefusedOrMade w (w.model.types.AgainstRedefinition typeName d)
      (w.model.types.Redefined typeName d)
      ((perform L (allowance + 1) (.redefine typeName d)).outcome w) := by
  have hgrounded : w.model.types.Grounded := hw ▸ Registry.grounded_after changes
  have hindexed : w.model.types.Indexed := hw ▸ Registry.indexed_after changes
  constructor
  · intro d
    exact refusedOrMade_changeTypes (·.register d)
      (Registry.settles_register hgrounded hindexed) Registry.registered_of_register
  · intro typeName d
    exact refusedOrMade_changeTypes (·.redefine typeName d)
      Registry.settles_redefine (Registry.redefined_of_redefine hgrounded)

namespace Catalogue

/-- A language whose bodies do nothing. -/
def language : Language Unit Unit where
  method _ _ := .pure .void
  rule _ _ := .pure .accept
  evaluate _ _ _ := .pure ()
  inspect _ _ := .pure ()
  transformed _ _ _ host := host

/-- A base type and a final one that extends it. -/
def changes : List (TypeChange Unit) :=
  [.register { name := "Chair", supertype := some "Seat", isFinal := true },
    .register { name := "Seat" }]

def world : World Unit Unit where
  model := { types := Registry.after changes }
  host := ()

/-- `Table` is registered without a supertype, `Seat` is redefined to have a method, and neither can
`Stool` extend `Chair` nor `Seat` become final. -/
theorem types_change_whole_catalogue :
    let method : Method Unit := { name := ⟨"height"⟩, body := () }
    let table : TypeDef Unit := { name := "Table" }
    let stool : TypeDef Unit := { name := "Stool", supertype := some "Chair" }
    let seat : TypeDef Unit := { name := "Seat", methods := [method] }
    let finalSeat : TypeDef Unit := { name := "Seat", isFinal := true }
    world.model.types = Registry.after changes ∧
      (∃ types, world.model.types.Registered table ⟨2⟩ types ∧ types.epoch = 3 ∧
        (perform language 1 (.register table)).outcome world =
          some (.ok ⟨2⟩, { world with model := { world.model with types } })) ∧
      (∃ types, world.model.types.Redefined "Seat" seat ⟨0⟩ types ∧ types.epoch = 3 ∧
        (perform language 1 (.redefine "Seat" seat)).outcome world =
          some (.ok ⟨0⟩, { world with model := { world.model with types } })) ∧
      (perform language 1 (.register stool)).outcome world =
        some (.error (.type (.finalSupertype "Stool" "Chair")), world) ∧
      (perform language 1 (.redefine "Seat" finalSeat)).outcome world =
        some (.error (.type (.finalSupertype "Chair" "Seat")), world) := by
  intro method table stool seat finalSeat
  have hworld : world.model.types = Registry.after changes := rfl
  have hwhole := Language.types_change_whole language 0 hworld
  have hepoch : world.model.types.epoch = 2 := by decide +kernel
  refine ⟨rfl, ?_, ?_, (hwhole.1 stool).of_error (by rfl),
    (hwhole.2 "Seat" finalSeat).of_error (by rfl)⟩
  · obtain ⟨types, hmade, hends⟩ := (hwhole.1 table).of_ok ⟨2⟩ (by decide +kernel)
    exact ⟨types, hmade, by rw [hmade.epoch, hepoch], hends⟩
  · obtain ⟨types, hmade, hends⟩ := (hwhole.2 "Seat" seat).of_ok ⟨0⟩ (by decide +kernel)
    exact ⟨types, hmade, by rw [hmade.epoch, hepoch], hends⟩

end Catalogue

end ProductModel
