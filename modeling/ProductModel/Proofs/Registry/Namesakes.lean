import ProductModel.Proofs.Registry.Hierarchy

/-!
# Types that share a name

A registration is refused as cyclic if the supertype is written as the new type is, by its name or
by its qualified name.  That is decided by the texts alone, although the same text may denote a type
that is registered already: one of that name in no package, or the only one that goes by it in
another package.  `Registry.cyclic_only_by_text` says when a registration is refused so, and what
the refusal may hide: either the supertype's name denotes nothing, or it denotes a namesake, which
is another type and could be extended without closing a cycle.

## Design

Both indices say the truth about the names of types (`Registry.Indexed`): a qualified name leads to
the type that bears it and to no other, and a short name leads to types that go by it.  The name of
a type is the one that it was registered under, since a redefinition keeps it; this is why a type
goes by a short name for as long as it is there (`GoesBy`), although its definition may come to
divide the same qualified name in another way.
-/

namespace ProductModel

/-- A type of a qualified name **goes by** a short name: it is the whole name, or what follows the
package. -/
def GoesBy (qualified short : String) : Prop :=
  qualified = short ∨ ∃ package, qualified = package ++ "::" ++ short

/-- A type goes by its name. -/
theorem TypeDef.goesBy_name {β : Type} (d : TypeDef β) : GoesBy d.qualifiedName d.name := by
  unfold TypeDef.qualifiedName
  split
  · exact .inl rfl
  · exact .inr ⟨d.package, rfl⟩

namespace Registry

variable {β : Type}

/-- **The indices say the truth.** -/
structure Indexed (r : Registry β) : Prop where
  /-- a registered type is found under its qualified name -/
  listed : ∀ {id}, id.index < r.size → r.byName.get? (r.name id) = some id
  /-- a qualified name leads to the type that bears it -/
  names : ∀ {name id}, r.byName.get? name = some id → r.name id = name
  /-- a short name leads to types that go by it -/
  shortNames : ∀ {name ids}, r.byShort.get? name = some ids → ∀ id ∈ ids, GoesBy (r.name id) name

variable {r r' : Registry β} {id : TypeId} {d : TypeDef β} {name : String}

/-! ## The indices through changes -/

theorem name_append_self (record : RegisteredType β) :
    (r.append record).name ⟨r.size⟩ = record.definition.qualifiedName := by
  unfold Registry.name definition?
  rw [record?_append, if_pos rfl]
  rfl

theorem name_append_of_lt (record : RegisteredType β) (hid : id.index < r.size) :
    (r.append record).name id = r.name id := by
  unfold Registry.name
  rw [definition?_append record (Nat.ne_of_lt hid)]

/-- **A new type** of a new name is indexed with the others. -/
theorem Indexed.append (h : r.Indexed) (hr : r.Grounded) {record : RegisteredType β}
    (hnew : r.byName.get? record.definition.qualifiedName = none) :
    (r.append record).Indexed where
  listed {id} hid := by
    rw [size_append] at hid
    show (r.byName.insert record.definition.qualifiedName ⟨r.size⟩).get? _ = some id
    rcases Nat.lt_succ_iff_lt_or_eq.mp hid with hlt | heq
    · have hold := h.listed hlt
      rw [name_append_of_lt record hlt, Association.get?_insert_of_ne, hold]
      rintro hsame
      rw [hsame, hnew] at hold
      cases hold
    · obtain rfl : id = ⟨r.size⟩ := congrArg TypeId.mk heq
      rw [name_append_self, Association.get?_insert_self]
  names {name id} hname := by
    rcases byName_append hname with ⟨rfl, rfl⟩ | hold
    · exact name_append_self record
    · rw [name_append_of_lt record (hr.names hold), h.names hold]
  shortNames {name ids} hids id hid := by
    rcases byShort_append hids hid with ⟨rfl, rfl⟩ | ⟨ids, hold, hid⟩
    · rw [name_append_self]
      exact record.definition.goesBy_name
    · rw [name_append_of_lt record (hr.shortNames hold id hid)]
      exact h.shortNames hold id hid

/-- **A redefined type keeps its name**, and so do all others. -/
theorem name_replace (supertype : Option TypeId) (operators : List (BinaryOp × Method β))
    (hid : id.index < r.size) (hname : d.qualifiedName = r.name id) (x : TypeId) :
    (r.replace id d supertype operators).name x = r.name x := by
  unfold Registry.name at hname ⊢
  rw [definition?_replace d supertype operators hid]
  split
  · rename_i hx
    rw [hx]
    exact hname
  · rfl

theorem Indexed.replace (h : r.Indexed) (supertype : Option TypeId)
    (operators : List (BinaryOp × Method β)) (hid : id.index < r.size)
    (hname : d.qualifiedName = r.name id) : (r.replace id d supertype operators).Indexed := by
  have hsame := name_replace supertype operators hid hname
  refine ⟨fun {x} hx => ?_, fun {name x} hx => ?_, fun {name ids} hids x hx => ?_⟩
  · rw [size_replace] at hx
    rw [hsame]
    exact h.listed hx
  · rw [hsame]
    exact h.names hx
  · rw [hsame]
    exact h.shortNames hids x hx

theorem indexed_empty : (empty : Registry β).Indexed where
  listed h := absurd h (Nat.not_lt_zero _)
  names h := by cases h
  shortNames h := by cases h

/-- **Every change keeps the indices true.** -/
theorem Indexed.changed (h : r.Indexed) (hr : r.Grounded) (c : TypeChange β) :
    (r.changed c).Indexed := by
  refine holds_changed c h (fun hc => ?_) fun hc => ?_
  · obtain ⟨supertype, operators, hnew, -, -, -, rfl⟩ := register_cases hc
    exact h.append hr hnew
  · obtain ⟨supertype, operators, hlookup, hname, -, -, -, rfl⟩ := redefine_cases hc
    exact h.replace supertype operators (hr.lookup_lt hlookup) hname

theorem indexed_after (changes : List (TypeChange β)) : (after changes).Indexed := by
  induction changes with
  | nil => exact indexed_empty
  | cons c changes ih => exact ih.changed (grounded_after changes) c

/-! ## What a name denotes -/

/-- What a name denotes goes by it. -/
theorem Indexed.goesBy_of_lookup (h : r.Indexed) (hid : r.lookup name = some id) :
    GoesBy (r.name id) name := by
  unfold lookup at hid
  split at hid
  · rename_i hname
    cases hid
    exact .inl (h.names hname)
  · split at hid
    · rename_i hshort
      cases hid
      exact h.shortNames hshort _ (List.mem_singleton.mpr rfl)
    · cases hid

/-- A registered type has none of the names that are new. -/
theorem Indexed.name_ne (h : r.Indexed) (hid : id.index < r.size)
    (hnew : r.byName.get? name = none) : r.name id ≠ name := by
  rintro rfl
  rw [h.listed hid] at hnew
  cases hnew

/-- A registered type is what its name denotes. -/
theorem Indexed.lookup_name (h : r.Indexed) (hid : id.index < r.size) :
    r.lookup (r.name id) = some id := by
  rw [lookup, h.listed hid]

/-! ## Refused registrations -/

/-- Whatever is above a type and is not that type is the supertype of some type. -/
theorem Upward.is_supertype {way : List TypeId} {x : TypeId} (h : r.Upward id way) (hx : x ∈ way)
    (hne : x ≠ id) : ∃ y, r.supertype y = some x := by
  induction h with
  | top _ => exact absurd (List.mem_singleton.mp hx) hne
  | @step id sup way hsup _ ih =>
    rcases List.mem_cons.mp hx with rfl | hx
    · exact absurd rfl hne
    · by_cases hsame : x = sup
      · exact ⟨id, hsame ▸ hsup⟩
      · exact ih hx hsame

/-- A new type without supertype has no subtypes. -/
theorem Grounded.supertype_ne_append (hr : r.Grounded) {record : RegisteredType β}
    (hnone : record.supertype = none) (x : TypeId) :
    (r.append record).supertype x ≠ some ⟨r.size⟩ := by
  intro hx
  rw [supertype_append] at hx
  split at hx
  · rw [hnone] at hx
    cases hx
  · exact Nat.lt_irrefl _ (hr.supertypes hx)

/-- A type that is the supertype of none is found to have no subtypes. -/
theorem firstSubtype?_eq_none (h : ∀ x, r.supertype x ≠ some id) : r.firstSubtype? id = none := by
  rw [firstSubtype?, Option.map_eq_none_iff, List.findIdx?_eq_none_iff]
  intro record hrecord
  obtain ⟨i, hi, rfl⟩ := List.mem_iff_getElem.mp hrecord
  have hne := h ⟨i⟩
  rw [Registry.supertype, record?, List.getElem?_eq_getElem hi] at hne
  simpa using hne

/-- **A type without subtypes may be redefined to extend any other** that is not final. -/
theorem redefine_childless (hr : r.Grounded) (h : r.Indexed) {x : TypeId} (hx : x.index < r.size)
    (hchildless : ∀ y, r.supertype y ≠ some x) (hname : r.name x = d.qualifiedName)
    (hid : r.Extensible id) (hne : id ≠ x) (hsup : d.supertype = some (r.name id))
    {operators : List (BinaryOp × Method β)}
    (hops : resolveOperators d.qualifiedName d = .ok operators) :
    r.redefine d.qualifiedName d = .ok (x, r.replace x d (some id) operators) := by
  have hlookup : r.lookup d.qualifiedName = some x := hname ▸ h.lookup_name hx
  -- Below a type without subtypes there is only the type itself.
  have hbelow : r.isSubtypeOf id x = false := by
    refine Bool.eq_false_iff.mpr fun hsub => ?_
    obtain ⟨y, hy⟩ := (hr.upward_ancestors id).is_supertype
      (isSubtypeOf_iff_mem_ancestors.mp hsub) hne.symm
    exact hchildless y hy
  have hresolve : r.resolveSupertype (r.name x) (r.name id) = .ok id := by
    unfold resolveSupertype
    rw [h.lookup_name hid.index_lt]
    refine if_neg fun hfinal => ?_
    obtain ⟨d', hd, hfinal⟩ := (Option.any_eq_true _ _).mp hfinal
    exact Bool.eq_false_iff.mp (hid.isOpen hd) hfinal
  have hreplaced : r.replacedSupertype x d = .ok (some id) := by
    simp [replacedSupertype, hsup, hresolve, hbelow, bind, Except.bind, pure, Except.pure]
  simp [redefine, hlookup, hname, hreplaced, firstSubtype?_eq_none hchildless, hops, bind,
    Except.bind, pure, Except.pure]

/-- **A type that was added without supertype may be redefined to extend any other** that is not
final and was there before. -/
theorem redefine_append (hr : r.Grounded) (h : r.Indexed) {record : RegisteredType β}
    (hnone : record.supertype = none) (hname : record.definition.qualifiedName = d.qualifiedName)
    (hnew : r.byName.get? d.qualifiedName = none) (hsup : d.supertype = some (r.name id))
    (hid : r.Extensible id) {operators : List (BinaryOp × Method β)}
    (hops : resolveOperators d.qualifiedName d = .ok operators) :
    (r.append record).redefine d.qualifiedName d =
      .ok (⟨r.size⟩, (r.append record).replace ⟨r.size⟩ d (some id) operators) := by
  have hne := Nat.ne_of_lt hid.index_lt
  have hgrounded : (r.append record).Grounded := hr.append fun sup hx => by
    rw [hnone] at hx
    cases hx
  have hopen : (r.append record).Extensible id :=
    ⟨size_append (r := r) record ▸ Nat.lt_succ_of_lt hid.index_lt, fun hd =>
      hid.isOpen (definition?_append record hne ▸ hd)⟩
  -- The type that was added last has no subtypes yet.
  refine redefine_childless hgrounded (h.append hr (hname ▸ hnew)) ?_
    (hr.supertype_ne_append hnone) ((name_append_self record).trans hname) hopen ?_ ?_ hops
  · rw [size_append]
    exact Nat.lt_succ_self _
  · rintro rfl
    exact hne rfl
  · rw [name_append_of_lt record hid.index_lt, hsup]

/-- **Another type of the supertype's name**, which nothing but its being final forbids to
extend. -/
structure Namesake (r : Registry β) (d : TypeDef β) (sup : String) (id : TypeId) : Prop where
  denoted : r.lookup sup = some id
  isOther : r.name id ≠ d.qualifiedName
  goesBy : GoesBy (r.name id) sup
  /-- with the new type below it the types would be a hierarchy -/
  harmless : r.Extensible id → ∀ operators,
    (r.append { definition := d, supertype := some id, operators }).Hierarchy
  /-- a type of the same definition that is there already may be moved below it -/
  redefinable : r.Extensible id → d.supertype = some (r.name id) → ∀ {new r'},
    r.register { d with supertype := none } = .ok (new, r') → ∃ operators,
      r'.redefine d.qualifiedName d = .ok (new, r'.replace new d (some id) operators)

/-- **What the supertype's name denotes** before a new type is there is another type. -/
theorem namesake_of_lookup (hr : r.Grounded) (h : r.Indexed)
    (hnew : r.byName.get? d.qualifiedName = none) {sup : String} (hid : r.lookup sup = some id) :
    r.Namesake d sup id where
  denoted := hid
  isOther := h.name_ne (hr.lookup_lt hid) hnew
  goesBy := h.goesBy_of_lookup hid
  harmless hext operators := by
    refine (hr.append fun x hx => ?_).hierarchy
    cases hx
    exact hext
  redefinable hext hsup new r' hreg := by
    obtain ⟨supertype, operators, -, hnone, hops, rfl, rfl⟩ := register_cases hreg
    cases hnone
    exact ⟨operators, redefine_append (d := d) hr h rfl rfl hnew hsup hext hops⟩

variable {sup : String}

/-- The search for a supertype knows nothing of cycles. -/
theorem resolveSupertype_ne_cyclic (name' sup' : String) :
    r.resolveSupertype name' sup' ≠ .error (.cyclicSupertype name sup) := by
  intro h
  unfold resolveSupertype at h
  split at h
  · cases h
  · split at h <;> cases h

/-- The supertype of a new type is refused as cyclic by its text alone. -/
theorem newSupertype_cyclic_iff : r.newSupertype d = .error (.cyclicSupertype name sup) ↔
    name = d.qualifiedName ∧ d.supertype = some sup ∧ (sup = d.qualifiedName ∨ sup = d.name) := by
  unfold newSupertype
  split
  · rename_i hnone
    constructor
    · intro h
      cases h
    · rintro ⟨-, hsup, -⟩
      rw [hnone] at hsup
      cases hsup
  · rename_i sup' hsome
    split
    · rename_i hself
      constructor
      · intro h
        cases h
        exact ⟨rfl, hsome, hself⟩
      · rintro ⟨rfl, hsup, -⟩
        rw [hsome] at hsup
        cases hsup
        rfl
    · rename_i hother
      constructor
      · intro h
        cases hres : r.resolveSupertype d.qualifiedName sup' with
        | ok x =>
          rw [hres] at h
          cases h
        | error err =>
          rw [hres] at h
          cases h
          exact absurd hres (resolveSupertype_ne_cyclic _ _)
      · rintro ⟨-, hsup, hself⟩
        rw [hsome] at hsup
        cases hsup
        exact absurd hself hother

/-- Operators are refused by the name of a method. -/
theorem resolveOperators_error {err : TypeError} (h : resolveOperators name d = .error err) :
    ∃ method, err = .invalidOperator name method := by
  unfold resolveOperators at h
  split at h
  · cases h
  · cases h
    exact ⟨_, rfl⟩

/-- **When a registration is refused as cyclic**: the name is new, and the supertype is written as
the new type is. -/
theorem register_cyclic_iff : r.register d = .error (.cyclicSupertype name sup) ↔
    r.byName.get? d.qualifiedName = none ∧
      r.newSupertype d = .error (.cyclicSupertype name sup) := by
  cases hname : r.byName.get? d.qualifiedName with
  | some id =>
    simp [register, Association.contains, hname, bind, Except.bind, throw, throwThe,
      MonadExceptOf.throw]
  | none =>
    cases hsup : r.newSupertype d with
    | error err => simp [register, Association.contains, hname, hsup, bind, Except.bind]
    | ok supertype =>
      -- What is checked after the supertype is refused in other words.
      simp only [register, Association.contains, hname, hsup, bind, Except.bind]
      cases hops : resolveOperators d.qualifiedName d with
      | error err =>
        obtain ⟨method, rfl⟩ := resolveOperators_error hops
        simp
      | ok operators =>
        by_cases hfull : capacity ≤ r.size
        · simp [hfull, throw, throwThe, MonadExceptOf.throw]
        · simp [hfull, pure, Except.pure]

/-- **A registration is refused as cyclic by the text of its supertype alone**, after every sequence
of changes and for every definition of a new name.  Unless that text denotes nothing, it denotes a
namesake: another type, which the new one could extend. -/
theorem cyclic_by_text (changes : List (TypeChange β)) (d : TypeDef β)
    (hnew : (after changes).byName.get? d.qualifiedName = none) (name sup : String) :
    ((after changes).register d = .error (.cyclicSupertype name sup) ↔
      name = d.qualifiedName ∧ d.supertype = some sup ∧
        (sup = d.qualifiedName ∨ sup = d.name)) ∧
    ((after changes).register d = .error (.cyclicSupertype name sup) →
      (after changes).lookup sup = none ∨ ∃ id, (after changes).Namesake d sup id) := by
  refine ⟨?_, fun _ => ?_⟩
  · rw [register_cyclic_iff, newSupertype_cyclic_iff]
    exact and_iff_right hnew
  · cases hid : (after changes).lookup sup with
    | none => exact .inl rfl
    | some id =>
      exact .inr ⟨id, namesake_of_lookup (grounded_after changes) (indexed_after changes) hnew hid⟩

/-- `A` of a package cannot be registered as an extension of the `A` that is in no package. -/
theorem cyclic_by_text_namesake :
    let r : Registry Unit := after [.register { name := "A" }]
    let d : TypeDef Unit := { name := "A", package := "::pkg", supertype := some "A" }
    r.byName.get? d.qualifiedName = none ∧
      r.register d = .error (.cyclicSupertype "::pkg::A" "A") ∧
      r.lookup "A" = some ⟨0⟩ ∧ r.Namesake d "A" ⟨0⟩ := by
  intro r d
  have hnew : r.byName.get? d.qualifiedName = none := by decide +kernel
  have hlookup : r.lookup "A" = some ⟨0⟩ := by decide +kernel
  have hrefused := cyclic_by_text [.register { name := "A" }] d hnew "::pkg::A" "A"
  have herror := hrefused.1.mpr ⟨by decide +kernel, rfl, .inr rfl⟩
  obtain hnone | ⟨id, hid⟩ := hrefused.2 herror
  · rw [hlookup] at hnone
    cases hnone
  · obtain rfl : ⟨0⟩ = id := Option.some.inj (hlookup.symm.trans hid.denoted)
    exact ⟨hnew, herror, hlookup, hid⟩

end Registry

end ProductModel
