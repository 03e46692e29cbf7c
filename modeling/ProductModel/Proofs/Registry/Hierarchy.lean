import ProductModel.Types.Registry

/-!
# The hierarchy of types

Types are registered and redefined in any order, and a redefinition may move a type with all its
subtypes to another place.  After every sequence of such changes, refused ones among them, the types
are a hierarchy (`Registry.hierarchy_after`): supertypes and names lead to types that are there, the
way up from a type ends and comes past no type twice, and no final type is extended.

## Design

The way up from a type is an inductive predicate (`Registry.Upward`), so it ends by what it is.  A
new type has a way up because its supertype has one.  A type that is moved has one because the check
for a cycle compares it with all types on the way up from its new supertype; every other way up
either comes past it, and goes on from there, or is as it was.

The walks of the registry are bounded by the number of types.  A way up has no type twice and
consists of registered types but for its beginning, so the bound is never met
(`Registry.ancestors_eq_of_upward`).
-/

namespace ProductModel

/-- **A change of the types.** -/
inductive TypeChange (β : Type) where
  | register (d : TypeDef β)
  | redefine (typeName : String) (d : TypeDef β)

namespace Registry

variable {β : Type}

/-- Tries a change of the types. -/
def change (r : Registry β) : TypeChange β → Except TypeError (TypeId × Registry β)
  | .register d => r.register d
  | .redefine typeName d => r.redefine typeName d

/-- The registry after a change, or as it was if the change is refused. -/
def changed (r : Registry β) (c : TypeChange β) : Registry β :=
  match r.change c with
  | .ok (_, r') => r'
  | .error _ => r

/-- **The registry after a sequence of changes**, the last one first. -/
def after : List (TypeChange β) → Registry β
  | [] => empty
  | c :: changes => (after changes).changed c

/-- **The way up** from a type to one that has no supertype. -/
inductive Upward (r : Registry β) : TypeId → List TypeId → Prop
  | top {id : TypeId} : r.supertype id = none → Upward r id [id]
  | step {id sup : TypeId} {way : List TypeId} :
      r.supertype id = some sup → Upward r sup way → Upward r id (id :: way)

/-- **The types are a hierarchy.** -/
structure Hierarchy (r : Registry β) : Prop where
  supertypes : ∀ {id sup}, r.supertype id = some sup → sup.index < r.size
  names : ∀ {name id}, r.byName.get? name = some id → id.index < r.size
  shortNames : ∀ {name ids}, r.byShort.get? name = some ids → ∀ id ∈ ids, id.index < r.size
  /-- following supertypes comes to an end -/
  ends : WellFounded fun sup id => r.supertype id = some sup
  /-- the walk up has no bound of its own -/
  ancestors : ∀ id, r.ancestors id =
    id :: ((r.supertype id).map r.ancestors).getD []
  findMethod : ∀ id name, r.findMethod id name =
    match r.ownMethod? id name with
    | some m => some (id, m)
    | none => (r.supertype id).bind (r.findMethod · name)
  lineage_nodup : ∀ id, (r.lineage id).Nodup
  lineage_head : ∀ id, ∃ top, (r.lineage id).head? = some top ∧ r.supertype top = none
  lineage_last : ∀ id, (r.lineage id).getLast? = some id
  isSubtypeOf_iff : ∀ a b, r.isSubtypeOf a b = true ↔ b ∈ r.lineage a
  refl : ∀ a, r.isSubtypeOf a a = true
  trans : ∀ a b c, r.isSubtypeOf a b = true → r.isSubtypeOf b c = true → r.isSubtypeOf a c = true
  antisymm : ∀ a b, r.isSubtypeOf a b = true → r.isSubtypeOf b a = true → a = b
  /-- a final type is the supertype of no type -/
  extensible : ∀ {id sup d}, r.supertype id = some sup → r.definition? sup = some d →
    d.isFinal = false

/-- **What a change of the types preserves.** -/
structure Grounded (r : Registry β) : Prop where
  supertypes : ∀ {id sup}, r.supertype id = some sup → sup.index < r.size
  names : ∀ {name id}, r.byName.get? name = some id → id.index < r.size
  shortNames : ∀ {name ids}, r.byShort.get? name = some ids → ∀ id ∈ ids, id.index < r.size
  upward : ∀ id, ∃ way, r.Upward id way
  extensible : ∀ {id sup d}, r.supertype id = some sup → r.definition? sup = some d →
    d.isFinal = false

variable {r r' : Registry β} {id sup x a b : TypeId} {way : List TypeId} {d : TypeDef β}

/-! ## Ways up -/

namespace Upward

theorem head (h : r.Upward id way) : ∃ above, way = id :: above := by
  cases h with
  | top _ => exact ⟨[], rfl⟩
  | step _ _ => exact ⟨_, rfl⟩

/-- **A type has one way up.** -/
theorem unique {way' : List TypeId} (h : r.Upward id way) (h' : r.Upward id way') :
    way = way' := by
  induction h generalizing way' with
  | top hnone =>
    cases h' with
    | top _ => rfl
    | step hsup _ =>
      rw [hnone] at hsup
      cases hsup
  | step hsup _ ih =>
    cases h' with
    | top hnone =>
      rw [hsup] at hnone
      cases hnone
    | step hsup' h' =>
      rw [hsup] at hsup'
      cases hsup'
      rw [ih h']

/-- The way up from a type on the way is the rest of the way. -/
theorem suffix (h : r.Upward id way) (hx : x ∈ way) : ∃ rest, r.Upward x rest ∧ rest <:+ way := by
  induction h with
  | top hnone =>
    rw [List.mem_singleton.mp hx]
    exact ⟨_, .top hnone, List.suffix_refl _⟩
  | step hsup h ih =>
    rcases List.mem_cons.mp hx with rfl | hx
    · exact ⟨_, .step hsup h, List.suffix_refl _⟩
    · obtain ⟨rest, hrest, hsuffix⟩ := ih hx
      exact ⟨rest, hrest, hsuffix.trans (List.suffix_cons _ _)⟩

/-- **A way up comes past no type twice**: the way from its second place would be the way from its
first one. -/
theorem nodup (h : r.Upward id way) : way.Nodup := by
  induction h with
  | top _ => exact List.nodup_cons.mpr ⟨List.not_mem_nil, List.nodup_nil⟩
  | @step id sup way hsup h ih =>
    refine List.nodup_cons.mpr ⟨fun hmem => ?_, ih⟩
    obtain ⟨rest, hrest, hsuffix⟩ := h.suffix hmem
    have hlen := hsuffix.length_le
    rw [hrest.unique (.step hsup h), List.length_cons] at hlen
    omega

/-- The last type on the way has no supertype. -/
theorem last (h : r.Upward id way) : ∃ top, way.getLast? = some top ∧ r.supertype top = none := by
  induction h with
  | top hnone => exact ⟨_, rfl, hnone⟩
  | step _ _ ih =>
    obtain ⟨top, hlast, hnone⟩ := ih
    exact ⟨top, by rw [List.getLast?_cons, hlast]; rfl, hnone⟩

/-- A way on which no supertype changed is a way still. -/
theorem congr (h : r.Upward id way) (hsame : ∀ x ∈ way, r'.supertype x = r.supertype x) :
    r'.Upward id way := by
  induction h with
  | top hnone => exact .top ((hsame _ (List.mem_singleton.mpr rfl)).trans hnone)
  | step hsup _ ih =>
    refine .step ((hsame _ List.mem_cons_self).trans hsup) (ih fun x hx => ?_)
    exact hsame x (List.mem_cons_of_mem _ hx)

/-- **When one type is moved**, every type has a way up if the moved one has. -/
theorem of_moved (h : r.Upward x way) (hsame : ∀ y, y ≠ id → r'.supertype y = r.supertype y)
    (hid : ∃ way', r'.Upward id way') : ∃ way', r'.Upward x way' := by
  -- The new way takes over where the old one comes past the moved type.
  induction h with
  | @top x hnone =>
    by_cases hx : x = id
    · exact hx ▸ hid
    · exact ⟨_, .top ((hsame x hx).trans hnone)⟩
  | @step x sup way hsup _ ih =>
    by_cases hx : x = id
    · exact hx ▸ hid
    · obtain ⟨way', hway⟩ := ih
      exact ⟨_, .step ((hsame x hx).trans hsup) hway⟩

/-- A climb that is given enough steps is the way up. -/
theorem climb_eq (h : r.Upward id way) {limit : Nat} (hlen : way.length ≤ limit + 1) :
    r.climb limit id = way := by
  induction h generalizing limit with
  | top hnone =>
    cases limit with
    | zero => rfl
    | succ limit => rw [climb, hnone]
  | @step id sup way hsup h ih =>
    obtain ⟨above, rfl⟩ := h.head
    cases limit with
    | zero =>
      simp only [List.length_cons] at hlen
      omega
    | succ limit =>
      rw [climb, hsup]
      exact congrArg (id :: ·) (ih (Nat.le_of_succ_le_succ hlen))

theorem acc (h : r.Upward id way) : Acc (fun sup id => r.supertype id = some sup) id := by
  induction h with
  | top hnone =>
    refine Acc.intro _ fun sup hsup => ?_
    rw [hnone] at hsup
    cases hsup
  | step hsup _ ih =>
    refine Acc.intro _ fun sup' hsup' => ?_
    rw [hsup] at hsup'
    cases hsup'
    exact ih

end Upward

/-! ## The walks of a grounded registry -/

theorem isSubtypeOf_iff_mem_ancestors : r.isSubtypeOf a b = true ↔ b ∈ r.ancestors a := by
  rw [isSubtypeOf, List.contains_iff_mem]

namespace Grounded

/-- Whatever is above a type is there. -/
theorem index_lt (h : r.Grounded) (hway : r.Upward id way) (hx : x ∈ way) :
    x = id ∨ x.index < r.size := by
  induction hway with
  | top _ => exact Or.inl (List.mem_singleton.mp hx)
  | step hsup _ ih =>
    rcases List.mem_cons.mp hx with rfl | hx
    · exact Or.inl rfl
    · rcases ih hx with rfl | hlt
      · exact Or.inr (h.supertypes hsup)
      · exact Or.inr hlt

/-- **A way up is no longer than there are types**, its beginning aside. -/
theorem length_le (h : r.Grounded) (hway : r.Upward id way) : way.length ≤ r.size + 1 := by
  obtain ⟨above, rfl⟩ := hway.head
  -- The types above the beginning are distinct and registered, so there are no more of them than
  -- there are indices.
  have hnodup := List.nodup_cons.mp hway.nodup
  have hindices : (above.map TypeId.index).Nodup := by
    refine List.Pairwise.map _ (fun x y hne heq => hne ?_) hnodup.2
    cases x
    cases y
    exact congrArg TypeId.mk heq
  have hrange : above.map TypeId.index ⊆ List.range r.size := by
    intro n hn
    obtain ⟨x, hx, rfl⟩ := List.mem_map.mp hn
    rcases h.index_lt hway (List.mem_cons_of_mem _ hx) with rfl | hlt
    · exact absurd hx hnodup.1
    · exact List.mem_range.mpr hlt
  have hlen := hindices.length_le_of_subset hrange
  rw [List.length_map, List.length_range] at hlen
  exact Nat.succ_le_succ hlen

/-- **The bounded walk is the way up.** -/
theorem ancestors_eq_of_upward (h : r.Grounded) (hway : r.Upward id way) : r.ancestors id = way :=
  hway.climb_eq (h.length_le hway)

theorem upward_ancestors (h : r.Grounded) (id : TypeId) : r.Upward id (r.ancestors id) := by
  obtain ⟨way, hway⟩ := h.upward id
  rw [h.ancestors_eq_of_upward hway]
  exact hway

theorem ancestors_eq (h : r.Grounded) (id : TypeId) :
    r.ancestors id = id :: ((r.supertype id).map r.ancestors).getD [] := by
  cases hsup : r.supertype id with
  | none => exact h.ancestors_eq_of_upward (.top hsup)
  | some sup => exact h.ancestors_eq_of_upward (.step hsup (h.upward_ancestors sup))

theorem findMethod_eq (h : r.Grounded) (id : TypeId) (name : Symbol) :
    r.findMethod id name =
      match r.ownMethod? id name with
      | some m => some (id, m)
      | none => (r.supertype id).bind (r.findMethod · name) := by
  unfold findMethod
  rw [h.ancestors_eq, List.findSome?_cons]
  cases r.ownMethod? id name with
  | some m => rfl
  | none => cases r.supertype id <;> rfl

/-- What is above a type that is above another is above that one. -/
theorem ancestors_suffix (h : r.Grounded) (hb : r.isSubtypeOf a b = true) :
    r.ancestors b <:+ r.ancestors a := by
  obtain ⟨rest, hrest, hsuffix⟩ :=
    (h.upward_ancestors a).suffix (isSubtypeOf_iff_mem_ancestors.mp hb)
  rw [h.ancestors_eq_of_upward hrest]
  exact hsuffix

/-- **A grounded registry is a hierarchy.** -/
theorem hierarchy (h : r.Grounded) : r.Hierarchy where
  supertypes := h.supertypes
  names := h.names
  shortNames := h.shortNames
  ends := ⟨fun id => (h.upward_ancestors id).acc⟩
  ancestors := h.ancestors_eq
  findMethod := h.findMethod_eq
  lineage_nodup id :=
    List.pairwise_reverse.mpr ((h.upward_ancestors id).nodup.imp fun hne => Ne.symm hne)
  lineage_head id := by
    rw [lineage, List.head?_reverse]
    exact (h.upward_ancestors id).last
  lineage_last id := by
    obtain ⟨above, heq⟩ := (h.upward_ancestors id).head
    rw [lineage, List.getLast?_reverse, heq]
    rfl
  isSubtypeOf_iff a b := by rw [lineage, List.mem_reverse, isSubtypeOf_iff_mem_ancestors]
  refl a := by
    obtain ⟨above, heq⟩ := (h.upward_ancestors a).head
    rw [isSubtypeOf_iff_mem_ancestors, heq]
    exact List.mem_cons_self
  trans a b c hab hbc := by
    rw [isSubtypeOf_iff_mem_ancestors] at hbc ⊢
    exact (h.ancestors_suffix hab).subset hbc
  antisymm a b hab hba := by
    -- Each way up is the end of the other, so they are the same and begin with the same type.
    have hsame : r.ancestors b = r.ancestors a := by
      refine (h.ancestors_suffix hab).eq_of_length (Nat.le_antisymm ?_ ?_)
      · exact (h.ancestors_suffix hab).length_le
      · exact (h.ancestors_suffix hba).length_le
    rw [h.ancestors_eq a, h.ancestors_eq b] at hsame
    exact (List.cons.inj hsame).1.symm
  extensible := h.extensible

end Grounded

/-! ## Names -/

/-- Whatever a name denotes is there. -/
theorem Grounded.lookup_lt (h : r.Grounded) {name : String} (hid : r.lookup name = some id) :
    id.index < r.size := by
  unfold lookup at hid
  cases hname : r.byName.get? name with
  | some x =>
    rw [hname] at hid
    cases hid
    exact h.names hname
  | none =>
    rw [hname] at hid
    simp only at hid
    split at hid
    · rename_i hshort
      cases hid
      exact h.shortNames hshort _ (List.mem_singleton.mpr rfl)
    · cases hid

/-- A type that may be extended: it is there and not final. -/
structure Extensible (r : Registry β) (sup : TypeId) : Prop where
  index_lt : sup.index < r.size
  isOpen : ∀ {d}, r.definition? sup = some d → d.isFinal = false

theorem Grounded.extensible_of_resolve (hr : r.Grounded) {name supertype : String}
    (h : r.resolveSupertype name supertype = .ok sup) : r.Extensible sup := by
  unfold resolveSupertype at h
  cases hid : r.lookup supertype with
  | none =>
    rw [hid] at h
    cases h
  | some id =>
    rw [hid] at h
    simp only at h
    split at h
    · cases h
    · rename_i hfinal
      cases h
      refine ⟨hr.lookup_lt hid, fun {d} hd => ?_⟩
      rw [hd] at hfinal
      simpa using hfinal

/-! ## New types -/

section Append

variable (record : RegisteredType β)

theorem size_append : (r.append record).size = r.size + 1 := by
  show (r.records ++ [record]).length = _
  rw [List.length_append, List.length_singleton]
  rfl

/-- What is on record when there is one type more. -/
theorem record?_append (x : TypeId) :
    (r.append record).record? x = if x.index = r.size then some record else r.record? x := by
  show (r.records ++ [record])[x.index]? = _
  by_cases hx : x.index = r.size
  · rw [if_pos hx, hx]
    exact List.getElem?_concat_length
  · rw [if_neg hx, List.getElem?_append]
    split
    · rfl
    · rename_i hge
      have hgt : r.records.length < x.index :=
        Nat.lt_of_le_of_ne (Nat.le_of_not_lt hge) (Ne.symm hx)
      rw [List.getElem?_eq_none (by simp only [List.length_singleton]; omega), record?,
        List.getElem?_eq_none (Nat.le_of_lt hgt)]

theorem supertype_append (x : TypeId) : (r.append record).supertype x =
    if x.index = r.size then record.supertype else r.supertype x := by
  unfold supertype
  rw [record?_append]
  split <;> rfl

theorem definition?_append (hx : x.index ≠ r.size) :
    (r.append record).definition? x = r.definition? x := by
  unfold definition?
  rw [record?_append, if_neg hx]

variable {record}

/-- A qualified name leads to the new type that bears it, or where it led before. -/
theorem byName_append {name : String} (hx : (r.append record).byName.get? name = some x) :
    name = record.definition.qualifiedName ∧ x = ⟨r.size⟩ ∨ r.byName.get? name = some x := by
  have hx : (r.byName.insert record.definition.qualifiedName ⟨r.size⟩).get? name = some x := hx
  by_cases hname : name = record.definition.qualifiedName
  · rw [hname, Association.get?_insert_self] at hx
    exact .inl ⟨hname, (Option.some.inj hx).symm⟩
  · rw [Association.get?_insert_of_ne _ hname] at hx
    exact .inr hx

/-- A short name leads to the new type that has it, and where it led before. -/
theorem byShort_append {name : String} {ids : List TypeId}
    (hids : (r.append record).byShort.get? name = some ids) (hx : x ∈ ids) :
    name = record.definition.name ∧ x = ⟨r.size⟩ ∨
      ∃ ids, r.byShort.get? name = some ids ∧ x ∈ ids := by
  have hids : (r.byShort.insert record.definition.name
    ((r.byShort.get? record.definition.name).getD [] ++ [⟨r.size⟩])).get? name = some ids := hids
  by_cases hname : name = record.definition.name
  · rw [← hname, Association.get?_insert_self] at hids
    cases hids
    rcases List.mem_append.mp hx with hx | hx
    · cases hshort : r.byShort.get? name with
      | none =>
        rw [hshort] at hx
        cases hx
      | some ids =>
        rw [hshort] at hx
        exact .inr ⟨ids, rfl, hx⟩
    · exact .inl ⟨hname, List.mem_singleton.mp hx⟩
  · rw [Association.get?_insert_of_ne _ hname] at hids
    exact .inr ⟨ids, hids, hx⟩

namespace Grounded

/-- What names lead to when there is one type more. -/
theorem names_append (h : r.Grounded) {name : String}
    (hx : (r.append record).byName.get? name = some x) : x.index < r.size + 1 := by
  rcases byName_append hx with ⟨-, rfl⟩ | hold
  · exact Nat.lt_succ_self _
  · exact Nat.lt_succ_of_lt (h.names hold)

theorem shortNames_append (h : r.Grounded) {name : String} {ids : List TypeId}
    (hids : (r.append record).byShort.get? name = some ids) (hx : x ∈ ids) :
    x.index < r.size + 1 := by
  rcases byShort_append hids hx with ⟨-, rfl⟩ | ⟨ids, hold, hx⟩
  · exact Nat.lt_succ_self _
  · exact Nat.lt_succ_of_lt (h.shortNames hold x hx)

/-- **No way up comes past the new type** but the one that begins there. -/
theorem upward_append (h : r.Grounded)
    (hrecord : ∀ sup, record.supertype = some sup → r.Extensible sup) (x : TypeId) :
    ∃ way, (r.append record).Upward x way := by
  have hold : ∀ x, x.index ≠ r.size → ∃ way, (r.append record).Upward x way := by
    intro x hx
    refine ⟨_, (h.upward_ancestors x).congr fun y hy => ?_⟩
    have hne : y.index ≠ r.size := by
      rcases h.index_lt (h.upward_ancestors x) hy with rfl | hlt
      · exact hx
      · exact Nat.ne_of_lt hlt
    rw [supertype_append, if_neg hne]
  by_cases hx : x.index = r.size
  · have hsame : (r.append record).supertype x = record.supertype := by
      rw [supertype_append, if_pos hx]
    cases hsup : record.supertype with
    | none => exact ⟨_, .top (hsame.trans hsup)⟩
    | some sup =>
      obtain ⟨way, hway⟩ := hold sup (Nat.ne_of_lt (hrecord sup hsup).index_lt)
      exact ⟨_, .step (hsame.trans hsup) hway⟩
  · exact hold x hx

/-- **A new type** whose supertype may be extended fits in. -/
theorem append (h : r.Grounded)
    (hrecord : ∀ sup, record.supertype = some sup → r.Extensible sup) :
    (r.append record).Grounded := by
  have hsup : ∀ {x sup}, (r.append record).supertype x = some sup → r.Extensible sup := by
    intro x sup hx
    rw [supertype_append] at hx
    split at hx
    · exact hrecord sup hx
    · exact ⟨h.supertypes hx, h.extensible hx⟩
  exact {
    supertypes := fun hx => by
      rw [size_append]
      exact Nat.lt_succ_of_lt (hsup hx).index_lt
    names := fun hx => by
      rw [size_append]
      exact h.names_append hx
    shortNames := fun hids x hx => by
      rw [size_append]
      exact h.shortNames_append hids hx
    upward := h.upward_append hrecord
    extensible := by
      intro x sup d hx hd
      rw [definition?_append record (Nat.ne_of_lt (hsup hx).index_lt)] at hd
      exact (hsup hx).isOpen hd }

end Grounded

end Append

/-- **What an accepted registration went through.** -/
theorem register_cases (h : r.register d = .ok (id, r')) :
    ∃ supertype operators, r.byName.get? d.qualifiedName = none ∧
      r.newSupertype d = .ok supertype ∧ resolveOperators d.qualifiedName d = .ok operators ∧
      id = ⟨r.size⟩ ∧ r' = r.append { definition := d, supertype, operators } := by
  simp only [register, bind, Except.bind] at h
  split at h
  · cases h
  rename_i hnew
  split at h
  · cases h
  rename_i supertype hsup
  split at h
  · cases h
  rename_i operators hops
  split at h
  · cases h
  cases h
  exact ⟨supertype, operators, by simpa [Association.contains] using hnew, hsup, hops, rfl, rfl⟩

/-- The supertype of a new type may be extended. -/
theorem Grounded.extensible_of_new (hr : r.Grounded) (h : r.newSupertype d = .ok (some sup)) :
    r.Extensible sup := by
  unfold newSupertype at h
  split at h
  · cases h
  · split at h
    · cases h
    · rename_i supertype _ _
      cases hres : r.resolveSupertype d.qualifiedName supertype with
      | error err =>
        rw [hres] at h
        cases h
      | ok x =>
        rw [hres] at h
        cases h
        exact hr.extensible_of_resolve hres

theorem Grounded.register (h : r.Grounded) (hok : r.register d = .ok (id, r')) : r'.Grounded := by
  obtain ⟨supertype, operators, -, hnew, -, -, rfl⟩ := register_cases hok
  refine h.append fun sup hsup => h.extensible_of_new (d := d) ?_
  rw [hnew]
  exact congrArg Except.ok hsup

/-! ## Moved types -/

section Replace

variable (d) (supertype : Option TypeId) (operators : List (BinaryOp × Method β))

theorem size_replace : (r.replace id d supertype operators).size = r.size :=
  List.length_modify _ _ _

/-- What is on record when a type has got another definition. -/
theorem record?_replace (x : TypeId) : (r.replace id d supertype operators).record? x =
    if x = id then (r.record? id).map fun record =>
      { definition := d, supertype, operators, generation := record.generation + 1 }
    else r.record? x := by
  show (r.records.modify id.index _)[x.index]? = _
  by_cases hx : x = id
  · rw [if_pos hx, hx, List.getElem?_modify_eq]
    rfl
  · have hne : id.index ≠ x.index := by
      intro heq
      cases x
      cases id
      exact hx (congrArg TypeId.mk heq.symm)
    rw [if_neg hx, List.getElem?_modify_ne _ _ hne]
    rfl

theorem supertype_replace (hid : id.index < r.size) (x : TypeId) :
    (r.replace id d supertype operators).supertype x =
      if x = id then supertype else r.supertype x := by
  unfold Registry.supertype
  rw [record?_replace, record?, List.getElem?_eq_getElem hid]
  split <;> rfl

theorem definition?_replace (hid : id.index < r.size) (x : TypeId) :
    (r.replace id d supertype operators).definition? x =
      if x = id then some d else r.definition? x := by
  unfold definition?
  rw [record?_replace, record?, List.getElem?_eq_getElem hid]
  split <;> rfl

end Replace

/-- A type that is the supertype of none. -/
theorem supertype_ne_of_firstSubtype? (h : r.firstSubtype? id = none) :
    r.supertype x ≠ some id := by
  intro hx
  rw [firstSubtype?, Option.map_eq_none_iff, List.findIdx?_eq_none_iff] at h
  obtain ⟨record, hrecord, hsup⟩ := Option.bind_eq_some_iff.mp hx
  have hne := h record (List.mem_of_getElem? hrecord)
  rw [hsup] at hne
  simp at hne

namespace Grounded

variable {supertype : Option TypeId} {operators : List (BinaryOp × Method β)}

/-- **A type that is moved** under one that was not below it has a way up, and so has every other
type. -/
theorem upward_replace (h : r.Grounded) (hid : id.index < r.size)
    (hbelow : ∀ sup, supertype = some sup → r.isSubtypeOf sup id = false) (x : TypeId) :
    ∃ way, (r.replace id d supertype operators).Upward x way := by
  have hother : ∀ y, y ≠ id →
      (r.replace id d supertype operators).supertype y = r.supertype y := by
    intro y hy
    rw [supertype_replace d supertype operators hid, if_neg hy]
  have hself : (r.replace id d supertype operators).supertype id = supertype := by
    rw [supertype_replace d supertype operators hid, if_pos rfl]
  refine (h.upward_ancestors x).of_moved hother ?_
  cases hnew : supertype with
  | none =>
    rw [← hnew]
    exact ⟨_, .top (hself.trans hnew)⟩
  | some sup =>
    -- The way up from the new supertype does not come past the moved type, so it is as it was.
    rw [← hnew]
    refine ⟨_, .step (hself.trans hnew) ((h.upward_ancestors sup).congr fun y hy => hother y ?_)⟩
    rintro rfl
    exact Bool.eq_false_iff.mp (hbelow sup hnew) (isSubtypeOf_iff_mem_ancestors.mpr hy)

/-- **A moved type**, whose new supertype may be extended and is not below it, fits in.  If it
becomes final, it must not have subtypes. -/
theorem replace (h : r.Grounded) (hid : id.index < r.size)
    (hsup : ∀ sup, supertype = some sup → r.Extensible sup ∧ r.isSubtypeOf sup id = false)
    (hfinal : d.isFinal = true → r.firstSubtype? id = none) :
    (r.replace id d supertype operators).Grounded where
  supertypes {x sup} hx := by
    rw [supertype_replace d supertype operators hid] at hx
    rw [size_replace]
    split at hx
    · exact (hsup sup hx).1.index_lt
    · exact h.supertypes hx
  names hx := by
    rw [size_replace]
    exact h.names hx
  shortNames hids x hx := by
    rw [size_replace]
    exact h.shortNames hids x hx
  upward := h.upward_replace hid fun sup heq => (hsup sup heq).2
  extensible {x sup d'} hx hd' := by
    rw [supertype_replace d supertype operators hid] at hx
    rw [definition?_replace d supertype operators hid] at hd'
    by_cases hs : sup = id
    · -- The moved type has a subtype, which is not itself.
      rw [if_pos hs] at hd'
      cases hd'
      refine Bool.eq_false_iff.mpr fun hf => ?_
      split at hx
      · have hself := (hsup sup hx).2
        rw [hs, h.hierarchy.refl] at hself
        cases hself
      · rw [hs] at hx
        exact supertype_ne_of_firstSubtype? (hfinal hf) hx
    · rw [if_neg hs] at hd'
      split at hx
      · exact (hsup sup hx).1.isOpen hd'
      · exact h.extensible hx hd'

end Grounded

/-- **What an accepted redefinition went through.** -/
theorem redefine_cases {typeName : String} (h : r.redefine typeName d = .ok (id, r')) :
    ∃ supertype operators, r.lookup typeName = some id ∧ d.qualifiedName = r.name id ∧
      r.replacedSupertype id d = .ok supertype ∧
      (d.isFinal = true → r.firstSubtype? id = none) ∧
      resolveOperators (r.name id) d = .ok operators ∧
      r' = r.replace id d supertype operators := by
  unfold redefine at h
  split at h
  · cases h
  rename_i x hid
  simp only [bind, Except.bind] at h
  split at h
  · cases h
  rename_i hname
  split at h
  · cases h
  rename_i supertype hsup
  -- Whether the definition is final decides if subtypes are looked for; all else is the same.
  have hrest : ∀ {operators : List (BinaryOp × Method β)},
      (d.isFinal = true → r.firstSubtype? x = none) →
      resolveOperators (r.name x) d = .ok operators →
      (Except.ok (x, r.replace x d supertype operators) : Except TypeError _) = .ok (id, r') →
      ∃ supertype operators, r.lookup typeName = some id ∧ d.qualifiedName = r.name id ∧
        r.replacedSupertype id d = .ok supertype ∧
        (d.isFinal = true → r.firstSubtype? id = none) ∧
        resolveOperators (r.name id) d = .ok operators ∧
        r' = r.replace id d supertype operators := by
    intro operators hfinal hops heq
    cases heq
    exact ⟨_, _, hid, Decidable.not_not.mp hname, hsup, hfinal, hops, rfl⟩
  split at h
  · split at h
    · cases h
    · rename_i hnone
      simp only [pure, Except.pure] at h
      split at h
      · cases h
      · rename_i hops
        exact hrest (fun _ => hnone) hops h
  · rename_i hopen
    simp only [pure, Except.pure] at h
    split at h
    · cases h
    · rename_i hops
      exact hrest (fun hf => absurd hf hopen) hops h

/-- The supertype of a replacement may be extended and is not below the type. -/
theorem Grounded.extensible_of_replaced (hr : r.Grounded)
    (h : r.replacedSupertype id d = .ok (some sup)) :
    r.Extensible sup ∧ r.isSubtypeOf sup id = false := by
  unfold replacedSupertype at h
  split at h
  · cases h
  simp only [bind, Except.bind] at h
  split at h
  · cases h
  rename_i x hres
  split at h
  · cases h
  rename_i hsub
  simp only [pure, Except.pure, Except.ok.injEq, Option.some.injEq] at h
  subst h
  exact ⟨hr.extensible_of_resolve hres, Bool.eq_false_iff.mpr hsub⟩

theorem Grounded.redefine (h : r.Grounded) {typeName : String}
    (hok : r.redefine typeName d = .ok (id, r')) : r'.Grounded := by
  obtain ⟨supertype, operators, hlookup, -, hreplaced, hfinal, -, rfl⟩ := redefine_cases hok
  refine h.replace (h.lookup_lt hlookup) (fun sup hsup => ?_) hfinal
  refine h.extensible_of_replaced (d := d) ?_
  rw [hreplaced]
  exact congrArg Except.ok hsup

/-! ## All changes -/

theorem grounded_empty : (empty : Registry β).Grounded where
  supertypes h := by cases h
  names h := by cases h
  shortNames h := by cases h
  upward _ := ⟨_, .top rfl⟩
  extensible h := by cases h

/-- **What holds after a change**: what held before it if it is refused, and otherwise what a
registration or a redefinition establishes. -/
theorem holds_changed {P : Registry β → Prop} (c : TypeChange β) (hrefused : P r)
    (hregister : ∀ {d id r'}, r.register d = .ok (id, r') → P r')
    (hredefine : ∀ {typeName d id r'}, r.redefine typeName d = .ok (id, r') → P r') :
    P (r.changed c) := by
  unfold Registry.changed
  cases hc : r.change c with
  | error err => exact hrefused
  | ok result =>
    obtain ⟨id, r'⟩ := result
    cases c with
    | register d => exact hregister hc
    | redefine typeName d => exact hredefine hc

theorem Grounded.changed (h : r.Grounded) (c : TypeChange β) : (r.changed c).Grounded :=
  holds_changed c h h.register h.redefine

theorem grounded_after (changes : List (TypeChange β)) : (after changes).Grounded := by
  induction changes with
  | nil => exact grounded_empty
  | cons c changes ih => exact ih.changed c

/-- **The types are a hierarchy** after every sequence of registrations and redefinitions. -/
theorem hierarchy_after (changes : List (TypeChange β)) : (after changes).Hierarchy :=
  (grounded_after changes).hierarchy

end Registry

end ProductModel
