import ProductModel.Proofs.Registry.Namesakes

/-!
# What names denote

A name denotes the type of that qualified name.  If there is none, it denotes the type of that short
name, unless several types have it.  `Registry.denoted` is this rule, worked out over all types, and
`Registry.names_denote` says how far a look-up follows it after every sequence of registrations and
redefinitions.

The index of short names is filled when types are registered.  A redefinition keeps the qualified
name of a type, but it may divide it into package and name in another place.  The type is found then
under the short name that it was registered under, and not under the one that it has.  This concerns
no names but these two (`Registry.Redivided`).

## Design

The short name that a type was registered under is not in the registry, so it is read off the
sequence of changes (`Registry.registeredNames`).  The index of short names is what one gets by
searching all types for it (`Registry.ShortIndexed`).
-/

namespace ProductModel.Registry

variable {β : Type} {r : Registry β} {id : TypeId} {name : String}

/-! ## Short names -/

/-- The short name that a type has now. -/
def shortName? (r : Registry β) (id : TypeId) : Option String := (r.definition? id).map (·.name)

/-- **The short names that types were registered under**, in order of registration. -/
def registeredNames : List (TypeChange β) → List String
  | [] => []
  | c :: changes =>
    match (after changes).change c with
    | .error _ => registeredNames changes
    | .ok _ =>
      match c with
      | .register d => registeredNames changes ++ [d.name]
      | .redefine _ _ => registeredNames changes

/-- The short name that a type was registered under. -/
def registeredName? (changes : List (TypeChange β)) (id : TypeId) : Option String :=
  (registeredNames changes)[id.index]?

/-- **A type that has another short name than it was registered under.** -/
def Redivided (changes : List (TypeChange β)) (id : TypeId) : Prop :=
  (after changes).shortName? id ≠ registeredName? changes id

/-- **The type that a name denotes**, for types with given short names. -/
def denoted (r : Registry β) (shortName? : TypeId → Option String) (name : String) :
    Option TypeId :=
  match r.ids.find? (r.name · == name) with
  | some id => some id
  | none =>
    match r.ids.filter (shortName? · == some name) with
    | [id] => some id
    | _ => none

/-- A name denotes the same if the same types have it as their short name. -/
theorem denoted_congr {short short' : TypeId → Option String}
    (h : ∀ id, short id = some name ↔ short' id = some name) :
    r.denoted short name = r.denoted short' name := by
  have hsame : (fun id => short id == some name) = fun id => short' id == some name := by
    funext id
    rw [Bool.eq_iff_iff, beq_iff_eq, beq_iff_eq]
    exact h id
  rw [denoted, denoted, hsame]

/-! ## The index of short names -/

theorem mem_ids : id ∈ r.ids ↔ id.index < r.size := by
  simp only [ids, List.mem_map, List.mem_range]
  constructor
  · rintro ⟨n, hn, rfl⟩
    exact hn
  · intro hid
    exact ⟨id.index, hid, rfl⟩

theorem ids_append (record : RegisteredType β) :
    (r.append record).ids = r.ids ++ [⟨r.size⟩] := by
  rw [ids, size_append, List.range_succ, List.map_append]
  rfl

theorem ids_replace {d : TypeDef β} (supertype : Option TypeId)
    (operators : List (BinaryOp × Method β)) :
    (r.replace id d supertype operators).ids = r.ids := by
  rw [ids, size_replace]
  rfl

/-- **The index of short names lists the types that were registered under them**, in order of
registration. -/
structure ShortIndexed (r : Registry β) (names : List String) : Prop where
  size : names.length = r.size
  listed : ∀ name, (r.byShort.get? name).getD [] = r.ids.filter (names[·.index]? == some name)

namespace ShortIndexed

variable {names : List String}

/-- A new type is listed last under its short name, and nowhere else. -/
theorem append (h : r.ShortIndexed names) (record : RegisteredType β) :
    (r.append record).ShortIndexed (names ++ [record.definition.name]) where
  size := by rw [List.length_append, h.size, size_append, List.length_singleton]
  listed name := by
    have hold : r.ids.filter ((names ++ [record.definition.name])[·.index]? == some name) =
        r.ids.filter (names[·.index]? == some name) := by
      refine List.filter_congr fun id hid => ?_
      rw [List.getElem?_append_left (h.size ▸ mem_ids.mp hid)]
    have hlast : [⟨r.size⟩].filter (fun id : TypeId =>
        (names ++ [record.definition.name])[id.index]? == some name) =
          if record.definition.name = name then [⟨r.size⟩] else [] := by
      rw [← h.size, List.filter_cons, List.getElem?_concat_length, List.filter_nil]
      simp only [beq_iff_eq, Option.some.injEq]
    show ((r.byShort.insert record.definition.name
      ((r.byShort.get? record.definition.name).getD [] ++ [⟨r.size⟩])).get? name).getD [] = _
    rw [ids_append, List.filter_append, hold, hlast]
    by_cases hname : record.definition.name = name
    · rw [hname, Association.get?_insert_self, Option.getD_some, h.listed, if_pos rfl]
    · rw [Association.get?_insert_of_ne _ (Ne.symm hname), h.listed, if_neg hname, List.append_nil]

/-- Nothing is listed anew when a type is redefined. -/
theorem replace (h : r.ShortIndexed names) {d : TypeDef β} (supertype : Option TypeId)
    (operators : List (BinaryOp × Method β)) :
    (r.replace id d supertype operators).ShortIndexed names where
  size := by rw [h.size, size_replace]
  listed name := by
    rw [ids_replace]
    exact h.listed name

end ShortIndexed

theorem shortIndexed_after (changes : List (TypeChange β)) :
    (after changes).ShortIndexed (registeredNames changes) := by
  induction changes with
  | nil => exact ⟨rfl, fun _ => rfl⟩
  | cons c changes ih =>
    rw [after, changed]
    unfold registeredNames
    cases hc : (after changes).change c with
    | error err => exact ih
    | ok result =>
      obtain ⟨id, r'⟩ := result
      cases c with
      | register d =>
        obtain ⟨supertype, operators, -, -, -, -, rfl⟩ := register_cases hc
        exact ih.append { definition := d, supertype, operators }
      | redefine typeName d =>
        obtain ⟨supertype, operators, -, -, -, -, -, rfl⟩ := redefine_cases hc
        exact ih.replace supertype operators

/-! ## Looking names up -/

/-- The index of qualified names finds the type that bears the name. -/
theorem Indexed.find?_name (h : r.Indexed) (hr : r.Grounded) (name : String) :
    r.ids.find? (r.name · == name) = r.byName.get? name := by
  cases hget : r.byName.get? name with
  | none =>
    refine List.find?_eq_none.mpr fun id hid hname => ?_
    have hlisted := h.listed (mem_ids.mp hid)
    rw [beq_iff_eq.mp hname, hget] at hlisted
    cases hlisted
  | some id =>
    have hsome : (r.ids.find? (r.name · == name)).isSome = true :=
      List.find?_isSome.mpr ⟨id, mem_ids.mpr (hr.names hget), beq_iff_eq.mpr (h.names hget)⟩
    obtain ⟨x, hx⟩ := Option.isSome_iff_exists.mp hsome
    have hlisted := h.listed (mem_ids.mp (List.mem_of_find?_eq_some hx))
    have hname : r.name x = name :=
      beq_iff_eq.mp (List.find?_some (p := fun id => r.name id == name) hx)
    rw [hname, hget] at hlisted
    rw [hx, hlisted]

/-- **A look-up follows the rule** for the short names that types were registered under. -/
theorem lookup_eq_denoted (changes : List (TypeChange β)) (name : String) :
    (after changes).lookup name = (after changes).denoted (registeredName? changes) name := by
  have hlisted := (shortIndexed_after changes).listed name
  rw [lookup, denoted, (indexed_after changes).find?_name (grounded_after changes)]
  cases (after changes).byName.get? name with
  | some id => rfl
  | none =>
    unfold registeredName?
    rw [← hlisted]
    cases (after changes).byShort.get? name with
    | none => rfl
    | some ids =>
      rw [Option.getD_some]
      rcases ids with _ | ⟨x, _ | ⟨y, ids⟩⟩ <;> rfl

/-- **What names denote**, after every sequence of registrations and redefinitions.

* A name denotes the type of that qualified name, else the only type that was registered under it as
  its short name.
* Unless a type has left this short name or come to it by a redefinition, the name denotes the type
  of that qualified name, else the only type that has it as its short name.
* Every type answers to its qualified name. -/
theorem names_denote (changes : List (TypeChange β)) (name : String) :
    (after changes).lookup name = (after changes).denoted (registeredName? changes) name ∧
    ((∀ id, Redivided changes id →
        (after changes).shortName? id ≠ some name ∧ registeredName? changes id ≠ some name) →
      (after changes).lookup name = (after changes).denoted (after changes).shortName? name) ∧
    ∀ id, id.index < (after changes).size → (after changes).lookup ((after changes).name id) =
      some id := by
  refine ⟨lookup_eq_denoted changes name, fun hkept => ?_, fun id hid =>
    (indexed_after changes).lookup_name hid⟩
  rw [lookup_eq_denoted]
  refine denoted_congr fun id => ?_
  by_cases hsame : (after changes).shortName? id = registeredName? changes id
  · rw [hsame]
  · obtain ⟨hnow, hthen⟩ := hkept id hsame
    exact ⟨fun h => absurd h hthen, fun h => absurd h hnow⟩

/-- A type `b::c` of the package `a` is redefined as `c` of the package `a::b`.  Its qualified name
goes on to denote it, and so does the short name that it has lost; the one that it has now denotes
nothing.  Another type has kept its short name and is denoted by it. -/
theorem names_denote_redivided :
    let changes : List (TypeChange Unit) :=
      [.redefine "a::b::c" { name := "c", package := "a::b" },
        .register { name := "d", package := "a" }, .register { name := "b::c", package := "a" }]
    (after changes).shortName? ⟨0⟩ = some "c" ∧ registeredName? changes ⟨0⟩ = some "b::c" ∧
      (after changes).lookup "a::b::c" = some ⟨0⟩ ∧
      (after changes).lookup "b::c" = some ⟨0⟩ ∧
      (after changes).denoted (after changes).shortName? "b::c" = none ∧
      (after changes).lookup "c" = none ∧
      (after changes).denoted (after changes).shortName? "c" = some ⟨0⟩ ∧
      (after changes).denoted (after changes).shortName? "d" = some ⟨1⟩ ∧
      (after changes).lookup "d" = some ⟨1⟩ := by
  intro changes
  have hsize : (after changes).size = 2 := by decide +kernel
  have hthen : registeredNames changes = ["b::c", "d"] := by decide +kernel
  have hnow : (after changes).shortName? ⟨0⟩ = some "c" := by decide +kernel
  have hd : (after changes).denoted (after changes).shortName? "d" = some ⟨1⟩ := by decide +kernel
  have hself : (after changes).name ⟨0⟩ = "a::b::c" := by decide +kernel
  refine ⟨hnow, by rw [registeredName?, hthen]; rfl, ?_, ?_, by decide +kernel, ?_,
    by decide +kernel, hd, ?_⟩
  · rw [← hself]
    exact (names_denote changes "").2.2 ⟨0⟩ (by rw [hsize]; decide)
  · rw [(names_denote changes "b::c").1]
    decide +kernel
  · rw [(names_denote changes "c").1]
    decide +kernel
  · refine ((names_denote changes "d").2.1 fun id hid => ?_).trans hd
    -- Only the first type has another short name than it was registered under.
    obtain ⟨_ | _ | n⟩ := id
    · rw [hnow, registeredName?, hthen]
      decide
    · exact absurd (by decide +kernel) hid
    · refine absurd ?_ hid
      rw [registeredName?, hthen, shortName?, definition?, record?, List.getElem?_eq_none]
      · rfl
      · show (after changes).size ≤ _
        rw [hsize]
        exact Nat.le_add_left 2 n

end ProductModel.Registry
