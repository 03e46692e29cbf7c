import ProductModel.Proofs.Showroom.Types

/-!
# A furnished showroom

A room is furnished if its root, its cabinet and the shelves of the cabinet are there and are what
they were made to be.  What may differ is the values of their properties, and what the routines of
the showroom do not look at.

* `Room.Furnished` is this, with the present state of the cabinet as a parameter.
* `Furnished.turn_cabinet` and `Furnished.turn_shelf` follow a change of one instance.
* The questions that the routines ask are answered: which elements are shelves, and which product
  data apply.
-/

namespace ProductModel.Showroom

open ProductModel.Action

variable {σ : Type} {w w' : World Routine σ} {room : Room} {cabinet i j : Instance Routine}
  {shelves : List InstanceId} {x : InstanceId}

/-- **A cabinet of the room**, whatever the values of its properties are. -/
structure Room.IsCabinet (room : Room) (i : Instance Routine) : Prop where
  type : i.type = cabinetId
  father : i.father = some room.environment
  state : i.state = .live
  program : i.program = none
  properties : i.properties = cabinetTable

/-- **A shelf in the cabinet of the room**, whatever the values of its properties are. -/
structure Room.IsShelf (room : Room) (i : Instance Routine) : Prop where
  type : i.type = shelfId
  father : i.father = some room.cabinet
  element : i.element = true
  state : i.state = .live
  idle : i.busy = 0
  children : i.children = []
  properties : i.properties = shelfTable

/-- **The room is furnished**: in a world with the types and the catalog of the showroom, and with
values checked, it has a cabinet and shelves. -/
structure Room.Furnished (room : Room) (cabinet : Instance Routine) (shelves : List InstanceId)
    (w : World Routine σ) : Prop where
  types : w.model.types = Showroom.types
  validates : w.config.validateProperties = true
  truthful : w.Truthful
  stored : w.model.arena.Stored
  catalog : w.model.products.get? room.environment = some (Showroom.catalog id)
  environment : ∃ i, w.model.arena.get? room.environment = some i ∧ i.type = environmentId ∧
    i.father = none
  there : w.model.arena.get? room.cabinet = some cabinet
  isCabinet : room.IsCabinet cabinet
  distinct : shelves.Nodup
  shelf : ∀ s ∈ shelves, ∃ i, w.model.arena.get? s = some i ∧ room.IsShelf i

/-- **Some instances have a width.** -/
def HaveWidth (w : World Routine σ) (ids : List InstanceId) (v : Value) : Prop :=
  ∀ s ∈ ids, ∀ i, w.model.arena.get? s = some i → i.stored width = v

/-- An instance that differs in its remembered name alone is still a shelf. -/
theorem Room.IsShelf.of_forgetName (h : room.IsShelf i) (heq : j.forgetName = i.forgetName) :
    room.IsShelf j where
  type := (Instance.eq_of_forgetName heq (·.type) fun _ => rfl).trans h.type
  father := (Instance.eq_of_forgetName heq (·.father) fun _ => rfl).trans h.father
  element := (Instance.eq_of_forgetName heq (·.element) fun _ => rfl).trans h.element
  state := (Instance.eq_of_forgetName heq (·.state) fun _ => rfl).trans h.state
  idle := (Instance.eq_of_forgetName heq (·.busy) fun _ => rfl).trans h.idle
  children := (Instance.eq_of_forgetName heq (·.children) fun _ => rfl).trans h.children
  properties := (Instance.eq_of_forgetName heq (·.properties) fun _ => rfl).trans h.properties

theorem Room.IsCabinet.of_forgetName (h : room.IsCabinet i)
    (heq : j.forgetName = i.forgetName) : room.IsCabinet j where
  type := (Instance.eq_of_forgetName heq (·.type) fun _ => rfl).trans h.type
  father := (Instance.eq_of_forgetName heq (·.father) fun _ => rfl).trans h.father
  state := (Instance.eq_of_forgetName heq (·.state) fun _ => rfl).trans h.state
  program := (Instance.eq_of_forgetName heq (·.program) fun _ => rfl).trans h.program
  properties := (Instance.eq_of_forgetName heq (·.properties) fun _ => rfl).trans h.properties

namespace Room.Furnished

/-! ## Distinct instances -/

/-- The root is neither a cabinet nor a shelf. -/
theorem ne_environment (h : room.Furnished cabinet shelves w)
    (hi : w.model.arena.get? x = some i) (htype : i.type ≠ environmentId) :
    room.environment ≠ x := by
  rintro rfl
  obtain ⟨j, hj, hjtype, -⟩ := h.environment
  rw [hi] at hj
  cases hj
  exact htype hjtype

theorem environment_ne_cabinet (h : room.Furnished cabinet shelves w) :
    room.environment ≠ room.cabinet :=
  h.ne_environment h.there (by rw [h.isCabinet.type]; decide)

theorem environment_ne_shelf (h : room.Furnished cabinet shelves w) (hx : x ∈ shelves) :
    room.environment ≠ x := by
  obtain ⟨i, hi, hshelf⟩ := h.shelf x hx
  exact h.ne_environment hi (by rw [hshelf.type]; decide)

/-- A cabinet is no shelf. -/
theorem cabinet_ne_shelf (h : room.Furnished cabinet shelves w) (hx : x ∈ shelves) :
    room.cabinet ≠ x := by
  rintro rfl
  obtain ⟨i, hi, hshelf⟩ := h.shelf _ hx
  rw [h.there] at hi
  cases hi
  exact absurd (hshelf.type.symm.trans h.isCabinet.type) (by decide)

/-! ## Changes -/

/-- **A change of one instance** that leaves a cabinet a cabinet and a shelf a shelf. -/
theorem turn (h : room.Furnished cabinet shelves w) (hturn : w.Turns x i w')
    (henvironment : room.environment ≠ x)
    (hcabinet : w'.model.arena.get? room.cabinet = some j) (hj : room.IsCabinet j)
    (hshelf : x ∈ shelves → room.IsShelf i) : room.Furnished j shelves w' where
  types := hturn.apart.types.trans h.types
  validates := hturn.apart.config ▸ h.validates
  truthful := hturn.truthful h.truthful
  stored := hturn.keeps.stored h.stored
  catalog := hturn.apart.products ▸ h.catalog
  environment := by
    rw [hturn.apart.others _ henvironment]
    exact h.environment
  there := hcabinet
  isCabinet := hj
  distinct := h.distinct
  shelf := by
    intro s hs
    by_cases hsx : s = x
    · subst hsx
      exact ⟨i, hturn.there, hshelf hs⟩
    · rw [hturn.apart.others s hsx]
      exact h.shelf s hs

/-- **A change of the cabinet.** -/
theorem turn_cabinet (h : room.Furnished cabinet shelves w) (hturn : w.Turns room.cabinet i w')
    (hi : room.IsCabinet i) : room.Furnished i shelves w' :=
  h.turn hturn h.environment_ne_cabinet hturn.there hi fun hx =>
    absurd rfl (h.cabinet_ne_shelf hx)

/-- **A change of a shelf.** -/
theorem turn_shelf (h : room.Furnished cabinet shelves w) (hx : x ∈ shelves)
    (hturn : w.Turns x i w') (hi : room.IsShelf i) : room.Furnished cabinet shelves w' :=
  h.turn hturn (h.environment_ne_shelf hx)
    (by rw [hturn.apart.others _ (h.cabinet_ne_shelf hx), h.there]) h.isCabinet fun _ => hi

/-- A change of an instance that is not part of the furniture. -/
theorem turn_other (h : room.Furnished cabinet shelves w) (henvironment : room.environment ≠ x)
    (hcabinet : room.cabinet ≠ x) (hx : x ∉ shelves) (hturn : w.Turns x i w') :
    room.Furnished cabinet shelves w' :=
  h.turn hturn henvironment (by rw [hturn.apart.others _ hcabinet, h.there]) h.isCabinet
    fun hmem => absurd hmem hx

/-- What changes beside the instances, the types, the catalog and the configuration does not
matter. -/
theorem agrees (h : room.Furnished cabinet shelves w) (hagrees : w.Agrees w') :
    room.Furnished cabinet shelves w' :=
  h.turn_cabinet ((World.Turns.refl h.there).agrees hagrees) h.isCabinet

/-- **One shelf more.** -/
theorem add (h : room.Furnished cabinet shelves w) (hi : w.model.arena.get? x = some i)
    (hshelf : room.IsShelf i) (hnew : x ∉ shelves) :
    room.Furnished cabinet (shelves ++ [x]) w := by
  have hdistinct : (shelves ++ [x]).Nodup :=
    List.nodup_append.mpr ⟨h.distinct, List.nodup_cons.mpr ⟨List.not_mem_nil, List.nodup_nil⟩,
      fun s hs y hy hsy => hnew (List.mem_singleton.mp hy ▸ hsy ▸ hs)⟩
  refine ⟨h.types, h.validates, h.truthful, h.stored, h.catalog, h.environment, h.there,
    h.isCabinet, hdistinct, fun s hs => ?_⟩
  rcases List.mem_append.mp hs with hs | hs
  · exact h.shelf s hs
  · rw [List.mem_singleton.mp hs]
    exact ⟨i, hi, hshelf⟩

/-! ## Questions -/

/-- No property of the cabinet has an accessor. -/
theorem plain (h : room.Furnished cabinet shelves w) :
    w.Plain cabinet.properties cabinet.type := by
  rw [h.isCabinet.properties, h.isCabinet.type]
  exact plain_cabinet h.types h.truthful

/-- **An instance is of a type** as its type tells. -/
theorem isA (h : room.Furnished cabinet shelves w) (hi : w.model.arena.get? x = some i)
    (typeName : String) :
    w.model.isA x typeName =
      .ok ((Showroom.types.lookup typeName).any (Showroom.types.isSubtypeOf i.type)) := by
  unfold Model.isA Arena.find
  rw [hi, h.types]
  rfl

theorem isA_cabinet (h : room.Furnished cabinet shelves w) :
    w.model.isA room.cabinet "Cabinet" = .ok true := by
  rw [h.isA h.there, h.isCabinet.type]
  rfl

theorem isA_shelf (h : room.Furnished cabinet shelves w) (hx : x ∈ shelves) :
    w.model.isA x "Shelf" = .ok true := by
  obtain ⟨i, hi, hshelf⟩ := h.shelf x hx
  rw [h.isA hi, hshelf.type]
  rfl

/-- All shelves are elements. -/
theorem elementsOf (h : room.Furnished cabinet shelves w) (hchildren : cabinet.children = shelves) :
    w.model.arena.elementsOf room.cabinet = shelves := by
  unfold Arena.elementsOf
  rw [Arena.childrenOf_eq h.there, hchildren, List.filter_eq_self]
  intro s hs
  obtain ⟨i, hi, hshelf⟩ := h.shelf s hs
  rw [hi, Option.map_some, hshelf.element]
  rfl

/-- **The elements of the cabinet that are shelves** are all of its children. -/
theorem shelvesOf (h : room.Furnished cabinet shelves w) (hchildren : cabinet.children = shelves) :
    Showroom.shelvesOf w.model room.cabinet = .ok shelves := by
  have hall : ∀ ids found : List InstanceId, (∀ s ∈ ids, s ∈ shelves) →
      ids.filterAuxM (w.model.isA · "Shelf") found = .ok (ids.reverse ++ found) := by
    intro ids
    induction ids with
    | nil => exact fun _ _ => rfl
    | cons s ids ih =>
      intro found hids
      rw [List.filterAuxM, h.isA_shelf (hids s List.mem_cons_self)]
      show ids.filterAuxM (w.model.isA · "Shelf") (s :: found) = _
      rw [ih _ fun s hs => hids s (List.mem_cons_of_mem _ hs), List.reverse_cons,
        List.append_assoc]
      rfl
  have helements : w.model.elements room.cabinet = .ok shelves := by
    unfold Model.elements Arena.find
    rw [h.there]
    show Except.ok (w.model.arena.elementsOf room.cabinet) = _
    rw [h.elementsOf hchildren]
  unfold Showroom.shelvesOf
  rw [helements]
  show shelves.filterM (w.model.isA · "Shelf") = _
  rw [List.filterM, hall shelves [] fun _ hs => hs, List.append_nil]
  exact congrArg Except.ok shelves.reverse_reverse

/-- **The catalog applies to the cabinet**: its program is its root. -/
theorem productDataOf (h : room.Furnished cabinet shelves w) :
    w.model.productDataOf room.cabinet = .ok (some (Showroom.catalog id)) := by
  obtain ⟨i, hi, -, hroot⟩ := h.environment
  have hfather : w.model.arena.father? room.cabinet = some room.environment := by
    rw [Arena.father?, h.there]
    exact h.isCabinet.father
  have htop : w.model.arena.father? room.environment = none := by
    rw [Arena.father?, hi]
    exact hroot
  have hpath : w.model.arena.path room.cabinet = [room.cabinet, room.environment] := by
    have hlt := (List.getElem?_eq_some_iff.mp (Arena.get?_eq_some_iff.mp h.there)).1
    obtain ⟨limit, hlimit⟩ : ∃ limit, w.model.arena.depthLimit = limit + 1 :=
      Nat.exists_eq_succ_of_ne_zero (by unfold Arena.depthLimit; omega)
    rw [Arena.path, hlimit, Arena.climb, hfather]
    cases limit with
    | zero => rfl
    | succ limit => simp only [Arena.climb, htop]
  have hprogram : w.model.programOf room.cabinet = .ok room.environment := by
    unfold Model.programOf Arena.find
    rw [h.there]
    dsimp only [bind, Except.bind]
    rw [h.isCabinet.program]
    dsimp only
    rw [Arena.rootOf, hpath]
    rfl
  unfold Model.productDataOf
  rw [hprogram]
  exact congrArg Except.ok h.catalog

end Room.Furnished

/-! ## Widths -/

namespace HaveWidth

variable {ids : List InstanceId} {v : Value}

/-- A change of an instance that is not among them. -/
theorem turn (h : HaveWidth w ids v) (hturn : w.Turns x i w') (hx : x ∉ ids) :
    HaveWidth w' ids v := by
  intro s hs i hi
  rw [hturn.apart.others s fun hsx => hx (hsx ▸ hs)] at hi
  exact h s hs i hi

theorem agrees (h : HaveWidth w ids v) (hagrees : w.Agrees w') : HaveWidth w' ids v := by
  intro s hs i hi
  rw [hagrees.model] at hi
  exact h s hs i hi

end HaveWidth

end ProductModel.Showroom
