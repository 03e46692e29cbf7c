import ProductModel.Proofs.Showroom.Elements

/-!
# Building a showroom

A showroom that is built has a tidy cabinet, and a shelf if one was wished for
(`exists_build`).  Building always comes to an end; it fails only for want of a slot for an
instance.

Building goes through three stages: a root alone (`Rooted`), a root with its catalog and an empty
cabinet, and a cabinet with one shelf more each time.
-/

namespace ProductModel.Showroom

open ProductModel.Action

variable {σ : Type} {w w' : World Routine σ} {room : Room} {cabinet i j : Instance Routine}
  {environment : InstanceId} (allowance : Nat)

/-- Which shelves were made when the room was built does not matter. -/
theorem Room.Tidy.of_shelves {id : InstanceId} {made : List InstanceId}
    (h : (Room.mk environment id made).Tidy cabinet w) (made' : List InstanceId) :
    (Room.mk environment id made').Tidy cabinet w := by
  have hcabinet := h.furnished.isCabinet
  refine ⟨⟨h.furnished.types, h.furnished.validates, h.furnished.truthful, h.furnished.stored,
    h.furnished.catalog, h.furnished.environment, h.furnished.there,
    ⟨hcabinet.type, hcabinet.father, hcabinet.state, hcabinet.program, hcabinet.properties⟩,
    h.furnished.distinct, fun s hs => ?_⟩, h.idle, h.solid, h.fits, h.even⟩
  obtain ⟨i, hi, hshelf⟩ := h.furnished.shelf s hs
  exact ⟨i, hi, hshelf.type, hshelf.father, hshelf.element, hshelf.state, hshelf.idle,
    hshelf.children, hshelf.properties⟩

/-! ## The root -/

/-- **A world with a root of a showroom** that has no children yet. -/
structure Rooted (environment : InstanceId) (w : World Routine σ) : Prop where
  types : w.model.types = Showroom.types
  validates : w.config.validateProperties = true
  truthful : w.Truthful
  stored : w.model.arena.Stored
  environment : ∃ i, w.model.arena.get? environment = some i ∧ i.type = environmentId ∧
    i.father = none ∧ i.children = [] ∧ i.state = .live ∧ i.busy = 0

/-- A name is free that no child of the father, or no root, has. -/
theorem outcome_ensureNameFree {father : Option InstanceId} (name : String)
    (hfree : ∀ f, father = some f → w.model.arena.childrenOf f = [])
    (hroot : father = none → w.model.arena.roots = []) :
    (ensureNameFree father name : Action Routine σ Unit).outcome w = some (.ok (), w) := by
  have hmodel : (Action.model : Action Routine σ (Model Routine)).outcome w =
      some (.ok w.model, w) := rfl
  unfold ensureNameFree
  rw [outcome_bind_ok hmodel]
  cases father with
  | none =>
    dsimp only
    rw [Arena.rootNamed, hroot rfl]
    rfl
  | some f =>
    dsimp only
    rw [Arena.childNamed, hfree f rfl]
    rfl

/-- **Making the root.** -/
theorem exists_root (hvalidates : w.config.validateProperties = true)
    (hmodel : w.model = { types := types }) (hcache : w.cache = {}) :
    ∃ r w', (perform language (allowance + 1) (.instantiate "Environment" none "env" [])).outcome
        w = some (r, w') ∧ ∀ environment, r = .ok environment → Rooted environment w' := by
  have htypes : w.model.types = types := by rw [hmodel]
  have htruthful : w.Truthful :=
    fun _ => MethodCache.sound_of_entries_eq (by rw [hcache])
  have hstored : w.model.arena.Stored := by
    rw [hmodel]
    exact Arena.stored_empty
  have hvalid : (Action.ofExcept ((Naming.validate "env").mapError .creation) :
      Action Routine σ Unit).outcome w = some (.ok (), w) := rfl
  have hfree := outcome_ensureNameFree (w := w) "env"
    (fun f (hf : none = some f) => nomatch hf) fun _ => by rw [hmodel]
  show ∃ r w', ((language.engine allowance).instantiate "Environment" none "env" []).outcome w =
    some (r, w') ∧ _
  unfold Engine.instantiate
  rcases outcome_instantiableType w "Environment" with ⟨err, htype⟩ | ⟨type, hlookup, htype⟩
  · exact ⟨_, w, outcome_bind_error htype, fun _ h => nomatch h⟩
  rw [htypes] at hlookup
  obtain rfl : environmentId = type := Option.some.inj hlookup
  rw [outcome_bind_ok htype, outcome_bind_ok hvalid]
  dsimp only
  rw [outcome_bind_ok hfree]
  rcases outcome_place hstored environmentId "env" false
      (fun f (hf : none = some f) => nomatch hf) with
    ⟨err, hplace⟩ | ⟨id, w₁, hplace, hplaced⟩
  · exact ⟨_, w.counting, outcome_bind_error hplace, fun _ h => nomatch h⟩
  -- A root has no initializer.
  have hnone : w₁.finds environmentId Engine.initializeName = none := by
    rw [finds_eq (hplaced.types.trans htypes) (hplaced.keeps.sound htruthful)]
    rfl
  have hagrees := World.Agrees.lookingUp w₁ environmentId Engine.initializeName
  have hinit : ((language.engine allowance).initializeWith id []
      (w₁.finds environmentId Engine.initializeName)).outcome
        (w₁.lookingUp environmentId Engine.initializeName) =
          some (.ok (), w₁.lookingUp environmentId Engine.initializeName) := by
    rw [hnone]
    rfl
  have hturn : w₁.Turns id _ ((w₁.lookingUp environmentId Engine.initializeName).settling id) :=
    ((World.Turns.refl hplaced.new).agrees hagrees).trans
    (.modify (by rw [hagrees.model, hplaced.new]) fun i => { i with state := .live })
  refine ⟨.ok id, _, Engine.outcome_create hplace hinit, ?_⟩
  rintro _ ⟨⟩
  exact {
    types := hturn.apart.types.trans (hplaced.types.trans htypes)
    validates := by rw [hturn.apart.config, hplaced.config, hvalidates]
    truthful := hturn.truthful (hplaced.keeps.sound htruthful)
    stored := hturn.keeps.stored (hplaced.keeps.stored hstored)
    environment := ⟨_, hturn.there, rfl, rfl, rfl, rfl, rfl⟩ }

/-- **The root is given its catalog.** -/
theorem Rooted.outcome_setProductData (h : Rooted environment w) (data : ProductData Routine) :
    ∃ w', (perform language (allowance + 1) (.setProductData environment data)).outcome w =
        some (.ok (), w') ∧
      Rooted environment w' ∧ w'.model.products.get? environment = some data := by
  obtain ⟨i, hi, hrest⟩ := h.environment
  refine ⟨{ w with model := { w.model with
      products := w.model.products.insert environment data } }, ?_,
    ⟨h.types, h.validates, h.truthful, h.stored, i, hi, hrest⟩, ?_⟩
  · show (Action.setProductData environment data : Action Routine σ Unit).outcome w = _
    unfold setProductData
    rw [outcome_bind_ok (outcome_find hi)]
    rfl
  · exact Association.get?_insert_self ..

/-! ## The cabinet -/

/-- **A cabinet without shelves**, new under the root, is tidy. -/
theorem Rooted.tidy (h : Rooted environment w)
    (hcatalog : w.model.products.get? environment = some (catalog id)) {made : List InstanceId}
    {id : InstanceId} {new : Instance Routine} {w₁ w₂ : World Routine σ}
    (hplaced : w.Placing (some environment) id new w₁) (hturn : w₁.Turns id cabinet w₂)
    (hcabinet : (Room.mk environment id made).IsCabinet cabinet) (hchildren : cabinet.children = [])
    (hidle : cabinet.busy = 0) (hsolid : (cabinet.stored width).isVoid = false)
    (hfits : fits (cabinet.stored doors) (cabinet.stored width) = true) :
    (Room.mk environment id made).Tidy cabinet w₂ := by
  obtain ⟨e, he, htype, hfather, -⟩ := h.environment
  have hne := hplaced.ne he
  refine ⟨?_, hidle, hsolid, hfits, ?_⟩
  · rw [hchildren]
    exact {
      types := hturn.apart.types.trans (hplaced.types.trans h.types)
      validates := by rw [hturn.apart.config, hplaced.config, h.validates]
      truthful := hturn.truthful (hplaced.keeps.sound h.truthful)
      stored := hturn.keeps.stored (hplaced.keeps.stored h.stored)
      catalog := by rw [hturn.apart.products, hplaced.products, hcatalog]
      environment := by
        rw [hturn.apart.others _ hne, hplaced.others _ hne, if_pos rfl, he]
        exact ⟨e.withChild id, rfl, htype, hfather⟩
      there := hturn.there
      isCabinet := hcabinet
      distinct := List.nodup_nil
      shelf := fun s hs => absurd hs List.not_mem_nil }
  · rw [hchildren]
    exact fun s hs => absurd hs List.not_mem_nil

/-- **Making the cabinet**, which is tidy and empty. -/
theorem Rooted.exists_cabinet (h : Rooted environment w)
    (hcatalog : w.model.products.get? environment = some (catalog id)) (args : List Value)
    (made : List InstanceId) :
    ∃ r w', (perform language (allowance + 3)
        (.instantiate "Cabinet" (some environment) "cabinet" args)).outcome w = some (r, w') ∧
      ∀ id, r = .ok id → ∃ cabinet, (Room.mk environment id made).Tidy cabinet w' := by
  obtain ⟨e, he, hetype, hefather, hechildren, helive, heidle⟩ := h.environment
  have hvalid : (Action.ofExcept ((Naming.validate "cabinet").mapError .creation) :
      Action Routine σ Unit).outcome w = some (.ok (), w) := rfl
  have hready := outcome_ensureAcceptsChildren he helive heidle "create a child of"
  have hfree := outcome_ensureNameFree (w := w) "cabinet"
    (fun f (hf : some environment = some f) => by
      rw [← Option.some.inj hf, Arena.childrenOf_eq he, hechildren]) (nomatch ·)
  show ∃ r w', ((language.engine (allowance + 2)).instantiate "Cabinet" (some environment)
    "cabinet" args).outcome w = some (r, w') ∧ _
  unfold Engine.instantiate
  rcases outcome_instantiableType w "Cabinet" with ⟨err, htype⟩ | ⟨type, hlookup, htype⟩
  · exact ⟨_, w, outcome_bind_error htype, fun _ h => nomatch h⟩
  rw [h.types] at hlookup
  obtain rfl : cabinetId = type := Option.some.inj hlookup
  rw [outcome_bind_ok htype, outcome_bind_ok hvalid]
  dsimp only
  rw [outcome_bind_ok hready, outcome_bind_ok hfree]
  rcases outcome_place h.stored cabinetId "cabinet" false
      (fun f hf => ⟨e, Option.some.inj hf ▸ he⟩) with ⟨err, hplace⟩ | ⟨id, w₁, hplace, hplaced⟩
  · exact ⟨_, w.counting, outcome_bind_error hplace, fun _ h => nomatch h⟩
  -- The initializer finds the types of the showroom and an instance that was never touched.
  have hequipped : Equipped w₁ := ⟨hplaced.types.trans h.types, hplaced.keeps.sound h.truthful⟩
  have hagrees := World.Agrees.lookingUp w₁ cabinetId Engine.initializeName
  have hnascent : Nascent cabinetId
      (w.model.newborn cabinetId (some environment) "cabinet" false) := by
    refine ⟨rfl, rfl, ?_, rfl⟩
    show (w.model.types.initialFields cabinetId).contains article = true
    rw [h.types]
    rfl
  have hfound : w₁.finds cabinetId Engine.initializeName =
      some (cabinetId, { name := ⟨"initialize"⟩, body := .initializeCabinet }) := by
    rw [finds_eq hequipped.types hequipped.truthful]
    rfl
  obtain ⟨w₂, j, hrun, hturn, hset, hwidth, hdoors⟩ := Equipped.exists_initializeCabinet allowance
    (hequipped.turn ((World.Turns.refl hplaced.new).agrees hagrees))
    (by rw [hagrees.model, hplaced.new]) hnascent args
  obtain ⟨hcreate, hsettled⟩ := Engine.outcome_create_initialized
    (e := language.engine (allowance + 2)) hplace hplaced.new hfound rfl hrun hturn
  refine ⟨.ok id, _, hcreate, ?_⟩
  rintro _ ⟨⟩
  refine ⟨{ j with state := .live }, h.tidy hcatalog hplaced hsettled
    ⟨hset.type, hset.father, rfl, hset.program, hset.properties⟩ hset.children hset.busy ?_ ?_⟩
  · show (j.stored width).isVoid = false
    rw [hwidth]
    rfl
  · show fits (j.stored doors) (j.stored width) = true
    rw [hdoors]
    rfl

/-! ## The shelves -/

namespace Room.Tidy

/-- A change of what is not observed of the cabinet. -/
theorem outcome_update_cabinet (h : room.Tidy cabinet w) {f : Instance Routine → Instance Routine}
    (hcabinet : ∀ i, room.IsCabinet i → room.IsCabinet (f i))
    (hchildren : ∀ i, (f i).children = i.children) (hbusy : ∀ i, (f i).busy = i.busy)
    (hstored : ∀ i key, (f i).stored key = i.stored key) :
    ∃ w', (update room.cabinet f : Action Routine σ Unit).outcome w = some (.ok (), w') ∧
      room.Tidy (f cabinet) w' :=
  ⟨_, outcome_update h.furnished.there f, h.turn (.modify h.furnished.there f)
    (hcabinet _ h.furnished.isCabinet) (hchildren _) (hbusy _) (hstored _)⟩

/-- A change of what is not observed of a shelf. -/
theorem outcome_update_shelf (h : room.Tidy cabinet w) {s : InstanceId} (hs : s ∈ cabinet.children)
    {f : Instance Routine → Instance Routine} (hshelf : ∀ i, room.IsShelf i → room.IsShelf (f i))
    (hstored : ∀ i key, (f i).stored key = i.stored key) :
    ∃ w', (update s f : Action Routine σ Unit).outcome w = some (.ok (), w') ∧
      room.Tidy cabinet w' := by
  obtain ⟨i, hi, his⟩ := h.furnished.shelf s hs
  exact ⟨_, outcome_update hi f, h.turn_shelf hs hi (.modify hi f) (hshelf i his) (hstored i)⟩

/-- **Adding shelves** to a tidy cabinet leaves it tidy, and with a shelf if it had one or one was
wished for. -/
theorem exists_addShelves (h : room.Tidy cabinet w) (count from' : Nat) :
    ∃ r w', ((addShelves room.cabinet count from').run (perform language (allowance + 3))).outcome
        w = some (r, w') ∧
      ∀ ids, r = .ok ids → ∃ after, room.Tidy after w' ∧
        (cabinet.children ≠ [] ∨ 0 < count → after.children ≠ []) := by
  induction count generalizing w cabinet from' with
  | zero =>
    refine ⟨.ok [], w, rfl, fun _ _ => ⟨cabinet, h, ?_⟩⟩
    rintro (hsome | hlt)
    · exact hsome
    · exact absurd hlt (Nat.lt_irrefl 0)
  | succ count ih =>
    obtain ⟨r, w₁, after, hadd, h₁, hadds⟩ := h.exists_addElement allowance "Shelf"
      [.str "SHF-01"]
    unfold addShelves
    cases hadds with
    | failed err =>
      exact ⟨.error err, w₁, Program.outcome_run_call_bind_error hadd, fun _ h => nomatch h⟩
    | rejected rejection hother => exact absurd rfl hother
    | accepted id =>
      have hid : id ∈ (cabinet.withChild id).children :=
        List.mem_append_right _ List.mem_cons_self
      -- Where the shelf is and what it looks like is not observed.
      obtain ⟨w₂, hposition, h₂⟩ := h₁.outcome_update_shelf hid
        (f := fun i => { i with position := ⟨0.0, 0.3 * Float.ofNat (from' + 1), 0.0⟩ })
        (fun i hi => ⟨hi.type, hi.father, hi.element, hi.state, hi.idle, hi.children,
          hi.properties⟩) fun _ _ => rfl
      obtain ⟨w₃, hgeometry, h₃⟩ := h₂.outcome_update_shelf hid
        (f := fun i => { i with geometry := some (board shelfSize) })
        (fun i hi => ⟨hi.type, hi.father, hi.element, hi.state, hi.idle, hi.children,
          hi.properties⟩) fun _ _ => rfl
      have hposition' : (perform language (allowance + 3)
          (.setPosition id ⟨0.0, 0.3 * Float.ofNat (from' + 1), 0.0⟩)).outcome w₁ =
            some (.ok (), w₂) := hposition
      have hgeometry' : (perform language (allowance + 3)
          (.attachGeometry id (board shelfSize))).outcome w₂ = some (.ok (), w₃) := hgeometry
      obtain ⟨r, w₄, hrest, hafter⟩ := ih h₃ (from' + 1)
      rw [Program.outcome_run_call_bind_ok hadd]
      dsimp only [ElementOutcome.created?]
      rw [Program.outcome_run_call_bind_ok hposition',
        Program.outcome_run_call_bind_ok hgeometry']
      cases r with
      | error err => exact ⟨_, w₄, Program.outcome_run_bind_error hrest, fun _ h => nomatch h⟩
      | ok ids =>
        obtain ⟨after, htidy, hsome⟩ := hafter ids rfl
        refine ⟨.ok (id :: ids), w₄, Program.outcome_run_bind_ok hrest, fun _ _ =>
          ⟨after, htidy, fun _ => hsome (.inl (List.ne_nil_of_mem hid))⟩⟩

end Room.Tidy

/-! ## All of it -/

/-- **A showroom that is built has a tidy cabinet**, with a shelf if one was wished for. -/
theorem exists_build {config : Config} (hvalidates : config.validateProperties = true) (host : σ)
    (n : Nat) :
    ∃ r w', (Body.exec language (allowance + 3) (build id n)).outcome { config, host } =
        some (r, w') ∧
      ∀ room, r = .ok room → ∃ cabinet, room.Tidy cabinet w' ∧
        (0 < n → cabinet.children ≠ []) := by
  let w₀ : World Routine σ := { config, host }
  show ∃ r w', ((build id n).run (perform language (allowance + 3))).outcome w₀ =
    some (r, w') ∧ _
  unfold build
  rw [Program.outcome_run_bind_ok (outcome_install (w := w₀) rfl)]
  obtain ⟨r₁, w₁, hroot, h₁⟩ := exists_root (allowance + 2)
    (w := { w₀ with model := { w₀.model with types := types } }) hvalidates rfl rfl
  cases r₁ with
  | error err =>
    exact ⟨_, w₁, Program.outcome_run_call_bind_error hroot, fun _ h => nomatch h⟩
  | ok environment =>
    rw [Program.outcome_run_call_bind_ok hroot]
    obtain ⟨w₂, hdata, h₂, hcatalog⟩ :=
      (h₁ environment rfl).outcome_setProductData (allowance + 2) (catalog id)
    rw [Program.outcome_run_call_bind_ok hdata]
    obtain ⟨r₃, w₃, hcabinet, h₃⟩ := h₂.exists_cabinet allowance hcatalog [.str "CAB-80"] []
    cases r₃ with
    | error err =>
      exact ⟨_, w₃, Program.outcome_run_call_bind_error hcabinet, fun _ h => nomatch h⟩
    | ok id =>
      obtain ⟨cabinet, h₃⟩ := h₃ id rfl
      rw [Program.outcome_run_call_bind_ok hcabinet]
      obtain ⟨w₄, hgeometry, h₄⟩ := h₃.outcome_update_cabinet
        (f := fun i => { i with geometry := some (board cabinetSize) })
        (fun i hi => ⟨hi.type, hi.father, hi.state, hi.program, hi.properties⟩)
        (fun _ => rfl) (fun _ => rfl) fun _ _ => rfl
      have hgeometry' : (perform language (allowance + 3)
          (.attachGeometry id (board cabinetSize))).outcome w₃ = some (.ok (), w₄) := hgeometry
      rw [Program.outcome_run_call_bind_ok hgeometry']
      obtain ⟨r₅, w₅, hshelves, h₅⟩ := h₄.exists_addShelves allowance n 0
      cases r₅ with
      | error err => exact ⟨_, w₅, Program.outcome_run_bind_error hshelves, fun _ h => nomatch h⟩
      | ok shelves =>
        obtain ⟨after, htidy, hsome⟩ := h₅ shelves rfl
        refine ⟨.ok ⟨environment, id, shelves⟩, w₅, Program.outcome_run_bind_ok hshelves, ?_⟩
        rintro _ ⟨⟩
        exact ⟨after, htidy.of_shelves shelves, fun hn => hsome (.inr hn)⟩

end ProductModel.Showroom
