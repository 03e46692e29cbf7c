import ProductModel.Proofs.Showroom.Changing
import ProductModel.Proofs.Showroom.Initializers

/-!
# Adding and removing elements of a cabinet

A tidy cabinet stays tidy when elements are added and removed, and once it has a shelf it keeps one.

* Only shelves are made; another type is refused before anything changes.  A new shelf copies the
  width of the cabinet (`Tidy.exists_addElement`).
* A shelf is removed unless it is the last one (`Tidy.exists_remove`).
-/

namespace ProductModel.Showroom

open ProductModel.Action

variable {σ : Type} {w w' : World Routine σ} {room : Room} {cabinet i j : Instance Routine}
  {shelves : List InstanceId} {s : InstanceId} (allowance : Nat)

/-! ## Removing -/

/-- Remembering names leaves a room furnished. -/
theorem Room.Furnished.remembered (h : room.Furnished cabinet shelves w) {named : Arena Routine}
    (honly : Arena.OnlyMemos w.model.arena named) (hi : named.get? room.cabinet = some i)
    (hmemo : i.forgetName = cabinet.forgetName) :
    room.Furnished i shelves { w with model := { w.model with arena := named } } where
  types := h.types
  validates := h.validates
  truthful := h.truthful
  stored := honly.stored h.stored
  catalog := h.catalog
  environment := by
    obtain ⟨e, he, htype, hfather⟩ := h.environment
    obtain ⟨e', he', hememo⟩ := honly.forth he
    exact ⟨e', he', (Instance.eq_of_forgetName hememo (·.type) fun _ => rfl).trans htype,
      (Instance.eq_of_forgetName hememo (·.father) fun _ => rfl).trans hfather⟩
  there := hi
  isCabinet := h.isCabinet.of_forgetName hmemo
  distinct := h.distinct
  shelf t ht := by
    obtain ⟨j, hj, hshelf⟩ := h.shelf t ht
    obtain ⟨j', hj', hjmemo⟩ := honly.forth hj
    exact ⟨j', hj', hshelf.of_forgetName hjmemo⟩

namespace Room.Tidy

/-- **Remembering names** leaves a cabinet tidy, with the same shelves. -/
theorem remembered (h : room.Tidy cabinet w) {named : Arena Routine}
    (honly : Arena.OnlyMemos w.model.arena named) :
    ∃ now, room.Tidy now { w with model := { w.model with arena := named } } ∧
      now.children = cabinet.children := by
  obtain ⟨now, hnow, hmemo⟩ := honly.forth h.furnished.there
  have hchildren : now.children = cabinet.children :=
    Instance.eq_of_forgetName hmemo (·.children) fun _ => rfl
  have hstored : ∀ key, now.stored key = cabinet.stored key := fun key =>
    Instance.eq_of_forgetName hmemo (·.stored key) fun _ => rfl
  refine ⟨now, ?_, hchildren⟩
  exact {
    furnished := hchildren ▸ h.furnished.remembered honly hnow hmemo
    idle := (Instance.eq_of_forgetName hmemo (·.busy) fun _ => rfl).trans h.idle
    solid := by rw [hstored, h.solid]
    fits := by rw [hstored, hstored, h.fits]
    even := by
      intro t ht j hj
      rw [hchildren] at ht
      obtain ⟨k, hk, hkmemo⟩ := honly.back hj
      rw [hstored, ← h.even t ht k hk]
      exact Instance.eq_of_forgetName hkmemo (·.stored width) fun _ => rfl }

/-- What is left when a shelf is taken out. -/
theorem get?_dropping (h : room.Tidy cabinet w) (hs : s ∈ cabinet.children) {t : InstanceId}
    (ht : t ≠ s) : (w.model.removeSubtree s (some room.cabinet)).2.arena.get? t =
      if some room.cabinet = some t then (w.model.arena.get? t).map (·.withoutChild s)
      else w.model.arena.get? t := by
  obtain ⟨i, hi, hshelf⟩ := h.furnished.shelf s hs
  rw [Model.arena_removeSubtree]
  exact Arena.get?_prune_of_childless (by rw [Arena.childrenOf_eq hi, hshelf.children]) ht _

/-- The other shelves and the environment are left as they are. -/
theorem get?_dropping_of_ne (h : room.Tidy cabinet w) (hs : s ∈ cabinet.children) {t : InstanceId}
    (ht : t ≠ s) (hcabinet : room.cabinet ≠ t) :
    (w.model.removeSubtree s (some room.cabinet)).2.arena.get? t = w.model.arena.get? t := by
  rw [h.get?_dropping hs ht, if_neg fun heq => hcabinet (Option.some.inj heq)]

theorem mem_dropping {t : InstanceId} :
    t ∈ (cabinet.withoutChild s).children ↔ t ∈ cabinet.children ∧ t ≠ s := by
  rw [Instance.withoutChild, List.mem_filter, decide_eq_true_eq]

/-- A room without one of its shelves is furnished. -/
theorem furnished_dropping (h : room.Tidy cabinet w) (hs : s ∈ cabinet.children) :
    room.Furnished (cabinet.withoutChild s) (cabinet.withoutChild s).children
      { w with model := (w.model.removeSubtree s (some room.cabinet)).2 } where
  types := h.furnished.types
  validates := h.furnished.validates
  truthful := h.furnished.truthful
  stored := by
    rw [Model.arena_removeSubtree]
    exact h.furnished.stored.prune s _
  catalog := by
    obtain ⟨i, hi, hshelf⟩ := h.furnished.shelf s hs
    have hdoomed : w.model.arena.postorder s = [s] :=
      Arena.postorder_of_childless (by rw [Arena.childrenOf_eq hi, hshelf.children])
    show ((w.model.arena.postorder s).foldl Association.erase w.model.products).get? _ = _
    rw [hdoomed, Association.get?_foldl_erase, h.furnished.catalog]
    exact fun hmem => h.furnished.environment_ne_shelf hs (List.mem_singleton.mp hmem)
  environment := by
    rw [h.get?_dropping_of_ne hs (h.furnished.environment_ne_shelf hs)
      (Ne.symm h.furnished.environment_ne_cabinet)]
    exact h.furnished.environment
  there := by
    rw [h.get?_dropping hs (h.furnished.cabinet_ne_shelf hs), if_pos rfl, h.furnished.there]
    rfl
  isCabinet :=
    have hcabinet := h.furnished.isCabinet
    ⟨hcabinet.type, hcabinet.father, hcabinet.state, hcabinet.program, hcabinet.properties⟩
  distinct := h.furnished.distinct.filter _
  shelf t ht := by
    obtain ⟨hmem, hne⟩ := mem_dropping.mp ht
    rw [h.get?_dropping_of_ne hs hne (h.furnished.cabinet_ne_shelf hmem)]
    exact h.furnished.shelf t hmem

/-- **What removing one shelf leaves**: a tidy cabinet with the other shelves. -/
theorem dropping (h : room.Tidy cabinet w) (hs : s ∈ cabinet.children) :
    room.Tidy (cabinet.withoutChild s)
      { w with model := (w.model.removeSubtree s (some room.cabinet)).2 } where
  furnished := h.furnished_dropping hs
  idle := h.idle
  solid := h.solid
  fits := h.fits
  even t ht j hj := by
    obtain ⟨hmem, hne⟩ := mem_dropping.mp ht
    rw [h.get?_dropping_of_ne hs hne (h.furnished.cabinet_ne_shelf hmem)] at hj
    exact h.even t hmem j hj

/-- **A removal is up to the rules**: the shelf is there, and nobody is busy. -/
theorem outcome_remove (h : room.Tidy cabinet w) (hs : w.model.arena.get? s = some i)
    (hshelf : room.IsShelf i) : ((language.engine allowance).remove s).outcome w =
      ((language.engine allowance).removeIfGranted s i).outcome w := by
  have hmodel : (Action.model : Action Routine σ (Model Routine)).outcome w =
      some (.ok w.model, w) := rfl
  have hnone : (ensureNoneBusy "remove" (w.model.arena.preorder s) :
      Action Routine σ Unit).outcome w = some (.ok (), w) := by
    rw [Arena.preorder_of_childless (by rw [Arena.childrenOf_eq hs, hshelf.children])]
    unfold ensureNoneBusy
    rw [outcome_bind_ok (outcome_ensureNotBusy hs hshelf.idle _)]
    rfl
  unfold Engine.remove
  rw [outcome_bind_ok (outcome_find hs), if_neg (not_not_intro hshelf.state),
    outcome_bind_ok hmodel, outcome_bind_ok hnone, hshelf.father]
  dsimp only
  rw [outcome_bind_ok (outcome_ensureNotBusy h.furnished.there h.idle _)]

/-- Where there is more than one shelf, another one is left. -/
theorem dropping_ne_nil (h : room.Tidy cabinet w) (hs : s ∈ cabinet.children)
    (hmany : 1 < cabinet.children.length) : (cabinet.withoutChild s).children ≠ [] := by
  have herase : (cabinet.withoutChild s).children = cabinet.children.erase s := by
    rw [h.furnished.distinct.erase_eq_filter s]
    exact List.filter_congr fun t _ => by by_cases hts : t = s <;> simp [hts]
  have hlength := List.length_erase_of_mem hs
  rw [herase]
  intro hempty
  rw [hempty, List.length_nil] at hlength
  omega

/-- **A shelf is removed unless it is the last one.** -/
theorem exists_remove (h : room.Tidy cabinet w)
    (hs : w.model.arena.contains s = true → s ∈ cabinet.children) :
    ∃ r w' after, (perform language (allowance + 1) (.remove s)).outcome w = some (r, w') ∧
      room.Tidy after w' ∧ (cabinet.children ≠ [] → after.children ≠ []) := by
  show ∃ r w' after, ((language.engine allowance).remove s).outcome w = some (r, w') ∧ _
  cases hget : w.model.arena.get? s with
  | none =>
    have hfind : (find s : Action Routine σ _).outcome w =
        some (.error (Arena.destroyedError s), w) := by
      show (Action.ofExcept (w.model.arena.find s) : Action Routine σ _).outcome w = _
      rw [Arena.find, hget]
      rfl
    exact ⟨_, w, cabinet, outcome_bind_error hfind, h, id⟩
  | some i =>
    have hmem := hs (Arena.contains_eq_true_iff.mpr ⟨i, hget⟩)
    obtain ⟨i', hi', hshelf⟩ := h.furnished.shelf s hmem
    obtain rfl : i = i' := Option.some.inj (hget.symm.trans hi')
    obtain ⟨r, hrules, hgranted⟩ := h.furnished.outcome_removeElement allowance rfl hmem
    rw [h.outcome_remove allowance hget hshelf]
    unfold Engine.removeIfGranted
    cases r with
    | rejected rejection =>
      have hask : ((language.engine allowance).askRemoval s i).outcome w =
          some (.ok (some rejection), w) := by
        unfold Engine.askRemoval
        rw [hshelf.father, hshelf.element]
        exact outcome_bind_ok hrules
      exact ⟨_, w, cabinet, outcome_bind_ok hask, h, id⟩
    | passed executed =>
      have hask : ((language.engine allowance).askRemoval s i).outcome w =
          some (.ok none, w) := by
        unfold Engine.askRemoval
        rw [hshelf.father, hshelf.element]
        refine (outcome_bind_ok hrules).trans ?_
        exact outcome_bind_ok (outcome_find hget)
      -- The name that the answer contains is remembered before the shelf goes.
      obtain ⟨now, htidy, hchildren⟩ := h.remembered (Arena.onlyMemos_describe s)
      have hnow : s ∈ now.children := by rwa [hchildren]
      let named : Model Routine := { w.model with arena := (w.model.arena.describe s).2 }
      refine ⟨.ok (.removed (named.removeSubtree s (some room.cabinet)).1), _, _, ?_,
        htidy.dropping hnow, fun _ => htidy.dropping_ne_nil hnow ?_⟩
      · rw [outcome_bind_ok hask, hshelf.father]
        rfl
      · rw [hchildren]
        exact hgranted.mp rfl

/-! ## Adding -/

/-- **A cabinet with one child more**, which is not a shelf yet. -/
theorem placing (h : room.Tidy cabinet w) {id : InstanceId} {new : Instance Routine}
    (hplaced : w.Placing (some room.cabinet) id new w') :
    room.Furnished (cabinet.withChild id) cabinet.children w' ∧ id ∉ cabinet.children ∧
      HaveWidth w' cabinet.children (cabinet.stored width) := by
  have hcabinet := h.furnished.isCabinet
  have hne : ∀ t ∈ cabinet.children, t ≠ id := by
    intro t ht
    obtain ⟨i, hi, -⟩ := h.furnished.shelf t ht
    exact hplaced.ne hi
  have hothers : ∀ t, t ≠ id → room.cabinet ≠ t →
      w'.model.arena.get? t = w.model.arena.get? t := by
    intro t ht htc
    rw [hplaced.others t ht, if_neg fun heq => htc (Option.some.inj heq)]
  have hshelves : ∀ t ∈ cabinet.children,
      w'.model.arena.get? t = w.model.arena.get? t :=
    fun t ht => hothers t (hne t ht) (h.furnished.cabinet_ne_shelf ht)
  refine ⟨?_, fun hmem => hne id hmem rfl, ?_⟩
  · exact {
      types := hplaced.types.trans h.furnished.types
      validates := hplaced.config ▸ h.furnished.validates
      truthful := hplaced.keeps.sound h.furnished.truthful
      stored := hplaced.keeps.stored h.furnished.stored
      catalog := hplaced.products ▸ h.furnished.catalog
      environment := by
        obtain ⟨e, he, hrest⟩ := h.furnished.environment
        rw [hothers _ (hplaced.ne he) (Ne.symm h.furnished.environment_ne_cabinet)]
        exact ⟨e, he, hrest⟩
      there := by
        rw [hplaced.others _ (hplaced.ne h.furnished.there), if_pos rfl,
          h.furnished.there]
        rfl
      isCabinet := ⟨hcabinet.type, hcabinet.father, hcabinet.state, hcabinet.program,
        hcabinet.properties⟩
      distinct := h.furnished.distinct
      shelf := by
        intro t ht
        rw [hshelves t ht]
        exact h.furnished.shelf t ht }
  · intro t ht i hi
    rw [hshelves t ht] at hi
    exact h.even t ht i hi

/-- **A new shelf** is made and is as wide as the others, or there is no slot for it. -/
theorem exists_createShelf (h : room.Tidy cabinet w) (name : String) (args : List Value) :
    (∃ err w', ((language.engine (allowance + 2)).create shelfId (some room.cabinet) name args
        true).outcome w = some (.error err, w') ∧ room.Tidy cabinet w') ∨
      ∃ id w', ((language.engine (allowance + 2)).create shelfId (some room.cabinet) name args
          true).outcome w = some (.ok id, w') ∧ room.Tidy (cabinet.withChild id) w' := by
  rcases outcome_place h.furnished.stored shelfId name true
      (fun f hf => ⟨cabinet, Option.some.inj hf ▸ h.furnished.there⟩) with
    ⟨err, hplace⟩ | ⟨id, w₁, hplace, hplaced⟩
  · refine Or.inl ⟨err, w.counting, outcome_bind_error hplace, ?_⟩
    exact h.turn (.counting h.furnished.there) h.furnished.isCabinet rfl rfl fun _ => rfl
  · obtain ⟨h₁, hfresh, hwidths⟩ := h.placing hplaced
    have hnascent : Nascent shelfId (w.model.newborn shelfId (some room.cabinet) name true) := by
      refine ⟨rfl, rfl, ?_, rfl⟩
      show (w.model.types.initialFields shelfId).contains article = true
      rw [h.furnished.types]
      rfl
    have hfound : w₁.finds shelfId Engine.initializeName =
        some (shelfId, { name := ⟨"initialize"⟩, body := .initializeShelf }) := by
      rw [finds_eq h₁.types h₁.truthful]
      rfl
    have hagrees := World.Agrees.lookingUp w₁ shelfId Engine.initializeName
    have hnew : (w₁.lookingUp shelfId Engine.initializeName).model.arena.get? id =
        some (w.model.newborn shelfId (some room.cabinet) name true) := by
      rw [hagrees.model, hplaced.new]
    have hne := hplaced.ne h.furnished.there
    obtain ⟨w₂, j, hrun, hturn, hset, hwidth⟩ := Equipped.exists_initializeShelf allowance
      (h₁.agrees hagrees) h.solid hnew hne hfresh hnascent rfl args
    obtain ⟨hcreate, hsettled⟩ := Engine.outcome_create_initialized
      (e := language.engine (allowance + 2)) hplace hplaced.new hfound rfl hrun hturn
    have hshelf : room.IsShelf { j with state := .live } :=
      ⟨hset.type, hset.father, hset.element, rfl, hset.busy, hset.children, hset.properties⟩
    have henvironment := h₁.ne_environment hplaced.new (show shelfId ≠ environmentId by decide)
    refine Or.inr ⟨id, w₂.settling id, hcreate, ?_⟩
    refine ⟨(h₁.turn_other henvironment hne hfresh hsettled).add hsettled.there hshelf hfresh,
      h.idle, h.solid, h.fits, fun t ht k hk => ?_⟩
    rcases List.mem_append.mp ht with ht | ht
    · exact hwidths.turn hsettled hfresh t ht k hk
    · rw [List.mem_singleton.mp ht, hsettled.there] at hk
      cases hk
      exact hwidth

/-- **How an element is added to a cabinet**: an accepted shelf is its last child, and otherwise
nothing was made. -/
inductive Adds (cabinet : Instance Routine) (typeName : String) :
    Except ModelError ElementOutcome → Instance Routine → Prop
  | failed (err : ModelError) : Adds cabinet typeName (.error err) cabinet
  | rejected (rejection : Rejection) : types.lookup typeName ≠ some shelfId →
      Adds cabinet typeName (.ok (.rejected rejection)) cabinet
  | accepted (id : InstanceId) :
      Adds cabinet typeName (.ok (.accepted id)) (cabinet.withChild id)

/-- **Whatever is added to a tidy cabinet**, it is tidy then. -/
theorem exists_addElement (h : room.Tidy cabinet w) (typeName : String) (args : List Value) :
    ∃ r w' after, (perform language (allowance + 3)
        (.addElement room.cabinet typeName args)).outcome w = some (r, w') ∧
      room.Tidy after w' ∧ Adds cabinet typeName r after := by
  show ∃ r w' after, ((language.engine (allowance + 2)).addElement room.cabinet typeName
    args).outcome w = some (r, w') ∧ _
  have hmodel : ∀ v : World Routine σ,
      (Action.model : Action Routine σ (Model Routine)).outcome v = some (.ok v.model, v) :=
    fun _ => rfl
  have hready := outcome_ensureAcceptsChildren h.furnished.there h.furnished.isCabinet.state h.idle
    "add an element to"
  unfold Engine.addElement
  rw [outcome_bind_ok hready]
  rcases outcome_instantiableType w typeName with ⟨err, htype⟩ | ⟨type, hlookup, htype⟩
  · exact ⟨_, w, cabinet, outcome_bind_error htype, h, .failed err⟩
  rw [h.furnished.types] at hlookup
  rw [outcome_bind_ok htype, outcome_bind_ok (hmodel w), h.furnished.types]
  obtain ⟨r, hrules, haccepts⟩ := h.furnished.outcome_createElement (allowance + 2) hlookup
  dsimp only
  rw [outcome_bind_ok hrules]
  cases r with
  | rejected rejection =>
    have hother : types.lookup typeName ≠ some shelfId := by
      rw [hlookup]
      intro hshelf
      exact Bool.false_ne_true (haccepts.mpr (Option.some.inj hshelf))
    exact ⟨_, w, cabinet, rfl, h, .rejected rejection hother⟩
  | passed executed =>
    obtain rfl := haccepts.mp rfl
    dsimp only
    rw [outcome_bind_ok (outcome_find h.furnished.there), outcome_bind_ok (hmodel w)]
    rcases h.exists_createShelf allowance
        (Naming.nextElementName (Engine.childNames w.model.arena room.cabinet)) args with
      ⟨err, w', hcreate, h'⟩ | ⟨id, w', hcreate, h'⟩
    · exact ⟨_, w', cabinet, outcome_bind_error hcreate, h', .failed err⟩
    · refine ⟨.ok (.accepted id), w', cabinet.withChild id, ?_, h', .accepted id⟩
      rw [outcome_bind_ok hcreate,
        outcome_bind_ok (h'.furnished.outcome_newElement (allowance + 2) (.ref id))]
      rfl

end Room.Tidy

end ProductModel.Showroom
