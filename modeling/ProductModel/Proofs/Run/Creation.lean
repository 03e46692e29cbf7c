import ProductModel.Proofs.ElementName
import ProductModel.Proofs.Run.Calls

/-!
# Creation, removal and naming follow the rules

The checks of these operations establish what the edits ask for.  Between a check and the edit that
relies on it rules may run; what was checked then holds again at the edit, because the same chains
are under way (`Sound.idle_of_idle`, `Sound.idle_under`), because a chain protects its subject
(`Stood`), or because a new instance is newer than every subject (`Sound.idle_of_newer`).
-/

namespace ProductModel

open ProductModel.Action

variable {β τ α : Type} {seen : τ → Watch β} {pending : List Pending} {w w' : World β τ}
  {id father : InstanceId} {name : String}

/-! ## Checks -/

namespace Leads

/-- The type of an instance to be, which leaves everything as it is. -/
theorem instantiableType {typeName : String} {post : TypeId → World β τ → Prop}
    (hw : Reachable pending w.model) (hpost : ∀ type, post type w) :
    Leads seen pending (Action.instantiableType typeName) w post := by
  unfold Action.instantiableType
  refine ask_bind hw fun type _ => model_bind hw ?_
  dsimp only
  split
  · exact .throw_bind hw
  · exact .pure hw (hpost type)

/-- **An instance that accepts children** is there and idle. -/
theorem ensureAcceptsChildren {operation : String} {post : Unit → World β τ → Prop}
    (hw : Reachable pending w.model)
    (hpost : ∀ i, w.model.arena.get? father = some i → w.model.busyOf father = 0 → post () w) :
    Leads seen pending (Action.ensureAcceptsChildren father operation) w post := by
  unfold Action.ensureAcceptsChildren
  refine find_bind hw fun i _ => ?_
  dsimp only
  split
  · exact .describe_throw_bind hw
  · exact .ensureNotBusy hw hpost

theorem instantiableType_bind {typeName : String} {f : TypeId → Action β τ α}
    {post : α → World β τ → Prop} (hw : Reachable pending w.model)
    (hf : ∀ type, Leads seen pending (f type) w post) :
    Leads seen pending (Action.instantiableType typeName >>= f) w post :=
  look_bind (fun _ => True) (instantiableType hw fun _ => ⟨rfl, True.intro⟩)
    fun type _ => hf type

theorem ensureAcceptsChildren_bind {operation : String} {f : Unit → Action β τ α}
    {post : α → World β τ → Prop} (hw : Reachable pending w.model)
    (hf : ∀ i, w.model.arena.get? father = some i → w.model.busyOf father = 0 →
      Leads seen pending (f ()) w post) :
    Leads seen pending (Action.ensureAcceptsChildren father operation >>= f) w post :=
  look_bind (fun _ => ∃ i, w.model.arena.get? father = some i ∧ w.model.busyOf father = 0)
    (ensureAcceptsChildren hw fun i hi hidle => ⟨rfl, i, hi, hidle⟩)
    fun _ ⟨i, hi, hidle⟩ => hf i hi hidle

end Leads

theorem findNamed_isSome {a : Arena β} {ids : List InstanceId} :
    (a.findNamed ids name).isSome = true ↔ ∃ c ∈ ids, a.localName? c = some name := by
  unfold Arena.findNamed
  rw [List.find?_isSome]
  simp only [beq_iff_eq]

namespace Leads

/-- **A name that is not refused is free.** -/
theorem ensureNameFree {father : Option InstanceId} {post : Unit → World β τ → Prop}
    (hw : Reachable pending w.model)
    (hpost : w.model.arena.NameFree father name → post () w) :
    Leads seen pending (Action.ensureNameFree father name) w post := by
  unfold Action.ensureNameFree
  refine model_bind hw ?_
  have hfree : (w.model.arena.findNamed (w.model.arena.siblings father) name).isSome ≠ true →
      w.model.arena.NameFree father name := by
    intro hnone c hc heq
    exact hnone (findNamed_isSome.mpr ⟨c, hc, heq⟩)
  cases father with
  | some f =>
    dsimp only
    split
    · exact .describe_throw hw
    · rename_i hnone
      exact .pure hw (hpost (hfree hnone))
  | none =>
    dsimp only
    split
    · exact .throw hw
    · rename_i hnone
      exact .pure hw (hpost (hfree hnone))

theorem ensureNameFree_bind {father : Option InstanceId} {f : Unit → Action β τ α}
    {post : α → World β τ → Prop} (hw : Reachable pending w.model)
    (hf : w.model.arena.NameFree father name → Leads seen pending (f ()) w post) :
    Leads seen pending (Action.ensureNameFree father name >>= f) w post :=
  look_bind _ (ensureNameFree hw fun hfree => ⟨rfl, hfree⟩) fun _ hfree => hf hfree

theorem ensureNoneBusy {operation : String} {ids : List InstanceId}
    {post : Unit → World β τ → Prop} (hw : Reachable pending w.model)
    (hpost : (∀ y ∈ ids, w.model.busyOf y = 0) → post () w) :
    Leads seen pending (Action.ensureNoneBusy operation ids) w post := by
  induction ids with
  | nil => exact .pure hw (hpost fun _ hy => nomatch hy)
  | cons id ids ih =>
    unfold Action.ensureNoneBusy
    refine ensureNotBusy_bind hw fun hidle => ih fun hrest => hpost ?_
    intro y hy
    rcases List.mem_cons.mp hy with rfl | hy
    · exact hidle
    · exact hrest y hy

theorem ensureNoneBusy_bind {operation : String} {ids : List InstanceId} {f : Unit → Action β τ α}
    {post : α → World β τ → Prop} (hw : Reachable pending w.model)
    (hf : (∀ y ∈ ids, w.model.busyOf y = 0) → Leads seen pending (f ()) w post) :
    Leads seen pending (Action.ensureNoneBusy operation ids >>= f) w post :=
  look_bind (fun _ => ∀ y ∈ ids, w.model.busyOf y = 0)
    (ensureNoneBusy hw fun hidle => ⟨rfl, hidle⟩) fun _ hidle => hf hidle

end Leads

/-! ## Names and elements -/

/-- A result is one whatever would have become of an error. -/
theorem ok_of_mapError {ε ε' : Type} {f : ε → ε'} {r : Except ε α} {a : α}
    (h : r.mapError f = .ok a) : r = .ok a := by
  cases r with
  | ok b =>
    cases h
    rfl
  | error err => cases h

theorem follows_rename (id : InstanceId) (name : String) :
    Follows seen (rename id name : Action β τ Unit) := by
  constructor
  intro pending w hw
  unfold rename
  refine .ofExcept_bind hw fun _ hvalid => .ensureNotBusy_bind hw fun hidle => ?_
  refine .find_bind hw fun i hi => ?_
  split
  · exact .pure hw True.intro
  -- The name is changed only where neither the instance nor its father is busy.
  have hrest : (∀ f, i.father = some f → w.model.busyOf f = 0) →
      Leads seen pending (do
        ensureNameFree i.father name
        modifyModel fun m => m.renamed id name) w fun _ _ => True := by
    intro hfather
    refine .ensureNameFree_bind hw fun hfree => ?_
    have hident := Naming.isIdentifier_of_validate (ok_of_mapError hvalid)
    exact .modifyModel hw (.rename hi hidle hfather hident hfree) (.renamed _ id name) (.refl _)
      True.intro
  cases hf : i.father with
  | none =>
    rw [hf] at hrest
    exact hrest fun f h => nomatch h
  | some f =>
    rw [hf] at hrest
    refine .ensureNotBusy_bind hw fun hfather => hrest ?_
    intro g hg
    cases hg
    exact hfather

/-- Whether an idle instance is an element can be changed. -/
theorem leads_setElement (element : Bool) (hw : Reachable pending w.model)
    (hidle : w.model.busyOf id = 0) :
    Leads seen pending (update id fun i => { i with element } : Action β τ Unit) w
      fun _ _ => True :=
  .arrange hw hidle (fun _ => rfl) (fun _ => rfl) fun _ _ => True.intro

theorem follows_beElement (id : InstanceId) :
    Follows seen (beElement id : Action β τ Unit) := by
  constructor
  intro pending w hw
  unfold beElement
  refine .find_bind hw fun i _ => ?_
  dsimp only
  split
  · exact .describe_throw_bind hw
  · refine .ensureNotBusy_bind hw fun hidle => ?_
    exact leads_setElement true hw hidle

theorem follows_unBeElement (id : InstanceId) :
    Follows seen (unBeElement id : Action β τ Unit) := by
  constructor
  intro pending w hw
  unfold unBeElement
  refine .find_bind hw fun i _ => ?_
  dsimp only
  split
  · exact .describe_throw_bind hw
  · refine .ensureNotBusy_bind hw fun hidle => ?_
    exact leads_setElement false hw hidle

/-! ## Placing an instance -/

/-- A father that may get a child: none, or an idle one that is there. -/
def FatherReady (m : Model β) (father : Option InstanceId) : Prop :=
  ∀ f, father = some f → (∃ i, m.arena.get? f = some i) ∧ m.busyOf f = 0

theorem placed_of_insert {m : Model β} {i : Instance β} {b : Arena β} (h : m.Coherent)
    (hins : m.arena.nextOrder.2.insert i = .ok (id, b)) (hchildren : i.children = [])
    (horder : i.order = m.arena.lastOrder + 1) (hready : FatherReady m i.father)
    (hidle : i.busy = 0) (hmemo : i.memo = none)
    (hident : Naming.isIdentifier i.localName = true)
    (hfree : m.arena.NameFree i.father i.localName) :
    Placed m id { i with state := .initializing }
      { m with arena :=
          (b.adopt i.father id).modify id fun i => { i with state := .initializing } } := by
  have hnext := h.stored.nextOrder
  have hlast : b.lastOrder = m.arena.lastOrder + 1 := Arena.lastOrder_of_insert hnext hins
  -- Its number is greater than all that were given out before.
  have hlatest : ∀ {y j}, m.arena.nextOrder.2.get? y = some j → j.order < i.order := by
    intro y j hj
    have hle : j.order ≤ m.arena.lastOrder := h.ordered hj
    omega
  have g := Arena.grown_adopt hnext hins hchildren hlatest fun {f} hf => (hready f hf).1
  have g' : Arena.Grown m.arena (b.adopt i.father id) id i :=
    ⟨g.fresh, g.new, hchildren, g.latest, g.father, g.kept, g.roots⟩
  exact {
    grown := g'.modify _ rfl
    stored := ((hnext.insert hins).adopt i.father id).modify _
    order := horder
    lastOrder := by rw [Arena.lastOrder_modify, Arena.lastOrder_adopt, hlast, horder]
    products := rfl
    changes := rfl
    state := rfl
    idle := hidle
    memo := hmemo
    fatherIdle := fun f hf => (hready f hf).2
    identifier := hident
    free := hfree }

/-- **Placing an instance** makes one instance more, or fails for want of a slot. -/
theorem place_always (type : TypeId) {father : Option InstanceId} (element : Bool)
    (hw : Reachable pending w.model) (hready : FatherReady w.model father)
    (hident : Naming.isIdentifier name = true) (hfree : w.model.arena.NameFree father name) :
    (place type father name element : Action β τ InstanceId).Always w
      (fun id w' => ∃ i, Placed w.model id i w'.model ∧ i.father = father ∧ w'.host = w.host)
      (fun _ w' => Reached seen pending w w') := by
  unfold place insertNew
  simp only [always_bind]
  rw [always_model, always_modifyModel, always_ofExcept]
  constructor
  · rintro ⟨id, b⟩ hins
    rw [always_modifyModel, always_pure, always_update]
    have hplaced := placed_of_insert hw.sound.coherent (ok_of_mapError hins) rfl rfl hready rfl rfl
      hident hfree
    constructor
    · intro i _
      rw [always_pure]
      cases father <;> exact ⟨_, hplaced, rfl, rfl⟩
    · -- What was just inserted is there.
      intro hnone
      have hnew := hplaced.grown.new
      rw [Arena.get?_modify_self] at hnew
      cases father <;> exact absurd (hnew.symm.trans (congrArg _ hnone)) (by simp)
  · intro err _
    have hnext := Retouched.nextOrder w.model
    exact .of_edit hw (.retouch hnext) hnext.spared (.refl _) rfl

/-! ## Initialization -/

section Birth

variable {i : Instance β}

/-- Time passes while an instance that is being initialized is discarded. -/
theorem aged_discarding {m : Model β} {moment : Nat} (h : Sound (.birth id moment :: pending) m) :
    Aged m (m.discarding id) := by
  unfold Model.discarding
  cases hi : m.arena.get? id with
  | none => exact .refl m
  | some i =>
    obtain ⟨hidle, hfather⟩ := h.discardable hi
    exact (careful_removeSubtree h.coherent hi hidle hfather).aged

/-- The world in which an initialization ended well. -/
def World.settling (w : World β τ) (id : InstanceId) : World β τ :=
  { w with model := w.model.settling id }

/-- The world in which an initialization failed. -/
def World.discarding (w : World β τ) (id : InstanceId) : World β τ :=
  { w with model := w.model.discarding id }

variable {w₁ w₂ : World β τ} (hw : Reachable pending w.model)
  (hplaced : Placed w.model id i w₁.model) (hhost : w₁.host = w.host)
  (h : Inside seen (.birth id w.model.arena.lastOrder) pending w₁ w₂)
include hw hplaced hhost h

/-- **From the placing of an instance to the end of its initialization** is a stretch of the run
around it. -/
theorem reached_of_settling : Reached seen pending w (w₂.settling id) := by
  have hend := careful_modify h.reachable.sound.coherent id
    (f := fun i => { i with state := .live }) fun _ => rfl
  have hstart := (hplaced.careful hw.sound.coherent).aged
  exact h.reached hstart (.place hplaced) h.reachable.settle hend.aged (.modify _ id fun _ => rfl)
    hplaced.changes rfl (by rw [hhost]) rfl

theorem reached_of_discarding : Reached seen pending w (w₂.discarding id) := by
  have hstart := (hplaced.careful hw.sound.coherent).aged
  have hchanges : (w₂.model.discarding id).changes = w₂.model.changes := by
    unfold Model.discarding
    cases w₂.model.arena.get? id <;> rfl
  exact h.reached hstart (.place hplaced) h.reachable.discard (aged_discarding h.reachable.sound)
    (.discarding h.reachable.sound h.reachable.staged) hplaced.changes hchanges (by rw [hhost]) rfl

omit hw hplaced hhost in
/-- After its initialization an instance is newer than everything that was there before, even if
it is another one under the same handle. -/
theorem newer_of_settling {j : Instance β}
    (hj : (w₂.settling id).model.arena.get? id = some j) :
    w.model.arena.lastOrder < j.order := by
  have hnewer := (h.reachable.sound.held _ List.mem_cons_self).2
  have hafter : ((w₂.model.arena.modify id _).get? id) = some j := hj
  rw [Arena.get?_modify_self] at hafter
  obtain ⟨k, hk, rfl⟩ := Option.map_eq_some_iff.mp hafter
  exact hnewer k hk

omit hw hhost in
/-- **An instance that was initialized is live**, under the father it was placed under, unless that
father is gone. -/
theorem live_of_settling :
    (∃ j, (w₂.settling id).model.arena.get? id = some j ∧ j.state = .live ∧ j.father = i.father) ∨
      ∃ f, i.father = some f ∧ ∀ j, (w₂.settling id).model.arena.get? f = some j →
        w.model.arena.lastOrder < j.order := by
  have hborn : BeingBorn (.birth id w.model.arena.lastOrder :: pending) id i.order :=
    ⟨_, List.mem_cons_self, hplaced.order⟩
  have hspared := h.spared.trans (.modify w₂.model id (f := fun i => { i with state := .live })
    fun _ => rfl) h.aged (Careful.aged (careful_modify h.reachable.sound.coherent id fun _ => rfl))
  rcases hspared.lasts hplaced.grown.new hborn (Nat.le_of_eq hplaced.lastOrder.symm) with
    ⟨j, hj, -, hfather⟩ | ⟨f, hf, hgone⟩
  · have hafter : ((w₂.model.arena.modify id _).get? id) = some j := hj
    rw [Arena.get?_modify_self] at hafter
    obtain ⟨k, -, rfl⟩ := Option.map_eq_some_iff.mp hafter
    exact Or.inl ⟨_, hj, rfl, hfather⟩
  · refine Or.inr ⟨f, hf, fun j hj => ?_⟩
    have hnewer := hgone j hj
    have horder := hplaced.order
    omega

end Birth

/-- **What a creation leaves behind.** -/
structure Created (w : World β τ) (father : Option InstanceId) (id : InstanceId)
    (w' : World β τ) : Prop where
  ready : FatherReady w.model father
  /-- whatever has the handle is newer than everything that was there before -/
  newer : ∀ {j}, w'.model.arena.get? id = some j → w.model.arena.lastOrder < j.order
  /-- the instance is live under its father, or its father is gone -/
  there : (∃ j, w'.model.arena.get? id = some j ∧ j.state = .live ∧ j.father = father) ∨
    ∃ f, father = some f ∧ ∀ j, w'.model.arena.get? f = some j →
      w.model.arena.lastOrder < j.order

theorem discard_always {ok : Unit → World β τ → Prop} {err : ModelError → World β τ → Prop}
    (hok : ok () (w.discarding id)) : (Action.discard id : Action β τ Unit).Always w ok err := by
  unfold Action.discard
  rw [always_modifyModel]
  exact hok

/-- The name that is generated for an element is free. -/
theorem nameFree_nextElementName (a : Arena β) (f : InstanceId) :
    a.NameFree (some f) (Naming.nextElementName (Engine.childNames a f)) := by
  intro c hc heq
  exact Naming.nextElementName_not_mem _ (List.mem_filterMap.mpr ⟨c, hc, heq⟩)

namespace Engine.Lawful

variable {e : Engine β τ} (h : e.Lawful seen)
include h

/-- **A call of an initializer** runs inside the birth of its instance. -/
theorem invokeInitializer_always {moment : Nat} {i : Instance β} (m : Method β) (args : List Value)
    (hw : Reachable (.birth id moment :: pending) w.model) (hi : w.model.arena.get? id = some i)
    (horder : i.order = moment + 1) :
    (e.invokeInitializer id m args).Always w
      (fun _ w' => Inside seen (.birth id moment) pending w w')
      (fun _ w' => Inside seen (.birth id moment) pending w w') := by
  unfold invokeInitializer
  rw [always_bind]
  refine Always.mono (checkCall_always m (some id) args) ?_ ?_
  · rintro _ _ rfl
    exact h.initializer m.body id args hw ⟨i, hi, horder⟩
  · rintro _ _ rfl
    exact .refl hw

/-- **An initialization** ends well inside the birth of its instance, or ends the birth. -/
theorem runInitializer_always {i : Instance β} {w₁ w₂ : World β τ} (m : Method β)
    (args : List Value) (hw : Reachable pending w.model) (hplaced : Placed w.model id i w₁.model)
    (hhost : w₁.host = w.host) (hmodel : w₂.model = w₁.model)
    (hinside : Inside seen (.birth id w.model.arena.lastOrder) pending w₁ w₂) :
    (e.runInitializer id m args).Always w₂
      (fun _ w₃ => Inside seen (.birth id w.model.arena.lastOrder) pending w₁ w₃)
      (fun _ w₃ => Reached seen pending w w₃) := by
  unfold runInitializer
  rw [always_bind, always_attempt]
  have hthere : w₂.model.arena.get? id = some i := by rw [hmodel, hplaced.grown.new]
  refine Always.mono
    (h.invokeInitializer_always m args hinside.reachable hthere hplaced.order) ?_ ?_
  · intro v w₃ hinside'
    exact (always_pure _).mpr (hinside.trans hinside')
  · intro err w₃ hinside'
    dsimp only
    rw [always_bind]
    refine discard_always ?_
    rw [always_throw]
    exact reached_of_discarding hw hplaced hhost (hinside.trans hinside')

theorem initializeWith_always {i : Instance β} {w₁ w₂ : World β τ} (found : FoundMethod β)
    (args : List Value) (hw : Reachable pending w.model) (hplaced : Placed w.model id i w₁.model)
    (hhost : w₁.host = w.host) (hmodel : w₂.model = w₁.model)
    (hinside : Inside seen (.birth id w.model.arena.lastOrder) pending w₁ w₂) :
    (e.initializeWith id args found).Always w₂
      (fun _ w₃ => Inside seen (.birth id w.model.arena.lastOrder) pending w₁ w₃)
      (fun _ w₃ => Reached seen pending w w₃) := by
  cases found with
  | none => exact (always_pure _).mpr hinside
  | some entry => exact h.runInitializer_always entry.2 args hw hplaced hhost hmodel hinside

/-- **Creating an instance** under an idle father, or as a root, under a name that is free there. -/
theorem create_leads (type : TypeId) {father : Option InstanceId} (args : List Value)
    (element : Bool) (hw : Reachable pending w.model) (hready : FatherReady w.model father)
    (hident : Naming.isIdentifier name = true) (hfree : w.model.arena.NameFree father name) :
    Leads seen pending (e.create type father name args element) w fun id w' =>
      Created w father id w' := by
  unfold Engine.create
  refine (always_bind _ _).mpr
    (Always.mono (place_always type element hw hready hident hfree) ?_ fun _ _ hr => hr)
  rintro id w₁ ⟨i, hplaced, rfl, hhost⟩
  have hbirth := hw.place hplaced
  -- Whatever is done until then, the birth ends in the same way.
  have hend : ∀ w₂, Inside seen (.birth id w.model.arena.lastOrder) pending w₁ w₂ →
      (do updateIfThere id fun i => { i with state := .live }
          return id : Action β τ InstanceId).Always w₂
        (fun id w' => Reached seen pending w w' ∧ Created w i.father id w')
        (fun _ w' => Reached seen pending w w') := by
    intro w₂ hreach
    rw [always_bind, always_updateIfThere, always_pure]
    exact ⟨reached_of_settling hw hplaced hhost hreach,
      ⟨hready, fun hj => newer_of_settling hreach hj, live_of_settling hplaced hreach⟩⟩
  have hfound : ∀ (found : FoundMethod β) (w₂ : World β τ), w₂.model = w₁.model →
      Inside seen (.birth id w.model.arena.lastOrder) pending w₁ w₂ →
      (do e.initializeWith id args found
          updateIfThere id fun i => { i with state := .live }
          return id : Action β τ InstanceId).Always w₂
        (fun id w' => Reached seen pending w w' ∧ Created w i.father id w')
        (fun _ w' => Reached seen pending w w') := by
    intro found w₂ hmodel hinside
    refine (always_bind _ _).mpr
      (Always.mono (h.initializeWith_always found args hw hplaced hhost hmodel hinside) ?_ ?_)
    · exact fun _ w₃ hreach' => hend w₃ hreach'
    · exact fun _ _ hr => hr
  refine (always_bind _ _).mpr ((always_findMethod _ _).mpr ?_)
  split
  · exact hfound _ _ rfl (.of_quiet hbirth (.refl _) (.refl _ _) (.refl _) rfl)
  · exact hfound _ _ rfl (.refl hbirth)

/-- **Instantiating a type**: the checks look, and then the instance is created. -/
theorem instantiate_leads (typeName : String) (father : Option InstanceId) (name : String)
    (args : List Value) (hw : Reachable pending w.model) :
    Leads seen pending (e.instantiate typeName father name args) w fun id w' =>
      Created w father id w' := by
  unfold Engine.instantiate
  refine .instantiableType_bind hw fun type => .ofExcept_bind hw fun _ hvalid => ?_
  have hident := Naming.isIdentifier_of_validate (ok_of_mapError hvalid)
  have hcreate : FatherReady w.model father → Leads seen pending (do
      ensureNameFree father name
      e.create type father name args false) w fun id w' => Created w father id w' := by
    intro hready
    refine .ensureNameFree_bind hw fun hfree => ?_
    exact h.create_leads type args false hw hready hident hfree
  cases father with
  | none => exact hcreate fun f hf => nomatch hf
  | some f =>
    refine .ensureAcceptsChildren_bind hw fun i hi hidle => hcreate ?_
    rintro g ⟨⟩
    exact ⟨⟨i, hi⟩, hidle⟩

theorem instantiate (typeName : String) (father : Option InstanceId) (name : String)
    (args : List Value) : Follows seen (e.instantiate typeName father name args) :=
  ⟨fun hw => (h.instantiate_leads typeName father name args hw).trivial⟩

/-- **Adding an element.**  The father was idle when it was checked and is so after its rules; the
new instance is idle when it is to be no element after all. -/
theorem addElement (father : InstanceId) (typeName : String) (args : List Value) :
    Follows seen (e.addElement father typeName args) := by
  constructor
  intro pending w hw
  unfold Engine.addElement
  refine .ensureAcceptsChildren_bind hw fun _ _ hidle => ?_
  refine .instantiableType_bind hw fun type => .model_bind hw ?_
  refine ((h.callRules _ _ _ _).leads hw).bind fun outcome w₁ hreach₁ _ => ?_
  split
  · exact .pure hreach₁.reachable True.intro
  refine .find_bind hreach₁.reachable fun f hf => .model_bind hreach₁.reachable ?_
  have hready : FatherReady w₁.model (some father) := by
    rintro g ⟨⟩
    exact ⟨⟨f, hf⟩, hw.sound.idle_of_idle hreach₁.sound hidle⟩
  have hident := Naming.isIdentifier_nextElementName (childNames w₁.model.arena father)
  have hfree := nameFree_nextElementName w₁.model.arena father
  dsimp only
  refine (h.create_leads type args true hreach₁.reachable hready hident hfree).bind ?_
  intro child w₂ hreach₂ hcreated
  refine ((h.callRules _ _ _ _).leads hreach₂.reachable).bind fun outcome w₃ hreach₃ _ => ?_
  split
  · exact .pure hreach₃.reachable True.intro
  · cases hj : w₃.model.arena.get? child with
    | none =>
      refine Leads.bind (P := fun _ _ => True) (.update hreach₃.reachable ?_ ?_)
        fun _ _ hr _ => .pure hr.reachable True.intro
      all_goals
        intro i hi
        rw [hj] at hi
        cases hi
    | some j =>
      -- The handle may have been given to another instance since, which is newer still.
      have hnew : w₁.model.arena.lastOrder < j.order := by
        rcases hreach₃.aged.origin hj with ⟨i, hi, horder, -⟩ | hlt
        · rw [← horder]
          exact hcreated.newer hi
        · exact Nat.lt_of_le_of_lt hreach₂.aged.lastOrder hlt
      have hidle := hreach₁.sound.idle_of_newer hreach₃.sound hj hnew
      exact (leads_setElement false hreach₃.reachable hidle).bind
        fun _ _ hr _ => .pure hr.reachable True.intro

/-! ## Removal -/

/-- **After the father's rules have been asked, the instance is still there**, under the father it
had: the chain protects the father's children. -/
theorem askRemoval_leads {i : Instance β} (hw : Reachable pending w.model)
    (hi : w.model.arena.get? id = some i) :
    Leads seen pending (e.askRemoval id i) w fun r w' =>
      r = none → ∃ j, w'.model.arena.get? id = some j ∧ j.father = i.father := by
  unfold Engine.askRemoval
  cases hf : i.father with
  | none => exact .pure hw fun _ => ⟨i, hi, hf⟩
  | some f =>
    dsimp only
    split
    · exact .pure hw fun _ => ⟨i, hi, hf⟩
    refine (h.callRules_leads f _ _ _ hw).bind fun outcome w' hreach hstood => ?_
    split
    · exact .pure hreach.reachable fun hnone => nomatch hnone
    · refine .find_bind hreach.reachable fun j hj => .pure hreach.reachable fun _ => ⟨j, hj, ?_⟩
      -- The father has kept its children, and a child has one father.
      obtain ⟨p, hp, hchild⟩ := hw.sound.coherent.forest.father hi hf
      obtain ⟨q, hq, hstanding, -⟩ := (hstood p hp).after
      have hchildren := (Instance.standing_eq hstanding).2.2.2.1
      obtain ⟨j', hj', hfather⟩ :=
        hreach.sound.coherent.forest.child hq (by rw [hchildren]; exact hchild)
      rw [hj] at hj'
      cases hj'
      exact hfather

/-- **Removing an instance** under which nothing is busy from an idle father.  What was idle before
the father's rules were asked is idle afterwards, and nothing newer is busy. -/
theorem removeIfGranted_leads {i : Instance β} (hw : Reachable pending w.model)
    (hi : w.model.arena.get? id = some i) (hlive : i.state = .live)
    (hidle : ∀ y, w.model.arena.Under id y → w.model.busyOf y = 0)
    (hfather : ∀ f, i.father = some f → w.model.busyOf f = 0) :
    Leads seen pending (e.removeIfGranted id i) w fun _ _ => True := by
  unfold Engine.removeIfGranted
  refine (h.askRemoval_leads hw hi).bind fun answer w₁ hreach₁ hthere => ?_
  cases answer with
  | some rejection => exact .pure hreach₁.reachable True.intro
  | none =>
    obtain ⟨j, hj, hsame⟩ := hthere rfl
    -- Describing the instance may fill in names, and leaves its links as they are.
    refine Leads.bind (P := fun _ w₂ => w₂.model = w₁.model.remembering id)
      (.describe hreach₁.reachable fun _ => rfl) fun _ w₂ hreach₂ hmodel => ?_
    have hreach := hreach₁.trans hreach₂
    have only := Arena.onlyMemos_describe (a := w₁.model.arena) id
    obtain ⟨k, hk, hkj⟩ := only.forth hj
    have hfather' : k.father = i.father :=
      (Instance.eq_of_forgetName hkj (·.father) fun _ => rfl).trans hsame
    have hkpresent : w₂.model.arena.get? id = some k := by
      rw [hmodel]
      exact hk
    refine .model_bind hreach.reachable ?_
    dsimp only
    refine Leads.bind (P := fun _ _ => True)
      (.modifyModel hreach.reachable ?_ ?_ (.refl _) True.intro)
      fun _ _ hr _ => .pure hr.reachable True.intro
    all_goals rw [← hfather']
    rotate_left
    · have hstaged := hreach.reachable.staged
      exact .removeSubtree hreach.sound.coherent hstaged hkpresent
        (hw.staged.live_later hstaged hreach.aged hi hlive hkpresent)
    refine .drop hkpresent ?_ ?_
    · intro y hu
      exact hw.sound.idle_under hreach.sound hreach.aged hidle hu
    · intro f hf
      exact hw.sound.idle_of_idle hreach.sound (hfather f (hfather'.symm.trans hf))

/-- **Removing an instance**: only if nothing under it is busy, nor its father. -/
theorem remove (id : InstanceId) : Follows seen (e.remove id) := by
  constructor
  intro pending w hw
  unfold Engine.remove
  refine .find_bind hw fun i hi => ?_
  dsimp only
  split
  · exact .describe_throw_bind hw
  rename_i hlive
  refine .model_bind hw (.ensureNoneBusy_bind hw fun hidle => ?_)
  have hunder : ∀ y, w.model.arena.Under id y → w.model.busyOf y = 0 :=
    fun y hy => hidle y (hw.sound.coherent.forest.mem_preorder.mpr hy)
  cases hf : i.father with
  | none =>
    refine h.removeIfGranted_leads hw hi (Decidable.not_not.mp hlive) hunder ?_
    intro f hfather
    rw [hf] at hfather
    cases hfather
  | some f =>
    refine .ensureNotBusy_bind hw fun hbusy => ?_
    refine h.removeIfGranted_leads hw hi (Decidable.not_not.mp hlive) hunder ?_
    intro g hfather
    rw [hf] at hfather
    cases hfather
    exact hbusy

end Engine.Lawful

end ProductModel
