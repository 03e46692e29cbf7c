import ProductModel.Proofs.Run.Considerate
import ProductModel.Proofs.Run.Outcomes

/-!
# Relations that allow instances to come and go

Creation and removal run bodies in between: initializers, and rules that are asked for consent.  A
relation of worlds is `Permissive` if it allows an instance to be placed and a subtree to be
removed, and all that is done to instances besides, as long as they keep their numbers and their
marks of storage.  Every operation that neither changes types nor runs a sweep respects such a
relation, if the bodies do that it runs (`Engine.Considerate.step_of_isOrdinary`).

The simplest such relations see nothing of instances at all (`Aloof`).
-/

namespace ProductModel

open ProductModel.Action

variable {β σ α : Type} {R : World β σ → World β σ → Prop} {id : InstanceId}

/-- **A relation that allows instances to come and go.** -/
structure Permissive (R : World β σ → World β σ → Prop) : Prop extends Neutral R where
  placing : ∀ type father name element, Respects R (Action.place type father name element)
  dropping : ∀ (w : World β σ) id father,
    R w { w with model := (w.model.removeSubtree id father).2 }
  /-- all that is done to instances that are there, apart from sweeps -/
  touching : ∀ {id} {f : Instance β → Instance β}, (∀ i, (f i).order = i.order) →
    (∀ i, (f i).storable = i.storable) → Allows R id f
  products : ∀ (w : World β σ) products, R w { w with model := { w.model with products } }

theorem Permissive.lenient (hR : Permissive R) : Lenient R where
  toNeutral := hR.toNeutral
  amending hf := hR.touching (fun i => Instance.eq_of_lasting (hf i) (·.order) fun _ => rfl)
    fun i => Instance.eq_of_lasting (hf i) (·.storable) fun _ => rfl
  products := hR.products

/-- **Placing an instance** is up to the relation in three respects: a number is given out, a new
instance takes a slot and is listed, and its initialization begins. -/
theorem Neutral.place (hR : Neutral R) (hcount : ∀ w : World β σ, R w w.counting)
    (hadopt : ∀ {w : World β σ} {type father name element id b},
      w.model.arena.nextOrder.2.insert
        { w.model.newborn type father name element with state := .constructed } = .ok (id, b) →
      R w { w with model := { w.model with arena := b.adopt father id } })
    (hbegin : ∀ id, Allows R id fun i => { i with state := .initializing })
    (type : TypeId) (father : Option InstanceId) (name : String) (element : Bool) :
    Respects R (Action.place type father name element : Action β σ _) := by
  -- A number is given out even if there is no slot for the instance.
  have hinsert : Respects R (Action.insertNew type father name element : Action β σ _) := by
    constructor
    intro w r w' hr
    rw [outcome_insertNew] at hr
    cases hins : w.model.arena.nextOrder.2.insert
        { w.model.newborn type father name element with state := .constructed } with
    | error err =>
      rw [hins] at hr
      cases hr
      exact hcount w
    | ok made =>
      rw [hins] at hr
      cases hr
      exact hadopt hins
  unfold Action.place
  exact hR.bind hinsert fun id => hR.bind (hR.update (hbegin id)) fun _ => hR.pure _

/-! ## Relations that see nothing of instances -/

/-- **A relation that sees nothing of instances**: it holds wherever the types, the record of
changes and the state of the language stay what they were. -/
structure Aloof (R : World β σ → World β σ → Prop) : Prop where
  same : ∀ {w w'}, w'.model.types = w.model.types → w'.model.changes = w.model.changes →
    w'.host = w.host → R w w'
  trans : ∀ {w w' w''}, R w w' → R w' w'' → R w w''

namespace Aloof

variable (hR : Aloof R)
include hR

theorem neutral : Neutral R where
  refl _ := hR.same rfl rfl rfl
  trans := hR.trans
  remembering _ _ _ := hR.same rfl rfl rfl
  lookingUp w type name := by
    have hmodel := World.model_lookingUp w type name
    exact hR.same (congrArg Model.types hmodel) (congrArg Model.changes hmodel)
      (World.host_lookingUp w type name)

/-- Instances do not matter. -/
theorem allows (f : Instance β → Instance β) : Allows R id f := fun _ _ _ => hR.same rfl rfl rfl

/-- Instances may come and go. -/
theorem permissive : Permissive R where
  toNeutral := hR.neutral
  placing := hR.neutral.place (fun _ => hR.same rfl rfl rfl) (fun _ => hR.same rfl rfl rfl)
    fun _ => hR.allows _
  dropping _ _ _ := hR.same rfl rfl rfl
  touching _ _ := hR.allows _
  products _ _ := hR.same rfl rfl rfl

end Aloof

/-! ## Checks before a creation or a removal -/

namespace Neutral

variable (hR : Neutral R)
include hR

theorem instantiableType (typeName : String) :
    Respects R (Action.instantiableType typeName : Action β σ _) := by
  unfold Action.instantiableType
  refine hR.bind (hR.ask _) fun id => hR.bind hR.model fun m => ?_
  dsimp only
  split
  · exact hR.throw_bind _ _
  · exact hR.pure _

theorem ensureAcceptsChildren (father : InstanceId) (operation : String) :
    Respects R (Action.ensureAcceptsChildren father operation : Action β σ _) := by
  unfold Action.ensureAcceptsChildren
  refine hR.bind (hR.find father) fun i => ?_
  dsimp only
  split
  · exact hR.bind (hR.describe father) fun _ => hR.throw_bind _ _
  · exact hR.ensureNotBusy _ _

theorem ensureNoneBusy (operation : String) (ids : List InstanceId) :
    Respects R (Action.ensureNoneBusy operation ids : Action β σ _) := by
  induction ids with
  | nil => exact hR.pure _
  | cons id ids ih =>
    unfold Action.ensureNoneBusy
    exact hR.bind (hR.ensureNotBusy id operation) fun _ => ih

end Neutral

/-- **Discarding an instance** is up to the relation where the subtree is taken out. -/
theorem Neutral.discard (hR : Neutral R) (hdrop : ∀ (w : World β σ) id father,
      R w { w with model := (w.model.removeSubtree id father).2 }) (id : InstanceId) :
    Respects R (Action.discard id : Action β σ _) := by
  constructor
  intro w
  unfold Action.discard
  rw [always_modifyModel]
  split
  · exact hdrop w id _
  · exact hR.refl w

/-! ## Creation and removal -/

/-- **The parts of a creation respect a relation**: an instance is placed and its initializer runs,
and then the instance either goes into service or is discarded. -/
structure Engine.Creative (R : World β σ → World β σ → Prop) (e : Engine β σ) : Prop where
  placing : ∀ type father name element, Respects R (Action.place type father name element)
  initializing : ∀ id m args, Respects R (e.invokeInitializer id m args)
  living : ∀ id, Respects R (Action.updateIfThere id fun i => { i with state := .live })
  discarding : ∀ id, Respects R (Action.discard id)

namespace Engine.Creative

variable {e : Engine β σ} (h : e.Creative R) (hR : Neutral R)
include h hR

theorem create (type : TypeId) (father : Option InstanceId) (name : String) (args : List Value)
    (element : Bool) : Respects R (e.create type father name args element) := by
  unfold Engine.create
  refine hR.bind (h.placing type father name element) fun id =>
    hR.bind (hR.findMethod _ _) fun found => hR.bind ?_ fun _ =>
      hR.bind (h.living id) fun _ => hR.pure _
  unfold Engine.initializeWith
  split
  · unfold Engine.runInitializer
    refine hR.bind (h.initializing id _ args).attempt fun result => ?_
    split
    · exact hR.pure _
    · exact hR.bind (h.discarding id) fun _ => hR.throw _
  · exact hR.pure _

theorem instantiate (typeName : String) (father : Option InstanceId) (name : String)
    (args : List Value) : Respects R (e.instantiate typeName father name args) := by
  have hcreate : ∀ type, Respects R (do
      Action.ensureNameFree father name
      e.create type father name args false) := fun type =>
    hR.bind (hR.ensureNameFree father name) fun _ => h.create hR type father name args false
  unfold Engine.instantiate
  refine hR.bind (hR.instantiableType _) fun type => hR.bind (hR.ofExcept _) fun _ => ?_
  split
  · exact hR.bind (hR.ensureAcceptsChildren _ _) fun _ => hcreate type
  · exact hcreate type

end Engine.Creative

namespace Engine.Considerate

variable {e : Engine β σ} (h : e.Considerate R) (hR : Permissive R)
include h hR

theorem creative : e.Creative R where
  placing := hR.placing
  initializing := h.invokeInitializer hR.toNeutral
  living _ := hR.updateIfThere (hR.touching (fun _ => rfl) fun _ => rfl)
  discarding := hR.toNeutral.discard hR.dropping

theorem addElement (father : InstanceId) (typeName : String) (args : List Value) :
    Respects R (e.addElement father typeName args) := by
  have hN := hR.toNeutral
  have hplain : ∀ x, Allows R x fun i => { i with element := false } :=
    fun _ => hR.touching (fun _ => rfl) fun _ => rfl
  unfold Engine.addElement
  refine hN.bind (hN.ensureAcceptsChildren _ _) fun _ => hN.bind (hN.instantiableType _)
    fun type => hN.bind hN.model fun m =>
    hN.bind (h.lenient_callRules hR.lenient _ _ _ _) fun outcome => ?_
  split
  · exact hN.pure _
  · refine hN.bind (hN.find father) fun _ => hN.bind hN.model fun m =>
      hN.bind ((h.creative hR).create hN _ _ _ _ _) fun child =>
      hN.bind (h.lenient_callRules hR.lenient _ _ _ _) fun outcome => ?_
    split
    · exact hN.pure _
    · exact hN.bind (hN.update (hplain child)) fun _ => hN.pure _

theorem askRemoval (id : InstanceId) (i : Instance β) : Respects R (e.askRemoval id i) := by
  have hN := hR.toNeutral
  unfold Engine.askRemoval
  split
  · exact hN.pure _
  · split
    · exact hN.pure _
    · refine hN.bind (h.lenient_callRules hR.lenient _ _ _ _) fun outcome => ?_
      split
      · exact hN.pure _
      · exact hN.bind (hN.find id) fun _ => hN.pure _

theorem removeIfGranted (id : InstanceId) (i : Instance β) :
    Respects R (e.removeIfGranted id i) := by
  have hN := hR.toNeutral
  unfold Engine.removeIfGranted
  refine hN.bind (h.askRemoval hR id i) fun answer => ?_
  split
  · exact hN.pure _
  · refine hN.bind (hN.describe id) fun _ => ⟨fun w => ?_⟩
    rw [always_bind, always_model]
    dsimp only
    rw [always_bind, always_modifyModel, always_pure]
    exact hR.dropping w id _

theorem remove (id : InstanceId) : Respects R (e.remove id) := by
  have hN := hR.toNeutral
  unfold Engine.remove
  refine hN.bind (hN.find id) fun i => ?_
  dsimp only
  split
  · exact hN.bind (hN.describe id) fun _ => hN.throw_bind _ _
  · refine hN.bind hN.model fun m => hN.bind (hN.ensureNoneBusy _ _) fun _ => ?_
    split
    · exact hN.bind (hN.ensureNotBusy _ _) fun _ => h.removeIfGranted hR id i
    · exact h.removeIfGranted hR id i

end Engine.Considerate

/-! ## Operations -/

/-- **Operations that neither change types nor run a sweep.** -/
def Op.isOrdinary : Op β → Bool
  | .register _ | .redefine _ _ | .sweep _ _ => false
  | _ => true

namespace Engine.Considerate

variable {e : Engine β σ} (h : e.Considerate R) (hR : Permissive R)
include h hR

/-- **Ordinary operations respect every permissive relation**, if the bodies do that they run,
except for those that write properties. -/
theorem step_of_isOrdinary {op : Op β} (hop : op.isOrdinary = true)
    (hrecorded : op.isRecorded = false) : Respects R (e.step op) := by
  have hN := hR.toNeutral
  have htouch : ∀ {x} {f : Instance β → Instance β}, (∀ i, (f i).order = i.order) →
      (∀ i, (f i).storable = i.storable) → Allows R x f := hR.touching
  cases op with
  | instantiate typeName father name args =>
    exact (h.creative hR).instantiate hR.toNeutral typeName father name args
  | addElement father typeName args => exact h.addElement hR father typeName args
  | remove x => exact h.remove hR x
  | rename x name => exact hN.rename (htouch (fun _ => rfl) fun _ => rfl)
  | beElement x => exact hN.beElement (htouch (fun _ => rfl) fun _ => rfl)
  | unBeElement x => exact hN.unBeElement (htouch (fun _ => rfl) fun _ => rfl)
  | _ =>
    first
    | exact h.step_of_not_isRecorded hR.lenient rfl hrecorded
    | exact absurd hop Bool.false_ne_true

/-- **Ordinary operations respect every permissive relation** that is heedless of what is
recorded. -/
theorem step_of_isOrdinary_of_heedless (hT : Heedless R) {op : Op β} (hop : op.isOrdinary = true) :
    Respects R (e.step op) := by
  cases hrecorded : op.isRecorded with
  | false => exact h.step_of_isOrdinary hR hop hrecorded
  | true =>
    refine h.step_of_isPlain_of_heedless hR.lenient hT ?_
    cases op with
    | writeProperty | setProperty => rfl
    | _ => cases hrecorded

end Engine.Considerate

end ProductModel
