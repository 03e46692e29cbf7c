import ProductModel.Naming
import ProductModel.Proofs.Arena.FindName
import ProductModel.World

/-!
# The models that runs come through

Bodies call operations and operations run bodies, so a model is changed while rule chains and
initializers are under way.  This file describes all of that as one transition system.  A state is a
model together with what is under way in it, the innermost last begun first:

* `Pending.chain`: a rule chain, with the subject as it stood when the chain began;
* `Pending.birth`: an instance whose initializer runs.

`Reachable pending m` is the run: it starts from nothing, edits the model, and begins and ends
chains and births in the manner of a stack.  `Edit` lists what can happen to a model in between,
each edit with what the operations check at the moment they make it.

## Design

Edits that concern neither places nor names are one case, `Edit.retouch`, told by what they leave
alone.  A busy instance keeps its `Standing` in all edits; this is the promise that the checks of
the operations are about, so it is part of the edits and not derived from them.
-/

namespace ProductModel

/-- The table with every property enabled: the definitions and where they are presented. -/
def PropertyTable.layout (t : PropertyTable) : PropertyTable :=
  { t with entries := t.entries.map fun e =>
      { e with definition := { e.definition with state := .enabled } } }

/-- **What an instance keeps while a rule chain runs on it.** -/
structure Standing where
  father : Option InstanceId
  localName : String
  element : Bool
  children : List InstanceId
  order : Nat
  /-- the definitions of the properties with their presentation slots -/
  layout : PropertyTable

namespace Instance

variable {β : Type}

/-- The part of an instance that does not change while the instance is busy. -/
def standing (i : Instance β) : Standing where
  father := i.father
  localName := i.localName
  element := i.element
  children := i.children
  order := i.order
  layout := i.properties.layout

/-- The stage of an instance's life, and how many rule chains run on it. -/
def activity (i : Instance β) : InstanceState × Nat := (i.state, i.busy)

/-- The part of an instance that absolute names are made from, and the name that was made. -/
def naming (i : Instance β) : Links × String × Option String := (i.links, i.localName, i.memo)

end Instance

namespace Arena

variable {β : Type}

/-- Whether no child of a father, or no root, has a name. -/
def NameFree (a : Arena β) (father : Option InstanceId) (name : String) : Prop :=
  ∀ c ∈ a.siblings father, a.localName? c ≠ some name

end Arena

namespace Model

variable {β : Type}

/-- The number of rule chains that run on an instance; none run on an absent one. -/
def busyOf (m : Model β) (id : InstanceId) : Nat := ((m.arena.get? id).map (·.busy)).getD 0

/-- The model after an instance has got another local name. -/
def renamed (m : Model β) (id : InstanceId) (name : String) : Model β :=
  let below := m.arena.preorder id
  let arena := m.arena.modify id fun i => { i with localName := name }
  { m with arena := arena.modifyAll below Instance.forgetName }

/-- The model after the absolute name of an instance was remembered. -/
def remembering (m : Model β) (id : InstanceId) : Model β :=
  { m with arena := (m.arena.describe id).2 }

/-- The model without an instance and all below it. -/
def discarding (m : Model β) (id : InstanceId) : Model β :=
  match m.arena.get? id with
  | some i => (m.removeSubtree id i.father).2
  | none => m

end Model

variable {β : Type} {m m' : Model β} {id x : InstanceId} {i : Instance β} {name : String}

/-- **A change that concerns neither places, nor names, nor what instances are at**, and leaves the
standing of every busy instance alone. -/
structure Retouched (m m' : Model β) : Prop where
  stored : m.arena.Stored → m'.arena.Stored
  roots : m'.arena.roots = m.arena.roots
  lastOrder : m.arena.lastOrder ≤ m'.arena.lastOrder
  naming : ∀ y, (m'.arena.get? y).map Instance.naming = (m.arena.get? y).map Instance.naming
  activity : ∀ y, (m'.arena.get? y).map Instance.activity = (m.arena.get? y).map Instance.activity
  kept : ∀ y, m.busyOf y ≠ 0 →
    (m'.arena.get? y).map Instance.standing = (m.arena.get? y).map Instance.standing
  products : ∀ y ∈ m'.products.keys, y ∈ m.products.keys ∨ ∃ i, m.arena.get? y = some i

/-- **A new instance was placed**: under an idle father or among the roots, under a name that is
free there, next in the order of creation.  Its initialization has begun. -/
structure Placed (m : Model β) (id : InstanceId) (i : Instance β) (m' : Model β) : Prop where
  grown : Arena.Grown m.arena m'.arena id i
  stored : m'.arena.Stored
  order : i.order = m.arena.lastOrder + 1
  lastOrder : m'.arena.lastOrder = i.order
  products : m'.products = m.products
  changes : m'.changes = m.changes
  state : i.state = .initializing
  idle : i.busy = 0
  memo : i.memo = none
  fatherIdle : ∀ f, i.father = some f → m.busyOf f = 0
  identifier : Naming.isIdentifier i.localName = true
  free : m.arena.NameFree i.father i.localName

/-- **What happens to a model** between the beginnings and ends of chains and initializers. -/
inductive Edit : Model β → Model β → Prop
  | retouch {m m' : Model β} : Retouched m m' → Edit m m'
  | remember {m : Model β} (id : InstanceId) : Edit m (m.remembering id)
  /-- an idle instance of an idle father gets another name -/
  | rename {m : Model β} {id : InstanceId} {i : Instance β} {name : String} :
      m.arena.get? id = some i → m.busyOf id = 0 → (∀ f, i.father = some f → m.busyOf f = 0) →
      Naming.isIdentifier name = true → m.arena.NameFree i.father name → Edit m (m.renamed id name)
  /-- a subtree of idle instances goes, from an idle father -/
  | drop {m : Model β} {id : InstanceId} {i : Instance β} :
      m.arena.get? id = some i → (∀ y, m.arena.Under id y → m.busyOf y = 0) →
      (∀ f, i.father = some f → m.busyOf f = 0) → Edit m (m.removeSubtree id i.father).2

/-- **What is under way**: rule chains and initializers.  The moment is the last order number that
was given out before it began. -/
inductive Pending where
  /-- a rule chain, with its subject as it stood at the beginning -/
  | chain (subject : InstanceId) (standing : Standing) (moment : Nat)
  /-- the initialization of an instance -/
  | birth (id : InstanceId) (moment : Nat)

namespace Pending

/-- The last order number given out before it began. -/
def moment : Pending → Nat
  | chain _ _ moment => moment
  | birth _ moment => moment

/-- Whether this is a rule chain on an instance. -/
def isChainOn (x : InstanceId) : Pending → Bool
  | chain subject _ _ => subject == x
  | birth _ _ => false

end Pending

/-- The number of rule chains on an instance among what is under way. -/
def chainsOn (pending : List Pending) (x : InstanceId) : Nat := pending.countP (·.isChainOn x)

namespace Model

/-- The model in which one more rule chain runs on an instance. -/
def entering (m : Model β) (x : InstanceId) : Model β :=
  m.modify x fun i => { i with busy := i.busy + 1 }

/-- The model in which one rule chain on an instance has ended. -/
def leaving (m : Model β) (x : InstanceId) : Model β :=
  m.modify x fun i => { i with busy := i.busy - 1 }

/-- The model in which the initialization of an instance has ended well. -/
def settling (m : Model β) (x : InstanceId) : Model β :=
  m.modify x fun i => { i with state := .live }

end Model

/-- **The states of a run**: the models that a run from nothing can come through, each with what is
under way in it. -/
inductive Reachable : List Pending → Model β → Prop
  | empty {m : Model β} : m.arena = Arena.empty → m.products.keys = [] → Reachable [] m
  | edit {pending : List Pending} {m m' : Model β} :
      Reachable pending m → Edit m m' → Reachable pending m'
  | enter {pending : List Pending} {m : Model β} {x : InstanceId} {i : Instance β} :
      Reachable pending m → m.arena.get? x = some i →
      Reachable (.chain x i.standing m.arena.lastOrder :: pending) (m.entering x)
  | leave {pending : List Pending} {m : Model β} {x : InstanceId} {s : Standing} {moment : Nat} :
      Reachable (.chain x s moment :: pending) m → Reachable pending (m.leaving x)
  | place {pending : List Pending} {m m' : Model β} {id : InstanceId} {i : Instance β} :
      Reachable pending m → Placed m id i m' →
      Reachable (.birth id m.arena.lastOrder :: pending) m'
  | settle {pending : List Pending} {m : Model β} {id : InstanceId} {moment : Nat} :
      Reachable (.birth id moment :: pending) m → Reachable pending (m.settling id)
  | discard {pending : List Pending} {m : Model β} {id : InstanceId} {moment : Nat} :
      Reachable (.birth id moment :: pending) m → Reachable pending (m.discarding id)

/-! ## Ways to retouch a model -/

theorem Retouched.busy (r : Retouched m m') (y : InstanceId) : m'.busyOf y = m.busyOf y := by
  have hsame := congrArg (fun a => (Option.map Prod.snd a).getD 0) (r.activity y)
  simp only [Option.map_map] at hsame
  exact hsame

/-- A change beside the arena. -/
theorem Retouched.of_arena (harena : m'.arena = m.arena)
    (products : ∀ y ∈ m'.products.keys, y ∈ m.products.keys ∨ ∃ i, m.arena.get? y = some i) :
    Retouched m m' where
  stored h := by rw [harena]; exact h
  roots := by rw [harena]
  lastOrder := Nat.le_of_eq (by rw [harena])
  naming y := by rw [harena]
  activity y := by rw [harena]
  kept y _ := by rw [harena]
  products := products

/-- **A change of one instance** that keeps its links, its names and what it is at, and its standing
if it is busy. -/
theorem Retouched.modify {f : Instance β → Instance β} (m : Model β) (id : InstanceId)
    (hnaming : ∀ i, (f i).naming = i.naming) (hactivity : ∀ i, (f i).activity = i.activity)
    (hkept : m.busyOf id ≠ 0 → ∀ i, m.arena.get? id = some i → (f i).standing = i.standing) :
    Retouched m (m.modify id f) := by
  have hsame : ∀ {γ : Type} (part : Instance β → γ) (y : InstanceId),
      (∀ i, m.arena.get? id = some i → part (f i) = part i) →
      ((m.modify id f).arena.get? y).map part = (m.arena.get? y).map part :=
    fun part y hpart => Arena.map_get?_modify part hpart y
  refine ⟨fun h => h.modify f, Arena.roots_modify f, Nat.le_of_eq (Arena.lastOrder_modify f).symm,
    fun y => hsame _ y fun i _ => hnaming i, fun y => hsame _ y fun i _ => hactivity i, ?_,
    fun y hy => Or.inl hy⟩
  intro y hy
  by_cases hid : y = id
  · rw [hid] at hy
    exact hsame _ y (hkept hy)
  · show ((m.arena.modify id f).get? y).map _ = _
    rw [Arena.get?_modify_of_ne hid]

/-- A number in the order of creation that no instance gets. -/
theorem Retouched.nextOrder (m : Model β) :
    Retouched m { m with arena := m.arena.nextOrder.2 } where
  stored h := h.nextOrder
  roots := rfl
  lastOrder := Nat.le_succ _
  naming y := congrArg (Option.map _) (Arena.get?_nextOrder y)
  activity y := congrArg (Option.map _) (Arena.get?_nextOrder y)
  kept y _ := congrArg (Option.map _) (Arena.get?_nextOrder y)
  products _ hy := Or.inl hy

end ProductModel
