import ProductModel.Instance.Arena

/-!
# The tree of instances

Fathers and children make a forest of the instances of an arena.  Walks upward follow the father
links and walks downward the lists of children; both are bounded by the number of slots, which no
path of the forest exceeds.

* `path` lists an instance and what lies above it, up to the root.
* `preorder` lists a subtree with fathers first, `postorder` with fathers last.
* `find?` follows a dotted name down from a root.
-/

namespace ProductModel.Arena

variable {β : Type}

/-- The father of an instance. -/
def father? (a : Arena β) (id : InstanceId) : Option InstanceId :=
  (a.get? id).bind (·.father)

/-- The children of an instance in order of creation; none for a handle without an instance. -/
def childrenOf (a : Arena β) (id : InstanceId) : List InstanceId :=
  ((a.get? id).map (·.children)).getD []

/-- The local name of an instance. -/
def localName? (a : Arena β) (id : InstanceId) : Option String :=
  (a.get? id).map (·.localName)

/-- The greatest length of a path. -/
def depthLimit (a : Arena β) : Nat := a.slots.length

/-- The instances from `id` upward, `limit` steps at most. -/
def climb (a : Arena β) : Nat → InstanceId → List InstanceId
  | 0, id => [id]
  | limit + 1, id =>
    match a.father? id with
    | some father => id :: a.climb limit father
    | none => [id]

/-- **The path from an instance to its root.** -/
def path (a : Arena β) (id : InstanceId) : List InstanceId := a.climb a.depthLimit id

/-- **The root above an instance.** -/
def rootOf (a : Arena β) (id : InstanceId) : InstanceId := (a.path id).getLastD id

/-- A subtree with fathers before children, `limit` levels deep. -/
def preorderTo (a : Arena β) : Nat → InstanceId → List InstanceId
  | 0, id => [id]
  | limit + 1, id => id :: (a.childrenOf id).flatMap (a.preorderTo limit)

/-- **The subtree of an instance**, fathers before children and children in order of creation. -/
def preorder (a : Arena β) (id : InstanceId) : List InstanceId := a.preorderTo a.depthLimit id

/-- A subtree with children before fathers, `limit` levels deep. -/
def postorderTo (a : Arena β) : Nat → InstanceId → List InstanceId
  | 0, id => [id]
  | limit + 1, id => (a.childrenOf id).flatMap (a.postorderTo limit) ++ [id]

/-- **The subtree of an instance**, children before their father. -/
def postorder (a : Arena β) (id : InstanceId) : List InstanceId := a.postorderTo a.depthLimit id

/-- The first of several instances that has a local name. -/
def findNamed (a : Arena β) (ids : List InstanceId) (name : String) : Option InstanceId :=
  ids.find? fun id => a.localName? id == some name

/-- **The child of a name.** -/
def childNamed (a : Arena β) (id : InstanceId) (name : String) : Option InstanceId :=
  a.findNamed (a.childrenOf id) name

/-- **The root of a name.** -/
def rootNamed (a : Arena β) (name : String) : Option InstanceId := a.findNamed a.roots name

/-- Splits a text at every dot. -/
def splitDots : List Char → List (List Char)
  | [] => [[]]
  | c :: cs =>
    if c = '.' then [] :: splitDots cs
    else
      match splitDots cs with
      | part :: parts => (c :: part) :: parts
      | [] => [[c]]

/-- Follows local names downward. -/
def descend (a : Arena β) : List String → InstanceId → Option InstanceId
  | [], id => some id
  | name :: names, id => (a.childNamed id name).bind (a.descend names)

/-- **The instance of an absolute name**, such as `env.cabinet.e1`. -/
def find? (a : Arena β) (name : String) : Option InstanceId :=
  match (splitDots name.toList).map String.ofList with
  | [] => none
  | first :: rest => (a.rootNamed first).bind (a.descend rest)

/-- The elements among the children of an instance. -/
def elementsOf (a : Arena β) (id : InstanceId) : List InstanceId :=
  (a.childrenOf id).filter fun child => ((a.get? child).map (·.element)).getD false

/-- The absolute name of an instance, and the arena with the names that were made for it
remembered.  `limit` bounds the steps upward. -/
def nameTo (a : Arena β) : Nat → InstanceId → Except ModelError (String × Arena β)
  | 0, id => .error (destroyedError id)
  | limit + 1, id => do
    let i ← a.find id
    match i.memo with
    | some name => return (name, a)
    | none =>
      match i.father with
      | none => return (i.localName, a.modify id fun i => { i with memo := some i.localName })
      | some father =>
        let (above, a) ← a.nameTo limit father
        let name := above ++ "." ++ i.localName
        return (name, a.modify id fun i => { i with memo := some name })

/-- **The absolute name of an instance**: the local names from the root on, joined by dots.  The
names on the way are remembered until a rename. -/
def absoluteName (a : Arena β) (id : InstanceId) : Except ModelError (String × Arena β) :=
  a.nameTo (a.depthLimit + 1) id

/-- **The name of an instance in messages**: its absolute name, or its handle once it is gone. -/
def describe (a : Arena β) (id : InstanceId) : String × Arena β :=
  match a.absoluteName id with
  | .ok result => result
  | .error _ => (id.text, a)

/-- The place of an instance in space, seen from its root. -/
def frameOf (a : Arena β) (id : InstanceId) : Frame :=
  (a.path id).foldr (fun node frame =>
    match a.get? node with
    | some i => frame.place i.position i.rotation
    | none => frame) Frame.base

/-- **The box around the geometry of a subtree**, in the frame of its top.  Children are moved by
their positions and not turned.  `limit` levels are looked at. -/
def boundsTo (a : Arena β) : Nat → InstanceId → Option Bounds
  | 0, _ => none
  | limit + 1, id =>
    match a.get? id with
    | none => none
    | some i =>
      i.children.foldl (fun box child =>
        match a.boundsTo limit child with
        | none => box
        | some inner =>
          let placed := inner.offset (((a.get? child).map (·.position)).getD .zero)
          some (match box with
            | some b => b.union placed
            | none => placed)) (i.geometry.map (·.bounds))

/-- The box around the geometry of a subtree. -/
def localBounds (a : Arena β) (id : InstanceId) : Option Bounds := a.boundsTo (a.depthLimit + 1) id

/-- Where a pick climbs from an instance, `limit` steps at most: past every instance that passes
picks on to its father. -/
def pickTo (a : Arena β) : Nat → InstanceId → InstanceId
  | 0, id => id
  | limit + 1, id =>
    match a.get? id with
    | some i =>
      match i.father with
      | some father => if i.flags.hierSelectable then a.pickTo limit father else id
      | none => id
    | none => id

/-- **The instance that a pick means.** -/
def pickTarget (a : Arena β) (id : InstanceId) : InstanceId := a.pickTo a.depthLimit id

end ProductModel.Arena
