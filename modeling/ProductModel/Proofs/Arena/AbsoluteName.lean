import ProductModel.Proofs.Arena.Growth

/-!
# Absolute names and their memory

`Arena.Named a x name` says what the absolute name of an instance is, by the links and local names
alone.  `Arena.absoluteName` reads names that were remembered on earlier occasions and remembers
more of them, so it is right only as long as what is remembered is right (`MemosRight`); it keeps
that so, and it changes nothing else (`OnlyMemos`).

The way up to the root is bounded by the number of slots.  `Arena.Ascent` is the way without a bound,
and `earlier` is the measure that shows that the bound is never reached (`Forest.ascent_path`).
-/

namespace ProductModel

namespace Instance

variable {β : Type}

/-- An instance whose absolute name is not remembered. -/
def forgetName (i : Instance β) : Instance β := { i with memo := none }

theorem forgetName_forgetName (i : Instance β) : i.forgetName.forgetName = i.forgetName := rfl

/-- The parts of instances that agree up to the remembered name. -/
theorem eq_of_forgetName {γ : Type} {i j : Instance β} (h : i.forgetName = j.forgetName)
    (part : Instance β → γ) (hpart : ∀ i : Instance β, part i.forgetName = part i) :
    part i = part j := by
  rw [← hpart i, ← hpart j, h]

end Instance

namespace Arena

variable {β : Type} {a b c : Arena β} {x y f : InstanceId} {i j : Instance β} {name : String}

/-- **The absolute name of an instance**: the local names from the root on, joined by dots. -/
inductive Named (a : Arena β) : InstanceId → String → Prop
  | root {x : InstanceId} {i : Instance β} :
      a.get? x = some i → i.father = none → Named a x i.localName
  | child {x : InstanceId} {i : Instance β} {f : InstanceId} {above : String} :
      a.get? x = some i → i.father = some f → Named a f above →
      Named a x (above ++ "." ++ i.localName)

/-- What is remembered is right. -/
def MemosRight (a : Arena β) : Prop :=
  ∀ {x i name}, a.get? x = some i → i.memo = some name → a.Named x name

theorem Named.present (h : a.Named x name) : ∃ i, a.get? x = some i := by
  cases h with
  | root hi _ => exact ⟨_, hi⟩
  | child hi _ _ => exact ⟨_, hi⟩

/-- A root has its local name. -/
theorem Named.eq_of_root (h : a.Named x name) (hi : a.get? x = some i) (hf : i.father = none) :
    name = i.localName := by
  cases h with
  | root hi' _ =>
    rw [hi] at hi'
    cases hi'
    rfl
  | child hi' hf' _ =>
    rw [hi] at hi'
    cases hi'
    rw [hf] at hf'
    cases hf'

/-- A child has the name of its father before its own. -/
theorem Named.exists_above (h : a.Named x name) (hi : a.get? x = some i) (hf : i.father = some f) :
    ∃ above, a.Named f above ∧ name = above ++ "." ++ i.localName := by
  cases h with
  | root hi' hf' =>
    rw [hi] at hi'
    cases hi'
    rw [hf] at hf'
    cases hf'
  | child hi' hf' hup =>
    rw [hi] at hi'
    cases hi'
    rw [hf] at hf'
    cases hf'
    exact ⟨_, hup, rfl⟩

/-- An instance has one absolute name. -/
theorem Named.unique {name' : String} (h : a.Named x name) (h' : a.Named x name') :
    name = name' := by
  induction h generalizing name' with
  | root hi hf => exact (h'.eq_of_root hi hf).symm
  | child hi hf _ ih =>
    obtain ⟨above, hup, rfl⟩ := h'.exists_above hi hf
    rw [ih hup]

/-- **Absolute names depend on links and local names** of the instances that lead up to the
root. -/
theorem Named.transfer (keeps : InstanceId → Prop) (h : a.Named x name) (hx : keeps x)
    (hup : ∀ {y i f}, keeps y → a.get? y = some i → i.father = some f → keeps f)
    (hsame : ∀ {y i}, keeps y → a.get? y = some i →
      ∃ j, b.get? y = some j ∧ j.father = i.father ∧ j.localName = i.localName) :
    b.Named x name := by
  induction h with
  | root hi hf =>
    obtain ⟨j, hj, hjf, hjn⟩ := hsame hx hi
    rw [← hjn]
    exact .root hj (hjf.trans hf)
  | child hi hf _ ih =>
    obtain ⟨j, hj, hjf, hjn⟩ := hsame hx hi
    rw [← hjn]
    exact .child hj (hjf.trans hf) (ih (hup hx hi hf))

/-! ## What remembering changes -/

/-- **Nothing but remembered names differs.** -/
structure OnlyMemos (a b : Arena β) : Prop where
  stored : a.Stored → b.Stored
  roots : b.roots = a.roots
  lastOrder : b.lastOrder = a.lastOrder
  same : ∀ y, (b.get? y).map Instance.forgetName = (a.get? y).map Instance.forgetName

namespace OnlyMemos

theorem refl (a : Arena β) : OnlyMemos a a := ⟨id, rfl, rfl, fun _ => rfl⟩

theorem trans (h : OnlyMemos a b) (h' : OnlyMemos b c) : OnlyMemos a c :=
  ⟨h'.stored ∘ h.stored, h'.roots.trans h.roots, h'.lastOrder.trans h.lastOrder,
    fun y => (h'.same y).trans (h.same y)⟩

/-- A part of instances that does not look at the remembered name is the same. -/
theorem map_eq {γ : Type} (h : OnlyMemos a b) (part : Instance β → γ)
    (hpart : ∀ i : Instance β, part i.forgetName = part i) (y : InstanceId) :
    (b.get? y).map part = (a.get? y).map part := by
  have hall : ∀ d : Arena β,
      (d.get? y).map part = ((d.get? y).map Instance.forgetName).map part := by
    intro d
    rw [Option.map_map]
    congr 1
    funext i
    exact (hpart i).symm
  rw [hall b, hall a, h.same y]

/-- An instance of before is there, and differs in the remembered name alone. -/
theorem forth (h : OnlyMemos a b) (hi : a.get? x = some i) :
    ∃ j, b.get? x = some j ∧ j.forgetName = i.forgetName :=
  exists_get?_of_map_eq (h.same x) hi

theorem back (h : OnlyMemos a b) (hj : b.get? x = some j) :
    ∃ i, a.get? x = some i ∧ j.forgetName = i.forgetName := by
  obtain ⟨i, hi, heq⟩ := exists_get?_of_map_eq (h.same x).symm hj
  exact ⟨i, hi, heq.symm⟩

theorem named (h : OnlyMemos a b) (hn : a.Named x name) : b.Named x name := by
  refine hn.transfer (fun _ => True) trivial (fun _ _ _ => trivial) ?_
  intro y i _ hi
  obtain ⟨j, hj, heq⟩ := h.forth hi
  exact ⟨j, hj, Instance.eq_of_forgetName heq (·.father) fun _ => rfl,
    Instance.eq_of_forgetName heq (·.localName) fun _ => rfl⟩

end OnlyMemos

/-- **Names were remembered or forgotten**, and instances are counted as before. -/
structure Remembered (a b : Arena β) : Prop extends OnlyMemos a b where
  size : b.size = a.size

namespace Remembered

theorem refl (a : Arena β) : Remembered a a := ⟨.refl a, rfl⟩

theorem trans (h : Remembered a b) (h' : Remembered b c) : Remembered a c :=
  ⟨h.toOnlyMemos.trans h'.toOnlyMemos, h'.size.trans h.size⟩

end Remembered

/-- Remembers the absolute name of an instance. -/
def remember (a : Arena β) (x : InstanceId) (name : String) : Arena β :=
  a.modify x fun i => { i with memo := some name }

theorem remembered_remember (x : InstanceId) (name : String) :
    Remembered a (a.remember x name) := by
  refine ⟨⟨fun h => h.modify _, roots_modify _, lastOrder_modify _, ?_⟩, size_modify _⟩
  intro y
  rw [remember, get?_modify]
  split
  · rename_i hy
    rw [hy, Option.map_map]
    rfl
  · rfl

/-- Remembering a name that is right keeps everything remembered right. -/
theorem MemosRight.remember (h : a.MemosRight) (hn : a.Named x name) :
    (a.remember x name).MemosRight := by
  intro y i n hi hmemo
  refine (remembered_remember x name).named ?_
  rw [Arena.remember, get?_modify] at hi
  split at hi
  · rename_i hy
    obtain ⟨j, -, rfl⟩ := Option.map_eq_some_iff.mp hi
    cases hmemo
    rw [hy]
    exact hn
  · exact h hi hmemo

/-! ## Asking for names -/

/-- The name of an instance when the name of its father is known. -/
theorem nameTo_succ (limit : Nat) (x : InstanceId) :
    a.nameTo (limit + 1) x =
      match a.get? x with
      | none => .error (destroyedError x)
      | some i =>
        match i.memo with
        | some name => .ok (name, a)
        | none =>
          match i.father with
          | none => .ok (i.localName, a.remember x i.localName)
          | some f =>
            match a.nameTo limit f with
            | .error e => .error e
            | .ok (above, b) =>
              .ok (above ++ "." ++ i.localName, b.remember x (above ++ "." ++ i.localName)) := by
  rw [nameTo, find]
  cases hi : a.get? x with
  | none => rfl
  | some i =>
    simp only [bind, Except.bind, pure, Except.pure, remember]
    cases hm : i.memo with
    | some name => simp only
    | none =>
      cases hf : i.father with
      | none =>
        -- What is remembered is written to the instance that was just found.
        exact congrArg (fun b => Except.ok (i.localName, b)) (modify_congr hi rfl)
      | some f =>
        simp only
        cases a.nameTo limit f <;> rfl

/-- **How a name is given**: from memory, to a root for itself, or to a child after its father. -/
theorem nameTo_cases {limit : Nat} (h : a.nameTo (limit + 1) x = .ok (name, b)) :
    ∃ i, a.get? x = some i ∧
      ((i.memo = some name ∧ b = a) ∨
        (i.memo = none ∧ i.father = none ∧ name = i.localName ∧ b = a.remember x name) ∨
        ∃ f above d, i.memo = none ∧ i.father = some f ∧ a.nameTo limit f = .ok (above, d) ∧
          name = above ++ "." ++ i.localName ∧ b = d.remember x name) := by
  rw [nameTo_succ] at h
  cases hi : a.get? x with
  | none =>
    rw [hi] at h
    cases h
  | some i =>
    rw [hi] at h
    refine ⟨i, rfl, ?_⟩
    cases hm : i.memo with
    | some n =>
      simp only [hm] at h
      cases h
      exact Or.inl ⟨rfl, rfl⟩
    | none =>
      cases hf : i.father with
      | none =>
        simp only [hm, hf] at h
        cases h
        exact Or.inr (Or.inl ⟨rfl, rfl, rfl, rfl⟩)
      | some f =>
        cases hup : a.nameTo limit f with
        | error e =>
          simp only [hm, hf, hup] at h
          cases h
        | ok r =>
          obtain ⟨above, d⟩ := r
          simp only [hm, hf, hup] at h
          cases h
          exact Or.inr (Or.inr ⟨f, above, d, rfl, rfl, hup, rfl, rfl⟩)

/-- **Asking for a name** changes what is remembered and nothing else. -/
theorem remembered_nameTo {limit : Nat} (h : a.nameTo limit x = .ok (name, b)) :
    Remembered a b := by
  induction limit generalizing x name b with
  | zero => cases h
  | succ limit ih =>
    obtain ⟨i, hi, ⟨-, rfl⟩ | ⟨-, -, -, rfl⟩ | ⟨f, above, d, -, -, hup, -, rfl⟩⟩ := nameTo_cases h
    · exact .refl b
    · exact remembered_remember _ _
    · exact (ih hup).trans (remembered_remember _ _)

/-- **A name that is given is the absolute name**, and what is remembered stays right. -/
theorem named_of_nameTo {limit : Nat} (ha : a.MemosRight) (h : a.nameTo limit x = .ok (name, b)) :
    a.Named x name ∧ b.MemosRight := by
  induction limit generalizing x name b with
  | zero => cases h
  | succ limit ih =>
    obtain ⟨i, hi, ⟨hmemo, rfl⟩ | ⟨-, hf, rfl, rfl⟩ | ⟨f, above, d, -, hf, hup, rfl, rfl⟩⟩ :=
      nameTo_cases h
    · exact ⟨ha hi hmemo, ha⟩
    · have hn : a.Named x i.localName := .root hi hf
      exact ⟨hn, ha.remember hn⟩
    · -- The name of the father was asked for in `a`, the new name is remembered in `d`.
      obtain ⟨hn, hd⟩ := ih hup
      have hx : a.Named x (above ++ "." ++ i.localName) := .child hi hf hn
      exact ⟨hx, hd.remember ((remembered_nameTo hup).named hx)⟩

/-- A description changes what is remembered and nothing else. -/
theorem remembered_describe (x : InstanceId) : Remembered a (a.describe x).2 := by
  unfold describe
  cases h : a.absoluteName x with
  | error e => exact .refl a
  | ok r =>
    obtain ⟨name, b⟩ := r
    exact remembered_nameTo h

theorem onlyMemos_describe (x : InstanceId) : OnlyMemos a (a.describe x).2 :=
  (remembered_describe x).toOnlyMemos

theorem MemosRight.describe (h : a.MemosRight) (x : InstanceId) :
    (a.describe x).2.MemosRight := by
  unfold Arena.describe
  cases hx : a.absoluteName x with
  | error e => exact h
  | ok r =>
    obtain ⟨name, b⟩ := r
    exact (named_of_nameTo h hx).2

/-! ## The way up to the root -/

/-- **The way from an instance to its root.** -/
inductive Ascent (a : Arena β) : InstanceId → List InstanceId → Prop
  | root {x : InstanceId} {i : Instance β} :
      a.get? x = some i → i.father = none → Ascent a x [x]
  | child {x f : InstanceId} {i : Instance β} {ids : List InstanceId} :
      a.get? x = some i → i.father = some f → Ascent a f ids → Ascent a x (x :: ids)

/-- The way of a root is over at once. -/
theorem Ascent.eq_of_root {ids : List InstanceId} (h : a.Ascent x ids) (hi : a.get? x = some i)
    (hf : i.father = none) : ids = [x] := by
  cases h with
  | root => rfl
  | child hi' hf' _ =>
    rw [hi] at hi'
    cases hi'
    rw [hf] at hf'
    cases hf'

/-- The way of a child goes on with that of its father. -/
theorem Ascent.exists_rest {ids : List InstanceId} (h : a.Ascent x ids) (hi : a.get? x = some i)
    (hf : i.father = some f) : ∃ rest, a.Ascent f rest ∧ ids = x :: rest := by
  cases h with
  | root hi' hf' =>
    rw [hi] at hi'
    cases hi'
    rw [hf] at hf'
    cases hf'
  | child hi' hf' hup =>
    rw [hi] at hi'
    cases hi'
    rw [hf] at hf'
    cases hf'
    exact ⟨_, hup, rfl⟩

/-- A way begins with an instance that has a name. -/
theorem Ascent.exists_name {ids : List InstanceId} (h : a.Ascent x ids) :
    x ∈ ids ∧ ∃ name, a.localName? x = some name := by
  cases h with
  | root hi _ => exact ⟨List.mem_cons_self, _, by rw [localName?, hi]; rfl⟩
  | child hi _ _ => exact ⟨List.mem_cons_self, _, by rw [localName?, hi]; rfl⟩

/-- **The local names on the way**, from the root on, make the absolute name. -/
theorem Ascent.named {ids : List InstanceId} (h : a.Ascent x ids) :
    a.Named x (".".intercalate (ids.reverse.filterMap a.localName?)) := by
  have hlocal : ∀ {y j}, a.get? y = some j → a.localName? y = some j.localName := by
    intro y j hj
    rw [localName?, hj]
    rfl
  induction h with
  | root hi hf =>
    simp only [List.reverse_singleton, List.filterMap_cons, hlocal hi, List.filterMap_nil,
      String.intercalate_singleton]
    exact .root hi hf
  | @child x f i ids hi hf hup ih =>
    obtain ⟨hmem, name, hname⟩ := hup.exists_name
    have hne : ids.reverse.filterMap a.localName? ≠ [] :=
      List.ne_nil_of_mem (List.mem_filterMap.mpr ⟨f, List.mem_reverse.mpr hmem, hname⟩)
    simp only [List.reverse_cons, List.filterMap_append, List.filterMap_cons, hlocal hi,
      List.filterMap_nil]
    rw [String.intercalate_append_of_ne_nil hne (List.cons_ne_nil _ _),
      String.intercalate_singleton]
    exact .child hi hf ih

/-- The number of instances created before a moment. -/
def earlier (a : Arena β) (moment : Nat) : Nat :=
  a.slots.countP fun s => s.content.any fun i => i.order < moment

theorem earlier_le_depthLimit (moment : Nat) : a.earlier moment ≤ a.depthLimit :=
  List.countP_le_length

/-- Fewer instances were created before an instance than before a moment after it. -/
theorem earlier_lt (hy : a.get? y = some i) {moment : Nat} (h : i.order < moment) :
    a.earlier i.order < a.earlier moment := by
  refine countP_order_lt (p := fun n => n < i.order) (q := fun n => n < moment) ?_ hy ?_ ?_
  · intro n hn
    simp only [decide_eq_true_eq] at *
    omega
  · simp
  · simpa using h

namespace Forest

/-- Fewer instances were created before a father than before its child. -/
theorem earlier_father_lt (h : a.Forest) (hi : a.get? x = some i) (hf : i.father = some f) :
    ∃ j, a.get? f = some j ∧ a.earlier j.order < a.earlier i.order := by
  obtain ⟨j, hj, -⟩ := h.father hi hf
  exact ⟨j, hj, earlier_lt hj (h.fatherFirst hi hf hj)⟩

/-- An instance before which nothing was created has no father. -/
theorem father_eq_none (h : a.Forest) (hi : a.get? x = some i) (hfirst : a.earlier i.order = 0) :
    i.father = none := by
  cases hf : i.father with
  | none => rfl
  | some f =>
    obtain ⟨j, -, hlt⟩ := h.earlier_father_lt hi hf
    omega

/-- A climb whose bound is at least the number of instances created before is the whole way. -/
theorem ascent_climb (h : a.Forest) {limit : Nat} (hi : a.get? x = some i)
    (hlimit : a.earlier i.order ≤ limit) : a.Ascent x (a.climb limit x) := by
  induction limit generalizing x i with
  | zero => exact .root hi (h.father_eq_none hi (Nat.le_zero.mp hlimit))
  | succ limit ih =>
    have hfather : a.father? x = i.father := by rw [father?, hi]; rfl
    rw [climb, hfather]
    cases hf : i.father with
    | none => exact .root hi hf
    | some f =>
      obtain ⟨j, hj, hlt⟩ := h.earlier_father_lt hi hf
      exact .child hi hf (ih hj (by omega))

/-- **The path of an instance is the whole way to its root.** -/
theorem ascent_path (h : a.Forest) (hi : a.get? x = some i) : a.Ascent x (a.path x) :=
  h.ascent_climb hi (earlier_le_depthLimit _)

/-- **A present instance is given a name.** -/
theorem exists_nameTo (h : a.Forest) {limit : Nat} (hi : a.get? x = some i)
    (hlimit : a.earlier i.order < limit) : ∃ r, a.nameTo limit x = .ok r := by
  induction limit generalizing x i with
  | zero => omega
  | succ limit ih =>
    rw [nameTo_succ, hi]
    cases hm : i.memo with
    | some name => exact ⟨_, by simp only [hm]; rfl⟩
    | none =>
      cases hf : i.father with
      | none => exact ⟨_, by simp only [hm, hf]; rfl⟩
      | some f =>
        obtain ⟨j, hj, hlt⟩ := h.earlier_father_lt hi hf
        obtain ⟨⟨above, b⟩, hup⟩ := ih hj (by omega)
        exact ⟨_, by simp only [hm, hf, hup]; rfl⟩

end Forest

/-- **The dotted path of an instance**: the local names from its root to it. -/
def pathName (a : Arena β) (x : InstanceId) : String :=
  ".".intercalate ((a.path x).reverse.filterMap a.localName?)

theorem named_pathName (h : a.Forest) (hi : a.get? x = some i) : a.Named x (a.pathName x) :=
  (h.ascent_path hi).named

/-- **The absolute name of a present instance is its dotted path.** -/
theorem absoluteName_eq_pathName (h : a.Forest) (hm : a.MemosRight) (hi : a.get? x = some i) :
    ∃ b, a.absoluteName x = .ok (a.pathName x, b) := by
  have hlimit : a.earlier i.order < a.depthLimit + 1 :=
    Nat.lt_succ_of_le (earlier_le_depthLimit _)
  obtain ⟨⟨name, b⟩, hname⟩ := h.exists_nameTo hi hlimit
  have hn := (named_of_nameTo hm hname).1
  refine ⟨b, ?_⟩
  rw [absoluteName, hname, hn.unique (named_pathName h hi)]

end Arena

end ProductModel
