import Mathlib.Algebra.GroupWithZero.Nat
import ProductModel.Proofs.Arena.Preorder
import ProductModel.Proofs.ChainRuns
import ProductModel.Proofs.Run.StorageKept

/-!
# What a sweep does to a subtree

A sweep runs the chain of a reason on the instances of a subtree, one after the other, and marks
them on the way.  There are two kinds.

* A sweep into storage marks each instance as storable whose chain has passed, and ends at the first
  one that rejects.  Then it takes the marks off again.
* A sweep out of storage goes on when an instance rejects.  It leaves no instance storable, and
  reports the first rejection at the end.

`Language.sweep_runs` says so of all bodies that leave storage alone: which instances are visited
and in which order (`Arena.Preorder`), what is run on each of them (`Engine.ChainRun`), what the
sweep comes to, and which instances are storable in the end.

## Design

Both kinds are one recursion over the instances that are left, with what was gathered so far
(`Engine.sweepOver`).  `Engine.Sweeping` is the same without accumulators, and says which visits
were made.  What a sweep comes to is then read off the list of its visits (`Sweep.result`).
-/

namespace ProductModel

open ProductModel.Action

variable {β σ : Type} {w w₁ w' last : World β σ} {id root y : InstanceId} {i : Instance β}

/-! ## Visits -/

/-- **The chain of a sweep on one instance**: the rules that it was made of when it started, and
what it came to. -/
structure Visit (β : Type) where
  node : InstanceId
  chain : List (ChainLink β)
  result : Except ModelError ChainOutcome

/-- The number of rules that were run, if they have accepted. -/
def Visit.executed (v : Visit β) : Nat :=
  match v.result with
  | .ok (.passed n) => n
  | _ => 0

/-- The rejection of a visit that ended with one. -/
def Visit.rejection? (v : Visit β) : Option Rejection :=
  match v.result with
  | .ok (.rejected rejection) => some rejection
  | _ => none

namespace Sweep

variable (kind : Sweep)

/-- **Whether a sweep goes on** after a chain.  A rejection ends sweeps into storage alone. -/
def goesOn : Except ModelError ChainOutcome → Bool
  | .ok (.passed _) => true
  | .ok (.rejected _) => !kind.enters
  | .error _ => false

/-- The instances after whose chains a sweep went on.  It has marked them. -/
def marked (visits : List (Visit β)) : List InstanceId :=
  (visits.filter fun v => kind.goesOn v.result).map (·.node)

/-- **What a sweep comes to** after its visits, with what was gathered before them. -/
def result (executed : Nat) (rejection : Option Rejection) :
    List (Visit β) → Except ModelError ChainOutcome
  | [] =>
    match rejection with
    | some rejection => .ok (.rejected rejection)
    | none => .ok (.passed executed)
  | v :: visits =>
    if kind.goesOn v.result then
      result (executed + v.executed) (rejection.or v.rejection?) visits
    else v.result

end Sweep

/-- The world in which several instances are marked as storable or not. -/
def World.storing (w : World β σ) (storable : Bool) (ids : List InstanceId) : World β σ :=
  { w with model := { w.model with
    arena := w.model.arena.modifyAll ids fun i => { i with storable } } }

/-- The world in which a sweep into storage that met a rejection has taken its marks off. -/
def World.unmarking (w : World β σ) (kind : Sweep) (ids : List InstanceId)
    (visits : List (Visit β)) : World β σ :=
  if kind.enters && visits.any (·.rejection?.isSome) then w.storing false ids else w

namespace Engine

/-- **A visit**: the chain of the reason of a sweep is run on an instance that is there. -/
inductive Visiting (e : Engine β σ) (kind : Sweep) (w : World β σ) (v : Visit β)
    (w₁ : World β σ) : Prop
  | intro {i : Instance β} {runs : List (RuleRun β)} :
    w.model.arena.get? v.node = some i →
    v.chain = w.model.types.ruleChain i.type kind.reason.symbol none →
    e.ChainRun w v.node i.type kind.reason.symbol none .void runs v.result w₁ →
    Visiting e kind w v w₁

/-- **The visits of a sweep to instances**, one after the other.  After each but the last one the
instance is marked. -/
inductive Sweeping (e : Engine β σ) (kind : Sweep) :
    World β σ → List InstanceId → List (Visit β) → World β σ → Prop
  | nil {w : World β σ} : Sweeping e kind w [] [] w
  | on {w w₁ w' : World β σ} {v : Visit β} {nodes : List InstanceId} {visits : List (Visit β)} :
    e.Visiting kind w v w₁ → kind.goesOn v.result = true →
    Sweeping e kind (w₁.storing kind.enters [v.node]) nodes visits w' →
    Sweeping e kind w (v.node :: nodes) (v :: visits) w'
  | stop {w w₁ : World β σ} {v : Visit β} {nodes : List InstanceId} :
    e.Visiting kind w v w₁ → kind.goesOn v.result = false →
    Sweeping e kind w (v.node :: nodes) [v] w₁

variable {e : Engine β σ} {kind : Sweep} {v : Visit β} {visits : List (Visit β)}
  {nodes ids done : List InstanceId} {executed n : Nat} {rejection : Option Rejection}
  {f : Rejection} {err : ModelError} {r : Except ModelError ChainOutcome}

/-! ## One visit -/

section Visiting

variable (he : e.Considerate (OfModels (OfTypes Registry.NamesLast)))
include he

theorem Visiting.outcome_callRules (h : e.Visiting kind w v w₁) :
    (e.callRules v.node kind.reason.symbol none .void).outcome w = some (v.result, w₁) := by
  obtain ⟨hi, -, hruns⟩ := h
  exact hruns.outcome_callRules hi he

theorem exists_visiting (hi : w.model.arena.get? id = some i)
    (h : (e.callRules id kind.reason.symbol none .void).outcome w = some (r, w₁)) :
    ∃ v : Visit β, v.node = id ∧ v.result = r ∧ e.Visiting kind w v w₁ := by
  obtain ⟨runs, hruns⟩ := exists_chainRun hi he h
  exact ⟨⟨id, _, r⟩, rfl, rfl, .intro hi rfl hruns⟩

end Visiting

/-- A chain that has passed has run all its rules. -/
theorem Visiting.eq_length (h : e.Visiting kind w v w₁) (hr : v.result = .ok (.passed n)) :
    n = v.chain.length := by
  obtain ⟨-, hchain, hruns⟩ := h
  rw [hchain]
  exact ((hruns.passed n).mp hr).1

/-! ## Marks -/

theorem storage_storing (w : World β σ) (storable : Bool) (ids : List InstanceId)
    (y : InstanceId) : (w.storing storable ids).model.storage y =
      if y ∈ ids then (w.model.storage y).map fun _ => storable else w.model.storage y := by
  have htwice := Arena.get?_modifyAll (a := w.model.arena)
    (f := fun i : Instance β => { i with storable }) (fun _ => rfl) ids y
  show ((w.model.arena.modifyAll ids _).get? y).map _ = _
  rw [htwice]
  split
  · rw [Option.map_map, Model.storage, Option.map_map]
    rfl
  · rfl

/-- Marking takes no instance away. -/
theorem isSome_storage_storing (storable : Bool) (ids : List InstanceId)
    (h : (w.model.storage y).isSome) : ((w.storing storable ids).model.storage y).isSome := by
  rw [storage_storing]
  split
  · rwa [Option.isSome_map]
  · exact h

theorem outcome_mark (h : (w.model.storage id).isSome) (storable : Bool) :
    (update id fun i => { i with storable } : Action β σ Unit).outcome w =
      some (.ok (), w.storing storable [id]) := by
  obtain ⟨i, hi⟩ := Model.exists_of_storage h
  exact outcome_update hi _

theorem outcome_markStorable (storable : Bool) (h : ∀ y ∈ ids, (w.model.storage y).isSome) :
    (markStorable storable ids : Action β σ Unit).outcome w =
      some (.ok (), w.storing storable ids) := by
  induction ids generalizing w with
  | nil => rfl
  | cons id ids ih =>
    rw [markStorable, outcome_bind_ok (outcome_mark (h id List.mem_cons_self) storable)]
    exact ih fun y hy => isSome_storage_storing storable [id] (h y (List.mem_cons_of_mem _ hy))

/-! ## Both kinds in one recursion -/

/-- **A sweep over the instances that are left**, with what was gathered so far. -/
def sweepOver (e : Engine β σ) (kind : Sweep) (done : List InstanceId) (executed : Nat)
    (rejection : Option Rejection) (ids : List InstanceId) : Action β σ ChainOutcome :=
  if kind.enters then e.enterStorable kind.reason.symbol done executed ids
  else e.leaveStorable kind.reason.symbol executed rejection ids

theorem outcome_sweep (hroot : w.model.arena.get? root = some i) :
    (e.sweep kind root).outcome w =
      (e.sweepOver kind [] 0 none (w.model.arena.preorder root)).outcome w := by
  have hmodel : (Action.model : Action β σ (Model β)).outcome w = some (.ok w.model, w) := rfl
  unfold sweep sweepOver
  rw [outcome_bind_ok (outcome_find hroot), outcome_bind_ok hmodel]

theorem outcome_sweepOver_nil (hrejection : kind.enters = true → rejection = none) :
    (e.sweepOver kind done executed rejection []).outcome w =
      some (kind.result executed rejection ([] : List (Visit β)), w) := by
  unfold sweepOver
  split
  · rename_i henters
    rw [hrejection henters]
    rfl
  · cases rejection <;> rfl

/-- **A sweep goes on** with the next instance. -/
theorem outcome_sweepOver_on
    (hcall : (e.callRules v.node kind.reason.symbol none .void).outcome w = some (v.result, w₁))
    (hon : kind.goesOn v.result = true) (hthere : (w₁.model.storage v.node).isSome) :
    (e.sweepOver kind done executed rejection (v.node :: ids)).outcome w =
      (e.sweepOver kind (done ++ [v.node]) (executed + v.executed)
        (rejection.or v.rejection?) ids).outcome (w₁.storing kind.enters [v.node]) := by
  have hmark := outcome_mark hthere kind.enters
  -- Into storage a sweep goes on after chains that passed, out of it after all that did not fail.
  rcases v with ⟨node, chain, err | n | f⟩
  · cases hon
  · unfold sweepOver
    cases henters : kind.enters with
    | true =>
      rw [henters] at hmark
      rw [if_pos rfl, if_pos rfl, enterStorable, outcome_bind_ok hcall]
      exact outcome_bind_ok hmark
    | false =>
      rw [henters] at hmark
      rw [if_neg Bool.false_ne_true, if_neg Bool.false_ne_true, leaveStorable,
        outcome_bind_ok hcall]
      refine (outcome_bind_ok hmark).trans ?_
      dsimp only [Visit.rejection?]
      rw [Option.or_none]
      rfl
  · -- A rejection ends sweeps into storage, so this is one out of it.
    have henters : kind.enters = false := (Bool.not_eq_true' _).mp hon
    unfold sweepOver
    rw [henters] at hmark ⊢
    rw [if_neg Bool.false_ne_true, if_neg Bool.false_ne_true, leaveStorable, outcome_bind_ok hcall]
    exact outcome_bind_ok hmark

/-- **A sweep ends** after a chain. -/
theorem outcome_sweepOver_stop
    (hcall : (e.callRules v.node kind.reason.symbol none .void).outcome w = some (v.result, w₁))
    (hstop : kind.goesOn v.result = false) (hdone : ∀ y ∈ done, (w₁.model.storage y).isSome) :
    (e.sweepOver kind done executed rejection (v.node :: ids)).outcome w =
      some (v.result, w₁.unmarking kind done [v]) := by
  rcases v with ⟨node, chain, err | n | f⟩
  · have hsame : w₁.unmarking kind done [(⟨node, chain, .error err⟩ : Visit β)] = w₁ := by
      unfold World.unmarking
      exact if_neg (by simp [Visit.rejection?])
    rw [hsame]
    unfold sweepOver
    split
    · rw [enterStorable]
      exact outcome_bind_error hcall
    · cases rejection <;> exact outcome_bind_error hcall
  · cases hstop
  · have henters : kind.enters = true := (Bool.not_eq_false' _).mp hstop
    have hunmark := outcome_markStorable false hdone
    unfold sweepOver World.unmarking
    rw [henters, if_pos rfl, enterStorable, outcome_bind_ok hcall]
    exact outcome_bind_ok hunmark

/-! ## The visits of a sweep -/

theorem rejection?_of_goesOn (henters : kind.enters = true) (hon : kind.goesOn v.result = true) :
    v.rejection? = none := by
  rcases v with ⟨node, chain, err | n | f⟩
  · rfl
  · rfl
  · rw [Sweep.goesOn, henters] at hon
    cases hon

/-- A sweep into storage goes on only while nothing was rejected. -/
theorem or_rejection?_eq_none {rejection : Option Rejection}
    (hrejection : kind.enters = true → rejection = none) (hon : kind.goesOn v.result = true)
    (henters : kind.enters = true) : rejection.or v.rejection? = none := by
  rw [hrejection henters, rejection?_of_goesOn henters hon]
  rfl

/-- A sweep out of storage goes on after everything but errors. -/
theorem goesOn_of_left (henters : kind.enters = false) (h : ∀ err, v.result ≠ .error err) :
    kind.goesOn v.result = true := by
  rcases v with ⟨node, chain, err | n | f⟩
  · exact absurd rfl (h err)
  · rfl
  · exact (Bool.not_eq_true' _).mpr henters

/-- Where nothing was rejected, no mark is taken off. -/
theorem unmarking_eq_self (h : ∀ v ∈ visits, v.rejection? = none) :
    w.unmarking kind ids visits = w := by
  have hnone : (visits.any fun v => v.rejection?.isSome) = false := by
    rw [List.any_eq_false]
    intro v hv
    rw [h v hv]
    exact Bool.false_ne_true
  rw [World.unmarking, hnone, Bool.and_false, if_neg Bool.false_ne_true]

/-- A visit after which the sweep goes on is no reason to take marks off. -/
theorem unmarking_cons (hon : kind.goesOn v.result = true) :
    w.unmarking kind ids (v :: visits) = w.unmarking kind ids visits := by
  unfold World.unmarking
  cases henters : kind.enters with
  | false => rfl
  | true => rw [List.any_cons, rejection?_of_goesOn henters hon, Option.isSome_none, Bool.false_or]

theorem marked_cons_of_goesOn (hon : kind.goesOn v.result = true) :
    kind.marked (v :: visits) = v.node :: kind.marked visits := by
  simp [Sweep.marked, hon]

theorem marked_single_of_stop (hstop : kind.goesOn v.result = false) : kind.marked [v] = [] := by
  simp [Sweep.marked, hstop]

namespace Sweeping

theorem begins (h : e.Sweeping kind w nodes visits last) : visits.map (·.node) <+: nodes := by
  induction h with
  | nil => exact List.prefix_rfl
  | on _ _ _ ih => exact List.cons_prefix_cons.mpr ⟨rfl, ih⟩
  | stop _ _ => exact List.cons_prefix_cons.mpr ⟨rfl, List.nil_prefix⟩

theorem before (h : e.Sweeping kind w nodes visits last) :
    ∀ v ∈ visits.dropLast, kind.goesOn v.result = true := by
  induction h with
  | nil => exact List.forall_mem_nil _
  | @on _ _ _ v nodes visits _ hon _ ih =>
    cases visits with
    | nil => exact List.forall_mem_nil _
    | cons u visits => exact List.forall_mem_cons.mpr ⟨hon, ih⟩
  | stop _ _ => exact List.forall_mem_nil _

/-- A sweep ends at the end of the subtree, or at a visit after which it does not go on. -/
theorem stops (h : e.Sweeping kind w nodes visits last) : visits.map (·.node) = nodes ∨
    ∃ v, visits.getLast? = some v ∧ kind.goesOn v.result = false := by
  induction h with
  | nil => exact .inl rfl
  | @on _ _ _ v nodes visits _ hon _ ih =>
    rcases ih with hall | ⟨u, hu, hstop⟩
    · exact .inl (congrArg _ hall)
    · refine .inr ⟨u, ?_, hstop⟩
      rw [List.getLast?_cons, hu]
      rfl
  | @stop _ _ v _ _ hstop => exact .inr ⟨v, rfl, hstop⟩

/-- **A sweep out of storage visits everything**, unless there is an error. -/
theorem everywhere (h : e.Sweeping kind w nodes visits last) (henters : kind.enters = false)
    (hok : ∀ v ∈ visits, ∀ err, v.result ≠ .error err) : visits.map (·.node) = nodes := by
  rcases h.stops with hall | ⟨v, hv, hstop⟩
  · exact hall
  · rw [goesOn_of_left henters (hok v (List.mem_of_getLast? hv))] at hstop
    cases hstop

/-! ### What a sweep comes to -/

theorem passed_iff (h : e.Sweeping kind w nodes visits last) :
    kind.result executed rejection visits = .ok (.passed n) ↔
      rejection = none ∧ visits.map (·.node) = nodes ∧
      (∀ v ∈ visits, v.result = .ok (.passed v.chain.length)) ∧
      n = executed + (visits.map (·.chain.length)).sum := by
  induction h generalizing executed rejection with
  | nil => cases rejection <;> simp [Sweep.result, eq_comm]
  | @on _ _ _ v nodes visits hvisit hon _ ih =>
    rw [Sweep.result, if_pos hon, ih]
    rcases v with ⟨node, chain, err | k | f⟩
    · cases hon
    · have hk : k = chain.length := hvisit.eq_length rfl
      subst hk
      simp [Visit.executed, Visit.rejection?, Nat.add_assoc]
    · simp [Visit.rejection?]
  | @stop _ _ v nodes hvisit hstop =>
    rw [Sweep.result, hstop, if_neg Bool.false_ne_true]
    constructor
    · intro hpassed
      rw [hpassed] at hstop
      cases hstop
    · rintro ⟨-, -, hall, -⟩
      rw [hall v List.mem_cons_self] at hstop
      cases hstop

theorem rejected_iff (h : e.Sweeping kind w nodes visits last)
    (hrejection : kind.enters = true → rejection = none) :
    kind.result executed rejection visits = .ok (.rejected f) ↔
      (∀ v ∈ visits, ∀ err, v.result ≠ .error err) ∧
      rejection.or (visits.findSome? Visit.rejection?) = some f := by
  induction h generalizing executed rejection with
  | nil => cases rejection <;> simp [Sweep.result]
  | @on _ _ _ v nodes visits hvisit hon _ ih =>
    have hnext := or_rejection?_eq_none hrejection hon
    rw [Sweep.result, if_pos hon, ih hnext]
    rcases v with ⟨node, chain, err | k | g⟩
    · cases hon
    · simp [Visit.rejection?, List.findSome?_cons]
    · simp [Visit.rejection?, List.findSome?_cons]
  | @stop _ _ v nodes hvisit hstop =>
    rw [Sweep.result, hstop, if_neg Bool.false_ne_true]
    rcases v with ⟨node, chain, err | k | f⟩
    · simp
    · cases hstop
    · rw [hrejection ((Bool.not_eq_false' _).mp hstop)]
      simp [Visit.rejection?]

theorem failed_iff (h : e.Sweeping kind w nodes visits last) :
    kind.result executed rejection visits = .error err ↔ ∃ v ∈ visits, v.result = .error err := by
  induction h generalizing executed rejection with
  | nil => cases rejection <;> simp [Sweep.result]
  | @on _ _ _ v nodes visits hvisit hon _ ih =>
    have hv : v.result ≠ .error err := by
      intro hv
      rw [hv] at hon
      cases hon
    rw [Sweep.result, if_pos hon, ih]
    simp [hv]
  | @stop _ _ v nodes hvisit hstop =>
    rw [Sweep.result, hstop, if_neg Bool.false_ne_true]
    simp

end Sweeping

/-! ### That there is such a sweep -/

section Whole

variable (he : e.Considerate (OfModels (OfTypes Registry.NamesLast)))
  (hs : e.Considerate (OfModels Model.SameStorage))
include he hs

/-- A visit leaves the instances and their marks as they are. -/
theorem Visiting.storage (h : e.Visiting kind w v w₁) : w₁.model.storage = w.model.storage :=
  (hs.lenient_callRules Model.coarse_sameStorage.lenient _ _ _ _).of_outcome
    (h.outcome_callRules he)

/-- **Which instances are storable** after a sweep, before marks are taken off. -/
theorem Sweeping.storage (h : e.Sweeping kind w nodes visits last) (y : InstanceId) :
    last.model.storage y =
      if y ∈ kind.marked visits then (w.model.storage y).map fun _ => kind.enters
      else w.model.storage y := by
  induction h with
  | nil => rfl
  | @on _ _ _ v nodes visits hvisit hon _ ih =>
    rw [ih, storage_storing, hvisit.storage he hs, marked_cons_of_goesOn hon]
    by_cases hv : y = v.node
    · subst hv
      simp [Function.comp_def]
    · simp [hv]
  | @stop _ _ v _ hvisit hstop =>
    rw [hvisit.storage he hs, marked_single_of_stop hstop]
    rfl

/-- **A sweep comes to what its visits come to.** -/
theorem Sweeping.outcome_sweepOver (h : e.Sweeping kind w nodes visits last)
    (hthere : ∀ y ∈ done ++ nodes, (w.model.storage y).isSome)
    (hrejection : kind.enters = true → rejection = none) :
    (e.sweepOver kind done executed rejection nodes).outcome w =
      some (kind.result executed rejection visits,
        last.unmarking kind (done ++ kind.marked visits) visits) := by
  induction h generalizing done executed rejection with
  | nil =>
    rw [outcome_sweepOver_nil hrejection, unmarking_eq_self (List.forall_mem_nil _)]
  | @on w w₁ w' v nodes visits hvisit hon _ ih =>
    have hstorage := hvisit.storage he hs
    have hnode : (w₁.model.storage v.node).isSome := by
      rw [hstorage]
      exact hthere _ (List.mem_append_right _ List.mem_cons_self)
    have hnext := or_rejection?_eq_none hrejection hon
    have hrest : ∀ y ∈ (done ++ [v.node]) ++ nodes,
        ((w₁.storing kind.enters [v.node]).model.storage y).isSome := by
      intro y hy
      refine isSome_storage_storing _ _ ?_
      rw [hstorage]
      exact hthere y (by rwa [List.append_assoc] at hy)
    rw [outcome_sweepOver_on (hvisit.outcome_callRules he) hon hnode, ih hrest hnext,
      Sweep.result, if_pos hon, unmarking_cons hon, marked_cons_of_goesOn hon, List.append_assoc]
    rfl
  | @stop w w₁ v nodes hvisit hstop =>
    have hdone : ∀ y ∈ done, (w₁.model.storage y).isSome := by
      intro y hy
      rw [hvisit.storage he hs]
      exact hthere y (List.mem_append_left _ hy)
    rw [outcome_sweepOver_stop (hvisit.outcome_callRules he) hstop hdone, Sweep.result, hstop,
      if_neg Bool.false_ne_true, marked_single_of_stop hstop, List.append_nil]

/-- **A sweep that has an outcome has made its visits.** -/
theorem exists_sweeping (hthere : ∀ y ∈ nodes, (w.model.storage y).isSome)
    (h : (e.sweepOver kind done executed rejection nodes).outcome w = some (r, w')) :
    ∃ visits last, e.Sweeping kind w nodes visits last := by
  induction nodes generalizing w done executed rejection with
  | nil => exact ⟨[], w, .nil⟩
  | cons id nodes ih =>
    obtain ⟨i, hi⟩ := Model.exists_of_storage (hthere id List.mem_cons_self)
    cases hcall : (e.callRules id kind.reason.symbol none .void).outcome w with
    | none =>
      have hnone : (e.sweepOver kind done executed rejection (id :: nodes)).outcome w = none := by
        unfold sweepOver
        split
        · rw [enterStorable]
          exact outcome_bind_none hcall
        · cases rejection <;> exact outcome_bind_none hcall
      rw [hnone] at h
      cases h
    | some out =>
      obtain ⟨v, rfl, hv, hvisit⟩ := exists_visiting he hi hcall
      -- The sweep stops after this visit or goes on with the rest.
      cases hon : kind.goesOn v.result with
      | false => exact ⟨[v], out.2, .stop hvisit hon⟩
      | true =>
        have hstorage := hvisit.storage he hs
        have hrest : ∀ y ∈ v.node :: nodes, (out.2.model.storage y).isSome := by
          rwa [hstorage]
        rw [outcome_sweepOver_on (hvisit.outcome_callRules he) hon
          (hrest _ List.mem_cons_self)] at h
        obtain ⟨visits, last, hsweep⟩ := ih (fun y hy =>
          isSome_storage_storing _ _ (hrest y (List.mem_cons_of_mem _ hy))) h
        exact ⟨v :: visits, last, .on hvisit hon hsweep⟩

end Whole

/-! ## Sweeps over subtrees -/

/-- **How a sweep over a subtree goes**: which instances are visited, what it comes to, and which
instances are storable in the end. -/
structure SweepRun (e : Engine β σ) (kind : Sweep) (w : World β σ) (root : InstanceId)
    (nodes : List InstanceId) (visits : List (Visit β)) (r : Except ModelError ChainOutcome)
    (w' : World β σ) : Prop where
  /-- fathers come before their children, and children in order of creation -/
  preorder : w.model.arena.Preorder root nodes
  once : nodes.Nodup
  /-- the visits are made one after the other; the marks that they leave are taken off again when a
  sweep into storage has met a rejection -/
  ran : ∃ last, e.Sweeping kind w nodes visits last ∧
    w' = last.unmarking kind (kind.marked visits) visits
  begins : visits.map (·.node) <+: nodes
  before : ∀ v ∈ visits.dropLast, kind.goesOn v.result = true
  stops : visits.map (·.node) = nodes ∨
    ∃ v, visits.getLast? = some v ∧ kind.goesOn v.result = false
  everywhere : kind.enters = false → (∀ v ∈ visits, ∀ err, v.result ≠ .error err) →
    visits.map (·.node) = nodes
  passed : ∀ n, r = .ok (.passed n) ↔ visits.map (·.node) = nodes ∧
    (∀ v ∈ visits, v.result = .ok (.passed v.chain.length)) ∧
    n = (visits.map (·.chain.length)).sum
  /-- the first rejection is reported -/
  rejected : ∀ f, r = .ok (.rejected f) ↔ (∀ v ∈ visits, ∀ err, v.result ≠ .error err) ∧
    visits.findSome? Visit.rejection? = some f
  failed : ∀ err, r = .error err ↔ ∃ v ∈ visits, v.result = .error err
  gained : kind.enters = true → ∀ n, r = .ok (.passed n) → ∀ y,
    w'.model.Storable y ↔ w.model.Storable y ∨ w.model.arena.Under root y
  undone : kind.enters = true → ∀ f, r = .ok (.rejected f) → ∀ y,
    w'.model.Storable y ↔ w.model.Storable y ∧ y ∉ kind.marked visits
  cleared : kind.enters = true → ∀ f, r = .ok (.rejected f) →
    (∀ y, w.model.arena.Under root y → ¬w.model.Storable y) →
    ∀ y, w.model.arena.Under root y → ¬w'.model.Storable y
  ended : kind.enters = false → ∀ outcome, r = .ok outcome → ∀ y,
    w'.model.Storable y ↔ w.model.Storable y ∧ ¬w.model.arena.Under root y

/-- What a sweep comes to is determined by its visits. -/
theorem SweepRun.result_eq (h : e.SweepRun kind w root nodes visits r w') :
    r = kind.result 0 none visits := by
  obtain ⟨last, hsweep, -⟩ := h.ran
  cases r with
  | error err => exact (hsweep.failed_iff.mpr ((h.failed err).mp rfl)).symm
  | ok outcome =>
    cases outcome with
    | passed n =>
      obtain ⟨hall, hpassed, rfl⟩ := (h.passed n).mp rfl
      exact (hsweep.passed_iff.mpr ⟨rfl, hall, hpassed, (Nat.zero_add _).symm⟩).symm
    | rejected f => exact ((hsweep.rejected_iff fun _ => rfl).mpr ((h.rejected f).mp rfl)).symm

/-- Where a sweep has always gone on, it has marked what it has visited. -/
theorem marked_eq_of_goesOn (h : ∀ v ∈ visits, kind.goesOn v.result = true) :
    kind.marked visits = visits.map (·.node) := by
  rw [Sweep.marked, List.filter_eq_self.mpr h]

section Subtree

variable (he : e.Considerate (OfModels (OfTypes Registry.NamesLast)))
  (hs : e.Considerate (OfModels Model.SameStorage))
  (hforest : w.model.arena.Forest) (hroot : w.model.arena.get? root = some i)
include hforest hroot

/-- What is listed of a subtree is there. -/
theorem isSome_storage_of_mem_preorder (hy : y ∈ w.model.arena.preorder root) :
    (w.model.storage y).isSome := by
  obtain ⟨j, hj⟩ := (hforest.mem_preorder.mp hy).present hforest hroot
  rw [Model.storage_eq hj]
  rfl

include he hs

/-- **The storable instances after a sweep into storage that has passed.** -/
theorem Sweeping.storable_of_passed
    (h : e.Sweeping kind w (w.model.arena.preorder root) visits last)
    (henters : kind.enters = true) (hresult : kind.result 0 none visits = .ok (.passed n)) :
    (last.unmarking kind (kind.marked visits) visits).model.Storable y ↔
      w.model.Storable y ∨ w.model.arena.Under root y := by
  obtain ⟨-, hall, hpassed, -⟩ := h.passed_iff.mp hresult
  have hon : ∀ v ∈ visits, kind.goesOn v.result = true := by
    intro v hv
    rw [hpassed v hv]
    rfl
  rw [unmarking_eq_self fun v hv => rejection?_of_goesOn henters (hon v hv), Model.Storable,
    h.storage he hs, marked_eq_of_goesOn hon, hall, henters, ← hforest.mem_preorder]
  by_cases hy : y ∈ w.model.arena.preorder root
  · obtain ⟨storable, hstorable⟩ :=
      Option.isSome_iff_exists.mp (isSome_storage_of_mem_preorder hforest hroot hy)
    simp [hy, hstorable]
  · simp [hy, Model.Storable]

omit hforest hroot in
/-- **The storable instances after a sweep into storage that was rejected.** -/
theorem Sweeping.storable_of_rejected (h : e.Sweeping kind w nodes visits last)
    (henters : kind.enters = true) (hresult : kind.result 0 none visits = .ok (.rejected f)) :
    (last.unmarking kind (kind.marked visits) visits).model.Storable y ↔
      w.model.Storable y ∧ y ∉ kind.marked visits := by
  obtain ⟨-, hfirst⟩ := (h.rejected_iff fun _ => rfl).mp hresult
  obtain ⟨v, hv, hrejection⟩ := List.exists_of_findSome?_eq_some hfirst
  have hany : (visits.any fun v => v.rejection?.isSome) = true := by
    refine List.any_eq_true.mpr ⟨v, hv, ?_⟩
    rw [hrejection]
    rfl
  rw [World.unmarking, henters, hany, Bool.and_true, if_pos rfl, Model.Storable, storage_storing,
    h.storage he hs]
  by_cases hy : y ∈ kind.marked visits
  · simp [hy]
  · simp [hy, Model.Storable]

omit hroot in
/-- **The storable instances after a sweep out of storage.** -/
theorem Sweeping.storable_of_left
    (h : e.Sweeping kind w (w.model.arena.preorder root) visits last)
    (henters : kind.enters = false) {outcome : ChainOutcome}
    (hresult : kind.result 0 none visits = .ok outcome) :
    (last.unmarking kind (kind.marked visits) visits).model.Storable y ↔
      w.model.Storable y ∧ ¬w.model.arena.Under root y := by
  have hok : ∀ v ∈ visits, ∀ err, v.result ≠ .error err := by
    intro v hv err herr
    rw [h.failed_iff.mpr ⟨v, hv, herr⟩] at hresult
    cases hresult
  have hon : ∀ v ∈ visits, kind.goesOn v.result = true :=
    fun v hv => goesOn_of_left henters (hok v hv)
  have hall := h.everywhere henters hok
  rw [World.unmarking, henters, Bool.false_and, if_neg Bool.false_ne_true, Model.Storable,
    h.storage he hs, marked_eq_of_goesOn hon, hall, henters, ← hforest.mem_preorder]
  by_cases hy : y ∈ w.model.arena.preorder root
  · simp [hy]
  · simp [hy, Model.Storable]

/-- **The visits of a sweep make a sweep over the subtree.** -/
theorem Sweeping.sweepRun (h : e.Sweeping kind w (w.model.arena.preorder root) visits last) :
    e.SweepRun kind w root (w.model.arena.preorder root) visits (kind.result 0 none visits)
      (last.unmarking kind (kind.marked visits) visits) where
  preorder := hforest.preorder_preorder root
  once := (hforest.preorder_preorder root).nodup hforest
  ran := ⟨last, h, rfl⟩
  begins := h.begins
  before := h.before
  stops := h.stops
  everywhere := h.everywhere
  passed n := by
    rw [h.passed_iff, Nat.zero_add]
    exact ⟨fun hall => hall.2, fun hall => ⟨rfl, hall⟩⟩
  rejected f := h.rejected_iff fun _ => rfl
  failed err := h.failed_iff
  gained henters n hresult y := h.storable_of_passed he hs hforest hroot henters hresult
  undone henters f hresult y := h.storable_of_rejected he hs henters hresult
  cleared henters f hresult hnone y hy hstorable :=
    hnone y hy ((h.storable_of_rejected he hs henters hresult).mp hstorable).1
  ended henters outcome hresult y := h.storable_of_left he hs hforest henters hresult

end Subtree

end Engine

section

variable {pending : List Pending} {refusal : ModelError} {r : Except ModelError ChainOutcome}

/-- **What a sweep does to a subtree**, in every state of a run, when the bodies that run for it
neither create nor remove instances nor run sweeps themselves.  It ends if and only if the chains of
its visits do. -/
theorem Language.sweep_runs (L : Language β σ) (n : Nat) (hw : Reachable pending w.model)
    (hroot : w.model.arena.get? root = some i) (kind : Sweep) :
    (perform (L.storageKeeping refusal) (n + 1) (.sweep kind root)).outcome w = some (r, w') ↔
      ∃ nodes visits,
        ((L.storageKeeping refusal).engine n).SweepRun kind w root nodes visits r w' := by
  have he := (L.storageKeeping refusal).respects_along Registry.along_namesLast n
  have hs : ((L.storageKeeping refusal).engine n).Considerate (OfModels Model.SameStorage) :=
    L.considerate_storageKeeping n
  have hforest := hw.sound.coherent.forest
  have hthere : ∀ y ∈ w.model.arena.preorder root, (w.model.storage y).isSome :=
    fun y hy => Engine.isSome_storage_of_mem_preorder hforest hroot hy
  show (((L.storageKeeping refusal).engine n).sweep kind root).outcome w = some (r, w') ↔ _
  rw [Engine.outcome_sweep hroot]
  constructor
  · intro hr
    obtain ⟨visits, last, hsweep⟩ := Engine.exists_sweeping he hs hthere hr
    rw [hsweep.outcome_sweepOver he hs hthere fun _ => rfl] at hr
    cases hr
    exact ⟨_, visits, hsweep.sweepRun he hs hforest hroot⟩
  · rintro ⟨nodes, visits, hrun⟩
    obtain ⟨last, hsweep, rfl⟩ := hrun.ran
    obtain rfl := hrun.preorder.unique (hforest.preorder_preorder root)
    rw [hsweep.outcome_sweepOver he hs hthere fun _ => rfl, hrun.result_eq]
    rfl

end

/-! ## Sweeps that are rejected -/

namespace Archive

/-- The error of what sweeps may not do. -/
def refusal : ModelError := .dispatch (.notCallable "archive")

/-- **The language of rules that know their verdict.** -/
def language : Language Verdict Unit where
  method _ _ := .pure .void
  rule verdict _ := .pure verdict
  evaluate _ _ _ := .pure ()
  inspect _ _ := .pure ()
  transformed _ _ _ host := host

/-- A type whose rules about storage give one verdict. -/
def kept (name : String) (verdict : Verdict) : TypeDef Verdict where
  name := name
  rules := [Reason.startDump, Reason.finishDump].map fun reason =>
    { reason := reason.symbol, kind := .anterior, body := verdict }

/-- Makes a shelf with two books and a sealed letter between them. -/
def build : Body Verdict Unit Unit := do
  let _ ← Program.call (Op.register (kept "Shelf" .accept))
  let _ ← Program.call (Op.register (kept "Book" .accept))
  let _ ← Program.call (Op.register (kept "Letter" .reject))
  let shelf ← Program.call (Op.instantiate "Shelf" none "shelf" [])
  let _ ← Program.call (Op.instantiate "Book" (some shelf) "first" [])
  let _ ← Program.call (Op.instantiate "Letter" (some shelf) "letter" [])
  let _ ← Program.call (Op.instantiate "Book" (some shelf) "last" [])

/-- A sweep over a subtree of the shelf. -/
def sweeping (kind : Sweep) (root : InstanceId) : Action Verdict Unit ChainOutcome :=
  perform (language.storageKeeping refusal) 2 (.sweep kind root)

/-- The rejection by the letter. -/
def rejection (kind : Sweep) : Rejection := ⟨⟨2, 0⟩, kind.reason.symbol, "Letter", 0⟩

/-- **A run with a shelf**, and sweeps over the first book and over the shelf. -/
theorem exists_shelf : ∃ w w₁ w₂ w₃ shelf book, Reachable [] w.model ∧
    w.model.arena.get? ⟨0, 0⟩ = some shelf ∧ w.model.arena.get? ⟨1, 0⟩ = some book ∧
    book.storable = false ∧
    (sweeping .startDump ⟨1, 0⟩).outcome w = some (.ok (.passed 1), w₁) ∧
    (sweeping .startDump ⟨0, 0⟩).outcome w =
      some (.ok (.rejected (rejection .startDump)), w₂) ∧
    (sweeping .finishDump ⟨0, 0⟩).outcome w =
      some (.ok (.rejected (rejection .finishDump)), w₃) := by
  have hrun : ((Body.exec language 2 build).outcome { host := () }).any (fun built =>
      ((sweeping .startDump ⟨1, 0⟩).outcome built.2).any
        (·.1.toOption = some (.passed 1)) &&
      ((sweeping .startDump ⟨0, 0⟩).outcome built.2).any
        (·.1.toOption = some (.rejected (rejection .startDump))) &&
      ((sweeping .finishDump ⟨0, 0⟩).outcome built.2).any
        (·.1.toOption = some (.rejected (rejection .finishDump))) &&
      (built.2.model.arena.get? ⟨0, 0⟩).isSome &&
      (built.2.model.arena.get? ⟨1, 0⟩).any (!·.storable)) = true := by
    decide +kernel
  simp only [Option.any_eq_true, Bool.and_eq_true, decide_eq_true_eq, Prod.exists,
    Bool.not_eq_true'] at hrun
  obtain ⟨r, w, hbuilt, ⟨⟨⟨⟨r₁, w₁, hbook, h₁⟩, r₂, w₂, hstart, h₂⟩, r₃, w₃, hfinish, h₃⟩,
    hshelf⟩, book, hfirst, hplain⟩ := hrun
  obtain rfl := eq_ok_of_toOption h₁
  obtain rfl := eq_ok_of_toOption h₂
  obtain rfl := eq_ok_of_toOption h₃
  obtain ⟨shelf, hshelf⟩ := Option.isSome_iff_exists.mp hshelf
  exact ⟨w, w₁, w₂, w₃, shelf, book, (Reachable.empty rfl rfl).after_exec hbuilt, hshelf, hfirst,
    hplain, hbook, hstart, hfinish⟩

end Archive

/-- The first book is storable when it was swept alone, and not when the letter has refused a sweep
over the whole shelf. -/
theorem Language.sweep_runs_shelf : ∃ w w₁ w₂ w₃ nodes₁ visits₁ nodes₂ visits₂ nodes₃ visits₃,
    ((Archive.language.storageKeeping Archive.refusal).engine 1).SweepRun .startDump w ⟨1, 0⟩
      nodes₁ visits₁ (.ok (.passed 1)) w₁ ∧
    ((Archive.language.storageKeeping Archive.refusal).engine 1).SweepRun .startDump w ⟨0, 0⟩
      nodes₂ visits₂ (.ok (.rejected (Archive.rejection .startDump))) w₂ ∧
    ((Archive.language.storageKeeping Archive.refusal).engine 1).SweepRun .finishDump w ⟨0, 0⟩
      nodes₃ visits₃ (.ok (.rejected (Archive.rejection .finishDump))) w₃ ∧
    w₁.model.Storable ⟨1, 0⟩ ∧ ¬w₂.model.Storable ⟨1, 0⟩ ∧
    visits₃.map (·.node) = nodes₃ := by
  obtain ⟨w, w₁, w₂, w₃, shelf, book, hw, hshelf, hfirst, hplain, hbook, hstart, hfinish⟩ :=
    Archive.exists_shelf
  obtain ⟨nodes₁, visits₁, hbook⟩ :=
    (Language.sweep_runs Archive.language 1 hw hfirst .startDump).mp hbook
  obtain ⟨nodes₂, visits₂, hstart⟩ :=
    (Language.sweep_runs Archive.language 1 hw hshelf .startDump).mp hstart
  obtain ⟨nodes₃, visits₃, hfinish⟩ :=
    (Language.sweep_runs Archive.language 1 hw hshelf .finishDump).mp hfinish
  refine ⟨w, w₁, w₂, w₃, nodes₁, visits₁, nodes₂, visits₂, nodes₃, visits₃, hbook, hstart, hfinish,
    (hbook.gained rfl 1 rfl _).mpr (.inr .self), fun hstorable => ?_,
    hfinish.everywhere rfl ((hfinish.rejected _).mp rfl).1⟩
  have hbefore := ((hstart.undone rfl _ rfl _).mp hstorable).1
  rw [Model.Storable, Model.storage_eq hfirst, hplain] at hbefore
  cases hbefore

end ProductModel
