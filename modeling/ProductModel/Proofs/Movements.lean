import ProductModel.Proofs.ChainRuns
import ProductModel.Proofs.Run.Unobtrusive

/-!
# Movements between rules

A movement has a gate before it and a reaction behind it, and the rules of both may do whatever
bodies can do: place, move or turn the very instance, or remove others.  So "the position" of a
movement is not the one at its beginning, and a reaction that rejects is too late to prevent
anything.

`Engine.Movement` says what happens in which world.  If the anterior rules do not all accept, the
world is the one that they have left.  If they do, the instance is changed as it is found then, the
code that observes its geometry is told once, and the posterior rules begin in the world after that
(`Engine.Moved`); what they come to is the outcome.  There is no third way, because rules cannot
take away the instance that their chain is about (`Reachable.present_of_callRules`).

`Language.movements` says it of moving and turning, component by component.
-/

namespace ProductModel

open ProductModel.Action

namespace Vec3

/-- The component of a vector along an axis. -/
def along (v : Vec3) : Axis → Float
  | .x => v.x
  | .y => v.y
  | .z => v.z

theorem ext_along {u v : Vec3} (h : ∀ axis, u.along axis = v.along axis) : u = v := by
  have hx := h .x
  have hy := h .y
  have hz := h .z
  cases u
  cases v
  simp_all [along]

theorem along_add (v delta : Vec3) (axis : Axis) :
    (v + delta).along axis = v.along axis + delta.along axis := by
  cases axis <;> rfl

theorem along_addAt (v : Vec3) (axis other : Axis) (amount : Float) :
    (v.addAt axis amount).along other =
      if other = axis then v.along other + amount else v.along other := by
  cases axis <;> cases other <;> rfl

end Vec3

variable {β σ : Type} {w w' w₁ w₂ : World β σ} {id : InstanceId} {i j j' : Instance β}
  {reason : Symbol} {arg : Value} {r : Except ModelError ChainOutcome}

namespace Instance

/-- **An instance is moved** by a vector, in every component once, and is otherwise what it was. -/
def TranslatedBy (delta : Vec3) (j j' : Instance β) : Prop :=
  j' = { j with position := j'.position } ∧
    ∀ axis, j'.position.along axis = j.position.along axis + delta.along axis

/-- **An instance is turned** about an axis once, and is otherwise what it was. -/
def TurnedBy (axis : Axis) (angle : Float) (j j' : Instance β) : Prop :=
  j' = { j with rotation := j'.rotation } ∧
    ∀ other, j'.rotation.along other =
      if other = axis then j.rotation.along other + angle else j.rotation.along other

theorem translatedBy_iff {delta : Vec3} :
    j.TranslatedBy delta j' ↔ j' = { j with position := j.position + delta } := by
  constructor
  · rintro ⟨hstill, hplace⟩
    have hposition : j'.position = j.position + delta :=
      Vec3.ext_along fun axis => (hplace axis).trans (Vec3.along_add _ _ _).symm
    rw [hstill, hposition]
  · rintro rfl
    exact ⟨rfl, fun axis => Vec3.along_add _ _ _⟩

theorem turnedBy_iff {axis : Axis} {angle : Float} :
    j.TurnedBy axis angle j' ↔ j' = { j with rotation := j.rotation.addAt axis angle } := by
  constructor
  · rintro ⟨hstill, hturn⟩
    have hrotation : j'.rotation = j.rotation.addAt axis angle :=
      Vec3.ext_along fun other => (hturn other).trans (Vec3.along_addAt _ _ _ _).symm
    rw [hstill, hrotation]
  · rintro rfl
    exact ⟨rfl, fun other => Vec3.along_addAt _ _ _ _⟩

end Instance

/-- **One instance is moved**, and the code that observes its geometry is told where it is then and
how it is turned. -/
structure Engine.Moved (e : Engine β σ) (id : InstanceId) (w₁ w₂ : World β σ)
    (j j' : Instance β) : Prop where
  there : w₁.model.arena.get? id = some j
  /-- of the instance, nothing but its place and orientation may differ -/
  still : j' = { j with position := j'.position, rotation := j'.rotation }
  /-- nothing else happens in the world -/
  world : w₂ = { w₁ with
    model := w₁.model.modify id fun _ => j'
    host :=
      match j.geometry.bind (·.observer) with
      | none => w₁.host
      | some observer => e.language.transformed observer j'.position j'.rotation w₁.host }

/-- **How a movement between rules goes**: it is prevented by the anterior rules, or is carried out
once and followed by the posterior ones. -/
inductive Engine.Movement (e : Engine β σ) (w : World β σ) (id : InstanceId) (type : TypeId)
    (reason : Symbol) (arg : Value) (Change : Instance β → Instance β → Prop) :
    Except ModelError ChainOutcome → World β σ → Prop
  | prevented {runs : List (RuleRun β)} {r : Except ModelError ChainOutcome} {w' : World β σ} :
      e.ChainRun w id type reason (some .anterior) arg runs r w' →
      (∀ executed, r ≠ .ok (.passed executed)) →
      Movement e w id type reason arg Change r w'
  | carriedOut {before after : List (RuleRun β)} {executed : Nat} {w₁ w₂ w' : World β σ}
      {j j' : Instance β} {r : Except ModelError ChainOutcome} :
      e.ChainRun w id type reason (some .anterior) arg before (.ok (.passed executed)) w₁ →
      e.Moved id w₁ w₂ j j' →
      Change j j' →
      e.ChainRun w₂ id j.type reason (some .posterior) arg after r w' →
      Movement e w id type reason arg Change r w'

namespace Engine

variable {e : Engine β σ} {change : Instance β → Instance β}

theorem outcome_notifyGeometry (hi : w.model.arena.get? id = some i) :
    (e.notifyGeometry id).outcome w = some (.ok (), { w with
      host :=
        match i.geometry.bind (·.observer) with
        | none => w.host
        | some observer => e.language.transformed observer i.position i.rotation w.host }) := by
  rw [notifyGeometry, outcome_bind_ok (outcome_find hi)]
  cases i.geometry.bind (·.observer) <;> rfl

/-- The instance is there after it was moved. -/
theorem Moved.present (h : e.Moved id w₁ w₂ j j') : w₂.model.arena.get? id = some j' := by
  rw [h.world]
  show (w₁.model.arena.modify id fun _ => j').get? id = some j'
  rw [Arena.get?_modify_self, h.there]
  rfl

theorem Moved.type_eq (h : e.Moved id w₁ w₂ j j') : j'.type = j.type := by
  rw [h.still]

/-- A change of an instance, what its geometry is told, and what is done next. -/
theorem exists_moved (hj : w₁.model.arena.get? id = some j)
    (hstill : change j = { j with position := (change j).position, rotation := (change j).rotation }) :
    ∃ w₂, e.Moved id w₁ w₂ j (change j) ∧ ∀ next : Action β σ ChainOutcome,
      (do update id change; e.notifyGeometry id; next).outcome w₁ = next.outcome w₂ := by
  have hmodel : w₁.model.modify id change = w₁.model.modify id fun _ => change j := by
    rw [Model.modify, Model.modify, Arena.modify_congr hj]
    rfl
  have hgeometry : (change j).geometry = j.geometry := by rw [hstill]
  have hchanged : (w₁.model.modify id change).arena.get? id = some (change j) := by
    rw [Model.modify, Arena.get?_modify_self, hj]
    rfl
  refine ⟨_, ⟨hj, hstill, rfl⟩, fun next => ?_⟩
  rw [outcome_bind_ok (outcome_update hj change),
    outcome_bind_ok (outcome_notifyGeometry hchanged), hmodel, hgeometry]

/-- A movement goes the same way if the change is said in other words. -/
theorem Movement.mono {type : TypeId} {Change Change' : Instance β → Instance β → Prop}
    (h : e.Movement w id type reason arg Change r w')
    (himp : ∀ {j j'}, Change j j' → Change' j j') :
    e.Movement w id type reason arg Change' r w' := by
  cases h with
  | prevented hruns hnot => exact .prevented hruns hnot
  | carriedOut hbefore hmoved hchange hafter =>
    exact .carriedOut hbefore hmoved (himp hchange) hafter

/-- **A movement goes as its outcome says.** -/
theorem exists_movement (he : e.Considerate (OfModels (OfTypes Registry.NamesLast)))
    (hi : w.model.arena.get? id = some i)
    (hthere : ∀ {r w₁}, (e.callRules id reason (some .anterior) arg).outcome w = some (r, w₁) →
      ∃ j, w₁.model.arena.get? id = some j)
    (hstill : ∀ j, change j =
      { j with position := (change j).position, rotation := (change j).rotation })
    (h : (e.move id reason arg change).outcome w = some (r, w')) :
    e.Movement w id i.type reason arg (fun j j' => j' = change j) r w' := by
  rw [move, outcome_bind] at h
  cases hgate : (e.callRules id reason (some .anterior) arg).outcome w with
  | none => simp [hgate] at h
  | some out =>
    obtain ⟨answer, w₁⟩ := out
    obtain ⟨before, hbefore⟩ := exists_chainRun hi he hgate
    rw [hgate] at h
    obtain err | executed | rejection := answer
    · cases h
      exact .prevented hbefore nofun
    · obtain ⟨j, hj⟩ := hthere hgate
      obtain ⟨w₂, hmoved, hcarry⟩ := exists_moved (e := e) hj (hstill j)
      dsimp only at h
      rw [hcarry] at h
      -- The rules after the movement are those of the same type, as it is the same instance.
      obtain ⟨after, hafter⟩ := exists_chainRun hmoved.present he h
      rw [hmoved.type_eq] at hafter
      exact .carriedOut hbefore hmoved rfl hafter
    · cases h
      exact .prevented hbefore nofun

/-- **A movement that goes so has this outcome.** -/
theorem Movement.outcome_move (he : e.Considerate (OfModels (OfTypes Registry.NamesLast)))
    (hi : w.model.arena.get? id = some i)
    (hstill : ∀ j, change j =
      { j with position := (change j).position, rotation := (change j).rotation })
    (h : e.Movement w id i.type reason arg (fun j j' => j' = change j) r w') :
    (e.move id reason arg change).outcome w = some (r, w') := by
  cases h with
  | prevented hruns hnot =>
    have hgate := hruns.outcome_callRules hi he
    obtain err | executed | rejection := r
    · exact outcome_bind_error hgate
    · exact absurd rfl (hnot executed)
    · exact outcome_bind_ok hgate
  | @carriedOut before after executed w₁ w₂ w' j j' r hbefore hmoved hchange hafter =>
    obtain rfl : j' = change j := hchange
    obtain ⟨w₂', hmoved', hcarry⟩ := exists_moved (e := e) hmoved.there (hstill j)
    -- There is one way to carry the change out.
    obtain rfl : w₂' = w₂ := hmoved'.world.trans hmoved.world.symm
    rw [← hmoved.type_eq] at hafter
    rw [move, outcome_bind_ok (hbefore.outcome_callRules hi he)]
    dsimp only
    rw [hcarry]
    exact hafter.outcome_callRules hmoved.present he

end Engine

/-- **A chain leaves its subject there**, whatever its rules do. -/
theorem Reachable.present_of_callRules {pending : List Pending} (hw : Reachable pending w.model)
    (L : Language β σ) (n : Nat) (hi : w.model.arena.get? id = some i) {phase : Option RuleKind}
    (hr : ((L.engine n).callRules id reason phase arg).outcome w = some (r, w')) :
    ∃ j, w'.model.arena.get? id = some j := by
  obtain ⟨v, hv, hmodel⟩ := ((L.alike_watched n).callRules id reason phase arg).exists_outcome hr
  have hend := (L.lawful_watched n).callRules_always (w := w.watching) id reason phase arg hw r v hv
  rw [← hmodel]
  cases r with
  | ok outcome =>
    obtain ⟨j, hj, -⟩ := (hend.2 i hi).after
    exact ⟨j, hj⟩
  | error err =>
    obtain ⟨j, hj, -⟩ := (hend.2 i hi).after
    exact ⟨j, hj⟩

/-- **What moving and turning an instance come to**, in every state of a run and whatever the rules
do.  They end if and only if the rules do. -/
theorem Language.movements (L : Language β σ) (n : Nat) {pending : List Pending}
    (hw : Reachable pending w.model) (hi : w.model.arena.get? id = some i) :
    (∀ {delta r w'}, (perform L (n + 1) (.translate id delta)).outcome w = some (r, w') ↔
      (L.engine n).Movement w id i.type Reason.translate.symbol
        (.list [.float delta.x, .float delta.y, .float delta.z]) (Instance.TranslatedBy delta)
        r w') ∧
    ∀ {axis angle r w'}, (perform L (n + 1) (.rotate id axis angle)).outcome w = some (r, w') ↔
      (L.engine n).Movement w id i.type Reason.rotate.symbol
        (.list [.symbol ⟨axis.label⟩, .float angle]) (Instance.TurnedBy axis angle) r w' := by
  have he := L.respects_along Registry.along_namesLast n
  refine ⟨⟨fun h => ?_, fun h => ?_⟩, ⟨fun h => ?_, fun h => ?_⟩⟩
  · exact (Engine.exists_movement he hi (hw.present_of_callRules L n hi) (fun _ => rfl) h).mono
      Instance.translatedBy_iff.mpr
  · exact (h.mono Instance.translatedBy_iff.mp).outcome_move he hi fun _ => rfl
  · exact (Engine.exists_movement he hi (hw.present_of_callRules L n hi) (fun _ => rfl) h).mono
      Instance.turnedBy_iff.mpr
  · exact (h.mono Instance.turnedBy_iff.mp).outcome_move he hi fun _ => rfl

/-! ## A crate that rules push -/

namespace Crate

/-- What a rule of a crate does, and what observes the geometry of a crate. -/
inductive Deed where
  /-- puts the crate one step to the side, and agrees -/
  | push
  | refuse
  /-- notes where the crate is -/
  | observe

/-- The crate. -/
def crate : InstanceId := ⟨0, 0⟩

/-- **The language of these rules.**  The host is what the observer has noted. -/
def language : Language Deed (List (Vec3 × Vec3)) where
  method _ _ := .pure .void
  rule deed call :=
    match deed with
    | .push => do
      let position := (((← Program.view).arena.get? call.subject).map (·.position)).getD .zero
      Program.call (Op.setPosition call.subject (position + ⟨0, 1, 0⟩))
      return .accept
    | _ => .pure .reject
  evaluate _ _ _ := .pure ()
  inspect _ _ := .pure ()
  transformed _ position rotation noted := noted ++ [(position, rotation)]

/-- A type whose rules push before they are asked to agree: too late to prevent that the crate is
moved, but early enough to prevent that it is turned. -/
def crateType : TypeDef Deed where
  name := "Crate"
  rules :=
    [{ reason := Reason.translate.symbol, kind := .anterior, body := .push },
      { reason := Reason.translate.symbol, kind := .posterior, body := .refuse },
      { reason := Reason.rotate.symbol, kind := .anterior, body := .push },
      { reason := Reason.rotate.symbol, kind := .anterior, body := .refuse }]

/-- Makes a crate whose geometry is observed. -/
def build : Body Deed (List (Vec3 × Vec3)) Unit := do
  let _ ← Program.call (Op.register crateType)
  let _ ← Program.call (Op.instantiate "Crate" none "crate" [])
  Program.call
    (Op.attachGeometry crate { bounds := ⟨.zero, ⟨1, 1, 1⟩⟩, observer := some .observe })

/-- The rejection that a rule of the crate answers. -/
def rejection (reason : Reason) (position : Nat) : ChainOutcome :=
  .rejected ⟨crate, reason.symbol, "Crate", position⟩

/-- Whether the crate stands somewhere and these places were noted. -/
def standsAt (position : Vec3) (noted : List (Vec3 × Vec3)) (w : World Deed (List (Vec3 × Vec3))) :
    Prop :=
  (w.model.arena.get? crate).map (·.position) = some position ∧ w.host = noted

instance (position : Vec3) (noted : List (Vec3 × Vec3)) (w : World Deed (List (Vec3 × Vec3))) :
    Decidable (standsAt position noted w) :=
  inferInstanceAs (Decidable (_ ∧ _))

/-- **A run with a crate**, which is then moved and turned. -/
theorem exists_crate : ∃ w w₁ w₂ i, Reachable [] w.model ∧ w.model.arena.get? crate = some i ∧
    (perform language 3 (.translate crate ⟨1, 0, 0⟩)).outcome w =
      some (.ok (rejection .translate 0), w₁) ∧
    standsAt ⟨1, 1, 0⟩ [(⟨1, 1, 0⟩, .zero)] w₁ ∧
    (perform language 3 (.rotate crate .x 1)).outcome w =
      some (.ok (rejection .rotate 1), w₂) ∧
    standsAt ⟨0, 1, 0⟩ [] w₂ := by
  have hrun : ((Body.exec language 3 build).outcome { host := [] }).any (fun built =>
      (built.2.model.arena.get? crate).isSome &&
      ((perform language 3 (.translate crate ⟨1, 0, 0⟩)).outcome built.2).any (fun moved =>
        decide (moved.1.toOption = some (rejection .translate 0) ∧
          standsAt ⟨1, 1, 0⟩ [(⟨1, 1, 0⟩, .zero)] moved.2)) &&
      ((perform language 3 (.rotate crate .x 1)).outcome built.2).any (fun turned =>
        decide (turned.1.toOption = some (rejection .rotate 1) ∧
          standsAt ⟨0, 1, 0⟩ [] turned.2))) = true := by
    decide +kernel
  simp only [Option.any_eq_true, Bool.and_eq_true, decide_eq_true_eq, Prod.exists] at hrun
  obtain ⟨r, w, hbuilt, ⟨hthere, r₁, w₁, hmoved, h₁, hw₁⟩, r₂, w₂, hturned, h₂, hw₂⟩ := hrun
  obtain rfl := eq_ok_of_toOption h₁
  obtain rfl := eq_ok_of_toOption h₂
  obtain ⟨i, hi⟩ := Option.isSome_iff_exists.mp hthere
  exact ⟨w, w₁, w₂, i, (Reachable.empty rfl rfl).after_exec hbuilt, hi, hmoved, hw₁, hturned, hw₂⟩

end Crate

/-- The crate is moved from where its rule has pushed it, and stays there although it is refused
afterwards.  It is not turned, but stays pushed, and nobody is told. -/
theorem Language.movements_crate : ∃ w w₁ w₂, ∃ i : Instance Crate.Deed,
    (Crate.language.engine 2).Movement w Crate.crate i.type Reason.translate.symbol
      (.list [.float 1, .float 0, .float 0]) (Instance.TranslatedBy ⟨1, 0, 0⟩)
      (.ok (Crate.rejection .translate 0)) w₁ ∧
    Crate.standsAt ⟨1, 1, 0⟩ [(⟨1, 1, 0⟩, .zero)] w₁ ∧
    (Crate.language.engine 2).Movement w Crate.crate i.type Reason.rotate.symbol
      (.list [.symbol ⟨"x"⟩, .float 1]) (Instance.TurnedBy .x 1)
      (.ok (Crate.rejection .rotate 1)) w₂ ∧
    Crate.standsAt ⟨0, 1, 0⟩ [] w₂ := by
  obtain ⟨w, w₁, w₂, i, hw, hi, hmoved, hw₁, hturned, hw₂⟩ := Crate.exists_crate
  obtain ⟨htranslate, hrotate⟩ := Language.movements Crate.language 2 hw hi
  exact ⟨w, w₁, w₂, i, htranslate.mp hmoved, hw₁, hrotate.mp hturned, hw₂⟩

end ProductModel
