import ProductModel.Proofs.Run.Names
import ProductModel.Proofs.Run.Unobtrusive
import ProductModel.Showroom

/-!
# What a creation establishes

A new instance is in its place before its initializer runs, and the initializer may do anything to
the model.  It cannot remove its own instance, which is not live yet.  It can remove the father,
though, and then the instance goes with him: the creation succeeds all the same, and its answer is
the handle of an instance that is no longer there.

This is the only way to lose an instance before its creator hears of it.
`Language.instantiate_establishes` says so for every call in every state of a run, from outside or
by a body at any depth, and `Uprooting` shows that it happens.
-/

namespace ProductModel

open ProductModel.Action

variable {β σ : Type}

/-- **An instance that is established** under a father, or as a root: it is live and listed
there. -/
structure Model.Established (m : Model β) (father : Option InstanceId) (id : InstanceId) :
    Prop where
  live : ∃ i, m.arena.get? id = some i ∧ i.state = .live ∧ i.father = father
  listed : id ∈ m.arena.siblings father

/-- **An instance that is lost** from one model to another: it was there, and what has its handle
now, if anything has, is another one. -/
def Model.Lost (m m' : Model β) (x : InstanceId) : Prop :=
  ∃ i, m.arena.get? x = some i ∧ ∀ j, m'.arena.get? x = some j → j.order ≠ i.order

/-- What is live under a father is listed there. -/
theorem Model.Coherent.established {m : Model β} (h : m.Coherent) {id : InstanceId}
    {i : Instance β} (hi : m.arena.get? id = some i) (hlive : i.state = .live) :
    m.Established i.father id :=
  ⟨⟨i, hi, hlive, rfl⟩, h.forest.mem_siblings hi⟩

/-- **What a creation leaves behind**, in the models before and after it. -/
theorem Created.established {τ : Type} {w w' : World β τ} {father : Option InstanceId}
    {id : InstanceId} (h : Created w father id w') (hm : w.model.Coherent)
    (hm' : w'.model.Coherent) :
    w'.model.Established father id ∨ ∃ f, father = some f ∧ w.model.Lost w'.model f := by
  rcases h.there with ⟨i, hi, hlive, rfl⟩ | ⟨f, hf, hgone⟩
  · exact Or.inl (hm'.established hi hlive)
  · obtain ⟨i, hi⟩ := (h.ready f hf).1
    refine Or.inr ⟨f, hf, i, hi, fun j hj => ?_⟩
    -- The father had its number before the call, and what is in its place has got one since.
    have hold := hm.ordered hi
    have hnew := hgone j hj
    omega

/-- **A call of `instantiate` that succeeds** establishes an instance, or has lost the father. -/
theorem Reachable.instantiate {pending : List Pending} {w w' : World β σ}
    (hw : Reachable pending w.model) {L : Language β σ} {allowance : Nat} {typeName name : String}
    {father : Option InstanceId} {args : List Value} {id : InstanceId}
    (h : (perform L allowance (.instantiate typeName father name args)).outcome w =
      some (.ok id, w')) :
    w'.model.Established father id ∨ ∃ f, father = some f ∧ w.model.Lost w'.model f := by
  cases allowance with
  | zero => cases h
  | succ allowance =>
    obtain ⟨v, hv, hmodel⟩ := (mirrors_perform L (allowance + 1) _).exists_outcome h
    have hleads := (L.lawful_watched allowance).instantiate_leads (w := w.watching) typeName father
      name args hw
    obtain ⟨hreached, hcreated⟩ := hleads _ _ hv
    rw [← hmodel]
    exact hcreated.established hw.sound.coherent hreached.sound.coherent

/-- **What creations establish**, in every run of every language: all that bodies at any depth and
callers from outside ever find is a state of a run, and in every state of a run a call that succeeds
establishes the instance that it answers, unless its bodies have removed the father. -/
theorem Language.instantiate_establishes (L : Language β σ) (allowance : Nat) :
    (∀ {α : Type} {p : Body β σ α} {config host s}, p.Sighted L allowance config host s →
      ∃ pending, Reachable pending s.model) ∧
    (∀ {α : Type} {p : Body β σ α} {config host r w},
      (Body.exec L allowance p).outcome { config, host } = some (r, w) → Reachable [] w.model) ∧
    ∀ {pending} {w : World β σ}, Reachable pending w.model →
      ∀ {depth typeName father name args id w'},
        (perform L depth (.instantiate typeName father name args)).outcome w =
          some (.ok id, w') →
        w'.model.Established father id ∨ ∃ f, father = some f ∧ w.model.Lost w'.model f := by
  refine ⟨?_, ?_, fun hw => hw.instantiate⟩
  · intro α p config host s hs
    obtain ⟨pending, hreach, -⟩ := hs.reachable
    exact ⟨pending, hreach⟩
  · intro α p config host r w hrun
    exact (mirrors_watched (mirrors_perform L allowance) p).reachable (follows_exec L allowance p)
      (.empty rfl rfl) hrun

/-- In a showroom with a cabinet, another shelf is established as a child of the cabinet. -/
theorem Language.instantiate_establishes_showroom :
    ∃ w w' : World Showroom.Routine Unit, Reachable [] w.model ∧
      (perform Showroom.language 6 (.instantiate "Shelf" (some ⟨1, 0⟩) "spare" [])).outcome w =
        some (.ok ⟨3, 0⟩, w') ∧
      w'.model.Established (some ⟨1, 0⟩) ⟨3, 0⟩ := by
  obtain ⟨-, hends, hcalls⟩ :=
    Language.instantiate_establishes (Showroom.language (σ := Unit)) 6
  have hrun : ((Body.exec (Showroom.language (σ := Unit)) 6 (Showroom.build id 1)).outcome
      { config := {}, host := () }).any (fun run =>
        run.2.model.arena.orderOf ⟨1, 0⟩ == 2 &&
        ((perform Showroom.language 6 (.instantiate "Shelf" (some ⟨1, 0⟩) "spare" [])).outcome
          run.2).any fun after => after.1.toOption == some ⟨3, 0⟩ &&
            after.2.model.arena.orderOf ⟨1, 0⟩ == 2 && after.2.model.arena.contains ⟨1, 0⟩) =
      true := by
    decide +kernel
  simp only [Option.any_eq_true, Bool.and_eq_true, beq_iff_eq, Prod.exists] at hrun
  obtain ⟨r, w, hw, horder, answer, w', hcall, ⟨hanswer, horder'⟩, hthere⟩ := hrun
  obtain _ | _ := answer
  · cases hanswer
  obtain rfl := Option.some.inj hanswer
  refine ⟨w, w', hends hw, hcall, ?_⟩
  rcases hcalls (hends hw) hcall with h | ⟨f, hf, i, hi, hlost⟩
  · exact h
  · -- The cabinet is still there, with the number that it had.
    cases hf
    obtain ⟨j, hj⟩ := Arena.contains_eq_true_iff.mp hthere
    rw [Arena.orderOf_eq hi] at horder
    rw [Arena.orderOf_eq hj] at horder'
    exact absurd (horder'.trans horder.symm) (hlost j hj)

/-! ## An initializer that removes the father of its instance -/

namespace Uprooting

/-- The language with one method, which removes the father of its receiver. -/
def language : Language Unit Unit where
  method _ call := do
    let m ← Program.view
    match (call.receiver.bind m.arena.get?).bind (·.father) with
    | some father =>
      let _ ← Program.call (Op.remove father)
      return .void
    | none => return .void
  rule _ _ := .pure .accept
  evaluate _ _ _ := .pure ()
  inspect _ _ := .pure ()
  transformed _ _ _ host := host

/-- Builds a house, for guests who tear it down. -/
def build : Body Unit Unit InstanceId := do
  let _ ← Program.call (Op.register { name := "House" })
  let _ ← Program.call (Op.register
    { name := "Guest", methods := [{ name := Engine.initializeName, body := () }] })
  Program.call (Op.instantiate "House" none "house" [])

end Uprooting

/-- **A call of `instantiate` that succeeds can answer an instance that is gone**: the guest has
torn the house down. -/
theorem Language.instantiate_uproots :
    ∃ w w' : World Unit Unit, Reachable [] w.model ∧
      (perform Uprooting.language 2 (.instantiate "Guest" (some ⟨0, 0⟩) "guest" [])).outcome w =
        some (.ok ⟨1, 0⟩, w') ∧
      w'.model.arena.get? ⟨1, 0⟩ = none ∧ ¬w'.model.Established (some ⟨0, 0⟩) ⟨1, 0⟩ := by
  have hrun : ((Body.exec Uprooting.language 2 Uprooting.build).outcome { host := () }).any
      (fun run => ((perform Uprooting.language 2
        (.instantiate "Guest" (some ⟨0, 0⟩) "guest" [])).outcome run.2).any fun after =>
          after.1.toOption == some ⟨1, 0⟩ && (after.2.model.arena.get? ⟨1, 0⟩).isNone) = true := by
    decide +kernel
  simp only [Option.any_eq_true, Bool.and_eq_true, beq_iff_eq, Prod.exists,
    Option.isNone_iff_eq_none] at hrun
  obtain ⟨r, w, hw, answer, w', hcall, hanswer, hgone⟩ := hrun
  obtain _ | _ := answer
  · cases hanswer
  obtain rfl := Option.some.inj hanswer
  refine ⟨w, w', ?_, hcall, hgone, ?_⟩
  · exact (mirrors_watched (mirrors_perform Uprooting.language 2) Uprooting.build).reachable
      (follows_exec Uprooting.language 2 Uprooting.build) (.empty rfl rfl) hw
  · rintro ⟨⟨i, hi, -⟩, -⟩
    rw [hgone] at hi
    cases hi

end ProductModel
