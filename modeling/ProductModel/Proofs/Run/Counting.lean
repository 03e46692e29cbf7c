import ProductModel.Proofs.Arena.Counted
import ProductModel.Proofs.Run.Outcomes
import ProductModel.Proofs.Run.Permissive
import ProductModel.Proofs.Run.Unobtrusive

/-!
# Instances are counted

The number of instances that an arena keeps is right (`Arena.Counted`) in everything that comes into
view in a run from nothing, at whatever depth (`Body.Sighted.counted`).

## Design

The states of a run leave the number out (`Reachable`), so it is followed on its own: that a right
number stays right is a relation of worlds (`World.KeepsCount`), which allows instances to come and
go and to be changed in any way, and which bodies respect that note what is in view.
-/

namespace ProductModel

open ProductModel.Action

variable {β σ α : Type} {id : InstanceId} {i : Instance β}

/-! ## Worlds in which instances are counted -/

/-- **The number of instances is right** now, and was so whenever something came into view. -/
structure World.Tallied (w : World β (σ × Watch β)) : Prop where
  now : w.model.arena.Counted
  sights : ∀ s ∈ w.host.2.sights, s.model.arena.Counted

/-- **A right number stays right.** -/
def World.KeepsCount (w w' : World β (σ × Watch β)) : Prop := w.Tallied → w'.Tallied

namespace World

/-- Nothing came into view meanwhile. -/
theorem keepsCount_of_sights {w w' : World β (σ × Watch β)}
    (hsights : w'.host.2.sights = w.host.2.sights)
    (harena : w.model.arena.Counted → w'.model.arena.Counted) : w.KeepsCount w' :=
  fun h => ⟨harena h.now, by rw [hsights]; exact h.sights⟩

/-- The record of changes is no matter, nor are names and lookups that are remembered. -/
theorem heedless_keepsCount :
    Heedless (KeepsCount : World β (σ × Watch β) → World β (σ × Watch β) → Prop) where
  refl _ h := h
  trans h h' hw := h' (h hw)
  remembering _ _ honly := keepsCount_of_sights rfl fun h => h.remembered honly
  lookingUp w type name := keepsCount_of_sights
    (congrArg (fun host => host.2.sights) (w.host_lookingUp type name))
    fun h => by rw [model_lookingUp]; exact h
  changing _ _ := keepsCount_of_sights rfl id

/-- What comes into view now is the model at hand. -/
theorem observant_keepsCount : Observant (fun m (t : Watch β) => t.note m)
    (KeepsCount : World β (σ × Watch β) → World β (σ × Watch β) → Prop) where
  toNeutral := heedless_keepsCount.toNeutral
  own _ _ := keepsCount_of_sights rfl id
  chronicling w h := by
    refine ⟨h.now, fun s hs => ?_⟩
    rcases List.mem_append.mp hs with hs | hs
    · exact h.sights s hs
    · rw [List.mem_singleton.mp hs]
      exact h.now

/-- Instances may be changed in any way. -/
theorem allows_keepsCount (f : Instance β → Instance β) :
    Allows (KeepsCount : World β (σ × Watch β) → World β (σ × Watch β) → Prop) id f :=
  fun _ _ _ => keepsCount_of_sights rfl fun h => h.modify id f

/-- Instances may come and go. -/
theorem permissive_keepsCount :
    Permissive (KeepsCount : World β (σ × Watch β) → World β (σ × Watch β) → Prop) where
  toNeutral := heedless_keepsCount.toNeutral
  placing := heedless_keepsCount.place (fun _ => keepsCount_of_sights rfl fun h => h.nextOrder)
    (fun hins => keepsCount_of_sights rfl fun h => (h.nextOrder.insert hins).adopt _ _)
    fun _ => allows_keepsCount _
  dropping w id father := keepsCount_of_sights rfl fun h => by
    rw [w.model.arena_removeSubtree id father]
    exact h.prune id father
  touching _ _ := allows_keepsCount _
  products _ _ := keepsCount_of_sights rfl id

end World

open World (KeepsCount heedless_keepsCount observant_keepsCount allows_keepsCount
  keepsCount_of_sights)

/-! ## Bodies -/

section Run

variable {ω : Type} {ans : ω → Type} {handler : (op : ω) → Action β (σ × Watch β) (ans op)}

/-- **A watched program keeps the count** if the operations do that it performs. -/
theorem keepsCount_watched (hhandler : ∀ op, Respects KeepsCount (handler op))
    (p : Program ω ans (Model β) σ ModelError α) :
    Respects KeepsCount (p.watched.run handler) := by
  rw [p.watched_eq]
  exact observant_keepsCount.run hhandler p

/-- That a body begins and ends is noted, and does not come into view. -/
theorem keepsCount_watchedAs (hhandler : ∀ op, Respects KeepsCount (handler op))
    (p : Program ω ans (Model β) σ ModelError α) (work : Model β → AtWork) :
    Respects KeepsCount ((p.watchedAs work).run handler) := by
  have hkept : ∀ {w w' : World β (σ × Watch β)},
      KeepsCount { w with host := (w.host.1, w.host.2.begin (work w.model)) } w' →
      KeepsCount w { w' with host := (w'.host.1, w'.host.2.finish) } := by
    intro w w' h hw
    have hend := h ⟨hw.now, hw.sights⟩
    exact ⟨hend.now, hend.sights⟩
  exact ⟨fun _ => always_of_watched (((keepsCount_watched hhandler p).always _).mono
    (fun _ _ h => hkept h) fun _ _ h => hkept h)⟩

end Run

/-- **A watched engine keeps the count** if the operations do that its bodies perform. -/
theorem Language.considerate_watched {L : Language β σ} {allowance : Nat}
    (h : ∀ op, Respects KeepsCount (perform L.watched allowance op)) :
    (L.watched.engine allowance).Considerate KeepsCount where
  method body call := keepsCount_watched h (L.method body call)
  evaluate body id key := keepsCount_watched h (L.evaluate body id key)
  initializer body call := by
    obtain ⟨receiver, args⟩ := call
    cases receiver with
    | none => exact keepsCount_watched h _
    | some id => exact keepsCount_watchedAs h _ _
  rule body call := keepsCount_watchedAs h (L.rule body call) _
  inspect body id := by
    show Respects _ (Inspection.run (L.inspect body id).watched)
    rw [(L.inspect body id).watched_eq]
    exact observant_keepsCount.inspection (L.inspect body id)
  transformed _ _ _ _ := keepsCount_of_sights rfl id

/-! ## Operations -/

/-- **Every operation keeps the count**, if the bodies do that it runs. -/
theorem Engine.Considerate.keepsCount_step {e : Engine β (σ × Watch β)}
    (h : e.Considerate KeepsCount) (op : Op β) : Respects KeepsCount (e.step op) := by
  have hR := heedless_keepsCount (β := β) (σ := σ)
  cases op with
  | register d => exact hR.changeTypes (fun _ _ => keepsCount_of_sights rfl id) (·.register d)
  | redefine typeName d =>
    exact hR.changeTypes (fun _ _ => keepsCount_of_sights rfl id) (·.redefine typeName d)
  | sweep kind root =>
    exact h.sweep hR.toNeutral (fun _ => allows_keepsCount _) (fun _ => allows_keepsCount _)
      (fun _ _ => allows_keepsCount _) kind root
  | _ => exact h.step_of_isOrdinary_of_heedless World.permissive_keepsCount hR rfl

/-- **Operations keep the count**, however deep their bodies are nested. -/
theorem keepsCount_perform (L : Language β σ) (allowance : Nat) (op : Op β) :
    Respects KeepsCount (perform L.watched allowance op) := by
  induction allowance generalizing op with
  | zero => exact ⟨fun _ => always_exhausted⟩
  | succ allowance ih => exact (Language.considerate_watched ih).keepsCount_step op

/-- **Whatever comes into view, its instances are counted.** -/
theorem Body.Sighted.counted {L : Language β σ} {allowance : Nat} {p : Body β σ α}
    {config : Config} {host : σ} {s : Sight β} (h : p.Sighted L allowance config host s) :
    s.model.arena.Counted := by
  obtain ⟨r, w, hrun, hs⟩ := h
  have hkept : KeepsCount (World.fresh config host) w :=
    (keepsCount_watched (keepsCount_perform L allowance) p).of_outcome hrun
  exact (hkept ⟨Arena.counted_empty, nofun⟩).sights s hs

end ProductModel
