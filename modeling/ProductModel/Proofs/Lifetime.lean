import ProductModel.Proofs.Run.Names
import ProductModel.Proofs.Run.Stages
import ProductModel.Proofs.Run.Unobtrusive
import ProductModel.Showroom

/-!
# The lifetime of instances, as programs see it

The stage of an instance's life is written in four places around bodies that may do anything, and an
instance can be gone before its initializer is.  `Language.lifetimes_observed` says what comes of it
for whoever can look: an instance is being initialized exactly while its initializer is at work,
cannot be removed meanwhile, and is live before and after all of this.
-/

namespace ProductModel

variable {β σ α : Type} {m : Model β} {s : Sight β} {x : InstanceId}

/-- **A model in which all instances are live.** -/
def Model.Settled (m : Model β) : Prop := ∀ {x i}, m.arena.get? x = some i → i.state = .live

/-- **What can be seen of the lives of instances.** -/
structure Sight.Staged (s : Sight β) : Prop where
  /-- an instance that is there is being initialized or is live -/
  stage : ∀ {x i}, s.model.arena.get? x = some i → i.state = .initializing ∨ i.state = .live
  /-- it is being initialized exactly while the initializer of its creation is at work -/
  atWork : ∀ {x i}, s.model.arena.get? x = some i →
    (i.state = .initializing ↔ ⟨x, some i.order⟩ ∈ s.births)
  /-- as long as that is so, a removal is refused and does no more than remember names -/
  refused : ∀ {x i}, s.model.arena.get? x = some i → ⟨x, some i.order⟩ ∈ s.births →
    ∀ {σ : Type} (L : Language β σ) (allowance : Nat) (w : World β σ), w.model = s.model →
      ∃ arena, s.model.arena.OnlyMemos arena ∧
        (perform L (allowance + 1) (.remove x)).outcome w =
          some (.error (.hierarchy (.invalidState (s.model.arena.pathName x)
            InstanceState.initializing.label "remove")), { w with model := { w.model with arena } })

/-! ## Removals that are refused -/

/-- **An instance that is not live is not removed.** -/
theorem Engine.outcome_remove_of_not_live (e : Engine β σ) {w : World β σ} {i : Instance β}
    (hi : w.model.arena.get? x = some i) (hstate : i.state ≠ .live) :
    (e.remove x).outcome w =
      some (.error (.hierarchy (.invalidState (w.model.arena.describe x).1 i.state.label "remove")),
        { w with model := { w.model with arena := (w.model.arena.describe x).2 } }) := by
  unfold Engine.remove
  rw [Action.outcome_bind_ok (Action.outcome_find hi)]
  simp only [if_pos hstate]
  rfl

/-- An instance goes by its path in messages. -/
theorem Model.WellNamed.describe_eq_pathName (h : m.WellNamed) (hm : m.Coherent) {i : Instance β}
    (hi : m.arena.get? x = some i) : (m.arena.describe x).1 = m.arena.pathName x := by
  obtain ⟨b, hb⟩ := Arena.absoluteName_eq_pathName hm.forest h.memos hi
  rw [Arena.describe, hb]

/-! ## What is observed -/

/-- The initializers at work are those of the births under way. -/
theorem Sight.mem_births {pending : List Pending} (hwork : s.work = pending.map Pending.work)
    {order : Nat} : ⟨x, some order⟩ ∈ s.births ↔ BeingBorn pending x order := by
  unfold Sight.births
  rw [hwork, List.mem_filterMap]
  constructor
  · rintro ⟨work, hmem, heq⟩
    obtain ⟨p, hp, rfl⟩ := List.mem_map.mp hmem
    cases p with
    | chain subject standing moment => cases heq
    | birth id moment =>
      cases heq
      exact ⟨moment, hp, rfl⟩
  · rintro ⟨moment, hp, rfl⟩
    exact ⟨_, List.mem_map.mpr ⟨_, hp, rfl⟩, rfl⟩

theorem Reachable.stagedSight {pending : List Pending} (h : Reachable pending s.model)
    (hwork : s.work = pending.map Pending.work) : s.Staged := by
  have hstage := fun {x i} (hi : s.model.arena.get? x = some i) => h.staged.stage hi
  have hatWork : ∀ {x i}, s.model.arena.get? x = some i →
      (i.state = .initializing ↔ ⟨x, some i.order⟩ ∈ s.births) := by
    intro x i hi
    rw [Sight.mem_births hwork]
    rcases hstage hi with ⟨hstate, hborn⟩ | ⟨hstate, hborn⟩
    · exact iff_of_true hstate hborn
    · rw [hstate]
      exact iff_of_false (fun h => nomatch h) hborn
  refine ⟨fun hi => (hstage hi).imp And.left And.left, hatWork, ?_⟩
  intro x i hi hbirth σ L allowance w hw
  have hstate := (hatWork hi).mpr hbirth
  have hlive : i.state ≠ .live := by
    rw [hstate]
    exact fun h => nomatch h
  -- The stage is looked at before anything else, and the message remembers the name it uses.
  refine ⟨(s.model.arena.describe x).2, Arena.onlyMemos_describe x, ?_⟩
  rw [← hw] at hi
  rw [← h.wellNamed.describe_eq_pathName h.sound.coherent (hw ▸ hi), ← hw, ← hstate]
  exact Engine.outcome_remove_of_not_live _ hi hlive

/-- Between operations from outside, all instances are live. -/
theorem Reachable.settled (h : Reachable [] m) : m.Settled := by
  intro x i hi
  rcases h.staged.stage hi with ⟨-, moment, hmem, -⟩ | ⟨hstate, -⟩
  · cases hmem
  · exact hstate

/-- **The lifetime of instances**, in every run of every language: as it is observed by bodies at
any depth, as it is found at the end of the run, and as every further operation from outside leaves
it. -/
theorem Language.lifetimes_observed (L : Language β σ) (allowance : Nat) :
    (∀ {α : Type} {p : Body β σ α} {config host s}, p.Sighted L allowance config host s →
      s.Staged) ∧
    ∀ {α : Type} {p : Body β σ α} {config host r w},
      (Body.exec L allowance p).outcome { config, host } = some (r, w) →
        w.model.Settled ∧ ∀ depth op {r' w'},
          (perform L depth op).outcome w = some (r', w') → w'.model.Settled := by
  constructor
  · intro α p config host s hs
    obtain ⟨pending, hreach, hwork⟩ := hs.reachable
    exact hreach.stagedSight hwork
  · intro α p config host r w hrun
    have hstart : Reachable [] ({ config, host } : World β σ).model := .empty rfl rfl
    have hend : Reachable [] w.model :=
      (mirrors_watched (mirrors_perform L allowance) p).reachable (follows_exec L allowance p)
        hstart hrun
    refine ⟨hend.settled, fun depth op r' w' hr => ?_⟩
    exact ((mirrors_perform L depth op).reachable (follows_perform L depth op) hend hr).settled

/-- While a showroom is built, its cabinet is seen being initialized.  When it is built, its cabinet
and its shelf are live, and the removal of its cabinet leaves only live instances. -/
theorem Language.lifetimes_observed_showroom :
    (∃ s i, (Showroom.build id 1).Sighted (Showroom.language (σ := Unit)) 6 {} () s ∧
      s.model.arena.get? ⟨1, 0⟩ = some i ∧ i.state = .initializing ∧
      s.births.map (·.id) = [⟨1, 0⟩] ∧ s.Staged) ∧
    ∃ r w r' w', (Body.exec (Showroom.language (σ := Unit)) 6 (Showroom.build id 1)).outcome
        { config := {}, host := () } = some (r, w) ∧
      w.model.arena.size = 3 ∧ w.model.Settled ∧
      (perform (Showroom.language (σ := Unit)) 6 (.remove ⟨1, 0⟩)).outcome w = some (r', w') ∧
      w'.model.arena.size = 1 ∧ w'.model.Settled := by
  obtain ⟨hsights, hends⟩ := Language.lifetimes_observed (Showroom.language (σ := Unit)) 6
  constructor
  · obtain ⟨s, hs, htest⟩ := (Showroom.build id 1).exists_sighted
      (Showroom.language (σ := Unit)) 6 {} ()
      (fun s => (s.model.arena.get? ⟨1, 0⟩).any (·.state == .initializing) &&
        s.births.map (·.id) == [⟨1, 0⟩]) (by decide +kernel)
    obtain ⟨hstate, hbirths⟩ := (Bool.and_eq_true _ _).mp htest
    obtain ⟨i, hi, hinitializing⟩ := (Option.any_eq_true _ _).mp hstate
    exact ⟨s, i, hs, hi, beq_iff_eq.mp hinitializing, beq_iff_eq.mp hbirths, hsights hs⟩
  · have hrun : ((Body.exec (Showroom.language (σ := Unit)) 6 (Showroom.build id 1)).outcome
        { config := {}, host := () }).any (fun run => run.2.model.arena.size == 3 &&
          ((perform (Showroom.language (σ := Unit)) 6 (.remove ⟨1, 0⟩)).outcome run.2).any
            fun after => after.2.model.arena.size == 1) = true := by
      decide +kernel
    obtain ⟨⟨r, w⟩, hw, htest⟩ := (Option.any_eq_true _ _).mp hrun
    obtain ⟨hsize, hremove⟩ := (Bool.and_eq_true _ _).mp htest
    obtain ⟨⟨r', w'⟩, hr, hsize'⟩ := (Option.any_eq_true _ _).mp hremove
    obtain ⟨hsettled, hafter⟩ := hends hw
    exact ⟨r, w, r', w', hw, beq_iff_eq.mp hsize, hsettled, hr, beq_iff_eq.mp hsize',
      hafter 6 _ hr⟩

end ProductModel
