import ProductModel.Proofs.Run.Bodies
import ProductModel.Proofs.Run.Names
import ProductModel.Showroom

/-!
# Instances are found by name

Absolute names are made once and remembered until a rename, and siblings are kept from sharing a
name by three operations separately.  `Body.Sighted.navigable` says that all of this fits together
at every moment at which a program can look: the absolute name of an instance is its dotted path as
it is now, and finding by name inverts it in both directions.
-/

namespace ProductModel

variable {β σ α : Type} {m : Model β}

/-- **A model in which instances are found by name.** -/
structure Model.Navigable (m : Model β) : Prop where
  /-- local names are a letter, and then letters, digits and underscores -/
  identifier : ∀ {x i}, m.arena.get? x = some i →
    ∃ c cs, i.localName.toList = c :: cs ∧ c.isAlpha = true ∧
      ∀ d ∈ cs, d.isAlphanum = true ∨ d = '_'
  /-- no two children of a father share a name -/
  childNames : ∀ {x i c d}, m.arena.get? x = some i → c ∈ i.children → d ∈ i.children →
    m.arena.localName? c = m.arena.localName? d → c = d
  /-- no two roots share a name -/
  rootNames : ∀ {c d}, c ∈ m.arena.roots → d ∈ m.arena.roots →
    m.arena.localName? c = m.arena.localName? d → c = d
  /-- an absolute name that is remembered is the path as it is now -/
  memo : ∀ {x i name}, m.arena.get? x = some i → i.memo = some name → name = m.arena.pathName x
  /-- the operation answers with the path -/
  absoluteName : ∀ {x i}, m.arena.get? x = some i →
    ∀ {σ : Type} (L : Language β σ) (allowance : Nat) (w : World β σ), w.model = m →
      ∃ w', (perform L (allowance + 1) (.absoluteName x)).outcome w =
        some (.ok (m.arena.pathName x), w')
  /-- an instance is found under its path -/
  find : ∀ {x i}, m.arena.get? x = some i → m.arena.find? (m.arena.pathName x) = some x
  /-- what is found under a name is an instance, and the name is its path -/
  found : ∀ {x name}, m.arena.find? name = some x →
    (∃ i, m.arena.get? x = some i) ∧ m.arena.pathName x = name

theorem Naming.exists_of_isIdentifier {name : String} (h : Naming.isIdentifier name = true) :
    ∃ c cs, name.toList = c :: cs ∧ c.isAlpha = true ∧ ∀ d ∈ cs, d.isAlphanum = true ∨ d = '_' := by
  unfold Naming.isIdentifier at h
  cases hname : name.toList with
  | nil =>
    rw [hname] at h
    cases h
  | cons c cs =>
    rw [hname] at h
    obtain ⟨hfirst, hrest⟩ := (Bool.and_eq_true _ _).mp h
    refine ⟨c, cs, rfl, hfirst, ?_⟩
    intro d hd
    have hchar := List.all_eq_true.mp hrest d hd
    simpa [Naming.isNameChar] using hchar

theorem Model.WellNamed.toNavigable (h : m.WellNamed) (hm : m.Coherent) : m.Navigable := by
  have hdots : ∀ {x i}, m.arena.get? x = some i → '.' ∉ i.localName.toList :=
    fun hi => Naming.dot_not_mem_of_isIdentifier (h.identifier hi)
  refine ⟨fun hi => Naming.exists_of_isIdentifier (h.identifier hi), ?_,
    fun hc hd => h.distinct none _ hc _ hd, ?_, ?_, ?_, ?_⟩
  · intro x i c d hi hc hd
    rw [← Arena.childrenOf_eq hi] at hc hd
    exact h.distinct (some x) c hc d hd
  · intro x i name hi hname
    exact (h.memos hi hname).unique (Arena.named_pathName hm.forest hi)
  · intro x i hi σ L allowance w hw
    obtain ⟨b, hb⟩ := Arena.absoluteName_eq_pathName hm.forest h.memos hi
    rw [← hw] at hb ⊢
    exact ⟨_, Action.outcome_absoluteName hb⟩
  · intro x i hi
    exact hm.forest.find?_of_named h.distinct hdots (Arena.named_pathName hm.forest hi)
  · intro x name hfind
    have hnamed := hm.forest.named_of_find? hfind
    obtain ⟨i, hi⟩ := hnamed.present
    exact ⟨⟨i, hi⟩, (Arena.named_pathName hm.forest hi).unique hnamed⟩

/-- **Instances are found by name whenever a program can look**, in every run from nothing. -/
theorem Body.Sighted.navigable {L : Language β σ} {allowance : Nat} {p : Body β σ α}
    {config : Config} {host : σ} {s : Sight β} (h : p.Sighted L allowance config host s) :
    s.model.Navigable := by
  obtain ⟨pending, hreach, -⟩ := h.reachable
  exact hreach.wellNamed.toNavigable hreach.sound.coherent

/-- Builds a showroom, asks for the name of its shelf, renames its cabinet, and asks again. -/
def Showroom.renamedCabinet {β σ : Type} (code : Showroom.Routine → β) : Body β σ String := do
  let room ← Showroom.build code 1
  let shelf := room.shelves.headD room.cabinet
  let _ ← Program.call (Op.absoluteName shelf)
  Program.call (Op.rename room.cabinet "closet")
  Program.call (Op.absoluteName shelf)

/-- A run with a rename between two questions comes past a model in which the second answer is
remembered. -/
theorem Body.Sighted.navigable_showroom :
    ∃ s, (Showroom.renamedCabinet id).Sighted (Showroom.language (σ := Unit)) 6 {} () s ∧
      (s.model.arena.get? ⟨2, 0⟩).bind (·.memo) = some "env.closet.e1" ∧
      s.model.arena.find? "env.closet.e1" = some ⟨2, 0⟩ ∧ s.model.Navigable := by
  obtain ⟨s, hsighted, htest⟩ := (Showroom.renamedCabinet id).exists_sighted
    (Showroom.language (σ := Unit)) 6 {} ()
    (fun s => (s.model.arena.get? ⟨2, 0⟩).bind (·.memo) == some "env.closet.e1" &&
      s.model.arena.find? "env.closet.e1" == some ⟨2, 0⟩) (by decide +kernel)
  simp only [Bool.and_eq_true, beq_iff_eq] at htest
  exact ⟨s, hsighted, htest.1, htest.2, Body.Sighted.navigable hsighted⟩

end ProductModel
