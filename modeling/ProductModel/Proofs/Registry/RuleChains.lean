import Mathlib.Data.List.Basic
import ProductModel.Proofs.Registry.Hierarchy

/-!
# Rules are inherited

The chain of a reason begins with the chain of the supertype and goes on with the rules of the type
itself, in the order in which they were added to its definition.  So a general rule comes before a
special one, and no rule replaces another.  `Registry.rules_inherited` says so after every sequence
of registrations and redefinitions, and for the chains of one phase, which part the whole chain
between them.  A redefinition leaves all chains alone but those of the type and of what is below it.

## Design

The chain follows the lineage, and the lineage of a type is that of its supertype and the type
(`Grounded.lineage_eq`).  A definition keeps its rules in one list; `TypeDef.ruleTable` keeps them
apart by their reasons, as they come in, and this makes no difference (`TypeDef.get?_ruleTable`).
-/

namespace ProductModel

variable {β : Type}

/-! ## The rules of a definition -/

/-- Adds a rule to a table behind the other rules of its reason. -/
def addToTable (table : Association Symbol (List (Rule β))) (rule : Rule β) :
    Association Symbol (List (Rule β)) :=
  table.insert rule.reason ((table.get? rule.reason).getD [] ++ [rule])

/-- **The rules of a definition by their reasons**, added one after the other. -/
def TypeDef.ruleTable (d : TypeDef β) : Association Symbol (List (Rule β)) :=
  d.rules.foldl addToTable {}

theorem get?_foldl_addToTable (rules : List (Rule β)) (reason : Symbol)
    (table : Association Symbol (List (Rule β))) :
    ((rules.foldl addToTable table).get? reason).getD [] =
      (table.get? reason).getD [] ++ rules.filter (·.reason == reason) := by
  induction rules generalizing table with
  | nil => exact (List.append_nil _).symm
  | cons rule rules ih =>
    rw [List.foldl_cons, ih, addToTable]
    by_cases hreason : rule.reason = reason
    · subst hreason
      rw [Association.get?_insert_self, Option.getD_some, List.append_assoc, List.filter_cons,
        if_pos (beq_self_eq_true _)]
      rfl
    · rw [Association.get?_insert_of_ne _ (Ne.symm hreason), List.filter_cons,
        if_neg (by rwa [beq_iff_eq])]

/-- **Rules for a reason are those that were added for it**, in the same order. -/
theorem TypeDef.get?_ruleTable (d : TypeDef β) (reason : Symbol) :
    (d.ruleTable.get? reason).getD [] = d.rulesFor reason := by
  rw [ruleTable, get?_foldl_addToTable]
  rfl

/-- What is not anterior is posterior. -/
theorem RuleKind.posterior_eq_not_anterior (kind : RuleKind) :
    (kind == .posterior) = !(kind == .anterior) := by
  cases kind <;> rfl

namespace Registry

variable {r r' : Registry β} {id x : TypeId} {d : TypeDef β} {reason : Symbol}

/-! ## Chains along the lineage -/

/-- The rules for a reason that a type itself has. -/
def ownRules (r : Registry β) (id : TypeId) (reason : Symbol) : List (Rule β) :=
  ((r.definition? id).map (·.rulesFor reason)).getD []

theorem ruleChain_eq (phase : Option RuleKind) :
    r.ruleChain id reason phase = (r.lineage id).flatMap fun t =>
      ((r.ownRules t reason).filter fun rule => phase.all (rule.kind == ·)).map
        (ChainLink.mk t) := by
  unfold ruleChain ownRules
  refine congrArg (List.flatMap · _) (funext fun t => ?_)
  cases r.definition? t <;> rfl

theorem ruleChain_none : r.ruleChain id reason none =
    (r.lineage id).flatMap fun t => (r.ownRules t reason).map (ChainLink.mk t) := by
  simp only [ruleChain_eq, Option.all_none, List.filter_true]

/-- **The chain of a phase** is the whole chain without the other rules. -/
theorem ruleChain_some (kind : RuleKind) : r.ruleChain id reason (some kind) =
    (r.ruleChain id reason none).filter (·.rule.kind == kind) := by
  rw [ruleChain_eq, ruleChain_none, List.filter_flatMap]
  refine congrArg (List.flatMap · _) (funext fun t => ?_)
  rw [List.filter_map]
  rfl

/-- **The lineage of a type** is that of its supertype and the type. -/
theorem Grounded.lineage_eq (h : r.Grounded) (id : TypeId) :
    r.lineage id = ((r.supertype id).map r.lineage).getD [] ++ [id] := by
  rw [lineage, h.ancestors_eq, List.reverse_cons]
  cases r.supertype id <;> rfl

/-- Chains with the same lineage and the same rules along it are the same. -/
theorem ruleChain_congr (hlineage : r'.lineage id = r.lineage id)
    (hrules : ∀ t ∈ r.lineage id, r'.definition? t = r.definition? t) (phase : Option RuleKind) :
    r'.ruleChain id reason phase = r.ruleChain id reason phase := by
  rw [ruleChain_eq, ruleChain_eq, hlineage]
  refine List.flatMap_congr fun t ht => ?_
  rw [ownRules, ownRules, hrules t ht]

/-! ## Redefinitions elsewhere -/

/-- **A redefinition leaves a lineage alone** that the type is not in. -/
theorem Grounded.lineage_redefine (h : r.Grounded) {typeName : String}
    (hok : r.redefine typeName d = .ok (x, r')) (hx : x ∉ r.lineage id) :
    r'.lineage id = r.lineage id := by
  have hafter := h.redefine hok
  obtain ⟨supertype, operators, hlookup, -, -, -, -, rfl⟩ := redefine_cases hok
  have hway : (r.replace x d supertype operators).Upward id (r.ancestors id) := by
    refine (h.upward_ancestors id).congr fun y hy => ?_
    have hne : y ≠ x := by
      rintro rfl
      exact hx (List.mem_reverse.mpr hy)
    rw [supertype_replace d supertype operators (h.lookup_lt hlookup), if_neg hne]
  rw [lineage, hafter.ancestors_eq_of_upward hway, lineage]

/-- **A redefinition leaves a chain alone** if the type is not in its lineage. -/
theorem Grounded.ruleChain_redefine (h : r.Grounded) {typeName : String}
    (hok : r.redefine typeName d = .ok (x, r')) (hx : x ∉ r.lineage id)
    (phase : Option RuleKind) : r'.ruleChain id reason phase = r.ruleChain id reason phase := by
  refine ruleChain_congr (h.lineage_redefine hok hx) (fun t ht => ?_) phase
  obtain ⟨supertype, operators, hlookup, -, -, -, -, rfl⟩ := redefine_cases hok
  have hne : t ≠ x := fun heq => hx (heq ▸ ht)
  rw [definition?_replace d supertype operators (h.lookup_lt hlookup), if_neg hne]

/-! ## What chains are made of -/

/-- **How the chain of a reason is made for a type.** -/
structure Inherited (r : Registry β) (id : TypeId) (reason : Symbol) : Prop where
  /-- the chain of the supertype, and then the rules of the type itself -/
  chain : r.ruleChain id reason none =
    ((r.supertype id).map (r.ruleChain · reason none)).getD [] ++
      (r.ownRules id reason).map (ChainLink.mk id)
  /-- the rules of the type itself are in the order in which they were added -/
  own : ∀ {d}, r.definition? id = some d → r.ownRules id reason =
    (d.ruleTable.get? reason).getD []
  /-- every chain further up is the beginning of this one, so that no rule is lost -/
  general : ∀ {t}, r.isSubtypeOf id t = true →
    r.ruleChain t reason none <+: r.ruleChain id reason none
  phase : ∀ kind, r.ruleChain id reason (some kind) =
    (r.ruleChain id reason none).filter (·.rule.kind == kind)
  /-- no rule of the chain is in neither phase or in both -/
  parted : (r.ruleChain id reason (some .anterior) ++
    r.ruleChain id reason (some .posterior)).Perm (r.ruleChain id reason none)
  /-- what is redefined elsewhere does not concern the chain -/
  elsewhere : ∀ {typeName d x r'}, r.redefine typeName d = .ok (x, r') → x ∉ r.lineage id →
    ∀ phase, r'.ruleChain id reason phase = r.ruleChain id reason phase

theorem Grounded.inherited (h : r.Grounded) (id : TypeId) (reason : Symbol) :
    r.Inherited id reason where
  chain := by
    rw [ruleChain_none, h.lineage_eq, List.flatMap_append, List.flatMap_singleton]
    refine congrArg (· ++ _) ?_
    cases r.supertype id with
    | none => rfl
    | some sup => exact ruleChain_none.symm
  own {d} hd := by
    rw [ownRules, hd, d.get?_ruleTable]
    rfl
  general {t} ht := by
    obtain ⟨below, hbelow⟩ := List.reverse_prefix.mpr (h.ancestors_suffix ht)
    rw [ruleChain_none, ruleChain_none, lineage, lineage, ← hbelow, List.flatMap_append]
    exact List.prefix_append _ _
  phase := ruleChain_some
  parted := by
    rw [ruleChain_some, ruleChain_some]
    simp only [RuleKind.posterior_eq_not_anterior]
    exact List.filter_append_perm _ _
  elsewhere hok hx := h.ruleChain_redefine hok hx

/-- **Rules are inherited**, general ones first, after every sequence of registrations and
redefinitions. -/
theorem rules_inherited (changes : List (TypeChange β)) (id : TypeId) (reason : Symbol) :
    (after changes).Inherited id reason :=
  (grounded_after changes).inherited id reason

end Registry

end ProductModel
