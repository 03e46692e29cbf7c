import ProductModel.Proofs.Arena.AbsoluteName

/-!
# Finding an instance by its absolute name

`Arena.find?` splits a name at its dots and follows the parts down from a root.  It inverts the
absolute name: what it finds for a name has that name (`Forest.named_of_find?`), and where siblings
have different names without dots, it finds every instance under its name (`Forest.find?_of_named`).
-/

namespace ProductModel.Arena

variable {β : Type} {a : Arena β} {x y c : InstanceId} {i : Instance β} {name : String}

/-! ## Dots -/

theorem splitDots_ne_nil (cs : List Char) : splitDots cs ≠ [] := by
  cases cs with
  | nil => exact List.cons_ne_nil _ _
  | cons d ds =>
    unfold splitDots
    split
    · exact List.cons_ne_nil _ _
    · split <;> exact List.cons_ne_nil _ _

/-- A text without dots is its only part. -/
theorem splitDots_of_not_mem {cs : List Char} (h : '.' ∉ cs) : splitDots cs = [cs] := by
  induction cs with
  | nil => rfl
  | cons d ds ih =>
    rw [List.mem_cons, not_or] at h
    rw [splitDots, if_neg (Ne.symm h.1), ih h.2]

/-- What follows the last dot is the last part. -/
theorem splitDots_append {ds : List Char} (h : '.' ∉ ds) (cs : List Char) :
    splitDots (cs ++ '.' :: ds) = splitDots cs ++ [ds] := by
  induction cs with
  | nil =>
    have hempty : splitDots [] = [[]] := rfl
    have hdot : splitDots ('.' :: ds) = [] :: splitDots ds := by rw [splitDots, if_pos rfl]
    rw [List.nil_append, hdot, hempty, splitDots_of_not_mem h]
    rfl
  | cons d cs ih =>
    rw [List.cons_append, splitDots, splitDots, ih]
    by_cases hd : d = '.'
    · rw [if_pos hd, if_pos hd]
      rfl
    · rw [if_neg hd, if_neg hd]
      cases hparts : splitDots cs with
      | nil => exact absurd hparts (splitDots_ne_nil cs)
      | cons part parts => rfl

/-- **The parts of a text**, with dots between them, are the text. -/
theorem join_splitDots {cs part : List Char} {parts : List (List Char)}
    (h : splitDots cs = part :: parts) : part ++ parts.flatMap ('.' :: ·) = cs := by
  induction cs generalizing part parts with
  | nil =>
    cases h
    rfl
  | cons d ds ih =>
    rw [splitDots] at h
    cases hds : splitDots ds with
    | nil => exact absurd hds (splitDots_ne_nil ds)
    | cons p ps =>
      have hjoin := ih hds
      split at h
      · rename_i hd
        cases h
        rw [hds, List.nil_append, List.flatMap_cons, List.cons_append, hjoin, hd]
      · rw [hds] at h
        cases h
        rw [List.cons_append, hjoin]

/-- The characters of a name that is extended part by part. -/
theorem toList_foldl_dots (names : List String) (above : String) :
    (names.foldl (fun above name => above ++ "." ++ name) above).toList =
      above.toList ++ (names.map String.toList).flatMap ('.' :: ·) := by
  induction names generalizing above with
  | nil => simp
  | cons name names ih =>
    rw [List.foldl_cons, ih]
    simp [String.toList_append]

/-! ## One step down -/

theorem findNamed_eq_some {ids : List InstanceId} (h : a.findNamed ids name = some c) :
    c ∈ ids ∧ a.localName? c = some name :=
  ⟨List.mem_of_find?_eq_some h, by simpa using List.find?_some h⟩

/-- Where names differ, the instance of a name is found. -/
theorem findNamed_of_mem {ids : List InstanceId} (hc : c ∈ ids) (hname : a.localName? c = some name)
    (hdistinct : ∀ d ∈ ids, a.localName? d = a.localName? c → d = c) :
    a.findNamed ids name = some c := by
  unfold findNamed
  cases hfind : ids.find? fun id => a.localName? id == some name with
  | none =>
    have hno := List.find?_eq_none.mp hfind c hc
    simp [hname] at hno
  | some d =>
    have hd : d ∈ ids := List.mem_of_find?_eq_some hfind
    have hdname : a.localName? d = some name := by simpa using List.find?_some hfind
    rw [hdistinct d hd (hdname.trans hname.symm)]

theorem descend_append (names : List String) (last : String) (x : InstanceId) :
    a.descend (names ++ [last]) x = (a.descend names x).bind fun y => a.childNamed y last := by
  induction names generalizing x with
  | nil =>
    show (a.childNamed x last).bind (a.descend []) = a.childNamed x last
    cases a.childNamed x last with
    | none => rfl
    | some y => rfl
  | cons name names ih =>
    rw [List.cons_append, descend, descend]
    cases a.childNamed x name with
    | none => rfl
    | some y => exact ih y

/-- The instance of a name without dots is a root. -/
theorem find?_of_not_mem (h : '.' ∉ name.toList) : a.find? name = a.rootNamed name := by
  unfold find?
  rw [splitDots_of_not_mem h]
  simp only [List.map_cons, List.map_nil, String.ofList_toList]
  cases a.rootNamed name <;> rfl

/-- **The instance of an extended name** is a child of that of the name. -/
theorem find?_extend {last : String} (h : '.' ∉ last.toList) (above : String) :
    a.find? (above ++ "." ++ last) = (a.find? above).bind fun f => a.childNamed f last := by
  have hsplit : splitDots (above ++ "." ++ last).toList =
      splitDots above.toList ++ [last.toList] := by
    rw [← splitDots_append h]
    simp [String.toList_append]
  unfold find?
  rw [hsplit]
  cases hparts : splitDots above.toList with
  | nil => exact absurd hparts (splitDots_ne_nil _)
  | cons first rest =>
    simp only [List.cons_append, List.map_cons, List.map_append, List.map_nil,
      String.ofList_toList]
    cases a.rootNamed (String.ofList first) with
    | none => rfl
    | some r => exact descend_append _ _ _

/-! ## All the way -/

/-- The children of a father, or the roots. -/
def siblings (a : Arena β) : Option InstanceId → List InstanceId
  | some f => a.childrenOf f
  | none => a.roots

/-- **Siblings have different names.** -/
def DistinctNames (a : Arena β) : Prop :=
  ∀ father, ∀ c ∈ a.siblings father, ∀ d ∈ a.siblings father,
    a.localName? c = a.localName? d → c = d

theorem localName?_eq (h : a.get? x = some i) : a.localName? x = some i.localName := by
  rw [localName?, h]
  rfl

namespace Forest

/-- **Every instance is found under its absolute name.** -/
theorem find?_of_named (h : a.Forest) (hdistinct : a.DistinctNames)
    (hdots : ∀ {x i}, a.get? x = some i → '.' ∉ i.localName.toList) (hn : a.Named x name) :
    a.find? name = some x := by
  induction hn with
  | root hi hf =>
    rw [find?_of_not_mem (hdots hi)]
    have hroot := h.root.mpr ⟨_, hi, hf⟩
    exact findNamed_of_mem hroot (localName?_eq hi) fun d hd => hdistinct none d hd _ hroot
  | child hi hf _ ih =>
    -- The father is found under the name before the last dot.
    rw [find?_extend (hdots hi), ih]
    have hchild := (h.mem_childrenOf hi).mpr hf
    exact findNamed_of_mem hchild (localName?_eq hi) fun d hd => hdistinct (some _) d hd _ hchild

/-- What is found on the way down from an instance extends its name. -/
theorem named_of_descend (h : a.Forest) {names : List String} {above : String}
    (hn : a.Named x above) (hdown : a.descend names x = some y) :
    a.Named y (names.foldl (fun above name => above ++ "." ++ name) above) := by
  induction names generalizing x above with
  | nil =>
    cases hdown
    exact hn
  | cons name names ih =>
    rw [descend] at hdown
    obtain ⟨c, hc, hrest⟩ := Option.bind_eq_some_iff.mp hdown
    obtain ⟨hmem, hlocal⟩ := findNamed_eq_some hc
    obtain ⟨p, q, hp, hq, hfather, -⟩ := h.child_of_childrenOf hmem
    have hname : q.localName = name := by
      rw [localName?_eq hq] at hlocal
      exact Option.some.inj hlocal
    refine ih ?_ hrest
    rw [← hname]
    exact .child hq hfather hn

/-- **What is found for a name has that absolute name.** -/
theorem named_of_find? (h : a.Forest) (hfind : a.find? name = some x) : a.Named x name := by
  unfold find? at hfind
  cases hparts : splitDots name.toList with
  | nil => exact absurd hparts (splitDots_ne_nil _)
  | cons first rest =>
    rw [hparts, List.map_cons] at hfind
    obtain ⟨r, hr, hdown⟩ := Option.bind_eq_some_iff.mp hfind
    obtain ⟨hmem, hlocal⟩ := findNamed_eq_some hr
    obtain ⟨i, hi, hf⟩ := h.root.mp hmem
    have hroot : a.Named r (String.ofList first) := by
      rw [localName?_eq hi] at hlocal
      rw [← Option.some.inj hlocal]
      exact .root hi hf
    have hnamed := h.named_of_descend hroot hdown
    have htext : (rest.map String.ofList).foldl (fun above name => above ++ "." ++ name)
        (String.ofList first) = name := by
      rw [← String.toList_inj, toList_foldl_dots, ← join_splitDots hparts, List.map_map]
      simp
    rw [htext] at hnamed
    exact hnamed

end Forest

end ProductModel.Arena
