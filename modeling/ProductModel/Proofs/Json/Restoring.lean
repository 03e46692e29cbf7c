import ProductModel.Json.Exchange
import ProductModel.Proofs.Json.Reading

/-!
# Stored forms that give back what was stored

`Restores a` says of a value that its stored form is legible, and that reading the form gives the
value back whenever the reader may go as deep as the form does.  Records, alternatives, lists and
optional values restore if their parts do, so for a type there is little more to say than what its
parts are.

A reader goes `depthLimit` levels deep.  `Restores.ofText?_toText` is what this comes to for texts.
-/

namespace ProductModel

namespace Json

mutual

/-- **The levels of nesting of a tree.** -/
def depth : Json → Nat
  | array items => depthOfItems items + 1
  | object members => depthOfMembers members + 1
  | _ => 0

/-- The levels of nesting of several trees. -/
def depthOfItems : List Json → Nat
  | [] => 0
  | j :: js => max (depth j) (depthOfItems js)

/-- The levels of nesting of the values of members. -/
def depthOfMembers : List (Option String × Json) → Nat
  | [] => 0
  | (_, j) :: members => max (depth j) (depthOfMembers members)

end

/-- A record is legible if its fields are. -/
theorem legible_record {members : List (String × Json)} (h : ∀ m ∈ members, Legible m.2) :
    Legible (record members) := by
  show LegibleMembers _
  induction members with
  | nil => trivial
  | cons m members ih =>
    exact ⟨nofun, h m List.mem_cons_self, ih fun m' hm' => h m' (List.mem_cons_of_mem _ hm')⟩

/-- A record is one level deeper than its deepest field. -/
theorem depth_record_le {members : List (String × Json)} {limit : Nat} :
    (record members).depth ≤ limit + 1 ↔ ∀ m ∈ members, m.2.depth ≤ limit := by
  show depthOfMembers _ + 1 ≤ _ ↔ _
  rw [Nat.add_le_add_iff_right]
  induction members with
  | nil => simp [depthOfMembers]
  | cons m members ih =>
    rw [List.forall_mem_cons, ← ih]
    exact Nat.max_le

/-- A record is at least one level deep. -/
theorem exists_of_depth_record_le {members : List (String × Json)} {limit : Nat}
    (h : (record members).depth ≤ limit) :
    ∃ inner, limit = inner + 1 ∧ ∀ m ∈ members, m.2.depth ≤ inner := by
  cases limit with
  | zero => exact absurd h (by unfold record depth; omega)
  | succ inner => exact ⟨inner, rfl, depth_record_le.mp h⟩

theorem legible_array {items : List Json} : Legible (array items) ↔ ∀ j ∈ items, Legible j := by
  show LegibleItems items ↔ _
  induction items with
  | nil => simp [LegibleItems]
  | cons j js ih => simp [LegibleItems, ih]

theorem exists_of_depth_array_le {items : List Json} {limit : Nat}
    (h : (array items).depth ≤ limit) :
    ∃ inner, limit = inner + 1 ∧ ∀ j ∈ items, j.depth ≤ inner := by
  cases limit with
  | zero => exact absurd h (by unfold depth; omega)
  | succ inner =>
    refine ⟨inner, rfl, ?_⟩
    unfold depth at h
    replace h := Nat.le_of_succ_le_succ h
    induction items with
    | nil => simp
    | cons j js ih =>
      rw [depthOfItems, Nat.max_le] at h
      simpa using ⟨h.1, fun a ha => ih h.2 a ha⟩

end Json

namespace Exchange

open Json

variable {α : Type} [Exchange α] {a : α}

/-- **A value that its stored form gives back.** -/
structure Restores (a : α) : Prop where
  legible : (encode a).Legible
  back : ∀ {limit}, (encode a).depth ≤ limit → decode limit (encode a) = some a

/-- **The stored text of a value gives it back**, if it does not lie too deep. -/
theorem Restores.ofText?_toText (h : Restores a) (hdepth : (encode a).depth ≤ depthLimit) :
    ofText? (toText a) = some a := by
  unfold ofText? toText
  rw [Json.ofText?_toText h.legible]
  exact h.back hdepth

/-! ## Texts and numbers -/

theorem restores_bool (b : Bool) : Restores b := ⟨trivial, fun _ => rfl⟩

theorem restores_string (s : String) : Restores s := ⟨nofun, fun _ => rfl⟩

theorem restores_symbol (s : Symbol) : Restores s := ⟨nofun, fun _ => rfl⟩

/-- The integer of a numeral between its bounds. -/
theorem decodeInt_int {n least greatest : Int} (hleast : least ≤ n) (hgreatest : n ≤ greatest) :
    decodeInt least greatest (.int n) = some n := by
  unfold decodeInt Json.int
  simp only [Decimal.Numeral.toInt?_ofInt]
  rw [if_pos ⟨hleast, hgreatest⟩]

theorem restores_int64 (n : Int64) : Restores n where
  legible := Decimal.Numeral.legible_ofInt _
  back _ := by
    show (decodeInt _ _ (.int n.toInt)).map Int64.ofInt = some n
    rw [decodeInt_int n.minValue_le_toInt n.toInt_le]
    exact congrArg some n.ofInt_toInt

theorem restores_int32 (n : Int32) : Restores n where
  legible := Decimal.Numeral.legible_ofInt _
  back _ := by
    show (decodeInt _ _ (.int n.toInt)).map Int32.ofInt = some n
    rw [decodeInt_int n.minValue_le_toInt n.toInt_le]
    exact congrArg some n.ofInt_toInt

theorem restores_uint64 (n : UInt64) : Restores n where
  legible := Decimal.Numeral.legible_ofInt _
  back _ := by
    have hlt := n.toNat_lt
    show (decodeInt _ _ (.int n.toNat)).map (fun i => UInt64.ofNat i.toNat) = some n
    rw [decodeInt_int (by omega) (by unfold UInt64.size; omega)]
    exact congrArg some UInt64.ofNat_toNat

theorem restores_uint32 (n : UInt32) : Restores n where
  legible := Decimal.Numeral.legible_ofInt _
  back _ := by
    have hlt := n.toNat_lt
    show (decodeInt _ _ (.int n.toNat)).map (fun i => UInt32.ofNat i.toNat) = some n
    rw [decodeInt_int (by omega) (by unfold UInt32.size; omega)]
    exact congrArg some UInt32.ofNat_toNat

/-- **A float that its stored text gives back.** -/
def Readable (x : Float) : Prop := ofText? (toText x) = some x

theorem legible_float (x : Float) : (encode x).Legible := by
  show (encodeFloat x).Legible
  unfold encodeFloat
  split
  · trivial
  · exact Decimal.Notation.legible_ofFinite _ x

theorem restores_float {x : Float} (h : Readable x) : Restores x where
  legible := legible_float x
  back _ := by
    unfold Readable ofText? toText at h
    rw [Json.ofText?_toText (legible_float x)] at h
    exact h

/-- Only finite floats can be read back. -/
theorem Readable.finite {x : Float} (h : Readable x) :
    x.isNaN = false ∧ Binary.isFinite x = true := by
  have hnumber : ¬(x.isNaN || !Binary.isFinite x) = true := by
    intro hnull
    have hback := (restores_float h).back (Nat.le_refl _)
    rw [show (encode x : Json) = .null from if_pos hnull] at hback
    exact nomatch hback
  simpa using hnumber

/-! ## Parts -/

theorem decode_option {j : Json} (hj : j ≠ .null) (limit : Nat) :
    (decode limit j : Option (Option α)) = (decode limit j).map some := by
  cases j with
  | null => exact absurd rfl hj
  | _ => rfl

/-- An optional value, if null stands for nothing else. -/
theorem restores_option {a? : Option α} (h : ∀ {a}, a? = some a → Restores a ∧ encode a ≠ .null) :
    Restores a? := by
  cases a? with
  | none => exact ⟨trivial, fun _ => rfl⟩
  | some a =>
    obtain ⟨hrestores, hnull⟩ := h rfl
    refine ⟨hrestores.legible, fun hdepth => ?_⟩
    show decode _ (encode a) = _
    rw [decode_option hnull, hrestores.back hdepth]
    rfl

/-- What gives every item back gives all of them back. -/
theorem mapM_map {γ δ : Type} {items : List γ} {f : δ → Option γ} {g : γ → δ}
    (h : ∀ a ∈ items, f (g a) = some a) : (items.map g).mapM f = some items := by
  induction items with
  | nil => rfl
  | cons a items ih =>
    rw [List.map_cons, List.mapM_cons, h a List.mem_cons_self,
      ih fun b hb => h b (List.mem_cons_of_mem _ hb)]
    rfl

theorem restores_list {items : List α} (h : ∀ a ∈ items, Restores a) : Restores items where
  legible := by
    show Legible (.array (items.map encode))
    rw [legible_array]
    intro j hj
    obtain ⟨a, ha, rfl⟩ := List.mem_map.mp hj
    exact (h a ha).legible
  back hdepth := by
    obtain ⟨inner, rfl, hitems⟩ := exists_of_depth_array_le hdepth
    exact mapM_map fun a ha => (h a ha).back (hitems _ (List.mem_map.mpr ⟨a, ha, rfl⟩))

/-! ### Records -/

theorem collectFields_record {names : List String} {members : List (String × Json)}
    (hnames : ∀ m ∈ members, m.1 ∈ names) (hnodup : (members.map (·.1)).Nodup) :
    collectFields names (members.map fun (name, value) => (some name, value)) = some members := by
  induction members with
  | nil => rfl
  | cons m members ih =>
    obtain ⟨name, value⟩ := m
    rw [List.map_cons, List.nodup_cons] at hnodup
    have hrest := ih (fun m' hm' => hnames m' (List.mem_cons_of_mem _ hm')) hnodup.2
    have hknown : name ∈ names := hnames _ List.mem_cons_self
    have honce : members.any (·.1 == name) = false := by
      rw [List.any_eq_false]
      intro m' hm' heq
      exact hnodup.1 (List.mem_map.mpr ⟨m', hm', beq_iff_eq.mp heq⟩)
    rw [List.map_cons, collectFields, hrest]
    simp [hknown, honce]

variable {γ : Type}

/-- **The fields of a record are found**, each by its name, one level deeper. -/
theorem readFields_record {names : List String} {members : List (String × Json)} {inner : Nat}
    {f : Fields → Option γ} (hnames : ∀ m ∈ members, m.1 ∈ names)
    (hnodup : (members.map (·.1)).Nodup) :
    (readFields names (inner + 1) (.record members)).bind f = f ⟨inner, false, members⟩ := by
  have hcollected : readFields names (inner + 1) (.record members) =
      some ⟨inner, false, members⟩ := by
    show (collectFields names _).map _ = _
    rw [collectFields_record hnames hnodup]
    rfl
  rw [hcollected, Option.bind_some]

variable {fs : Fields} {name : String}

/-- A field that has to be there. -/
theorem required_bind {f : α → Option γ} (hfound : fs.find? name = some (encode a))
    (ha : Restores a) (hdepth : (encode a).depth ≤ fs.depth) : (fs.required name).bind f = f a := by
  unfold Fields.required
  rw [hfound, Option.bind_some, ha.back hdepth, Option.bind_some]

/-- A field that may be left out and is there. -/
theorem optional_bind {a : Option α} {f : Option α → Option γ}
    (hfound : fs.find? name = some (encode a)) (ha : Restores a)
    (hdepth : (encode a).depth ≤ fs.depth) : (fs.optional name).bind f = f a := by
  unfold Fields.optional
  rw [hfound]
  show (decode fs.depth (encode a)).bind f = f a
  rw [ha.back hdepth, Option.bind_some]

/-- A field with a default that is there. -/
theorem withDefault_bind {default : α} {f : α → Option γ}
    (hfound : fs.find? name = some (encode a)) (ha : Restores a)
    (hdepth : (encode a).depth ≤ fs.depth) : (fs.withDefault name default).bind f = f a := by
  unfold Fields.withDefault
  rw [hfound]
  show (decode fs.depth (encode a)).bind f = f a
  rw [ha.back hdepth, Option.bind_some]

/-! ### Alternatives -/

theorem legible_variant {name : String} {j : Json} (h : j.Legible) : (variant name j).Legible :=
  legible_record (by simpa using h)

theorem exists_of_depth_variant_le {name : String} {j : Json} {limit : Nat}
    (h : (variant name j).depth ≤ limit) : ∃ inner, limit = inner + 1 ∧ j.depth ≤ inner := by
  obtain ⟨inner, rfl, hmembers⟩ := exists_of_depth_record_le h
  exact ⟨inner, rfl, hmembers _ List.mem_cons_self⟩

/-- **An alternative restores if its content does.** -/
theorem restores_variant {c : γ} [Exchange γ] {name : String} {make : α → γ} (ha : Restores a)
    (hencode : encode c = variant name (encode a)) (hmake : make a = c)
    (hdecode : ∀ inner j, (decode (inner + 1) (variant name j) : Option γ) =
      (decode inner j).map make) : Restores c where
  legible := by
    rw [hencode]
    exact legible_variant ha.legible
  back hdepth := by
    rw [hencode] at hdepth ⊢
    obtain ⟨inner, rfl, hcontent⟩ := exists_of_depth_variant_le hdepth
    rw [hdecode, ha.back hcontent, Option.map_some, hmake]

end Exchange

end ProductModel
