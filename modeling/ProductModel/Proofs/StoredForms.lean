import ProductModel.Config
import ProductModel.Instance
import ProductModel.Property.Exchange
import ProductModel.Snapshot
import ProductModel.Proofs.Json.Restoring
import ProductModel.Proofs.SameAsItself

/-!
# Stored forms

Every type with a stored form restores: each section takes one type, or a few that are alike, and
puts together what `Exchange.Restores` says of the parts.  Values and views are trees, so for these
the statement about one tree and the one about a list of trees are proved together.

Floats are the one thing that a text may fail to give back.  Not a number and the infinities have
no text, and of the others the reader scales the digits without looking at the last bit, so each
statement asks for the floats of what is stored to be `Exchange.Readable`.  A view is read into a
table sorted by key; `Snapshot.Ordered` says that it lists its properties so.

`Exchange.texts_restore` says it for texts, which can be read only down to `Exchange.depthLimit`
levels of nesting.  `Exchange.text_of_nested` shows that the bound is sharp for lists.
-/

namespace ProductModel

namespace Exchange

open Json

/-! ## Handles, vectors, boxes and flags -/

theorem restores_id (id : InstanceId) : Restores id := by
  refine ⟨legible_record (by simp [(restores_uint32 _).legible]), fun hdepth => ?_⟩
  obtain ⟨inner, rfl, hfields⟩ := exists_of_depth_record_le hdepth
  refine (readFields_record (by simp) (by simp)).trans ?_
  refine (required_bind rfl (restores_uint32 id.slot) (hfields ("index", _) (by simp))).trans ?_
  exact required_bind rfl (restores_uint32 id.generation) (hfields ("generation", _) (by simp))

theorem restores_state (s : InstanceState) : Restores s where
  legible := nofun
  back _ := by cases s <;> rfl

theorem restores_cutMode (m : CutMode) : Restores m where
  legible := nofun
  back _ := by cases m <;> rfl

theorem restores_vec3 {v : Vec3} (h : ∀ x ∈ v.toList, Readable x) : Restores v := by
  refine ⟨legible_array.mpr (by simp [legible_float]), fun hdepth => ?_⟩
  obtain ⟨inner, rfl, hitems⟩ := exists_of_depth_array_le hdepth
  have hfloat : ∀ x ∈ v.toList, (decode inner (encode x) : Option Float) = some x := by
    intro x hx
    refine (restores_float (h x hx)).back (hitems _ ?_)
    exact List.mem_map_of_mem (f := encode) hx
  simp only [Vec3.toList, List.forall_mem_cons] at hfloat
  obtain ⟨hx, hy, hz, -⟩ := hfloat
  show (decode inner (encode v.x) : Option Float).bind _ = _
  rw [hx]
  show (decode inner (encode v.y) : Option Float).bind _ = _
  rw [hy]
  show (decode inner (encode v.z) : Option Float).bind _ = _
  rw [hz]
  rfl

theorem restores_bounds {b : Bounds}
    (h : ∀ x ∈ b.min.toList ++ b.max.toList, Readable x) : Restores b := by
  have hmin := restores_vec3 (v := b.min) fun x hx => h x (List.mem_append_left _ hx)
  have hmax := restores_vec3 (v := b.max) fun x hx => h x (List.mem_append_right _ hx)
  refine ⟨legible_record (by simp [hmin.legible, hmax.legible]), fun hdepth => ?_⟩
  obtain ⟨inner, rfl, hfields⟩ := exists_of_depth_record_le hdepth
  refine (readFields_record (by simp) (by simp)).trans ?_
  refine (required_bind rfl hmin (hfields ("min", _) (by simp))).trans ?_
  exact required_bind rfl hmax (hfields ("max", _) (by simp))

theorem restores_flags {f : InstanceFlags} (h : Readable f.resolution) : Restores f := by
  have hselectable := restores_bool f.selectable
  have hhier := restores_bool f.hierSelectable
  have hcut := restores_cutMode f.cutMode
  have hcollision := restores_bool f.collisionDetection
  have hresolution := restores_float h
  refine ⟨legible_record ?_, fun hdepth => ?_⟩
  · simp [hselectable.legible, hhier.legible, hcut.legible, hcollision.legible, hresolution.legible]
  obtain ⟨inner, rfl, hfields⟩ := exists_of_depth_record_le hdepth
  refine (readFields_record (by simp) (by simp)).trans ?_
  refine (required_bind rfl hselectable (hfields ("selectable", _) (by simp))).trans ?_
  refine (required_bind rfl hhier (hfields ("hier_selectable", _) (by simp))).trans ?_
  refine (required_bind rfl hcut (hfields ("cut_mode", _) (by simp))).trans ?_
  refine (required_bind rfl hcollision (hfields ("collision_detection", _) (by simp))).trans ?_
  exact required_bind rfl hresolution (hfields ("resolution", _) (by simp))

theorem restores_config (c : Config) : Restores c := by
  have htrace := restores_bool c.traceRules
  have hvalidate := restores_bool c.validateProperties
  have hcache := restores_bool c.dispatchCache
  have hfilter := restores_string c.logFilter
  refine ⟨legible_record ?_, fun hdepth => ?_⟩
  · simp [htrace.legible, hvalidate.legible, hcache.legible, hfilter.legible]
  obtain ⟨inner, rfl, hfields⟩ := exists_of_depth_record_le hdepth
  refine (readFields_record (by simp) (by simp)).trans ?_
  refine (withDefault_bind rfl htrace (hfields ("trace_rules", _) (by simp))).trans ?_
  refine (withDefault_bind rfl hvalidate (hfields ("validate_properties", _) (by simp))).trans ?_
  refine (withDefault_bind rfl hcache (hfields ("dispatch_cache", _) (by simp))).trans ?_
  exact withDefault_bind rfl hfilter (hfields ("log_filter", _) (by simp))

end Exchange

open Exchange Json

/-! ## Values -/

namespace Value

/-- A value that is no list is read by the name of its kind. -/
theorem decode_variant {name : String} (hname : name ≠ "List") (inner : Nat) (j : Json) :
    Value.decode (inner + 1) (variant name j) = decodeVariant name (some (inner, j)) := by
  show Value.decode (inner + 1) (.object [(some name, j)]) = _
  rw [Value.decode]
  · rfl
  · intro _ _ _ h
    cases h
    exact hname rfl

theorem decode_name (name : String) (limit : Nat) :
    Value.decode limit (.str name) = decodeVariant name none := by
  unfold Json.str
  rw [Value.decode]
  · rfl
  · intro _ _ _ h
    cases h

mutual

/-- **Values restore**, if their floats can be read. -/
theorem restores (v : Value) (h : ∀ x ∈ v.floats, Readable x) : Restores v := by
  cases v with
  | void => exact ⟨nofun, fun _ => decode_name "Void" _⟩
  | null => exact ⟨nofun, fun _ => decode_name "Null" _⟩
  | bool b => exact restores_variant (restores_bool b) rfl rfl (decode_variant (by decide))
  | int n => exact restores_variant (restores_int64 n) rfl rfl (decode_variant (by decide))
  | float x =>
    have hx := restores_float (h x List.mem_cons_self)
    exact restores_variant hx rfl rfl (decode_variant (by decide))
  | str s => exact restores_variant (restores_string s) rfl rfl (decode_variant (by decide))
  | symbol s => exact restores_variant (restores_symbol s) rfl rfl (decode_variant (by decide))
  | ref id => exact restores_variant (restores_id id) rfl rfl (decode_variant (by decide))
  | list items =>
    obtain ⟨hlegible, hback⟩ := restoresItems items h
    refine ⟨legible_variant (j := .array (Value.encodeItems items)) hlegible, ?_⟩
    intro limit hdepth
    -- The form of a list is two levels deeper than its items.
    have hvariant : (variant "List" (.array (Value.encodeItems items))).depth ≤ limit := hdepth
    obtain ⟨outer, rfl, hcontent⟩ := exists_of_depth_variant_le hvariant
    obtain ⟨inner, rfl, hitems⟩ := exists_of_depth_array_le hcontent
    show Value.decode (inner + 2) (.object [(some "List", .array (Value.encodeItems items))]) = _
    rw [Value.decode, hback hitems]
    rfl

theorem restoresItems (items : List Value) (h : ∀ x ∈ floatsOfItems items, Readable x) :
    LegibleItems (Value.encodeItems items) ∧
      ∀ {inner}, (∀ j ∈ Value.encodeItems items, j.depth ≤ inner) →
        Value.decodeItems inner (Value.encodeItems items) = some items := by
  cases items with
  | nil => exact ⟨trivial, fun _ => rfl⟩
  | cons v vs =>
    have hfirst := restores v fun x hx => h x (List.mem_append_left _ hx)
    obtain ⟨hlegible, hback⟩ := restoresItems vs fun x hx => h x (List.mem_append_right _ hx)
    refine ⟨⟨hfirst.legible, hlegible⟩, fun {inner} hinner => ?_⟩
    have hv : Value.decode inner (Value.encode v) = some v :=
      hfirst.back (hinner _ List.mem_cons_self)
    rw [Value.encodeItems, Value.decodeItems, hv,
      hback fun j hj => hinner j (List.mem_cons_of_mem _ hj)]
    rfl

end

end Value

/-! ## Property definitions -/

/-- The floats of one of several values are floats of them all. -/
theorem Value.mem_floatsOfItems {v : Value} {items : List Value} (hv : v ∈ items) {x : Float}
    (hx : x ∈ v.floats) : x ∈ floatsOfItems items := by
  induction items with
  | nil => cases hv
  | cons w ws ih =>
    rcases List.mem_cons.mp hv with rfl | hv
    · exact List.mem_append_left _ hx
    · exact List.mem_append_right _ (ih hv)

theorem PropertyKind.restores {k : PropertyKind} (h : ∀ x ∈ k.floats, Readable x) :
    Restores k := by
  cases k with
  | bool => exact ⟨nofun, fun _ => rfl⟩
  | int => exact ⟨nofun, fun _ => rfl⟩
  | float => exact ⟨nofun, fun _ => rfl⟩
  | string => exact ⟨nofun, fun _ => rfl⟩
  | choice values =>
    have hvalues : Restores values := restores_list fun v hv =>
      v.restores fun x hx => h x (Value.mem_floatsOfItems hv hx)
    exact restores_variant hvalues rfl rfl fun _ _ => rfl
  | choiceFn method => exact restores_variant (restores_symbol method) rfl rfl fun _ _ => rfl
  | editor name => exact restores_variant (restores_string name) rfl rfl fun _ _ => rfl

/-- A range is read from its record. -/
theorem PropertyBounds.decode_range (inner : Nat) (j : Json) :
    (decode (inner + 1) (variant "Range" j) : Option PropertyBounds) =
      (readFields ["min", "max"] inner j).bind fun fs =>
        (fs.required "min").bind fun min => (fs.required "max").bind fun max =>
          some (.range min max) := rfl

theorem PropertyBounds.restores {b : PropertyBounds} (h : ∀ x ∈ b.floats, Readable x) :
    Restores b := by
  cases b with
  | range min max =>
    have hmin := restores_float (h min (by simp [floats]))
    have hmax := restores_float (h max (by simp [floats]))
    refine ⟨legible_variant (legible_record (by simp [hmin.legible, hmax.legible])), ?_⟩
    intro limit hdepth
    have hvariant : (variant "Range" (.record [("min", encode min), ("max", encode max)])).depth ≤
        limit := hdepth
    obtain ⟨outer, rfl, hcontent⟩ := exists_of_depth_variant_le hvariant
    obtain ⟨inner, rfl, hfields⟩ := exists_of_depth_record_le hcontent
    refine (decode_range _ _).trans ((readFields_record (by simp) (by simp)).trans ?_)
    refine (required_bind rfl hmin (hfields ("min", _) (by simp))).trans ?_
    exact required_bind rfl hmax (hfields ("max", _) (by simp))
  | length limit => exact restores_variant (restores_uint64 limit) rfl rfl fun _ _ => rfl

theorem PropertyPosition.restores (p : PropertyPosition) : Restores p := by
  cases p with
  | explicit slot => exact restores_variant (restores_int32 slot) rfl rfl fun _ _ => rfl
  | implicit => exact ⟨nofun, fun _ => rfl⟩

theorem PropertyState.restores (s : PropertyState) : Restores s where
  legible := by cases s <;> exact nofun
  back _ := by cases s <;> rfl

/-- **Property definitions restore**, if their floats can be read. -/
theorem PropertyDef.restores {d : PropertyDef} (h : ∀ x ∈ d.floats, Readable x) :
    Restores d := by
  have hkind := PropertyKind.restores (k := d.kind) fun x hx => h x (List.mem_append_right _ hx)
  have hbounds : Restores d.bounds := restores_option fun {b} hb => by
    refine ⟨PropertyBounds.restores fun x hx => h x (List.mem_append_left _ ?_), ?_⟩
    · rw [hb]
      exact hx
    · cases b <;> exact nofun
  have hformat : Restores d.format := restores_option fun {s} _ => ⟨restores_string s, nofun⟩
  have hkey := restores_symbol d.key
  have hname := restores_string d.name
  have hposition := d.position.restores
  have hstate := d.state.restores
  refine ⟨legible_record ?_, fun hdepth => ?_⟩
  · simp [hkind.legible, hbounds.legible, hformat.legible, hkey.legible, hname.legible,
      hposition.legible, hstate.legible]
  obtain ⟨inner, rfl, hfields⟩ := exists_of_depth_record_le hdepth
  refine (readFields_record (by simp) (by simp)).trans ?_
  refine (required_bind rfl hkey (hfields ("key", _) (by simp))).trans ?_
  refine (required_bind rfl hname (hfields ("name", _) (by simp))).trans ?_
  refine (optional_bind rfl hbounds (hfields ("bounds", _) (by simp))).trans ?_
  refine (optional_bind rfl hformat (hfields ("format", _) (by simp))).trans ?_
  refine (required_bind rfl hkind (hfields ("kind", _) (by simp))).trans ?_
  refine (required_bind rfl hposition (hfields ("position", _) (by simp))).trans ?_
  exact required_bind rfl hstate (hfields ("state", _) (by simp))

/-! ## Snapshots -/

namespace Snapshot

mutual

/-- The floats in a view. -/
def floats : Snapshot → List Float
  | node _ _ _ properties children => properties.flatMap (·.2.floats) ++ floatsOfAll children

/-- The floats in several views. -/
def floatsOfAll : List Snapshot → List Float
  | [] => []
  | s :: rest => floats s ++ floatsOfAll rest

end

mutual

/-- **A view that lists properties by key**, each key once. -/
def Ordered : Snapshot → Prop
  | node _ _ _ properties children =>
    properties.Pairwise (·.1 < ·.1) ∧ OrderedAll children

/-- Several views that list properties by key. -/
def OrderedAll : List Snapshot → Prop
  | [] => True
  | s :: rest => Ordered s ∧ OrderedAll rest

end

/-- A key that comes last is put last. -/
theorem setProperty_last {key : String} {sorted : List (String × Value)} (v : Value)
    (h : ∀ p ∈ sorted, p.1 < key) : setProperty key v sorted = sorted ++ [(key, v)] := by
  induction sorted with
  | nil => rfl
  | cons p rest ih =>
    have hlt := h p List.mem_cons_self
    have hne : key ≠ p.1 := by
      intro heq
      exact String.lt_irrefl _ (heq ▸ hlt)
    rw [setProperty, if_neg hne, if_neg (String.lt_asymm hlt),
      ih fun q hq => h q (List.mem_cons_of_mem _ hq)]
    rfl

/-- **Properties that are listed by key stay so.** -/
theorem sortProperties_eq {properties : List (String × Value)}
    (h : properties.Pairwise (·.1 < ·.1)) : sortProperties properties = properties := by
  have hfold : ∀ sorted : List (String × Value),
      (sorted ++ properties).Pairwise (·.1 < ·.1) →
      properties.foldl (fun sorted p => setProperty p.1 p.2 sorted) sorted =
        sorted ++ properties := by
    clear h
    induction properties with
    | nil => simp
    | cons p rest ih =>
      intro sorted h
      have hlast : ∀ q ∈ sorted, q.1 < p.1 :=
        fun q hq => (List.pairwise_append.mp h).2.2 q hq p List.mem_cons_self
      rw [List.foldl_cons]
      show List.foldl _ (setProperty p.1 p.2 sorted) rest = _
      rw [setProperty_last p.2 hlast, ih]
      · simp
      · simpa using h
  exact hfold [] h

/-- The stored properties are read by key. -/
theorem decodeProperties_encode {properties : List (String × Value)} {limit : Nat}
    (hordered : properties.Pairwise (·.1 < ·.1))
    (hfloats : ∀ x ∈ properties.flatMap (·.2.floats), Readable x)
    (hdepth : (Json.record (encodeProperties properties)).depth ≤ limit) :
    decodeProperties limit (.record (encodeProperties properties)) = some properties := by
  obtain ⟨inner, rfl, hmembers⟩ := exists_of_depth_record_le hdepth
  have hread : List.mapM
      (fun p => do return (← p.1, ← (Exchange.decode inner p.2 : Option Value)))
      (properties.map fun p => (some p.1, Exchange.encode p.2)) = some properties := by
    refine mapM_map fun p hp => ?_
    have hv : (Exchange.decode inner (Exchange.encode p.2) : Option Value) = some p.2 := by
      refine (p.2.restores fun x hx => hfloats x (List.mem_flatMap.mpr ⟨p, hp, hx⟩)).back ?_
      exact hmembers _ (List.mem_map.mpr ⟨p, hp, rfl⟩)
    show (Exchange.decode inner (Exchange.encode p.2) : Option Value).bind _ = _
    rw [hv]
    rfl
  unfold decodeProperties Json.record encodeProperties
  rw [List.map_map]
  refine (congrArg (Option.bind · _) hread).trans ?_
  exact congrArg some (sortProperties_eq hordered)

theorem legible_properties {properties : List (String × Value)}
    (hfloats : ∀ x ∈ properties.flatMap (·.2.floats), Readable x) :
    (Json.record (encodeProperties properties)).Legible := by
  refine legible_record fun m hm => ?_
  obtain ⟨p, hp, rfl⟩ := List.mem_map.mp hm
  exact (p.2.restores fun x hx => hfloats x (List.mem_flatMap.mpr ⟨p, hp, hx⟩)).legible

/-- The members of a stored view. -/
def members (name typeName : String) (element : Bool) (properties : List (String × Value))
    (children : List Snapshot) : List (String × Json) :=
  [("name", .str name), ("type", .str typeName), ("element", .bool element)]
    ++ (if properties.isEmpty then [] else [("properties", .record (encodeProperties properties))])
    ++ (match children with
        | [] => []
        | children => [("children", .array (encodeAll children))])

section Members

variable (name typeName : String) (element : Bool) (properties : List (String × Value))
  (children : List Snapshot)

theorem encode_node : encode (node name typeName element properties children) =
    .record (members name typeName element properties children) := by
  cases children <;> simp [encode, members]

theorem members_known :
    (∀ m ∈ members name typeName element properties children, m.1 ∈ fieldNames) ∧
      ((members name typeName element properties children).map (·.1)).Nodup := by
  cases properties <;> cases children <;> simp [members, fieldNames]

theorem forall_members {P : Json → Prop} (htext : ∀ s, P (.str s)) (hbool : P (.bool element))
    (hproperties : P (.record (encodeProperties properties)))
    (hchildren : P (.array (encodeAll children))) :
    ∀ m ∈ members name typeName element properties children, P m.2 := by
  cases properties <;> cases children <;> simp_all [members]

theorem find?_properties (inner : Nat) :
    Fields.find? ⟨inner, false, members name typeName element properties children⟩ "properties" =
      if properties.isEmpty then none else some (.record (encodeProperties properties)) := by
  cases properties <;> cases children <;> simp [members, Fields.find?]

theorem find?_children (inner : Nat) :
    Fields.find? ⟨inner, false, members name typeName element properties children⟩ "children" =
      if children.isEmpty then none else some (.array (encodeAll children)) := by
  cases properties <;> cases children <;> simp [members, Fields.find?]

variable {properties children}

theorem mem_members_properties (h : properties ≠ []) :
    ("properties", .record (encodeProperties properties)) ∈
      members name typeName element properties children := by
  cases properties with
  | nil => exact absurd rfl h
  | cons => exact List.mem_append_left _ (List.mem_append_right _ List.mem_cons_self)

theorem mem_members_children (h : children ≠ []) :
    ("children", .array (encodeAll children)) ∈
      members name typeName element properties children := by
  cases children with
  | nil => exact absurd rfl h
  | cons => exact List.mem_append_right _ List.mem_cons_self

/-- **A view is read from its members**, if its properties and its children are, where there are
any. -/
theorem decodeTo_node {limit inner : Nat}
    (hproperties : properties ≠ [] →
      decodeProperties inner (.record (encodeProperties properties)) = some properties)
    (hchildren : children ≠ [] → ∃ deeper, inner = deeper + 1 ∧
      (encodeAll children).mapM (decodeTo limit deeper) = some children) :
    decodeTo (limit + 1) (inner + 1) (.record (members name typeName element properties children)) =
      some (node name typeName element properties children) := by
  obtain ⟨hknown, hnodup⟩ := members_known name typeName element properties children
  rw [decodeTo]
  refine (readFields_record hknown hnodup).trans ?_
  have hname : Fields.required ⟨inner, false, members name typeName element properties children⟩
      "name" = some name := rfl
  have htype : Fields.required ⟨inner, false, members name typeName element properties children⟩
      "type" = some typeName := rfl
  have helement : Fields.required ⟨inner, false, members name typeName element properties children⟩
      "element" = some element := rfl
  simp only [find?_properties, find?_children, hname, htype, helement]
  by_cases hp : properties = [] <;> by_cases hc : children = []
  · simp [hp, hc]
  · obtain ⟨deeper, rfl, hread⟩ := hchildren hc
    simp [hp, hc, enterArray, hread]
  · simp [hp, hc, hproperties hp]
  · obtain ⟨deeper, rfl, hread⟩ := hchildren hc
    simp [hp, hc, enterArray, hread, hproperties hp]

end Members

mutual

/-- **Views restore**, if their floats can be read and they list properties by key. -/
theorem restoresTo (s : Snapshot) (hfloats : ∀ x ∈ s.floats, Readable x) (hordered : s.Ordered) :
    (encode s).Legible ∧ ∀ {limit depth}, (encode s).depth ≤ depth → depth < limit →
      decodeTo limit depth (encode s) = some s := by
  cases s with
  | node name typeName element properties children =>
    rw [floats] at hfloats
    obtain ⟨hlegible, hback⟩ := restoresAll children
      (fun x hx => hfloats x (List.mem_append_right _ hx)) hordered.2
    have hproperties := fun x hx => hfloats x (List.mem_append_left _ hx)
    rw [encode_node]
    refine ⟨legible_record ?_, fun {limit depth} hdepth hlimit => ?_⟩
    · exact forall_members _ _ _ _ _ (fun _ => nofun) trivial
        (legible_properties hproperties) hlegible
    obtain ⟨limit, rfl⟩ : ∃ n, limit = n + 1 := ⟨limit - 1, by omega⟩
    obtain ⟨inner, rfl, hmembers⟩ := exists_of_depth_record_le hdepth
    refine decodeTo_node _ _ _ (fun hne => ?_) (fun hne => ?_)
    · exact decodeProperties_encode hordered.1 hproperties
        (hmembers _ (mem_members_properties _ _ _ hne))
    · obtain ⟨deeper, rfl, hitems⟩ :=
        exists_of_depth_array_le (hmembers _ (mem_members_children _ _ _ hne))
      exact ⟨deeper, rfl, hback hitems (by omega)⟩

theorem restoresAll (children : List Snapshot) (hfloats : ∀ x ∈ floatsOfAll children, Readable x)
    (hordered : OrderedAll children) :
    LegibleItems (encodeAll children) ∧ ∀ {limit depth},
      (∀ j ∈ encodeAll children, j.depth ≤ depth) → depth < limit →
        (encodeAll children).mapM (decodeTo limit depth) = some children := by
  cases children with
  | nil => exact ⟨trivial, fun _ _ => rfl⟩
  | cons s rest =>
    obtain ⟨hfirst, hback⟩ := restoresTo s (fun x hx => hfloats x (List.mem_append_left _ hx))
      hordered.1
    obtain ⟨hlegible, hbackAll⟩ := restoresAll rest
      (fun x hx => hfloats x (List.mem_append_right _ hx)) hordered.2
    refine ⟨⟨hfirst, hlegible⟩, fun {limit depth} hdepth hlimit => ?_⟩
    rw [encodeAll, List.mapM_cons, hback (hdepth _ List.mem_cons_self) hlimit,
      hbackAll (fun j hj => hdepth j (List.mem_cons_of_mem _ hj)) hlimit]
    rfl

end

theorem restores {s : Snapshot} (hfloats : ∀ x ∈ s.floats, Readable x) (hordered : s.Ordered) :
    Restores s := by
  obtain ⟨hlegible, hback⟩ := s.restoresTo hfloats hordered
  exact ⟨hlegible, fun hdepth => hback hdepth (Nat.lt_succ_self _)⟩

end Snapshot

/-! ## Texts -/

/-- A float has no parts. -/
theorem Exchange.depth_float (x : Float) : (encode x).depth = 0 := by
  show (encodeFloat x).depth = 0
  unfold encodeFloat
  split <;> rfl

theorem Bounds.depth_encode (b : Bounds) : (encode b).depth = 2 := by
  show (Json.record [("min", .array [_, _, _]), ("max", .array [_, _, _])]).depth = 2
  simp [Json.record, depth, depthOfMembers, depthOfItems, depth_float]

theorem InstanceFlags.depth_encode (f : InstanceFlags) : (encode f).depth = 1 := by
  show (Json.record [(_, .bool _), (_, .bool _), (_, .str _), (_, .bool _),
    (_, encode _)]).depth = 1
  simp [Json.record, Json.str, depth, depthOfMembers, depth_float]

/-- **Stored texts give back what was stored.**  Floats have to be readable, which only finite ones
are, and the text must not nest deeper than a reader goes. -/
structure Exchange.TextsRestore : Prop where
  value : ∀ v : Value, (∀ x ∈ v.floats, Readable x) → (encode v).depth ≤ depthLimit →
    ofText? (toText v) = some v
  kind : ∀ k : PropertyKind, (∀ x ∈ k.floats, Readable x) → (encode k).depth ≤ depthLimit →
    ofText? (toText k) = some k
  definition : ∀ d : PropertyDef, (∀ x ∈ d.floats, Readable x) → (encode d).depth ≤ depthLimit →
    ofText? (toText d) = some d
  flags : ∀ f : InstanceFlags, Readable f.resolution → ofText? (toText f) = some f
  state : ∀ s : InstanceState, ofText? (toText s) = some s
  id : ∀ id : InstanceId, ofText? (toText id) = some id
  bounds : ∀ b : Bounds, (∀ x ∈ b.min.toList ++ b.max.toList, Readable x) →
    ofText? (toText b) = some b
  config : ∀ c : Config, ofText? (toText c) = some c
  /-- a view lists its properties by key -/
  snapshot : ∀ s : Snapshot, (∀ x ∈ s.floats, Readable x) → s.Ordered →
    (encode s).depth ≤ depthLimit → ofText? (toText s) = some s

theorem Exchange.texts_restore : TextsRestore where
  value v h := (v.restores h).ofText?_toText
  kind k h := (PropertyKind.restores h).ofText?_toText
  definition d h := (PropertyDef.restores h).ofText?_toText
  flags f h := by
    refine (restores_flags h).ofText?_toText ?_
    rw [f.depth_encode]
    decide
  state s := (restores_state s).ofText?_toText (Nat.zero_le _)
  id id := (restores_id id).ofText?_toText (show 1 ≤ depthLimit by decide)
  bounds b h := by
    refine (restores_bounds h).ofText?_toText ?_
    rw [b.depth_encode]
    decide
  config c := (restores_config c).ofText?_toText (show 1 ≤ depthLimit by decide)
  snapshot s h hordered := (s.restores h hordered).ofText?_toText

/-- A view with a child and a list of values is given back by its text. -/
theorem Exchange.texts_restore_room :
    ofText? (toText (Snapshot.node "env" "Environment" false []
      [.node "e1" "Shelf" true [("tags", .list [.str "\"\x01", .symbol ⟨"oak"⟩, .void]),
        ("width", .float 0.8)] []])) =
      some (Snapshot.node "env" "Environment" false []
        [.node "e1" "Shelf" true [("tags", .list [.str "\"\x01", .symbol ⟨"oak"⟩, .void]),
          ("width", .float 0.8)] []]) := by
  have hwidth : Readable 0.8 := by
    unfold Readable
    decide +kernel
  refine texts_restore.snapshot _ ?_ ?_ (by decide +kernel)
  · intro x hx
    obtain rfl : x = 0.8 := by
      simpa [Snapshot.floats, Snapshot.floatsOfAll, Value.floats, Value.floatsOfItems] using hx
    exact hwidth
  · have hkeys : "tags" < "width" := by decide +kernel
    exact ⟨.nil, ⟨List.pairwise_pair.mpr hkeys, trivial⟩, trivial⟩

/-! ## Texts that nest too deep -/

/-- Empty lists within lists, the given number of them around the innermost one. -/
def Value.nested : Nat → Value
  | 0 => .list []
  | n + 1 => .list [nested n]

/-- **What nests deeper than a reader goes is not read.** -/
theorem Value.decode_nested {n limit : Nat} (h : limit < 2 * (n + 1)) :
    Value.decode limit (Value.encode (nested n)) = none := by
  induction n generalizing limit with
  | zero =>
    match limit, h with
    | 0, _ => rfl
    | 1, _ => rfl
  | succ n ih =>
    match limit, h with
    | 0, _ => rfl
    | 1, _ => rfl
    | limit + 2, h =>
      have hitem : Value.decode limit (Value.encode (nested n)) = none := ih (by omega)
      show Value.decode (limit + 2) (.object [(some "List", .array [Value.encode (nested n)])]) = _
      rw [Value.decode, Value.decodeItems, hitem]
      rfl

theorem Value.floats_nested (n : Nat) : (nested n).floats = [] := by
  induction n with
  | zero => rfl
  | succ n ih => simp [nested, floats, floatsOfItems, ih]

/-- **The text of lists that nest too deep gives nothing back.** -/
theorem Exchange.text_of_nested {n : Nat} (h : depthLimit < 2 * (n + 1)) :
    ofText? (toText (Value.nested n)) = (none : Option Value) := by
  have hrestores : Restores (Value.nested n) :=
    (Value.nested n).restores (by simp [Value.floats_nested])
  unfold ofText? toText
  rw [Json.ofText?_toText hrestores.legible]
  exact Value.decode_nested h

/-- **A list of lists can have a text that does not give it back**: sixty-four lists nest one level
deeper than a reader goes. -/
theorem Exchange.text_of_nested_refused :
    (Value.nested 63).floats = [] ∧ ofText? (toText (Value.nested 63)) = (none : Option Value) :=
  ⟨Value.floats_nested 63, text_of_nested (by simp [depthLimit])⟩

end ProductModel
