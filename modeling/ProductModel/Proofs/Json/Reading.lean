import ProductModel.Json.Reader
import ProductModel.Json.Writer
import ProductModel.Proofs.Decimal.Reading

/-!
# Written trees read back

A tree is `Legible` when its strings have texts and its numerals can be read off a text.  The
compact text of a legible tree reads back as the tree (`ofText?_toText`), however deep it is: the
reader has an allowance for nesting, and the length of the text is always enough.

What follows a value in a text is a comma, the end of what it stands in, or nothing.  None of these
goes on with a numeral, which is the one kind of value that has no end of its own.
-/

namespace ProductModel.Json

open Decimal.Numeral (Ends read_text)

/-! ## Strings -/

/-- A control character is read back from its code. -/
theorem hexQuad?_control : ∀ n < 32,
    hexQuad? '0' '0' (hexDigit (n / 16)) (hexDigit (n % 16)) = some n := by
  decide

/-- A code unit that is no half of a pair stands for its character. -/
theorem joinPieces_unit {n : Nat} (hn : n < 0xD800) (ps : List Piece) :
    joinPieces (.unit n :: ps) = (joinPieces ps).map (Char.ofNat n :: ·) := by
  have hleading : isLeading n = false := by
    unfold isLeading
    simp only [Bool.and_eq_false_iff, decide_eq_false_iff_not]
    omega
  have htrailing : isTrailing n = false := by
    unfold isTrailing
    simp only [Bool.and_eq_false_iff, decide_eq_false_iff_not]
    omega
  cases ps with
  | nil => simp [joinPieces, hleading, htrailing]
  | cons p ps => cases p <;> simp [joinPieces, hleading, htrailing]

/-- An escape of one letter. -/
theorem readPieces_letter {letter c : Char} (hletter : letter ≠ 'u')
    (hc : simpleEscape? letter = some c) (cs : List Char) :
    readPieces ('\\' :: letter :: cs) =
      (readPieces cs).map fun r => (.char c :: r.1, r.2) := by
  rw [readPieces, hc]
  · cases readPieces cs <;> rfl
  · intro _ _ _ _ _ h
    exact absurd h hletter

/-- A character that stands for itself. -/
theorem readPieces_plain {c : Char} (hquote : c ≠ '"') (hescape : c ≠ '\\')
    (hcontrol : ¬c.toNat < 32) (cs : List Char) :
    readPieces (c :: cs) = (readPieces cs).map fun r => (.char c :: r.1, r.2) := by
  rw [readPieces]
  · rw [if_neg (by simp [hcontrol, hescape])]
    cases readPieces cs <;> rfl
  · exact hquote
  · intro _ _ _ _ _ h
    exact absurd h hescape
  · intro _ _ h
    exact absurd h hescape

/-- A control character as its code. -/
theorem readPieces_control {c : Char} (hcontrol : c.toNat < 32) (cs : List Char) :
    readPieces
      ('\\' :: 'u' :: '0' :: '0' :: hexDigit (c.toNat / 16) :: hexDigit (c.toNat % 16) :: cs) =
      (readPieces cs).map fun r => (.unit c.toNat :: r.1, r.2) := by
  rw [readPieces, hexQuad?_control _ hcontrol]
  cases readPieces cs <;> rfl

/-- **A written character reads back** as one piece, which stands for it. -/
theorem exists_piece (c : Char) : ∃ p : Piece,
    (∀ cs, readPieces (escapeChar c ++ cs) = (readPieces cs).map fun r => (p :: r.1, r.2)) ∧
      ∀ ps, joinPieces (p :: ps) = (joinPieces ps).map (c :: ·) := by
  unfold escapeChar
  split
  -- The characters with an escape of their own.
  all_goals try exact ⟨.char _, readPieces_letter (by decide) rfl, fun _ => rfl⟩
  rename_i hquote hescape _ _ _ _ _
  split
  · rename_i hcontrol
    refine ⟨.unit c.toNat, readPieces_control hcontrol, fun ps => ?_⟩
    rw [joinPieces_unit (by omega), Char.ofNat_toNat]
  · rename_i hcontrol
    exact ⟨.char c, readPieces_plain hquote hescape hcontrol, fun _ => rfl⟩

theorem readPieces_flatMap (cs rest : List Char) : ∃ ps,
    readPieces (cs.flatMap escapeChar ++ '"' :: rest) = some (ps, rest) ∧
      joinPieces ps = some cs := by
  induction cs with
  | nil => exact ⟨[], rfl, rfl⟩
  | cons c cs ih =>
    obtain ⟨ps, hread, hjoin⟩ := ih
    obtain ⟨p, hpiece, hjoins⟩ := exists_piece c
    refine ⟨p :: ps, ?_, ?_⟩
    · rw [List.flatMap_cons, List.append_assoc, hpiece, hread]
      rfl
    · rw [hjoins, hjoin]
      rfl

/-- The written form of a text behind its opening quote. -/
theorem quoted_eq (s : String) (rest : List Char) :
    quoted s ++ rest = '"' :: (s.toList.flatMap escapeChar ++ '"' :: rest) := by
  unfold quoted
  simp

/-- **A written string reads back.** -/
theorem readString_quoted (s : String) (rest : List Char) :
    readString (s.toList.flatMap escapeChar ++ '"' :: rest) = some (some s, rest) := by
  obtain ⟨ps, hread, hjoin⟩ := readPieces_flatMap s.toList rest
  unfold readString
  rw [hread]
  show some ((joinPieces ps).map String.ofList, rest) = _
  rw [hjoin, Option.map_some, String.ofList_toList]

/-! ## Trees -/

mutual

/-- **A tree that can be read off a text.** -/
def Legible : Json → Prop
  | number n => n.Legible
  | string text => text ≠ none
  | array items => LegibleItems items
  | object members => LegibleMembers members
  | _ => True

/-- Items that can be read off a text. -/
def LegibleItems : List Json → Prop
  | [] => True
  | j :: js => Legible j ∧ LegibleItems js

/-- Members that can be read off a text. -/
def LegibleMembers : List (Option String × Json) → Prop
  | [] => True
  | (name, j) :: members => name ≠ none ∧ Legible j ∧ LegibleMembers members

end

/-- The characters that a value's text is followed by, if by any. -/
def isStop (c : Char) : Bool := c == ',' || c == ']' || c == '\x7d'

/-- **What may follow a value.** -/
def Stops (rest : List Char) : Prop := ∀ {c cs}, rest = c :: cs → isStop c = true

theorem Stops.ends {rest : List Char} (h : Stops rest) : Ends rest := by
  intro c cs hrest
  have hstop := h hrest
  simp only [isStop, Bool.or_eq_true, beq_iff_eq] at hstop
  rcases hstop with (rfl | rfl) | rfl <;> decide

theorem stops_nil : Stops [] := nofun

theorem stops_cons {c : Char} {cs : List Char} (hc : isStop c = true) : Stops (c :: cs) := by
  rintro _ _ ⟨⟩
  exact hc

theorem stops_items (js : List Json) (rest : List Char) : Stops (compactItems js ++ rest) := by
  cases js with
  | nil => exact stops_cons rfl
  | cons j js => exact stops_cons rfl

theorem stops_members (members : List (Option String × Json)) (rest : List Char) :
    Stops (compactMembers members ++ rest) := by
  cases members with
  | nil => exact stops_cons rfl
  | cons member members => exact stops_cons rfl

/-! ### The first character of a value -/

/-- A text that starts neither with a blank nor with what follows a value. -/
def Starts (cs : List Char) : Prop := ∃ c cs', cs = c :: cs' ∧ isBlank c = false ∧ isStop c = false

theorem skipBlanks_cons {c : Char} {cs : List Char} (hc : isBlank c = false) :
    skipBlanks (c :: cs) = c :: cs :=
  List.dropWhile_cons_of_neg (by simp [hc])

theorem Starts.skipBlanks {cs : List Char} (h : Starts cs) : skipBlanks cs = cs := by
  obtain ⟨c, cs', rfl, hblank, -⟩ := h
  exact skipBlanks_cons hblank

/-- A numeral starts with a sign or a digit. -/
theorem exists_head_text {n : Decimal.Numeral} (hn : n.Legible) (rest : List Char) :
    ∃ c cs, n.text ++ rest = c :: cs ∧ (c = '-' ∨ c.isDigit = true) := by
  obtain ⟨negative, whole, fraction, power⟩ := n
  obtain ⟨c, ds, rfl⟩ := List.exists_cons_of_ne_nil hn.whole.nonempty
  cases negative with
  | true => exact ⟨_, _, rfl, Or.inl rfl⟩
  | false => exact ⟨_, _, rfl, Or.inr (hn.whole.digits c List.mem_cons_self)⟩

theorem starts_text {n : Decimal.Numeral} (hn : n.Legible) (rest : List Char) :
    Starts (n.text ++ rest) := by
  obtain ⟨c, cs, heq, hc⟩ := exists_head_text hn rest
  refine ⟨c, cs, heq, ?_⟩
  have hne : ∀ d : Char, d ≠ '-' → d.isDigit = false → (c == d) = false := by
    intro d hminus hdigit
    rw [beq_eq_false_iff_ne]
    rintro rfl
    rcases hc with rfl | hc
    · exact hminus rfl
    · rw [hdigit] at hc
      cases hc
  unfold isBlank isStop
  simp [hne]

theorem starts_compact {j : Json} (hj : Legible j) (rest : List Char) :
    Starts (compact j ++ rest) := by
  cases j with
  | null => exact ⟨_, _, rfl, rfl, rfl⟩
  | bool b => cases b <;> exact ⟨_, _, rfl, rfl, rfl⟩
  | number n => exact starts_text hj rest
  | string s => exact ⟨_, _, rfl, rfl, rfl⟩
  | array items => cases items <;> exact ⟨_, _, rfl, rfl, rfl⟩
  | object members => cases members <;> exact ⟨_, _, rfl, rfl, rfl⟩

theorem starts_quoted (name : Option String) (rest : List Char) : Starts (quoted? name ++ rest) :=
  ⟨_, _, rfl, rfl, rfl⟩

/-! ### One level of a tree -/

variable {limit : Nat} {cs rest : List Char}

theorem readTree_number {n : Decimal.Numeral} (hn : n.Legible) (hrest : Ends rest) :
    readTree (limit + 1) (n.text ++ rest) = some (.number n, rest) := by
  obtain ⟨c, cs, heq, hc⟩ := exists_head_text hn rest
  have hne : ∀ d : Char, d ≠ '-' → d.isDigit = false → ∀ ds, n.text ++ rest ≠ d :: ds := by
    intro d hminus hdigit ds h
    obtain rfl := (List.cons.inj (heq.symm.trans h)).1
    rcases hc with rfl | hc
    · exact hminus rfl
    · rw [hdigit] at hc
      cases hc
  rw [readTree, (starts_text hn rest).skipBlanks]
  split
  -- The other kinds of values start with other characters.
  iterate 6 · rename_i h; exact absurd h (hne _ (by decide) (by decide) _)
  rw [read_text hn hrest]
  rfl

theorem readTree_string (s : String) :
    readTree (limit + 1) (quoted s ++ rest) = some (.str s, rest) := by
  rw [quoted_eq, readTree, skipBlanks_cons rfl]
  simp only [readString_quoted]
  rfl

/-- An array that has items. -/
theorem readTree_array (h : Starts cs) :
    readTree (limit + 1) ('[' :: cs) =
      (readItems limit cs).map fun r => (.array r.1, r.2) := by
  rw [readTree, skipBlanks_cons rfl]
  simp only [h.skipBlanks]
  split
  · obtain ⟨c, cs', heq, -, hstop⟩ := h
    cases heq
    cases hstop
  · cases readItems limit cs <;> rfl

/-- An object that has members. -/
theorem readTree_object (h : Starts cs) :
    readTree (limit + 1) ('\x7b' :: cs) =
      (readMembers limit cs).map fun r => (.object r.1, r.2) := by
  rw [readTree, skipBlanks_cons rfl]
  simp only [h.skipBlanks]
  split
  · obtain ⟨c, cs', heq, -, hstop⟩ := h
    cases heq
    cases hstop
  · cases readMembers limit cs <;> rfl

/-- **With an allowance, texts that are not longer than it read back**: a tree, the items of an
array up to its end, and the members of an object up to its end. -/
structure ReadsBack (limit : Nat) : Prop where
  tree : ∀ {j}, Legible j → (compact j).length ≤ limit → ∀ {rest}, Stops rest →
    readTree limit (compact j ++ rest) = some (j, rest)
  items : ∀ {j js}, Legible j → LegibleItems js → (compact j ++ compactItems js).length ≤ limit →
    ∀ rest, readItems limit (compact j ++ (compactItems js ++ rest)) = some (j :: js, rest)
  members : ∀ {name j members}, name ≠ none → Legible j → LegibleMembers members →
    (quoted? name ++ ':' :: (compact j ++ compactMembers members)).length ≤ limit →
    ∀ rest, readMembers limit
      (quoted? name ++ ':' :: (compact j ++ (compactMembers members ++ rest))) =
        some ((name, j) :: members, rest)

namespace ReadsBack

theorem tree_succ (ih : ReadsBack limit) {j : Json} (hj : Legible j)
    (hlimit : (compact j).length ≤ limit + 1) (hrest : Stops rest) :
    readTree (limit + 1) (compact j ++ rest) = some (j, rest) := by
  cases j with
  | null => rfl
  | bool b => cases b <;> rfl
  | number n => exact readTree_number hj hrest.ends
  | string text =>
    obtain ⟨s, rfl⟩ := Option.ne_none_iff_exists'.mp hj
    exact readTree_string s
  | array items =>
    cases items with
    | nil => rfl
    | cons item items =>
      have htext : compact (.array (item :: items)) ++ rest =
          '[' :: (compact item ++ (compactItems items ++ rest)) := by
        simp [compact]
      have hlength : (compact item ++ compactItems items).length ≤ limit := by
        simpa [compact] using hlimit
      rw [htext, readTree_array (starts_compact hj.1 _), ih.items hj.1 hj.2 hlength]
      rfl
  | object members =>
    cases members with
    | nil => rfl
    | cons member members =>
      obtain ⟨name, value⟩ := member
      have htext : compact (.object ((name, value) :: members)) ++ rest =
          '\x7b' ::
            (quoted? name ++ ':' :: (compact value ++ (compactMembers members ++ rest))) := by
        simp [compact]
      have hlength : (quoted? name ++ ':' :: (compact value ++ compactMembers members)).length ≤
          limit := by
        simpa [compact] using hlimit
      rw [htext, readTree_object (starts_quoted _ _), ih.members hj.1 hj.2.1 hj.2.2 hlength]
      rfl

theorem items_succ (ih : ReadsBack limit) {j : Json} {js : List Json} (hj : Legible j)
    (hjs : LegibleItems js) (hlimit : (compact j ++ compactItems js).length ≤ limit + 1)
    (rest : List Char) :
    readItems (limit + 1) (compact j ++ (compactItems js ++ rest)) = some (j :: js, rest) := by
  -- What follows an item is not empty, so the item alone fits the smaller allowance.
  have hstops : 0 < (compactItems js).length := by cases js <;> simp [compactItems]
  rw [List.length_append] at hlimit
  rw [readItems, ih.tree hj (by omega) (stops_items js rest)]
  cases js with
  | nil => rfl
  | cons item items =>
    have htext : compactItems (item :: items) ++ rest =
        ',' :: (compact item ++ (compactItems items ++ rest)) := by
      simp [compactItems]
    have hlength : (compact item ++ compactItems items).length ≤ limit := by
      simp only [compactItems, List.length_cons, List.length_append] at hlimit ⊢
      omega
    have hmore := ih.items hjs.1 hjs.2 hlength rest
    simp only [htext, skipBlanks_cons (show isBlank ',' = false from rfl), hmore,
      Option.bind_eq_bind, Option.bind_some]
    rfl

theorem members_succ (ih : ReadsBack limit) {name : Option String} {j : Json}
    {members : List (Option String × Json)} (hname : name ≠ none) (hj : Legible j)
    (hmembers : LegibleMembers members)
    (hlimit : (quoted? name ++ ':' :: (compact j ++ compactMembers members)).length ≤ limit + 1)
    (rest : List Char) :
    readMembers (limit + 1)
      (quoted? name ++ ':' :: (compact j ++ (compactMembers members ++ rest))) =
        some ((name, j) :: members, rest) := by
  have hstops : 0 < (compactMembers members).length := by
    cases members <;> simp [compactMembers]
  simp only [List.length_append, List.length_cons] at hlimit
  -- The name and the colon are read off; the value and the rest are up to the hypothesis.
  have hvalue := ih.tree hj (by omega) (stops_members members rest)
  obtain ⟨s, rfl⟩ := Option.ne_none_iff_exists'.mp hname
  rw [show quoted? (some s) = quoted s from rfl, quoted_eq, readMembers, skipBlanks_cons rfl]
  simp only [readString_quoted, Option.bind_eq_bind, Option.bind_some,
    skipBlanks_cons (show isBlank ':' = false from rfl), hvalue]
  cases members with
  | nil => rfl
  | cons member members =>
    obtain ⟨name, value⟩ := member
    have htext : compactMembers ((name, value) :: members) ++ rest =
        ',' :: (quoted? name ++ ':' :: (compact value ++ (compactMembers members ++ rest))) := by
      simp [compactMembers]
    have hlength : (quoted? name ++ ':' :: (compact value ++ compactMembers members)).length ≤
        limit := by
      simp only [compactMembers, List.length_cons, List.length_append] at hlimit ⊢
      omega
    have hmore := ih.members hmembers.1 hmembers.2.1 hmembers.2.2 hlength rest
    simp only [htext, skipBlanks_cons (show isBlank ',' = false from rfl), hmore,
      Option.bind_some]
    rfl

end ReadsBack

/-- **Texts that are not longer than the allowance read back.** -/
theorem readsBack (limit : Nat) : ReadsBack limit := by
  induction limit with
  | zero =>
    -- No value has an empty text.
    refine ⟨fun hj hlimit => ?_, fun hj _ hlimit => ?_, fun _ _ _ hlimit => ?_⟩
    · obtain ⟨c, cs, heq, -⟩ := starts_compact hj []
      rw [List.append_nil] at heq
      rw [heq] at hlimit
      cases hlimit
    · obtain ⟨c, cs, heq, -⟩ := starts_compact hj (compactItems _)
      rw [heq] at hlimit
      cases hlimit
    · cases hlimit
  | succ limit ih =>
    exact ⟨fun hj hlimit _ hrest => ih.tree_succ hj hlimit hrest, ih.items_succ, ih.members_succ⟩

/-- **A written tree reads back.** -/
theorem ofText?_toText {j : Json} (hj : Legible j) : ofText? j.toText = some j := by
  have hread := (readsBack (j.compact.length + 1)).tree hj (Nat.le_succ _) stops_nil
  rw [List.append_nil] at hread
  unfold ofText? toText
  rw [String.toList_ofList]
  simp only [hread]
  rfl

end ProductModel.Json
