import Mathlib
import SolidOps.Interchange
import SolidOps.Proofs.Json.Reading

/-!
# What is written is read back

Values, settings and diagnostics survive their JSON text.  Whatever is written from finite numbers
is read back as it was, and whatever holds a NaN or an infinity anywhere cannot be read back at all;
a text is never read as something else than it was written from (`Interchange.round_trip`).

How much room a reader needs is a property of the tree: `Json.depth` counts the containers one
inside the other, and reading succeeds from this number of containers on.

By `Json.ofChars?_chars` the text is out of the way: what remains is a statement about trees.  It
goes by cases over settings and diagnostics, and by recursion over values, where a vector is as
readable as all of its items.
-/

namespace SolidOps

namespace Json

/-! ## Depth -/

mutual

/-- How many containers of a tree are one inside the other. -/
def depth : Json → Nat
  | null => 0
  | bool _ => 0
  | number _ => 0
  | string _ => 0
  | array items => depthOfItems items + 1
  | object members => depthOfMembers members + 1

/-- The depth of the deepest item. -/
def depthOfItems : List Json → Nat
  | [] => 0
  | item :: items => max (depth item) (depthOfItems items)

/-- The depth of the deepest member. -/
def depthOfMembers : List (Text × Json) → Nat
  | [] => 0
  | (_, value) :: members => max (depth value) (depthOfMembers members)

end

@[simp] lemma depth_bare (name : String) : (bare name).depth = 0 := rfl

@[simp] lemma depth_tagged (name : String) (contents : Json) :
    (tagged name contents).depth = contents.depth + 1 := by
  simp [tagged, depth, depthOfMembers]

@[simp] lemma depth_ofBinary64 (x : Binary64) : (ofBinary64 x).depth = 0 := by
  rw [ofBinary64]
  split
  · rw [depth]
  · rw [depth]

/-! ## Scalars -/

/-- **A number is read back exactly when it is finite.** -/
lemma toBinary64?_ofBinary64 (x : Binary64) :
    (ofBinary64 x).toBinary64? = if x.isFinite then some x else none := by
  by_cases hx : x.isFinite
  · rw [ofBinary64, if_pos hx, if_pos hx, toBinary64?, Numeral.toBinary64?_ofBinary64 hx]
  · rw [ofBinary64, if_neg hx, if_neg hx]
    rfl

lemma toInt32?_ofInt (c : Int32) : (number (.ofInt c.toInt)).toInt32? = some c := by
  have hlow := c.minValue_le_toInt
  have hhigh := c.toInt_le
  rw [toInt32?, Numeral.toInt?_ofInt, Option.bind_some, if_pos ⟨hlow, hhigh⟩, Int32.ofInt_toInt]

lemma toUInt32?_ofInt (n : UInt32) : (number (.ofInt n.toNat)).toUInt32? = some n := by
  have hhigh := n.toNat_lt_size
  rw [toUInt32?, Numeral.toInt?_ofInt, Option.bind_some, if_pos ⟨by omega, by exact_mod_cast hhigh⟩,
    Int.toNat_natCast, UInt32.ofNat_toNat]

/-! ## Records -/

/-- A field is found by its name when no other has the name. -/
lemma fieldOf?_of_mem {fields : List (String × Json)} (hnodup : (fields.map Prod.fst).Nodup)
    {field : String × Json} (hmem : field ∈ fields) :
    fieldOf? (fields.map fun f => (some f.1, f.2)) field.1 = some (some field.2) := by
  have hfilter : (fields.map fun f => ((some f.1, f.2) : Text × Json)).filter
      (fun m => m.1 == some field.1) = [(some field.1, field.2)] := by
    induction fields with
    | nil => cases hmem
    | cons f fs ih =>
        rw [List.map_cons, List.nodup_cons] at hnodup
        rcases List.mem_cons.mp hmem with rfl | hmem
        · have hothers : ∀ f ∈ fs, f.1 ≠ field.1 := by
            intro f hf hname
            exact hnodup.1 (hname ▸ List.mem_map_of_mem hf)
          have hnone : (fs.map fun f => ((some f.1, f.2) : Text × Json)).filter
              (fun m => m.1 == some field.1) = [] := by
            rw [List.filter_eq_nil_iff]
            intro m hm
            obtain ⟨f, hf, rfl⟩ := List.mem_map.mp hm
            simpa using hothers f hf
          simp [hnone]
        · have hne : f.1 ≠ field.1 := by
            intro hname
            exact hnodup.1 (hname ▸ List.mem_map_of_mem hmem)
          simp [hne, ih hnodup.2 hmem]
  simp only [fieldOf?, hfilter]

/-- **The fields of a record are read back in their order.** -/
lemma fields?_record (fields : List (String × Json)) (hnodup : (fields.map Prod.fst).Nodup) :
    fields? (fields.map Prod.fst) (record fields) = some (fields.map fun f => some f.2) := by
  have hnames : (fields.map fun f => ((some f.1, f.2) : Text × Json)).all
      (fun m => m.1.isSome) = true := by
    simp
  have hall : ∀ part : List (String × Json), part ⊆ fields →
      (part.map Prod.fst).mapM (fieldOf? (fields.map fun f => (some f.1, f.2)))
        = some (part.map fun f => some f.2) := by
    intro part hpart
    induction part with
    | nil => rfl
    | cons f fs ih =>
        rw [List.cons_subset] at hpart
        rw [List.map_cons, List.mapM_cons, fieldOf?_of_mem hnodup hpart.1, ih hpart.2]
        rfl
  rw [record, fields?, if_pos hnames]
  exact hall fields (List.Subset.refl fields)

lemma allFields?_record (fields : List (String × Json))
    (hnodup : (fields.map Prod.fst).Nodup) :
    allFields? (fields.map Prod.fst) (record fields) = some (fields.map Prod.snd) := by
  have hall : (fields.map fun f => some f.2).mapM id = some (fields.map Prod.snd) := by
    induction fields with
    | nil => rfl
    | cons f fs ih =>
        rw [List.map_cons, List.mapM_cons, ih (List.nodup_cons.mp hnodup).2]
        rfl
  rw [allFields?, fields?_record fields hnodup, Option.bind_some, hall]

end Json

/-! ## Reading back -/

/-- A tree is read as `a`, exactly when the numbers that went into it are finite and there is room
for all its containers. -/
def ReadsAs {α : Type} (read? : ℕ → Json → Option α) (j : Json) (numbers : List Binary64) (a : α) :
    Prop :=
  ∀ room, read? room j
    = if (∀ x ∈ numbers, x.isFinite) ∧ j.depth ≤ room then some a else none

/-! ## Values -/

namespace Value

mutual

/-- The numbers within a value, in the order in which they are written. -/
def numbers : Value → List Binary64
  | undefined => []
  | boolean _ => []
  | number x => [x]
  | string _ => []
  | vector items => numbersOfItems items
  | range start step stop => [start, step, stop]

/-- The numbers within the items of a vector. -/
def numbersOfItems : List Value → List Binary64
  | [] => []
  | item :: items => numbers item ++ numbersOfItems items

end

/-! A case with contents takes one container, and then reads its contents. -/

lemma ofJson?_zero_tagged (name : String) (contents : Json) :
    ofJson? 0 (.tagged name contents) = none := rfl

lemma ofJson?_boolean (room : ℕ) (contents : Json) :
    ofJson? (room + 1) (.tagged "Boolean" contents) = contents.toBool?.map .boolean := by
  rw [Json.tagged, ofJson?.eq_def]
  simp

lemma ofJson?_number (room : ℕ) (contents : Json) :
    ofJson? (room + 1) (.tagged "Number" contents) = contents.toBinary64?.map .number := by
  rw [Json.tagged, ofJson?.eq_def]
  simp

lemma ofJson?_string (room : ℕ) (contents : Json) :
    ofJson? (room + 1) (.tagged "String" contents) = contents.toText?.map .string := by
  rw [Json.tagged, ofJson?.eq_def]
  simp

lemma ofJson?_vector (room : ℕ) (items : List Json) :
    ofJson? (room + 2) (.tagged "Vector" (.array items))
      = (items.mapM (ofJson? room)).map .vector := rfl

lemma ofJson?_range (room : ℕ) (contents : Json) :
    ofJson? (room + 1) (.tagged "Range" contents) = rangeOfJson? room contents := by
  rw [Json.tagged, ofJson?.eq_def]
  simp

lemma rangeOfJson?_record (start step stop : Binary64) (room : ℕ) :
    rangeOfJson? (room + 1) (.record
        [("start", .ofBinary64 start), ("step", .ofBinary64 step), ("end", .ofBinary64 stop)])
      = if start.isFinite ∧ step.isFinite ∧ stop.isFinite then some (.range start step stop)
        else none := by
  have hfields := Json.allFields?_record [("start", Json.ofBinary64 start),
    ("step", Json.ofBinary64 step), ("end", Json.ofBinary64 stop)] (by simp)
  simp only [List.map_cons, List.map_nil] at hfields
  simp only [rangeOfJson?, Json.opened?, hfields, Option.bind_eq_bind, Option.bind_some,
    Json.toBinary64?_ofBinary64]
  by_cases hstart : start.isFinite
  · by_cases hstep : step.isFinite
    · by_cases hstop : stop.isFinite
      · simp [hstart, hstep, hstop]
      · simp [hstart, hstep, hstop]
    · simp [hstart, hstep]
  · simp [hstart]

mutual

/-- **A value is read back from its tree**, and a vector is when all of its items are. -/
lemma ofJson?_toJson (v : Value) : ReadsAs ofJson? (toJson v) v.numbers v := by
  intro room
  match v, room with
  | .undefined, room =>
      rw [toJson, Json.depth_bare, Json.bare, ofJson?]
      simp [numbers]
  | .boolean b, 0 =>
      rw [toJson, ofJson?_zero_tagged]
      simp
  | .boolean b, room + 1 =>
      rw [toJson, ofJson?_boolean]
      simp [Json.toBool?, Json.depth, numbers]
  | .number x, 0 =>
      rw [toJson, ofJson?_zero_tagged]
      simp
  | .number x, room + 1 =>
      rw [toJson, ofJson?_number, Json.toBinary64?_ofBinary64]
      simp [numbers]
  | .string s, 0 =>
      rw [toJson, ofJson?_zero_tagged]
      simp
  | .string s, room + 1 =>
      rw [toJson, ofJson?_string]
      simp [Json.toText?, Json.depth, numbers]
  | .vector items, 0 =>
      rw [toJson, ofJson?_zero_tagged]
      simp
  | .vector items, 1 =>
      rw [toJson, Json.depth_tagged, Json.depth, if_neg (by omega)]
      rfl
  | .vector items, room + 2 =>
      have hitems := mapM_itemsToJson items room
      rw [toJson, ofJson?_vector, hitems, Json.depth_tagged, Json.depth, numbers]
      by_cases h : (∀ x ∈ numbersOfItems items, x.isFinite) ∧
          Json.depthOfItems (itemsToJson items) ≤ room
      · rw [if_pos h, if_pos ⟨h.1, by omega⟩, Option.map_some]
      · rw [if_neg h, if_neg (fun h' => h ⟨h'.1, by omega⟩), Option.map_none]
  | .range start step stop, 0 =>
      rw [toJson, ofJson?_zero_tagged]
      simp
  | .range start step stop, 1 =>
      rw [toJson, Json.depth_tagged, ofJson?_range]
      simp [Json.record, Json.depth, rangeOfJson?, Json.opened?]
  | .range start step stop, room + 2 =>
      rw [toJson, ofJson?_range, rangeOfJson?_record, Json.depth_tagged]
      simp [Json.record, Json.depth, Json.depthOfMembers, numbers]

lemma mapM_itemsToJson (items : List Value) (room : ℕ) :
    (itemsToJson items).mapM (ofJson? room)
      = if (∀ x ∈ numbersOfItems items, x.isFinite) ∧
          Json.depthOfItems (itemsToJson items) ≤ room then some items else none := by
  match items with
  | [] =>
      rw [itemsToJson, List.mapM_nil, Json.depthOfItems, numbersOfItems]
      simp
  | item :: items =>
      have hitem := ofJson?_toJson item room
      have hitems := mapM_itemsToJson items room
      rw [itemsToJson, List.mapM_cons, hitem, hitems, Json.depthOfItems, numbersOfItems]
      have hsplit : (∀ x ∈ item.numbers ++ numbersOfItems items, x.isFinite) ∧
            max (toJson item).depth (Json.depthOfItems (itemsToJson items)) ≤ room
          ↔ ((∀ x ∈ item.numbers, x.isFinite) ∧ (toJson item).depth ≤ room) ∧
            ((∀ x ∈ numbersOfItems items, x.isFinite) ∧
              Json.depthOfItems (itemsToJson items) ≤ room) := by
        rw [List.forall_mem_append, max_le_iff, and_and_and_comm]
      simp only [hsplit]
      by_cases h : (∀ x ∈ item.numbers, x.isFinite) ∧ (toJson item).depth ≤ room
      · by_cases h' : (∀ x ∈ numbersOfItems items, x.isFinite) ∧
            Json.depthOfItems (itemsToJson items) ≤ room
        · rw [if_pos h, if_pos h', if_pos ⟨h, h'⟩]
          rfl
        · rw [if_pos h, if_neg h', if_neg (not_and_of_not_right _ h')]
          rfl
      · rw [if_neg h, if_neg (not_and_of_not_left _ h)]
        rfl

end

end Value

/-! ## Settings -/

namespace Settings

/-- The numbers within settings: the sizes of a resize, and whatever a path holds. -/
def numbers : Settings → List Binary64
  | minkowski _ => []
  | glide _ path => path.numbers
  | subdivision _ _ _ => []
  | hull => []
  | resize size _ => size.toList

lemma contentsOfJson?_minkowski (c : Int32) :
    ReadsAs (contentsOfJson? .minkowski) (.record [("convexity", .number (.ofInt c.toInt))])
      [] (.minkowski c) := by
  intro room
  have hfields := Json.allFields?_record
    [("convexity", Json.number (.ofInt c.toInt))] (by simp)
  simp only [List.map_cons, List.map_nil] at hfields
  cases room with
  | zero => rfl
  | succ room =>
      simp only [contentsOfJson?, Json.opened?, hfields, Json.toInt32?_ofInt, Option.bind_eq_bind,
        Option.bind_some]
      simp [Json.record, Json.depth, Json.depthOfMembers]

lemma contentsOfJson?_glide (c : Int32) (path : Value) :
    ReadsAs (contentsOfJson? .glide)
      (.record [("convexity", .number (.ofInt c.toInt)), ("path", path.toJson)])
      path.numbers (.glide c path) := by
  intro room
  have hfields := Json.allFields?_record
    [("convexity", Json.number (.ofInt c.toInt)), ("path", path.toJson)] (by simp)
  simp only [List.map_cons, List.map_nil] at hfields
  cases room with
  | zero => simp [contentsOfJson?, Json.opened?, Json.record, Json.depth]
  | succ room =>
      have hdepth : (Json.record [("convexity", .number (.ofInt c.toInt)),
          ("path", path.toJson)]).depth = path.toJson.depth + 1 := by
        simp [Json.record, Json.depth, Json.depthOfMembers]
      simp only [contentsOfJson?, Json.opened?, hfields, Json.toInt32?_ofInt, Option.bind_eq_bind,
        Option.bind_some, Value.ofJson?_toJson path room, hdepth, Nat.add_le_add_iff_right]
      by_cases h : (∀ x ∈ path.numbers, x.isFinite) ∧ path.toJson.depth ≤ room
      · rw [if_pos h, if_pos h, Option.bind_some]
      · rw [if_neg h, if_neg h, Option.bind_none]

lemma contentsOfJson?_subdivision (c : Int32) (level : UInt32) (scheme : Scheme) :
    ReadsAs (contentsOfJson? .subdivision)
      (.record [("convexity", .number (.ofInt c.toInt)),
        ("level", .number (.ofInt level.toNat)), ("kind", Interchange.toJson scheme)])
      [] (.subdivision c level scheme) := by
  intro room
  have hfields := Json.allFields?_record
    [("convexity", Json.number (.ofInt c.toInt)),
      ("level", Json.number (.ofInt level.toNat)), ("kind", Interchange.toJson scheme)] (by simp)
  have hscheme (room : ℕ) :
      Interchange.ofJson? room (Interchange.toJson scheme) = some scheme := by
    cases scheme <;> rfl
  have hdepth : (Interchange.toJson scheme).depth = 0 := rfl
  simp only [List.map_cons, List.map_nil] at hfields
  cases room with
  | zero => rfl
  | succ room =>
      simp only [contentsOfJson?, Json.opened?, hfields, Json.toInt32?_ofInt,
        Json.toUInt32?_ofInt, hscheme, Option.bind_eq_bind, Option.bind_some]
      simp [Json.record, Json.depth, Json.depthOfMembers, hdepth]

/-- Three sizes are read back when all three are finite. -/
lemma toAxes?_numbers (size : Axes Binary64) (room : ℕ) :
    (Json.array (size.toList.map Json.ofBinary64)).toAxes? Json.toBinary64? room
      = if (∀ x ∈ size.toList, x.isFinite) ∧ 1 ≤ room then some size else none := by
  cases room with
  | zero => simp [Axes.toList, Json.toAxes?, Json.opened?]
  | succ room =>
      simp only [Axes.toList, List.map_cons, List.map_nil, Json.toAxes?, Json.opened?,
        Json.toBinary64?_ofBinary64, Option.bind_eq_bind, Option.bind_some]
      by_cases hx : size.x.isFinite
      · by_cases hy : size.y.isFinite
        · by_cases hz : size.z.isFinite
          · simp [hx, hy, hz]
          · simp [hx, hy, hz]
        · simp [hx, hy]
      · simp [hx]

lemma toAxes?_flags (auto : Axes Bool) (room : ℕ) :
    (Json.array (auto.toList.map Json.bool)).toAxes? Json.toBool? room
      = if 1 ≤ room then some auto else none := by
  cases room with
  | zero => rfl
  | succ room => simp [Axes.toList, Json.toAxes?, Json.opened?, Json.toBool?]

lemma contentsOfJson?_resize (size : Axes Binary64) (auto : Axes Bool) :
    ReadsAs (contentsOfJson? .resize)
      (.record [("new_size", .array (size.toList.map Json.ofBinary64)),
        ("auto_axes", .array (auto.toList.map Json.bool))])
      size.toList (.resize size auto) := by
  intro room
  have hfields := Json.allFields?_record
    [("new_size", Json.array (size.toList.map Json.ofBinary64)),
      ("auto_axes", Json.array (auto.toList.map Json.bool))] (by simp)
  simp only [List.map_cons, List.map_nil] at hfields
  have hdepth : (Json.record [("new_size", .array (size.toList.map Json.ofBinary64)),
      ("auto_axes", .array (auto.toList.map Json.bool))]).depth = 2 := by
    simp [Json.record, Json.depth, Json.depthOfMembers, Json.depthOfItems, Axes.toList]
  rw [hdepth]
  cases room with
  | zero => simp [contentsOfJson?, Json.opened?]
  | succ room =>
      simp only [contentsOfJson?, Json.opened?, hfields, toAxes?_numbers, toAxes?_flags,
        Option.bind_eq_bind, Option.bind_some]
      by_cases h : (∀ x ∈ size.toList, x.isFinite) ∧ 1 ≤ room
      · rw [if_pos h, if_pos h.2, if_pos ⟨h.1, by omega⟩]
        rfl
      · have hnot : ¬((∀ x ∈ size.toList, x.isFinite) ∧ 2 ≤ room + 1) := by
          rintro ⟨hfinite, hroom⟩
          exact h ⟨hfinite, by omega⟩
        rw [if_neg h, if_neg hnot]
        rfl

/-- A case with contents takes one container more than its contents. -/
lemma readsAs_tagged {op : Operator} {contents : Json} {numbers : List Binary64} {s : Settings}
    (h : ReadsAs (contentsOfJson? op) contents numbers s) :
    ReadsAs ofJson? (.tagged op.caseName contents) numbers s := by
  intro room
  cases room with
  | zero =>
      rw [Json.depth_tagged, if_neg (by omega)]
      rfl
  | succ room =>
      have hcase : Operator.ofCaseName? op.caseName = some op := by
        cases op <;> rfl
      have hopen : ofJson? (room + 1) (.tagged op.caseName contents)
          = (Operator.ofCaseName? op.caseName).bind (contentsOfJson? · room contents) := rfl
      rw [hopen, hcase, Option.bind_some, h room, Json.depth_tagged]
      simp only [Nat.add_le_add_iff_right]

/-- **Settings are read back from their tree.** -/
lemma ofJson?_toJson (s : Settings) : ReadsAs ofJson? (toJson s) s.numbers s := by
  cases s with
  | hull =>
      intro room
      rw [toJson, Json.depth_bare, Json.bare, ofJson?]
      simp [numbers]
  | minkowski c => exact readsAs_tagged (contentsOfJson?_minkowski c)
  | glide c path => exact readsAs_tagged (contentsOfJson?_glide c path)
  | subdivision c level scheme =>
      exact readsAs_tagged (contentsOfJson?_subdivision c level scheme)
  | resize size auto => exact readsAs_tagged (contentsOfJson?_resize size auto)

end Settings

/-! ## Diagnostics -/

namespace Diagnostic

lemma hintOfJson?_hintToJson (hint : Option String) :
    hintOfJson? (some (hintToJson hint)) = some hint := by
  cases hint <;> rfl

/-- **A diagnostic is read back from its tree**: no number goes into one. -/
lemma ofJson?_toJson (d : Diagnostic) : ReadsAs ofJson? (toJson d) [] d := by
  intro room
  have hfields := Json.fields?_record [("severity", Interchange.toJson d.severity),
    ("message", .string (some d.message)), ("hint", hintToJson d.hint)] (by simp)
  simp only [List.map_cons, List.map_nil] at hfields
  have hseverity (room : ℕ) :
      Interchange.ofJson? room (Interchange.toJson d.severity) = some d.severity := by
    cases d.severity
    rfl
  have hdepth : (toJson d).depth = 1 := by
    have hhint : (hintToJson d.hint).depth = 0 := by
      cases d.hint <;> rfl
    have htag : (Interchange.toJson d.severity).depth = 0 := rfl
    simp [toJson, Json.record, Json.depth, Json.depthOfMembers, hhint, htag]
  rw [hdepth]
  cases room with
  | zero =>
      rw [if_neg (by omega)]
      rfl
  | succ room =>
      simp only [ofJson?, toJson, Json.opened?, hfields, hseverity, Json.toText?,
        hintOfJson?_hintToJson, Option.bind_eq_bind, Option.bind_some]
      simp

end Diagnostic

/-! ## Round trip -/

namespace Interchange

/-- What the text of something is read as is settled by its tree. -/
lemma readWithin?_write {α : Type} [Interchange α] (a : α) (room : ℕ) :
    readWithin? room (write a) = (ofJson? room (toJson a) : Option α) := by
  rw [readWithin?, write, String.toList_ofList, chars, Json.ofChars?_chars, Option.bind_some]

/-- **Round trip.**  Within whatever room it fits, the text of settings, of a value or of a
diagnostic is read back as exactly what it was written from, numbers by their words, when all the
numbers in it are finite; with a NaN or an infinity among them no room is enough.  The same settings
are the only ones that their text is ever read as. -/
theorem round_trip :
    (∀ (s : Settings) (room : ℕ), readWithin? room (write s)
      = if (∀ x ∈ s.numbers, x.isFinite) ∧ (toJson s).depth ≤ room then some s else none) ∧
    (∀ (v : Value) (room : ℕ), readWithin? room (write v)
      = if (∀ x ∈ v.numbers, x.isFinite) ∧ (toJson v).depth ≤ room then some v else none) ∧
    (∀ (d : Diagnostic) (room : ℕ), readWithin? room (write d)
      = if (toJson d).depth ≤ room then some d else none) ∧
    (∀ (s s' : Settings) (room : ℕ), readWithin? room (write s) ≠ some s' ∨ s' = s) := by
  have hsettings (s : Settings) (room : ℕ) := Settings.ofJson?_toJson s room
  refine ⟨?_, ?_, ?_, ?_⟩
  · intro s room
    rw [readWithin?_write]
    exact hsettings s room
  · intro v room
    rw [readWithin?_write]
    exact Value.ofJson?_toJson v room
  · intro d room
    have hdiagnostic := Diagnostic.ofJson?_toJson d room
    simp only [List.not_mem_nil, IsEmpty.forall_iff, implies_true, true_and] at hdiagnostic
    rw [readWithin?_write]
    exact hdiagnostic
  · intro s s' room
    rw [(readWithin?_write s room).trans (hsettings s room)]
    split
    · by_cases h : s' = s
      · exact Or.inr h
      · exact Or.inl (fun hs => h (Option.some.inj hs).symm)
    · exact Or.inl (by simp)

end Interchange

end SolidOps
