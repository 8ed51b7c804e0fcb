import Mathlib.Init

/-!
# Go values

Tool parameters, tool outputs and message metadata are Go `interface{}`
values: `map[string]interface{}` decoded from JSON, or values a caller built
by hand. The code reads them with type switches, so what a value is, for the
model, is its dynamic type together with its contents. The kinds listed are
the ones some type switch of the repository names. `object none` is a nil
`map[string]interface{}` stored in an interface, which is not `nil` to Go's
`== nil`; `null` is the untyped nil.

A Go `error` is kept as the text its `Error()` method returns, which is all
the code reads of one besides comparing it with `nil`.

Floating-point values are kept as their IEEE 754 bits. The code copies them
and compares them with `0` (and, in the validator, with their truncation),
and those comparisons are functions of the bits.
-/

namespace Go

/-- **A Go `float64`**, as its IEEE 754 binary64 bits. -/
structure Float64 where
  bits : UInt64
  deriving DecidableEq, Repr

/-- **A Go `float32`**, as its IEEE 754 binary32 bits. -/
structure Float32 where
  bits : UInt32
  deriving DecidableEq, Repr

/-- `x == 0` on a `float64`: true of `+0` and `-0` and of nothing else. -/
def Float64.isZero (x : Float64) : Bool := x.bits &&& 0x7FFFFFFFFFFFFFFF == 0

end Go

/-- The integer kinds a Go type switch tells apart. -/
inductive IntKind where
  | int | int8 | int16 | int32 | int64
  | uint | uint8 | uint16 | uint32 | uint64
  deriving DecidableEq, Repr

/-- **A Go `interface{}` value.** -/
inductive Value where
  /-- The untyped `nil`. -/
  | null
  | bool (b : Bool)
  | string (s : String)
  /-- A value of one of Go's integer kinds. -/
  | int (kind : IntKind) (v : Int)
  | float32 (v : Go.Float32)
  | float64 (v : Go.Float64)
  /-- A `json.Number`, kept as its text. -/
  | number (s : String)
  /-- A `[]interface{}`. -/
  | array (xs : List Value)
  /-- A `map[string]interface{}`; `none` is a nil map. -/
  | object (fields : Option (List (String × Value)))
  /-- A `[]map[string]interface{}`. -/
  | objects (xs : List (List (String × Value)))
  /-- A value of any other dynamic type, by the name `%T` prints. -/
  | other (typeName : String)
  deriving Repr

/-- The name `%T` prints for an integer kind. -/
def IntKind.typeName : IntKind → String
  | .int => "int" | .int8 => "int8" | .int16 => "int16" | .int32 => "int32" | .int64 => "int64"
  | .uint => "uint" | .uint8 => "uint8" | .uint16 => "uint16" | .uint32 => "uint32"
  | .uint64 => "uint64"

/-- **`%T`**: the name `fmt` prints for the dynamic type of a value. -/
def Value.typeName : Value → String
  | .null => "<nil>"
  | .bool _ => "bool"
  | .string _ => "string"
  | .int k _ => k.typeName
  | .float32 _ => "float32"
  | .float64 _ => "float64"
  | .number _ => "json.Number"
  | .array _ => "[]interface {}"
  | .object _ => "map[string]interface {}"
  | .objects _ => "[]map[string]interface {}"
  | .other n => n

/-- A `map[string]interface{}` as an association list; a key occurs once. -/
abbrev ValueMap := List (String × Value)

/-- Map lookup `m[k]` with its `ok`. -/
def ValueMap.get? (m : ValueMap) (k : String) : Option Value :=
  (m.find? (·.1 == k)).map (·.2)

/-- **`m[k] = v`** on a map kept as its entries: the entry of `k`, if any,
makes way for the new one. A Go map has no order, so where the entry
stands is immaterial. -/
def mapSet {β : Type} (m : List (String × β)) (k : String) (v : β) : List (String × β) :=
  m.filter (·.1 ≠ k) ++ [(k, v)]

theorem lookup_cons_eq {β : Type} (k name : String) (v : β) (ps : List (String × β)) :
    ((k, v) :: ps).lookup name = if name = k then some v else ps.lookup name := by
  rw [List.lookup_cons]
  by_cases h : name = k
  · subst h
    simp
  · simp only [beq_false_of_ne h, h, ↓reduceIte]

theorem lookup_filter_ne {β : Type} (m : List (String × β)) (k name : String) :
    (m.filter (·.1 ≠ k)).lookup name = if name = k then none else m.lookup name := by
  induction m with
  | nil => simp
  | cons p ps ih =>
    rcases p with ⟨k', v'⟩
    by_cases hk : k' = k
    · subst hk
      rw [List.filter_cons_of_neg (by simp), ih, lookup_cons_eq]
      by_cases hn : name = k' <;> simp [hn]
    · rw [List.filter_cons_of_pos (by simpa using hk), lookup_cons_eq, lookup_cons_eq, ih]
      by_cases hn : name = k'
      · subst hn
        simp [hk]
      · simp [hn]

/-- A map after `m[k] = v`: `k` holds `v`, and every other key what it
held. -/
theorem lookup_mapSet {β : Type} (m : List (String × β)) (k name : String) (v : β) :
    (mapSet m k v).lookup name = if name = k then some v else m.lookup name := by
  rw [mapSet, List.lookup_append, lookup_filter_ne, lookup_cons_eq]
  by_cases hn : name = k <;> simp [hn]

/-- **A loop of `mapSet`s keeps the value set last.** After a loop that
skips some items and sets each other one under its key, a key holds the
value of the last item set under it, or else what it held before. -/
theorem lookup_foldl_mapSet {α β : Type} (skip : α → Prop) [DecidablePred skip]
    (key : α → String) (val : α → β) (name : String) : ∀ (m : List (String × β)) (xs : List α),
    (xs.foldl (fun m x => if skip x then m else mapSet m (key x) (val x)) m).lookup name =
      ((xs.reverse.find? fun x => ¬skip x ∧ key x = name).map val).or (m.lookup name)
  | m, [] => by simp
  | m, x :: xs => by
    rw [List.foldl_cons, lookup_foldl_mapSet skip key val name _ xs, List.reverse_cons,
      List.find?_append]
    cases xs.reverse.find? (fun x => ¬skip x ∧ key x = name) with
    | some y => rfl
    | none =>
      by_cases hs : skip x
      · simp [hs]
      · by_cases hn : name = key x <;> simp [hs, hn, eq_comm, lookup_mapSet]

theorem mem_mapSet {β : Type} {m : List (String × β)} {k : String} {v : β} {p : String × β}
    (h : p ∈ mapSet m k v) : p ∈ m ∨ p = (k, v) := by
  simp only [mapSet, List.mem_append, List.mem_filter, List.mem_singleton] at h
  exact h.imp (·.1) id

/-- `m[k] = v` keeps the keys of a map distinct. -/
theorem mapSet_keys_nodup {β : Type} {m : List (String × β)} (h : (m.map Prod.fst).Nodup)
    (k : String) (v : β) : ((mapSet m k v).map Prod.fst).Nodup := by
  rw [mapSet, List.map_append, List.Nodup, List.pairwise_append]
  refine ⟨h.sublist ((List.filter_sublist _).map _), List.pairwise_singleton _ _, ?_⟩
  intro a ha b hb
  simp only [List.mem_map, List.mem_filter, List.mem_singleton] at ha hb
  obtain ⟨p, ⟨-, hp⟩, rfl⟩ := ha
  simp_all

theorem mem_of_lookup_eq_some {β : Type} {k : String} {v : β} :
    ∀ {m : List (String × β)}, m.lookup k = some v → (k, v) ∈ m
  | [], h => nomatch h
  | (k', v') :: ps, h => by
    rw [lookup_cons_eq] at h
    split at h
    · obtain rfl := Option.some.inj h
      subst_vars
      exact List.mem_cons_self _ _
    · exact List.mem_cons_of_mem _ (mem_of_lookup_eq_some h)

/-- In a map with distinct keys, an entry is what its key looks up. -/
theorem lookup_eq_some_of_mem {β : Type} {k : String} {v : β} :
    ∀ {m : List (String × β)}, (m.map Prod.fst).Nodup → (k, v) ∈ m → m.lookup k = some v
  | [], _, h => nomatch h
  | (k', v') :: ps, hn, h => by
    rw [List.map_cons, List.nodup_cons] at hn
    rw [lookup_cons_eq]
    rcases List.mem_cons.mp h with hkv | hkv
    · simp_all
    · have hk : k ≠ k' := fun hk => hn.1 (List.mem_map.mpr ⟨_, hkv, hk ▸ rfl⟩)
      rw [if_neg hk]
      exact lookup_eq_some_of_mem hn.2 hkv

/-- **A Go `error`**, by the text of its `Error()`. The identity of the
value, which `errors.Is` compares, is left out. -/
structure GoError where
  Error : String
  deriving DecidableEq, Repr

/-- **`errors.Join(a, b)`**: `nil` when both are, and otherwise an error
whose text is the texts of the non-nil ones, a line each. -/
def errorsJoin : Option GoError → Option GoError → Option GoError
  | none, none => none
  | some a, none => some a
  | none, some b => some b
  | some a, some b => some ⟨a.Error ++ "\n" ++ b.Error⟩

theorem errorsJoin_some_ne_none (e : GoError) (b : Option GoError) :
    errorsJoin (some e) b ≠ none := by
  cases b <;> simp [errorsJoin]

@[simp] theorem errorsJoin_some_eq_none (a : Option GoError) (b : GoError) :
    errorsJoin a (some b) ≠ none := by
  cases a <;> simp [errorsJoin]
