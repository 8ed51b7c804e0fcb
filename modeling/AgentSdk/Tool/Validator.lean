import AgentSdk.Float

/-!
# The tool parameter validator

`DefaultValidator.Validate` checks a tool's parameters against its schema:
every name in `Required` must be a key of the parameters, and, when the
schema has properties, every parameter whose property definition names a
type must hold a value of that type. The definition is read by
`extractExpectedType`: a `map[string]interface{}` gives its `"type"`
string, a `*JSONSchema` its `Type`, anything else no type. The value is
checked by `validateType`, with a table of seven types.

The loop over the parameters is a `range` over a Go map, which visits the
entries in an unspecified order; the model takes that order as an argument
(`order`, a permutation of the entries). `Validate` returns `nil` exactly
when the parameters meet the schema in the code's own terms, in every
order, as long as no visited definition is a nil `*JSONSchema`
(`validate_ok`). Such a definition declares no type, but
`extractExpectedType` reads its `Type` through the nil pointer and panics
(`validate_error`); whether the loop reaches it before a failing parameter
depends on the order.

The code's type table differs from the one a reader of the switch would
write down in two places (`validateType_eq_none_iff`): `"object"` admits a
nil `map[string]interface{}`, since only the untyped nil is `== nil`, and
`"integer"` admits the infinities, since `math.Trunc` keeps them. Outside
these, `Validate` returns `nil` exactly when the parameters conform to the
schema (`validate_eq_ok_none_iff`).

`strconv` is outside the sources: whether a `json.Number` parses as a
`float64` and as an `int64` is taken as an argument (`NumberParse`).
-/

namespace GoString

/-! ## `%q` -/

/-- `n` in lowercase hexadecimal, padded to `width` digits. -/
def hexDigits (width n : Nat) : String :=
  ⟨(List.range width).reverse.map fun i => Nat.digitChar (n / 16 ^ i % 16)⟩

/-- **`strconv.IsPrint`** up to `U+00FF`. Above it Go reads its tables of
printable characters, which the model does not hold: every character
there counts as printable. -/
def isPrint (c : Char) : Bool :=
  if c.val ≤ 0xFF then
    (0x20 ≤ c.val && c.val ≤ 0x7E) || (0xA1 ≤ c.val && c.val ≠ 0xAD)
  else true

/-- **`appendEscapedRune`** for a double-quoted string. -/
def quoteChar (c : Char) : String :=
  if c = '"' ∨ c = '\\' then "\\" ++ c.toString
  else if isPrint c then c.toString
  else if c.val = 7 then "\\a"
  else if c.val = 8 then "\\b"
  else if c.val = 12 then "\\f"
  else if c = '\n' then "\\n"
  else if c = '\r' then "\\r"
  else if c = '\t' then "\\t"
  else if c.val = 11 then "\\v"
  else if c.val < 0x20 ∨ c.val = 0x7F then "\\x" ++ hexDigits 2 c.toNat
  else if c.val < 0x10000 then "\\u" ++ hexDigits 4 c.toNat
  else "\\U" ++ hexDigits 8 c.toNat

/-- **`strconv.Quote`**, which `%q` prints for a string. -/
def quote (s : String) : String :=
  "\"" ++ String.join (s.data.map quoteChar) ++ "\""

example : quote "a\tb\"" = "\"a\\tb\\\"\"" := by decide

end GoString

/-- Whether `m[k]` is present is whether some entry has the key `k`. -/
theorem ValueMap.get?_isSome_iff (m : ValueMap) (k : String) :
    (m.get? k).isSome ↔ ∃ v, (k, v) ∈ m := by
  rw [ValueMap.get?, Option.isSome_map', List.find?_isSome]
  constructor
  · rintro ⟨⟨k', v⟩, hmem, h⟩
    obtain rfl : k' = k := by simpa using h
    exact ⟨v, hmem⟩
  · rintro ⟨v, hv⟩
    exact ⟨(k, v), hv, by simp⟩

namespace Tool

open GoString

/-- **A Go panic**, by its message. -/
structure GoPanic where
  message : String
  deriving DecidableEq, Repr

/-- The panic of a read through a nil pointer. -/
def nilDereference : GoPanic :=
  ⟨"runtime error: invalid memory address or nil pointer dereference"⟩

/-- What a property definition, an `interface{}` in `Properties`, holds:
a `*JSONSchema`, by the `Type` of the schema it points to, the one field
the validator reads of it, or `none` for a nil pointer; or a value of any
other type. -/
inductive PropertyDef where
  | value (v : Value)
  | schema (type? : Option String)
  deriving Repr

/-- **`JSONSchema`**, with the fields `Validate` reads: `Properties` and
`Required`. Its own `Type` is not read. -/
structure JSONSchema where
  Properties : List (String × PropertyDef)
  Required : List String
  deriving Repr

/-- What `json.Number.Float64` and `json.Number.Int64` accept: whether
`strconv.ParseFloat(s, 64)` and `strconv.ParseInt(s, 10, 64)` return a nil
error on the number's text. -/
structure NumberParse where
  float64Ok : String → Bool
  int64Ok : String → Bool

/-! ## The code -/

/-- **`isNumber`**. -/
def isNumber (parse : NumberParse) : Value → Bool
  | .float32 _ | .float64 _ => true
  | .int _ _ => true
  | .number s => parse.float64Ok s
  | _ => false

/-- **`isInteger`**: a float when `math.Trunc` keeps it, a `float32`
widened first. -/
def isInteger (parse : NumberParse) : Value → Bool
  | .int _ _ => true
  | .float32 v => v.toFloat64.truncEq
  | .float64 v => v.truncEq
  | .number s => parse.int64Ok s
  | _ => false

/-- **`validateType`**. The `nil` arm of `"object"` is the `value == nil`
break, which only the untyped nil takes. -/
def validateType (parse : NumberParse) (value : Value) (expected : String) : Option GoError :=
  let mismatch : Option GoError := some ⟨"expected " ++ expected ++ " but got " ++ value.typeName⟩
  match expected with
  | "string" => match value with
    | .string _ => none
    | _ => mismatch
  | "number" => if isNumber parse value then none else mismatch
  | "integer" => if isInteger parse value then none else mismatch
  | "boolean" => match value with
    | .bool _ => none
    | _ => mismatch
  | "object" => match value with
    | .null => mismatch
    | .object _ => none
    | _ => mismatch
  | "array" => match value with
    | .array _ => none
    | _ => mismatch
  | "null" => match value with
    | .null => none
    | _ => mismatch
  | _ => some ⟨"unsupported schema type " ++ quote expected⟩

/-- **`extractExpectedType`**: the `"type"` string of a map, the `Type` of
a `*JSONSchema`, or `""`. A nil `*JSONSchema` panics. -/
def extractExpectedType : PropertyDef → Except GoPanic String
  | .value (.object m) =>
    match ValueMap.get? (m.getD []) "type" with
    | some (.string t) => .ok t
    | _ => .ok ""
  | .value _ => .ok ""
  | .schema (some t) => .ok t
  | .schema none => .error nilDereference

/-- **The body of the loop over the parameters** on the entry
`key: value`: `.ok none` to go on, an error to return, or a panic. -/
def checkProperty (parse : NumberParse) (props : List (String × PropertyDef)) (key : String)
    (value : Value) : Except GoPanic (Option GoError) :=
  match props.lookup key with
  | none => .ok none
  | some propDef => do
    let expectedType ← extractExpectedType propDef
    if expectedType = "" then pure none
    else pure ((validateType parse value expectedType).map fun err =>
      ⟨"field " ++ key ++ ": " ++ err.Error⟩)

/-- **The loop over the parameters**, visiting the entries in `order`. -/
def checkProperties (parse : NumberParse) (props : List (String × PropertyDef)) :
    List (String × Value) → Except GoPanic (Option GoError)
  | [] => .ok none
  | (key, value) :: rest =>
    match checkProperty parse props key value with
    | .ok none => checkProperties parse props rest
    | r => r

/-- **The loop over `Required`**. -/
def checkRequired (params : ValueMap) : List String → Option GoError
  | [] => none
  | field :: rest =>
    if (params.get? field).isSome then checkRequired params rest
    else some ⟨"missing required field: " ++ field⟩

/-- **`DefaultValidator.Validate`**, its loop over the parameters visiting
them in `order`. A nil map reads as an empty one. -/
def validate (parse : NumberParse) (params : Option ValueMap) (schema : Option JSONSchema)
    (order : List (String × Value)) : Except GoPanic (Option GoError) :=
  match schema with
  | none => .ok none
  | some schema =>
    match checkRequired (params.getD []) schema.Required with
    | some err => .ok (some err)
    | none =>
      if schema.Properties.isEmpty then .ok none
      else checkProperties parse schema.Properties order

/-! ## What the validator decides -/

/-- The type a property definition declares: the `"type"` string of a map,
the `Type` of a non-nil `*JSONSchema`. -/
def declaredType : PropertyDef → Option String
  | .value (.object m) =>
    match ValueMap.get? (m.getD []) "type" with
    | some (.string t) => some t
    | _ => none
  | .schema t => t
  | .value _ => none

/-- **The type table**, by the kind of the value: which types admit it. A
type outside the seven admits nothing. -/
def admits (parse : NumberParse) (t : String) : Value → Bool
  | .null => t = "null"
  | .bool _ => t = "boolean"
  | .string _ => t = "string"
  | .int _ _ => t = "number" || t = "integer"
  | .float32 x => t = "number" || t = "integer" && decide x.IsIntegral
  | .float64 x => t = "number" || t = "integer" && decide x.IsIntegral
  | .number s => t = "number" && parse.float64Ok s || t = "integer" && parse.int64Ok s
  | .array _ => t = "array"
  | .object m => t = "object" && m.isSome
  | .objects _ | .other _ => false

/-- The type the definition of `key` declares, if any. -/
def declaredTypeOf (props : List (String × PropertyDef)) (key : String) : Option String :=
  (props.lookup key).bind declaredType

/-- A float that is an infinity. -/
def isInfinite : Value → Bool
  | .float32 x => x.isInf
  | .float64 x => x.isInf
  | _ => false

/-- **The parameters meet the schema**, with `ok t v` the test of a value
against a type: every required name is a key, and, when the schema has
properties, every parameter whose definition declares a non-empty type `t`
holds a value `ok t` accepts. A nil schema is met by any parameters. -/
def MeetsSchema (ok : String → Value → Prop) (params : Option ValueMap) :
    Option JSONSchema → Prop
  | none => True
  | some schema =>
    (∀ field ∈ schema.Required, ∃ v, (field, v) ∈ params.getD []) ∧
      (schema.Properties ≠ [] → ∀ kv ∈ params.getD [], ∀ t,
        declaredTypeOf schema.Properties kv.1 = some t → t ≠ "" → ok t kv.2)

/-- **The parameters conform to the schema**: they meet it under the type
table. -/
def Conforms (parse : NumberParse) : Option ValueMap → Option JSONSchema → Prop :=
  MeetsSchema fun t v => admits parse t v = true

theorem meetsSchema_congr {ok₁ ok₂ : String → Value → Prop} {params : Option ValueMap}
    (schema : Option JSONSchema) (h : ∀ kv ∈ params.getD [], ∀ t, ok₁ t kv.2 ↔ ok₂ t kv.2) :
    MeetsSchema ok₁ params schema ↔ MeetsSchema ok₂ params schema := by
  cases schema with
  | none => rfl
  | some s =>
    refine and_congr_right fun _ => imp_congr_right fun _ => ?_
    exact forall₂_congr fun kv hkv => forall_congr' fun t => by rw [h kv hkv t]

/-! ## The type table of the code -/

variable (parse : NumberParse)

theorem isNumber_eq_admits (value : Value) : isNumber parse value = admits parse "number" value := by
  cases value <;> simp [isNumber, admits]

theorem isInteger_eq (value : Value) :
    isInteger parse value = (admits parse "integer" value || isInfinite value) := by
  cases value with
  | float32 x =>
    rw [Bool.eq_iff_iff]
    simp [isInteger, admits, isInfinite, Go.Float32.truncEq_toFloat64_iff, or_comm]
  | float64 x =>
    rw [Bool.eq_iff_iff]
    simp [isInteger, admits, isInfinite, Go.Float64.truncEq_iff, or_comm]
  | _ => simp [isInteger, admits, isInfinite]

/-- **`validateType` accepts what the table admits** and, besides, a nil
map as an `"object"` and an infinity as an `"integer"`. -/
theorem validateType_eq_none_iff (value : Value) (t : String) :
    validateType parse value t = none ↔
      admits parse t value = true ∨ (t = "object" ∧ value = .object none) ∨
        (t = "integer" ∧ isInfinite value = true) := by
  unfold validateType
  split
  · cases value <;> simp [admits]
  · simp [isNumber_eq_admits]
  · rw [isInteger_eq]
    cases admits parse "integer" value <;> simp
  · cases value <;> simp [admits]
  · cases value <;> simp [admits, Option.isSome_iff_ne_none, ne_or_eq]
  · cases value <;> simp [admits]
  · cases value <;> simp [admits]
  · rename_i h1 h2 h3 h4 h5 h6 h7
    have hne : t ≠ "string" ∧ t ≠ "number" ∧ t ≠ "integer" ∧ t ≠ "boolean" ∧ t ≠ "object" ∧
        t ≠ "array" ∧ t ≠ "null" := ⟨h1, h2, h3, h4, h5, h6, h7⟩
    cases value <;> simp [admits, hne]

theorem validateType_eq_none_iff_admits {value : Value} (hnil : value ≠ .object none)
    (hinf : isInfinite value = false) (t : String) :
    validateType parse value t = none ↔ admits parse t value = true := by
  simp [validateType_eq_none_iff, hnil, hinf]

/-- The errors of `validateType`: a mismatch, or a type outside the table. -/
theorem validateType_eq_some {value : Value} {t : String} {err : GoError}
    (h : validateType parse value t = some err) :
    err.Error = "expected " ++ t ++ " but got " ++ value.typeName ∨
      err.Error = "unsupported schema type " ++ quote t := by
  unfold validateType at h
  split at h <;> (try split at h) <;> cases h <;> simp

/-! ## One pass of the loop -/

theorem extractExpectedType_of_ne_nil {d : PropertyDef} (hd : d ≠ .schema none) :
    extractExpectedType d = .ok ((declaredType d).getD "") := by
  rcases d with ⟨_ | _ | _ | _ | _ | _ | _ | _ | m | _ | _⟩ | _ | t
  all_goals first
    | rfl
    | exact absurd rfl hd
    | (simp only [extractExpectedType, declaredType]; split <;> rfl)

variable {parse}

/-- One pass panics only at a nil `*JSONSchema`. -/
theorem checkProperty_error {props : List (String × PropertyDef)} {key : String} {value : Value}
    {p : GoPanic} (h : checkProperty parse props key value = .error p) :
    p = nilDereference ∧ props.lookup key = some (.schema none) := by
  unfold checkProperty at h
  split at h
  · cases h
  · rename_i d hd
    by_cases hnil : d = .schema none
    · subst hnil
      exact ⟨(Except.error.inj h).symm, hd⟩
    · rw [extractExpectedType_of_ne_nil hnil] at h
      dsimp only [bind, Except.bind] at h
      split_ifs at h <;> cases h

/-- The error of one pass names the parameter and wraps the error of
`validateType` on its declared type. -/
theorem checkProperty_some {props : List (String × PropertyDef)} {key : String} {value : Value}
    {e : GoError} (h : checkProperty parse props key value = .ok (some e)) :
    ∃ t err, declaredTypeOf props key = some t ∧ validateType parse value t = some err ∧
      e.Error = "field " ++ key ++ ": " ++ err.Error := by
  unfold checkProperty at h
  split at h
  · cases h
  · rename_i d hd
    by_cases hnil : d = .schema none
    · subst hnil
      cases h
    · rw [extractExpectedType_of_ne_nil hnil] at h
      dsimp only [bind, Except.bind] at h
      split_ifs at h
      · cases h
      · cases hv : validateType parse value ((declaredType d).getD "") with
        | none => rw [hv] at h; cases h
        | some err =>
          rw [hv] at h
          cases h
          refine ⟨(declaredType d).getD "", err, ?_, hv, rfl⟩
          cases ht : declaredType d <;> simp_all [declaredTypeOf]

variable (parse)

/-- Away from a nil `*JSONSchema`, one pass goes on exactly when the value
passes its declared type. -/
theorem checkProperty_ok {props : List (String × PropertyDef)} {key : String} (value : Value)
    (hnil : props.lookup key ≠ some (.schema none)) :
    ∃ r, checkProperty parse props key value = .ok r ∧
      (r = none ↔ ∀ t, declaredTypeOf props key = some t → t ≠ "" →
        validateType parse value t = none) := by
  unfold checkProperty declaredTypeOf
  cases hd : props.lookup key with
  | none => exact ⟨none, rfl, iff_of_true rfl fun _ h => Option.noConfusion h⟩
  | some d =>
    rw [hd] at hnil
    dsimp only [Option.some_bind]
    rw [extractExpectedType_of_ne_nil (fun h => hnil (h ▸ rfl))]
    cases declaredType d with
    | none => exact ⟨none, rfl, iff_of_true rfl fun _ h => Option.noConfusion h⟩
    | some t =>
      by_cases h0 : t = ""
      · refine ⟨none, by simp only [Option.getD_some, bind, Except.bind, if_pos h0]; rfl,
          iff_of_true rfl ?_⟩
        rintro _ ⟨⟩ h
        exact absurd h0 h
      · refine ⟨_, by simp only [Option.getD_some, bind, Except.bind, if_neg h0]; rfl, ?_⟩
        cases hv : validateType parse value t
        · exact iff_of_true rfl fun _ h _ => Option.some.inj h ▸ hv
        · exact iff_of_false (Option.some_ne_none _) fun h => Option.some_ne_none _ (hv ▸ h t rfl h0)

/-! ## The loops -/

theorem checkRequired_eq_none_iff (params : ValueMap) (required : List String) :
    checkRequired params required = none ↔ ∀ field ∈ required, ∃ v, (field, v) ∈ params := by
  induction required with
  | nil => exact iff_of_true rfl fun _ h => absurd h (List.not_mem_nil _)
  | cons field rest ih =>
    rw [checkRequired, List.forall_mem_cons, ← ValueMap.get?_isSome_iff, ← ih]
    by_cases h : (params.get? field).isSome
    · rw [if_pos h]
      exact ⟨fun h' => ⟨h, h'⟩, And.right⟩
    · rw [if_neg h]
      exact iff_of_false (Option.some_ne_none _) fun h' => h h'.1

/-- The error of the required loop names the first required field missing. -/
theorem checkRequired_some {params : ValueMap} {required : List String} {e : GoError}
    (h : checkRequired params required = some e) :
    ∃ field ∈ required, params.get? field = none ∧ e.Error = "missing required field: " ++ field := by
  induction required with
  | nil => cases h
  | cons field rest ih =>
    rw [checkRequired] at h
    split_ifs at h with hf
    · obtain ⟨f, hmem, hnone, he⟩ := ih h
      exact ⟨f, .tail _ hmem, hnone, he⟩
    · cases h
      exact ⟨field, .head _, by simpa using hf, rfl⟩

variable {parse}

/-- **The loop panics only at a nil `*JSONSchema`** of a parameter it
visits. -/
theorem checkProperties_error {props : List (String × PropertyDef)} {order : List (String × Value)}
    {p : GoPanic} (h : checkProperties parse props order = .error p) :
    p = nilDereference ∧ ∃ kv ∈ order, props.lookup kv.1 = some (.schema none) := by
  induction order with
  | nil => cases h
  | cons kv rest ih =>
    obtain ⟨key, value⟩ := kv
    rw [checkProperties] at h
    split at h
    · obtain ⟨hp, kv, hkv, hl⟩ := ih h
      exact ⟨hp, kv, .tail _ hkv, hl⟩
    · obtain ⟨hp, hl⟩ := checkProperty_error h
      exact ⟨hp, (key, value), .head _, hl⟩

/-- The error of the loop is the error of one pass. -/
theorem checkProperties_some {props : List (String × PropertyDef)} {order : List (String × Value)}
    {e : GoError} (h : checkProperties parse props order = .ok (some e)) :
    ∃ kv ∈ order, checkProperty parse props kv.1 kv.2 = .ok (some e) := by
  induction order with
  | nil => cases h
  | cons kv rest ih =>
    obtain ⟨key, value⟩ := kv
    rw [checkProperties] at h
    split at h
    · obtain ⟨kv, hkv, hk⟩ := ih h
      exact ⟨kv, .tail _ hkv, hk⟩
    · exact ⟨(key, value), .head _, h⟩

variable (parse)

/-- **Away from a nil `*JSONSchema`, the loop returns** and returns `nil`
exactly when every parameter it visits passes its declared type. -/
theorem checkProperties_ok {props : List (String × PropertyDef)} {order : List (String × Value)}
    (hnil : ∀ kv ∈ order, props.lookup kv.1 ≠ some (.schema none)) :
    ∃ r, checkProperties parse props order = .ok r ∧
      (r = none ↔ ∀ kv ∈ order, ∀ t, declaredTypeOf props kv.1 = some t → t ≠ "" →
        validateType parse kv.2 t = none) := by
  induction order with
  | nil => simp [checkProperties]
  | cons kv rest ih =>
    obtain ⟨key, value⟩ := kv
    obtain ⟨r₁, h₁, hr₁⟩ := checkProperty_ok parse value (hnil _ (.head _))
    obtain ⟨r, h, hr⟩ := ih fun kv hkv => hnil kv (.tail _ hkv)
    rw [checkProperties, h₁, List.forall_mem_cons, ← hr₁, ← hr]
    cases r₁ with
    | none => exact ⟨r, h, by simp⟩
    | some e => exact ⟨some e, rfl, by simp⟩

/-! ## `Validate` -/

section Validate

variable {params : Option ValueMap} {schema : Option JSONSchema} {order : List (String × Value)}

/-- **`Validate` panics only at a nil `*JSONSchema`** definition of a
parameter. -/
theorem validate_error {p : GoPanic} (h : validate parse params schema order = .error p) :
    p = nilDereference ∧
      ∃ s, schema = some s ∧ ∃ kv ∈ order, s.Properties.lookup kv.1 = some (.schema none) := by
  cases schema with
  | none => cases h
  | some s =>
    rw [validate] at h
    split at h
    · cases h
    · by_cases hp : s.Properties.isEmpty
      · rw [if_pos hp] at h
        cases h
      · rw [if_neg hp] at h
        obtain ⟨hp, kv, hkv, hl⟩ := checkProperties_error h
        exact ⟨hp, s, rfl, kv, hkv, hl⟩

/-- **Every error of `Validate` names a field**: the first required name
missing from the parameters, or a parameter whose value fails its declared
type, with the error of `validateType`. -/
theorem validate_error_text {e : GoError} (h : validate parse params schema order = .ok (some e)) :
    ∃ s, schema = some s ∧
      ((∃ field ∈ s.Required, (params.getD []).get? field = none ∧
          e.Error = "missing required field: " ++ field) ∨
        ∃ kv ∈ order, ∃ t err, declaredTypeOf s.Properties kv.1 = some t ∧
          validateType parse kv.2 t = some err ∧ e.Error = "field " ++ kv.1 ++ ": " ++ err.Error) := by
  cases schema with
  | none => cases h
  | some s =>
    refine ⟨s, rfl, ?_⟩
    rw [validate] at h
    split at h
    · rename_i err hreq
      cases h
      exact .inl (checkRequired_some hreq)
    · by_cases hp : s.Properties.isEmpty
      · rw [if_pos hp] at h
        cases h
      · rw [if_neg hp] at h
        obtain ⟨kv, hkv, hk⟩ := checkProperties_some h
        exact .inr ⟨kv, hkv, checkProperty_some hk⟩

/-- **Away from a nil `*JSONSchema`, `Validate` returns**, in any order of
the parameters, and returns `nil` exactly when the parameters meet the
schema under `validateType`. -/
theorem validate_ok (horder : order.Perm (params.getD []))
    (hnil : ∀ s, schema = some s →
      ∀ kv ∈ params.getD [], s.Properties.lookup kv.1 ≠ some (.schema none)) :
    ∃ r, validate parse params schema order = .ok r ∧
      (r = none ↔ MeetsSchema (fun t v => validateType parse v t = none) params schema) := by
  cases schema with
  | none => exact ⟨none, rfl, by simp [MeetsSchema]⟩
  | some s =>
    rw [validate, MeetsSchema, ← checkRequired_eq_none_iff]
    cases hreq : checkRequired (params.getD []) s.Required with
    | some err =>
      exact ⟨some err, rfl, iff_of_false (Option.some_ne_none _) fun h => Option.some_ne_none _ h.1⟩
    | none =>
      by_cases hp : s.Properties = []
      · exact ⟨none, by rw [hp]; rfl, iff_of_true rfl ⟨rfl, fun h => absurd hp h⟩⟩
      · obtain ⟨r, h, hr⟩ := checkProperties_ok parse fun kv hkv => hnil s rfl kv (horder.subset hkv)
        refine ⟨r, by rw [if_neg (mt List.isEmpty_iff.mp hp), h], ?_⟩
        simp only [hr, horder.mem_iff, true_and, ne_eq, hp, not_false_eq_true, forall_const]

/-- **`Validate` returns `nil` exactly when the parameters conform to the
schema**, in any order, when no parameter has a nil `*JSONSchema`
definition and none holds a nil map or an infinite float. -/
theorem validate_eq_ok_none_iff (horder : order.Perm (params.getD []))
    (hnil : ∀ s, schema = some s →
      ∀ kv ∈ params.getD [], s.Properties.lookup kv.1 ≠ some (.schema none))
    (hplain : ∀ kv ∈ params.getD [], kv.2 ≠ .object none ∧ isInfinite kv.2 = false) :
    validate parse params schema order = .ok none ↔ Conforms parse params schema := by
  obtain ⟨r, h, hr⟩ := validate_ok parse horder hnil
  rw [h, Except.ok.injEq, hr, Conforms]
  exact meetsSchema_congr schema fun kv hkv =>
    validateType_eq_none_iff_admits parse (hplain kv hkv).1 (hplain kv hkv).2

end Validate

/-! ## A nil `*JSONSchema` -/

/-- **A nil `*JSONSchema` definition panics `Validate`.** The parameters
`{"a": 1}` conform to the schema whose only property `"a"` is defined by a
nil `*JSONSchema`, which declares no type, and `Validate` panics on them.
With a second parameter `"b": "x"` defined as an `"integer"`, the verdict
depends on the order: visiting `"a"` first panics, visiting `"b"` first
returns its type error. -/
theorem validate_nil_schema_panics :
    let parse : NumberParse := ⟨fun _ => false, fun _ => false⟩
    let params₁ : ValueMap := [("a", .int .int 1)]
    let schema₁ : JSONSchema := ⟨[("a", .schema none)], []⟩
    let params₂ : ValueMap := [("a", .int .int 1), ("b", .string "x")]
    let schema₂ : JSONSchema :=
      ⟨[("a", .schema none), ("b", .value (.object (some [("type", .string "integer")])))], []⟩
    (Conforms parse (some params₁) (some schema₁) ∧
      validate parse (some params₁) (some schema₁) params₁ = .error nilDereference) ∧
    validate parse (some params₂) (some schema₂) params₂ = .error nilDereference ∧
    validate parse (some params₂) (some schema₂) params₂.reverse =
      .ok (some ⟨"field b: expected integer but got string"⟩) := by
  intro parse params₁ schema₁ params₂ schema₂
  refine ⟨⟨?_, rfl⟩, rfl, rfl⟩
  simp [Conforms, MeetsSchema, params₁, schema₁, declaredTypeOf, declaredType]

end Tool
