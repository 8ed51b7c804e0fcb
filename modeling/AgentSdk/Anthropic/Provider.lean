import AgentSdk.Anthropic.Convert
import AgentSdk.Float

/-!
# Configuring an Anthropic model

`NewModel` turns a `ModelConfig` into an `AnthropicModel`: it trims the
API key and the model name, falling back to `Name` for the latter, and
refuses either empty; it sanitises the base URL, builds the default
headers and lays the configured ones over them, and reads the request
options out of `Extra` with `parseModelOptions`. `buildPayload` then turns a
conversation into a `MessageRequest` with those options.

## The options

`parseModelOptions` ranges over the `Extra` map and, for each key whose
lower case names an option, converts the value and sets the option. Go
visits a map in an order of its choosing, so the model takes that order as
an argument, any listing of the entries. When no two keys name the same
option, as `max_tokens` and `Max_Tokens` would, each option is read from
the one key that names it, whatever the order (`parseModelOptions_eq`);
with two such keys, the one visited last wins.

The conversions the code leaves to the standard library, those of
`strconv`, `json.Number` and `fmt.Sprint`, and Go's conversions between
floats and integers, are arguments (`Conversions`). `strings.ToLower` is
the model of `Text.lean`, which agrees with Go on whether a key lowers to
one of the option names. The HTTP client and the timeout are left out: no
option or request field depends on them.
-/

open GoString

namespace Anthropic

/-- **`defaultBaseURL`**. -/
def defaultBaseURL : String := "https://api.anthropic.com"

/-- **`anthropicVersion`**. -/
def anthropicVersion : String := "2023-06-01"

/-- **`defaultMaxTokens`**. -/
def defaultMaxTokens : Int := 1024

/-- **`userAgent`**. -/
def userAgent : String := "agentsdk-go/anthropic"

/-- **`modelOptions`**: a nil pointer is `none`. -/
structure ModelOptions where
  MaxTokens : Int
  Temperature : Option Go.Float64
  TopP : Option Go.Float64
  TopK : Option Int
  System : String
  Metadata : Option ValueMap

/-- The conversions of the standard library the options are read with. -/
structure Conversions where
  /-- `int(v)` of a `float64`. -/
  floatToInt : Go.Float64 → Int
  /-- `float64(v)` of an `int` or an `int64`. -/
  intToFloat : Int → Go.Float64
  /-- `strconv.Atoi`, when it succeeds. -/
  atoi : String → Option Int
  /-- `strconv.ParseFloat(s, 64)`, when it succeeds. -/
  parseFloat : String → Option Go.Float64
  /-- `json.Number.Int64`, when it succeeds. -/
  numberInt64 : String → Option Int
  /-- `json.Number.Float64`, when it succeeds. -/
  numberFloat64 : String → Option Go.Float64
  /-- `fmt.Sprint`. -/
  sprint : Value → String

variable (conv : Conversions)

/-- **`toInt`**, with its `ok`: the signed integer kinds, the floats, a
string `strconv.Atoi` reads once trimmed, and a `json.Number`. -/
def toInt : Value → Option Int
  | .int .int v | .int .int8 v | .int .int16 v | .int .int32 v | .int .int64 v => some v
  | .float32 x => some (conv.floatToInt x.toFloat64)
  | .float64 x => some (conv.floatToInt x)
  | .string s => conv.atoi (trimSpace s)
  | .number s => conv.numberInt64 s
  | _ => none

/-- **`toFloat`**, with its `ok`: the floats, an `int` or an `int64`, a
`json.Number`, and a string `strconv.ParseFloat` reads once trimmed. -/
def toFloat : Value → Option Go.Float64
  | .float32 x => some x.toFloat64
  | .float64 x => some x
  | .int .int v | .int .int64 v => some (conv.intToFloat v)
  | .number s => conv.numberFloat64 s
  | .string s => conv.parseFloat (trimSpace s)
  | _ => none

/-- **`cloneMetadata`**: nil for an empty map, a copy otherwise. -/
def cloneMetadata (m : ValueMap) : Option ValueMap :=
  if m.isEmpty then none else some m

/-- The options before any key is read. -/
def ModelOptions.default : ModelOptions := ⟨defaultMaxTokens, none, none, none, "", none⟩

/-- **The body of the loop of `parseModelOptions`** on the entry
`key: val`. -/
def parseOption (opts : ModelOptions) (entry : String × Value) : ModelOptions :=
  let key := toLower entry.1
  if key = "max_tokens" then
    match toInt conv entry.2 with
    | some v => { opts with MaxTokens := v }
    | none => opts
  else if key = "temperature" then
    match toFloat conv entry.2 with
    | some v => { opts with Temperature := some v }
    | none => opts
  else if key = "top_p" then
    match toFloat conv entry.2 with
    | some v => { opts with TopP := some v }
    | none => opts
  else if key = "top_k" then
    match toInt conv entry.2 with
    | some v => { opts with TopK := some v }
    | none => opts
  else if key = "system" then { opts with System := conv.sprint entry.2 }
  else if key = "metadata" then
    match entry.2 with
    | .object m => { opts with Metadata := cloneMetadata (m.getD []) }
    | _ => opts
  else opts

/-- **`parseModelOptions`**, visiting the entries of `extra` in `order`. -/
def parseModelOptions (extra : ValueMap) (order : List (String × Value)) : ModelOptions :=
  if extra.isEmpty then ModelOptions.default
  else order.foldl (parseOption conv) ModelOptions.default

/-! ## The model -/

/-- **`ModelConfig`**, with the fields `NewModel` and the factory read. -/
structure ModelConfig where
  APIKey : String
  Model : String
  Name : String
  Provider : String
  BaseURL : String
  Headers : List (String × String)
  Extra : ValueMap

/-- **`AnthropicModel`**, without its HTTP client. -/
structure AnthropicModel where
  baseURL : String
  model : String
  headers : List (String × String)
  opts : ModelOptions

/-- **`sanitizeBaseURL`**. -/
def sanitizeBaseURL (base : String) : String :=
  let trimmed := trimSpace base
  if trimmed = "" then defaultBaseURL
  else
    let trimmed := trimRight trimmed "/"
    if trimmed = "" then defaultBaseURL else trimmed

/-- **`buildDefaultHeaders`**. -/
def buildDefaultHeaders (apiKey : String) : List (String × String) :=
  [("X-API-Key", apiKey), ("Anthropic-Version", anthropicVersion),
    ("Content-Type", "application/json"), ("User-Agent", userAgent)]

/-- The loop of `NewModel` over the configured headers, in `order`. -/
def mergeHeaders (headers : List (String × String)) (order : List (String × String)) :
    List (String × String) :=
  order.foldl (fun h kv => if trimSpace kv.1 = "" ∨ kv.2 = "" then h else mapSet h kv.1 kv.2)
    headers

/-- **`NewModel`**, with what `ctx.Err()` returns, the order in which the
loop visits `cfg.Headers` and the one in which `parseModelOptions` visits
`cfg.Extra`. -/
def newModel (ctxErr : Option GoError) (cfg : ModelConfig) (headerOrder : List (String × String))
    (extraOrder : List (String × Value)) : Except GoError AnthropicModel :=
  match ctxErr with
  | some err => .error err
  | none =>
    let apiKey := trimSpace cfg.APIKey
    if apiKey = "" then .error ⟨"anthropic api key is required"⟩
    else
      let modelName := if trimSpace cfg.Model = "" then trimSpace cfg.Name else trimSpace cfg.Model
      if modelName = "" then .error ⟨"anthropic model name is required"⟩
      else .ok ⟨sanitizeBaseURL cfg.BaseURL, modelName,
        mergeHeaders (buildDefaultHeaders apiKey) headerOrder,
        parseModelOptions conv cfg.Extra extraOrder⟩

/-- **`MessageRequest`**; a nil pointer and an omitted field are `none`. -/
structure MessageRequest where
  Model : String
  Messages : List MessageParam
  System : String
  MaxTokens : Int
  Temperature : Option Go.Float64
  TopP : Option Go.Float64
  TopK : Option Int
  Stream : Bool
  Metadata : Option ValueMap

/-- **`buildPayload`**. -/
def AnthropicModel.buildPayload (m : AnthropicModel) (messages : List Model.Message)
    (stream : Bool) : MessageRequest :=
  let (systemText, chatMessages) := toAnthropicMessages messages
  let systemText :=
    if m.opts.System ≠ "" then
      if systemText ≠ "" then systemText ++ "\n\n" ++ m.opts.System else m.opts.System
    else systemText
  { Model := m.model, Messages := chatMessages, System := systemText,
    MaxTokens := if m.opts.MaxTokens ≤ 0 then defaultMaxTokens else m.opts.MaxTokens,
    Temperature := m.opts.Temperature, TopP := m.opts.TopP, TopK := m.opts.TopK,
    Stream := stream, Metadata := m.opts.Metadata.bind cloneMetadata }

/-! ## The options `Extra` declares -/

/-- The names of the options. -/
def optionNames : List String := ["max_tokens", "temperature", "top_p", "top_k", "system", "metadata"]

/-- The value of the key of `extra` whose lower case is `name`. -/
def optionValue (extra : ValueMap) (name : String) : Option Value :=
  (extra.find? fun e => toLower e.1 = name).map (·.2)

/-- What a `metadata` value sets the option to. -/
def metadataOf : Value → Option (Option ValueMap)
  | .object m => some (cloneMetadata (m.getD []))
  | _ => none

/-- **The options `Extra` declares**: each read from the key that names
it, the default when there is none or its value does not convert. -/
def declaredOptions (extra : ValueMap) : ModelOptions where
  MaxTokens := ((optionValue extra "max_tokens").bind (toInt conv)).getD defaultMaxTokens
  Temperature := (optionValue extra "temperature").bind (toFloat conv)
  TopP := (optionValue extra "top_p").bind (toFloat conv)
  TopK := (optionValue extra "top_k").bind (toInt conv)
  System := ((optionValue extra "system").map conv.sprint).getD ""
  Metadata := ((optionValue extra "metadata").bind metadataOf).getD none

/-- **One entry sets at most the option its key names.** -/
theorem parseOption_eq (o : ModelOptions) (e : String × Value) :
    parseOption conv o e =
      { MaxTokens :=
          if toLower e.1 = "max_tokens" then (toInt conv e.2).getD o.MaxTokens else o.MaxTokens
        Temperature :=
          if toLower e.1 = "temperature" then (toFloat conv e.2).or o.Temperature
          else o.Temperature
        TopP := if toLower e.1 = "top_p" then (toFloat conv e.2).or o.TopP else o.TopP
        TopK := if toLower e.1 = "top_k" then (toInt conv e.2).or o.TopK else o.TopK
        System := if toLower e.1 = "system" then conv.sprint e.2 else o.System
        Metadata :=
          if toLower e.1 = "metadata" then (metadataOf e.2).getD o.Metadata else o.Metadata } := by
  unfold parseOption
  generalize toLower e.1 = key
  by_cases h₁ : key = "max_tokens"
  · subst h₁; cases toInt conv e.2 <;> rfl
  by_cases h₂ : key = "temperature"
  · subst h₂; cases toFloat conv e.2 <;> rfl
  by_cases h₃ : key = "top_p"
  · subst h₃; cases toFloat conv e.2 <;> rfl
  by_cases h₄ : key = "top_k"
  · subst h₄; cases toInt conv e.2 <;> rfl
  by_cases h₅ : key = "system"
  · subst h₅; rfl
  by_cases h₆ : key = "metadata"
  · subst h₆; cases e.2 <;> rfl
  simp only [h₁, h₂, h₃, h₄, h₅, h₆, ↓reduceIte]

section Named

variable {β : Type} (name : String) (f : Value → β → β) (hf : ∀ v b, f v (f v b) = f v b)

/-- The fold that applies `f` on the entries whose key lowers to `name`. -/
def foldNamed (l : ValueMap) (b : β) : β :=
  l.foldl (fun b e => if toLower e.1 = name then f e.2 b else b) b

include hf in
theorem foldNamed_idem (e : String × Value) :
    ∀ (l : ValueMap) (b : β), (∀ c ∈ l, toLower c.1 = name → c = e) →
      foldNamed name f l (f e.2 b) = f e.2 b
  | [], _, _ => rfl
  | c :: l, b, hc => by
    have ih := foldNamed_idem e l b fun c' h => hc c' (List.mem_cons_of_mem _ h)
    by_cases hcn : toLower c.1 = name
    · rw [foldNamed, List.foldl_cons, if_pos hcn, hc c (List.mem_cons_self _ _) hcn, hf]
      exact ih
    · rwa [foldNamed, List.foldl_cons, if_neg hcn]

include hf in
/-- **A fold that touches a value only through the entries that name it**,
when those are all one entry, does what that entry does, once. -/
theorem foldNamed_eq :
    ∀ (l : ValueMap) (b : β),
      (∀ a ∈ l, ∀ c ∈ l, toLower a.1 = name → toLower c.1 = name → a = c) →
      foldNamed name f l b =
        match l.find? fun e => toLower e.1 = name with
        | some e => f e.2 b
        | none => b
  | [], _, _ => rfl
  | e :: l, b, huniq => by
    by_cases he : toLower e.1 = name
    · rw [foldNamed, List.foldl_cons, if_pos he, List.find?_cons_of_pos _ (by simpa using he)]
      exact foldNamed_idem name f hf e l b fun c hc hcn =>
        huniq c (List.mem_cons_of_mem _ hc) e (List.mem_cons_self _ _) hcn he
    · rw [foldNamed, List.foldl_cons, if_neg he, List.find?_cons_of_neg _ (by simpa using he)]
      exact foldNamed_eq l b fun a ha c hc =>
        huniq a (List.mem_cons_of_mem _ ha) c (List.mem_cons_of_mem _ hc)

end Named

/-- The entry of one name is the same in any listing of the entries, when
only one entry has it. -/
theorem find?_perm_named {l₁ l₂ : ValueMap} (h : l₁.Perm l₂) (name : String)
    (huniq : ∀ a ∈ l₁, ∀ c ∈ l₁, toLower a.1 = name → toLower c.1 = name → a = c) :
    l₁.find? (fun e => toLower e.1 = name) = l₂.find? (fun e => toLower e.1 = name) := by
  cases h₁ : l₁.find? (fun e => toLower e.1 = name) with
  | none =>
    rw [List.find?_eq_none] at h₁
    exact (List.find?_eq_none.mpr fun x hx => h₁ x (h.mem_iff.mpr hx)).symm
  | some a =>
    have ha := List.find?_some h₁
    cases h₂ : l₂.find? (fun e => toLower e.1 = name) with
    | none =>
      rw [List.find?_eq_none] at h₂
      exact absurd ha (h₂ a (h.mem_iff.mp (List.mem_of_find?_eq_some h₁)))
    | some c =>
      have hc := List.find?_some h₂
      simp only [decide_eq_true_eq] at ha hc
      rw [huniq a (List.mem_of_find?_eq_some h₁) c
        (h.mem_iff.mpr (List.mem_of_find?_eq_some h₂)) ha hc]

section Fields

variable {extra order : ValueMap}

theorem parseModelOptions_eq_foldl (horder : order.Perm extra) :
    parseModelOptions conv extra order = order.foldl (parseOption conv) ModelOptions.default := by
  unfold parseModelOptions
  split_ifs with h
  · rw [List.isEmpty_iff.mp h, List.perm_nil] at horder
    rw [horder]
    rfl
  · rfl

/-- One option after the loop, when one key names it. -/
theorem foldl_parseOption_field {β : Type} (π : ModelOptions → β) (name : String)
    (f : Value → β → β) (hf : ∀ v b, f v (f v b) = f v b)
    (hπ : ∀ o e, π (parseOption conv o e) = if toLower e.1 = name then f e.2 (π o) else π o)
    (horder : order.Perm extra)
    (huniq : ∀ a ∈ extra, ∀ c ∈ extra, toLower a.1 = name → toLower c.1 = name → a = c)
    (o : ModelOptions) :
    π (order.foldl (parseOption conv) o) =
      match extra.find? (fun e => toLower e.1 = name) with
      | some e => f e.2 (π o)
      | none => π o := by
  have hfold : ∀ (l : ValueMap) (o : ModelOptions),
      π (l.foldl (parseOption conv) o) = foldNamed name f l (π o) := by
    intro l
    induction l with
    | nil => intro o; rfl
    | cons e l ih => intro o; rw [List.foldl_cons, ih, hπ]; rfl
  rw [hfold, foldNamed_eq name f hf order _ fun a ha c hc =>
    huniq a (horder.mem_iff.mp ha) c (horder.mem_iff.mp hc),
    find?_perm_named horder name fun a ha c hc =>
      huniq a (horder.mem_iff.mp ha) c (horder.mem_iff.mp hc)]

end Fields

/-- **The options do not depend on the order of the map.** When no two
keys of `Extra` name the same option, `parseModelOptions` gives, in any
order of its loop, the options `Extra` declares: each read from the one
key that names it. -/
theorem parseModelOptions_eq {extra order : ValueMap} (horder : order.Perm extra)
    (huniq : ∀ a ∈ extra, ∀ c ∈ extra, toLower a.1 = toLower c.1 → toLower a.1 ∈ optionNames →
      a = c) :
    parseModelOptions conv extra order = declaredOptions conv extra := by
  have hu : ∀ name ∈ optionNames, ∀ a ∈ extra, ∀ c ∈ extra,
      toLower a.1 = name → toLower c.1 = name → a = c := fun name hn a ha c hc hna hnc =>
    huniq a ha c hc (hna.trans hnc.symm) (hna ▸ hn)
  rw [parseModelOptions_eq_foldl conv horder]
  have field := fun {β : Type} (π : ModelOptions → β) (name : String) (hn : name ∈ optionNames)
      (f : Value → β → β) hf hπ =>
    foldl_parseOption_field conv π name f hf hπ horder (hu name hn) ModelOptions.default
  have hMax := field (·.MaxTokens) "max_tokens" (by decide) (fun v b => (toInt conv v).getD b)
    (fun v b => by dsimp only; cases toInt conv v <;> rfl) (fun o e => by rw [parseOption_eq])
  have hTemp := field (·.Temperature) "temperature" (by decide) (fun v b => (toFloat conv v).or b)
    (fun v b => by dsimp only; cases toFloat conv v <;> rfl) (fun o e => by rw [parseOption_eq])
  have hTopP := field (·.TopP) "top_p" (by decide) (fun v b => (toFloat conv v).or b)
    (fun v b => by dsimp only; cases toFloat conv v <;> rfl) (fun o e => by rw [parseOption_eq])
  have hTopK := field (·.TopK) "top_k" (by decide) (fun v b => (toInt conv v).or b)
    (fun v b => by dsimp only; cases toInt conv v <;> rfl) (fun o e => by rw [parseOption_eq])
  have hSys := field (·.System) "system" (by decide) (fun v _ => conv.sprint v)
    (fun _ _ => rfl) (fun o e => by rw [parseOption_eq])
  have hMeta := field (·.Metadata) "metadata" (by decide) (fun v b => (metadataOf v).getD b)
    (fun v b => by dsimp only; cases metadataOf v <;> rfl) (fun o e => by rw [parseOption_eq])
  simp only [declaredOptions, optionValue]
  rcases hres : order.foldl (parseOption conv) ModelOptions.default with ⟨a, b, c, d, e, f⟩
  rw [hres] at hMax hTemp hTopP hTopK hSys hMeta
  simp only at hMax hTemp hTopP hTopK hSys hMeta
  rw [hMax, hTemp, hTopP, hTopK, hSys, hMeta]
  congr 1
  · cases extra.find? (fun e => toLower e.1 = "max_tokens") <;> rfl
  · cases extra.find? (fun e => toLower e.1 = "temperature") <;> simp [ModelOptions.default]
  · cases extra.find? (fun e => toLower e.1 = "top_p") <;> simp [ModelOptions.default]
  · cases extra.find? (fun e => toLower e.1 = "top_k") <;> simp [ModelOptions.default]
  · cases extra.find? (fun e => toLower e.1 = "system") <;> rfl
  · cases extra.find? (fun e => toLower e.1 = "metadata") <;> rfl

/-- Two options under keys in capitals, read in the reverse of the map's
listing. -/
theorem parseModelOptions_eq_capitals :
    let conv : Conversions :=
      ⟨fun _ => 0, fun _ => ⟨0⟩, fun _ => none, fun _ => none, fun _ => none, fun _ => none,
        fun _ => ""⟩
    let extra : ValueMap := [("MAX_TOKENS", .int .int 2048), ("Top_K", .int .int64 5)]
    extra.reverse.Perm extra ∧
      (∀ a ∈ extra, ∀ c ∈ extra, toLower a.1 = toLower c.1 → toLower a.1 ∈ optionNames →
        a = c) ∧
      parseModelOptions conv extra extra.reverse = declaredOptions conv extra := by
  intro conv extra
  have huniq : ∀ a ∈ extra, ∀ c ∈ extra, toLower a.1 = toLower c.1 →
      toLower a.1 ∈ optionNames → a = c := by
    simp only [extra, List.mem_cons, List.mem_singleton, List.not_mem_nil, or_false]
    rintro a (rfl | rfl) c (rfl | rfl) h - <;> first | rfl | exact absurd h (by decide)
  exact ⟨List.reverse_perm _, huniq, parseModelOptions_eq conv (List.reverse_perm _) huniq⟩

/-! ## The base URL -/

/-- **A model's base URL is never empty and never ends in `/`**, so the
endpoint `baseURL + "/v1/messages"` has one slash at the join, whatever the
configuration holds. -/
theorem sanitizeBaseURL_spec (base : String) :
    sanitizeBaseURL base ≠ "" ∧ (sanitizeBaseURL base).data.getLast? ≠ some '/' := by
  have hdef : defaultBaseURL ≠ "" ∧ defaultBaseURL.data.getLast? ≠ some '/' := by decide
  dsimp only [sanitizeBaseURL]
  split_ifs with h₁ h₂
  · exact hdef
  · exact hdef
  · refine ⟨h₂, fun h => ?_⟩
    have hne : (trimSpace base).data.rdropWhile (· ∈ "/".data) ≠ [] :=
      fun h' => h₂ (congrArg String.mk h')
    have h' : ((trimSpace base).data.rdropWhile (· ∈ "/".data)).getLast? = some '/' := h
    rw [List.getLast?_eq_getLast _ hne, Option.some.injEq] at h'
    apply List.rdropWhile_last_not _ _ hne
    rw [h']
    decide

end Anthropic
