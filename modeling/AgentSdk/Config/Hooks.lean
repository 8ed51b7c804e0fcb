import AgentSdk.Value

/-!
# Reading the hooks configuration

`HooksConfig.UnmarshalJSON` accepts each of the fields `PreToolUse` and
`PostToolUse` in two shapes: the SDK's own map from tool name to command,
and the Claude Code array of entries, each a matcher with a list of hooks.
`parseHookField` tries the array first and the map second;
`convertClaudeCodeFormat` turns an array into a map, keying each entry by
its matcher, `*` for an empty one, and keeping its first hook's command.

An entry with no hooks sets nothing, and a later entry under the same key
replaces an earlier one, so the command a key ends up with is the first
command of the last entry under that key that has a hook
(`convertClaudeCodeFormat_lookup`). An empty matcher and the matcher `*`
are the same key.

The decoding itself is `encoding/json`'s, which the model takes as
arguments (`HooksJson`), one per target type. The `Type` and `Timeout` of a
hook are decoded and never read, and are left out.
-/

namespace Config

/-- **`claudeCodeHook`**, with the field the conversion reads. -/
structure ClaudeCodeHook where
  Command : String

/-- **`claudeCodeHookEntry`**. -/
structure ClaudeCodeHookEntry where
  Matcher : String
  Hooks : List ClaudeCodeHook

/-- **`HooksConfig`**, with the two fields `UnmarshalJSON` sets; `none` is a
nil map. -/
structure HooksConfig where
  PreToolUse : Option (List (String × String))
  PostToolUse : Option (List (String × String))

/-- The key of an entry: its matcher, `*` when it is empty. -/
def ClaudeCodeHookEntry.key (e : ClaudeCodeHookEntry) : String :=
  if e.Matcher = "" then "*" else e.Matcher

/-- **The body of the loop of `convertClaudeCodeFormat`**. -/
def convertEntry (result : List (String × String)) (entry : ClaudeCodeHookEntry) :
    List (String × String) :=
  match entry.Hooks with
  | hook :: _ => mapSet result entry.key hook.Command
  | [] => result

/-- **`convertClaudeCodeFormat`**. -/
def convertClaudeCodeFormat (entries : List ClaudeCodeHookEntry) : List (String × String) :=
  entries.foldl convertEntry []

/-- What `json.Unmarshal` makes of a document, for each target type the
code decodes into: a `map[string]json.RawMessage`, a
`[]claudeCodeHookEntry` and a `map[string]string`. A document is its
text. -/
structure HooksJson where
  object : String → Except GoError (List (String × String))
  entries : String → Option (List ClaudeCodeHookEntry)
  strings : String → Option (List (String × String))

variable (json : HooksJson)

/-- **`parseHookField`**. -/
def parseHookField (data : String) : Except GoError (List (String × String)) :=
  match json.entries data with
  | some arr => .ok (convertClaudeCodeFormat arr)
  | none =>
    match json.strings data with
    | some m => .ok m
    | none => .error ⟨"invalid format: expected array or map"⟩

/-- One field of `UnmarshalJSON`: when the document has it, its parsed map,
or the error under the field's name. -/
def unmarshalField (raw : List (String × String)) (field : String)
    (current : List (String × String)) : Except GoError (List (String × String)) :=
  match raw.lookup field with
  | none => .ok current
  | some data =>
    match parseHookField json data with
    | .ok converted => .ok converted
    | .error err => .error ⟨"hooks: " ++ field ++ ": " ++ err.Error⟩

/-- **`UnmarshalJSON`**: the configuration after the call, which it
updates in place, and its error. -/
def HooksConfig.unmarshalJSON (h : HooksConfig) (data : String) : HooksConfig × Option GoError :=
  match json.object data with
  | .error err => (h, some ⟨"hooks: invalid JSON: " ++ err.Error⟩)
  | .ok raw =>
    let pre := h.PreToolUse.getD []
    let post := h.PostToolUse.getD []
    match unmarshalField json raw "PreToolUse" pre with
    | .error err => (⟨some pre, some post⟩, some err)
    | .ok pre =>
      match unmarshalField json raw "PostToolUse" post with
      | .error err => (⟨some pre, some post⟩, some err)
      | .ok post => (⟨some pre, some post⟩, none)

/-! ## What the conversion keeps -/

/-- The command an entry gives its key, if it has a hook. -/
def ClaudeCodeHookEntry.command (e : ClaudeCodeHookEntry) : Option String :=
  e.Hooks.head?.map (·.Command)

theorem lookup_convertEntry (result : List (String × String)) (e : ClaudeCodeHookEntry)
    (key : String) :
    (convertEntry result e).lookup key =
      if e.key = key ∧ e.command.isSome then e.command else result.lookup key := by
  unfold convertEntry ClaudeCodeHookEntry.command
  rcases e with ⟨m, _ | ⟨hook, hooks⟩⟩
  · simp
  · by_cases hk : key = ClaudeCodeHookEntry.key ⟨m, hook :: hooks⟩
    · simp [lookup_mapSet, hk]
    · simp [lookup_mapSet, hk, Ne.symm hk]

/-- **The command of a key** is the first command of the last entry
under that key that has a hook; a key no such entry has is absent. -/
theorem convertClaudeCodeFormat_lookup (entries : List ClaudeCodeHookEntry) (key : String) :
    (convertClaudeCodeFormat entries).lookup key =
      (entries.reverse.find? fun e => e.key = key ∧ e.command.isSome).bind (·.command) := by
  have hfold : ∀ (es : List ClaudeCodeHookEntry) (acc : List (String × String)),
      (es.foldl convertEntry acc).lookup key =
        ((es.reverse.find? fun e => e.key = key ∧ e.command.isSome).bind (·.command)).or
          (acc.lookup key) := by
    intro es
    induction es with
    | nil => intro acc; rfl
    | cons e es ih =>
      intro acc
      rw [List.foldl_cons, ih, lookup_convertEntry, List.reverse_cons, List.find?_append]
      rcases hf : es.reverse.find? (fun e => e.key = key ∧ e.command.isSome) with _ | x <;>
        rw [hf]
      · by_cases he : e.key = key ∧ e.command.isSome
        · obtain ⟨c, hc⟩ := Option.isSome_iff_exists.mp he.2
          simp [he, hc]
        · simp [he]
      · have hx := List.find?_some hf
        simp only [decide_eq_true_eq] at hx
        obtain ⟨c, hc⟩ := Option.isSome_iff_exists.mp hx.2
        simp [hc]
  rw [convertClaudeCodeFormat, hfold]
  cases (entries.reverse.find? fun e => e.key = key ∧ e.command.isSome).bind (·.command) <;> rfl

end Config
