import AgentSdk.Agent.Context
import AgentSdk.Event

/-!
# One run of the basic agent

`basicAgent.Run` takes a line of input through a fixed pipeline: refuse a
nil context, a blank input and a context already done; resolve the run
context; run the `PreRun` hooks; parse the input, which is either a tool
instruction `tool:<name> <json params>` or text to answer; call the tool or
answer; run the `PostRun` hooks. Each stage appends to the result's event
list, and a failing stage ends the run with a stop reason naming it.

Hooks and tools are values the caller supplies, so the model takes them as
functions of what the code hands them: the hooks see the input, the tool
name, the parameters, the recorded call and the result, and the tool sees
the parameters. `PostRun` is handed the result by pointer, and the model
lets it rewrite the result, as a Go hook can. A Go hook or tool could also
write through the maps it is handed; the model covers those that do not. The
context the hooks and the tool receive carries the run's deadline, which
the model leaves out with the clock: the duration `executeTool` measures is
an input of the run. What a run reads from outside the repository's code
is gathered in `Runtime`.

## How a tool failure is reported

`executeTool` ends in one of five ways: the tool is not registered, a
`PreToolCall` hook fails, the tool fails, a `PostToolCall` hook fails, or
the call succeeds. Only the third and the fourth copy the error into the
recorded call's `Error`. In the first two the call comes back with an
empty `Error` and an error beside it, so `Run` stops with `tool_error`
while the call it records, and the `ToolResult` event it emits, report no
failure (`run_unregistered_tool_not_failed`).
-/

namespace Agent

open GoString

/-- **A tool call as the run records it** (`ToolCall`). -/
structure ToolCall where
  Name : String
  Params : ValueMap
  Output : Value
  Error : String
  /-- A `time.Duration`, in nanoseconds. -/
  Duration : Int

/-- **`Failed`**: the call recorded an error text. -/
def ToolCall.Failed (c : ToolCall) : Bool := c.Error != ""

/-- **`TokenUsage`**. -/
structure TokenUsage where
  InputTokens : Int
  OutputTokens : Int
  TotalTokens : Int
  CacheTokens : Int
  deriving DecidableEq

/-- The zero `TokenUsage{}`. -/
def TokenUsage.zero : TokenUsage := ⟨0, 0, 0, 0⟩

/-- **`RunResult`**. -/
structure RunResult where
  Output : String
  ToolCalls : List ToolCall
  Usage : TokenUsage
  StopReason : String
  Events : List Event

/-- **A `Hook`**, by what each method returns for what it is handed.
`PostRun` is handed the result by pointer: it returns its error together
with the result as it leaves it. -/
structure Hook where
  PreRun : String → Option GoError
  PostRun : RunResult → Option GoError × RunResult
  PreToolCall : String → ValueMap → Option GoError
  PostToolCall : String → ToolCall → Option GoError

/-- **A `tool.Tool`**: its name, and what `Execute` returns for the
parameters. -/
structure Tool where
  Name : String
  Execute : ValueMap → Value × Option GoError

/-- **`basicAgent`**: the configuration, the hooks in the order they were
added, and the registered tools by trimmed name. -/
structure BasicAgent where
  cfg : Config
  hooks : List Hook
  tools : List (String × Tool)

/-- **What a run reads from outside the repository's code**:
`json.Unmarshal` of the tool parameters, the text `json.Marshal` (or
`fmt.Sprint`) gives a tool output that is not a string, and the time the
tool call takes. -/
structure Runtime where
  unmarshal : String → Except GoError ValueMap
  marshal : Value → String
  elapsed : Int

/-! ## Building an agent -/

/-- **`Config.Validate`**, on the copy `New` holds: a name is required,
the stream buffer may not be negative, and the default context is
normalized. -/
def Config.validate (c : Config) : Except GoError Config :=
  if trimSpace c.Name = "" then .error ⟨"config name is required"⟩
  else if c.StreamBuffer < 0 then
    .error ⟨"stream_buffer cannot be negative: " ++ toString c.StreamBuffer⟩
  else .ok { c with DefaultContext := c.DefaultContext.normalize }

/-- **`New`**: an agent with no hooks and no tools. -/
def new (cfg : Config) : Except GoError BasicAgent :=
  cfg.validate.map fun cfg => ⟨cfg, [], []⟩

/-- **`AddTool`**: the tool is registered under its trimmed name, which
must be new. -/
def BasicAgent.addTool (a : BasicAgent) : Option Tool → Except GoError BasicAgent
  | none => .error ⟨"tool is nil"⟩
  | some t =>
    let name := trimSpace t.Name
    if name = "" then .error ⟨"tool name is empty"⟩
    else if (a.tools.lookup name).isSome then .error ⟨"tool " ++ name ++ " already registered"⟩
    else .ok { a with tools := (name, t) :: a.tools }

/-- **`WithHook`**: a copy of the agent with the hook added last. -/
def BasicAgent.withHook (a : BasicAgent) : Option Hook → BasicAgent
  | none => a
  | some h => { a with hooks := a.hooks ++ [h] }

/-! ## The pieces of a run -/

/-- **`runHooks`**: call `fn` on each hook in order. The first error ends
the loop unless `collect` is set, in which case every error is joined.
The callback runs in a monad `m`: `Id` for a hook method that only returns
an error, a state monad for one that writes through the pointer it is
handed. -/
def runHooks {m : Type → Type} [Monad m] {α : Type} (hooks : List α) (collect : Bool)
    (fn : α → m (Option GoError)) : m (Option GoError) :=
  loop hooks none
where
  /-- The loop of `runHooks`, with the errors joined so far. -/
  loop : List α → Option GoError → m (Option GoError)
  | [], joined => pure joined
  | hook :: rest, joined => do
    match ← fn hook with
    | none => loop rest joined
    | some err => if !collect then pure (some err) else loop rest (errorsJoin joined (some err))

/-- **`sanitizeInput`**. -/
def sanitizeInput (input : String) : Except GoError String :=
  let trimmed := trimSpace input
  if trimmed = "" then .error ⟨"input is empty"⟩ else .ok trimmed

/-- **`estimateUsage`**: one token per rune. -/
def estimateUsage (input output : String) : TokenUsage :=
  ⟨input.length, output.length, input.length + output.length, 0⟩

/-- **`parseToolInstruction`**: the tool name, its parameters, whether the
input asks for a tool, and the parse error, as the Go function returns
them. -/
def parseToolInstruction (unmarshal : String → Except GoError ValueMap) (input : String) :
    String × ValueMap × Bool × Option GoError :=
  let trimmed := trimSpace input
  if !hasPrefix trimmed "tool:" then ("", [], false, none)
  else
    let payload := trimSpace (trimPrefix trimmed "tool:")
    if payload = "" then ("", [], false, some ⟨"missing tool name"⟩)
    else
      let parts := splitN2 payload ' '
      let name := trimSpace (parts.headD "")
      if name = "" then ("", [], false, some ⟨"tool name is empty"⟩)
      else
        match parts with
        | [_, rest] =>
          let raw := trimSpace rest
          if raw = "" then (name, [], true, none)
          else
            match unmarshal raw with
            | .error err => ("", [], false, some ⟨"parse tool params: " ++ err.Error⟩)
            | .ok params => (name, params, true, none)
        | _ => (name, [], true, none)

/-- **`progressEvent`**. -/
def progressEvent (sessionID stage message : String) (details : ValueMap) : Event :=
  newEvent .progress sessionID (.progress ⟨stage, message, details⟩)

/-- **`errorEvent`**: a nil error is reported as `unknown error`. -/
def errorEvent (sessionID kind : String) (err : Option GoError) (recoverable : Bool) : Event :=
  newEvent .error sessionID (.error ⟨(err.getD ⟨"unknown error"⟩).Error, kind, recoverable⟩)

/-- **`convertToolCalls`**. -/
def convertToolCalls (calls : List ToolCall) : List ToolCallData :=
  calls.map fun call => ⟨call.Name, call.Params⟩

/-- **`convertUsage`**: none for the zero usage. -/
def convertUsage (u : TokenUsage) : Option UsageData :=
  if u = TokenUsage.zero then none
  else some ⟨u.InputTokens, u.OutputTokens, u.TotalTokens, u.CacheTokens⟩

/-- **`completionSummary`**. -/
def completionSummary (res : RunResult) : CompletionData :=
  ⟨res.Output, res.StopReason, convertUsage res.Usage, convertToolCalls res.ToolCalls⟩

/-- **`stringify`**: a string output is its own text; any other goes
through `json.Marshal`, or `fmt.Sprint` when that fails. -/
def stringify (marshal : Value → String) : Value → String
  | .string s => s
  | v => marshal v

/-- **`defaultResponse`**. -/
def defaultResponse (input : String) (rc : RunContext) : String :=
  if rc.SessionID ≠ "" then "session " ++ rc.SessionID ++ ": " ++ input
  else "processed: " ++ input

namespace BasicAgent

/-- **`runPostHooks`**: every `PostRun` hook, errors joined; each hook is
handed the result as the hooks before it left it. -/
def runPostHooks (a : BasicAgent) (result : RunResult) : Option GoError × RunResult :=
  (runHooks (m := StateM RunResult) a.hooks true fun h => h.PostRun).run result

/-- **`invokePostToolHooks`**: every `PostToolCall` hook, errors joined. -/
def invokePostToolHooks (a : BasicAgent) (name : String) (call : ToolCall) : Option GoError :=
  Id.run (runHooks (m := Id) a.hooks true fun h => h.PostToolCall name call)

/-- **`executeTool`**: look the tool up, run the `PreToolCall` hooks,
call the tool, record what it returned, and run the `PostToolCall` hooks,
whose error fills an empty `Error`. -/
def executeTool (a : BasicAgent) (elapsed : Int) (name : String) (params : ValueMap) :
    ToolCall × Option GoError :=
  let call : ToolCall := ⟨name, params, .null, "", 0⟩
  match a.tools.lookup name with
  | none => (call, some ⟨"tool " ++ name ++ " not registered"⟩)
  | some impl =>
    match Id.run (runHooks (m := Id) a.hooks false fun h => h.PreToolCall name call.Params) with
    | some err => (call, some err)
    | none =>
      let (output, err) := impl.Execute call.Params
      let call := { call with Duration := elapsed, Output := output,
                              Error := (err.map (·.Error)).getD "" }
      match a.invokePostToolHooks name call with
      | none => (call, err)
      | some hookErr =>
        (if call.Error = "" then { call with Error := hookErr.Error } else call,
          errorsJoin err (some hookErr))

/-- The end of a run that stops at a failure: the stop reason, an `Error`
event, and the `PostRun` hooks, whose errors are joined to the failure. -/
def stopWith (a : BasicAgent) (sessionID stopReason kind : String) (err : GoError)
    (result : RunResult) : Option RunResult × Option GoError :=
  let result := { result with
    StopReason := stopReason
    Events := result.Events ++ [errorEvent sessionID kind (some err) false] }
  let (hookErr, result) := a.runPostHooks result
  (some result, errorsJoin (some err) hookErr)

/-- The end of a run that completes: the usage, a `completed` progress
event and the `Completion` event, then the `PostRun` hooks. -/
def finish (a : BasicAgent) (sessionID input : String) (result : RunResult) :
    Option RunResult × Option GoError :=
  let result := { result with Usage := estimateUsage input result.Output }
  let result := { result with
    Events := result.Events ++
      [progressEvent sessionID "completed" "run completed"
          [("stop_reason", .string result.StopReason)],
        newEvent .completion sessionID (.completion (completionSummary result))] }
  let (hookErr, result) := a.runPostHooks result
  (some result, hookErr)

/-- The tool branch of `Run`: a `ToolCall` event, the call, a `ToolResult`
event, and the end of the run. -/
def runTool (a : BasicAgent) (rt : Runtime) (sessionID input name : String) (params : ValueMap)
    (result : RunResult) : Option RunResult × Option GoError :=
  let result := { result with
    Events := result.Events ++ [newEvent .toolCall sessionID (.toolCall ⟨name, params⟩)] }
  let (call, toolErr) := a.executeTool rt.elapsed name params
  let result := { result with
    ToolCalls := result.ToolCalls ++ [call]
    Events := result.Events ++
      [newEvent .toolResult sessionID (.toolResult ⟨call.Name, call.Output, call.Error, call.Duration⟩)] }
  match toolErr with
  | some err => a.stopWith sessionID "tool_error" "tool" err result
  | none =>
    a.finish sessionID input
      { result with Output := stringify rt.marshal call.Output, StopReason := "tool_call" }

/-- The part of `Run` after the `PreRun` hooks: parse the input, then stop
at a parse error, call the tool, or answer. -/
def runInstruction (a : BasicAgent) (rt : Runtime) (runCtx : RunContext) (sanitized : String)
    (result : RunResult) : Option RunResult × Option GoError :=
  let (name, params, wantsTool, parseErr) := parseToolInstruction rt.unmarshal sanitized
  match parseErr with
  | some err => a.stopWith runCtx.SessionID "input_error" "input" err result
  | none =>
    if wantsTool then a.runTool rt runCtx.SessionID sanitized name params result
    else a.finish runCtx.SessionID sanitized
      { result with Output := defaultResponse sanitized runCtx }

/-- The result a run starts from: `complete`, with the `accepted` event. -/
def initialResult (sessionID : String) : RunResult :=
  ⟨"", [], TokenUsage.zero, "complete", [progressEvent sessionID "accepted" "input accepted" []]⟩

/-- **`Run`**. -/
def run (a : BasicAgent) (rt : Runtime) (ctx : Option Context) (input : String) :
    Option RunResult × Option GoError :=
  match ctx with
  | none => (none, some ⟨"context is nil"⟩)
  | some c =>
    match sanitizeInput input with
    | .error err => (none, some err)
    | .ok sanitized =>
      match c.err with
      | some err => (none, some err)
      | none =>
        let runCtx := a.cfg.resolveContext (getRunContext (some c)).1
        match Id.run (runHooks (m := Id) a.hooks false fun h => h.PreRun sanitized) with
        | some err => (none, some err)
        | none => a.runInstruction rt runCtx sanitized (initialResult runCtx.SessionID)

end BasicAgent

/-! ## The hook loop -/

section Hooks

variable {α : Type} (fn : α → Option GoError)

/-- **Stopping at the first error**, `runHooks` returns the error of the
first hook that fails. -/
theorem runHooks_false (hooks : List α) :
    Id.run (runHooks (m := Id) hooks false fn) = hooks.findSome? fn := by
  simp only [runHooks, Id.run]
  induction hooks with
  | nil => rfl
  | cons h rest ih => cases hf : fn h <;> simp [runHooks.loop, hf, ih]

theorem runHooks_loop_true_eq_none (hooks : List α) (joined : Option GoError) :
    Id.run (runHooks.loop (m := Id) true fn hooks joined) = none ↔
      joined = none ∧ ∀ h ∈ hooks, fn h = none := by
  induction hooks generalizing joined with
  | nil => simp [runHooks.loop, Id.run]
  | cons h rest ih => cases hf : fn h <;> simp [runHooks.loop, hf, ih]

/-- **Joining every error**, `runHooks` returns `nil` exactly when every
hook does. -/
theorem runHooks_true_eq_none (hooks : List α) :
    Id.run (runHooks (m := Id) hooks true fn) = none ↔ ∀ h ∈ hooks, fn h = none := by
  simp [runHooks, runHooks_loop_true_eq_none]

/-- One pass of the hook loop when the callback runs in a state monad: the
hook's method runs on the state, and the loop goes on from the state it
leaves. -/
theorem runHooks_loop_cons_run {σ : Type} (collect : Bool) (fn : α → StateM σ (Option GoError))
    (h : α) (rest : List α) (joined : Option GoError) (s : σ) :
    (runHooks.loop collect fn (h :: rest) joined).run s =
      match (fn h).run s with
      | (none, s') => (runHooks.loop collect fn rest joined).run s'
      | (some err, s') =>
        if !collect then (some err, s')
        else (runHooks.loop collect fn rest (errorsJoin joined (some err))).run s' := by
  simp only [runHooks.loop, StateT.run, bind, StateT.bind]
  rcases fn h s with ⟨_ | err, s'⟩ <;> cases collect <;> rfl

end Hooks

/-! ## `PostRun` hooks that keep the result -/

namespace BasicAgent

theorem runHooks_loop_postRun_keep {hooks : List Hook}
    (hkeep : ∀ h ∈ hooks, ∀ r, (h.PostRun r).2 = r) (result : RunResult) :
    ∀ joined, (runHooks.loop (m := StateM RunResult) true (fun h => h.PostRun) hooks joined).run
        result =
      (Id.run (runHooks.loop (m := Id) true (fun h => (h.PostRun result).1) hooks joined), result) := by
  induction hooks with
  | nil => intro; rfl
  | cons h rest ih =>
    intro joined
    have hrest := ih fun h' hh => hkeep h' (List.mem_cons_of_mem _ hh)
    have hk : h.PostRun result = ((h.PostRun result).1, result) :=
      Prod.ext rfl (hkeep h (List.mem_cons_self _ _) result)
    rw [runHooks_loop_cons_run, StateT.run, hk]
    cases he : (h.PostRun result).1 with
    | none => simpa [runHooks.loop, he] using hrest joined
    | some err => simpa [runHooks.loop, he] using hrest _

/-- **`PostRun` hooks that keep the result**: when no hook rewrites the
result it is handed, `runPostHooks` leaves it as it was and returns the
errors the hooks return on it, joined. -/
theorem runPostHooks_keep {a : BasicAgent} (hkeep : ∀ h ∈ a.hooks, ∀ r, (h.PostRun r).2 = r)
    (result : RunResult) :
    a.runPostHooks result =
      (Id.run (runHooks (m := Id) a.hooks true fun h => (h.PostRun result).1), result) :=
  runHooks_loop_postRun_keep hkeep result none

end BasicAgent

/-! ## What a run reports -/

namespace BasicAgent

variable {a : BasicAgent} {rt : Runtime} {input : String}

/-- **A run that returns a result went on to the instruction**: the
context was live, the input sanitized and the `PreRun` hooks passed. -/
theorem run_eq_some {ctx : Option Context} {r : RunResult} (h : (a.run rt ctx input).1 = some r) :
    ∃ s, (a.runInstruction rt (a.cfg.resolveContext (getRunContext ctx).1) s
      (initialResult (a.cfg.resolveContext (getRunContext ctx).1).SessionID)).1 = some r := by
  unfold run at h
  repeat' split at h <;> try cases h
  exact ⟨_, h⟩

/-- **An unregistered tool is reported three ways at once**: on
`tool:missing`, an agent with no tools stops with `tool_error`, yet the
call it records has not `Failed()` and its `ToolResult` event has an empty
`Error`. -/
theorem run_unregistered_tool_not_failed (cfg : Config) (rt : Runtime) :
    ∃ r, (⟨cfg, [], []⟩ : BasicAgent).run rt (some Context.background) "tool:missing" =
        (some r, some ⟨"tool missing not registered"⟩) ∧
      r.StopReason = "tool_error" ∧ r.ToolCalls.map ToolCall.Failed = [false] ∧
      toolResultErrors r.Events = [""] :=
  ⟨_, rfl, rfl, rfl, rfl⟩

end BasicAgent

end Agent
