import AgentSdk.Text
import AgentSdk.Value

/-!
# Run contexts

A run is configured by a `RunContext`: the agent's `Config.DefaultContext`,
with the fields a caller sets overriding it (`Merge`). A caller hands its
`RunContext` to `Run` inside a `context.Context` (`WithRunContext`), and
`Run` reads it back (`GetRunContext`) and resolves it against the
configuration (`ResolveContext`).

`WithRunContext` stores the *normalized* context. Normalizing fills the two
fields that have package defaults, `MaxIterations` and `Temperature`, so by
the time `Merge` reads the caller's context those fields are never zero, and
`Merge` lets them override the configuration. Every other field survives the
round trip as the caller left it (`resolveContext_withRunContext`).

`time.Duration` and `ApprovalMode` are integers; `Temperature` is a
`float64`, which the code only copies and compares with `0`.
-/

namespace Agent

/-- `defaultMaxIterations`. -/
def defaultMaxIterations : Int := 1

/-- `defaultTemperature`, the `float64` nearest to `0.7`. -/
def defaultTemperature : Go.Float64 := ⟨0x3FE6666666666666⟩

/-- **The knobs of one run** (`RunContext`). -/
structure RunContext where
  SessionID : String
  WorkDir : String
  MaxIterations : Int
  MaxTokens : Int
  /-- A `time.Duration`, in nanoseconds. -/
  Timeout : Int
  /-- An `ApprovalMode`, an `int`. -/
  ApprovalMode : Int
  Temperature : Go.Float64
  deriving DecidableEq, Repr

namespace RunContext

/-- The zero `RunContext{}`. -/
def zero : RunContext := ⟨"", "", 0, 0, 0, 0, ⟨0⟩⟩

/-- **`Normalize`**: defaults for the unset fields, and no negative token
budget or timeout. -/
def normalize (c : RunContext) : RunContext :=
  { c with
    MaxIterations := if c.MaxIterations ≤ 0 then defaultMaxIterations else c.MaxIterations
    MaxTokens := if c.MaxTokens < 0 then 0 else c.MaxTokens
    Timeout := if c.Timeout < 0 then 0 else c.Timeout
    Temperature := if c.Temperature.isZero then defaultTemperature else c.Temperature }

/-- **`Merge`**: each non-zero field of `override` replaces the receiver's,
and the result is normalized. -/
def merge (c override : RunContext) : RunContext :=
  normalize
    { SessionID := if override.SessionID ≠ "" then override.SessionID else c.SessionID
      WorkDir := if override.WorkDir ≠ "" then override.WorkDir else c.WorkDir
      MaxIterations := if 0 < override.MaxIterations then override.MaxIterations else c.MaxIterations
      MaxTokens := if 0 < override.MaxTokens then override.MaxTokens else c.MaxTokens
      Timeout := if 0 < override.Timeout then override.Timeout else c.Timeout
      ApprovalMode := if override.ApprovalMode ≠ 0 then override.ApprovalMode else c.ApprovalMode
      Temperature := if !override.Temperature.isZero then override.Temperature else c.Temperature }

end RunContext

/-- **A `context.Context`**, as far as the agent reads it: the value
stored under `runContextKey{}`, if any, and what `Err()` returns. -/
structure Context where
  runContext : Option RunContext
  /-- `ctx.Err()`: `nil` while the context is neither cancelled nor past
  its deadline. -/
  err : Option GoError

/-- `context.Background()`. -/
def Context.background : Context := ⟨none, none⟩

/-- **`WithRunContext`**: a nil context is replaced by the background one,
and the normalized run context is stored. -/
def withRunContext (ctx : Option Context) (rc : RunContext) : Context :=
  { ctx.getD Context.background with runContext := some rc.normalize }

/-- **`GetRunContext`**: the stored run context and whether there was one. -/
def getRunContext : Option Context → RunContext × Bool
  | none => (RunContext.zero, false)
  | some ctx =>
    match ctx.runContext with
    | some rc => (rc, true)
    | none => (RunContext.zero, false)

/-- **The agent's configuration** (`Config`), the fields runs read. -/
structure Config where
  Name : String
  Description : String
  DefaultContext : RunContext
  StreamBuffer : Int

/-- **`ResolveContext`**: the caller's run context over the configured one. -/
def Config.resolveContext (c : Config) (override : RunContext) : RunContext :=
  c.DefaultContext.merge override

/-! ## Through the context and back -/

@[simp] theorem getRunContext_withRunContext (ctx : Option Context) (rc : RunContext) :
    getRunContext (some (withRunContext ctx rc)) = (rc.normalize, true) := rfl

theorem defaultTemperature_not_isZero : defaultTemperature.isZero = false := by decide

/-- `Merge` takes a field that `Normalize` clamped at zero exactly when it
would take the field itself. -/
theorem merge_clamped (x c : Int) :
    (if 0 < (if x < 0 then 0 else x) then (if x < 0 then 0 else x) else c) =
      if 0 < x then x else c := by
  split_ifs <;> omega

/-- `Normalize` makes `MaxIterations` positive, so `Merge` takes it. -/
theorem merge_iterations (x c : Int) :
    (if 0 < (if x ≤ 0 then 1 else x) then (if x ≤ 0 then 1 else x) else c) =
      if x ≤ 0 then 1 else x := by
  split_ifs <;> omega

/-- **What a run resolves from a context the caller filled.** Against the
context resolved from the caller's `RunContext` directly, the session,
directory, token budget, timeout and approval mode agree; `MaxIterations`
and `Temperature` take the caller's value when it is set and otherwise the
package defaults `1` and `0.7`, whatever the configuration says. -/
theorem resolveContext_withRunContext (cfg : Config) (ctx : Option Context) (o : RunContext) :
    let r := cfg.resolveContext (getRunContext (some (withRunContext ctx o))).1
    let r' := cfg.resolveContext o
    r.SessionID = r'.SessionID ∧ r.WorkDir = r'.WorkDir ∧ r.MaxTokens = r'.MaxTokens ∧
      r.Timeout = r'.Timeout ∧ r.ApprovalMode = r'.ApprovalMode ∧
      r.MaxIterations = (if 0 < o.MaxIterations then o.MaxIterations else defaultMaxIterations) ∧
      r.Temperature = (if o.Temperature.isZero then defaultTemperature else o.Temperature) := by
  refine ⟨rfl, rfl, ?_, ?_, rfl, ?_, ?_⟩ <;>
    dsimp only [getRunContext_withRunContext, Config.resolveContext, RunContext.merge,
      RunContext.normalize, defaultMaxIterations]
  · rw [merge_clamped]
  · rw [merge_clamped]
  · rw [merge_iterations]; split_ifs <;> omega
  · cases h : o.Temperature.isZero <;> simp [h, defaultTemperature_not_isZero]

/-- A caller who sets no field through the context still overrides the
configured `MaxIterations` of `5` with `1`. -/
theorem resolveContext_withRunContext_overrides_config :
    let cfg : Config := ⟨"unit", "", { RunContext.zero with MaxIterations := 5 }, 0⟩
    (cfg.resolveContext (getRunContext (some (withRunContext none RunContext.zero))).1).MaxIterations = 1 ∧
      (cfg.resolveContext RunContext.zero).MaxIterations = 5 ∧
      cfg.resolveContext (getRunContext (some (withRunContext none RunContext.zero))).1 ≠
        cfg.resolveContext RunContext.zero := by
  intro cfg
  have h1 : (cfg.resolveContext (getRunContext (some (withRunContext none RunContext.zero))).1
      ).MaxIterations = 1 :=
    (resolveContext_withRunContext cfg none RunContext.zero).2.2.2.2.2.1.trans (by decide)
  have h5 : (cfg.resolveContext RunContext.zero).MaxIterations = 5 := rfl
  exact ⟨h1, h5, fun h => absurd (h1.symm.trans ((congrArg RunContext.MaxIterations h).trans h5))
    (by decide)⟩

end Agent
