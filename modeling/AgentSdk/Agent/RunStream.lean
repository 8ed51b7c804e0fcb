import AgentSdk.Agent.RunShape

/-!
# Streaming a run

`RunStream` refuses a nil context and a blank input at once, and otherwise
hands the caller a channel that a goroutine feeds: a `started` progress
event, then the run's own events, or, when `Run` returns an error, a
single `Error` event of kind `run` in their place. Each send waits on the
context as well as on the channel, and the goroutine gives up at the first
send that finds the context done; it closes the channel when it stops.

A context that is done can still let a send through, since `select` picks
among the ready cases, so the model takes the outcome of each send as an
argument `sent`. The consumer receives a prefix of the sequence above, and
the whole of it when every send goes through (`runStream_prefix`). The
size of the channel's buffer only decides when the goroutine blocks, and
the model keeps it as the configuration's `streamBuffer` without reading
it. Hooks are functions here, so whether `Run` is called after a `started`
event that was not sent changes nothing the consumer sees.

## What the stream says about the run

When no `PostRun` hook rewrites the result and every send goes through,
the last event the consumer receives reports how the run ended
(`runStream_outcome`): the `Completion` event when `Run` returned no error;
otherwise the stream is the `started` event and one `Error` event of kind
`run`, and the events the run recorded, a failed tool call's `ToolCall` and
`ToolResult` among them, never reach it.
-/

namespace Agent

/-- `defaultStreamBuffer`. -/
def defaultStreamBuffer : Int := 4

/-- **`streamBuffer`**: the size of the channel `RunStream` makes. -/
def Config.streamBuffer (c : Config) : Int :=
  if c.StreamBuffer ≤ 0 then defaultStreamBuffer else c.StreamBuffer

/-- **`LifecycleHook`**, by what `OnStart` and `OnStop` return. -/
structure LifecycleHook where
  OnStart : RunContext → Option GoError
  OnStop : RunContext → Option GoError

/-- **`LifecycleHooks.RunStart`**: the start hooks, up to the first that
fails. -/
def runStart (hooks : List LifecycleHook) (ctx : RunContext) : Option GoError :=
  Id.run (runHooks (m := Id) hooks false fun h => h.OnStart ctx)

/-- **`LifecycleHooks.RunStop`**: the stop hooks, up to the first that
fails. -/
def runStop (hooks : List LifecycleHook) (ctx : RunContext) : Option GoError :=
  Id.run (runHooks (m := Id) hooks false fun h => h.OnStop ctx)

namespace BasicAgent

/-- **`emitEvent`** on each event in turn, `sent k` telling whether the
`k`-th send goes through: the events sent, up to the first that is not. -/
def emitEvents (sent : Nat → Bool) : Nat → List Event → List Event
  | _, [] => []
  | k, e :: es => if sent k then e :: emitEvents sent (k + 1) es else []

/-- What the goroutine of `RunStream` sends after `started`: the run's
events, or one `Error` event of kind `run` when it returns an error.
`isCanceled` is `errors.Is(err, context.Canceled)`. A run returns a result
or an error (`run_isSome_or`), so the last case is never taken. -/
def streamTail (a : BasicAgent) (rt : Runtime) (isCanceled : GoError → Bool) (c : Context)
    (input sessionID : String) : List Event :=
  match a.run rt (some c) input with
  | (_, some err) => [errorEvent sessionID "run" (some err) (isCanceled err)]
  | (some res, none) => res.Events
  | (none, none) => []

/-- **`RunStream`**: the events the consumer receives before the channel
is closed. -/
def runStream (a : BasicAgent) (rt : Runtime) (isCanceled : GoError → Bool)
    (ctx : Option Context) (input : String) (sent : Nat → Bool) : Except GoError (List Event) :=
  match ctx with
  | none => .error ⟨"context is nil"⟩
  | some c =>
    match sanitizeInput input with
    | .error err => .error err
    | .ok _ =>
      let sessionID := (a.cfg.resolveContext (getRunContext (some c)).1).SessionID
      .ok (emitEvents sent 0 (progressEvent sessionID "started" "stream started" [] ::
        a.streamTail rt isCanceled c input sessionID))

/-! ## The consumer's prefix -/

theorem emitEvents_prefix (sent : Nat → Bool) :
    ∀ (k : Nat) (es : List Event), emitEvents sent k es <+: es
  | _, [] => List.prefix_refl _
  | k, e :: es => by
    unfold emitEvents
    split_ifs
    · exact List.cons_prefix_cons.mpr ⟨rfl, emitEvents_prefix sent (k + 1) es⟩
    · exact List.nil_prefix

theorem emitEvents_all {sent : Nat → Bool} (hsent : ∀ k, sent k = true) :
    ∀ (k : Nat) (es : List Event), emitEvents sent k es = es
  | _, [] => rfl
  | k, e :: es => by rw [emitEvents, if_pos (hsent k), emitEvents_all hsent (k + 1) es]

/-- **The consumer receives a prefix of what the run streams**, all of it
when every send goes through. -/
theorem runStream_prefix (a : BasicAgent) (rt : Runtime) (isCanceled : GoError → Bool)
    (c : Context) {input s : String} (hsan : sanitizeInput input = .ok s) (sent : Nat → Bool) :
    let sessionID := (a.cfg.resolveContext (getRunContext (some c)).1).SessionID
    let full := progressEvent sessionID "started" "stream started" [] ::
      a.streamTail rt isCanceled c input sessionID
    ∃ evs, a.runStream rt isCanceled (some c) input sent = .ok evs ∧ evs <+: full ∧
      ((∀ k, sent k = true) → evs = full) :=
  ⟨_, by simp only [runStream, hsan], emitEvents_prefix sent 0 _,
    fun hsent => emitEvents_all hsent 0 _⟩

/-! ## How a run ends -/

theorem stopWith_error (a : BasicAgent) (sessionID stopReason kind : String) (err : GoError)
    (result : RunResult) : (a.stopWith sessionID stopReason kind err result).2 ≠ none :=
  errorsJoin_some_ne_none err _

/-- A run that returns no error went through `finish`: its result, before
the `PostRun` hooks, completed with the stop reason `complete` or
`tool_call`. -/
theorem runInstruction_ok (a : BasicAgent) (rt : Runtime) (runCtx : RunContext) (s : String)
    {r : RunResult}
    (h : a.runInstruction rt runCtx s (initialResult runCtx.SessionID) = (some r, none)) :
    ∃ r0, r = (a.runPostHooks r0).2 ∧ (r0.StopReason = "complete" ∨ r0.StopReason = "tool_call") := by
  unfold runInstruction at h
  rcases hp : parseToolInstruction rt.unmarshal s with ⟨name, params, wantsTool, _ | err⟩ <;>
    rw [hp] at h <;> dsimp only at h
  · cases wantsTool
    · exact ⟨_, (Option.some.inj (congrArg Prod.fst h)).symm, .inl rfl⟩
    · unfold runTool at h
      rcases he : a.executeTool rt.elapsed name params with ⟨call, _ | err⟩ <;>
        rw [he] at h <;> dsimp only at h
      · exact ⟨_, (Option.some.inj (congrArg Prod.fst h)).symm, .inr rfl⟩
      · exact absurd (congrArg Prod.snd h) (stopWith_error _ _ _ _ _ _)
  · exact absurd (congrArg Prod.snd h) (stopWith_error _ _ _ _ _ _)

/-- Every instruction ends with a result. -/
theorem runInstruction_isSome (a : BasicAgent) (rt : Runtime) (runCtx : RunContext) (s : String)
    (result : RunResult) : (a.runInstruction rt runCtx s result).1.isSome := by
  unfold runInstruction runTool stopWith finish
  repeat' split
  all_goals rfl

/-- **`Run` returns a result or an error.** -/
theorem run_isSome_or (a : BasicAgent) (rt : Runtime) (ctx : Option Context) (input : String) :
    (a.run rt ctx input).1.isSome ∨ (a.run rt ctx input).2.isSome := by
  unfold run
  repeat' split
  all_goals first | exact .inr rfl | exact .inl (runInstruction_isSome _ _ _ _ _)

/-- A run that returns a result returns what the instruction returned. -/
theorem run_eq_runInstruction {a : BasicAgent} {rt : Runtime} {ctx : Option Context}
    {input : String} {r : RunResult} {e : Option GoError} (h : a.run rt ctx input = (some r, e)) :
    ∃ s, a.runInstruction rt (a.cfg.resolveContext (getRunContext ctx).1) s
      (initialResult (a.cfg.resolveContext (getRunContext ctx).1).SessionID) = (some r, e) := by
  unfold run at h
  repeat' split at h <;> try cases h
  exact ⟨_, h⟩

/-- **A run that returns no error ends with its `Completion` event**,
when no `PostRun` hook rewrites the result. -/
theorem run_ok_last {a : BasicAgent} {rt : Runtime} {ctx : Option Context} {input : String}
    {r : RunResult} (hkeep : ∀ h ∈ a.hooks, ∀ x, (h.PostRun x).2 = x)
    (h : a.run rt ctx input = (some r, none)) :
    r.Events.getLast?.map (·.type) = some .completion := by
  obtain ⟨s, hs⟩ := run_eq_runInstruction h
  obtain ⟨r0, hr0, hstop⟩ := runInstruction_ok a rt _ s hs
  obtain ⟨r1, hshape, hr1⟩ := runInstruction_shape a rt _ s (congrArg Prod.fst hs)
  rw [runPostHooks_keep hkeep] at hr0 hr1
  obtain rfl : r = r0 := hr0
  obtain rfl : r = r1 := hr1
  rw [hshape.last_type, if_pos hstop]

/-! ## What the consumer learns -/

/-- **The stream reports how the run ended.** When every send goes through
and no `PostRun` hook rewrites the result, the consumer receives the
`started` event first; if `Run` returned no error, the last event it
receives is the `Completion` event, and if `Run` returned an error, the
stream is the `started` event and one `Error` event of kind `run`. -/
theorem runStream_outcome (a : BasicAgent) (rt : Runtime) (isCanceled : GoError → Bool)
    (c : Context) {input s : String} (hsan : sanitizeInput input = .ok s) {sent : Nat → Bool}
    (hsent : ∀ k, sent k = true) (hkeep : ∀ h ∈ a.hooks, ∀ x, (h.PostRun x).2 = x) :
    let sessionID := (a.cfg.resolveContext (getRunContext (some c)).1).SessionID
    let started := progressEvent sessionID "started" "stream started" []
    ∃ evs, a.runStream rt isCanceled (some c) input sent = .ok evs ∧
      evs.head? = some started ∧
      ((a.run rt (some c) input).2 = none → evs.getLast?.map (·.type) = some .completion) ∧
      ∀ err, (a.run rt (some c) input).2 = some err →
        evs = [started, errorEvent sessionID "run" (some err) (isCanceled err)] := by
  intro sessionID started
  obtain ⟨evs, hrun, -, hall⟩ := runStream_prefix a rt isCanceled c hsan sent
  obtain rfl := hall hsent
  refine ⟨_, hrun, rfl, fun hok => ?_, fun err herr => ?_⟩
  · have hsome := (run_isSome_or a rt (some c) input).resolve_right (by simp [hok])
    obtain ⟨r, hr⟩ := Option.isSome_iff_exists.mp hsome
    have hres : a.run rt (some c) input = (some r, none) := Prod.ext hr hok
    obtain ⟨e, he, hte⟩ := Option.map_eq_some'.mp (run_ok_last hkeep hres)
    unfold streamTail
    rw [hres, List.getLast?_cons, he]
    exact congrArg some hte
  · unfold streamTail
    rcases hr : a.run rt (some c) input with ⟨_ | _, _ | e⟩ <;> rw [hr] at herr <;> cases herr <;>
      rfl

/-- A stream of the run on `hello`, by an agent with no hooks. -/
theorem runStream_outcome_hello :
    let a : BasicAgent := ⟨⟨"agent", "", RunContext.zero, 0⟩, [], []⟩
    let rt : Runtime := ⟨fun _ => .ok [], fun _ => "", 0⟩
    let sessionID := (a.cfg.resolveContext (getRunContext (some Context.background)).1).SessionID
    let started := progressEvent sessionID "started" "stream started" []
    sanitizeInput "hello" = .ok "hello" ∧ (∀ h ∈ a.hooks, ∀ x, (h.PostRun x).2 = x) ∧
      ∃ evs, a.runStream rt (fun _ => false) (some Context.background) "hello" (fun _ => true) =
          .ok evs ∧
        evs.head? = some started ∧
        ((a.run rt (some Context.background) "hello").2 = none →
          evs.getLast?.map (·.type) = some .completion) ∧
        ∀ err, (a.run rt (some Context.background) "hello").2 = some err →
          evs = [started, errorEvent sessionID "run" (some err) false] := by
  intro a rt sessionID started
  have hsan : sanitizeInput "hello" = .ok "hello" := rfl
  have hkeep : ∀ h ∈ a.hooks, ∀ x, (h.PostRun x).2 = x := fun _ h => nomatch h
  exact ⟨hsan, hkeep, runStream_outcome a rt (fun _ => false) Context.background hsan
    (fun _ => rfl) hkeep⟩

end BasicAgent

end Agent
