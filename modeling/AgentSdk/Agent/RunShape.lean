import AgentSdk.Agent.Run

/-!
# The shape of a run's result

A run that returns a result builds it the same way every time: it starts
from the `accepted` progress event and the stop reason `complete`, and
ends in one of four ways. A parse error ends it with `input_error` and an
`Error` event. A tool instruction adds a `ToolCall` and a `ToolResult`
event around the one call it records, then ends with `tool_error` and an
`Error` event if the call returned an error, or with `tool_call` and the
`Completion` event if not. Any other input is answered, and the run ends
with `complete` and the `Completion` event. `RunShape` says this of a
result.

The `PostRun` hooks run last, and are handed the result by pointer. What
`Run` returns is what the hooks make of a result of that shape
(`run_result_shape`). It keeps the shape when no hook rewrites the result,
and need not otherwise: a hook that sets the stop reason makes the run
return a stop reason outside the four (`run_postRun_rewrites_stopReason`).
-/

namespace Agent

open BasicAgent

/-- Whether an event is one that a tool call emits. -/
def EventType.isTool : EventType → Bool
  | .toolCall | .toolResult => true
  | _ => false

/-- **The shape of a run's result** in the session `sessionID`. -/
structure RunShape (sessionID : String) (r : RunResult) : Prop where
  /-- The stop reason is one of the four a run sets. -/
  stopReason_mem : r.StopReason ∈ ["complete", "tool_call", "input_error", "tool_error"]
  /-- The first event is the `accepted` progress event. -/
  head_accepted : r.Events.head? = some (progressEvent sessionID "accepted" "input accepted" [])
  /-- The last event is the `Completion` event when the run completes, and
  an `Error` event when it stops at a failure. -/
  last_type : r.Events.getLast?.map (·.type) =
    some (if r.StopReason = "complete" ∨ r.StopReason = "tool_call" then .completion else .error)
  /-- A `ToolCall` event followed by a `ToolResult` event, and no other
  tool event, exactly when the run went through a tool. -/
  tool_events : (r.Events.map (·.type)).filter EventType.isTool =
    if r.StopReason = "tool_call" ∨ r.StopReason = "tool_error" then [.toolCall, .toolResult]
    else []
  /-- One recorded call exactly when the run went through a tool, and none
  otherwise. -/
  toolCalls_length : r.ToolCalls.length =
    if r.StopReason = "tool_call" ∨ r.StopReason = "tool_error" then 1 else 0

/-! ## From the events to the shape -/

/-- A result has the shape once its events are the `accepted` event, the
events of the middle of the run and the events of its end, with the types
the stop reason fixes. -/
theorem runShape_of {sessionID : String} {r : RunResult} (mid tail : List Event)
    (hstop : r.StopReason ∈ ["complete", "tool_call", "input_error", "tool_error"])
    (hev : r.Events = progressEvent sessionID "accepted" "input accepted" [] :: (mid ++ tail))
    (hmid : mid.map (·.type) =
      if r.StopReason = "tool_call" ∨ r.StopReason = "tool_error" then [.toolCall, .toolResult]
      else [])
    (htail : tail.map (·.type) =
      if r.StopReason = "complete" ∨ r.StopReason = "tool_call" then [.progress, .completion]
      else [.error])
    (hcalls : r.ToolCalls.length =
      if r.StopReason = "tool_call" ∨ r.StopReason = "tool_error" then 1 else 0) :
    RunShape sessionID r where
  stopReason_mem := hstop
  head_accepted := by rw [hev]; rfl
  last_type := by
    rw [← List.getLast?_map, hev, List.map_cons, List.map_append, htail, ← List.cons_append,
      List.getLast?_append]
    split_ifs <;> rfl
  tool_events := by
    rw [hev, List.map_cons, List.map_append, hmid, htail]
    split_ifs <;> rfl
  toolCalls_length := hcalls

/-! ## The ends of a run -/

section Ends

variable {a : BasicAgent} {sessionID input stopReason kind : String} {err : GoError}
  {result r : RunResult}

/-- A run that stops at a failure hands the hooks its result with the stop
reason set and an `Error` event added. -/
theorem stopWith_shape (h : (a.stopWith sessionID stopReason kind err result).1 = some r) :
    ∃ r0, r = (a.runPostHooks r0).2 ∧ r0.StopReason = stopReason ∧
      r0.ToolCalls = result.ToolCalls ∧
      r0.Events = result.Events ++ [errorEvent sessionID kind (some err) false] :=
  ⟨_, (Option.some.inj h).symm, rfl, rfl, rfl⟩

/-- A run that completes hands the hooks its result with a `completed`
progress event and the `Completion` event added. -/
theorem finish_shape (h : (a.finish sessionID input result).1 = some r) :
    ∃ r0 tail, r = (a.runPostHooks r0).2 ∧ r0.StopReason = result.StopReason ∧
      r0.ToolCalls = result.ToolCalls ∧ r0.Events = result.Events ++ tail ∧
      tail.map (·.type) = [.progress, .completion] :=
  ⟨_, _, (Option.some.inj h).symm, rfl, rfl, rfl, rfl⟩

end Ends

/-! ## Every run -/

/-- **The result the hooks are handed has the shape**, whatever the input
parses to and whatever the tool returns. -/
theorem runInstruction_shape (a : BasicAgent) (rt : Runtime) (runCtx : RunContext) (s : String)
    {r : RunResult}
    (h : (a.runInstruction rt runCtx s (initialResult runCtx.SessionID)).1 = some r) :
    ∃ r0, RunShape runCtx.SessionID r0 ∧ r = (a.runPostHooks r0).2 := by
  unfold runInstruction at h
  rcases hp : parseToolInstruction rt.unmarshal s with ⟨name, params, wantsTool, _ | err⟩ <;>
    rw [hp] at h <;> dsimp only at h
  · cases wantsTool
    · obtain ⟨r0, tail, rfl, hstop, hcalls, hev, htail⟩ := finish_shape h
      exact ⟨r0, runShape_of [] tail (by simp [hstop, initialResult]) (by rw [hev]; rfl)
        (by simp [hstop, initialResult]) (by simp [hstop, htail, initialResult])
        (by simp [hstop, hcalls, initialResult]), rfl⟩
    · unfold runTool at h
      rcases he : a.executeTool rt.elapsed name params with ⟨call, _ | err⟩ <;>
        rw [he] at h <;> dsimp only at h
      · obtain ⟨r0, tail, rfl, hstop, hcalls, hev, htail⟩ := finish_shape h
        exact ⟨r0, runShape_of _ tail (by simp [hstop]) (by rw [hev]; rfl)
          (by simp [hstop, newEvent, errorEvent]) (by simp [hstop, htail])
          (by simp [hstop, hcalls, initialResult]), rfl⟩
      · obtain ⟨r0, rfl, hstop, hcalls, hev⟩ := stopWith_shape h
        exact ⟨r0, runShape_of _ _ (by simp [hstop]) (by rw [hev]; rfl)
          (by simp [hstop, newEvent, errorEvent]) (by simp [hstop, newEvent, errorEvent])
          (by simp [hstop, hcalls, initialResult]), rfl⟩
  · obtain ⟨r0, rfl, hstop, hcalls, hev⟩ := stopWith_shape h
    exact ⟨r0, runShape_of [] _ (by simp [hstop]) (by rw [hev]; rfl) (by simp [hstop])
      (by simp [hstop, newEvent, errorEvent]) (by simp [hstop, hcalls, initialResult]), rfl⟩

/-- **What `Run` returns** is what the `PostRun` hooks make of a result of
the shape, and is of the shape itself when no hook rewrites the result it
is handed. -/
theorem run_result_shape (a : BasicAgent) (rt : Runtime) (ctx : Option Context) (input : String)
    {r : RunResult} (h : (a.run rt ctx input).1 = some r) :
    ∃ r0, RunShape (a.cfg.resolveContext (getRunContext ctx).1).SessionID r0 ∧
      r = (a.runPostHooks r0).2 ∧ ((∀ hook ∈ a.hooks, ∀ x, (hook.PostRun x).2 = x) → r = r0) := by
  obtain ⟨s, hs⟩ := run_eq_some h
  obtain ⟨r0, hshape, rfl⟩ := runInstruction_shape a rt _ s hs
  exact ⟨r0, hshape, rfl, fun hkeep => by rw [runPostHooks_keep hkeep]⟩

theorem run_result_shape_answer :
    let a : BasicAgent := ⟨⟨"agent", "", RunContext.zero, 0⟩, [], []⟩
    let rt : Runtime := ⟨fun _ => .ok [], fun _ => "", 0⟩
    ∃ r, (a.run rt (some Context.background) "hello").1 = some r ∧
      ∃ r0, RunShape (a.cfg.resolveContext (getRunContext (some Context.background)).1).SessionID r0 ∧
        r = (a.runPostHooks r0).2 ∧ ((∀ hook ∈ a.hooks, ∀ x, (hook.PostRun x).2 = x) → r = r0) := by
  intro a rt
  exact ⟨_, rfl, run_result_shape a rt (some Context.background) "hello" rfl⟩

/-- **A `PostRun` hook can rewrite the stop reason.** A hook that sets it
to `rewritten` makes `Run` on `hello` return that stop reason, with no
error. -/
theorem run_postRun_rewrites_stopReason :
    let hook : Hook := ⟨fun _ => none, fun r => (none, { r with StopReason := "rewritten" }),
      fun _ _ => none, fun _ _ => none⟩
    let a : BasicAgent := ⟨⟨"agent", "", RunContext.zero, 0⟩, [hook], []⟩
    let rt : Runtime := ⟨fun _ => .ok [], fun _ => "", 0⟩
    ∃ r, a.run rt (some Context.background) "hello" = (some r, none) ∧
      r.StopReason = "rewritten" ∧ ¬RunShape (a.cfg.resolveContext RunContext.zero).SessionID r := by
  refine ⟨_, rfl, rfl, fun h => ?_⟩
  have hmem := h.stopReason_mem
  change "rewritten" ∈ _ at hmem
  simp at hmem

end Agent
