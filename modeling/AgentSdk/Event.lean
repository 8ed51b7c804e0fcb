import AgentSdk.Value

/-!
# Events

A run reports what it does as a list of `event.Event` values: a type, the
session the run belongs to, and a payload whose Go type the event type
fixes. The declarations of the `event` package that the agent uses are not
among the sources at hand, so they are modelled from their uses, with the
fields the agent sets. `NewEvent` may also stamp an event with an id and a
time, which nothing here reads; those are left out.
-/

/-- The event types the agent emits. -/
inductive EventType where
  | progress | toolCall | toolResult | error | completion
  deriving DecidableEq, Repr

/-- **`ProgressData`**. -/
structure ProgressData where
  Stage : String
  Message : String
  Details : ValueMap

/-- **`ToolCallData`**: the tool a run is about to call and its parameters. -/
structure ToolCallData where
  Name : String
  Params : ValueMap

/-- **`ToolResultData`**: what the call returned. -/
structure ToolResultData where
  Name : String
  Output : Value
  Error : String
  /-- A `time.Duration`, in nanoseconds. -/
  Duration : Int

/-- **`ErrorData`**. -/
structure ErrorData where
  Message : String
  Kind : String
  Recoverable : Bool

/-- **`UsageData`**. -/
structure UsageData where
  InputTokens : Int
  OutputTokens : Int
  TotalTokens : Int
  CacheTokens : Int

/-- **`CompletionData`**: the summary a completed run ends with. -/
structure CompletionData where
  Output : String
  StopReason : String
  Usage : Option UsageData
  ToolCalls : List ToolCallData

/-- The payload of an event, one constructor per payload type. -/
inductive EventData where
  | progress (d : ProgressData)
  | toolCall (d : ToolCallData)
  | toolResult (d : ToolResultData)
  | error (d : ErrorData)
  | completion (d : CompletionData)

/-- **`event.Event`**. -/
structure Event where
  type : EventType
  SessionID : String
  Data : EventData

/-- **`NewEvent`**. -/
def newEvent (type : EventType) (sessionID : String) (data : EventData) : Event :=
  ⟨type, sessionID, data⟩

/-- The `Error` fields of the `ToolResult` payloads of a list of events, in
order. -/
def toolResultErrors (evs : List Event) : List String :=
  evs.filterMap fun e =>
    match e.Data with
    | .toolResult d => some d.Error
    | _ => none

@[simp] theorem toolResultErrors_nil : toolResultErrors [] = [] := rfl

@[simp] theorem toolResultErrors_append (xs ys : List Event) :
    toolResultErrors (xs ++ ys) = toolResultErrors xs ++ toolResultErrors ys :=
  List.filterMap_append _ _ _
