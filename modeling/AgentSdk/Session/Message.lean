import AgentSdk.Text
import AgentSdk.Value

/-!
# Session messages

The records a session stores (`Message`, `ToolCall`) and the `Filter` a
`List` call reads, as `pkg/session` declares them.

A Go `time.Time` is an instant and a location. Every comparison the session
makes (`Before`, `After`, `IsZero`) reads the instant only, and `UTC()`
changes the location only, so an instant is what the model keeps.

The session copies messages on the way in and out (`cloneMessage`,
`cloneToolCalls`, `cloneMap`), one level deep. A value model has no sharing
to break, and the copy of a value is the value; the one thing those copies
change, a non-nil empty map becoming nil, is invisible here since a map is
its list of entries. `Clones.lean` keeps the maps in a heap, and shows that
this is what the copies read as, and what they share.
-/

namespace Session

/-- **A `time.Time` instant**: nanoseconds from Go's zero time, 1 January of
year 1, UTC. -/
structure Time where
  ns : Int
  deriving DecidableEq, Repr

namespace Time

/-- `t.IsZero()`. -/
def IsZero (t : Time) : Bool := t.ns == 0

/-- `t.Before(u)`. -/
def before (t u : Time) : Bool := decide (t.ns < u.ns)

/-- `t.After(u)`. -/
def after (t u : Time) : Bool := decide (u.ns < t.ns)

/-- `t.UTC()`: the same instant. -/
def utc (t : Time) : Time := t

end Time

/-- **A replayable tool invocation** (`session.ToolCall`). -/
structure ToolCall where
  ID : String
  Name : String
  Arguments : ValueMap
  Output : Value
  Error : String
  Metadata : ValueMap
  Timestamp : Time
  deriving Repr

/-- **A conversational turn** (`session.Message`). -/
structure Message where
  ID : String
  Role : String
  Content : String
  ToolCalls : List ToolCall
  Timestamp : Time
  deriving Repr

/-- **The subset a `List` call asks for** (`session.Filter`). -/
structure Filter where
  StartTime : Option Time
  EndTime : Option Time
  Role : String
  Limit : Int
  Offset : Int
  deriving Repr

/-- The sentinel errors of `pkg/session`, with what `fmt.Errorf` wraps
around them. -/
inductive SessionError where
  | invalidSessionID
  | invalidMessage (detail : String)
  | sessionClosed
  | checkpointNotFound (name : String)
  | invalidCheckpointName
  deriving DecidableEq, Repr

end Session
