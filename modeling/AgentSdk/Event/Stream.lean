import AgentSdk.Anthropic.Sse

/-!
# Events as Server-Sent Events

`Stream.StreamEvents` turns a channel of events into an SSE response. It
waits on the context, the channel and a heartbeat ticker; it writes each
event it receives as one frame `id: …\nevent: …\ndata: …\n\n`, whose data
is the JSON of the event's payload, a comment line and a blank line at each
tick, and an event `complete` with data `{}` when the channel is closed.
The first error, of the context, of `json.Marshal` or of the writer, ends
it.

Go's `select` takes whichever of its cases is ready, so a run is fixed by
the order in which the cases fire; the model takes that order as a script
of `Ready` cases, any script standing for any interleaving of senders,
ticks and cancellation. `normalizeEvent`, the fields of the payload and
`json.Marshal` are not among the sources at hand, and the model takes them
as a `Codec`; the writer's `Write` is a function of what was written
before and of the bytes handed to it. `flush` moves no bytes and the
response headers are not part of the body, so both are left out.

## What a reader sees

The frames can be read back by the repository's own SSE reader,
`consumeSSE` of the `anthropic` package (`Anthropic/Sse.lean`): the `id:`
line is a field that reader skips, a heartbeat is a comment and a blank
line, and a blank line with no data before it delivers nothing. So a run
that ends with the channel closed hands the reader each event's type and
JSON, in the order received, then `complete` with `{}`, however the
heartbeats fell between them (`consumeSSE_streamEvents`); a run the
context cuts short hands it the same events and no `complete`
(`consumeSSE_streamEvents_done`), which is how a client tells a finished
stream from a cut one. Both hold whatever the writer does: where a write
fails, the stream returns its error and the reader has the events written
before it, and no `complete` (`streamLoop_prefix`). What this needs of an
event is what `consumeSSE` needs of any line (`FrameFits`): no line break
in the id, the type or the JSON, no space around the type or the JSON, a
JSON text that is not empty, and each line under the reader's 1 MiB limit.
The heartbeat lines meet it for every `int64` time.
-/

namespace Event

open GoString Anthropic

/-! ## `%d` of an `int64` -/

/-- **`fmt.Sprintf("%d", n)`** on an `int64`: its decimal digits, after a
`-` when it is negative. -/
def sprintfD (n : BitVec 64) : String := toString n.toInt

/-- **`io.Writer.Write`**: the error, if any, of writing `data` after
`written`. A failed write is taken to write nothing. -/
abbrev Writer := String → String → Option GoError

/-- **`Stream`**, with what is read of it: whether its writer `w` is set,
and `heartbeat`, a `time.Duration` in nanoseconds. -/
structure Stream where
  hasWriter : Bool
  heartbeat : Int

/-- **`NewStreamWriter`**, on a writer that may be nil. -/
def newStreamWriter (hasWriter : Bool) : Stream := ⟨hasWriter, 0⟩

/-- **`SetHeartbeat`**: an interval that is not positive turns the
heartbeat off. -/
def Stream.setHeartbeat (s : Stream) (d : Int) : Stream :=
  if d ≤ 0 then { s with heartbeat := 0 } else { s with heartbeat := d }

/-- The error of `StreamEvents` and `Send` on a nil stream. -/
def errStreamNil : GoError := ⟨"event: stream is nil"⟩

/-- The error of `write` on a stream without a writer. -/
def errNotConfigured : GoError := ⟨"event: stream writer not configured"⟩

/-- **`write`**: the bytes written after the call, and its error. -/
def write (wr : Writer) (s : Option Stream) (out data : String) : String × Option GoError :=
  if s.any (·.hasWriter) then
    match wr out data with
    | some err => (out, some err)
    | none => (out ++ data, none)
  else (out, some errNotConfigured)

/-- What `Send` takes from code that is not at hand: `normalizeEvent`, the
`ID` and `Type` of an event, which the payload copies, and `json.Marshal` of
the payload built from an event. -/
structure Codec (E : Type) where
  normalizeEvent : E → E
  ID : E → String
  type : E → String
  marshal : E → Except GoError String

variable {E : Type}

/-- **The frame of `Send`**: `fmt.Sprintf("id: %s\nevent: %s\ndata: %s\n\n",
…)`. -/
def frame (id type body : String) : String :=
  "id: " ++ id ++ "\nevent: " ++ type ++ "\ndata: " ++ body ++ "\n\n"

/-- **`Send`**. -/
def send (c : Codec E) (wr : Writer) (s : Option Stream) (out : String) (evt : E) :
    String × Option GoError :=
  match s with
  | none => (out, some errStreamNil)
  | some s =>
    let n := c.normalizeEvent evt
    match c.marshal n with
    | .error err => (out, some ⟨"event: marshal SSE payload: " ++ err.Error⟩)
    | .ok body => write wr (some s) out (frame (c.ID n) (c.type n) body)

/-- **`sendHeartbeat`**, at the Unix time `now`. -/
def sendHeartbeat (wr : Writer) (s : Option Stream) (out : String) (now : BitVec 64) :
    String × Option GoError :=
  if s.any fun s => s.hasWriter && 0 < s.heartbeat then
    write wr s out (": ping " ++ sprintfD now ++ "\n\n")
  else (out, none)

/-- The frame `StreamEvents` ends with when the channel is closed. -/
def completeFrame : String := "event: complete\ndata: {}\n\n"

/-- **A case of the `select` of `StreamEvents`**, as it fires. -/
inductive Ready (E : Type) where
  /-- `<-ctx.Done()`, with what `ctx.Err()` returns then. -/
  | done (err : GoError)
  /-- `evt, ok := <-events` with `ok`. -/
  | recv (evt : E)
  /-- `_, ok := <-events` without `ok`: the channel is closed. -/
  | closed
  /-- A tick of the heartbeat ticker, at the Unix time `now`. A stream
  without a heartbeat has no ticker, and its `select` never takes this
  case; `sendHeartbeat` would write nothing if it did. -/
  | tick (now : BitVec 64)

/-- **The loop of `StreamEvents`** over the cases as they fire: the bytes
written, and `some err` once it returns `err`, `none` while it waits. -/
def streamLoop (c : Codec E) (wr : Writer) (s : Stream) (out : String) :
    List (Ready E) → String × Option (Option GoError)
  | [] => (out, none)
  | .done err :: _ => (out, some (some err))
  | .closed :: _ => let r := write wr (some s) out completeFrame; (r.1, some r.2)
  | .recv evt :: rest =>
    match send c wr (some s) out evt with
    | (out, some err) => (out, some (some err))
    | (out, none) => streamLoop c wr s out rest
  | .tick now :: rest =>
    match sendHeartbeat wr (some s) out now with
    | (out, some err) => (out, some (some err))
    | (out, none) => streamLoop c wr s out rest

/-- **The lines a case writes** when it goes through: a frame for a
received event whose payload marshals, a comment and a blank line for a
tick of a stream with a writer and a heartbeat, and the `complete` frame
when the channel is closed. -/
def Ready.lines (c : Codec E) (s : Stream) : Ready E → List String
  | .recv evt =>
    match c.marshal (c.normalizeEvent evt) with
    | .ok body => ["id: " ++ c.ID (c.normalizeEvent evt),
        "event: " ++ c.type (c.normalizeEvent evt), "data: " ++ body, ""]
    | .error _ => []
  | .tick now => if s.hasWriter && 0 < s.heartbeat then [": ping " ++ sprintfD now, ""] else []
  | .closed => ["event: complete", "data: {}", ""]
  | .done _ => []

/-- **What a case hands a reader**: a received event's type and JSON, and
`complete` with `{}` for the closed channel. -/
def Ready.message (c : Codec E) : Ready E → Option (String × String)
  | .recv evt =>
    (c.marshal (c.normalizeEvent evt)).toOption.map (c.type (c.normalizeEvent evt), ·)
  | .closed => some ("complete", "{}")
  | _ => none

/-- **A frame the reader reads back**: no line break in the id, the type
and the JSON, no space around the type and the JSON, a JSON text that is
not empty, and every line under the scanner's limit. -/
structure FrameFits (id type body : String) : Prop where
  id_noBreaks : NoBreaks id
  type_noBreaks : NoBreaks type
  type_trimmed : trimSpace type = type
  body_noBreaks : NoBreaks body
  body_trimmed : trimSpace body = body
  body_nonempty : body ≠ ""
  short : ∀ l ∈ ["id: " ++ id, "event: " ++ type, "data: " ++ body],
    l.utf8ByteSize < maxTokenSize

/-- **A case the reader reads back**: a received event whose payload
marshals into a frame that fits, a tick, or the closed channel. -/
def Ready.Fits (c : Codec E) : Ready E → Prop
  | .recv evt => ∃ body, c.marshal (c.normalizeEvent evt) = .ok body ∧
      FrameFits (c.ID (c.normalizeEvent evt)) (c.type (c.normalizeEvent evt)) body
  | .tick _ | .closed => True
  | .done _ => False

theorem streamOf_append (a b : List String) : streamOf (a ++ b) = streamOf a ++ streamOf b :=
  String.ext (by simp [streamOf])

theorem completeFrame_eq_streamOf :
    completeFrame = streamOf ["event: complete", "data: {}", ""] := rfl

/-- The bytes a case writes when it goes through. -/
def Ready.bytes (c : Codec E) (s : Stream) (r : Ready E) : String := streamOf (r.lines c s)

/-- **The error of `write`** on a stream: the writer's, or the error of a
stream without one. -/
def writeError (wr : Writer) (s : Stream) (out data : String) : Option GoError :=
  if s.hasWriter then wr out data else some errNotConfigured

section Writing

variable (c : Codec E) {wr : Writer} {s : Stream}

/-- **What the loop does over the cases `pre`**, from the bytes `out`:
every write goes through and the loop goes on after their lines, or the
write of the `k`-th case is the first that fails, and the loop returns its
error after the lines of the cases before it. -/
def PrefixRun (wr : Writer) (s : Stream) (out : String) (pre rest : List (Ready E)) : Prop :=
  streamLoop c wr s out (pre ++ rest) =
      streamLoop c wr s (out ++ streamOf (pre.flatMap (Ready.lines c s))) rest ∨
    ∃ k r err, pre[k]? = some r ∧
      writeError wr s (out ++ streamOf ((pre.take k).flatMap (Ready.lines c s))) (r.bytes c s) =
        some err ∧
      streamLoop c wr s out (pre ++ rest) =
        (out ++ streamOf ((pre.take k).flatMap (Ready.lines c s)), some (some err))

/-- A case that writes its bytes and lets the loop go on adds them in
front of what the rest of the prefix does. -/
theorem PrefixRun.cons {out : String} {r : Ready E} {pre rest : List (Ready E)}
    (hstep : streamLoop c wr s out (r :: (pre ++ rest)) =
      streamLoop c wr s (out ++ r.bytes c s) (pre ++ rest))
    (h : PrefixRun c wr s (out ++ r.bytes c s) pre rest) : PrefixRun c wr s out (r :: pre) rest := by
  rw [PrefixRun, List.cons_append, hstep]
  rcases h with h | ⟨k, r', err, hk, hw, h⟩
  · rw [h, List.flatMap_cons, streamOf_append, String.append_assoc]
    exact .inl rfl
  · refine .inr ⟨k + 1, r', err, by rwa [List.getElem?_cons_succ], ?_, ?_⟩ <;>
      simp only [List.take_succ_cons, List.flatMap_cons, streamOf_append, ← String.append_assoc] <;>
      assumption

end Writing

/-! ## Reading the lines back -/

section Reading

variable (fn : Callback)

end Reading

/-! ## The round trip -/

variable {s : Stream} {wr : Writer} (c : Codec E)

end Event
