import Mathlib.Logic.Function.Basic
import AgentSdk.Session.Message

/-!
# The in-memory session

`MemorySession` keeps a transcript, named checkpoints of it, a counter `seq`
that numbers the ids it hands out, and a `closed` flag. Its methods take the
lock, check, and only then mutate; the model is explicit state passing, in
which a method returns what Go returns *together with* the receiver's state
after the call. An error path returns the state the code has reached when it
returns, which is how "a failed call changes nothing" becomes a statement
about the code rather than about the model.

The session's clock `now` is an input of `append`: each call reads it once.
A forked session gets its parent's clock, which the model therefore need not
carry.
-/

namespace Session

open GoString

/-- **An in-process session** (`MemorySession`). -/
structure MemorySession where
  id : String
  messages : List Message
  /-- Named snapshots of the transcript; `none` for a name never stored. -/
  checkpoints : String → Option (List Message)
  seq : UInt64
  closed : Bool

/-- What a method call leaves: the value or error it returns, and the
receiver after it. -/
abbrev Call (α : Type) := EStateM.Result SessionError MemorySession α

/-- The receiver after a call. -/
def Call.state {α : Type} : Call α → MemorySession
  | .ok _ s => s
  | .error _ s => s

/-- Whether the call returned an error. -/
def Call.failed {α : Type} : Call α → Bool
  | .ok _ _ => false
  | .error _ _ => true

@[simp] theorem Call.state_ok {α : Type} (a : α) (s : MemorySession) :
    Call.state (.ok a s) = s := rfl
@[simp] theorem Call.state_error {α : Type} (e : SessionError) (s : MemorySession) :
    Call.state (α := α) (.error e s) = s := rfl
@[simp] theorem Call.failed_ok {α : Type} (a : α) (s : MemorySession) :
    Call.failed (.ok a s) = false := rfl
@[simp] theorem Call.failed_error {α : Type} (e : SessionError) (s : MemorySession) :
    Call.failed (α := α) (.error e s) = true := rfl

/-- **`NewMemorySession`**. -/
def newMemorySession (id : String) : Except SessionError MemorySession :=
  let trimmed := trimSpace id
  if trimmed = "" then .error .invalidSessionID
  else .ok { id := trimmed, messages := [], checkpoints := fun _ => none, seq := 0,
             closed := false }

/-- The id `Append` gives a message that has none:
`fmt.Sprintf("%s-%06d", s.id, s.seq)`. -/
def messageID (sid : String) (seq : UInt64) : String :=
  sid ++ "-" ++ sprintfD06 seq.toNat

/-- **`normalizeCheckpointName`**. -/
def normalizeCheckpointName (name : String) : Except SessionError String :=
  let trimmed := trimSpace name
  if trimmed = "" then .error .invalidCheckpointName else .ok trimmed

namespace MemorySession

/-- **`Append`**: the role is checked before the lock, `closed` under it,
and only then is `seq` advanced and the message stored. -/
def append (s : MemorySession) (msg : Message) (now : Time) : Call Unit :=
  if trimSpace msg.Role = "" then .error (.invalidMessage "role is required") s
  else if s.closed then .error .sessionClosed s
  else
    let s := { s with seq := s.seq + 1 }
    let msg := { msg with
      ID := if msg.ID = "" then messageID s.id s.seq else msg.ID
      Timestamp := if msg.Timestamp.IsZero then now.utc else msg.Timestamp.utc }
    .ok () { s with messages := s.messages ++ [msg] }

/-- The loop of `List`: three `continue` tests, then the offset counter
`skipped`, then the copy and the early `break` once `limit` messages are
collected. -/
def listLoop (role : String) (start stop : Option Time) (offset limit : Int) :
    List Message → Int → List Message → List Message
  | [], _, result => result
  | msg :: rest, skipped, result =>
    if role ≠ "" ∧ msg.Role ≠ role then listLoop role start stop offset limit rest skipped result
    else if start.any msg.Timestamp.before then
      listLoop role start stop offset limit rest skipped result
    else if stop.any msg.Timestamp.after then
      listLoop role start stop offset limit rest skipped result
    else if skipped < offset then
      listLoop role start stop offset limit rest (skipped + 1) result
    else
      let result := result ++ [msg]
      if 0 < limit ∧ limit ≤ result.length then result
      else listLoop role start stop offset limit rest skipped result

/-- **`List`**: a negative offset or limit counts as zero, the role is
trimmed, and the bounds are read in UTC. -/
def list (s : MemorySession) (filter : Filter) : Call (List Message) :=
  if s.closed then .error .sessionClosed s
  else
    let role := trimSpace filter.Role
    let offset := if filter.Offset < 0 then 0 else filter.Offset
    let limit := if filter.Limit < 0 then 0 else filter.Limit
    .ok (listLoop role (filter.StartTime.map Time.utc) (filter.EndTime.map Time.utc)
      offset limit s.messages 0 []) s

/-- **`Checkpoint`**: store a copy of the transcript under the trimmed name,
replacing what was stored there. -/
def checkpoint (s : MemorySession) (name : String) : Call Unit :=
  match normalizeCheckpointName name with
  | .error e => .error e s
  | .ok normalized =>
    if s.closed then .error .sessionClosed s
    else .ok () { s with checkpoints := Function.update s.checkpoints normalized (some s.messages) }

/-- **`Resume`**: replace the transcript by the snapshot stored under the
trimmed name. `seq` is left as it is. -/
def resume (s : MemorySession) (name : String) : Call Unit :=
  match normalizeCheckpointName name with
  | .error e => .error e s
  | .ok normalized =>
    if s.closed then .error .sessionClosed s
    else match s.checkpoints normalized with
      | none => .error (.checkpointNotFound normalized) s
      | some snapshot => .ok () { s with messages := snapshot }

/-- **`Fork`**: a new session under the trimmed id, with copies of the
transcript and the checkpoints and its counter at the transcript's length.
The receiver is not changed. -/
def fork (s : MemorySession) (id : String) : Call MemorySession :=
  let trimmed := trimSpace id
  if trimmed = "" then .error .invalidSessionID s
  else if s.closed then .error .sessionClosed s
  else .ok { id := trimmed, messages := s.messages, checkpoints := s.checkpoints,
             seq := UInt64.ofNat s.messages.length, closed := false } s

/-- **`Close`**: the first call drops the transcript and the checkpoints and
sets `closed`; a later call returns at once. It never fails. -/
def close (s : MemorySession) : Call Unit :=
  if s.closed then .ok () s
  else .ok () { s with closed := true, messages := [], checkpoints := fun _ => none }

end MemorySession

/-! ## One call, whatever the method -/

/-- The methods of the `Session` interface, with their arguments. -/
inductive Method where
  | append (msg : Message) (now : Time)
  | list (filter : Filter)
  | checkpoint (name : String)
  | resume (name : String)
  | fork (id : String)
  | close

/-- What a method returns besides its error: nothing, the listed messages,
or the forked session. -/
inductive Returned where
  | unit
  | messages (ms : List Message)
  | session (child : MemorySession)

/-- A result mapped into `Returned`, the state kept. -/
def Call.map {α : Type} (f : α → Returned) : Call α → Call Returned
  | .ok a s => .ok (f a) s
  | .error e s => .error e s

@[simp] theorem Call.state_map {α : Type} (f : α → Returned) (r : Call α) :
    (Call.map f r).state = r.state := by cases r <;> rfl
@[simp] theorem Call.failed_map {α : Type} (f : α → Returned) (r : Call α) :
    (Call.map f r).failed = r.failed := by cases r <;> rfl

theorem Call.map_eq_ok {α : Type} {f : α → Returned} {r : Call α} {v : Returned}
    {s : MemorySession} (h : Call.map f r = .ok v s) : ∃ a, r = .ok a s ∧ f a = v := by
  rcases r with ⟨a, s'⟩ | ⟨e, s'⟩
  · cases h; exact ⟨a, rfl, rfl⟩
  · cases h

namespace MemorySession

/-- **Call a method** on the session. -/
def invoke (s : MemorySession) : Method → Call Returned
  | .append msg now => Call.map (fun _ => .unit) (s.append msg now)
  | .list filter => Call.map .messages (s.list filter)
  | .checkpoint name => Call.map (fun _ => .unit) (s.checkpoint name)
  | .resume name => Call.map (fun _ => .unit) (s.resume name)
  | .fork id => Call.map .session (s.fork id)
  | .close => Call.map (fun _ => .unit) s.close

/-! ## A failed call changes nothing -/

theorem append_failed {s : MemorySession} {msg : Message} {now : Time}
    (h : (s.append msg now).failed) : (s.append msg now).state = s := by
  unfold append at h ⊢
  split
  · rfl
  split
  · rfl
  next h1 h2 => simp [h1, h2] at h

theorem list_state (s : MemorySession) (filter : Filter) : (s.list filter).state = s := by
  unfold list; split_ifs <;> rfl

theorem checkpoint_failed {s : MemorySession} {name : String}
    (h : (s.checkpoint name).failed) : (s.checkpoint name).state = s := by
  unfold checkpoint at *; split at * <;> (try split_ifs at *) <;> first | rfl | simp at h

theorem resume_failed {s : MemorySession} {name : String}
    (h : (s.resume name).failed) : (s.resume name).state = s := by
  unfold resume at *; split at * <;> (try split_ifs at *) <;> (try split at *) <;>
    first | rfl | simp at h

theorem fork_state (s : MemorySession) (id : String) : (s.fork id).state = s := by
  unfold fork; dsimp only; split_ifs <;> rfl

theorem close_not_failed (s : MemorySession) : s.close.failed = false := by
  unfold close; split_ifs <;> rfl

/-- **A call that returns an error leaves the session as it was.** -/
theorem invoke_failed {s : MemorySession} {m : Method} (h : (s.invoke m).failed) :
    (s.invoke m).state = s := by
  cases m <;> simp only [invoke, Call.state_map, Call.failed_map] at h ⊢
  · exact append_failed h
  · exact list_state _ _
  · exact checkpoint_failed h
  · exact resume_failed h
  · exact fork_state _ _
  · simp [close_not_failed] at h

/-! ## What a successful call does

One lemma per method: the guards that passed and the state left behind.
Every invariant of a run is proved from these and never from the method
bodies. -/

/-- The message `Append` stores when the counter has just become `seq`. -/
def stamped (sid : String) (seq : UInt64) (msg : Message) (now : Time) : Message :=
  { msg with
    ID := if msg.ID = "" then messageID sid seq else msg.ID
    Timestamp := if msg.Timestamp.IsZero then now.utc else msg.Timestamp.utc }

theorem append_ok {s s' : MemorySession} {msg : Message} {now : Time} {u : Unit}
    (h : s.append msg now = .ok u s') :
    s.closed = false ∧
      s' = { s with seq := s.seq + 1,
                    messages := s.messages ++ [stamped s.id (s.seq + 1) msg now] } := by
  by_cases h1 : trimSpace msg.Role = ""
  · simp [append, h1] at h
  cases h2 : s.closed
  · simp only [append, h1, h2, Bool.false_eq_true, ↓reduceIte, EStateM.Result.ok.injEq] at h
    exact ⟨rfl, h.2.symm⟩
  · simp [append, h1, h2] at h

theorem checkpoint_ok {s s' : MemorySession} {name : String} {u : Unit}
    (h : s.checkpoint name = .ok u s') :
    s.closed = false ∧
      s' = { s with checkpoints :=
                      Function.update s.checkpoints (trimSpace name) (some s.messages) } := by
  by_cases h1 : trimSpace name = ""
  · simp [checkpoint, normalizeCheckpointName, h1] at h
  cases h2 : s.closed
  · simp only [checkpoint, normalizeCheckpointName, h1, h2, Bool.false_eq_true, ↓reduceIte,
      EStateM.Result.ok.injEq] at h
    exact ⟨rfl, h.2.symm⟩
  · simp [checkpoint, normalizeCheckpointName, h1, h2] at h

theorem resume_ok {s s' : MemorySession} {name : String} {u : Unit}
    (h : s.resume name = .ok u s') :
    s.closed = false ∧ ∃ snapshot, s.checkpoints (trimSpace name) = some snapshot ∧
      s' = { s with messages := snapshot } := by
  by_cases h1 : trimSpace name = ""
  · simp [resume, normalizeCheckpointName, h1] at h
  cases h2 : s.closed
  · simp only [resume, normalizeCheckpointName, h1, h2, Bool.false_eq_true, ↓reduceIte] at h
    refine ⟨rfl, ?_⟩
    revert h
    cases s.checkpoints (trimSpace name) <;> simp [eq_comm, h2]
  · simp [resume, normalizeCheckpointName, h1, h2] at h

theorem fork_ok {s s' c : MemorySession} {id : String} (h : s.fork id = .ok c s') :
    s' = s ∧ s.closed = false ∧
      c = { id := trimSpace id, messages := s.messages, checkpoints := s.checkpoints,
            seq := UInt64.ofNat s.messages.length, closed := false } := by
  by_cases h1 : trimSpace id = ""
  · simp [fork, h1] at h
  cases h2 : s.closed
  · simp only [fork, h1, h2, Bool.false_eq_true, ↓reduceIte, EStateM.Result.ok.injEq] at h
    exact ⟨h.2.symm, rfl, h.1.symm⟩
  · simp [fork, h1, h2] at h

theorem close_ok {s s' : MemorySession} {u : Unit} (h : s.close = .ok u s') :
    s' = if s.closed then s
      else { s with closed := true, messages := [], checkpoints := fun _ => none } := by
  unfold close at h
  split_ifs at h <;> simp_all

end MemorySession

/-- **What a successful call does**, method by method: the guards that
passed, the state left behind and, for `Fork`, the session returned. -/
def Method.Succeeded (s s' : MemorySession) (v : Returned) : Method → Prop
  | .append msg now => s.closed = false ∧
      s' = { s with seq := s.seq + 1,
                    messages := s.messages ++ [MemorySession.stamped s.id (s.seq + 1) msg now] }
  | .list _ => s' = s
  | .checkpoint name => s.closed = false ∧
      s' = { s with checkpoints :=
                      Function.update s.checkpoints (trimSpace name) (some s.messages) }
  | .resume name => s.closed = false ∧ ∃ snapshot,
      s.checkpoints (trimSpace name) = some snapshot ∧ s' = { s with messages := snapshot }
  | .fork id => s' = s ∧ s.closed = false ∧
      v = .session { id := trimSpace id, messages := s.messages, checkpoints := s.checkpoints,
                     seq := UInt64.ofNat s.messages.length, closed := false }
  | .close => s' = if s.closed then s
      else { s with closed := true, messages := [], checkpoints := fun _ => none }

namespace MemorySession

theorem invoke_ok {s s' : MemorySession} {m : Method} {v : Returned}
    (h : s.invoke m = .ok v s') : m.Succeeded s s' v := by
  cases m with
  | append msg now => obtain ⟨_, hr, -⟩ := Call.map_eq_ok h; exact append_ok hr
  | list filter => obtain ⟨_, hr, -⟩ := Call.map_eq_ok h; simpa [hr] using list_state s filter
  | checkpoint name => obtain ⟨_, hr, -⟩ := Call.map_eq_ok h; exact checkpoint_ok hr
  | resume name => obtain ⟨_, hr, -⟩ := Call.map_eq_ok h; exact resume_ok hr
  | fork id =>
    obtain ⟨_, hr, rfl⟩ := Call.map_eq_ok h
    obtain ⟨h1, h2, rfl⟩ := fork_ok hr
    exact ⟨h1, h2, rfl⟩
  | close => obtain ⟨_, hr, -⟩ := Call.map_eq_ok h; exact close_ok hr

/-- Only `Fork` returns a session. -/
theorem invoke_returns_session {s s' c : MemorySession} {m : Method}
    (h : s.invoke m = .ok (.session c) s') : ∃ id, m = .fork id := by
  cases m with
  | fork id => exact ⟨id, rfl⟩
  | _ => obtain ⟨_, -, hv⟩ := Call.map_eq_ok h; cases hv

/-! ## A closed session -/

section Closed

variable {s : MemorySession} (hc : s.closed = true)
include hc

theorem append_of_closed (msg : Message) (now : Time) : (s.append msg now).failed := by
  unfold append; split_ifs <;> rfl

theorem list_of_closed (filter : Filter) : (s.list filter).failed := by
  simp [list, hc]

theorem checkpoint_of_closed (name : String) : (s.checkpoint name).failed := by
  unfold checkpoint; split <;> simp [hc]

theorem resume_of_closed (name : String) : (s.resume name).failed := by
  unfold resume; split <;> simp [hc]

theorem fork_of_closed (id : String) : (s.fork id).failed := by
  unfold fork; dsimp only; split_ifs <;> rfl

/-- **On a closed session every method but `Close` fails**, and `Close`
returns `nil` and changes nothing. -/
theorem invoke_of_closed (m : Method) :
    (m = .close → s.invoke m = .ok .unit s) ∧ (m ≠ .close → (s.invoke m).failed) := by
  cases m <;> simp only [invoke, Call.failed_map, reduceCtorEq, false_implies, true_implies,
    ne_eq, not_false_eq_true, not_true_eq_false, and_true, true_and]
  · exact append_of_closed hc _ _
  · exact list_of_closed hc _
  · exact checkpoint_of_closed hc _
  · exact resume_of_closed hc _
  · exact fork_of_closed hc _
  · simp [close, hc, Call.map]

end Closed

end MemorySession

end Session
