import Mathlib.Tactic.SplitIfs
import AgentSdk.Value

/-!
# The event bus

`EventBus` routes each event to one of three channels, `progress`,
`control` and `monitor`, by its type. `Emit` normalizes the event,
validates it, asks `channelForType` for the channel of its type and sends
it there. A nil bus, an event that does not validate, a type no channel
takes and a nil channel are refused with an error, and then nothing is
sent; otherwise the event goes to the channel `route` gives (`emit_spec`).

The send itself, `ch <- evt`, is Go's: it panics on a closed channel, and
it blocks while the channel has no room, until a receiver makes some or
the channel is closed. The channels are the caller's, who receives from
them and closes them. `Emit` holds no lock, so calls from any number of
goroutines interleave with one another and with the receives and the
closes (`Bus.step`). Over any such interleaving (`run_deliveries`) a call
returns `nil` exactly when its channel took its event; each call's event
is taken at most once, only by the channel `route` gives it, and
normalized; a call that returns an error returns `Emit`'s and sends
nothing; and a call panics only at a send on a channel that is closed. A
blocked send completes as soon as a receiver makes room
(`send_after_recv`), so no accepted event is lost while its channel stays
open.

`normalizeEvent`, `Validate`, `channelForType` and the channel type are not
among the sources, so they are arguments (`Router`); `Emit`'s switch names
the three channels and refuses any other value in its `default` case.
-/

namespace Event

/-- The channels `Emit`'s switch names, and any other value of the
channel type. -/
inductive Channel where
  | progress | control | monitor | other
  deriving DecidableEq, Repr

/-- What `Emit` takes from code that is not at hand: `normalizeEvent`,
`Validate`, the `Type` of an event, and `channelForType` with its `ok`. -/
structure Router (E : Type) where
  normalizeEvent : E → E
  Validate : E → Option GoError
  type : E → String
  channelForType : String → Option Channel

/-- **`EventBus`**, by which of its channels are set. -/
structure EventBus where
  progress : Bool
  control : Bool
  monitor : Bool

/-- **`NewEventBus`**. -/
def newEventBus (progress control monitor : Bool) : EventBus := ⟨progress, control, monitor⟩

/-- **`errNilBus`**. -/
def errNilBus : GoError := ⟨"event: bus is nil"⟩

/-- **`errUnknownEvent`**. -/
def errUnknownEvent : GoError := ⟨"event: unknown type"⟩

/-- **`errUnboundProgress`**. -/
def errUnboundProgress : GoError := ⟨"event: progress channel not bound"⟩

/-- **`errUnboundControl`**. -/
def errUnboundControl : GoError := ⟨"event: control channel not bound"⟩

/-- **`errUnboundMonitor`**. -/
def errUnboundMonitor : GoError := ⟨"event: monitor channel not bound"⟩

variable {E : Type}

/-- **`dispatch`**: the send of `evt` on `ch` it makes, or `errUnbound`
when the channel is nil. The send, and the `nil` returned after it, are
a step of their own (`Bus.step`). -/
def dispatch (bound : Bool) (ch : Channel) (evt : E) (errUnbound : GoError) :
    Except GoError (Channel × E) :=
  if bound then .ok (ch, evt) else .error errUnbound

/-- **`Emit`**, up to its send: the send it makes, or the error it
returns. -/
def emit (r : Router E) (b : Option EventBus) (evt : E) : Except GoError (Channel × E) :=
  match b with
  | none => .error errNilBus
  | some b =>
    let normalized := r.normalizeEvent evt
    match r.Validate normalized with
    | some err => .error err
    | none =>
      match r.channelForType (r.type normalized) with
      | none => .error ⟨errUnknownEvent.Error ++ ": " ++ r.type normalized⟩
      | some .progress => dispatch b.progress .progress normalized errUnboundProgress
      | some .control => dispatch b.control .control normalized errUnboundControl
      | some .monitor => dispatch b.monitor .monitor normalized errUnboundMonitor
      | some .other => .error ⟨errUnknownEvent.Error ++ ": " ++ r.type normalized⟩

/-! ## Where an event goes -/

/-- Whether a channel of the bus is set; `other` is none of them. -/
def EventBus.bound (b : EventBus) : Channel → Bool
  | .progress => b.progress
  | .control => b.control
  | .monitor => b.monitor
  | .other => false

/-- **The channel an event is sent to**: the channel of its normalized
type, when it validates and that channel is one of the three and bound. -/
def route (r : Router E) (b : EventBus) (evt : E) : Option Channel :=
  if r.Validate (r.normalizeEvent evt) = none then
    (r.channelForType (r.type (r.normalizeEvent evt))).filter b.bound
  else none

/-- **What one `Emit` decides**: the send of the normalized event on the
channel `route` gives, or, where it gives none, an error. -/
theorem emit_spec (r : Router E) (b : EventBus) (evt : E) :
    (emit r (some b) evt).toOption = (route r b evt).map (·, r.normalizeEvent evt) := by
  unfold emit route
  dsimp only
  cases r.Validate (r.normalizeEvent evt) with
  | some err => rfl
  | none =>
    rcases r.channelForType (r.type (r.normalizeEvent evt)) with _ | ⟨_ | _ | _ | _⟩ <;>
      simp only [dispatch, Option.filter, EventBus.bound] <;> split <;> rfl

/-! ## Sends from many goroutines -/

/-- Where an `Emit` call stands: before it runs, on its event; at its
send of the normalized event on a channel; returned, with what `Emit`
returns; or panicked at its send. -/
inductive Pc (E : Type) where
  | start (evt : E)
  | sending (ch : Channel) (evt : E)
  | returned (err : Option GoError)
  | panicked

/-- **The calls and the channels**: where each call stands; the channels
that are closed; how many sends each channel takes now without blocking,
the free places of its buffer and the receivers waiting on it; and the
sends taken, in the order they happened, each with its call. -/
structure Bus (E : Type) where
  calls : List (Pc E)
  closed : Channel → Bool
  room : Channel → Nat
  sent : List (Nat × Channel × E)

/-- What can happen next: a call runs `Emit` up to its send, or to the
error it returns; a call's send completes or panics; a receiver takes from
a channel or waits on it, which makes room for one more send; the owner of
a channel closes it. -/
inductive Act where
  | emit (i : Nat)
  | send (i : Nat)
  | recv (ch : Channel)
  | close (ch : Channel)

namespace Bus

/-- The calls on `evts`, none of them started, on channels that are open,
each with room for its buffer's free places. -/
def init (evts : List E) (room : Channel → Nat) : Bus E := ⟨evts.map .start, fun _ => false, room, []⟩

/-- The call `i` moved to `pc`. -/
def move (s : Bus E) (i : Nat) (pc : Pc E) : Bus E := { s with calls := s.calls.set i pc }

@[simp]
theorem move_closed (s : Bus E) (i : Nat) (pc : Pc E) : (s.move i pc).closed = s.closed := rfl

@[simp]
theorem move_sent (s : Bus E) (i : Nat) (pc : Pc E) : (s.move i pc).sent = s.sent := rfl

theorem move_calls (s : Bus E) (i j : Nat) (pc : Pc E) :
    (s.move i pc).calls[j]? = if i = j then s.calls[j]?.map fun _ => pc else s.calls[j]? := by
  unfold move
  rw [List.getElem?_set]
  split_ifs with h
  · subst h
    rw [List.getElem?_eq_getElem ‹_›]
    rfl
  · subst h
    rw [List.getElem?_eq_none (by omega)]
    rfl
  · rfl

variable (r : Router E) (b : Option EventBus)

/-- **One step.** `Emit` runs up to its send, which is a step of its own:
on a closed channel it panics; on an open one with room it completes and
`Emit` returns `nil`; on one without room it blocks, and there is no step
until a receiver makes room or the channel is closed. Closing a closed
channel panics in the closer, which is not the bus's code: there is no
step. -/
def step (s : Bus E) : Act → Option (Bus E)
  | .emit i =>
    match s.calls[i]? with
    | some (.start evt) =>
      some (s.move i (match emit r b evt with
        | .ok (ch, e) => .sending ch e
        | .error err => .returned (some err)))
    | _ => none
  | .send i =>
    match s.calls[i]? with
    | some (.sending ch e) =>
      if s.closed ch then some (s.move i .panicked)
      else if 0 < s.room ch then
        some { s.move i (.returned none) with
          room := fun c => if c = ch then s.room ch - 1 else s.room c
          sent := s.sent ++ [(i, ch, e)] }
      else none
    | _ => none
  | .recv ch => some { s with room := fun c => if c = ch then s.room ch + 1 else s.room c }
  | .close ch => if s.closed ch then none else some { s with closed := fun c => c = ch || s.closed c }

/-- **An interleaving**: the steps, in order; `none` when one cannot
happen. -/
def runs (s : Bus E) : List Act → Option (Bus E)
  | [] => some s
  | a :: as => (s.step r b a).bind (runs · as)

/-- **A blocked send completes once a receiver makes room**: a call at its
send on an open channel returns `nil` after a receive on that channel,
and the channel takes its event. -/
theorem send_after_recv {s : Bus E} {i : Nat} {ch : Channel} {e : E}
    (hi : s.calls[i]? = some (.sending ch e)) (hc : s.closed ch = false) :
    ∃ s', s.runs r b [.recv ch, .send i] = some s' ∧ s'.calls[i]? = some (.returned none) ∧
      s'.sent = s.sent ++ [(i, ch, e)] := by
  simp only [runs, step, Option.bind_eq_bind, Option.some_bind, hi, hc, ↓reduceIte, Nat.succ_pos,
    Bool.false_eq_true, Option.some.injEq, exists_eq_left', move_calls, Option.map_some', and_true]

/-! ## What every interleaving keeps -/

/-- Where the call on `evt` may stand, given what `Emit` makes of it and
the channels that are closed. -/
def Fits (closed : Channel → Bool) (evt : E) : Pc E → Prop
  | .start e => e = evt
  | .sending ch e => emit r b evt = .ok (ch, e)
  | .returned none => ∃ ch e, emit r b evt = .ok (ch, e)
  | .returned (some err) => emit r b evt = .error err
  | .panicked => ∃ ch e, emit r b evt = .ok (ch, e) ∧ closed ch = true

/-- A closed channel stays closed. -/
theorem Fits.mono {closed closed' : Channel → Bool} (hc : ∀ ch, closed ch = true → closed' ch = true)
    {evt : E} : ∀ {pc : Pc E}, Fits r b closed evt pc → Fits r b closed' evt pc
  | .panicked, ⟨ch, e, he, hch⟩ => ⟨ch, e, he, hc ch hch⟩
  | .start _, h | .sending _ _, h | .returned none, h | .returned (some _), h => h

/-- **What an interleaving from `init evts room` keeps**: a call for each
event, standing where `Emit` puts it; the sends taken are those of the
calls that returned `nil`, each the send `Emit` decided for its event;
and no call's send is taken twice. -/
structure Inv (evts : List E) (s : Bus E) : Prop where
  length : s.calls.length = evts.length
  fits : ∀ (i : Nat) (evt : E) (pc : Pc E), evts[i]? = some evt → s.calls[i]? = some pc → Fits r b s.closed evt pc
  sent : ∀ (i : Nat) (ch : Channel) (e : E), (i, ch, e) ∈ s.sent ↔
    s.calls[i]? = some (.returned none) ∧ ∃ evt, evts[i]? = some evt ∧ emit r b evt = .ok (ch, e)
  nodup : (s.sent.map (·.1)).Nodup

variable {r b} {evts : List E}

theorem init_inv (evts : List E) (room : Channel → Nat) : Inv r b evts (init evts room) where
  length := List.length_map _ _
  fits i evt pc he hp := by
    rw [init, List.getElem?_map, he] at hp
    cases hp
    rfl
  sent i ch e := by
    simp only [init, List.getElem?_map, List.not_mem_nil, false_iff]
    rintro ⟨h, -⟩
    cases hs : evts[i]? <;> rw [hs] at h <;> cases h
  nodup := List.nodup_nil

/-- A call stands for one of the events. -/
theorem Inv.event {s : Bus E} (hs : Inv r b evts s) {i : Nat} {pc : Pc E}
    (hi : s.calls[i]? = some pc) : ∃ evt, evts[i]? = some evt := by
  obtain ⟨h, -⟩ := List.getElem?_eq_some_iff.mp hi
  rw [hs.length] at h
  exact ⟨_, List.getElem?_eq_getElem h⟩

/-- After a move of the call `i`, the calls stand where `Emit` puts them,
when `i` does. -/
theorem Inv.fits_move {s : Bus E} (hs : Inv r b evts s) {i : Nat} {pc' : Pc E}
    (hfit : ∀ evt, evts[i]? = some evt → Fits r b s.closed evt pc') (j : Nat) (evt : E) (q : Pc E)
    (he : evts[j]? = some evt) (hq : (s.move i pc').calls[j]? = some q) : Fits r b s.closed evt q := by
  rw [move_calls] at hq
  split_ifs at hq with hij
  · subst hij
    cases hc : s.calls[i]? <;> rw [hc] at hq <;> cases hq
    exact hfit evt he
  · exact hs.fits j evt q he hq

/-- **A move that sends nothing** keeps the record, when neither the old
place of the call nor its new one is a return of `nil`. -/
theorem Inv.move {s : Bus E} (hs : Inv r b evts s) {i : Nat} {pc pc' : Pc E}
    (hi : s.calls[i]? = some pc) (hpc : pc ≠ .returned none) (hpc' : pc' ≠ .returned none)
    (hfit : ∀ evt, evts[i]? = some evt → Fits r b s.closed evt pc') : Inv r b evts (s.move i pc') where
  length := (List.length_set _ _ _).trans hs.length
  fits := hs.fits_move hfit
  sent j ch e := by
    rw [move_sent, hs.sent, move_calls]
    split_ifs with hij
    · subst hij
      simp only [hi, Option.map_some', Option.some.injEq, hpc, hpc', false_and]
    · rfl
  nodup := hs.nodup

/-- **A send taken**: the call `i` at its send of `e` on `ch` returns
`nil`, and the send goes at the end of the record. -/
theorem Inv.take {s : Bus E} (hs : Inv r b evts s) {i : Nat} {ch : Channel} {e : E}
    (hi : s.calls[i]? = some (.sending ch e)) (room : Channel → Nat) :
    Inv r b evts { s.move i (.returned none) with room := room, sent := s.sent ++ [(i, ch, e)] } := by
  have hfit : ∀ evt, evts[i]? = some evt → emit r b evt = .ok (ch, e) := fun evt he =>
    hs.fits i evt _ he hi
  have hnot : ∀ c x, (i, c, x) ∉ s.sent := fun c x h => by
    rw [hs.sent, hi] at h
    cases h.1
  refine ⟨(List.length_set _ _ _).trans hs.length, hs.fits_move fun evt he => ⟨ch, e, hfit evt he⟩,
    fun j c x => ?_, ?_⟩
  · -- the record gains the send of `i`, and no other
    rw [List.mem_append, List.mem_singleton, move_calls]
    split_ifs with hij
    · subst hij
      obtain ⟨evt, he⟩ := hs.event hi
      simp only [hi, he, hfit evt he, hnot, false_or, Option.map_some', Option.some.injEq,
        Prod.mk.injEq, Except.ok.injEq, true_and, exists_eq_left']
      exact ⟨fun ⟨h1, h2⟩ => ⟨h1.symm, h2.symm⟩, fun ⟨h1, h2⟩ => ⟨h1.symm, h2.symm⟩⟩
    · simp only [hs.sent, Prod.mk.injEq, Ne.symm hij, false_and, or_false]
  · -- and `i` was not in it
    simp only [List.map_append, List.map_cons, List.map_nil]
    refine List.pairwise_append.mpr ⟨hs.nodup, List.pairwise_singleton _ _, ?_⟩
    simp only [List.mem_map, List.mem_singleton]
    rintro _ ⟨⟨j, c, x⟩, hm, rfl⟩ _ rfl rfl
    exact hnot c x hm

/-- **Each step keeps the record.** A call runs `Emit` from its event to
what `Emit` decides; a send that panics or is taken moves a call from its
send; a receive changes only the room, and a close only closes. -/
theorem Inv.step {s s' : Bus E} (hs : Inv r b evts s) {a : Act} (h : s.step r b a = some s') :
    Inv r b evts s' := by
  cases a with
  | emit i =>
    simp only [Bus.step] at h
    split at h
    · rename_i evt hi
      cases h
      obtain ⟨evt', he⟩ := hs.event hi
      obtain rfl : evt = evt' := hs.fits i evt' _ he hi
      rcases hm : emit r b evt with err | ⟨ch, e⟩ <;>
        exact hs.move hi nofun nofun fun _ he' => by rw [he] at he'; cases he'; exact hm
    · cases h
  | send i =>
    simp only [Bus.step] at h
    split at h
    · rename_i ch e hi
      split at h
      · rename_i hc
        cases h
        exact hs.move hi nofun nofun fun evt he => ⟨ch, e, hs.fits i evt _ he hi, hc⟩
      · split at h
        · cases h
          exact hs.take hi _
        · cases h
    · cases h
  | recv ch =>
    cases h
    exact ⟨hs.length, hs.fits, hs.sent, hs.nodup⟩
  | close ch =>
    simp only [Bus.step] at h
    split at h
    · cases h
    · cases h
      exact ⟨hs.length, fun i evt pc he hp => Fits.mono r b (fun c hc => by simp [hc])
        (hs.fits i evt pc he hp), hs.sent, hs.nodup⟩

/-- **Every interleaving keeps the record.** -/
theorem Inv.runs : ∀ {s s' : Bus E} (acts : List Act), Inv r b evts s →
    s.runs r b acts = some s' → Inv r b evts s'
  | _, _, [], hs, h => Option.some.inj h ▸ hs
  | s, _, a :: as, hs, h => by
    unfold Bus.runs at h
    cases hstep : s.step r b a with
    | none => rw [hstep] at h; cases h
    | some s₁ =>
      rw [hstep] at h
      exact Inv.runs as (hs.step hstep) h

end Bus

/-- A send `Emit` decides on a bus is of the normalized event, on the
channel `route` gives. -/
theorem route_of_emit {r : Router E} {b : EventBus} {evt : E} {ch : Channel} {e : E}
    (h : emit r (some b) evt = .ok (ch, e)) : route r b evt = some ch ∧ e = r.normalizeEvent evt := by
  have hs := emit_spec r b evt
  rw [h] at hs
  cases hr : route r b evt with
  | none => rw [hr] at hs; cases hs
  | some c =>
    rw [hr] at hs
    cases hs
    exact ⟨rfl, rfl⟩

/-- **Each accepted event is taken once, by its channel, and a call
panics only on a closed one.** Over any interleaving of `Emit` calls on
the events `evts` with receives and closes of the channels, the sends
taken are of distinct calls, and for each call: it returned `nil`
exactly when its send was taken; a send taken is its event normalized,
on the channel `route` gives it; an error it returned is `Emit`'s; and if
it panicked, its event has a channel, and that channel is closed. -/
theorem run_deliveries (r : Router E) (b : EventBus) (evts : List E) (room : Channel → Nat)
    (acts : List Act) {s : Bus E} (h : (Bus.init evts room).runs r (some b) acts = some s) :
    (s.sent.map (·.1)).Nodup ∧
      ∀ i evt, evts[i]? = some evt →
        (s.calls[i]? = some (.returned none) ↔ ∃ ch e, (i, ch, e) ∈ s.sent) ∧
        (∀ ch e, (i, ch, e) ∈ s.sent → route r b evt = some ch ∧ e = r.normalizeEvent evt) ∧
        (∀ err, s.calls[i]? = some (.returned (some err)) → emit r (some b) evt = .error err) ∧
        (s.calls[i]? = some .panicked → ∃ ch, route r b evt = some ch ∧ s.closed ch = true) := by
  have hs := (Bus.init_inv evts room).runs acts h
  refine ⟨hs.nodup, fun i evt he => ⟨⟨fun hr => ?_, fun ⟨ch, e, hm⟩ => ((hs.sent i ch e).mp hm).1⟩,
    fun ch e hm => ?_, fun err herr => hs.fits i evt _ he herr, fun hp => ?_⟩⟩
  · obtain ⟨ch, e, hemit⟩ := hs.fits i evt _ he hr
    exact ⟨ch, e, (hs.sent i ch e).mpr ⟨hr, evt, he, hemit⟩⟩
  · obtain ⟨-, evt', he', hemit⟩ := (hs.sent i ch e).mp hm
    rw [he] at he'
    cases he'
    exact route_of_emit hemit
  · obtain ⟨ch, e, hemit, hc⟩ := hs.fits i evt _ he hp
    exact ⟨ch, (route_of_emit hemit).1, hc⟩

/-- Two `progress` events and one of an unknown type, on a bus whose
`progress` channel is unbuffered: the first call's send is taken after a
receive, the channel is then closed and the second call's send panics,
and the third call returns the unknown-type error. -/
theorem run_deliveries_close :
    let r : Router String :=
      ⟨id, fun _ => none, id, fun t => if t = "progress" then some .progress else none⟩
    let b : EventBus := ⟨true, true, true⟩
    let evts := ["progress", "progress", "tick"]
    let acts : List Act := [.emit 0, .emit 1, .emit 2, .recv .progress, .send 0, .close .progress, .send 1]
    ∃ s, (Bus.init evts fun _ => 0).runs r (some b) acts = some s ∧
      s.calls = [.returned none, .panicked, .returned (some ⟨"event: unknown type: tick"⟩)] ∧
      s.sent = [(0, .progress, "progress")] ∧
      ∃ ch, route r b "progress" = some ch ∧ s.closed ch = true := by
  intro r b evts acts
  refine ⟨_, rfl, rfl, rfl, ?_⟩
  exact ((run_deliveries r b evts (fun _ => 0) acts rfl).2 1 "progress" rfl).2.2.2 rfl

end Event
