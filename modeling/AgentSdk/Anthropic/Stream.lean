import AgentSdk.Anthropic.Sse
import AgentSdk.Anthropic.Convert
import Mathlib.Data.String.Basic

/-!
# Streaming a reply

`GenerateStream` reads the SSE body of a streaming request through
`consumeSSE`, with a handler that decodes each payload. The text of every
`content_block_delta` is written to `full` and handed to the callback `cb`
as it arrives. The first `message_stop` hands `cb` the final message,
holding all of `full`; a later one is ignored. When the body ends with no
`message_stop`, `GenerateStream` sends the final message itself.

What the handler keeps between payloads depends on the payloads alone, and
not on what `cb` returns (`replay_eq`). So the results handed to `cb` are
fixed by the payloads: one per non-empty delta text, then the final one
with the concatenation of those texts, at the first `message_stop` or at
the end of the body (`generateStream_final`). This holds as long as the
read is not cut short: the body is the whole body, as `AnthropicModel`
hands it over, and a reader that fails part-way is left out. A failure of decoding or of `cb` ends the read with
that error. So does the context, and so does a line that reaches the
scanner's limit; in those cases `GenerateStream` returns the error and
never sends the final message (`generateStream_canceled_no_final`).
-/

namespace Model

/-- **`model.StreamResult`**, modelled from its uses: a message, and
whether it is the final one of the stream. -/
structure StreamResult where
  Message : Message
  Final : Bool
  deriving Repr

/-- **A `StreamCallback`**, by what it returns. Like `fn`, it may keep
state of its own, so its answer is a function of the results handed to it
before as well as of the result. -/
abbrev StreamCallback := List StreamResult → StreamResult → Option GoError

end Model

namespace Anthropic

open GoString

/-- **What `json.Unmarshal` gives the handler** of a payload: the `type`
of its envelope, and the `delta.text` of a `content_block_delta` event;
or the error that decoding fails with. -/
structure StreamDecoder where
  envelopeType : String → Except GoError String
  deltaText : String → Except GoError String

/-- The variables the handler shares with `GenerateStream`: the text in
`full`, `finalSent`, and the results handed to `cb` so far. -/
structure StreamState where
  full : String
  finalSent : Bool
  sent : List Model.StreamResult

/-- The results `GenerateStream` hands `cb`: the assistant's text, final
or not. -/
def streamResult (content : String) (final : Bool) : Model.StreamResult :=
  ⟨⟨"assistant", content, []⟩, final⟩

/-- Hand `cb` a result. -/
def StreamState.emit (cb : Model.StreamCallback) (st : StreamState) (res : Model.StreamResult) :
    StreamState × Option GoError :=
  ({ st with sent := st.sent ++ [res] }, cb st.sent res)

/-- **The handler of `GenerateStream`**, on one payload. A blank payload is
skipped; `message_start`, `content_block_start`, `content_block_stop`,
`message_delta`, `ping` and unknown types are ignored. -/
def handle (dec : StreamDecoder) (cb : Model.StreamCallback) (st : StreamState) (data : String) :
    StreamState × Option GoError :=
  let data := trimSpace data
  if data = "" then (st, none)
  else
    match dec.envelopeType data with
    | .error err => (st, some ⟨"decode anthropic stream envelope: " ++ err.Error⟩)
    | .ok type =>
      if type = "content_block_delta" then
        match dec.deltaText data with
        | .error err => (st, some ⟨"decode anthropic delta: " ++ err.Error⟩)
        | .ok chunk =>
          if chunk = "" then (st, none)
          else { st with full := st.full ++ chunk }.emit cb (streamResult chunk false)
      else if type = "message_stop" then
        if st.finalSent then (st, none)
        else { st with finalSent := true }.emit cb (streamResult st.full true)
      else (st, none)

/-- The handler's variables after the payloads `consumeSSE` delivered so
far. -/
def replay (dec : StreamDecoder) (cb : Model.StreamCallback) (delivered : List (String × String)) :
    StreamState :=
  delivered.foldl (fun st p => (handle dec cb st p.2).1) ⟨"", false, []⟩

/-- **The callback `GenerateStream` passes to `consumeSSE`**: the handler,
on the variables the payloads before it left. -/
def handler (dec : StreamDecoder) (cb : Model.StreamCallback) : Callback :=
  fun delivered _ data => (handle dec cb (replay dec cb delivered) data).2

/-- **`GenerateStream`**, once the request is answered. `response` is the
body of a response whose status is below 300, or the error that
`doRequest` or `readAPIError` returns; `done` is the context, as
`consumeSSE` reads it. The results handed to `cb` are returned with the
error. -/
def generateStream (dec : StreamDecoder) (done : Nat → Option GoError)
    (response : Except GoError String) (cb : Option Model.StreamCallback) :
    List Model.StreamResult × Option GoError :=
  match cb with
  | none => ([], some ⟨"anthropic stream callback is required"⟩)
  | some cb =>
    match response with
    | .error err => ([], some err)
    | .ok body =>
      let (delivered, streamErr) := consumeSSE done body (handler dec cb)
      let st := replay dec cb delivered
      match streamErr with
      | some err => (st.sent, some err)
      | none =>
        if !st.finalSent then
          let (st, err) := st.emit cb (streamResult st.full true)
          (st.sent, err)
        else (st.sent, none)

/-! ## What a payload is to the handler -/

/-- **What a payload is to the handler.** -/
inductive PayloadKind where
  /-- A `content_block_delta` with a non-empty text. -/
  | chunk (text : String)
  | stop
  /-- A blank payload, one of another type, or one that does not decode. -/
  | skip
  deriving DecidableEq

/-- The kind of a payload, as the handler decodes it. -/
def classify (dec : StreamDecoder) (data : String) : PayloadKind :=
  let data := trimSpace data
  if data = "" then .skip
  else
    match dec.envelopeType data with
    | .error _ => .skip
    | .ok type =>
      if type = "content_block_delta" then
        match dec.deltaText data with
        | .error _ => .skip
        | .ok chunk => if chunk = "" then .skip else .chunk chunk
      else if type = "message_stop" then .stop
      else .skip

/-- Whether a payload decodes: its envelope, and the delta of a
`content_block_delta`. A blank payload is never decoded. -/
def decodes (dec : StreamDecoder) (data : String) : Bool :=
  let data := trimSpace data
  if data = "" then true
  else
    match dec.envelopeType data with
    | .error _ => false
    | .ok type =>
      if type = "content_block_delta" then
        match dec.deltaText data with
        | .error _ => false
        | .ok _ => true
      else true

/-- The texts of the delta payloads, in order. -/
def chunks (kinds : List PayloadKind) : List String :=
  kinds.filterMap fun | .chunk c => some c | _ => none

/-- **What one payload does to the handler's variables.** -/
def advance (st : StreamState) : PayloadKind → StreamState
  | .chunk c => { st with full := st.full ++ c, sent := st.sent ++ [streamResult c false] }
  | .stop =>
    if st.finalSent then st
    else { st with finalSent := true, sent := st.sent ++ [streamResult st.full true] }
  | .skip => st

/-- The result a payload hands `cb`, if any. -/
def emitted (st : StreamState) : PayloadKind → Option Model.StreamResult
  | .chunk c => some (streamResult c false)
  | .stop => if st.finalSent then none else some (streamResult st.full true)
  | .skip => none

theorem advance_sent (st : StreamState) (kind : PayloadKind) :
    (advance st kind).sent = st.sent ++ (emitted st kind).toList := by
  cases kind with
  | chunk c => rfl
  | stop => by_cases hf : st.finalSent <;> simp [advance, emitted, hf]
  | skip => simp [advance, emitted]

/-! ## The handler -/

section Handler

variable {dec : StreamDecoder} {cb : Model.StreamCallback} {st : StreamState} {data : String}

/-- **A payload that decodes** moves the variables as its kind says, and
fails with what `cb` answers to the result it hands it, if any. -/
theorem handle_of_decodes (h : decodes dec data = true) :
    handle dec cb st data =
      (advance st (classify dec data), (emitted st (classify dec data)).bind (cb st.sent)) := by
  unfold decodes at h
  unfold handle classify
  dsimp only at h ⊢
  by_cases hb : trimSpace data = ""
  · simp [hb, advance, emitted]
  rcases he : dec.envelopeType (trimSpace data) with err | type
  · simp [hb, he] at h
  by_cases ht : type = "content_block_delta"
  · rcases hd : dec.deltaText (trimSpace data) with err | chunk
    · simp [hb, he, ht, hd] at h
    · by_cases hc : chunk = "" <;> simp [hb, he, ht, hd, hc, advance, emitted, StreamState.emit]
  · by_cases hs : type = "message_stop"
    · by_cases hf : st.finalSent <;>
        simp [hb, he, ht, hs, hf, advance, emitted, StreamState.emit]
    · simp [hb, he, ht, hs, advance, emitted]

/-- **A payload that does not decode** fails and leaves the variables as
they were. -/
theorem handle_of_not_decodes (h : decodes dec data = false) :
    (handle dec cb st data).1 = st ∧ (handle dec cb st data).2.isSome ∧
      classify dec data = .skip := by
  unfold decodes at h
  unfold handle classify
  dsimp only at h ⊢
  by_cases hb : trimSpace data = ""
  · simp [hb] at h
  rcases he : dec.envelopeType (trimSpace data) with err | type
  · simp [hb, he]
  by_cases ht : type = "content_block_delta"
  · rcases hd : dec.deltaText (trimSpace data) with err | chunk
    · simp [hb, he, ht, hd]
    · simp [hb, he, ht, hd] at h
  · simp [hb, he, ht] at h

/-- What the handler does to its variables does not depend on `cb`. -/
theorem handle_fst : (handle dec cb st data).1 = advance st (classify dec data) := by
  cases hd : decodes dec data
  · obtain ⟨h1, -, h3⟩ := @handle_of_not_decodes dec cb st data hd
    rw [h1, h3]
    rfl
  · rw [handle_of_decodes hd]

/-- **The handler's variables** after a run of payloads are the fold of
`advance` over their kinds. -/
theorem replay_eq (delivered : List (String × String)) :
    replay dec cb delivered =
      (delivered.map fun p => classify dec p.2).foldl advance ⟨"", false, []⟩ := by
  simp only [replay, List.foldl_map, handle_fst]

end Handler

/-! ## The results of a run of payloads -/

private theorem join_cons (c : String) (l : List String) :
    String.join (c :: l) = c ++ String.join l := by
  apply String.ext
  simp [String.data_join]

/-- **Before the final message, or after it**, a run of payloads writes the
delta texts to `full` and hands them to `cb`, one result each. -/
theorem foldl_advance_quiet :
    ∀ (kinds : List PayloadKind) (st : StreamState), (st.finalSent = true ∨ .stop ∉ kinds) →
      kinds.foldl advance st =
        ⟨st.full ++ String.join (chunks kinds), st.finalSent,
          st.sent ++ (chunks kinds).map (streamResult · false)⟩
  | [], ⟨_, _, _⟩, _ => by simp [chunks, String.join]
  | .chunk c :: kinds, st, h => by
    rw [List.foldl_cons, foldl_advance_quiet kinds (advance st (.chunk c))
      (h.imp id fun h' hs => h' (List.mem_cons_of_mem _ hs))]
    simp [advance, chunks, join_cons, String.append_assoc]
  | .stop :: kinds, st, h => by
    have hf : st.finalSent = true := h.resolve_right (by simp)
    rw [List.foldl_cons, show advance st .stop = st by simp [advance, hf],
      foldl_advance_quiet kinds st (.inl hf)]
    simp [chunks]
  | .skip :: kinds, st, h => by
    rw [List.foldl_cons, show advance st .skip = st from rfl,
      foldl_advance_quiet kinds st (h.imp id fun h' hs => h' (List.mem_cons_of_mem _ hs))]
    simp [chunks]

/-- **The first `message_stop`** hands `cb` the final message, with the
texts of the deltas before it; the deltas after it are still handed on. -/
theorem foldl_advance_first_stop {pre post : List PayloadKind} (hpre : .stop ∉ pre)
    {st : StreamState} (hst : st.finalSent = false) :
    ((pre ++ .stop :: post).foldl advance st).finalSent = true ∧
      ((pre ++ .stop :: post).foldl advance st).sent =
        st.sent ++ (chunks pre).map (streamResult · false) ++
          streamResult (st.full ++ String.join (chunks pre)) true ::
            (chunks post).map (streamResult · false) := by
  rw [List.foldl_append, foldl_advance_quiet pre st (.inr hpre), List.foldl_cons]
  simp only [advance, hst]
  rw [foldl_advance_quiet post _ (.inl rfl)]
  simp

/-! ## `GenerateStream` -/

section Run

variable {dec : StreamDecoder} {done : Nat → Option GoError} {body : String}
  {cb : Model.StreamCallback} {delivered : List (String × String)}

theorem replay_concat (pre : List (String × String)) (x : String × String) :
    replay dec cb (pre ++ [x]) = (handle dec cb (replay dec cb pre) x.2).1 := by
  simp only [replay, List.foldl_append, List.foldl_cons, List.foldl_nil]

/-- **A failed call to the handler** on a payload that decodes is a failed
call to `cb`, on the last result the payloads so far handed it. -/
theorem handler_error {pre : List (String × String)} {x : String × String} {e : GoError}
    (hx : decodes dec x.2 = true) (h : handler dec cb pre x.1 x.2 = some e) :
    ∃ res, (replay dec cb (pre ++ [x])).sent = (replay dec cb pre).sent ++ [res] ∧
      cb (replay dec cb pre).sent res = some e := by
  simp only [handler, handle_of_decodes hx] at h
  obtain ⟨res, hres, hcb⟩ := Option.bind_eq_some.mp h
  refine ⟨res, ?_, hcb⟩
  rw [replay_concat, handle_fst, advance_sent, hres]
  rfl

/-- `GenerateStream` when `consumeSSE` ends with an error: the results the
handler handed `cb`, and the error. -/
theorem generateStream_of_cut {e : GoError}
    (hc : consumeSSE done body (handler dec cb) = (delivered, some e)) :
    generateStream dec done (.ok body) (some cb) = ((replay dec cb delivered).sent, some e) := by
  simp only [generateStream, hc]

/-- `GenerateStream` when `consumeSSE` reads to the end: the results the
handler handed `cb`, then the final message unless it was sent. -/
theorem generateStream_of_read (hc : consumeSSE done body (handler dec cb) = (delivered, none)) :
    generateStream dec done (.ok body) (some cb) =
      if (replay dec cb delivered).finalSent then ((replay dec cb delivered).sent, none)
      else ((replay dec cb delivered).sent ++ [streamResult (replay dec cb delivered).full true],
        cb (replay dec cb delivered).sent (streamResult (replay dec cb delivered).full true)) := by
  simp only [generateStream, hc]
  cases (replay dec cb delivered).finalSent <;> rfl

end Run

/-- **The results of a stream read to its end.** For a body the reader
hands over whole, with no error part-way (the model's `Response` holds
such a body), under a live context, with no line at the scanner's limit,
every payload decoding and `cb` accepting everything: `GenerateStream`
returns `nil`, and the results handed to `cb` are one per non-empty delta
text, then the final message with their concatenation, at the first
`message_stop` or after the body when there is none. -/
theorem generateStream_final (dec : StreamDecoder) (done : Nat → Option GoError) (body : String)
    (cb : Model.StreamCallback) (hdone : ∀ k, done k = none) (hscan : (scanLines body).2 = none)
    (hdec : ∀ p ∈ (consumeSSE done body (handler dec cb)).1, decodes dec p.2 = true)
    (hcb : ∀ pre res post, (generateStream dec done (.ok body) (some cb)).1 = pre ++ res :: post →
      cb pre res = none) :
    let kinds := (consumeSSE done body (handler dec cb)).1.map fun p => classify dec p.2
    let results := (generateStream dec done (.ok body) (some cb)).1
    (generateStream dec done (.ok body) (some cb)).2 = none ∧
      (.stop ∉ kinds → results = (chunks kinds).map (streamResult · false) ++
        [streamResult (String.join (chunks kinds)) true]) ∧
      (∀ pre post, kinds = pre ++ .stop :: post → .stop ∉ pre →
        results = (chunks pre).map (streamResult · false) ++
          streamResult (String.join (chunks pre)) true :: (chunks post).map (streamResult · false)) := by
  dsimp only
  rcases hc : consumeSSE done body (handler dec cb) with ⟨delivered, _ | e⟩
  · -- the read reaches the end of the body
    rw [generateStream_of_read hc] at hcb ⊢
    dsimp only
    refine ⟨?_, fun hstop => ?_, fun pre post hk hpre => ?_⟩
    · split
      · rfl
      · next hf => exact hcb _ _ [] (by rw [if_neg hf])
    · rw [replay_eq, foldl_advance_quiet _ _ (.inr hstop)]
      simp
    · obtain ⟨hf, hs⟩ := @foldl_advance_first_stop pre post hpre ⟨"", false, []⟩ rfl
      rw [replay_eq, hk, if_pos hf, hs]
      simp
  · -- a cut read fails through the handler, which the hypotheses rule out
    exfalso
    obtain ⟨pre, x, hD, hx⟩ := consumeSSE_error hdone hscan (by rw [hc])
    rw [hc] at hD hdec
    dsimp only at hD hdec
    subst hD
    obtain ⟨res, hsent, hres⟩ :=
      handler_error (hdec x (List.mem_append_right _ (List.mem_singleton_self _))) hx
    have hnone := hcb _ res [] (by rw [generateStream_of_cut hc, hsent])
    rw [hres] at hnone
    cases hnone

theorem generateStream_final_hello :
    let dec : StreamDecoder :=
      ⟨fun d => .ok (if d = "stop" then "message_stop" else "content_block_delta"), fun d => .ok d⟩
    let body := "data: Hel\n\ndata: lo\n\ndata: stop\n\ndata: !\n\n"
    let kinds := (consumeSSE (fun _ => none) body (handler dec fun _ _ => none)).1.map
      fun p => classify dec p.2
    let results := (generateStream dec (fun _ => none) (.ok body) (some fun _ _ => none)).1
    (generateStream dec (fun _ => none) (.ok body) (some fun _ _ => none)).2 = none ∧
      (.stop ∉ kinds → results = (chunks kinds).map (streamResult · false) ++
        [streamResult (String.join (chunks kinds)) true]) ∧
      (∀ pre post, kinds = pre ++ .stop :: post → .stop ∉ pre →
        results = (chunks pre).map (streamResult · false) ++
          streamResult (String.join (chunks pre)) true :: (chunks post).map (streamResult · false)) :=
  generateStream_final _ _ _ _ (fun _ => rfl) (by decide) (by decide) fun _ _ _ _ => rfl

/-- **A read cut short never sends the final message.** Every payload
decodes and `cb` answers `nil`, but the context is done when the third
line is read: `cb` has had the first delta and no final message, and
`GenerateStream` returns the context's error. -/
theorem generateStream_canceled_no_final :
    let dec : StreamDecoder := ⟨fun _ => .ok "content_block_delta", fun d => .ok d⟩
    let done : Nat → Option GoError := fun k => if k < 2 then none else some ⟨"context canceled"⟩
    (consumeSSE done "data: hi\n\ndata: more\n\n" (handler dec fun _ _ => none)).1 = [("", "hi")] ∧
      decodes dec "hi" = true ∧
      generateStream dec done (.ok "data: hi\n\ndata: more\n\n") (some fun _ _ => none) =
        ([streamResult "hi" false], some ⟨"context canceled"⟩) :=
  ⟨rfl, rfl, rfl⟩

end Anthropic
