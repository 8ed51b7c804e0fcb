import AgentSdk.Text
import AgentSdk.Value

/-!
# Reading a Server-Sent Events stream

`consumeSSE` reads the response body line by line with a `bufio.Scanner`
and folds the lines into events: `event:` sets the name, each `data:`
line is appended to a buffer, a blank line hands the name and the buffer to
the callback `fn`, and every other line, a comment, another field or a line
with no colon, is skipped. Before each line it looks at the context, and
the first error, of the context or of `fn`, ends the read. At the end of
the input the scanner's error is returned, or else the buffer still held
is flushed.

## The scanner

`bufio.Scanner` with `ScanLines` yields the text between `\n`s, without a
trailing `\r`, and the text after the last `\n` when it is not empty. The
buffer `consumeSSE` gives it grows to 1 MiB, and a line, counted in bytes
without its `\n`, that fills the buffer stops the scan with `ErrTooLong`
after the lines before it. A last line with no `\n` of exactly 1 MiB is
read when the reader returns its last bytes together with EOF; the model
takes a reader that returns EOF on a read of its own, which fails there.

## What a stream decodes to

A sender that writes each event as an `event:` line, one `data:` line per
line of data and a blank line, with lines the loop skips anywhere in
between, has `fn` called once per event, in order, with the event's
name and its data lines joined by `\n` (`consumeSSE_streamOf`). Two things
are needed. Every line of the stream is shorter than the scanner's 1 MiB,
prefix included. And the first data line of each event is not empty: the
buffer adds the `\n` before a line only when it already holds something,
so leading empty data lines vanish, and an event whose data lines are all
empty is never delivered (`consumeSSE_leading_empty_data`).
-/

namespace Anthropic

open GoString

/-! ## `bufio.Scanner` -/

/-- `bufio.ErrTooLong`. -/
def errTooLong : GoError := ⟨"bufio.Scanner: token too long"⟩

/-- The largest token `consumeSSE`'s scanner holds: `1024*1024` bytes. -/
def maxTokenSize : Nat := 1024 * 1024

/-- The lines of a text and the line being read, reversed in `acc`: the
pieces between `\n`s, and the last one only when it is not empty. -/
def splitLines : List Char → List Char → List (List Char)
  | [], acc => if acc = [] then [] else [acc.reverse]
  | c :: rest, acc => if c = '\n' then acc.reverse :: splitLines rest [] else splitLines rest (c :: acc)

/-- **`dropCR`**: drop one trailing `\r`. -/
def dropCR (line : List Char) : List Char :=
  if line.getLast? = some '\r' then line.dropLast else line

/-- **The tokens of `bufio.Scanner` with `ScanLines`**, and the error it
stops with. -/
def scanLines (input : String) : List String × Option GoError :=
  go (splitLines input.data [])
where
  /-- The scan over the raw lines. -/
  go : List (List Char) → List String × Option GoError
  | [] => ([], none)
  | line :: rest =>
    if maxTokenSize ≤ (String.mk line).utf8ByteSize then ([], some errTooLong)
    else ((⟨dropCR line⟩ : String) :: (go rest).1, (go rest).2)

/-! ## `consumeSSE` -/

/-- **The callback `fn`.** It may keep state of its own, so what it
returns is a function of the calls made before as well as of its
arguments. -/
abbrev Callback := List (String × String) → String → String → Option GoError

/-- The variables of `consumeSSE`, with the calls made so far. -/
structure SseState where
  eventName : String
  dataBuf : String
  calls : List (String × String)

/-- **`flush`**: with an empty buffer, forget the name; otherwise empty the
buffer and call `fn` with the name and the buffer. -/
def flush (fn : Callback) (st : SseState) : SseState × Option GoError :=
  if st.dataBuf = "" then ({ st with eventName := "" }, none)
  else (⟨st.eventName, "", st.calls ++ [(st.eventName, st.dataBuf)]⟩,
    fn st.calls st.eventName st.dataBuf)

/-- **The body of the loop** on one line, once the context has been looked
at: the new variables, and the error that ends the loop. -/
def processLine (fn : Callback) (st : SseState) (line : String) : SseState × Option GoError :=
  if line = "" then
    match flush fn st with
    | (st, some err) => (st, some err)
    | (st, none) => ({ st with eventName := "" }, none)
  else if hasPrefix line ":" then (st, none)
  else if hasPrefix line "event:" then ({ st with eventName := trimSpace (sliceFrom line 6) }, none)
  else if hasPrefix line "data:" then
    let buf := if st.dataBuf ≠ "" then st.dataBuf.push '\n' else st.dataBuf
    ({ st with dataBuf := buf ++ trimSpace (sliceFrom line 5) }, none)
  else (st, none)

/-- **The loop of `consumeSSE`** over the scanned lines; `done k` is what
the context reports when the `k`-th line is read. The error is the one
that ended the loop early, if any. -/
def consumeLines (done : Nat → Option GoError) (fn : Callback) :
    Nat → List String → SseState → SseState × Option GoError
  | _, [], st => (st, none)
  | k, line :: rest, st =>
    match done k with
    | some err => (st, some err)
    | none =>
      match processLine fn st line with
      | (st, some err) => (st, some err)
      | (st, none) => consumeLines done fn (k + 1) rest st

/-- **`consumeSSE`**: the calls made to `fn` and the error returned. -/
def consumeSSE (done : Nat → Option GoError) (input : String) (fn : Callback) :
    List (String × String) × Option GoError :=
  let (lines, scanErr) := scanLines input
  let (st, err) := consumeLines done fn 0 lines ⟨"", "", []⟩
  match err, scanErr with
  | some err, _ => (st.calls, some err)
  | none, some err => (st.calls, some err)
  | none, none => ((flush fn st).1.calls, (flush fn st).2)

/-! ## Streams a sender writes -/

/-- **An event** as a sender means it: a name, possibly empty, and its
lines of data. -/
structure SseEvent where
  name : String
  data : List String

/-- The call an event should cause: its name, and its data lines joined by
`\n`. -/
def SseEvent.payload (e : SseEvent) : String × String :=
  (e.name, "\n".intercalate e.data)

/-- **The standard encoding of an event**: an `event:` line when it has a
name, a `data:` line per line of data, and a blank line. -/
def SseEvent.encode (e : SseEvent) : List String :=
  (if e.name = "" then [] else ["event: " ++ e.name]) ++ e.data.map ("data: " ++ ·) ++ [""]

/-- **A line the loop of `consumeSSE` passes over**: any line that is not
blank and starts neither with `event:` nor with `data:`. Comments (`: …`),
other fields (`id: 7`) and lines with no colon (`retry`) are all such
lines. -/
def isNoise (line : String) : Bool :=
  line ≠ "" && !hasPrefix line "event:" && !hasPrefix line "data:"

/-- The text of a stream of lines, each ended by `\n`. -/
def streamOf (lines : List String) : String :=
  ⟨lines.flatMap fun line => line.data ++ ['\n']⟩

/-- A line holds no line break. -/
def NoBreaks (s : String) : Prop := '\n' ∉ s.data ∧ '\r' ∉ s.data

instance : DecidablePred NoBreaks := fun s =>
  inferInstanceAs (Decidable ('\n' ∉ s.data ∧ '\r' ∉ s.data))

/-- **An event that survives the encoding**: its name and lines hold no
line break and no surrounding space, and its first data line is not
empty. -/
structure SseEvent.WellFormed (e : SseEvent) : Prop where
  name_noBreaks : NoBreaks e.name
  name_trimmed : trimSpace e.name = e.name
  data_noBreaks : ∀ d ∈ e.data, NoBreaks d
  data_trimmed : ∀ d ∈ e.data, trimSpace d = d
  first_nonempty : ∃ d ds, e.data = d :: ds ∧ d ≠ ""

/-- **The calls the encoding asks for**: `fn` on each payload in order,
stopping after the first error, which is returned. -/
def deliver (fn : Callback) : List (String × String) → List (String × String) →
    List (String × String) × Option GoError
  | made, [] => (made, none)
  | made, p :: rest =>
    match fn made p.1 p.2 with
    | some err => (made ++ [p], some err)
    | none => deliver fn (made ++ [p]) rest

/-! ## The scanner on a stream of short lines -/

theorem splitLines_append_newline (line rest acc : List Char) (h : '\n' ∉ line) :
    splitLines (line ++ '\n' :: rest) acc = (acc.reverse ++ line) :: splitLines rest [] := by
  induction line generalizing acc with
  | nil => simp [splitLines]
  | cons c cs ih =>
    have hc : c ≠ '\n' := fun h' => h (h' ▸ List.mem_cons_self _ _)
    simp [splitLines, hc, ih (c :: acc) (fun h' => h (List.mem_cons_of_mem _ h'))]

theorem dropCR_of_not_mem {line : List Char} (h : '\r' ∉ line) : dropCR line = line :=
  if_neg fun h' => h (List.mem_of_getLast?_eq_some h')

theorem splitLines_streamOf (lines : List String) (hnb : ∀ l ∈ lines, '\n' ∉ l.data)
    (rest : List Char) :
    splitLines ((streamOf lines).data ++ rest) [] =
      lines.map String.data ++ splitLines rest [] := by
  induction lines with
  | nil => rfl
  | cons l ls ih =>
    simp only [streamOf, List.flatMap_cons, List.append_assoc, List.singleton_append,
      List.cons_append] at ih ⊢
    rw [splitLines_append_newline _ _ _ (hnb l (List.mem_cons_self _ _))]
    simp only [List.reverse_nil, List.nil_append, ih fun l' h => hnb l' (List.mem_cons_of_mem _ h),
      List.map_cons, List.cons_append]

theorem scanLines_go_short (lines : List String) (hnb : ∀ l ∈ lines, NoBreaks l)
    (hsize : ∀ l ∈ lines, l.utf8ByteSize < maxTokenSize) (rest : List (List Char)) :
    scanLines.go (lines.map String.data ++ rest) =
      (lines ++ (scanLines.go rest).1, (scanLines.go rest).2) := by
  induction lines with
  | nil => rfl
  | cons l ls ih =>
    have hl := hnb l (List.mem_cons_self _ _)
    have hshort : ¬maxTokenSize ≤ (String.mk l.data).utf8ByteSize :=
      Nat.not_le_of_lt (hsize l (List.mem_cons_self _ _))
    rw [List.map_cons, List.cons_append, scanLines.go, if_neg hshort, dropCR_of_not_mem hl.2,
      ih (fun l' h => hnb l' (List.mem_cons_of_mem _ h))
        (fun l' h => hsize l' (List.mem_cons_of_mem _ h))]
    rfl

/-- **The scanner gives back the lines of a stream** when none holds a line
break or reaches the scanner's limit. -/
theorem scanLines_streamOf (lines : List String) (hnb : ∀ l ∈ lines, NoBreaks l)
    (hsize : ∀ l ∈ lines, l.utf8ByteSize < maxTokenSize) :
    scanLines (streamOf lines) = (lines, none) := by
  have h := splitLines_streamOf lines (fun l hl => (hnb l hl).1) []
  rw [List.append_nil, show splitLines [] [] = [] from rfl, List.append_nil] at h
  have hgo := scanLines_go_short lines hnb hsize []
  rw [List.append_nil] at hgo
  simp [scanLines, h, hgo, scanLines.go]

/-! ## The loop on each kind of line -/

section Lines

variable (fn : Callback)

/-- **The loop of `consumeSSE` while the context stays live.** -/
def runLines : List String → SseState → SseState × Option GoError
  | [], st => (st, none)
  | line :: rest, st =>
    match processLine fn st line with
    | (st, some err) => (st, some err)
    | (st, none) => runLines rest st

theorem consumeLines_live {done : Nat → Option GoError} (hdone : ∀ k, done k = none) :
    ∀ k lines st, consumeLines done fn k lines st = runLines fn lines st
  | _, [], _ => rfl
  | k, line :: rest, st => by
    simp only [consumeLines, runLines, hdone]
    rcases processLine fn st line with ⟨st', _ | err⟩
    · exact consumeLines_live hdone (k + 1) rest st'
    · rfl

/-- **`flush` calls `fn` at most once**, on the calls made before, and
fails only with what that call returns. -/
theorem flush_calls (st : SseState) :
    ((flush fn st).1.calls = st.calls ∧ (flush fn st).2 = none) ∨
      ∃ x, (flush fn st).1.calls = st.calls ++ [x] ∧ (flush fn st).2 = fn st.calls x.1 x.2 := by
  unfold flush
  split_ifs
  · exact .inl ⟨rfl, rfl⟩
  · exact .inr ⟨_, rfl, rfl⟩

theorem processLine_calls (st : SseState) (line : String) :
    ((processLine fn st line).1.calls = st.calls ∧ (processLine fn st line).2 = none) ∨
      ∃ x, (processLine fn st line).1.calls = st.calls ++ [x] ∧
        (processLine fn st line).2 = fn st.calls x.1 x.2 := by
  by_cases h : line = ""
  · have hcalls := flush_calls fn st
    rw [processLine, if_pos h]
    generalize flush fn st = r at hcalls ⊢
    rcases r with ⟨st', _ | err⟩ <;> exact hcalls
  · refine .inl ?_
    rw [processLine, if_neg h]
    repeat' split
    all_goals exact ⟨rfl, rfl⟩

/-- **An error of the loop is the answer of the last call to `fn`.** -/
theorem runLines_error : ∀ {lines : List String} {st : SseState} {e : GoError},
    (runLines fn lines st).2 = some e →
      ∃ pre x, (runLines fn lines st).1.calls = pre ++ [x] ∧ fn pre x.1 x.2 = some e
  | [], _, _, h => by cases h
  | line :: rest, st, e, h => by
    have hcalls := processLine_calls fn st line
    simp only [runLines] at h ⊢
    generalize processLine fn st line = r at hcalls h ⊢
    rcases r with ⟨st', _ | err⟩
    · exact runLines_error h
    · rcases hcalls with ⟨-, he⟩ | ⟨x, hc, he⟩
      · cases he
      · exact ⟨st.calls, x, hc, he.symm.trans h⟩

/-- **The lines the loop passes over leave its variables alone.** -/
theorem processLine_noise {line : String} (h : isNoise line = true) (st : SseState) :
    processLine fn st line = (st, none) := by
  simp only [isNoise, Bool.and_eq_true, Bool.not_eq_true', decide_eq_true_eq] at h
  obtain ⟨⟨hne, hev⟩, hda⟩ := h
  simp only [processLine, hne, hev, hda, ↓reduceIte, Bool.false_eq_true]
  split_ifs <;> rfl

theorem processLine_event (st : SseState) (name : String) :
    processLine fn st ("event: " ++ name) = ({ st with eventName := trimSpace name }, none) := by
  have hne : "event: " ++ name ≠ "" := fun h => nomatch congrArg String.data h
  simp only [processLine, hne, ↓reduceIte]
  exact congrArg (fun n => (({ st with eventName := n } : SseState), none))
    (trimSpace_space_append name)

theorem processLine_data (st : SseState) (d : String) :
    processLine fn st ("data: " ++ d) =
      ({ st with dataBuf := (if st.dataBuf ≠ "" then st.dataBuf.push '\n' else st.dataBuf) ++
          trimSpace d }, none) := by
  have hne : "data: " ++ d ≠ "" := fun h => nomatch congrArg String.data h
  simp only [processLine, hne, ↓reduceIte]
  rw [show sliceFrom ("data: " ++ d) 5 = " " ++ d from rfl, trimSpace_space_append]
  rfl

theorem runLines_filter_noise (lines : List String) (st : SseState) :
    runLines fn lines st = runLines fn (lines.filter fun l => !isNoise l) st := by
  induction lines generalizing st with
  | nil => rfl
  | cons l ls ih =>
    by_cases h : isNoise l = true
    · simp [runLines, processLine_noise fn h, h, ih]
    · simp only [List.filter_cons, h, Bool.not_false, ↓reduceIte, runLines]
      rcases processLine fn st l with ⟨st', _ | err⟩
      · exact ih st'
      · rfl

theorem intercalate_go_ne_empty {acc : String} (h : acc ≠ "") (ds : List String) :
    String.intercalate.go acc "\n" ds ≠ "" := by
  induction ds generalizing acc with
  | nil => exact h
  | cons d ds ih =>
    exact ih fun h' => by simpa using congrArg String.data h'

/-- **Data lines after a non-empty buffer** are joined to it by `\n`. -/
theorem runLines_data (n : String) (made : List (String × String)) (rest : List String) :
    ∀ (ds : List String) {buf : String}, (∀ d ∈ ds, trimSpace d = d) → buf ≠ "" →
      runLines fn (ds.map ("data: " ++ ·) ++ rest) ⟨n, buf, made⟩ =
        runLines fn rest ⟨n, String.intercalate.go buf "\n" ds, made⟩
  | [], _, _, _ => rfl
  | d :: ds, buf, hd, hbuf => by
    have htrim := hd d (List.mem_cons_self _ _)
    have hbuf' : buf.push '\n' ++ d ≠ "" := fun h => by
      simpa using congrArg String.data h
    simp only [List.map_cons, List.cons_append, runLines, processLine_data, hbuf, ne_eq,
      not_false_eq_true, ↓reduceIte, htrim]
    exact runLines_data n made rest ds (fun d' h => hd d' (List.mem_cons_of_mem _ h)) hbuf'

/-- **One encoded event** makes the loop call `fn` once, with the event's
payload, and come back to an empty buffer and no name. -/
theorem runLines_encode {e : SseEvent} (he : e.WellFormed) (made : List (String × String))
    (rest : List String) :
    runLines fn (e.encode ++ rest) ⟨"", "", made⟩ =
      match fn made e.payload.1 e.payload.2 with
      | some err => (⟨e.name, "", made ++ [e.payload]⟩, some err)
      | none => runLines fn rest ⟨"", "", made ++ [e.payload]⟩ := by
  obtain ⟨d, ds, hdata, hd⟩ := he.first_nonempty
  have htrim : trimSpace d = d := he.data_trimmed d (by simp [hdata])
  have hpay : e.payload = (e.name, String.intercalate.go d "\n" ds) := by
    simp [SseEvent.payload, hdata, String.intercalate]
  have hname : runLines fn ((if e.name = "" then [] else ["event: " ++ e.name]) ++
      ("data: " ++ d) :: (ds.map ("data: " ++ ·) ++ "" :: rest)) ⟨"", "", made⟩ =
      runLines fn (("data: " ++ d) :: (ds.map ("data: " ++ ·) ++ "" :: rest))
        ⟨e.name, "", made⟩ := by
    split_ifs with h
    · rw [h]; rfl
    · simp only [List.singleton_append, runLines, processLine_event, he.name_trimmed]
  have hbuf := intercalate_go_ne_empty hd ds
  simp only [SseEvent.encode, hdata, List.map_cons, List.append_assoc, List.cons_append,
    List.singleton_append, List.nil_append] at hname ⊢
  rw [hname]
  simp only [runLines, processLine_data, ne_eq, not_true_eq_false, ↓reduceIte,
    String.empty_append, htrim]
  rw [runLines_data fn e.name made ("" :: rest) ds
    (fun d' h => he.data_trimmed d' (by simp [hdata, h])) hd]
  simp only [runLines, processLine, flush, hbuf, ↓reduceIte, hpay]
  cases fn made e.name (String.intercalate.go d "\n" ds) <;> rfl

/-- **A run of encoded events** makes the calls `deliver` makes, and, when
no call fails, ends with an empty buffer and no name. -/
theorem runLines_events :
    ∀ (events : List SseEvent), (∀ e ∈ events, e.WellFormed) →
      ∀ made : List (String × String),
      let r := runLines fn (events.flatMap SseEvent.encode) ⟨"", "", made⟩
      (r.1.calls, r.2) = deliver fn made (events.map SseEvent.payload) ∧
        (r.2 = none → r.1 = ⟨"", "", r.1.calls⟩)
  | [], _, made => ⟨rfl, fun _ => rfl⟩
  | e :: es, hev, made => by
    have hrest := runLines_events es (fun e' h => hev e' (List.mem_cons_of_mem _ h))
      (made ++ [e.payload])
    simp only [List.flatMap_cons, runLines_encode fn (hev e (List.mem_cons_self _ _)),
      List.map_cons, deliver]
    cases fn made e.payload.1 e.payload.2
    · exact hrest
    · exact ⟨rfl, nofun⟩

end Lines

/-! ## The law -/

/-- **`consumeSSE` decodes what a sender encodes.** Whatever comments and
unknown fields stand between the lines, as long as every line is shorter
than the scanner's limit and the context stays live, `fn` is called on
each event's name and joined data in order, and the first error it returns
ends the read and is returned. -/
theorem consumeSSE_streamOf (events : List SseEvent) (hev : ∀ e ∈ events, e.WellFormed)
    (lines : List String)
    (hlines : lines.filter (fun l => !isNoise l) = events.flatMap SseEvent.encode)
    (hnb : ∀ l ∈ lines, NoBreaks l) (hsize : ∀ l ∈ lines, l.utf8ByteSize < maxTokenSize)
    (done : Nat → Option GoError) (hdone : ∀ k, done k = none) (fn : Callback) :
    consumeSSE done (streamOf lines) fn = deliver fn [] (events.map SseEvent.payload) := by
  obtain ⟨hcalls, hclean⟩ := runLines_events fn events hev []
  simp only [consumeSSE, scanLines_streamOf lines hnb hsize, consumeLines_live fn hdone,
    runLines_filter_noise fn lines, hlines]
  revert hcalls hclean
  rcases runLines fn (events.flatMap SseEvent.encode) ⟨"", "", []⟩ with ⟨st, _ | err⟩
  · intro hcalls hclean
    rw [← hcalls, hclean rfl]
    rfl
  · intro hcalls _
    exact hcalls

/-- **Only `fn` fails a read that the context and the scanner let through**:
while the context stays live and the scanner reads the whole input, an
error of `consumeSSE` is the answer of the last call it made to `fn`. -/
theorem consumeSSE_error {done : Nat → Option GoError} (hdone : ∀ k, done k = none)
    {input : String} (hscan : (scanLines input).2 = none) {fn : Callback} {e : GoError}
    (h : (consumeSSE done input fn).2 = some e) :
    ∃ pre x, (consumeSSE done input fn).1 = pre ++ [x] ∧ fn pre x.1 x.2 = some e := by
  rcases hs : scanLines input with ⟨lines, scanErr⟩
  rw [hs] at hscan
  subst hscan
  simp only [consumeSSE, hs, consumeLines_live fn hdone] at h ⊢
  have herr := @runLines_error fn lines ⟨"", "", []⟩
  rcases hr : runLines fn lines ⟨"", "", []⟩ with ⟨st, _ | err⟩ <;> rw [hr] at h herr <;>
    dsimp only at h herr ⊢
  · rcases flush_calls fn st with ⟨-, he⟩ | ⟨x, hc, he⟩
    · rw [he] at h
      cases h
    · exact ⟨st.calls, x, hc, he.symm.trans h⟩
  · exact herr h

theorem consumeSSE_streamOf_commented :
    (∀ e ∈ [(⟨"message_stop", ["{}"]⟩ : SseEvent)], e.WellFormed) ∧
      [": ping", "event: message_stop", "id: 7", "data: {}", ""].filter (fun l => !isNoise l) =
        [(⟨"message_stop", ["{}"]⟩ : SseEvent)].flatMap SseEvent.encode ∧
      (∀ l ∈ [": ping", "event: message_stop", "id: 7", "data: {}", ""], NoBreaks l) ∧
      (∀ l ∈ [": ping", "event: message_stop", "id: 7", "data: {}", ""],
        l.utf8ByteSize < maxTokenSize) ∧
      (∀ k, (fun _ => none : Nat → Option GoError) k = none) ∧
      consumeSSE (fun _ => none) (streamOf [": ping", "event: message_stop", "id: 7", "data: {}", ""])
          (fun _ _ _ => none) =
        deliver (fun _ _ _ => none) [] ([(⟨"message_stop", ["{}"]⟩ : SseEvent)].map SseEvent.payload) := by
  have hwf : ∀ e ∈ [(⟨"message_stop", ["{}"]⟩ : SseEvent)], e.WellFormed := by
    simp only [List.mem_singleton, forall_eq]
    exact ⟨by decide, by decide, by decide, by decide, ⟨"{}", [], rfl, by decide⟩⟩
  refine ⟨hwf, ?lines, ?breaks, ?size, fun _ => rfl,
    consumeSSE_streamOf _ hwf _ ?lines ?breaks ?size _ (fun _ => rfl) _⟩ <;> decide

/-- **Leading empty data lines vanish.** The event with the data lines `""`
and `x` is delivered as `x` rather than `\nx`, and the one with two empty
data lines, whose data is `\n`, is not delivered at all. -/
theorem consumeSSE_leading_empty_data :
    (⟨"", ["", "x"]⟩ : SseEvent).payload = ("", "\nx") ∧
      consumeSSE (fun _ => none) (streamOf (⟨"", ["", "x"]⟩ : SseEvent).encode)
          (fun _ _ _ => none) = ([("", "x")], none) ∧
      (⟨"", ["", ""]⟩ : SseEvent).payload = ("", "\n") ∧
      consumeSSE (fun _ => none) (streamOf (⟨"", ["", ""]⟩ : SseEvent).encode)
          (fun _ _ _ => none) = ([], none) :=
  ⟨rfl, rfl, rfl, rfl⟩

end Anthropic
