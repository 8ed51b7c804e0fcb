import AgentSdk.Text
import AgentSdk.Tool.Validator
import Mathlib.Data.List.Infix

/-!
# The MCP client adapter

`Client` connects to an MCP server lazily. A `sync.Once` builds the
transport from the client's spec and connects, the first time a method
needs the session, and keeps the error; every later call returns that
error, converted, without trying again. `Close` drops the session, and
leaves the `Once` spent.

## Transport specs

`buildTransport` reads a spec as a command to run (`stdio://`, or anything
that is not a URL), an SSE endpoint (`sse://`, a plain `http` or `https`
URL, or the hint `+sse`), or a streamable HTTP endpoint (the hints
`+stream`, `+streamable`, `+http`, `+json`). Every endpoint goes through
`normalizeHTTPURL`, so every transport it builds is well formed: a command
with a name and arguments that are non-empty runs of non-space characters,
or an endpoint that is the text of a URL with the scheme `http` or `https`
in lower case and a host (`buildTransport_wellFormed`).

`net/url` and the SDK are the standard library's and the SDK's, and
are arguments (`UrlLib`, `Sdk`); `convertError` and the conversions of the
SDK's tools and results are not among the sources and are arguments too.
The context the methods pass on is the SDK's business and is left out.

## Connecting once

Calls act one after another. Over any run, the adapter builds the
transport at most once, from the client's spec, and connects at most once,
with that transport (`run_effects`). A client whose connection failed
returns the same error to every call that needs the session
(`run_cached_error`), and a client that was closed is never connected
again: every later `ListTools` and `InvokeTool` goes to the SDK with a nil
session (`run_after_close`).
-/

namespace Mcp

open GoString

/-! ## Transport specs -/

/-- **What the adapter reads of `net/url`**: `url.Parse`, a URL's
`Scheme` and `Host`, the URL with another scheme, and its `String()`. -/
structure UrlLib (U : Type) where
  parse : String → Except GoError U
  scheme : U → String
  host : U → String
  withScheme : U → String → U
  urlString : U → String

/-- **A transport the adapter builds**: a `CommandTransport` by its
command's `Args` (the name first), an `SSEClientTransport` or a
`StreamableClientTransport` by its endpoint. -/
inductive Transport where
  | command (args : List String)
  | sse (endpoint : String)
  | streamable (endpoint : String)
  deriving DecidableEq, Repr

/-- `stdioSchemePrefix`. -/
def stdioSchemePrefix : String := "stdio://"

/-- `sseSchemePrefix`. -/
def sseSchemePrefix : String := "sse://"

/-- `httpHintType`. -/
def httpHintType : String := "http"

/-- `sseHintType`. -/
def sseHintType : String := "sse"

/-- **`s[n:]`** on the bytes of `s`, where byte `n` starts a character. -/
def dropBytes : List Char → Nat → List Char
  | cs, 0 => cs
  | [], _ => []
  | c :: cs, n + 1 => dropBytes cs (n + 1 - c.utf8Size)

/-- **`strings.Fields`**: the maximal runs of characters that are not
`unicode.IsSpace`, from the characters left and the run so far, reversed. -/
def fieldsAux : List Char → List Char → List String
  | [], run => if run = [] then [] else [⟨run.reverse⟩]
  | c :: cs, run =>
    if isSpace c then (if run = [] then fieldsAux cs [] else ⟨run.reverse⟩ :: fieldsAux cs [])
    else fieldsAux cs (c :: run)

/-- **`strings.Fields`**. -/
def fields (s : String) : List String := fieldsAux s.data []

/-- **`strings.Cut(s, sep)`** for a one-character separator. -/
def cut (s : String) (sep : Char) : String × String × Bool :=
  match s.data.span (· ≠ sep) with
  | (_, []) => (s, "", false)
  | (before, _ :: after) => (⟨before⟩, ⟨after⟩, true)

variable {U : Type} (url : UrlLib U)

/-- **`normalizeHTTPURL`**. -/
def normalizeHTTPURL (raw : String) (allowSchemeGuess : Bool) : Except GoError String :=
  let raw := trimSpace raw
  if raw = "" then .error ⟨"endpoint is empty"⟩
  else
    let raw := if allowSchemeGuess && !decide ("://".data <:+: raw.data) then "https://" ++ raw else raw
    match url.parse raw with
    | .error err => .error err
    | .ok parsed =>
      let scheme := toLower (url.scheme parsed)
      if scheme ≠ "http" ∧ scheme ≠ "https" then
        .error ⟨"unsupported scheme " ++ quote (url.scheme parsed)⟩
      else if url.host parsed = "" then .error ⟨"missing host"⟩
      else .ok (url.urlString (url.withScheme parsed scheme))

/-- **`buildStdioTransport`**. -/
def buildStdioTransport (cmdSpec : String) : Except GoError Transport :=
  match fields (trimSpace cmdSpec) with
  | [] => .error ⟨"mcp adapter: stdio command is empty"⟩
  | parts => .ok (.command parts)

/-- **`buildSSETransport`**. -/
def buildSSETransport (endpoint : String) : Except GoError Transport :=
  match normalizeHTTPURL url endpoint false with
  | .error err => .error ⟨"mcp adapter: invalid SSE endpoint: " ++ err.Error⟩
  | .ok normalized => .ok (.sse normalized)

/-- **`buildHTTPTransport`**. -/
def buildHTTPTransport (endpoint : String) : Except GoError Transport :=
  match normalizeHTTPURL url endpoint false with
  | .error err => .error ⟨"mcp adapter: invalid HTTP endpoint: " ++ err.Error⟩
  | .ok normalized => .ok (.streamable normalized)

/-- **`parseHTTPFamilySpec`**: the kind, the endpoint, whether the spec
matched, and the error. -/
def parseHTTPFamilySpec (spec : String) : String × String × Bool × Option GoError :=
  match url.parse (trimSpace spec) with
  | .error _ => ("", "", false, none)
  | .ok u =>
    if url.scheme u = "" then ("", "", false, none)
    else
      let (base, hintRaw, hasHint) := cut (toLower (url.scheme u)) '+'
      if !hasHint then ("", "", false, none)
      else if base ≠ "http" ∧ base ≠ "https" then ("", "", false, none)
      else
        let hint : String := ⟨hintRaw.data.takeWhile (· ≠ '+')⟩
        let resolvedKind :=
          if hint = "sse" then some sseHintType
          else if hint = "stream" ∨ hint = "streamable" ∨ hint = "http" ∨ hint = "json" then
            some httpHintType
          else none
        match resolvedKind with
        | none =>
          ("", "", true, some ⟨"mcp adapter: unsupported HTTP transport hint " ++ quote hint⟩)
        | some kind =>
          match normalizeHTTPURL url (url.urlString (url.withScheme u base)) false with
          | .error err =>
            ("", "", true, some ⟨"mcp adapter: invalid " ++ kind ++ " endpoint: " ++ err.Error⟩)
          | .ok endpoint => (kind, endpoint, true, none)

/-- **`buildTransport`**. -/
def buildTransport (spec : String) : Except GoError Transport :=
  let spec := trimSpace spec
  if spec = "" then .error ⟨"mcp adapter: transport spec is empty"⟩
  else
    let lowered := toLower spec
    if hasPrefix lowered stdioSchemePrefix then
      buildStdioTransport ⟨dropBytes spec.data stdioSchemePrefix.utf8ByteSize⟩
    else if hasPrefix lowered sseSchemePrefix then
      match normalizeHTTPURL url (trimSpace ⟨dropBytes spec.data sseSchemePrefix.utf8ByteSize⟩) true with
      | .error err => .error ⟨"mcp adapter: invalid SSE endpoint: " ++ err.Error⟩
      | .ok endpoint => buildSSETransport url endpoint
    else
      match parseHTTPFamilySpec url spec with
      | (_, _, _, some err) => .error err
      | (kind, endpoint, true, none) =>
        if kind = httpHintType then buildHTTPTransport url endpoint
        else buildSSETransport url endpoint
      | (_, _, false, none) =>
        if hasPrefix lowered "http://" || hasPrefix lowered "https://" then
          buildSSETransport url spec
        else buildStdioTransport spec

/-! ## What a transport is -/

/-- **An endpoint the adapter accepts**: the text of a URL that
`url.Parse` read, with a host, and with its scheme put in lower case,
`http` or `https`. -/
def Endpoint (e : String) : Prop :=
  ∃ raw u, url.parse raw = .ok u ∧
    (toLower (url.scheme u) = "http" ∨ toLower (url.scheme u) = "https") ∧
    url.host u ≠ "" ∧ e = url.urlString (url.withScheme u (toLower (url.scheme u)))

/-- **A well-formed transport**: a command whose name and arguments are
non-empty runs of non-space characters, or an accepted endpoint. -/
def Transport.WellFormed : Transport → Prop
  | .command args => args ≠ [] ∧ ∀ a ∈ args, a ≠ "" ∧ ∀ c ∈ a.data, isSpace c = false
  | .sse e | .streamable e => Endpoint url e

theorem mk_ne_empty {cs : List Char} (h : cs ≠ []) : (⟨cs⟩ : String) ≠ "" :=
  fun he => h (congrArg String.data he)

/-- The field `Fields` cuts off at a space or at the end: the run read so
far, reversed. -/
theorem run_wellFormed {run : List Char} (hrun : ∀ c ∈ run, isSpace c = false) (h : ¬run = []) :
    (⟨run.reverse⟩ : String) ≠ "" ∧ ∀ c ∈ (⟨run.reverse⟩ : String).data, isSpace c = false :=
  ⟨mk_ne_empty (by simpa using h), fun c hc => hrun c (List.mem_reverse.mp hc)⟩

/-- Each field is a non-empty run of non-space characters. -/
theorem fieldsAux_wellFormed :
    ∀ (cs run : List Char), (∀ c ∈ run, isSpace c = false) →
      ∀ a ∈ fieldsAux cs run, a ≠ "" ∧ ∀ c ∈ a.data, isSpace c = false
  | [], run, hrun, a, ha => by
    unfold fieldsAux at ha
    split_ifs at ha with h
    · cases ha
    · exact List.mem_singleton.mp ha ▸ run_wellFormed hrun h
  | c :: cs, run, hrun, a, ha => by
    unfold fieldsAux at ha
    split_ifs at ha with hc h
    · exact fieldsAux_wellFormed cs [] (by simp) a ha
    · rcases List.mem_cons.mp ha with rfl | ha
      · exact run_wellFormed hrun h
      · exact fieldsAux_wellFormed cs [] (by simp) a ha
    · refine fieldsAux_wellFormed cs (c :: run) ?_ a ha
      rintro c' (_ | ⟨_, hc'⟩)
      · simpa using hc
      · exact hrun c' hc'

theorem buildStdioTransport_wellFormed {cmdSpec : String} {t : Transport}
    (h : buildStdioTransport cmdSpec = .ok t) : t.WellFormed url := by
  unfold buildStdioTransport at h
  cases hf : fields (trimSpace cmdSpec) with
  | nil => rw [hf] at h; cases h
  | cons p ps =>
    rw [hf] at h
    cases h
    refine ⟨List.cons_ne_nil _ _, fun a ha =>
      fieldsAux_wellFormed (trimSpace cmdSpec).data [] (by simp) a ?_⟩
    rw [← hf] at ha
    exact ha

/-- **What `normalizeHTTPURL` returns is an accepted endpoint.** -/
theorem normalizeHTTPURL_endpoint {raw e : String} {allowSchemeGuess : Bool}
    (h : normalizeHTTPURL url raw allowSchemeGuess = .ok e) : Endpoint url e := by
  unfold normalizeHTTPURL at h
  dsimp only at h
  split at h
  · cases h
  · split at h
    · cases h
    · rename_i u hu
      split_ifs at h with hscheme hhost
      cases h
      exact ⟨_, u, hu, by tauto, hhost, rfl⟩

theorem buildSSETransport_wellFormed {endpoint : String} {t : Transport}
    (h : buildSSETransport url endpoint = .ok t) : t.WellFormed url := by
  unfold buildSSETransport at h
  split at h
  · cases h
  · rename_i e he
    cases h
    exact normalizeHTTPURL_endpoint url he

theorem buildHTTPTransport_wellFormed {endpoint : String} {t : Transport}
    (h : buildHTTPTransport url endpoint = .ok t) : t.WellFormed url := by
  unfold buildHTTPTransport at h
  split at h
  · cases h
  · rename_i e he
    cases h
    exact normalizeHTTPURL_endpoint url he

/-- **Every transport `buildTransport` builds is well formed**, whatever
the spec: a command with a name, its name and arguments runs of non-space
characters, or the text of a URL with a host whose scheme is `http` or
`https` in lower case. -/
theorem buildTransport_wellFormed {spec : String} {t : Transport}
    (h : buildTransport url spec = .ok t) : t.WellFormed url := by
  unfold buildTransport at h
  dsimp only at h
  split at h
  · cases h
  split at h
  · exact buildStdioTransport_wellFormed url h
  split at h
  · split at h
    · cases h
    · exact buildSSETransport_wellFormed url h
  split at h
  · cases h
  · split at h
    · exact buildHTTPTransport_wellFormed url h
    · exact buildSSETransport_wellFormed url h
  · split at h
    · exact buildSSETransport_wellFormed url h
    · exact buildStdioTransport_wellFormed url h

/-- `STDIO://python main.py` runs `python` with `main.py`. -/
theorem buildTransport_wellFormed_stdio :
    let url : UrlLib Unit :=
      ⟨fun _ => .error ⟨"unparsed"⟩, fun _ => "", fun _ => "", fun u _ => u, fun _ => ""⟩
    buildTransport url "STDIO://python main.py" = .ok (.command ["python", "main.py"]) ∧
      (Transport.command ["python", "main.py"]).WellFormed url := by
  intro url
  have h : buildTransport url "STDIO://python main.py" = .ok (.command ["python", "main.py"]) := rfl
  exact ⟨h, buildTransport_wellFormed url h⟩

/-! ## The client -/

/-- **What the client reads of the SDK**, for transports `T`, sessions
`S`, tool descriptors `D` and call results `R`: the transport builder
(`buildTransport`, which tests replace), `Connect`, `convertError`, the
tools a session lists, each as `toToolDescriptor` makes it or an error,
`CallTool` with `toToolCallResult`, and a session's `Close`. -/
structure Sdk (T S D R : Type) where
  transportBuilder : String → Except GoError T
  connect : T → Except GoError S
  convertError : Option GoError → Option GoError
  tools : S → List (Except GoError D)
  callTool : S → String → Option ValueMap → Except GoError R
  closeSession : S → Option GoError

/-- **`Client`**, by what its methods read and write: whether
`implClient` is set, the session, the transport spec, whether its
`sync.Once` has run, and `connectErr`. -/
structure Client (S : Type) where
  hasImpl : Bool
  session : Option S
  transportSpec : String
  connected : Bool
  connectErr : Option GoError

/-- **`NewClient`**. -/
def newClient {S : Type} (spec : String) : Client S := ⟨true, none, spec, false, none⟩

/-- **What the client asks of the outside world**: to build a transport
from a spec, and to connect over a transport. -/
inductive Effect (T : Type) where
  | build (spec : String)
  | connect (t : T)

/-- **What a method returns**, or that it went on to the SDK with a nil
`*ClientSession`. -/
inductive Reply (D R : Type) where
  | tools (tools : List D) (err : Option GoError)
  | invoked (result : Option R) (err : Option GoError)
  | called (err : Option GoError)
  | closed (err : Option GoError)
  | nilSession

/-- The error a reply carries. -/
def Reply.error {D R : Type} : Reply D R → Option GoError
  | .tools _ err | .invoked _ err | .called err | .closed err => err
  | .nilSession => none

/-- **A call of the client's methods.** -/
inductive Call where
  | listTools
  | invokeTool (name : String) (args : Option ValueMap)
  | call (method : String)
  | close

/-- Whether a call needs the session, and so goes through
`ensureConnected`. -/
def Call.connects : Call → Bool
  | .listTools | .invokeTool _ _ => true
  | .call method => method = "initialize"
  | .close => false

section Client

variable {T S D R : Type} (sdk : Sdk T S D R)

/-- **`ensureConnected`**: the client after the call, what it asked of
the outside world, and its error. -/
def Client.ensureConnected (c : Client S) : Client S × List (Effect T) × Option GoError :=
  if c.connected then (c, [], sdk.convertError c.connectErr)
  else
    let c := { c with connected := true }
    if !c.hasImpl then
      let c := { c with connectErr := some ⟨"mcp adapter: nil client implementation"⟩ }
      (c, [], sdk.convertError c.connectErr)
    else
      match sdk.transportBuilder c.transportSpec with
      | .error err =>
        let c := { c with connectErr := some ⟨"build transport: " ++ err.Error⟩ }
        (c, [.build c.transportSpec], sdk.convertError c.connectErr)
      | .ok t =>
        match sdk.connect t with
        | .error err =>
          let c := { c with connectErr := some err }
          (c, [.build c.transportSpec, .connect t], sdk.convertError c.connectErr)
        | .ok session =>
          let c := { c with session := some session }
          (c, [.build c.transportSpec, .connect t], sdk.convertError c.connectErr)

/-- **The loop of `ListTools`** over the tools the session lists, with the
ones collected so far. -/
def collectTools (acc : List D) : List (Except GoError D) → List D × Option GoError
  | [] => (acc, none)
  | .error err :: _ => ([], sdk.convertError (some err))
  | .ok tool :: rest => collectTools (acc ++ [tool]) rest

/-- **`ListTools`**. -/
def Client.listTools (c : Client S) : Client S × List (Effect T) × Reply D R :=
  match c.ensureConnected sdk with
  | (c, effects, some err) => (c, effects, .tools [] (some err))
  | (c, effects, none) =>
    match c.session with
    | none => (c, effects, .nilSession)
    | some session =>
      let (tools, err) := collectTools sdk [] (sdk.tools session)
      (c, effects, .tools tools err)

/-- **`InvokeTool`**. -/
def Client.invokeTool (c : Client S) (name : String) (args : Option ValueMap) :
    Client S × List (Effect T) × Reply D R :=
  match c.ensureConnected sdk with
  | (c, effects, some err) => (c, effects, .invoked none (some err))
  | (c, effects, none) =>
    match c.session with
    | none => (c, effects, .nilSession)
    | some session =>
      match sdk.callTool session name args with
      | .error err => (c, effects, .invoked none (sdk.convertError (some err)))
      | .ok result => (c, effects, .invoked (some result) none)

/-- **`Call`**. -/
def Client.call (c : Client S) (method : String) : Client S × List (Effect T) × Reply D R :=
  if method = "initialize" then
    let (c, effects, err) := c.ensureConnected sdk
    (c, effects, .called err)
  else (c, [], .called (some ⟨"mcp adapter: method " ++ method ++ " not supported"⟩))

/-- **`Close`**. -/
def Client.close (c : Client S) : Client S × List (Effect T) × Reply D R :=
  match c.session with
  | none => (c, [], .closed none)
  | some session => ({ c with session := none }, [], .closed (sdk.closeSession session))

/-- One call. -/
def Client.step (c : Client S) : Call → Client S × List (Effect T) × Reply D R
  | .listTools => c.listTools sdk
  | .invokeTool name args => c.invokeTool sdk name args
  | .call method => c.call sdk method
  | .close => c.close sdk

/-- **A run**: the calls one after another; the client after them, what
they asked of the outside world, and their replies. -/
def Client.run (c : Client S) : List Call → Client S × List (Effect T) × List (Reply D R)
  | [] => (c, [], [])
  | call :: calls =>
    let r := c.step sdk call
    let rest := r.1.run calls
    (rest.1, r.2.1 ++ rest.2.1, r.2.2 :: rest.2.2)

/-! ## Connecting once -/

/-- **What one connection attempt asks for**: nothing, the build of the
spec's transport when it fails, or that build and a connection over the
transport it built. -/
def Attempt (spec : String) (effects : List (Effect T)) : Prop :=
  effects = [] ∨ (∃ err, sdk.transportBuilder spec = .error err ∧ effects = [.build spec]) ∨
    ∃ t, sdk.transportBuilder spec = .ok t ∧ effects = [.build spec, .connect t]

/-- A spent `Once` answers from the kept error. -/
theorem ensureConnected_of_connected {c : Client S} (hc : c.connected = true) :
    c.ensureConnected sdk = (c, [], sdk.convertError c.connectErr) := by
  simp [Client.ensureConnected, hc]

/-- **What `ensureConnected` does**: it spends the `Once`, keeps the spec,
and asks for one attempt at most. -/
theorem ensureConnected_spec (c : Client S) :
    (c.ensureConnected sdk).1.connected = true ∧
      (c.ensureConnected sdk).1.transportSpec = c.transportSpec ∧
      Attempt sdk c.transportSpec (c.ensureConnected sdk).2.1 := by
  unfold Client.ensureConnected
  dsimp only
  split_ifs with hc
  · exact ⟨hc, rfl, .inl rfl⟩
  · exact ⟨rfl, rfl, .inl rfl⟩
  · split <;> rename_i hb
    · exact ⟨rfl, rfl, .inr (.inl ⟨_, hb, rfl⟩)⟩
    · split <;> exact ⟨rfl, rfl, .inr (.inr ⟨_, hb, rfl⟩)⟩

/-- A call that needs the session leaves the client and asks what
`ensureConnected` does. -/
theorem step_connecting (c : Client S) {call : Call} (h : call.connects = true) :
    (c.step sdk call).1 = (c.ensureConnected sdk).1 ∧
      (c.step sdk call).2.1 = (c.ensureConnected sdk).2.1 := by
  cases call with
  | listTools =>
    unfold Client.step Client.listTools
    rcases c.ensureConnected sdk with ⟨c', effects, _ | err⟩
    · dsimp only
      split <;> exact ⟨rfl, rfl⟩
    · exact ⟨rfl, rfl⟩
  | invokeTool name args =>
    unfold Client.step Client.invokeTool
    rcases c.ensureConnected sdk with ⟨c', effects, _ | err⟩
    · dsimp only
      split
      · exact ⟨rfl, rfl⟩
      · split <;> exact ⟨rfl, rfl⟩
    · exact ⟨rfl, rfl⟩
  | call method =>
    simp only [Call.connects, decide_eq_true_eq] at h
    subst h
    exact ⟨rfl, rfl⟩
  | close => cases h

/-- A call that does not need the session asks for nothing, and leaves
the connection state alone; `Close` may drop the session. -/
theorem step_quiet (c : Client S) {call : Call} (h : call.connects = false) :
    (c.step sdk call).2.1 = [] ∧ (c.step sdk call).1.connected = c.connected ∧
      (c.step sdk call).1.transportSpec = c.transportSpec ∧
      (c.step sdk call).1.connectErr = c.connectErr ∧
      ((c.step sdk call).1.session = c.session ∨ (c.step sdk call).1.session = none) := by
  cases call with
  | listTools => cases h
  | invokeTool name args => cases h
  | call method =>
    simp only [Call.connects, decide_eq_false_iff_not] at h
    simp [Client.step, Client.call, h]
  | close =>
    unfold Client.step Client.close
    dsimp only
    split
    · exact ⟨rfl, rfl, rfl, rfl, .inl rfl⟩
    · exact ⟨rfl, rfl, rfl, rfl, .inr rfl⟩

/-- **What one call does to the connection**: it keeps the spec, asks for
one attempt at most, asks for nothing once the `Once` is spent, and asks
for nothing unless it spends it. -/
theorem step_effects (c : Client S) (call : Call) :
    (c.step sdk call).1.transportSpec = c.transportSpec ∧
      Attempt sdk c.transportSpec (c.step sdk call).2.1 ∧
      (c.connected = true → (c.step sdk call).1.connected = true ∧ (c.step sdk call).2.1 = []) ∧
      ((c.step sdk call).1.connected = false → (c.step sdk call).2.1 = []) := by
  cases h : call.connects
  · obtain ⟨he, hconn, hspec, -, -⟩ := step_quiet sdk c h
    rw [he, hconn, hspec]
    exact ⟨rfl, .inl rfl, fun hc => ⟨hc, rfl⟩, fun _ => rfl⟩
  · obtain ⟨h1, h2⟩ := step_connecting sdk c h
    obtain ⟨hconn, hspec, hatt⟩ := ensureConnected_spec sdk c
    rw [h1, h2]
    refine ⟨hspec, hatt, fun hc => ⟨hconn, by rw [ensureConnected_of_connected sdk hc]⟩, ?_⟩
    intro hf
    rw [hconn] at hf
    cases hf

/-- **The adapter connects once.** Over any run, it asks for one
connection attempt at most: to build the client's spec's transport, and to
connect over the transport it built; and it asks for nothing at all once
the `Once` is spent. -/
theorem run_effects (c : Client S) (calls : List Call) :
    Attempt sdk c.transportSpec (c.run sdk calls).2.1 ∧
      (c.connected = true → (c.run sdk calls).2.1 = []) := by
  induction calls generalizing c with
  | nil => exact ⟨.inl rfl, fun _ => rfl⟩
  | cons call calls ih =>
    obtain ⟨hspec, hatt, hkept, hquiet⟩ := step_effects sdk c call
    obtain ⟨hatt', hkept'⟩ := ih (c.step sdk call).1
    show Attempt sdk c.transportSpec ((c.step sdk call).2.1 ++ _) ∧
      (c.connected = true → (c.step sdk call).2.1 ++ _ = [])
    cases hc : (c.step sdk call).1.connected
    · rw [hquiet hc, List.nil_append, ← hspec]
      exact ⟨hatt', fun h => absurd ((hkept h).1.symm.trans hc) (by simp)⟩
    · rw [hkept' hc, List.append_nil]
      exact ⟨hatt, fun h => (hkept h).2⟩

/-- A call on a client whose `Once` is spent asks for nothing and keeps
the kept error; the session stays, or `Close` drops it. -/
theorem step_of_connected {c : Client S} (hc : c.connected = true) (call : Call) :
    (c.step sdk call).2.1 = [] ∧ (c.step sdk call).1.connected = true ∧
      (c.step sdk call).1.connectErr = c.connectErr ∧
      ((c.step sdk call).1.session = c.session ∨ (c.step sdk call).1.session = none) := by
  cases h : call.connects
  · obtain ⟨he, hconn, -, herr, hsess⟩ := step_quiet sdk c h
    exact ⟨he, hconn.trans hc, herr, hsess⟩
  · obtain ⟨h1, h2⟩ := step_connecting sdk c h
    rw [h1, h2, ensureConnected_of_connected sdk hc]
    exact ⟨rfl, hc, rfl, .inl rfl⟩

/-- A call that needs the session gets the kept error, converted, when
that is an error. -/
theorem step_cached_error {c : Client S} (hc : c.connected = true) {err : GoError}
    (herr : sdk.convertError c.connectErr = some err) {call : Call} (h : call.connects = true) :
    (c.step sdk call).2.2.error = some err := by
  cases call with
  | listTools => simp only [Client.step, Client.listTools, ensureConnected_of_connected sdk hc, herr]; rfl
  | invokeTool name args =>
    simp only [Client.step, Client.invokeTool, ensureConnected_of_connected sdk hc, herr]; rfl
  | call method =>
    simp only [Call.connects, decide_eq_true_eq] at h
    subst h
    simp only [Client.step, Client.call, if_pos, ensureConnected_of_connected sdk hc, herr]; rfl
  | close => cases h

/-- **A failed connection is not retried.** On a client whose connection
attempt failed, a run asks for nothing, and every call that needs the
session gets the kept error, converted. -/
theorem run_cached_error {c : Client S} (hc : c.connected = true) {err : GoError}
    (herr : sdk.convertError c.connectErr = some err) (calls : List Call) :
    (c.run sdk calls).2.1 = [] ∧
      ∀ p ∈ calls.zip (c.run sdk calls).2.2, p.1.connects = true → p.2.error = some err := by
  induction calls generalizing c with
  | nil => exact ⟨rfl, fun p hp => by cases hp⟩
  | cons call calls ih =>
    obtain ⟨he, hconn, hkept, -⟩ := step_of_connected sdk hc call
    obtain ⟨he', hrest⟩ := ih hconn (by rw [hkept]; exact herr)
    refine ⟨by simp only [Client.run, he, he', List.append_nil], ?_⟩
    intro p hp
    rcases List.mem_cons.mp hp with rfl | hp
    · exact step_cached_error sdk hc herr
    · exact hrest p hp

/-- A client whose transport builder failed at the first `ListTools`
fails the same way at the later calls. -/
theorem run_cached_error_boom :
    let sdk : Sdk Unit Unit String String :=
      ⟨fun _ => .error ⟨"boom"⟩, fun _ => .ok (), id, fun _ => [], fun _ _ _ => .ok "", fun _ => none⟩
    let c : Client Unit := ((newClient "bad://spec" : Client Unit).run sdk [.listTools]).1
    let calls : List Call := [.invokeTool "echo" none, .call "initialize", .close]
    c.connected = true ∧ sdk.convertError c.connectErr = some ⟨"build transport: boom"⟩ ∧
      (c.run sdk calls).2.1 = [] ∧
      ∀ p ∈ calls.zip (c.run sdk calls).2.2, p.1.connects = true →
        p.2.error = some ⟨"build transport: boom"⟩ :=
  ⟨rfl, rfl, run_cached_error _ rfl rfl _⟩

/-- On a closed client whose connection succeeded, `ListTools` and
`InvokeTool` go to the SDK with a nil session. -/
theorem step_closed {c : Client S} (hc : c.connected = true)
    (herr : sdk.convertError c.connectErr = none) (hs : c.session = none) {call : Call}
    (h : call = .listTools ∨ ∃ name args, call = .invokeTool name args) :
    (c.step sdk call).2.2 = .nilSession := by
  rcases h with rfl | ⟨name, args, rfl⟩
  · simp only [Client.step, Client.listTools, ensureConnected_of_connected sdk hc, herr, hs]
  · simp only [Client.step, Client.invokeTool, ensureConnected_of_connected sdk hc, herr, hs]

/-- **A closed client is not connected again.** Once the connection
succeeded and `Close` dropped the session, a run asks for nothing, and
every `ListTools` and `InvokeTool` goes to the SDK with a nil session. -/
theorem run_after_close {c : Client S} (hc : c.connected = true)
    (herr : sdk.convertError c.connectErr = none) (hs : c.session = none) (calls : List Call) :
    (c.run sdk calls).2.1 = [] ∧
      ∀ p ∈ calls.zip (c.run sdk calls).2.2,
        (p.1 = .listTools ∨ ∃ name args, p.1 = .invokeTool name args) → p.2 = .nilSession := by
  induction calls generalizing c with
  | nil => exact ⟨rfl, fun p hp => by cases hp⟩
  | cons call calls ih =>
    obtain ⟨he, hconn, hkept, hsess⟩ := step_of_connected sdk hc call
    have hs' : (c.step sdk call).1.session = none := hsess.elim (·.trans hs) id
    obtain ⟨he', hrest⟩ := ih hconn (by rw [hkept]; exact herr) hs'
    refine ⟨by simp only [Client.run, he, he', List.append_nil], ?_⟩
    intro p hp
    rcases List.mem_cons.mp hp with rfl | hp
    · exact step_closed sdk hc herr hs
    · exact hrest p hp

/-- A client that connected at `initialize` and was closed sends the next
`ListTools` and `InvokeTool` to a nil session. -/
theorem run_after_close_initialize :
    let sdk : Sdk Unit Unit String String :=
      ⟨fun _ => .ok (), fun _ => .ok (), id, fun _ => [.ok "echo"], fun _ _ _ => .ok "", fun _ => none⟩
    let c : Client Unit := ((newClient "stdio://server" : Client Unit).run sdk
      [.call "initialize", .close]).1
    let calls : List Call := [.listTools, .invokeTool "echo" none]
    c.connected = true ∧ sdk.convertError c.connectErr = none ∧ c.session = none ∧
      (c.run sdk calls).2.1 = [] ∧
      ∀ p ∈ calls.zip (c.run sdk calls).2.2,
        (p.1 = .listTools ∨ ∃ name args, p.1 = .invokeTool name args) → p.2 = .nilSession :=
  ⟨rfl, rfl, rfl, run_after_close _ rfl rfl rfl _⟩

end Client

end Mcp
