import AgentSdk.Anthropic.Provider
import AgentSdk.Anthropic.Stream

/-!
# The request

`doRequest` encodes a payload, makes a `POST` to `baseURL + messagesPath`
and sets the model's headers on it with `Header.Set`, visiting the header
map in the order Go's `range` picks. `Generate` sends the request for a
conversation and decodes the reply; `GenerateStream` sends the streaming
one and hands the body to the loop of `Stream.lean`. A status of 300 or
more is read by `readAPIError` into an `APIError`.

## Headers

`Header.Set` files a value under the canonical form of its key
(`textproto.CanonicalMIMEHeaderKey`): the first letter and each letter
after a dash upper-cased, the others lower-cased, unless the key holds a
byte that is not a token character. The model's map is keyed by the
spellings `NewModel` was given, so two of its keys may share a canonical
form, and the request then carries the value of whichever one `range`
visits last.

So the request's value under a canonical name is fixed, whatever the
order, when at most one key of the map has that form and a non-empty value
(`doRequest_header`); and every such value is the one sent under some
order (`doRequest_header_race`), so two keys of one form holding different
values make the request depend on the order. The default `X-API-Key` is
not in canonical form: a configuration that sets `X-Api-Key` keeps both
keys in the map, and the API key sent is the one visited last. A
configuration that spells every header of a default's form as the default
does gets that header sent, with the configured value if there is one
(`newModel_request_defaults`).

JSON encoding and decoding, the endpoint check of
`http.NewRequestWithContext` and `client.Do` are arguments (`Http`).
-/

namespace Anthropic

open GoString

/-- **`messagesPath`**. -/
def messagesPath : String := "/v1/messages"

/-! ## Canonical header keys -/

/-- **`validHeaderFieldByte`** of `net/textproto`: a token character of
RFC 7230, a letter, a digit or one of the code points of
``!#$%&'*+-.^_`|~``. Every byte of a multi-byte character is 128 or more
and is not one, so a key is checked character by character. -/
def validHeaderFieldByte (c : Char) : Bool :=
  c.isAlphanum || [33, 35, 36, 37, 38, 39, 42, 43, 45, 46, 94, 95, 96, 124, 126].contains c.toNat

/-- The loop of `canonicalMIMEHeaderKey`: `upper` holds at the start and
after a dash. -/
def canonicalize : Bool → List Char → List Char
  | _, [] => []
  | upper, c :: cs =>
    let c := if upper && c.isLower then c.toUpper else if !upper && c.isUpper then c.toLower else c
    c :: canonicalize (c == '-') cs

/-- **`CanonicalMIMEHeaderKey`**: a key with a byte that is not a token
character unchanged (`canonicalMIMEHeaderKey` keeps one with a space as it
is too), any other canonicalised. Its quick check, which returns a key
needing no change, agrees: such a key is its own canonical form. -/
def canonicalMIMEHeaderKey (s : String) : String :=
  if s.data.all validHeaderFieldByte then ⟨canonicalize true s.data⟩ else s

/-! ## The request and the reply -/

/-- **`http.Header`**: the values under each canonical key. -/
abbrev Header := List (String × List String)

/-- **`Header.Set`**: the value, alone, under the key's canonical form. -/
def Header.set (h : Header) (key value : String) : Header :=
  mapSet h (canonicalMIMEHeaderKey key) [value]

/-- The loop of `doRequest` over the model's headers, visited in `order`:
an empty value is skipped, any other set. -/
def setHeaders (h : Header) (order : List (String × String)) : Header :=
  order.foldl (fun h kv => if kv.2 = "" then h else Header.set h kv.1 kv.2) h

/-- **The request `doRequest` hands the client.** -/
structure Request where
  method : String
  url : String
  body : String
  header : Header

/-- **An HTTP response**, as `Generate` and `readAPIError` read it: the
status code, the status line, the bytes of the body, and the error
reading them ends with, if any. -/
structure Response where
  StatusCode : Int
  Status : String
  Body : String
  readErr : Option GoError

/-- **`ErrorBody`**. -/
structure ErrorBody where
  type : String
  Message : String

/-- **`ErrorResponse`**. -/
structure ErrorResponse where
  Error : ErrorBody

/-- **`APIError`**. -/
structure APIError where
  StatusCode : Int
  type : String
  Message : String

/-- **`APIError.Error`**. -/
def APIError.Error (e : APIError) : String :=
  if e.type = "" then "anthropic API error (" ++ toString e.StatusCode ++ "): " ++ e.Message
  else "anthropic API error (" ++ toString e.StatusCode ++ ", " ++ e.type ++ "): " ++ e.Message

/-- What the request and the reply go through in the standard library. -/
structure Http where
  /-- `json.NewEncoder(&buf).Encode` of a payload. -/
  encode : MessageRequest → Except GoError String
  /-- The error `http.NewRequestWithContext` returns for an endpoint, if any. -/
  newRequest : String → Option GoError
  /-- `client.Do`. -/
  Do : Request → Except GoError Response
  /-- `json.NewDecoder(resp.Body).Decode` into a `MessageResponse`. -/
  decodeResponse : Response → Except GoError MessageResponse
  /-- `json.Unmarshal` of a body into an `ErrorResponse`. -/
  unmarshalError : String → Except GoError ErrorResponse

variable (http : Http)

/-- **`doRequest`**, up to `client.Do`: the request, with the model's
headers set in `order`, the order in which `range` visits `m.headers`. -/
def AnthropicModel.request (m : AnthropicModel) (payload : MessageRequest)
    (order : List (String × String)) : Except GoError Request :=
  match http.encode payload with
  | .error err => .error ⟨"encode anthropic request: " ++ err.Error⟩
  | .ok buf =>
    let endpoint := m.baseURL ++ messagesPath
    match http.newRequest endpoint with
    | some err => .error ⟨"create anthropic request: " ++ err.Error⟩
    | none => .ok ⟨"POST", endpoint, buf, setHeaders [] order⟩

/-- **`doRequest`**. -/
def AnthropicModel.doRequest (m : AnthropicModel) (payload : MessageRequest)
    (order : List (String × String)) : Except GoError Response :=
  (m.request http payload order).bind http.Do

/-- **`readAPIError`**: the `APIError` it returns, or the error reading
the body fails with. -/
def readAPIError (resp : Response) : Except GoError APIError :=
  match resp.readErr with
  | some err => .error ⟨"anthropic api status " ++ toString resp.StatusCode ++ ": " ++ err.Error⟩
  | none =>
    let body := trimSpace resp.Body
    if body = "" then .ok ⟨resp.StatusCode, "", resp.Status⟩
    else
      match http.unmarshalError body with
      | .ok apiErr =>
        if apiErr.Error.Message ≠ "" then .ok ⟨resp.StatusCode, apiErr.Error.type, apiErr.Error.Message⟩
        else .ok ⟨resp.StatusCode, "", body⟩
      | .error _ => .ok ⟨resp.StatusCode, "", body⟩

/-- The error `readAPIError` returns, by its text. -/
def apiFailure : Except GoError APIError → GoError
  | .error err => err
  | .ok e => ⟨e.Error⟩

/-- **`Generate`**, with the order in which `doRequest` visits the
headers. -/
def AnthropicModel.generate (m : AnthropicModel) (order : List (String × String))
    (messages : List Model.Message) : Except GoError Model.Message :=
  match m.doRequest http (m.buildPayload messages false) order with
  | .error err => .error err
  | .ok resp =>
    if resp.StatusCode ≥ 300 then .error (apiFailure (readAPIError http resp))
    else
      match http.decodeResponse resp with
      | .error err => .error ⟨"decode anthropic response: " ++ err.Error⟩
      | .ok msgResp => .ok (convertResponse msgResp)

/-- What `GenerateStream` reads: the body of the reply to the streaming
request when its status is below 300, or the error of `doRequest` or of
`readAPIError`. The body is the whole body the server sent: a read of it
that fails part-way is left out, and every statement about
`GenerateStream` is for a body read to its end. -/
def AnthropicModel.streamResponse (m : AnthropicModel) (order : List (String × String))
    (messages : List Model.Message) : Except GoError String :=
  match m.doRequest http (m.buildPayload messages true) order with
  | .error err => .error err
  | .ok resp =>
    if resp.StatusCode ≥ 300 then .error (apiFailure (readAPIError http resp)) else .ok resp.Body

/-- **`GenerateStream`**: `generateStream` refuses a nil callback before it
reads the reply, as the code does before it sends the request. -/
def AnthropicModel.generateStream (dec : StreamDecoder) (done : Nat → Option GoError)
    (m : AnthropicModel) (order : List (String × String)) (messages : List Model.Message)
    (cb : Option Model.StreamCallback) : List Model.StreamResult × Option GoError :=
  Anthropic.generateStream dec done (m.streamResponse http order messages) cb

/-! ## What `doRequest` sends -/

/-- **What `doRequest` hands the client**: a `POST` of the encoded payload
to the endpoint, with the headers set in the order visited. -/
theorem request_eq_ok {m : AnthropicModel} {payload : MessageRequest}
    {order : List (String × String)} {req : Request} :
    m.request http payload order = .ok req ↔
      ∃ buf, http.encode payload = .ok buf ∧ http.newRequest (m.baseURL ++ messagesPath) = none ∧
        req = ⟨"POST", m.baseURL ++ messagesPath, buf, setHeaders [] order⟩ := by
  unfold AnthropicModel.request
  dsimp only
  cases http.encode payload <;> cases http.newRequest (m.baseURL ++ messagesPath) <;>
    simp [eq_comm]

/-- Whether `doRequest` sets a header entry under the canonical name `K`:
its value is not empty and its key has that form. -/
def setsUnder (K : String) (kv : String × String) : Bool :=
  decide (¬kv.2 = "" ∧ canonicalMIMEHeaderKey kv.1 = K)

/-- **The header loop keeps the value set last.** Under a canonical name,
the header after the loop holds the value of the last entry of the order
set under it, or else what it held before. -/
theorem lookup_setHeaders (K : String) (h : Header) (order : List (String × String)) :
    (setHeaders h order).lookup K =
      ((order.reverse.find? (setsUnder K)).map fun kv => [kv.2]).or (h.lookup K) :=
  lookup_foldl_mapSet (fun kv : String × String => kv.2 = "")
    (fun kv => canonicalMIMEHeaderKey kv.1) (fun kv => [kv.2]) K h order

/-- The header loop over an order of which one entry is set under `K`. -/
theorem lookup_setHeaders_of_filter {order : List (String × String)} {K : String}
    {kv : String × String} (h : order.filter (setsUnder K) = [kv]) :
    (setHeaders [] order).lookup K = some [kv.2] := by
  rw [lookup_setHeaders, ← List.filter_getLast?, h]
  rfl

/-- A permutation of a list of at most one element is that list. -/
theorem eq_of_perm_of_length_le_one {α : Type} {l₁ l₂ : List α} (h : l₁.Perm l₂)
    (hl : l₂.length ≤ 1) : l₁ = l₂ :=
  match l₂, hl with
  | [], _ => h.eq_nil
  | [_], _ => List.perm_singleton.mp h

/-- **A header no two keys share is sent whatever the order.** When at
most one key of the model's map has the canonical form `K` and a
non-empty value, the request carries that key's value under `K`, and
nothing when there is none, in every order in which `range` may visit the
map. -/
theorem doRequest_header {m : AnthropicModel} {payload : MessageRequest}
    {order : List (String × String)} {req : Request}
    (hreq : m.request http payload order = .ok req) (horder : order.Perm m.headers)
    (K : String) (hK : (m.headers.filter (setsUnder K)).length ≤ 1) :
    req.header.lookup K = (m.headers.find? (setsUnder K)).map fun kv => [kv.2] := by
  obtain ⟨buf, -, -, rfl⟩ := (request_eq_ok http).mp hreq
  have hf : order.filter (setsUnder K) = m.headers.filter (setsUnder K) :=
    eq_of_perm_of_length_le_one (horder.filter _) hK
  rw [lookup_setHeaders, ← List.filter_getLast?, hf, ← List.filter_head?]
  match m.headers.filter (setsUnder K), hK with
  | [], _ => rfl
  | [_], _ => rfl

/-- The default headers alone, visited in reverse: the API key is sent
under `X-Api-Key`. -/
theorem doRequest_header_defaults :
    let http : Http := ⟨fun _ => .ok "{}", fun _ => none, fun _ => .error ⟨"offline"⟩,
      fun _ => .error ⟨"offline"⟩, fun _ => .error ⟨"offline"⟩⟩
    let m : AnthropicModel :=
      ⟨defaultBaseURL, "claude", buildDefaultHeaders "sk", ModelOptions.default⟩
    let req : Request := ⟨"POST", m.baseURL ++ messagesPath, "{}", setHeaders [] m.headers.reverse⟩
    m.request http (m.buildPayload [] false) m.headers.reverse = .ok req ∧
      m.headers.reverse.Perm m.headers ∧
      (m.headers.filter (setsUnder "X-Api-Key")).length ≤ 1 ∧
      req.header.lookup "X-Api-Key" =
        (m.headers.find? (setsUnder "X-Api-Key")).map fun kv => [kv.2] := by
  intro http m req
  have hreq : m.request http (m.buildPayload [] false) m.headers.reverse = .ok req := rfl
  have hK : (m.headers.filter (setsUnder "X-Api-Key")).length ≤ 1 := by decide
  exact ⟨hreq, List.reverse_perm _, hK,
    doRequest_header http hreq (List.reverse_perm _) "X-Api-Key" hK⟩

/-- **Every value of a canonical name is sent under some order.** For
each entry of the model's map set under `K`, some order of the map, the
one that visits the entry last, makes the request carry its value under
`K`. With two keys of one canonical form holding different values, the
request so depends on the order `range` picks. -/
theorem doRequest_header_race {m : AnthropicModel} {payload : MessageRequest}
    {order : List (String × String)} {req : Request}
    (hreq : m.request http payload order = .ok req) {K : String} {kv : String × String}
    (hkv : kv ∈ m.headers) (hs : setsUnder K kv = true) :
    ∃ order' req', order'.Perm m.headers ∧ m.request http payload order' = .ok req' ∧
      req'.header.lookup K = some [kv.2] := by
  obtain ⟨buf, hbuf, hnew, -⟩ := (request_eq_ok http).mp hreq
  obtain ⟨l₁, l₂, hl⟩ := List.append_of_mem hkv
  refine ⟨l₁ ++ l₂ ++ [kv], _, ?_, (request_eq_ok http).mpr ⟨buf, hbuf, hnew, rfl⟩, ?_⟩
  · exact hl ▸ (List.perm_append_singleton _ _).trans List.perm_middle.symm
  · rw [lookup_setHeaders, List.reverse_append, List.reverse_singleton, List.singleton_append,
      List.find?_cons_of_pos _ hs]
    rfl

/-- **The API key races a respelled header.** `NewModel` with the API key
`sk` and the configured header `X-Api-Key: other` keeps both `X-API-Key`
and `X-Api-Key`; one order of the map sends `sk` and another `other`. -/
theorem doRequest_header_race_apiKey :
    let http : Http := ⟨fun _ => .ok "{}", fun _ => none, fun _ => .error ⟨"offline"⟩,
      fun _ => .error ⟨"offline"⟩, fun _ => .error ⟨"offline"⟩⟩
    let m : AnthropicModel := ⟨defaultBaseURL, "claude",
      mergeHeaders (buildDefaultHeaders "sk") [("X-Api-Key", "other")], ModelOptions.default⟩
    (∃ order' req', order'.Perm m.headers ∧
      m.request http (m.buildPayload [] false) order' = .ok req' ∧
      req'.header.lookup "X-Api-Key" = some ["sk"]) ∧
    (∃ order' req', order'.Perm m.headers ∧
      m.request http (m.buildPayload [] false) order' = .ok req' ∧
      req'.header.lookup "X-Api-Key" = some ["other"]) := by
  intro http m
  have hreq : m.request http (m.buildPayload [] false) m.headers =
      .ok ⟨"POST", m.baseURL ++ messagesPath, "{}", setHeaders [] m.headers⟩ := rfl
  exact ⟨@doRequest_header_race http m _ _ _ hreq "X-Api-Key" ("X-API-Key", "sk")
      (by decide) (by decide),
    @doRequest_header_race http m _ _ _ hreq "X-Api-Key" ("X-Api-Key", "other")
      (by decide) (by decide)⟩

/-! ## The headers of a configured model -/

/-- **The headers `NewModel` gives a model**: the defaults, with the API
key it checked, under the configured ones. -/
theorem newModel_headers {conv : Conversions} {ctxErr : Option GoError} {cfg : ModelConfig}
    {headerOrder : List (String × String)} {extraOrder : List (String × Value)}
    {m : AnthropicModel} (hm : newModel conv ctxErr cfg headerOrder extraOrder = .ok m) :
    trimSpace cfg.APIKey ≠ "" ∧
      m.headers = mergeHeaders (buildDefaultHeaders (trimSpace cfg.APIKey)) headerOrder := by
  unfold newModel at hm
  split at hm
  · cases hm
  · dsimp only at hm
    split_ifs at hm with hkey hname <;> obtain rfl := Except.ok.inj hm <;> exact ⟨hkey, rfl⟩

/-- The default headers: keys of distinct canonical forms, none blank,
and, with an API key, no empty value. -/
theorem buildDefaultHeaders_wf {apiKey : String} (h : apiKey ≠ "") :
    ((buildDefaultHeaders apiKey).map (canonicalMIMEHeaderKey ∘ Prod.fst)).Nodup ∧
      ∀ kv ∈ buildDefaultHeaders apiKey, trimSpace kv.1 ≠ "" ∧ kv.2 ≠ "" := by
  simp only [buildDefaultHeaders, List.map_cons, List.map_nil, Function.comp_apply]
  refine ⟨by decide, ?_⟩
  simp only [List.mem_cons, List.mem_singleton, List.not_mem_nil, or_false]
  rintro kv (rfl | rfl | rfl | rfl) <;> exact ⟨by dsimp only; decide, by first | exact h | decide⟩

/-- What `NewModel`'s loop leaves in the map: a default, or a configured
header with a key that is not blank and a value that is not empty. -/
theorem mem_mergeHeaders {kv : String × String} :
    ∀ {hs order : List (String × String)}, kv ∈ mergeHeaders hs order →
      kv ∈ hs ∨ kv ∈ order ∧ trimSpace kv.1 ≠ "" ∧ kv.2 ≠ ""
  | _, [], h => .inl h
  | hs, x :: order, h => by
    have h : kv ∈ mergeHeaders (if trimSpace x.1 = "" ∨ x.2 = "" then hs else mapSet hs x.1 x.2)
      order := h
    rcases mem_mergeHeaders h with h | ⟨h, hne⟩
    · split at h
      · exact .inl h
      · rcases mem_mapSet h with h | rfl
        · exact .inl h
        · exact .inr ⟨List.mem_cons_self _ _, by simp_all⟩
    · exact .inr ⟨List.mem_cons_of_mem _ h, hne⟩

/-- `NewModel`'s loop keeps the keys of the map distinct. -/
theorem mergeHeaders_keys_nodup :
    ∀ {hs : List (String × String)} (order : List (String × String)),
      (hs.map Prod.fst).Nodup → ((mergeHeaders hs order).map Prod.fst).Nodup
  | _, [], h => h
  | hs, x :: order, h => by
    show ((mergeHeaders (if trimSpace x.1 = "" ∨ x.2 = "" then hs else mapSet hs x.1 x.2)
      order).map Prod.fst).Nodup
    refine mergeHeaders_keys_nodup order ?_
    split
    · exact h
    · exact mapSet_keys_nodup h _ _

/-- In a map with distinct keys, an entry under `d` that is the only one
set under `d`'s canonical form is all that is set under it. -/
theorem filter_setsUnder_eq {d v : String} :
    ∀ {hs : List (String × String)}, (hs.map Prod.fst).Nodup → (d, v) ∈ hs → v ≠ "" →
      (∀ kv ∈ hs, setsUnder (canonicalMIMEHeaderKey d) kv = true → kv.1 = d) →
      hs.filter (setsUnder (canonicalMIMEHeaderKey d)) = [(d, v)]
  | [], _, h, _, _ => nomatch h
  | p :: ps, hn, hmem, hv, honly => by
    rw [List.map_cons, List.nodup_cons] at hn
    have hrest : ∀ kv ∈ ps, setsUnder (canonicalMIMEHeaderKey d) kv = true → kv.1 = d :=
      fun kv hkv => honly kv (List.mem_cons_of_mem _ hkv)
    rcases List.mem_cons.mp hmem with rfl | hmem
    · have hs : setsUnder (canonicalMIMEHeaderKey d) (d, v) = true := by simp [setsUnder, hv]
      rw [List.filter_cons_of_pos hs, List.filter_eq_nil_iff.mpr]
      intro kv hkv hs'
      exact hn.1 (List.mem_map.mpr ⟨kv, hkv, hrest kv hkv hs'⟩)
    · have hp : setsUnder (canonicalMIMEHeaderKey d) p = false := by
        refine Bool.eq_false_iff.mpr fun hs => hn.1 ?_
        rw [honly p (List.mem_cons_self _ _) hs]
        exact List.mem_map.mpr ⟨_, hmem, rfl⟩
      rw [List.filter_cons_of_neg (by simp [hp])]
      exact filter_setsUnder_eq hn.2 hmem hv hrest

/-- **The default headers are sent, unless a configuration respells
one.** For any configuration `NewModel` accepts, and any orders of both
header loops, the request carries each default header under its canonical
form, with the value last configured under the default's own spelling,
or else the default's value, as long as the configuration sets no other
spelling of that form. -/
theorem newModel_request_defaults {conv : Conversions} {ctxErr : Option GoError}
    {cfg : ModelConfig} {headerOrder : List (String × String)}
    {extraOrder : List (String × Value)} {m : AnthropicModel}
    (hm : newModel conv ctxErr cfg headerOrder extraOrder = .ok m) {payload : MessageRequest}
    {order : List (String × String)} {req : Request}
    (hreq : m.request http payload order = .ok req) (horder : order.Perm m.headers)
    {d dv : String} (hd : (d, dv) ∈ buildDefaultHeaders (trimSpace cfg.APIKey))
    (hspell : ∀ kv ∈ headerOrder, setsUnder (canonicalMIMEHeaderKey d) kv = true →
      trimSpace kv.1 ≠ "" → kv.1 = d) :
    req.header.lookup (canonicalMIMEHeaderKey d) =
      some [((headerOrder.reverse.find? fun kv => kv.1 = d ∧ kv.2 ≠ "").map (·.2)).getD dv] := by
  generalize hV : ((headerOrder.reverse.find? fun kv => kv.1 = d ∧ kv.2 ≠ "").map (·.2)).getD dv = V
  obtain ⟨hkey, hheaders⟩ := newModel_headers hm
  obtain ⟨hcanon, hdef⟩ := buildDefaultHeaders_wf hkey
  have hkeys : ((buildDefaultHeaders (trimSpace cfg.APIKey)).map Prod.fst).Nodup := by
    rw [← List.map_map] at hcanon
    exact hcanon.of_map _
  have hset : ∀ kv : String × String,
      decide (¬(trimSpace kv.1 = "" ∨ kv.2 = "") ∧ kv.1 = d) = decide (kv.1 = d ∧ kv.2 ≠ "") := by
    intro kv
    by_cases h : kv.1 = d <;> simp [h, (hdef _ hd).1]
  have hlookup : m.headers.lookup d = some V := by
    rw [hheaders, mergeHeaders, lookup_foldl_mapSet (fun kv : String × String =>
      trimSpace kv.1 = "" ∨ kv.2 = "") Prod.fst Prod.snd d, lookup_eq_some_of_mem hkeys hd, ← hV]
    simp only [hset]
    cases headerOrder.reverse.find? _ <;> rfl
  have hne : V ≠ "" := by
    rw [← hV]
    cases hfind : headerOrder.reverse.find? fun kv => kv.1 = d ∧ kv.2 ≠ "" with
    | none => exact (hdef _ hd).2
    | some kv =>
      have hkv := List.find?_some hfind
      exact (of_decide_eq_true hkv).2
  have honly : ∀ kv ∈ m.headers, setsUnder (canonicalMIMEHeaderKey d) kv = true → kv.1 = d := by
    intro kv hkv hs
    rw [hheaders] at hkv
    rcases mem_mergeHeaders hkv with hkv | ⟨hkv, htrim, -⟩
    · exact congrArg Prod.fst (List.inj_on_of_nodup_map hcanon hkv hd (of_decide_eq_true hs).2)
    · exact hspell kv hkv hs htrim
  have hfilter := filter_setsUnder_eq (hheaders ▸ mergeHeaders_keys_nodup headerOrder hkeys)
    (mem_of_lookup_eq_some hlookup) hne honly
  obtain ⟨buf, -, -, rfl⟩ := (request_eq_ok http).mp hreq
  exact lookup_setHeaders_of_filter (List.perm_singleton.mp (hfilter ▸ horder.filter _))

/-- A configuration with the API key `  sk ` and one more header,
`anthropic-beta`: the request carries the trimmed key under `X-Api-Key`. -/
theorem newModel_request_defaults_beta :
    let conv : Conversions :=
      ⟨fun _ => 0, fun _ => ⟨0⟩, fun _ => none, fun _ => none, fun _ => none, fun _ => none,
        fun _ => ""⟩
    let http : Http := ⟨fun _ => .ok "{}", fun _ => none, fun _ => .error ⟨"offline"⟩,
      fun _ => .error ⟨"offline"⟩, fun _ => .error ⟨"offline"⟩⟩
    let cfg : ModelConfig :=
      ⟨"  sk ", "claude", "", "anthropic", "", [("anthropic-beta", "tools")], []⟩
    let m : AnthropicModel := ⟨sanitizeBaseURL "", "claude",
      mergeHeaders (buildDefaultHeaders "sk") cfg.Headers, parseModelOptions conv [] []⟩
    let req : Request := ⟨"POST", m.baseURL ++ messagesPath, "{}", setHeaders [] m.headers⟩
    newModel conv none cfg cfg.Headers [] = .ok m ∧
      m.request http (m.buildPayload [] false) m.headers = .ok req ∧
      ("X-API-Key", "sk") ∈ buildDefaultHeaders (trimSpace cfg.APIKey) ∧
      (∀ kv ∈ cfg.Headers, setsUnder (canonicalMIMEHeaderKey "X-API-Key") kv = true →
        trimSpace kv.1 ≠ "" → kv.1 = "X-API-Key") ∧
      req.header.lookup (canonicalMIMEHeaderKey "X-API-Key") =
        some [((cfg.Headers.reverse.find? fun kv => kv.1 = "X-API-Key" ∧ kv.2 ≠ "").map
          (·.2)).getD "sk"] := by
  intro conv http cfg m req
  have hm : newModel conv none cfg cfg.Headers [] = .ok m := rfl
  have hreq : m.request http (m.buildPayload [] false) m.headers = .ok req := rfl
  have hd : ("X-API-Key", "sk") ∈ buildDefaultHeaders (trimSpace cfg.APIKey) := by decide
  have hspell : ∀ kv ∈ cfg.Headers, setsUnder (canonicalMIMEHeaderKey "X-API-Key") kv = true →
      trimSpace kv.1 ≠ "" → kv.1 = "X-API-Key" := by decide
  exact ⟨hm, hreq, hd, hspell,
    newModel_request_defaults http hm hreq (List.Perm.refl _) hd hspell⟩

end Anthropic
