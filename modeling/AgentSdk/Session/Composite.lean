import AgentSdk.Session.Path

/-!
# The composite backend

`CompositeBackend` maps normalized path prefixes to backends and sends each
call to the backend of the longest prefix of the normalized path. The map is
a Go map, which `Route` walks in an order the runtime chooses afresh on
every walk; the model keeps the table as a list of entries with distinct
keys and takes the walking order as an argument, any permutation of the
entries.

A prefix is a string prefix: `normalizePrefix` drops the trailing `/` a
caller writes, and `Route` compares with `strings.HasPrefix`, so the route
`/mem/` also captures `/memory/x` (`route_captures_sibling`). What a route
does capture is a path its key is a string prefix of
(`route_key_isPrefix`).
-/

namespace Session

open GoString

/-- `ErrNoBackendRoute`. -/
def errNoBackendRoute : String := "session: no backend route for path"

/-- **The `Backend` interface** over backends of type `β`: what each method
does on each backend. -/
structure BackendOps (β : Type) where
  read : β → String → Except String (List UInt8)
  write : β → String → List UInt8 → Except String Unit
  list : β → String → Except String (List String)
  delete : β → String → Except String Unit

/-- **A composite backend**: its routes, one per normalized prefix. -/
structure CompositeBackend (β : Type) where
  routes : List (String × β)
  keys_nodup : (routes.map (·.1)).Nodup

variable {β γ : Type}

/-- **`NewCompositeBackend`**. -/
def newCompositeBackend : CompositeBackend β := ⟨[], List.nodup_nil⟩

/-- The map assignment `routes[norm] = backend`: the old entry of the key,
if any, is replaced. -/
def CompositeBackend.assign (b : CompositeBackend β) (norm : String) (backend : β) :
    CompositeBackend β :=
  ⟨(norm, backend) :: b.routes.filter (·.1 ≠ norm), by
    refine List.nodup_cons.mpr
      ⟨fun h => ?_, b.keys_nodup.sublist ((List.filter_sublist _).map _)⟩
    obtain ⟨x, hx, hxn⟩ := List.mem_map.mp h
    exact of_decide_eq_true (List.mem_filter.mp hx).2 hxn⟩

/-- **`AddRoute`**: a nil backend and an empty prefix are refused. -/
def CompositeBackend.addRoute (b : CompositeBackend β) (pre : String) (backend : Option β) :
    Except String (CompositeBackend β) :=
  match backend with
  | none => .error "session: backend cannot be nil"
  | some be =>
    let norm := normalizePrefix pre
    if norm = "" then .error "session: prefix cannot be empty"
    else .ok (b.assign norm be)

/-- **The loop of `Route`** over the entries in the order it visits them:
an entry whose key is a prefix of the path and strictly longer, in bytes,
than the best so far becomes the match. -/
def routeLoop (path : String) : List (String × β) → Option β → Nat → Option β
  | [], matched, _ => matched
  | (pre, backend) :: rest, matched, maxLen =>
    if hasPrefix path pre ∧ maxLen < pre.utf8ByteSize then
      routeLoop path rest (some backend) pre.utf8ByteSize
    else routeLoop path rest matched maxLen

/-- **`Route`**, walking the entries in the order `order`. -/
def routeIn (order : List (String × β)) (p : String) : Option β :=
  routeLoop (normalizePath p) order none 0

/-- **`routeOrErr`**: the routed backend, or `ErrNoBackendRoute` with the
normalized path. -/
def routeOrErr (order : List (String × β)) (path : String) : Except String β :=
  match routeIn order path with
  | none => .error (errNoBackendRoute ++ ": " ++ normalizePath path)
  | some backend => .ok backend

/-- The common body of `Read`, `Write`, `List` and `Delete`: route, then
call the backend on the normalized path. -/
def dispatch (order : List (String × β)) (path : String) (call : β → String → Except String γ) :
    Except String γ :=
  match routeOrErr order path with
  | .error e => .error e
  | .ok backend => call backend (normalizePath path)

/-- **`Read`**. -/
def read (ops : BackendOps β) (order : List (String × β)) (path : String) :
    Except String (List UInt8) :=
  dispatch order path ops.read

/-- **`Write`**. -/
def write (ops : BackendOps β) (order : List (String × β)) (path : String) (data : List UInt8) :
    Except String Unit :=
  dispatch order path fun backend p => ops.write backend p data

/-- **`List`**. -/
def list (ops : BackendOps β) (order : List (String × β)) (pre : String) :
    Except String (List String) :=
  dispatch order pre ops.list

/-- **`Delete`**. -/
def delete (ops : BackendOps β) (order : List (String × β)) (path : String) :
    Except String Unit :=
  dispatch order path ops.delete

/-! ## What a route captures -/

/-- The loop returns the match it started with or the backend of an entry
whose key is a prefix of the path. -/
theorem routeLoop_mem {path : String} :
    ∀ {order : List (String × β)} {matched : Option β} {maxLen : Nat} {be : β},
      routeLoop path order matched maxLen = some be →
        matched = some be ∨ ∃ q, (q, be) ∈ order ∧ hasPrefix path q = true
  | [], _, _, _, h => .inl h
  | (pre, backend) :: rest, matched, maxLen, be, h => by
    simp only [routeLoop] at h
    split_ifs at h with hp
    · rcases routeLoop_mem h with h | ⟨q, hq, hpq⟩
      · cases h; exact .inr ⟨pre, List.mem_cons_self _ _, hp.1⟩
      · exact .inr ⟨q, List.mem_cons_of_mem _ hq, hpq⟩
    · exact (routeLoop_mem h).imp_right fun ⟨q, hq, hpq⟩ =>
        ⟨q, List.mem_cons_of_mem _ hq, hpq⟩

/-- **A route captures only paths its key is a string prefix of**: whatever
the walking order, the backend `Route` returns is registered under a key that
is a string prefix of the normalized path. -/
theorem route_key_isPrefix (b : CompositeBackend β) (order : List (String × β))
    (horder : order.Perm b.routes) (p : String) (be : β) (h : routeIn order p = some be) :
    ∃ q, (q, be) ∈ b.routes ∧ hasPrefix (normalizePath p) q = true := by
  rcases routeLoop_mem h with h | ⟨q, hq, hpq⟩
  · cases h
  · exact ⟨q, horder.subset hq, hpq⟩

theorem route_key_isPrefix_root :
    [("/", 0)].Perm [("/", 0)] ∧ routeIn [("/", 0)] "/" = some 0 ∧
      ∃ q, (q, 0) ∈ [("/", 0)] ∧ hasPrefix (normalizePath "/") q = true := by
  have hp : normalizePath "/" = "/" := by simp [normalizePath, clean, cleanLoop, hasPrefix]
  have h : routeIn [("/", 0)] "/" = some 0 := by simp only [routeIn, hp, routeLoop]; decide
  exact ⟨.refl _, h, route_key_isPrefix ⟨[("/", 0)], by decide⟩ _ (.refl _) "/" 0 h⟩

/-- A route added as `/mem/` is keyed `/mem`, and `Route` hands it `/memory/x`,
which is neither `/mem` nor under `/mem/`. -/
theorem route_captures_sibling :
    ∃ b : CompositeBackend Nat, newCompositeBackend.addRoute "/mem/" (some 0) = .ok b ∧
      b.routes = [("/mem", 0)] ∧ routeIn b.routes "/memory/x" = some 0 ∧
      normalizePath "/memory/x" = "/memory/x" ∧ hasPrefix "/memory/x" ("/mem" ++ "/") = false := by
  have hpre : normalizePrefix "/mem/" = "/mem" := by
    simp [normalizePrefix, normalizePath, clean, cleanLoop, hasPrefix, hasSuffix]
  have hpath : normalizePath "/memory/x" = "/memory/x" := by
    simp [normalizePath, clean, cleanLoop, hasPrefix]
  refine ⟨_, by simp [CompositeBackend.addRoute, hpre]; rfl, rfl, ?_, hpath, by decide⟩
  simp only [routeIn, hpath, routeLoop]
  decide

/-! ## Paths that climb -/

/-- **`normalizePath` keeps a leading `..`.** `path.Clean("../x")` is the
relative `../x`, and `normalizePath` prefixes it with `/`: the result holds a
`..` element, is not a fixed point, and is the path `Read` hands to the
backend of `/`. -/
theorem normalizePath_dotdot :
    normalizePath "../x" = "/../x" ∧ normalizePath "/../x" = "/x" ∧
      ∀ ops : BackendOps Nat, read ops [("/", 0)] "../x" = ops.read 0 "/../x" := by
  have h1 : normalizePath "../x" = "/../x" := by
    simp [normalizePath, clean, cleanLoop, dotdotStep, hasPrefix]
  have h2 : normalizePath "/../x" = "/x" := by
    simp [normalizePath, clean, cleanLoop, dotdotStep, hasPrefix]
  refine ⟨h1, h2, fun ops => ?_⟩
  simp only [read, dispatch, routeOrErr, routeIn, h1, routeLoop]
  rfl

end Session
