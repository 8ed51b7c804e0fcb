import AgentSdk.Session.Composite
import Mathlib.Data.List.MinMax
import Mathlib.Data.String.Basic

/-!
# `Route` against its specification

A composite backend is built by `AddRoute` calls, each of which assigns
its backend to the normalized prefix, replacing what an earlier call put
there; a call with a nil backend is refused and changes nothing. What
`Route` is meant to return is then a function of the calls alone: of the
keys the accepted calls registered, take the longest that is a string
prefix of the normalized path, and return the backend the latest call
under that key gave, or nothing when no key is such a prefix
(`routeSpec`).

`Route` computes something else: it walks the Go map in whatever order
the runtime picks and keeps an entry only when its key is a prefix and
strictly longer, in bytes, than the best so far. The two agree on every
walking order (`route_eq_routeSpec`). The strict comparison cannot hide
a second candidate of the same length, because two keys that are both
prefixes of one path and have the same length in bytes are the same key
(`eq_of_hasPrefix_of_utf8ByteSize_eq`); and among prefixes of one path a
longer key in characters is a longer key in bytes
(`utf8ByteSize_le_of_hasPrefix`).
-/

namespace Session

open GoString

variable {β : Type}

/-! ## Normalized prefixes are never empty -/

private theorem ofCleaned_ne_empty (out : List Char) :
    (if out = [] then "." else (⟨out.reverse⟩ : String)) ≠ "" := by
  split_ifs with ho
  · decide
  · intro h
    exact ho (List.reverse_eq_nil_iff.mp (congrArg String.data h))

theorem clean_ne_empty (p : String) : clean p ≠ "" := by
  unfold clean
  split_ifs
  · decide
  · dsimp only
    split <;> exact ofCleaned_ne_empty _

theorem normalizePath_ne_empty (p : String) : normalizePath p ≠ "" := by
  unfold normalizePath
  dsimp only
  split_ifs
  · decide
  · decide
  · intro h
    exact absurd (congrArg String.data h) (by simp)
  · exact clean_ne_empty p

/-- The key `AddRoute` assigns is never empty, so its emptiness check never
refuses a call. -/
theorem normalizePrefix_ne_empty (pre : String) : normalizePrefix pre ≠ "" := by
  simpa only [normalizePrefix, ite_self] using normalizePath_ne_empty pre

/-! ## Prefixes of one path -/

private theorem eq_of_prefix_of_utf8Len_eq {a b : List Char} (h : a <+: b)
    (hsize : String.utf8Len a = String.utf8Len b) : a = b := by
  obtain ⟨t, rfl⟩ := h
  rw [String.utf8Len_append] at hsize
  rw [String.utf8Len_eq_zero.mp (by omega : String.utf8Len t = 0), List.append_nil]

/-- Two keys that are both string prefixes of one path and have the same
length in bytes are the same key. -/
theorem eq_of_hasPrefix_of_utf8ByteSize_eq {s a b : String} (ha : hasPrefix s a = true)
    (hb : hasPrefix s b = true) (hsize : a.utf8ByteSize = b.utf8ByteSize) : a = b := by
  rw [hasPrefix_iff] at ha hb
  obtain ⟨a⟩ := a
  obtain ⟨b⟩ := b
  change String.utf8Len a = String.utf8Len b at hsize
  rcases List.prefix_or_prefix_of_prefix ha hb with h | h
  · exact congrArg String.mk (eq_of_prefix_of_utf8Len_eq h hsize)
  · exact congrArg String.mk (eq_of_prefix_of_utf8Len_eq h hsize.symm).symm

/-- Among string prefixes of one path, a key no longer in characters is no
longer in bytes. -/
theorem utf8ByteSize_le_of_hasPrefix {s a b : String} (ha : hasPrefix s a = true)
    (hb : hasPrefix s b = true) (hlen : a.length ≤ b.length) :
    a.utf8ByteSize ≤ b.utf8ByteSize := by
  rw [hasPrefix_iff] at ha hb
  obtain ⟨a⟩ := a
  obtain ⟨b⟩ := b
  exact String.utf8Len_le_of_infix (List.prefix_of_prefix_length_le ha hb hlen).isInfix

theorem utf8ByteSize_pos {q : String} (hq : q ≠ "") : 0 < q.utf8ByteSize := by
  obtain ⟨q⟩ := q
  refine Nat.pos_of_ne_zero fun h => hq (congrArg String.mk (String.utf8Len_eq_zero.mp h))

/-! ## The loop of `Route` -/

section Loop

variable {path : String}

/-- **No candidate ahead**: when no entry still to visit is a prefix of the
path longer than the best so far, the loop keeps the match it holds. -/
theorem routeLoop_of_forall_le :
    ∀ {l : List (String × β)} {m : Option β} {maxLen : Nat},
      (∀ e ∈ l, hasPrefix path e.1 = true → e.1.utf8ByteSize ≤ maxLen) →
        routeLoop path l m maxLen = m
  | [], _, _, _ => rfl
  | (pre, _) :: _, _, maxLen, h => by
    have hpre : ¬(hasPrefix path pre = true ∧ maxLen < pre.utf8ByteSize) := fun hp =>
      absurd (h _ (List.mem_cons_self _ _) hp.1) (Nat.not_le.mpr hp.2)
    rw [routeLoop, if_neg hpre]
    exact routeLoop_of_forall_le fun e he => h e (List.mem_cons_of_mem _ he)

/-- **The longest candidate wins**, wherever it stands: an entry whose key is
a prefix of the path, longer in bytes than the best so far and no shorter
than any other candidate, is what the loop returns. A candidate visited
before it is strictly shorter, since keys are distinct
(`eq_of_hasPrefix_of_utf8ByteSize_eq`), so it never blocks it. -/
theorem routeLoop_of_longest {pre : String} {be : β} :
    ∀ {l : List (String × β)} {m : Option β} {maxLen : Nat},
      (l.map (·.1)).Nodup → (pre, be) ∈ l → hasPrefix path pre = true →
      (∀ e ∈ l, hasPrefix path e.1 = true → e.1.utf8ByteSize ≤ pre.utf8ByteSize) →
      maxLen < pre.utf8ByteSize → routeLoop path l m maxLen = some be
  | [], _, _, _, hmem, _, _, _ => absurd hmem (List.not_mem_nil _)
  | (q, b) :: rest, _, maxLen, hnd, hmem, hgood, hle, hmax => by
    rw [List.map_cons, List.nodup_cons] at hnd
    have hrest := fun e he => hle e (List.mem_cons_of_mem _ he)
    rcases List.mem_cons.mp hmem with heq | hmem
    · obtain ⟨rfl, rfl⟩ := Prod.mk.inj heq
      rw [routeLoop, if_pos ⟨hgood, hmax⟩]
      exact routeLoop_of_forall_le hrest
    · have hne : q ≠ pre := by
        rintro rfl
        exact hnd.1 (List.mem_map_of_mem (·.1) hmem)
      rw [routeLoop]
      split_ifs with hq
      · have hlt : q.utf8ByteSize < pre.utf8ByteSize :=
          lt_of_le_of_ne (hle _ (List.mem_cons_self _ _) hq.1)
            fun h => hne (eq_of_hasPrefix_of_utf8ByteSize_eq hq.1 hgood h)
        exact routeLoop_of_longest hnd.2 hmem hgood hrest hlt
      · exact routeLoop_of_longest hnd.2 hmem hgood hrest hmax

end Loop

/-! ## The specification -/

/-- One `AddRoute` call on a backend; a refused call leaves it as it was. -/
def addRouteStep (b : CompositeBackend β) (c : String × Option β) : CompositeBackend β :=
  match b.addRoute c.1 c.2 with
  | .ok b' => b'
  | .error _ => b

/-- The backend a sequence of `AddRoute` calls builds from
`NewCompositeBackend`. -/
def addRoutes (calls : List (String × Option β)) : CompositeBackend β :=
  calls.foldl addRouteStep newCompositeBackend

/-- The routes the accepted calls registered, in call order, each under its
normalized prefix. -/
def acceptedRoutes (calls : List (String × Option β)) : List (String × β) :=
  calls.filterMap fun c => c.2.map fun be => (normalizePrefix c.1, be)

/-- The backend the most recent accepted call for the key `q` gave. -/
def latestFor (calls : List (String × Option β)) (q : String) : Option β :=
  (acceptedRoutes calls).reverse.lookup q

/-- **What `Route` is for**: of the registered keys that are string
prefixes of the normalized path, take the longest, and return the backend
the most recent call for it gave; nothing when there is no such key. -/
def routeSpec (calls : List (String × Option β)) (p : String) : Option β :=
  match (((acceptedRoutes calls).map (·.1)).filter (hasPrefix (normalizePath p))).argmax
      String.length with
  | none => none
  | some q => latestFor calls q

@[simp] theorem addRouteStep_none (b : CompositeBackend β) (pre : String) :
    addRouteStep b (pre, none) = b := rfl

@[simp] theorem addRouteStep_some (b : CompositeBackend β) (pre : String) (be : β) :
    addRouteStep b (pre, some be) = b.assign (normalizePrefix pre) be := by
  simp [addRouteStep, CompositeBackend.addRoute, normalizePrefix_ne_empty]

@[simp] theorem acceptedRoutes_nil : acceptedRoutes ([] : List (String × Option β)) = [] := rfl

@[simp] theorem acceptedRoutes_cons_none (pre : String) (calls : List (String × Option β)) :
    acceptedRoutes ((pre, none) :: calls) = acceptedRoutes calls := rfl

@[simp] theorem acceptedRoutes_cons_some (pre : String) (be : β)
    (calls : List (String × Option β)) :
    acceptedRoutes ((pre, some be) :: calls) = (normalizePrefix pre, be) :: acceptedRoutes calls :=
  rfl

theorem acceptedRoutes_key_ne_empty {calls : List (String × Option β)} {q : String}
    (hq : q ∈ (acceptedRoutes calls).map (·.1)) : q ≠ "" := by
  simp only [acceptedRoutes, List.mem_map, List.mem_filterMap, Option.map_eq_some'] at hq
  obtain ⟨_, ⟨_, _, _, _, rfl⟩, rfl⟩ := hq
  exact normalizePrefix_ne_empty _

/-! ## The table the calls build -/

private theorem lookup_filter_ne {q norm : String} (h : q ≠ norm) :
    ∀ l : List (String × β), (l.filter (·.1 ≠ norm)).lookup q = l.lookup q
  | [] => rfl
  | (k, v) :: l => by
    by_cases hk : k = norm
    · subst hk
      rw [List.filter_cons_of_neg (by simp), lookup_filter_ne h l, List.lookup_cons,
        beq_false_of_ne h]
    · rw [List.filter_cons_of_pos (by simpa using hk), List.lookup_cons, List.lookup_cons,
        lookup_filter_ne h l]

/-- A map assignment reads back as the new entry in front of the old table. -/
theorem assign_lookup (b : CompositeBackend β) (norm : String) (be : β) (q : String) :
    (b.assign norm be).routes.lookup q = ((norm, be) :: b.routes).lookup q := by
  show ((norm, be) :: b.routes.filter (·.1 ≠ norm)).lookup q = _
  by_cases h : q = norm
  · rw [h, List.lookup_cons_self, List.lookup_cons_self]
  · rw [List.lookup_cons, List.lookup_cons, lookup_filter_ne h]

/-- **The table after a run of calls**: looking a key up finds the most
recent accepted call for it, and otherwise what the table held before. -/
theorem foldl_addRouteStep_lookup (q : String) :
    ∀ (calls : List (String × Option β)) (b : CompositeBackend β),
      (calls.foldl addRouteStep b).routes.lookup q =
        ((acceptedRoutes calls).reverse ++ b.routes).lookup q
  | [], _ => rfl
  | (_, none) :: calls, b => by
    rw [List.foldl_cons, addRouteStep_none, foldl_addRouteStep_lookup q calls,
      acceptedRoutes_cons_none]
  | (pre, some be) :: calls, b => by
    rw [List.foldl_cons, addRouteStep_some, foldl_addRouteStep_lookup q calls,
      acceptedRoutes_cons_some, List.reverse_cons, List.append_assoc, List.singleton_append,
      List.lookup_append, List.lookup_append, assign_lookup]

theorem addRoutes_lookup (calls : List (String × Option β)) (q : String) :
    (addRoutes calls).routes.lookup q = latestFor calls q := by
  rw [addRoutes, foldl_addRouteStep_lookup, newCompositeBackend, List.append_nil, latestFor]

/-- Every key of the table is the key of an accepted call. -/
theorem addRoutes_key_mem {calls : List (String × Option β)} {e : String × β}
    (he : e ∈ (addRoutes calls).routes) : e.1 ∈ (acceptedRoutes calls).map (·.1) := by
  have hsome : ((addRoutes calls).routes.lookup e.1).isSome :=
    List.lookup_isSome_iff.mpr ⟨e, he, beq_self_eq_true _⟩
  rw [addRoutes_lookup, latestFor, List.lookup_isSome_iff] at hsome
  obtain ⟨e', he', heq⟩ := hsome
  rw [beq_iff_eq.mp heq]
  exact List.mem_map_of_mem _ (List.mem_reverse.mp he')

/-- A key the most recent call gave a backend for carries that backend in
the table. -/
theorem mem_addRoutes_of_latestFor {calls : List (String × Option β)} {q : String} {be : β}
    (h : latestFor calls q = some be) : (q, be) ∈ (addRoutes calls).routes := by
  rw [← addRoutes_lookup, List.lookup_eq_some_iff] at h
  obtain ⟨l₁, l₂, heq, -⟩ := h
  rw [heq]
  exact List.mem_append_right _ (List.mem_cons_self _ _)

theorem latestFor_isSome {calls : List (String × Option β)} {q : String}
    (hq : q ∈ (acceptedRoutes calls).map (·.1)) : (latestFor calls q).isSome := by
  obtain ⟨e, he, rfl⟩ := List.mem_map.mp hq
  exact List.lookup_isSome_iff.mpr ⟨e, List.mem_reverse.mpr he, beq_self_eq_true _⟩

/-! ## `Route` meets its specification -/

theorem route_eq_routeSpec (calls : List (String × Option β)) (order : List (String × β))
    (horder : order.Perm (addRoutes calls).routes) (p : String) :
    routeIn order p = routeSpec calls p := by
  have hnd : (order.map (·.1)).Nodup := (horder.map _).nodup_iff.mpr (addRoutes calls).keys_nodup
  have hcand : ∀ e ∈ order, hasPrefix (normalizePath p) e.1 = true →
      e.1 ∈ ((acceptedRoutes calls).map (·.1)).filter (hasPrefix (normalizePath p)) :=
    fun e he hgood => List.mem_filter.mpr ⟨addRoutes_key_mem (horder.subset he), hgood⟩
  unfold routeSpec routeIn
  split
  next hnone =>
    rw [List.argmax_eq_none] at hnone
    exact routeLoop_of_forall_le fun e he hgood => absurd (hcand e he hgood) (by simp [hnone])
  next q hq =>
    obtain ⟨hkey, hgood⟩ := List.mem_filter.mp (List.argmax_mem hq)
    obtain ⟨be, hbe⟩ := Option.isSome_iff_exists.mp (latestFor_isSome hkey)
    rw [hbe]
    exact routeLoop_of_longest hnd (horder.mem_iff.mpr (mem_addRoutes_of_latestFor hbe)) hgood
      (fun e he hgood' =>
        utf8ByteSize_le_of_hasPrefix hgood' hgood (List.le_of_mem_argmax (hcand e he hgood') hq))
      (utf8ByteSize_pos (acceptedRoutes_key_ne_empty hkey))

theorem route_eq_routeSpec_reversed :
    let calls : List (String × Option Nat) :=
      [("/mem/", some 1), ("/", some 0), ("/mem", some 2), ("/x", none)]
    (addRoutes calls).routes.reverse.Perm (addRoutes calls).routes ∧
      routeIn (addRoutes calls).routes.reverse "/mem/a" = routeSpec calls "/mem/a" :=
  ⟨List.reverse_perm _, route_eq_routeSpec _ _ (List.reverse_perm _) _⟩

end Session
