import AgentSdk.Session.Memory

/-!
# Runs of sessions

A run creates sessions (`NewMemorySession`) and calls their methods in any
order; `Fork` adds the session it returns to the run. The world is the list
of sessions created so far, addressed by their position.

Beside each session the world keeps two records that no method reads: the
ids of the session and of its ancestors, nearest first (its *lineage*), and
the checkpoints taken in that lineage, latest first, each with the
transcript it stored (its *journal*). A forked session starts with its
parent's journal, since it starts with its parent's checkpoints. They are
what the properties of a run are stated against – which ids a fork reuses,
which `Checkpoint` a `Resume` restores – and `World.step` maintains them next
to the sessions without feeding them back.
-/

namespace Session

open GoString

/-- **A session of a run**, with its lineage and its journal. -/
structure Node where
  session : MemorySession
  /-- The ids of the session and of its ancestors, nearest first. -/
  lineage : List String
  /-- The checkpoints taken in the lineage, latest first: the trimmed name
  and the transcript stored. -/
  journal : List (String × List Message)

/-- The sessions of a run, by handle. -/
abbrev World := List Node

/-- One step of a run: create a session, or call a method of one. -/
inductive Op where
  | new (id : String)
  | call (h : Nat) (m : Method)

namespace Node

/-- The journal after a successful call: a checkpoint records its trimmed
name and the transcript it stores. -/
def record (n : Node) : Method → List (String × List Message)
  | .checkpoint name => (trimSpace name, n.session.messages) :: n.journal
  | _ => n.journal

/-- A method call on the node's session, the journal kept up to date. -/
def invoke (n : Node) (m : Method) : Call Returned × Node :=
  let r := n.session.invoke m
  (r, { n with session := r.state, journal := if r.failed then n.journal else n.record m })

/-- The node of a session forked from `n`. -/
def child (n : Node) (c : MemorySession) : Node :=
  { session := c, lineage := c.id :: n.lineage, journal := n.journal }

/-- A failed call leaves the node as it was. -/
theorem invoke_failed {n : Node} {m : Method} (h : (n.invoke m).1.failed) :
    (n.invoke m).2 = n := by
  simp only [invoke] at h ⊢
  rw [h, MemorySession.invoke_failed h]
  rfl

/-- **What a call keeps.** A property of a node survives a call when it
survives every successful one: the session's new state, with the journal
recorded. -/
theorem invoke_preserves {P : Node → Prop} {n : Node} (m : Method) (hn : P n)
    (hok : ∀ v s', n.session.invoke m = .ok v s' → P ⟨s', n.lineage, n.record m⟩) :
    P (n.invoke m).2 := by
  rcases hr : n.session.invoke m with ⟨v, s'⟩ | ⟨e, s'⟩
  · have hst : (n.invoke m).2 = ⟨s', n.lineage, n.record m⟩ := by simp [invoke, hr]
    exact hst ▸ hok v s' hr
  · rwa [invoke_failed (by simp [invoke, hr])]

end Node

namespace World

/-- What a call returns, as the run sees it: a forked session joins the
world. -/
def settle (w : World) (n : Node) : Call Returned → World × Except SessionError Returned
  | .ok (.session c) _ => (w ++ [n.child c], .ok (.session c))
  | .ok v _ => (w, .ok v)
  | .error e _ => (w, .error e)

/-- **One step of a run.** A call on a handle that names no session cannot
be written in Go; the model lets it pass without effect. -/
def step (w : World) : Op → World × Except SessionError Returned
  | .new name =>
    match newMemorySession name with
    | .error e => (w, .error e)
    | .ok s => (w ++ [⟨s, [s.id], []⟩], .ok (.session s))
  | .call h m =>
    match w[h]? with
    | none => (w, .ok .unit)
    | some n => settle (w.set h (n.invoke m).2) n (n.invoke m).1

/-- The world after a sequence of steps. -/
def run (w : World) (ops : List Op) : World :=
  ops.foldl (fun w op => (w.step op).1) w

@[simp] theorem run_nil (w : World) : w.run [] = w := rfl

@[simp] theorem run_cons (w : World) (op : Op) (ops : List Op) :
    w.run (op :: ops) = (w.step op).1.run ops := rfl

theorem settle_error {w : World} {n : Node} {r : Call Returned} {e : SessionError}
    (h : (settle w n r).2 = .error e) : r.failed ∧ (settle w n r).1 = w := by
  rcases r with ⟨_ | _ | _, _⟩ | ⟨_, _⟩ <;> simp_all [settle]

theorem set_self_of_getElem? {α : Type} {l : List α} {k : Nat} {a : α} (h : l[k]? = some a) :
    l.set k a = l := by
  apply List.ext_getElem?
  intro j
  rw [List.getElem?_set]
  split_ifs with hkj hk
  · rw [← h, hkj]
  · exact absurd (List.getElem?_eq_some_iff.mp h).1 hk
  · rfl

/-- **A step that returns an error changes no session and adds none.** -/
theorem step_failed {w : World} {op : Op} {e : SessionError}
    (h : (w.step op).2 = .error e) : (w.step op).1 = w := by
  cases op with
  | new name => cases hs : newMemorySession name <;> simp_all [step]
  | call k m =>
    unfold step at h ⊢
    cases hn : w[k]? with
    | none => simp [hn] at h
    | some n =>
      simp only [hn] at h ⊢
      obtain ⟨hf, hw⟩ := settle_error h
      rw [hw, Node.invoke_failed hf, set_self_of_getElem? hn]

theorem settle_getElem? {w : World} {n : Node} {r : Call Returned} {k : Nat}
    (hk : k < w.length) : (settle w n r).1[k]? = w[k]? := by
  rcases r with ⟨_ | _ | _, _⟩ | ⟨_, _⟩ <;> simp [settle, List.getElem?_append_left hk]

/-- A call is seen at its handle. -/
theorem step_call_getElem? {w : World} {k : Nat} {n : Node} (hn : w[k]? = some n) (m : Method) :
    (w.step (.call k m)).1[k]? = some (n.invoke m).2 := by
  have hk : k < w.length := (List.getElem?_eq_some_iff.mp hn).1
  simp only [step, hn]
  rw [settle_getElem? (by simpa using hk), List.getElem?_set_self hk]

/-- **Frame**: a step changes the session it calls and no other one. -/
theorem step_getElem? {w : World} {k : Nat} {n : Node} (hn : w[k]? = some n) (op : Op) :
    (w.step op).1[k]? = some n ∨
      ∃ m, op = .call k m ∧ (w.step op).1[k]? = some (n.invoke m).2 := by
  have hk : k < w.length := (List.getElem?_eq_some_iff.mp hn).1
  cases op with
  | new name =>
    left
    cases h : newMemorySession name <;> simp [step, h, List.getElem?_append_left hk, hn]
  | call j m =>
    cases hj : w[j]? with
    | none => simp [step, hj, hn]
    | some n' =>
      simp only [step, hj]
      rw [settle_getElem? (by simpa using hk)]
      by_cases hjk : j = k
      · subst hjk
        obtain rfl : n' = n := Option.some.inj (hj.symm.trans hn)
        exact .inr ⟨m, rfl, List.getElem?_set_self hk⟩
      · exact .inl ((List.getElem?_set_ne hjk).trans hn)

end World

/-- A call on a closed session leaves it as it was. -/
theorem Node.invoke_session_of_closed {n : Node} (hc : n.session.closed = true) (m : Method) :
    (n.invoke m).2.session = n.session := by
  by_cases hm : m = .close
  · simp [Node.invoke, ((MemorySession.invoke_of_closed hc m).1 hm)]
  · exact congrArg Node.session (Node.invoke_failed ((MemorySession.invoke_of_closed hc m).2 hm))

namespace World

/-- **A closed session stays closed** over any run. -/
theorem run_closed {w : World} {k : Nat} {n : Node} (hn : w[k]? = some n)
    (hc : n.session.closed = true) (ops : List Op) :
    ∃ n', (w.run ops)[k]? = some n' ∧ n'.session = n.session := by
  induction ops generalizing w n with
  | nil => exact ⟨n, hn, rfl⟩
  | cons op ops ih =>
    rcases step_getElem? hn op with h | ⟨m, -, h⟩
    · exact ih h hc
    · obtain ⟨n', h', hs⟩ := ih h (by rw [Node.invoke_session_of_closed hc]; exact hc)
      exact ⟨n', h', hs.trans (Node.invoke_session_of_closed hc m)⟩

/-- After a call is settled, each session is an old one or the one a `Fork`
returned. -/
theorem mem_settle {w : World} {n n' : Node} {r : Call Returned} (h : n' ∈ (settle w n r).1) :
    n' ∈ w ∨ ∃ c s, r = .ok (.session c) s ∧ n' = n.child c := by
  rcases r with ⟨_ | _ | c, s⟩ | ⟨e, s⟩
  · exact .inl h
  · exact .inl h
  · simp only [settle, List.mem_append, List.mem_singleton] at h
    exact h.imp_right fun h => ⟨c, s, rfl, h⟩
  · exact .inl h

/-- **Where the sessions of a world come from**: after a step, each one is an
old session, the called session after the call, the session a `Fork`
returned, or a new one. -/
theorem mem_step {w : World} {op : Op} {n' : Node} (h : n' ∈ (w.step op).1) :
    n' ∈ w ∨ (∃ k n m, w[k]? = some n ∧ op = .call k m ∧ n' = (n.invoke m).2) ∨
      (∃ k n m c s, w[k]? = some n ∧ op = .call k m ∧ (n.invoke m).1 = .ok (.session c) s ∧
        n' = n.child c) ∨
      (∃ name s, op = .new name ∧ newMemorySession name = .ok s ∧
        n' = ⟨s, [s.id], []⟩) := by
  cases op with
  | new name =>
    cases hs : newMemorySession name with
    | error e => simp only [step, hs] at h; exact .inl h
    | ok s =>
      simp only [step, hs, List.mem_append, List.mem_singleton] at h
      exact h.imp_right fun h => .inr (.inr ⟨name, s, rfl, hs, h⟩)
  | call k m =>
    cases hk : w[k]? with
    | none => simp only [step, hk] at h; exact .inl h
    | some n =>
      simp only [step, hk] at h
      rcases mem_settle h with h | ⟨c, s, hr, rfl⟩
      · exact (List.mem_or_eq_of_mem_set h).imp_right fun h => .inl ⟨k, n, m, hk, rfl, h⟩
      · exact .inr (.inr (.inl ⟨k, n, m, c, s, hk, rfl, hr, rfl⟩))

section Invariant

variable (P : Node → Prop)

/-- **Induction over runs**, done once: a property of sessions that every new
session has, that every call keeps, and that a forked session inherits, holds
of every session of every run. -/
theorem run_invariant
    (hnew : ∀ name s, newMemorySession name = .ok s → P ⟨s, [s.id], []⟩)
    (hcall : ∀ n m, P n → P (n.invoke m).2)
    (hfork : ∀ n m c s, P n → (n.invoke m).1 = .ok (.session c) s → P (n.child c))
    (w : World) (hw : ∀ n ∈ w, P n) (ops : List Op) : ∀ n ∈ w.run ops, P n := by
  induction ops generalizing w with
  | nil => exact hw
  | cons op ops ih =>
    refine ih _ fun n' h => ?_
    rcases mem_step h with h | ⟨k, n, m, hk, -, rfl⟩ | ⟨k, n, m, c, s, hk, -, hr, rfl⟩ |
        ⟨name, s, -, hs, rfl⟩
    · exact hw n' h
    · exact hcall n m (hw n (List.getElem?_mem hk))
    · exact hfork n m c s (hw n (List.getElem?_mem hk)) hr
    · exact hnew name s hs

end Invariant

/-- A call on a closed session: every method but `Close` returns an error,
and `Close` returns `nil` and changes nothing. -/
theorem step_of_closed {w : World} {k : Nat} {n : Node} (hn : w[k]? = some n)
    (hc : n.session.closed = true) :
    (∀ m, m ≠ .close → ∃ e, (w.step (.call k m)).2 = .error e) ∧
      w.step (.call k .close) = (w, .ok .unit) := by
  constructor
  · intro m hm
    have hf := (MemorySession.invoke_of_closed hc m).2 hm
    simp only [step, hn, Node.invoke]
    revert hf
    rcases n.session.invoke m with ⟨_ | _ | _, _⟩ | ⟨e, _⟩ <;> simp [settle]
  · have hr := (MemorySession.invoke_of_closed hc .close).1 rfl
    have hnode : (n.invoke .close).2 = n := by simp [Node.invoke, hr, Node.record]
    simp only [step, hn, hnode, set_self_of_getElem? hn]
    simp [Node.invoke, hr, settle]

/-- **Errors change nothing, and `Close` is final.** A step that returns an
error leaves every session as it was and adds none. Once `Close` has
returned on a session, every later call of another method on it returns an
error and every later `Close` returns `nil` and changes nothing, whatever
the run does in between. -/
theorem failed_step_unchanged_and_close_final :
    (∀ (w : World) (op : Op) (e : SessionError), (w.step op).2 = .error e → (w.step op).1 = w) ∧
    (∀ (w : World) (k : Nat) (n : Node), w[k]? = some n → ∀ ops : List Op,
      let w' := (w.step (.call k .close)).1.run ops
      (∀ m, m ≠ .close → ∃ e, (w'.step (.call k m)).2 = .error e) ∧
        w'.step (.call k .close) = (w', .ok .unit)) := by
  refine ⟨fun w op e h => step_failed h, fun w k n hn ops => ?_⟩
  have hclosed : ((n.invoke .close).2).session.closed = true := by
    simp only [Node.invoke, MemorySession.invoke, Call.state_map, MemorySession.close]
    split_ifs <;> simp_all
  obtain ⟨n', hn', hs⟩ := run_closed (step_call_getElem? hn .close) hclosed ops
  exact step_of_closed hn' (hs ▸ hclosed)

end World

end Session
