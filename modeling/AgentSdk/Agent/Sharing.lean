import AgentSdk.Agent.Run

/-!
# Agents in memory

`New` returns a pointer to a `basicAgent`, whose fields are the
configuration, the hooks, the map of tools and the mutex `toolMu` that
guards the map. `WithHook` copies the struct (`clone := *a`): the copy has
its own hooks and its own `toolMu`, but a Go map value is a reference, so
the copy holds the same map (`withHook_mapOf`). `BasicAgent` of `Run.lean`
is an agent as a call reads it through its pointer (`Memory.view`); this
module adds the memory the pointers share, and the calls in flight on it.

A call's use of `toolMu` follows from its code. `AddTool` of a nil tool or
of a blank name returns before `Lock`; past those checks it takes `Lock`,
and writes the map only when the name is not registered yet, a duplicate
being only read. The lookup of `executeTool` reads under `RLock`. An agent
and its copy guard their one map with different mutexes, so from any
point of any run at which an `AddTool` that writes and another call
through the copy have not started, and no call holds either mutex, the
two can be in their critical sections on the map at once
(`race_of_shared`), which Go's maps do not allow. Calls through agents
none of which shares its map with another are excluded as `toolMu` means
them to be, in every interleaving (`exclusive_of_unshared`).

`WithHook` copies `toolMu` too, without taking it, in whatever state it is.
A copy made while an `AddTool` holds the mutex starts with a writer that
is not there and never unlocks it: no call through the copy that takes
the mutex ever gets it (`withHook_during_addTool`).
-/

namespace Agent

open GoString

/-! ## Memory -/

/-- **A `basicAgent` in memory**: `cfg` and `hooks` held by value, and
`tools`, the address of its map. Its `toolMu` is a field of the struct,
so each agent has its own, known by the agent's address. -/
structure Cell where
  cfg : Config
  hooks : List Hook
  tools : Nat

/-- **Memory**: the agents at their addresses, and the maps of tools at
theirs. -/
structure Memory where
  agents : List Cell
  maps : List (List (String × Tool))

namespace Memory

/-- The address of the map the agent at `p` holds. -/
def mapOf (mem : Memory) (p : Nat) : Option Nat := mem.agents[p]?.map (·.tools)

/-- An agent as a call reads it: its fields, with the map they refer to. -/
def read (mem : Memory) (c : Cell) : BasicAgent := ⟨c.cfg, c.hooks, (mem.maps[c.tools]?).getD []⟩

/-- **The agent at `p`**, as the methods called through `p` read it. -/
def view (mem : Memory) (p : Nat) : Option BasicAgent := mem.agents[p]?.map mem.read

/-- **`New`**: a fresh map, and a fresh agent holding it, with the
agent's address. -/
def new (mem : Memory) (cfg : Config) : Except GoError (Memory × Nat) :=
  (Agent.new cfg).map fun a =>
    (⟨mem.agents ++ [⟨a.cfg, a.hooks, mem.maps.length⟩], mem.maps ++ [a.tools]⟩, mem.agents.length)

/-- **`WithHook`** on the agent at `p`: `p` itself for a nil hook, and
otherwise a copy of the struct with the hook added, at a fresh address,
holding the same map. -/
def withHook (mem : Memory) (p : Nat) (h : Option Hook) : Memory × Nat :=
  match h, mem.agents[p]? with
  | some h, some c =>
    (⟨mem.agents ++ [{ c with hooks := c.hooks ++ [h] }], mem.maps⟩, mem.agents.length)
  | _, _ => (mem, p)

/-- **`AddTool`** through the agent at `p`: the checks of
`BasicAgent.addTool` on the agent as `p` reads it, and the write into the
map `p` holds. -/
def addTool (mem : Memory) (p : Nat) (t : Option Tool) : Memory × Option GoError :=
  match mem.agents[p]? with
  | none => (mem, none)
  | some c =>
    match (mem.read c).addTool t with
    | .error err => (mem, some err)
    | .ok a => (⟨mem.agents, mem.maps.set c.tools a.tools⟩, none)

/-! ## What a copy shares -/

/-- **A copy shares the map.** `WithHook` puts the copy at a new address,
holding the map of the agent it copies. -/
theorem withHook_mapOf {mem : Memory} {p : Nat} {c : Cell} (hp : mem.agents[p]? = some c)
    (h : Hook) :
    let r := mem.withHook p (some h)
    r.2 ≠ p ∧ r.1.mapOf p = some c.tools ∧ r.1.mapOf r.2 = some c.tools := by
  have hlt := (List.getElem?_eq_some_iff.mp hp).1
  simp only [withHook, hp, mapOf]
  refine ⟨by omega, ?_, by simp⟩
  rw [List.getElem?_append_left hlt, hp]
  rfl

/-- `AddTool` moves no agent. -/
theorem agents_addTool (mem : Memory) (p : Nat) (t : Option Tool) :
    (mem.addTool p t).1.agents = mem.agents := by
  unfold addTool
  split
  · rfl
  · split <;> rfl

theorem mapOf_eq_of_agents {mem mem' : Memory} (h : mem.agents = mem'.agents) :
    mem.mapOf = mem'.mapOf := by
  funext p
  rw [mapOf, mapOf, h]

end Memory

/-! ## Calls in flight -/

/-- **A call that guards the map with `toolMu`**, through the agent at
`p`: an `AddTool` of `t`, or the lookup of `executeTool`. Which name the
lookup reads does not bear on the mutex, and is left out. -/
inductive Call where
  | addTool (p : Nat) (t : Option Tool)
  | lookup (p : Nat)

namespace Call

/-- The address of the agent the call goes through. -/
def agent : Call → Nat
  | .addTool p _ | .lookup p => p

/-- **How the call takes `toolMu`**: `Lock` (`some true`) for an `AddTool`
past its checks, `RLock` (`some false`) for a lookup, and not at all for an
`AddTool` of a nil tool or a blank name, which returns its error first. -/
def takes : Call → Option Bool
  | .addTool _ none => none
  | .addTool _ (some t) => if trimSpace t.Name = "" then none else some true
  | .lookup _ => some false

/-- **Whether the call writes the map** of `mem`: an `AddTool` whose
checks pass on the agent as it reads it. An `AddTool` of a name already
registered only reads the map, as a lookup does. -/
def writes (mem : Memory) : Call → Bool
  | .addTool p t =>
    match mem.view p with
    | some a => (a.addTool t).toBool
    | none => false
  | .lookup _ => false

/-- What memory holds once the call is through. -/
def perform (mem : Memory) : Call → Memory
  | .addTool p t => (mem.addTool p t).1
  | .lookup _ => mem

/-- **A call that writes the map takes `Lock`.** -/
theorem takes_of_writes {mem : Memory} {c : Call} (h : c.writes mem = true) :
    c.takes = some true := by
  cases c with
  | lookup p => cases h
  | addTool p t =>
    simp only [writes] at h
    split at h
    · cases t with
      | none => simp [BasicAgent.addTool, Except.toBool] at h
      | some t =>
        simp only [takes]
        split_ifs with hn
        · simp [BasicAgent.addTool, hn, Except.toBool] at h
        · rfl
    · cases h

theorem agents_perform (mem : Memory) : ∀ c : Call, (c.perform mem).agents = mem.agents
  | .addTool p t => Memory.agents_addTool mem p t
  | .lookup _ => rfl

end Call

/-- Where a call stands with respect to `toolMu`: before taking it,
holding it while it reads or writes the map, or done with it. -/
inductive Pc where
  | start | inside | done
  deriving DecidableEq

/-- **A call in flight**, and where it stands. -/
structure Thread where
  call : Call
  pc : Pc

/-- **A `sync.RWMutex`**: whether a writer holds it, and how many readers
do. -/
structure RWMutex where
  writer : Bool
  readers : Nat

/-- The calls in flight, the mutexes, each known by the address of the
agent whose `toolMu` it is, and the memory. -/
structure Sched where
  threads : List Thread
  locks : Nat → RWMutex
  mem : Memory

namespace Sched

/-- The calls, on the memory `mem`, before any has taken its mutex. -/
def init (mem : Memory) (calls : List Call) : Sched :=
  ⟨calls.map (⟨·, .start⟩), fun _ => ⟨false, 0⟩, mem⟩

/-- The call `i` at `pc`, with its agent's mutex set to `mu`. -/
def update (s : Sched) (i : Nat) (th : Thread) (mu : RWMutex) (pc : Pc) : Sched :=
  { s with
    threads := s.threads.set i { th with pc := pc }
    locks := fun a => if a = th.call.agent then mu else s.locks a }

/-- **One step of the call `i`**: an `AddTool` that fails its checks
returns; `Lock` when no one holds the mutex, `RLock` when no writer does;
`Unlock` after the write of an `AddTool`, and `RUnlock`. A call that cannot
take its mutex, or is done, does not step. `RLock` waits here only for a
writer that holds the mutex, not for one that waits for it, as Go's does;
that allows more interleavings, never fewer. -/
def step (s : Sched) (i : Nat) : Option Sched :=
  match s.threads[i]? with
  | none => none
  | some th =>
    let mu := s.locks th.call.agent
    match th.pc, th.call.takes with
    | .start, none => some (s.update i th mu .done)
    | .start, some true =>
      if !mu.writer && mu.readers == 0 then some (s.update i th ⟨true, 0⟩ .inside) else none
    | .start, some false =>
      if !mu.writer then some (s.update i th ⟨false, mu.readers + 1⟩ .inside) else none
    | .inside, some true =>
      some { s.update i th ⟨false, mu.readers⟩ .done with mem := th.call.perform s.mem }
    | .inside, some false => some (s.update i th ⟨mu.writer, mu.readers - 1⟩ .done)
    | .inside, none => none
    | .done, _ => none

/-- **A schedule**: the calls that step, in order; `none` when one
cannot. -/
def runs (s : Sched) : List Nat → Option Sched
  | [] => some s
  | i :: is => (s.step i).bind (·.runs is)

/-- **Two calls touch one map at once, one of them writing**: both hold
their mutexes, through agents that hold the same map, and one of them
stores a tool in it. -/
def Races (s : Sched) : Prop :=
  ∃ (i j : Nat) (ti tj : Thread) (m : Nat), i ≠ j ∧ s.threads[i]? = some ti ∧
    s.threads[j]? = some tj ∧ ti.pc = .inside ∧ tj.pc = .inside ∧
    s.mem.mapOf ti.call.agent = some m ∧ s.mem.mapOf tj.call.agent = some m ∧
    (ti.call.writes s.mem || tj.call.writes s.mem) = true

/-! ## What the mutexes record -/

/-- The calls holding the mutex of the agent at `a`, writing or not. -/
def holding (s : Sched) (a : Nat) (w : Bool) : Nat :=
  s.threads.countP fun t => t.call.agent = a ∧ t.call.takes = some w ∧ t.pc = .inside

/-- **What a run from `init mem calls` keeps**: the calls `calls`, in their
order; the agents of `mem`; a call holds a mutex only in the mode its code
takes; and for each mutex, its readers are the readers holding it, its
writer is the one writer holding it if any, and a writer holds it alone. -/
structure Inv (mem : Memory) (calls : List Call) (s : Sched) : Prop where
  calls : s.threads.map (·.call) = calls
  agents : s.mem.agents = mem.agents
  takes : ∀ t ∈ s.threads, t.pc = .inside → t.call.takes ≠ none
  readers : ∀ a, (s.locks a).readers = holding s a false
  writer : ∀ a, holding s a true = if (s.locks a).writer then 1 else 0
  alone : ∀ a, (s.locks a).writer = true → (s.locks a).readers = 0

section Invariant

variable {mem : Memory} {calls : List Call}

theorem init_inv (mem : Memory) (calls : List Call) : Inv mem calls (init mem calls) where
  calls := by simp [init, Function.comp_def]
  agents := rfl
  takes := by simp [init]
  readers _ := by simp [init, holding, Function.comp_def]
  writer _ := by simp [init, holding, Function.comp_def]
  alone _ h := nomatch h

theorem Inv.mapOf {s : Sched} (hs : Inv mem calls s) : s.mem.mapOf = mem.mapOf :=
  Memory.mapOf_eq_of_agents hs.agents

theorem ite_le_countP {α : Type} (p : α → Bool) {l : List α} {i : Nat} {x : α}
    (hx : l[i]? = some x) : (if p x then 1 else 0) ≤ l.countP p := by
  split
  · exact List.countP_pos_iff.mpr ⟨x, List.getElem?_mem hx, by assumption⟩
  · exact Nat.zero_le _

theorem two_le_countP {α : Type} (p : α → Bool) :
    ∀ {l : List α} {i j : Nat} {x y : α}, i ≠ j → l[i]? = some x → l[j]? = some y →
      p x = true → p y = true → 2 ≤ l.countP p
  | [], _, _, _, _, _, hx, _, _, _ => nomatch hx
  | a :: l, 0, 0, _, _, hij, _, _, _, _ => absurd rfl hij
  | a :: l, 0, j + 1, x, y, _, hx, hy, px, py => by
    rw [List.getElem?_cons_zero, Option.some.injEq] at hx
    rw [List.getElem?_cons_succ] at hy
    subst hx
    have := ite_le_countP p hy
    rw [List.countP_cons_of_pos _ _ px]
    simp only [py, ↓reduceIte] at this
    omega
  | a :: l, i + 1, 0, x, y, _, hx, hy, px, py => by
    rw [List.getElem?_cons_zero, Option.some.injEq] at hy
    rw [List.getElem?_cons_succ] at hx
    subst hy
    have := ite_le_countP p hx
    rw [List.countP_cons_of_pos _ _ py]
    simp only [px, ↓reduceIte] at this
    omega
  | a :: l, i + 1, j + 1, _, _, hij, hx, hy, px, py => by
    rw [List.getElem?_cons_succ] at hx hy
    have := two_le_countP p (fun h => hij (congrArg (· + 1) h)) hx hy px py
    rw [List.countP_cons]
    omega

/-- The count after the call `i` moves to `pc`: its old contribution out,
its new one in. -/
theorem holding_update {s : Sched} {i : Nat} {th : Thread} (hth : s.threads[i]? = some th)
    (mu : RWMutex) (pc : Pc) (a : Nat) (w : Bool) :
    holding (s.update i th mu pc) a w +
        (if th.call.agent = a ∧ th.call.takes = some w ∧ th.pc = .inside then 1 else 0) =
      holding s a w + (if th.call.agent = a ∧ th.call.takes = some w ∧ pc = .inside then 1 else 0) := by
  obtain ⟨hi, rfl⟩ := List.getElem?_eq_some_iff.mp hth
  have hle := ite_le_countP
    (fun t : Thread => t.call.agent = a ∧ t.call.takes = some w ∧ t.pc = .inside) hth
  simp only [holding, update, List.countP_set _ _ _ _ hi, decide_eq_true_eq] at hle ⊢
  split <;> split <;> simp_all

/-- **An update that keeps the accounting keeps the record**: the call `i`
moves to `pc`, and its agent's mutex to `mu`, with the readers and the
writer changed by what the call's move adds and removes. -/
theorem Inv.move {s : Sched} (hs : Inv mem calls s) {i : Nat} {th : Thread}
    (hth : s.threads[i]? = some th) {mu : RWMutex} {pc : Pc}
    (hr : mu.readers + (if th.call.takes = some false ∧ th.pc = .inside then 1 else 0) =
      (s.locks th.call.agent).readers + (if th.call.takes = some false ∧ pc = .inside then 1 else 0))
    (hw : (if mu.writer then 1 else 0) + (if th.call.takes = some true ∧ th.pc = .inside then 1 else 0) =
      (if (s.locks th.call.agent).writer then 1 else 0) +
        (if th.call.takes = some true ∧ pc = .inside then 1 else 0))
    (ha : mu.writer = true → mu.readers = 0) (ht : pc = .inside → th.call.takes ≠ none) :
    Inv mem calls (s.update i th mu pc) where
  calls := by
    rw [← hs.calls]
    apply List.ext_getElem?
    intro j
    simp only [Sched.update, List.getElem?_map, List.getElem?_set]
    by_cases hij : i = j
    · subst hij
      simp [hth, (List.getElem?_eq_some_iff.mp hth).1]
    · rw [if_neg hij]
  agents := hs.agents
  takes t ht' hin := by
    rcases List.mem_or_eq_of_mem_set ht' with ht' | rfl
    · exact hs.takes t ht' hin
    · exact ht hin
  readers a := by
    have hu := holding_update hth mu pc a false
    have hold := hs.readers a
    by_cases ha : th.call.agent = a
    · subst ha
      simp only [Sched.update, ↓reduceIte, true_and] at hu hold ⊢
      omega
    · simp only [Sched.update, ha, Ne.symm ha, false_and, ↓reduceIte, add_zero] at hu ⊢
      omega
  writer a := by
    have hu := holding_update hth mu pc a true
    have hold := hs.writer a
    by_cases ha : th.call.agent = a
    · subst ha
      simp only [Sched.update, ↓reduceIte, true_and] at hu hold ⊢
      omega
    · simp only [Sched.update, ha, Ne.symm ha, false_and, ↓reduceIte, add_zero] at hu ⊢
      omega
  alone a := by
    unfold Sched.update
    dsimp only
    split
    · exact ha
    · exact hs.alone a

/-- A write that moves no agent keeps the record. -/
theorem Inv.withMem {s : Sched} (hs : Inv mem calls s) {m : Memory}
    (hm : m.agents = mem.agents) : Inv mem calls { s with mem := m } :=
  ⟨hs.calls, hm, hs.takes, hs.readers, hs.writer, hs.alone⟩

/-- A call holding a mutex counts among those holding it. -/
theorem holding_pos {s : Sched} {k : Nat} {tk : Thread} (hk : s.threads[k]? = some tk)
    (hpk : tk.pc = .inside) {w : Bool} (hw : tk.call.takes = some w) :
    1 ≤ holding s tk.call.agent w := by
  have := ite_le_countP (fun t : Thread => t.call.agent = tk.call.agent ∧
    t.call.takes = some w ∧ t.pc = .inside) hk
  simp only [hpk, hw, and_self, decide_True, ↓reduceIte] at this
  exact this

/-- A call holding a mutex as a writer is its writer. -/
theorem Inv.writer_of_inside {s : Sched} (hs : Inv mem calls s) {k : Nat} {tk : Thread}
    (hk : s.threads[k]? = some tk) (hpk : tk.pc = .inside) (hwk : tk.call.takes = some true) :
    (s.locks tk.call.agent).writer = true := by
  have h1 := holding_pos hk hpk hwk
  have hw := hs.writer tk.call.agent
  by_contra hf
  simp only [hf, Bool.false_eq_true, ↓reduceIte] at hw
  omega

/-- **Each step keeps what the mutexes record.** A writer takes a mutex
no one holds, a reader one no writer holds, each gives back what it took,
and the write of an `AddTool` moves no agent. -/
theorem Inv.step {s s' : Sched} (hs : Inv mem calls s) {i : Nat} (h : s.step i = some s') :
    Inv mem calls s' := by
  unfold Sched.step at h
  split at h
  · cases h
  rename_i th hth
  dsimp only at h
  split at h
  · -- an `AddTool` that fails its checks
    rename_i hpc ht
    cases h
    exact hs.move hth (by simp [hpc]) (by simp [hpc]) (hs.alone _) nofun
  · -- `Lock` of a free mutex
    rename_i hpc ht
    simp only [Bool.and_eq_true, Bool.not_eq_true', beq_iff_eq] at h
    split at h
    · rename_i hfree
      cases h
      exact hs.move hth (by simp [ht, hpc, hfree.2]) (by simp [ht, hpc, hfree.1]) (fun _ => rfl)
        (fun _ => by simp [ht])
    · cases h
  · -- `RLock` of a mutex no writer holds
    rename_i hpc ht
    split at h
    · rename_i hfree
      cases h
      simp only [Bool.not_eq_true'] at hfree
      exact hs.move hth (by simp [ht, hpc]) (by simp [ht, hpc, hfree]) nofun
        (fun _ => by simp [ht])
    · cases h
  · -- the write, then `Unlock`
    rename_i hpc ht
    cases h
    exact Inv.withMem (s := s.update i th ⟨false, (s.locks th.call.agent).readers⟩ .done)
      (hs.move hth (by simp [ht, hpc]) (by simp [ht, hpc, hs.writer_of_inside hth hpc ht])
        nofun nofun)
      ((Call.agents_perform _ _).trans hs.agents)
  · -- `RUnlock`
    rename_i hpc ht
    cases h
    have hpos := holding_pos hth hpc ht
    rw [← hs.readers] at hpos
    have hwf : (s.locks th.call.agent).writer = false := by
      by_contra hf
      have := hs.alone th.call.agent (by simpa using hf)
      omega
    exact hs.move hth (by simp [ht, hpc]; omega) (by simp [ht, hpc, hwf]) (by simp [hwf]) nofun
  · cases h
  · cases h

/-- **Every interleaving keeps what the mutexes record.** -/
theorem Inv.runs : ∀ {s s' : Sched} (sched : List Nat), Inv mem calls s →
    s.runs sched = some s' → Inv mem calls s'
  | _, _, [], hs, h => Option.some.inj h ▸ hs
  | s, _, i :: is, hs, h => by
    unfold Sched.runs at h
    cases hstep : s.step i with
    | none => rw [hstep] at h; cases h
    | some s₁ =>
      rw [hstep] at h
      exact Inv.runs is (hs.step hstep) h

/-- **A writer holds its mutex alone.** In a state the mutexes record,
a call holding a mutex as a writer is the only call holding it. -/
theorem Inv.writer_alone {s : Sched} (hs : Inv mem calls s) {k l : Nat} {tk tl : Thread}
    (hk : s.threads[k]? = some tk) (hl : s.threads[l]? = some tl) (hpk : tk.pc = .inside)
    (hpl : tl.pc = .inside) (hag : tl.call.agent = tk.call.agent)
    (hwk : tk.call.takes = some true) : k = l := by
  by_contra hkl
  have hwt := hs.writer_of_inside hk hpk hwk
  obtain ⟨w, hwl⟩ := Option.ne_none_iff_exists'.mp (hs.takes tl (List.getElem?_mem hl) hpl)
  have h2 := holding_pos hl hpl hwl
  rw [hag] at h2
  cases w
  · rw [← hs.readers, hs.alone _ hwt] at h2
    exact absurd h2 (by decide)
  · have hw := hs.writer tk.call.agent
    have h3 := two_le_countP (fun t : Thread => t.call.agent = tk.call.agent ∧
      t.call.takes = some true ∧ t.pc = .inside) hkl hk hl (by simp [hwk, hpk])
      (by simp [hag, hwl, hpl])
    simp only [hwt, ↓reduceIte] at hw
    unfold holding at hw
    omega

/-- **A mutex no call holds is free.** -/
theorem Inv.free {s : Sched} (hs : Inv mem calls s) {a : Nat}
    (ha : ∀ t ∈ s.threads, t.pc = .inside → t.call.agent ≠ a) : s.locks a = ⟨false, 0⟩ := by
  have h0 : ∀ w, holding s a w = 0 := fun w =>
    List.countP_eq_zero.mpr fun t ht hp => by
      simp only [decide_eq_true_eq] at hp
      exact ha t ht hp.2.2 hp.1
  have hr := hs.readers a
  have hw := hs.writer a
  rw [h0] at hr hw
  cases hl : s.locks a with
  | mk writer readers =>
    rw [hl] at hr hw
    cases writer
    · exact congrArg (RWMutex.mk false) hr
    · simp at hw

end Invariant

/-! ## A race through a copy -/

/-- A call that has not started takes a free mutex in the mode its code
takes. -/
theorem step_take {s : Sched} {i : Nat} {th : Thread} (hth : s.threads[i]? = some th)
    (hpc : th.pc = .start) {w : Bool} (ht : th.call.takes = some w)
    (hfree : s.locks th.call.agent = ⟨false, 0⟩) :
    s.step i = some (s.update i th (if w then ⟨true, 0⟩ else ⟨false, 1⟩) .inside) := by
  unfold step
  cases w <;> simp [hth, hpc, ht, hfree]

/-- **Two agents that share a map race on it.** From any state a run
reaches, for an `AddTool` that writes the map and any other call that
takes `toolMu`, through two agents at different addresses holding that
map, such as an agent and its copy by `WithHook`: when neither call has
started and no call holds either mutex, stepping the two puts both on the
map at once. -/
theorem race_of_shared {mem : Memory} {calls : List Call} {sched : List Nat} {s : Sched}
    (hs : (init mem calls).runs sched = some s) {i j : Nat} {ci cj : Call} (hij : i ≠ j)
    (hi : s.threads[i]? = some ⟨ci, .start⟩) (hj : s.threads[j]? = some ⟨cj, .start⟩)
    (hpq : ci.agent ≠ cj.agent) {m : Nat} (hmi : mem.mapOf ci.agent = some m)
    (hmj : mem.mapOf cj.agent = some m) (hwi : ci.writes s.mem = true) (htj : cj.takes ≠ none)
    (hfree : ∀ t ∈ s.threads, t.pc = .inside → t.call.agent ≠ ci.agent ∧ t.call.agent ≠ cj.agent) :
    ∃ s', s.runs [i, j] = some s' ∧ s'.Races := by
  have hinv := Inv.runs sched (init_inv mem calls) hs
  obtain ⟨w, hw⟩ := Option.ne_none_iff_exists'.mp htj
  let s₁ := s.update i ⟨ci, .start⟩ ⟨true, 0⟩ .inside
  have h₁ : s.step i = some s₁ :=
    step_take hi rfl (Call.takes_of_writes hwi) (hinv.free fun t ht hin => (hfree t ht hin).1)
  have hlt := (List.getElem?_eq_some_iff.mp hi).1
  have hj₁ : s₁.threads[j]? = some ⟨cj, .start⟩ := by
    simp only [s₁, update, List.getElem?_set_ne hij, hj]
  have hfree₁ : s₁.locks cj.agent = ⟨false, 0⟩ := by
    simp only [s₁, update, Ne.symm hpq, ↓reduceIte]
    exact hinv.free fun t ht hin => (hfree t ht hin).2
  have hlt₁ := (List.getElem?_eq_some_iff.mp hj₁).1
  refine ⟨_, by rw [runs, h₁, Option.some_bind, runs, step_take hj₁ rfl hw hfree₁]; rfl,
    i, j, ⟨ci, .inside⟩, ⟨cj, .inside⟩, m, hij, ?_, ?_, rfl, rfl, ?_, ?_, ?_⟩
  · simp [s₁, update, List.getElem?_set_ne (Ne.symm hij), List.getElem?_set_self hlt]
  · simp [update, List.getElem?_set_self hlt₁]
  · simpa only [update, s₁, hinv.mapOf] using hmi
  · simpa only [update, s₁, hinv.mapOf] using hmj
  · simp only [s₁, update, hwi, Bool.true_or]

/-- An agent at `0`, its copy by `WithHook`, an `AddTool` through the copy
and a lookup through the agent, before any has run: the two are on the
map at once. -/
theorem race_of_shared_withHook :
    let cfg : Config := ⟨"agent", "", RunContext.zero, 0⟩
    let hook : Hook := ⟨fun _ => none, fun r => (none, r), fun _ _ => none, fun _ _ => none⟩
    let echo : Tool := ⟨"echo", fun _ => (.string "ok", none)⟩
    let r := (Memory.mk [⟨cfg, [], 0⟩] [[]]).withHook 0 (some hook)
    ∃ s', (init r.1 [.lookup 0, .addTool r.2 (some echo)]).runs [1, 0] = some s' ∧ s'.Races := by
  intro cfg hook echo r
  obtain ⟨hne, h0, h1⟩ := Memory.withHook_mapOf (show (Memory.mk [⟨cfg, [], 0⟩] [[]]).agents[0]? =
    some ⟨cfg, [], 0⟩ from rfl) hook
  have hs : (init r.1 [.lookup 0, .addTool r.2 (some echo)]).runs [] =
      some (init r.1 [.lookup 0, .addTool r.2 (some echo)]) := rfl
  exact race_of_shared hs (i := 1) (j := 0) (by decide) rfl rfl hne h1 h0 (by decide) (by decide)
    (by simp [init])

/-! ## Exclusion within one agent -/

/-- **`toolMu` excludes what it guards, within one agent.** For any calls
in flight, through agents none of which holds the map of another, no
interleaving has two of them on one map at once with one writing. -/
theorem exclusive_of_unshared {mem : Memory} {calls : List Call}
    (hsep : ∀ c ∈ calls, ∀ d ∈ calls, ∀ m, mem.mapOf c.agent = some m →
      mem.mapOf d.agent = some m → c.agent = d.agent)
    (sched : List Nat) {s : Sched} (hs : (init mem calls).runs sched = some s) : ¬s.Races := by
  have hinv := Inv.runs sched (init_inv mem calls) hs
  rintro ⟨i, j, ti, tj, m, hij, hi, hj, hpi, hpj, hmi, hmj, hw⟩
  have hmem : ∀ {k : Nat} {t : Thread}, s.threads[k]? = some t → t.call ∈ calls :=
    fun hk => hinv.calls ▸ List.mem_map_of_mem _ (List.getElem?_mem hk)
  rw [hinv.mapOf] at hmi hmj
  have hag : ti.call.agent = tj.call.agent := hsep _ (hmem hi) _ (hmem hj) m hmi hmj
  cases hwi : ti.call.writes s.mem
  · have hwj : tj.call.writes s.mem = true := by simpa [hwi] using hw
    exact hij (hinv.writer_alone hj hi hpj hpi hag (Call.takes_of_writes hwj)).symm
  · exact hij (hinv.writer_alone hi hj hpi hpj hag.symm (Call.takes_of_writes hwi))

/-- An `AddTool` and a lookup through one agent, the writer first: the
schedule runs, and the two are never on the map at once. -/
theorem exclusive_of_unshared_one :
    let mem : Memory := ⟨[⟨⟨"agent", "", RunContext.zero, 0⟩, [], 0⟩], [[]]⟩
    let calls : List Call := [.addTool 0 (some ⟨"echo", fun _ => (.string "ok", none)⟩), .lookup 0]
    (∀ c ∈ calls, ∀ d ∈ calls, ∀ m, mem.mapOf c.agent = some m → mem.mapOf d.agent = some m →
      c.agent = d.agent) ∧
      ∃ s, (init mem calls).runs [0, 0, 1, 1] = some s ∧ ¬s.Races := by
  intro mem calls
  have hsep : ∀ c ∈ calls, ∀ d ∈ calls, ∀ m, mem.mapOf c.agent = some m →
      mem.mapOf d.agent = some m → c.agent = d.agent := by
    intro c hc d hd _ _ _
    simp only [calls, List.mem_cons, List.mem_singleton, List.not_mem_nil, or_false] at hc hd
    rcases hc with rfl | rfl <;> rcases hd with rfl | rfl <;> rfl
  obtain ⟨s, hs⟩ : ∃ s, (init mem calls).runs [0, 0, 1, 1] = some s := ⟨_, rfl⟩
  exact ⟨hsep, s, hs, exclusive_of_unshared hsep [0, 0, 1, 1] hs⟩

/-! ## A copy of a held mutex -/

/-- **`clone := *a` on the mutexes**: the copy at `q` gets `toolMu` in the
state the one at `p` has when `WithHook` runs. -/
def copyLock (s : Sched) (p q : Nat) : Sched :=
  { s with locks := fun a => if a = q then s.locks p else s.locks a }

/-- The mutex at `q` is held by a writer no call stands for: every call
through `q` that takes the mutex is still before it. -/
def Phantom (q : Nat) (s : Sched) : Prop :=
  (s.locks q).writer = true ∧ ∀ t ∈ s.threads, t.call.agent = q → t.call.takes ≠ none → t.pc = .start

/-- An update that leaves the mutex at `q` as it is, and every call through
`q` that takes it before it, keeps the phantom writer. -/
theorem Phantom.update {q : Nat} {s : Sched} (hq : Phantom q s) {i : Nat} {th : Thread}
    {mu : RWMutex} {pc : Pc} (hmu : th.call.agent = q → mu = s.locks q)
    (hpc : th.call.agent = q → th.call.takes ≠ none → pc = .start) :
    Phantom q (s.update i th mu pc) := by
  refine ⟨?_, fun t ht hat htk => ?_⟩
  · by_cases hag : th.call.agent = q
    · simpa [Sched.update, hag, hmu hag] using hq.1
    · simpa [Sched.update, Ne.symm hag] using hq.1
  · rcases List.mem_or_eq_of_mem_set ht with ht | rfl
    · exact hq.2 t ht hat htk
    · exact hpc hat htk

/-- No step takes a mutex a phantom writer holds, and none changes it. -/
theorem step_of_phantom {s s' : Sched} {q : Nat} (hq : Phantom q s) {i : Nat}
    (h : s.step i = some s') : Phantom q s' := by
  unfold Sched.step at h
  split at h
  · cases h
  rename_i th hth
  have hin := hq.2 th (List.getElem?_mem hth)
  -- a call through `q` that takes the mutex has not taken it
  have hother : th.pc = .inside → th.call.takes ≠ none → ∀ {mu pc}, Phantom q (s.update i th mu pc) :=
    fun hpc ht => hq.update (fun hag => absurd (hin hag ht) (by simp [hpc]))
      (fun hag => absurd (hin hag ht) (by simp [hpc]))
  dsimp only at h
  split at h
  · rename_i hpc ht
    cases h
    exact hq.update (fun hag => hag ▸ rfl) (fun _ hn => absurd ht hn)
  · rename_i hpc ht
    split at h
    · rename_i hfree
      cases h
      refine hq.update (fun hag => ?_) (fun hag => ?_) <;> simp [hag, hq.1] at hfree
    · cases h
  · rename_i hpc ht
    split at h
    · rename_i hfree
      cases h
      refine hq.update (fun hag => ?_) (fun hag => ?_) <;> simp [hag, hq.1] at hfree
    · cases h
  · rename_i hpc ht
    cases h
    exact (hother hpc (by simp [ht]) :)
  · rename_i hpc ht
    cases h
    exact hother hpc (by simp [ht])
  · cases h
  · cases h

/-- A phantom writer holds its mutex whatever runs. -/
theorem runs_of_phantom {q : Nat} :
    ∀ {s s' : Sched} (sched : List Nat), Phantom q s → s.runs sched = some s' → Phantom q s'
  | _, _, [], hq, h => Option.some.inj h ▸ hq
  | s, _, i :: is, hq, h => by
    unfold Sched.runs at h
    cases hstep : s.step i with
    | none => rw [hstep] at h; cases h
    | some s₁ =>
      rw [hstep] at h
      exact runs_of_phantom is (step_of_phantom hq hstep) h

/-- **`WithHook` during an `AddTool` leaves the copy locked for ever.** If
`WithHook` copies an agent while a call holds its `toolMu` as a writer,
the copy's mutex starts held by a writer that is not there: in every
interleaving that follows, every call through the copy that takes the
mutex, an `AddTool` past its checks or the lookup of `executeTool`, stays
before its lock. -/
theorem withHook_during_addTool {mem : Memory} {calls : List Call} {s : Sched}
    (hs : Inv mem calls s) {k : Nat} {tk : Thread} (hk : s.threads[k]? = some tk)
    (hpk : tk.pc = .inside) (hwk : tk.call.takes = some true) {q : Nat}
    (hstart : ∀ t ∈ s.threads, t.call.agent = q → t.call.takes ≠ none → t.pc = .start)
    (sched : List Nat) {s' : Sched} (h : (s.copyLock tk.call.agent q).runs sched = some s') :
    ∀ t ∈ s'.threads, t.call.agent = q → t.call.takes ≠ none → t.pc = .start :=
  (runs_of_phantom (s := s.copyLock tk.call.agent q) sched
    ⟨by simp [copyLock, hs.writer_of_inside hk hpk hwk], hstart⟩ h).2

/-- An `AddTool` through the agent at `0` holds its mutex when `WithHook`
copies the agent to `1`; the `AddTool` finishes, and one through the copy
has not started. -/
theorem withHook_during_addTool_stuck :
    let echo : Tool := ⟨"echo", fun _ => (.string "ok", none)⟩
    let mem : Memory := ⟨[⟨⟨"agent", "", RunContext.zero, 0⟩, [], 0⟩,
      ⟨⟨"agent", "", RunContext.zero, 0⟩, [], 0⟩], [[]]⟩
    ∃ s s', (init mem [.addTool 0 (some echo), .addTool 1 (some echo)]).runs [0] = some s ∧
      (s.copyLock 0 1).runs [0] = some s' ∧
      ∀ t ∈ s'.threads, t.call.agent = 1 → t.call.takes ≠ none → t.pc = .start := by
  intro echo mem
  have hn : trimSpace echo.Name ≠ "" := by decide
  have ht : ∀ p, (Call.addTool p (some echo)).takes = some true := fun _ => by
    simp only [Call.takes, hn, ↓reduceIte]
  obtain ⟨s, hs, hthreads⟩ : ∃ s,
      (init mem [.addTool 0 (some echo), .addTool 1 (some echo)]).runs [0] = some s ∧
      s.threads = [⟨.addTool 0 (some echo), .inside⟩, ⟨.addTool 1 (some echo), .start⟩] := by
    simp [runs, step, init, update, ht, Call.agent]
  have hk : s.threads[0]? = some ⟨.addTool 0 (some echo), .inside⟩ := by rw [hthreads]; rfl
  have hstart : ∀ t ∈ s.threads, t.call.agent = 1 → t.call.takes ≠ none → t.pc = .start := by
    rw [hthreads]
    simp [Call.agent]
  obtain ⟨s', hs'⟩ : ∃ s', (s.copyLock 0 1).runs [0] = some s' := by
    simp [runs, step, copyLock, hk, ht, Call.agent]
  exact ⟨s, s', hs, hs', withHook_during_addTool (Inv.runs [0] (init_inv _ _) hs) hk rfl (ht 0)
    hstart [0] hs'⟩

end Sched

end Agent
