import AgentSdk.Tool.TodoWrite

/-!
# Concurrent `Execute` calls on one TodoWrite tool

An `Execute` call touches the tool only in `store`, which runs as one step
under the mutex; parsing and the context checks run unlocked on the call's
own arguments. A run of concurrent calls is therefore a schedule of steps,
each made by one call: the call's first step runs the unlocked part, which
ends it with an error or leaves it holding its items, and its second step is
its `store`. What a call does after `store` reads only the copy `store`
returned it, so its result is read off that copy (`executeResult`).

Beside the tool and the calls, the state keeps the calls that stored, in
the order their stores ran (`log`). No step reads it; the invariant of a run
(`Executions.Inv`) is stated against it. The tool holds the list of the
last store and one revision per store; every call is where its own
arguments take it, whatever the interleaving; and the `j`-th store hands
its call the revision `r0 + j + 1`.

## Revisions wrap

`revision` is a `uint64`, so `r0 + j + 1` is taken modulo `2^64`. The
revisions the calls receive are pairwise distinct while at most `2^64`
calls have stored (`execute_interleaving`); the call after that repeats
the first one's revision (`execute_revision_repeats`).
-/

namespace ToolBuiltin

/-- The arguments of one `Execute` call: its context and its parameters. -/
abbrev ExecuteArgs := Option (Option GoError) × Option ValueMap

/-- **Where one `Execute` call is.** -/
inductive Phase where
  /-- Not started, with its arguments. -/
  | start (ctx : Option (Option GoError)) (params : Option ValueMap)
  /-- Past the unlocked checks, holding its items. -/
  | parsed (items : List TodoItem)
  /-- Returned an error. -/
  | failed (err : GoError)
  /-- Past `store`, holding the copy and the revision `store` returned. -/
  | stored (snapshot : List TodoItem) (revision : UInt64)

/-- The phase the unlocked part of `Execute` leaves a call in. -/
def Phase.ofPrepared : Except GoError (List TodoItem) → Phase
  | .error err => .failed err
  | .ok items => .parsed items

/-- **The tool and the calls running on it**, with the calls that stored,
in the order their stores ran, and the items each stored. -/
structure Executions where
  tool : TodoWriteTool
  calls : List Phase
  log : List (Nat × List TodoItem)

/-- The calls `args`, none of them started, on the tool `t`. -/
def Executions.init (t : TodoWriteTool) (args : List ExecuteArgs) : Executions :=
  ⟨t, args.map fun a => .start a.1 a.2, []⟩

section Runs

variable (coerceString : Value → Except GoError String)

/-- **One step of call `i`**: its unlocked part, or its `store`. A call
that has returned, or an index with no call, does nothing. -/
def Executions.step (s : Executions) (i : Nat) : Executions :=
  match s.calls[i]? with
  | some (.start ctx params) =>
    { s with calls := s.calls.set i (.ofPrepared (prepare coerceString ctx params)) }
  | some (.parsed items) =>
    ⟨(s.tool.store items).1, s.calls.set i (.stored (s.tool.store items).2.1 (s.tool.store items).2.2),
      s.log ++ [(i, items)]⟩
  | _ => s

/-- The state after the steps of a schedule. -/
def Executions.run (s : Executions) (sched : List Nat) : Executions :=
  sched.foldl (Executions.step coerceString) s

/-- **What a phase says of the call's own arguments**: a call that has
moved on did so by what `prepare` makes of its arguments. -/
def Phase.FromArgs (args : ExecuteArgs) : Phase → Prop
  | .start ctx params => (ctx, params) = args
  | .parsed items => prepare coerceString args.1 args.2 = .ok items
  | .failed err => prepare coerceString args.1 args.2 = .error err
  | .stored snapshot _ => prepare coerceString args.1 args.2 = .ok snapshot

/-- **The invariant of a run** of the calls `args` from the tool `t0`. -/
structure Executions.Inv (t0 : TodoWriteTool) (args : List ExecuteArgs) (s : Executions) :
    Prop where
  /-- The tool holds the list the last store wrote, or its first list. -/
  todos : s.tool.todos = (s.log.getLast?.map (·.2)).getD t0.todos
  /-- One revision per store, modulo `2^64`. -/
  revision : s.tool.revision.toNat = (t0.revision.toNat + s.log.length) % 2 ^ 64
  length : s.calls.length = args.length
  /-- Every call is where its own arguments take it. -/
  fromArgs : ∀ (i : Nat) (ph : Phase) (a : ExecuteArgs), s.calls[i]? = some ph → args[i]? = some a →
    ph.FromArgs coerceString a
  /-- A call that stored is in the log, and got the revision of its place. -/
  stored : ∀ (i : Nat) (snap : List TodoItem) (rev : UInt64), s.calls[i]? = some (.stored snap rev) →
    ∃ j, s.log[j]? = some (i, snap) ∧ rev.toNat = (t0.revision.toNat + (j + 1)) % 2 ^ 64
  /-- A call in the log has stored, with the revision of its place. -/
  logged : ∀ (j i : Nat) (snap : List TodoItem), s.log[j]? = some (i, snap) →
    ∃ rev, s.calls[i]? = some (.stored snap rev) ∧
      rev.toNat = (t0.revision.toNat + (j + 1)) % 2 ^ 64
  /-- A call stores at most once. -/
  nodup : (s.log.map (·.1)).Nodup

/-! ## One step -/

/-- **What a step can do**: nothing, the unlocked part of a call that had
not started, or the `store` of a call holding its items. -/
theorem step_cases (s : Executions) (i : Nat) :
    s.step coerceString i = s ∨
      (∃ ctx params, s.calls[i]? = some (.start ctx params) ∧
        s.step coerceString i =
          { s with calls := s.calls.set i (.ofPrepared (prepare coerceString ctx params)) }) ∨
      (∃ items, s.calls[i]? = some (.parsed items) ∧
        s.step coerceString i = ⟨⟨items, s.tool.revision + 1⟩,
          s.calls.set i (.stored items (s.tool.revision + 1)), s.log ++ [(i, items)]⟩) := by
  unfold Executions.step
  split
  · next ctx params h => exact .inr (.inl ⟨ctx, params, h, rfl⟩)
  · next items h => exact .inr (.inr ⟨items, h, rfl⟩)
  · exact .inl rfl

theorem lt_length_of_getElem? {α : Type} {l : List α} {i : Nat} {a : α} (h : l[i]? = some a) :
    i < l.length :=
  (List.getElem?_eq_some_iff.mp h).1

/-- A slot of a list after `set` holds the value set there, or what it held. -/
theorem getElem?_set_eq_some {α : Type} {l : List α} {i k : Nat} {x y : α}
    (h : (l.set i x)[k]? = some y) : (k = i ∧ x = y) ∨ (k ≠ i ∧ l[k]? = some y) := by
  rw [List.getElem?_set] at h
  split_ifs at h with hk
  · exact .inl ⟨hk.symm, Option.some.inj h⟩
  · exact .inr ⟨Ne.symm hk, h⟩

/-- A slot of a list with one entry appended is an old slot or the new one. -/
theorem getElem?_concat_eq_some {α : Type} {l : List α} {x y : α} {j : Nat}
    (h : (l ++ [x])[j]? = some y) : l[j]? = some y ∨ (j = l.length ∧ x = y) := by
  rw [List.getElem?_append] at h
  split_ifs at h with hj
  · exact .inl h
  · obtain ⟨hlt, hx⟩ := List.getElem?_eq_some_iff.mp h
    simp only [List.length_singleton, List.getElem_singleton] at hlt hx
    exact .inr ⟨by omega, hx⟩

/-- The unlocked part never stores. -/
theorem Phase.ofPrepared_ne_stored (r : Except GoError (List TodoItem)) (snap : List TodoItem)
    (rev : UInt64) : Phase.ofPrepared r ≠ .stored snap rev := by
  cases r <;> nofun

/-- The unlocked part moves a call by what `prepare` makes of its arguments. -/
theorem Phase.FromArgs.ofPrepared {a : ExecuteArgs} {ctx : Option (Option GoError)}
    {params : Option ValueMap} (h : (Phase.start ctx params).FromArgs coerceString a) :
    (Phase.ofPrepared (prepare coerceString ctx params)).FromArgs coerceString a := by
  cases h
  cases hp : prepare coerceString ctx params <;> exact hp

variable {coerceString} {t0 : TodoWriteTool} {args : List ExecuteArgs} {s : Executions}

/-- A call that has not stored is not in the log. -/
theorem Executions.Inv.not_mem_log (h : s.Inv coerceString t0 args) {i : Nat} {ph : Phase}
    (hi : s.calls[i]? = some ph) (hph : ∀ snap rev, ph ≠ .stored snap rev) :
    i ∉ s.log.map (·.1) := by
  intro hmem
  obtain ⟨⟨i', snap⟩, hlog, rfl⟩ := List.mem_map.mp hmem
  obtain ⟨j, hj⟩ := List.getElem?_of_mem hlog
  obtain ⟨rev, hrev, -⟩ := h.logged j _ snap hj
  exact hph snap rev (Option.some.inj (hi.symm.trans hrev))

/-- The unlocked part of a call keeps the invariant: it touches neither the
tool nor the log, and moves its call to `failed` or `parsed`. -/
theorem Executions.Inv.unlocked (h : s.Inv coerceString t0 args) {i : Nat}
    {ctx : Option (Option GoError)} {params : Option ValueMap}
    (hi : s.calls[i]? = some (.start ctx params)) :
    ({ s with calls := s.calls.set i (.ofPrepared (prepare coerceString ctx params)) } :
      Executions).Inv coerceString t0 args := by
  have hnotin := h.not_mem_log hi fun _ _ => nofun
  refine ⟨h.todos, h.revision, by simp [h.length], ?_, ?_, ?_, h.nodup⟩
  · intro i' ph a hph ha
    rcases getElem?_set_eq_some hph with ⟨rfl, rfl⟩ | ⟨-, hph⟩
    · exact (h.fromArgs i' _ a hi ha).ofPrepared
    · exact h.fromArgs i' ph a hph ha
  · intro i' snap rev hph
    rcases getElem?_set_eq_some hph with ⟨-, hst⟩ | ⟨-, hph⟩
    · exact absurd hst (Phase.ofPrepared_ne_stored _ snap rev)
    · exact h.stored i' snap rev hph
  · intro j i' snap hj
    obtain ⟨rev, hrev, hval⟩ := h.logged j i' snap hj
    refine ⟨rev, ?_, hval⟩
    rwa [List.getElem?_set_ne]
    rintro rfl
    exact hnotin (List.mem_map.mpr ⟨_, List.getElem?_mem hj, rfl⟩)

/-- The `store` of a call keeps the invariant: the call joins the log with
the next revision, and the tool holds its items. -/
theorem Executions.Inv.store (h : s.Inv coerceString t0 args) {i : Nat} {items : List TodoItem}
    (hi : s.calls[i]? = some (.parsed items)) :
    (⟨⟨items, s.tool.revision + 1⟩, s.calls.set i (.stored items (s.tool.revision + 1)),
      s.log ++ [(i, items)]⟩ : Executions).Inv coerceString t0 args := by
  have hnotin := h.not_mem_log hi fun _ _ => nofun
  have hrev : (s.tool.revision + 1).toNat = (t0.revision.toNat + (s.log.length + 1)) % 2 ^ 64 := by
    have h1 : (s.tool.revision + 1).toNat = (s.tool.revision.toNat + 1) % 2 ^ 64 := rfl
    rw [h1, h.revision]
    omega
  refine ⟨by simp [List.getLast?_concat], by simpa using hrev, by simp [h.length],
    ?_, ?_, ?_, ?_⟩
  · intro i' ph a hph ha
    rcases getElem?_set_eq_some hph with ⟨rfl, rfl⟩ | ⟨-, hph⟩
    · exact h.fromArgs i' (.parsed items) a hi ha
    · exact h.fromArgs i' ph a hph ha
  · intro i' snap rev hph
    rcases getElem?_set_eq_some hph with ⟨rfl, hst⟩ | ⟨-, hph⟩
    · cases hst
      exact ⟨s.log.length, List.getElem?_concat_length _ _, hrev⟩
    · obtain ⟨j, hj, hval⟩ := h.stored i' snap rev hph
      exact ⟨j, (List.getElem?_append_left (lt_length_of_getElem? hj)).trans hj, hval⟩
  · intro j i' snap hj
    rcases getElem?_concat_eq_some hj with hj | ⟨rfl, hx⟩
    · obtain ⟨rev, hr, hval⟩ := h.logged j i' snap hj
      refine ⟨rev, ?_, hval⟩
      rwa [List.getElem?_set_ne]
      rintro rfl
      exact hnotin (List.mem_map.mpr ⟨_, List.getElem?_mem hj, rfl⟩)
    · cases hx
      exact ⟨_, List.getElem?_set_self (lt_length_of_getElem? hi), hrev⟩
  · rw [List.map_append, List.nodup_append]
    exact ⟨h.nodup, List.nodup_singleton _, List.disjoint_singleton.mpr hnotin⟩

/-- **Every step keeps the invariant.** -/
theorem Executions.Inv.step (h : s.Inv coerceString t0 args) (i : Nat) :
    (s.step coerceString i).Inv coerceString t0 args := by
  rcases step_cases coerceString s i with hs | ⟨ctx, params, hi, hs⟩ | ⟨items, hi, hs⟩ <;>
    rw [hs]
  · exact h
  · exact h.unlocked hi
  · exact h.store hi

/-- The calls before any step. -/
theorem Executions.init_inv (t0 : TodoWriteTool) (args : List ExecuteArgs) :
    (Executions.init t0 args).Inv coerceString t0 args := by
  refine ⟨rfl, ?_, by simp [Executions.init], ?_, ?_, fun _ _ _ h => by simp [Executions.init] at h,
    List.nodup_nil⟩
  · simpa [Executions.init] using (Nat.mod_eq_of_lt (UInt64.toNat_lt_size t0.revision)).symm
  · intro i ph a hph ha
    simp only [Executions.init, List.getElem?_map, ha, Option.map_some', Option.some.injEq] at hph
    subst hph
    rfl
  · intro i snap rev hph
    simp only [Executions.init, List.getElem?_map] at hph
    cases hai : args[i]? <;> simp [hai] at hph

/-- **Every run keeps the invariant.** -/
theorem Executions.Inv.run (h : s.Inv coerceString t0 args) (sched : List Nat) :
    (s.run coerceString sched).Inv coerceString t0 args := by
  induction sched generalizing s with
  | nil => exact h
  | cons i rest ih => exact ih (h.step i)

theorem Executions.run_append (s : Executions) (xs ys : List Nat) :
    s.run coerceString (xs ++ ys) = (s.run coerceString xs).run coerceString ys :=
  List.foldl_append _ _ _ _

/-- A call that passes its unlocked checks, run alone for its two steps,
stores its items and touches no other call. -/
theorem Executions.run_pair {i : Nat} {ctx : Option (Option GoError)}
    {params : Option ValueMap} {items : List TodoItem}
    (hi : s.calls[i]? = some (.start ctx params))
    (hp : prepare coerceString ctx params = .ok items) :
    (s.run coerceString [i, i]).log = s.log ++ [(i, items)] ∧
      ∀ k, k ≠ i → (s.run coerceString [i, i]).calls[k]? = s.calls[k]? := by
  have hlt := lt_length_of_getElem? hi
  have h1 : s.step coerceString i = { s with calls := s.calls.set i (.parsed items) } := by
    simp [Executions.step, hi, hp, Phase.ofPrepared]
  have h2 : ({ s with calls := s.calls.set i (.parsed items) } : Executions).calls[i]? =
      some (.parsed items) := List.getElem?_set_self hlt
  have hrun : s.run coerceString [i, i] = ⟨(s.tool.store items).1,
      (s.calls.set i (.parsed items)).set i
        (.stored (s.tool.store items).2.1 (s.tool.store items).2.2),
      s.log ++ [(i, items)]⟩ := by
    simp only [Executions.run, List.foldl_cons, List.foldl_nil, h1]
    simp only [Executions.step, h2]
  rw [hrun]
  exact ⟨rfl, fun k hk => by simp [List.getElem?_set_ne (Ne.symm hk)]⟩

end Runs

/-! ## What a run of concurrent calls does -/

theorem revision_injective {r0 j j' n : Nat} (hj : j < n) (hj' : j' < n) (hn : n ≤ 2 ^ 64)
    (h : (r0 + (j + 1)) % 2 ^ 64 = (r0 + (j' + 1)) % 2 ^ 64) : j = j' := by
  omega

/-- **Concurrent `Execute` calls**, under any schedule of their steps. The
invariant holds: the tool has the list of the last store and one revision
per store, every call is where its own arguments take it, and the `j`-th
store hands its call `r0 + j + 1` modulo `2^64`. So a call that fails is in
no store and changes nothing; the calls that stored hold pairwise distinct
revisions while at most `2^64` have stored; and what each of them returns
has well-formed items, counted under exactly the three statuses, with
counts that add up to the total. -/
theorem execute_interleaving (coerceString : Value → Except GoError String)
    (t0 : TodoWriteTool) (args : List ExecuteArgs) (sched : List Nat) :
    let s := (Executions.init t0 args).run coerceString sched
    s.Inv coerceString t0 args ∧
      (∀ (i : Nat) (err : GoError), s.calls[i]? = some (.failed err) → i ∉ s.log.map (·.1)) ∧
      (s.log.length ≤ 2 ^ 64 → ∀ (i i' : Nat) (snap snap' : List TodoItem) (rev : UInt64),
        s.calls[i]? = some (.stored snap rev) → s.calls[i']? = some (.stored snap' rev) → i = i') ∧
      (∀ (i : Nat) (snap : List TodoItem) (rev : UInt64), s.calls[i]? = some (.stored snap rev) →
        (∀ item ∈ (executeResult snap rev).todos, item.Valid) ∧
          (executeResult snap rev).counts.map (·.1) = todoStatuses ∧
          ((executeResult snap rev).counts.map (·.2)).sum = (executeResult snap rev).total) := by
  intro s
  have h : s.Inv coerceString t0 args := (Executions.init_inv t0 args).run sched
  refine ⟨h, ?_, ?_, ?_⟩
  · exact fun i err hf => h.not_mem_log hf fun _ _ => nofun
  · intro hn i i' snap snap' rev hi hi'
    obtain ⟨j, hj, hv⟩ := h.stored i snap rev hi
    obtain ⟨j', hj', hv'⟩ := h.stored i' snap' rev hi'
    obtain rfl : j = j' := revision_injective (lt_length_of_getElem? hj)
      (lt_length_of_getElem? hj') hn (hv.symm.trans hv')
    rw [hj] at hj'
    cases hj'
    rfl
  · intro i snap rev hi
    have hlt : i < args.length := h.length ▸ lt_length_of_getElem? hi
    obtain ⟨a, ha⟩ : ∃ a, args[i]? = some a := ⟨args[i], List.getElem?_eq_getElem hlt⟩
    have hv : ∀ item ∈ snap, item.Valid := prepare_valid (h.fromArgs i _ a hi ha)
    exact ⟨hv, countByStatus_keys hv, countByStatus_sum hv⟩

/-- Calls with the same arguments, run one after the other, store in turn. -/
theorem run_one_by_one {coerceString : Value → Except GoError String} {t0 : TodoWriteTool}
    {a : ExecuteArgs} {items : List TodoItem} (ha : prepare coerceString a.1 a.2 = .ok items)
    {N : Nat} :
    ∀ n, n ≤ N →
      let s := (Executions.init t0 (List.replicate N a)).run coerceString
        ((List.range n).flatMap fun i => [i, i])
      s.log = (List.range n).map (·, items) ∧
        ∀ k, n ≤ k → k < N → s.calls[k]? = some (.start a.1 a.2) := by
  intro n
  induction n with
  | zero => exact fun _ => ⟨rfl, fun k _ hk => by simp [Executions.init, Executions.run, hk]⟩
  | succ n ih =>
    intro hn
    obtain ⟨hlog, hstart⟩ := ih (by omega)
    obtain ⟨hlog', hcalls⟩ := Executions.run_pair (hstart n le_rfl (by omega)) ha
    simp only [List.range_succ, List.flatMap_append, List.flatMap_cons, List.flatMap_nil,
      List.append_nil, Executions.run_append]
    refine ⟨by rw [hlog', hlog, List.map_append]; rfl, fun k hk hkN => ?_⟩
    rw [hcalls k (by omega)]
    exact hstart k (by omega) hkN

/-- `n` calls with the arguments `a` on the tool `t0`, each run to its end
before the next one starts. -/
def Executions.oneByOne (coerceString : Value → Except GoError String) (t0 : TodoWriteTool)
    (a : ExecuteArgs) (n : Nat) : Executions :=
  (Executions.init t0 (List.replicate n a)).run coerceString ((List.range n).flatMap fun i => [i, i])

/-- **Calls run one after the other all store**, when their arguments
pass: the `j`-th stores its items and receives revision `r0 + j + 1`. -/
theorem oneByOne_stored {coerceString : Value → Except GoError String} {t0 : TodoWriteTool}
    {a : ExecuteArgs} {items : List TodoItem} (ha : prepare coerceString a.1 a.2 = .ok items)
    {n j : Nat} (hj : j < n) :
    ∃ rev, (Executions.oneByOne coerceString t0 a n).calls[j]? = some (.stored items rev) ∧
      rev.toNat = (t0.revision.toNat + (j + 1)) % 2 ^ 64 := by
  have hlog : (Executions.oneByOne coerceString t0 a n).log = (List.range n).map (·, items) :=
    (run_one_by_one ha n le_rfl).1
  have h : (Executions.oneByOne coerceString t0 a n).Inv coerceString t0 (List.replicate n a) :=
    (Executions.init_inv _ _).run _
  apply h.logged j j items
  rw [hlog, List.getElem?_map, List.getElem?_range hj]
  rfl

/-- **The `2^64 + 1`-th store repeats the first revision.** On a fresh
tool, `2^64 + 1` calls that each clear the list, run one after the other,
all succeed, and the first and the last both receive revision `1`. -/
theorem execute_revision_repeats :
    (Executions.oneByOne (fun _ => .error ⟨""⟩) newTodoWriteTool
        (some none, some [("todos", .array [])]) (2 ^ 64 + 1)).calls[0]? = some (.stored [] 1) ∧
      (Executions.oneByOne (fun _ => .error ⟨""⟩) newTodoWriteTool
        (some none, some [("todos", .array [])]) (2 ^ 64 + 1)).calls[2 ^ 64]? = some (.stored [] 1) := by
  have hp : prepare (fun _ => .error ⟨""⟩)
      ((some none, some [("todos", Value.array [])]) : ExecuteArgs).1
      ((some none, some [("todos", Value.array [])]) : ExecuteArgs).2 = .ok [] := rfl
  have hone : ∀ j, j < 2 ^ 64 + 1 → (0 + (j + 1)) % 2 ^ 64 = 1 →
      (Executions.oneByOne (fun _ => .error ⟨""⟩) newTodoWriteTool
        (some none, some [("todos", .array [])]) (2 ^ 64 + 1)).calls[j]? = some (.stored [] 1) := by
    intro j hj h1
    obtain ⟨rev, hr, hv⟩ := @oneByOne_stored _ newTodoWriteTool _ _ hp _ _ hj
    rw [hr, show rev = 1 from UInt64.toNat.inj (by rw [hv]; exact h1)]
  exact ⟨hone 0 (by norm_num) (by norm_num), hone (2 ^ 64) (by norm_num) (by norm_num)⟩

end ToolBuiltin
