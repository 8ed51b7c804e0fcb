import AgentSdk.Text
import AgentSdk.Value

/-!
# The TodoWrite tool

`TodoWriteTool` keeps one todo list and a revision counter. `Execute`
parses the `todos` parameter into items, checks the context, and then, under
the tool's mutex, replaces the list and bumps the revision (`store`); from
the stored copy it counts the items by status and formats a summary.

Parsing reads three required strings per item, trims them and refuses an
empty one, and maps the status through `normalizeStatus`, which accepts the
three statuses and a few spellings of them. So every stored item carries
one of the three statuses and two non-blank texts (`prepare_valid`), and
the counts `countByStatus` returns have the three statuses as keys and add
up to the number of items (`countByStatus_keys`, `countByStatus_sum`).

`coerceString`, which turns a parameter value into a string, is not among
the sources at hand; the model takes it as an argument. A context is
modelled by what its `Err()` returns, `none` standing for a nil context.
-/

namespace ToolBuiltin

open GoString

/-- **`TodoItem`**. -/
structure TodoItem where
  Content : String
  Status : String
  ActiveForm : String
  deriving DecidableEq, Repr

/-- **`TodoWriteTool`**: the list and the revision its mutex guards. -/
structure TodoWriteTool where
  todos : List TodoItem
  revision : UInt64

/-- **`NewTodoWriteTool`**. -/
def newTodoWriteTool : TodoWriteTool := ⟨[], 0⟩

/-- The statuses an item may have, in the order `countByStatus` lists them. -/
def todoStatuses : List String := ["pending", "in_progress", "completed"]

/-- **A well-formed item**: a known status and non-blank texts. -/
def TodoItem.Valid (item : TodoItem) : Prop :=
  item.Status ∈ todoStatuses ∧ trimSpace item.Content ≠ "" ∧ trimSpace item.ActiveForm ≠ ""

instance : DecidablePred TodoItem.Valid := fun item =>
  inferInstanceAs (Decidable (item.Status ∈ todoStatuses ∧ _ ∧ _))

/-! ## Parsing the parameters -/

/-- **`readRequiredString`**: the trimmed string under `key`. -/
def readRequiredString (coerceString : Value → Except GoError String) (obj : ValueMap)
    (key : String) : Except GoError String :=
  match obj.get? key with
  | none => .error ⟨"field is required"⟩
  | some raw =>
    match coerceString raw with
    | .error err => .error ⟨"must be string: " ++ err.Error⟩
    | .ok value =>
      if trimSpace value = "" then .error ⟨"cannot be empty"⟩ else .ok (trimSpace value)

/-- **`normalizeStatus`**: the status a spelling stands for, or `""`. -/
def normalizeStatus (value : String) : String :=
  match toLower (trimSpace value) with
  | "pending" => "pending"
  | "in_progress" | "in-progress" => "in_progress"
  | "completed" | "complete" | "done" => "completed"
  | _ => ""

/-- The error of field `key` of entry `i`, wrapping the field's own. -/
def fieldError (i : Nat) (key : String) (err : GoError) : GoError :=
  ⟨"todos[" ++ toString i ++ "]." ++ key ++ ": " ++ err.Error⟩

/-- **The body of `parseTodoItems`' loop** on entry `i`. A nil map reads
as an empty one. -/
def parseEntry (coerceString : Value → Except GoError String) (i : Nat) :
    Value → Except GoError TodoItem
  | .object obj => do
    let obj := obj.getD []
    let content ← (readRequiredString coerceString obj "content").mapError (fieldError i "content")
    let status ← (readRequiredString coerceString obj "status").mapError (fieldError i "status")
    let activeForm ←
      (readRequiredString coerceString obj "activeForm").mapError (fieldError i "activeForm")
    let status := normalizeStatus status
    if status = "" then
      throw ⟨"todos[" ++ toString i ++ "].status must be one of pending, in_progress, completed"⟩
    else pure ⟨content, status, activeForm⟩
  | entry => .error ⟨"todos[" ++ toString i ++ "] must be object, got " ++ entry.typeName⟩

/-- The loop of `parseTodoItems` from entry `i` on; the first error ends it. -/
def parseEntries (coerceString : Value → Except GoError String) :
    Nat → List Value → Except GoError (List TodoItem)
  | _, [] => .ok []
  | i, entry :: rest => do
    let item ← parseEntry coerceString i entry
    let items ← parseEntries coerceString (i + 1) rest
    pure (item :: items)

/-- **`parseTodoItems`**: `todos` is a `[]interface{}` or a
`[]map[string]interface{}`, parsed entry by entry. -/
def parseTodoItems (coerceString : Value → Except GoError String) (params : Option ValueMap) :
    Except GoError (List TodoItem) :=
  match params with
  | none => .error ⟨"params is nil"⟩
  | some params =>
    match params.get? "todos" with
    | none => .error ⟨"todos is required"⟩
    | some (.array list) => parseEntries coerceString 0 list
    | some (.objects arr) => parseEntries coerceString 0 (arr.map fun m => .object (some m))
    | some raw => .error ⟨"todos must be an array, got " ++ raw.typeName⟩

/-! ## `Execute` -/

/-- **The unlocked part of `Execute`**: the nil-context check, the parse
and the context's error, in that order. -/
def prepare (coerceString : Value → Except GoError String) (ctx : Option (Option GoError))
    (params : Option ValueMap) : Except GoError (List TodoItem) :=
  match ctx with
  | none => .error ⟨"context is nil"⟩
  | some ctxErr =>
    match parseTodoItems coerceString params with
    | .error err => .error err
    | .ok items =>
      match ctxErr with
      | some err => .error err
      | none => .ok items

/-- **`store`**, under the mutex: the new list and revision, and the copy
and revision it returns. -/
def TodoWriteTool.store (t : TodoWriteTool) (items : List TodoItem) :
    TodoWriteTool × List TodoItem × UInt64 :=
  (⟨items, t.revision + 1⟩, items, t.revision + 1)

/-- **`Snapshot`**. -/
def TodoWriteTool.snapshot (t : TodoWriteTool) : List TodoItem := t.todos

/-- A Go map assignment `counts[k]++`: a missing key starts at `0`. -/
def mapIncr (counts : List (String × Int)) (k : String) : List (String × Int) :=
  if counts.any (·.1 == k) then counts.map fun p => if p.1 = k then (p.1, p.2 + 1) else p
  else counts ++ [(k, 1)]

/-- **`countByStatus`**. -/
def countByStatus (items : List TodoItem) : List (String × Int) :=
  items.foldl (fun counts item => mapIncr counts item.Status) (todoStatuses.map (·, 0))

/-- **`formatTodoOutput`**. -/
def formatTodoOutput (items : List TodoItem) (counts : List (String × Int)) : String :=
  if items.length = 0 then "todo list cleared"
  else
    let count (k : String) : Int := (counts.lookup k).getD 0
    let header := toString items.length ++ " todos (pending:" ++ toString (count "pending") ++
      ", in_progress:" ++ toString (count "in_progress") ++ ", completed:" ++
      toString (count "completed") ++ ")\n"
    let line (idx : Nat) (item : TodoItem) : String :=
      toString (idx + 1) ++ ". [" ++ item.Status ++ "] " ++ item.Content ++
        (if trimSpace item.ActiveForm ≠ "" then " (form=" ++ item.ActiveForm ++ ")" else "") ++ "\n"
    trimRight (header ++ String.join (items.enum.map fun p => line p.1 p.2)) "\n"

/-- **What a successful `Execute` returns**: `Success`, the summary, and
the data map's `todos`, `counts`, `revision` and `total`. -/
structure ExecuteResult where
  Success : Bool
  Output : String
  todos : List TodoItem
  counts : List (String × Int)
  revision : UInt64
  total : Nat

/-- The part of `Execute` after `store`, from the copy and the revision. -/
def executeResult (snapshot : List TodoItem) (revision : UInt64) : ExecuteResult :=
  let counts := countByStatus snapshot
  ⟨true, formatTodoOutput snapshot counts, snapshot, counts, revision, snapshot.length⟩

/-- **`Execute`** with no other call running. -/
def TodoWriteTool.execute (coerceString : Value → Except GoError String) (t : TodoWriteTool)
    (ctx : Option (Option GoError)) (params : Option ValueMap) :
    TodoWriteTool × Except GoError ExecuteResult :=
  match prepare coerceString ctx params with
  | .error err => (t, .error err)
  | .ok items => ((t.store items).1, .ok (executeResult (t.store items).2.1 (t.store items).2.2))

/-! ## What a parse admits -/

section Parse

variable {coerceString : Value → Except GoError String}

/-- A required string is trimmed and not empty. -/
theorem readRequiredString_ok {obj : ValueMap} {key v : String}
    (h : readRequiredString coerceString obj key = .ok v) : trimSpace v ≠ "" := by
  unfold readRequiredString at h
  split at h
  · cases h
  · split at h
    · cases h
    · split_ifs at h with he
      cases h
      rwa [trimSpace_trimSpace]

/-- `normalizeStatus` returns one of the three statuses or `""`. -/
theorem normalizeStatus_mem {v : String} (h : normalizeStatus v ≠ "") :
    normalizeStatus v ∈ todoStatuses := by
  unfold normalizeStatus at h ⊢
  split <;> simp_all [todoStatuses]

/-- The value a `do` block's bound step produced, when the block succeeds. -/
theorem bind_eq_ok {ε α β : Type} {x : Except ε α} {f : α → Except ε β} {b : β}
    (h : x >>= f = .ok b) : ∃ a, x = .ok a ∧ f a = .ok b := by
  cases x with
  | error e => cases h
  | ok a => exact ⟨a, rfl, h⟩

theorem mapError_eq_ok {ε ε' α : Type} {x : Except ε α} {g : ε → ε'} {a : α}
    (h : x.mapError g = .ok a) : x = .ok a := by
  cases x with
  | error e => cases h
  | ok a' => cases h; rfl

theorem parseEntry_valid {i : Nat} {e : Value} {item : TodoItem}
    (h : parseEntry coerceString i e = .ok item) : item.Valid := by
  cases e with
  | object obj =>
    obtain ⟨_, hc, h⟩ := bind_eq_ok h
    obtain ⟨_, -, h⟩ := bind_eq_ok h
    obtain ⟨_, ha, h⟩ := bind_eq_ok h
    dsimp only at h
    split_ifs at h with hn
    cases h
    exact ⟨normalizeStatus_mem hn, readRequiredString_ok (mapError_eq_ok hc),
      readRequiredString_ok (mapError_eq_ok ha)⟩
  | _ => cases h

theorem parseEntries_valid :
    ∀ {i : Nat} {es : List Value} {items : List TodoItem},
      parseEntries coerceString i es = .ok items → ∀ item ∈ items, item.Valid
  | _, [], _, h => by cases h; simp
  | i, e :: es, items, h => by
    obtain ⟨item, he, h⟩ := bind_eq_ok h
    obtain ⟨rest, hes, h⟩ := bind_eq_ok h
    cases h
    intro x hx
    rcases List.mem_cons.mp hx with rfl | hx
    · exact parseEntry_valid he
    · exact parseEntries_valid hes x hx

theorem parseTodoItems_valid {params : Option ValueMap} {items : List TodoItem}
    (h : parseTodoItems coerceString params = .ok items) : ∀ item ∈ items, item.Valid := by
  unfold parseTodoItems at h
  split at h
  · cases h
  · split at h <;> first | cases h | exact parseEntries_valid h

/-- **What passes the unlocked checks is well formed**: every item has one
of the three statuses and non-blank texts. -/
theorem prepare_valid {ctx : Option (Option GoError)} {params : Option ValueMap}
    {items : List TodoItem} (h : prepare coerceString ctx params = .ok items) :
    ∀ item ∈ items, item.Valid := by
  unfold prepare at h
  split at h
  · cases h
  · split at h
    · cases h
    · next hp => split at h <;> cases h; exact parseTodoItems_valid hp

end Parse

/-! ## Counting by status -/

theorem sum_incr (k : String) :
    ∀ m : List (String × Int), (m.map (·.1)).Nodup → k ∈ m.map (·.1) →
      ((m.map fun p => if p.1 = k then (p.1, p.2 + 1) else p).map (·.2)).sum =
        (m.map (·.2)).sum + 1
  | [], _, hk => by simp at hk
  | p :: rest, hnd, hk => by
    simp only [List.map_cons, List.nodup_cons] at hnd
    by_cases hp : p.1 = k
    · have hrest : (rest.map fun p => if p.1 = k then (p.1, p.2 + 1) else p) = rest := by
        conv_rhs => rw [← List.map_id rest]
        exact List.map_congr_left fun q hq => if_neg fun hqk => hnd.1 (by
          rw [hp, ← hqk]; exact List.mem_map_of_mem _ hq)
      simp only [List.map_cons, hp, ↓reduceIte, hrest, List.sum_cons]
      omega
    · have hk' : k ∈ rest.map (·.1) := by simpa [Ne.symm hp] using hk
      simp only [List.map_cons, hp, ↓reduceIte, List.sum_cons, sum_incr k rest hnd.2 hk']
      omega

/-- An increment of a key already present keeps the keys and adds one to
the total. -/
theorem mapIncr_of_mem {m : List (String × Int)} {k : String} (hnd : (m.map (·.1)).Nodup)
    (hk : k ∈ m.map (·.1)) :
    (mapIncr m k).map (·.1) = m.map (·.1) ∧
      ((mapIncr m k).map (·.2)).sum = (m.map (·.2)).sum + 1 := by
  have hany : m.any (·.1 == k) = true := by
    obtain ⟨p, hp, rfl⟩ := List.mem_map.mp hk
    exact List.any_eq_true.mpr ⟨p, hp, by simp⟩
  simp only [mapIncr, hany, ↓reduceIte]
  refine ⟨?_, sum_incr k m hnd hk⟩
  rw [List.map_map]
  exact List.map_congr_left fun p _ => by by_cases h : p.1 = k <;> simp [h]

theorem foldl_mapIncr (items : List TodoItem)
    (hv : ∀ item ∈ items, item.Status ∈ todoStatuses) :
    ∀ counts : List (String × Int), counts.map (·.1) = todoStatuses →
      (items.foldl (fun counts item => mapIncr counts item.Status) counts).map (·.1) =
          todoStatuses ∧
        ((items.foldl (fun counts item => mapIncr counts item.Status) counts).map (·.2)).sum =
          (counts.map (·.2)).sum + items.length := by
  induction items with
  | nil => intro counts h; simp [h]
  | cons item rest ih =>
    intro counts hkeys
    have hmem : item.Status ∈ counts.map (·.1) := hkeys ▸ hv item (List.mem_cons_self _ _)
    obtain ⟨hk, hs⟩ := mapIncr_of_mem (hkeys ▸ (by decide : todoStatuses.Nodup)) hmem
    obtain ⟨hk', hs'⟩ := ih (fun x hx => hv x (List.mem_cons_of_mem _ hx)) _ (hk.trans hkeys)
    refine ⟨hk', ?_⟩
    rw [List.foldl_cons, hs', hs, List.length_cons]
    push_cast
    ring

/-- **The counts have the three statuses as keys**, when every item has
one of them. -/
theorem countByStatus_keys {items : List TodoItem} (hv : ∀ item ∈ items, item.Valid) :
    (countByStatus items).map (·.1) = todoStatuses :=
  (foldl_mapIncr items (fun x hx => (hv x hx).1) (todoStatuses.map (·, 0))
    (by simp [todoStatuses])).1

/-- **The counts add up to the number of items**, when every item has one
of the three statuses. -/
theorem countByStatus_sum {items : List TodoItem} (hv : ∀ item ∈ items, item.Valid) :
    ((countByStatus items).map (·.2)).sum = items.length := by
  simpa [todoStatuses] using (foldl_mapIncr items (fun x hx => (hv x hx).1)
    (todoStatuses.map (·, 0)) (by simp [todoStatuses])).2

/-! ## One call -/

/-- **A failed call changes nothing.** -/
theorem execute_error {coerceString : Value → Except GoError String} {t : TodoWriteTool}
    {ctx : Option (Option GoError)} {params : Option ValueMap} {err : GoError}
    (h : (t.execute coerceString ctx params).2 = .error err) :
    (t.execute coerceString ctx params).1 = t := by
  simp only [TodoWriteTool.execute] at h ⊢
  split at h
  · rfl
  · cases h

end ToolBuiltin
