import AgentSdk.Text
import AgentSdk.Value

/-!
# Bookmarks

A `Bookmark` records where a replay of the event log stands: an id, a
position in the write-ahead log, and a JSON snapshot of some state.
`NewBookmark` trims the id and refuses an empty one and a negative
position; `Advance` moves the position and refuses to move it back;
`Snapshot` replaces the state.

So whatever calls a bookmark goes through, and in whatever order, it
keeps the trimmed id it was made with and its position is the largest one
it was ever given, its first or one passed to `Advance` (`run_bookmark`);
in particular it never decreases and never goes below zero.

`encodeState` copies a `[]byte` or a `json.RawMessage` and hands anything
else to `json.Marshal`, which the model takes as an argument. A nil slice
and an empty one are one value here: the code copies both to nil, and
`Restore` tests the length only. The deep copy `Clone` makes is the value
itself in the model, and `Restore`, which only hands the snapshot to
`json.Unmarshal`, is left out with it.
-/

namespace Event

open GoString

/-- **`Bookmark`**. `Position` is an `int64`, which no call does
arithmetic on. -/
structure Bookmark where
  ID : String
  Position : Int
  State : List UInt8
  deriving DecidableEq, Repr

/-- **The state handed to `encodeState`**, by its dynamic type: nil, a
`[]byte`, a `json.RawMessage`, or a value of another type. -/
inductive StateArg (α : Type) where
  | nil
  | bytes (b : List UInt8)
  | raw (b : List UInt8)
  | value (v : α)

/-- `errNilBookmark`. -/
def errNilBookmark : GoError := ⟨"bookmark: nil reference"⟩

variable {α : Type} (marshal : α → Except GoError (List UInt8))

/-- **`encodeState`**, with `json.Marshal` as `marshal`. -/
def encodeState : StateArg α → Except GoError (List UInt8)
  | .nil => .ok []
  | .bytes b | .raw b => .ok b
  | .value v =>
    match marshal v with
    | .error err => .error ⟨"bookmark: marshal state: " ++ err.Error⟩
    | .ok data => .ok data

/-- **`NewBookmark`**. -/
def newBookmark (id : String) (position : Int) (state : StateArg α) : Except GoError Bookmark :=
  let id := trimSpace id
  if id = "" then .error ⟨"bookmark: id is empty"⟩
  else if position < 0 then .error ⟨"bookmark: invalid position " ++ toString position⟩
  else (encodeState marshal state).map fun snapshot => ⟨id, position, snapshot⟩

/-- **`Snapshot`**, on a bookmark that may be nil: the bookmark after the
call, and its error. -/
def Bookmark.snapshot : Option Bookmark → StateArg α → Option Bookmark × Option GoError
  | none, _ => (none, some errNilBookmark)
  | some b, state =>
    match encodeState marshal state with
    | .error err => (some b, some err)
    | .ok snapshot => (some { b with State := snapshot }, none)

/-- **`Advance`**, on a bookmark that may be nil. -/
def Bookmark.advance : Option Bookmark → Int → Option Bookmark × Option GoError
  | none, _ => (none, some errNilBookmark)
  | some b, position =>
    if position < b.Position then
      (some b, some ⟨"bookmark: position rollback " ++ toString b.Position ++ " -> " ++
        toString position⟩)
    else (some { b with Position := position }, none)

/-! ## Runs -/

/-- **A call that writes to a bookmark.** -/
inductive Call (α : Type) where
  | advance (position : Int)
  | snapshot (state : StateArg α)

/-- The position a call offers. -/
def Call.position : Call α → Option Int
  | .advance p => some p
  | .snapshot _ => none

/-- One call on a bookmark. -/
def Bookmark.step (b : Bookmark) : Call α → Option Bookmark × Option GoError
  | .advance p => Bookmark.advance (some b) p
  | .snapshot state => Bookmark.snapshot marshal (some b) state

/-- **A run** of calls on a bookmark: the bookmark after them, and the
error of each. -/
def Bookmark.run (b : Bookmark) : List (Call α) → Bookmark × List (Option GoError)
  | [] => (b, [])
  | c :: cs =>
    let r := b.step marshal c
    let b' := r.1.getD b
    ((b'.run cs).1, r.2 :: (b'.run cs).2)

/-- **What one call does**: it keeps the id, and it moves the position to
the larger of the one before and the one offered. -/
theorem step_spec (b : Bookmark) (c : Call α) :
    ∃ b', (b.step marshal c).1 = some b' ∧ b'.ID = b.ID ∧
      b'.Position = (c.position.map (max b.Position)).getD b.Position := by
  cases c with
  | advance p =>
    by_cases h : p < b.Position
    · exact ⟨b, by simp [Bookmark.step, Bookmark.advance, h], rfl,
        by simp [Call.position, max_eq_left h.le]⟩
    · exact ⟨{ b with Position := p }, by simp [Bookmark.step, Bookmark.advance, h], rfl,
        by simp [Call.position, max_eq_right (not_lt.mp h)]⟩
  | snapshot state =>
    cases hs : encodeState marshal state with
    | error err => exact ⟨b, by simp [Bookmark.step, Bookmark.snapshot, hs], rfl, rfl⟩
    | ok data =>
      exact ⟨{ b with State := data }, by simp [Bookmark.step, Bookmark.snapshot, hs], rfl, rfl⟩

/-- **The position after a run** is the largest of the one before and
those offered to `Advance`. -/
theorem run_position (b : Bookmark) (calls : List (Call α)) :
    (b.run marshal calls).1.ID = b.ID ∧
      (b.run marshal calls).1.Position = (calls.filterMap Call.position).foldl max b.Position := by
  induction calls generalizing b with
  | nil => exact ⟨rfl, rfl⟩
  | cons c cs ih =>
    obtain ⟨b', hstep, hid, hpos⟩ := step_spec marshal b c
    obtain ⟨hid', hpos'⟩ := ih b'
    simp only [Bookmark.run, hstep, Option.getD_some]
    refine ⟨hid'.trans hid, hpos'.trans ?_⟩
    cases c <;> simp only [hpos, Call.position, List.filterMap_cons, Option.map_some',
      Option.map_none', Option.getD_some, Option.getD_none, List.foldl_cons]

theorem newBookmark_ok {id : String} {position : Int} {state : StateArg α} {b : Bookmark}
    (h : newBookmark marshal id position state = .ok b) :
    b.ID = trimSpace id ∧ trimSpace id ≠ "" ∧ b.Position = position ∧ 0 ≤ position := by
  simp only [newBookmark] at h
  split_ifs at h with h₁ h₂
  cases hs : encodeState marshal state with
  | error err => simp [hs, Except.map] at h
  | ok data =>
    simp only [hs, Except.map, Except.ok.injEq] at h
    exact ⟨h ▸ rfl, h₁, h ▸ rfl, not_lt.mp h₂⟩

theorem le_foldl_max (xs : List Int) (a : Int) : a ≤ xs.foldl max a := by
  induction xs generalizing a with
  | nil => exact le_rfl
  | cons x xs ih => exact (le_max_left a x).trans (ih _)

/-- **A bookmark keeps its id and its largest position.** Whatever calls
of `Advance` and `Snapshot` a bookmark made by `NewBookmark` goes through,
it keeps the trimmed, non-empty id it was made with, and its position is
the largest of its first one and those passed to `Advance`, which is never
negative. -/
theorem run_bookmark {id : String} {position : Int} {state : StateArg α} {b : Bookmark}
    (h : newBookmark marshal id position state = .ok b) (calls : List (Call α)) :
    (b.run marshal calls).1.ID = trimSpace id ∧ trimSpace id ≠ "" ∧
      (b.run marshal calls).1.Position = (calls.filterMap Call.position).foldl max position ∧
      0 ≤ (b.run marshal calls).1.Position := by
  obtain ⟨hid, hne, hpos, hnn⟩ := newBookmark_ok marshal h
  obtain ⟨hid', hpos'⟩ := run_position marshal b calls
  rw [hpos] at hpos'
  exact ⟨hid'.trans hid, hne, hpos', hpos' ▸ hnn.trans (le_foldl_max _ _)⟩

/-- A bookmark made at 3 and advanced to 5, then refused 4, then advanced
to 7 around a snapshot. -/
theorem run_bookmark_wal :
    let marshal : Nat → Except GoError (List UInt8) := fun _ => .ok []
    let calls : List (Call Nat) := [.advance 5, .advance 4, .snapshot (.value 0), .advance 7]
    newBookmark marshal " wal-1 " 3 .nil = .ok ⟨"wal-1", 3, []⟩ ∧
      (Bookmark.run marshal ⟨"wal-1", 3, []⟩ calls).1.ID = trimSpace " wal-1 " ∧
      trimSpace " wal-1 " ≠ "" ∧
      (Bookmark.run marshal ⟨"wal-1", 3, []⟩ calls).1.Position =
        (calls.filterMap Call.position).foldl max 3 ∧
      0 ≤ (Bookmark.run marshal ⟨"wal-1", 3, []⟩ calls).1.Position :=
  ⟨rfl, @run_bookmark Nat (fun _ => .ok []) " wal-1 " 3 .nil ⟨"wal-1", 3, []⟩ rfl _⟩

end Event
