import Mathlib.Data.List.Forall2
import AgentSdk.Session.Message

/-!
# What the session's copies share

`MemorySession` copies messages on the way in (`Append`, `Checkpoint`,
`Resume`, `Fork`) and on the way out (`List`), through `cloneMessages`,
`cloneMessage`, `cloneToolCalls`, `cloneToolCall` and `cloneMap`. A Go map is
a reference, and `cloneMap` copies the entries of one map into a new map:
a map held as an entry is copied as a reference, and so is a tool call's
`Output`. The value model of `Message.lean` has no references and cannot
tell the copies from their sources. This module keeps the maps of tool
calls at addresses in a heap, and reads a message back as a value.

Two things hold of every copy. Right after it is made, it reads as its
source (`cloneMessages_read`), so the value model, in which a copy is the
value itself, is what the heap model reads. And it is one level deep: over
any later run of writes `m[k] = v` that leaves the top-level `Arguments`
and `Metadata` maps of both alone, the copy and its source go on reading
the same (`cloneMessages_run_read`). A caller that changes a map nested in
the arguments of a message it appended, or of a message `List` returned,
changes the transcript, its checkpoints and its forks with it.
-/

namespace Session

/-! ## Messages in memory -/

/-- **A Go `any` in memory**: a value that holds no reference, or a
`map[string]any`, nil or at an address. Slices are left out. -/
inductive HValue where
  | scalar (v : Value)
  | map (a : Option Nat)

/-- **The heap**: the entries of the map at each address. -/
abbrev Heap := List (List (String × HValue))

/-- **A `ToolCall` in memory**, its two maps by address. -/
structure HToolCall where
  ID : String
  Name : String
  Arguments : Option Nat
  Output : HValue
  Error : String
  Metadata : Option Nat
  Timestamp : Time

/-- **A `Message` in memory**. -/
structure HMessage where
  ID : String
  Role : String
  Content : String
  ToolCalls : List HToolCall
  Timestamp : Time

namespace Heap

/-- The entries of a map: none for a nil map, and `none` for an address
the heap does not hold. -/
def entries (h : Heap) : Option Nat → Option (List (String × HValue))
  | none => some []
  | some a => h[a]?

/-- **A value read out of the heap**, following maps `n` deep. -/
def read (h : Heap) : Nat → HValue → Option Value
  | _, .scalar v => some v
  | _, .map none => some (.object none)
  | 0, .map (some _) => none
  | n + 1, .map (some a) =>
    h[a]?.bind fun m => (m.mapM fun kv => (h.read n kv.2).map (kv.1, ·)).map (.object ∘ some)

/-- The entries of a map, read as values. -/
def readEntries (h : Heap) (n : Nat) (m : List (String × HValue)) : Option ValueMap :=
  m.mapM fun kv => (h.read n kv.2).map (kv.1, ·)

/-- A top-level map of a tool call, read as a value; nil reads as no
entries. -/
def readMap (h : Heap) (n : Nat) (x : Option Nat) : Option ValueMap :=
  (h.entries x).bind (h.readEntries n)

/-- **A tool call read as a value.** -/
def readCall (h : Heap) (n : Nat) (c : HToolCall) : Option ToolCall :=
  (h.readMap n c.Arguments).bind fun args => (h.read n c.Output).bind fun out =>
    (h.readMap n c.Metadata).map fun md => ⟨c.ID, c.Name, args, out, c.Error, md, c.Timestamp⟩

/-- **A message read as a value.** -/
def readMessage (h : Heap) (n : Nat) (msg : HMessage) : Option Message :=
  (msg.ToolCalls.mapM (h.readCall n)).map fun calls =>
    ⟨msg.ID, msg.Role, msg.Content, calls, msg.Timestamp⟩

/-- **A transcript read as values.** -/
def readMessages (h : Heap) (n : Nat) (msgs : List HMessage) : Option (List Message) :=
  msgs.mapM (h.readMessage n)

/-- **`m[k] = v`** on the map at `a`. -/
def write (h : Heap) (a : Nat) (k : String) (v : HValue) : Heap :=
  h.set a (mapSet (h.getD a []) k v)

/-- A write `m[k] = v` by anyone holding the map at `addr`. -/
structure Write where
  addr : Nat
  key : String
  val : HValue

/-- Writes one after another. -/
def run (h : Heap) (ws : List Write) : Heap := ws.foldl (fun h w => h.write w.addr w.key w.val) h

/-- A map that is nil or at an address the heap holds. -/
def Has (h : Heap) (x : Option Nat) : Prop := ∀ a, x = some a → a < h.length

end Heap

/-! ## The copies -/

/-- **`cloneMap`**: nil for an empty map, and otherwise a new map holding
the same entries. -/
def cloneMap (h : Heap) (src : Option Nat) : Heap × Option Nat :=
  let m := (h.entries src).getD []
  if m.length = 0 then (h, none) else (h ++ [m], some h.length)

/-- **`cloneToolCall`**: new `Arguments` and `Metadata` maps when they are
not nil, and the rest, `Output` included, as it is. -/
def cloneToolCall (h : Heap) (call : HToolCall) : Heap × HToolCall :=
  let args := if call.Arguments ≠ none then cloneMap h call.Arguments else (h, call.Arguments)
  let md := if call.Metadata ≠ none then cloneMap args.1 call.Metadata else (args.1, call.Metadata)
  (md.1, { call with Arguments := args.2, Metadata := md.2 })

/-- The loop `cloneToolCalls` and `cloneMessages` share: each element
copied in order, the heap passed along. An empty slice gives `nil`, which
is the empty list here. -/
def cloneEach {α : Type} (clone : Heap → α → Heap × α) (h : Heap) : List α → Heap × List α
  | [] => (h, [])
  | x :: xs =>
    let c := clone h x
    let cs := cloneEach clone c.1 xs
    (cs.1, c.2 :: cs.2)

/-- **`cloneToolCalls`**. -/
def cloneToolCalls (h : Heap) (calls : List HToolCall) : Heap × List HToolCall :=
  cloneEach cloneToolCall h calls

/-- **`cloneMessage`**: the message with copies of its tool calls. -/
def cloneMessage (h : Heap) (msg : HMessage) : Heap × HMessage :=
  let calls := cloneToolCalls h msg.ToolCalls
  (calls.1, { msg with ToolCalls := calls.2 })

/-- **`cloneMessages`**. -/
def cloneMessages (h : Heap) (src : List HMessage) : Heap × List HMessage :=
  cloneEach cloneMessage h src

/-! ## Frames -/

namespace Heap

theorem entries_append {h : Heap} {x : Option Nat} (hx : h.Has x) (t : Heap) :
    (h ++ t).entries x = h.entries x := by
  cases x with
  | none => rfl
  | some a => exact List.getElem?_append_left (hx a rfl)

theorem Has.append {h : Heap} {x : Option Nat} (hx : h.Has x) (t : Heap) : (h ++ t).Has x :=
  fun a ha => by simpa using Nat.lt_add_right t.length (hx a ha)

theorem has_of_entries {h : Heap} {x : Option Nat} {m : List (String × HValue)}
    (hm : h.entries x = some m) : h.Has x := by
  rintro a rfl
  exact (List.getElem?_eq_some_iff.mp hm).1

/-- A run of writes keeps every map it does not write. -/
theorem entries_run {x : Option Nat} :
    ∀ {h : Heap} {ws : List Write}, (∀ w ∈ ws, x ≠ some w.addr) → (h.run ws).entries x = h.entries x
  | _, [], _ => rfl
  | h, w :: ws, hws => by
    have hw : (h.write w.addr w.key w.val).entries x = h.entries x := by
      cases x with
      | none => rfl
      | some a =>
        exact List.getElem?_set_ne fun ha => hws w (List.mem_cons_self _ _) (congrArg some ha.symm)
    exact (entries_run fun w' hw' => hws w' (List.mem_cons_of_mem _ hw')).trans hw

theorem length_run : ∀ (h : Heap) (ws : List Write), (h.run ws).length = h.length
  | _, [] => rfl
  | h, w :: ws => (length_run (h.write w.addr w.key w.val) ws).trans (List.length_set ..)

theorem Has.run {h : Heap} {x : Option Nat} (hx : h.Has x) (ws : List Write) : (h.run ws).Has x :=
  fun a ha => by rw [length_run]; exact hx a ha

/-- A `mapM` in `Option` that succeeds goes on succeeding, with the same
result, when each step does. -/
theorem mapM_eq_some_of_imp {α β : Type} {f g : α → Option β}
    (hfg : ∀ x y, f x = some y → g x = some y) :
    ∀ {l : List α} {r : List β}, l.mapM f = some r → l.mapM g = some r
  | [], _, h => h
  | x :: xs, r, h => by
    simp only [List.mapM_cons, Option.bind_eq_bind, Option.bind_eq_some, Option.pure_def,
      Option.some.injEq] at h ⊢
    obtain ⟨y, hy, ys, hys, rfl⟩ := h
    exact ⟨y, hfg x y hy, ys, mapM_eq_some_of_imp hfg hys, rfl⟩

/-- The entries of a map read the same after the heap grows, when their
values do. -/
theorem readEntries_append {h t : Heap} {n : Nat}
    (hread : ∀ {v y}, h.read n v = some y → (h ++ t).read n v = some y)
    {m : List (String × HValue)} {r : ValueMap} (hr : h.readEntries n m = some r) :
    (h ++ t).readEntries n m = some r := by
  refine mapM_eq_some_of_imp (fun kv e he => ?_) hr
  simp only [Option.map_eq_some'] at he ⊢
  obtain ⟨v, hv, rfl⟩ := he
  exact ⟨v, hread hv, rfl⟩

/-- **Allocation keeps every read.** A value read out of the heap reads the
same after the heap grows. -/
theorem read_append (t : Heap) {h : Heap} :
    ∀ {n : Nat} {v : HValue} {y : Value}, h.read n v = some y → (h ++ t).read n v = some y
  | _, .scalar _, _, hy => by simpa only [read] using hy
  | _, .map none, _, hy => by simpa only [read] using hy
  | 0, .map (some _), _, hy => nomatch hy
  | n + 1, .map (some a), y, hy => by
    simp only [read, Option.bind_eq_some, Option.map_eq_some'] at hy ⊢
    obtain ⟨m, hm, r, hr, rfl⟩ := hy
    exact ⟨m, (List.getElem?_append_left (List.getElem?_eq_some_iff.mp hm).1).trans hm, r,
      readEntries_append (read_append t) hr, rfl⟩

theorem readMap_append (t : Heap) {h : Heap} {n : Nat} {x : Option Nat} {r : ValueMap}
    (hr : h.readMap n x = some r) : (h ++ t).readMap n x = some r := by
  simp only [readMap, Option.bind_eq_some] at hr ⊢
  obtain ⟨m, hm, hr⟩ := hr
  exact ⟨m, (entries_append (has_of_entries hm) t).trans hm, readEntries_append (read_append t) hr⟩

theorem readCall_append (t : Heap) {h : Heap} {n : Nat} {c : HToolCall} {y : ToolCall}
    (hy : h.readCall n c = some y) : (h ++ t).readCall n c = some y := by
  simp only [readCall, Option.bind_eq_some, Option.map_eq_some'] at hy ⊢
  obtain ⟨args, hargs, out, hout, md, hmd, rfl⟩ := hy
  exact ⟨args, readMap_append t hargs, out, read_append t hout, md, readMap_append t hmd, rfl⟩

theorem readMessages_append (t : Heap) {h : Heap} {n : Nat} {msgs : List HMessage}
    {vs : List Message} (hvs : h.readMessages n msgs = some vs) :
    (h ++ t).readMessages n msgs = some vs := by
  refine mapM_eq_some_of_imp (fun msg v hv => ?_) hvs
  simp only [readMessage, Option.map_eq_some'] at hv ⊢
  obtain ⟨calls, hcalls, rfl⟩ := hv
  exact ⟨calls, mapM_eq_some_of_imp (fun c y hy => readCall_append t hy) hcalls, rfl⟩

theorem has_of_readMap {h : Heap} {n : Nat} {x : Option Nat} {r : ValueMap}
    (hr : h.readMap n x = some r) : h.Has x := by
  simp only [readMap, Option.bind_eq_some] at hr
  obtain ⟨m, hm, -⟩ := hr
  exact has_of_entries hm

/-- Each step of a `mapM` in `Option` that succeeds succeeds. -/
theorem exists_of_mapM_eq_some {α β : Type} {f : α → Option β} :
    ∀ {l : List α} {r : List β}, l.mapM f = some r → ∀ x ∈ l, ∃ y, f x = some y
  | [], _, _, _, hx => nomatch hx
  | x :: xs, r, h, y, hy => by
    simp only [List.mapM_cons, Option.bind_eq_bind, Option.bind_eq_some, Option.pure_def,
      Option.some.injEq] at h
    obtain ⟨z, hz, zs, hzs, -⟩ := h
    rcases List.mem_cons.mp hy with rfl | hy
    · exact ⟨z, hz⟩
    · exact exists_of_mapM_eq_some hzs y hy

/-- Two `mapM`s in `Option` that agree step by step. -/
theorem mapM_eq_of_forall₂ {α β γ : Type} {f : α → Option γ} {g : β → Option γ} :
    ∀ {l₁ : List α} {l₂ : List β}, List.Forall₂ (fun a b => f a = g b) l₁ l₂ →
      l₁.mapM f = l₂.mapM g
  | _, _, .nil => rfl
  | _, _, .cons hab hrest => by simp only [List.mapM_cons, hab, mapM_eq_of_forall₂ hrest]

end Heap

/-! ## What a copy shares -/

/-- The address of a top-level map of a tool call. -/
def HToolCall.Holds (c : HToolCall) (a : Nat) : Prop := c.Arguments = some a ∨ c.Metadata = some a

/-- The address of a top-level map of one of a message's tool calls. -/
def HMessage.Holds (msg : HMessage) (a : Nat) : Prop := ∃ c ∈ msg.ToolCalls, c.Holds a

/-- Every top-level map of the tool call is nil or in the heap. -/
def HToolCall.Allocated (h : Heap) (c : HToolCall) : Prop := h.Has c.Arguments ∧ h.Has c.Metadata

/-- Every top-level map of the message is nil or in the heap. -/
def HMessage.Allocated (h : Heap) (msg : HMessage) : Prop :=
  ∀ c ∈ msg.ToolCalls, HToolCall.Allocated h c

/-- A tool call without its two maps. -/
def HToolCall.bare (c : HToolCall) : HToolCall := { c with Arguments := none, Metadata := none }

/-- **A copy one level deep**: both calls are in the heap, `c`'s top-level
maps hold the entries `o`'s hold, and the rest of the two, `Output`
included, is the same. -/
structure CallShares (h : Heap) (c o : HToolCall) : Prop where
  allocated : HToolCall.Allocated h c
  allocated_src : HToolCall.Allocated h o
  arguments : h.entries c.Arguments = h.entries o.Arguments
  metadata : h.entries c.Metadata = h.entries o.Metadata
  bare : c.bare = o.bare

/-- **A message copied one level deep**: each tool call so copied, and the
rest the same. -/
structure MessageShares (h : Heap) (c o : HMessage) : Prop where
  toolCalls : List.Forall₂ (CallShares h) c.ToolCalls o.ToolCalls
  bare : { c with ToolCalls := [] } = { o with ToolCalls := [] }

/-- A relation between two lists, kept pair by pair. -/
theorem forall₂_imp_of_mem {α β : Type} {R S : α → β → Prop} {P : α → Prop} {Q : β → Prop}
    (hRS : ∀ a b, P a → Q b → R a b → S a b) :
    ∀ {l₁ : List α} {l₂ : List β}, List.Forall₂ R l₁ l₂ → (∀ a ∈ l₁, P a) → (∀ b ∈ l₂, Q b) →
      List.Forall₂ S l₁ l₂
  | _, _, .nil, _, _ => .nil
  | _, _, .cons hab hrest, hP, hQ =>
    .cons (hRS _ _ (hP _ (List.mem_cons_self _ _)) (hQ _ (List.mem_cons_self _ _)) hab)
      (forall₂_imp_of_mem hRS hrest (fun a ha => hP a (List.mem_cons_of_mem _ ha))
        fun b hb => hQ b (List.mem_cons_of_mem _ hb))

theorem HToolCall.Allocated.append {h : Heap} {c : HToolCall} (hc : HToolCall.Allocated h c)
    (t : Heap) : HToolCall.Allocated (h ++ t) c :=
  ⟨hc.1.append t, hc.2.append t⟩

theorem HMessage.Allocated.append {h : Heap} {msg : HMessage} (hm : HMessage.Allocated h msg)
    (t : Heap) : HMessage.Allocated (h ++ t) msg :=
  fun c hc => (hm c hc).append t

namespace CallShares

variable {h : Heap} {c o : HToolCall}

theorem append (hs : CallShares h c o) (t : Heap) : CallShares (h ++ t) c o where
  allocated := hs.allocated.append t
  allocated_src := hs.allocated_src.append t
  arguments := by
    rw [Heap.entries_append hs.allocated.1, Heap.entries_append hs.allocated_src.1, hs.arguments]
  metadata := by
    rw [Heap.entries_append hs.allocated.2, Heap.entries_append hs.allocated_src.2, hs.metadata]
  bare := hs.bare

/-- **A copy stays a copy under writes to other maps.** -/
theorem run (hs : CallShares h c o) {ws : List Heap.Write} (hc : ∀ w ∈ ws, ¬c.Holds w.addr)
    (ho : ∀ w ∈ ws, ¬o.Holds w.addr) : CallShares (h.run ws) c o where
  allocated := ⟨hs.allocated.1.run ws, hs.allocated.2.run ws⟩
  allocated_src := ⟨hs.allocated_src.1.run ws, hs.allocated_src.2.run ws⟩
  arguments := by
    rw [Heap.entries_run fun w hw he => hc w hw (.inl he),
      Heap.entries_run fun w hw he => ho w hw (.inl he), hs.arguments]
  metadata := by
    rw [Heap.entries_run fun w hw he => hc w hw (.inr he),
      Heap.entries_run fun w hw he => ho w hw (.inr he), hs.metadata]
  bare := hs.bare

/-- **A copy reads as its source.** -/
theorem readCall (hs : CallShares h c o) (n : Nat) : h.readCall n c = h.readCall n o := by
  have hb : ∀ d : HToolCall, h.readCall n d = (h.readMap n d.Arguments).bind fun args =>
      (h.read n d.bare.Output).bind fun out => (h.readMap n d.Metadata).map fun md =>
        ⟨d.bare.ID, d.bare.Name, args, out, d.bare.Error, md, d.bare.Timestamp⟩ := fun _ => rfl
  simp only [hb, Heap.readMap]
  rw [hs.arguments, hs.metadata, hs.bare]

end CallShares

theorem HToolCall.allocated_of_readCall {h : Heap} {n : Nat} {c : HToolCall} {y : ToolCall}
    (hy : h.readCall n c = some y) : HToolCall.Allocated h c := by
  simp only [Heap.readCall, Option.bind_eq_some, Option.map_eq_some'] at hy
  obtain ⟨_, hargs, _, -, _, hmd, -⟩ := hy
  exact ⟨Heap.has_of_readMap hargs, Heap.has_of_readMap hmd⟩

theorem HMessage.allocated_of_readMessages {h : Heap} {n : Nat} {msgs : List HMessage}
    {vs : List Message} (hvs : h.readMessages n msgs = some vs) :
    ∀ m ∈ msgs, HMessage.Allocated h m := by
  intro m hm c hc
  obtain ⟨v, hv⟩ := Heap.exists_of_mapM_eq_some hvs m hm
  simp only [Heap.readMessage, Option.map_eq_some'] at hv
  obtain ⟨calls, hcalls, -⟩ := hv
  obtain ⟨y, hy⟩ := Heap.exists_of_mapM_eq_some hcalls c hc
  exact HToolCall.allocated_of_readCall hy

namespace MessageShares

variable {h : Heap} {c o : HMessage}

theorem append (hs : MessageShares h c o) (t : Heap) : MessageShares (h ++ t) c o :=
  ⟨hs.toolCalls.imp fun _ _ hs => hs.append t, hs.bare⟩

theorem run (hs : MessageShares h c o) {ws : List Heap.Write} (hc : ∀ w ∈ ws, ¬c.Holds w.addr)
    (ho : ∀ w ∈ ws, ¬o.Holds w.addr) : MessageShares (h.run ws) c o :=
  ⟨forall₂_imp_of_mem (fun _ _ hd he hs => hs.run hd he) hs.toolCalls
    (fun d hd w hw hh => hc w hw ⟨d, hd, hh⟩) (fun d hd w hw hh => ho w hw ⟨d, hd, hh⟩), hs.bare⟩

theorem readMessage (hs : MessageShares h c o) (n : Nat) :
    h.readMessage n c = h.readMessage n o := by
  have hb : ∀ d : HMessage, h.readMessage n d = (d.ToolCalls.mapM (h.readCall n)).map fun calls =>
      ⟨{ d with ToolCalls := [] }.ID, { d with ToolCalls := [] }.Role,
        { d with ToolCalls := [] }.Content, calls, { d with ToolCalls := [] }.Timestamp⟩ :=
    fun _ => rfl
  rw [hb, hb, Heap.mapM_eq_of_forall₂ (hs.toolCalls.imp fun _ _ hs => hs.readCall n), hs.bare]

end MessageShares

/-! ## What the copies do -/

/-- **What `cloneMap` does**: it only allocates, and gives a map that is nil
or in the heap and holds the entries of its source. -/
theorem cloneMap_spec {h : Heap} {src : Option Nat} (hsrc : h.Has src) :
    ∃ t, (cloneMap h src).1 = h ++ t ∧ (cloneMap h src).1.Has (cloneMap h src).2 ∧
      (cloneMap h src).1.entries (cloneMap h src).2 = h.entries src := by
  cases src with
  | none =>
    simp only [cloneMap, Heap.entries, Option.getD_some, List.length_nil, ↓reduceIte]
    exact ⟨[], (List.append_nil h).symm, (fun _ ha => nomatch ha), trivial⟩
  | some a =>
    have ha := hsrc a rfl
    have hm : h[a]? = some h[a] := List.getElem?_eq_getElem ha
    simp only [cloneMap, Heap.entries, hm, Option.getD_some]
    split
    · rename_i hlen
      exact ⟨[], (List.append_nil h).symm, (fun _ ha => nomatch ha),
        by rw [List.eq_nil_of_length_eq_zero hlen]⟩
    · refine ⟨[h[a]], rfl, fun b hb => ?_, List.getElem?_concat_length _ _⟩
      obtain rfl := Option.some.inj hb
      simp

theorem ite_cloneMap (h : Heap) (x : Option Nat) :
    (if x ≠ none then cloneMap h x else (h, x)) = cloneMap h x := by
  cases x <;> simp [cloneMap, Heap.entries]

/-- **What `cloneToolCall` does**: it only allocates, and gives a copy one
level deep. -/
theorem cloneToolCall_copies {h : Heap} {c : HToolCall} (hc : HToolCall.Allocated h c) :
    ∃ t, (cloneToolCall h c).1 = h ++ t ∧
      CallShares (cloneToolCall h c).1 (cloneToolCall h c).2 c := by
  simp only [cloneToolCall, ite_cloneMap]
  obtain ⟨t₁, h₁, has₁, he₁⟩ := cloneMap_spec hc.1
  generalize cloneMap h c.Arguments = r₁ at h₁ has₁ he₁ ⊢
  obtain ⟨_, a₁⟩ := r₁
  dsimp only at h₁ has₁ he₁ ⊢
  subst h₁
  obtain ⟨t₂, h₂, has₂, he₂⟩ := cloneMap_spec (hc.2.append t₁)
  generalize cloneMap (h ++ t₁) c.Metadata = r₂ at h₂ has₂ he₂ ⊢
  obtain ⟨_, a₂⟩ := r₂
  dsimp only at h₂ has₂ he₂ ⊢
  subst h₂
  refine ⟨t₁ ++ t₂, List.append_assoc .., ?_⟩
  exact {
    allocated := ⟨has₁.append t₂, has₂⟩
    allocated_src := ⟨(hc.1.append t₁).append t₂, (hc.2.append t₁).append t₂⟩
    arguments := by
      rw [Heap.entries_append has₁, he₁, Heap.entries_append (hc.1.append t₁),
        Heap.entries_append hc.1]
    metadata := by rw [he₂, Heap.entries_append (hc.2.append t₁)]
    bare := rfl }

section CloneEach

variable {α : Type} {clone : Heap → α → Heap × α} {Alloc : Heap → α → Prop}
  {Shares : Heap → α → α → Prop}

/-- **The loop copies each element**, when a copy only allocates and what
it shares survives allocation. -/
theorem cloneEach_copies (halloc : ∀ h x, Alloc h x → ∀ t, Alloc (h ++ t) x)
    (hshares : ∀ h c o, Shares h c o → ∀ t, Shares (h ++ t) c o)
    (hclone : ∀ h x, Alloc h x →
      ∃ t, (clone h x).1 = h ++ t ∧ Shares (clone h x).1 (clone h x).2 x) :
    ∀ {h : Heap} {xs : List α}, (∀ x ∈ xs, Alloc h x) →
      ∃ t, (cloneEach clone h xs).1 = h ++ t ∧
        List.Forall₂ (Shares (cloneEach clone h xs).1) (cloneEach clone h xs).2 xs
  | h, [], _ => ⟨[], (List.append_nil h).symm, .nil⟩
  | h, x :: xs, hxs => by
    obtain ⟨t₁, h₁, hs₁⟩ := hclone h x (hxs x (List.mem_cons_self _ _))
    have hxs' : ∀ y ∈ xs, Alloc (clone h x).1 y :=
      fun y hy => h₁ ▸ halloc h y (hxs y (List.mem_cons_of_mem _ hy)) t₁
    obtain ⟨t₂, h₂, hs₂⟩ := cloneEach_copies halloc hshares hclone hxs'
    refine ⟨t₁ ++ t₂, ?_, ?_⟩
    · show (cloneEach clone (clone h x).1 xs).1 = _
      rw [h₂, h₁, List.append_assoc]
    · exact .cons (h₂ ▸ hshares _ _ _ hs₁ t₂) hs₂

end CloneEach

theorem cloneToolCalls_copies {h : Heap} {calls : List HToolCall}
    (hc : ∀ c ∈ calls, HToolCall.Allocated h c) :
    ∃ t, (cloneToolCalls h calls).1 = h ++ t ∧
      List.Forall₂ (CallShares (cloneToolCalls h calls).1) (cloneToolCalls h calls).2 calls :=
  @cloneEach_copies _ cloneToolCall HToolCall.Allocated CallShares
    (fun _ _ hx t => hx.append t) (fun _ _ _ hs t => hs.append t)
    (fun _ _ hx => cloneToolCall_copies hx) h calls hc

theorem cloneMessage_copies {h : Heap} {msg : HMessage} (hm : HMessage.Allocated h msg) :
    ∃ t, (cloneMessage h msg).1 = h ++ t ∧
      MessageShares (cloneMessage h msg).1 (cloneMessage h msg).2 msg :=
  (cloneToolCalls_copies hm).imp fun _ h => ⟨h.1, h.2, rfl⟩

theorem cloneMessages_copies {h : Heap} {msgs : List HMessage}
    (hm : ∀ m ∈ msgs, HMessage.Allocated h m) :
    ∃ t, (cloneMessages h msgs).1 = h ++ t ∧
      List.Forall₂ (MessageShares (cloneMessages h msgs).1) (cloneMessages h msgs).2 msgs :=
  @cloneEach_copies _ cloneMessage HMessage.Allocated MessageShares
    (fun _ _ hx t => hx.append t) (fun _ _ _ hs t => hs.append t)
    (fun _ _ hx => cloneMessage_copies hx) h msgs hm

/-! ## A copy one level deep -/

/-- **A copy reads as its source.** Right after `cloneMessages`, the copy
of a transcript reads as the transcript did: the value model, in which a
copy is its source, is what the heap model reads. -/
theorem cloneMessages_read {h : Heap} {msgs : List HMessage} {n : Nat} {vs : List Message}
    (hvs : h.readMessages n msgs = some vs) :
    (cloneMessages h msgs).1.readMessages n (cloneMessages h msgs).2 = some vs := by
  obtain ⟨t, ht, hs⟩ := cloneMessages_copies (HMessage.allocated_of_readMessages hvs)
  calc (cloneMessages h msgs).1.readMessages n (cloneMessages h msgs).2
      = (cloneMessages h msgs).1.readMessages n msgs :=
        Heap.mapM_eq_of_forall₂ (hs.imp fun _ _ hs => hs.readMessage n)
    _ = some vs := ht ▸ Heap.readMessages_append t hvs

/-- A message whose tool call has the arguments `{"opts": {"verbose": false}}`:
its copy reads as it does. -/
theorem cloneMessages_read_opts :
    let h : Heap := [[("verbose", .scalar (.bool false))], [("opts", .map (some 0))]]
    let msgs : List HMessage :=
      [⟨"m1", "assistant", "", [⟨"c1", "shell", some 1, .scalar .null, "", none, ⟨0⟩⟩], ⟨0⟩⟩]
    let vs : List Message := [⟨"m1", "assistant", "",
      [⟨"c1", "shell", [("opts", .object (some [("verbose", .bool false)]))], .null, "", [], ⟨0⟩⟩],
      ⟨0⟩⟩]
    h.readMessages 2 msgs = some vs ∧
      (cloneMessages h msgs).1.readMessages 2 (cloneMessages h msgs).2 = some vs := by
  intro h msgs vs
  have hvs : h.readMessages 2 msgs = some vs := rfl
  exact ⟨hvs, cloneMessages_read hvs⟩

/-- **The copies share every nested map.** After `cloneMessages`, over any
run of writes `m[k] = v` that writes no top-level `Arguments` or
`Metadata` map of the transcript or of its copy, the two read the same:
a write to a map nested in either, or to an `Output` map, is seen through
both. -/
theorem cloneMessages_run_read {h : Heap} {msgs : List HMessage}
    (hal : ∀ m ∈ msgs, HMessage.Allocated h m) {ws : List Heap.Write}
    (hsrc : ∀ m ∈ msgs, ∀ w ∈ ws, ¬m.Holds w.addr)
    (hcopy : ∀ m ∈ (cloneMessages h msgs).2, ∀ w ∈ ws, ¬m.Holds w.addr) (n : Nat) :
    ((cloneMessages h msgs).1.run ws).readMessages n (cloneMessages h msgs).2 =
      ((cloneMessages h msgs).1.run ws).readMessages n msgs := by
  obtain ⟨_, -, hs⟩ := cloneMessages_copies hal
  have hrun : List.Forall₂ (MessageShares ((cloneMessages h msgs).1.run ws))
      (cloneMessages h msgs).2 msgs :=
    forall₂_imp_of_mem (S := MessageShares _) (fun _ _ hc ho hm => hm.run hc ho) hs hcopy hsrc
  exact Heap.mapM_eq_of_forall₂ (hrun.imp fun _ _ hm => hm.readMessage n)

/-- The same message, copied, and then `opts["verbose"] = true` through the
map both hold: the copy reads the new value. -/
theorem cloneMessages_run_read_opts :
    let h : Heap := [[("verbose", .scalar (.bool false))], [("opts", .map (some 0))]]
    let msgs : List HMessage :=
      [⟨"m1", "assistant", "", [⟨"c1", "shell", some 1, .scalar .null, "", none, ⟨0⟩⟩], ⟨0⟩⟩]
    let ws : List Heap.Write := [⟨0, "verbose", .scalar (.bool true)⟩]
    (∀ m ∈ msgs, HMessage.Allocated h m) ∧ (∀ m ∈ msgs, ∀ w ∈ ws, ¬m.Holds w.addr) ∧
      (∀ m ∈ (cloneMessages h msgs).2, ∀ w ∈ ws, ¬m.Holds w.addr) ∧
      ((cloneMessages h msgs).1.run ws).readMessages 2 (cloneMessages h msgs).2 =
        ((cloneMessages h msgs).1.run ws).readMessages 2 msgs ∧
      ((cloneMessages h msgs).1.run ws).readMessages 2 (cloneMessages h msgs).2 =
        some [⟨"m1", "assistant", "", [⟨"c1", "shell",
          [("opts", .object (some [("verbose", .bool true)]))], .null, "", [], ⟨0⟩⟩], ⟨0⟩⟩] := by
  intro h msgs ws
  have hal : ∀ m ∈ msgs, HMessage.Allocated h m := by
    simp [msgs, h, HMessage.Allocated, HToolCall.Allocated, Heap.Has]
  have hsrc : ∀ m ∈ msgs, ∀ w ∈ ws, ¬m.Holds w.addr := by
    simp [msgs, ws, HMessage.Holds, HToolCall.Holds]
  have hcopy : ∀ m ∈ (cloneMessages h msgs).2, ∀ w ∈ ws, ¬m.Holds w.addr := by
    simp [cloneMessages, cloneEach, cloneMessage, cloneToolCalls, cloneToolCall, cloneMap,
      Heap.entries, msgs, h, ws, HMessage.Holds, HToolCall.Holds]
  exact ⟨hal, hsrc, hcopy, cloneMessages_run_read hal hsrc hcopy 2, rfl⟩

end Session
