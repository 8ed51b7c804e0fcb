import AgentSdk.Session.World

/-!
# Message ids

`Append` names an anonymous message `<id>-<seq>` with `seq` printed by
`%06d`. The printed number has no `-`, so the last `-` of such a name splits
it back into the session id and the number: the naming is injective
(`idOf_inj`), and two ids `Append` issues can only clash if a session issues
the same number twice under the same id.

Within one session the counter only grows, and `Resume` only brings back
transcripts whose numbers are at most the counter. The counter is reset by
`Fork` alone, to the length of the transcript, which can be smaller than a
number the transcript already holds. A fork under a new id never meets those
numbers under its own id. A fork under the id of the session or of one of
its ancestors can, and then `Append` issues an id the transcript already has
(`messageIds_duplicate`).
-/

namespace Session

open GoString

/-- The id `Append` issues in session `sid` at counter value `k`. -/
def idOf (sid : String) (k : Nat) : String := sid ++ "-" ++ sprintfD06 k

theorem messageID_eq_idOf (sid : String) (seq : UInt64) :
    messageID sid seq = idOf sid seq.toNat := rfl

/-- Cancel a separator that occurs in neither left part. -/
theorem append_cons_cancel {α : Type} {c : α} :
    ∀ {a a' b b' : List α}, c ∉ a → c ∉ a' → a ++ c :: b = a' ++ c :: b' →
      a = a' ∧ b = b'
  | [], [], _, _, _, _, h => ⟨rfl, by simpa using h⟩
  | [], x :: _, _, _, _, ha', h => by
    simp only [List.nil_append, List.cons_append, List.cons.injEq] at h
    exact absurd (h.1 ▸ List.mem_cons_self x _) ha'
  | x :: _, [], _, _, ha, _, h => by
    simp only [List.nil_append, List.cons_append, List.cons.injEq] at h
    exact absurd (h.1 ▸ List.mem_cons_self x _) ha
  | x :: a, y :: a', _, _, ha, ha', h => by
    simp only [List.cons_append, List.cons.injEq] at h
    obtain ⟨rfl, h⟩ := h
    obtain ⟨rfl, rfl⟩ :=
      append_cons_cancel (List.not_mem_of_not_mem_cons ha) (List.not_mem_of_not_mem_cons ha') h
    exact ⟨rfl, rfl⟩

theorem dash_not_mem_sprintfD06 (k : Nat) : '-' ∉ (sprintfD06 k).data :=
  fun h => absurd (isDigit_of_mem_sprintfD06 h) (by decide)

/-- **The naming is injective**: the id and the number are read back from
the last `-`. -/
theorem idOf_inj {z z' : String} {k k' : Nat} (h : idOf z k = idOf z' k') : z = z' ∧ k = k' := by
  have hd := congrArg (fun s => s.data.reverse) h
  simp only [idOf, String.append, List.reverse_append] at hd
  have h1 : '-' ∉ (sprintfD06 k).data.reverse := by simpa using dash_not_mem_sprintfD06 k
  have h2 : '-' ∉ (sprintfD06 k').data.reverse := by simpa using dash_not_mem_sprintfD06 k'
  obtain ⟨hk, hz⟩ := append_cons_cancel h1 h2 (by simpa using hd)
  exact ⟨String.ext (List.reverse_injective hz),
    sprintfD06_injective (String.ext (List.reverse_injective hk))⟩

/-! ## The invariant -/

/-- **`m` carries an id issued in the lineage**; if under the session's own
id `sid`, with a number at most `bound`. -/
def Issued (lineage : List String) (sid : String) (bound : Nat) (m : Message) : Prop :=
  ∃ z ∈ lineage, ∃ k, m.ID = idOf z k ∧ (z = sid → k ≤ bound)

/-- **A sound transcript**: distinct ids, all issued in the lineage, and no
longer than the number `A` of appends made so far. -/
def TranscriptOk (lineage : List String) (sid : String) (bound A : Nat) (ms : List Message) :
    Prop :=
  (ms.map (·.ID)).Nodup ∧ ms.length ≤ A ∧ ∀ m ∈ ms, Issued lineage sid bound m

/-- A property of the transcript and of every snapshot stored. -/
def MemorySession.AllTranscripts (s : MemorySession) (P : List Message → Prop) : Prop :=
  P s.messages ∧ ∀ k snap, s.checkpoints k = some snap → P snap

/-- **The id invariant** of a session, once `A` appends have been made in
the run: its id is in its lineage, its counter is at most `A`, and its
transcript and snapshots are sound for that counter. -/
def Node.IdsFresh (A : Nat) (n : Node) : Prop :=
  n.session.id ∈ n.lineage ∧ n.session.seq.toNat ≤ A ∧
    n.session.AllTranscripts (TranscriptOk n.lineage n.session.id n.session.seq.toNat A)

theorem TranscriptOk.nil (lineage : List String) (sid : String) (bound A : Nat) :
    TranscriptOk lineage sid bound A [] := by simp [TranscriptOk]

theorem TranscriptOk.mono {lineage : List String} {sid : String} {bound bound' A A' : Nat}
    {ms : List Message} (hb : bound ≤ bound') (hA : A ≤ A')
    (h : TranscriptOk lineage sid bound A ms) : TranscriptOk lineage sid bound' A' ms := by
  obtain ⟨hnd, hlen, hiss⟩ := h
  refine ⟨hnd, hlen.trans hA, fun m hm => ?_⟩
  obtain ⟨z, hz, k, hid, hk⟩ := hiss m hm
  exact ⟨z, hz, k, hid, fun h => (hk h).trans hb⟩

theorem Node.IdsFresh.mono {A A' : Nat} {n : Node} (hA : A ≤ A') (h : n.IdsFresh A) :
    n.IdsFresh A' :=
  ⟨h.1, h.2.1.trans hA, h.2.2.1.mono le_rfl hA,
    fun k snap hs => (h.2.2.2 k snap hs).mono le_rfl hA⟩

/-- Checkpoints, resumes, lists, forks and closes move transcripts around
without making new ones, and never change the id, the counter or the
lineage. -/
theorem Node.invoke_idsFresh {A : Nat} {n : Node} {m : Method}
    (hm : ∀ msg now, m ≠ .append msg now) (h : n.IdsFresh A) : (n.invoke m).2.IdsFresh A := by
  refine Node.invoke_preserves m h fun v s' hr => ?_
  obtain ⟨hid, hseq, hmsgs, hsnaps⟩ := h
  have hok := MemorySession.invoke_ok hr
  cases m with
  | append msg now => exact absurd rfl (hm msg now)
  | list _ => subst hok; exact ⟨hid, hseq, hmsgs, hsnaps⟩
  | checkpoint name =>
    obtain ⟨-, hs⟩ := hok
    subst hs
    refine ⟨hid, hseq, hmsgs, fun k snap hk => ?_⟩
    simp only [Function.update_apply] at hk ⊢
    split_ifs at hk
    · cases hk; exact hmsgs
    · exact hsnaps k snap hk
  | resume name =>
    obtain ⟨-, snap, hsnap, hs⟩ := hok
    subst hs
    exact ⟨hid, hseq, hsnaps _ snap hsnap, hsnaps⟩
  | fork _ => obtain ⟨hs, -⟩ := hok; subst hs; exact ⟨hid, hseq, hmsgs, hsnaps⟩
  | close =>
    subst hok
    split_ifs
    · exact ⟨hid, hseq, hmsgs, hsnaps⟩
    · exact ⟨hid, hseq, TranscriptOk.nil _ _ _ _, fun _ _ h => by simp at h⟩

/-- The counter does not wrap while fewer than `2^64` appends are made. -/
theorem toNat_seq_succ {seq : UInt64} {A : Nat} (hseq : seq.toNat ≤ A) (hA : A + 1 < 2 ^ 64) :
    (seq + 1).toNat = seq.toNat + 1 := by
  have h : (seq + 1).toNat = (seq.toNat + 1) % 2 ^ 64 := rfl
  rw [h]
  exact Nat.mod_eq_of_lt (by omega)

/-- **An anonymous `Append` issues a fresh id**: its number is above every
number the transcript holds under the session's id, so by `idOf_inj` it is
new; the counter moves to that number. -/
theorem Node.append_idsFresh {A : Nat} {n : Node} {msg : Message} {now : Time}
    (hid : msg.ID = "") (hA : A + 1 < 2 ^ 64) (h : n.IdsFresh A) :
    (n.invoke (.append msg now)).2.IdsFresh (A + 1) := by
  refine Node.invoke_preserves _ (h.mono (Nat.le_succ A)) fun v s' hr => ?_
  obtain ⟨-, hs⟩ := MemorySession.invoke_ok hr
  subst hs
  obtain ⟨hidl, hseq, ⟨hnd, hlen, hiss⟩, hsnaps⟩ := h
  have hsucc := toNat_seq_succ hseq hA
  have hnew : (MemorySession.stamped n.session.id (n.session.seq + 1) msg now).ID =
      idOf n.session.id (n.session.seq.toNat + 1) := by
    simp [MemorySession.stamped, hid, messageID_eq_idOf, hsucc]
  have hfresh :
      ∀ m ∈ n.session.messages, m.ID ≠ idOf n.session.id (n.session.seq.toNat + 1) := by
    intro m hm heq
    obtain ⟨z, -, k, hk, hb⟩ := hiss m hm
    obtain ⟨rfl, rfl⟩ := idOf_inj (hk.symm.trans heq)
    exact absurd (hb rfl) (by omega)
  refine ⟨hidl, by simp only; omega, ⟨?_, by simp; omega, ?_⟩,
    fun k snap hk => (hsnaps k snap hk).mono (by simp only; omega) (by omega)⟩
  · simp only [List.map_append, List.map_singleton, hnew]
    exact List.nodup_append.mpr ⟨hnd, List.nodup_singleton _, by
      simpa [List.disjoint_singleton] using fun m hm => hfresh m hm⟩
  · simp only [List.mem_append, List.mem_singleton]
    rintro m (hm | rfl)
    · exact (hiss m hm).imp fun z ⟨hz, k, hk, hb⟩ =>
        ⟨hz, k, hk, fun h => by have := hb h; omega⟩
    · exact ⟨n.session.id, hidl, _, hnew, fun _ => by simp only [hsucc]; rfl⟩

/-- **A fork under a new id starts sound**: the numbers it inherits are all
under ids of its parent's lineage, none of which is its own. -/
theorem Node.child_idsFresh {A : Nat} {n : Node} {id : String} {c s : MemorySession}
    (hr : (n.invoke (.fork id)).1 = .ok (.session c) s) (hfresh : trimSpace id ∉ n.lineage)
    (h : n.IdsFresh A) : (n.child c).IdsFresh A := by
  have hr' : n.session.invoke (.fork id) = .ok (.session c) s := hr
  obtain ⟨-, -, hv⟩ := MemorySession.invoke_ok hr'
  cases hv
  obtain ⟨-, -, hmsgs, hsnaps⟩ := h
  have lift : ∀ ms, TranscriptOk n.lineage n.session.id n.session.seq.toNat A ms →
      TranscriptOk (trimSpace id :: n.lineage) (trimSpace id)
        (UInt64.ofNat n.session.messages.length).toNat A ms := by
    rintro ms ⟨hnd, hlen, hiss⟩
    refine ⟨hnd, hlen, fun m hm => ?_⟩
    obtain ⟨z, hz, k, hk, -⟩ := hiss m hm
    exact ⟨z, List.mem_cons_of_mem _ hz, k, hk, fun hzc => absurd (hzc ▸ hz) hfresh⟩
  have hseq : (UInt64.ofNat n.session.messages.length).toNat ≤ A :=
    (Nat.mod_le _ _).trans hmsgs.2.1
  exact ⟨List.mem_cons_self _ _, hseq, lift _ hmsgs, fun k snap hk => lift _ (hsnaps k snap hk)⟩

/-- A new session is sound. -/
theorem Node.root_idsFresh {A : Nat} {name : String} {s : MemorySession}
    (hs : newMemorySession name = .ok s) : (⟨s, [s.id], []⟩ : Node).IdsFresh A := by
  unfold newMemorySession at hs
  dsimp only at hs
  split_ifs at hs
  cases hs
  exact ⟨List.mem_singleton_self _, Nat.zero_le _, TranscriptOk.nil _ _ _ _,
    fun _ _ h => by simp at h⟩

/-! ## Runs -/

/-- `1` for an `Append`, `0` for any other step. -/
def Op.appends : Op → Nat
  | .call _ (.append _ _) => 1
  | _ => 0

/-- Whether a step is an `Append` of a message with no id, or no `Append`. -/
def Op.anonymous : Op → Bool
  | .call _ (.append msg _) => msg.ID == ""
  | _ => true

/-- Whether a step is a `Fork` under an id outside the forking session's
lineage, or no `Fork`. -/
def World.freshFork (w : World) : Op → Bool
  | .call k (.fork id) =>
    match w[k]? with
    | some n => !n.lineage.contains (trimSpace id)
    | none => true
  | _ => true

/-- Whether every `Fork` of a run is under a new id when it happens. -/
def World.forksFresh : World → List Op → Bool
  | _, [] => true
  | w, op :: ops => World.freshFork w op && World.forksFresh (w.step op).1 ops

theorem World.step_idsFresh {w : World} {op : Op} {A : Nat} (hw : ∀ n ∈ w, n.IdsFresh A)
    (hfresh : World.freshFork w op = true) (hanon : op.anonymous = true)
    (hA : A + op.appends < 2 ^ 64) : ∀ n ∈ (w.step op).1, n.IdsFresh (A + op.appends) := by
  intro n' h
  rcases World.mem_step h with h | ⟨k, n, m, hk, rfl, rfl⟩ |
      ⟨k, n, m, c, s, hk, rfl, hr, rfl⟩ |
      ⟨name, s, rfl, hs, rfl⟩
  · exact (hw n' h).mono (Nat.le_add_right _ _)
  · have hn := hw n (List.getElem?_mem hk)
    cases m with
    | append msg now => exact Node.append_idsFresh (by simpa [Op.anonymous] using hanon) hA hn
    | list _ => exact Node.invoke_idsFresh (by simp) hn
    | checkpoint _ => exact Node.invoke_idsFresh (by simp) hn
    | resume _ => exact Node.invoke_idsFresh (by simp) hn
    | fork _ => exact Node.invoke_idsFresh (by simp) hn
    | close => exact Node.invoke_idsFresh (by simp) hn
  · obtain ⟨id, rfl⟩ :=
      MemorySession.invoke_returns_session (show n.session.invoke m = _ from hr)
    exact Node.child_idsFresh hr (by simpa [World.freshFork, hk] using hfresh)
      (hw n (List.getElem?_mem hk))
  · exact Node.root_idsFresh hs

theorem World.run_idsFresh (ops : List Op) :
    ∀ (w : World) (A : Nat), (∀ n ∈ w, n.IdsFresh A) → World.forksFresh w ops = true →
      ops.all Op.anonymous = true → A + (ops.map Op.appends).sum < 2 ^ 64 →
      ∀ n ∈ w.run ops, n.IdsFresh (A + (ops.map Op.appends).sum) := by
  induction ops with
  | nil => intro w A hw _ _ _; simpa using hw
  | cons op ops ih =>
    intro w A hw hfresh hanon hA
    simp only [World.forksFresh, Bool.and_eq_true, List.all_cons, List.map_cons,
      List.sum_cons] at hfresh hanon hA
    rw [World.run_cons, List.map_cons, List.sum_cons, ← Nat.add_assoc]
    exact ih _ _ (World.step_idsFresh hw hfresh.1 hanon.1 (by omega)) hfresh.2 hanon.2 (by omega)

/-- **Message ids are distinct when forks take new ids.** In every run that
appends fewer than `2^64` messages, all without an id, and in which no
`Fork` reuses the id of the forking session or of one of its ancestors,
every session's transcript carries pairwise distinct ids. -/
theorem World.messageIds_nodup (ops : List Op) (hfresh : World.forksFresh [] ops = true)
    (hanon : ops.all Op.anonymous = true) (hcount : (ops.map Op.appends).sum < 2 ^ 64) :
    ∀ n ∈ World.run [] ops, (n.session.messages.map (·.ID)).Nodup := fun n hn =>
  (World.run_idsFresh ops [] 0 (by simp) hfresh hanon (by omega) n hn).2.2.1.1

/-- A message with no id, as a caller hands it to `Append`. -/
def anonymousMessage : Message := ⟨"", "user", "hi", [], ⟨0⟩⟩

/-- Two appends around a fork under a new id. -/
theorem World.messageIds_nodup_forked :
    let ops := [.new "chat", .call 0 (.append anonymousMessage ⟨1⟩), .call 0 (.fork "branch"),
      .call 1 (.append anonymousMessage ⟨2⟩)]
    World.forksFresh [] ops = true ∧ ops.all Op.anonymous = true ∧
      (ops.map Op.appends).sum < 2 ^ 64 ∧
      ∀ n ∈ World.run [] ops, (n.session.messages.map (·.ID)).Nodup :=
  ⟨rfl, rfl, by decide, World.messageIds_nodup _ rfl rfl (by decide)⟩

/-- **A fork under the session's own id re-issues an id.** Checkpoint the empty
transcript, append, resume it, append again (id number 2, transcript length
1), then fork under the same id: the child's counter restarts at 1 and its
first `Append` issues number 2 again. -/
def duplicateRun : List Op :=
  [.new "chat", .call 0 (.checkpoint "empty"), .call 0 (.append anonymousMessage ⟨1⟩),
    .call 0 (.resume "empty"), .call 0 (.append anonymousMessage ⟨2⟩), .call 0 (.fork "chat"),
    .call 1 (.append anonymousMessage ⟨3⟩)]

theorem World.messageIds_duplicate :
    duplicateRun.all Op.anonymous = true ∧ (duplicateRun.map Op.appends).sum < 2 ^ 64 ∧
      World.forksFresh [] duplicateRun = false ∧
      ∃ n ∈ World.run [] duplicateRun, ¬(n.session.messages.map (·.ID)).Nodup := by
  have h : ((World.run [] duplicateRun)[1]?).map (fun n => n.session.messages.map (·.ID)) =
      some [idOf "chat" 2, idOf "chat" 2] := rfl
  refine ⟨rfl, by decide, rfl, ?_⟩
  cases h1 : (World.run [] duplicateRun)[1]? with
  | none => simp [h1] at h
  | some n =>
    simp only [h1, Option.map_some', Option.some.injEq] at h
    exact ⟨n, List.getElem?_mem h1, by rw [h]; simp⟩

end Session
