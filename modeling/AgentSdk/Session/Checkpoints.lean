import AgentSdk.Session.World

/-!
# Checkpoints are the journal

A session's checkpoint map is never written except by its own successful
`Checkpoint`, and a forked session starts with a copy of its parent's. So at
every point of every run, the map of an open session is the journal of its
lineage read latest first: the snapshot stored under a name is the
transcript at the latest checkpoint taken under that trimmed name, by the
session itself or, failing one, by its ancestors before the forks that led
to it. `Resume` restores exactly that transcript.
-/

namespace Session

open GoString

/-- **The snapshot a journal holds under a name**: the latest one recorded. -/
def journalLookup (j : List (String × List Message)) (k : String) : Option (List Message) :=
  (j.find? (·.1 == k)).map (·.2)

@[simp] theorem journalLookup_nil (k : String) : journalLookup [] k = none := rfl

theorem journalLookup_cons (k k' : String) (ms : List Message) (j : List (String × List Message)) :
    journalLookup ((k', ms) :: j) k = if k' = k then some ms else journalLookup j k := by
  by_cases h : k' = k <;> simp [journalLookup, List.find?_cons, h]

/-- **An open session's checkpoints are its journal.** -/
def Node.JournalSound (n : Node) : Prop :=
  n.session.closed = false → ∀ k, n.session.checkpoints k = journalLookup n.journal k

namespace Node

/-- A call keeps the checkpoints and the journal in step. -/
theorem invoke_journalSound {n : Node} (m : Method) (hn : n.JournalSound) :
    (n.invoke m).2.JournalSound := by
  refine invoke_preserves m hn fun v s' hr hc k => ?_
  have hok := MemorySession.invoke_ok hr
  cases m with
  | append msg now => obtain ⟨h0, hs⟩ := hok; subst hs; exact hn h0 k
  | list _ => subst hok; exact hn hc k
  | checkpoint name =>
    obtain ⟨h0, hs⟩ := hok
    subst hs
    simp only [record, journalLookup_cons, Function.update_apply]
    by_cases hk : k = trimSpace name
    · simp [hk]
    · simp [hk, Ne.symm hk, hn h0 k]
  | resume name => obtain ⟨h0, _, _, hs⟩ := hok; subst hs; exact hn h0 k
  | fork _ => obtain ⟨hs, -⟩ := hok; subst hs; exact hn hc k
  | close => subst hok; split_ifs at hc with h; simp_all

/-- A forked session inherits the checkpoints with the journal. -/
theorem child_journalSound {n : Node} {m : Method} {c s : MemorySession}
    (hn : n.JournalSound) (hr : (n.invoke m).1 = .ok (.session c) s) :
    (n.child c).JournalSound := by
  have hr' : n.session.invoke m = .ok (.session c) s := hr
  obtain ⟨id, rfl⟩ := MemorySession.invoke_returns_session hr'
  obtain ⟨-, hc, hv⟩ := MemorySession.invoke_ok hr'
  cases hv
  exact fun _ => hn hc

end Node

/-- **`Resume` restores the latest checkpoint of the lineage.** In every run,
the checkpoints of every open session are what its journal records: under
each trimmed name, the transcript at the latest successful `Checkpoint` of
that name taken by the session since it was forked, or else by its ancestors
before the forks. No later `Append`, `Checkpoint` under another name,
`Resume` or `Fork` changes a stored snapshot. So whenever `Resume(name)`
succeeds, the transcript after it is that snapshot. -/
theorem World.resume_restores_latest_checkpoint (ops : List Op) :
    ∀ n ∈ World.run [] ops,
      (n.session.closed = false → ∀ k, n.session.checkpoints k = journalLookup n.journal k) ∧
      ∀ name u s', n.session.resume name = .ok u s' →
        journalLookup n.journal (trimSpace name) = some s'.messages := by
  intro n hn
  have hsound : n.JournalSound :=
    World.run_invariant Node.JournalSound
      (fun _ s hs _ _ => by
        unfold newMemorySession at hs; dsimp only at hs; split_ifs at hs; cases hs; rfl)
      (fun _ m h => Node.invoke_journalSound m h)
      (fun _ _ _ _ h hr => Node.child_journalSound h hr)
      [] (by simp) ops n hn
  refine ⟨hsound, fun name u s' hr => ?_⟩
  obtain ⟨hc, snap, hsnap, rfl⟩ := MemorySession.resume_ok hr
  rw [← hsound hc, hsnap]

/-- A checkpoint under a padded name, then an append: the session's journal
holds the empty transcript under the trimmed name, the session has moved on
by one message, and `Resume` under the padded name succeeds and brings back
that snapshot. -/
theorem World.resume_restores_padded_checkpoint :
    let ops := [Op.new "chat", .call 0 (.checkpoint " v1 "),
      .call 0 (.append ⟨"", "user", "hi", [], ⟨1⟩⟩ ⟨1⟩)]
    ∃ n ∈ World.run [] ops, n.journal = [("v1", [])] ∧ n.session.messages.length = 1 ∧
      ∃ u s', n.session.resume " v1 " = .ok u s' ∧ s'.messages = [] ∧
        journalLookup n.journal (trimSpace " v1 ") = some s'.messages := by
  intro ops
  have hn : 0 < (World.run [] ops).length := by decide
  refine ⟨_, List.getElem_mem hn, rfl, rfl, (), _, rfl, rfl, ?_⟩
  exact (World.resume_restores_latest_checkpoint ops _ (List.getElem_mem hn)).2 _ _ _ rfl

end Session
