import AgentSdk.Session.Memory

/-!
# What `List` returns

`List` walks the transcript once with a skip counter and an early `break`.
Its meaning is simpler: keep the messages the filter selects, drop the
first `Offset` of them, and keep the first `Limit` of what remains. The loop
lemma `listLoop_eq` is that reading of the loop, stated for any counter and
any partial result that respect the loop's invariant; `list_eq` instantiates
it at the loop's start.

Pagination follows: the pages of width `n` at offsets `0, n, 2n, …` are
consecutive slices of one list, so they concatenate to its prefixes and
eventually to the whole of it.
-/

namespace Session

open GoString

/-- **The messages a filter selects**: the role, when one is given after
trimming, and the time bounds, when set, compared in UTC. -/
def Filter.selects (f : Filter) (m : Message) : Bool :=
  (trimSpace f.Role == "" || m.Role == trimSpace f.Role) &&
    (f.StartTime.all fun t => !m.Timestamp.before t.utc) &&
    (f.EndTime.all fun t => !m.Timestamp.after t.utc)

/-- **The page a filter asks for**: of the selected messages, drop
`max Offset 0` and keep `Limit` of the rest when `Limit > 0`. -/
def Filter.page (f : Filter) (msgs : List Message) : List Message :=
  let rest := (msgs.filter f.selects).drop f.Offset.toNat
  if 0 < f.Limit then rest.take f.Limit.toNat else rest

/-- The part of a list a positive limit lets through once `taken` messages
are in the result; all of it when the limit is not positive. -/
def capped (limit : Int) (taken : Nat) (l : List Message) : List Message :=
  if 0 < limit then l.take (limit.toNat - taken) else l

namespace MemorySession

variable {f : Filter} {offset limit skipped : Int} {m : Message} {rest result : List Message}

/-- The loop's three `continue` tests pass exactly on the selected messages. -/
theorem listLoop_keeps (f : Filter) (m : Message) :
    (¬(trimSpace f.Role ≠ "" ∧ m.Role ≠ trimSpace f.Role) ∧
      ¬(f.StartTime.map Time.utc).any m.Timestamp.before = true ∧
      ¬(f.EndTime.map Time.utc).any m.Timestamp.after = true) ↔ f.selects m = true := by
  rcases hs : f.StartTime <;> rcases he : f.EndTime <;>
    simp [Filter.selects, hs, he, or_iff_not_imp_left, and_assoc]

/-- An unselected message is passed over. -/
theorem listLoop_cons_skip (hm : f.selects m = false) :
    listLoop (trimSpace f.Role) (f.StartTime.map Time.utc) (f.EndTime.map Time.utc)
        offset limit (m :: rest) skipped result =
      listLoop (trimSpace f.Role) (f.StartTime.map Time.utc) (f.EndTime.map Time.utc)
        offset limit rest skipped result := by
  have hnot := mt (listLoop_keeps f m).mp (by simp [hm])
  rw [listLoop]
  by_cases h1 : trimSpace f.Role ≠ "" ∧ m.Role ≠ trimSpace f.Role
  · rw [if_pos h1]
  by_cases h2 : (f.StartTime.map Time.utc).any m.Timestamp.before = true
  · rw [if_neg h1, if_pos h2]
  rw [if_neg h1, if_neg h2, if_pos (not_not.mp fun h3 => hnot ⟨h1, h2, h3⟩)]

/-- A selected message is counted against the offset, or collected. -/
theorem listLoop_cons_keep (hm : f.selects m = true) :
    listLoop (trimSpace f.Role) (f.StartTime.map Time.utc) (f.EndTime.map Time.utc)
        offset limit (m :: rest) skipped result =
      if skipped < offset then
        listLoop (trimSpace f.Role) (f.StartTime.map Time.utc) (f.EndTime.map Time.utc)
          offset limit rest (skipped + 1) result
      else if 0 < limit ∧ limit ≤ (result ++ [m]).length then result ++ [m]
      else listLoop (trimSpace f.Role) (f.StartTime.map Time.utc) (f.EndTime.map Time.utc)
          offset limit rest skipped (result ++ [m]) := by
  obtain ⟨h1, h2, h3⟩ := (listLoop_keeps f m).mpr hm
  rw [listLoop, if_neg h1, if_neg h2, if_neg h3]

/-- **The loop of `List`**, from any point where the counter has not passed
the offset and the result is still short of a positive limit: the result so
far, followed by the rest of the page. -/
theorem listLoop_eq (offset limit : Int) (msgs : List Message) :
    ∀ (skipped : Int) (result : List Message), 0 ≤ skipped → skipped ≤ offset →
      (limit ≤ 0 ∨ (result.length : Int) < limit) →
      listLoop (trimSpace f.Role) (f.StartTime.map Time.utc) (f.EndTime.map Time.utc)
          offset limit msgs skipped result =
        result ++ capped limit result.length
          ((msgs.filter f.selects).drop (offset - skipped).toNat) := by
  induction msgs with
  | nil => intro skipped result _ _ _; simp [listLoop, capped]
  | cons m rest ih =>
    intro skipped result h0 hle hlim
    cases hk : f.selects m with
    | false =>
      rw [listLoop_cons_skip hk, ih skipped result h0 hle hlim,
        List.filter_cons_of_neg (by simp [hk])]
    | true =>
      have hlen : ((result ++ [m]).length : Int) = result.length + 1 := by simp
      rw [listLoop_cons_keep hk, List.filter_cons_of_pos hk]
      split_ifs with hsk hstop
      · rw [ih (skipped + 1) result (by omega) (by omega) hlim,
          show (offset - skipped).toNat = (offset - (skipped + 1)).toNat + 1 by omega]
        rfl
      · rw [hlen] at hstop
        have hone : limit.toNat - result.length = 1 := by omega
        simp [capped, hstop.1, hone, show (offset - skipped).toNat = 0 by omega]
      · rw [hlen] at hstop
        rw [ih skipped (result ++ [m]) h0 hle (by rw [hlen]; omega),
          show (offset - skipped).toNat = 0 by omega]
        unfold capped
        split_ifs with hl
        · have : limit.toNat - result.length = (limit.toNat - (result.length + 1)) + 1 := by omega
          simp [this]
        · simp

/-- **`List` returns the page the filter asks for**, or `ErrSessionClosed`. -/
theorem list_eq (s : MemorySession) (f : Filter) :
    s.list f = if s.closed then .error .sessionClosed s else .ok (f.page s.messages) s := by
  by_cases hc : s.closed = true
  · simp [list, hc]
  · have hoff : 0 ≤ (if f.Offset < 0 then 0 else f.Offset) := by split_ifs <;> omega
    simp only [list, hc, if_false, Bool.false_eq_true]
    rw [listLoop_eq _ _ s.messages 0 [] le_rfl hoff (by simp; omega)]
    have hoff' : (if f.Offset < 0 then 0 else f.Offset).toNat = f.Offset.toNat := by
      split_ifs <;> omega
    by_cases hl : 0 < f.Limit
    · have hl' : (if f.Limit < 0 then 0 else f.Limit) = f.Limit := if_neg (by omega)
      simp [capped, Filter.page, hoff', hl', hl]
    · have hl' : ¬0 < (if f.Limit < 0 then 0 else f.Limit) := by split_ifs <;> omega
      simp [capped, Filter.page, hoff', hl', hl]

end MemorySession

/-! ## Pagination -/

/-- The selected messages do not depend on the offset and the limit. -/
@[simp] theorem Filter.selects_window (f : Filter) (o l : Int) :
    ({ f with Offset := o, Limit := l } : Filter).selects = f.selects := rfl

/-- The pages of width `n` up to the `K`-th are the first `K * n` selected
messages. -/
theorem Filter.pages_eq_take (f : Filter) (msgs : List Message) {n : Nat} (hn : 0 < n) (K : Nat) :
    (List.range K).flatMap (fun k => ({ f with Offset := k * n, Limit := n } : Filter).page msgs) =
      (msgs.filter f.selects).take (K * n) := by
  induction K with
  | zero => simp
  | succ K ih =>
    rw [List.range_succ, List.flatMap_append, ih, Nat.succ_mul, List.take_add]
    have hkn : ((K : Int) * n).toNat = K * n := by rw [← Int.natCast_mul, Int.toNat_natCast]
    simp [Filter.page, hn, hkn]

/-- **`List` against its specification, and pagination.** `List(f)` returns
the messages `f` selects, without the first `max Offset 0` of them, cut to
`Limit` when it is positive. For every width `n > 0`, the pages at offsets
`0, n, …, (K-1)n` concatenate to the first `K * n` messages of the unpaginated
result, hence to all of it once `K * n` covers it: nothing is lost or
repeated. -/
theorem MemorySession.list_eq_page_and_pages_concat (s : MemorySession) (f : Filter) :
    s.list f = (if s.closed then .error .sessionClosed s else .ok (f.page s.messages) s) ∧
    ∀ n : Nat, 0 < n → ∀ K : Nat,
      (List.range K).flatMap
          (fun k => ({ f with Offset := k * n, Limit := n } : Filter).page s.messages) =
        (({ f with Offset := 0, Limit := 0 } : Filter).page s.messages).take (K * n) ∧
      ((({ f with Offset := 0, Limit := 0 } : Filter).page s.messages).length ≤ K * n →
        (List.range K).flatMap
            (fun k => ({ f with Offset := k * n, Limit := n } : Filter).page s.messages) =
          ({ f with Offset := 0, Limit := 0 } : Filter).page s.messages) := by
  have hall : ({ f with Offset := 0, Limit := 0 } : Filter).page s.messages =
      s.messages.filter f.selects := by simp [Filter.page]
  refine ⟨MemorySession.list_eq s f, fun n hn K => ?_⟩
  rw [hall, Filter.pages_eq_take f s.messages hn K]
  exact ⟨rfl, fun hlen => List.take_of_length_le hlen⟩

/-- Two pages of width one over a two-message transcript. -/
theorem MemorySession.list_pages_two :
    let s : MemorySession := ⟨"chat", [⟨"a", "user", "", [], ⟨1⟩⟩, ⟨"b", "user", "", [], ⟨2⟩⟩],
      fun _ => none, 2, false⟩
    let f : Filter := ⟨none, none, "", 0, 0⟩
    0 < 1 ∧ (List.range 2).flatMap
        (fun k => ({ f with Offset := k * 1, Limit := 1 } : Filter).page s.messages) =
      (({ f with Offset := 0, Limit := 0 } : Filter).page s.messages).take (2 * 1) :=
  ⟨by decide, ((MemorySession.list_eq_page_and_pages_concat _ _).2 1 (by decide) 2).1⟩

end Session
