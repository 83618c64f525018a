import Satelle.QueueRevisions

/-! The news of a removal. It goes to the requests whose position has changed, and to no
others: they are those from the first position that was vacated on. -/
namespace Satelle.QueueNotices
open Satelle.Core Lib Host QueueChanges QueueEntries QueueHistory QueueRuns QueueMoves
open QueueRevisions StoreRefinement

/-- The calls that take requests out of the queue. -/
def IsRemoval : QueueCall → Prop
  | .expire _ | .cancel _ _ _ | .admitted _ _ _ _ | .failed _ _ _ | .credentialFailed _ _ _ _ => True
  | .enqueue _ _ | .advance _ _ _ => False

theorem removal_removes (removal : IsRemoval call)
    (ran : serveQueue state call = (.ok reply, after)) :
    ∃ gone, Removes state.queue after.queue gone := by
  cases (served_of ran).done with
  | enqueued | advanced => cases removal
  | expired withdrew | credentialFailed withdrew =>
    obtain ⟨updated, _, _, _, leaves⟩ := withdrew
    exact ⟨_, updateQueued_removes updated leaves⟩
  | unknown | kept => exact ⟨fun _ => false, fun _ member _ => member, by simp, by simp⟩
  | cancelled _ _ updated | admitted updated | failed updated =>
    exact ⟨_, updateQueued_removes updated fun _ => rfl⟩

theorem advanceRecords_ids (ran : advanceRecords queue rows = .ok (records, after)) :
    records.map (·.status.queueRequestId.text) = rows.map (·.queueRequestId) := by
  induction rows generalizing queue records with
  | nil =>
    cases ran
    rfl
  | cons row rest ih =>
    unfold advanceRecords advanceRecord at ran
    simp only [except_bind_ok] at ran
    obtain ⟨_, ⟨id, selected, _, _, _, required, made⟩, ⟨others, final⟩, ran, all⟩ := ran
    cases made
    cases all
    obtain ⟨stored, _, named, decoded⟩ := requireQueueRecord_ok required
    rw [List.map_cons, List.map_cons, ih ran, ← (decode_ok decoded).2.2, named,
      PublicId.parse_eq_some.mp (orFail_ok.mp selected)]

/-- Requests that wait, each listed once, are counted once. -/
theorem advanceRecords_once (distinct : (rows.map (·.queueRequestId)).Nodup)
    (waits : ∀ row ∈ rows, row ∈ queue.rows ∧ row.isQueued = true)
    (ran : advanceRecords queue rows = .ok (records, after)) :
    Bumps queue after fun row => if row ∈ rows then 1 else 0 := by
  obtain ⟨bumps, waiting⟩ := advanceRecords_bumps ran
  have same : ∀ row ∈ queue.rows, (if row.isQueued then
      (rows.map (·.queueRequestId)).count row.queueRequestId else 0) = if row ∈ rows then 1 else 0 := by
    intro row member
    by_cases listed : row ∈ rows
    · rw [if_pos (waits row listed).2, if_pos listed,
        List.count_eq_one_of_mem distinct (List.mem_map_of_mem listed)]
    · rw [if_neg listed, List.count_eq_zero_of_not_mem, ite_self]
      intro named
      obtain ⟨other, there, sameName⟩ := List.mem_map.mp named
      exact listed (queue.row_unique (waits other there).1 member sameName ▸ there)
  refine ⟨bumps.trans (List.map_congr_left fun row member => ?_), fun row member done => ?_⟩
  · simp only [bumped, same row member]
  · rw [← same row member, waiting row member done]

/-- The positions that requests of a desktop have left. -/
def vacated (before after : QueueTable) (leaseKey : String) : Set Nat :=
  { position | ∃ row ∈ queuedOf before leaseKey, row ∉ queuedOf after leaseKey ∧
    queuePosition before row = position }

/-- The requests of a desktop that have another position than before, in the order they
are served. -/
def movedRows (before after : QueueTable) (leaseKey : String) : List QueueRow :=
  (fifoOf after leaseKey).filter fun row => queuePosition after row ≠ queuePosition before row

/-- A request has moved if it is where the first one was that is gone, or behind it. -/
theorem removes_moved (removes : Removes queue after gone)
    (least : IsLeast (vacated queue after leaseKey) first) (queued : row ∈ queuedOf after leaseKey) :
    queuePosition after row ≠ queuePosition queue row ↔ first ≤ queuePosition after row := by
  obtain ⟨⟨other, there, left, rfl⟩, least⟩ := least
  rw [removes.remaining, List.mem_filter] at queued left
  have out : gone other = true := by simpa [there] using left
  have lease := (mem_queuedOf.mp queued.1).2.1
  have rank := rank_filter_ne (!gone ·) (fifoKey_distinct queue leaseKey) queued.1
    queued.2 there (by simp [out]) ?_
  · unfold queuePosition at least ⊢
    rw [lease, (mem_queuedOf.mp there).2.1, removes.remaining]
    exact rank
  · intro lost inside isGone
    have after := least ⟨lost, inside, by simp [removes.remaining] at isGone ⊢; simp [isGone], rfl⟩
    unfold queuePosition at after
    rwa [(mem_queuedOf.mp there).2.1, (mem_queuedOf.mp inside).2.1] at after

/-- After a removal, the follow-up from the first position that was vacated counts the
revision of each request that has moved, and of no other row, and returns the requests
that have moved with their new positions. -/
theorem position_notices_exact {state after final : QueueStore} (reachable : ReachableQueue state)
    (removal : IsRemoval call) (ran : serveQueue state call = (.ok reply, after))
    (least : IsLeast (vacated state.queue after.queue leaseKey) first)
    (told : serveQueue after (.advance leaseKey first clock) = (.ok (.advanced records), final)) :
    queuedOf after.queue leaseKey ⊆ queuedOf state.queue leaseKey ∧
    final.queue.rows = after.queue.rows.map (bumped fun row =>
      if row ∈ movedRows state.queue after.queue leaseKey then 1 else 0) ∧
    records.map (·.status.queueRequestId.text) =
      (movedRows state.queue after.queue leaseKey).map (·.queueRequestId) ∧
    ∀ record ∈ records, ∃ row ∈ movedRows state.queue after.queue leaseKey,
      record.status.queueRequestId.text = row.queueRequestId ∧
      record.status.position = some (queuePosition after.queue row) ∧
      record.status.stateRevision = row.stateRevision + 1 := by
  obtain ⟨gone, removes⟩ := removal_removes removal ran
  cases (served_of told).done with
  | advanced advanced =>
    have listed : (fifoOf after.queue leaseKey).drop (first - 1) =
        movedRows state.queue after.queue leaseKey := by
      rw [fifoOf_drop]
      refine List.filter_congr fun row member => decide_eq_decide.mpr ?_
      exact (removes_moved removes least (mem_queuedOf.mpr (mem_fifoOf.mp member))).symm
    rw [listed] at advanced
    have distinct : ((movedRows state.queue after.queue leaseKey).map (·.queueRequestId)).Nodup :=
      (fifoOf_ids after.queue leaseKey).sublist (List.filter_sublist.map _)
    have waits : ∀ row ∈ movedRows state.queue after.queue leaseKey,
        row ∈ after.queue.rows ∧ row.isQueued = true := fun row member =>
      (mem_fifoOf.mp (List.mem_filter.mp member).1).imp_right And.right
    have once := advanceRecords_once distinct waits advanced
    have ids := advanceRecords_ids advanced
    have sound := steps_sound (reachable_sound reachable) (serve_steps call (by
      cases call <;> trivial) ran)
    refine ⟨removes.remaining leaseKey ▸ List.filter_subset_self _, once.rows, ids, ?_⟩
    intro record member
    obtain ⟨row, moved, isRow⟩ := List.mem_map.mp (ids ▸ List.mem_map_of_mem member)
    obtain ⟨later, there, named, _, revision, _, position⟩ := unowned_row
      (steps_sound sound (updates_steps (advanceRecords_updates advanced)))
      (advanceRecords_read sound distinct advanced member)
    obtain rfl := final.queue.row_unique there (once.member (waits row moved).1)
      (named.trans isRow.symm)
    refine ⟨row, moved, isRow.symm, ?_, ?_⟩
    · rw [position, shownPosition, if_pos, once.placed]
      exact (waits row moved).2
    · rw [revision]
      exact congrArg (row.stateRevision + ·) (if_pos moved)

private theorem serve_commits (state : QueueStore) (call : QueueCall)
    (isOk : (serveQueue state call).1.isOk = true) :
    ∃ reply, serveQueue state call = (.ok reply, (serveQueue state call).2) := by
  cases outcome : (serveQueue state call).1 with
  | error e =>
    rw [outcome] at isOk
    cases isOk
  | ok reply => exact ⟨reply, Prod.ext outcome rfl⟩

/-- The first of two requests is cancelled. -/
theorem position_notices_exact_cancelled :
    ∃ after final records,
      serveQueue after (.advance "host:desktop" 1 fun _ => seconds 3) =
        (.ok (.advanced records), final) ∧
      records.map (·.status.queueRequestId.text) = [sampleQueueRequestId.text] := by
  obtain ⟨_, cancelled⟩ := serve_commits sampleQueue
    (.cancel "principal-test" sampleNextQueueRequestId (seconds 3)) (by decide +kernel)
  obtain ⟨_, told⟩ := serve_commits (serveQueue sampleQueue
    (.cancel "principal-test" sampleNextQueueRequestId (seconds 3))).2
    (.advance "host:desktop" 1 fun _ => seconds 3) (by decide +kernel)
  cases (served_of told).done with
  | advanced =>
    have first : 1 ∈ vacated sampleQueue.queue (serveQueue sampleQueue
        (.cancel "principal-test" sampleNextQueueRequestId (seconds 3))).2.queue "host:desktop" := by
      change ∃ row ∈ _, _
      decide +kernel
    obtain ⟨_, _, ids, _⟩ := position_notices_exact sampleQueue_reachable (by trivial) cancelled
      ⟨first, by
        rintro _ ⟨row, member, _, rfl⟩
        obtain ⟨there, _, waits⟩ := mem_queuedOf.mp member
        exact position_pos there waits⟩ told
    exact ⟨_, _, _, told, ids.trans (by decide +kernel)⟩

end Satelle.QueueNotices
