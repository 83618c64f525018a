import Satelle.QueueRuns

/-! How the requests that wait move up. When a request is withdrawn or admitted, the
rows behind it are not touched; a follow-up transaction counts their revisions. A
request whose revision stays is where it was, or the news of its move is owed. -/
namespace Satelle.QueueMoves
open Satelle.Core Lib Host QueueChanges QueueEntries QueueHistory QueueRuns

/-! ## Counting revisions -/

/-- The row with its revision counted up. -/
def bumped (count : QueueRow → Nat) (row : QueueRow) : QueueRow :=
  { row with stateRevision := row.stateRevision + count row }

/-- Only revisions of requests that wait have changed. -/
structure Bumps (queue after : QueueTable) (count : QueueRow → Nat) : Prop where
  rows : after.rows = queue.rows.map (bumped count)
  waiting : ∀ row ∈ queue.rows, row.isQueued = false → count row = 0

theorem Bumps.member (bumps : Bumps queue after count) (member : row ∈ queue.rows) :
    bumped count row ∈ after.rows :=
  bumps.rows ▸ List.mem_map_of_mem member

theorem Bumps.refl (queue : QueueTable) : Bumps queue queue (fun _ => 0) :=
  ⟨(List.map_id _).symm, fun _ _ _ => rfl⟩

theorem Bumps.trans (first : Bumps queue middle count) (second : Bumps middle after more) :
    Bumps queue after (fun row => count row + more (bumped count row)) where
  rows := by
    rw [second.rows, first.rows, List.map_map]
    refine List.map_congr_left fun row _ => ?_
    simp [bumped, Nat.add_assoc]
  waiting := by
    intro row member done
    rw [first.waiting row member done, second.waiting _ (first.member member) done]

theorem Bumps.remaining (bumps : Bumps queue after count) (leaseKey : String) :
    queuedOf after leaseKey = (queuedOf queue leaseKey).map (bumped count) := by
  rw [queuedOf, bumps.rows, List.filter_map]
  rfl

/-- Nobody moves. -/
theorem Bumps.placed (bumps : Bumps queue after count) (row : QueueRow) :
    queuePosition after (bumped count row) = queuePosition queue row := by
  rw [queuePosition, bumps.remaining, List.countP_map]
  rfl

/-- One request is counted, if it waits. -/
theorem advanceRecord_bumps (ran : advanceRecord queue row = .ok (record, after)) :
    Bumps queue after
      fun own => if own.isQueued && own.queueRequestId = row.queueRequestId then 1 else 0 := by
  unfold advanceRecord selectedId at ran
  simp only [except_bind_ok, orFail_ok] at ran
  obtain ⟨id, named, queue', updated, _, _, made⟩ := ran
  cases made
  obtain rfl := updateQueued_ok updated
  constructor
  · refine List.map_congr_left fun own _ => ?_
    rw [← PublicId.parse_eq_some.mp named, patch, bumped, QueueRow.waits]
    split <;> rfl
  · intro own _ done
    simp [done]

/-- A request that waits is counted as often as it is listed. -/
theorem advanceRecords_bumps (ran : advanceRecords queue rows = .ok (records, after)) :
    Bumps queue after fun own =>
      if own.isQueued then (rows.map (·.queueRequestId)).count own.queueRequestId else 0 := by
  induction rows generalizing queue records with
  | nil =>
    cases ran
    simpa using Bumps.refl after
  | cons row rest ih =>
    unfold advanceRecords at ran
    simp only [except_bind_ok] at ran
    obtain ⟨⟨record, middle⟩, first, ⟨others, final⟩, ran, made⟩ := ran
    cases made
    refine cast (congrArg _ (funext fun own => ?_)) ((advanceRecord_bumps first).trans (ih ran))
    change (if _ then 1 else 0) + (if own.isQueued then List.count own.queueRequestId _ else 0) = _
    cases own.isQueued with
    | false => simp
    | true =>
      rw [List.map_cons, List.count_cons, Nat.add_comm]
      simp [eq_comm (a := own.queueRequestId)]

/-- The requests from a position on. -/
theorem fifoOf_drop (queue : QueueTable) (leaseKey : String) (position : Nat) :
    (fifoOf queue leaseKey).drop (position - 1) =
      (fifoOf queue leaseKey).filter (position ≤ queuePosition queue ·) := by
  conv_rhs => rw [← List.take_append_drop (position - 1) (fifoOf queue leaseKey)]
  rw [List.filter_append, List.filter_eq_nil_iff.mpr, List.filter_eq_self.mpr, List.nil_append]
  · intro row member
    obtain ⟨index, inside, rfl⟩ := List.mem_drop_iff_getElem.mp member
    rw [queuePosition_getElem]
    exact decide_eq_true (by omega)
  · intro row member
    obtain ⟨index, inside, rfl⟩ := List.mem_take_iff_getElem.mp member
    rw [queuePosition_getElem, decide_eq_true_eq]
    omega

/-- The follow-up counts the revision of every request from a position on. -/
theorem advance_bumps (ran : advanceRecords queue ((fifoOf queue leaseKey).drop (position - 1)) =
      .ok (records, after)) :
    ∃ count, Bumps queue after count ∧ ∀ row ∈ queuedOf queue leaseKey,
      position ≤ queuePosition queue row → 0 < count row := by
  rw [fifoOf_drop] at ran
  refine ⟨_, advanceRecords_bumps ran, fun row queued reached => ?_⟩
  have waits := mem_queuedOf.mp queued
  rw [if_pos waits.2.2, List.count_pos_iff]
  exact List.mem_map_of_mem (List.mem_filter.mpr ⟨mem_fifoOf.mpr waits, decide_eq_true reached⟩)

/-! ## Removals -/

/-- The selected requests leave the queue. -/
structure Removes (queue after : QueueTable) (gone : QueueRow → Bool) : Prop where
  stays : ∀ row ∈ queue.rows, gone row = false → row ∈ after.rows
  counts : ∀ row ∈ queue.rows, gone row = true → ∃ later ∈ after.rows,
    later.queueRequestId = row.queueRequestId ∧ row.stateRevision < later.stateRevision
  remaining : ∀ leaseKey, queuedOf after leaseKey = (queuedOf queue leaseKey).filter (!gone ·)

theorem updateQueued_removes
    (ran : updateQueued queue selected change keeps = .ok after)
    (leaves : ∀ row, (change row).isQueued = false) : Removes queue after (·.waits selected) := by
  obtain rfl := updateQueued_ok ran
  constructor
  · intro row member stays
    exact List.mem_map.mpr ⟨row, member, by rw [patch, if_neg (by simp [stays])]⟩
  · intro row member goes
    refine ⟨_, List.mem_map_of_mem member, ?_⟩
    rw [patch, if_pos goes]
    exact ⟨keeps row, Nat.lt_succ_self _⟩
  · intro leaseKey
    have gone (row : QueueRow) : (decide ((change row).leaseKey = leaseKey) &&
        (change row).isQueued) = false := by
      rw [leaves, Bool.and_false]
    rw [queuedOf, Table.rows_updateWhere, Table.filter_patch_leaves gone, queuedOf,
      List.filter_filter]
    exact List.filter_congr fun row _ => Bool.and_comm _ _

/-- A request that stays keeps its position, or one that is gone was not behind
it. -/
theorem Removes.placed (removes : Removes queue after gone)
    (queued : row ∈ queuedOf queue row.leaseKey) (stays : gone row = false) :
    queuePosition after row = queuePosition queue row ∨
      ∃ other ∈ queue.rows, other.isQueued = true ∧ other.leaseKey = row.leaseKey ∧
        gone other = true ∧ queuePosition queue other ≤ queuePosition after row := by
  have ranked := rank_filter (!gone ·) (fifoKey_distinct queue row.leaseKey) queued
    (by simp [stays])
  rw [queuePosition, removes.remaining]
  rcases ranked with same | ⟨other, there, out, small⟩
  · exact .inl same
  · obtain ⟨member, lease, waits⟩ := mem_queuedOf.mp there
    refine .inr ⟨other, member, waits, lease, by simpa using out, ?_⟩
    rw [queuePosition, lease]
    exact small

/-- The news of the removals, from the first position that has changed. -/
def Covers (queue : QueueTable) (gone : QueueRow → Bool) (moved : List (String × Nat)) : Prop :=
  ∀ row ∈ queue.rows, row.isQueued = true → gone row = true →
    ∃ position ≤ queuePosition queue row, (row.leaseKey, position) ∈ moved

/-! ## Steps -/

/-- What happens to a request that waits and whose revision stays: it stays where it
is and what it is owed stays owed, or the news of its new position is owed. -/
def Shift (queue after : QueueTable) (owed owed' : List (String × Nat)) : Prop :=
  ∀ row ∈ queue.rows, ∀ later ∈ after.rows, later.queueRequestId = row.queueRequestId →
    row.isQueued = true → later.stateRevision = row.stateRevision →
    (queuePosition after later = queuePosition queue row ∧
      ∀ position, (row.leaseKey, position) ∈ owed → position ≤ queuePosition queue row →
        (row.leaseKey, position) ∈ owed') ∨
    ∃ position ≤ queuePosition after later, (row.leaseKey, position) ∈ owed'

theorem shift_same (more : owed ⊆ owed') : Shift queue queue owed owed' := by
  intro row member later there named _ _
  obtain rfl := queue.row_unique there member named
  exact .inl ⟨rfl, fun _ isOwed _ => more isOwed⟩

theorem Removes.shift (removes : Removes queue after gone) (covers : Covers queue gone moved) :
    Shift queue after owed (owed ++ moved) := by
  intro row member later there named waits same
  have stays : gone row = false := by
    by_contra goes
    obtain ⟨other, inside, name, counted⟩ := removes.counts row member (by simpa using goes)
    rw [after.row_unique inside there (name.trans named.symm)] at counted
    omega
  obtain rfl : later = row := after.row_unique there (removes.stays row member stays) named
  rcases removes.placed (mem_queuedOf.mpr ⟨member, rfl, waits⟩) stays with kept | moved
  · exact .inl ⟨kept, fun _ isOwed _ => List.mem_append_left _ isOwed⟩
  · obtain ⟨other, inside, queued, lease, out, small⟩ := moved
    obtain ⟨position, before, told⟩ := covers other inside queued out
    exact .inr ⟨position, le_trans before small, List.mem_append_right _ (lease ▸ told)⟩

/-- A request that is behind all others moves nobody. -/
theorem inserted_shift (rows : after.rows = queue.rows ++ [new])
    (last : ∀ row ∈ queuedOf queue new.leaseKey, row.fifoKey < new.fifoKey) :
    Shift queue after owed owed := by
  intro row member later there named waits _
  obtain rfl : later = row :=
    after.row_unique there (rows ▸ List.mem_append_left _ member) named
  refine .inl ⟨?_, fun _ isOwed _ => isOwed⟩
  have added : queuedOf after later.leaseKey = queuedOf queue later.leaseKey ++
      [new].filter (fun row => row.leaseKey = later.leaseKey && row.isQueued) := by
    rw [queuedOf, rows, List.filter_append]
    rfl
  rw [queuePosition, added, List.countP_append, queuePosition, Nat.add_eq_left, List.countP_eq_zero]
  intro other inside
  obtain ⟨isNew, sameDesktop⟩ := List.mem_filter.mp inside
  obtain rfl := List.mem_singleton.mp isNew
  simp only [Bool.and_eq_true, decide_eq_true_eq] at sameDesktop
  have before := last later (mem_queuedOf.mpr ⟨member, sameDesktop.1.symm, waits⟩)
  simpa using before

/-- The follow-up counts the revision of every request it tells. -/
theorem Bumps.shift (bumps : Bumps queue after count)
    (told : ∀ row ∈ queuedOf queue leaseKey, position ≤ queuePosition queue row →
      0 < count row) :
    Shift queue after owed (owed.erase (leaseKey, position)) := by
  intro row member later there named waits same
  obtain rfl : later = bumped count row :=
    after.row_unique there (bumps.member member) named
  refine .inl ⟨bumps.placed row, fun other isOwed reached => ?_⟩
  refine (List.mem_erase_of_ne fun erased => ?_).mpr isOwed
  obtain ⟨rfl, rfl⟩ := Prod.mk.inj erased
  have counted := told row (mem_queuedOf.mpr ⟨member, rfl, waits⟩) reached
  change row.stateRevision + count row = row.stateRevision at same
  omega

/-! ## Transactions -/

theorem noteChange_mem (leaseKey : String) (position : Nat) (changed : List (String × Nat)) :
    ∃ first ≤ position, (leaseKey, first) ∈ noteChange leaseKey position changed := by
  induction changed with
  | nil => exact ⟨position, le_refl _, List.mem_singleton_self _⟩
  | cons entry rest ih =>
    obtain ⟨key, first⟩ := entry
    unfold noteChange
    split
    · rename_i same
      exact ⟨min first position, min_le_right _ _, same ▸ List.mem_cons_self⟩
    · split
      · exact ⟨position, le_refl _, List.mem_cons_self⟩
      · obtain ⟨least, small, there⟩ := ih
        exact ⟨least, small, List.mem_cons_of_mem _ there⟩

theorem noteChange_kept (leaseKey : String) (position : Nat)
    (member : (key, known) ∈ changed) :
    ∃ first ≤ known, (key, first) ∈ noteChange leaseKey position changed := by
  induction changed with
  | nil => cases member
  | cons entry rest ih =>
    obtain ⟨other, first⟩ := entry
    unfold noteChange
    rcases List.mem_cons.mp member with here | later
    · obtain ⟨rfl, rfl⟩ := Prod.mk.inj here
      split
      · exact ⟨_, min_le_left _ _, List.mem_cons_self⟩
      · split
        · exact ⟨known, le_refl _, List.mem_cons_of_mem _ List.mem_cons_self⟩
        · exact ⟨known, le_refl _, List.mem_cons_self⟩
    · split
      · exact ⟨known, le_refl _, List.mem_cons_of_mem _ later⟩
      · split
        · exact ⟨known, le_refl _, List.mem_cons_of_mem _ (List.mem_cons_of_mem _ later)⟩
        · obtain ⟨least, small, there⟩ := ih later
          exact ⟨least, small, List.mem_cons_of_mem _ there⟩

/-- The news of a withdrawal reaches every position it has changed. -/
theorem changedPositions_covers (member : (record, position) ∈ records) :
    ∃ first ≤ position, (record.leaseKey, first) ∈ changedPositions records := by
  unfold changedPositions
  -- backwards over the list: the last note is the outermost
  induction records using List.reverseRecOn with
  | nil => cases member
  | append_singleton before last ih =>
    rw [List.foldl_append, List.foldl_cons, List.foldl_nil]
    rcases List.mem_append.mp member with earlier | isLast
    · obtain ⟨first, small, there⟩ := ih earlier
      obtain ⟨least, smaller, kept⟩ := noteChange_kept last.1.leaseKey last.2 there
      exact ⟨least, le_trans smaller small, kept⟩
    · obtain rfl := List.mem_singleton.mp isLast
      exact noteChange_mem _ _ _

/-- The records of a withdrawal name every request that it has taken. -/
theorem withdrew_shift (sound : Sound state.queue)
    (withdrew : Withdrew state withdrawn after) :
    Shift state.queue after.queue owed (owed ++ changedPositions withdrawn) := by
  obtain ⟨updated, old, records, moves, leaves⟩ := withdrew
  refine (updateQueued_removes updated leaves).shift fun row member waits goes => ?_
  obtain ⟨entry, encodes, decoded⟩ := decode_sound sound member
  obtain ⟨⟨id, _⟩, noted, read⟩ := (mapM_mem old).1 _ (List.mem_filter.mpr ⟨member, goes⟩)
  rw [selectedId_encodes encodes] at read
  change (requireQueueRecord state.queue entry.queueRequestId >>= _) = _ at read
  rw [require_sound sound member encodes, decoded] at read
  change (orFail .invalidStoredState (shownPosition state.queue row) >>= _) = _ at read
  rw [shownPosition, if_pos (Bool.and_eq_true_iff.mp goes).1] at read
  cases read
  have named := encodes.queueRequestId
  obtain ⟨⟨record, position⟩, there, read⟩ := (mapM_mem records).1 _ noted
  simp only [except_bind_ok] at read
  obtain ⟨_, required, made⟩ := read
  cases made
  obtain ⟨first, small, told⟩ := changedPositions_covers there
  obtain ⟨later, isThere, sameName, decoded⟩ := requireQueueRecord_ok required
  obtain ⟨next, inside, follows⟩ := step_follows (updateQueued_update updated moves).step row member
  obtain rfl := after.queue.row_unique isThere inside
    (sameName.trans (named.symm.trans follows.queueRequestId.symm))
  rw [(decode_ok decoded).1, follows.leaseKey] at told
  exact ⟨first, small, told⟩

theorem cancel_shift {state : QueueStore} (sound : Sound state.queue)
    (ran : serveQueue state (.cancel principalRef queueRequestId now) = (.ok reply, after)) :
    Shift state.queue after.queue owed (owed ++ movedUp reply) := by
  cases (served_of ran).done with
  | unknown | kept => exact shift_same (List.subset_append_left _ _)
  | @cancelled _ _ _ position stored _ _ before placed updated read =>
    obtain ⟨row, member, named, isBefore⟩ := loadQueueRecord_ok before
    obtain ⟨later, there, sameName, isStored⟩ := loadQueueRecord_ok read
    obtain ⟨entry, encodes, decoded⟩ := decode_sound sound member
    rw [decoded] at isBefore
    cases isBefore
    have lease : stored.leaseKey = row.leaseKey := by
      obtain ⟨next, inside, follows⟩ :=
        step_follows (updateQueued_update updated fun _ => .withdrawn (.inl rfl)).step row member
      rw [(decode_ok isStored).1, after.queue.row_unique there inside
        (sameName.trans (named.symm.trans follows.queueRequestId.symm)), follows.leaseKey]
    refine (updateQueued_removes updated fun _ => rfl).shift fun other inside _ goes => ?_
    have isNamed : other.queueRequestId = queueRequestId.text := by
      simpa using (Bool.and_eq_true_iff.mp goes).2
    rw [state.queue.row_unique inside member (isNamed.trans named.symm)]
    refine ⟨position, ?_, List.mem_singleton.mpr (congrArg (·, position) lease.symm)⟩
    change shownPosition state.queue row = some position at placed
    unfold shownPosition at placed
    split at placed
    · exact le_of_eq (Option.some.inj placed).symm
    · cases placed

theorem position_pos (member : row ∈ queue.rows) (waits : row.isQueued = true) :
    1 ≤ queuePosition queue row :=
  List.countP_pos_iff.mpr ⟨row, mem_queuedOf.mpr ⟨member, rfl, waits⟩, by simp⟩

/-- The worker has finished a request that was the first one of its desktop. -/
theorem terminal_shift (read : ReadFrom state.queue record row)
    {update : QueueTerminalUpdate}
    (ran : serveQueue state (update.call record.status.queueRequestId now) = (.ok reply, after)) :
    Shift state.queue after.queue owed (owed ++ record.movedUp) := by
  have removes := updateQueued_removes (finished_queue ran) fun row => by
    cases update <;> rfl
  refine removes.shift fun other there waits goes => ?_
  have isNamed : other.queueRequestId = record.status.queueRequestId.text := by
    simpa using (Bool.and_eq_true_iff.mp goes).2
  obtain rfl := state.queue.row_unique there read.member (isNamed.trans read.named.symm)
  refine ⟨1, position_pos there waits, ?_⟩
  rw [StoredQueueRecord.movedUp, read.first, read.leaseKey]
  exact List.mem_singleton_self _

end Satelle.QueueMoves
