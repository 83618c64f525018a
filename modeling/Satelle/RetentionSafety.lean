import Satelle.LogHistory

/-! The read-only check of retention spares only the passes that would change nothing. -/
namespace Satelle.RetentionSafety
open Satelle.Core Lib Host LogHistory StoreRefinement

theorem pruneExpiredLogs_idle (chronicle : Chronicle db)
    (idle : logsNeedPruning db cutoff = false) : pruneExpiredLogs db cutoff = db := by
  unfold pruneExpiredLogs
  split
  · rfl
  · rename_i through found
    obtain ⟨after, within, exact⟩ := expiredThrough_spec chronicle found
    have behind : ∀ log ∈ db.logs, through < log.logCursor := by
      intro log there
      refine (exact log there).mpr (not_lt.mp fun early => ?_)
      cases idle.symm.trans ((needPruning_iff chronicle).mpr ⟨log, there, early⟩)
    -- no cursor is given out between the last expiry and this one
    have same : through = db.expiredThroughCursor := by
      by_contra moved
      obtain ⟨log, there, named⟩ := List.mem_map.mp
        ((chronicle.cursors through).mpr ⟨by omega, within⟩)
      exact absurd (behind log there) (by omega)
    rw [List.filter_eq_self.mpr (by simpa using behind), same, Nat.max_self]

theorem pruneAudit_idle (idle : auditNeedsPruning db cutoff = false) : pruneAudit db cutoff = db := by
  cases db
  simp_all [auditNeedsPruning, pruneAudit]

/-- In every reachable store: when the check finds nothing to remove, the whole pass would
have left the store as it is. -/
theorem spared_pass_changes_nothing (fresh : Fresh start) (empty : EmptyLog start)
    (later : Later codec allowed start db)
    (idle : retentionNeedsPruning codec db cutoffs observedAt = .ok false) :
    pruneExpired codec db cutoffs observedAt = .ok db := by
  unfold retentionNeedsPruning at idle
  split at idle
  · cases idle
  rename_i quiet
  simp only [Bool.or_eq_true, not_or, Bool.not_eq_true] at quiet
  rw [check_false, except_bind_ok] at idle
  obtain ⟨unexpired, records, sessionless, idle⟩ := idle
  split at idle
  · cases idle
  rename_i noRecord
  obtain rfl := not_not.mp noRecord
  rw [except_bind_ok] at idle
  obtain ⟨candidates, found, idle⟩ := idle
  rw [check_false, except_bind_ok] at idle
  obtain ⟨needed, runs, ended, idle⟩ := idle
  obtain rfl : runs = [] := by simpa [pure, Except.pure] using idle
  have tombstones : pruneExpiredAdmissionCancellations codec db observedAt = .ok db := by
    simp [pruneExpiredAdmissionCancellations, expiredAdmissionCancellations,
      (anyM_false unexpired).1, Table.deleteWhere_none]
  have kept : pruneExpiredSessionlessIdempotency codec db observedAt = .ok db := by
    simp [pruneExpiredSessionlessIdempotency, sessionless, Table.deleteWhere_none]
  have retires : candidates.foldlM (retireSession codec observedAt) db = .ok db := by
    refine foldlM_fixed fun sessionId named => ?_
    rw [retireSession, (anyM_false needed).2 sessionId named]
    rfl
  simp only [pruneExpired, pruneExpiredLogs_idle (later_chronicle fresh empty later) quiet.1,
    pruneAudit_idle quiet.2, tombstones, kept, found, retires, ended, bind, Except.bind]
  rfl

theorem spared_pass_changes_nothing_started :
    pruneExpired sampleCodec startedStore ⟨seconds 0, seconds 0, seconds 0⟩ (seconds 0) =
      .ok startedStore :=
  spared_pass_changes_nothing emptyStore_fresh ⟨rfl, rfl, rfl⟩
    (.single ⟨sampleBegin, trivial, rfl⟩ : Later _ (fun _ _ => True) _ _) (by decide +kernel)

end Satelle.RetentionSafety
