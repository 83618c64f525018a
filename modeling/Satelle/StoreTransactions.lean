import Satelle.AdmissionChanges
import Satelle.ProgressChanges
import Satelle.Host.DurableAdmission

/-! Every committed call is a sequence of changes, and what it leaves of the
Sessions is what the operations of the aggregate leave. -/
namespace Satelle.StoreTransactions
open Satelle.Core Lib Host StoreStatements StoreChanges
open StoreRepresentation StoreEffects
open AdmissionChanges ProgressChanges

/-! ## References -/

theorem recordUpstreamRef_changes
    (ran : recordUpstreamRef db sessionId turnId observed = .ok after) :
    Changes codec permit db held after held := by
  have merged := ran
  unfold recordUpstreamRef mergeObservedReference at ran
  rw [except_bind_ok] at ran
  obtain ⟨_, _, ran⟩ := ran
  cases observed with
  | thread | goal | turn =>
    simp only [except_bind_ok, orFail_ok] at ran
    obtain ⟨rows, updated, made⟩ := ran
    obtain ⟨_, rfl⟩ := Table.updateOne_eq_some.mp updated
    cases made
    refine .more .none (.referenced ?_ ?_ merged)
    all_goals first
      | exact fun _ => rfl
      | exact Table.map_lookup_updateWhere fun _ => rfl

/-! ## Retention -/

private theorem pruneLogs_changes :
    Changes codec retiring db held (pruneAudit (pruneExpiredLogs db cutoff) cutoff) held := by
  have pruned : ∃ logs expired, pruneExpiredLogs db cutoff =
      { db with logs := logs, expiredThroughCursor := expired } := by
    unfold pruneExpiredLogs
    split
    · exact ⟨_, _, rfl⟩
    · exact ⟨_, _, rfl⟩
  obtain ⟨logs, expired, made⟩ := pruned
  rw [made]
  exact .more .none (.swept (fun _ member => member) (fun _ member _ => member) trivial
    (ledgerPruned_none db) (.inr ⟨cutoff, made⟩))

private theorem pruneTombstones_changes
    (ran : pruneExpiredAdmissionCancellations codec db observedAt = .ok after) :
    Changes codec retiring db held after held := by
  unfold pruneExpiredAdmissionCancellations at ran
  simp only [except_bind_ok] at ran
  obtain ⟨expired, selected, made⟩ := ran
  cases made
  refine .more .none (.swept (fun row member => List.mem_of_mem_filter member) ?_ trivial
    (ledgerPruned_none db) (.inl ⟨rfl, rfl⟩))
  intro row member waiting
  rw [Table.rows_deleteWhere, List.mem_filter]
  refine ⟨member, ?_⟩
  -- the key of a row that is removed is the key of a cancelled one, which is that row
  simp only [Bool.not_eq_true', decide_eq_false_iff_not, List.mem_map]
  rintro ⟨other, gone, same⟩
  obtain ⟨found, cancelled⟩ := List.mem_filter.mp ((mem_selectM selected other).mp gone).1
  rw [Table.row_unique found member same] at cancelled
  exact waiting (of_decide_eq_true cancelled)

private theorem retireSessions_changes {candidates : List SessionId}
    (ran : candidates.foldlM (retireSession codec observedAt) db = .ok after) :
    ∃ remaining, (∀ sessionId, remaining sessionId = held sessionId ∨
        remaining sessionId = none) ∧
      Changes codec retiring db held after remaining := by
  induction candidates generalizing db held with
  | nil =>
    cases ran
    exact ⟨held, fun _ => .inl rfl, .none⟩
  | cons first rest ih =>
    rw [List.foldlM_cons, except_bind_ok] at ran
    obtain ⟨middle, retired, ran⟩ := ran
    unfold retireSession at retired
    rw [except_bind_ok] at retired
    obtain ⟨allowed, _, retired⟩ := retired
    cases allowed with
    | false =>
      cases retired
      exact ih ran
    | true =>
      obtain ⟨remaining, fewer, changes⟩ := ih ran
      have change : Change codec retiring db held middle (Function.update held first none) :=
        .retired trivial retired
      refine ⟨remaining, ?_, change.changes.trans changes⟩
      intro sessionId
      by_cases isFirst : sessionId = first
      · subst isFirst
        have gone := fewer sessionId
        rw [Function.update_self, or_self] at gone
        exact .inr gone
      · simpa [isFirst] using fewer sessionId

private theorem deleteSetupRuns_changes {runs : List String}
    (ran : runs.foldlM deleteSetupRunMetadata db = .ok after) :
    Changes codec retiring db held after held := by
  induction runs generalizing db with
  | nil =>
    cases ran
    exact .none
  | cons first rest ih =>
    rw [List.foldlM_cons, except_bind_ok] at ran
    obtain ⟨middle, deleted, ran⟩ := ran
    simp only [deleteSetupRunMetadata, except_bind_ok, orFail_ok] at deleted
    obtain ⟨runs, removed, made⟩ := deleted
    cases made
    obtain ⟨one, rfl⟩ := Table.deleteOne_eq_some.mp removed
    obtain ⟨run, member, hit, _⟩ := Table.exists_of_countP_one one
    simp only [Bool.and_eq_true, decide_eq_true_eq] at hit
    have ended : ∀ other ∈ db.setupRuns.rows, other.runId = first → other.isTerminal = true := by
      intro other there same
      rw [Table.row_unique there member (same.trans hit.1.symm)]
      exact hit.2
    refine (Change.swept (fun _ member => member) (fun _ member _ => member) trivial
      ⟨fun id => id = first, ?_, rfl, ?_⟩ (.inl ⟨rfl, rfl⟩)).changes.trans (ih ran)
    · refine List.filter_congr fun other there => ?_
      by_cases same : other.runId = first
      · simp [same, ended other there same]
      · simp [same]
    · intro other there same
      exact ended other there (of_decide_eq_true same)

theorem pruneExpiredSessionMetadata_changes
    (ran : pruneExpiredSessionMetadataWithRetention codec db observedAt sessionRetention
      logRetention setupLedgerRetention = .ok after) :
    ∃ remaining, (∀ sessionId, remaining sessionId = held sessionId ∨
        remaining sessionId = none) ∧
      Changes codec retiring db held after remaining := by
  unfold pruneExpiredSessionMetadataWithRetention at ran
  simp only [except_bind_ok] at ran
  obtain ⟨cutoffs, _, needed, _, ran⟩ := ran
  cases needed with
  | false =>
    cases ran
    exact ⟨held, fun _ => .inl rfl, .none⟩
  | true =>
    simp only [if_true, pruneExpired, except_bind_ok] at ran
    obtain ⟨_, tombstones, _, sessionless, candidates, _, _, retired, runs, _, deleted⟩ := ran
    obtain ⟨remaining, fewer, changes⟩ := retireSessions_changes retired
    refine ⟨remaining, fewer, pruneLogs_changes.trans ((pruneTombstones_changes tombstones).trans
      (Changes.trans ?_ (changes.trans (deleteSetupRuns_changes deleted))))⟩
    simp only [pruneExpiredSessionlessIdempotency, except_bind_ok] at sessionless
    obtain ⟨expired, _, made⟩ := sessionless
    cases made
    refine .more .none (.forgotten ?_ trivial)
    intro record gone
    simpa using (Bool.and_eq_true_iff.mp gone).2

/-! ## Every call -/

/-- A call that fails leaves the store as it was. -/
theorem serve_error (failed : (serve codec db call).1 = .error e) :
    (serve codec db call).2 = db := by
  cases call <;> exact transact_error failed

/-- A call that commits is a sequence of changes, and performs on the Sessions
what the aggregate would. -/
theorem serve_changes (represents : Represents codec db held)
    (ran : serve codec db call = (.ok reply, after)) :
    ∃ held', Performs codec db held call reply held' ∧
      Changes codec (permitted codec db call) db held after held' := by
  cases call with
  | beginSession session made context now =>
    obtain ⟨outcome, done, rfl⟩ := transact_ok.mp ran
    obtain ⟨held', performs, changes, _⟩ := beginSession_changes represents made done
    exact ⟨held', performs, changes⟩
  | beginFollowUp sessionId expected turnId policy time requiresThread context now =>
    obtain ⟨outcome, done, rfl⟩ := transact_ok.mp ran
    obtain ⟨held', performs, changes, _⟩ := beginFollowUp_changes represents done
    exact ⟨held', performs, changes⟩
  | commitLifecycle sessionId turnId expected transition time =>
    obtain ⟨session, done, rfl⟩ := transact_ok.mp ran
    exact commitLifecycle_changes represents done
  | recordUpstreamRef sessionId turnId observed =>
    obtain ⟨_, done, rfl⟩ := transact_ok.mp ran
    exact ⟨held, .referenced, recordUpstreamRef_changes (map_unit_ok.mp done)⟩
  | beginStop sessionId expectedTurnId input now =>
    obtain ⟨outcome, done, rfl⟩ := transact_ok.mp ran
    exact ⟨held, .stopBegan, beginStop_changes represents done⟩
  | confirmStop claim observation time =>
    obtain ⟨commit, done, rfl⟩ := transact_ok.mp ran
    exact confirmStop_changes represents done
  | markRestartRecoveryPending clock =>
    obtain ⟨subjects, done, rfl⟩ := transact_ok.mp ran
    exact markRestartRecoveryPending_changes represents done
  | recordAdmissionCancellation operation input expectedSessionId outcome observedAt =>
    obtain ⟨state, done, rfl⟩ := transact_ok.mp ran
    exact ⟨held, .cancelled, recordAdmissionCancellation_changes done⟩
  | reconcileAdmissionCancellation operation input expectedSessionId outcome observedAt =>
    obtain ⟨state, done, rfl⟩ := transact_ok.mp ran
    exact ⟨held, .reconciled, recordAdmissionCancellation_changes done⟩
  | pruneExpiredSessionMetadata observedAt sessionRetention logRetention setupLedgerRetention =>
    obtain ⟨_, done, rfl⟩ := transact_ok.mp ran
    obtain ⟨remaining, fewer, changes⟩ :=
      pruneExpiredSessionMetadata_changes (map_unit_ok.mp done)
    exact ⟨remaining, .pruned fewer, changes⟩
  | appendSafeLog record =>
    obtain ⟨_, done, rfl⟩ := transact_ok.mp ran
    obtain ⟨logs, sequence, entered, rfl⟩ := insertSafeLog_ok (map_unit_ok.mp done)
    exact ⟨held, .logged, .more .none (.logged entered)⟩

/-- Whatever a call answers, it leaves a sequence of changes. -/
theorem serve_changed (represents : Represents codec db held) (call : StoreCall) :
    ∃ held', Changes codec (permitted codec db call) db held (serve codec db call).2 held' := by
  cases outcome : (serve codec db call).1 with
  | error e =>
    rw [serve_error outcome]
    exact ⟨held, .none⟩
  | ok reply =>
    obtain ⟨held', _, changes⟩ := serve_changes represents (Prod.ext outcome rfl)
    exact ⟨held', changes⟩

/-- Only the transactions of admissions reply with one. -/
theorem serve_began (represents : Represents codec db held)
    (ran : serve codec db call = (.ok (.admission outcome), after)) :
    ∃ input, call.admissionInput = some input ∧ Began codec db input outcome after := by
  cases call with
  | beginSession session made context now =>
    obtain ⟨_, done, same⟩ := transact_ok.mp ran
    cases same
    obtain ⟨_, _, _, began⟩ := beginSession_changes represents made done
    exact ⟨context.idempotency, rfl, began⟩
  | beginFollowUp sessionId expected turnId policy time requiresThread context now =>
    obtain ⟨_, done, same⟩ := transact_ok.mp ran
    cases same
    obtain ⟨_, _, _, began⟩ := beginFollowUp_changes represents done
    exact ⟨context.idempotency, rfl, began⟩
  | commitLifecycle | recordUpstreamRef | beginStop | confirmStop | markRestartRecoveryPending
  | recordAdmissionCancellation | reconcileAdmissionCancellation | pruneExpiredSessionMetadata
  | appendSafeLog =>
    obtain ⟨_, _, same⟩ := transact_ok.mp ran
    cases same

/-! ## Runs -/

theorem fresh_represents (fresh : Fresh db) : Represents codec db (fun _ => none) where
  stored := by
    intro sessionId session found
    cases found
  absent := by
    intro sessionId _
    constructor
    · rw [Table.lookup_eq_none, fresh.sessions]
      simp
    · simp [Database.turnRows, fresh.turns]
  owned := by
    rw [fresh.turns]
    simp

/-- One call of a run keeps what each of its changes keeps. -/
theorem serve_keep {holds : Database → Sessions → Prop}
    (kept : ∀ before held after held', Represents codec before held → holds before held →
      Change codec (permitted codec db call) before held after held' → holds after held')
    (represents : Represents codec db held) (start : holds db held) :
    ∃ held', Represents codec (serve codec db call).2 held' ∧
      holds (serve codec db call).2 held' := by
  obtain ⟨held', changes⟩ := serve_changed represents call
  refine ⟨held', ?_⟩
  generalize (serve codec db call).2 = after at changes
  induction changes with
  | none => exact ⟨represents, start⟩
  | more _ change ih =>
    obtain ⟨between, holding⟩ := ih
    exact ⟨change_represents change between, kept _ _ _ _ between holding change⟩

/-- Every call leaves a store that holds Sessions. -/
theorem serve_represented (represented : ∃ held, Represents codec db held) (call : StoreCall) :
    ∃ held, Represents codec (serve codec db call).2 held := by
  obtain ⟨held, represents⟩ := represented
  obtain ⟨held', changes⟩ := serve_changed represents call
  exact ⟨held', changes_represents changes represents⟩

/-- An invariant of the store: it holds before the first Session, and every
change of an allowed call keeps it. -/
theorem reachable_invariant (holds : Database → Sessions → Prop)
    (start : ∀ db, Fresh db → holds db (fun _ => none))
    (kept : ∀ db call before held after held', allowed db call → Represents codec before held →
      holds before held → Change codec (permitted codec db call) before held after held' →
      holds after held')
    (reachable : ReachableBy codec allowed db) :
    ∃ held, Represents codec db held ∧ holds db held := by
  obtain ⟨first, fresh, later⟩ := reachable
  induction later with
  | refl => exact ⟨_, fresh_represents fresh, start _ fresh⟩
  | tail _ step ih =>
    obtain ⟨call, may, rfl⟩ := step
    obtain ⟨held, represents, holding⟩ := ih
    exact serve_keep (fun before held after held' => kept _ call before held after held' may)
      represents holding

end Satelle.StoreTransactions
