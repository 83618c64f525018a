import Satelle.StoreRefinement

/-! The log over whole histories. Entries are appended with the next cursor and a time
that is never set back, and expire from the front, whatever the clock is read as. -/
namespace Satelle.LogHistory
open Lib Host Relation StoreStatements StoreChanges StoreTransactions
open StoreRefinement

/-- What can happen to the log of a store. Everything else that is done to the store
leaves the cursors and times of the entries alone. -/
inductive LogStep (codec : TimeCodec) (db after : Database) : Prop where
  | entered (entered : LogEntered codec (db.logs, db.logSequence) (after.logs, after.logSequence))
      (expired : after.expiredThroughCursor = db.expiredThroughCursor)
  | pruned (cutoff : Int) (logs : after.logs = (pruneExpiredLogs db cutoff).logs)
      (expired : after.expiredThroughCursor = (pruneExpiredLogs db cutoff).expiredThroughCursor)
      (sequence : after.logSequence = db.logSequence)
  | rewritten (change : LogRow → LogRow) (cursor : ∀ log, (change log).logCursor = log.logCursor)
      (time : ∀ log, (change log).recordedAtUnixNanos = log.recordedAtUnixNanos)
      (logs : after.logs = db.logs.map change) (sequence : after.logSequence = db.logSequence)
      (expired : after.expiredThroughCursor = db.expiredThroughCursor)

abbrev LogSteps (codec : TimeCodec) : Database → Database → Prop := ReflTransGen (LogStep codec)

theorem logStep_same (codec : TimeCodec) (logs : after.logs = db.logs)
    (sequence : after.logSequence = db.logSequence)
    (expired : after.expiredThroughCursor = db.expiredThroughCursor) : LogStep codec db after :=
  .rewritten id (fun _ => rfl) (fun _ => rfl) (by rw [logs, List.map_id]) sequence expired

/-- The cursors are those that have been given out and have not expired; the entries are
in the order of their cursors and of their times. -/
structure Chronicle (db : Database) : Prop where
  cursors : ∀ cursor, cursor ∈ db.logs.map (·.logCursor) ↔
    db.expiredThroughCursor < cursor ∧ cursor ≤ db.logSequence
  sorted : db.logs.Pairwise fun a b =>
    a.logCursor < b.logCursor ∧ a.recordedAtUnixNanos ≤ b.recordedAtUnixNanos
  bounded : ∀ log ∈ db.logs, -2 ^ 63 ≤ log.recordedAtUnixNanos ∧ log.recordedAtUnixNanos < 2 ^ 63
  expired : db.expiredThroughCursor ≤ db.logSequence

theorem Chronicle.cursor (chronicle : Chronicle db) (member : log ∈ db.logs) :
    db.expiredThroughCursor < log.logCursor ∧ log.logCursor ≤ db.logSequence :=
  (chronicle.cursors _).mp (List.mem_map_of_mem member)

section
variable (chronicle : Chronicle db)
include chronicle

/-- Of two entries the one with the smaller cursor has the earlier time. -/
theorem Chronicle.ordered (first : a ∈ db.logs) (second : b ∈ db.logs)
    (le : a.logCursor ≤ b.logCursor) : a.recordedAtUnixNanos ≤ b.recordedAtUnixNanos := by
  have sorted := chronicle.sorted
  generalize db.logs = logs at first second sorted
  induction logs with
  | nil => cases first
  | cons head rest ih =>
    obtain ⟨before, later⟩ := List.pairwise_cons.mp sorted
    rcases List.mem_cons.mp first with rfl | inRest <;>
      rcases List.mem_cons.mp second with rfl | alsoInRest
    · exact le_rfl
    · exact (before b alsoInRest).2
    · have := (before a inRest).1
      omega
    · exact ih inRest alsoInRest later

theorem getLast_max (last : db.logs.getLast? = some prior)
    (member : log ∈ db.logs) : log.logCursor ≤ prior.logCursor := by
  obtain ⟨earlier, shape⟩ := List.getLast?_eq_some_iff.mp last
  have sorted := chronicle.sorted
  rw [shape] at member sorted
  rcases List.mem_append.mp member with old | new
  · exact ((List.pairwise_append.mp sorted).2.2 log old prior (by simp)).1.le
  · rw [List.mem_singleton.mp new]

/-- The time of a new entry is not before any that is there, and again a 64-bit one. -/
theorem entered_time
    (asked : -2 ^ 63 ≤ requested ∧ requested < 2 ^ 63)
    (clamped : nanos = match db.logs.getLast? with
      | some prior => max prior.recordedAtUnixNanos requested
      | none => requested) :
    (∀ log ∈ db.logs, log.recordedAtUnixNanos ≤ nanos) ∧ -2 ^ 63 ≤ nanos ∧ nanos < 2 ^ 63 := by
  cases last : db.logs.getLast? with
  | none =>
    rw [last] at clamped
    rw [List.getLast?_eq_none_iff.mp last, clamped]
    exact ⟨by simp, asked⟩
  | some prior =>
    simp only [last] at clamped
    have there := List.mem_of_getLast? last
    have bounds := chronicle.bounded prior there
    refine ⟨?_, ?_⟩
    · intro log member
      have := chronicle.ordered member there (getLast_max chronicle last member)
      rw [clamped]
      exact this.trans (le_max_left _ _)
    · rw [clamped]
      omega

theorem Chronicle.entered
    (entered : LogEntered codec (db.logs, db.logSequence) (after.logs, after.logSequence))
    (expired : after.expiredThroughCursor = db.expiredThroughCursor) : Chronicle after := by
  generalize shape : (after.logs, after.logSequence) = final at entered
  obtain ⟨cursor, asked, clamped, _⟩ := entered
  rename_i entry requested
  obtain ⟨logs, sequence⟩ := Prod.ext_iff.mp shape
  dsimp only at logs sequence
  obtain ⟨latest, bounds⟩ := entered_time chronicle asked clamped
  refine ⟨?_, ?_, ?_, ?_⟩
  · intro value
    rw [logs, sequence, expired]
    simp only [List.map_append, List.mem_append, chronicle.cursors, List.map_cons, List.map_nil,
      List.mem_singleton, cursor]
    have := chronicle.expired
    omega
  · rw [logs, List.pairwise_append]
    refine ⟨chronicle.sorted, List.pairwise_singleton _ _, ?_⟩
    intro log member new same
    rw [List.mem_singleton.mp same, cursor]
    exact ⟨Nat.lt_succ_of_le (chronicle.cursor member).2, latest log member⟩
  · rw [logs]
    exact forall_mem_concat.mpr ⟨chronicle.bounded, bounds⟩
  · rw [sequence, expired]
    exact Nat.le_succ_of_le chronicle.expired

/-! ## Expiry -/

/-- Where an expiry ends: behind every entry before the cutoff and before every other. -/
theorem expiredThrough_spec
    (found : expiredThrough db.logs cutoff = some through) :
    db.expiredThroughCursor ≤ through ∧ through ≤ db.logSequence ∧
    ∀ log ∈ db.logs, through < log.logCursor ↔ cutoff ≤ log.recordedAtUnixNanos := by
  unfold expiredThrough at found
  split at found
  · rename_i first isFirst
    cases found
    obtain ⟨member, least⟩ := List.min?_eq_some_iff.mp isFirst
    obtain ⟨log, kept, named⟩ := List.mem_map.mp member
    obtain ⟨there, late⟩ := List.mem_filter.mp kept
    have bounds := chronicle.cursor there
    rw [named] at bounds
    refine ⟨by omega, by omega, ?_⟩
    intro other present
    constructor
    · intro behind
      exact le_trans (of_decide_eq_true late) (chronicle.ordered there present (by omega))
    · intro late
      have := least other.logCursor (List.mem_map_of_mem
        (List.mem_filter.mpr ⟨present, by simpa using late⟩))
      omega
  · rename_i none
    obtain ⟨member, greatest⟩ := List.max?_eq_some_iff.mp found
    obtain ⟨log, there, named⟩ := List.mem_map.mp member
    have bounds := chronicle.cursor there
    rw [named] at bounds
    refine ⟨by omega, by omega, ?_⟩
    intro other present
    have before := greatest other.logCursor (List.mem_map_of_mem present)
    constructor
    · intro behind
      omega
    · intro late
      have kept : other.logCursor ∈ (db.logs.filter fun log =>
          cutoff ≤ log.recordedAtUnixNanos).map (·.logCursor) :=
        List.mem_map_of_mem (List.mem_filter.mpr ⟨present, by simpa using late⟩)
      rw [List.min?_eq_none_iff.mp none] at kept
      cases kept

end

theorem expiredThrough_none (missing : expiredThrough logs cutoff = none) : logs = [] := by
  unfold expiredThrough at missing
  split at missing
  · cases missing
  · simpa using List.max?_eq_none_iff.mp missing

/-- An entry expires exactly if its time is before the cutoff. -/
theorem mem_pruned (chronicle : Chronicle db) :
    log ∈ (pruneExpiredLogs db cutoff).logs ↔
      log ∈ db.logs ∧ cutoff ≤ log.recordedAtUnixNanos := by
  unfold pruneExpiredLogs
  split
  · rename_i missing
    simp [expiredThrough_none missing]
  · rename_i through found
    obtain ⟨_, _, exact⟩ := expiredThrough_spec chronicle found
    simp only [List.mem_filter, decide_eq_true_eq]
    constructor
    · rintro ⟨there, behind⟩
      exact ⟨there, (exact log there).mp behind⟩
    · rintro ⟨there, late⟩
      exact ⟨there, (exact log there).mpr late⟩

theorem Chronicle.pruned (chronicle : Chronicle db) (cutoff : Int) :
    Chronicle (pruneExpiredLogs db cutoff) := by
  unfold pruneExpiredLogs
  split
  · exact chronicle
  · rename_i through found
    obtain ⟨later, within, _⟩ := expiredThrough_spec chronicle found
    refine ⟨?_, chronicle.sorted.filter _, ?_, ?_⟩
    · intro cursor
      have known := chronicle.cursors cursor
      simp only [List.mem_map, List.mem_filter, decide_eq_true_eq] at known ⊢
      constructor
      · rintro ⟨log, ⟨there, behind⟩, rfl⟩
        have bounds := chronicle.cursor there
        omega
      · intro bounds
        obtain ⟨log, there, rfl⟩ := known.mpr (by omega)
        exact ⟨log, ⟨there, by omega⟩, rfl⟩
    · intro log member
      exact chronicle.bounded log (List.mem_of_mem_filter member)
    · exact Nat.max_le.mpr ⟨chronicle.expired, within⟩

theorem pruned_sequence (db : Database) (cutoff : Int) :
    (pruneExpiredLogs db cutoff).logSequence = db.logSequence := by
  unfold pruneExpiredLogs
  split <;> rfl

theorem step_chronicle (chronicle : Chronicle db) (step : LogStep codec db after) :
    Chronicle after := by
  cases step with
  | entered entered expired => exact chronicle.entered entered expired
  | pruned cutoff logs expired sequence =>
    have pruned := chronicle.pruned cutoff
    obtain ⟨cursors, sorted, bounded, within⟩ := pruned
    rw [pruned_sequence] at cursors within
    exact ⟨by rwa [logs, expired, sequence], by rwa [logs], by rwa [logs], by rwa [expired, sequence]⟩
  | rewritten change cursor time logs sequence expired =>
    refine ⟨?_, ?_, ?_, ?_⟩
    · rw [logs, sequence, expired, List.map_map]
      have same : (fun log : LogRow => log.logCursor) ∘ change = fun log => log.logCursor :=
        funext fun log => cursor log
      rw [same]
      exact chronicle.cursors
    · rw [logs, List.pairwise_map]
      simp only [cursor, time]
      exact chronicle.sorted
    · rw [logs, List.forall_mem_map]
      intro old there
      rw [time]
      exact chronicle.bounded old there
    · rw [expired, sequence]
      exact chronicle.expired

theorem steps_chronicle (chronicle : Chronicle db) (steps : LogSteps codec db after) :
    Chronicle after := by
  induction steps with
  | refl => exact chronicle
  | tail _ last ih => exact step_chronicle ih last

/-! ## Every call of the store -/

theorem entered_steps {sequence : Nat}
    (entered : LogsEntered codec (db.logs, db.logSequence) (logs, sequence)) :
    LogSteps codec db { db with logs := logs, logSequence := sequence } := by
  have all : ∀ final, LogsEntered codec (db.logs, db.logSequence) final →
      LogSteps codec db { db with logs := final.1, logSequence := final.2 } := by
    intro final entered
    induction entered with
    | refl => exact .refl
    | tail _ last ih => exact ih.tail (.entered last rfl)
  exact all (logs, sequence) entered

theorem change_logs (change : Change codec permit db held after held') :
    LogSteps codec db after := by
  cases change with
  | logged entered => exact entered_steps entered
  | swept _ _ _ _ pruned =>
    rcases pruned with ⟨rfl, rfl⟩ | ⟨cutoff, made⟩
    · exact .single (logStep_same codec rfl rfl rfl)
    · exact .single (.pruned cutoff (by rw [made]) (by rw [made]) rfl)
  | @retired sessionId _ _ removed =>
    simp only [deleteSessionMetadata, except_bind_ok] at removed
    obtain ⟨_, _, _, _, _, _, made⟩ := removed
    cases made
    exact .single (.rewritten (fun log => { log with
      turnId := log.turnId.filter (· ∉ (db.turnRows sessionId).map (·.turnId)) })
      (fun _ => rfl) (fun _ => rfl) rfl rfl rfl)
  | started | appended | advanced | leaseSet | probesMarked | stopOpened | stopClosed | referenced
  | cancelled | forgotten => exact .single (logStep_same codec rfl rfl rfl)

/-! ## Appends and expiries -/

/-- The log as a machine of its own. -/
inductive LogCall where
  | insert (record : SafeLogRecord)
  | prune (cutoffNanos : Int)

/-- An entry that is refused leaves the store. -/
def serveLog (codec : TimeCodec) (db : Database) : LogCall → Database
  | .insert record => (insertSafeLog codec db record).toOption.getD db
  | .prune cutoffNanos => pruneExpiredLogs db cutoffNanos

structure EmptyLog (db : Database) : Prop where
  logs : db.logs = []
  sequence : db.logSequence = 0
  expired : db.expiredThroughCursor = 0

theorem empty_chronicle (empty : EmptyLog db) : Chronicle db where
  cursors := by
    intro cursor
    rw [empty.logs, empty.sequence, empty.expired]
    simp
    omega
  sorted := by rw [empty.logs]; exact .nil
  bounded := by simp [empty.logs]
  expired := by rw [empty.sequence, empty.expired]

/-- The log of a store over any calls. -/
theorem later_chronicle (fresh : Fresh start) (empty : EmptyLog start)
    (later : Later codec allowed start db) : Chronicle db := by
  have both : (∃ held, Represents codec db held) ∧ Chronicle db := by
    induction later with
    | refl => exact ⟨⟨_, fresh_represents fresh⟩, empty_chronicle empty⟩
    | tail _ step ih =>
      obtain ⟨call, _, rfl⟩ := step
      obtain ⟨⟨held, represents⟩, chronicle⟩ := ih
      refine ⟨serve_represented ⟨held, represents⟩ call, ?_⟩
      obtain ⟨_, changes⟩ := serve_changed represents call
      generalize (serve codec _ call).2 = after at changes
      induction changes with
      | none => exact chronicle
      | more _ change ih => exact steps_chronicle ih (change_logs change)
  exact both.2

theorem serveLog_steps (codec : TimeCodec) (db : Database) (call : LogCall) :
    LogSteps codec db (serveLog codec db call) := by
  cases call with
  | insert record =>
    show LogSteps codec db ((insertSafeLog codec db record).toOption.getD db)
    cases inserted : insertSafeLog codec db record with
    | error e => exact .refl
    | ok after =>
      obtain ⟨logs, sequence, entered, rfl⟩ := insertSafeLog_ok inserted
      exact entered_steps entered
  | prune cutoff => exact .single (.pruned cutoff rfl rfl (pruned_sequence db cutoff))

theorem calls_steps (codec : TimeCodec) (db : Database) (calls : List LogCall) :
    LogSteps codec db (calls.foldl (serveLog codec) db) := by
  induction calls generalizing db with
  | nil => exact .refl
  | cons call rest ih => exact (serveLog_steps codec db call).trans (ih _)

theorem entered_sequence (entered : LogEntered codec before after) : before.2 ≤ after.2 := by
  cases entered
  exact Nat.le_succ _

/-- Cursors are only given out. -/
theorem steps_sequence (steps : LogSteps codec db after) : db.logSequence ≤ after.logSequence := by
  induction steps with
  | refl => exact le_rfl
  | tail _ last ih =>
    refine ih.trans ?_
    cases last with
    | entered entered => exact entered_sequence entered
    | pruned _ _ _ sequence | rewritten _ _ _ _ sequence => exact sequence.ge

theorem needPruning_iff (chronicle : Chronicle db) :
    logsNeedPruning db cutoff = true ↔ ∃ log ∈ db.logs, log.recordedAtUnixNanos < cutoff := by
  unfold logsNeedPruning
  simp only [List.any_eq_true, Bool.and_eq_true, decide_eq_true_eq]
  constructor
  · rintro ⟨log, member, _, early⟩
    exact ⟨log, member, early⟩
  · rintro ⟨log, member, early⟩
    -- The oldest entry is at least as early.
    cases found : (db.logs.map (·.logCursor)).min? with
    | none =>
      have nothing := List.min?_eq_none_iff.mp found
      rw [List.map_eq_nil_iff] at nothing
      rw [nothing] at member
      cases member
    | some cursor =>
      obtain ⟨there, least⟩ := List.min?_eq_some_iff.mp found
      obtain ⟨oldest, present, rfl⟩ := List.mem_map.mp there
      have before := chronicle.ordered present member
        (least log.logCursor (List.mem_map_of_mem member))
      exact ⟨oldest, present, rfl, lt_of_le_of_lt before early⟩

theorem log_expires_by_time (codec : TimeCodec) (start : Database) (empty : EmptyLog start)
    (calls later : List LogCall) (cutoff : Int) :
    let earlier := calls.foldl (serveLog codec) start
    let db := later.foldl (serveLog codec) earlier
    (∀ a ∈ db.logs, ∀ b ∈ db.logs, a.logCursor ≤ b.logCursor →
      a.recordedAtUnixNanos ≤ b.recordedAtUnixNanos) ∧
    (∀ log, log ∈ (pruneExpiredLogs db cutoff).logs ↔
      log ∈ db.logs ∧ cutoff ≤ log.recordedAtUnixNanos) ∧
    (logsNeedPruning db cutoff = true ↔ ∃ log ∈ db.logs, log.recordedAtUnixNanos < cutoff) ∧
    (∀ log ∈ db.logs, db.expiredThroughCursor < log.logCursor) ∧
    ∀ log ∈ earlier.logs, log.logCursor ∉ db.logs.map (·.logCursor) →
      log.logCursor ≤ db.expiredThroughCursor := by
  intro earlier db
  have before : Chronicle earlier := steps_chronicle (empty_chronicle empty) (calls_steps _ _ calls)
  have steps : LogSteps codec earlier db := calls_steps _ _ later
  have chronicle : Chronicle db := steps_chronicle before steps
  refine ⟨fun a first b second => chronicle.ordered first second, fun log => mem_pruned chronicle,
    needPruning_iff chronicle, fun log member => (chronicle.cursor member).1, ?_⟩
  intro log member gone
  by_contra retained
  refine gone ((chronicle.cursors _).mpr ⟨not_le.mp retained, ?_⟩)
  exact (before.cursor member).2.trans (steps_sequence steps)

/-- The clock is set back between two entries. -/
def setBackSample : List LogCall := [
  .insert ⟨seconds 2, .storage, .info, .storeOpened, .host⟩,
  .insert ⟨seconds 1, .storage, .info, .storeOpened, .host⟩]

theorem log_expires_by_time_set_back :
    (setBackSample.foldl (serveLog sampleCodec) emptyStore).logs.map
      (fun log => (log.logCursor, log.recordedAtUnixNanos)) = [(1, seconds 2), (2, seconds 2)] ∧
    (logsNeedPruning (setBackSample.foldl (serveLog sampleCodec) emptyStore) (seconds 2) = true ↔
      ∃ log ∈ (setBackSample.foldl (serveLog sampleCodec) emptyStore).logs,
        log.recordedAtUnixNanos < seconds 2) := by
  have empty : EmptyLog emptyStore := ⟨rfl, rfl, rfl⟩
  refine ⟨by decide +kernel, ?_⟩
  exact (log_expires_by_time sampleCodec emptyStore empty [] setBackSample (seconds 2)).2.2.1

end Satelle.LogHistory
