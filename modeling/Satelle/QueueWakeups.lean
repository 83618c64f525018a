import Satelle.Lib.Holding
import Satelle.Host.QueueWorkers
import Satelle.QueueRuns

/-! No request waits unnoticed. The flag of the worker is a thing that one thread holds, and
while nobody holds it, whoever is about to set it or to look at the desktop of a request
answers for that request. -/
namespace Satelle.QueueWakeups
open Lib Host QueueChanges QueueEntries QueueHistory
open StoreRefinement (emptyStore seconds)

variable {workers : QueueWorkers} {thread next : QueueThread} {id : Nat}
  {desktopBindings : List String}

/-! ## The invariant -/

/-- A thread in `drain_turn_queue`. -/
def drains : QueueThread → Bool
  | .draining | .choosing _ _ | .handling _ => true
  | .starting | .spawning | .drained | .rechecking _ _ | .ended => false

/-- A thread between its commit and the call of `start_queue_worker`, or between the reset
of the flag and the end of the recheck. -/
def between : QueueThread → Bool
  | .starting | .rechecking _ _ => true
  | .spawning | .draining | .choosing _ _ | .handling _ | .drained | .ended => false

/-- A thread that has set the flag and has to clear it. -/
def holdsFlag : QueueThread → Option Unit
  | .spawning | .draining | .choosing _ _ | .handling _ | .drained => some ()
  | .starting | .rechecking _ _ | .ended => none

def holders (workers : QueueWorkers) (id : Nat) : Option Unit :=
  (workers.threads[id]?).bind holdsFlag

/-- A thread that will set the flag if there is a request for the desktop. -/
def Notices (binding : String) : QueueThread → Prop
  | .starting => True
  | .rechecking desktopBindings next => binding ∈ desktopBindings ∨ next ≠ none
  | .spawning | .draining | .choosing _ _ | .handling _ | .drained | .ended => False

/-- There is a request for the desktop. -/
def Asked (state : QueueStore) (binding : String) : Prop :=
  ∃ row ∈ state.queue.rows, row.isQueued = true ∧
    queueLeaseKey state.store binding = .ok row.leaseKey

structure Awake (desktopBindings : List String) (workers : QueueWorkers) : Prop where
  flag : Held (holders workers) fun _ => workers.running = true
  noticed : ∀ binding ∈ desktopBindings, Asked workers.state binding →
    workers.running = true ∨ ∃ thread ∈ workers.threads, Notices binding thread

theorem new_awake (store : Database) : Awake desktopBindings (.new store) where
  flag := by
    have none : holders (.new store) = fun _ => none := by
      funext id
      simp [holders, QueueWorkers.new]
    rw [none]
    exact .empty fun _ running => absurd running Bool.false_ne_true
  noticed := by
    rintro _ _ ⟨_, member, _⟩
    cases member

/-! ## Threads -/

theorem holders_goes (bound : id < workers.threads.length) :
    holders (workers.goes id running next) =
      Function.update (holders workers) id (holdsFlag next) := by
  funext other
  by_cases own : other = id
  · subst own
    simp [holders, QueueWorkers.goes, bound]
  · simp [holders, QueueWorkers.goes, own, Ne.symm own]

theorem holders_spawn : holders (workers.spawn next) =
    Function.update (holders workers) workers.threads.length (holdsFlag next) := by
  funext other
  rcases lt_trichotomy other workers.threads.length with less | rfl | more
  · rw [Function.update_of_ne less.ne, holders, QueueWorkers.spawn, List.getElem?_append_left less]
    rfl
  · simp [holders, QueueWorkers.spawn]
  · rw [Function.update_of_ne more.ne', holders, holders, List.getElem?_eq_none more.le,
      List.getElem?_eq_none (by simpa [QueueWorkers.spawn] using more)]

section Thread
variable (awake : Awake desktopBindings workers) (there : workers.threads[id]? = some thread)
include awake there

/-- A thread sets the flag when nobody has it, and only its holder clears it. -/
theorem Awake.goes
    (sets : holdsFlag next = some () → workers.running = true → holdsFlag thread = some ())
    (flag : running = true ↔
      holdsFlag next = some () ∨ workers.running = true ∧ holdsFlag thread ≠ some ())
    (notices : ∀ binding ∈ desktopBindings, Asked workers.state binding →
      workers.running = true ∨ Notices binding thread → running = true ∨ Notices binding next) :
    Awake desktopBindings (workers.goes id running next) := by
  obtain ⟨bound, _⟩ := List.getElem?_eq_some_iff.mp there
  refine ⟨?_, fun binding listed asked => ?_⟩
  · rw [holders_goes bound]
    refine awake.flag.update id (holdsFlag next) ?_ ?_
    · rintro ⟨⟩ isNext
      simpa [holders, there] using sets isNext
    · rintro ⟨⟩
      simpa [holders, there, QueueWorkers.goes] using flag
  · have here : next ∈ (workers.goes id running next).threads := List.mem_set bound next
    have goesOn (why : workers.running = true ∨ Notices binding thread) : running = true ∨
        ∃ thread ∈ (workers.goes id running next).threads, Notices binding thread :=
      (notices binding listed asked why).imp_right fun noticed => ⟨next, here, noticed⟩
    rcases awake.noticed binding listed asked with isRunning | ⟨other, isThere, noticed⟩
    · exact goesOn (.inl isRunning)
    · obtain ⟨place, isPlace⟩ := List.mem_iff_getElem?.mp isThere
      by_cases own : place = id
      · subst own
        cases there.symm.trans isPlace
        exact goesOn (.inr noticed)
      · refine .inr ⟨other, List.mem_iff_getElem?.mpr ⟨place, ?_⟩, noticed⟩
        rw [QueueWorkers.goes, List.getElem?_set_ne (Ne.symm own), isPlace]

/-- A thread leaves the flag as it is. -/
theorem Awake.moves (same : holdsFlag next = holdsFlag thread)
    (notices : ∀ binding ∈ desktopBindings, Asked workers.state binding →
      Notices binding thread → Notices binding next) :
    Awake desktopBindings (workers.goes id workers.running next) := by
  have only : holdsFlag thread = some () → workers.running = true := fun holds =>
    awake.flag.only id () (by simpa [holders, there] using holds)
  refine awake.goes there (fun holds _ => same ▸ holds) ?_ ?_
  · rw [same]
    grind
  · exact fun binding listed asked => Or.imp_right (notices binding listed asked)

end Thread

theorem Awake.spawns (awake : Awake desktopBindings workers) (state : QueueStore) :
    Awake desktopBindings ({ workers with state := state }.spawn .starting) where
  flag := by
    rw [holders_spawn, Function.update_eq_self_iff.mpr (by simp [holders, holdsFlag])]
    exact awake.flag
  noticed := fun _ _ _ => .inr ⟨.starting, by simp [QueueWorkers.spawn], trivial⟩

/-! ## Requests -/

theorem queueLeaseKey_logged (logged : Logged db after) :
    queueLeaseKey after = queueLeaseKey db := by
  induction logged with
  | refl => rfl
  | tail _ step ih =>
    obtain ⟨record, inserted⟩ := step
    unfold insertSafeLog at inserted
    simp only [except_bind_ok] at inserted
    obtain ⟨_, _, _, _, _, _, made⟩ := inserted
    cases made
    exact ih

/-- Only an enqueue adds requests. -/
theorem asked_before (others : ∀ record maxDepth, call ≠ .enqueue record maxDepth)
    (asked : Asked (serveQueue state call).2 binding) : Asked state binding := by
  cases served : serveQueue state call with
  | mk reply after =>
    rw [served] at asked
    cases reply with
    | error e =>
      have same := serveQueue_error (congrArg Prod.fst served)
      rw [served] at same
      exact same ▸ asked
    | ok reply =>
      obtain ⟨row, member, waits, lease⟩ := asked
      obtain ⟨before, wasThere, follows⟩ :=
        updates_origin (serveQueue_updates others served) row member
      refine ⟨before, wasThere, follows.waits waits, ?_⟩
      rw [← follows.leaseKey, ← lease, queueLeaseKey_logged (served_of served).logged]

/-- A desktop with a request does not go unseen. -/
theorem considerBinding_sees {next later : Option StoredQueueRecord}
    (considered : considerBinding state next binding = .ok later) :
    (next ≠ none → later ≠ none) ∧ (Asked state binding → later ≠ none) := by
  unfold considerBinding at considered
  simp only [except_bind_ok] at considered
  obtain ⟨leaseKey, isLease, candidate, first, made⟩ := considered
  cases candidate with
  | some candidate =>
    have found : later ≠ none := by
      cases made
      cases next with
      | none => simp [StoredQueueRecord.replaces]
      | some current =>
        dsimp only
        split <;> simp
    exact ⟨fun _ => found, fun _ => found⟩
  | none =>
    cases made
    refine ⟨id, ?_⟩
    rintro ⟨row, member, waits, lease⟩
    cases isLease.symm.trans lease
    have listed := mem_fifoOf.mpr ⟨member, rfl, waits⟩
    unfold firstQueuedRequest at first
    split at first
    · rename_i empty
      rw [List.head?_eq_none_iff.mp empty] at listed
      cases listed
    · simp only [except_bind_ok] at first
      obtain ⟨_, _, _, _, made⟩ := first
      cases made

/-! ## Runs -/

theorem advance_awake (awake : Awake desktopBindings workers)
    (there : workers.threads[id]? = some thread) :
    Awake desktopBindings (workers.advance desktopBindings id thread) := by
  have works : ∀ {next}, (∀ binding, ¬Notices binding thread) → holdsFlag next = holdsFlag thread →
      Awake desktopBindings (workers.goes id workers.running next) :=
    fun busy same => awake.moves there same fun binding _ _ noticed => absurd noticed (busy binding)
  cases thread with
  | starting =>
    refine awake.goes there ?_ ?_ fun _ _ _ _ => .inl rfl
    · split <;> simp_all [holdsFlag]
    · split <;> simp_all [holdsFlag]
  | spawning =>
    -- The flag is handed on to the worker.
    obtain ⟨bound, _⟩ := List.getElem?_eq_some_iff.mp there
    have mine : holders workers id = some () := by simp [holders, there, holdsFlag]
    have running := awake.flag.only id () mine
    refine ⟨?_, fun _ _ _ => .inl running⟩
    have given : Held (Function.update (holders workers) id none) fun _ => False :=
      awake.flag.update id none (by simp) (by simp [mine])
    simp only [QueueWorkers.advance, holders_spawn, holders_goes bound]
    refine given.update _ (holdsFlag .draining) (by simp) fun _ => ?_
    simp [QueueWorkers.spawn, QueueWorkers.goes, running, holdsFlag]
  | draining => exact works (fun _ => False.elim) rfl
  | choosing bindings next =>
    cases bindings with
    | cons binding rest =>
      simp only [QueueWorkers.advance, QueueWorkers.look]
      split
      · exact works (fun _ => False.elim) rfl
      · exact awake
    | nil => cases next <;> exact works (fun _ => False.elim) rfl
  | handling record => exact works (fun _ => False.elim) rfl
  | drained =>
    refine awake.goes there (by simp [holdsFlag]) (by simp [holdsFlag]) ?_
    exact fun binding listed _ _ => .inr (.inl listed)
  | rechecking bindings next =>
    cases bindings with
    | cons binding rest =>
      simp only [QueueWorkers.advance, QueueWorkers.look]
      split
      · rename_i later considered
        obtain ⟨kept, seen⟩ := considerBinding_sees considered
        refine awake.moves there rfl fun other _ asked noticed => ?_
        rcases noticed with here | found
        · rcases List.mem_cons.mp here with rfl | below
          · exact .inr (seen asked)
          · exact .inl below
        · exact .inr (kept found)
      · exact awake
    | nil =>
      cases next with
      | none => exact works (fun _ noticed => noticed.elim List.not_mem_nil (absurd rfl)) rfl
      | some record => exact awake.moves there rfl fun _ _ _ _ => trivial
  | ended => exact awake

theorem step_awake (awake : Awake desktopBindings workers) (action : WorkersAction) :
    Awake desktopBindings (workers.step desktopBindings action) := by
  cases action with
  | commit record maxDepth =>
    simp only [QueueWorkers.step, QueueWorkers.commit]
    split
    · exact awake
    · split
      · exact awake
      · exact awake
      · exact awake.spawns _
  | call => exact awake.spawns workers.state
  | transact call =>
    cases call with
    | enqueue => exact awake
    | expire | cancel | admitted | failed | credentialFailed | advance =>
      exact ⟨awake.flag, fun binding listed asked =>
        awake.noticed binding listed (asked_before (by simp) asked)⟩
  | advance id =>
    simp only [QueueWorkers.step]
    split
    · rename_i thread there
      exact advance_awake awake there
    · exact awake
  | abandon id =>
    simp only [QueueWorkers.step]
    split
    · rename_i record there
      exact awake.moves there rfl fun _ _ _ noticed => noticed.elim
    · exact awake

/-- **No lost wakeup.** In every interleaving one thread drains the queue at a time. When the
flag is clear and no thread is between a commit and its start of the worker, or between
the reset of the flag and the end of the recheck, no request for a configured desktop
waits. -/
theorem queue_worker_loses_no_wakeup (store : Database) (desktopBindings : List String)
    (actions : List WorkersAction) (workers : QueueWorkers)
    (ran : actions.foldl (QueueWorkers.step desktopBindings) (.new store) = workers) :
    (∀ (a b : Nat) first second, workers.threads[a]? = some first →
      workers.threads[b]? = some second → drains first = true → drains second = true → a = b) ∧
    (workers.running = false → (∀ thread ∈ workers.threads, between thread = false) →
      ∀ binding ∈ desktopBindings, ∀ row ∈ workers.state.queue.rows,
        queueLeaseKey workers.state.store binding = .ok row.leaseKey → row.isQueued = false) := by
  have awake : Awake desktopBindings workers :=
    ran ▸ List.foldlRecOn actions _ (new_awake store) fun _ awake action _ =>
      step_awake awake action
  have holds : ∀ {a : Nat} {thread}, workers.threads[a]? = some thread → drains thread = true →
      holders workers a = some () := by
    intro a thread there isDraining
    rw [holders, there]
    cases thread <;> first | rfl | cases isDraining
  refine ⟨fun a b first second there there' isFirst isSecond => ?_, ?_⟩
  · exact awake.flag.sole b a () (holds there' isSecond) (holds there isFirst)
  · intro clear outside binding listed row member lease
    by_contra waits
    rcases awake.noticed binding listed ⟨row, member, by simpa using waits, lease⟩ with
      running | ⟨thread, there, notices⟩
    · exact absurd (clear.symm.trans running) Bool.false_ne_true
    · have isOutside := outside thread there
      cases thread <;> first | exact notices.elim | cases isOutside

/-! A thread enqueues a request, and the worker is started and looks at its desktops. -/

def startSample : List WorkersAction := [
  .commit (sampleQueueRecord sampleQueueRequestId "key" (seconds 1)) sampleDepth,
  .advance 0, .advance 0, .advance 1, .advance 1, .advance 1]

/-- The worker clears the flag, looks at its desktops again and ends. -/
def recheckSample : List WorkersAction := [.advance 1, .advance 1, .advance 1]

/-- The request expires while the worker has it, and the next round of the worker finds
nothing. -/
def expireSample : List WorkersAction := [
  .transact (.expire (seconds 100)), .advance 1, .advance 1, .advance 1, .advance 1]

theorem queue_worker_loses_no_wakeup_expired :
    let workers := (startSample ++ expireSample ++ recheckSample).foldl
      (QueueWorkers.step [sampleDesktop.text]) (.new emptyStore)
    workers.state.queue.rows.length = 1 ∧ ∀ row ∈ workers.state.queue.rows,
      queueLeaseKey workers.state.store sampleDesktop.text = .ok row.leaseKey →
        row.isQueued = false := by
  refine ⟨by decide +kernel, ?_⟩
  exact (queue_worker_loses_no_wakeup emptyStore [sampleDesktop.text] _ _ rfl).2
    (by decide +kernel) (by decide +kernel) sampleDesktop.text List.mem_cons_self

/-- A request for a desktop that is not configured is committed all the same, and waits
while nobody is there for it. -/
theorem unconfigured_request_waits_unnoticed :
    let workers := (startSample ++ recheckSample).foldl (QueueWorkers.step ["other"])
      (.new emptyStore)
    workers.running = false ∧ (∀ thread ∈ workers.threads, between thread = false) ∧
      ∃ row ∈ workers.state.queue.rows, row.isQueued = true := by
  decide +kernel

end Satelle.QueueWakeups
