import Satelle.Host.TurnQueue

/-! The threads of the turn queue: `start_queue_worker` and the worker that it spawns
(`host/turn_queue.rs`), with the flag of `host/runtime.rs`. Every access to the flag, every
transaction and every desktop that `next_queued_turn` looks at is one step. Nobody asks for
a shutdown, every thread can be spawned, and one that cannot read the store stays where it
is. -/
namespace Satelle.Host
open Satelle.Core Lib

/-- Where a thread is. -/
inductive QueueThread where
  /-- A request was committed, and `start_queue_worker` is called next. -/
  | starting
  /-- The flag is set, and the worker is spawned next. -/
  | spawning
  /-- At the top of the loop in `drain_turn_queue`. -/
  | draining
  /-- In `next_queued_turn`, with these desktops to come. -/
  | choosing (desktopBindings : List String) (next : Option StoredQueueRecord)
  | handling (record : StoredQueueRecord)
  /-- `drain_turn_queue` has returned. -/
  | drained
  /-- The flag is clear, and `next_queued_turn` is called once more. -/
  | rechecking (desktopBindings : List String) (next : Option StoredQueueRecord)
  | ended

structure QueueWorkers where
  state : QueueStore
  /-- `queue_worker_running`. -/
  running : Bool
  threads : List QueueThread

inductive WorkersAction where
  /-- A new thread enqueues a request for a desktop. -/
  | commit (record : NewQueueRecord) (maxDepth : Fin u16Size)
  /-- A new thread starts the worker after it has shown or cancelled a request. -/
  | call
  /-- Any other transaction of the queue. -/
  | transact (call : QueueCall)
  | advance (id : Nat)
  /-- The worker has no policy for its request, and returns. -/
  | abandon (id : Nat)

namespace QueueWorkers

def new (store : Database) : QueueWorkers := ⟨⟨store, .empty⟩, false, []⟩

def spawn (workers : QueueWorkers) (thread : QueueThread) : QueueWorkers :=
  { workers with threads := workers.threads ++ [thread] }

def goes (workers : QueueWorkers) (id : Nat) (running : Bool) (thread : QueueThread) :
    QueueWorkers :=
  { workers with running := running, threads := workers.threads.set id thread }

/-- `enqueue_turn`. The lease is that of the desktop that the request names. -/
def commit (workers : QueueWorkers) (record : NewQueueRecord) (maxDepth : Fin u16Size) :
    QueueWorkers :=
  match queueLeaseKey workers.state.store record.desktopBinding.text with
  | .error _ => workers
  | .ok leaseKey =>
    match serveQueue workers.state (.enqueue { record with leaseKey := leaseKey } maxDepth) with
    | (.ok (.enqueued .full), _) | (.error _, _) => workers
    | (.ok _, after) => { workers with state := after }.spawn .starting

/-- The next desktop of a thread. -/
def look (workers : QueueWorkers) (id : Nat) (next : Option StoredQueueRecord) (binding : String)
    (goesOn : Option StoredQueueRecord → QueueThread) : QueueWorkers :=
  match considerBinding workers.state next binding with
  | .ok next => workers.goes id workers.running (goesOn next)
  | .error _ => workers

section
variable (desktopBindings : List String)

/-- A thread goes on, with these `configured_desktop_bindings`. -/
def advance (workers : QueueWorkers) (id : Nat) : QueueThread → QueueWorkers
  -- `try_start_queue_worker`
  | .starting => workers.goes id true (if workers.running then .ended else .spawning)
  | .spawning => (workers.goes id workers.running .ended).spawn .draining
  | .draining => workers.goes id workers.running (.choosing desktopBindings none)
  | .choosing (binding :: rest) next => workers.look id next binding (.choosing rest)
  | .choosing [] none => workers.goes id workers.running .drained
  | .choosing [] (some record) => workers.goes id workers.running (.handling record)
  | .handling _ => workers.goes id workers.running .draining
  -- `finish_queue_worker`
  | .drained => workers.goes id false (.rechecking desktopBindings none)
  | .rechecking (binding :: rest) next => workers.look id next binding (.rechecking rest)
  | .rechecking [] none => workers.goes id workers.running .ended
  | .rechecking [] (some _) => workers.goes id workers.running .starting
  | .ended => workers

/-- An action that is not possible changes nothing. -/
def step (workers : QueueWorkers) : WorkersAction → QueueWorkers
  | .commit record maxDepth => workers.commit record maxDepth
  | .call => workers.spawn .starting
  | .transact (.enqueue _ _) => workers
  | .transact call => { workers with state := (serveQueue workers.state call).2 }
  | .advance id =>
    match workers.threads[id]? with
    | some thread => workers.advance desktopBindings id thread
    | none => workers
  | .abandon id =>
    match workers.threads[id]? with
    | some (.handling _) => workers.goes id workers.running .drained
    | _ => workers

end

end QueueWorkers

end Satelle.Host
