import Satelle.Lib.Tally

/-! The retirement of an on-demand daemon (`wait_for_idle` of
`transport_api/server/mod.rs`): a loop that reads what the daemon is doing again and again,
one tracker after the other, while connections, operations and guards come and go. -/
namespace Satelle.Server
open Lib Relation

/-- The guards of `DaemonActivity`, the operations in `OperationCapacity` and the clients
of `ConnectionActivity`. -/
inductive Tracker where
  | activity | operations | connections
  deriving DecidableEq

structure Daemon where
  clock : Nat
  trackers : Tracker → Tally

/-- Time passes, something begins or ends. A cancellation that finds no operation to cancel
advances the generation of the operations. -/
inductive Daemon.Step : Daemon → Daemon → Prop where
  | passes (time : Nat) : Step daemon { daemon with clock := daemon.clock + time }
  | begins (tracker : Tracker) : Step daemon { daemon with
      trackers := Function.update daemon.trackers tracker (daemon.trackers tracker).begun }
  | ends (tracker : Tracker) : Step daemon { daemon with
      trackers := Function.update daemon.trackers tracker (daemon.trackers tracker).ended }
  | cancels : Step daemon { daemon with
      trackers := Function.update daemon.trackers .operations (daemon.trackers .operations).touched }

abbrev Daemon.Run : Daemon → Daemon → Prop := ReflTransGen Daemon.Step

/-- Nothing is connected, in operation or under way. -/
def Daemon.Idle (daemon : Daemon) : Prop := ∀ tracker, (daemon.trackers tracker).active = 0

/-- `DaemonActivityGeneration`, with the generation of the connections. -/
structure Generation where
  operations : Nat
  runtime : Nat
  connections : Nat
  deriving DecidableEq

/-- `DaemonActivitySnapshot` of the host. -/
structure HostActivity where
  idle : Bool
  operations : Nat
  runtime : Nat

/-- `daemon_activity_snapshot`: the guards are read first, then the operations. -/
def daemonActivitySnapshot (workersIdle : Bool) (runtime operations : Tally) : HostActivity where
  idle := workersIdle && runtime.active == 0 && operations.active == 0
  operations := operations.generation
  runtime := runtime.generation

/-- The variables of the loop. -/
structure IdleWait where
  idleTimeout : Nat
  launchedOnDemand : Bool
  bootedAt : Nat
  initialConnectionGeneration : Nat
  observedGeneration : Option Generation
  idleSince : Option Nat
  expiryCandidate : Option Generation

namespace IdleWait

def second : Nat := 1000000000

def startupGrace (wait : IdleWait) : Nat :=
  if wait.launchedOnDemand then max wait.idleTimeout (30 * second) else 0

def pollInterval (wait : IdleWait) : Nat := min wait.idleTimeout second

def confirmationInterval (wait : IdleWait) : Nat := min wait.idleTimeout (second / 100)

def restless (wait : IdleWait) : IdleWait :=
  { wait with idleSince := none, expiryCandidate := none }

/-- A new generation makes the loop forget what it knows. -/
def observe (wait : IdleWait) (generation : Generation) : IdleWait :=
  if wait.observedGeneration = some generation then wait
  else { wait.restless with observedGeneration := some generation }

/-- The daemon is idle, since this time. After the deadline a second full snapshot has to
agree. -/
def rest (wait : IdleWait) (generation : Generation) (now started : Nat) :
    Option (IdleWait × Nat) :=
  if now - started < wait.idleTimeout then
    some ({ wait with idleSince := some started }, now + wait.pollInterval)
  else if wait.expiryCandidate = some generation then none
  else some ({ wait with idleSince := some started, expiryCandidate := some generation },
    now + wait.confirmationInterval)

/-- One turn of the loop once everything has been read: until when it sleeps, or nothing
when the daemon is to retire. -/
def conclude (wait : IdleWait) (host : Option HostActivity) (connections : Tally) (now : Nat) :
    Option (IdleWait × Nat) :=
  let awaitingFirstClient : Bool := connections.generation = wait.initialConnectionGeneration ∧
    now - wait.bootedAt < wait.startupGrace
  match host with
  | none => some (wait.restless, now + wait.pollInterval)
  | some host =>
    let generation : Generation := ⟨host.operations, host.runtime, connections.generation⟩
    let wait := wait.observe generation
    if host.idle ∧ connections.active = 0 ∧ !awaitingFirstClient then
      wait.rest generation now (wait.idleSince.getD now)
    else some (wait.restless, now + wait.pollInterval)

end IdleWait

/-- The loop, while the daemon goes on between any two of its readings. A snapshot of the
host may fail. -/
inductive WaitForIdle (start : Daemon) (wait : IdleWait) :
    Daemon → Option (IdleWait × Nat) → Prop where
  | booted : WaitForIdle start wait start (some (wait, start.clock))
  | polled {first second third fourth : Daemon} {host : Option HostActivity}
      (before : WaitForIdle start wait now (some (current, wake)))
      (sleeps : now.Run first) (awake : wake ≤ first.clock)
      (afterActivity : first.Run second) (afterOperations : second.Run third)
      (afterConnections : third.Run fourth)
      (snapshot : ∀ activity ∈ host, ∃ workersIdle, activity = daemonActivitySnapshot workersIdle
        (first.trackers .activity) (second.trackers .operations)) :
      WaitForIdle start wait fourth
        (current.conclude host (third.trackers .connections) fourth.clock)

end Satelle.Server
