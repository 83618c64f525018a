import Satelle.StoreTransactions
import Satelle.PublicProjection

/-! The durable store refines the in-memory aggregate: what a load returns after
a call is what the aggregate's operation makes of what a load returned before. -/
namespace Satelle.StoreRefinement
open Satelle.Core Host SessionLifecycle StoreChanges StoreEffects StoreRepresentation StoreTransactions

/-- In a reachable store every load succeeds. A failed call changes no load; a
committed call changes the loads as the operation of the aggregate says, on the
one Session it is about, and a replayed request changes none. -/
theorem store_refines_sessions (codec : TimeCodec) (db : Database)
    (reachable : ReachableStore codec db) :
    ∃ held : Sessions, (∀ sessionId, loadSession codec db sessionId = .ok (held sessionId)) ∧
      (∀ call e, (serve codec db call).1 = .error e →
        ∀ sessionId, loadSession codec (serve codec db call).2 sessionId =
          .ok (held sessionId)) ∧
      ∀ call reply, (serve codec db call).1 = .ok reply →
        ∃ held', Performs codec db held call reply held' ∧
          ∀ sessionId, loadSession codec (serve codec db call).2 sessionId =
            .ok (held' sessionId) := by
  obtain ⟨held, represents, _⟩ := reachable_invariant (fun _ _ => True)
    (fun _ _ => trivial) (fun _ _ _ _ _ _ _ _ _ _ => trivial) reachable
  refine ⟨held, represents.load, ?_, ?_⟩
  · intro call e failed
    rw [serve_error failed]
    exact represents.load
  · intro call reply committed
    obtain ⟨held', performs, changes⟩ := serve_changes represents (Prod.ext committed rfl)
    exact ⟨held', performs, (changes_represents changes represents).load⟩

/-! ## One concrete store

The codec writes the texts of the instants that the runs below come by. -/

/-- A codec of finitely many instants. -/
def tableCodec (entries : List (OffsetDateTime × String))
    (distinct : (entries.map (·.2)).Nodup) : TimeCodec where
  format time := (entries.find? fun entry => entry.1 = time).map (·.2)
  parse text := (entries.find? fun entry => entry.2 = text).map (·.1)
  roundTrip := by
    intro time text written
    obtain ⟨entry, found, rfl⟩ := Option.map_eq_some_iff.mp written
    have member := List.mem_of_find?_eq_some found
    have same : entry.1 = time := by simpa using List.find?_some found
    cases read : entries.find? fun other => other.2 = entry.2 with
    | none =>
      have missing := List.find?_eq_none.mp read entry member
      simp at missing
    | some other =>
      have text : other.2 = entry.2 := by simpa using List.find?_some read
      rw [List.inj_on_of_nodup_map distinct (List.mem_of_find?_eq_some read) member text]
      exact congrArg some same

def seconds (count : Int) : OffsetDateTime := count * 1000000000

def sampleCodec : TimeCodec := tableCodec [
  (seconds 0, "1970-01-01T00:00:00Z"), (seconds 1, "1970-01-01T00:00:01Z"),
  (seconds 2, "1970-01-01T00:00:02Z"), (seconds 3, "1970-01-01T00:00:03Z"),
  (seconds 86400, "1970-01-02T00:00:00Z"), (seconds 86401, "1970-01-02T00:00:01Z"),
  (seconds 86402, "1970-01-02T00:00:02Z"), (seconds 86403, "1970-01-02T00:00:03Z")] (by decide)

def emptyStore : Database where
  daemonIdentity := some "host-test"
  hmacKeyVersions := [1]
  sessions := .empty
  sessionPrivateRefs := .empty
  turns := .empty
  turnPrivateRefs := .empty
  turnPolicies := .empty
  turnAdmissionReadiness := .empty
  controlLeases := .empty
  maintenanceLeases := .empty
  idempotencyRecords := .empty
  admissionCancellations := .empty
  logs := []
  logSequence := 0
  expiredThroughCursor := 0
  recordingAudit := .empty
  clientCertificateAudit := []
  rawDiagnosticAudit := []
  desktopSnapshotAudit := []
  setupRuns := .empty
  setupActions := .empty

theorem emptyStore_fresh : Fresh emptyStore where
  sessions := rfl
  turns := rfl
  leases := by
    intro lease member
    cases member
  records := by
    intro record member
    cases member
  cancellations := rfl

def sampleDigest : String := "0123456789abcdef0123456789abcdef0123456789abcdef0123456789abcdef"

/-- A request made at a second, to be kept for a day. -/
def sampleInput (operation : IdempotentOperation) (second : Nat) : IdempotencyInput where
  principalRef := ⟨"principal-test", by decide⟩
  operation := operation
  key := ⟨"request-test", by decide⟩
  operationId := ⟨"operation-test", by decide⟩
  requestDigest := sampleDigest
  digestSchemaVersion := 1
  hmacKeyVersion := 1
  createdAt := seconds second
  expiresAt := seconds (second + 86400)
  digestValid := by decide
  schemaVersionBounds := by decide
  keyVersionBounds := by decide
  expiresLater := by
    change (second : Int) * 1000000000 < (second + 86400) * 1000000000
    omega

def sampleOwner (second : Nat) : LeaseOwner where
  operationId := ⟨"operation-test", by decide⟩
  processId := 7
  processStartRef := ⟨"process-test", by decide⟩
  bootIdentityRef := ⟨"boot-test", by decide⟩
  acquiredAt := seconds second
  processBounds := by decide

def sampleContext (operation : IdempotentOperation) (second : Nat) (token : PrivateReference) :
    AdmissionContext where
  leaseOwner := sampleOwner second
  idempotency := sampleInput operation second
  requestToken := token
  readinessRef := none

theorem sampleSession_reachable : Reachable sampleSession := .started sampleSession_started

def sampleToken : PrivateReference := ⟨"token-run", by decide⟩

def sampleBegin : StoreCall :=
  .beginSession sampleSession sampleSession_reachable
    (sampleContext .run 0 sampleToken) (seconds 0)

/-- The store after the sample Session has begun. -/
def startedStore : Database := (serve sampleCodec emptyStore sampleBegin).2

theorem startedStore_reachable : ReachableStore sampleCodec startedStore :=
  ⟨emptyStore, emptyStore_fresh, .single ⟨sampleBegin, trivial, rfl⟩⟩

/-- The Turn of the sample Session completes. -/
def sampleComplete : StoreCall :=
  .commitLifecycle sampleSessionId sampleTurnId ⟨.initial, .initial⟩ .completed (seconds 1)

def completedSession : Session :=
  (sampleSession.transitionTurn sampleTurnId ⟨.initial, .initial⟩ .completed (seconds 1)).2

/-- A follow-up Turn starts. -/
def sampleFollowUp : StoreCall :=
  .beginFollowUp sampleSessionId ⟨2, by decide, by decide⟩ sampleNextTurnId samplePolicy (seconds 2)
    false (sampleContext .steer 2 ⟨"token-steer", by decide⟩) (seconds 2)

def continuedSession : Session :=
  (completedSession.startFollowUp ⟨2, by decide, by decide⟩ sampleNextTurnId samplePolicy
    (seconds 2)).2

theorem store_refines_sessions_sample :
    (serve sampleCodec emptyStore sampleBegin).1.toBool = true ∧
    loadSession sampleCodec startedStore sampleSessionId = .ok (some sampleSession) ∧
    ∃ held : Sessions,
      ∀ sessionId, loadSession sampleCodec startedStore sessionId = .ok (held sessionId) := by
  refine ⟨by decide, by decide, ?_⟩
  obtain ⟨held, loads, _⟩ := store_refines_sessions sampleCodec startedStore startedStore_reachable
  exact ⟨held, loads⟩

/-! ## Publication -/

end Satelle.StoreRefinement
