import Satelle.Core.Ids

/-! The Session aggregate of `core/session.rs`: revisions, the execution policy
a Turn carries, Turns, snapshots and their validator, and the four operations
that mutate a Session. An operation on `&mut self` returns its reply together
with the Session it leaves behind, on success and on failure. Instants are
nanoseconds since the Unix epoch: `OffsetDateTime` compares and orders by the
instant, whatever offset it was written with. -/
namespace Satelle.Core

abbrev OffsetDateTime := Int

/-- The number of values of `u32` and of `u64`. -/
def u32Size : Nat := 2 ^ 32
def u64Size : Nat := 2 ^ 64

/-! ## Revisions -/

inductive RevisionSubject where
  | session | turn
  deriving DecidableEq, Repr

inductive RevisionError where
  | zero | exhausted
  deriving DecidableEq, Repr

/-- `define_revision!`: a nonzero 64-bit counter, one type for each subject. -/
structure Revision (subject : RevisionSubject) where
  value : Nat
  positive : 0 < value
  bounded : value < u64Size
  deriving DecidableEq

abbrev SessionStateRevision := Revision .session
abbrev TurnStateRevision := Revision .turn

namespace Revision

def initial : Revision subject := ⟨1, by decide, by decide⟩

/-- `new`, on a 64-bit value. -/
def new (value : Fin u64Size) : Except RevisionError (Revision subject) :=
  if nonzero : 0 < value.val then .ok ⟨value.val, nonzero, value.isLt⟩ else .error .zero

def next (revision : Revision subject) : Except RevisionError (Revision subject) :=
  if room : revision.value + 1 < u64Size then
    .ok ⟨revision.value + 1, Nat.succ_pos _, room⟩
  else .error .exhausted

@[simp] theorem initial_value : (initial : Revision subject).value = 1 := rfl

theorem value_inj {a b : Revision subject} : a.value = b.value ↔ a = b := by
  constructor
  · intro same
    cases a
    cases b
    cases same
    rfl
  · rintro rfl
    rfl

theorem next_ok {revision advanced : Revision subject} :
    revision.next = .ok advanced ↔ advanced.value = revision.value + 1 := by
  unfold next
  split
  · rename_i room
    simp only [Except.ok.injEq]
    exact ⟨fun h => h ▸ rfl, fun h => value_inj.mp h.symm⟩
  · rename_i full
    constructor
    · intro h
      cases h
    · intro h
      exact absurd (h ▸ advanced.bounded) full

end Revision

structure ExpectedRevisions where
  session : SessionStateRevision
  turn : TurnStateRevision
  deriving DecidableEq

/-! ## Turn states and the execution policy -/

inductive SafeSummary where
  | taskCompleted | blockedByPolicy | executionFailed | daemonRestartRecoveryFailed
  deriving DecidableEq, Repr

inductive TurnState where
  | starting | running | recoveryPending | completed | blocked | failed | stopped
  deriving DecidableEq, Repr

def TurnState.isTerminal : TurnState → Bool
  | .completed | .blocked | .failed | .stopped => true
  | .starting | .running | .recoveryPending => false

inductive TerminalTurnState where
  | completed | blocked | failed | stopped
  deriving DecidableEq, Repr

/-- `TryFrom<TurnState>`. -/
def TerminalTurnState.tryFrom : TurnState → Option TerminalTurnState
  | .completed => some .completed
  | .blocked => some .blocked
  | .failed => some .failed
  | .stopped => some .stopped
  | .starting | .running | .recoveryPending => none

theorem TerminalTurnState.tryFrom_none :
    TerminalTurnState.tryFrom state = none ↔ state.isTerminal = false := by
  cases state <;> simp [TerminalTurnState.tryFrom, TurnState.isTerminal]

inductive ApprovalPolicy where
  | untrusted | onFailure | onRequest | never
  deriving DecidableEq, Repr

inductive SandboxPolicy where
  | readOnly | workspaceWrite | dangerFullAccess
  deriving DecidableEq, Repr

inductive FeatureChoice where
  | disabled | enabled
  deriving DecidableEq, Repr

structure ExperimentalFeatureChoices where
  computerUse : FeatureChoice
  providerComputerUse : FeatureChoice
  deriving DecidableEq

/-- A `NonZeroU32` number of seconds. -/
structure TimeoutPolicy where
  seconds : Nat
  positive : 0 < seconds
  bounded : seconds < u32Size
  deriving DecidableEq

structure DesktopTarget where
  binding : DesktopBindingRef
  sessionId : String
  deriving DecidableEq

structure ExecutionPolicy where
  effectiveModel : EffectiveModelRef
  providerBinding : ProviderBindingRef
  desktopTarget : DesktopTarget
  approvalPolicy : ApprovalPolicy
  sandboxPolicy : SandboxPolicy
  timeoutPolicy : TimeoutPolicy
  experimentalFeatures : ExperimentalFeatureChoices
  deriving DecidableEq

inductive TurnTransition where
  | running | recoveryPending | completed | blocked | failed | recoveryFailed
  deriving DecidableEq, Repr

def TurnTransition.intoParts : TurnTransition → TurnState × Option SafeSummary
  | .running => (.running, none)
  | .recoveryPending => (.recoveryPending, none)
  | .completed => (.completed, some .taskCompleted)
  | .blocked => (.blocked, some .blockedByPolicy)
  | .failed => (.failed, some .executionFailed)
  | .recoveryFailed => (.failed, some .daemonRestartRecoveryFailed)

def transitionAllowed : TurnState → TurnState → Bool
  | .starting, .running | .starting, .recoveryPending | .starting, .completed
  | .starting, .blocked | .starting, .failed | .starting, .stopped
  | .running, .recoveryPending | .running, .completed | .running, .blocked
  | .running, .failed | .running, .stopped
  | .recoveryPending, .running | .recoveryPending, .completed | .recoveryPending, .blocked
  | .recoveryPending, .failed | .recoveryPending, .stopped => true
  | _, _ => false

/-! ## Errors and replies -/

inductive SnapshotError where
  | emptyTurnHistory | duplicateTurnId | multipleActiveTurns | activeTurnNotLast
  | incoherentTurnRevision | revisionSumOverflow | incoherentSessionRevision
  | desktopTargetMismatch | sessionTimeInversion | turnTimeInversion
  | turnOutsideSessionBounds | firstTurnStartMismatch | turnHistoryTimeInversion
  | missingTerminalTimestamp | terminalSummaryMismatch | nonterminalMetadataPresent
  | terminalTimestampMismatch | latestTurnUpdateMismatch
  deriving DecidableEq, Repr

inductive LifecycleError where
  | revisionConflict (subject : RevisionSubject) (expected actual : Nat)
  | revisionExhausted (subject : RevisionSubject)
  | turnNotFound
  | duplicateTurnId
  | activeTurnExists (state : TurnState)
  | noActiveTurn
  | terminalTurn (state : TerminalTurnState)
  | invalidTransition (source target : TurnState)
  | desktopTargetMismatch
  | nonMonotonicTimestamp
  | invalidSnapshot (reason : SnapshotError)
  deriving DecidableEq, Repr

structure LifecycleCommit where
  sessionRevision : SessionStateRevision
  turnRevision : TurnStateRevision
  state : TurnState
  deriving DecidableEq

inductive LifecycleMutation where
  | unchanged (revisions : ExpectedRevisions)
  | committed (commit : LifecycleCommit)
  deriving DecidableEq

inductive StopObservation where
  | cancellationConfirmed | upstreamInactiveConfirmed | upstreamStillActive | outcomeUnknown
  deriving DecidableEq, Repr

inductive RetainedOwnership where
  | active | recoveryPending
  deriving DecidableEq, Repr

inductive StopOutcome where
  | stopped (commit : LifecycleCommit)
  | alreadyTerminal (state : TerminalTurnState) (revisions : ExpectedRevisions)
  | notConfirmed (ownership : RetainedOwnership) (mutation : LifecycleMutation)
  deriving DecidableEq

/-! ## Turns, Sessions and their snapshots -/

structure Turn where
  id : TurnId
  revision : TurnStateRevision
  state : TurnState
  executionPolicy : ExecutionPolicy
  startedAt : OffsetDateTime
  updatedAt : OffsetDateTime
  terminalAt : Option OffsetDateTime
  safeSummary : Option SafeSummary
  deriving DecidableEq

structure TurnSnapshot where
  id : TurnId
  revision : TurnStateRevision
  state : TurnState
  executionPolicy : ExecutionPolicy
  startedAt : OffsetDateTime
  updatedAt : OffsetDateTime
  terminalAt : Option OffsetDateTime
  safeSummary : Option SafeSummary
  deriving DecidableEq

structure Session where
  id : SessionId
  displayName : Option String
  revision : SessionStateRevision
  hostIdentity : HostIdentityRef
  desktopBinding : DesktopBindingRef
  createdAt : OffsetDateTime
  updatedAt : OffsetDateTime
  turns : List Turn
  deriving DecidableEq

structure SessionSnapshot where
  id : SessionId
  displayName : Option String
  revision : SessionStateRevision
  hostIdentity : HostIdentityRef
  desktopBinding : DesktopBindingRef
  createdAt : OffsetDateTime
  updatedAt : OffsetDateTime
  turns : List TurnSnapshot
  deriving DecidableEq

def Turn.starting (id : TurnId) (executionPolicy : ExecutionPolicy) (time : OffsetDateTime) :
    Turn where
  id := id
  revision := .initial
  state := .starting
  executionPolicy := executionPolicy
  startedAt := time
  updatedAt := time
  terminalAt := none
  safeSummary := none

def Turn.snapshot (turn : Turn) : TurnSnapshot :=
  ⟨turn.id, turn.revision, turn.state, turn.executionPolicy, turn.startedAt, turn.updatedAt,
    turn.terminalAt, turn.safeSummary⟩

/-- The Turn `Session::restore` rebuilds from its stored fields. -/
def Turn.ofSnapshot (turn : TurnSnapshot) : Turn :=
  ⟨turn.id, turn.revision, turn.state, turn.executionPolicy, turn.startedAt, turn.updatedAt,
    turn.terminalAt, turn.safeSummary⟩

def Session.snapshot (self : Session) : SessionSnapshot :=
  ⟨self.id, self.displayName, self.revision, self.hostIdentity, self.desktopBinding,
    self.createdAt, self.updatedAt, self.turns.map Turn.snapshot⟩

/-- The Session `Session::restore` rebuilds once the snapshot has passed. -/
def Session.ofSnapshot (snapshot : SessionSnapshot) : Session :=
  ⟨snapshot.id, snapshot.displayName, snapshot.revision, snapshot.hostIdentity,
    snapshot.desktopBinding, snapshot.createdAt, snapshot.updatedAt,
    snapshot.turns.map Turn.ofSnapshot⟩

@[simp] theorem Turn.ofSnapshot_snapshot (turn : Turn) : Turn.ofSnapshot turn.snapshot = turn := rfl

@[simp] theorem Turn.snapshot_ofSnapshot (turn : TurnSnapshot) :
    (Turn.ofSnapshot turn).snapshot = turn := rfl

@[simp] theorem Session.snapshot_ofSnapshot (snapshot : SessionSnapshot) :
    (Session.ofSnapshot snapshot).snapshot = snapshot := by
  simp [Session.ofSnapshot, Session.snapshot, Function.comp_def]

@[simp] theorem Session.ofSnapshot_snapshot (self : Session) :
    Session.ofSnapshot self.snapshot = self := by
  simp [Session.ofSnapshot, Session.snapshot, Function.comp_def]

def terminalSummaryMatches : TurnState → Option SafeSummary → Bool
  | .completed, summary => summary = some .taskCompleted
  | .blocked, summary => summary = some .blockedByPolicy
  | .failed, summary =>
    summary = some .executionFailed ∨ summary = some .daemonRestartRecoveryFailed
  | .stopped, summary => summary = none
  | .starting, _ | .running, _ | .recoveryPending, _ => false

/-! ## The snapshot validator -/

/-- What the loop of `validate` carries from one Turn to the next. The index
is the loop counter of `enumerate`. -/
structure ValidateState where
  index : Nat := 0
  seenTurnIds : List TurnId := []
  activeTurnIndex : Option Nat := none
  turnRevisionSum : Nat := 0
  previousTurnUpdatedAt : Option OffsetDateTime := none

namespace SessionSnapshot

/-- The state after a Turn that passed, unless the revision sum leaves the
64-bit range. -/
def addTurn (state : ValidateState) (turn : TurnSnapshot) (active : Option Nat) :
    Except SnapshotError ValidateState :=
  if state.turnRevisionSum + turn.revision.value < u64Size then
    .ok { index := state.index + 1
          seenTurnIds := turn.id :: state.seenTurnIds
          activeTurnIndex := active
          turnRevisionSum := state.turnRevisionSum + turn.revision.value
          previousTurnUpdatedAt := some turn.updatedAt }
  else .error .revisionSumOverflow

/-- The second half of an iteration: the one-active-Turn rule, the terminal
metadata and the revision sum. -/
def validateMetadata (state : ValidateState) (turn : TurnSnapshot) :
    Except SnapshotError ValidateState :=
  if !turn.state.isTerminal then
    if state.activeTurnIndex.isSome then .error .multipleActiveTurns
    else if turn.terminalAt.isSome ∨ turn.safeSummary.isSome then
      .error .nonterminalMetadataPresent
    else addTurn state turn (some state.index)
  else
    match turn.terminalAt with
    | none => .error .missingTerminalTimestamp
    | some terminalAt =>
      if terminalAt ≠ turn.updatedAt then .error .terminalTimestampMismatch
      else if !terminalSummaryMatches turn.state turn.safeSummary then
        .error .terminalSummaryMismatch
      else addTurn state turn state.activeTurnIndex

/-- One iteration of the loop of `validate`. -/
def validateTurn (self : SessionSnapshot) (state : ValidateState) (turn : TurnSnapshot) :
    Except SnapshotError ValidateState :=
  if turn.id ∈ state.seenTurnIds then .error .duplicateTurnId
  else if turn.startedAt > turn.updatedAt then .error .turnTimeInversion
  else if turn.startedAt < self.createdAt ∨ turn.updatedAt > self.updatedAt then
    .error .turnOutsideSessionBounds
  else if state.index = 0 ∧ turn.startedAt ≠ self.createdAt then .error .firstTurnStartMismatch
  else if state.previousTurnUpdatedAt.any (fun previous => turn.startedAt < previous) then
    .error .turnHistoryTimeInversion
  else if turn.executionPolicy.desktopTarget.binding ≠ self.desktopBinding then
    .error .desktopTargetMismatch
  else if decide (turn.state = .starting) ≠ decide (turn.revision.value = 1) then
    .error .incoherentTurnRevision
  else validateMetadata state turn

def validate (self : SessionSnapshot) : Except SnapshotError Unit :=
  if self.turns = [] then .error .emptyTurnHistory
  else if self.createdAt > self.updatedAt then .error .sessionTimeInversion
  else
    match self.turns.foldlM self.validateTurn {} with
    | .error e => .error e
    | .ok state =>
      if state.activeTurnIndex.any (fun index => index + 1 ≠ self.turns.length) then
        .error .activeTurnNotLast
      else if state.turnRevisionSum ≠ self.revision.value then .error .incoherentSessionRevision
      else if self.turns.getLast?.map (·.updatedAt) ≠ some self.updatedAt then
        .error .latestTurnUpdateMismatch
      else .ok ()

end SessionSnapshot

/-! ## Building a Session -/

namespace Session

def startWithDisplayName (id : SessionId) (displayName : Option String)
    (hostIdentity : HostIdentityRef) (desktopBinding : DesktopBindingRef) (turnId : TurnId)
    (executionPolicy : ExecutionPolicy) (time : OffsetDateTime) : Except LifecycleError Session :=
  if executionPolicy.desktopTarget.binding ≠ desktopBinding then .error .desktopTargetMismatch
  else .ok {
    id := id
    displayName := displayName
    revision := .initial
    hostIdentity := hostIdentity
    desktopBinding := desktopBinding
    createdAt := time
    updatedAt := time
    turns := [Turn.starting turnId executionPolicy time] }

def start (id : SessionId) (hostIdentity : HostIdentityRef) (desktopBinding : DesktopBindingRef)
    (turnId : TurnId) (executionPolicy : ExecutionPolicy) (time : OffsetDateTime) :
    Except LifecycleError Session :=
  startWithDisplayName id none hostIdentity desktopBinding turnId executionPolicy time

def restore (snapshot : SessionSnapshot) : Except LifecycleError Session :=
  match snapshot.validate with
  | .error reason => .error (.invalidSnapshot reason)
  | .ok () => .ok (ofSnapshot snapshot)

def turn (self : Session) (turnId : TurnId) : Option Turn :=
  self.turns.find? (fun turn => turn.id = turnId)

/-! ## The operations -/

def checkSessionRevision (self : Session) (expected : SessionStateRevision) :
    Except LifecycleError Unit :=
  if self.revision = expected then .ok ()
  else .error (.revisionConflict .session expected.value self.revision.value)

def checkTurnRevision (self : Session) (index : Fin self.turns.length)
    (expected : TurnStateRevision) : Except LifecycleError Unit :=
  if (self.turns.get index).revision = expected then .ok ()
  else .error (.revisionConflict .turn expected.value (self.turns.get index).revision.value)

def nextSessionRevision (self : Session) : Except LifecycleError SessionStateRevision :=
  self.revision.next.mapError fun _ => .revisionExhausted .session

def startFollowUp (self : Session) (expectedSessionRevision : SessionStateRevision)
    (turnId : TurnId) (executionPolicy : ExecutionPolicy) (time : OffsetDateTime) :
    Except LifecycleError LifecycleCommit × Session :=
  match self.checkSessionRevision expectedSessionRevision with
  | .error e => (.error e, self)
  | .ok () =>
    match self.turns.find? (fun turn => !turn.state.isTerminal) with
    | some active => (.error (.activeTurnExists active.state), self)
    | none =>
      if self.turns.any (fun turn => turn.id = turnId) then (.error .duplicateTurnId, self)
      else if executionPolicy.desktopTarget.binding ≠ self.desktopBinding then
        (.error .desktopTargetMismatch, self)
      else if time < self.updatedAt then (.error .nonMonotonicTimestamp, self)
      else
        match self.nextSessionRevision with
        | .error e => (.error e, self)
        | .ok sessionRevision =>
          (.ok ⟨sessionRevision, .initial, .starting⟩,
            { self with
              turns := self.turns ++ [Turn.starting turnId executionPolicy time]
              revision := sessionRevision
              updatedAt := time })

/-- The Turn `commit_turn_state` writes back. -/
def committedTurn (turn : Turn) (turnRevision : TurnStateRevision) (state : TurnState)
    (safeSummary : Option SafeSummary) (time : OffsetDateTime) : Turn :=
  { turn with
    state := state
    revision := turnRevision
    updatedAt := time
    terminalAt := if state.isTerminal then some time else none
    safeSummary := safeSummary }

@[simp] theorem committedTurn_id :
    (committedTurn before turnRevision state safeSummary time).id = before.id := rfl

@[simp] theorem committedTurn_startedAt :
    (committedTurn before turnRevision state safeSummary time).startedAt = before.startedAt := rfl

def commitTurnState (self : Session) (index : Fin self.turns.length) (state : TurnState)
    (safeSummary : Option SafeSummary) (time : OffsetDateTime) :
    Except LifecycleError LifecycleCommit × Session :=
  if time < self.updatedAt ∨ time < (self.turns.get index).updatedAt then
    (.error .nonMonotonicTimestamp, self)
  else
    match self.nextSessionRevision with
    | .error e => (.error e, self)
    | .ok sessionRevision =>
      match (self.turns.get index).revision.next with
      | .error _ => (.error (.revisionExhausted .turn), self)
      | .ok turnRevision =>
        (.ok ⟨sessionRevision, turnRevision, state⟩,
          { self with
            turns := self.turns.set index
              (committedTurn (self.turns.get index) turnRevision state safeSummary time)
            revision := sessionRevision
            updatedAt := time })

def turnIndex (self : Session) (turnId : TurnId) : Option (Fin self.turns.length) :=
  self.turns.findFinIdx? (fun turn => turn.id = turnId)

def checkedTurnIndex (self : Session) (turnId : TurnId) (expected : ExpectedRevisions) :
    Except LifecycleError (Fin self.turns.length) :=
  match self.checkSessionRevision expected.session with
  | .error e => .error e
  | .ok () =>
    match self.turnIndex turnId with
    | none => .error .turnNotFound
    | some index =>
      match self.checkTurnRevision index expected.turn with
      | .error e => .error e
      | .ok () => .ok index

def transitionTurn (self : Session) (turnId : TurnId) (expected : ExpectedRevisions)
    (transition : TurnTransition) (time : OffsetDateTime) :
    Except LifecycleError LifecycleCommit × Session :=
  match self.checkedTurnIndex turnId expected with
  | .error e => (.error e, self)
  | .ok index =>
    match TerminalTurnState.tryFrom (self.turns.get index).state with
    | some state => (.error (.terminalTurn state), self)
    | none =>
      if !transitionAllowed (self.turns.get index).state transition.intoParts.1 then
        (.error (.invalidTransition (self.turns.get index).state transition.intoParts.1), self)
      else self.commitTurnState index transition.intoParts.1 transition.intoParts.2 time

def retainOwnership (self : Session) (index : Fin self.turns.length) (state : TurnState)
    (ownership : RetainedOwnership) (expected : ExpectedRevisions) (time : OffsetDateTime) :
    Except LifecycleError StopOutcome × Session :=
  if (self.turns.get index).state = state then
    (.ok (.notConfirmed ownership (.unchanged expected)), self)
  else
    match self.commitTurnState index state none time with
    | (.error e, after) => (.error e, after)
    | (.ok commit, after) => (.ok (.notConfirmed ownership (.committed commit)), after)

def stopTurn (self : Session) (turnId : TurnId) (expected : ExpectedRevisions)
    (observation : StopObservation) (time : OffsetDateTime) :
    Except LifecycleError StopOutcome × Session :=
  match self.turnIndex turnId with
  | none => (.error .turnNotFound, self)
  | some index =>
    match TerminalTurnState.tryFrom (self.turns.get index).state with
    | some state =>
      (.ok (.alreadyTerminal state ⟨self.revision, (self.turns.get index).revision⟩), self)
    | none =>
      match self.checkSessionRevision expected.session with
      | .error e => (.error e, self)
      | .ok () =>
        match self.checkTurnRevision index expected.turn with
        | .error e => (.error e, self)
        | .ok () =>
          match observation with
          | .cancellationConfirmed | .upstreamInactiveConfirmed =>
            match self.commitTurnState index .stopped none time with
            | (.error e, after) => (.error e, after)
            | (.ok commit, after) => (.ok (.stopped commit), after)
          | .upstreamStillActive => self.retainOwnership index .running .active expected time
          | .outcomeUnknown =>
            self.retainOwnership index .recoveryPending .recoveryPending expected time

def activeIndex (self : Session) : Option (Fin self.turns.length) :=
  self.turns.findFinIdx? (fun turn => !turn.state.isTerminal)

def markActiveRecoveryPending (self : Session) (expected : ExpectedRevisions)
    (time : OffsetDateTime) : Except LifecycleError LifecycleMutation × Session :=
  match self.checkSessionRevision expected.session with
  | .error e => (.error e, self)
  | .ok () =>
    match self.activeIndex with
    | none => (.error .noActiveTurn, self)
    | some index =>
      match self.checkTurnRevision index expected.turn with
      | .error e => (.error e, self)
      | .ok () =>
        if (self.turns.get index).state = .recoveryPending then
          (.ok (.unchanged expected), self)
        else
          match self.commitTurnState index .recoveryPending none time with
          | (.error e, after) => (.error e, after)
          | (.ok commit, after) => (.ok (.committed commit), after)

end Session

end Satelle.Core
