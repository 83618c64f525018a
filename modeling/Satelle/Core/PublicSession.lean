import Satelle.Core.Session

/-! The public projection of a Session (`Session::to_public`) and its decoder
(`core/session-public.rs`). A wire value is what serde has decoded field by
field; the two validators decide whether it becomes a public Turn or Session.
Rejections carry the text the source gives them. -/
namespace Satelle.Core

inductive SessionActivity where
  | idle
  | starting (turnId : TurnId) (turnStateRevision : TurnStateRevision)
  | running (turnId : TurnId) (turnStateRevision : TurnStateRevision)
  | recoveryPending (turnId : TurnId) (turnStateRevision : TurnStateRevision)
  deriving DecidableEq

/-- The activity of a Session whose active Turn is the given one. No terminal
Turn is active. -/
def SessionActivity.ofActive (state : TurnState) (turnId : TurnId)
    (turnStateRevision : TurnStateRevision) : Option SessionActivity :=
  match state with
  | .starting => some (.starting turnId turnStateRevision)
  | .running => some (.running turnId turnStateRevision)
  | .recoveryPending => some (.recoveryPending turnId turnStateRevision)
  | .completed | .blocked | .failed | .stopped => none

structure PublicTurn where
  sessionId : SessionId
  turnId : TurnId
  turnStateRevision : TurnStateRevision
  state : TurnState
  startedAt : OffsetDateTime
  updatedAt : OffsetDateTime
  terminalAt : Option OffsetDateTime
  safeSummary : Option SafeSummary
  deriving DecidableEq

structure PublicSession where
  sessionId : SessionId
  desktopBinding : String
  displayName : Option String
  sessionStateRevision : SessionStateRevision
  createdAt : OffsetDateTime
  updatedAt : OffsetDateTime
  activity : SessionActivity
  turns : List PublicTurn
  deriving DecidableEq

def Turn.toPublic (self : Turn) (sessionId : SessionId) : PublicTurn where
  sessionId := sessionId
  turnId := self.id
  turnStateRevision := self.revision
  state := self.state
  startedAt := self.startedAt
  updatedAt := self.updatedAt
  terminalAt := self.terminalAt
  safeSummary := self.safeSummary

/-- The first nonterminal Turn decides. The default stands for the source's
`unreachable!`: the Turn found is never terminal. -/
def Session.activity (self : Session) : SessionActivity :=
  match self.turns.find? (fun turn => !turn.state.isTerminal) with
  | none => .idle
  | some turn => (SessionActivity.ofActive turn.state turn.id turn.revision).getD .idle

def Session.toPublic (self : Session) : PublicSession where
  sessionId := self.id
  desktopBinding := self.desktopBinding.text
  displayName := self.displayName
  sessionStateRevision := self.revision
  createdAt := self.createdAt
  updatedAt := self.updatedAt
  activity := self.activity
  turns := self.turns.map (fun turn => turn.toPublic self.id)

/-! ## The validators of the decoder -/

def validateTurn (turn : PublicTurn) : Except String Unit :=
  if turn.startedAt > turn.updatedAt then .error "a public Turn starts after its update time"
  else if decide (turn.state = .starting) ≠ decide (turn.turnStateRevision.value = 1) then
    .error "a public Turn state contradicts its revision"
  else if turn.state.isTerminal then
    if turn.terminalAt ≠ some turn.updatedAt then
      .error "a terminal public Turn has incoherent terminal time"
    else if !terminalSummaryMatches turn.state turn.safeSummary then
      .error "a terminal public Turn has incoherent safe summary"
    else .ok ()
  else if turn.terminalAt.isSome ∨ turn.safeSummary.isSome then
    .error "a nonterminal public Turn contains terminal metadata"
  else .ok ()

/-- What the loop of `validate_session` carries. The active Turn is kept with
its position. -/
structure PublicValidateState where
  index : Nat := 0
  seenTurnIds : List TurnId := []
  activeTurn : Option (PublicTurn × Nat) := none
  revisionSum : Nat := 0
  previousUpdatedAt : Option OffsetDateTime := none

/-- One iteration of the loop of `validate_session`. -/
def validateSessionTurn (session : PublicSession) (state : PublicValidateState)
    (turn : PublicTurn) : Except String PublicValidateState :=
  if turn.sessionId ≠ session.sessionId then
    .error "a public Turn belongs to a different Session"
  else if turn.turnId ∈ state.seenTurnIds then
    .error "a public Session contains a duplicate Turn identifier"
  else if turn.startedAt < session.createdAt ∨ turn.updatedAt > session.updatedAt then
    .error "a public Turn timestamp is outside its Session bounds"
  else if state.index = 0 ∧ turn.startedAt ≠ session.createdAt then
    .error "the first public Turn does not start with its Session"
  else if state.previousUpdatedAt.any (fun previous => turn.startedAt < previous) then
    .error "public Turn history moves backwards in time"
  else if turn.state.isTerminal = false ∧ state.activeTurn.isSome then
    .error "a public Session contains more than one active Turn"
  else if ¬state.revisionSum + turn.turnStateRevision.value < u64Size then
    .error "public Session revision sum overflow"
  else
    .ok { index := state.index + 1
          seenTurnIds := turn.turnId :: state.seenTurnIds
          activeTurn := if turn.state.isTerminal then state.activeTurn else some (turn, state.index)
          revisionSum := state.revisionSum + turn.turnStateRevision.value
          previousUpdatedAt := some turn.updatedAt }

/-- The activity the Turn history implies. -/
def expectedActivity (activeTurn : Option (PublicTurn × Nat)) : Except String SessionActivity :=
  match activeTurn with
  | none => .ok .idle
  | some (turn, _) =>
    match SessionActivity.ofActive turn.state turn.turnId turn.turnStateRevision with
    | some activity => .ok activity
    | none => .error "a terminal public Turn was selected as active"

def validateSession (session : PublicSession) : Except String Unit :=
  match (Reference.new session.desktopBinding : Except ReferenceError DesktopBindingRef) with
  | .error _ => .error "a public Session has an invalid Desktop Binding"
  | .ok _ =>
    if session.turns = [] then .error "a public Session requires Turn history"
    else if session.createdAt > session.updatedAt then
      .error "a public Session starts after its update time"
    else
      match session.turns.foldlM (validateSessionTurn session) {} with
      | .error e => .error e
      | .ok state =>
        if state.activeTurn.any (fun active => active.2 + 1 ≠ session.turns.length) then
          .error "an active public Turn is not last in history"
        else if state.revisionSum ≠ session.sessionStateRevision.value then
          .error "a public Session revision contradicts its Turn revisions"
        else if session.turns.getLast?.map (·.updatedAt) ≠ some session.updatedAt then
          .error "a public Session update time differs from its latest Turn"
        else
          match expectedActivity state.activeTurn with
          | .error e => .error e
          | .ok activity =>
            if session.activity ≠ activity then
              .error "public Session activity contradicts Turn history"
            else .ok ()

/-! ## The wire -/

structure PublicTurnWire where
  sessionId : SessionId
  turnId : TurnId
  turnStateRevision : TurnStateRevision
  state : TurnState
  startedAt : OffsetDateTime
  updatedAt : OffsetDateTime
  terminalAt : Option OffsetDateTime
  safeSummary : Option SafeSummary
  deriving DecidableEq

/-- The wire form of a Session. Its Turns are wire Turns: serde runs the Turn
decoder on each of them before the Session is checked. -/
structure PublicSessionWire where
  sessionId : SessionId
  desktopBinding : String
  displayName : Option String
  sessionStateRevision : SessionStateRevision
  createdAt : OffsetDateTime
  updatedAt : OffsetDateTime
  activity : SessionActivity
  turns : List PublicTurnWire
  deriving DecidableEq

def PublicTurn.serialize (self : PublicTurn) : PublicTurnWire :=
  ⟨self.sessionId, self.turnId, self.turnStateRevision, self.state, self.startedAt,
    self.updatedAt, self.terminalAt, self.safeSummary⟩

def PublicTurn.deserialize (wire : PublicTurnWire) : Except String PublicTurn :=
  let turn : PublicTurn := ⟨wire.sessionId, wire.turnId, wire.turnStateRevision, wire.state,
    wire.startedAt, wire.updatedAt, wire.terminalAt, wire.safeSummary⟩
  match validateTurn turn with
  | .error e => .error e
  | .ok () => .ok turn

/-- The display name is skipped when a Session is written and defaults to
nothing when it is read. -/
def PublicSession.serialize (self : PublicSession) : PublicSessionWire :=
  ⟨self.sessionId, self.desktopBinding, none, self.sessionStateRevision, self.createdAt,
    self.updatedAt, self.activity, self.turns.map PublicTurn.serialize⟩

def publicSnapshotError : String := "the public lifecycle snapshot violates a Session invariant"

/-- `Deserialize for PublicSession`, with `try_from_wire` as its second half. -/
def PublicSession.deserialize (wire : PublicSessionWire) : Except String PublicSession :=
  match wire.turns.mapM PublicTurn.deserialize with
  | .error e => .error e
  | .ok turns =>
    let session : PublicSession := ⟨wire.sessionId, wire.desktopBinding, wire.displayName,
      wire.sessionStateRevision, wire.createdAt, wire.updatedAt, wire.activity, turns⟩
    match validateSession session with
    | .error _ => .error publicSnapshotError
    | .ok () => .ok session

end Satelle.Core
