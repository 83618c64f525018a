import Satelle.SessionInvariants

/-! The four operations as requests to one Session. `perform_cases` says once
what a request can do: leave the Session as it is, append a Turn, or advance
the one active Turn. Every property of runs is derived from it. -/
namespace Satelle.SessionLifecycle
open Satelle.Core Lib SessionInvariants

/-- A call of one of the operations that take `&mut self`, with its arguments. -/
inductive LifecycleCall where
  | startFollowUp (expected : SessionStateRevision) (turnId : TurnId)
      (executionPolicy : ExecutionPolicy) (time : OffsetDateTime)
  | transitionTurn (turnId : TurnId) (expected : ExpectedRevisions)
      (transition : TurnTransition) (time : OffsetDateTime)
  | stopTurn (turnId : TurnId) (expected : ExpectedRevisions)
      (observation : StopObservation) (time : OffsetDateTime)
  | markActiveRecoveryPending (expected : ExpectedRevisions) (time : OffsetDateTime)
  deriving DecidableEq

/-- What a call returns. -/
inductive LifecycleReply where
  | commit (result : Except LifecycleError LifecycleCommit)
  | stop (result : Except LifecycleError StopOutcome)
  | mutation (result : Except LifecycleError LifecycleMutation)

/-- The commit a reply reports. Errors, `Unchanged` and `AlreadyTerminal`
report none. -/
def LifecycleReply.committed : LifecycleReply → Option LifecycleCommit
  | .commit (.ok made) => some made
  | .commit (.error _) => none
  | .stop (.ok (.stopped made)) => some made
  | .stop (.ok (.notConfirmed _ (.committed made))) => some made
  | .stop (.ok (.notConfirmed _ (.unchanged _))) => none
  | .stop (.ok (.alreadyTerminal _ _)) => none
  | .stop (.error _) => none
  | .mutation (.ok (.committed made)) => some made
  | .mutation (.ok (.unchanged _)) => none
  | .mutation (.error _) => none

/-- Runs a call: what it returns, and the Session it leaves behind. -/
def perform (session : Session) : LifecycleCall → LifecycleReply × Session
  | .startFollowUp expected turnId executionPolicy time =>
    (session.startFollowUp expected turnId executionPolicy time).map .commit id
  | .transitionTurn turnId expected transition time =>
    (session.transitionTurn turnId expected transition time).map .commit id
  | .stopTurn turnId expected observation time =>
    (session.stopTurn turnId expected observation time).map .stop id
  | .markActiveRecoveryPending expected time =>
    (session.markActiveRecoveryPending expected time).map .mutation id

namespace LifecycleCall

/-- The Session revision a call was prepared against. -/
def expectedSession : LifecycleCall → SessionStateRevision
  | .startFollowUp expected _ _ _ => expected
  | .transitionTurn _ expected _ _ => expected.session
  | .stopTurn _ expected _ _ => expected.session
  | .markActiveRecoveryPending expected _ => expected.session

/-- The position of the existing Turn a call is about. -/
def target (session : Session) : LifecycleCall → Option (Fin session.turns.length)
  | .startFollowUp _ _ _ _ => none
  | .transitionTurn turnId _ _ _ => session.turnIndex turnId
  | .stopTurn turnId _ _ _ => session.turnIndex turnId
  | .markActiveRecoveryPending _ _ => session.activeIndex

end LifecycleCall

/-! ## What a request can do -/

/-- The Session after a follow-up Turn has been appended. -/
def appendTurn (session : Session) (revision : SessionStateRevision) (turnId : TurnId)
    (executionPolicy : ExecutionPolicy) (time : OffsetDateTime) : Session :=
  { session with
    turns := session.turns ++ [Turn.starting turnId executionPolicy time]
    revision := revision
    updatedAt := time }

/-- The Session after one Turn has been moved to a new state. -/
def advanceTurn (session : Session) (index : Fin session.turns.length)
    (revision : SessionStateRevision) (turnRevision : TurnStateRevision) (state : TurnState)
    (summary : Option SafeSummary) (time : OffsetDateTime) : Session :=
  { session with
    turns := session.turns.set index
      (Session.committedTurn (session.turns.get index) turnRevision state summary time)
    revision := revision
    updatedAt := time }

/-- The summaries an operation may write together with a state. -/
def Summarizes (state : TurnState) (summary : Option SafeSummary) : Prop :=
  if state.isTerminal then terminalSummaryMatches state summary = true else summary = none

/-- A call that commits against a Session, what it reports and what it leaves. -/
inductive Commits (session : Session) : LifecycleCall → LifecycleCommit → Session → Prop where
  | appended (idle : ∀ turn ∈ session.turns, turn.state.isTerminal = true)
      (fresh : ∀ turn ∈ session.turns, turn.id ≠ turnId)
      (target : executionPolicy.desktopTarget.binding = session.desktopBinding)
      (later : session.updatedAt ≤ time)
      (next : revision.value = session.revision.value + 1) :
      Commits session (.startFollowUp session.revision turnId executionPolicy time)
        ⟨revision, .initial, .starting⟩
        (appendTurn session revision turnId executionPolicy time)
  | advanced (index : Fin session.turns.length) (targeted : call.target session = some index)
      (expected : call.expectedSession = session.revision)
      (active : (session.turns.get index).state.isTerminal = false)
      (moved : state ≠ .starting) (summarized : Summarizes state summary)
      (later : session.updatedAt ≤ time)
      (next : revision.value = session.revision.value + 1)
      (turnNext : turnRevision.value = (session.turns.get index).revision.value + 1) :
      Commits session call ⟨revision, turnRevision, state⟩
        (advanceTurn session index revision turnRevision state summary time)

theorem Commits.expected (commits : Commits session call commit after) :
    call.expectedSession = session.revision := by
  cases commits with
  | appended => rfl
  | advanced _ _ expected => exact expected

theorem Commits.nextRevision (commits : Commits session call commit after) :
    after.revision = commit.sessionRevision ∧
      commit.sessionRevision.value = session.revision.value + 1 := by
  cases commits with
  | appended _ _ _ _ next | advanced _ _ _ _ _ _ _ next => exact ⟨rfl, next⟩

private theorem checkSessionRevision_ok {session : Session} :
    session.checkSessionRevision expected = .ok () ↔ expected = session.revision := by
  unfold Session.checkSessionRevision
  by_cases same : session.revision = expected
  · simp [same]
  · simp [same, Ne.symm same]

private theorem nextSessionRevision_ok {session : Session} :
    session.nextSessionRevision = .ok revision ↔
      revision.value = session.revision.value + 1 := by
  unfold Session.nextSessionRevision
  rw [← Revision.next_ok]
  cases session.revision.next <;> simp [Except.mapError]

private theorem transition_moves (transition : TurnTransition) :
    transition.intoParts.1 ≠ .starting ∧
      Summarizes transition.intoParts.1 transition.intoParts.2 := by
  cases transition <;>
    simp [TurnTransition.intoParts, Summarizes, TurnState.isTerminal, terminalSummaryMatches]

theorem startFollowUp_cases (session : Session) (expected : SessionStateRevision)
    (turnId : TurnId) (policy : ExecutionPolicy) (time : OffsetDateTime) :
    (∃ e, session.startFollowUp expected turnId policy time = (.error e, session)) ∨
    ∃ commit after, session.startFollowUp expected turnId policy time = (.ok commit, after) ∧
      Commits session (.startFollowUp expected turnId policy time) commit after := by
  unfold Session.startFollowUp
  cases checked : session.checkSessionRevision expected with
  | error e => exact .inl ⟨e, rfl⟩
  | ok _ =>
    cases checkSessionRevision_ok.mp checked
    cases active : session.turns.find? (fun turn => !turn.state.isTerminal) with
    | some turn => exact .inl ⟨_, rfl⟩
    | none =>
      have idle : ∀ turn ∈ session.turns, turn.state.isTerminal = true := by
        simpa using List.find?_eq_none.mp active
      simp only
      by_cases known : session.turns.any (fun turn => turn.id = turnId) = true
      · exact .inl ⟨_, if_pos known⟩
      by_cases mismatch : policy.desktopTarget.binding ≠ session.desktopBinding
      · exact .inl ⟨_, by rw [if_neg known, if_pos mismatch]⟩
      by_cases early : time < session.updatedAt
      · exact .inl ⟨_, by rw [if_neg known, if_neg mismatch, if_pos early]⟩
      rw [if_neg known, if_neg mismatch, if_neg early]
      cases next : session.nextSessionRevision with
      | error e => exact .inl ⟨e, rfl⟩
      | ok revision =>
        have fresh : ∀ turn ∈ session.turns, turn.id ≠ turnId := by
          simpa using known
        exact .inr ⟨_, _, rfl, .appended idle fresh (not_not.mp mismatch) (not_lt.mp early)
          (nextSessionRevision_ok.mp next)⟩

/-- A call that reaches `commit_turn_state` on its own active target, whatever
it makes of the reply. -/
private theorem commitTurnState_commits
    {index : Fin session.turns.length} (targeted : call.target session = some index)
    (expected : call.expectedSession = session.revision)
    (active : (session.turns.get index).state.isTerminal = false)
    (moved : state ≠ .starting) (summarized : Summarizes state summary) (time : OffsetDateTime) :
    (∃ e, session.commitTurnState index state summary time = (.error e, session)) ∨
    ∃ commit after, session.commitTurnState index state summary time = (.ok commit, after) ∧
      Commits session call commit after ∧ commit.state = state := by
  unfold Session.commitTurnState
  by_cases early : time < session.updatedAt ∨ time < (session.turns.get index).updatedAt
  · exact .inl ⟨_, if_pos early⟩
  · rw [if_neg early]
    rw [not_or] at early
    cases next : session.nextSessionRevision with
    | error e => exact .inl ⟨e, rfl⟩
    | ok revision =>
      cases turnNext : (session.turns.get index).revision.next with
      | error e => exact .inl ⟨_, rfl⟩
      | ok turnRevision =>
        exact .inr ⟨_, _, rfl, .advanced index targeted expected active moved summarized
          (not_lt.mp early.1) (nextSessionRevision_ok.mp next) (Revision.next_ok.mp turnNext), rfl⟩

theorem transitionTurn_cases (session : Session) (turnId : TurnId)
    (expected : ExpectedRevisions) (transition : TurnTransition) (time : OffsetDateTime) :
    (∃ e, session.transitionTurn turnId expected transition time = (.error e, session)) ∨
    ∃ commit after, session.transitionTurn turnId expected transition time = (.ok commit, after) ∧
      Commits session (.transitionTurn turnId expected transition time) commit after := by
  have targets : (LifecycleCall.transitionTurn turnId expected transition time).target session =
      session.turnIndex turnId := rfl
  unfold Session.transitionTurn Session.checkedTurnIndex
  cases checked : session.checkSessionRevision expected.session with
  | error e => exact .inl ⟨e, rfl⟩
  | ok _ =>
    cases found : session.turnIndex turnId with
    | none => exact .inl ⟨_, rfl⟩
    | some index =>
      cases turnChecked : session.checkTurnRevision index expected.turn with
      | error e => exact .inl ⟨e, by simp only [turnChecked]⟩
      | ok _ =>
        simp only [turnChecked]
        cases terminal : TerminalTurnState.tryFrom (session.turns.get index).state with
        | some state => exact .inl ⟨_, rfl⟩
        | none =>
          simp only
          by_cases barred :
              (!transitionAllowed (session.turns.get index).state transition.intoParts.1) = true
          · exact .inl ⟨_, if_pos barred⟩
          · rw [if_neg barred]
            obtain ⟨moved, summarized⟩ := transition_moves transition
            refine (commitTurnState_commits (targets.trans found)
              (checkSessionRevision_ok.mp checked) (TerminalTurnState.tryFrom_none.mp terminal)
              moved summarized time).imp_right ?_
            exact fun ⟨commit, after, ran, commits, _⟩ => ⟨commit, after, ran, commits⟩

/-- The state in which a stop without confirmation leaves its Turn. -/
def retainedState : RetainedOwnership → TurnState
  | .active => .running
  | .recoveryPending => .recoveryPending

theorem retainedState_active (ownership : RetainedOwnership) :
    (retainedState ownership).isTerminal = false ∧ retainedState ownership ≠ .starting := by
  cases ownership <;> exact ⟨rfl, by decide⟩

/-- How `stop_turn` can end, apart from an error. -/
inductive StopEnds (session : Session) (call : LifecycleCall) : StopOutcome → Session → Prop where
  | alreadyTerminal (index : Fin session.turns.length)
      (targeted : call.target session = some index)
      (terminal : TerminalTurnState.tryFrom (session.turns.get index).state = some state) :
      StopEnds session call
        (.alreadyTerminal state ⟨session.revision, (session.turns.get index).revision⟩) session
  | retained (index : Fin session.turns.length) (targeted : call.target session = some index)
      (same : (session.turns.get index).state = retainedState ownership) :
      StopEnds session call (.notConfirmed ownership (.unchanged expected)) session
  | stopped (commits : Commits session call commit after) (state : commit.state = .stopped) :
      StopEnds session call (.stopped commit) after
  | moved (commits : Commits session call commit after)
      (state : commit.state = retainedState ownership) :
      StopEnds session call (.notConfirmed ownership (.committed commit)) after

private theorem retainOwnership_cases
    {index : Fin session.turns.length} (targeted : call.target session = some index)
    (fits : call.expectedSession = session.revision)
    (active : (session.turns.get index).state.isTerminal = false)
    (ownership : RetainedOwnership) (expected : ExpectedRevisions) (time : OffsetDateTime) :
    (∃ e, session.retainOwnership index (retainedState ownership) ownership expected time =
        (.error e, session)) ∨
    ∃ outcome after, session.retainOwnership index (retainedState ownership) ownership expected
        time = (.ok outcome, after) ∧ StopEnds session call outcome after := by
  unfold Session.retainOwnership
  by_cases same : (session.turns.get index).state = retainedState ownership
  · exact .inr ⟨_, _, if_pos same, .retained index targeted same⟩
  · rw [if_neg same]
    obtain ⟨quiet, moved⟩ := retainedState_active ownership
    have summarized : Summarizes (retainedState ownership) none := by
      simp [Summarizes, quiet]
    rcases commitTurnState_commits targeted fits active moved summarized time with
      ⟨e, failed⟩ | ⟨commit, after, ran, commits, state⟩
    · exact .inl ⟨e, by rw [failed]⟩
    · exact .inr ⟨_, _, by rw [ran], .moved commits state⟩

theorem stopTurn_cases (session : Session) (turnId : TurnId) (expected : ExpectedRevisions)
    (observation : StopObservation) (time : OffsetDateTime) :
    (∃ e, session.stopTurn turnId expected observation time = (.error e, session)) ∨
    ∃ outcome after, session.stopTurn turnId expected observation time = (.ok outcome, after) ∧
      StopEnds session (.stopTurn turnId expected observation time) outcome after := by
  have targets : (LifecycleCall.stopTurn turnId expected observation time).target session =
      session.turnIndex turnId := rfl
  unfold Session.stopTurn
  cases found : session.turnIndex turnId with
  | none => exact .inl ⟨_, rfl⟩
  | some index =>
    rw [found] at targets
    simp only
    cases terminal : TerminalTurnState.tryFrom (session.turns.get index).state with
    | some state => exact .inr ⟨_, _, rfl, .alreadyTerminal index targets terminal⟩
    | none =>
      have active := TerminalTurnState.tryFrom_none.mp terminal
      cases checked : session.checkSessionRevision expected.session with
      | error e => exact .inl ⟨e, rfl⟩
      | ok _ =>
        have fits := checkSessionRevision_ok.mp checked
        cases turnChecked : session.checkTurnRevision index expected.turn with
        | error e => exact .inl ⟨e, by simp only⟩
        | ok _ =>
          simp only
          have bare : Summarizes .stopped none := rfl
          have stops := commitTurnState_commits targets fits active (by decide) bare time
          cases observation with
          | cancellationConfirmed | upstreamInactiveConfirmed =>
            rcases stops with ⟨e, failed⟩ | ⟨commit, after, ran, commits, state⟩
            · exact .inl ⟨e, by rw [failed]⟩
            · exact .inr ⟨_, _, by rw [ran], .stopped commits state⟩
          | upstreamStillActive => exact retainOwnership_cases targets fits active .active _ time
          | outcomeUnknown =>
            exact retainOwnership_cases targets fits active .recoveryPending _ time

theorem markActiveRecoveryPending_cases (session : Session) (expected : ExpectedRevisions)
    (time : OffsetDateTime) :
    (∃ e, session.markActiveRecoveryPending expected time = (.error e, session)) ∨
    (session.markActiveRecoveryPending expected time = (.ok (.unchanged expected), session) ∧
      ∃ index, session.activeIndex = some index ∧
        (session.turns.get index).state = .recoveryPending) ∨
    ∃ commit after,
      session.markActiveRecoveryPending expected time = (.ok (.committed commit), after) ∧
      Commits session (.markActiveRecoveryPending expected time) commit after ∧
      commit.state = .recoveryPending := by
  have targets : (LifecycleCall.markActiveRecoveryPending expected time).target session =
      session.activeIndex := rfl
  unfold Session.markActiveRecoveryPending
  cases checked : session.checkSessionRevision expected.session with
  | error e => exact .inl ⟨e, rfl⟩
  | ok _ =>
    cases found : session.activeIndex with
    | none => exact .inl ⟨_, rfl⟩
    | some index =>
      have active : (session.turns.get index).state.isTerminal = false := by
        simpa using (List.findFinIdx?_eq_some_iff.mp found).1
      simp only
      cases turnChecked : session.checkTurnRevision index expected.turn with
      | error e => exact .inl ⟨e, by simp only⟩
      | ok _ =>
        simp only
        by_cases same : (session.turns.get index).state = .recoveryPending
        · exact .inr (.inl ⟨if_pos same, index, rfl, same⟩)
        · rw [if_neg same]
          have bare : Summarizes .recoveryPending none := rfl
          rcases commitTurnState_commits (targets.trans found) (checkSessionRevision_ok.mp checked)
            active (by decide) bare time with ⟨e, failed⟩ | ⟨commit, after, ran, commits, state⟩
          · exact .inl ⟨e, by rw [failed]⟩
          · exact .inr (.inr ⟨_, _, by rw [ran], commits, state⟩)

/-- Every request either reports no commit and leaves the Session as it was,
or reports the commit it made. -/
theorem perform_cases (session : Session) (call : LifecycleCall) :
    ((perform session call).1.committed = none ∧ (perform session call).2 = session) ∨
    ∃ commit, (perform session call).1.committed = some commit ∧
      Commits session call commit (perform session call).2 := by
  cases call with
  | startFollowUp expected turnId policy time =>
    rcases startFollowUp_cases session expected turnId policy time with
      ⟨e, failed⟩ | ⟨commit, after, ran, commits⟩
    · rw [perform, failed]
      exact .inl ⟨rfl, rfl⟩
    · rw [perform, ran]
      exact .inr ⟨commit, rfl, commits⟩
  | transitionTurn turnId expected transition time =>
    rcases transitionTurn_cases session turnId expected transition time with
      ⟨e, failed⟩ | ⟨commit, after, ran, commits⟩
    · rw [perform, failed]
      exact .inl ⟨rfl, rfl⟩
    · rw [perform, ran]
      exact .inr ⟨commit, rfl, commits⟩
  | stopTurn turnId expected observation time =>
    rcases stopTurn_cases session turnId expected observation time with
      ⟨e, failed⟩ | ⟨outcome, after, ran, ends⟩
    · rw [perform, failed]
      exact .inl ⟨rfl, rfl⟩
    · rw [perform, ran]
      cases ends with
      | alreadyTerminal | retained => exact .inl ⟨rfl, rfl⟩
      | stopped commits | moved commits => exact .inr ⟨_, rfl, commits⟩
  | markActiveRecoveryPending expected time =>
    rcases markActiveRecoveryPending_cases session expected time with
      ⟨e, failed⟩ | ⟨same, _⟩ | ⟨commit, after, ran, commits, _⟩
    · rw [perform, failed]
      exact .inl ⟨rfl, rfl⟩
    · rw [perform, same]
      exact .inl ⟨rfl, rfl⟩
    · rw [perform, ran]
      exact .inr ⟨commit, rfl, commits⟩

/-! ## The representation invariant is kept -/

private theorem coherent_extend (coherent : Coherent session turn)
    (created : after.createdAt = session.createdAt)
    (binding : after.desktopBinding = session.desktopBinding)
    (later : session.updatedAt ≤ after.updatedAt) : Coherent after turn where
  ordered := coherent.ordered
  afterCreation := created ▸ coherent.afterCreation
  beforeUpdate := coherent.beforeUpdate.trans later
  target := coherent.target.trans binding.symm
  revised := coherent.revised
  quiet := coherent.quiet
  closed := coherent.closed

/-- A history read from its last Turn: everything before it is settled, and
the Session's own fields follow from the last Turn and the rest. -/
theorem wellFormed_concat (shape : session.turns = earlier ++ [last])
    (distinct : ((earlier ++ [last]).map (·.id)).Nodup)
    (coherent : ∀ turn ∈ earlier, Coherent session turn)
    (settled : ∀ turn ∈ earlier, turn.state.isTerminal = true)
    (own : Coherent session last) (inOrder : InOrder (earlier ++ [last]))
    (first : (earlier ++ [last]).head?.map (·.startedAt) = some session.createdAt)
    (latest : last.updatedAt = session.updatedAt)
    (summed : revisionSum earlier + last.revision.value = session.revision.value) :
    WellFormed session where
  distinct := shape ▸ distinct
  coherent := by
    rw [shape]
    exact forall_mem_concat.mpr ⟨coherent, own⟩
  inOrder := shape ▸ inOrder
  first := shape ▸ first
  latest := by simp [shape, latest]
  settled := by simpa [shape] using settled
  summed := by simpa [shape, revisionSum] using summed

/-- Only the last Turn of a well-formed Session can be active. -/
theorem active_is_last (formed : WellFormed session) (index : Fin session.turns.length)
    (active : (session.turns.get index).state.isTerminal = false) :
    session.turns = session.turns.dropLast ++ [session.turns.get index] ∧
      index.val = session.turns.dropLast.length := by
  have position : index.val = session.turns.length - 1 := by
    by_contra other
    have inside : index.val < session.turns.dropLast.length := by
      rw [List.length_dropLast]
      omega
    have member : session.turns.get index ∈ session.turns.dropLast := by
      have same : session.turns.dropLast.get ⟨index.val, inside⟩ = session.turns.get index := by
        simp [List.getElem_dropLast]
      exact same ▸ List.get_mem _ _
    rw [formed.settled _ member] at active
    cases active
  refine ⟨?_, by rw [List.length_dropLast]; exact position⟩
  have last : session.turns.get index = session.turns.getLast formed.nonempty := by
    simp [List.getLast_eq_getElem, position]
  rw [last]
  exact (List.dropLast_append_getLast formed.nonempty).symm

/-- Replacing the active Turn replaces the last one. -/
theorem set_active (formed : WellFormed session) (index : Fin session.turns.length)
    (active : (session.turns.get index).state.isTerminal = false) (turn : Turn) :
    session.turns.set index turn = session.turns.dropLast ++ [turn] := by
  obtain ⟨shape, position⟩ := active_is_last formed index active
  calc session.turns.set index turn
      = (session.turns.dropLast ++ [session.turns.get index]).set
          session.turns.dropLast.length turn := by rw [← shape, ← position]
    _ = session.turns.dropLast ++ [turn] := by simp

private theorem starting_coherent (created : session.createdAt ≤ session.updatedAt)
    (target : policy.desktopTarget.binding = session.desktopBinding) :
    Coherent session (Turn.starting turnId policy session.updatedAt) where
  ordered := le_refl _
  afterCreation := created
  beforeUpdate := le_refl _
  target := target
  revised := iff_of_true rfl rfl
  quiet := fun _ => ⟨rfl, rfl⟩
  closed := fun terminal => by cases terminal

private theorem committedTurn_coherent (coherent : Coherent session turn)
    (moved : state ≠ .starting) (summarized : Summarizes state summary)
    (created : after.createdAt = session.createdAt)
    (binding : after.desktopBinding = session.desktopBinding)
    (later : session.updatedAt ≤ after.updatedAt)
    (next : turnRevision.value = turn.revision.value + 1) :
    Coherent after (Session.committedTurn turn turnRevision state summary after.updatedAt) where
  ordered := coherent.ordered.trans (coherent.beforeUpdate.trans later)
  afterCreation := created ▸ coherent.afterCreation
  beforeUpdate := le_refl _
  target := coherent.target.trans binding.symm
  revised := by
    have positive := turn.revision.positive
    refine iff_of_false moved ?_
    change turnRevision.value ≠ 1
    omega
  quiet := by
    intro active
    replace active : state.isTerminal = false := active
    simpa [Session.committedTurn, Summarizes, active] using summarized
  closed := by
    intro terminal
    replace terminal : state.isTerminal = true := terminal
    simpa [Session.committedTurn, Summarizes, terminal] using summarized

/-- Whatever a request does, it leaves a well-formed Session behind. -/
theorem commits_wellFormed (formed : WellFormed session)
    (commits : Commits session call commit after) : WellFormed after := by
  cases commits with
  | appended idle fresh target later next =>
    refine wellFormed_concat rfl (nodup_map_concat.mpr ⟨formed.distinct, ?_⟩) ?_ idle
      (starting_coherent (formed.timeOrder.trans later) target) ?_ ?_ rfl ?_
    · intro member
      obtain ⟨turn, held, same⟩ := List.mem_map.mp member
      exact fresh turn held same
    · intro turn member
      exact coherent_extend (formed.coherent turn member) rfl rfl later
    · refine inOrder_append.mpr ⟨formed.inOrder, ?_⟩
      intro previous last
      exact (formed.coherent previous (List.mem_of_getLast? last)).beforeUpdate.trans later
    · rw [List.head?_append_of_ne_nil _ formed.nonempty]
      exact formed.first
    · rw [formed.summed]
      exact next.symm
  | advanced index _ _ active moved summarized later next turnNext =>
    obtain ⟨shape, _⟩ := active_is_last formed index active
    have own := formed.coherent _ (List.get_mem session.turns index)
    have ids := formed.distinct
    have ordered := formed.inOrder
    have first := formed.first
    have summed := formed.summed
    rw [shape] at ids ordered first summed
    refine wellFormed_concat (set_active formed index active _) (by simpa using ids) ?_
      formed.settled (committedTurn_coherent own moved summarized rfl rfl later turnNext) ?_ ?_ rfl ?_
    · intro turn member
      exact coherent_extend (formed.coherent turn (List.dropLast_subset _ member)) rfl rfl later
    · rw [inOrder_append] at ordered ⊢
      exact ordered
    · change _ = some session.createdAt
      rw [← first]
      cases session.turns.dropLast <;> simp
    · simp only [revisionSum, List.map_append, List.sum_append, List.map_singleton,
        List.sum_singleton] at summed
      simp only [revisionSum, advanceTurn, Session.committedTurn]
      omega

theorem perform_wellFormed (formed : WellFormed session) (call : LifecycleCall) :
    WellFormed (perform session call).2 := by
  rcases perform_cases session call with ⟨_, same⟩ | ⟨commit, _, commits⟩
  · rw [same]
    exact formed
  · exact commits_wellFormed formed commits

/-! ## The two shapes of a commit -/

/-- The fields no operation writes. -/
structure SameIdentity (before after : Session) : Prop where
  id : after.id = before.id
  displayName : after.displayName = before.displayName
  host : after.hostIdentity = before.hostIdentity
  binding : after.desktopBinding = before.desktopBinding
  createdAt : after.createdAt = before.createdAt

/-- A starting Turn has been added to an idle history. -/
structure Appends (before after : Session) (turn : Turn) : Prop where
  same : SameIdentity before after
  shape : after.turns = before.turns ++ [turn]
  idle : ∀ other ∈ before.turns, other.state.isTerminal = true
  fresh : ∀ other ∈ before.turns, other.id ≠ turn.id
  starting : turn.state = .starting

/-- The last Turn, which was active, has been moved. -/
structure Advances (before after : Session) (last turn : Turn) : Prop where
  same : SameIdentity before after
  shape : ∃ earlier, before.turns = earlier ++ [last] ∧ after.turns = earlier ++ [turn]
  active : last.state.isTerminal = false
  id : turn.id = last.id
  policy : turn.executionPolicy = last.executionPolicy
  startedAt : turn.startedAt = last.startedAt

theorem Commits.appends
    (commits : Commits before (.startFollowUp revision turnId policy time) commit after) :
    Appends before after (Turn.starting turnId policy time) := by
  cases commits with
  | appended idle fresh => exact ⟨⟨rfl, rfl, rfl, rfl, rfl⟩, rfl, idle, fresh, rfl⟩
  | advanced index targeted => cases targeted

/-- A commit on an existing Turn moves it to the reported state. -/
theorem Commits.advances (formed : WellFormed before)
    (commits : Commits before call commit after) (targeted : call.target before = some index) :
    ∃ turn, Advances before after (before.turns.get index) turn ∧ turn.state = commit.state := by
  cases commits with
  | appended => cases targeted
  | advanced other found _ active =>
    cases found.symm.trans targeted
    obtain ⟨shape, _⟩ := active_is_last formed index active
    exact ⟨_, ⟨⟨rfl, rfl, rfl, rfl, rfl⟩, ⟨_, shape, set_active formed index active _⟩, active, rfl,
      rfl, rfl⟩, rfl⟩

/-- The moved Turn is the one found under its id. -/
theorem Advances.turn_after (formed : WellFormed before) (advances : Advances before after last turn) :
    after.turn last.id = some turn := by
  obtain ⟨earlier, shape, moved⟩ := advances.shape
  have distinct := formed.distinct
  rw [shape, nodup_map_concat] at distinct
  have others : earlier.find? (fun other => other.id = last.id) = none := by
    rw [List.find?_eq_none]
    intro other member same
    exact distinct.2 (List.mem_map.mpr ⟨other, member, by simpa using same⟩)
  unfold Session.turn
  rw [moved, List.find?_append, others]
  simp [advances.id]

theorem Appends.turn_after (appends : Appends before after turn) :
    after.turn turn.id = some turn := by
  have others : before.turns.find? (fun other => other.id = turn.id) = none := by
    rw [List.find?_eq_none]
    intro other member
    simpa using appends.fresh other member
  unfold Session.turn
  rw [appends.shape, List.find?_append, others]
  simp

/-- A Turn of the history is found under its id. -/
theorem turn_of_mem (formed : WellFormed session) (member : turn ∈ session.turns) :
    session.turn turn.id = some turn := by
  cases found : session.turn turn.id with
  | none =>
    have missing := List.find?_eq_none.mp found turn member
    simp at missing
  | some other =>
    have same : other.id = turn.id := by simpa using List.find?_some found
    rw [List.inj_on_of_nodup_map formed.distinct (List.mem_of_find?_eq_some found) member same]

/-- A commit is about an existing Turn, unless it appended one. -/
theorem Commits.targeted (commits : Commits before call commit after) :
    (∃ index, call.target before = some index) ∨
      ∃ revision turnId policy time, call = .startFollowUp revision turnId policy time := by
  cases commits with
  | appended => exact .inr ⟨_, _, _, _, rfl⟩
  | advanced index targeted => exact .inl ⟨index, targeted⟩

theorem start_wellFormed
    (started : Session.startWithDisplayName sessionId displayName host binding turnId policy time =
      .ok session) : WellFormed session := by
  unfold Session.startWithDisplayName at started
  rw [check_ok] at started
  obtain ⟨target, made⟩ := started
  cases made
  refine wellFormed_concat (List.nil_append _).symm (by simp) (by simp) (by simp)
    (starting_coherent (le_refl time) (not_not.mp target)) ?_ rfl rfl rfl
  exact List.isChain_singleton _

/-- Restoring the snapshot of a well-formed Session gives it back. -/
theorem restore_ok_iff :
    Session.restore snapshot = .ok session ↔
      snapshot = session.snapshot ∧ WellFormed session := by
  rw [← validate_ok_iff]
  unfold Session.restore
  constructor
  · intro restored
    cases verdict : snapshot.validate with
    | error e => simp [verdict] at restored
    | ok _ =>
      simp only [verdict, Except.ok.injEq] at restored
      subst restored
      exact ⟨(Session.snapshot_ofSnapshot snapshot).symm, by simpa using verdict⟩
  · rintro ⟨rfl, verdict⟩
    simp [verdict]

/-- The Sessions a program can hold: started, restored from a snapshot, or left
behind by a request. -/
inductive Reachable : Session → Prop where
  | started (made : Session.startWithDisplayName sessionId displayName host binding turnId policy time =
      .ok session) : Reachable session
  | restored (made : Session.restore snapshot = .ok session) : Reachable session
  | performed (before : Reachable session) (call : LifecycleCall) :
      Reachable (perform session call).2

theorem reachable_wellFormed (reachable : Reachable session) : WellFormed session := by
  induction reachable with
  | started made => exact start_wellFormed made
  | restored made => exact (restore_ok_iff.mp made).2
  | performed before call ih => exact perform_wellFormed ih call

/-- The representation invariant is inductive: no request, successful or not,
leaves a Session whose snapshot the validator rejects, a started Session has
passed it, and so every reachable Session survives being stored and restored. -/
theorem representation_invariant_inductive :
    (∀ session call, session.snapshot.validate = .ok () →
      (perform session call).2.snapshot.validate = .ok ()) ∧
    (∀ sessionId displayName host binding turnId policy time session,
      Session.startWithDisplayName sessionId displayName host binding turnId policy time = .ok session →
      session.snapshot.validate = .ok ()) ∧
    (∀ session, Reachable session → Session.restore session.snapshot = .ok session) := by
  refine ⟨?_, ?_, ?_⟩
  · intro session call valid
    exact (validate_ok_iff _).mpr (perform_wellFormed ((validate_ok_iff session).mp valid) call)
  · intro sessionId displayName host binding turnId policy time session started
    exact (validate_ok_iff _).mpr (start_wellFormed started)
  · intro session reachable
    exact restore_ok_iff.mpr ⟨rfl, reachable_wellFormed reachable⟩

/-! One concrete Session, for inputs on which the hypotheses hold. -/

def sampleSessionId : SessionId := ⟨"rs_01890a5d-ac96-7b7c-9f89-37c3d0a66e11", by decide⟩
def sampleTurnId : TurnId := ⟨"rt_01890a5d-ac96-7b7d-9f89-37c3d0a66e11", by decide⟩
def sampleNextTurnId : TurnId := ⟨"rt_01890a5d-ac96-7b7e-9f89-37c3d0a66e11", by decide⟩
def sampleHost : HostIdentityRef := ⟨"host-test", by decide⟩
def sampleBinding : DesktopBindingRef := ⟨"desktop-test", by decide⟩

def samplePolicy : ExecutionPolicy where
  effectiveModel := ⟨"model.v2.1", by decide⟩
  providerBinding := ⟨"provider.v2", by decide⟩
  desktopTarget := ⟨sampleBinding, "desktop-session-test"⟩
  approvalPolicy := .onRequest
  sandboxPolicy := .workspaceWrite
  timeoutPolicy := ⟨1800, by decide, by decide⟩
  experimentalFeatures := ⟨.enabled, .disabled⟩

def sampleSession : Session where
  id := sampleSessionId
  displayName := none
  revision := .initial
  hostIdentity := sampleHost
  desktopBinding := sampleBinding
  createdAt := 0
  updatedAt := 0
  turns := [Turn.starting sampleTurnId samplePolicy 0]

theorem sampleSession_started :
    Session.startWithDisplayName sampleSessionId none sampleHost sampleBinding sampleTurnId
      samplePolicy 0 = .ok sampleSession := rfl

/-- A request that the sample Session accepts. -/
def sampleCall : LifecycleCall :=
  .transitionTurn sampleTurnId ⟨.initial, .initial⟩ .completed 1

theorem representation_invariant_sample :
    (perform sampleSession sampleCall).1.committed.isSome = true ∧
    (perform sampleSession sampleCall).2.snapshot.validate = .ok () ∧
    Session.restore (perform sampleSession sampleCall).2.snapshot =
      .ok (perform sampleSession sampleCall).2 := by
  have started := representation_invariant_inductive.2.1 _ _ _ _ _ _ _ _ sampleSession_started
  refine ⟨by decide, representation_invariant_inductive.1 _ _ started, ?_⟩
  exact representation_invariant_inductive.2.2 _ (.performed (.started sampleSession_started) _)

end Satelle.SessionLifecycle
