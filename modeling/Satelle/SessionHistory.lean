import Satelle.SessionLifecycle

/-! Whole runs of requests against one Session: recorded history is never
rewritten, and requests prepared against the same revision cannot both take
effect. Both follow from what a single request can do, whatever the order in
which requests arrive and whoever sends them; neither needs the Session to have
passed the validator. -/
namespace Satelle.SessionHistory
open Satelle.Core Lib SessionLifecycle

/-- The Session after a finite sequence of requests. -/
def run (session : Session) (calls : List LifecycleCall) : Session :=
  calls.foldl (fun current call => (perform current call).2) session

/-- A later version of a Turn. A terminal Turn has no other later version. -/
structure LaterTurn (turn later : Turn) : Prop where
  id : later.id = turn.id
  executionPolicy : later.executionPolicy = turn.executionPolicy
  startedAt : later.startedAt = turn.startedAt
  terminal : turn.state.isTerminal = true → later = turn

/-- A later version of a Session: the same Session with a longer history. -/
structure Extends (session after : Session) : Prop where
  id : after.id = session.id
  displayName : after.displayName = session.displayName
  hostIdentity : after.hostIdentity = session.hostIdentity
  desktopBinding : after.desktopBinding = session.desktopBinding
  createdAt : after.createdAt = session.createdAt
  turnIds : session.turns.map (·.id) <+: after.turns.map (·.id)
  turns : ∀ (index : Nat) turn, session.turns[index]? = some turn →
    ∃ later, after.turns[index]? = some later ∧ LaterTurn turn later

theorem LaterTurn.refl (turn : Turn) : LaterTurn turn turn := ⟨rfl, rfl, rfl, fun _ => rfl⟩

theorem LaterTurn.trans (first : LaterTurn turn middle) (second : LaterTurn middle later) :
    LaterTurn turn later where
  id := second.id.trans first.id
  executionPolicy := second.executionPolicy.trans first.executionPolicy
  startedAt := second.startedAt.trans first.startedAt
  terminal := by
    intro terminal
    cases first.terminal terminal
    exact second.terminal terminal

theorem Extends.refl (session : Session) : Extends session session where
  id := rfl
  displayName := rfl
  hostIdentity := rfl
  desktopBinding := rfl
  createdAt := rfl
  turnIds := List.prefix_refl _
  turns := fun _ turn held => ⟨turn, held, .refl turn⟩

theorem Extends.trans (first : Extends session middle) (second : Extends middle after) :
    Extends session after where
  id := second.id.trans first.id
  displayName := second.displayName.trans first.displayName
  hostIdentity := second.hostIdentity.trans first.hostIdentity
  desktopBinding := second.desktopBinding.trans first.desktopBinding
  createdAt := second.createdAt.trans first.createdAt
  turnIds := first.turnIds.trans second.turnIds
  turns := by
    intro index turn start
    obtain ⟨between, there, earlier⟩ := first.turns index turn start
    obtain ⟨later, held, rest⟩ := second.turns index between there
    exact ⟨later, held, earlier.trans rest⟩

theorem perform_extends (session : Session) (call : LifecycleCall) :
    Extends session (perform session call).2 := by
  rcases perform_cases session call with ⟨_, same⟩ | ⟨commit, _, commits⟩
  · rw [same]
    exact .refl session
  · generalize (perform session call).2 = after at commits
    cases commits with
    | appended =>
      refine ⟨rfl, rfl, rfl, rfl, rfl, by simp [appendTurn], fun index turn held => ?_⟩
      have inside := (List.getElem?_eq_some_iff.mp held).1
      refine ⟨turn, ?_, .refl turn⟩
      rw [appendTurn, List.getElem?_append_left inside]
      exact held
    | advanced index _ _ active =>
      refine ⟨rfl, rfl, rfl, rfl, rfl, ?_, fun position turn held => ?_⟩
      · have same : (session.turns.map (·.id)).set index (session.turns.get index).id =
            session.turns.map (·.id) := by
          rw [← List.map_set, List.get_eq_getElem, List.set_getElem_self]
        simp only [advanceTurn, List.map_set, Session.committedTurn_id]
        exact same.symm ▸ List.prefix_refl _
      · by_cases same : index.val = position
        · subst same
          have own : session.turns.get index = turn := by simpa using held
          subst own
          refine ⟨Session.committedTurn (session.turns.get index) _ _ _ _, by simp [advanceTurn]; rfl,
            ⟨rfl, rfl, rfl, ?_⟩⟩
          intro terminal
          rw [terminal] at active
          cases active
        · exact ⟨turn, by simpa [advanceTurn, same] using held, .refl turn⟩

/-- History is append-only and terminal Turns are immutable, over any sequence
of requests. -/
theorem history_append_only (session : Session) (calls : List LifecycleCall) :
    Extends session (run session calls) := by
  induction calls generalizing session with
  | nil => exact .refl session
  | cons call calls ih => exact (perform_extends session call).trans (ih _)

/-! ## Optimistic concurrency -/

section Requests

variable {Client : Type}

/-- Serves requests in the order they arrive, whichever client each comes from. -/
def serve (session : Session) (requests : List (Client × LifecycleCall)) : Session :=
  run session (requests.map Prod.snd)

/-- Every request with the reply it was given. -/
def replies : Session → List (Client × LifecycleCall) →
    List (LifecycleCall × LifecycleReply)
  | _, [] => []
  | session, request :: rest =>
    (request.2, (perform session request.2).1) :: replies (perform session request.2).2 rest

/-- What a commit does to the Turns: a follow-up appends a Turn at its first
revision, and any other commit replaces the Turn it targets, and only that one,
by its next revision. -/
def RaisesTarget (before : Session) (call : LifecycleCall) (commit : LifecycleCommit)
    (after : Session) : Prop :=
  match call with
  | .startFollowUp _ turnId _ _ =>
    ∃ turn, after.turns = before.turns ++ [turn] ∧ turn.id = turnId ∧
      turn.revision = commit.turnRevision ∧ turn.revision.value = 1
  | _ =>
    ∃ index turn, call.target before = some index ∧ after.turns = before.turns.set index turn ∧
      turn.id = (before.turns.get index).id ∧ turn.revision = commit.turnRevision ∧
      turn.revision.value = (before.turns.get index).revision.value + 1

theorem commits_raises (commits : Commits before call commit after) :
    RaisesTarget before call commit after := by
  cases commits with
  | appended => exact ⟨_, rfl, rfl, rfl, rfl⟩
  | advanced index targeted _ _ _ _ _ _ turnNext =>
    cases call with
    | startFollowUp => cases targeted
    | transitionTurn | stopTurn | markActiveRecoveryPending =>
      exact ⟨index, _, targeted, rfl, rfl, rfl, turnNext⟩

/-- A request prepared against this revision took effect. -/
def committedAt (expected : SessionStateRevision) (served : LifecycleCall × LifecycleReply) :
    Bool :=
  served.1.expectedSession = expected && served.2.committed.isSome

private theorem perform_revision_le (session : Session) (call : LifecycleCall) :
    session.revision.value ≤ (perform session call).2.revision.value := by
  rcases perform_cases session call with ⟨_, same⟩ | ⟨commit, _, commits⟩
  · rw [same]
  · have next := commits.nextRevision
    rw [next.1, next.2]
    omega

/-- Once the Session is past a revision, nothing prepared against it commits. -/
private theorem none_committed_past (expected : SessionStateRevision)
    (requests : List (Client × LifecycleCall)) (session : Session)
    (past : expected.value < session.revision.value) :
    (replies session requests).countP (committedAt expected) = 0 := by
  induction requests generalizing session with
  | nil => rfl
  | cons request rest ih =>
    have later := ih (perform session request.2).2
      (past.trans_le (perform_revision_le session request.2))
    have refused : committedAt expected (request.2, (perform session request.2).1) = false := by
      rcases perform_cases session request.2 with ⟨inert, _⟩ | ⟨commit, _, commits⟩
      · simp [committedAt, inert]
      · have other : request.2.expectedSession ≠ expected := by
          intro same
          rw [commits.expected] at same
          rw [same] at past
          exact lt_irrefl _ past
        simp [committedAt, other]
    simp [replies, later, refused]

private theorem at_most_one_committed (expected : SessionStateRevision)
    (requests : List (Client × LifecycleCall)) (session : Session) :
    (replies session requests).countP (committedAt expected) ≤ 1 := by
  induction requests generalizing session with
  | nil => exact Nat.zero_le 1
  | cons request rest ih =>
    by_cases won : committedAt expected (request.2, (perform session request.2).1) = true
    · simp only [committedAt, Bool.and_eq_true, decide_eq_true_eq] at won
      obtain ⟨prepared, took⟩ := won
      -- The winner moves the Session past the revision everybody else expects.
      rcases perform_cases session request.2 with ⟨inert, _⟩ | ⟨commit, _, commits⟩
      · simp [inert] at took
      · have next := commits.nextRevision
        have past : expected.value < (perform session request.2).2.revision.value := by
          rw [next.1, next.2, ← prepared, commits.expected]
          omega
        have rest_none := none_committed_past expected rest _ past
        rw [replies, List.countP_cons, rest_none]
        split <;> omega
    · rw [replies, List.countP_cons_of_neg won]
      exact ih _

/-- No update is lost: each request of any interleaving either leaves the whole
Session value as it was or raises the Session's revision and its target's by
one, and of the requests prepared against one revision at most one commits. -/
theorem optimistic_concurrency (session : Session) (requests : List (Client × LifecycleCall)) :
    (∀ earlier client call later, requests = earlier ++ (client, call) :: later →
      match (perform (serve session earlier) call).1.committed with
      | none => serve session (earlier ++ [(client, call)]) = serve session earlier
      | some commit =>
        (serve session (earlier ++ [(client, call)])).revision = commit.sessionRevision ∧
        commit.sessionRevision.value = (serve session earlier).revision.value + 1 ∧
        RaisesTarget (serve session earlier) call commit
          (serve session (earlier ++ [(client, call)]))) ∧
    ∀ expected, (replies session requests).countP (committedAt expected) ≤ 1 := by
  refine ⟨?_, fun expected => at_most_one_committed expected requests session⟩
  intro earlier client call later _
  have stepped : serve session (earlier ++ [(client, call)]) =
      (perform (serve session earlier) call).2 := by
    simp [serve, run]
  rw [stepped]
  rcases perform_cases (serve session earlier) call with ⟨inert, same⟩ | ⟨commit, made, commits⟩
  · rw [inert]
    exact same
  · rw [made]
    exact ⟨commits.nextRevision.1, commits.nextRevision.2, commits_raises commits⟩

end Requests

/-- Two clients race with requests prepared against the same revision. -/
def sampleRace : List (String × LifecycleCall) :=
  [("first", sampleCall),
    ("second", .stopTurn sampleTurnId ⟨.initial, .initial⟩ .cancellationConfirmed 2)]

theorem optimistic_concurrency_race :
    (serve sampleSession (sampleRace.take 1)).revision.value = 2 ∧
    (replies sampleSession sampleRace).countP (committedAt .initial) ≤ 1 := by
  obtain ⟨served, once⟩ := optimistic_concurrency sampleSession sampleRace
  have first := served [] "first" sampleCall (sampleRace.drop 1) rfl
  exact ⟨first.1 ▸ first.2.1, once .initial⟩

end Satelle.SessionHistory
