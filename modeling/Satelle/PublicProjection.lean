import Satelle.Core.PublicSession
import Satelle.SessionLifecycle

/-! The stored form and the public form of a Session are checked by two
validators written apart, one of which leaves the checks on a single Turn to
the decoder of Turns. Both accept the same histories: each is shown to accept
exactly the well-formed Sessions. -/
namespace Satelle.PublicProjection
open Satelle.Core Lib SessionInvariants SessionLifecycle

/-- The clauses the loop over a public Session checks on a Turn for itself. -/
def Inside (session : Session) (turn : Turn) : Prop :=
  session.createdAt ≤ turn.startedAt ∧ turn.updatedAt ≤ session.updatedAt

/-- The clauses the decoder of public Turns checks. -/
structure Decodable (turn : Turn) : Prop where
  ordered : turn.startedAt ≤ turn.updatedAt
  revised : turn.state = .starting ↔ turn.revision.value = 1
  quiet : turn.state.isTerminal = false → turn.terminalAt = none ∧ turn.safeSummary = none
  closed : turn.state.isTerminal = true → turn.terminalAt = some turn.updatedAt ∧
    terminalSummaryMatches turn.state turn.safeSummary = true

theorem coherent_iff :
    Coherent session turn ↔ Inside session turn ∧ Decodable turn ∧
      turn.executionPolicy.desktopTarget.binding = session.desktopBinding := by
  constructor
  · intro coherent
    exact ⟨⟨coherent.afterCreation, coherent.beforeUpdate⟩,
      ⟨coherent.ordered, coherent.revised, coherent.quiet, coherent.closed⟩, coherent.target⟩
  · rintro ⟨⟨after, before⟩, own, target⟩
    exact ⟨own.ordered, after, before, target, own.revised, own.quiet, own.closed⟩

theorem validateTurn_ok_iff (turn : Turn) (sessionId : SessionId) :
    validateTurn (turn.toPublic sessionId) = .ok () ↔ Decodable turn := by
  have revised : ¬decide ((turn.toPublic sessionId).state = .starting) ≠
        decide ((turn.toPublic sessionId).turnStateRevision.value = 1) ↔
      (turn.state = .starting ↔ turn.revision.value = 1) := by
    rw [not_not]
    exact decide_eq_decide
  unfold validateTurn
  simp only [check_ok, revised]
  cases terminal : (turn.toPublic sessionId).state.isTerminal with
  | false =>
    have bare : ¬((turn.toPublic sessionId).terminalAt.isSome = true ∨
          (turn.toPublic sessionId).safeSummary.isSome = true) ↔
        turn.terminalAt = none ∧ turn.safeSummary = none := by
      simp [Turn.toPublic]
    simp only [Bool.false_eq_true, if_false, check_ok, and_true, bare]
    constructor
    · rintro ⟨ordered, starts, empty⟩
      refine ⟨not_lt.mp ordered, starts, fun _ => empty, fun closed => ?_⟩
      cases terminal.symm.trans closed
    · intro own
      exact ⟨not_lt.mpr own.ordered, own.revised, own.quiet terminal⟩
  | true =>
    simp only [if_true, check_ok, and_true, not_not, Bool.not_eq_true', Bool.not_eq_false]
    constructor
    · rintro ⟨ordered, starts, closed⟩
      refine ⟨not_lt.mp ordered, starts, fun active => ?_, fun _ => closed⟩
      cases terminal.symm.trans active
    · intro own
      exact ⟨not_lt.mpr own.ordered, own.revised, own.closed terminal⟩

/-! ## The loop over a public Session -/

/-- The first nonterminal Turn with its position. -/
def activeEntry (turns : List Turn) : Option (Turn × Nat) :=
  turns.zipIdx.find? (fun entry => !entry.1.state.isTerminal)

theorem activeEntry_append (turns : List Turn) (turn : Turn) :
    activeEntry (turns ++ [turn]) = (activeEntry turns).or
      (if turn.state.isTerminal then none else some (turn, turns.length)) := by
  unfold activeEntry
  rw [List.zipIdx_append, List.find?_append]
  cases terminal : turn.state.isTerminal <;> simp [terminal]

theorem activeEntry_index (turns : List Turn) :
    (activeEntry turns).map Prod.snd = turns.findIdx? (fun turn => !turn.state.isTerminal) := by
  induction turns using List.reverseRecOn with
  | nil => rfl
  | append_singleton turns turn ih =>
    rw [activeEntry_append, active_append, Option.map_or, ih]
    split <;> rfl

theorem activeEntry_turn (turns : List Turn) :
    (activeEntry turns).map Prod.fst = turns.find? (fun turn => !turn.state.isTerminal) := by
  induction turns using List.reverseRecOn with
  | nil => rfl
  | append_singleton turns turn ih =>
    rw [activeEntry_append, List.find?_append, Option.map_or, ih]
    cases terminal : turn.state.isTerminal <;> simp [terminal]

/-- The loop's variables after visiting these Turns. -/
def publicStateOf (session : Session) (turns : List Turn) : PublicValidateState where
  index := turns.length
  seenTurnIds := (turns.map (·.id)).reverse
  activeTurn := (activeEntry turns).map (fun entry => (entry.1.toPublic session.id, entry.2))
  revisionSum := revisionSum turns
  previousUpdatedAt := turns.getLast?.map (·.updatedAt)

private theorem publicState_append (session : Session) (turns : List Turn) (turn : Turn)
    (free : turn.state.isTerminal = false →
      turns.findIdx? (fun turn => !turn.state.isTerminal) = none) :
    publicStateOf session (turns ++ [turn]) =
      { index := turns.length + 1
        seenTurnIds := turn.id :: (turns.map (·.id)).reverse
        activeTurn := if turn.state.isTerminal then (publicStateOf session turns).activeTurn
          else some (turn.toPublic session.id, turns.length)
        revisionSum := revisionSum turns + turn.revision.value
        previousUpdatedAt := some turn.updatedAt } := by
  cases terminal : turn.state.isTerminal with
  | true => simp [publicStateOf, activeEntry_append, terminal, revisionSum_append]
  | false =>
    have none_active : activeEntry turns = none := by
      have index := activeEntry_index turns
      rw [free terminal, Option.map_eq_none_iff] at index
      exact index
    simp [publicStateOf, activeEntry_append, terminal, revisionSum_append, none_active]

private theorem validateSessionTurn_ok
    (visited : Visited (Inside session) session turns) :
    validateSessionTurn session.toPublic (publicStateOf session turns)
        (turn.toPublic session.id) = .ok next ↔
      Visited (Inside session) session (turns ++ [turn]) ∧
        next = publicStateOf session (turns ++ [turn]) := by
  have unseen : ¬(turn.toPublic session.id).turnId ∈ (publicStateOf session turns).seenTurnIds ↔
      turn.id ∉ turns.map (·.id) := by
    simp [publicStateOf, Turn.toPublic]
  have inOrder : ¬(publicStateOf session turns).previousUpdatedAt.any
        (fun previous => (turn.toPublic session.id).startedAt < previous) = true ↔
      ∀ previous ∈ turns.getLast?, previous.updatedAt ≤ turn.startedAt := by
    cases last : turns.getLast? with
    | none => simp [publicStateOf, last]
    | some previous =>
      simp only [publicStateOf, last, Option.map_some, Option.any_some, Option.mem_def,
        Option.some.injEq, forall_eq', Bool.not_eq_true]
      exact decide_eq_false_iff_not.trans not_lt
  have free : ¬((turn.toPublic session.id).state.isTerminal = false ∧
        (publicStateOf session turns).activeTurn.isSome = true) ↔
      (turn.state.isTerminal = false →
        turns.findIdx? (fun turn => !turn.state.isTerminal) = none) := by
    rw [← activeEntry_index, not_and]
    simp [publicStateOf, Turn.toPublic]
  rw [visited_append]
  unfold validateSessionTurn
  simp only [check_ok, unseen, inOrder, free, not_not]
  constructor
  · rintro ⟨_, fresh, bounds, first, later, active, room, made⟩
    rw [not_or] at bounds
    refine ⟨⟨visited, fresh, ⟨not_lt.mp bounds.1, not_lt.mp bounds.2⟩, later, ?_, active, room⟩, ?_⟩
    · intro empty
      by_contra other
      exact first ⟨empty, other⟩
    · rw [publicState_append session turns turn active]
      exact (Except.ok.inj made).symm
  · rintro ⟨⟨_, fresh, bounds, later, first, active, room⟩, rfl⟩
    refine ⟨rfl, fresh, not_or.mpr ⟨not_lt.mpr bounds.1, not_lt.mpr bounds.2⟩, ?_, later, active,
      room, ?_⟩
    · exact fun ⟨empty, other⟩ => other (first empty)
    · rw [publicState_append session turns turn active]
      rfl

private theorem public_loop_ok (session : Session) (final : PublicValidateState) :
    session.toPublic.turns.foldlM (validateSessionTurn session.toPublic) {} = .ok final ↔
      Visited (Inside session) session session.turns ∧
        final = publicStateOf session session.turns := by
  change (session.turns.map (fun turn => turn.toPublic session.id)).foldlM
    (validateSessionTurn session.toPublic) (publicStateOf session []) = _ ↔ _
  rw [List.foldlM_map]
  refine foldlM_ok_iff (Visited (Inside session) session) (publicStateOf session)
    (visited_nil _ session) ?_ ?_ _ _
  · intro turns turn visited
    exact (visited_append.mp visited).1
  · intro turns turn next visited
    exact validateSessionTurn_ok visited

/-- The activity the decoder expects is the one the Session reports. -/
private theorem expectedActivity_eq (session : Session) :
    expectedActivity (publicStateOf session session.turns).activeTurn = .ok session.activity := by
  have turn := activeEntry_turn session.turns
  unfold Session.activity
  cases entry : activeEntry session.turns with
  | none =>
    rw [entry] at turn
    simp [publicStateOf, entry, expectedActivity, ← turn]
  | some active =>
    rw [entry] at turn
    have isActive := List.find?_some turn.symm
    obtain ⟨activity, known⟩ : ∃ activity,
        SessionActivity.ofActive active.1.state active.1.id active.1.revision = some activity := by
      cases state : active.1.state <;>
        simp_all [SessionActivity.ofActive, TurnState.isTerminal]
    simp [publicStateOf, entry, expectedActivity, ← turn, Turn.toPublic, known]

/-- The decoder's check of a Session, on the projection of a Session whose
Turns it has decoded and whose policies target its own desktop. -/
theorem validateSession_ok_iff (session : Session)
    (decodable : ∀ turn ∈ session.turns, Decodable turn)
    (target : ∀ turn ∈ session.turns,
      turn.executionPolicy.desktopTarget.binding = session.desktopBinding) :
    validateSession session.toPublic = .ok () ↔ WellFormed session := by
  have nonempty : session.toPublic.turns = [] ↔ session.turns = [] := by
    simp [Session.toPublic]
  have length : session.toPublic.turns.length = session.turns.length := by
    simp [Session.toPublic]
  have latest : session.toPublic.turns.getLast?.map (·.updatedAt) =
      session.turns.getLast?.map (·.updatedAt) := by
    simp [Session.toPublic, Function.comp_def, Turn.toPublic]
  have last : ¬(publicStateOf session session.turns).activeTurn.any
        (fun active => active.2 + 1 ≠ session.turns.length) = true ↔
      ∀ turn ∈ session.turns.dropLast, turn.state.isTerminal = true := by
    rw [← active_last_iff]
    simp only [stateOf, ← activeEntry_index, publicStateOf]
    cases activeEntry session.turns <;> rfl
  have binding : (Reference.new session.toPublic.desktopBinding :
      Except ReferenceError DesktopBindingRef) = .ok session.desktopBinding :=
    Reference.new_text session.desktopBinding
  unfold validateSession
  simp only [binding, check_ok, nonempty, length, latest]
  constructor
  · rintro ⟨some_turn, ordered, accepted⟩
    cases ran : session.toPublic.turns.foldlM (validateSessionTurn session.toPublic) {} with
    | error e => simp [ran] at accepted
    | ok final =>
      obtain ⟨visited, rfl⟩ := (public_loop_ok session final).mp ran
      simp only [ran, check_ok, last, not_not] at accepted
      obtain ⟨settled, summed, updated, _⟩ := accepted
      refine visited_wellFormed visited ?_ some_turn settled updated summed
      intro turn member
      exact coherent_iff.mpr
        ⟨visited.admitted turn member, decodable turn member, target turn member⟩
  · intro formed
    have inside : ∀ turn ∈ session.turns, Inside session turn :=
      fun turn member => (coherent_iff.mp (formed.coherent turn member)).1
    have ran := (public_loop_ok session _).mpr ⟨wellFormed_visited formed inside, rfl⟩
    refine ⟨formed.nonempty, not_lt.mpr formed.timeOrder, ?_⟩
    simp only [ran, check_ok, last, not_not, expectedActivity_eq]
    exact ⟨formed.settled, formed.summed, formed.latest, rfl, trivial⟩

private theorem decoded_turns (session : Session)
    (decodable : ∀ turn ∈ session.turns, Decodable turn) :
    (session.toPublic.turns.map PublicTurn.serialize).mapM PublicTurn.deserialize =
      .ok session.toPublic.turns := by
  have each : ∀ shown ∈ session.toPublic.turns,
      (PublicTurn.deserialize ∘ PublicTurn.serialize) shown = .ok (id shown) := by
    refine List.forall_mem_map.mpr fun turn held => ?_
    have accepted := (validateTurn_ok_iff turn session.id).mpr (decodable turn held)
    simp only [Function.comp, PublicTurn.deserialize, PublicTurn.serialize]
    rw [accepted]
    rfl
  rw [List.mapM_map, mapM_ok each, List.map_id]

/-- The two validators accept the same histories, and whatever the lifecycle
can produce survives being published: the decoder gives back the projection,
less the display name that is never written. -/
theorem validators_agree :
    (∀ snapshot : SessionSnapshot,
      (∀ turn ∈ snapshot.turns,
        turn.executionPolicy.desktopTarget.binding = snapshot.desktopBinding) →
      (snapshot.validate = .ok () ↔
        (∀ turn ∈ (Session.ofSnapshot snapshot).toPublic.turns, validateTurn turn = .ok ()) ∧
        validateSession (Session.ofSnapshot snapshot).toPublic = .ok ())) ∧
    (∀ session, Reachable session →
      PublicSession.deserialize session.toPublic.serialize =
        .ok { session.toPublic with displayName := none }) := by
  constructor
  · intro snapshot targets
    generalize shape : Session.ofSnapshot snapshot = session
    have stored : snapshot = session.snapshot := by simp [← shape]
    subst stored
    have target : ∀ turn ∈ session.turns,
        turn.executionPolicy.desktopTarget.binding = session.desktopBinding := by
      intro turn member
      exact targets turn.snapshot (List.mem_map_of_mem member)
    have turns : (∀ turn ∈ session.toPublic.turns, validateTurn turn = .ok ()) ↔
        ∀ turn ∈ session.turns, Decodable turn := by
      simp [Session.toPublic, validateTurn_ok_iff]
    rw [turns, validate_ok_iff]
    constructor
    · intro formed
      have decodable : ∀ turn ∈ session.turns, Decodable turn :=
        fun turn member => (coherent_iff.mp (formed.coherent turn member)).2.1
      exact ⟨decodable, (validateSession_ok_iff session decodable target).mpr formed⟩
    · rintro ⟨decodable, accepted⟩
      exact (validateSession_ok_iff session decodable target).mp accepted
  · intro session reachable
    have formed := reachable_wellFormed reachable
    have parts := fun turn member => coherent_iff.mp (formed.coherent turn member)
    have accepted := (validateSession_ok_iff session (fun turn member => (parts turn member).2.1)
      (fun turn member => (parts turn member).2.2)).mpr formed
    have decoded := decoded_turns session (fun turn member => (parts turn member).2.1)
    unfold PublicSession.deserialize PublicSession.serialize
    rw [decoded]
    -- The validator never looks at the display name.
    have unnamed : validateSession { session.toPublic with displayName := none } =
        validateSession session.toPublic := rfl
    rw [accepted] at unnamed
    simp only [unnamed]

theorem validators_agree_sample :
    (∀ turn ∈ (Session.ofSnapshot sampleSession.snapshot).toPublic.turns,
      validateTurn turn = .ok ()) ∧
    validateSession (Session.ofSnapshot sampleSession.snapshot).toPublic = .ok () ∧
    PublicSession.deserialize (perform sampleSession sampleCall).2.toPublic.serialize =
      .ok { (perform sampleSession sampleCall).2.toPublic with displayName := none } := by
  have agreed := (validators_agree.1 sampleSession.snapshot (by decide)).mp (by decide)
  exact ⟨agreed.1, agreed.2,
    validators_agree.2 _ (.performed (.started sampleSession_started) sampleCall)⟩

end Satelle.PublicProjection
