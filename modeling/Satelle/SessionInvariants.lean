import Satelle.Lib.Iteration
import Satelle.Core.Session

/-! What the snapshot validator accepts, stated as a property of the Session
the snapshot describes, and why no operation can leave it. The validator is a
loop of early returns; `validate_ok_iff` turns it into the conjunction of its
clauses once, so that the operations are never compared with the loop itself. -/
namespace Satelle.SessionInvariants
open Satelle.Core Lib

/-- The clauses of the validator that concern one Turn of a Session with the
given desktop binding and time bounds. -/
structure Coherent (session : Session) (turn : Turn) : Prop where
  ordered : turn.startedAt ≤ turn.updatedAt
  afterCreation : session.createdAt ≤ turn.startedAt
  beforeUpdate : turn.updatedAt ≤ session.updatedAt
  target : turn.executionPolicy.desktopTarget.binding = session.desktopBinding
  revised : turn.state = .starting ↔ turn.revision.value = 1
  quiet : turn.state.isTerminal = false → turn.terminalAt = none ∧ turn.safeSummary = none
  closed : turn.state.isTerminal = true → turn.terminalAt = some turn.updatedAt ∧
    terminalSummaryMatches turn.state turn.safeSummary = true

def revisionSum (turns : List Turn) : Nat := (turns.map (·.revision.value)).sum

/-- Each Turn starts no earlier than the last update of the Turn before it. -/
def InOrder (turns : List Turn) : Prop :=
  turns.IsChain (fun previous turn => previous.updatedAt ≤ turn.startedAt)

/-- The representation invariant of a Session: only the last Turn may be
nonterminal, and the Session's revision, creation and update time are those its
Turns add up to. -/
structure WellFormed (session : Session) : Prop where
  distinct : (session.turns.map (·.id)).Nodup
  coherent : ∀ turn ∈ session.turns, Coherent session turn
  inOrder : InOrder session.turns
  first : session.turns.head?.map (·.startedAt) = some session.createdAt
  latest : session.turns.getLast?.map (·.updatedAt) = some session.updatedAt
  settled : ∀ turn ∈ session.turns.dropLast, turn.state.isTerminal = true
  summed : revisionSum session.turns = session.revision.value

/-! ## The validator's loop -/

/-- What a validator's loop has established after visiting these Turns, when it
admits each of them for itself. -/
structure Visited (admits : Turn → Prop) (session : Session) (turns : List Turn) : Prop where
  distinct : (turns.map (·.id)).Nodup
  admitted : ∀ turn ∈ turns, admits turn
  inOrder : InOrder turns
  first : ∀ turn ∈ turns.head?, turn.startedAt = session.createdAt
  oneActive : turns.countP (fun turn => !turn.state.isTerminal) ≤ 1
  summed : revisionSum turns < u64Size

/-- The loop's variables after visiting these Turns. -/
def stateOf (turns : List Turn) : ValidateState where
  index := turns.length
  seenTurnIds := (turns.map (·.id)).reverse
  activeTurnIndex := turns.findIdx? (fun turn => !turn.state.isTerminal)
  turnRevisionSum := revisionSum turns
  previousTurnUpdatedAt := turns.getLast?.map (·.updatedAt)

theorem visited_nil (admits : Turn → Prop) (session : Session) : Visited admits session [] := by
  constructor <;> simp [InOrder, revisionSum, u64Size]

theorem revisionSum_append (turns : List Turn) (turn : Turn) :
    revisionSum (turns ++ [turn]) = revisionSum turns + turn.revision.value := by
  simp [revisionSum]

theorem inOrder_append :
    InOrder (turns ++ [turn]) ↔
      InOrder turns ∧ ∀ previous ∈ turns.getLast?, previous.updatedAt ≤ turn.startedAt := by
  simp [InOrder, List.isChain_append]

private theorem head_append (session : Session) (turns : List Turn) (turn : Turn) :
    (∀ t ∈ (turns ++ [turn]).head?, t.startedAt = session.createdAt) ↔
      (∀ t ∈ turns.head?, t.startedAt = session.createdAt) ∧
        (turns.length = 0 → turn.startedAt = session.createdAt) := by
  cases turns with
  | nil => simp
  | cons first rest => simp

/-- Visiting one more Turn adds exactly the clauses about that Turn. -/
theorem visited_append :
    Visited admits session (turns ++ [turn]) ↔
      Visited admits session turns ∧ turn.id ∉ turns.map (·.id) ∧ admits turn ∧
      (∀ previous ∈ turns.getLast?, previous.updatedAt ≤ turn.startedAt) ∧
      (turns.length = 0 → turn.startedAt = session.createdAt) ∧
      (turn.state.isTerminal = false →
        turns.findIdx? (fun turn => !turn.state.isTerminal) = none) ∧
      revisionSum turns + turn.revision.value < u64Size := by
  have counted : (turns ++ [turn]).countP (fun turn => !turn.state.isTerminal) ≤ 1 ↔
      turns.countP (fun turn => !turn.state.isTerminal) ≤ 1 ∧
      (turn.state.isTerminal = false →
        turns.findIdx? (fun turn => !turn.state.isTerminal) = none) := by
    have none_iff : turns.findIdx? (fun turn => !turn.state.isTerminal) = none ↔
        turns.countP (fun turn => !turn.state.isTerminal) = 0 := by
      rw [List.findIdx?_eq_none_iff, List.countP_eq_zero]
      simp
    rw [none_iff, List.countP_append]
    cases terminal : turn.state.isTerminal with
    | true => simp [terminal]
    | false =>
      simp only [terminal, List.countP_singleton, Bool.not_false, if_true, forall_const]
      omega
  constructor
  · intro visited
    obtain ⟨distinct, admitted, inOrder, first, oneActive, summed⟩ := visited
    rw [nodup_map_concat] at distinct
    rw [revisionSum_append] at summed
    have ordered := inOrder_append.mp inOrder
    have started := (head_append session turns turn).mp first
    have active := counted.mp oneActive
    have admits := forall_mem_concat.mp admitted
    exact ⟨⟨distinct.1, admits.1, ordered.1, started.1, active.1, by omega⟩, distinct.2, admits.2,
      ordered.2, started.2, active.2, summed⟩
  · rintro ⟨⟨distinct, admitted, inOrder, first, oneActive, _⟩, fresh, own, ordered, started,
      active, summed⟩
    refine ⟨nodup_map_concat.mpr ⟨distinct, fresh⟩, forall_mem_concat.mpr ⟨admitted, own⟩,
      inOrder_append.mpr ⟨inOrder, ordered⟩, (head_append session turns turn).mpr ⟨first, started⟩,
      counted.mpr ⟨oneActive, active⟩, ?_⟩
    rw [revisionSum_append]
    exact summed

private theorem addTurn_ok :
    SessionSnapshot.addTurn (stateOf turns) turn.snapshot active = .ok next ↔
      revisionSum turns + turn.revision.value < u64Size ∧
        next = { stateOf (turns ++ [turn]) with activeTurnIndex := active } := by
  unfold SessionSnapshot.addTurn
  by_cases room : revisionSum turns + turn.revision.value < u64Size
  · simp only [stateOf, Turn.snapshot, room, if_true, Except.ok.injEq, true_and]
    rw [eq_comm]
    simp [revisionSum_append]
  · simp [stateOf, Turn.snapshot, room]

theorem active_append (turns : List Turn) (turn : Turn) :
    (turns ++ [turn]).findIdx? (fun turn => !turn.state.isTerminal) =
      (turns.findIdx? (fun turn => !turn.state.isTerminal)).or
        (if turn.state.isTerminal then none else some turns.length) := by
  rw [List.findIdx?_append]
  cases terminal : turn.state.isTerminal <;> simp [List.findIdx?_singleton, terminal]

private theorem validateMetadata_ok :
    SessionSnapshot.validateMetadata (stateOf turns) turn.snapshot = .ok next ↔
      (turn.state.isTerminal = false → turn.terminalAt = none ∧ turn.safeSummary = none) ∧
      (turn.state.isTerminal = true → turn.terminalAt = some turn.updatedAt ∧
        terminalSummaryMatches turn.state turn.safeSummary = true) ∧
      (turn.state.isTerminal = false →
        turns.findIdx? (fun turn => !turn.state.isTerminal) = none) ∧
      revisionSum turns + turn.revision.value < u64Size ∧ next = stateOf (turns ++ [turn]) := by
  have appended := active_append turns turn
  unfold SessionSnapshot.validateMetadata
  cases terminal : turn.snapshot.state.isTerminal with
  | false =>
    replace terminal : turn.state.isTerminal = false := terminal
    simp only [Bool.not_false, if_true, check_ok, addTurn_ok, terminal, Bool.false_eq_true,
      forall_const, IsEmpty.forall_iff, true_and]
    simp only [terminal, Bool.false_eq_true, if_false] at appended
    have idle : ¬(stateOf turns).activeTurnIndex.isSome = true ↔
        turns.findIdx? (fun turn => !turn.state.isTerminal) = none := by
      simp [stateOf]
    have bare : ¬(turn.snapshot.terminalAt.isSome = true ∨ turn.snapshot.safeSummary.isSome = true) ↔
        turn.terminalAt = none ∧ turn.safeSummary = none := by
      simp [Turn.snapshot]
    rw [idle, bare, and_left_comm]
    refine and_congr_right fun _ => and_congr_right fun free => and_congr_right fun _ => ?_
    rw [free] at appended
    simp [stateOf, appended]
  | true =>
    replace terminal : turn.state.isTerminal = true := terminal
    simp only [terminal, if_true, Option.or_none] at appended
    simp only [Bool.not_true, Bool.false_eq_true, if_false, terminal, Bool.true_eq_false,
      IsEmpty.forall_iff, true_and, forall_const]
    cases closed : turn.snapshot.terminalAt with
    | none =>
      replace closed : turn.terminalAt = none := closed
      simp [closed]
    | some time =>
      replace closed : turn.terminalAt = some time := closed
      simp only [closed, check_ok, addTurn_ok, Option.some.injEq, not_not, Bool.not_eq_true',
        Bool.not_eq_false, and_assoc]
      refine and_congr Iff.rfl (and_congr Iff.rfl (and_congr_right fun _ => ?_))
      simp [stateOf, appended]

/-- One iteration passes exactly when the Turn adds to what was visited. -/
private theorem validateTurn_ok (visited : Visited (Coherent session) session turns) :
    session.snapshot.validateTurn (stateOf turns) turn.snapshot = .ok next ↔
      Visited (Coherent session) session (turns ++ [turn]) ∧ next = stateOf (turns ++ [turn]) := by
  have unseen : ¬turn.snapshot.id ∈ (stateOf turns).seenTurnIds ↔
      turn.id ∉ turns.map (·.id) := by
    simp [stateOf, Turn.snapshot]
  have inOrder : ¬(stateOf turns).previousTurnUpdatedAt.any
        (fun previous => turn.snapshot.startedAt < previous) = true ↔
      ∀ previous ∈ turns.getLast?, previous.updatedAt ≤ turn.startedAt := by
    cases last : turns.getLast? with
    | none => simp [stateOf, last]
    | some previous =>
      simp only [stateOf, last, Option.map_some, Option.any_some, Option.mem_def,
        Option.some.injEq, forall_eq', Bool.not_eq_true]
      exact decide_eq_false_iff_not.trans not_lt
  have revised : ¬decide (turn.snapshot.state = .starting) ≠
        decide (turn.snapshot.revision.value = 1) ↔
      (turn.state = .starting ↔ turn.revision.value = 1) := by
    rw [not_not]
    exact decide_eq_decide
  rw [visited_append]
  unfold SessionSnapshot.validateTurn
  simp only [check_ok, validateMetadata_ok, unseen, inOrder, revised]
  constructor
  · rintro ⟨fresh, ordered, bounds, first, later, target, rev, quiet, closed, active, room, rfl⟩
    rw [not_or] at bounds
    refine ⟨⟨visited, fresh, ?_, later, ?_, active, room⟩, rfl⟩
    · exact ⟨not_lt.mp ordered, not_lt.mp bounds.1, not_lt.mp bounds.2, not_not.mp target, rev,
        quiet, closed⟩
    · intro empty
      by_contra other
      exact first ⟨empty, other⟩
  · rintro ⟨⟨_, fresh, coherent, later, first, active, room⟩, rfl⟩
    refine ⟨fresh, not_lt.mpr coherent.ordered, ?_, ?_, later, not_not.mpr coherent.target,
      coherent.revised, coherent.quiet, coherent.closed, active, room, rfl⟩
    · exact not_or.mpr ⟨not_lt.mpr coherent.afterCreation, not_lt.mpr coherent.beforeUpdate⟩
    · exact fun ⟨empty, other⟩ => other (first empty)

private theorem loop_ok (session : Session) (final : ValidateState) :
    session.snapshot.turns.foldlM session.snapshot.validateTurn {} = .ok final ↔
      Visited (Coherent session) session session.turns ∧ final = stateOf session.turns := by
  change (session.turns.map Turn.snapshot).foldlM session.snapshot.validateTurn (stateOf []) = _ ↔ _
  rw [List.foldlM_map]
  refine foldlM_ok_iff (Visited (Coherent session) session) stateOf (visited_nil _ session) ?_ ?_ _ _
  · intro turns turn visited
    exact (visited_append.mp visited).1
  · intro turns turn next visited
    exact validateTurn_ok visited

/-- The loop's active index is the last position exactly when every earlier
Turn is terminal. -/
theorem active_last_iff (turns : List Turn) :
    ¬(stateOf turns).activeTurnIndex.any (fun index => index + 1 ≠ turns.length) = true ↔
      ∀ turn ∈ turns.dropLast, turn.state.isTerminal = true := by
  rcases List.eq_nil_or_concat turns with rfl | ⟨earlier, last, rfl⟩
  · simp [stateOf]
  · simp only [List.concat_eq_append, List.dropLast_concat, stateOf, active_append,
      List.length_append, List.length_singleton]
    cases found : earlier.findIdx? (fun turn => !turn.state.isTerminal) with
    | none =>
      have settled : ∀ turn ∈ earlier, turn.state.isTerminal = true := by
        simpa using List.findIdx?_eq_none_iff.mp found
      refine iff_of_true ?_ settled
      cases last.state.isTerminal <;> simp
    | some index =>
      obtain ⟨inside, nonterminal, _⟩ := List.findIdx?_eq_some_iff_getElem.mp found
      have active := earlier.getElem_mem inside
      simp only [Option.some_or, Option.any_some, ne_eq, decide_not, Bool.not_eq_true',
        decide_eq_false_iff_not, not_not]
      constructor
      · intro same
        omega
      · intro settled
        simp [settled _ active] at nonterminal

private theorem settled_oneActive {turns : List Turn}
    (settled : ∀ turn ∈ turns.dropLast, turn.state.isTerminal = true) :
    turns.countP (fun turn => !turn.state.isTerminal) ≤ 1 := by
  rcases List.eq_nil_or_concat turns with rfl | ⟨earlier, last, rfl⟩
  · simp
  · rw [List.concat_eq_append, List.dropLast_concat] at settled
    have none_earlier : earlier.countP (fun turn => !turn.state.isTerminal) = 0 := by
      rw [List.countP_eq_zero]
      intro turn member
      simp [settled turn member]
    rw [List.concat_eq_append, List.countP_append, none_earlier, Nat.zero_add]
    exact List.countP_le_length

theorem WellFormed.nonempty (formed : WellFormed session) : session.turns ≠ [] := by
  intro empty
  have first := formed.first
  simp [empty] at first

/-- A well-formed Session passes any loop that admits its Turns. -/
theorem wellFormed_visited (formed : WellFormed session)
    (admitted : ∀ turn ∈ session.turns, admits turn) : Visited admits session session.turns where
  distinct := formed.distinct
  admitted := admitted
  inOrder := formed.inOrder
  first := by
    intro turn member
    have first := formed.first
    rw [Option.mem_def.mp member] at first
    exact Option.some.inj first
  oneActive := settled_oneActive formed.settled
  summed := formed.summed ▸ session.revision.bounded

/-- What the checks after a validator's loop add to what the loop established. -/
theorem visited_wellFormed (visited : Visited admits session session.turns)
    (coherent : ∀ turn ∈ session.turns, Coherent session turn) (nonempty : session.turns ≠ [])
    (settled : ∀ turn ∈ session.turns.dropLast, turn.state.isTerminal = true)
    (latest : session.turns.getLast?.map (·.updatedAt) = some session.updatedAt)
    (summed : revisionSum session.turns = session.revision.value) : WellFormed session where
  distinct := visited.distinct
  coherent := coherent
  inOrder := visited.inOrder
  first := by
    obtain ⟨turn, rest, shape⟩ := List.exists_cons_of_ne_nil nonempty
    simp [shape, visited.first turn (by simp [shape])]
  latest := latest
  settled := settled
  summed := summed

theorem WellFormed.timeOrder (formed : WellFormed session) :
    session.createdAt ≤ session.updatedAt := by
  obtain ⟨turn, rest, shape⟩ := List.exists_cons_of_ne_nil formed.nonempty
  have coherent := formed.coherent turn (by simp [shape])
  exact coherent.afterCreation.trans (coherent.ordered.trans coherent.beforeUpdate)

/-- The validator accepts exactly the snapshots of well-formed Sessions. -/
theorem validate_ok_iff (session : Session) :
    session.snapshot.validate = .ok () ↔ WellFormed session := by
  have nonempty : session.snapshot.turns = [] ↔ session.turns = [] := by
    simp [Session.snapshot]
  have length : session.snapshot.turns.length = session.turns.length := by
    simp [Session.snapshot]
  have latest : session.snapshot.turns.getLast?.map (·.updatedAt) =
      session.turns.getLast?.map (·.updatedAt) := by
    simp [Session.snapshot, Function.comp_def, Turn.snapshot]
  unfold SessionSnapshot.validate
  simp only [check_ok, nonempty, length, latest]
  constructor
  · rintro ⟨some_turn, ordered, accepted⟩
    cases ran : session.snapshot.turns.foldlM session.snapshot.validateTurn {} with
    | error e => simp [ran] at accepted
    | ok final =>
      obtain ⟨visited, rfl⟩ := (loop_ok session final).mp ran
      simp only [ran, check_ok, active_last_iff, not_not] at accepted
      obtain ⟨settled, summed, updated, _⟩ := accepted
      exact visited_wellFormed visited visited.admitted some_turn settled updated summed
  · intro formed
    have ran := (loop_ok session _).mpr ⟨wellFormed_visited formed formed.coherent, rfl⟩
    refine ⟨formed.nonempty, not_lt.mpr formed.timeOrder, ?_⟩
    simp only [ran, check_ok, active_last_iff, not_not]
    exact ⟨formed.settled, formed.summed, formed.latest, trivial⟩

end Satelle.SessionInvariants
