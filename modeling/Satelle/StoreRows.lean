import Satelle.SessionLifecycle
import Satelle.Host.Sql

/-! What it means that the rows of a store hold a Session, and that loading
then returns that Session. Every column is read back as it was written; the
rows of a Session are ordered by their ordinals, so a replay that stops at one
Turn reads the beginning of the history up to it. -/
namespace Satelle.StoreRows
open Satelle.Core Lib Host SessionInvariants SessionLifecycle

/-! ## Columns are read back as written -/

private theorem digit_not_sign (width value : Nat) : ∀ c ∈ fixedHex width value, c ≠ '+' := by
  have digits : ∀ digit < 16, Nat.digitChar digit ≠ '+' := by decide
  induction width generalizing value with
  | zero => simp [fixedHex]
  | succ width ih =>
    intro c member
    rw [fixedHex, List.mem_append, List.mem_singleton] at member
    rcases member with before | rfl
    · exact ih (value / 16) c before
    · exact digits _ (Nat.mod_lt _ (by decide))

private theorem u64FromHex_fixedHex (value : Nat) (small : value < u64Size) :
    u64FromHex (fixedHex 16 value) = some ⟨value, small⟩ := by
  obtain ⟨c, rest, shape⟩ : ∃ c rest, fixedHex 16 value = c :: rest := by
    cases digits : fixedHex 16 value with
    | nil =>
      have length := fixedHex_length 16 value
      rw [digits] at length
      cases length
    | cons c rest => exact ⟨c, rest, rfl⟩
  have unsigned := digit_not_sign 16 value c (by simp [shape])
  have read := readHex_fixedHex 16 value 0
  have fits : value % 16 ^ 16 = value := Nat.mod_eq_of_lt (by simpa [u64Size] using small)
  rw [shape] at read ⊢
  unfold u64FromHex
  split
  · simp_all
  · simp_all
  · simp_all
  · rw [read, Nat.zero_mul, Nat.zero_add, fits]
    simp [u64FromHex.inRange, small]

theorem parseStateRevision_format (revision : Revision subject) :
    parseStateRevision (formatRevision revision) = .ok revision := by
  have bytes : (formatRevision revision).utf8ByteSize = 16 := fixedHex_bytes 16 revision.value
  have digits : (formatRevision revision).toList = fixedHex 16 revision.value :=
    String.toList_ofList
  have read : parseRevision (formatRevision revision) = .ok ⟨revision.value, revision.bounded⟩ := by
    simp [parseRevision, bytes, digits, u64FromHex_fixedHex _ revision.bounded, orFail]
  unfold parseStateRevision
  rw [read]
  simp [Revision.new, revision.positive, bind, Except.bind, Except.mapError]

theorem parseTurnState_ok :
    parseTurnState text = .ok state ↔ text = turnStateToken state := by
  constructor
  · intro parsed
    unfold parseTurnState at parsed
    split at parsed
    all_goals first
      | (cases parsed; rfl)
      | simp [StorageError.fail] at parsed
  · rintro rfl
    cases state <;> rfl

/-- Exactly the nonterminal states have an active token. -/
theorem isActiveToken_token (state : TurnState) :
    isActiveToken (turnStateToken state) = !state.isTerminal := by
  cases state <;> rfl

theorem formatTime_ok :
    formatTime codec time = .ok text ↔ codec.format time = some text := orFail_ok

theorem parseTime_ok :
    parseTime codec text = .ok time ↔ codec.parse text = some time := orFail_ok

theorem parseTime_format (written : formatTime codec time = .ok text) :
    parseTime codec text = .ok time :=
  parseTime_ok.mpr (codec.roundTrip _ _ (formatTime_ok.mp written))

theorem parseTime_formatOption {time : Option OffsetDateTime}
    (written : time.mapM (formatTime codec) = .ok text) :
    text.mapM (parseTime codec) = .ok time := by
  cases time with
  | none =>
    cases written
    rfl
  | some time =>
    obtain ⟨column, formatted, made⟩ := except_bind_ok.mp written
    cases made
    exact except_bind_ok.mpr ⟨time, parseTime_format formatted, rfl⟩

theorem parseSafeSummary_token (summary : Option SafeSummary) :
    (summary.map safeSummaryToken).mapM parseSafeSummary = .ok summary := by
  rcases summary with _ | summary
  · rfl
  · cases summary <;> rfl

theorem storedReference_text (reference : Reference kind) :
    storedReference reference.text = .ok reference := by
  simp [storedReference, Except.mapError]

theorem parseExecutionPolicy_row (turnId : TurnId) (policy : ExecutionPolicy) :
    parseExecutionPolicy (turnPolicyRow turnId policy) = .ok policy := by
  have approval : parseApprovalPolicy (approvalPolicyToken policy.approvalPolicy) =
      .ok policy.approvalPolicy := by
    cases policy.approvalPolicy <;> rfl
  have sandbox : parseSandboxPolicy (sandboxPolicyToken policy.sandboxPolicy) =
      .ok policy.sandboxPolicy := by
    cases policy.sandboxPolicy <;> rfl
  have feature : ∀ choice, parseFeatureChoice (featureChoiceInteger choice) = .ok choice := by
    intro choice
    cases choice <;> rfl
  have timeout : ∀ timeout : TimeoutPolicy, parseTimeoutPolicy timeout.seconds = .ok timeout := by
    intro timeout
    have positive := timeout.positive
    have bounded := timeout.bounded
    exact dif_pos (by omega)
  unfold parseExecutionPolicy turnPolicyRow
  simp only [timeout, storedReference_text, approval, sandbox, feature, bind,
    Except.bind]
  rfl

theorem parseStopOutcome_token
    (written : stopOutcomeToken outcome = .ok token) : parseStopOutcome token = .ok outcome := by
  unfold stopOutcomeToken at written
  split at written
  all_goals first
    | (cases written; rfl)
    | simp [StorageError.fail] at written

/-! ## Rows that hold a Turn or a Session -/

/-- A row whose columns are read as the fields of the given Turn. -/
structure TurnColumns (codec : TimeCodec) (row : TurnRow) (turn : Turn) : Prop where
  turnId : row.turnId = turn.id.text
  revision : parseStateRevision row.turnStateRevision = .ok turn.revision
  state : row.state = turnStateToken turn.state
  startedAt : parseTime codec row.startedAt = .ok turn.startedAt
  updatedAt : parseTime codec row.updatedAt = .ok turn.updatedAt
  terminalAt : row.terminalAt.mapM (parseTime codec) = .ok turn.terminalAt
  safeSummary : row.safeSummary.mapM parseSafeSummary = .ok turn.safeSummary

/-- A row, with the rows it is joined with, that is read as the given Turn. -/
structure TurnStored (codec : TimeCodec) (db : Database) (row : TurnRow) (turn : Turn) : Prop where
  columns : TurnColumns codec row turn
  token : ∃ refs, db.turnPrivateRefs.lookup row.turnId = some refs ∧
    isPrivateReference refs.requestToken = true
  policy : ∃ policy, db.turnPolicies.lookup row.turnId = some policy ∧
    parseExecutionPolicy policy = .ok turn.executionPolicy

theorem TurnStored.parsed (stored : TurnStored codec db row turn) :
    ∃ raw, db.rawTurnRow row = some raw ∧ parseTurnRow codec raw = .ok turn.snapshot := by
  obtain ⟨refs, refsFound, tokenValid⟩ := stored.token
  obtain ⟨policy, policyFound, policyParsed⟩ := stored.policy
  have columns := stored.columns
  refine ⟨⟨row, refs.requestToken, policy⟩, by simp [Database.rawTurnRow, refsFound, policyFound], ?_⟩
  have accepted : validatedPrivateReference refs.requestToken =
      .ok ⟨refs.requestToken, tokenValid⟩ := by
    simp [validatedPrivateReference, tokenValid]
  have identity : PublicId.parse row.turnId = some turn.id := by
    rw [columns.turnId, PublicId.parse_text]
  simp only [parseTurnRow, accepted, policyParsed, identity, columns.revision,
    parseTurnState_ok.mpr columns.state, columns.startedAt, columns.updatedAt, columns.terminalAt,
    columns.safeSummary, orFail, bind, Except.bind]
  rfl

/-- A row whose columns are read as the fields of the given Session. -/
structure SessionColumns (codec : TimeCodec) (row : SessionRow) (session : Session) : Prop where
  displayName : row.displayName = session.displayName
  revision : parseStateRevision row.sessionStateRevision = .ok session.revision
  createdAt : parseTime codec row.createdAt = .ok session.createdAt
  updatedAt : parseTime codec row.updatedAt = .ok session.updatedAt

/-- The rows of a store that hold a Session. -/
structure SessionStored (codec : TimeCodec) (db : Database) (session : Session) : Prop where
  row : ∃ row, db.sessions.lookup session.id.text = some row ∧ SessionColumns codec row session
  refs : ∃ refs, db.sessionPrivateRefs.lookup session.id.text = some refs ∧
    refs.hostIdentityRef = session.hostIdentity.text ∧
    refs.desktopBindingRef = session.desktopBinding.text
  turns : List.Forall₂ (TurnStored codec db) (db.turnRows session.id) session.turns
  ordinals : (db.turnRows session.id).map (·.ordinal) = List.range session.turns.length
  formed : WellFormed session

/-! ## Loading -/

private theorem parse_rows
    (stored : List.Forall₂ (TurnStored codec db) rows turns) :
    (rows.filterMap db.rawTurnRow).mapM (parseTurnRow codec) = .ok (turns.map Turn.snapshot) := by
  induction stored with
  | nil => rfl
  | cons head tail ih =>
    obtain ⟨raw, joined, parsed⟩ := head.parsed
    rw [List.filterMap_cons_some joined, List.mapM_cons, parsed, ih]
    rfl

/-- Rows whose ordinals count up from zero: those up to a bound are a
beginning. -/
private theorem filter_ordinals {rows : List TurnRow}
    (ordinals : rows.map (·.ordinal) = List.range count) (bound : Nat) :
    rows.filter (fun row => row.ordinal ≤ bound) = rows.take (bound + 1) := by
  induction rows using List.reverseRecOn generalizing count with
  | nil => simp
  | append_singleton earlier last ih =>
    cases count with
    | zero => simp at ordinals
    | succ count =>
      rw [List.map_append, List.map_singleton, List.range_succ] at ordinals
      obtain ⟨before, own⟩ := List.append_inj' ordinals rfl
      have length : earlier.length = count := by simpa using congrArg List.length before
      have position : last.ordinal = count := by simpa using own
      rw [List.filter_append, ih before]
      by_cases inside : count ≤ bound
      · rw [List.take_of_length_le (by omega), List.take_of_length_le (by simp; omega)]
        simp [position, inside]
      · rw [List.take_append_of_le_length (by omega)]
        simp [position, inside]

/-- Rows whose ordinals count up are in the order the query asks for. -/
private theorem sort_ordinals {rows : List TurnRow}
    (ordinals : rows.map (·.ordinal) = List.range count) :
    rows.insertionSort (fun a b => a.ordinal ≤ b.ordinal) = rows := by
  have increasing : (rows.map (·.ordinal)).Pairwise (· ≤ ·) := by
    rw [ordinals]
    exact List.pairwise_le_range
  exact (List.pairwise_map.mp increasing).insertionSort_eq

/-- The position of a Turn in the history is the ordinal of its row. -/
theorem SessionStored.row_at (stored : SessionStored codec db session)
    (found : session.turns[index]? = some turn) :
    ∃ row, (db.turnRows session.id)[index]? = some row ∧ TurnStored codec db row turn ∧
      row.ordinal = index := by
  obtain ⟨inside, own⟩ := List.getElem?_eq_some_iff.mp found
  have length := stored.turns.length_eq
  have there : index < (db.turnRows session.id).length := length ▸ inside
  have row := stored.turns.get there inside
  refine ⟨(db.turnRows session.id)[index], List.getElem?_eq_getElem there, ?_, ?_⟩
  · simpa [own] using row
  · have ranked : ((db.turnRows session.id).map (·.ordinal))[index]? = some index := by
      rw [stored.ordinals, List.getElem?_range inside]
    simpa [List.getElem?_eq_getElem there] using ranked

theorem SessionStored.row_of_turn (stored : SessionStored codec db session)
    (member : turn ∈ session.turns) :
    ∃ row ∈ db.turnRows session.id, TurnStored codec db row turn := by
  obtain ⟨index, found⟩ := List.mem_iff_getElem?.mp member
  obtain ⟨row, there, rowStored, _⟩ := stored.row_at found
  exact ⟨row, List.mem_of_getElem? there, rowStored⟩

theorem SessionStored.turn_of_row {row : TurnRow} (stored : SessionStored codec db session)
    (member : row ∈ db.turnRows session.id) :
    ∃ turn ∈ session.turns, TurnStored codec db row turn := by
  obtain ⟨index, inside, rfl⟩ := List.getElem_of_mem member
  have there : index < session.turns.length := stored.turns.length_eq ▸ inside
  exact ⟨session.turns[index], List.getElem_mem _, by simpa using stored.turns.get inside there⟩

private theorem turnRows_find {db : Database}
    (member : row ∈ db.turnRows sessionId) :
    (db.turnRows sessionId).find? (fun other => other.turnId = row.turnId) = some row := by
  have inTable := (List.mem_filter.mp member).1
  cases found : (db.turnRows sessionId).find? (fun other => other.turnId = row.turnId) with
  | none =>
    have missing := List.find?_eq_none.mp found row member
    simp at missing
  | some other =>
    have same : other.turnId = row.turnId := by simpa using List.find?_some found
    have there := (List.mem_filter.mp (List.mem_of_find?_eq_some found)).1
    rw [Table.row_unique there inTable same]

/-- Cutting a history after one of its Turns keeps the beginning up to it. -/
theorem rawTurnRows_boundary (stored : SessionStored codec db session)
    (found : session.turns[index]? = some turn) :
    (db.rawTurnRows session.id (some turn.id)).mapM (parseTurnRow codec) =
      .ok ((session.turns.take (index + 1)).map Turn.snapshot) := by
  obtain ⟨row, at_index, rowStored, ordinal⟩ := stored.row_at found
  have member : row ∈ db.turnRows session.id := List.mem_of_getElem? at_index
  have boundary : db.withinBoundary session.id (some turn.id) =
      fun other => decide (other.ordinal ≤ index) := by
    funext other
    simp only [Database.withinBoundary, Option.all_some, ← rowStored.columns.turnId, turnRows_find member,
      Option.any_some, ordinal]
  have cut := filter_ordinals stored.ordinals index
  have ranks : ((db.turnRows session.id).take (index + 1)).map (·.ordinal) =
      List.range (min (index + 1) session.turns.length) := by
    rw [List.map_take, stored.ordinals, List.take_range]
  unfold Database.rawTurnRows
  rw [boundary, cut, sort_ordinals ranks]
  exact parse_rows (List.forall₂_take (index + 1) stored.turns)

/-- A Session whose history ends with one of its Turns. -/
def cutAfter (session : Session) (index : Nat) (revision : SessionStateRevision)
    (updatedAt : OffsetDateTime) : Session :=
  { session with
    turns := session.turns.take (index + 1)
    revision := revision
    updatedAt := updatedAt }

theorem load_stored (stored : SessionStored codec db session) :
    loadSession codec db session.id = .ok (some session) := by
  obtain ⟨row, rowFound, displayName, revision, createdAt, updatedAt⟩ := stored.row
  obtain ⟨refs, refsFound, host, binding⟩ := stored.refs
  have restored : Session.restore session.snapshot = .ok session :=
    restore_ok_iff.mpr ⟨rfl, stored.formed⟩
  have rows : (db.rawTurnRows session.id none).mapM (parseTurnRow codec) =
      .ok (session.turns.map Turn.snapshot) := by
    have everything : (db.turnRows session.id).filter (db.withinBoundary session.id none) =
        db.turnRows session.id := by
      simp [Database.withinBoundary]
    rw [Database.rawTurnRows, everything, sort_ordinals stored.ordinals]
    exact parse_rows stored.turns
  unfold loadSession loadSessionAt Database.rawSessionRow
  simp only [rowFound, refsFound, Option.bind_some, Option.pure_def,
    Option.map_none, Option.elim_none, rows, revision, host, binding,
    storedReference_text, createdAt, updatedAt, displayName, bind, Except.bind]
  simp only [Session.snapshot] at restored
  rw [restored]
  rfl

end Satelle.StoreRows
