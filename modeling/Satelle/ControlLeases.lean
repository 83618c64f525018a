import Satelle.StoreRefinement

/-! Control leases follow the Turns. A lease of kind `turn` stands for one
nonterminal Turn and carries its state; every nonterminal Turn has one. As a
desktop has one lease at most, it has one nonterminal Turn at most. -/
namespace Satelle.ControlLeases
open Satelle.Core Lib Host SessionInvariants SessionLifecycle StoreStatements StoreChanges
open StoreRepresentation StoreTransactions StoreRefinement

/-- A nonterminal Turn of a held Session. -/
structure Running (held : Sessions) (session : Session) (turn : Turn) : Prop where
  known : held session.id = some session
  member : turn ∈ session.turns
  active : turn.state.isTerminal = false

/-- The leases of kind `turn` are those of the running Turns. -/
structure LeasesTrack (leases : LeaseTable) (held : Sessions) : Prop where
  owned : ∀ lease ∈ leases.rows, lease.ownerKind = "turn" → ∃ session turn,
    Running held session turn ∧ HeldBy session turn.id lease ∧
      lease.leaseState = leaseStateToken turn.state
  leased : ∀ session turn, Running held session turn →
    ∃ lease ∈ leases.rows, HeldBy session turn.id lease

/-- Only the last Turn can be running. -/
theorem running_last (formed : WellFormed session) (shape : session.turns = earlier ++ [last])
    (member : turn ∈ session.turns) (active : turn.state.isTerminal = false) : turn = last := by
  rw [shape, List.mem_append, List.mem_singleton] at member
  rcases member with before | same
  · have settled := formed.settled turn (by simpa [shape] using before)
    rw [settled] at active
    cases active
  · exact same

/-- After one Session was replaced: its own running Turns and those of the
others. -/
theorem running_update (own : after.id = sessionId) :
    Running (Function.update held sessionId (some after)) session turn ↔
      (session = after ∧ turn ∈ after.turns ∧ turn.state.isTerminal = false) ∨
        (session.id ≠ sessionId ∧ Running held session turn) := by
  constructor
  · rintro ⟨known, member, active⟩
    by_cases same : session.id = sessionId
    · rw [same, Function.update_self] at known
      cases known
      exact .inl ⟨rfl, member, active⟩
    · rw [Function.update_of_ne same] at known
      exact .inr ⟨same, known, member, active⟩
  · rintro (⟨rfl, member, active⟩ | ⟨other, known, member, active⟩)
    · exact ⟨by rw [own, Function.update_self], member, active⟩
    · exact ⟨by rw [Function.update_of_ne other]; exact known, member, active⟩

/-- A Turn that starts takes a lease beside the others. -/
private theorem taken_track (track : LeasesTrack leases held)
    (taken : LeaseTaken leases session turn.id after) (own : session.id = sessionId)
    (shape : session.turns = earlier ++ [turn]) (formed : WellFormed session)
    (starting : turn.state = .starting)
    (idle : ∀ other turn, Running held other turn → other.id ≠ sessionId) :
    LeasesTrack after (Function.update held sessionId (some session)) := by
  obtain ⟨lease, inserted, heldBy, state⟩ := taken
  obtain ⟨_, rows⟩ := Table.insert_eq_some.mp inserted
  have running : Running (Function.update held sessionId (some session)) session turn :=
    (running_update own).mpr (.inl ⟨rfl, by simp [shape], by rw [starting]; rfl⟩)
  refine ⟨?_, ?_⟩
  · rw [rows]
    refine forall_mem_concat.mpr ⟨fun other old kind => ?_,
      fun _ => ⟨session, turn, running, heldBy, by rw [state, starting]; rfl⟩⟩
    obtain ⟨owner, turn, runs, facts⟩ := track.owned other old kind
    exact ⟨owner, turn, (running_update own).mpr (.inr ⟨idle owner turn runs, runs⟩), facts⟩
  · intro owner moving runs
    rcases (running_update own).mp runs with ⟨rfl, member, active⟩ | ⟨_, runs⟩
    · cases running_last formed shape member active
      exact ⟨lease, by simp [rows], heldBy⟩
    · obtain ⟨other, member, facts⟩ := track.leased owner moving runs
      exact ⟨other, by simp [rows, member], facts⟩

/-- A lease is selected by the Session and the Turn that hold it. -/
private theorem ownedBy_iff (heldBy : HeldBy session turnId lease) :
    ControlLeaseRow.ownedBy sessionId target lease = true ↔
      session.id = sessionId ∧ turnId = target := by
  simp [ControlLeaseRow.ownedBy, heldBy.session, heldBy.turn, PublicId.text_inj]

/-- Writing the state of a lease does not change who holds it. -/
private theorem heldBy_patch (heldBy : HeldBy session turnId lease) :
    HeldBy session turnId (patch hit (fun lease => { lease with leaseState := state }) lease) := by
  obtain ⟨host, binding, kind, session, turn⟩ := heldBy
  unfold patch
  split <;> exact ⟨host, binding, kind, session, turn⟩

private theorem kind_patch
    (lease : ControlLeaseRow) :
    (patch hit (fun lease => { lease with leaseState := state }) lease).ownerKind =
      lease.ownerKind := by
  by_cases found : hit lease = true <;> simp [patch, found]

/-- The lease of the Turn that moved moves with it, or goes when it ends. -/
private theorem follows_track (represents : Represents codec db held)
    (track : LeasesTrack leases held) (known : held before.id = some before)
    (formed : WellFormed session) (advances : Advances before session last turn)
    (follows : LeaseFollows leases before.id turn.id turn.state after) :
    LeasesTrack after (Function.update held before.id (some session)) := by
  obtain ⟨earlier, shape, moved⟩ := advances.shape
  have formedBefore := (represents.stored _ _ known).2.formed
  have own := advances.same.id
  -- the running Turn of the Session before is the one that moves
  have only : ∀ other moving, Running held other moving → other.id = before.id →
      other = before ∧ moving = last := by
    intro other moving runs same
    have equal : other = before := by
      have found := runs.known
      rw [same, known] at found
      exact (Option.some.inj found).symm
    subst equal
    exact ⟨rfl, running_last formedBefore shape runs.member runs.active⟩
  have takesOver : ∀ {lease}, HeldBy before last.id lease → HeldBy session turn.id lease :=
    fun heldBy => ⟨heldBy.host.trans (congrArg Reference.text advances.same.host.symm),
      heldBy.binding.trans (congrArg Reference.text advances.same.binding.symm), heldBy.kind,
      own ▸ heldBy.session, advances.id ▸ heldBy.turn⟩
  unfold LeaseFollows at follows
  cases terminal : turn.state.isTerminal with
  | true =>
    rw [terminal, if_pos rfl] at follows
    obtain ⟨_, rfl⟩ := Table.deleteOne_eq_some.mp follows
    refine ⟨?_, ?_⟩
    · intro lease member kind
      obtain ⟨there, spared⟩ := List.mem_filter.mp member
      obtain ⟨owner, moving, runs, heldBy, state⟩ := track.owned lease there kind
      have other : owner.id ≠ before.id := by
        intro same
        obtain ⟨rfl, rfl⟩ := only owner moving runs same
        rw [(ownedBy_iff heldBy).mpr ⟨rfl, advances.id.symm⟩] at spared
        cases spared
      exact ⟨owner, moving, (running_update own).mpr (.inr ⟨other, runs⟩), heldBy, state⟩
    · intro owner moving runs
      rcases (running_update own).mp runs with ⟨rfl, member, active⟩ | ⟨other, runs⟩
      · cases running_last formed moved member active
        rw [terminal] at active
        cases active
      · obtain ⟨lease, there, heldBy⟩ := track.leased owner moving runs
        refine ⟨lease, List.mem_filter.mpr ⟨there, ?_⟩, heldBy⟩
        rw [Bool.not_eq_true', ← Bool.not_eq_true, ownedBy_iff heldBy]
        exact fun hit => other hit.1
  | false =>
    rw [terminal, if_neg (by simp)] at follows
    obtain ⟨_, rfl⟩ := Table.updateOne_eq_some.mp follows
    refine ⟨?_, ?_⟩
    · refine List.forall_mem_map.mpr fun old there kind => ?_
      rw [kind_patch old] at kind
      obtain ⟨owner, moving, runs, heldBy, state⟩ := track.owned old there kind
      by_cases same : owner.id = before.id
      · obtain ⟨rfl, rfl⟩ := only owner moving runs same
        have hit := (ownedBy_iff heldBy).mpr ⟨rfl, advances.id.symm⟩
        exact ⟨session, turn, (running_update own).mpr (.inl ⟨rfl, by simp [moved], terminal⟩),
          heldBy_patch (takesOver heldBy), by simp [patch, hit]⟩
      · refine ⟨owner, moving, (running_update own).mpr (.inr ⟨same, runs⟩),
          heldBy_patch heldBy, ?_⟩
        have spared : ¬ControlLeaseRow.ownedBy before.id turn.id old = true := by
          rw [ownedBy_iff heldBy]
          exact fun hit => same hit.1
        simpa [patch, spared] using state
    · intro owner moving runs
      rcases (running_update own).mp runs with ⟨rfl, member, active⟩ | ⟨other, runs⟩
      · cases running_last formed moved member active
        obtain ⟨lease, there, heldBy⟩ := track.leased before last
          ⟨known, by simp [shape], advances.active⟩
        exact ⟨_, List.mem_map_of_mem there, heldBy_patch (takesOver heldBy)⟩
      · obtain ⟨lease, there, heldBy⟩ := track.leased owner moving runs
        exact ⟨_, List.mem_map_of_mem there, heldBy_patch heldBy⟩

/-- The states of leases are written, and a Turn's lease gets the state of the Turn. -/
private theorem patched_track (track : LeasesTrack leases held)
    (rows : after.rows = leases.rows.map (patch hit fun lease => { lease with leaseState := state }))
    (stated : ∀ lease owner turn, hit lease = true → Running held owner turn →
      HeldBy owner turn.id lease → state = leaseStateToken turn.state) :
    LeasesTrack after held := by
  refine ⟨?_, ?_⟩
  · rw [rows, List.forall_mem_map]
    intro old there kind
    rw [kind_patch old] at kind
    obtain ⟨owner, moving, runs, heldBy, same⟩ := track.owned old there kind
    refine ⟨owner, moving, runs, heldBy_patch heldBy, ?_⟩
    by_cases found : hit old = true
    · simpa [patch, found] using stated old owner moving found runs heldBy
    · simpa [patch, found] using same
  · intro owner moving runs
    obtain ⟨lease, there, heldBy⟩ := track.leased owner moving runs
    exact ⟨_, rows ▸ List.mem_map_of_mem there, heldBy_patch heldBy⟩

/-- Setting the lease of a running Turn to the state of the Turn. -/
private theorem leaseSet_track (represents : Represents codec db held)
    (track : LeasesTrack leases held) (known : held session.id = some session)
    (found : session.turn turnId = some turn) (active : turn.state.isTerminal = false)
    (follows : LeaseFollows leases session.id turnId turn.state after) :
    LeasesTrack after held := by
  have formed := (represents.stored _ _ known).2.formed
  unfold LeaseFollows at follows
  rw [active, if_neg (by simp)] at follows
  obtain ⟨_, rfl⟩ := Table.updateOne_eq_some.mp follows
  refine patched_track track rfl fun lease owner moving hit runs heldBy => ?_
  obtain ⟨sameSession, rfl⟩ := (ownedBy_iff heldBy).mp hit
  have own := runs.known
  rw [sameSession, known] at own
  cases own
  cases (turn_of_mem formed runs.member).symm.trans found
  rfl

/-- The leases of probes are of another kind. -/
private theorem probes_track (track : LeasesTrack db.controlLeases held) :
    LeasesTrack (markProbeLeases db).controlLeases held := by
  refine patched_track track rfl fun lease owner moving hit runs heldBy => ?_
  simp [heldBy.kind] at hit

/-- A Session that holds a lease is not removed. -/
private theorem retired_track (track : LeasesTrack db.controlLeases held)
    (removed : deleteSessionMetadata db sessionId = .ok after) :
    LeasesTrack after.controlLeases (Function.update held sessionId none) := by
  unfold deleteSessionMetadata at removed
  simp only [except_bind_ok, orFail_ok, ensure_ok] at removed
  obtain ⟨sessions, deleted, _, _, _, _, made⟩ := removed
  cases made
  have unleased : ∀ lease ∈ db.controlLeases.rows, lease.sessionId ≠ some sessionId.text := by
    obtain ⟨one, _⟩ := Table.deleteOne_eq_some.mp deleted
    obtain ⟨row, _, hit, _⟩ := Table.exists_of_countP_one one
    simp only [Bool.and_eq_true, decide_eq_true_eq, Bool.not_eq_true', hasControlLease,
      List.any_eq_false] at hit
    obtain ⟨⟨⟨own, noLease⟩, _⟩, _⟩ := hit
    intro lease member same
    exact noLease lease member (by rw [own]; exact same)
  refine ⟨?_, ?_⟩
  · intro lease member kind
    obtain ⟨owner, moving, runs, heldBy, state⟩ := track.owned lease member kind
    have other : owner.id ≠ sessionId := by
      rintro rfl
      exact unleased lease member heldBy.session
    exact ⟨owner, moving, ⟨by rw [Function.update_of_ne other]; exact runs.known, runs.member,
      runs.active⟩, heldBy, state⟩
  · intro owner moving runs
    have other : owner.id ≠ sessionId := by
      intro same
      have known := runs.known
      rw [same, Function.update_self] at known
      cases known
    refine track.leased owner moving ⟨?_, runs.member, runs.active⟩
    have known := runs.known
    rwa [Function.update_of_ne other] at known

/-- Every change keeps the leases in step with the Turns. -/
theorem change_track (represents : Represents codec db held)
    (track : LeasesTrack db.controlLeases held) (change : Change codec permit db held after held') :
    LeasesTrack after.controlLeases held' := by
  cases change with
  | started _ formed only starting _ _ _ sessionAdded _ leased =>
    refine taken_track track leased rfl (by rw [only, List.nil_append]) formed starting ?_
    intro other moving runs same
    have known := runs.known
    rw [same, sessionAdded_free represents sessionAdded] at known
    cases known
  | appended known formed appends _ _ _ _ _ leased =>
    refine taken_track track leased appends.same.id appends.shape formed appends.starting ?_
    intro other moving runs same
    have found := runs.known
    rw [same, known] at found
    cases found
    have active := runs.active
    rw [appends.idle moving runs.member] at active
    cases active
  | advanced known formed advances _ _ leaseFollows =>
    exact follows_track represents track known formed advances leaseFollows
  | leaseSet known found active leaseFollows =>
    exact leaseSet_track represents track known found active leaseFollows
  | probesMarked => exact probes_track track
  | retired _ removed => exact retired_track track removed
  | stopOpened | stopClosed | referenced | cancelled | logged | swept | forgotten => exact track

theorem fresh_track (fresh : Fresh db) : LeasesTrack db.controlLeases (fun _ => none) where
  owned := by
    intro lease member kind
    exact absurd kind (fresh.leases lease member)
  leased := by
    rintro session turn ⟨known, _, _⟩
    cases known

/-- The control leases of kind `turn` that name a Turn. -/
def turnLeases (db : Database) (turnId : TurnId) : List ControlLeaseRow :=
  db.controlLeases.rows.filter fun lease =>
    lease.ownerKind = "turn" && lease.turnId = some turnId.text

private theorem mem_turnLeases : lease ∈ turnLeases db turnId ↔
    lease ∈ db.controlLeases.rows ∧ lease.ownerKind = "turn" ∧ lease.turnId = some turnId.text := by
  simp [turnLeases]

/-- A lease that names a Turn is held by that Turn, which is running. -/
private theorem turnLease_running (represents : Represents codec db held)
    (track : LeasesTrack db.controlLeases held) (known : held session.id = some session)
    (member : turn ∈ session.turns) (named : lease ∈ turnLeases db turn.id) :
    turn.state.isTerminal = false ∧ HeldBy session turn.id lease ∧
      lease.leaseState = leaseStateToken turn.state := by
  obtain ⟨there, kind, ofTurn⟩ := mem_turnLeases.mp named
  obtain ⟨owner, moving, runs, heldBy, state⟩ := track.owned lease there kind
  have sameId : turn.id = moving.id := by
    rw [heldBy.turn, Option.some.injEq, PublicId.text_inj] at ofTurn
    exact ofTurn.symm
  obtain ⟨rfl, rfl⟩ := turn_unique represents known runs.known member runs.member sameId
  exact ⟨runs.active, heldBy, state⟩

private theorem turnLeases_running (represents : Represents codec db held)
    (track : LeasesTrack db.controlLeases held) (known : held session.id = some session)
    (member : turn ∈ session.turns) (active : turn.state.isTerminal = false) :
    ∃ lease, turnLeases db turn.id = [lease] ∧ HeldBy session turn.id lease ∧
      lease.leaseState = leaseStateToken turn.state := by
  obtain ⟨lease, there, heldBy⟩ := track.leased session turn ⟨known, member, active⟩
  have named : lease ∈ turnLeases db turn.id :=
    mem_turnLeases.mpr ⟨there, heldBy.kind, heldBy.turn⟩
  obtain ⟨_, _, state⟩ := turnLease_running represents track known member named
  refine ⟨lease, ?_, heldBy, state⟩
  -- a second lease would be on the same desktop
  refine Table.filter_eq_singleton there (List.mem_filter.mp named).2 ?_
  intro other otherThere hit
  obtain ⟨_, otherHeldBy, _⟩ := turnLease_running represents track known member
    (List.mem_filter.mpr ⟨otherThere, hit⟩)
  refine Table.row_unique otherThere there (Prod.ext ?_ ?_)
  · exact otherHeldBy.host.trans heldBy.host.symm
  · exact otherHeldBy.binding.trans heldBy.binding.symm

/-- In a reachable store every Turn row belongs to a Session that loads. A
nonterminal Turn has exactly one control lease, on the desktop of its Session,
which waits for recovery exactly when the Turn does; a terminal Turn has none.
Two nonterminal Turns are never on one desktop. -/
theorem leases_track_turns (codec : TimeCodec) (db : Database)
    (reachable : ReachableStore codec db) :
    (∀ row ∈ db.turns.rows, ∃ sessionId session turn,
      loadSession codec db sessionId = .ok (some session) ∧ turn ∈ session.turns ∧
        row.turnId = turn.id.text) ∧
    (∀ sessionId session turn, loadSession codec db sessionId = .ok (some session) →
      turn ∈ session.turns →
      (turn.state.isTerminal = true → turnLeases db turn.id = []) ∧
      (turn.state.isTerminal = false → ∃ lease, turnLeases db turn.id = [lease] ∧
        HeldBy session turn.id lease ∧
        (lease.leaseState = "recovery_pending" ↔ turn.state = .recoveryPending))) ∧
    (∀ sessionId otherId session other turn otherTurn,
      loadSession codec db sessionId = .ok (some session) →
      loadSession codec db otherId = .ok (some other) →
      session.hostIdentity = other.hostIdentity → session.desktopBinding = other.desktopBinding →
      turn ∈ session.turns → otherTurn ∈ other.turns → turn.state.isTerminal = false →
      otherTurn.state.isTerminal = false → session = other ∧ turn = otherTurn) := by
  obtain ⟨held, represents, track⟩ := reachable_invariant
    (fun db held => LeasesTrack db.controlLeases held) (fun _ => fresh_track)
    (fun _ _ _ _ _ _ _ represents track change => change_track represents track change) reachable
  have loaded : ∀ {sessionId session}, loadSession codec db sessionId = .ok (some session) →
      held session.id = some session := by
    intro sessionId session load
    rw [represents.load, Except.ok.injEq] at load
    obtain ⟨rfl, _⟩ := represents.stored _ _ load
    exact load
  refine ⟨?_, ?_, ?_⟩
  · intro row member
    obtain ⟨session, turn, known, inHistory, stored⟩ := turn_of_table represents member
    exact ⟨session.id, session, turn, by rw [represents.load, known], inHistory,
      stored.columns.turnId⟩
  · intro sessionId session turn load member
    refine ⟨?_, ?_⟩
    · intro terminal
      rw [List.eq_nil_iff_forall_not_mem]
      intro lease named
      obtain ⟨active, _⟩ := turnLease_running represents track (loaded load) member named
      rw [terminal] at active
      cases active
    · intro active
      obtain ⟨lease, only, heldBy, state⟩ :=
        turnLeases_running represents track (loaded load) member active
      exact ⟨lease, only, heldBy, by rw [state]; cases turn.state <;> decide⟩
  · intro sessionId otherId session other turn otherTurn load otherLoad host binding member
      otherMember active otherActive
    obtain ⟨lease, there, heldBy⟩ := track.leased session turn ⟨loaded load, member, active⟩
    obtain ⟨otherLease, otherThere, otherHeldBy⟩ :=
      track.leased other otherTurn ⟨loaded otherLoad, otherMember, otherActive⟩
    have sameLease : lease = otherLease := by
      refine Table.row_unique there otherThere (Prod.ext ?_ ?_)
      · exact heldBy.host.trans ((congrArg Reference.text host).trans otherHeldBy.host.symm)
      · exact heldBy.binding.trans
          ((congrArg Reference.text binding).trans otherHeldBy.binding.symm)
    subst sameLease
    have sameTurn : turn.id = otherTurn.id := by
      have names := heldBy.turn.symm.trans otherHeldBy.turn
      rwa [Option.some.injEq, PublicId.text_inj] at names
    exact turn_unique represents (loaded load) (loaded otherLoad) member otherMember sameTurn

theorem leases_track_turns_started :
    loadSession sampleCodec startedStore sampleSessionId = .ok (some sampleSession) ∧
    ∃ lease, turnLeases startedStore sampleTurnId = [lease] ∧
      lease.leaseState ≠ "recovery_pending" := by
  have load : loadSession sampleCodec startedStore sampleSessionId = .ok (some sampleSession) := by
    decide
  have tracked := leases_track_turns sampleCodec startedStore startedStore_reachable
  obtain ⟨lease, only, _, state⟩ :=
    (tracked.2.1 sampleSessionId sampleSession _ load (.head _)).2 rfl
  refine ⟨load, lease, only, ?_⟩
  rw [ne_eq, state]
  decide

end Satelle.ControlLeases
