import Satelle.SetupTransactions
import Satelle.StoreTransactions

/-! What one call can do to maintenance, said once: to the lease, to the leases that
it excludes, and to the runs. The invariants of maintenance are proved for an act,
not for a call. -/
namespace Satelle.MaintenanceActs
open Satelle.Core Lib Host SetupWorks SetupStatements SetupTransactions Relation StoreChanges
open StoreStatements StoreRepresentation StoreTransactions StoreEffects

/-! ## Calls on Sessions and Turns -/

/-- What calls on Sessions and Turns leave of maintenance: its leases, its runs but
for those that have ended, and no new lease of a Host that is maintained. -/
structure Spares (db after : Database) : Prop where
  identity : after.daemonIdentity = db.daemonIdentity
  leases : after.maintenanceLeases = db.maintenanceLeases
  ledger : LedgerPruned db after.setupRuns after.setupActions
  controls : ∀ lease ∈ after.controlLeases.rows,
    (∃ old ∈ db.controlLeases.rows, SameHolder old lease) ∨
      db.maintenanceLeases.lookup lease.hostIdentityRef = none

theorem Spares.refl (db : Database) : Spares db db where
  identity := rfl
  leases := rfl
  ledger := ledgerPruned_none db
  controls := fun lease member => .inl ⟨lease, member, .refl lease⟩

theorem Spares.trans (first : Spares db middle) (second : Spares middle after) :
    Spares db after where
  identity := second.identity.trans first.identity
  leases := second.leases.trans first.leases
  ledger := first.ledger.trans second.ledger
  controls := by
    intro lease member
    rcases second.controls lease member with ⟨old, there, same⟩ | free
    · rcases first.controls old there with ⟨older, present, before⟩ | free
      · exact .inl ⟨older, present, before.trans same⟩
      · exact .inr (same.host ▸ free)
    · exact .inr (first.leases ▸ free)

/-- Only the leases of Turns and probes change. -/
theorem spares_of_controls (controls : ∀ lease ∈ after.controlLeases.rows,
      (∃ old ∈ db.controlLeases.rows, SameHolder old lease) ∨
        db.maintenanceLeases.lookup lease.hostIdentityRef = none)
    (identity : after.daemonIdentity = db.daemonIdentity)
    (leases : after.maintenanceLeases = db.maintenanceLeases)
    (runs : after.setupRuns = db.setupRuns) (actions : after.setupActions = db.setupActions) :
    Spares db after where
  identity := identity
  leases := leases
  ledger := by
    rw [runs, actions]
    exact ledgerPruned_none db
  controls := controls

theorem change_spares (change : Change codec permit db held after held') : Spares db after := by
  have taken : ∀ {session : Session} {turnId : TurnId} {leases : LeaseTable},
      LeaseTaken db.controlLeases session turnId leases →
      db.maintenanceLeases.lookup session.hostIdentity.text = none → ∀ lease ∈ leases.rows,
        (∃ old ∈ db.controlLeases.rows, SameHolder old lease) ∨
          db.maintenanceLeases.lookup lease.hostIdentityRef = none := by
    rintro session turnId leases ⟨new, inserted, heldBy, _⟩ unmaintained
    rw [(Table.insert_eq_some.mp inserted).2]
    refine forall_mem_concat.mpr ⟨fun lease old => .inl ⟨lease, old, .refl lease⟩, .inr ?_⟩
    rw [heldBy.host]
    exact unmaintained
  have kept : ∀ lease ∈ db.controlLeases.rows,
      (∃ old ∈ db.controlLeases.rows, SameHolder old lease) ∨
        db.maintenanceLeases.lookup lease.hostIdentityRef = none :=
    fun lease member => .inl ⟨lease, member, .refl lease⟩
  cases change with
  | started _ _ _ _ _ _ _ _ _ leased _ _ unmaintained
  | appended _ _ _ _ _ _ _ _ leased _ _ unmaintained =>
    exact spares_of_controls (taken leased unmaintained) rfl rfl rfl rfl
  | advanced _ _ _ _ _ follows | leaseSet _ _ _ follows =>
    refine spares_of_controls (fun lease member => .inl ?_) rfl rfl rfl rfl
    unfold LeaseFollows at follows
    split at follows
    · obtain ⟨_, rfl⟩ := Table.deleteOne_eq_some.mp follows
      exact ⟨lease, List.mem_of_mem_filter member, .refl lease⟩
    · obtain ⟨_, rfl⟩ := Table.updateOne_eq_some.mp follows
      obtain ⟨old, there, rfl⟩ := List.mem_map.mp member
      exact ⟨old, there, patch_holder _ _ old⟩
  | probesMarked =>
    refine spares_of_controls (fun lease member => .inl ?_) rfl rfl rfl rfl
    obtain ⟨old, there, rfl⟩ := List.mem_map.mp member
    exact ⟨old, there, patch_holder _ _ old⟩
  | swept _ _ _ ledger _ => exact ⟨rfl, rfl, ledger, kept⟩
  | retired _ removed =>
    unfold deleteSessionMetadata at removed
    simp only [except_bind_ok, orFail_ok, ensure_ok] at removed
    obtain ⟨_, _, _, _, _, _, made⟩ := removed
    cases made
    exact spares_of_controls kept rfl rfl rfl rfl
  | stopOpened | stopClosed | referenced | cancelled | logged | forgotten =>
    exact spares_of_controls kept rfl rfl rfl rfl

/-- Sessions are of the daemon's own Host. -/
def OwnHost (db : Database) (held : Sessions) : Prop :=
  ∀ sessionId session, held sessionId = some session →
    db.daemonIdentity = some session.hostIdentity.text

theorem change_ownHost (change : Change codec permit db held after held') (own : OwnHost db held) :
    OwnHost after held' := by
  have identity := (change_spares change).identity
  have others : ∀ {changed : SessionId} {new : Option Session},
      (∀ session, new = some session → db.daemonIdentity = some session.hostIdentity.text) →
      ∀ sessionId session, Function.update held changed new sessionId = some session →
        after.daemonIdentity = some session.hostIdentity.text := by
    intro changed new here sessionId session found
    rw [identity]
    by_cases same : sessionId = changed
    · subst same
      rw [Function.update_self] at found
      exact here session found
    · rw [Function.update_of_ne same] at found
      exact own sessionId session found
  cases change with
  | started _ _ _ _ _ _ _ sessionAdded =>
    refine others fun session same => ?_
    cases same
    exact sessionAdded.ownHost
  | appended known _ moves | advanced known _ moves =>
    refine others fun session same => ?_
    cases same
    rw [moves.same.host]
    exact own _ _ known
  | retired => exact others fun session none => by cases none
  | leaseSet | probesMarked | stopOpened | stopClosed | referenced | cancelled | logged | swept
  | forgotten => exact own

/-- The store holds Sessions, all of its own Host. -/
def Holds (codec : TimeCodec) (db : Database) : Prop :=
  ∃ held, Represents codec db held ∧ OwnHost db held

theorem serve_holds (holds : Holds codec db) (call : StoreCall) :
    Holds codec (serve codec db call).2 := by
  obtain ⟨held, represents, own⟩ := holds
  exact serve_keep (fun _ _ _ _ _ own change => change_ownHost change own) represents own

theorem serve_spares (holds : Holds codec db) (call : StoreCall) :
    Spares db (serve codec db call).2 := by
  obtain ⟨held, represents, _⟩ := holds
  obtain ⟨held', changes⟩ := serve_changed represents call
  generalize (serve codec db call).2 = after at changes
  induction changes with
  | none => exact .refl db
  | more _ change ih => exact ih.trans (change_spares change)

/-! ## Maintenance -/

/-- Only the ledger and the leases differ. -/
def Ledgerwise (db after : Database) : Prop :=
  after = { db with
    controlLeases := after.controlLeases
    maintenanceLeases := after.maintenanceLeases
    setupRuns := after.setupRuns
    setupActions := after.setupActions }

theorem holds_of_ledgerwise (frame : Ledgerwise db after) (holds : Holds codec db) :
    Holds codec after := by
  obtain ⟨held, represents, own⟩ := holds
  unfold Ledgerwise at frame
  rw [frame]
  exact ⟨held, represents_same represents (Frame.of_tables rfl rfl rfl rfl rfl) rfl, own⟩

/-- The regime that asks for nothing. -/
def anyRegime : Regime := ⟨False, False⟩

/-- One act of maintenance that a call has committed. `middle` is the store after the
actions of the run have been moved and before anything else. -/
inductive Act (codec : TimeCodec) (db : Database) : MaintenanceReply → Database → Prop where
  | none : Act codec db reply db
  | moved {after : Database} (frame : after = { db with setupActions := after.setupActions }) :
      Act codec db .done after
  | begun {plan : SetupRunPlan} {owner : LeaseOwner} {after : Database}
      (known : hostIdentity db = .ok host) (named : plan.runId.text = owner.operationId.text)
      (begun : Begun codec plan owner host db middle run lease)
      (frame : after = { middle with setupActions := after.setupActions }) :
      Act codec db (.capability owner) after
  | finished {owner : LeaseOwner} (moved : Owned db → Works codec anyRegime db middle)
      (frame : middle = { db with setupActions := middle.setupActions })
      (finished : finishSetupRunInTransaction codec middle owner.operationId.text time =
        .ok (status, ended))
      (released : releaseActiveMaintenance codec ended owner = .ok after) :
      Act codec db (.finished status) after
  | postcheckBegun {owner : LeaseOwner} {after : Database} (known : hostIdentity db = .ok host)
      (acquired : codec.format owner.acquiredAt = some acquiredAt)
      (leased : maintenance ∈ db.maintenanceLeases.rows)
      (onHost : maintenance.hostIdentityRef = host.text)
      (owned : maintenance.ownedBy owner acquiredAt = true)
      (active : maintenance.leaseState = "active")
      (idle : ∀ control ∈ db.controlLeases.rows, control.hostIdentityRef ≠ host.text)
      (controls : after.controlLeases.rows =
        db.controlLeases.rows ++ [probeLease .native host binding probe owner acquiredAt])
      (frame : after = { db with controlLeases := after.controlLeases }) :
      Act codec db .done after
  /-- The owner is gone: a run that is running is lost, and the leases are left to
  recovery. -/
  | abandoned {owner : LeaseOwner} {middle : Database}
      (acquired : codec.format owner.acquiredAt = some acquiredAt)
      (frame : middle = { db with setupActions := middle.setupActions })
      (marked : (∃ time, markSetupRunOutcomeUnknownInTransaction codec middle
        owner.operationId.text time = .ok lost) ∨ (isRunning db owner.operationId.text = false ∧ lost = middle))
      (leases : countMaintenanceLeases lost owner acquiredAt = 1)
      (pair : countControlLeases lost owner acquiredAt = 1 ∨
        countControlLeases lost owner acquiredAt = expectedControlLeases db owner.operationId.text) :
      Act codec db reply (handedOver owner acquiredAt lost)
  | settled {control : ControlLeaseRow} (moved : Owned db → Works codec anyRegime db middle)
      (frame : middle = { db with setupActions := middle.setupActions })
      (settled : PostcheckSettled codec owner now host acquiredAt db middle ended after status
        control lease) : Act codec db (.ended (some status)) after
  | adopted (adopted : Adopted codec owner db after run lease x acquiredAt) :
      Act codec db (.capability owner) after
  | reconciled
      (reconciled : Reconciled codec subject now db after status run lease text change) :
      Act codec db (.ended (some status)) after
  | refreshed {after : Database}
      (controls : after.controlLeases.rows =
        db.controlLeases.rows.map (controlBeat owner acquiredAt heartbeatAt))
      (leases : after.maintenanceLeases.rows =
        db.maintenanceLeases.rows.map (maintenanceBeat owner acquiredAt heartbeatAt))
      (frame : after = { db with
        controlLeases := after.controlLeases
        maintenanceLeases := after.maintenanceLeases }) : Act codec db (.refreshed changed) after
  | probeBegun {host : HostIdentityRef} {lease : ControlLeaseRow} {after : Database}
      (unmaintained : db.maintenanceLeases.lookup host.text = none)
      (onHost : lease.hostIdentityRef = host.text)
      (controls : after.controlLeases.rows = db.controlLeases.rows ++ [lease])
      (frame : after = { db with controlLeases := after.controlLeases }) :
      Act codec db .done after
  | probeEnded (ended : NoNewLease db after) : Act codec db .done after

theorem Act.ledgerwise (act : Act codec db reply after) : Ledgerwise db after := by
  unfold Ledgerwise
  cases act with
  | none => rfl
  | moved frame => rw [frame]
  | begun _ _ begun frame => rw [frame, begun.frame]
  | finished _ frame finished released =>
    obtain ⟨_, _, _, _, _, _, _, _, _, _, _, ended⟩ := finishSetupRun_ok finished
    obtain ⟨_, _, _, _, same⟩ := releaseActiveMaintenance_ok released
    rw [same, ended, frame]
  | postcheckBegun _ _ _ _ _ _ _ _ frame => rw [frame]
  | abandoned _ frame marked =>
    unfold handedOver retainMaintenanceLease retainControlLeases
    rcases marked with ⟨_, marked⟩ | ⟨_, rfl⟩
    · rw [markOutcomeUnknown_frame marked, frame]
    · rw [frame]
  | settled _ frame settled =>
    obtain ⟨_, _, _, _, _, _, _, _, _, _, _, ended⟩ := finishSetupRun_ok settled.finished
    rw [settled.frame, ended, frame]
  | adopted adopted => rw [adopted.frame]
  | reconciled reconciled => rw [reconciled.frame]
  | refreshed _ _ frame | probeBegun _ _ _ frame => rw [frame]
  | probeEnded ended => rw [ended.frame]

/-! ## Every call -/

/-- A restart marks the runs, and then the Turns as one more call of the store. -/
theorem restart_cases (codec : TimeCodec) (db : Database) (detectedAt : OffsetDateTime)
    (clock : SessionId → OffsetDateTime) :
    (initializeRestartRecovery codec db detectedAt clock).2 = db ∨
      ∃ times marked, Interrupted codec times db marked ∧
        (initializeRestartRecovery codec db detectedAt clock).2 =
          (serve codec marked (.markRestartRecoveryPending clock)).2 := by
  unfold initializeRestartRecovery
  cases made : markInterruptedSetupActionsOutcomeUnknown codec db detectedAt with
  | error e => exact .inl rfl
  | ok marked =>
    obtain ⟨times, interrupted⟩ := markInterrupted_ok made
    refine .inr ⟨times, marked, interrupted, ?_⟩
    simp only [serve]
    cases markRestartRecoveryPending codec marked clock <;> rfl

theorem interrupted_ledgerwise (interrupted : Interrupted codec times db after) :
    Ledgerwise db after := by
  unfold Ledgerwise
  rw [interrupted.frame]

theorem unmaintained_holds (unmaintained : Unmaintained db) : Holds codec db :=
  ⟨fun _ => none, fresh_represents unmaintained.fresh, fun _ _ found => by cases found⟩

/-- What holds of a store without maintenance, and is kept by every call that is
allowed, holds of every store of such calls. -/
theorem maintained_induction (holds : Database → Prop)
    (start : ∀ {db}, Unmaintained db → holds db)
    (step : ∀ {db call}, holds db → allowed db call → holds (serveMaintenance codec db call).2)
    (maintained : MaintainedBy codec allowed db) : holds db := by
  obtain ⟨first, unmaintained, run⟩ := maintained
  induction run with
  | refl => exact start unmaintained
  | tail _ last ih =>
    obtain ⟨call, permitted, rfl⟩ := last
    exact step ih permitted

end Satelle.MaintenanceActs
