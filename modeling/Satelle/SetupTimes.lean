import Satelle.SetupOrder

/-! The times of the ledger. A run and its actions are dated in the order in which they
were worked on, as long as the times that are written without a check are not before
what the run already records. -/
namespace Satelle.SetupTimes
open Satelle.Core Host SetupWorks SetupStatements SetupRefinement
open MaintenanceLeases StoreRefinement

section Times
variable (codec : TimeCodec)

/-- Both texts are times, the first not after the second. -/
def Before (first second : String) : Prop :=
  ∃ x y, codec.parse first = some x ∧ codec.parse second = some y ∧ x ≤ y

/-- An action of a run is dated within it. -/
structure Dated (run : SetupRunRow) (a : SetupActionRow) : Prop where
  started : ∀ start ∈ a.startedAt, Before codec run.startedAt start
  finished : ∀ finish ∈ a.finishedAt, Before codec run.startedAt finish
  span : ∀ start ∈ a.startedAt, ∀ finish ∈ a.finishedAt, Before codec start finish
  within : ∀ finish ∈ a.finishedAt, ∀ final ∈ run.finishedAt, Before codec finish final

/-- A settled action has ended before a later one started. -/
def Succeeds (a b : SetupActionRow) : Prop :=
  isSettled a.status = true → ∀ finish ∈ a.finishedAt, ∀ start ∈ b.startedAt,
    Before codec finish start

structure Chronological (work : Work) : Prop where
  inOrder : InOrder work
  began : (codec.parse work.run.startedAt).isSome = true
  ended : ∀ final ∈ work.run.finishedAt, Before codec work.run.startedAt final
  dated : ∀ a ∈ work.actions, Dated codec work.run a
  succeeds : Along (Succeeds codec) work.actions

end Times

variable {codec : TimeCodec}

theorem Before.trans (first : Before codec a b) (second : Before codec b c) : Before codec a c := by
  obtain ⟨x, y, parsedA, parsedB, le⟩ := first
  obtain ⟨y', z, again, parsedC, le'⟩ := second
  rw [parsedB] at again
  cases again
  exact ⟨x, z, parsedA, parsedC, le.trans le'⟩

theorem Before.readable (before : Before codec a b) : (codec.parse b).isSome = true := by
  obtain ⟨_, y, _, parsed, _⟩ := before
  rw [parsed]
  rfl

/-- A time that was checked against a stored one is written behind it. -/
theorem before_of (readable : (codec.parse stored).isSome = true)
    (notBefore : NotBefore codec time stored) (written : codec.format time = some text) :
    Before codec stored text := by
  obtain ⟨x, parsed⟩ := Option.isSome_iff_exists.mp readable
  exact ⟨x, time, parsed, codec.roundTrip _ _ written, notBefore x parsed⟩

theorem before_self (written : codec.format time = some text) : Before codec text text :=
  ⟨time, time, codec.roundTrip _ _ written, codec.roundTrip _ _ written, le_rfl⟩

/-- The end of an action is before a time that was checked against it. -/
theorem Dated.finish_before (dated : Dated codec run a) (follows : NotBeforeFinish codec time a)
    (written : codec.format time = some text) : ∀ finish ∈ a.finishedAt, Before codec finish text :=
  fun finish there =>
    before_of (dated.finished finish there).readable (follows finish there) written

theorem planned_undated (checked : Checked a) (planned : a.status = .planned) :
    a.startedAt = none ∧ a.finishedAt = none := by
  simp only [Checked, planned] at checked
  exact ⟨checked.1, checked.2.1⟩

theorem unknown_dated (checked : Checked a) (unknown : a.status = .outcomeUnknown) :
    ∃ start finish, a.startedAt = some start ∧ a.finishedAt = some finish := by
  simp only [Checked, unknown] at checked
  obtain ⟨start, known⟩ := Option.ne_none_iff_exists'.mp checked.1
  obtain ⟨finish, ended⟩ := Option.ne_none_iff_exists'.mp checked.2.1
  exact ⟨start, finish, known, ended⟩

/-- An action that is resumed starts then, or has started before. -/
theorem restarted_start (checked : Checked x)
    (status : x.status = .planned ∨ x.status = .outcomeUnknown)
    (known : start ∈ (restarted text x).startedAt) :
    x.status = .planned ∧ text = start ∨ start ∈ x.startedAt := by
  rcases status with planned | unknown
  · simp only [restarted, (planned_undated checked planned).1, Option.or_some, Option.getD_none,
      Option.mem_def, Option.some.injEq] at known
    exact .inl ⟨planned, known⟩
  · obtain ⟨was, _, startedAt, _⟩ := unknown_dated checked unknown
    simp only [restarted, startedAt, Option.some_or] at known
    exact .inr (startedAt ▸ known)

section Steps
variable (times : Chronological codec ⟨run, actions⟩)
include times

/-- One action of a running run moves on. -/
theorem Chronological.replaced (running : run.status = "running") (member : x ∈ actions)
    (unsettled : isSettled x.status = false) (inOrder : InOrder ⟨run, replace x y actions⟩)
    (order : y.actionOrder = x.actionOrder)
    (started : ∀ start ∈ y.startedAt, Before codec run.startedAt start)
    (finished : ∀ finish ∈ y.finishedAt, Before codec run.startedAt finish)
    (span : ∀ start ∈ y.startedAt, ∀ finish ∈ y.finishedAt, Before codec start finish)
    (succeeds : ∀ a ∈ actions, a.actionOrder < x.actionOrder → Succeeds codec a y) :
    Chronological codec ⟨run, replace x y actions⟩ where
  inOrder := inOrder
  began := times.began
  ended := times.ended
  dated := by
    refine forall_replace (fun a there _ => times.dated a there) ⟨started, finished, span, ?_⟩
    intro _ _ final there
    rw [times.inOrder.finish.mp running] at there
    cases there
  succeeds := by
    refine times.succeeds.replace order succeeds ?_
    intro b later less _ _ _ start there
    have planned := times.inOrder.later_planned member unsettled later less
    rw [(planned_undated (times.inOrder.checked b later) planned).1] at there
    cases there

theorem step_acted (punctual : regime.punctual)
    (member : x ∈ actions) (running : run.status = "running")
    (written : codec.format time = some text)
    (acts : ActionStep codec regime run actions time text x y)
    (inOrder : InOrder ⟨run, replace x y actions⟩) :
    Chronological codec ⟨run, replace x y actions⟩ := by
  have checked := times.inOrder.checked x member
  cases acts with
  | starts planned ready timely =>
    obtain ⟨after, follows⟩ := timely punctual
    have unfinished := (planned_undated checked planned).2
    refine times.replaced running member (by rw [planned]; rfl) inOrder rfl ?_ ?_ ?_ ?_
    · rintro _ ⟨⟩
      exact before_of times.began after written
    · simp [unfinished]
    · simp [unfinished]
    · rintro a there less _ finish ended _ ⟨⟩
      exact (times.dated a there).finish_before (follows a there less) written finish ended
  | settles started ended known timely =>
    have dated := checked
    simp only [Checked, started] at dated
    obtain ⟨start, known⟩ := Option.ne_none_iff_exists'.mp dated.1
    have began := (times.dated x member).started start known
    have span : Before codec start text :=
      before_of began.readable (timely punctual start known) written
    refine times.replaced running member (by rw [started]; rfl) inOrder ended.same.order ?_ ?_ ?_ ?_
    · rw [ended.startedAt]
      exact (times.dated x member).started
    · rw [ended.finishedAt]
      rintro _ ⟨⟩
      exact began.trans span
    · rw [ended.startedAt, ended.finishedAt, known]
      rintro _ ⟨⟩ _ ⟨⟩
      exact span
    · intro a there less
      unfold Succeeds
      rw [ended.startedAt]
      exact times.succeeds a there x member less
  | skips planned ready timely =>
    have unstarted := (planned_undated checked planned).1
    refine times.replaced running member (by rw [planned]; rfl) inOrder rfl ?_ ?_ ?_ ?_
    · simp [unstarted]
    · rintro _ ⟨⟩
      exact before_of times.began timely.1 written
    · simp [unstarted]
    · simp [Succeeds, unstarted]

/-- A run ends. An action that this changes was not settled, so that none was started
behind it. -/
theorem Chronological.close (written : codec.format time = some text)
    (after : NotBefore codec time run.startedAt)
    (survive : ∀ a ∈ actions, Survives a (change a))
    (dates : ∀ a ∈ actions, (change a = a ∧ NotBeforeFinish codec time a) ∨
      (isSettled a.status = false ∧ (change a).finishedAt = some text ∧
        ∀ start ∈ a.startedAt, Before codec start text))
    (inOrder : InOrder ⟨{ run with status := final, finishedAt := some text },
      actions.map change⟩) :
    Chronological codec ⟨{ run with status := final, finishedAt := some text },
      actions.map change⟩ where
  inOrder := inOrder
  began := times.began
  ended := by
    rintro _ ⟨⟩
    exact before_of times.began after written
  dated := by
    refine List.forall_mem_map.mpr fun a there => ?_
    have dated := times.dated a there
    rcases dates a there with ⟨same, follows⟩ | ⟨_, finishedAt, span⟩
    · rw [same]
      refine ⟨dated.started, dated.finished, dated.span, ?_⟩
      rintro finish known _ ⟨⟩
      exact dated.finish_before follows written finish known
    · constructor
      · rw [(survive a there).startedAt]
        exact dated.started
      · rw [finishedAt]
        rintro _ ⟨⟩
        exact before_of times.began after written
      · rw [(survive a there).startedAt, finishedAt]
        rintro start known _ ⟨⟩
        exact span start known
      · rw [finishedAt]
        rintro _ ⟨⟩ _ ⟨⟩
        exact before_self written
  succeeds := by
    refine times.succeeds.map (fun a there => (survive a there).order) ?_
    intro a first b second less succeeds
    unfold Succeeds
    rw [(survive b second).startedAt]
    rcases dates a first with ⟨same, _⟩ | ⟨unsettled, _⟩
    · rw [same]
      exact succeeds
    · have planned := times.inOrder.later_planned first unsettled second less
      simp [(planned_undated (times.inOrder.checked b second) planned).1]

theorem step_resumed (member : x ∈ actions)
    (status : x.status = .planned ∨ x.status = .outcomeUnknown)
    (written : codec.format time = some text)
    (follows : x.status = .planned → NotBefore codec time run.startedAt ∧
      ∀ a ∈ actions, a.actionOrder < x.actionOrder → NotBeforeFinish codec time a)
    (inOrder : InOrder ⟨{ run with status := "running", finishedAt := none },
      replace x (restarted text x) actions⟩) :
    Chronological codec ⟨{ run with status := "running", finishedAt := none },
      replace x (restarted text x) actions⟩ where
  inOrder := inOrder
  began := times.began
  ended := by
    rintro _ ⟨⟩
  dated := by
    refine forall_replace ?_ ?_
    · intro a there _
      have dated := times.dated a there
      exact ⟨dated.started, dated.finished, dated.span, by rintro _ _ _ ⟨⟩⟩
    · refine ⟨?_, by rintro _ ⟨⟩, by rintro _ _ _ ⟨⟩, by rintro _ ⟨⟩⟩
      intro start known
      rcases restarted_start (times.inOrder.checked x member) status known with ⟨planned, rfl⟩ | was
      · exact before_of times.began (follows planned).1 written
      · exact (times.dated x member).started start was
  succeeds := by
    refine times.succeeds.replace rfl ?_ ?_
    · intro a there less settled finish ended start known
      rcases restarted_start (times.inOrder.checked x member) status known with ⟨planned, rfl⟩ | was
      · exact (times.dated a there).finish_before ((follows planned).2 a there less) written finish
          ended
      · exact times.succeeds a there x member less settled finish ended start was
    · intro b _ _ settled
      cases settled

end Steps

theorem step_chronological (punctual : regime.punctual) (times : Chronological codec work)
    (step : WorkStep codec regime work after) : Chronological codec after := by
  have inOrder := step_inOrder times.inOrder step
  cases step with
  | acted member running written acts =>
    exact step_acted times punctual member running written acts inOrder
  | @finished time text run actions status running past tallied written timely =>
    rw [← List.map_id' actions] at inOrder ⊢
    exact times.close written timely.1 (fun a _ => .refl a)
      (fun a there => .inl ⟨rfl, timely.2 a there⟩) inOrder
  | lost running interrupts written timely =>
    obtain ⟨late, follows⟩ := timely punctual
    refine times.close written late (fun a there => (interrupts a there).survives) ?_ inOrder
    intro a there
    cases interrupts a there with
    | ends started ended =>
      refine .inr ⟨started ▸ rfl, ended.finishedAt, fun start known => ?_⟩
      exact before_of ((times.dated a there).started start known).readable
        ((follows a there).1 start known) written
    | stays _ same => exact .inl ⟨same, (follows a there).2⟩
  | @resumed x time text run actions member unknown resumable least spared written timely =>
    by_cases completed : x.status = .completed
    · rw [if_pos completed] at inOrder ⊢
      refine ⟨inOrder, times.began, by rintro _ ⟨⟩, ?_, times.succeeds⟩
      intro a there
      have dated := times.dated a there
      exact ⟨dated.started, dated.finished, dated.span, by rintro _ _ _ ⟨⟩⟩
    · rw [if_neg completed] at inOrder ⊢
      obtain ⟨status, _⟩ := (times.inOrder.resumable unknown member least).2 completed resumable
      exact step_resumed times member status written (timely punctual) inOrder
  | reconciled unknown reconciles terminal written timely =>
    obtain ⟨late, follows⟩ := timely punctual
    refine times.close written late (fun a there => (reconciles a there).survives) ?_ inOrder
    intro a there
    have dated := times.dated a there
    have checked := times.inOrder.checked a there
    cases reconciles a there with
    | skips planned made =>
      exact .inr ⟨planned ▸ rfl, made ▸ rfl, by simp [(planned_undated checked planned).1]⟩
    | ends unknown ended =>
      obtain ⟨_, finish, _, finishedAt⟩ := unknown_dated checked unknown
      refine .inr ⟨unknown ▸ rfl, ended.finishedAt, fun start known => ?_⟩
      exact (dated.span start known finish finishedAt).trans
        (dated.finish_before (follows a there) written finish finishedAt)
    | stays _ same => exact .inl ⟨same, follows a there⟩

theorem chronological_kept (codec : TimeCodec) (punctual : regime.punctual) :
    Kept codec regime (Chronological codec) where
  planned := by
    intro work planned
    have undated := fun a member => planned_undated (planned.planned a member).2
      (planned.planned a member).1
    refine ⟨planned_inOrder planned, planned.readable, ?_, ?_, ?_⟩
    · rw [planned.unfinished]
      rintro _ ⟨⟩
    · intro a member
      obtain ⟨unstarted, unfinished⟩ := undated a member
      exact ⟨by simp [unstarted], by simp [unfinished], by simp [unstarted], by simp [unfinished]⟩
    · intro a _ b later _ _ _ _ start known
      rw [(undated b later).1] at known
      cases known
  step := step_chronological punctual

/-- In a run that is over, what was started has ended. -/
theorem over_finished (inOrder : InOrder work) (member : a ∈ work.actions)
    (past : final ∈ work.run.finishedAt) (known : start ∈ a.startedAt) :
    ∃ finish, a.finishedAt = some finish := by
  have ended : a.status ≠ .started := by
    rcases inOrder.known with running | unknown | terminal
    · rw [inOrder.finish.mp running] at past
      cases past
    · exact inOrder.unknown unknown a member
    · intro started
      have settled := inOrder.past terminal a member
      rw [started] at settled
      cases settled
  have checked := inOrder.checked a member
  refine Option.ne_none_iff_exists'.mp ?_
  cases status : a.status <;> simp_all [Checked]

theorem ledger_is_chronological (codec : TimeCodec) (db : Database)
    (maintained : MaintainedBy codec (Punctual codec) db) :
    ∀ run ∈ db.setupRuns.rows,
      (∀ final ∈ run.finishedAt, Before codec run.startedAt final) ∧
      (∀ a ∈ db.setupActions.rows, a.runId = run.runId →
        (∀ start ∈ a.startedAt, Before codec run.startedAt start ∧
          ∀ finish ∈ a.finishedAt, Before codec start finish) ∧
        (∀ finish ∈ a.finishedAt, Before codec run.startedAt finish) ∧
        ∀ final ∈ run.finishedAt, (∀ finish ∈ a.finishedAt, Before codec finish final) ∧
          ∀ start ∈ a.startedAt, Before codec start final) ∧
      ∀ a ∈ db.setupActions.rows, ∀ b ∈ db.setupActions.rows, a.runId = run.runId →
        b.runId = run.runId → a.actionOrder < b.actionOrder → isSettled a.status = true →
          ∀ finish ∈ a.finishedAt, ∀ start ∈ b.startedAt, Before codec finish start := by
  have regular : ∀ {db call}, Punctual codec db call → Regular codec ⟨True, False⟩ db call :=
    fun punctual => ⟨fun _ => punctual, False.elim⟩
  obtain ⟨_, _, all⟩ := maintained_works (chronological_kept codec trivial) regular maintained
  intro run member
  have times := all run member
  refine ⟨times.ended, ?_, ?_⟩
  · intro a there own
    have dated := times.dated a (mem_workOf.mpr ⟨there, own⟩)
    refine ⟨fun start known => ⟨dated.started start known, dated.span start known⟩,
      dated.finished, fun final past => ⟨fun finish known => dated.within finish known final past, ?_⟩⟩
    intro start known
    obtain ⟨finish, ended⟩ := over_finished times.inOrder (mem_workOf.mpr ⟨there, own⟩) past known
    exact (dated.span start known finish ended).trans (dated.within finish ended final past)
  · intro a first b second ownA ownB less
    exact times.succeeds a (mem_workOf.mpr ⟨first, ownA⟩) b (mem_workOf.mpr ⟨second, ownB⟩) less

instance (codec : TimeCodec) (time : OffsetDateTime) (text : String) :
    Decidable (NotBefore codec time text) :=
  decidable_of_iff ((codec.parse text).all (· ≤ time) = true) (by
    unfold NotBefore
    cases codec.parse text <;> simp)

/-- The owner gives the sample setup up while its first action is under way. -/
def retainSample (start now : Int) : List MaintenanceCall := [
  beginSample,
  .startSetupAction (sampleOwner 0) "install-test" (seconds start),
  .retainLeaseRecovery (sampleOwner 0) (seconds now)]

theorem ledger_is_chronological_retained :
    (maintain sampleCodec emptyStore (retainSample 1 2)).setupRuns.rows.map
      (fun run => (run.startedAt, run.finishedAt)) =
        [("1970-01-01T00:00:00Z", some "1970-01-01T00:00:02Z")] ∧
    ∀ run ∈ (maintain sampleCodec emptyStore (retainSample 1 2)).setupRuns.rows,
      ∀ final ∈ run.finishedAt, Before sampleCodec run.startedAt final := by
  refine ⟨by decide +kernel, ?_⟩
  have maintained : MaintainedBy sampleCodec (Punctual sampleCodec)
      (maintain sampleCodec emptyStore (retainSample 1 2)) := by
    refine maintain_maintained (unmaintained_maintained emptyStore_unmaintained)
      ⟨trivial, trivial, ?_, trivial⟩
    unfold Punctual Follows NotBeforeFinish
    decide +kernel
  exact fun run member => (ledger_is_chronological sampleCodec _ maintained run member).1

/-- The clock is set back while an action is under way, and the owner gives the setup
up: the action ends before it was started. -/
theorem retention_writes_a_clock_set_back :
    MaintainedBy sampleCodec (fun _ _ => True)
      (maintain sampleCodec emptyStore (retainSample 2 1)) ∧
    ∃ a ∈ (maintain sampleCodec emptyStore (retainSample 2 1)).setupActions.rows,
      ∃ start ∈ a.startedAt, ∃ finish ∈ a.finishedAt, ¬Before sampleCodec start finish := by
  refine ⟨maintain_maintained (unmaintained_maintained emptyStore_unmaintained)
    ⟨trivial, trivial, trivial, trivial⟩, ?_⟩
  have dates : (maintain sampleCodec emptyStore (retainSample 2 1)).setupActions.rows.map
      (fun action => (action.startedAt, action.finishedAt)) =
        [(some "1970-01-01T00:00:02Z", some "1970-01-01T00:00:01Z"), (none, none)] := by
    decide +kernel
  have dated : (some "1970-01-01T00:00:02Z", some "1970-01-01T00:00:01Z") ∈
      (maintain sampleCodec emptyStore (retainSample 2 1)).setupActions.rows.map
        (fun action => (action.startedAt, action.finishedAt)) := by
    rw [dates]
    simp
  obtain ⟨a, member, same⟩ := List.mem_map.mp dated
  obtain ⟨startedAt, finishedAt⟩ := Prod.ext_iff.mp same
  refine ⟨a, member, _, startedAt, _, finishedAt, ?_⟩
  rintro ⟨x, y, first, second, le⟩
  have isFirst : sampleCodec.parse "1970-01-01T00:00:02Z" = some (seconds 2) := by decide +kernel
  have isSecond : sampleCodec.parse "1970-01-01T00:00:01Z" = some (seconds 1) := by decide +kernel
  rw [isFirst] at first
  rw [isSecond] at second
  cases first
  cases second
  exact absurd le (by decide)

end Satelle.SetupTimes
