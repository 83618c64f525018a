import Satelle.Host.Maintenance

/-! One setup run with its actions, as a machine of its own. The store works on
every run through these steps; which of them a call takes is shown elsewhere. The
invariants that a run keeps are properties of this machine. -/
namespace Satelle.SetupWorks
open Satelle.Core Host

/-- A run and its actions. -/
structure Work where
  run : SetupRunRow
  actions : List SetupActionRow

/-- The actions with one of them replaced. -/
def replace (x y : SetupActionRow) (actions : List SetupActionRow) : List SetupActionRow :=
  actions.map fun action => if action = x then y else action

theorem mem_replace (member : b ∈ replace x y actions) : b = y ∨ (b ∈ actions ∧ b ≠ x) := by
  obtain ⟨a, there, made⟩ := List.mem_map.mp member
  by_cases same : a = x
  · rw [if_pos same] at made
    exact .inl made.symm
  · rw [if_neg same] at made
    exact .inr ⟨made ▸ there, made ▸ same⟩

/-- Completed, failed or skipped: an action that is never touched again. -/
def isSettled : SetupActionStatus → Bool
  | .completed | .failed | .skipped => true
  | .planned | .started | .outcomeUnknown => false

/-- Started, and not known to have ended. -/
def isOpen : SetupActionStatus → Bool
  | .started | .outcomeUnknown => true
  | .planned | .completed | .failed | .skipped => false

/-- The columns that no update writes. -/
structure SameAction (a b : SetupActionRow) : Prop where
  runId : b.runId = a.runId
  actionId : b.actionId = a.actionId
  order : b.actionOrder = a.actionOrder
  retrySafe : b.retrySafe = a.retrySafe

/-- The `CHECK` of `setup_actions`. -/
def Checked (a : SetupActionRow) : Prop :=
  match a.status with
  | .planned => a.startedAt = none ∧ a.finishedAt = none ∧ a.errorCode = none ∧
      a.exitStatus = none ∧ a.recoveryHint = none ∧ a.skipReason = none
  | .started => a.startedAt ≠ none ∧ a.finishedAt = none ∧ a.errorCode = none ∧
      a.exitStatus = none ∧ a.recoveryHint = none ∧ a.skipReason = none
  | .completed => a.startedAt ≠ none ∧ a.finishedAt ≠ none ∧ a.errorCode = none ∧
      a.exitStatus = none ∧ a.recoveryHint = none ∧ a.skipReason = none
  | .failed => a.startedAt ≠ none ∧ a.finishedAt ≠ none ∧ a.errorCode ≠ none ∧
      a.skipReason = none
  | .skipped => a.startedAt = none ∧ a.finishedAt ≠ none ∧ a.errorCode = none ∧
      a.exitStatus = none ∧ a.recoveryHint = none ∧ a.skipReason ≠ none
  | .outcomeUnknown => a.startedAt ≠ none ∧ a.finishedAt ≠ none ∧ a.errorCode = none ∧
      a.exitStatus = none ∧ a.skipReason = none

/-- What a run is worked on under, beyond what the code checks. -/
structure Regime where
  /-- Times that are written unchecked are not before what the run records. -/
  punctual : Prop
  /-- No run with a failed action is resumed. -/
  careful : Prop

section Machine
variable (codec : TimeCodec)

/-- A time is not before a stored one. -/
def NotBefore (time : OffsetDateTime) (text : String) : Prop :=
  ∀ boundary, codec.parse text = some boundary → boundary ≤ time

theorem NotBefore.mono {codec : TimeCodec} (earlier : NotBefore codec time text)
    (later : time ≤ time') : NotBefore codec time' text :=
  fun boundary parsed => le_trans (earlier boundary parsed) later

theorem NotBefore.of_parse {codec : TimeCodec} (parsed : codec.parse text = some boundary)
    (reached : boundary ≤ time) : NotBefore codec time text := by
  intro other same
  cases parsed.symm.trans same
  exact reached

/-- Nor before the end of an action. -/
def NotBeforeFinish (time : OffsetDateTime) (action : SetupActionRow) : Prop :=
  ∀ text ∈ action.finishedAt, NotBefore codec time text

/-- The end of an action that was started. -/
structure Ended (text : String) (a b : SetupActionRow) : Prop where
  same : SameAction a b
  startedAt : b.startedAt = a.startedAt
  finishedAt : b.finishedAt = some text
  checked : Checked a → Checked b

/-- Nor before what a run records up to an action. -/
def Timely (run : SetupRunRow) (actions : List SetupActionRow) (x : SetupActionRow)
    (time : OffsetDateTime) : Prop :=
  NotBefore codec time run.startedAt ∧
    ∀ a ∈ actions, a.actionOrder < x.actionOrder → NotBeforeFinish codec time a

/-- One action of a running run moves on. -/
inductive ActionStep (regime : Regime) (run : SetupRunRow) (actions : List SetupActionRow)
    (time : OffsetDateTime) (text : String) (x : SetupActionRow) : SetupActionRow → Prop where
  | starts (planned : x.status = .planned)
      (ready : ∀ a ∈ actions, a.actionOrder < x.actionOrder →
        a.status = .completed ∨ a.status = .skipped)
      (timely : regime.punctual → Timely codec run actions x time) :
      ActionStep regime run actions time text x
        { x with status := .started, startedAt := some text }
  | settles (started : x.status = .started) (ended : Ended text x y)
      (known : y.status = .completed ∨ y.status = .failed)
      (timely : regime.punctual → ∀ stored ∈ x.startedAt, NotBefore codec time stored) :
      ActionStep regime run actions time text x y
  | skips {reason : SetupActionSkipReason} (planned : x.status = .planned)
      (ready : ∀ a ∈ actions, a.actionOrder < x.actionOrder →
        a.status ≠ .planned ∧ a.status ≠ .started)
      (timely : Timely codec run actions x time) :
      ActionStep regime run actions time text x
        { x with status := .skipped, finishedAt := some text, skipReason := some reason }

/-- The end of a run that is lost. -/
inductive Interrupts (text : String) (a b : SetupActionRow) : Prop where
  | ends (started : a.status = .started) (ended : Ended text a b)
      (unknown : b.status = .outcomeUnknown)
  | stays (unstarted : a.status ≠ .started) (same : b = a)

/-- The end of a run whose outcome has been found out. -/
inductive Reconciles (text : String) (a b : SetupActionRow) : Prop where
  | skips (planned : a.status = .planned) (made : b = { a with
      status := .skipped, finishedAt := some text, skipReason := some .dependencyFailed })
  | ends (unknown : a.status = .outcomeUnknown) (ended : Ended text a b)
      (known : b.status = .completed ∨ b.status = .failed)
  | stays (settled : isSettled a.status = true) (same : b = a)

/-- An action that is started again. -/
def restarted (text : String) (action : SetupActionRow) : SetupActionRow :=
  { action with
    status := .started
    startedAt := action.startedAt.or (some text)
    finishedAt := none
    recoveryHint := none }

inductive WorkStep (regime : Regime) : Work → Work → Prop where
  | acted {run : SetupRunRow} {actions : List SetupActionRow} (member : x ∈ actions)
      (running : run.status = "running") (written : codec.format time = some text)
      (acts : ActionStep codec regime run actions time text x y) :
      WorkStep regime ⟨run, actions⟩ ⟨run, replace x y actions⟩
  | finished {run : SetupRunRow} {actions : List SetupActionRow} {status : SetupRunStatus}
      (running : run.status = "running")
      (past : ∀ a ∈ actions, a.status ≠ .planned ∧ a.status ≠ .started)
      (tallied : if ∃ a ∈ actions, a.status = .outcomeUnknown then status = .outcomeUnknown
        else status = .completed ∨ status = .failed ∨ status = .partialFailure)
      (written : codec.format time = some text)
      (timely : NotBefore codec time run.startedAt ∧
        ∀ a ∈ actions, NotBeforeFinish codec time a) :
      WorkStep regime ⟨run, actions⟩
        ⟨{ run with status := SetupRunStatus.asStr status, finishedAt := some text }, actions⟩
  /-- The owner or the daemon is gone. -/
  | lost {run : SetupRunRow} {actions : List SetupActionRow}
      {change : SetupActionRow → SetupActionRow} (running : run.status = "running")
      (interrupts : ∀ a ∈ actions, Interrupts text a (change a))
      (written : codec.format time = some text)
      (timely : regime.punctual → NotBefore codec time run.startedAt ∧ ∀ a ∈ actions,
        (∀ stored ∈ a.startedAt, NotBefore codec time stored) ∧ NotBeforeFinish codec time a) :
      WorkStep regime ⟨run, actions⟩
        ⟨{ run with status := "outcome_unknown", finishedAt := some text }, actions.map change⟩
  /-- A new owner takes the run over. A handoff that is completed stays so. -/
  | resumed {run : SetupRunRow} {actions : List SetupActionRow} (member : x ∈ actions)
      (unknown : run.status = "outcome_unknown") (resumable : x.isResumable = true)
      (least : ∀ a ∈ actions, a.isResumable = true → x.status.resumeRank < a.status.resumeRank ∨
        (x.status.resumeRank = a.status.resumeRank ∧ x.actionOrder ≤ a.actionOrder))
      (careful : regime.careful → ∀ a ∈ actions, a.status ≠ .failed)
      (written : codec.format time = some text)
      (timely : regime.punctual → x.status = .planned → Timely codec run actions x time) :
      WorkStep regime ⟨run, actions⟩ ⟨{ run with status := "running", finishedAt := none },
        if x.status = .completed then actions else replace x (restarted text x) actions⟩
  | reconciled {run : SetupRunRow} {actions : List SetupActionRow} {status : SetupRunStatus}
      {change : SetupActionRow → SetupActionRow} (unknown : run.status = "outcome_unknown")
      (reconciles : ∀ a ∈ actions, Reconciles text a (change a))
      (terminal : status = .completed ∨ status = .failed ∨ status = .partialFailure)
      (written : codec.format time = some text)
      (timely : regime.punctual → NotBefore codec time run.startedAt ∧
        ∀ a ∈ actions, NotBeforeFinish codec time a) :
      WorkStep regime ⟨run, actions⟩
        ⟨{ run with status := status.asStr, finishedAt := some text }, actions.map change⟩

/-- A run that has just been planned. -/
structure Planned (work : Work) : Prop where
  running : work.run.status = "running"
  unfinished : work.run.finishedAt = none
  planned : ∀ a ∈ work.actions, a.status = .planned ∧ Checked a
  distinct : ∀ a ∈ work.actions, ∀ b ∈ work.actions, a.actionOrder = b.actionOrder → a = b
  readable : (codec.parse work.run.startedAt).isSome = true

end Machine

/-! ## Relations between an action and a later one -/

/-- A relation of every action to each later one. -/
def Along (related : SetupActionRow → SetupActionRow → Prop) (actions : List SetupActionRow) :
    Prop :=
  ∀ a ∈ actions, ∀ b ∈ actions, a.actionOrder < b.actionOrder → related a b

theorem Along.replace (along : Along related actions) (order : y.actionOrder = x.actionOrder)
    (before : ∀ a ∈ actions, a.actionOrder < x.actionOrder → related a y)
    (after : ∀ b ∈ actions, x.actionOrder < b.actionOrder → related y b) :
    Along related (replace x y actions) := by
  intro a first b second less
  rcases mem_replace first with rfl | ⟨there, _⟩ <;> rcases mem_replace second with rfl | ⟨also, _⟩
  · exact absurd less (lt_irrefl _)
  · exact after b also (order ▸ less)
  · exact before a there (order ▸ less)
  · exact along a there b also less

theorem Along.map (along : Along related actions)
    (order : ∀ a ∈ actions, (change a).actionOrder = a.actionOrder)
    (keeps : ∀ a ∈ actions, ∀ b ∈ actions, a.actionOrder < b.actionOrder → related a b →
      related (change a) (change b)) :
    Along related (actions.map change) := by
  simp only [Along, List.forall_mem_map]
  intro old there other also less
  rw [order old there, order other also] at less
  exact keeps old there other also less (along old there other also less)

/-- No two actions have one place. -/
def Distinct (actions : List SetupActionRow) : Prop :=
  ∀ a ∈ actions, ∀ b ∈ actions, a.actionOrder = b.actionOrder → a = b

theorem Distinct.replace (distinct : Distinct actions) (member : x ∈ actions)
    (order : y.actionOrder = x.actionOrder) : Distinct (replace x y actions) := by
  intro a first b second same
  rcases mem_replace first with rfl | ⟨there, other⟩ <;>
    rcases mem_replace second with rfl | ⟨also, another⟩
  · rfl
  · exact absurd (distinct x member b also (order.symm.trans same)).symm another
  · exact absurd (distinct a there x member (same.trans order)) other
  · exact distinct a there b also same

theorem Distinct.map (distinct : Distinct actions)
    (order : ∀ a ∈ actions, (change a).actionOrder = a.actionOrder) :
    Distinct (actions.map change) := by
  simp only [Distinct, List.forall_mem_map]
  intro old there other also same
  rw [order old there, order other also] at same
  rw [distinct old there other also same]

/-- What holds of every action, and of the one put in. -/
theorem forall_replace {holds : SetupActionRow → Prop} (each : ∀ a ∈ actions, a ≠ x → holds a)
    (new : holds y) : ∀ a ∈ replace x y actions, holds a := by
  intro a member
  rcases mem_replace member with rfl | ⟨there, other⟩
  · exact new
  · exact each a there other

/-! ## Order -/

/-- The actions of a run are worked through one after the other: before an action
that is no longer planned, every action is settled. -/
structure InOrder (work : Work) : Prop where
  distinct : Distinct work.actions
  checked : ∀ a ∈ work.actions, Checked a
  settled : Along (fun a b => b.status ≠ .planned → isSettled a.status = true) work.actions
  known : work.run.status = "running" ∨ work.run.status = "outcome_unknown" ∨
    work.run.isTerminal = true
  finish : work.run.status = "running" ↔ work.run.finishedAt = none
  running : work.run.status = "running" → ∀ a ∈ work.actions, a.status ≠ .outcomeUnknown
  unknown : work.run.status = "outcome_unknown" → ∀ a ∈ work.actions, a.status ≠ .started
  past : work.run.isTerminal = true → ∀ a ∈ work.actions, isSettled a.status = true

theorem isTerminal_running {run : SetupRunRow} (running : run.status = "running") :
    run.isTerminal = false := by
  simp [SetupRunRow.isTerminal, running]

theorem isTerminal_unknown {run : SetupRunRow} (unknown : run.status = "outcome_unknown") :
    run.isTerminal = false := by
  simp [SetupRunRow.isTerminal, unknown]

theorem planned_inOrder (planned : Planned codec work) : InOrder work where
  distinct := planned.distinct
  checked := fun a member => (planned.planned a member).2
  settled := fun _ _ b member _ moved => absurd (planned.planned b member).1 moved
  known := .inl planned.running
  finish := ⟨fun _ => planned.unfinished, fun _ => planned.running⟩
  running := by
    intro _ a member unknown
    rw [(planned.planned a member).1] at unknown
    cases unknown
  unknown := by
    intro _ a member started
    rw [(planned.planned a member).1] at started
    cases started
  past := by
    intro terminal
    rw [isTerminal_running planned.running] at terminal
    cases terminal

/-- At most one action is open. -/
theorem InOrder.open_unique (inOrder : InOrder work) (first : a ∈ work.actions)
    (second : b ∈ work.actions) (openA : isOpen a.status = true) (openB : isOpen b.status = true) :
    a = b := by
  have unsettled : ∀ status, isOpen status = true → isSettled status = false ∧ status ≠ .planned := by
    intro status isOpen
    cases status <;> simp_all [SetupWorks.isOpen, isSettled]
  rcases lt_trichotomy a.actionOrder b.actionOrder with less | same | more
  · have := inOrder.settled a first b second less (unsettled _ openB).2
    rw [(unsettled _ openA).1] at this
    cases this
  · exact inOrder.distinct a first b second same
  · have := inOrder.settled b second a first more (unsettled _ openA).2
    rw [(unsettled _ openB).1] at this
    cases this

/-- Behind an action that is not settled, all are planned. -/
theorem InOrder.later_planned (inOrder : InOrder work) (member : x ∈ work.actions)
    (unsettled : isSettled x.status = false) (later : b ∈ work.actions)
    (less : x.actionOrder < b.actionOrder) : b.status = .planned := by
  by_contra moved
  have settled := inOrder.settled x member b later less moved
  rw [unsettled] at settled
  cases settled

/-- One action of a running run moves on. -/
theorem InOrder.replaced (inOrder : InOrder ⟨run, actions⟩) (running : run.status = "running")
    (member : x ∈ actions) (order : y.actionOrder = x.actionOrder)
    (unsettled : isSettled x.status = false) (checked : Checked y)
    (known : y.status ≠ .outcomeUnknown)
    (ready : ∀ a ∈ actions, a.actionOrder < x.actionOrder → isSettled a.status = true) :
    InOrder ⟨run, replace x y actions⟩ where
  distinct := inOrder.distinct.replace member order
  checked := forall_replace (fun a there _ => inOrder.checked a there) checked
  settled := by
    refine inOrder.settled.replace order (fun a there less _ => ready a there less) ?_
    intro b there less moved
    exact absurd (inOrder.later_planned member unsettled there less) moved
  known := .inl running
  finish := inOrder.finish
  running := fun _ => forall_replace (fun a there _ => inOrder.running running a there) known
  unknown := by
    intro unknown
    rw [running] at unknown
    simp at unknown
  past := by
    intro terminal
    rw [isTerminal_running running] at terminal
    cases terminal

/-- A status other than these is settled. -/
theorem settled_of_ne (planned : status ≠ .planned)
    (started : status ≠ .started) (unknown : status ≠ .outcomeUnknown) :
    isSettled status = true := by
  cases status <;> simp_all [isSettled]

/-- A run that has ended with every action settled. -/
theorem InOrder.ended (run : SetupRunRow) (distinct : Distinct actions)
    (checked : ∀ a ∈ actions, Checked a) (past : ∀ a ∈ actions, isSettled a.status = true)
    {status : SetupRunStatus}
    (terminal : status = .completed ∨ status = .failed ∨ status = .partialFailure) :
    InOrder ⟨{ run with status := status.asStr, finishedAt := some text }, actions⟩ where
  distinct := distinct
  checked := checked
  settled := fun a member _ _ _ _ => past a member
  known := by
    rcases terminal with rfl | rfl | rfl <;> exact .inr (.inr rfl)
  finish := by
    rcases terminal with rfl | rfl | rfl <;> simp [SetupRunStatus.asStr]
  running := by
    intro running
    rcases terminal with rfl | rfl | rfl <;> simp [SetupRunStatus.asStr] at running
  unknown := by
    intro unknown
    rcases terminal with rfl | rfl | rfl <;> simp [SetupRunStatus.asStr] at unknown
  past := fun _ => past

/-- What the end of a run leaves of an action. -/
structure Survives (a b : SetupActionRow) : Prop where
  runId : b.runId = a.runId
  order : b.actionOrder = a.actionOrder
  startedAt : b.startedAt = a.startedAt
  checked : Checked a → Checked b

theorem Survives.refl (a : SetupActionRow) : Survives a a := ⟨rfl, rfl, rfl, id⟩

theorem Ended.survives (ended : Ended text a b) : Survives a b :=
  ⟨ended.same.runId, ended.same.order, ended.startedAt, ended.checked⟩

theorem Interrupts.survives (interrupts : Interrupts text a b) : Survives a b := by
  cases interrupts with
  | ends _ ended => exact ended.survives
  | stays _ same => exact same ▸ .refl a

theorem Reconciles.survives (reconciles : Reconciles text a b) : Survives a b := by
  cases reconciles with
  | skips planned made =>
    refine ⟨made ▸ rfl, made ▸ rfl, made ▸ rfl, fun checked => ?_⟩
    simp only [Checked, planned] at checked
    simp [Checked, made, checked]
  | ends _ ended => exact ended.survives
  | stays _ same => exact same ▸ .refl a

theorem checked_map {actions : List SetupActionRow}
    (checked : ∀ a ∈ actions, Checked a)
    (survive : ∀ a ∈ actions, Survives a (change a)) : ∀ b ∈ actions.map change, Checked b :=
  List.forall_mem_map.mpr fun a there => (survive a there).checked (checked a there)

theorem InOrder.lost {change : SetupActionRow → SetupActionRow}
    (inOrder : InOrder ⟨run, actions⟩)
    (interrupts : ∀ a ∈ actions, Interrupts text a (change a)) :
    InOrder ⟨{ run with status := "outcome_unknown", finishedAt := some text },
      actions.map change⟩ where
  distinct := inOrder.distinct.map fun a member => (interrupts a member).survives.order
  checked := checked_map inOrder.checked fun a member => (interrupts a member).survives
  settled := by
    refine inOrder.settled.map (fun a member => (interrupts a member).survives.order) ?_
    intro a first b second _ settled moved
    have was : b.status ≠ .planned := by
      cases interrupts b second with
      | ends started => simp [started]
      | stays _ same => exact same ▸ moved
    have before := settled was
    cases interrupts a first with
    | ends started =>
      rw [started] at before
      cases before
    | stays _ same => exact same.symm ▸ before
  known := .inr (.inl rfl)
  finish := by simp
  running := by simp
  unknown := by
    intro _ b member started
    obtain ⟨a, there, rfl⟩ := List.mem_map.mp member
    cases interrupts a there with
    | ends _ _ unknown =>
      rw [unknown] at started
      cases started
    | stays was same => exact was (same ▸ started)
  past := by simp [SetupRunRow.isTerminal]

/-- What an adoption resumes is behind settled actions only, and nothing else is
open. -/
theorem InOrder.resumable (inOrder : InOrder ⟨run, actions⟩)
    (unknown : run.status = "outcome_unknown") (member : x ∈ actions)
    (least : ∀ a ∈ actions, a.isResumable = true → x.status.resumeRank < a.status.resumeRank ∨
      (x.status.resumeRank = a.status.resumeRank ∧ x.actionOrder ≤ a.actionOrder)) :
    (∀ a ∈ actions, a.status = .outcomeUnknown → a = x) ∧
    (x.status ≠ .completed → x.isResumable = true →
      (x.status = .planned ∨ x.status = .outcomeUnknown) ∧
      ∀ a ∈ actions, a.actionOrder < x.actionOrder → isSettled a.status = true) := by
  have only : ∀ a ∈ actions, a.status = .outcomeUnknown → a = x := by
    intro a there isUnknown
    have rank := least a there (by simp [SetupActionRow.isResumable, isUnknown])
    have also : x.status = .outcomeUnknown := by
      rw [isUnknown] at rank
      cases status : x.status <;> simp_all [SetupActionStatus.resumeRank]
    exact inOrder.open_unique there member (by rw [isUnknown]; rfl) (by rw [also]; rfl)
  refine ⟨only, fun incomplete resumable => ?_⟩
  have status : x.status = .planned ∨ x.status = .outcomeUnknown := by
    have := inOrder.unknown unknown x member
    cases status : x.status <;> simp_all [SetupActionRow.isResumable]
  refine ⟨status, fun a there less => ?_⟩
  refine settled_of_ne ?_ (inOrder.unknown unknown a there) ?_
  · intro planned
    have rank := least a there (by simp [SetupActionRow.isResumable, planned])
    rcases status with also | also
    · rw [planned, also] at rank
      rcases rank with rank | ⟨_, order⟩
      · exact absurd rank (lt_irrefl _)
      · omega
    · have := inOrder.settled a there x member less (by rw [also]; simp)
      rw [planned] at this
      cases this
  · intro isUnknown
    rw [only a there isUnknown] at less
    exact lt_irrefl _ less

theorem step_inOrder (inOrder : InOrder work) (step : WorkStep codec regime work after) :
    InOrder after := by
  cases step with
  | @acted x time text y run actions member running written acts =>
    have checked := inOrder.checked x member
    cases acts with
    | starts planned ready =>
      refine inOrder.replaced running member rfl (by rw [planned]; rfl) ?_ (by simp) ?_
      · simp only [Checked, planned] at checked
        simp [Checked, checked]
      · intro a there less
        rcases ready a there less with status | status <;> rw [status] <;> rfl
    | settles started ended known =>
      refine inOrder.replaced running member ended.same.order (by rw [started]; rfl)
        (ended.checked checked) ?_ ?_
      · rcases known with known | known <;> simp [known]
      · intro a there less
        exact inOrder.settled a there x member less (by simp [started])
    | skips planned ready =>
      refine inOrder.replaced running member rfl (by rw [planned]; rfl) ?_ (by simp) ?_
      · simp only [Checked, planned] at checked
        simp [Checked, checked]
      · intro a there less
        exact settled_of_ne (ready a there less).1 (ready a there less).2
          (inOrder.running running a there)
  | @finished time text run actions status running past tallied written timely =>
    have settled : ∀ a ∈ actions, isSettled a.status = true := fun a there =>
      settled_of_ne (past a there).1 (past a there).2 (inOrder.running running a there)
    rw [if_neg (fun ⟨a, there, unknown⟩ => inOrder.running running a there unknown)] at tallied
    exact InOrder.ended run inOrder.distinct inOrder.checked settled tallied
  | lost running interrupts => exact inOrder.lost interrupts
  | @resumed x time text run actions member unknown resumable least careful written timely =>
    obtain ⟨only, ready⟩ := inOrder.resumable unknown member least
    have known : ∀ a ∈ actions, a ≠ x → a.status ≠ .outcomeUnknown :=
      fun a there other isUnknown => other (only a there isUnknown)
    by_cases complete : x.status = .completed
    · rw [if_pos complete]
      refine ⟨inOrder.distinct, inOrder.checked, inOrder.settled, .inl rfl, by simp, ?_, by simp,
        by simp [SetupRunRow.isTerminal]⟩
      intro _ a there isUnknown
      rw [only a there isUnknown, complete] at isUnknown
      cases isUnknown
    · rw [if_neg complete]
      obtain ⟨status, before⟩ := ready complete resumable
      refine ⟨inOrder.distinct.replace member rfl, ?_, ?_, .inl rfl, by simp, ?_, by simp,
        by simp [SetupRunRow.isTerminal]⟩
      · refine forall_replace (fun a there _ => inOrder.checked a there) ?_
        have checked := inOrder.checked x member
        rcases status with status | status
        · simp only [Checked, status] at checked
          simp [Checked, restarted, checked]
        · simp only [Checked, status] at checked
          simp only [Checked, restarted, ne_eq, Option.or_eq_none_iff]
          simp [checked]
      · refine inOrder.settled.replace rfl (fun a there less _ => before a there less) ?_
        intro b there less moved
        exact absurd (inOrder.later_planned member (by
          rcases status with status | status <;> rw [status] <;> rfl) there less) moved
      · exact fun _ => forall_replace known (by simp [restarted])
  | @reconciled text time run actions status change unknown reconciles terminal written timely =>
    refine InOrder.ended run (inOrder.distinct.map fun a there => (reconciles a there).survives.order)
      (checked_map inOrder.checked fun a there => (reconciles a there).survives) ?_ terminal
    refine List.forall_mem_map.mpr fun a there => ?_
    cases reconciles a there with
    | skips _ made =>
      rw [made]
      rfl
    | ends _ _ known => rcases known with known | known <;> rw [known] <;> rfl
    | stays settled same =>
      rw [same]
      exact settled

end Satelle.SetupWorks
