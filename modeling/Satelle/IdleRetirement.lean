import Satelle.Server.IdleWait

/-! A daemon retires only after a full idle period. The loop reads the trackers one after
the other, so no turn of it shows the daemon at one instant; but what it has read twice in
one generation has not changed in between, and the turns that end the loop enclose the
whole period. -/
namespace Satelle.IdleRetirement
open Lib Server Relation

/-- A run in which nothing is ever connected, in operation or under way. -/
def Quiet : Daemon → Daemon → Prop := ReflTransGen fun a b => a.Step b ∧ a.Idle ∧ b.Idle

/-! ## Time and generations -/

variable {start now a b : Daemon} {wait : IdleWait}

theorem update_later {trackers : Tracker → Tally}
    (less : (trackers tracker).generation < tally.generation) (other : Tracker) :
    (trackers other).Later (Function.update trackers tracker tally other) := by
  by_cases same : other = tracker
  · rw [same, Function.update_self]
    exact Tally.later_of_lt less
  · rw [Function.update_of_ne same]
    exact .refl _

theorem step_later (step : a.Step b) :
    a.clock ≤ b.clock ∧ ∀ tracker, (a.trackers tracker).Later (b.trackers tracker) := by
  cases step with
  | passes time => exact ⟨Nat.le_add_right _ _, fun _ => .refl _⟩
  | begins | ends | cancels => exact ⟨le_rfl, update_later (Nat.lt_succ_self _)⟩

theorem run_later (run : a.Run b) :
    a.clock ≤ b.clock ∧ ∀ tracker, (a.trackers tracker).Later (b.trackers tracker) := by
  induction run with
  | refl => exact ⟨le_rfl, fun _ => .refl _⟩
  | tail _ step ih =>
    obtain ⟨clock, trackers⟩ := step_later step
    exact ⟨ih.1.trans clock, fun tracker => (ih.2 tracker).trans (trackers tracker)⟩

/-- A run that ends in the generations in which it began has changed nothing. -/
theorem quiet_of_same (run : a.Run b) (idle : a.Idle)
    (same : ∀ tracker, (a.trackers tracker).generation = (b.trackers tracker).generation) :
    Quiet a b := by
  induction run with
  | refl => exact .refl
  | @tail middle b run step ih =>
    have before := (run_later run).2
    have after := (step_later step).2
    have unchanged : ∀ tracker, a.trackers tracker = middle.trackers tracker := fun tracker =>
      (before tracker).between (after tracker) (same tracker)
    have still : ∀ tracker, a.trackers tracker = b.trackers tracker := fun tracker =>
      ((before tracker).trans (after tracker)).2 (same tracker)
    exact (ih fun tracker => congrArg _ (unchanged tracker)).tail
      ⟨step, fun tracker => unchanged tracker ▸ idle tracker, fun tracker => still tracker ▸ idle tracker⟩

/-! ## What the loop remembers -/

def generationOf (generation : Generation) : Tracker → Nat
  | .activity => generation.runtime
  | .operations => generation.operations
  | .connections => generation.connections

/-- Every tracker was idle in this generation, and has not gone back. -/
def Covers (generation : Generation) (daemon : Daemon) : Prop :=
  ∀ tracker, generationOf generation tracker ≤ (daemon.trackers tracker).generation ∧
    (generationOf generation tracker = (daemon.trackers tracker).generation →
      (daemon.trackers tracker).active = 0)

/-- The idle period began when every tracker had been read idle, and when it was found
long enough, it was. -/
structure Since (start : Daemon) (period : Nat) (wait : IdleWait) (now : Daemon) : Prop where
  timeout : wait.idleTimeout = period
  began : ∀ time ∈ wait.idleSince, ∃ mark generation, wait.observedGeneration = some generation ∧
    start.Run mark ∧ mark.Run now ∧ mark.clock = time ∧ Covers generation mark
  passed : wait.expiryCandidate ≠ none →
    ∃ time ∈ wait.idleSince, time + wait.idleTimeout ≤ now.clock

section Since
variable (since : Since start period wait now)
include since

theorem Since.later {later : Daemon} (run : now.Run later) : Since start period wait later where
  timeout := since.timeout
  began := by
    intro time isSince
    obtain ⟨mark, generation, observed, before, after, known⟩ := since.began time isSince
    exact ⟨mark, generation, observed, before, after.trans run, known⟩
  passed := by
    intro candidate
    obtain ⟨time, isSince, passed⟩ := since.passed candidate
    exact ⟨time, isSince, passed.trans (run_later run).1⟩

theorem restless_since : Since start period wait.restless now where
  timeout := since.timeout
  began := by rintro _ ⟨⟩
  passed := fun candidate => absurd rfl candidate

theorem observe_since (generation : Generation) :
    (wait.observe generation).observedGeneration = some generation ∧
      Since start period (wait.observe generation) now := by
  unfold IdleWait.observe
  split
  · exact ⟨by assumption, since⟩
  · refine ⟨rfl, since.timeout, ?_, fun candidate => absurd rfl candidate⟩
    rintro _ ⟨⟩

theorem rest_since (run : start.Run now) (observed : wait.observedGeneration = some generation)
    (covers : Covers generation now)
    (rests : wait.rest generation now.clock (wait.idleSince.getD now.clock) = some (after, wake)) :
    Since start period after now := by
  have began : ∃ mark, start.Run mark ∧ mark.Run now ∧
      mark.clock = wait.idleSince.getD now.clock ∧ Covers generation mark := by
    cases isSince : wait.idleSince with
    | none => exact ⟨now, run, .refl, rfl, covers⟩
    | some time =>
      obtain ⟨mark, known, same, rest⟩ := since.began time isSince
      cases observed.symm.trans same
      exact ⟨mark, rest⟩
  obtain ⟨mark, before, later, clock, covers⟩ := began
  have elapsed := (run_later later).1
  have passed := since.passed
  have timeout := since.timeout
  unfold IdleWait.rest at rests
  split at rests
  · cases rests
    refine ⟨timeout, ?_, fun candidate => ?_⟩
    · rintro _ ⟨⟩
      exact ⟨mark, generation, observed, before, later, clock, covers⟩
    · obtain ⟨time, isSince, passed⟩ := passed candidate
      exact ⟨_, rfl, by rw [isSince]; exact passed⟩
  · split at rests
    · cases rests
    · cases rests
      refine ⟨timeout, ?_, fun _ => ⟨_, rfl, ?_⟩⟩
      · rintro _ ⟨⟩
        exact ⟨mark, generation, observed, before, later, clock, covers⟩
      · simp only at *
        omega

end Since

/-! ## The turns of the loop -/

section Turn
variable {first second third : Daemon} {host : Option HostActivity}
  (toSecond : first.Run second) (toThird : second.Run third)
  (snapshot : ∀ activity ∈ host, ∃ workersIdle, activity =
    daemonActivitySnapshot workersIdle (first.trackers .activity) (second.trackers .operations))
include toSecond toThird snapshot

/-- What is read in a turn holds at its end, as long as the generations are the same. -/
theorem read_covers (toNow : third.Run now) (isHost : activity ∈ host)
    (idle : activity.idle = true)
    (unconnected : (third.trackers .connections).active = 0) :
    Covers ⟨activity.operations, activity.runtime, (third.trackers .connections).generation⟩ now := by
  have covered : ∀ {tracker : Tracker} {daemon : Daemon}, daemon.Run now →
      (daemon.trackers tracker).active = 0 →
      (daemon.trackers tracker).generation ≤ (now.trackers tracker).generation ∧
        ((daemon.trackers tracker).generation = (now.trackers tracker).generation →
          (now.trackers tracker).active = 0) := by
    intro tracker daemon run inactive
    have later := (run_later run).2 tracker
    exact ⟨later.1, fun same => later.2 same ▸ inactive⟩
  obtain ⟨workersIdle, rfl⟩ := snapshot activity isHost
  simp only [daemonActivitySnapshot, Bool.and_eq_true, beq_iff_eq] at idle
  intro tracker
  cases tracker with
  | activity => exact covered ((toSecond.trans toThird).trans toNow) idle.1.2
  | operations => exact covered (toThird.trans toNow) idle.2
  | connections => exact covered toNow unconnected

/-- The loop goes on. -/
theorem conclude_since (toNow : third.Run now) (run : start.Run now)
    (since : Since start period wait now)
    (concluded : wait.conclude host (third.trackers .connections) now.clock = some (after, wake)) :
    Since start period after now := by
  cases host with
  | none =>
    cases concluded
    exact restless_since since
  | some activity =>
    obtain ⟨observed, since⟩ := observe_since since
      ⟨activity.operations, activity.runtime, (third.trackers .connections).generation⟩
    simp only [IdleWait.conclude] at concluded
    split at concluded
    · rename_i idle
      exact rest_since since run observed
        (read_covers toSecond toThird snapshot toNow rfl idle.1 idle.2.1) concluded
    · cases concluded
      exact restless_since since

/-- The loop ends: nothing has changed from the beginning of the idle period to the first
reading of the last turn. -/
theorem conclude_rested (since : Since start period wait first)
    (concluded : wait.conclude host (third.trackers .connections) now.clock = none) :
    ∃ mark, start.Run mark ∧ mark.Idle ∧ Quiet mark first ∧ mark.clock + period ≤ first.clock := by
  cases host with
  | none => cases concluded
  | some activity =>
    simp only [IdleWait.conclude] at concluded
    generalize isGeneration : Generation.mk activity.operations activity.runtime
      (third.trackers .connections).generation = generation at concluded
    obtain ⟨observed, since⟩ := observe_since since generation
    generalize wait.observe generation = wait at concluded observed since
    have candidate : wait.expiryCandidate = some generation := by
      split at concluded
      · unfold IdleWait.rest at concluded
        grind
      · cases concluded
    obtain ⟨time, isSince, passed⟩ := since.passed (by simp [candidate])
    obtain ⟨mark, known, same, before, later, rfl, covers⟩ := since.began time isSince
    cases observed.symm.trans same
    obtain ⟨_, rfl⟩ := snapshot activity rfl
    have unchanged : ∀ tracker, generationOf generation tracker =
        (mark.trackers tracker).generation ∧
        (mark.trackers tracker).generation = (first.trackers tracker).generation := by
      intro tracker
      have lower := (covers tracker).1
      have middle := ((run_later later).2 tracker).1
      have second := ((run_later toSecond).2 tracker).1
      have third := ((run_later toThird).2 tracker).1
      subst isGeneration
      cases tracker <;> simp only [generationOf, daemonActivitySnapshot] at * <;> omega
    have idle : mark.Idle := fun tracker => (covers tracker).2 (unchanged tracker).1
    exact ⟨mark, before, idle, quiet_of_same later idle fun tracker => (unchanged tracker).2,
      since.timeout ▸ passed⟩

end Turn

theorem wait_since (waits : WaitForIdle start wait now result)
    (fresh : wait.idleSince = none ∧ wait.expiryCandidate = none) :
    start.Run now ∧ ∀ current ∈ result, Since start wait.idleTimeout current.1 now := by
  induction waits with
  | booted =>
    refine ⟨.refl, ?_⟩
    rintro _ ⟨⟩
    exact ⟨rfl, by simp [fresh.1], by simp [fresh.2]⟩
  | polled before sleeps awake toSecond toThird toFourth snapshot ih =>
    have toLast := (sleeps.trans toSecond).trans (toThird.trans toFourth)
    refine ⟨ih.1.trans toLast, fun _ concluded => ?_⟩
    exact conclude_since toSecond toThird snapshot toFourth (ih.1.trans toLast)
      ((ih.2 _ rfl).later toLast) concluded

def idleDaemon (clock : Nat) : Daemon := ⟨clock, fun _ => ⟨0, 0⟩⟩

/-- One nanosecond of idleness is enough. -/
def sampleWait : IdleWait := ⟨1, false, 0, 0, none, none, none⟩

/-- The daemon stays idle, and the loop wakes up every nanosecond. -/
theorem idleDaemon_polled (time : Nat)
    (before : WaitForIdle (idleDaemon 0) sampleWait (idleDaemon time) (some (current, wake)))
    (awake : wake ≤ time + 1) :
    WaitForIdle (idleDaemon 0) sampleWait (idleDaemon (time + 1))
      (current.conclude (some ⟨true, 0, 0⟩) ⟨0, 0⟩ (time + 1)) := by
  have sleeps : (idleDaemon time).Run (idleDaemon (time + 1)) := .single (.passes 1)
  refine .polled before sleeps awake .refl .refl .refl ?_
  rintro _ ⟨⟩
  exact ⟨true, rfl⟩

end Satelle.IdleRetirement
