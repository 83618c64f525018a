import Satelle.Server.RateLimits

/-! What the limiters of the daemon let through. -/
namespace Satelle.RateLimiting
open Lib Server

variable {K : Type} [DecidableEq K]

namespace FailedAuthLimiter
open Server.FailedAuthLimiter

/-- An attempt of a source to authenticate, which fails. -/
structure Attempt (K : Type) where
  source : K
  checkedAt : Nat
  recordedAt : Nat

/-- Whether the attempt gets past the check of `authorize`; if so, its failure is recorded. -/
def attempt (limit : Nat) (entries : RateTable K) (it : Attempt K) : Bool × RateTable K :=
  let (wait, entries) := retryAfterAt limit entries it.source it.checkedAt
  if wait.isSome then (false, entries)
  else (true, recordFailureAt entries it.source it.recordedAt)

/-- Whether an attempt of the source gets past the check. -/
def past (limit : Nat) (source : K) (entries : RateTable K) (it : Attempt K) : Nat :=
  if (attempt limit entries it).1 && it.source = source then 1 else 0

/-- How many attempts of a source get past the check, when one follows the other. -/
def passed (limit : Nat) (source : K) (entries : RateTable K) : List (Attempt K) → Nat
  | [] => 0
  | it :: rest =>
    past limit source entries it + passed limit source (attempt limit entries it).2 rest

def Chronological (now : Nat) : List (Attempt K) → Prop
  | [] => True
  | it :: rest =>
    now ≤ it.checkedAt ∧ it.checkedAt ≤ it.recordedAt ∧ Chronological it.recordedAt rest

theorem past_le_one {entries : RateTable K} : past limit source entries it ≤ 1 := by
  unfold past
  split <;> decide

section Running
variable {entries : RateTable K} {source : K} {window : RateWindow K} {it : Attempt K}
  (found : entries.lookup source = some window) (checked : window.isActive it.checkedAt)
include found checked

theorem checked_window : (entries.retain it.checkedAt).lookup source = some window := by
  rw [RateTable.lookup_retain, found]
  simp [checked]

/-- Nothing of the source gets past a window that is full. -/
theorem past_of_full (full : limit ≤ window.count) : past limit source entries it = 0 := by
  unfold past attempt retryAfterAt
  by_cases own : it.source = source
  · subst own
    simp [checked_window found checked, full]
  · simp [own]

/-- A window that is still running counts what gets past the check. -/
theorem attempt_counts (recorded : window.isActive it.recordedAt) :
    (attempt limit entries it).2.lookup source =
      some { window with count := window.count + past limit source entries it } := by
  have still := checked_window found checked
  have kept : ((entries.retain it.checkedAt).retain it.recordedAt).lookup source = some window := by
    rw [RateTable.lookup_retain, still]
    simp [recorded]
  by_cases own : it.source = source
  · subst own
    by_cases full : limit ≤ window.count
    · simp [past, attempt, retryAfterAt, still, full]
    · simp [past, attempt, retryAfterAt, still, full, recordFailureAt, RateTable.isFull, kept,
        RateTable.count, RateTable.entry, RateTable.lookup_put, (Table.lookup_eq_some.mp found).2]
  · have other : past limit source entries it = 0 := by simp [past, own]
    rw [other, attempt]
    dsimp only
    split
    · exact still
    · simp only [retryAfterAt, recordFailureAt]
      by_cases full : ((entries.retain it.checkedAt).retain it.recordedAt).isFull it.source
      · simpa [full] using kept
      · simpa [full, RateTable.count, RateTable.lookup_put, own] using kept

end Running

/-- While the window of a source runs, what gets past the check is what it has left. -/
theorem passed_le {entries : RateTable K} (found : entries.lookup source = some window)
    (began : start ≤ window.startedAt)
    (within : ∀ it ∈ attempts, it.checkedAt < start + rateWindow)
    (order : Chronological now attempts) :
    passed limit source entries attempts ≤ limit - window.count := by
  induction attempts generalizing entries window now with
  | nil => exact Nat.zero_le _
  | cons it rest ih =>
    obtain ⟨_, _, later⟩ := order
    have early := within it List.mem_cons_self
    have checked : window.isActive it.checkedAt := RateWindow.isActive_iff.mpr (by omega)
    have counted : past limit source entries it ≤ limit - window.count := by
      by_cases full : limit ≤ window.count
      · rw [past_of_full found checked full]
        exact Nat.zero_le _
      · exact le_trans past_le_one (by omega)
    cases rest with
    | nil => exact counted
    | cons next rest =>
      have soon := within next (by simp)
      have recorded : window.isActive it.recordedAt := by
        have following := later.1
        exact RateWindow.isActive_iff.mpr (by omega)
      have left : passed limit source (attempt limit entries it).2 (next :: rest) ≤
          limit - (window.count + past limit source entries it) :=
        ih (attempt_counts found checked recorded) began
          (fun other member => within other (List.mem_cons_of_mem _ member)) later
      unfold passed
      omega

/-- **Failed attempts are limited**, if one follows the other: a source whose first failure finds
a place in the table gets no more than the limit past the check before its window ends. -/
theorem failed_attempts_limited (positive : 0 < limit) {entries : RateTable K}
    (fresh : ∀ window, entries.lookup first.source = some window →
      window.isActive first.checkedAt = false)
    (room : (entries.retain first.recordedAt).rows.length < maxRateKeys)
    (order : Chronological now (first :: later))
    (within : ∀ it ∈ later, it.checkedAt < first.checkedAt + rateWindow) :
    passed limit first.source entries (first :: later) ≤ limit := by
  have unseen : (entries.retain first.checkedAt).lookup first.source = none := by
    rw [RateTable.lookup_retain]
    cases found : entries.lookup first.source with
    | none => rfl
    | some window => simp [fresh window found]
  have absent : ((entries.retain first.checkedAt).retain first.recordedAt).lookup first.source =
      none := by
    rw [RateTable.lookup_retain, unseen, Option.filter_none]
  have fits : ¬((entries.retain first.checkedAt).retain first.recordedAt).isFull first.source :=
    fun full => Nat.not_le.mpr room (le_trans full.2 (List.filter_sublist.filter _).length_le)
  have recorded : (attempt limit entries first).2.lookup first.source =
      some { key := first.source, startedAt := first.recordedAt, count := 1 } := by
    simp [attempt, retryAfterAt, unseen, recordFailureAt, absent, fits, RateTable.count,
      RateTable.entry, RateTable.lookup_put]
  obtain ⟨_, forward, onward⟩ := order
  have one : past limit first.source entries first ≤ 1 := past_le_one
  have left : passed limit first.source (attempt limit entries first).2 later ≤ limit - 1 :=
    passed_le recorded forward within onward
  unfold passed
  omega

theorem failed_attempts_limited_once :
    passed 1 0 .empty [⟨0, 0, 1⟩, ⟨0, 2, 2⟩] ≤ 1 :=
  failed_attempts_limited (by decide) (by simp [Table.lookup]) (by decide)
    (show Chronological 0 _ by simp [Chronological]) (by decide)

/-- The first attempt of a source, while all windows run. -/
theorem attempt_new {entries : RateTable Nat}
    (running : ∀ window ∈ entries.rows, window.startedAt = 0)
    (absent : entries.lookup source = none) :
    attempt 1 entries ⟨source, 0, 0⟩ = (true,
      if maxRateKeys ≤ entries.rows.length then entries else entries.put ⟨source, 0, 1⟩) := by
  have kept : entries.retain 0 = entries := by
    apply Table.ext
    apply List.filter_eq_self.mpr
    intro window member
    simp [RateWindow.isActive, running window member, rateWindow]
  simp [attempt, retryAfterAt, recordFailureAt, kept, absent, RateTable.isFull, RateTable.count,
    RateTable.entry]

/-- The table after one attempt of each of so many sources. -/
def crowd (sources : Nat) : RateTable Nat :=
  (List.range sources).foldl (fun entries source => (attempt 1 entries ⟨source, 0, 0⟩).2) .empty

theorem crowd_fills (fits : sources ≤ maxRateKeys) :
    (crowd sources).rows.length = sources ∧
      ∀ window ∈ (crowd sources).rows, window.key < sources ∧ window.startedAt = 0 := by
  induction sources with
  | zero => simp [crowd]
  | succ sources ih =>
    obtain ⟨size, windows⟩ := ih (by omega)
    have absent : ∀ window ∈ (crowd sources).rows, window.key ≠ sources :=
      fun window member => (windows window member).1.ne
    have grown : (crowd (sources + 1)).rows = ⟨sources, 0, 1⟩ :: (crowd sources).rows := by
      rw [crowd, List.range_succ, List.foldl_concat, ← crowd,
        attempt_new (fun window member => (windows window member).2)
          (Table.lookup_eq_none.mpr absent), if_neg (by omega)]
      exact congrArg _ (List.filter_eq_self.mpr (by simpa using absent))
    rw [grown]
    refine ⟨by simp [size], List.forall_mem_cons.mpr ⟨⟨Nat.lt_succ_self _, rfl⟩, ?_⟩⟩
    intro window old
    have := windows window old
    exact ⟨by omega, this.2⟩

/-- Past a full table the attempts of a source leave nothing behind. -/
theorem passed_uncounted {entries : RateTable Nat}
    (running : ∀ window ∈ entries.rows, window.startedAt = 0)
    (absent : entries.lookup source = none) (full : maxRateKeys ≤ entries.rows.length) :
    passed 1 source entries (List.replicate attempts ⟨source, 0, 0⟩) = attempts := by
  have unchanged := attempt_new running absent
  rw [if_pos full] at unchanged
  induction attempts with
  | zero => rfl
  | succ attempts ih =>
    rw [List.replicate_succ, passed, past, unchanged, ih]
    simp [Nat.add_comm]

/-- With a limit of one, a source that meets a full table gets two attempts past the check, and
so does one whose second check comes before its first failure. -/
theorem failed_attempts_unlimited :
    passed 1 maxRateKeys (crowd maxRateKeys) (List.replicate 2 ⟨maxRateKeys, 0, 0⟩) = 2 ∧
      (retryAfterAt 1 .empty 0 0).1 = none ∧
      (retryAfterAt 1 (retryAfterAt 1 .empty 0 0).2 0 0).1 = none := by
  obtain ⟨size, windows⟩ := crowd_fills (Nat.le_refl maxRateKeys)
  refine ⟨passed_uncounted (fun window member => (windows window member).2) ?_ size.ge, by decide⟩
  exact Table.lookup_eq_none.mpr fun window member => (windows window member).1.ne

end FailedAuthLimiter

namespace FixedWindowLimiter
open Server.FixedWindowLimiter

/-- An admitted call, with the start of the window that counts it. -/
structure Admission (K : Type) where
  key : K
  startedAt : Nat
  time : Nat

/-- Calls at times that do not decrease, with a log of what is admitted. -/
inductive Run (limit : Nat) : RateTable K → List (Admission K) → Nat → Prop
  | new : Run limit .empty [] 0
  | refused (run : Run limit entries log last) (forward : last ≤ now)
      (told : admitAt limit entries key now = (some wait, after)) : Run limit after log now
  | admitted (run : Run limit entries log last) (forward : last ≤ now)
      (told : admitAt limit entries key now = (none, after)) :
      Run limit after (⟨key, ((entries.retain now).entry key now).startedAt, now⟩ :: log) now

/-- How many calls a window has admitted. -/
def admittedIn (log : List (Admission K)) (key : K) (startedAt : Nat) : Nat :=
  log.countP fun admission => admission.key = key && admission.startedAt = startedAt

/-- How many calls of a key are admitted from some moment on, for less than a window. -/
def admittedFrom (log : List (Admission K)) (key : K) (start : Nat) : Nat :=
  log.countP fun admission =>
    admission.key = key && start ≤ admission.time && admission.time < start + rateWindow

/-- What the log says about the window of a key. -/
def Tracks (limit now : Nat) (log : List (Admission K)) (key : K) : Option (RateWindow K) → Prop
  | none => ∀ admission ∈ log, admission.key = key → admission.startedAt + rateWindow ≤ now
  | some window => window.startedAt ≤ now ∧ window.count ≤ limit ∧
      window.count = admittedIn log key window.startedAt ∧
      ∀ admission ∈ log, admission.key = key → admission.startedAt = window.startedAt ∨
        admission.startedAt + rateWindow ≤ window.startedAt

/-- The windows of a key do not overlap, and none admits more than the limit. -/
structure Orderly (limit : Nat) (log : List (Admission K)) : Prop where
  within : ∀ admission ∈ log, admission.startedAt ≤ admission.time ∧
    admission.time < admission.startedAt + rateWindow
  apart : ∀ a ∈ log, ∀ b ∈ log, a.key = b.key → a.startedAt < b.startedAt →
    a.startedAt + rateWindow ≤ b.startedAt
  limited : ∀ key startedAt, admittedIn log key startedAt ≤ limit

structure Sound (limit : Nat) (entries : RateTable K) (log : List (Admission K)) (now : Nat) :
    Prop where
  tracks : ∀ key, Tracks limit now log key (entries.lookup key)
  orderly : Orderly limit log
  few : entries.rows.length ≤ maxRateKeys

variable {entries after : RateTable K} {log log' : List (Admission K)} {key : K}

theorem Sound.retained (sound : Sound limit entries log last) (forward : last ≤ now) :
    Sound limit (entries.retain now) log now := by
  refine ⟨fun key => ?_, sound.orderly, le_trans (List.length_filter_le _ _) sound.few⟩
  have tracks := sound.tracks key
  rw [RateTable.lookup_retain]
  cases found : entries.lookup key with
  | none =>
    rw [found] at tracks
    exact fun admission member own => le_trans (tracks admission member own) forward
  | some window =>
    rw [found] at tracks
    obtain ⟨began, limited, counted, earlier⟩ := tracks
    by_cases active : window.isActive now
    · rw [Option.filter_some, if_pos active]
      exact ⟨by omega, limited, counted, earlier⟩
    · rw [Option.filter_some, if_neg active]
      rw [RateWindow.isActive_iff] at active
      intro admission member own
      have := earlier admission member own
      omega

theorem Sound.entry (sound : Sound limit entries log now) (key : K) :
    Tracks limit now log key (some (entries.entry key now)) := by
  unfold RateTable.entry
  have tracks := sound.tracks key
  cases found : entries.lookup key with
  | some window => exact found ▸ tracks
  | none =>
    rw [found] at tracks
    refine ⟨le_rfl, Nat.zero_le _, ?_, fun admission member own => .inr (tracks admission member own)⟩
    refine (List.countP_eq_zero.mpr fun admission member counted => ?_).symm
    obtain ⟨own, same⟩ : admission.key = key ∧ admission.startedAt = now := by simpa using counted
    have := tracks admission member own
    unfold rateWindow at this
    omega

/-- A window is set that agrees with the log, to which calls of its key may have been added. -/
theorem Sound.puts (sound : Sound limit entries log now) (room : ¬entries.isFull window.key)
    (tracks : Tracks limit now log' window.key (some window))
    (others : ∀ key ≠ window.key, ∀ known, Tracks limit now log key known →
      Tracks limit now log' key known) (orderly : Orderly limit log') :
    Sound limit (entries.put window) log' now := by
  refine ⟨fun key => ?_, orderly, ?_⟩
  · rw [RateTable.lookup_put]
    split
    · rename_i own
      exact own ▸ tracks
    · rename_i other
      exact others key (Ne.symm other) _ (sound.tracks key)
  · simp only [RateTable.put, List.length_cons]
    cases found : entries.lookup window.key with
    | none =>
      have size := not_le.mp (not_and.mp room found)
      exact Nat.lt_of_le_of_lt (List.length_filter_le _ _) size
    | some old =>
      obtain ⟨member, same⟩ := Table.lookup_eq_some.mp found
      refine le_trans (Nat.succ_le_of_lt ?_) sound.few
      exact List.length_filter_lt_length_iff_exists.mpr ⟨old, member, by simp [same]⟩

/-- What is admitted is counted by the window of its key. -/
theorem Sound.admits (sound : Sound limit entries log now) (room : ¬entries.isFull key)
    (left : (entries.entry key now).count < limit)
    (active : now < (entries.entry key now).startedAt + rateWindow) :
    Sound limit (entries.count key now) (⟨key, (entries.entry key now).startedAt, now⟩ :: log)
      now := by
  obtain ⟨began, _, counted, earlier⟩ := sound.entry key
  have own : (entries.entry key now).key = key := RateTable.entry_key
  unfold RateTable.count
  generalize entries.entry key now = window at *
  subst own
  obtain ⟨within, apart, limited⟩ := sound.orderly
  refine sound.puts room ⟨began, left, ?_, ?_⟩ ?_ ⟨?_, ?_, ?_⟩
  · rw [admittedIn, List.countP_cons_of_pos (by simp), counted]
    rfl
  · exact List.forall_mem_cons.mpr ⟨fun _ => .inl rfl, earlier⟩
  · intro other isOther known tracks
    cases known with
    | none => exact List.forall_mem_cons.mpr ⟨fun same => absurd same.symm isOther, tracks⟩
    | some its =>
      obtain ⟨began, small, counted, earlier⟩ := tracks
      refine ⟨began, small, ?_,
        List.forall_mem_cons.mpr ⟨fun same => absurd same.symm isOther, earlier⟩⟩
      rw [admittedIn, List.countP_cons_of_neg (by simp [isOther.symm]), counted]
      rfl
  · exact List.forall_mem_cons.mpr ⟨⟨began, active⟩, within⟩
  · intro a first b second same less
    rcases List.mem_cons.mp first with rfl | inLog <;>
      rcases List.mem_cons.mp second with rfl | alsoInLog
    · exact absurd less (lt_irrefl _)
    · have := earlier b alsoInLog same.symm
      simp only at less
      omega
    · have := earlier a inLog same
      simp only at less ⊢
      omega
    · exact apart a inLog b alsoInLog same less
  · intro other startedAt
    rw [admittedIn, List.countP_cons]
    split
    · rename_i hit
      obtain ⟨rfl, rfl⟩ : window.key = other ∧ window.startedAt = startedAt := by simpa using hit
      change admittedIn log window.key window.startedAt + 1 ≤ limit
      omega
    · exact limited other startedAt

/-- A call is refused by a full table or by a full window. -/
theorem admitAt_refused (told : admitAt limit entries key now = (some wait, after)) :
    let kept := entries.retain now
    (kept.isFull key ∧ (kept.rows.map (·.retryAfter now)).min? = some wait ∧ after = kept) ∨
    (¬kept.isFull key ∧ limit ≤ (kept.entry key now).count ∧
      wait = (kept.entry key now).retryAfter now ∧ after = kept.put (kept.entry key now)) := by
  unfold admitAt at told
  dsimp only at told
  split at told
  · rename_i full
    obtain ⟨least, rfl⟩ := Prod.mk.inj told
    exact .inl ⟨full, least, rfl⟩
  · rename_i room
    split at told
    · rename_i spent
      cases told
      exact .inr ⟨room, spent, rfl, rfl⟩
    · cases told

theorem admitAt_admitted (told : admitAt limit entries key now = (none, after)) :
    let kept := entries.retain now
    ¬kept.isFull key ∧ (kept.entry key now).count < limit ∧ after = kept.count key now := by
  unfold admitAt at told
  dsimp only at told
  split at told
  · rename_i full
    obtain ⟨least, _⟩ := Prod.mk.inj told
    rw [List.min?_eq_none_iff, List.map_eq_nil_iff] at least
    simp [RateTable.isFull, least, maxRateKeys] at full
  · rename_i room
    split at told
    · cases told
    · rename_i left
      cases told
      exact ⟨room, not_le.mp left, rfl⟩

theorem Run.sound (run : Run limit entries log now) : Sound limit entries log now := by
  induction run with
  | new => exact ⟨fun _ => nofun, ⟨nofun, nofun, fun _ _ => Nat.zero_le _⟩, Nat.zero_le _⟩
  | refused _ forward told ih =>
    have sound := ih.retained forward
    rcases admitAt_refused told with ⟨_, _, rfl⟩ | ⟨room, _, _, rfl⟩
    · exact sound
    · refine sound.puts ?_ ?_ (fun _ _ _ same => same) sound.orderly
      · rwa [RateTable.entry_key]
      · rw [RateTable.entry_key]
        exact sound.entry _
  | admitted _ forward told ih =>
    obtain ⟨room, left, rfl⟩ := admitAt_admitted told
    exact (ih.retained forward).admits room left RateTable.entry_active

/-- Calls of a key that are all counted by one window. -/
theorem Orderly.one {p : Admission K → Bool} (orderly : Orderly limit log) (key : K)
    (keyed : ∀ admission, p admission → admission.key = key)
    (same : ∀ a ∈ log, ∀ b ∈ log, p a → p b → ¬a.startedAt < b.startedAt) :
    log.countP p ≤ limit := by
  by_cases some : ∃ first ∈ log, p first
  · obtain ⟨first, member, hit⟩ := some
    refine le_trans (List.countP_mono_left fun other there also => ?_)
      (orderly.limited key first.startedAt)
    have least := same first member other there hit also
    have most := same other there first member also hit
    simp only [keyed other also, Bool.and_eq_true, decide_eq_true_eq, true_and]
    omega
  · rw [List.countP_eq_zero.mpr fun admission member hit => some ⟨admission, member, hit⟩]
    exact Nat.zero_le limit

/-- A span meets two windows at most: one that began before it and one that begins in it. -/
theorem Orderly.span (orderly : Orderly limit log) (key : K) (start : Nat) :
    admittedFrom log key start ≤ 2 * limit := by
  unfold admittedFrom
  rw [List.countP_eq_countP_filter_add log _ (fun admission => admission.startedAt < start),
    List.countP_filter, List.countP_filter, Nat.two_mul]
  refine Nat.add_le_add (orderly.one key ?_ ?_) (orderly.one key ?_ ?_)
  · simp +contextual
  · intro a first b second hit also less
    simp only [Bool.and_eq_true, decide_eq_true_eq] at hit also
    have following := orderly.apart a first b second (by simp [hit, also]) less
    have within := orderly.within a first
    omega
  · simp +contextual
  · intro a first b second hit also less
    simp only [Bool.and_eq_true, Bool.not_eq_true', decide_eq_true_eq, decide_eq_false_iff_not]
      at hit also
    have following := orderly.apart a first b second (by simp [hit, also]) less
    have within := orderly.within b second
    omega

/-- There is room for a key that has no window, once another window has run out. -/
theorem admitted_of_ended (positive : 0 < limit) (few : entries.rows.length ≤ maxRateKeys)
    (absent : (entries.retain now).lookup key = none) (ended : window ∈ entries.rows)
    (gone : ¬window.isActive now) : (admitAt limit entries key now).1 = none := by
  have room : (entries.retain now).rows.length < maxRateKeys := by
    refine Nat.lt_of_lt_of_le ?_ few
    exact List.length_filter_lt_length_iff_exists.mpr ⟨window, ended, by simpa using gone⟩
  simp [admitAt, RateTable.isFull, RateTable.entry, absent, not_le.mpr room, not_le.mpr positive]

/-- The hint is exact. -/
theorem Run.retries (run : Run limit entries log last) (forward : last ≤ now)
    (positive : 0 < limit) (told : admitAt limit entries key now = (some wait, after)) :
    (admitAt limit after key (now + wait)).1 = none := by
  have few := (run.refused forward told).sound.few
  have sound := run.sound.retained forward
  rcases admitAt_refused told with ⟨⟨absent, _⟩, least, rfl⟩ | ⟨_, _, rfl, rfl⟩
  · obtain ⟨window, member, rfl⟩ := List.mem_map.mp (List.min?_mem least)
    have found := Table.lookup_eq_some.mpr ⟨member, rfl⟩
    have tracks := sound.tracks window.key
    rw [found] at tracks
    rw [RateTable.lookup_retain, Option.filter_eq_some_iff] at found
    refine admitted_of_ended positive few ?_ member
      (RateWindow.ends tracks.1 (RateWindow.isActive_iff.mp found.2))
    rw [RateTable.lookup_retain, absent, Option.filter_none]
  · have gone := RateWindow.ends (sound.entry key).1 RateTable.entry_active
    refine admitted_of_ended positive few ?_ List.mem_cons_self gone
    rw [RateTable.lookup_retain, RateTable.lookup_put, if_pos RateTable.entry_key,
      Option.filter_some, if_neg gone]

/-- **The request limiter.** Each window of a key admits at most the limit of calls, and a span
that is shorter than a window at most twice that. A call is refused when its window has admitted
as many, or when the table is full of windows that still run; and after the wait that it is told,
it is admitted. -/
theorem request_limiter_sound (limit : Nat) (entries : RateTable K) (log : List (Admission K))
    (last : Nat) (run : Run limit entries log last) :
    (∀ key startedAt, admittedIn log key startedAt ≤ limit) ∧
    (∀ key start, admittedFrom log key start ≤ 2 * limit) ∧
    entries.rows.length ≤ maxRateKeys ∧
    ∀ key now wait after, last ≤ now → admitAt limit entries key now = (some wait, after) →
      ((∃ startedAt, startedAt ≤ now ∧ now < startedAt + rateWindow ∧
          admittedIn log key startedAt = limit) ∨ (entries.retain now).isFull key) ∧
      (0 < limit → (admitAt limit after key (now + wait)).1 = none) := by
  have sound := run.sound
  refine ⟨sound.orderly.limited, sound.orderly.span, sound.few, ?_⟩
  intro key now wait after forward told
  refine ⟨?_, fun positive => run.retries forward positive told⟩
  rcases admitAt_refused told with ⟨full, _⟩ | ⟨_, spent, _⟩
  · exact .inr full
  · obtain ⟨began, small, counted, _⟩ := (sound.retained forward).entry key
    exact .inl ⟨_, began, RateTable.entry_active, counted ▸ le_antisymm small spent⟩

theorem request_limiter_sound_twice :
    (admitAt 1 (admitAt 1 .empty 0 0).2 0 5).1 = some (rateWindow - 5) ∧
    (admitAt 1 (admitAt 1 (admitAt 1 .empty 0 0).2 0 5).2 0 (5 + (rateWindow - 5))).1 = none := by
  have first : Run 1 (admitAt 1 .empty 0 0).2 [⟨0, 0, 0⟩] 0 := .admitted .new (Nat.le_refl 0) rfl
  have told : (admitAt 1 (admitAt 1 .empty 0 0).2 0 5).1 = some (rateWindow - 5) := by decide
  obtain ⟨_, _, _, refused⟩ := request_limiter_sound _ _ _ _ first
  exact ⟨told, (refused 0 5 _ _ (by decide) (Prod.ext told rfl)).2 (by decide)⟩

/-- Under a limit of zero a call is refused however long it waits. -/
theorem zero_limit_refuses :
    (admitAt 0 .empty 0 0).1 = some rateWindow ∧
      (admitAt 0 (admitAt 0 .empty 0 0).2 0 (0 + rateWindow)).1 = some rateWindow := by
  decide

end FixedWindowLimiter

end Satelle.RateLimiting
