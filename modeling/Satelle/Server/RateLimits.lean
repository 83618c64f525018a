import Satelle.Lib.Table

/-! The limiters of the daemon (`transport_api/server/mod.rs`). Each keeps a bounded table of
the windows that are running, and drops those that have run out whenever it is asked. Instants
and durations are nanoseconds. -/
namespace Satelle.Server
open Lib

/-- `RATE_WINDOW` -/
def rateWindow : Nat := 60 * 10 ^ 9

/-- `MAX_RATE_KEYS` -/
def maxRateKeys : Nat := 4096

/-- A window, with the key under which the table holds it. -/
structure RateWindow (K : Type) where
  key : K
  startedAt : Nat
  count : Nat
deriving DecidableEq, Repr

variable {K : Type}

def RateWindow.isActive (window : RateWindow K) (now : Nat) : Bool :=
  now - window.startedAt < rateWindow

def RateWindow.retryAfter (window : RateWindow K) (now : Nat) : Nat :=
  rateWindow - (now - window.startedAt)

theorem RateWindow.isActive_iff {window : RateWindow K} :
    window.isActive now ↔ now < window.startedAt + rateWindow := by
  unfold isActive rateWindow
  rw [decide_eq_true_eq]
  omega

/-- It has run out after the wait. -/
theorem RateWindow.ends {window : RateWindow K} (began : window.startedAt ≤ now)
    (active : now < window.startedAt + rateWindow) :
    ¬window.isActive (now + window.retryAfter now) := by
  rw [isActive_iff]
  unfold retryAfter
  omega

abbrev RateTable (K : Type) := Table (RateWindow K) RateWindow.key

namespace RateTable
variable [DecidableEq K]

def retain (entries : RateTable K) (now : Nat) : RateTable K :=
  entries.deleteWhere fun window => !window.isActive now

/-- The key has no window, and there is no place for one. -/
def isFull (entries : RateTable K) (key : K) : Prop :=
  entries.lookup key = none ∧ maxRateKeys ≤ entries.rows.length

instance (entries : RateTable K) (key : K) : Decidable (entries.isFull key) :=
  inferInstanceAs (Decidable (_ ∧ _))

/-- The window of a key, a new one if it has none. -/
def entry (entries : RateTable K) (key : K) (now : Nat) : RateWindow K :=
  (entries.lookup key).getD { key := key, startedAt := now, count := 0 }

def put (entries : RateTable K) (window : RateWindow K) : RateTable K where
  rows := window :: entries.rows.filter (·.key ≠ window.key)
  unique := by
    rw [List.map_cons, List.nodup_cons]
    exact ⟨by simp, entries.unique.sublist (List.filter_sublist.map _)⟩

/-- One more call in the window of its key. -/
def count (entries : RateTable K) (key : K) (now : Nat) : RateTable K :=
  entries.put { entries.entry key now with count := (entries.entry key now).count + 1 }

variable {entries : RateTable K} {key : K}

theorem lookup_retain :
    (entries.retain now).lookup key = (entries.lookup key).filter (·.isActive now) := by
  simp [retain, Table.lookup_deleteWhere]

theorem lookup_put (window : RateWindow K) :
    (entries.put window).lookup key =
      if window.key = key then some window else entries.lookup key := by
  split
  · rename_i same
    exact Table.lookup_eq_some.mpr ⟨List.mem_cons_self, same⟩
  · rename_i other
    unfold Table.lookup put
    rw [List.find?_cons_of_neg (by simpa using other), List.find?_filter]
    congr 1
    funext row
    grind

@[simp] theorem entry_key : (entries.entry key now).key = key := by
  unfold entry
  cases found : entries.lookup key with
  | none => rfl
  | some window => exact (Table.lookup_eq_some.mp found).2

theorem entry_active : now < ((entries.retain now).entry key now).startedAt + rateWindow := by
  unfold entry
  cases found : (entries.retain now).lookup key with
  | none => exact Nat.lt_add_of_pos_right (by decide)
  | some window =>
    rw [lookup_retain, Option.filter_eq_some_iff] at found
    exact RateWindow.isActive_iff.mp found.2

end RateTable

namespace FailedAuthLimiter
variable [DecidableEq K]

def retryAfterAt (limit : Nat) (entries : RateTable K) (source : K) (now : Nat) :
    Option Nat × RateTable K :=
  let entries := entries.retain now
  (((entries.lookup source).filter (limit ≤ ·.count)).map (·.retryAfter now), entries)

/-- A failure that finds no place is not counted. -/
def recordFailureAt (entries : RateTable K) (source : K) (now : Nat) : RateTable K :=
  let entries := entries.retain now
  if entries.isFull source then entries else entries.count source now

end FailedAuthLimiter

namespace FixedWindowLimiter

/-- How long a call has to wait, unless it is admitted. -/
def admitAt [DecidableEq K] (limit : Nat) (entries : RateTable K) (key : K) (now : Nat) :
    Option Nat × RateTable K :=
  let entries := entries.retain now
  if entries.isFull key then ((entries.rows.map (·.retryAfter now)).min?, entries)
  else
    let window := entries.entry key now
    if limit ≤ window.count then (some (window.retryAfter now), entries.put window)
    else (none, entries.count key now)

end FixedWindowLimiter
end Satelle.Server
