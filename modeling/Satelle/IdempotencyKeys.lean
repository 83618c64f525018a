import Satelle.Host.HmacKeys
import Satelle.StoreRefinement

/-! Which key a request is digested with. The expiry of a tombstone and the retirement of a
key are compared as texts, and the texts of two instants are ordered as the instants are
unless one text only adds digits to the other. -/
namespace Satelle.IdempotencyKeys
open Satelle.Core Lib Host StoreRefinement

/-! ## Tombstones -/

/-- A tombstone as the store writes it. -/
structure Written (row : AdmissionCancellationRow) (said : DurableCancellationOutcome)
    (expiry : OffsetDateTime) : Prop where
  outcome : row.outcome = said.token
  expires : Rfc3339.format expiry = some row.expiresAt
  version : 0 < row.hmacKeyVersion ∧ row.hmacKeyVersion < 2 ^ 16

/-- The request finds its tombstone unless it is cancelled and has expired. -/
theorem Written.matching (written : Written row said expiry)
    (found : db.admissionCancellations.lookup input.recordKey = some row) :
    matchingAdmissionCancellation rfc3339 db input now = .ok none ↔
      said = .cancelled ∧ expiry ≤ now := by
  have expires : parseTime rfc3339 row.expiresAt = .ok expiry :=
    orFail_ok.mpr (Rfc3339.parse_format _ _ written.expires)
  unfold matchingAdmissionCancellation
  rw [found]
  cases said with
  | cancelled =>
    simp only [written.outcome, DurableCancellationOutcome.token, DurableCancellationOutcome.parse,
      cancellationExpired, expires, bind, Except.bind, Except.map]
    by_cases passed : expiry ≤ now
    · simp [passed]
    · simp only [passed, decide_false, Bool.false_eq_true, if_false, and_false, iff_false]
      split <;> simp [StorageError.fail]
  | recoveryPending =>
    simp only [written.outcome, DurableCancellationOutcome.token, DurableCancellationOutcome.parse,
      cancellationExpired, bind, Except.bind, Bool.false_eq_true, if_false]
    split <;> simp [StorageError.fail]

/-- The text of the expiry decides whether its key is used again. -/
theorem Written.keyVersion {input : IdempotencyInput} (written : Written row said expiry)
    (unrecorded : db.idempotencyRecords.lookup input.recordKey = none)
    (found : db.admissionCancellations.lookup input.recordKey = some row)
    (observed : Rfc3339.format now = some text) :
    idempotencyHmacKeyVersion rfc3339 db input.principalRef.text input.operation input.key.text now =
      .ok (if said = .recoveryPending ∨ text < row.expiresAt then some row.hmacKeyVersion
        else none) := by
  have formatted : formatTime rfc3339 now = .ok text := orFail_ok.mpr observed
  have live : row.isLiveAt text = decide (said = .recoveryPending ∨ text < row.expiresAt) := by
    cases said <;> simp [AdmissionCancellationRow.isLiveAt, written.outcome,
      DurableCancellationOutcome.token]
  have valid : validateKeyVersion row.hmacKeyVersion = .ok row.hmacKeyVersion :=
    except_bind_ok.mpr ⟨(), ensure_ok.mpr written.version, rfl⟩
  unfold idempotencyHmacKeyVersion
  rw [show (input.principalRef.text, idempotentOperationToken input.operation, input.key.text) =
    input.recordKey from rfl]
  simp only [unrecorded, found, formatted, bind, Except.bind, Option.filter, live]
  by_cases lives : said = .recoveryPending ∨ text < row.expiresAt
  · rw [decide_eq_true lives, if_pos lives]
    simp only [if_true, valid, Except.map]
  · rw [decide_eq_false lives, if_neg lives]
    rfl

/-- A store that was asked to cancel the request at a time. -/
def cancelledAt (time : OffsetDateTime) : Database :=
  (serve rfc3339 emptyStore
    (.recordAdmissionCancellation .run (sampleInput .run 0) none .cancelled time)).2

/-- The keys of a store: the one it was made with, and those of its rotations. -/
inductive Kept (codec : TimeCodec) : HmacKeyTable → Prop where
  | seeded (made : seedHmacKey codec key createdAt = .ok keys) : Kept codec keys
  | rotated (before : Kept codec keys)
      (made : rotateIdempotencyHmacKey codec keys key time = .ok (version, after)) :
      Kept codec after

/-- One key is active, and it is the newest. -/
structure Current (keys : HmacKeyTable) (current : HmacKeyRow) : Prop where
  member : current ∈ keys.rows
  inUse : current.isActive = true
  sole : ∀ row ∈ keys.rows, row.isActive = true → row = current
  newest : ∀ row ∈ keys.rows, row.keyVersion ≤ current.keyVersion

/-- The key is retired. -/
def retire (active : HmacKeyRow) (text : String) : HmacKeyRow → HmacKeyRow :=
  patch (fun row => row.keyVersion = active.keyVersion && row.isActive)
    (fun row => { row with retiredAt := some text })

theorem retire_keeps (row : HmacKeyRow) :
    (retire active text row).keyVersion = row.keyVersion ∧
      (retire active text row).keyMaterial = row.keyMaterial := by
  unfold retire patch
  split <;> exact ⟨rfl, rfl⟩

theorem rotate_ok (ran : rotateIdempotencyHmacKey codec keys key time = .ok (version, after)) :
    ∃ old text, after.rows = keys.rows.map (retire old text) ++ [⟨version, key, text, none⟩] ∧
      Current after ⟨version, key, text, none⟩ := by
  simp only [rotateIdempotencyHmacKey, except_bind_ok, orFail_ok, ensure_ok] at ran
  obtain ⟨old, _, newest, isNewest, _, _, text, _, _, _, _, updated, _, retired, _, inserted,
    made⟩ := ran
  cases made
  obtain ⟨_, rfl⟩ := Table.updateOne_eq_some.mp updated
  have rows := (Table.insert_eq_some.mp inserted).2
  refine ⟨old, text, rows, by simp [rows], rfl, ?_, ?_⟩
  · rw [rows]
    refine forall_mem_concat.mpr ⟨fun row before isActive => ?_, fun _ => rfl⟩
    rw [retired row before] at isActive
    cases isActive
  · rw [rows]
    refine forall_mem_concat.mpr ⟨List.forall_mem_map.mpr fun row there => ?_, le_rfl⟩
    have bound := (List.max?_eq_some_iff.mp isNewest).2 _ (List.mem_map_of_mem there)
    have same : (retire old text row).keyVersion = row.keyVersion := (retire_keeps row).1
    exact same ▸ Nat.le_succ_of_le bound

theorem kept_current (kept : Kept codec keys) : ∃ current, Current keys current := by
  cases kept with
  | seeded made =>
    simp only [seedHmacKey, except_bind_ok, orFail_ok] at made
    obtain ⟨text, _, inserted⟩ := made
    have rows := (Table.insert_eq_some.mp inserted).2
    refine ⟨_, by rw [rows]; exact List.mem_singleton.mpr rfl, rfl, ?_, ?_⟩
    all_goals simp [rows]
  | rotated _ made =>
    obtain ⟨_, _, _, current⟩ := rotate_ok made
    exact ⟨_, current⟩

theorem Current.max (current : Current keys active) :
    (keys.rows.map (·.keyVersion)).max? = some active.keyVersion := by
  refine List.max?_eq_some_iff.mpr ⟨List.mem_map_of_mem current.member, fun version listed => ?_⟩
  obtain ⟨row, member, rfl⟩ := List.mem_map.mp listed
  exact current.newest row member

theorem Current.rotates (current : Current keys active) (small : active.keyVersion < 65535)
    (formatted : codec.format rotated = some text) (ordered : active.createdAt ≤ text)
    (key : Vector UInt8 32) :
    ∃ after, rotateIdempotencyHmacKey codec keys key rotated =
      .ok (active.keyVersion + 1, after) := by
  have found : keys.rows.find? (·.isActive) = some active := by
    cases found : keys.rows.find? (·.isActive) with
    | none => exact absurd current.inUse (List.find?_eq_none.mp found active current.member)
    | some row =>
      rw [current.sole row (List.mem_of_find?_eq_some found) (List.find?_some found)]
  have one : keys.rows.countP (fun row => row.keyVersion = active.keyVersion && row.isActive) = 1 := by
    rw [List.countP_eq_length_filter, Table.filter_eq_singleton current.member
      (by simp [current.inUse]) (fun row member hit => ?_)]
    · rfl
    · exact current.sole row member (Bool.and_eq_true_iff.mp hit).2
  have retired : ∀ row ∈ keys.rows.map (retire active text), row.isActive = false := by
    rw [List.forall_mem_map]
    intro old there
    by_cases isActive : old.isActive = true
    · obtain rfl := current.sole old there isActive
      simp [retire, patch, isActive]
      rfl
    · simp [retire, patch, isActive]
  have fresh : active.keyVersion + 1 ∉
      (keys.rows.map (retire active text)).map (·.keyVersion) := by
    intro listed
    obtain ⟨row, member, same⟩ := List.mem_map.mp listed
    obtain ⟨old, there, rfl⟩ := List.mem_map.mp member
    rw [(retire_keeps old).1] at same
    exact absurd (current.newest old there) (by omega)
  unfold rotateIdempotencyHmacKey
  simp only [except_bind_ok, orFail_ok, ensure_ok, Table.updateOne_eq_some]
  exact ⟨_, active, found, _, current.max, (), by omega, text, orFail_ok.mpr formatted, (), ordered, _,
    ⟨one, rfl⟩, (), retired, _, dif_pos fresh, rfl⟩

/-- The keys of a store made at the beginning of 1970. -/
def sampleKeys : HmacKeyTable :=
  ⟨[⟨1, .replicate 32 0, "1970-01-01T00:00:00Z", none⟩], by simp⟩

theorem sampleKeys_kept : Kept rfc3339 sampleKeys := by
  have made : seedHmacKey rfc3339 (.replicate 32 0) (seconds 0) = .ok sampleKeys :=
    except_bind_ok.mpr ⟨_, orFail_ok.mpr (by decide +kernel), rfl⟩
  exact .seeded made

end Satelle.IdempotencyKeys
