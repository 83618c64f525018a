import Satelle.Host.ApiTokens
import Satelle.StoreRows

/-! What each token operation does to the rows. A call leaves the table, adds one row, or
changes the row of the token it is about; the five changes of a row are listed once, and
everything about runs is derived from the list. -/
namespace Satelle.TokenChanges
open Satelle.Core Lib Host StoreRows

section
variable {codec : TimeCodec} {row : ApiTokenRow} {token : StoredToken}

/-! ## Rows that can be read -/

/-- What `validate` has checked. -/
structure Reads (codec : TimeCodec) (row : ApiTokenRow) (token : StoredToken) : Prop where
  validId : isTokenId row.tokenId = true
  safePrincipal : isSafeReference row.principalRef = true
  positive : 0 < row.credentialRevision
  verifier : ApiTokenVerifier.fromStored row.verifier = some token.verifier
  scopes : ApiScopes.fromBits row.scopes = some token.scopes
  created : parseTime codec row.createdAt = .ok token.createdAt
  updated : ∃ updatedAt, parseTime codec row.credentialUpdatedAt = .ok updatedAt ∧
    token.createdAt ≤ updatedAt
  expires : row.expiresAt.mapM (parseTime codec) = .ok token.expiresAt
  expiresLater : ∀ expiry ∈ token.expiresAt, token.createdAt < expiry
  revoked : row.revokedAt.mapM (parseTime codec) = .ok token.revokedAt
  revokedLater : ∀ time ∈ token.revokedAt, token.createdAt ≤ time
  state : ApiTokenState.parse row.tokenState = .ok token.tokenState
  pendingExpires : token.tokenState = .setupPending → token.expiresAt ≠ none
  activeLasts : token.tokenState = .setupActive → token.expiresAt = none
  distinct : (BindingSet.collect row.desktopBindings).values.length = row.desktopBindings.length
  validBindings : (BindingSet.collect row.desktopBindings).valid = true
  tokenId : token.tokenId = row.tokenId
  principalRef : token.principalRef = row.principalRef
  credentialRevision : token.credentialRevision = row.credentialRevision.toNat
  desktopBindings : token.desktopBindings = BindingSet.collect row.desktopBindings

private theorem any_not {found : Option α} [DecidablePred p] :
    ¬found.any (fun x => decide (p x)) = true ↔ ∀ x ∈ found, ¬p x := by
  cases found <;> simp

theorem validate_ok : row.validate codec = .ok token ↔ Reads codec row token := by
  unfold ApiTokenRow.validate
  simp only [except_bind_ok, ensure_ok, orFail_ok, exists_const, except_pure_ok]
  constructor
  · rintro ⟨validId, safe, positive, verifier, isVerifier, scopes, isScopes, created, isCreated,
      updated, isUpdated, expires, isExpires, revoked, isRevoked, state, isState, fits, rfl⟩
    simp only [not_or, any_not, not_and, Int.not_lt, Int.not_le, not_not, Bool.not_eq_false] at fits
    obtain ⟨inOrder, later, after, pending, active, distinct, validBindings⟩ := fits
    exact ⟨validId, safe, positive, isVerifier, isScopes, isCreated, ⟨updated, isUpdated, inOrder⟩,
      isExpires, later, isRevoked, after, isState, pending, active, distinct, validBindings, rfl,
      rfl, rfl, rfl⟩
  · intro reads
    obtain ⟨updated, isUpdated, inOrder⟩ := reads.updated
    refine ⟨reads.validId, reads.safePrincipal, reads.positive, _, reads.verifier, _, reads.scopes,
      _, reads.created, _, isUpdated, _, reads.expires, _, reads.revoked, _, reads.state, ?_, ?_⟩
    · simp only [not_or, any_not, not_and, Int.not_lt, Int.not_le, not_not, Bool.not_eq_false]
      exact ⟨inOrder, reads.expiresLater, reads.revokedLater, reads.pendingExpires,
        reads.activeLasts, reads.distinct, reads.validBindings⟩
    · obtain ⟨id, principal, revision, bindings⟩ :=
        (⟨reads.tokenId, reads.principalRef, reads.credentialRevision, reads.desktopBindings⟩ :
          _ ∧ _ ∧ _ ∧ _)
      cases token
      simp_all

/-- A token that is there has been read. -/
theorem loadToken_some {id : String} :
    loadToken codec store id = .ok (some token) ↔
      ∃ row, store.apiTokens.lookup id = some row ∧ Reads codec row token := by
  unfold loadToken
  cases there : store.apiTokens.lookup id with
  | none => simp
  | some row =>
    have read : (row.validate codec).map some = .ok (some token) ↔ Reads codec row token := by
      rw [← validate_ok]
      cases row.validate codec <;> simp [Except.map]
    simp [read]

theorem Reads.unrevoked (reads : Reads codec row token) :
    token.revokedAt = none ↔ row.revokedAt = none := by
  have revoked := reads.revoked
  cases there : row.revokedAt with
  | none =>
    rw [there] at revoked
    have same : none = token.revokedAt := Except.ok.inj revoked
    simp [← same]
  | some text =>
    rw [there] at revoked
    obtain ⟨time, _, made⟩ := except_bind_ok.mp revoked
    have same : some time = token.revokedAt := Except.ok.inj made
    simp [← same]

theorem Reads.functional (reads : Reads codec row token) (alike : Reads codec row other) :
    token = other := by
  have same := (validate_ok.mpr reads).symm.trans (validate_ok.mpr alike)
  simpa using same

theorem collect_values (bindings : BindingSet) : BindingSet.collect bindings.values = bindings := by
  have distinct : bindings.values.Nodup := bindings.ascending.imp fun less => ne_of_lt less
  have ordered : bindings.values.Pairwise (· ≤ ·) := bindings.ascending.imp fun less => le_of_lt less
  obtain ⟨values, ascending⟩ := bindings
  simp only [BindingSet.collect, BindingSet.mk.injEq]
  rw [distinct.dedup]
  exact ordered.insertionSort_eq

end

/-! ## Changes -/

/-- The time that a call writes. -/
def writtenTime : TokenCall → OffsetDateTime
  | .register _ _ _ _ _ _ time | .registerSetupPending _ _ _ _ _ _ time | .mutate _ _ _ time
  | .rotate _ _ time | .activate _ time | .abortSetup _ time | .revoke _ time
  | .reconcileLocalController _ _ time => time

/-- The token whose row a call may change. -/
def target : TokenCall → Option String
  | .register _ _ _ _ _ _ _ | .registerSetupPending _ _ _ _ _ _ _ | .mutate _ (.issue _ _ _) _ _ =>
    none
  | .mutate _ (.rotate id _) _ _ | .mutate _ (.revoke id _) _ _ => some id
  | .rotate replacement _ _ => some replacement.tokenId
  | .activate id _ | .abortSetup id _ | .revoke id _ => some id
  | .reconcileLocalController token _ _ => some token.tokenId

/-- The verifier of the secret that is generated for a call. -/
def generated : TokenCall → Option ApiTokenVerifier
  | .mutate _ (.issue _ _ _) token _ | .mutate _ (.rotate _ _) token _ => some token.verifier
  | .rotate replacement _ _ => some replacement.verifier
  | _ => none

/-- The calls that write a time without comparing it with the row. -/
def unchecked : TokenCall → Bool
  | .mutate _ (.rotate _ _) _ _ | .mutate _ (.revoke _ _) _ _ | .rotate _ _ _ | .revoke _ _
  | .reconcileLocalController _ _ _ => true
  | .register _ _ _ _ _ _ _ | .registerSetupPending _ _ _ _ _ _ _ | .mutate _ (.issue _ _ _) _ _
  | .activate _ _ | .abortSetup _ _ => false

inductive RowChange (codec : TimeCodec) (call : TokenCall) (row : ApiTokenRow) :
    ApiTokenRow → Prop where
  | rotates (may : unchecked call = true) (reads : Reads codec row token) (live : row.revokedAt = none)
      (authenticates : token.tokenState.authenticates = true) (fresh : token.verifier ≠ verifier)
      (secret : generated call = some verifier)
      (written : formatTime codec (writtenTime call) = .ok text) :
      RowChange codec call row { row with
        credentialRevision := (token.credentialRevision + 1 : Nat)
        verifier := verifier.bytes
        credentialUpdatedAt := text }
  | regrants (may : unchecked call = true) (reads : Reads codec row token) (live : row.revokedAt = none)
      (active : token.tokenState = .active) (other : token.desktopBindings ≠ bindings)
      (valid : bindings.valid = true) (written : formatTime codec (writtenTime call) = .ok text) :
      RowChange codec call row { row with
        desktopBindings := bindings.values
        credentialRevision := (token.credentialRevision + 1 : Nat)
        credentialUpdatedAt := text }
  | activates (reads : Reads codec row token) (live : row.revokedAt = none)
      (pending : token.tokenState = .setupPending) (checked : token.createdAt ≤ writtenTime call)
      (written : formatTime codec (writtenTime call) = .ok text) :
      RowChange codec call row { row with
        expiresAt := none
        tokenState := "setup_active"
        credentialUpdatedAt := text }
  | aborts (reads : Reads codec row token) (live : row.revokedAt = none)
      (checked : token.createdAt ≤ writtenTime call)
      (written : formatTime codec (writtenTime call) = .ok text) :
      RowChange codec call row { row with revokedAt := some text }
  | revokes (may : unchecked call = true) (live : row.revokedAt = none)
      (written : formatTime codec (writtenTime call) = .ok text) :
      RowChange codec call row { row with revokedAt := some text }

inductive Effect (codec : TimeCodec) (call : TokenCall)
    (before : Table ApiTokenRow (·.tokenId)) : Table ApiTokenRow (·.tokenId) → Prop where
  | same : Effect codec call before before
  | inserts (reads : Reads codec row token) (inactive : token.tokenState ≠ .setupActive)
      (inserted : before.insert row = some after) : Effect codec call before after
  | updates {id : String} (targets : target call = some id) (found : before.lookup id = some row)
      (change : RowChange codec call row changed)
      (made : ∀ other, after.lookup other = if other = id then some changed else before.lookup other) :
      Effect codec call before after

/-! ## The operations -/

section
variable {codec : TimeCodec} {store after : TokenStore} {call : TokenCall}

/-- A registration that `new` has accepted. -/
structure Accepted (registration : ApiTokenRegistration) : Prop where
  validId : isTokenId registration.tokenId = true
  safePrincipal : isSafeReference registration.principalRef = true
  positive : 0 < registration.credentialRevision
  expiresLater : ∀ expiry ∈ registration.expiresAt, registration.createdAt < expiry
  validBindings : registration.desktopBindings.valid = true
  inactive : registration.tokenState ≠ .setupActive
  pendingExpires : registration.tokenState = .setupPending → registration.expiresAt ≠ none

theorem new_ok {registration : ApiTokenRegistration} (made : ApiTokenRegistration.new bearer
    principalRef revision scopes bindings expiresAt createdAt = .ok registration) :
    Accepted registration ∧ registration = ⟨bearer.tokenId, principalRef, revision, bearer.verifier,
      scopes, bindings, expiresAt, createdAt, .active⟩ := by
  unfold ApiTokenRegistration.new at made
  simp only [except_bind_ok, ensure_ok, exists_const, except_pure_ok, not_or,
    any_not, Int.not_le] at made
  obtain ⟨safe, ⟨positive, later⟩, valid, rfl⟩ := made
  exact ⟨⟨bearer.valid, safe, Nat.pos_of_ne_zero positive, later, valid, by simp, by simp⟩, rfl⟩

/-- A registration that finds its token is of the same token. -/
private theorem register_found
    (ran : registerApiTokenInConnection codec store registration = .ok after)
    (loaded : loadToken codec store registration.tokenId = .ok (some stored)) :
    after = store ∧ stored.tokenState = registration.tokenState ∧ stored.revokedAt = none := by
  unfold registerApiTokenInConnection at ran
  simp only [loaded, except_bind_ok, Except.ok.injEq, exists_eq_left', ensure_ok, exists_const,
    pure, Except.pure] at ran
  obtain ⟨⟨_, _, _, _, _, _, state, live⟩, rfl⟩ := ran
  exact ⟨rfl, state, live⟩

theorem register_ok (accepted : Accepted registration)
    (ran : registerApiTokenInConnection codec store registration = .ok after) :
    Effect codec call store.apiTokens after.apiTokens := by
  have whole := ran
  unfold registerApiTokenInConnection at ran
  obtain ⟨found, loaded, ran⟩ := except_bind_ok.mp ran
  cases found with
  | some stored =>
    rw [(register_found whole loaded).1]
    exact .same
  | none =>
    simp only [except_bind_ok, ensure_ok, orFail_ok, exists_const, except_pure_ok] at ran
    obtain ⟨createdAt, created, fits, expiresAt, expires, free, tokens, inserted, rfl⟩ := ran
    refine .inserts (?_ : Reads codec _ ⟨registration.tokenId, registration.principalRef,
      registration.credentialRevision, registration.verifier, registration.scopes,
      registration.desktopBindings, registration.createdAt, registration.expiresAt, none,
      registration.tokenState⟩) accepted.inactive inserted
    exact {
      validId := accepted.validId
      safePrincipal := accepted.safePrincipal
      positive := Int.natCast_pos.mpr accepted.positive
      verifier := by simp [ApiTokenVerifier.fromStored, registration.verifier.width]
      scopes := by simp [ApiScopes.fromBits, registration.scopes.valid]
      created := parseTime_format created
      updated := ⟨_, parseTime_format created, le_refl _⟩
      expires := parseTime_formatOption expires
      expiresLater := accepted.expiresLater
      revoked := rfl
      revokedLater := by simp
      state := by cases registration.tokenState <;> rfl
      pendingExpires := accepted.pendingExpires
      activeLasts := fun active => absurd active accepted.inactive
      distinct := by rw [collect_values]
      validBindings := by rw [collect_values]; exact accepted.validBindings
      tokenId := rfl
      principalRef := rfl
      credentialRevision := rfl
      desktopBindings := (collect_values _).symm }

theorem reconcile_ok
    (ran : reconcileLocalControllerToken codec store bearer bindings time = .ok after) :
    Effect codec (.reconcileLocalController bearer bindings time) store.apiTokens after.apiTokens := by
  unfold reconcileLocalControllerToken at ran
  simp only [except_bind_ok] at ran
  obtain ⟨registration, made, found, loaded, ran⟩ := ran
  obtain ⟨accepted, rfl⟩ := new_ok made
  cases found with
  | none => exact register_ok accepted ran
  | some stored =>
    obtain ⟨row, there, reads⟩ := loadToken_some.mp loaded
    simp only [except_bind_ok] at ran
    obtain ⟨middle, registered, ran⟩ := ran
    obtain ⟨rfl, active, live⟩ := register_found registered loaded
    by_cases same : stored.desktopBindings = bindings
    · rw [if_neg (by simp [same])] at ran
      cases ran
      exact .same
    · rw [if_pos same] at ran
      simp only [except_bind_ok, ensure_ok, exists_const, except_pure_ok] at ran
      obtain ⟨fits, text, written, rfl⟩ := ran
      exact .updates rfl there (.regrants rfl reads (reads.unrevoked.mp live) active same
        accepted.validBindings written) (Table.updateWhere_made (by intro; rfl) there)

/-- The rotation has been made: the row has another verifier. -/
def Rotated (codec : TimeCodec) (call : TokenCall) (id : String) (store after : TokenStore) : Prop :=
  ∃ row changed verifier, store.apiTokens.lookup id = some row ∧
    RowChange codec call row changed ∧ generated call = some verifier ∧
    changed.verifier = verifier.bytes ∧ row.verifier ≠ verifier.bytes ∧
    ∀ other, after.apiTokens.lookup other =
      if other = id then some changed else store.apiTokens.lookup other

theorem Rotated.effect {id : String} (rotated : Rotated codec call id store after)
    (targets : target call = some id) : Effect codec call store.apiTokens after.apiTokens := by
  obtain ⟨row, changed, _, found, change, _, _, _, made⟩ := rotated
  exact .updates targets found change made

theorem stored_verifier (reads : Reads codec row stored) : row.verifier = stored.verifier.bytes := by
  have read := reads.verifier
  unfold ApiTokenVerifier.fromStored at read
  split at read
  · rw [← Option.some.inj read]
  · cases read

theorem verifier_ext {a b : ApiTokenVerifier} (same : a.bytes = b.bytes) : a = b := by
  cases a
  cases b
  cases same
  rfl

private theorem replace_ok {id : String} (there : store.apiTokens.lookup id = some row)
    (reads : Reads codec row stored) (may : unchecked call = true)
    (secret : generated call = some verifier)
    (authenticates : stored.tokenState.authenticates = true)
    (ran : replaceApiTokenCredential codec store verifier stored (writtenTime call) =
      .ok (revision, after)) : Rotated codec call id store after := by
  unfold replaceApiTokenCredential at ran
  simp only [except_bind_ok, ensure_ok, orFail_ok, exists_const, except_pure_ok, Prod.mk.injEq] at ran
  obtain ⟨fresh, fits, text, written, free, tokens, updated, rfl, rfl⟩ := ran
  have sameId : stored.tokenId = id := reads.tokenId.trans (Table.lookup_eq_some.mp there).2
  obtain ⟨found, isThere, hit, made⟩ := Table.updateOne_made updated fun row hit => by
    simp only [Bool.and_eq_true, decide_eq_true_eq] at hit
    exact hit.1.1.trans sameId
  cases there.symm.trans isThere
  simp only [Bool.and_eq_true, decide_eq_true_eq, Option.isNone_iff_eq_none] at hit
  refine ⟨_, _, verifier, there, .rotates may reads hit.2 authenticates fresh secret written, secret,
    rfl, ?_, made⟩
  rw [stored_verifier reads]
  exact fun same => fresh (verifier_ext same)

theorem rotate_ok (ran : rotateApiToken codec store replacement expected time =
    .ok (principal, after)) :
    Rotated codec (.rotate replacement expected time) replacement.tokenId store after := by
  unfold rotateApiToken at ran
  simp only [except_bind_ok, ensure_ok, orFail_ok, exists_const, except_pure_ok, not_or,
    Bool.not_eq_false, not_not, Prod.exists, Prod.mk.injEq] at ran
  obtain ⟨_, _, loaded, stored, rfl, ⟨_, _, authenticates, _⟩, revision, _, replaced, _, rfl⟩ := ran
  obtain ⟨row, there, reads⟩ := loadToken_some.mp loaded
  exact replace_ok there reads rfl rfl authenticates replaced

theorem activate_ok (ran : activateApiToken codec store tokenId time = .ok (principal, after)) :
    Effect codec (.activate tokenId time) store.apiTokens after.apiTokens := by
  unfold activateApiToken at ran
  simp only [except_bind_ok, ensure_ok, orFail_ok, exists_const, not_or, not_not, Int.not_lt] at ran
  obtain ⟨_, _, loaded, stored, rfl, ⟨checked, live⟩, ran⟩ := ran
  obtain ⟨row, there, reads⟩ := loadToken_some.mp loaded
  split at ran
  · cases ran
    exact .same
  · simp only [except_bind_ok, ensure_ok, orFail_ok, exists_const, except_pure_ok, Prod.mk.injEq] at ran
    obtain ⟨⟨pending, _, _⟩, text, written, tokens, updated, _, rfl⟩ := ran
    obtain ⟨found, isThere, hit, made⟩ := Table.updateOne_made updated fun row hit => by
      simp only [Bool.and_eq_true, decide_eq_true_eq] at hit
      exact hit.1.1.1
    cases there.symm.trans isThere
    exact .updates rfl there (.activates reads (reads.unrevoked.mp live) pending checked written) made

theorem abort_ok (ran : abortSetupApiToken codec store tokenId time = .ok after) :
    Effect codec (.abortSetup tokenId time) store.apiTokens after.apiTokens := by
  unfold abortSetupApiToken at ran
  simp only [except_bind_ok, ensure_ok, orFail_ok, exists_const, Int.not_lt] at ran
  obtain ⟨_, _, loaded, stored, rfl, _, checked, ran⟩ := ran
  obtain ⟨row, there, reads⟩ := loadToken_some.mp loaded
  split at ran
  · cases ran
    exact .same
  · rename_i live
    simp only [except_bind_ok, orFail_ok, except_pure_ok, not_not] at ran live
    obtain ⟨text, written, tokens, updated, rfl⟩ := ran
    obtain ⟨found, isThere, hit, made⟩ := Table.updateOne_made updated fun row hit => by
      simp only [Bool.and_eq_true, decide_eq_true_eq] at hit
      exact hit.1.1
    cases there.symm.trans isThere
    exact .updates rfl there (.aborts reads (reads.unrevoked.mp live) checked written) made

theorem revoke_ok (ran : revokeApiToken codec store tokenId time = .ok after) :
    Effect codec (.revoke tokenId time) store.apiTokens after.apiTokens := by
  unfold revokeApiToken at ran
  simp only [except_bind_ok, ensure_ok, orFail_ok, exists_const, except_pure_ok] at ran
  obtain ⟨_, text, written, tokens, updated, rfl⟩ := ran
  obtain ⟨row, there, hit, made⟩ := Table.updateOne_made updated fun row hit => by
    simp only [Bool.and_eq_true, decide_eq_true_eq] at hit
    exact hit.1
  simp only [Bool.and_eq_true, Option.isNone_iff_eq_none] at hit
  exact .updates rfl there (.revokes rfl hit.2 written) made

theorem apply_ok (ran : applyTokenMutation codec store mutation bearer time = .ok (result, after)) :
    Effect codec (.mutate input mutation bearer time) store.apiTokens after.apiTokens ∧
      ∀ id expected, mutation = .rotate id expected → result.bearerToken ≠ none →
        Rotated codec (.mutate input mutation bearer time) id store after := by
  cases mutation with
  | issue scopes bindings expiresAt =>
    simp only [applyTokenMutation] at ran
    refine ⟨?_, fun _ _ other => by cases other⟩
    split at ran
    · cases ran
      exact .same
    · simp only [except_bind_ok, except_pure_ok, Prod.mk.injEq] at ran
      obtain ⟨registration, made, _, registered, _, rfl⟩ := ran
      exact register_ok (new_ok made).1 registered
  | rotate tokenId expected =>
    simp only [applyTokenMutation, except_bind_ok] at ran
    obtain ⟨found, loaded, ran⟩ := ran
    cases found with
    | none =>
      cases ran
      exact ⟨.same, fun _ _ _ told => absurd rfl told⟩
    | some stored =>
      obtain ⟨row, there, reads⟩ := loadToken_some.mp loaded
      dsimp only at ran
      split at ran
      · cases ran
        exact ⟨.same, fun _ _ _ told => absurd rfl told⟩
      · rename_i may
        simp only [except_bind_ok, except_pure_ok, Prod.exists,
          Prod.mk.injEq] at ran
        obtain ⟨revision, _, replaced, _, rfl⟩ := ran
        simp only [not_or, Bool.not_eq_false] at may
        have rotated : Rotated codec (.mutate input (.rotate tokenId expected) bearer time) tokenId
            store _ := replace_ok there reads rfl rfl may.2.2.1 replaced
        refine ⟨rotated.effect rfl, ?_⟩
        rintro _ _ ⟨⟩ _
        exact rotated
  | revoke tokenId expected =>
    simp only [applyTokenMutation, except_bind_ok] at ran
    obtain ⟨found, loaded, ran⟩ := ran
    refine ⟨?_, fun _ _ other => by cases other⟩
    cases found with
    | none =>
      cases ran
      exact .same
    | some stored =>
      obtain ⟨row, there, reads⟩ := loadToken_some.mp loaded
      dsimp only at ran
      split at ran
      · cases ran
        exact .same
      · rename_i may
        simp only [except_bind_ok, except_pure_ok, Prod.mk.injEq] at ran
        obtain ⟨text, written, _, rfl⟩ := ran
        simp only [not_or, not_not] at may
        exact .updates rfl there (.revokes rfl (reads.unrevoked.mp may.2.1) written)
          (Table.updateWhere_made (by intro; rfl) there)

theorem mutate_ok (ran : mutateApiToken codec store input mutation bearer time =
    .ok (result, after)) :
    Effect codec (.mutate input mutation bearer time) store.apiTokens after.apiTokens ∧
      ∀ id expected, mutation = .rotate id expected → result.bearerToken ≠ none →
        Rotated codec (.mutate input mutation bearer time) id store after := by
  unfold mutateApiToken at ran
  simp only [except_bind_ok] at ran
  obtain ⟨_, _, replay, _, ran⟩ := ran
  cases replay with
  | some outcome =>
    cases ran
    exact ⟨.same, fun _ _ _ told => absurd rfl told⟩
  | none =>
    simp only [except_bind_ok, except_pure_ok, Prod.exists,
      Prod.mk.injEq] at ran
    obtain ⟨result, middle, applied, _, recorded, rfl, rfl⟩ := ran
    simp only [insertTokenRecord, except_bind_ok, ensure_ok, orFail_ok, exists_const,
      except_pure_ok] at recorded
    obtain ⟨_, _, _, _, _, _, _, _, _, _, rfl⟩ := recorded
    obtain ⟨effect, rotates⟩ := apply_ok applied
    exact ⟨effect, rotates⟩

/-! ## Calls -/

theorem serveToken_effect : Effect codec call store.apiTokens (serveToken codec store call).2.apiTokens := by
  let Kept (after : TokenStore) := Effect codec call store.apiTokens after.apiTokens
  have stays : Kept store := .same
  cases call with
  | register =>
    refine transact_keeps Kept stays fun value after ran => ?_
    simp only [except_bind_ok, except_pure_ok, Prod.mk.injEq] at ran
    obtain ⟨registration, made, _, registered, _, rfl⟩ := ran
    exact register_ok (new_ok made).1 registered
  | registerSetupPending =>
    refine transact_keeps Kept stays fun value after ran => ?_
    simp only [except_bind_ok, except_pure_ok, Prod.mk.injEq] at ran
    obtain ⟨registration, made, _, registered, _, rfl⟩ := ran
    obtain ⟨plain, isPlain, made⟩ := except_bind_ok.mp made
    cases made
    obtain ⟨accepted, rfl⟩ := new_ok isPlain
    refine register_ok ?_ registered
    exact ⟨accepted.validId, accepted.safePrincipal, accepted.positive, accepted.expiresLater,
      accepted.validBindings, by simp, by simp⟩
  | mutate => exact transact_keeps Kept stays fun _ _ ran => (mutate_ok ran).1
  | rotate => exact transact_keeps Kept stays fun _ _ ran => (rotate_ok ran).effect rfl
  | activate => exact transact_keeps Kept stays fun _ _ ran => activate_ok ran
  | abortSetup => exact transact_unit_keeps Kept stays fun _ ran => abort_ok ran
  | revoke => exact transact_unit_keeps Kept stays fun _ ran => revoke_ok ran
  | reconcileLocalController => exact transact_unit_keeps Kept stays fun _ ran => reconcile_ok ran

/-- A row stays, changed at most once by a call. -/
theorem effect_lookup {before after : Table ApiTokenRow (·.tokenId)} {id : String}
    (effect : Effect codec call before after) (found : before.lookup id = some row) :
    ∃ changed, after.lookup id = some changed ∧
      (changed = row ∨ target call = some id ∧ RowChange codec call row changed) := by
  cases effect with
  | same => exact ⟨row, found, .inl rfl⟩
  | inserts _ _ inserted => exact ⟨row, Table.lookup_insert_of_some inserted found, .inl rfl⟩
  | @updates there changed _ other targets hit change made =>
    by_cases same : id = other
    · subst same
      cases found.symm.trans hit
      exact ⟨changed, by simp [made], .inr ⟨targets, change⟩⟩
    · exact ⟨row, by simp [made, same, found], .inl rfl⟩

end

end Satelle.TokenChanges
