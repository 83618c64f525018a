import Satelle.StoreRefinement
import Satelle.TokenChanges

/-! What runs of the token operations do. A row that can be read stays so as long as no
clock runs back past the row's creation, and what a credential has lost it never gets
back. -/
namespace Satelle.TokenAuthority
open Lib Host StoreRows StoreRefinement TokenChanges

section
variable {codec : TimeCodec} {row changed : ApiTokenRow} {token : StoredToken} {call : TokenCall}

/-! ## Validity -/

/-- A change keeps a row readable when its time is not before the row's creation. -/
theorem change_reads (reads : Reads codec row token) (timely : token.createdAt ≤ writtenTime call)
    (change : RowChange codec call row changed) : ∃ after, Reads codec changed after := by
  cases change with
  | @rotates stored verifier text may alike live authenticates fresh secret written =>
    refine ⟨{ token with credentialRevision := stored.credentialRevision + 1, verifier := verifier },
      { reads with
        positive := by simp only; omega
        verifier := by simp [ApiTokenVerifier.fromStored, verifier.width]
        updated := ⟨_, parseTime_format written, timely⟩
        credentialRevision := by simp }⟩
  | @regrants stored bindings text may alike live active other valid written =>
    refine ⟨{ token with
        credentialRevision := stored.credentialRevision + 1, desktopBindings := bindings },
      { reads with
        positive := by simp only; omega
        updated := ⟨_, parseTime_format written, timely⟩
        distinct := by rw [collect_values]
        validBindings := by rw [collect_values]; exact valid
        credentialRevision := by simp
        desktopBindings := (collect_values _).symm }⟩
  | activates alike live pending checked written =>
    refine ⟨{ token with expiresAt := none, tokenState := .setupActive },
      { reads with
        updated := ⟨_, parseTime_format written, timely⟩
        expires := rfl
        expiresLater := by simp
        state := rfl
        pendingExpires := by simp
        activeLasts := fun _ => rfl }⟩
  | aborts alike live checked written | revokes may live written =>
    refine ⟨{ token with revokedAt := some (writtenTime call) },
      { reads with
        revoked := by simp [parseTime_format written]
        revokedLater := by simpa using timely }⟩

/-- A call that writes its time unchecked does so no earlier than the creation of the
token it is about. -/
def Timely (codec : TimeCodec) (store : TokenStore) (call : TokenCall) : Prop :=
  unchecked call = true → ∀ id row token, target call = some id →
    store.apiTokens.lookup id = some row → row.validate codec = .ok token →
    token.createdAt ≤ writtenTime call

def Readable (codec : TimeCodec) (table : Table ApiTokenRow (·.tokenId)) : Prop :=
  ∀ row ∈ table.rows, ∃ token, Reads codec row token

private theorem readable_effect {after : Table ApiTokenRow (·.tokenId)}
    (timely : Timely codec store call) (readable : Readable codec store.apiTokens)
    (effect : Effect codec call store.apiTokens after) : Readable codec after := by
  intro row member
  cases effect with
  | same => exact readable row member
  | inserts reads _ inserted =>
    obtain ⟨_, rows⟩ := Table.insert_eq_some.mp inserted
    rw [rows, List.mem_append, List.mem_singleton] at member
    obtain old | rfl := member
    · exact readable row old
    · exact ⟨_, reads⟩
  | @updates before changed _ id targets found change made =>
    have there := made row.tokenId
    rw [Table.lookup_eq_some.mpr ⟨member, rfl⟩] at there
    split at there
    · obtain ⟨token, reads⟩ := readable before (Table.lookup_eq_some.mp found).1
      cases there
      have told := fun may => timely may id before token targets found (validate_ok.mpr reads)
      refine change_reads reads ?_ change
      cases change with
      | rotates may | regrants may | revokes may => exact told may
      | activates alike _ _ checked | aborts alike _ checked =>
        rw [reads.functional alike]
        exact checked
    · exact readable row (Table.lookup_eq_some.mp there.symm).1

private theorem authentication_reads {id : String} (readable : Readable codec store.apiTokens)
    (failed : authenticateApiTokenForState codec store id verifier time states = .error error) :
    error.kind ≠ .invalidStoredState := by
  obtain ⟨found, loaded⟩ : ∃ found, loadToken codec store id = .ok found := by
    unfold loadToken
    cases there : store.apiTokens.lookup id with
    | none => exact ⟨none, rfl⟩
    | some row =>
      obtain ⟨token, reads⟩ := readable row (Table.lookup_eq_some.mp there).1
      exact ⟨some token, by simp [validate_ok.mpr reads, Except.map]⟩
  unfold authenticateApiTokenForState ensure at failed
  rw [loaded] at failed
  split at failed
  · cases found with
    | none => cases failed
    | some stored =>
      dsimp only [bind, Except.bind] at failed
      split at failed <;> cases failed
  · cases failed
    decide

end

/-- Whatever the operations have made of an empty table can be opened and authenticated
against, the clock having run back no further than a token's creation. -/
theorem tokens_stay_valid (codec : TimeCodec) (start store : TokenStore)
    (fresh : start.apiTokens = .empty) (later : TokensLater codec (Timely codec) start store) :
    (∀ row ∈ store.apiTokens.rows, ∃ token, row.validate codec = .ok token) ∧
      validateSensitiveState codec store = .ok () ∧
      ∀ id verifier time error,
        authenticateApiToken codec store id verifier time = .error error ∨
          authenticatePendingSetupApiToken codec store id verifier time = .error error →
        error.kind ≠ .invalidStoredState := by
  have readable : Readable codec store.apiTokens := by
    induction later with
    | refl =>
      rw [fresh]
      exact fun _ member => nomatch member
    | tail _ step ih =>
      obtain ⟨call, timely, rfl⟩ := step
      exact readable_effect timely ih serveToken_effect
  refine ⟨fun row member => ?_, forM_ok.mpr fun row member => ?_, ?_⟩
  · obtain ⟨token, reads⟩ := readable row member
    exact ⟨token, validate_ok.mpr reads⟩
  · obtain ⟨token, reads⟩ := readable row member
    exact except_bind_ok.mpr ⟨token, validate_ok.mpr reads, rfl⟩
  · rintro id verifier time error (failed | failed)
    · exact authentication_reads readable failed
    · exact authentication_reads readable failed

def noTokens : TokenStore := ⟨.empty, .empty, [1]⟩

def sampleVerifier (byte : UInt8) : ApiTokenVerifier := ⟨List.replicate secretBytes byte, by simp⟩

def sampleToken : ApiBearerToken := ⟨"token-1", sampleVerifier 1, by decide⟩

def sampleRegister (time : Int) : TokenCall :=
  .register sampleToken "principal-1" 1 .admin ⟨[], .nil⟩ none (seconds time)

/-- The sample token, registered one second after the epoch. -/
def registeredTokens : TokenStore := (serveToken sampleCodec noTokens (sampleRegister 1)).2

theorem tokens_stay_valid_revoked :
    (serveToken sampleCodec registeredTokens (.revoke "token-1" (seconds 2))).1 = .ok .done ∧
      validateSensitiveState sampleCodec
        (serveToken sampleCodec registeredTokens (.revoke "token-1" (seconds 2))).2 = .ok () := by
  have registers : Timely sampleCodec noTokens (sampleRegister 1) := nofun
  have revokes : Timely sampleCodec registeredTokens (.revoke "token-1" (seconds 2)) := by
    intro _ id row token targets found reads
    cases targets
    have created : (loadToken sampleCodec registeredTokens "token-1").map
        (·.map (·.createdAt)) = .ok (some (seconds 1)) := by decide
    rw [loadToken_some.mpr ⟨row, found, validate_ok.mp reads⟩] at created
    have at_one : token.createdAt = seconds 1 := by simpa [Except.map] using created
    rw [at_one]
    decide
  refine ⟨by decide, (tokens_stay_valid sampleCodec noTokens _ rfl
    (.tail (.single ⟨_, registers, rfl⟩) ⟨_, revokes, rfl⟩)).2.1⟩

/-- The token is revoked by a clock that has run back: from then on its row is refused,
also when the store is opened. -/
theorem backward_revocation_locks_store :
    ∃ store, TokensLater sampleCodec (fun _ _ => True) noTokens store ∧
      validateSensitiveState sampleCodec store = StorageError.fail .invalidStoredState ∧
      authenticateApiToken sampleCodec store "token-1" (sampleVerifier 1) (seconds 2) =
        StorageError.fail .invalidStoredState :=
  ⟨(serveToken sampleCodec registeredTokens (.revoke "token-1" (seconds 0))).2,
    .tail (.single ⟨sampleRegister 1, trivial, rfl⟩) ⟨_, trivial, rfl⟩, by decide, by decide⟩

/-! ## Authority -/

section
variable {codec : TimeCodec} {store after : TokenStore} {row changed : ApiTokenRow}
  {token : StoredToken} {call : TokenCall} {id : String}

/-- A property of one row that the allowed changes keep, over a run. -/
theorem row_run (holds : ApiTokenRow → Prop)
    (keeps : ∀ store call row changed, allowed store call → store.apiTokens.lookup id = some row →
      (serveToken codec store call).2.apiTokens.lookup id = some changed →
      RowChange codec call row changed → holds row → holds changed)
    (later : TokensLater codec allowed store after) (found : store.apiTokens.lookup id = some row)
    (held : holds row) : ∃ last, after.apiTokens.lookup id = some last ∧ holds last := by
  induction later with
  | refl => exact ⟨row, found, held⟩
  | @tail middle _ _ step ih =>
    obtain ⟨call, may, rfl⟩ := step
    obtain ⟨between, there, still⟩ := ih
    obtain ⟨next, reached, same | ⟨_, change⟩⟩ := effect_lookup serveToken_effect there
    · exact ⟨next, reached, same ▸ still⟩
    · exact ⟨next, reached, keeps middle call between next may there reached change still⟩

/-- Whether a call has rotated, revoked or re-granted the token. -/
def Alters (codec : TimeCodec) (id : String) (store : TokenStore) (call : TokenCall) : Prop :=
  ∃ row changed, store.apiTokens.lookup id = some row ∧
    (serveToken codec store call).2.apiTokens.lookup id = some changed ∧
    (changed.verifier ≠ row.verifier ∨ changed.revokedAt ≠ row.revokedAt ∨
      changed.desktopBindings ≠ row.desktopBindings)

/-- What `authenticate_api_token_for_state` accepts. -/
theorem authenticated_ok {principal} :
    authenticateApiTokenForState codec store id verifier time states = .ok (some principal) ↔
      isTokenId id = true ∧ ∃ row token, store.apiTokens.lookup id = some row ∧ Reads codec row token ∧
        token.verifier = verifier ∧ row.revokedAt = none ∧ states token.tokenState = true ∧
        token.expired time = false ∧ principal = token.principal := by
  unfold authenticateApiTokenForState
  simp only [except_bind_ok, ensure_ok, exists_const]
  refine and_congr_right fun _ => ?_
  constructor
  · rintro ⟨found, loaded, ran⟩
    cases found with
    | none => cases ran
    | some stored =>
      dsimp only at ran
      split at ran
      · cases ran
      · rename_i passes
        simp only [not_or, not_not, Bool.not_eq_false, Bool.not_eq_true] at passes
        cases ran
        obtain ⟨row, there, reads⟩ := loadToken_some.mp loaded
        obtain ⟨same, live, admits, unexpired⟩ := passes
        exact ⟨row, stored, there, reads, same, reads.unrevoked.mp live, admits, unexpired, rfl⟩
  · rintro ⟨row, token, there, reads, rfl, live, admits, unexpired, rfl⟩
    refine ⟨some token, loadToken_some.mpr ⟨row, there, reads⟩, ?_⟩
    simp [reads.unrevoked.mpr live, admits, unexpired, pure, Except.pure]

/-- What makes a principal active. -/
theorem active_ok :
    apiPrincipalIsActive codec store principal time = .ok true ↔
      ∃ row token, store.apiTokens.lookup principal.tokenId = some row ∧ Reads codec row token ∧
        row.revokedAt = none ∧ token.tokenState.authenticates = true ∧ token.expired time = false ∧
        token.tokenId = principal.tokenId ∧ token.principalRef = principal.principalRef ∧
        token.credentialRevision = principal.credentialRevision ∧ token.scopes = principal.scopes ∧
        token.desktopBindings = principal.desktopBindings ∧
        token.expiresAt = principal.expiresAt := by
  unfold apiPrincipalIsActive
  simp only [except_bind_ok]
  constructor
  · rintro ⟨found, loaded, ran⟩
    cases found with
    | none => cases ran
    | some stored =>
      have holds := of_decide_eq_true (Except.ok.inj ran)
      obtain ⟨row, there, reads⟩ := loadToken_some.mp loaded
      exact ⟨row, stored, there, reads, reads.unrevoked.mp holds.1, holds.2⟩
  · rintro ⟨row, token, there, reads, live, rest⟩
    refine ⟨some token, loadToken_some.mpr ⟨row, there, reads⟩, ?_⟩
    exact congrArg Except.ok (decide_eq_true ⟨reads.unrevoked.mpr live, rest⟩)

/-- Either path accepts the verifier, at some time. -/
def Accepts (codec : TimeCodec) (store : TokenStore) (id : String) (verifier : ApiTokenVerifier) :
    Prop :=
  ∃ time principal, authenticateApiToken codec store id verifier time = .ok (some principal) ∨
    authenticatePendingSetupApiToken codec store id verifier time = .ok (some principal)

private theorem accepts_row (accepts : Accepts codec store id verifier) :
    ∃ row, store.apiTokens.lookup id = some row ∧ row.revokedAt = none ∧
      row.verifier = verifier.bytes := by
  obtain ⟨time, principal, accepted⟩ := accepts
  obtain ⟨states, accepted⟩ : ∃ states,
      authenticateApiTokenForState codec store id verifier time states = .ok (some principal) :=
    accepted.elim (⟨_, ·⟩) (⟨_, ·⟩)
  obtain ⟨_, row, token, there, reads, rfl, live, _⟩ := authenticated_ok.mp accepted
  exact ⟨row, there, live, stored_verifier reads⟩

/-- Any calls. -/
def anyCall : TokenStore → TokenCall → Prop := fun _ _ => True

section Found
variable (found : store.apiTokens.lookup id = some row)
include found

theorem revoked_run (revoked : row.revokedAt ≠ none)
    (later : TokensLater codec anyCall store after) :
    ∃ last, after.apiTokens.lookup id = some last ∧ last.revokedAt ≠ none :=
  row_run (fun row => row.revokedAt ≠ none)
    (fun _ _ _ _ _ _ _ change revoked => by cases change <;> contradiction) later found revoked

theorem revision_run (later : TokensLater codec anyCall store after) :
    ∃ last, after.apiTokens.lookup id = some last ∧
      row.credentialRevision ≤ last.credentialRevision := by
  refine row_run (fun last => row.credentialRevision ≤ last.credentialRevision) ?_ later found
    (Int.le_refl _)
  intro _ _ _ _ _ _ _ change least
  refine Int.le_trans least ?_
  cases change with
  | rotates may reads | regrants may reads =>
    simp only [reads.credentialRevision]
    omega
  | activates | aborts | revokes => exact Int.le_refl _

theorem spent_run (other : row.verifier ≠ spent.bytes)
    (later : TokensLater codec (fun _ call => generated call ≠ some spent) store after) :
    ∃ last, after.apiTokens.lookup id = some last ∧ last.verifier ≠ spent.bytes := by
  refine row_run (fun row => row.verifier ≠ spent.bytes) ?_ later found other
  intro _ _ _ _ unspent _ _ change other
  cases change with
  | rotates _ _ _ _ _ secret =>
    intro same
    exact unspent (verifier_ext same ▸ secret)
  | regrants | activates | aborts | revokes => exact other

end Found

/-- The token that a call rotates. -/
def rotationOf : TokenCall → Option String
  | .mutate _ (.rotate id _) _ _ => some id
  | .rotate replacement _ _ => some replacement.tokenId
  | _ => none

/-- The reply brings a new credential. -/
def renews : TokenReply → Bool
  | .done => false
  | .principal _ => true
  | .mutated result => result.bearerToken.isSome

theorem rotated_ok (rotation : rotationOf call = some id)
    (served : serveToken codec store call = (.ok reply, after)) (renewed : renews reply = true) :
    Rotated codec call id store after := by
  cases call with
  | mutate input mutation bearer time =>
    cases mutation with
    | rotate other expected =>
      cases rotation
      obtain ⟨result, ran, rfl⟩ := transact_ok.mp served
      exact (mutate_ok ran).2 id expected rfl (Option.isSome_iff_ne_none.mp renewed)
    | issue | revoke => cases rotation
  | rotate replacement expected time =>
    cases rotation
    obtain ⟨principal, ran, _⟩ := transact_ok.mp served
    exact rotate_ok ran
  | register | registerSetupPending | activate | abortSetup | revoke | reconcileLocalController =>
    cases rotation

/-! ## Principals -/

private theorem principal_id (there : store.apiTokens.lookup id = some row)
    (reads : Reads codec row token) : token.principal.tokenId = id :=
  reads.tokenId.trans (Table.lookup_eq_some.mp there).2

theorem unaltered_principal_active
    (accepted : authenticateApiToken codec store id verifier time = .ok (some principal))
    (later : TokensLater codec (fun store call => ¬Alters codec id store call) store after) :
    apiPrincipalIsActive codec after principal moment = .ok true ↔
      ∀ expiry ∈ principal.expiresAt, moment < expiry := by
  obtain ⟨_, row, token, there, reads, _, live, authenticates, _, rfl⟩ := authenticated_ok.mp accepted
  have lasts : ∃ last, after.apiTokens.lookup id = some last ∧ last = row := by
    refine row_run (fun last => last = row) ?_ later there rfl
    rintro store call _ changed unaltered held reached change rfl
    refine absurd ⟨_, changed, held, reached, ?_⟩ unaltered
    cases change with
    | rotates _ alike _ _ fresh =>
      refine .inl fun same => fresh (verifier_ext ?_)
      exact (stored_verifier alike).symm.trans same.symm
    | regrants _ alike _ _ other =>
      refine .inr (.inr fun same => other ?_)
      rw [alike.desktopBindings, ← same, collect_values]
    | activates alike _ pending =>
      rw [reads.functional alike, pending] at authenticates
      cases authenticates
    | aborts _ live | revokes _ live => exact .inr (.inl (by simp [live]))
  obtain ⟨_, lasts, same⟩ := lasts
  rw [same] at lasts
  have unexpired : token.expired moment = false ↔ ∀ expiry ∈ token.principal.expiresAt,
      moment < expiry := by
    simp only [StoredToken.expired, StoredToken.principal]
    cases token.expiresAt <;> simp
  rw [← unexpired, active_ok, principal_id there reads]
  constructor
  · rintro ⟨last, other, again, alike, _, _, unexpired, _⟩
    cases lasts.symm.trans again
    exact reads.functional alike ▸ unexpired
  · intro unexpired
    exact ⟨row, token, lasts, reads, live, authenticates, unexpired, principal_id there reads, rfl,
      rfl, rfl, rfl, rfl⟩

theorem altered_principal_inactive
    (accepted : authenticateApiToken codec store id verifier time = .ok (some principal))
    (earlier : TokensLater codec anyCall store before) (alters : Alters codec id before call)
    (later : TokensLater codec anyCall (serveToken codec before call).2 after) :
    apiPrincipalIsActive codec after principal moment ≠ .ok true := by
  obtain ⟨_, row, token, there, reads, _, _, _, _, rfl⟩ := authenticated_ok.mp accepted
  intro active
  obtain ⟨last, stored, found, alike, live, _, _, _, _, revision, _⟩ := active_ok.mp active
  rw [principal_id there reads] at found
  obtain ⟨old, changed, held, reached, altered⟩ := alters
  obtain ⟨_, again, notLess⟩ := revision_run there earlier
  cases held.symm.trans again
  obtain ⟨next, atNext, same | ⟨_, change⟩⟩ := effect_lookup serveToken_effect held
  · cases reached.symm.trans atNext
    simp [same] at altered
  cases reached.symm.trans atNext
  have raised : old.credentialRevision < changed.credentialRevision ∨ changed.revokedAt ≠ none := by
    cases change with
    | rotates _ reads | regrants _ reads =>
      simp only [reads.credentialRevision]
      omega
    | activates => simp at altered
    | aborts | revokes => exact .inr nofun
  obtain grown | revoked := raised
  · -- the principal keeps the revision it was given, the row has a later one
    obtain ⟨_, atLast, least⟩ := revision_run reached later
    cases found.symm.trans atLast
    have lastRevision := alike.credentialRevision
    have firstRevision := reads.credentialRevision
    have positive := reads.positive
    simp only [StoredToken.principal] at revision
    omega
  · obtain ⟨_, atLast, ended⟩ := revoked_run reached revoked later
    cases found.symm.trans atLast
    exact ended live

theorem pending_principal_inactive
    (accepted : authenticatePendingSetupApiToken codec store id verifier time = .ok (some principal))
    (later : TokensLater codec anyCall store after) :
    apiPrincipalIsActive codec after principal moment ≠ .ok true := by
  obtain ⟨_, row, token, there, reads, _, _, pending, _, rfl⟩ := authenticated_ok.mp accepted
  have pending := of_decide_eq_true pending
  intro active
  obtain ⟨last, stored, found, alike, _, authenticates, _, _, _, _, _, _, expires⟩ :=
    active_ok.mp active
  rw [principal_id there reads] at found
  obtain ⟨_, again, setup⟩ : ∃ last, after.apiTokens.lookup id = some last ∧
      ApiTokenState.parse last.tokenState ≠ .ok .active := by
    refine row_run (fun last => ApiTokenState.parse last.tokenState ≠ .ok .active) ?_ later there
      (by rw [reads.state, pending]; nofun)
    intro _ _ _ _ _ _ _ change setup
    cases change with
    | rotates | regrants | aborts | revokes => exact setup
    | activates => exact nofun
  cases found.symm.trans again
  cases state : stored.tokenState with
  | active => exact setup (alike.state.trans (congrArg _ state))
  | setupPending => rw [state] at authenticates; cases authenticates
  | setupActive =>
    rw [alike.activeLasts state] at expires
    exact reads.pendingExpires pending expires.symm

end

/-- What a credential has lost it never gets back. A principal of the pending path is no
exception to its last part: it is never active. -/
theorem lost_authority_stays_lost (codec : TimeCodec) (store : TokenStore) (id : String) :
    (∀ row, store.apiTokens.lookup id = some row → row.revokedAt ≠ none →
      ∀ after, TokensLater codec anyCall store after → ∀ verifier, ¬Accepts codec after id verifier) ∧
    (∀ call reply next row spent, rotationOf call = some id →
      serveToken codec store call = (.ok reply, next) → renews reply = true →
      store.apiTokens.lookup id = some row → row.verifier = spent.bytes →
      ∀ after, TokensLater codec (fun _ call => generated call ≠ some spent) next after →
        ¬Accepts codec after id spent) ∧
    (∀ row, store.apiTokens.lookup id = some row → ∀ after, TokensLater codec anyCall store after →
      ∃ last, after.apiTokens.lookup id = some last ∧
        row.credentialRevision ≤ last.credentialRevision) ∧
    (∀ token, loadToken codec store id = .ok (some token) → token.tokenState = .setupPending →
      ∀ verifier time principal,
        authenticateApiToken codec store id verifier time ≠ .ok (some principal) ∧
        (authenticatePendingSetupApiToken codec store id verifier time = .ok (some principal) →
          ∃ expiry, token.expiresAt = some expiry ∧ time < expiry)) ∧
    (∀ verifier time principal moment,
      authenticateApiToken codec store id verifier time = .ok (some principal) →
      (∀ after, TokensLater codec (fun store call => ¬Alters codec id store call) store after →
        (apiPrincipalIsActive codec after principal moment = .ok true ↔
          ∀ expiry ∈ principal.expiresAt, moment < expiry)) ∧
      ∀ before call after, TokensLater codec anyCall store before → Alters codec id before call →
        TokensLater codec anyCall (serveToken codec before call).2 after →
        apiPrincipalIsActive codec after principal moment ≠ .ok true) ∧
    (∀ verifier time principal moment,
      authenticatePendingSetupApiToken codec store id verifier time = .ok (some principal) →
      ∀ after, TokensLater codec anyCall store after →
        apiPrincipalIsActive codec after principal moment ≠ .ok true) := by
  refine ⟨?_, ?_, ?_, ?_, ?_, ?_⟩
  · intro row found revoked after later verifier accepts
    obtain ⟨last, there, ended⟩ := revoked_run found revoked later
    obtain ⟨_, again, live, _⟩ := accepts_row accepts
    cases there.symm.trans again
    exact ended live
  · intro call reply next row spent rotation served renewed found previous after later accepts
    obtain ⟨_, changed, verifier, there, _, _, written, other, made⟩ :=
      rotated_ok rotation served renewed
    cases found.symm.trans there
    have unlike : changed.verifier ≠ spent.bytes := by
      rw [written, ← previous]
      exact other.symm
    obtain ⟨last, reached, still⟩ := spent_run ((made id).trans (if_pos rfl)) unlike later
    obtain ⟨_, again, _, same⟩ := accepts_row accepts
    cases reached.symm.trans again
    exact still same
  · exact fun row found after later => revision_run found later
  · intro token loaded pending verifier time principal
    obtain ⟨row, there, reads⟩ := loadToken_some.mp loaded
    constructor
    · intro accepted
      obtain ⟨_, _, other, again, alike, _, _, authenticates, _⟩ := authenticated_ok.mp accepted
      cases there.symm.trans again
      rw [← reads.functional alike, pending] at authenticates
      cases authenticates
    · intro accepted
      obtain ⟨_, _, other, again, alike, _, _, _, unexpired, _⟩ := authenticated_ok.mp accepted
      cases there.symm.trans again
      rw [← reads.functional alike] at unexpired
      cases expires : token.expiresAt with
      | none => exact absurd expires (reads.pendingExpires pending)
      | some expiry => exact ⟨expiry, rfl, by simpa [StoredToken.expired, expires] using unexpired⟩
  · intro verifier time principal moment accepted
    exact ⟨fun after later => unaltered_principal_active accepted later,
      fun before call after earlier alters later =>
        altered_principal_inactive accepted earlier alters later⟩
  · exact fun verifier time principal moment accepted after later =>
      pending_principal_inactive accepted later

def sampleRotation : TokenCall :=
  .rotate ⟨"token-1", sampleVerifier 2, by decide⟩ 1 (seconds 2)

/-- The verifier of the sample token is accepted until the token is rotated. -/
theorem lost_authority_stays_lost_rotated :
    Accepts sampleCodec registeredTokens "token-1" (sampleVerifier 1) ∧
      ∀ after, TokensLater sampleCodec (fun _ call => generated call ≠ some (sampleVerifier 1))
        (serveToken sampleCodec registeredTokens sampleRotation).2 after →
        ¬Accepts sampleCodec after "token-1" (sampleVerifier 1) := by
  have principal : authenticateApiToken sampleCodec registeredTokens "token-1" (sampleVerifier 1)
      (seconds 2) = .ok (some ⟨"token-1", "principal-1", 1, .admin, ⟨[], .nil⟩, none, false, false⟩) := by
    decide
  refine ⟨⟨seconds 2, _, .inl principal⟩, ?_⟩
  obtain ⟨_, rotated, _⟩ := lost_authority_stays_lost sampleCodec registeredTokens "token-1"
  exact rotated sampleRotation
    (.principal ⟨"token-1", "principal-1", 2, .admin, ⟨[], .nil⟩, none, false, false⟩) _
    ⟨"token-1", "principal-1", 1, (sampleVerifier 1).bytes, 4, "1970-01-01T00:00:01Z",
      "1970-01-01T00:00:01Z", none, none, "active", []⟩ (sampleVerifier 1) rfl
    (Prod.ext (by decide) rfl) rfl (by decide) rfl

def samplePending : TokenStore := (serveToken sampleCodec noTokens
  (.registerSetupPending sampleToken "principal-1" 1 .admin ⟨[], .nil⟩ (seconds 3) (seconds 1))).2

/-- The pending path returns a principal that is not active, though nothing has happened
to its token. -/
theorem pending_principal_inactive_at_once :
    ∃ principal, authenticatePendingSetupApiToken sampleCodec samplePending "token-1"
        (sampleVerifier 1) (seconds 1) = .ok (some principal) ∧
      principal.expiresAt = some (seconds 3) ∧
      apiPrincipalIsActive sampleCodec samplePending principal (seconds 1) = .ok false :=
  ⟨⟨"token-1", "principal-1", 1, .admin, ⟨[], .nil⟩, some (seconds 3), true, false⟩, by decide, rfl,
    by decide⟩

end Satelle.TokenAuthority
