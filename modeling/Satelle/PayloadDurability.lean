import Satelle.Host.QueuePayloads
import Satelle.QueueRevisions

/-! Payload files over whole runs of the daemon, with its crashes. A file is written
before the row that names it and deleted after that row has stopped waiting, and a file
that is there is never created again. So whatever a call deletes belongs to no request
that waits, even when identifiers are used twice. -/
namespace Satelle.PayloadDurability
open Satelle.Core Lib Host QueueChanges QueueHistory
open QueueRuns (finished_queue)
open QueueRevisions (samplePayload)
open StoreRefinement (emptyStore seconds)

variable {codec : PayloadCodec} {host after : PayloadHost codec} {queue final : QueueTable}
  {id : ThreadId} {name : String}

/-! ## Names -/

theorem payloadFileName_inj
    (same : payloadFileName first = payloadFileName second) : first = second := by
  have texts := congrArg String.toList same
  simp only [payloadFileName, String.toList_append, List.append_cancel_right_eq] at texts
  exact PublicId.text_inj.mp (String.toList_injective texts)

theorem validate_payloadFileName (queueRequestId : QueueRequestId) :
    validateFileName (payloadFileName queueRequestId) = .ok () := by
  have stripped : stripSuffix (payloadFileName queueRequestId) ".json" =
      some queueRequestId.text := by
    have ends : ".json".toList.isSuffixOf? (payloadFileName queueRequestId).toList =
        some queueRequestId.text.toList :=
      List.isSuffixOf?_eq_some_iff_append_eq.mpr (String.toList_append ..).symm
    rw [stripSuffix, ends, Option.map_some, String.ofList_toList]
  rw [validateFileName, stripped, Option.bind_some, PublicId.parse_text]

/-! ## Requests that have stopped waiting -/

/-- The file was that of a request that waits no longer. -/
def Ended (queue : QueueTable) (name : String) : Prop :=
  ∃ row ∈ queue.rows, row.payloadFile = name ∧ row.isQueued = false

/-- Requests stay in the table. -/
def Persists (queue later : QueueTable) : Prop :=
  ∀ row ∈ queue.rows, ∃ next ∈ later.rows, Follows row next

/-- The requests that an update takes from the queue have ended. -/
theorem updated_ended {keeps : ∀ row, (change row).queueRequestId = row.queueRequestId}
    (ran : updateQueued queue selected change keeps = .ok later)
    (leaves : ∀ row, (change row).isQueued = false)
    (found : queue.lookup key = some before) (hit : selected before = true)
    (read : later.lookup key = some row) : row.isQueued = false := by
  rw [updateQueued_ok ran, Table.lookup_updateWhere, found] at read
  cases read
  by_cases waits : before.isQueued = true
  · rw [patch, if_pos (by simp [QueueRow.waits, waits, hit])]
    exact leaves before
  · rw [patch, if_neg (by simp [QueueRow.waits, waits])]
    exact Bool.eq_false_of_not_eq_true waits

theorem withdrew_ended {state after : QueueStore} (withdrew : Withdrew state withdrawn after)
    (member : noted ∈ withdrawn) : Ended after.queue noted.1.payloadFile := by
  obtain ⟨updated, old, records, _, leaves⟩ := withdrew
  obtain ⟨⟨id, position⟩, wasOld, read⟩ := (mapM_mem records).2 _ member
  obtain ⟨row, selects, chosen⟩ := (mapM_mem old).2 _ wasOld
  simp only [except_bind_ok] at read chosen
  obtain ⟨record, required, made⟩ := read
  cases made
  obtain ⟨_, isId, _, _, _, _, made⟩ := chosen
  cases made
  obtain ⟨there, waits⟩ := List.mem_filter.mp selects
  have named : id.text = row.queueRequestId := by
    simp only [selectedId, orFail_ok] at isId
    exact PublicId.parse_eq_some.mp isId
  obtain ⟨next, isThere, own, decoded⟩ := requireQueueRecord_ok required
  refine ⟨next, isThere, (decode_ok decoded).2.1.symm, ?_⟩
  exact updated_ended updated leaves (Table.lookup_eq_some.mpr ⟨there, named.symm⟩)
    (Bool.and_eq_true_iff.mp waits).2 (Table.lookup_eq_some.mpr ⟨isThere, own⟩)

/-- What a transaction leaves to be deleted belongs to requests that it has ended. -/
theorem serve_ended {state final : QueueStore} (ran : serveQueue state call = (.ok reply, final)) :
    ∀ name ∈ endedFiles reply, Ended final.queue name := by
  intro name listed
  cases (served_of ran).done with
  | expired withdrew | credentialFailed withdrew =>
    obtain ⟨noted, member, rfl⟩ := List.mem_map.mp listed
    exact withdrew_ended withdrew member
  | cancelled before _ updated read =>
    obtain rfl := List.mem_singleton.mp listed
    obtain ⟨row, member, named, _⟩ := loadQueueRecord_ok before
    obtain ⟨next, there, same, decoded⟩ := loadQueueRecord_ok read
    refine ⟨next, there, (decode_ok decoded).2.1.symm, ?_⟩
    exact updated_ended updated (fun _ => rfl) (Table.lookup_eq_some.mpr ⟨member, named⟩)
      (by simp [named]) (Table.lookup_eq_some.mpr ⟨there, same⟩)
  | enqueued | unknown | kept | admitted | failed | advanced => cases listed

/-- A request that the worker has finished has ended, by it or before. -/
theorem finished_ended {state final : QueueStore} {update : QueueTerminalUpdate}
    (ran : serveQueue state (update.call queueRequestId now) = (.ok reply, final))
    (member : row ∈ state.queue.rows) (named : row.queueRequestId = queueRequestId.text) :
    Ended final.queue row.payloadFile := by
  have updated := finished_queue ran
  have leaves : ∀ row, (update.change row).isQueued = false := by
    intro row
    cases update <;> rfl
  obtain ⟨next, there, follows⟩ :=
    step_follows (updateQueued_update updated (terminal_move update)).step row member
  refine ⟨next, there, by rw [follows.kept], ?_⟩
  exact updated_ended updated leaves (Table.lookup_eq_some.mpr ⟨member, named⟩) (by simp [named])
    (Table.lookup_eq_some.mpr ⟨there, follows.queueRequestId.trans named⟩)

/-! ## The invariant -/

/-- The file of the request is complete. -/
def Kept (codec : PayloadCodec) (files : PayloadDirectory) (row : QueueRow) : Prop :=
  ∃ payload bytes, files.lookup row.payloadFile = some ⟨row.payloadFile, bytes⟩ ∧
    codec.encode payload = some bytes ∧ bytes.length ≤ maxQueuePayloadBytes ∧
    codec.sha256 bytes = row.payloadSha256

/-- No request that waits needs the file. -/
def Free (queue : QueueTable) (name : String) : Prop :=
  ∀ row ∈ queue.rows, row.payloadFile = name → row.isQueued = false

def Unused (queue : QueueTable) (name : String) : Prop :=
  ∀ row ∈ queue.rows, row.payloadFile ≠ name

/-- The file that a call has created, as long as it deals with it. -/
def owns : PayloadPc codec → Option String
  | .writing turn _ | .written turn => some turn.file
  | .discarding name => some name
  | .holding _ | .deleting _ => none

/-- A file of a call is as the call has left it, unless there is a request of that name,
which then has ended. -/
structure Mine (queue : QueueTable) (files : PayloadDirectory) (name : String) (bytes : Bytes) :
    Prop where
  free : Free queue name
  there : Unused queue name → files.lookup name = some ⟨name, bytes⟩

/-- What a call can rely on. -/
def Fits (queue : QueueTable) (files : PayloadDirectory) : PayloadPc codec → Prop
  | .writing turn length => turn.bytes.length ≤ maxQueuePayloadBytes ∧
      Mine queue files turn.file (turn.bytes.take length)
  | .written turn => turn.bytes.length ≤ maxQueuePayloadBytes ∧ Mine queue files turn.file turn.bytes
  | .discarding name => ∃ bytes, Mine queue files name bytes
  | .holding record => ∃ row ∈ queue.rows,
      row.queueRequestId = record.status.queueRequestId.text ∧ row.payloadFile = record.payloadFile
  | .deleting names => ∀ name ∈ names, Ended queue name

/-- What `open` can rely on. -/
def FitsMode (queue : QueueTable) (files : PayloadDirectory) : DaemonMode → Prop
  | .down | .running => True
  | .clearing names => ∀ name ∈ names, Ended queue name
  | .pruning retained entries => retained = queuedPayloadFiles queue ∧
      (∀ name ∈ entries, ∃ queueRequestId, name = payloadFileName queueRequestId) ∧
      ∀ file ∈ files.rows, file.name ∈ retained ∨ file.name ∈ entries

def owned (host : PayloadHost codec) (id : ThreadId) : Option String := (host.calls id).bind owns

structure Sound (host : PayloadHost codec) : Prop where
  idle : host.mode ≠ .running → host.calls = fun _ => none
  named : ∀ row ∈ host.state.queue.rows, ∃ queueRequestId : QueueRequestId,
    row.queueRequestId = queueRequestId.text ∧ row.payloadFile = payloadFileName queueRequestId
  filed : ∀ file ∈ host.files.rows, ∃ queueRequestId, file.name = payloadFileName queueRequestId
  kept : ∀ row ∈ host.state.queue.rows, row.isQueued = true → Kept codec host.files row
  fits : ∀ id pc, host.calls id = some pc → Fits host.state.queue host.files pc
  alone : ∀ id other name, owned host id = some name → owned host other = some name →
    Unused host.state.queue name → id = other
  opening : FitsMode host.state.queue host.files host.mode

theorem new_sound (store : Database) : Sound (.new store : PayloadHost codec) where
  idle := fun _ => rfl
  named := fun row member => absurd member List.not_mem_nil
  filed := fun file member => absurd member List.not_mem_nil
  kept := fun row member => absurd member List.not_mem_nil
  fits := fun id pc there => absurd there (by simp [PayloadHost.new])
  alone := fun id _ _ own => absurd own (by simp [owned, PayloadHost.new])
  opening := trivial

theorem unused_before (persists : Persists queue final) (unused : Unused final name) :
    Unused queue name := by
  intro row member own
  obtain ⟨next, there, follows⟩ := persists row member
  exact unused next there (by rw [follows.kept]; exact own)

theorem Fits.later (fits : Fits queue files pc) (persists : Persists queue final)
    (free : ∀ name, owns pc = some name → Free final name)
    (same : ∀ name, owns pc = some name → Unused final name →
      files'.lookup name = files.lookup name) : Fits final files' pc := by
  have later {name bytes} (own : owns pc = some name) (mine : Mine queue files name bytes) :
      Mine final files' name bytes :=
    ⟨free name own, fun none => (same name own none).trans (mine.there (unused_before persists none))⟩
  cases pc with
  | writing turn length | written turn => exact ⟨fits.1, later rfl fits.2⟩
  | discarding name => exact fits.imp fun _ => later rfl
  | holding record =>
    obtain ⟨row, member, named, own⟩ := fits
    obtain ⟨next, there, follows⟩ := persists row member
    exact ⟨next, there, follows.queueRequestId.trans named, by rw [follows.kept]; exact own⟩
  | deleting names =>
    intro name listed
    obtain ⟨row, member, own, done⟩ := fits name listed
    obtain ⟨next, there, follows⟩ := persists row member
    rw [follows.settled done] at there
    exact ⟨row, there, own, done⟩

theorem Fits.mine (fits : Fits queue files pc)
    (own : owns pc = some name) : ∃ bytes, Mine queue files name bytes := by
  cases pc with
  | writing turn length | written turn =>
    cases own
    exact ⟨_, fits.2⟩
  | discarding name =>
    cases own
    exact fits
  | holding record | deleting names => cases own

theorem Fits.free (fits : Fits queue files pc)
    (own : owns pc = some name) : Free queue name := (fits.mine own).elim fun _ mine => mine.free

theorem Persists.refl (queue : QueueTable) : Persists queue queue :=
  fun row member => ⟨row, member, .refl row⟩

/-! ## Steps that keep it -/

/-- No two requests share a file. -/
theorem Sound.unique (sound : Sound host) (first : row ∈ host.state.queue.rows)
    (second : other ∈ host.state.queue.rows) (same : row.payloadFile = other.payloadFile) :
    row = other := by
  obtain ⟨id, named, own⟩ := sound.named row first
  obtain ⟨id', named', own'⟩ := sound.named other second
  have ids : id = id' := payloadFileName_inj (own.symm.trans (same.trans own'))
  exact host.state.queue.row_unique first second (named.trans (ids ▸ named'.symm))

theorem Sound.free_of_ended (sound : Sound host) (ended : Ended host.state.queue name) :
    Free host.state.queue name := by
  obtain ⟨row, member, own, done⟩ := ended
  intro other there same
  rw [sound.unique there member (same.trans own.symm)]
  exact done

theorem used_of_ended (ended : Ended queue name) : ¬Unused queue name := by
  obtain ⟨row, member, own, _⟩ := ended
  exact fun unused => unused row member own

theorem owned_goes (host : PayloadHost codec) (id : ThreadId) (next : Option (PayloadPc codec)) :
    owned (host.goes id next) = Function.update (owned host) id (next.bind owns) := by
  funext other
  by_cases own : other = id
  · subst own
    simp [owned, PayloadHost.goes]
  · simp [owned, PayloadHost.goes, own]

/-- A call goes on to where it may be. -/
theorem Sound.goes (sound : Sound host) (running : host.mode = .running)
    (fits : ∀ pc, next = some pc → Fits host.state.queue host.files pc)
    (alone : ∀ name, next.bind owns = some name → Unused host.state.queue name →
      ∀ other, owned host other = some name → other = id) : Sound (host.goes id next) := by
  refine { sound with idle := fun stopped => absurd running stopped, fits := ?_, alone := ?_ }
  · intro other pc there
    simp only [PayloadHost.goes] at there
    split at there
    · exact fits pc there
    · exact sound.fits other pc there
  · intro first second name own own' unused
    rw [owned_goes, Function.update_apply] at own own'
    split at own <;> split at own'
    · rename_i isFirst isSecond
      exact isFirst.trans isSecond.symm
    · rename_i isFirst _
      exact isFirst.trans (alone name own unused second own').symm
    · rename_i _ isSecond
      exact (alone name own' unused first own).trans isSecond.symm
    · exact sound.alone first second name own own' unused

theorem Sound.returns (sound : Sound host) (running : host.mode = .running) (id : ThreadId) :
    Sound (host.goes id none) :=
  sound.goes running (fun _ none => nomatch none) fun _ none => nomatch none

/-- A call goes on with what it owns, or with nothing. -/
theorem Sound.proceeds (sound : Sound host) (running : host.mode = .running)
    (fits : Fits host.state.queue host.files next)
    (own : owns next = owned host id ∨ owns next = none) : Sound (host.goes id (some next)) := by
  refine sound.goes running ?_ ?_
  · rintro pc ⟨⟩
    exact fits
  · intro name isOwn unused other isOther
    rcases own with same | nothing
    · exact sound.alone other id name isOther (same.symm.trans isOwn) unused
    · exact absurd (nothing.symm.trans isOwn) (by simp)

/-- No call deals with the file, unless there is a request of that name. -/
def Unowned (host : PayloadHost codec) (name : String) : Prop :=
  ∀ id, owned host id = some name → ¬Unused host.state.queue name

/-- A call gives up its file. -/
theorem Sound.unowned (sound : Sound host) (own : owned host id = some name) :
    Unowned (host.goes id none) name := by
  intro other own' unused
  rw [owned_goes, Function.update_apply] at own'
  split at own'
  · cases own'
  · rename_i ne
    exact ne (sound.alone other id name own' own unused)

theorem owned_of (there : host.calls id = some pc) : owned host id = owns pc := by
  rw [owned, there]
  rfl

theorem opening_of_running (running : host.mode = .running) (queue : QueueTable)
    (files : PayloadDirectory) :
    FitsMode queue files host.mode := by
  rw [running]
  trivial

section Running
variable (sound : Sound host)
include sound

/-- The files stay that are needed by requests that wait and by calls. -/
theorem Sound.refiles
    (filed : ∀ file ∈ files.rows, ∃ queueRequestId, file.name = payloadFileName queueRequestId)
    (same : ∀ name, (Free host.state.queue name → ¬Unowned host name) →
      files.lookup name = host.files.lookup name)
    (opening : FitsMode host.state.queue files host.mode) :
    Sound { host with files := files } := by
  refine { sound with filed := filed, kept := ?_, fits := ?_, opening := opening }
  · intro row member waits
    obtain ⟨payload, bytes, found, rest⟩ := sound.kept row member waits
    refine ⟨payload, bytes, (same _ fun free => ?_).trans found, rest⟩
    simp [free row member rfl] at waits
  · intro id pc there
    have fits := sound.fits id pc there
    refine fits.later (.refl _) (fun _ => fits.free) fun name own unused => same name fun _ none => ?_
    exact none id (by rw [owned, there]; exact own) unused

/-- A file goes that no request that waits needs. -/
theorem Sound.deletes (free : Free host.state.queue name) (unowned : Unowned host name) :
    Sound { host with files := host.files.delete name } := by
  have fewer {file} (member : file ∈ (host.files.delete name).rows) : file ∈ host.files.rows :=
    List.mem_of_mem_filter member
  refine sound.refiles (fun file member => sound.filed file (fewer member)) ?_ ?_
  · intro other needed
    refine Table.lookup_deleteWhere_spared fun file isOther => ?_
    have ne : other ≠ name := by
      rintro rfl
      exact needed free unowned
    simp [isOther, ne]
  · have opening := sound.opening
    cases mode : host.mode with
    | down => trivial
    | running => trivial
    | clearing names =>
      rw [mode] at opening
      exact opening
    | pruning retained entries =>
      rw [mode] at opening
      exact ⟨opening.1, opening.2.1, fun file member => opening.2.2 file (fewer member)⟩

/-- The mode changes while nothing is called. -/
theorem Sound.turns (stopped : host.mode ≠ .running)
    (opening : FitsMode host.state.queue host.files mode) : Sound { host with mode := mode } :=
  { sound with idle := fun _ => sound.idle stopped, opening := opening }

/-- Requests move in the table. -/
theorem Sound.updates (updates : Updates host.state.queue state.queue)
    (opening : FitsMode state.queue host.files host.mode) :
    Sound { host with state := state } := by
  have persists : Persists host.state.queue state.queue := steps_follow (updates_steps updates)
  have origin := updates_origin updates
  refine { sound with named := ?_, kept := ?_, fits := ?_, alone := ?_, opening := opening }
  · intro row member
    obtain ⟨before, there, follows⟩ := origin row member
    rw [follows.kept]
    exact sound.named before there
  · intro row member waits
    obtain ⟨before, there, follows⟩ := origin row member
    rw [follows.kept]
    exact sound.kept before there (follows.waits waits)
  · intro id pc there
    have fits := sound.fits id pc there
    refine fits.later persists ?_ fun _ _ _ => rfl
    intro name own row member same
    obtain ⟨before, wasThere, follows⟩ := origin row member
    have done := fits.free own before wasThere (by rw [follows.kept] at same; exact same)
    rw [follows.settled done]
    exact done
  · exact fun id other name own own' unused =>
      sound.alone id other name own own' (unused_before persists unused)

variable (running : host.mode = .running)
include running

/-- A call writes more of the file that it has created. -/
theorem Sound.writes (there : host.calls id = some (.writing turn length)) (count : Nat) :
    Sound ({ host with files := host.files.write turn.file (turn.bytes.take count) }.goes id
      (some (.writing turn count))) := by
  obtain ⟨short, free, content⟩ := sound.fits id _ there
  have unowned := sound.unowned (owned_of there)
  have written : Sound { host.goes id none with
      files := host.files.write turn.file (turn.bytes.take count) } := by
    refine (sound.returns running id).refiles ?_ ?_ (opening_of_running running _ _)
    · refine List.forall_mem_map.mpr fun before wasThere => ?_
      obtain ⟨queueRequestId, named⟩ := sound.filed before wasThere
      refine ⟨queueRequestId, named ▸ ?_⟩
      rw [patch]
      split <;> rfl
    · intro name needed
      have ne : name ≠ turn.file := by
        rintro rfl
        exact needed free unowned
      change (host.files.write turn.file _).lookup name = host.files.lookup name
      rw [PayloadDirectory.write, Table.lookup_updateWhere]
      cases found : host.files.lookup name with
      | none => rfl
      | some file => simp [patch, (Table.lookup_eq_some.mp found).2, ne]
  have again : { host with files := host.files.write turn.file (turn.bytes.take count) }.goes id
      (some (.writing turn count)) = { host.goes id none with
        files := host.files.write turn.file (turn.bytes.take count) }.goes id
          (some (.writing turn count)) := by
    simp only [PayloadHost.goes, PayloadHost.mk.injEq, true_and]
    funext other
    split <;> rfl
  rw [again]
  refine written.goes running ?_ fun name own unused other isOther => ?_
  · rintro pc ⟨⟩
    refine ⟨short, free, fun unused => ?_⟩
    have found := content unused
    rw [PayloadDirectory.write, Table.lookup_updateWhere, found]
    simp [patch]
  · cases own
    exact absurd unused (unowned other isOther)

/-- A new file is nobody's, so no request waits for it. -/
theorem Sound.creates (id : ThreadId) (turn : QueuedTurn codec) : Sound (host.create id turn) := by
  unfold PayloadHost.create
  split
  · exact sound
  rename_i short
  cases inserted : host.files.insert ⟨turn.file, []⟩ with
  | none => exact sound
  | some files =>
    have found := Table.lookup_insert inserted
    have absent : host.files.lookup turn.file = none := by
      refine Table.lookup_eq_none.mpr fun file member same => ?_
      exact (Table.insert_eq_some.mp inserted).1 (List.mem_map.mpr ⟨file, member, same⟩)
    have free : Free host.state.queue turn.file := by
      intro row member own
      by_contra waits
      obtain ⟨_, _, there, _⟩ := sound.kept row member (by simpa using waits)
      rw [own, absent] at there
      cases there
    have unowned : Unowned host turn.file := by
      intro other own unused
      obtain ⟨pc, there, own⟩ := Option.bind_eq_some_iff.mp own
      obtain ⟨_, mine⟩ := (sound.fits other pc there).mine own
      cases absent.symm.trans (mine.there unused)
    have created : Sound { host with files := files } := by
      refine sound.refiles ?_ ?_ (opening_of_running running _ _)
      · rw [(Table.insert_eq_some.mp inserted).2]
        exact forall_mem_concat.mpr ⟨sound.filed, _, rfl⟩
      · intro name needed
        rw [found, if_neg]
        rintro rfl
        exact needed free unowned
    refine created.goes running ?_ fun name own unused other isOther => ?_
    · rintro pc ⟨⟩
      exact ⟨not_lt.mp short, free, fun _ => by rw [found, if_pos rfl]; rfl⟩
    · cases own
      exact absurd unused (unowned other isOther)

/-- A request is inserted when its file is complete. -/
theorem Sound.inserts {turn : QueuedTurn codec} (short : turn.bytes.length ≤ maxQueuePayloadBytes)
    (complete : host.files.lookup turn.file = some ⟨turn.file, turn.bytes⟩)
    (unused : Unused host.state.queue turn.file) (unowned : Unowned host turn.file)
    (rows : state.queue.rows = host.state.queue.rows ++ [newQueueRow turn.record enqueued expires]) :
    Sound { host with state := state } := by
  have grown {row} : row ∈ state.queue.rows ↔
      row ∈ host.state.queue.rows ∨ row = newQueueRow turn.record enqueued expires := by
    rw [rows, List.mem_append, List.mem_singleton]
  have persists : Persists host.state.queue state.queue :=
    fun row member => ⟨row, grown.mpr (.inl member), .refl row⟩
  have opening := opening_of_running running state.queue host.files
  refine { sound with named := ?_, kept := ?_, fits := ?_, alone := ?_, opening := opening }
  · intro row member
    rcases grown.mp member with before | rfl
    · exact sound.named row before
    · exact ⟨turn.queueRequestId, rfl, rfl⟩
  · intro row member waits
    rcases grown.mp member with before | rfl
    · exact sound.kept row before waits
    · exact ⟨turn.payload, turn.bytes, complete, turn.encoded, short, rfl⟩
  · intro id pc there
    have fits := sound.fits id pc there
    refine fits.later persists ?_ fun _ _ _ => rfl
    intro name own row member same
    rcases grown.mp member with before | rfl
    · exact fits.free own row before same
    · refine absurd unused (unowned id ?_)
      rw [owned, there]
      exact own.trans (congrArg some same.symm)
  · exact fun first second name own own' none =>
      sound.alone first second name own own' (unused_before persists none)

/-- The transaction of an enqueue. -/
theorem Sound.enqueues (there : host.calls id = some (.written turn)) :
    Sound (host.insert id turn) := by
  obtain ⟨short, free, content⟩ := sound.fits id _ there
  have discards : Sound (host.goes id (some (.discarding turn.file))) :=
    sound.proceeds running ⟨_, free, content⟩ (.inl (owned_of there).symm)
  unfold PayloadHost.insert
  split
  · rename_i stored state ran
    obtain ⟨outcome, done, made⟩ := transact_ok.mp ran
    cases made
    cases (enqueue_ok done).1 with
    | inserted enqueued expires _ _ _ _ _ rows =>
      have unused : Unused host.state.queue turn.file := by
        intro row member same
        obtain ⟨queueRequestId, named, own⟩ := sound.named row member
        have ids := payloadFileName_inj (own.symm.trans same)
        have unique := state.queue.unique
        rw [rows, List.map_append, List.map_singleton] at unique
        exact List.disjoint_of_nodup_append unique (List.mem_map_of_mem member)
          (List.mem_singleton.mpr (named.trans (congrArg PublicId.text ids)))
      exact (sound.returns running id).inserts running short (content unused) unused
        (sound.unowned (owned_of there)) rows
  · rename_i reply state others ran
    obtain ⟨outcome, done, made⟩ := transact_ok.mp ran
    have same : state = host.state := by
      cases (enqueue_ok done).1 with
      | full => rfl
      | replayed => rfl
      | inserted => exact absurd made.symm (others _)
    rw [same]
    exact discards
  · exact discards

/-! ## Runs -/

/-- A call deletes the file that it has created. -/
theorem Sound.discards (there : host.calls id = some pc) (own : owns pc = some name) :
    Sound ({ host with files := host.files.delete name }.goes id none) :=
  (sound.returns running id).deletes ((sound.fits id pc there).free own)
    (sound.unowned ((owned_of there).trans own))

theorem Sound.continues {pc : PayloadPc codec} (there : host.calls id = some pc)
    (ran : host.continues id pc step = some after) : Sound after := by
  have fits := sound.fits id pc there
  unfold PayloadHost.continues at ran
  split at ran
  case h_1 turn length more =>
    cases ran
    exact sound.writes running there (length + more)
  case h_2 turn length =>
    split at ran
    · rename_i done
      cases ran
      obtain ⟨short, free, content⟩ := fits
      rw [List.take_of_length_le done] at content
      exact sound.proceeds running ⟨short, free, content⟩ (.inl (owned_of there).symm)
    · cases ran
  case h_3 turn length =>
    cases ran
    exact sound.discards running there rfl
  case h_4 turn =>
    cases ran
    exact sound.enqueues running there
  case h_5 name =>
    cases ran
    exact sound.discards running there rfl
  case h_6 record update now =>
    cases ran
    obtain ⟨row, member, named, own⟩ := fits
    unfold PayloadHost.finish
    split
    · rename_i reply state served
      have updates : Updates host.state.queue state.queue :=
        serveQueue_updates (by cases update <;> exact nofun) served
      refine (sound.updates updates (opening_of_running running _ _)).proceeds running ?_ (.inr rfl)
      intro name listed
      obtain rfl := List.mem_singleton.mp listed
      exact own ▸ finished_ended served member named
    · exact sound.returns running id
  case h_7 name rest =>
    cases ran
    have ended := fits name List.mem_cons_self
    have shorter : Sound (host.goes id (some (.deleting rest))) :=
      sound.proceeds running (fun name listed => fits name (List.mem_cons_of_mem _ listed)) (.inr rfl)
    exact shorter.deletes (sound.free_of_ended ended) fun _ _ => used_of_ended ended
  case h_8 =>
    cases ran
    exact sound.returns running id
  case h_9 => cases ran

theorem Sound.begins {step : PayloadStep codec}
    (ran : host.begins id step = some after) : Sound after := by
  unfold PayloadHost.begins at ran
  split at ran
  · cases ran
    exact sound.creates running id _
  · split at ran
    · rename_i call service
      cases ran
      unfold PayloadHost.transact
      split
      · rename_i reply state served
        have updates : Updates host.state.queue state.queue :=
          serveQueue_updates (by rintro _ _ rfl; cases service) served
        exact (sound.updates updates (opening_of_running running _ _)).proceeds running
          (serve_ended served) (.inr rfl)
      · exact sound
    · cases ran
  · cases ran
    unfold PayloadHost.take
    split
    · rename_i record read
      refine sound.proceeds running ?_ (.inr rfl)
      unfold firstQueuedRequest at read
      split at read
      · cases read
      · simp only [except_bind_ok] at read
        obtain ⟨_, _, _, required, made⟩ := read
        cases made
        obtain ⟨row, member, _, decoded⟩ := requireQueueRecord_ok required
        obtain ⟨_, own, named⟩ := decode_ok decoded
        exact ⟨row, member, named, own.symm⟩
    · exact sound
    · exact sound
  · cases ran

end Running

theorem mem_queuedPayloadFiles : name ∈ queuedPayloadFiles queue ↔
    ∃ row ∈ queue.rows, row.isQueued = true ∧ row.payloadFile = name := by
  simp [queuedPayloadFiles, and_assoc]

/-- The directory holds the files of the requests that wait and no others. -/
def Exact (host : PayloadHost codec) : Prop :=
  ∀ name, (∃ file ∈ host.files.rows, file.name = name) ↔
    ∃ row ∈ host.state.queue.rows, row.isQueued = true ∧ row.payloadFile = name

/-- `retain_only` keeps the invariant, and has left only what is needed when it is
through. -/
theorem Sound.prunes (sound : Sound host) (pruning : host.mode = .pruning retained entries) :
    Sound (host.prune retained entries) ∧
      ((host.prune retained entries).mode = .running → Exact (host.prune retained entries)) := by
  have stopped : host.mode ≠ .running := by simp [pruning]
  have opening := sound.opening
  rw [pruning] at opening
  obtain ⟨retains, entered, covered⟩ := opening
  cases entries with
  | nil =>
    refine ⟨sound.turns stopped trivial, fun _ name => ?_⟩
    constructor
    · rintro ⟨file, member, rfl⟩
      have needed := (covered file member).resolve_right List.not_mem_nil
      rw [retains] at needed
      exact mem_queuedPayloadFiles.mp needed
    · rintro ⟨row, member, waits, rfl⟩
      obtain ⟨_, _, found, _⟩ := sound.kept row member waits
      obtain ⟨there, named⟩ := Table.lookup_eq_some.mp found
      exact ⟨_, there, named⟩
  | cons name rest =>
    obtain ⟨queueRequestId, rfl⟩ := entered name List.mem_cons_self
    have later : ∀ name ∈ rest, ∃ queueRequestId, name = payloadFileName queueRequestId :=
      fun name listed => entered name (List.mem_cons_of_mem _ listed)
    simp only [PayloadHost.prune, validate_payloadFileName]
    split
    · rename_i needed
      refine ⟨sound.turns stopped ⟨retains, later, ?_⟩, fun running => nomatch running⟩
      intro file member
      rcases covered file member with kept | listed
      · exact .inl kept
      · rcases List.mem_cons.mp listed with same | below
        · exact .inl (same ▸ needed)
        · exact .inr below
    · rename_i orphan
      have free : Free host.state.queue (payloadFileName queueRequestId) := by
        intro row member same
        by_contra waits
        refine orphan ?_
        rw [retains]
        exact mem_queuedPayloadFiles.mpr ⟨row, member, by simpa using waits, same⟩
      have deleted := sound.deletes free fun id own => by simp [owned, sound.idle stopped] at own
      refine ⟨deleted.turns stopped ⟨retains, later, ?_⟩, fun running => nomatch running⟩
      intro file member
      obtain ⟨wasThere, other⟩ := List.mem_filter.mp member
      rcases covered file wasThere with kept | listed
      · exact .inl kept
      · rcases List.mem_cons.mp listed with same | below
        · simp [same] at other
        · exact .inr below

/-- What a step of `open` leads to. -/
theorem Sound.opens (sound : Sound host) (ran : host.opens host.mode step = some after) :
    Sound after ∧ (after.mode = .running → Exact after) := by
  have stopped : host.mode ≠ .running := by
    intro running
    rw [running] at ran
    cases step <;> cases ran
  have opening := sound.opening
  unfold PayloadHost.opens at ran
  split at ran
  case h_1 mode observedAt isDown =>
    split at ran
    · rename_i reply state served
      cases ran
      have updates : Updates host.state.queue state.queue := serveQueue_updates (by simp) served
      have moved := sound.updates updates (by rw [isDown]; trivial)
      exact ⟨moved.turns stopped (serve_ended served), fun running => nomatch running⟩
    · cases ran
      exact ⟨sound, fun running => absurd running stopped⟩
  case h_2 mode name rest isClearing =>
    cases ran
    rw [isClearing] at opening
    have ended := opening name List.mem_cons_self
    have deleted := sound.deletes (sound.free_of_ended ended) fun _ _ => used_of_ended ended
    exact ⟨deleted.turns stopped fun name listed => opening name (List.mem_cons_of_mem _ listed),
      fun running => nomatch running⟩
  case h_3 mode name rest isClearing =>
    cases ran
    rw [isClearing] at opening
    exact ⟨sound.turns stopped fun name listed => opening name (List.mem_cons_of_mem _ listed),
      fun running => nomatch running⟩
  case h_4 mode isClearing =>
    cases ran
    refine ⟨sound.turns stopped ⟨rfl, ?_, ?_⟩, fun running => nomatch running⟩
    · exact List.forall_mem_map.mpr sound.filed
    · exact fun file member => .inr (List.mem_map_of_mem member)
  case h_5 mode retained entries isPruning =>
    cases ran
    exact sound.prunes isPruning
  case h_6 => cases ran

theorem perform_sound (sound : Sound host) (ran : host.perform action = some after) :
    Sound after ∧ (host.mode ≠ .running → after.mode = .running → Exact after) := by
  cases action with
  | store store =>
    cases ran
    exact ⟨sound.updates .refl sound.opening, fun stopped running => absurd running stopped⟩
  | call id step =>
    simp only [PayloadHost.perform] at ran
    split at ran
    · rename_i running
      refine ⟨?_, fun stopped => absurd running stopped⟩
      cases there : host.calls id with
      | none =>
        rw [there] at ran
        exact sound.begins running ran
      | some pc =>
        rw [there] at ran
        exact sound.continues running there ran
    · cases ran
  | start step =>
    obtain ⟨kept, exact⟩ := sound.opens ran
    exact ⟨kept, fun _ => exact⟩
  | crash =>
    cases ran
    refine ⟨{ sound with idle := fun _ => rfl, fits := ?_, alone := ?_, opening := trivial },
      fun _ running => nomatch running⟩
    · intro id pc there
      cases there
    · intro id other name own
      cases own

def PayloadRun : PayloadHost codec → PayloadHost codec → Prop :=
  Relation.ReflTransGen fun host after => ∃ action, host.perform action = some after

theorem run_sound (sound : Sound host) (run : PayloadRun host after) : Sound after := by
  induction run with
  | refl => exact sound
  | tail _ step ih =>
    obtain ⟨_, ran⟩ := step
    exact (perform_sound ih ran).1

def samplePayloadCodec : PayloadCodec where
  encode payload := if payload = samplePayload "key" then some [1, 2, 3] else none
  decode bytes := if bytes = [1, 2, 3] then some (samplePayload "key") else none
  roundTrip := by
    intro payload bytes encoded
    split at encoded
    · rename_i isSample
      cases encoded
      exact (if_pos rfl).trans (congrArg some isSample.symm)
    · cases encoded
  sha256 bytes := if bytes = [1, 2, 3] then "complete" else "partial"

def sampleQueuedTurn : QueuedTurn samplePayloadCodec where
  payload := samplePayload "key"
  bytes := [1, 2, 3]
  encoded := rfl
  queueRequestId := sampleQueueRequestId
  leaseKey := "host:desktop"
  now := seconds 1
  ttlMs := 60000
  maxDepth := sampleDepth

def opening : List (PayloadAction samplePayloadCodec) :=
  [.start (.expire (seconds 2)), .start .retain, .start .prune, .start .prune]

def attempting (count : Nat) : List (PayloadAction samplePayloadCodec) :=
  [.call 0 (.create sampleQueuedTurn), .call 0 (.write count), .call 0 .sync, .call 0 .insert,
    .crash]

/-- An action that is not possible changes nothing. -/
def performed (host : PayloadHost codec) (action : PayloadAction codec) : PayloadHost codec :=
  (host.perform action).getD host

theorem run_performed (actions : List (PayloadAction codec)) (host : PayloadHost codec) :
    PayloadRun host (actions.foldl performed host) := by
  induction actions generalizing host with
  | nil => exact .refl
  | cons action rest ih =>
    refine Relation.ReflTransGen.trans ?_ (ih (performed host action))
    cases ran : host.perform action with
    | none =>
      rw [performed, ran]
      exact .refl
    | some after =>
      rw [performed, ran]
      exact .single ⟨action, ran⟩

def reopenedHost : PayloadHost samplePayloadCodec :=
  (opening ++ attempting 2 ++ opening ++ attempting 3 ++ opening).foldl performed (.new emptyStore)

end Satelle.PayloadDurability
