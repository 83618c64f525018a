import Satelle.Host.TurnQueue
import Satelle.QueueHistory

/-! The order in which the worker serves the desktops of a Host. Within one
desktop the texts are compared without their final `Z`, across desktops with it,
and the two orders differ when one text without its `Z` begins the other. -/
namespace Satelle.QueueOrder
open Satelle.Core Lib Host QueueEntries QueueHistory StoreRefinement

/-- Neither text begins the other without being equal to it, so that the `Z`
decides nothing. -/
def Comparable (a b : QueueRow) : Prop :=
  (Rfc3339.trimZ a.enqueuedAt).toList <+: (Rfc3339.trimZ b.enqueuedAt).toList →
    Rfc3339.trimZ a.enqueuedAt = Rfc3339.trimZ b.enqueuedAt

instance : Decidable (Comparable a b) := inferInstanceAs (Decidable (_ → _))

/-- The texts by which the rows of several desktops are compared. -/
def arrival (row : QueueRow) : String ×ₗ String := toLex (row.enqueuedAt, row.queueRequestId)

theorem record_arrival (encodes : Encodes row entry) :
    (entry.record queue row).arrival = arrival row := by
  rw [arrival, encodes.queueRequestId]
  rfl

theorem enqueuedAt_lt (first : Encodes a entry) (second : Encodes b entry')
    (comparable : Comparable a b) (less : entry.enqueuedAt < entry'.enqueuedAt) :
    a.enqueuedAt < b.enqueuedAt := by
  refine (Rfc3339.format_lt_iff first.enqueuedAt second.enqueuedAt less).mpr fun begins => ?_
  have same := (Rfc3339.trimZ_inj first.enqueuedAt second.enqueuedAt).mp (comparable begins)
  exact absurd less (same ▸ lt_irrefl _)

/-- Where no text begins another, both orders are that of arrival. -/
theorem arrival_lt_iff (first : Encodes a entry) (second : Encodes b entry')
    (comparable : Comparable a b) (comparable' : Comparable b a) :
    arrival a < arrival b ↔ a.fifoKey < b.fifoKey := by
  rw [fifoKey_lt_iff first second, arrival, arrival, Prod.Lex.toLex_lt_toLex]
  rcases lt_trichotomy entry.enqueuedAt entry'.enqueuedAt with less | same | more
  · simp [enqueuedAt_lt first second comparable less, less]
  · have texts : a.enqueuedAt = b.enqueuedAt := by
      have formatted := first.enqueuedAt
      rw [same, second.enqueuedAt] at formatted
      exact (Option.some.inj formatted).symm
    simp [same, texts]
  · have texts := enqueuedAt_lt second first comparable' more
    simp [lt_asymm more, lt_asymm texts, (ne_of_lt more).symm, (ne_of_lt texts).symm]

/-- The first requests of the desktops. -/
def Head (queue : QueueTable) (owner : String) (desktopBindings : List String)
    (row : QueueRow) : Prop :=
  ∃ binding ∈ desktopBindings, (fifoOf queue (owner ++ ":" ++ binding)).head? = some row

/-- What the loop has found after some desktops. -/
def Found (queue : QueueTable) (owner : String) (visited : List String) :
    Option StoredQueueRecord → Prop
  | none => ∀ row, ¬Head queue owner visited row
  | some record => ∃ row, Head queue owner visited row ∧
      decodeQueueRecord queue row = .ok record ∧
      ∀ other, Head queue owner visited other → row.fifoKey ≤ other.fifoKey

theorem head_concat : Head queue owner (visited ++ [binding]) row ↔
    Head queue owner visited row ∨
      (fifoOf queue (owner ++ ":" ++ binding)).head? = some row := by
  simp [Head, or_and_right, exists_or]

theorem head_member (head : Head queue owner visited row) : row ∈ queue.rows := by
  obtain ⟨_, _, first⟩ := head
  exact (mem_fifoOf.mp (List.mem_of_mem_head? first)).1

/-- One desktop of the loop. -/
theorem considerBinding_found (sound : Sound state.queue)
    (identity : hostIdentity state.store = .ok host)
    (comparable : ∀ a b, Head state.queue host.text (visited ++ [binding]) a →
      Head state.queue host.text (visited ++ [binding]) b → Comparable a b)
    (found : Found state.queue host.text visited next) :
    ∃ after, considerBinding state next binding = .ok after ∧
      Found state.queue host.text (visited ++ [binding]) after := by
  have lease : queueLeaseKey state.store binding = .ok (host.text ++ ":" ++ binding) := by
    rw [queueLeaseKey, identity]
    rfl
  have first := firstQueuedRequest_sound sound (host.text ++ ":" ++ binding)
  unfold considerBinding
  simp only [except_bind_ok]
  cases head : (fifoOf state.queue (host.text ++ ":" ++ binding)).head? with
  | none =>
    rw [head] at first
    refine ⟨next, ⟨_, lease, none, first, rfl⟩, ?_⟩
    have same : ∀ row, Head state.queue host.text (visited ++ [binding]) row ↔
        Head state.queue host.text visited row := by
      intro row
      rw [head_concat, head]
      simp
    cases next with
    | none => exact fun row => (same row).not.mpr (found row)
    | some record =>
      obtain ⟨row, isHead, decoded, least⟩ := found
      exact ⟨row, (same row).mpr isHead, decoded, fun other there => least other ((same other).mp there)⟩
  | some row =>
    have isHead : Head state.queue host.text (visited ++ [binding]) row :=
      head_concat.mpr (.inr head)
    obtain ⟨entry, encodes, decoded⟩ := decode_sound sound (head_member isHead)
    rw [head, Option.mapM_some, decoded] at first
    refine ⟨_, ⟨_, lease, some (entry.record state.queue row), first, rfl⟩, ?_⟩
    dsimp only
    cases next with
    | none =>
      refine ⟨row, isHead, decoded, fun other there => ?_⟩
      rcases head_concat.mp there with earlier | now
      · exact absurd earlier (found other)
      · cases head.symm.trans now
        exact le_refl _
    | some current =>
      obtain ⟨best, bestHead, bestDecoded, least⟩ := found
      have bestIn : Head state.queue host.text (visited ++ [binding]) best :=
        head_concat.mpr (.inl bestHead)
      obtain ⟨entry', encodes', decoded'⟩ := decode_sound sound (head_member bestIn)
      obtain rfl : current = entry'.record state.queue best := by
        rw [bestDecoded] at decoded'
        exact Except.ok.inj decoded'
      have agree := arrival_lt_iff encodes encodes' (comparable row best isHead bestIn)
        (comparable best row bestIn isHead)
      simp only [StoredQueueRecord.replaces, Option.all_some, record_arrival encodes,
        record_arrival encodes', agree, decide_eq_true_eq]
      split
      · rename_i less
        refine ⟨row, isHead, decoded, fun other there => ?_⟩
        rcases head_concat.mp there with earlier | now
        · exact le_trans (le_of_lt less) (least other earlier)
        · cases head.symm.trans now
          exact le_refl _
      · rename_i kept
        refine ⟨best, bestIn, bestDecoded, fun other there => ?_⟩
        rcases head_concat.mp there with earlier | now
        · exact least other earlier
        · cases head.symm.trans now
          exact not_lt.mp kept

theorem nextQueuedTurn_found (sound : Sound state.queue)
    (identity : hostIdentity state.store = .ok host)
    (comparable : ∀ a b, Head state.queue host.text desktopBindings a →
      Head state.queue host.text desktopBindings b → Comparable a b) :
    ∃ next, nextQueuedTurn state desktopBindings = .ok next ∧
      Found state.queue host.text desktopBindings next := by
  induction desktopBindings using List.reverseRecOn with
  | nil =>
    refine ⟨none, rfl, ?_⟩
    rintro row ⟨_, member, _⟩
    cases member
  | append_singleton visited binding ih =>
    have within : ∀ {row}, Head state.queue host.text visited row →
        Head state.queue host.text (visited ++ [binding]) row :=
      fun there => head_concat.mpr (.inl there)
    obtain ⟨next, ran, found⟩ := ih fun a b first second => comparable a b (within first) (within second)
    obtain ⟨after, considered, found⟩ := considerBinding_found sound identity comparable found
    refine ⟨after, ?_, found⟩
    unfold nextQueuedTurn at ran ⊢
    rw [List.foldlM_append, except_bind_ok]
    refine ⟨next, ran, ?_⟩
    rw [List.foldlM_cons, considered]
    rfl

/-- The requests of the configured desktops that wait. -/
def Waiting (queue : QueueTable) (owner : String) (desktopBindings : List String)
    (row : QueueRow) : Prop :=
  ∃ binding ∈ desktopBindings, row ∈ queuedOf queue (owner ++ ":" ++ binding)

/-- The request that waits longest at its desktop is not later than any other. -/
theorem head_of_waiting (waiting : Waiting queue owner desktopBindings row) :
    ∃ head, Head queue owner desktopBindings head ∧
      (head = row ∨ head.fifoKey < row.fifoKey) := by
  obtain ⟨binding, configured, queued⟩ := waiting
  have member : row ∈ fifoOf queue (owner ++ ":" ++ binding) :=
    mem_fifoOf.mpr (mem_queuedOf.mp queued)
  have sorted := fifoOf_strict queue (owner ++ ":" ++ binding)
  cases shape : fifoOf queue (owner ++ ":" ++ binding) with
  | nil =>
    rw [shape] at member
    cases member
  | cons head rest =>
    refine ⟨head, ⟨binding, configured, by rw [shape]; rfl⟩, ?_⟩
    rw [shape] at member sorted
    rcases List.mem_cons.mp member with rfl | later
    · exact .inl rfl
    · exact .inr ((List.pairwise_cons.mp sorted).1 row later)

def sampleDesktopRecord (queueRequestId : QueueRequestId) (desktop : String)
    (instant : OffsetDateTime) : NewQueueRecord :=
  { sampleQueueRecord queueRequestId desktop instant with leaseKey := "host-test:" ++ desktop }

/-- The request of the second desktop comes after that of the first. -/
def sampleDesktops (earlier later : OffsetDateTime) : QueueStore :=
  (serveQueue (serveQueue ⟨emptyStore, .empty⟩
    (.enqueue (sampleDesktopRecord sampleQueueRequestId "a" earlier) sampleDepth)).2
    (.enqueue (sampleDesktopRecord sampleNextQueueRequestId "b" later) sampleDepth)).2

theorem sampleDesktops_reachable (earlier later : OffsetDateTime) :
    ReachableQueue (sampleDesktops earlier later) := by
  refine ⟨⟨emptyStore, .empty⟩, rfl, .tail (.single ⟨.queue _, ?_, rfl⟩) ⟨.queue _, ?_, rfl⟩⟩
  · exact lt_add_of_pos_right earlier (by decide)
  · exact lt_add_of_pos_right later (by decide)

/-- What the worker is given depends on the identity of the Host and the queue. -/
theorem nextQueuedTurn_congr
    (identity : state.store.daemonIdentity = other.store.daemonIdentity)
    (rows : state.queue.rows = other.queue.rows) :
    nextQueuedTurn state desktopBindings = nextQueuedTurn other desktopBindings := by
  have queue : state.queue = other.queue := Table.ext rows
  have considered : considerBinding state = considerBinding other := by
    funext next binding
    simp only [considerBinding, queueLeaseKey, hostIdentity, identity, queue]
  rw [nextQueuedTurn, nextQueuedTurn, considered]

def sampleFirstRow : QueueRow :=
  newQueueRow (sampleDesktopRecord sampleQueueRequestId "a" (seconds 1)) "1970-01-01T00:00:01Z"
    "1970-01-01T00:01:01Z"

def sampleSecondRow : QueueRow :=
  newQueueRow (sampleDesktopRecord sampleNextQueueRequestId "b" (seconds 1 + 500000000))
    "1970-01-01T00:00:01.5Z" "1970-01-01T00:01:01.5Z"

/-- The two requests half a second apart. -/
def sampleFractions : QueueStore := sampleDesktops (seconds 1) (seconds 1 + 500000000)

end Satelle.QueueOrder
