import Mathlib

/-! Programs over a durable state. A crash stops a program between two of its effects
and leaves the state as it is then. The rules are those of weakest preconditions, with a
condition for every state that a crash can leave. -/
namespace Satelle.Lib.Crash

structure Outcome (σ ε α : Type) where
  /-- The states that a crash can leave, the first and the last one among them. -/
  cuts : List σ
  result : Except ε α
  state : σ

structure Program (σ ε α : Type) where
  run : σ → Outcome σ ε α

variable {σ ε ε' α β : Type}

def Program.andThen (program : Program σ ε α) (next : α → Program σ ε β) : Program σ ε β where
  run s :=
    let first := program.run s
    match first.result with
    | .ok value =>
      let rest := (next value).run first.state
      ⟨first.cuts ++ rest.cuts, rest.result, rest.state⟩
    | .error e => ⟨first.cuts, .error e, first.state⟩

/-- A computation that only reads. -/
def reads (f : σ → Except ε α) : Program σ ε α where
  run s := ⟨[s], f s, s⟩

instance : Monad (Program σ ε) where
  pure value := reads fun _ => .ok value
  bind := Program.andThen

def fail (e : ε) : Program σ ε α := reads fun _ => .error e

def get : Program σ ε σ := reads .ok

/-- Effects one after the other: a crash can leave what any of them has made. -/
def effects (fs : List (σ → σ)) : Program σ ε Unit where
  run s := ⟨fs.scanl (fun state f => f state) s, .ok (), fs.foldl (fun state f => f state) s⟩

def effect (f : σ → σ) : Program σ ε Unit := effects [f]

def onError (f : ε → ε') (program : Program σ ε α) : Program σ ε' α where
  run s := ⟨(program.run s).cuts, (program.run s).result.mapError f, (program.run s).state⟩

/-! ## Preconditions -/

/-- Started in `s`, the program leaves `safe` wherever it crashes, and `after` at its
end. -/
structure Reaches (safe : σ → Prop) (program : Program σ ε α) (s : σ)
    (after : Except ε α → σ → Prop) : Prop where
  cuts : ∀ left ∈ (program.run s).cuts, safe left
  ends : after (program.run s).result (program.run s).state

/-- What has to hold after the first of two programs. -/
def Onward (safe : σ → Prop) (next : α → Program σ ε β) (after : Except ε β → σ → Prop) :
    Except ε α → σ → Prop
  | .ok value, s => Reaches safe (next value) s after
  | .error e, s => after (.error e) s

variable {safe : σ → Prop} {program : Program σ ε α} {s : σ}

theorem reaches_reads (now : safe s)
    (ends : after (f s) s) : Reaches safe (reads f) s after where
  cuts := by
    intro left among
    rw [reads, List.mem_singleton] at among
    exact among ▸ now
  ends := ends

theorem reaches_pure (now : safe s) (ends : after (.ok value) s) :
    Reaches safe (pure value) s after :=
  reaches_reads now ends

theorem reaches_fail (now : safe s) (ends : after (.error e) s) :
    Reaches safe (fail e) s after :=
  reaches_reads now ends

theorem reaches_effect (now : safe s)
    (then_ : safe (f s)) (ends : after (.ok ()) (f s)) : Reaches safe (effect f) s after where
  cuts := by
    intro left among
    simp only [effect, effects, List.scanl_cons, List.scanl_nil, List.mem_cons, List.not_mem_nil,
      or_false] at among
    rcases among with rfl | rfl
    · exact now
    · exact then_
  ends := ends

theorem run_bind_ok
    (told : (program.run s).result = .ok value) :
    (program >>= next).run s = ⟨(program.run s).cuts ++ ((next value).run (program.run s).state).cuts,
      ((next value).run (program.run s).state).result,
      ((next value).run (program.run s).state).state⟩ := by
  change (program.andThen next).run s = _
  simp only [Program.andThen, told]

theorem run_bind_error
    (told : (program.run s).result = .error e) :
    (program >>= next).run s = ⟨(program.run s).cuts, .error e, (program.run s).state⟩ := by
  change (program.andThen next).run s = _
  simp only [Program.andThen, told]

theorem reaches_bind
    (first : Reaches safe program s (Onward safe next after)) :
    Reaches safe (program >>= next) s after := by
  obtain ⟨cuts, ends⟩ := first
  cases told : (program.run s).result with
  | ok value =>
    rw [told] at ends
    constructor
    · intro left among
      rw [run_bind_ok told] at among
      rcases List.mem_append.mp among with early | late
      · exact cuts left early
      · exact ends.cuts left late
    · rw [run_bind_ok told]
      exact ends.ends
  | error e =>
    rw [told] at ends
    constructor
    · rw [run_bind_error told]
      exact cuts
    · rw [run_bind_error told]
      exact ends

theorem Reaches.imp (reaches : Reaches safe program s after)
    (implies : ∀ result s, after result s → after' result s) : Reaches safe program s after' :=
  ⟨reaches.cuts, implies _ _ reaches.ends⟩

theorem reaches_onError {after : Except ε' α → σ → Prop}
    (reaches : Reaches safe program s fun result => after (result.mapError f)) :
    Reaches safe (onError f program) s after :=
  ⟨reaches.cuts, reaches.ends⟩

/-! ## Invariants -/

/-- The program keeps a condition, crash or not. -/
def Keeps (condition : σ → Prop) (program : Program σ ε α) : Prop :=
  ∀ s, condition s → Reaches condition program s fun _ => condition

variable {condition : σ → Prop}

theorem keeps_reads (f : σ → Except ε α) : Keeps condition (reads f) :=
  fun _ holds => reaches_reads holds holds

theorem keeps_bind (first : Keeps condition program)
    (then_ : ∀ value, Keeps condition (next value)) : Keeps condition (program >>= next) := by
  intro s holds
  refine reaches_bind ((first s holds).imp ?_)
  intro result s' holds'
  cases result with
  | ok value => exact then_ value s' holds'
  | error e => exact holds'

theorem keeps_onError {f : ε → ε'} (keeps : Keeps condition program) :
    Keeps condition (onError f program) :=
  fun s holds => reaches_onError (keeps s holds)

/-! ## Restarts -/

/-- Programs are started again and again, and crash each time. -/
def Restarts (programs : Program σ ε α → Prop) : σ → σ → Prop :=
  Relation.ReflTransGen fun s left => ∃ program, programs program ∧ left ∈ (program.run s).cuts

theorem restarts_keep {programs : Program σ ε α → Prop}
    (keeps : ∀ program, programs program → ∀ s, condition s → ∀ left ∈ (program.run s).cuts,
      condition left)
    (holds : condition s) (restarts : Restarts programs s left) : condition left := by
  induction restarts with
  | refl => exact holds
  | tail _ crash ih =>
    obtain ⟨program, member, among⟩ := crash
    exact keeps program member _ ih _ among

end Satelle.Lib.Crash
