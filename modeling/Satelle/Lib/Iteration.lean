import Mathlib

/-! Loops and runs, independent of what they iterate over. `foldlM_ok_iff` is
the rule for a loop that carries an accumulator and returns at its first error:
when the accumulator is a function of the elements already visited, the loop
accepts exactly the lists whose every extension step is accepted. The second
half derives facts about whole runs from facts about one step. -/
namespace Satelle.Lib

/-- A computation that may fail is bound to a continuation: the whole succeeds
exactly when both parts do. -/
theorem except_bind_ok {f : α → Except ε β} :
    (x >>= f) = .ok b ↔ ∃ a, x = .ok a ∧ f a = .ok b := by
  cases x with
  | error e | ok a => simp [bind, Except.bind]

theorem except_pure_ok : (pure a : Except ε α) = .ok b ↔ a = b := by
  simp [pure, Except.pure]

@[simp] theorem mapError_ok {x : Except ε α} : x.mapError f = .ok a ↔ x = .ok a := by
  cases x <;> simp [Except.mapError]

/-- An early return: the rest of the function decides once the check has
passed. -/
theorem check_ok [Decidable c] {x : Except ε α} :
    (if c then .error e else x) = .ok a ↔ ¬c ∧ x = .ok a := by
  by_cases failed : c
  · simp [failed]
  · simp [failed]

/-- A transaction commits the state it leaves, or rolls back. -/
def transact (before : σ) (reply : α → ρ) : Except ε (α × σ) → Except ε ρ × σ
  | .ok (value, after) => (.ok (reply value), after)
  | .error error => (.error error, before)

theorem transact_ok :
    transact before make result = (.ok reply, after) ↔
      ∃ value, result = .ok (value, after) ∧ make value = reply := by
  cases result with
  | error e => simp [transact]
  | ok result =>
    obtain ⟨value, final⟩ := result
    simp only [transact, Prod.mk.injEq, Except.ok.injEq]
    constructor
    · rintro ⟨rfl, rfl⟩
      exact ⟨value, ⟨rfl, rfl⟩, rfl⟩
    · rintro ⟨_, ⟨rfl, rfl⟩, rfl⟩
      exact ⟨rfl, rfl⟩

theorem transact_error
    (failed : (transact before make result).1 = .error e) :
    (transact before make result).2 = before := by
  cases result with
  | error e => rfl
  | ok result => cases failed

/-- What holds before a transaction, and of every state it may commit, holds after it. -/
theorem transact_keeps {result : Except ε (α × σ)} {make : α → ρ} (holds : σ → Prop)
    (start : holds before)
    (committed : ∀ value after, result = .ok (value, after) → holds after) :
    holds (transact before make result).2 := by
  cases result with
  | error e => exact start
  | ok result => exact committed result.1 result.2 rfl

theorem map_unit_ok {result : Except ε σ} :
    result.map (Prod.mk ()) = .ok (value, after) ↔ result = .ok after := by
  cases result <;> simp [Except.map]

theorem transact_unit_keeps {result : Except ε σ} {make : Unit → ρ} (holds : σ → Prop)
    (start : holds before) (committed : ∀ after, result = .ok after → holds after) :
    holds (transact before make (result.map (Prod.mk ()))).2 :=
  transact_keeps holds start fun _ after ran => committed after (map_unit_ok.mp ran)

/-- The rule of the accumulating loop. `accepts` describes the lists the loop
lets through, `stateOf` the accumulator it holds after visiting one of them.
The loop body is only examined after an accepted beginning. -/
theorem foldlM_ok_iff {body : σ → α → Except ε σ} (accepts : List α → Prop)
    (stateOf : List α → σ) (empty : accepts [])
    (closed : ∀ visited a, accepts (visited ++ [a]) → accepts visited)
    (step : ∀ visited a next, accepts visited →
      (body (stateOf visited) a = .ok next ↔
        accepts (visited ++ [a]) ∧ next = stateOf (visited ++ [a])))
    (l : List α) (final : σ) :
    l.foldlM body (stateOf []) = .ok final ↔ accepts l ∧ final = stateOf l := by
  induction l using List.reverseRecOn generalizing final with
  | nil =>
    simp only [List.foldlM_nil, empty, true_and]
    exact ⟨fun h => (Except.ok.inj h).symm, fun h => congrArg Except.ok h.symm⟩
  | append_singleton visited a ih =>
    rw [List.foldlM_append, except_bind_ok]
    simp only [List.foldlM_cons, List.foldlM_nil, bind_pure]
    constructor
    · rintro ⟨middle, before, now⟩
      obtain ⟨accepted, rfl⟩ := (ih middle).mp before
      exact (step visited a final accepted).mp now
    · rintro ⟨accepted, reached⟩
      have earlier := closed visited a accepted
      exact ⟨stateOf visited, (ih _).mpr ⟨earlier, rfl⟩,
        (step visited a final earlier).mpr ⟨accepted, reached⟩⟩

/-- A loop that converts every element succeeds when each conversion does. -/
theorem mapM_ok {f : α → Except ε β} {l : List α}
    (each : ∀ a ∈ l, f a = .ok (g a)) : l.mapM f = .ok (l.map g) := by
  induction l with
  | nil => rfl
  | cons a rest ih =>
    have head := each a (by simp)
    have tail := ih (fun b member => each b (by simp [member]))
    rw [List.mapM_cons, head, tail]
    rfl

/-- The same, without naming the results. -/
theorem mapM_exists {f : α → Except ε β} {l : List α} (each : ∀ a ∈ l, ∃ b, f a = .ok b) :
    ∃ results, l.mapM f = .ok results := by
  induction l with
  | nil => exact ⟨[], rfl⟩
  | cons a rest ih =>
    obtain ⟨b, head⟩ := each a (by simp)
    obtain ⟨others, tail⟩ := ih fun c member => each c (by simp [member])
    exact ⟨b :: others, by rw [List.mapM_cons, head, tail]; rfl⟩

/-- A loop whose turns succeed, each where it is made, succeeds. -/
theorem foldlM_exists {body : σ → α → Except ε σ} {l : List α} (keeps : σ → Prop)
    (each : ∀ a ∈ l, ∀ s, keeps s → ∃ next, body s a = .ok next ∧ keeps next) (start : keeps s) :
    ∃ after, l.foldlM body s = .ok after := by
  induction l generalizing s with
  | nil => exact ⟨s, rfl⟩
  | cons a rest ih =>
    obtain ⟨next, head, kept⟩ := each a (by simp) s start
    obtain ⟨after, tail⟩ := ih (fun b member => each b (by simp [member])) kept
    exact ⟨after, by rw [List.foldlM_cons, head]; exact tail⟩

theorem forall_mem_concat {P : α → Prop} {l : List α} :
    (∀ x ∈ l ++ [a], P x) ↔ (∀ x ∈ l, P x) ∧ P a := by
  rw [List.forall_mem_append, List.forall_mem_singleton]

theorem nodup_map_concat {l : List α} {key : α → β} :
    ((l ++ [a]).map key).Nodup ↔ (l.map key).Nodup ∧ key a ∉ l.map key := by
  rw [List.map_append, List.map_singleton, List.nodup_append_comm, List.singleton_append,
    List.nodup_cons, and_comm]

/-- A loop that checks every element has checked each. -/
theorem forM_ok {f : α → Except ε PUnit} {l : List α} :
    l.forM f = .ok done ↔ ∀ a ∈ l, f a = .ok done := by
  induction l with
  | nil => exact iff_of_true rfl (by simp)
  | cons first rest ih =>
    rw [List.forall_mem_cons, ← ih]
    exact except_bind_ok.trans ⟨fun ⟨_, ran⟩ => ran, fun ran => ⟨done, ran⟩⟩

/-- A loop each of whose turns changes every row by itself and leaves the rest. -/
theorem foldlM_rows {body : σ → α → Except ε σ} (rows : σ → List ρ) (rest : σ → φ)
    {change : α → ρ → ρ}
    (each : ∀ {s a next}, body s a = .ok next →
      rows next = (rows s).map (change a) ∧ rest next = rest s)
    {l : List α} (ran : l.foldlM body s = .ok after) :
    rows after = (rows s).map (fun row => l.foldl (fun row a => change a row) row) ∧
      rest after = rest s := by
  induction l generalizing s with
  | nil =>
    cases ran
    exact ⟨(List.map_id _).symm, rfl⟩
  | cons a later ih =>
    rw [List.foldlM_cons] at ran
    obtain ⟨middle, first, second⟩ := except_bind_ok.mp ran
    obtain ⟨changed, kept⟩ := each first
    obtain ⟨rows', kept'⟩ := ih second
    refine ⟨?_, kept'.trans kept⟩
    rw [rows', changed, List.map_map]
    rfl

/-- Every element a loop has gone over was accepted in some state of it. -/
theorem foldlM_mem {body : σ → α → Except ε σ} {l : List α} (ran : l.foldlM body s = .ok after)
    (member : a ∈ l) : ∃ before next, body before a = .ok next := by
  induction l generalizing s with
  | nil => cases member
  | cons first rest ih =>
    rw [List.foldlM_cons] at ran
    obtain ⟨middle, head, tail⟩ := except_bind_ok.mp ran
    rcases List.mem_cons.mp member with rfl | later
    · exact ⟨s, middle, head⟩
    · exact ih tail later

/-- The elements of a list that was converted and their results: each has the other. -/
theorem mapM_mem {f : α → Except ε β} {l : List α} (ran : l.mapM f = .ok results) :
    (∀ a ∈ l, ∃ b ∈ results, f a = .ok b) ∧ ∀ b ∈ results, ∃ a ∈ l, f a = .ok b := by
  induction l generalizing results with
  | nil =>
    cases ran
    simp
  | cons first rest ih =>
    rw [List.mapM_cons] at ran
    simp only [except_bind_ok] at ran
    obtain ⟨b, head, others, tail, made⟩ := ran
    cases made
    obtain ⟨forth, back⟩ := ih tail
    simp only [List.forall_mem_cons, List.exists_mem_cons_iff]
    exact ⟨⟨.inl head, fun a member => .inr (forth a member)⟩,
      .inl head, fun b member => .inr (back b member)⟩

/-- The element at the first position that passes a test is the first element
that passes it. -/
theorem find?_of_findFinIdx? {l : List α} {index : Fin l.length}
    (found : l.findFinIdx? test = some index) : l.find? test = some (l.get index) := by
  obtain ⟨here, before⟩ := List.findFinIdx?_eq_some_iff.mp found
  rw [List.find?_eq_some_iff_getElem]
  refine ⟨here, index.val, index.isLt, rfl, ?_⟩
  intro earlier less
  simpa using before ⟨earlier, Nat.lt_trans less index.isLt⟩ less

/-- The elements for which a test that may fail says yes; the first failure
ends the loop. -/
def selectM (test : α → Except ε Bool) : List α → Except ε (List α)
  | [] => .ok []
  | a :: rest => do
    let keep ← test a
    let kept ← selectM test rest
    return if keep then a :: kept else kept

/-- The loop keeps exactly the elements whose test succeeded with yes. -/
theorem mem_selectM {l kept : List α} (ran : selectM test l = .ok kept) :
    ∀ a, a ∈ kept ↔ a ∈ l ∧ test a = .ok true := by
  induction l generalizing kept with
  | nil =>
    cases ran
    simp
  | cons b rest ih =>
    obtain ⟨keep, tested, more⟩ := except_bind_ok.mp ran
    obtain ⟨later, selected, made⟩ := except_bind_ok.mp more
    cases made
    intro a
    have tail := ih selected a
    cases keep with
    | true =>
      have passes : a = b → test a = .ok true := fun same => same ▸ tested
      simp only [if_true, List.mem_cons, tail, or_and_right, and_iff_left_of_imp passes]
    | false =>
      have fails : ¬(a = b ∧ test a = .ok true) := by
        rintro ⟨rfl, yes⟩
        cases tested.symm.trans yes
      simp only [Bool.false_eq_true, if_false, List.mem_cons, tail, or_and_right, fails, false_or]

/-- A scan that finds nothing has tested everything. -/
theorem anyM_false {test : α → Except ε Bool} {l : List α} (none : l.anyM test = .ok false) :
    selectM test l = .ok [] ∧ ∀ a ∈ l, test a = .ok false := by
  induction l with
  | nil => simp [selectM]
  | cons head rest ih =>
    obtain ⟨found, tested, none⟩ := except_bind_ok.mp none
    cases found with
    | true => cases none
    | false =>
      obtain ⟨selected, others⟩ := ih none
      rw [selectM, tested, selected]
      exact ⟨rfl, List.forall_mem_cons.mpr ⟨tested, others⟩⟩

theorem check_false {x y : Except ε Bool} :
    (do if ← x then return true else y) = .ok false ↔ x = .ok false ∧ y = .ok false := by
  rcases x with e | (_ | _) <;> simp [bind, Except.bind, pure, Except.pure]

theorem foldlM_fixed {body : σ → α → Except ε σ} {l : List α}
    (fixed : ∀ a ∈ l, body s a = .ok s) : l.foldlM body s = .ok s := by
  induction l with
  | nil => rfl
  | cons a rest ih =>
    rw [List.foldlM_cons, fixed a (by simp)]
    exact ih fun b later => fixed b (by simp [later])

end Satelle.Lib
