import Satelle.Lib.Iteration

/-! A relational table with a primary key, as a list of rows in insertion
order. No two rows of a table have one key, so a statement that selects by the
key touches at most one row. The predicates of the `Where` operations are the
conditions of the corresponding statements. -/
namespace Satelle.Lib

structure Table {κ : Type} (ρ : Type) (key : ρ → κ) where
  rows : List ρ
  unique : (rows.map key).Nodup

/-- What an update makes of one row: a row that fails the condition stays. -/
def patch (p : ρ → Bool) (f : ρ → ρ) (row : ρ) : ρ := if p row then f row else row

/-- An update that hits one row puts another in its place. -/
theorem map_patch_one [DecidableEq ρ] {rows : List ρ}
    (hits : p x = true) (only : ∀ other ∈ rows, p other = true → other = x) :
    rows.map (patch p f) = rows.map fun row => if row = x then f x else row := by
  refine List.map_congr_left fun row member => ?_
  unfold patch
  by_cases same : row = x
  · rw [if_pos same, same, if_pos hits]
  · rw [if_neg same, if_neg fun hits => same (only row member hits)]

/-- Of two conditions the narrower one holds as often as the wider one. -/
theorem countP_eq_iff {rows : List ρ}
    (narrower : ∀ row ∈ rows, p row = true → q row = true) :
    rows.countP p = rows.countP q ↔ ∀ row ∈ rows, q row = true → p row = true := by
  have same : rows.countP (fun row => q row && p row) = rows.countP p :=
    List.countP_congr fun row member => by simpa using narrower row member
  rw [List.countP_eq_countP_filter_add rows q p, List.countP_filter, List.countP_filter, same,
    Nat.left_eq_add, List.countP_eq_zero]
  simp

/-- A series of updates none of which changes a row that one of them has changed:
either no condition holds of the row, or one does and its update is what remains. -/
theorem foldl_patch (p : ι → ρ → Bool) (f : ι → ρ → ρ) (items : List ι)
    (once : ∀ x y, p x row = true → p y (f x row) = false) :
    ((∀ x ∈ items, p x row = false) ∧
      items.foldl (fun row x => patch (p x) (f x) row) row = row) ∨
    ∃ x ∈ items, p x row = true ∧
      items.foldl (fun row x => patch (p x) (f x) row) row = f x row := by
  induction items with
  | nil => exact .inl ⟨by simp, rfl⟩
  | cons x rest ih =>
    by_cases hit : p x row = true
    · -- What `x` has changed, no later update changes.
      have stays : ∀ items : List ι,
          items.foldl (fun row x => patch (p x) (f x) row) (f x row) = f x row := by
        intro items
        induction items with
        | nil => rfl
        | cons y _ ih => simpa [patch, once x y hit] using ih
      refine .inr ⟨x, List.mem_cons_self, hit, ?_⟩
      simpa [patch, hit] using stays rest
    · have spared : p x row = false := by simpa using hit
      rw [List.foldl_cons, patch, if_neg hit]
      rcases ih with ⟨none, same⟩ | ⟨y, later, met, made⟩
      · exact .inl ⟨List.forall_mem_cons.mpr ⟨spared, none⟩, same⟩
      · exact .inr ⟨y, List.mem_cons_of_mem _ later, met, made⟩

namespace Table
variable {κ ρ : Type} {key : ρ → κ} {table : Table ρ key}

@[ext] theorem ext {a b : Table ρ key} (same : a.rows = b.rows) : a = b := by
  cases a
  cases b
  cases same
  rfl

def empty : Table ρ key := ⟨[], List.nodup_nil⟩

def lookup [DecidableEq κ] (table : Table ρ key) (k : κ) : Option ρ :=
  table.rows.find? (fun row => key row = k)

private theorem unique_append {rows : List ρ} (unique : (rows.map key).Nodup)
    (fresh : key row ∉ rows.map key) : ((rows ++ [row]).map key).Nodup :=
  nodup_map_concat.mpr ⟨unique, fresh⟩

/-- Fails when the key is taken. -/
def insert [DecidableEq κ] (table : Table ρ key) (row : ρ) : Option (Table ρ key) :=
  if fresh : key row ∉ table.rows.map key then
    some ⟨table.rows ++ [row], unique_append table.unique fresh⟩
  else none

def deleteWhere (table : Table ρ key) (p : ρ → Bool) : Table ρ key where
  rows := table.rows.filter (fun row => !p row)
  unique := table.unique.sublist (List.filter_sublist.map key)

private theorem map_key_patch (keeps : ∀ row, key (f row) = key row) (p : ρ → Bool)
    (rows : List ρ) : (rows.map (patch p f)).map key = rows.map key := by
  rw [List.map_map]
  refine List.map_congr_left fun row _ => ?_
  by_cases hit : p row = true <;> simp [patch, hit, keeps]

/-- An update may not touch the key. -/
def updateWhere (table : Table ρ key) (p : ρ → Bool) (f : ρ → ρ)
    (keeps : ∀ row, key (f row) = key row) : Table ρ key where
  rows := table.rows.map (patch p f)
  unique := map_key_patch keeps p table.rows ▸ table.unique

/-- An update that has to change exactly one row. -/
def updateOne (table : Table ρ key) (p : ρ → Bool) (f : ρ → ρ)
    (keeps : ∀ row, key (f row) = key row) : Option (Table ρ key) :=
  if table.rows.countP p = 1 then some (table.updateWhere p f keeps) else none

/-- A deletion that has to remove exactly one row. -/
def deleteOne (table : Table ρ key) (p : ρ → Bool) : Option (Table ρ key) :=
  if table.rows.countP p = 1 then some (table.deleteWhere p) else none

theorem row_unique (first : a ∈ table.rows) (second : b ∈ table.rows) (same : key a = key b) :
    a = b :=
  List.inj_on_of_nodup_map table.unique first second same

@[simp] theorem rows_empty : (empty : Table ρ key).rows = [] := rfl

@[simp] theorem rows_updateWhere :
    (table.updateWhere p f keeps).rows = table.rows.map (patch p f) := rfl

@[simp] theorem rows_deleteWhere :
    (table.deleteWhere p).rows = table.rows.filter (fun row => !p row) := rfl

theorem deleteWhere_none : (table.deleteWhere fun _ => false) = table :=
  ext (List.filter_eq_self.mpr fun _ _ => rfl)

theorem updateOne_eq_some :
    table.updateOne p f keeps = some after ↔
      table.rows.countP p = 1 ∧ after = table.updateWhere p f keeps := by
  unfold updateOne
  split
  · simp_all [eq_comm]
  · simp_all

theorem deleteOne_eq_some :
    table.deleteOne p = some after ↔
      table.rows.countP p = 1 ∧ after = table.deleteWhere p := by
  unfold deleteOne
  split
  · simp_all [eq_comm]
  · simp_all

/-- The row a statement that changed exactly one row has changed. -/
theorem exists_of_countP_one {rows : List ρ} (one : rows.countP p = 1) :
    ∃ row ∈ rows, p row = true ∧ ∀ other ∈ rows, p other = true → other = row := by
  rw [List.countP_eq_length_filter] at one
  obtain ⟨row, only⟩ := List.length_eq_one_iff.mp one
  have member : row ∈ rows.filter p := by simp [only]
  refine ⟨row, (List.mem_filter.mp member).1, (List.mem_filter.mp member).2, ?_⟩
  intro other there hit
  have also : other ∈ rows.filter p := List.mem_filter.mpr ⟨there, hit⟩
  simpa [only] using also

/-- The row a statement that deleted exactly one row has deleted. -/
theorem exists_of_deleteOne {after : Table ρ key} (deleted : table.deleteOne p = some after) :
    ∃ row ∈ table.rows, p row = true ∧
      ∀ other, other ∈ after.rows ↔ other ∈ table.rows ∧ other ≠ row := by
  obtain ⟨one, rfl⟩ := deleteOne_eq_some.mp deleted
  obtain ⟨row, member, hit, only⟩ := exists_of_countP_one one
  refine ⟨row, member, hit, fun other => ?_⟩
  simp only [rows_deleteWhere, List.mem_filter, Bool.not_eq_true']
  constructor
  · rintro ⟨there, spared⟩
    refine ⟨there, ?_⟩
    rintro rfl
    rw [hit] at spared
    cases spared
  · rintro ⟨there, ne⟩
    refine ⟨there, ?_⟩
    by_contra met
    rw [Bool.not_eq_false] at met
    exact ne (only other there met)

/-- A condition that one row meets and no other. -/
theorem filter_eq_singleton (member : row ∈ table.rows) (hit : p row = true)
    (only : ∀ other ∈ table.rows, p other = true → other = row) : table.rows.filter p = [row] := by
  have distinct : (table.rows.filter p).Nodup := (List.Nodup.of_map key table.unique).filter p
  rw [← List.perm_singleton, List.perm_ext_iff_of_nodup distinct (List.nodup_singleton row)]
  intro other
  rw [List.mem_filter, List.mem_singleton]
  constructor
  · rintro ⟨there, met⟩
    exact only other there met
  · rintro rfl
    exact ⟨member, hit⟩

/-- A table whose rows are all one. -/
theorem length_le_one (sole : ∀ row ∈ table.rows, ∀ other ∈ table.rows, other = row) :
    table.rows.length ≤ 1 := by
  have unique := table.unique
  cases rows : table.rows with
  | nil => simp
  | cons first rest =>
    cases rest with
    | nil => simp
    | cons second more =>
      rw [rows] at sole unique
      rw [sole first (by simp) second (by simp)] at unique
      simp at unique

section Lookup
variable [DecidableEq κ]

variable {after : Table ρ key} {k : κ}

theorem insert_eq_some {row : ρ} :
    table.insert row = some after ↔
      key row ∉ table.rows.map key ∧ after.rows = table.rows ++ [row] := by
  unfold insert
  split
  · rename_i fresh
    simp only [Option.some.injEq, fresh, not_false_eq_true, true_and]
    exact ⟨fun h => h ▸ rfl, fun h => Table.ext h.symm⟩
  · simp_all

theorem lookup_eq_some : table.lookup k = some row ↔ row ∈ table.rows ∧ key row = k := by
  constructor
  · intro found
    exact ⟨List.mem_of_find?_eq_some found, by simpa using List.find?_some found⟩
  · rintro ⟨member, rfl⟩
    cases found : table.lookup (key row) with
    | none =>
      have missing := List.find?_eq_none.mp found row member
      simp at missing
    | some other =>
      have same : key other = key row := by simpa using List.find?_some found
      rw [row_unique (List.mem_of_find?_eq_some found) member same]

theorem lookup_eq_none : table.lookup k = none ↔ ∀ row ∈ table.rows, key row ≠ k := by
  simp [lookup, List.find?_eq_none]

theorem lookup_insert (inserted : table.insert row = some after) (k : κ) :
    after.lookup k = if key row = k then some row else table.lookup k := by
  obtain ⟨fresh, rows⟩ := insert_eq_some.mp inserted
  by_cases same : key row = k
  · rw [if_pos same, lookup_eq_some]
    exact ⟨by simp [rows], same⟩
  · rw [if_neg same]
    unfold lookup
    rw [rows, List.find?_append]
    simp [same]

/-- An insertion leaves what is there. -/
theorem lookup_insert_of_some (inserted : table.insert row = some after)
    (there : table.lookup k = some found) : after.lookup k = some found := by
  obtain ⟨fresh, _⟩ := insert_eq_some.mp inserted
  obtain ⟨member, keyed⟩ := lookup_eq_some.mp there
  have other : key row ≠ k := by
    intro same
    exact fresh (same.trans keyed.symm ▸ List.mem_map_of_mem member)
  rw [lookup_insert inserted, if_neg other, there]

theorem lookup_updateWhere (k : κ) :
    (table.updateWhere p f keeps).lookup k = (table.lookup k).map (patch p f) := by
  have kept : ∀ row, key (patch p f row) = key row := by
    intro row
    by_cases hit : p row = true <;> simp [patch, hit, keeps]
  unfold lookup
  rw [rows_updateWhere, List.find?_map]
  simp [kept]

/-- What an update keeps is read as before. -/
theorem map_lookup_updateWhere
    (same : ∀ row, column (f row) = column row) (k : κ) :
    ((table.updateWhere p f keeps).lookup k).map column = (table.lookup k).map column := by
  rw [lookup_updateWhere, Option.map_map]
  congr 1
  funext row
  by_cases hit : p row = true <;> simp [patch, hit, same]

theorem lookup_deleteWhere (k : κ) :
    (table.deleteWhere p).lookup k = (table.lookup k).filter (fun row => !p row) := by
  cases found : table.lookup k with
  | none =>
    rw [Option.filter_none, lookup_eq_none]
    intro row member
    exact lookup_eq_none.mp found row (List.mem_of_mem_filter member)
  | some row =>
    obtain ⟨member, same⟩ := lookup_eq_some.mp found
    by_cases hit : p row = true
    · simp only [Option.filter_some, hit, Bool.not_true, Bool.false_eq_true, if_false]
      rw [lookup_eq_none]
      intro other kept key
      obtain ⟨there, spared⟩ := List.mem_filter.mp kept
      rw [row_unique there member (key.trans same.symm), hit] at spared
      cases spared
    · simp only [Option.filter_some, hit, Bool.not_false, if_true]
      exact lookup_eq_some.mpr ⟨List.mem_filter.mpr ⟨member, by simp [hit]⟩, same⟩

/-- A deletion that spares what stands under a key. -/
theorem lookup_deleteWhere_spared (spared : ∀ row, key row = k → p row = false) :
    (table.deleteWhere p).lookup k = table.lookup k := by
  rw [lookup_deleteWhere]
  cases found : table.lookup k with
  | none => rfl
  | some row => simp [spared row (lookup_eq_some.mp found).2]

/-- A deletion that selects by the key removes the row under that key. -/
theorem lookup_deleteOne (deleted : table.deleteOne p = some after)
    (keyed : ∀ row, p row = true → key row = k) :
    ∃ row, table.lookup k = some row ∧ p row = true ∧ after.lookup k = none := by
  obtain ⟨one, rfl⟩ := deleteOne_eq_some.mp deleted
  obtain ⟨row, member, hit, _⟩ := exists_of_countP_one one
  have found : table.lookup k = some row := lookup_eq_some.mpr ⟨member, keyed row hit⟩
  refine ⟨row, found, hit, ?_⟩
  rw [lookup_deleteWhere, found]
  simp [hit]

/-- An update that selects by the key changes the row under that key, and no other. -/
theorem updateOne_made {keeps : ∀ row, key (f row) = key row}
    (updated : table.updateOne p f keeps = some after) (keyed : ∀ row, p row = true → key row = k) :
    ∃ row, table.lookup k = some row ∧ p row = true ∧
      ∀ other, after.lookup other = if other = k then some (f row) else table.lookup other := by
  obtain ⟨one, rfl⟩ := updateOne_eq_some.mp updated
  obtain ⟨row, member, hit, _⟩ := exists_of_countP_one one
  have found : table.lookup k = some row := lookup_eq_some.mpr ⟨member, keyed row hit⟩
  refine ⟨row, found, hit, fun other => ?_⟩
  rw [lookup_updateWhere]
  by_cases same : other = k
  · rw [if_pos same, same, found]
    simp [patch, hit]
  · rw [if_neg same]
    cases there : table.lookup other with
    | none => rfl
    | some row =>
      have spared : p row = false := by
        by_contra hit
        rw [Bool.not_eq_false] at hit
        exact same ((lookup_eq_some.mp there).2.symm.trans (keyed row hit))
      simp [patch, spared]

theorem updateWhere_made (keeps : ∀ row, key (f row) = key row)
    (found : table.lookup k = some row) (other : κ) :
    (table.updateWhere (fun row => key row = k) f keeps).lookup other =
      if other = k then some (f row) else table.lookup other := by
  rw [lookup_updateWhere]
  split
  · rename_i same
    subst same
    simp [found, patch, (lookup_eq_some.mp found).2]
  · rename_i ne
    cases there : table.lookup other with
    | none => rfl
    | some others =>
      have keyed := (lookup_eq_some.mp there).2
      simp [patch, keyed, ne]

end Lookup

/-- Selecting and updating commute when the update keeps what is selected. -/
theorem filter_patch {rows : List ρ}
    (keeps : ∀ row, q (f row) = q row) :
    (rows.map (patch p f)).filter q = (rows.filter q).map (patch p f) := by
  rw [List.filter_map]
  congr 1
  refine List.filter_congr fun row _ => ?_
  by_cases hit : p row = true <;> simp [patch, hit, keeps]

/-- What is updated is selected no longer. -/
theorem filter_patch_leaves {rows : List ρ}
    (leaves : ∀ row, q (f row) = false) :
    (rows.map (patch p f)).filter q = rows.filter fun row => q row && !p row := by
  induction rows with
  | nil => rfl
  | cons row rest ih =>
    by_cases hit : p row = true
    · simp [patch, hit, leaves, ← ih]
    · simp [patch, hit, ← ih, List.filter_cons]

end Table

end Satelle.Lib
