import Mathlib

/-! The rank of an element in a list that is sorted by a key. -/
namespace Satelle.Lib

variable {α κ : Type} [LinearOrder κ] {key : α → κ}

/-- Sorting a list whose keys differ leaves them strictly increasing. -/
theorem insertionSort_strict {l : List α} (distinct : (l.map key).Nodup) :
    (l.insertionSort fun a b => key a ≤ key b).Pairwise fun a b => key a < key b := by
  have total : Std.Total fun a b : α => key a ≤ key b := ⟨fun a b => le_total (key a) (key b)⟩
  have trans : IsTrans α fun a b => key a ≤ key b := ⟨fun _ _ _ => le_trans⟩
  have sorted := List.pairwise_insertionSort (fun a b : α => key a ≤ key b) l
  have different : (l.insertionSort fun a b => key a ≤ key b).Pairwise fun a b => key a ≠ key b := by
    rw [← List.pairwise_map, ← List.nodup_iff_pairwise_ne]
    exact ((List.perm_insertionSort _ l).map key).nodup_iff.mpr distinct
  exact sorted.imp₂ (fun _ _ le ne => lt_of_le_of_ne le ne) different

/-- The element at an index has that many elements before it. -/
theorem countP_le_getElem {l : List α} (sorted : l.Pairwise fun a b => key a < key b) (index : Nat)
    (inside : index < l.length) : l.countP (fun a => key a ≤ key l[index]) = index + 1 := by
  induction l generalizing index with
  | nil => cases inside
  | cons first rest ih =>
    obtain ⟨smallest, sorted⟩ := List.pairwise_cons.mp sorted
    cases index with
    | zero =>
      have none : rest.countP (fun a => decide (key a ≤ key first)) = 0 := by
        rw [List.countP_eq_zero]
        intro a member
        simpa using smallest a member
      simp [none]
    | succ index =>
      have inside : index < rest.length := Nat.lt_of_succ_lt_succ inside
      have before := smallest rest[index] (List.getElem_mem inside)
      simp [ih sorted index inside, le_of_lt before]

/-- Two disjoint ways to meet a condition. -/
theorem countP_add_le {l : List α} (disjoint : ∀ a ∈ l, p a = true → q a = false)
    (first : ∀ a ∈ l, p a = true → r a = true) (second : ∀ a ∈ l, q a = true → r a = true) :
    l.countP p + l.countP q ≤ l.countP r := by
  rw [List.countP_eq_countP_filter_add l r p, List.countP_filter, List.countP_filter]
  refine Nat.add_le_add (List.countP_mono_left fun a member hit => ?_)
    (List.countP_mono_left fun a member hit => ?_)
  · simp [hit, first a member hit]
  · have apart : ¬p a = true := fun isP => by simp [disjoint a member isP] at hit
    simp [apart, second a member hit]

/-- A condition that is met in one of two ways. -/
theorem countP_le_add {l : List α}
    (covered : ∀ a ∈ l, r a = true → p a = true ∨ q a = true) :
    l.countP r ≤ l.countP p + l.countP q := by
  rw [List.countP_eq_countP_filter_add l r p, List.countP_filter, List.countP_filter]
  refine Nat.add_le_add (List.countP_mono_left fun a _ hit => (Bool.and_eq_true_iff.mp hit).2)
    (List.countP_mono_left fun a member hit => ?_)
  simp only [Bool.and_eq_true, Bool.not_eq_true'] at hit
  simpa [hit.2] using covered a member hit.1

/-- Elements are taken out of a list. The rank of one that stays is what it was, or
at least that of one that is gone. -/
theorem rank_filter {l : List α} (keep : α → Bool) (distinct : (l.map key).Nodup)
    (member : a ∈ l) (kept : keep a = true) :
    (l.filter keep).countP (fun b => key b ≤ key a) = l.countP (fun b => key b ≤ key a) ∨
    ∃ gone ∈ l, keep gone = false ∧
      l.countP (fun b => key b ≤ key gone) ≤ (l.filter keep).countP (fun b => key b ≤ key a) := by
  rw [List.countP_filter]
  by_cases before : ∃ b ∈ l, keep b = false ∧ key b ≤ key a
  · right
    -- the first one that is gone
    obtain ⟨gone, inside, out, small, least⟩ : ∃ gone ∈ l, keep gone = false ∧ key gone ≤ key a ∧
        ∀ b ∈ l, keep b = false → key gone ≤ key b := by
      obtain ⟨b, there, away, small⟩ := before
      have some : (l.filter (!keep ·) : Multiset α) ≠ 0 := by
        rw [ne_eq, Multiset.coe_eq_zero, List.filter_eq_nil_iff]
        exact fun none => none b there (by simp [away])
      obtain ⟨gone, held, least⟩ := Multiset.exists_min_image key some
      simp only [Multiset.mem_coe, List.mem_filter, Bool.not_eq_true'] at held least
      exact ⟨gone, held.1, held.2, le_trans (least b ⟨there, away⟩) small,
        fun c member lost => least c ⟨member, lost⟩⟩
    refine ⟨gone, inside, out, ?_⟩
    have differs : key gone ≠ key a := by
      intro same
      rw [List.inj_on_of_nodup_map distinct inside member same, kept] at out
      cases out
    have below : key gone < key a := lt_of_le_of_ne small differs
    have once : l.countP (fun b => key b = key gone) ≤ 1 := by
      have count := List.nodup_iff_count_le_one.mp distinct (key gone)
      rwa [List.count, List.countP_map] at count
    have split : l.countP (fun b => key b ≤ key gone) ≤
        l.countP (fun b => key b < key gone) + l.countP (fun b => key b = key gone) :=
      countP_le_add fun b _ small => by simpa using lt_or_eq_of_le (of_decide_eq_true small)
    have own : 1 ≤ l.countP (fun b => key b = key a) :=
      List.countP_pos_iff.mpr ⟨a, member, by simp⟩
    have replaced : l.countP (fun b => key b < key gone) + l.countP (fun b => key b = key a) ≤
        l.countP (fun b => decide (key b ≤ key a) && keep b) := by
      refine countP_add_le ?_ ?_ ?_
      · intro b _ less
        simp only [decide_eq_true_eq, decide_eq_false_iff_not] at less ⊢
        exact fun same => absurd (same ▸ less) (lt_asymm below)
      · intro b there less
        simp only [decide_eq_true_eq, Bool.and_eq_true] at less ⊢
        refine ⟨le_of_lt (lt_trans less below), ?_⟩
        by_contra lost
        exact absurd (least b there (by simpa using lost)) (not_le.mpr less)
      · intro b there same
        simp only [decide_eq_true_eq, Bool.and_eq_true] at same ⊢
        rw [List.inj_on_of_nodup_map distinct there member same]
        exact ⟨le_refl _, kept⟩
    omega
  · left
    refine List.countP_congr fun b there => ?_
    simp only [Bool.and_eq_true, decide_eq_true_eq, and_iff_left_iff_imp]
    intro small
    by_contra out
    exact before ⟨b, there, by simpa using out, small⟩

/-- The rank of one that stays has changed if it is at least that of the first one that is
gone. -/
theorem rank_filter_ne {l : List α} (keep : α → Bool) (distinct : (l.map key).Nodup)
    (member : a ∈ l) (kept : keep a = true) (inside : gone ∈ l) (out : keep gone = false)
    (least : ∀ b ∈ l, keep b = false →
      l.countP (fun c => key c ≤ key gone) ≤ l.countP (fun c => key c ≤ key b)) :
    (l.filter keep).countP (fun b => key b ≤ key a) ≠ l.countP (fun b => key b ≤ key a) ↔
      l.countP (fun b => key b ≤ key gone) ≤ (l.filter keep).countP (fun b => key b ≤ key a) := by
  constructor
  · intro moved
    obtain ⟨b, there, lost, small⟩ := (rank_filter keep distinct member kept).resolve_left moved
    exact le_trans (least b there lost) small
  · intro reached same
    have own : 1 ≤ l.countP (fun b => key b = key gone) :=
      List.countP_pos_iff.mpr ⟨gone, inside, by simp⟩
    rw [same] at reached
    by_cases small : key gone ≤ key a
    · -- the one that is gone was counted before
      have fewer : l.countP (fun b => decide (key b ≤ key a) && keep b) +
          l.countP (fun b => key b = key gone) ≤ l.countP (fun b => key b ≤ key a) := by
        refine countP_add_le ?_ ?_ ?_
        · intro b there counted
          simp only [decide_eq_false_iff_not]
          intro isGone
          rw [List.inj_on_of_nodup_map distinct there inside isGone, out] at counted
          simp at counted
        · intro b _ counted
          exact (Bool.and_eq_true_iff.mp counted).1
        · intro b _ isGone
          simpa [of_decide_eq_true isGone] using small
      rw [List.countP_filter] at same
      omega
    · have below : l.countP (fun b => key b ≤ key a) + l.countP (fun b => key b = key gone) ≤
          l.countP (fun b => key b ≤ key gone) := by
        refine countP_add_le ?_ ?_ ?_
        · intro b _ before
          simp only [decide_eq_true_eq, decide_eq_false_iff_not] at before ⊢
          exact fun isGone => small (isGone ▸ before)
        · intro b _ before
          simp only [decide_eq_true_eq] at before ⊢
          exact le_trans before (le_of_not_ge small)
        · intro b _ isGone
          simpa using le_of_eq (of_decide_eq_true isGone)
      omega

end Satelle.Lib
