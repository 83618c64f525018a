import Satelle.Lib.Calendar

/-! Texts of UTC instants in the form of RFC 3339: a fraction of a second is
written with as few digits as possible, and not at all when it is zero. With the
final `Z` removed, the texts are ordered as the instants are; the `Z` itself
stands after every digit and after the point. -/
namespace Satelle.Lib.Rfc3339
open Calendar

/-! ## Decimal numerals -/

/-- The lowest `width` decimal digits of a number, most significant first. -/
def fixedDecimal : Nat → Nat → List Char
  | 0, _ => []
  | width + 1, value => fixedDecimal width (value / 10) ++ [Nat.digitChar (value % 10)]

def decimalValue? (c : Char) : Option Nat :=
  if '0' ≤ c ∧ c ≤ '9' then some (c.toNat - '0'.toNat) else none

def readDecimal (digits : List Char) : Option Nat :=
  digits.foldlM (fun value c => (decimalValue? c).map (value * 10 + ·)) 0

@[simp] theorem fixedDecimal_length (width value : Nat) :
    (fixedDecimal width value).length = width := by
  induction width generalizing value with
  | zero => rfl
  | succ width ih => simp [fixedDecimal, ih]

theorem decimalValue_digitChar : ∀ digit < 10, decimalValue? (Nat.digitChar digit) = some digit := by
  decide

theorem readDecimal_fixedDecimal (width value : Nat) (small : value < 10 ^ width) :
    readDecimal (fixedDecimal width value) = some value := by
  induction width generalizing value with
  | zero =>
    have zero : value = 0 := by simpa using small
    simp [zero, readDecimal, fixedDecimal]
  | succ width ih =>
    have before := ih (value / 10) (by rw [Nat.pow_succ] at small; omega)
    have last := decimalValue_digitChar (value % 10) (Nat.mod_lt _ (by decide))
    unfold readDecimal at before ⊢
    rw [fixedDecimal, List.foldlM_append, before]
    simp only [Option.bind_eq_bind, Option.bind_some, List.foldlM_cons, List.foldlM_nil, last,
      Option.map_some, Option.pure_def, Option.some.injEq]
    omega

/-! ## Texts in order -/

/-- Texts that start with parts of one length are compared by those parts first. -/
theorem append_lt {first second rest rest' : List Char} (same : first.length = second.length)
    (order : first < second ∨ first = second ∧ rest < rest') : first ++ rest < second ++ rest' := by
  induction first generalizing second with
  | nil =>
    cases second with
    | nil =>
      rcases order with less | ⟨_, less⟩
      · exact absurd less (List.not_lt_nil _)
      · exact less
    | cons => cases same
  | cons c more ih =>
    cases second with
    | nil => cases same
    | cons c' more' =>
      have lengths : more.length = more'.length := Nat.succ.inj same
      rw [List.cons_append, List.cons_append, List.cons_lt_cons_iff]
      rcases order with less | ⟨equal, less⟩
      · rcases List.cons_lt_cons_iff.mp less with less | ⟨head, less⟩
        · exact .inl less
        · exact .inr ⟨head, ih lengths (.inl less)⟩
      · cases equal
        exact .inr ⟨rfl, ih lengths (.inr ⟨rfl, less⟩)⟩

theorem digitChar_lt : ∀ a < 10, ∀ b < 10, a < b → Nat.digitChar a < Nat.digitChar b := by decide

theorem fixedDecimal_lt (width : Nat) (less : a < b) (small : b < 10 ^ width) :
    fixedDecimal width a < fixedDecimal width b := by
  induction width generalizing a b with
  | zero => omega
  | succ width ih =>
    rw [Nat.pow_succ] at small
    refine append_lt (by simp) ?_
    by_cases higher : a / 10 < b / 10
    · exact .inl (ih higher (by omega))
    · have same : a / 10 = b / 10 := by omega
      refine .inr ⟨by rw [same], ?_⟩
      rw [List.cons_lt_cons_iff]
      exact .inl (digitChar_lt _ (by omega) _ (by omega) (by omega))

/-- A numeral of fixed width comes first in the comparison. -/
theorem field_lt {rest rest' : List Char} (small : b < 10 ^ width)
    (order : a < b ∨ a = b ∧ rest < rest') :
    fixedDecimal width a ++ rest < fixedDecimal width b ++ rest' := by
  refine append_lt (by simp) ?_
  rcases order with less | ⟨rfl, less⟩
  · exact .inl (fixedDecimal_lt width less small)
  · exact .inr ⟨rfl, less⟩

theorem cons_lt {rest rest' : List Char} (less : rest < rest') :
    c :: rest < c :: rest' :=
  List.cons_lt_cons_iff.mpr (.inr ⟨rfl, less⟩)

/-! ## Fractions -/

/-- Removes the zeros at the end. -/
def trimZeros : List Char → List Char
  | [] => []
  | c :: rest =>
    match trimZeros rest with
    | [] => if c = '0' then [] else [c]
    | trimmed => c :: trimmed

theorem trimZeros_cons (c : Char) (rest : List Char) (kept : trimZeros rest ≠ [] ∨ c ≠ '0') :
    trimZeros (c :: rest) = c :: trimZeros rest := by
  rw [trimZeros]
  split
  · rename_i nothing
    rcases kept with kept | kept
    · exact absurd nothing kept
    · rw [if_neg kept, nothing]
  · rfl

/-- Zeros at the end do not count in a comparison of texts of one length. -/
theorem trimZeros_lt {first second : List Char} (same : first.length = second.length)
    (above : ∀ c ∈ first, '0' ≤ c) (less : first < second) : trimZeros first < trimZeros second := by
  induction first generalizing second with
  | nil =>
    cases second with
    | nil => exact absurd less (List.not_lt_nil _)
    | cons => cases same
  | cons c rest ih =>
    cases second with
    | nil => cases same
    | cons c' rest' =>
      have shorter : trimZeros (c :: rest) = [] ∨ trimZeros (c :: rest) = c :: trimZeros rest := by
        by_cases kept : trimZeros rest ≠ [] ∨ c ≠ '0'
        · exact .inr (trimZeros_cons c rest kept)
        · push Not at kept
          exact .inl (by rw [trimZeros, kept.1]; simp [kept.2])
      rcases List.cons_lt_cons_iff.mp less with head | ⟨rfl, tail⟩
      · have large : c' ≠ '0' := by
          rintro rfl
          exact absurd head (not_lt.mpr (above c (by simp)))
        rw [trimZeros_cons c' rest' (.inr large)]
        rcases shorter with none | some
        · rw [none]
          exact List.nil_lt_cons _ _
        · rw [some, List.cons_lt_cons_iff]
          exact .inl head
      · have later := ih (Nat.succ.inj same) (fun d member => above d (by simp [member])) tail
        have kept : trimZeros rest' ≠ [] := by
          intro none
          rw [none] at later
          exact List.not_lt_nil _ later
        rw [trimZeros_cons c rest' (.inl kept)]
        rcases shorter with none | some
        · rw [none]
          exact List.nil_lt_cons _ _
        · rw [some]
          exact cons_lt later

/-- Adds zeros at the end, or removes digits, to get to a width. -/
def padZeros : Nat → List Char → List Char
  | 0, _ => []
  | width + 1, [] => '0' :: padZeros width []
  | width + 1, c :: rest => c :: padZeros width rest

theorem padZeros_trimZeros (digits : List Char) :
    padZeros digits.length (trimZeros digits) = digits := by
  induction digits with
  | nil => rfl
  | cons c rest ih =>
    by_cases kept : trimZeros rest ≠ [] ∨ c ≠ '0'
    · rw [trimZeros_cons c rest kept]
      exact congrArg (c :: ·) ih
    · push Not at kept
      rw [kept.1] at ih
      rw [trimZeros, kept.1, kept.2]
      exact congrArg ('0' :: ·) ih

/-- The part of a text after the seconds, without the `Z`. -/
def fraction (nano : Nat) : List Char :=
  if nano = 0 then [] else '.' :: trimZeros (fixedDecimal 9 nano)

theorem fixedDecimal_digits (width value : Nat) : ∀ c ∈ fixedDecimal width value, '0' ≤ c ∧ c ≤ '9' := by
  have digit : ∀ digit < 10, '0' ≤ Nat.digitChar digit ∧ Nat.digitChar digit ≤ '9' := by decide
  induction width generalizing value with
  | zero => simp [fixedDecimal]
  | succ width ih =>
    intro c member
    rcases List.mem_append.mp member with before | last
    · exact ih _ c before
    · rw [List.mem_singleton.mp last]
      exact digit _ (Nat.mod_lt _ (by decide))

theorem fraction_lt (less : a < b) (small : b < secondNanos) : fraction a < fraction b := by
  have positive : b ≠ 0 := by omega
  have order := trimZeros_lt (by simp) (fun c member => (fixedDecimal_digits 9 a c member).1)
    (fixedDecimal_lt 9 less small)
  rw [fraction, fraction, if_neg positive]
  split
  · exact List.nil_lt_cons _ _
  · exact cons_lt order

/-! ## Texts -/

/-- The text up to the fraction. -/
def stamp (fields : Fields) (rest : List Char) : List Char :=
  fixedDecimal 4 fields.year ++ '-' :: (fixedDecimal 2 (fields.month + 1) ++ '-' ::
    (fixedDecimal 2 (fields.day + 1) ++ 'T' :: (fixedDecimal 2 fields.hour ++ ':' ::
      (fixedDecimal 2 fields.minute ++ ':' :: (fixedDecimal 2 fields.second ++ rest)))))

/-- The text without the `Z`. -/
def body (fields : Fields) : List Char := stamp fields (fraction fields.nano)

theorem month_length (leap : Bool) (month : Nat) :
    monthStart leap (month + 1) ≤ monthStart leap month + 31 := by
  rcases month with _ | _ | _ | _ | _ | _ | _ | _ | _ | _ | _ | _ | month
  all_goals cases leap <;> simp [monthStart]

theorem body_lt {a b : Fields} (valid : b.Valid) (year : b.year < 10000) (before : a.Before b) :
    body a < body b := by
  have days := month_length (isLeap b.year) b.month
  have ofMonth := valid.month
  have ofDay := valid.day
  have ofHour := valid.hour
  have ofMinute := valid.minute
  have ofSecond := valid.second
  refine field_lt year (before.imp_right (And.imp_right fun before => cons_lt ?_))
  refine field_lt (by omega) (before.imp (by omega) (And.imp (by omega) fun before => cons_lt ?_))
  refine field_lt (by omega) (before.imp (by omega) (And.imp (by omega) fun before => cons_lt ?_))
  refine field_lt (by omega) (before.imp_right (And.imp_right fun before => cons_lt ?_))
  refine field_lt (by omega) (before.imp_right (And.imp_right fun before => cons_lt ?_))
  exact field_lt (by omega) (before.imp_right (And.imp_right fun before =>
    fraction_lt before valid.nano))

/-! ## Reading -/

/-- The fraction and the `Z`. -/
def readFraction : List Char → Option Nat
  | ['Z'] => some 0
  | '.' :: rest =>
    if rest.getLast? = some 'Z' ∧ rest.dropLast ≠ [] then readDecimal (padZeros 9 rest.dropLast)
    else none
  | _ => none

def checkFields (fields : Fields) : Bool :=
  fields.month < 12 &&
    monthStart (isLeap fields.year) fields.month + fields.day <
      monthStart (isLeap fields.year) (fields.month + 1) &&
    fields.hour < 24 && fields.minute < 60 && fields.second < 60 && fields.nano < secondNanos

/-- Reads a text in the form that is written. -/
def readFields : List Char → Option Fields
  | y₁ :: y₂ :: y₃ :: y₄ :: '-' :: m₁ :: m₂ :: '-' :: d₁ :: d₂ :: 'T' :: h₁ :: h₂ :: ':' ::
      n₁ :: n₂ :: ':' :: s₁ :: s₂ :: rest => do
    let year ← readDecimal [y₁, y₂, y₃, y₄]
    let month ← readDecimal [m₁, m₂]
    let day ← readDecimal [d₁, d₂]
    let hour ← readDecimal [h₁, h₂]
    let minute ← readDecimal [n₁, n₂]
    let second ← readDecimal [s₁, s₂]
    let nano ← readFraction rest
    let fields : Fields := ⟨year, month - 1, day - 1, hour, minute, second, nano⟩
    if 0 < month ∧ 0 < day ∧ checkFields fields then some fields else none
  | _ => none

theorem trimZeros_ne_nil (some : ∃ c ∈ digits, c ≠ '0') :
    trimZeros digits ≠ [] := by
  induction digits with
  | nil => simp at some
  | cons c rest ih =>
    have kept : trimZeros rest ≠ [] ∨ c ≠ '0' := by
      obtain ⟨d, member, nonzero⟩ := some
      rcases List.mem_cons.mp member with rfl | later
      · exact .inr nonzero
      · exact .inl (ih ⟨d, later, nonzero⟩)
    rw [trimZeros_cons c rest kept]
    exact List.cons_ne_nil _ _

theorem fixedDecimal_zero (width : Nat) : fixedDecimal width 0 = List.replicate width '0' := by
  induction width with
  | zero => rfl
  | succ width ih =>
    rw [fixedDecimal, Nat.zero_div, ih, List.replicate_succ']
    rfl

/-- Only zero is written with zeros alone. -/
theorem exists_nonzero (width value : Nat) (small : value < 10 ^ width) (positive : value ≠ 0) :
    ∃ c ∈ fixedDecimal width value, c ≠ '0' := by
  by_contra none
  push Not at none
  have zeros : fixedDecimal width value = fixedDecimal width 0 := by
    rw [fixedDecimal_zero]
    exact List.eq_replicate_iff.mpr ⟨by simp, none⟩
  have read := readDecimal_fixedDecimal width value small
  rw [zeros, readDecimal_fixedDecimal width 0 (Nat.pow_pos (by decide))] at read
  exact positive (Option.some.inj read).symm

theorem readFraction_fraction (small : nano < secondNanos) :
    readFraction (fraction nano ++ ['Z']) = some nano := by
  unfold fraction
  split
  · rename_i zero
    rw [zero]
    rfl
  · rename_i positive
    have digits := trimZeros_ne_nil (exists_nonzero 9 nano small positive)
    have padded := padZeros_trimZeros (fixedDecimal 9 nano)
    rw [fixedDecimal_length] at padded
    simp only [List.cons_append, readFraction, List.getLast?_concat, List.dropLast_concat, ne_eq,
      digits, not_false_eq_true, and_self, if_true]
    rw [padded]
    exact readDecimal_fixedDecimal 9 nano small

theorem checkFields_valid (valid : fields.Valid) : checkFields fields = true := by
  simp [checkFields, valid.month, valid.day, valid.hour, valid.minute, valid.second, valid.nano]

theorem readFields_body (valid : fields.Valid) (year : fields.year < 10000) :
    readFields (body fields ++ ['Z']) = some fields := by
  have days := month_length (isLeap fields.year) fields.month
  have ofMonth := valid.month
  have ofDay := valid.day
  have read (width value : Nat) := readDecimal_fixedDecimal width value
  have months := read 2 (fields.month + 1) (by omega)
  have dates := read 2 (fields.day + 1) (by omega)
  have hours := read 2 fields.hour (by have := valid.hour; omega)
  have minutes := read 2 fields.minute (by have := valid.minute; omega)
  have seconds := read 2 fields.second (by have := valid.second; omega)
  have years := read 4 fields.year year
  have nanos := readFraction_fraction valid.nano
  simp only [fixedDecimal, List.nil_append, List.cons_append] at months dates hours minutes
  simp only [fixedDecimal, List.nil_append, List.cons_append] at seconds years
  simp only [body, stamp, fixedDecimal, List.nil_append, List.cons_append,
    readFields, months, dates, hours, minutes, seconds, years, nanos, Option.bind_eq_bind,
    Option.bind_some, Nat.add_sub_cancel]
  rw [if_pos ⟨Nat.succ_pos _, Nat.succ_pos _, checkFields_valid valid⟩]

/-! ## Instants -/

/-- The Unix epoch, in nanoseconds since the year 0 began. -/
def epoch : Int := 719528 * dayNanos

/-- The end of the last year with four digits. -/
def endOfTime : Nat := dayNanos * yearStart 10000

def fieldsAt (instant : Int) : Fields := fieldsOf (instant + epoch).toNat

/-- An instant whose year has no four-digit text is not formatted. -/
def Formatted (instant : Int) : Prop := 0 ≤ instant + epoch ∧ instant + epoch < endOfTime

instance : DecidablePred Formatted := fun _ => inferInstanceAs (Decidable (_ ∧ _))

def format (instant : Int) : Option String :=
  if Formatted instant then some (String.ofList (body (fieldsAt instant) ++ ['Z'])) else none

def parse (text : String) : Option Int :=
  (readFields text.toList).map fun fields => (momentOf fields : Int) - epoch

theorem year_small (formatted : Formatted instant) : (fieldsAt instant).year < 10000 := by
  obtain ⟨after, before⟩ := formatted
  have moment : (instant + epoch).toNat < endOfTime := by omega
  have day : (instant + epoch).toNat / dayNanos < yearStart 10000 :=
    Nat.div_lt_of_lt_mul moment
  by_contra late
  have start := yearStart_monotone (not_lt.mp late)
  have here := (lies_year ((instant + epoch).toNat / dayNanos)).here
  have year : (fieldsAt instant).year = yearOf ((instant + epoch).toNat / dayNanos) := rfl
  rw [year] at start
  omega

theorem format_eq_some : format instant = some text ↔
    Formatted instant ∧ text = String.ofList (body (fieldsAt instant) ++ ['Z']) := by
  unfold format
  split
  · simp_all [eq_comm]
  · simp_all

theorem parse_format (instant : Int) (text : String) (formatted : format instant = some text) :
    parse text = some instant := by
  obtain ⟨inRange, rfl⟩ := format_eq_some.mp formatted
  have read := readFields_body (fieldsOf_valid _) (year_small inRange)
  obtain ⟨after, _⟩ := inRange
  unfold parse
  rw [String.toList_ofList]
  unfold fieldsAt at read ⊢
  rw [read, Option.map_some, momentOf_fieldsOf, Option.some.injEq]
  omega

/-! ## Order -/

theorem body_lt_of_lt (first : Formatted instant) (second : Formatted later)
    (less : instant < later) : body (fieldsAt instant) < body (fieldsAt later) := by
  refine body_lt (fieldsOf_valid _) (year_small second) (fieldsOf_before ?_)
  have after := first.1
  omega

theorem trimZeros_subset (digits : List Char) : ∀ c ∈ trimZeros digits, c ∈ digits := by
  induction digits with
  | nil => simp [trimZeros]
  | cons d rest ih =>
    intro c member
    rw [trimZeros] at member
    split at member
    · split at member
      · cases member
      · rw [List.mem_singleton.mp member]
        exact List.mem_cons_self
    · rcases List.mem_cons.mp member with rfl | later
      · exact List.mem_cons_self
      · exact List.mem_cons_of_mem _ (ih c later)

/-- Every character before the `Z` is smaller than it. -/
theorem body_chars (fields : Fields) : ∀ c ∈ body fields, c < 'Z' := by
  have digit (width value : Nat) (c : Char) (member : c ∈ fixedDecimal width value) : c < 'Z' :=
    lt_of_le_of_lt (fixedDecimal_digits width value c member).2 (by decide)
  have rest : ∀ c ∈ fraction fields.nano, c < 'Z' := by
    intro c member
    unfold fraction at member
    split at member
    · cases member
    · rcases List.mem_cons.mp member with rfl | later
      · decide
      · exact digit _ _ c (trimZeros_subset _ c later)
  intro c member
  simp only [body, stamp, List.mem_append, List.mem_cons] at member
  rcases member with d | rfl | d | rfl | d | rfl | d | rfl | d | rfl | d | d
  all_goals first | exact digit _ _ c d | exact rest c d | decide

/-- `rtrim(text, 'Z')`. -/
def trimZ (text : String) : String := String.ofList (text.toList.rdropWhile (· = 'Z'))

theorem trimZ_format (formatted : format instant = some text) :
    (trimZ text).toList = body (fieldsAt instant) := by
  obtain ⟨_, rfl⟩ := format_eq_some.mp formatted
  rw [trimZ, String.toList_ofList, String.toList_ofList, List.rdropWhile_concat_pos _ _ _ (by simp),
    List.rdropWhile_eq_self_iff]
  intro nonempty isZ
  have last := body_chars _ _ (List.getLast_mem nonempty)
  rw [of_decide_eq_true isZ] at last
  exact lt_irrefl _ last

/-- Without the `Z`, the texts are ordered as the instants are. -/
theorem trimZ_lt_iff (first : format instant = some text) (second : format later = some text') :
    trimZ text < trimZ text' ↔ instant < later := by
  have forward {a b : Int} {x y : String} (first : format a = some x) (second : format b = some y)
      (less : a < b) : trimZ x < trimZ y := by
    rw [String.lt_iff_toList_lt, trimZ_format first, trimZ_format second]
    exact body_lt_of_lt (format_eq_some.mp first).1 (format_eq_some.mp second).1 less
  refine ⟨fun order => ?_, forward first second⟩
  rcases lt_trichotomy instant later with less | same | more
  · exact less
  · subst same
    rw [Option.some.inj (first.symm.trans second)] at order
    exact absurd order (lt_irrefl _)
  · exact absurd order (lt_asymm (forward second first more))

theorem trimZ_inj (first : format instant = some text) (second : format later = some text') :
    trimZ text = trimZ text' ↔ instant = later := by
  constructor
  · intro same
    rcases lt_trichotomy instant later with less | equal | more
    · exact absurd ((trimZ_lt_iff first second).mpr less) (by rw [same]; exact lt_irrefl _)
    · exact equal
    · exact absurd ((trimZ_lt_iff second first).mpr more) (by rw [same]; exact lt_irrefl _)
  · rintro rfl
    rw [Option.some.inj (first.symm.trans second)]

/-- A character put at the end of two texts, greater than all of theirs, turns
their order around when the second continues the first, and only then. -/
theorem concat_lt_iff {last : Char} (below : ∀ c ∈ second, c < last)
    (less : first < second) : first ++ [last] < second ++ [last] ↔ ¬first <+: second := by
  induction first generalizing second with
  | nil =>
    cases second with
    | nil => exact absurd less (List.not_lt_nil _)
    | cons c rest =>
      have small := below c (by simp)
      simp only [List.nil_append, List.cons_append, List.cons_lt_cons_iff, List.nil_prefix,
        not_true_eq_false, iff_false, not_or, not_and]
      exact ⟨lt_asymm small, fun same => absurd same.symm (ne_of_lt small)⟩
  | cons c rest ih =>
    cases second with
    | nil => exact absurd less (List.not_lt_nil _)
    | cons c' rest' =>
      simp only [List.cons_append, List.cons_lt_cons_iff, List.cons_prefix_cons, not_and]
      rcases List.cons_lt_cons_iff.mp less with head | ⟨rfl, tail⟩
      · exact ⟨fun _ same => absurd same (ne_of_lt head), fun _ => .inl head⟩
      · have inner := ih (fun d member => below d (by simp [member])) tail
        constructor
        · rintro (less | ⟨_, less⟩)
          · exact absurd less (lt_irrefl _)
          · exact fun _ => inner.mp less
        · intro apart
          exact .inr ⟨rfl, inner.mpr (apart rfl)⟩

/-- With the `Z`, the later text comes first when it only adds digits. -/
theorem format_lt_iff (first : format instant = some text) (second : format later = some text')
    (less : instant < later) : text < text' ↔ ¬(trimZ text).toList <+: (trimZ text').toList := by
  rw [trimZ_format first, trimZ_format second, String.lt_iff_toList_lt]
  obtain ⟨formatted, rfl⟩ := format_eq_some.mp first
  obtain ⟨formatted', rfl⟩ := format_eq_some.mp second
  rw [String.toList_ofList, String.toList_ofList]
  exact concat_lt_iff (body_chars _) (body_lt_of_lt formatted formatted' less)

/-- Neither text only adds digits to the other. -/
def Apart (text text' : String) : Prop :=
  (trimZ text).toList <+: (trimZ text').toList ∨ (trimZ text').toList <+: (trimZ text).toList →
    trimZ text = trimZ text'

instance (text text' : String) : Decidable (Apart text text') := inferInstanceAs (Decidable (_ → _))

/-- Texts that are apart are ordered as the instants are. -/
theorem apart_lt_iff (first : format instant = some text) (second : format later = some text')
    (apart : Apart text text') : text < text' ↔ instant < later := by
  rcases lt_trichotomy instant later with less | same | more
  · refine iff_of_true ((format_lt_iff first second less).mpr fun begins => ?_) less
    exact ne_of_lt less ((trimZ_inj first second).mp (apart (.inl begins)))
  · subst same
    rw [Option.some.inj (first.symm.trans second)]
    simp
  · have order : text' < text := (format_lt_iff second first more).mpr fun begins =>
      ne_of_gt more ((trimZ_inj first second).mp (apart (.inr begins)))
    exact iff_of_false (lt_asymm order) (lt_asymm more)

end Satelle.Lib.Rfc3339
