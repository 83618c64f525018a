import Mathlib

/-! Fixed-width hexadecimal numerals: what a zero-padded format writes, a
reader that also takes capitals gives back. -/
namespace Satelle.Lib

/-- The lowest `width` hexadecimal digits of a number, most significant first. -/
def fixedHex : Nat → Nat → List Char
  | 0, _ => []
  | width + 1, value => fixedHex width (value / 16) ++ [Nat.digitChar (value % 16)]

def hexValue? (c : Char) : Option Nat :=
  if '0' ≤ c ∧ c ≤ '9' then some (c.toNat - '0'.toNat)
  else if 'a' ≤ c ∧ c ≤ 'f' then some (c.toNat - 'a'.toNat + 10)
  else if 'A' ≤ c ∧ c ≤ 'F' then some (c.toNat - 'A'.toNat + 10)
  else none

/-- Reads digits from the left onto what has been read before. -/
def readHex (start : Nat) (digits : List Char) : Option Nat :=
  digits.foldlM (fun value c => (hexValue? c).map (value * 16 + ·)) start

theorem hexValue_digitChar (digit : Nat) (small : digit < 16) :
    hexValue? (Nat.digitChar digit) = some digit := by
  rcases digit with _ | _ | _ | _ | _ | _ | _ | _ | _ | _ | _ | _ | _ | _ | _ | _ | digit
  all_goals first | rfl | omega

@[simp] theorem fixedHex_length (width value : Nat) : (fixedHex width value).length = width := by
  induction width generalizing value with
  | zero => rfl
  | succ width ih => simp [fixedHex, ih]

theorem readHex_fixedHex (width value start : Nat) :
    readHex start (fixedHex width value) = some (start * 16 ^ width + value % 16 ^ width) := by
  induction width generalizing value with
  | zero => simp [readHex, fixedHex, Nat.mod_one]
  | succ width ih =>
    have before := ih (value / 16)
    have low := hexValue_digitChar (value % 16) (Nat.mod_lt _ (by decide))
    have split : value % 16 ^ (width + 1) = value / 16 % 16 ^ width * 16 + value % 16 := by
      rw [Nat.pow_succ', Nat.mod_mul]
      ring
    unfold readHex at before ⊢
    rw [fixedHex, List.foldlM_append, before]
    simp only [Option.bind_eq_bind, Option.bind_some, List.foldlM_cons, List.foldlM_nil, low,
      Option.map_some, Option.pure_def, Option.some.injEq]
    rw [split, Nat.pow_succ]
    ring

/-- Digits are ASCII, so a numeral has as many bytes as digits. -/
theorem fixedHex_bytes (width value : Nat) :
    (String.ofList (fixedHex width value)).utf8ByteSize = width := by
  have ascii : ∀ digit < 16, (Nat.digitChar digit).utf8Size = 1 := by decide
  rw [String.utf8ByteSize_ofList]
  induction width generalizing value with
  | zero => rfl
  | succ width ih =>
    rw [fixedHex, String.utf8Len_append, ih]
    simp [ascii (value % 16) (Nat.mod_lt _ (by decide))]

end Satelle.Lib
