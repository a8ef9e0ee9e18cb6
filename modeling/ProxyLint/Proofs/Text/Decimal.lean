import Mathlib.Algebra.Ring.Nat
import Mathlib.Data.List.Basic
import ProxyLint.Text.Blank

/-!
# Decimal notation

Numbers are written with `Nat.toDigits` and read with a fold over their digits.
Reading gives the number that was written, also with zeros in front of it.
-/

namespace ProxyLint

namespace Text

/-- The fold that reads digits, in the form of the library. -/
theorem foldl_digits (digits : List Char) (value : Nat) :
    digits.foldl (fun value digit => value * 10 + (digit.toNat - '0'.toNat))
        value =
      Nat.ofDigitChars 10 digits value := by
  rw [Nat.ofDigitChars_eq_foldl]
  congr 1
  funext value digit
  rw [Nat.mul_comm]

theorem ofDigitChars_lt {digits : List Char}
    (decimal : ∀ digit ∈ digits, digit.isDigit = true) (value : Nat) :
    Nat.ofDigitChars 10 digits value < 10 ^ digits.length * (value + 1) := by
  induction digits generalizing value with
  | nil => simp [Nat.ofDigitChars]
  | cons digit digits ih =>
      obtain ⟨_, most⟩ :=
        Char.isDigit_iff_toNat.1 (decimal digit List.mem_cons_self)
      have bound : digit.toNat - '0'.toNat ≤ 9 := Nat.sub_le_sub_right most _
      have rest := ih
        (fun other member => decimal other (List.mem_cons_of_mem _ member))
        (10 * value + (digit.toNat - '0'.toNat))
      calc
        Nat.ofDigitChars 10 (digit :: digits) value <
            10 ^ digits.length *
              (10 * value + (digit.toNat - '0'.toNat) + 1) := rest
        _ ≤ 10 ^ digits.length * (10 * (value + 1)) :=
          Nat.mul_le_mul_left _ (by omega)
        _ = 10 ^ (digit :: digits).length * (value + 1) := by
          rw [List.length_cons, Nat.pow_succ, Nat.mul_assoc]

theorem digitChar_of_isDigit {digit : Char} (decimal : digit.isDigit = true) :
    digit.toNat - 48 < 10 ∧ Nat.digitChar (digit.toNat - 48) = digit := by
  obtain ⟨lower, upper⟩ := Char.isDigit_iff_toNat.1 decimal
  have least : 48 ≤ digit.toNat := lower
  have most : digit.toNat ≤ 57 := upper
  have bound : digit.toNat - 48 < 10 := by omega
  refine ⟨bound, Char.toNat_inj.1 ?_⟩
  rw [Nat.toNat_digitChar_of_lt_ten bound]
  omega

/-- What ten characters have in common holds of every digit. -/
theorem of_isDigit (property : Char → Prop)
    (all : ∀ place < 10, property (Nat.digitChar place)) {digit : Char}
    (decimal : digit.isDigit = true) : property digit := by
  obtain ⟨bound, written⟩ := digitChar_of_isDigit decimal
  rw [← written]
  exact all _ bound

theorem isBlank_of_isDigit {digit : Char} (decimal : digit.isDigit = true) :
    isBlank digit = false :=
  of_isDigit (fun digit => isBlank digit = false) (by decide) decimal

theorem isDigit_of_mem_toDigits {number : Nat} {digit : Char}
    (member : digit ∈ Nat.toDigits 10 number) : digit.isDigit = true :=
  Nat.isDigit_of_mem_toDigits (by decide) (by decide) member

/-- A text that begins with digits has a digit as its first character. -/
theorem exists_cons_of_digits {digits : List Char} (nonempty : digits ≠ [])
    (decimal : ∀ digit ∈ digits, digit.isDigit = true) (rest : List Char) :
    ∃ first later, digits ++ rest = first :: later ∧ first.isDigit = true := by
  cases digits with
  | nil => exact absurd rfl nonempty
  | cons first later =>
      exact ⟨first, later ++ rest, rfl, decimal first List.mem_cons_self⟩

/-- A positive number is written without leading zeros. -/
theorem head?_toDigits {number : Nat} (positive : 0 < number) :
    (Nat.toDigits 10 number).head? ≠ some '0' := by
  induction number using Nat.strongRecOn with
  | ind number ih =>
      by_cases small : number < 10
      · have digits : ∀ number < 10, 0 < number →
            some (Nat.digitChar number) ≠ some '0' := by
          decide
        rw [Nat.toDigits_of_lt_base small]
        exact digits number small positive
      · rw [Nat.toDigits_of_base_le (by decide) (Nat.le_of_not_lt small),
          List.head?_append_of_ne_nil _ Nat.toDigits_ne_nil]
        exact ih _ (Nat.div_lt_self positive (by decide))
          (Nat.div_pos (Nat.le_of_not_lt small) (by decide))

end Text

end ProxyLint
