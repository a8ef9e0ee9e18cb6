import ProxyLint.Json.Lexer
import ProxyLint.Json.Number
import ProxyLint.Proofs.Text.Decimal
import ProxyLint.Proofs.Text.Search

/-!
# Literals of integers

An integer is written as the literal with its digits, and the literal is read
as the integer if it fits 64 bits.
-/

namespace ProxyLint

namespace Json

theorem naturalOfDigits_eq (digits : List Char) :
    naturalOfDigits digits = Nat.ofDigitChars 10 digits 0 :=
  Text.foldl_digits digits 0

@[simp]
theorem naturalOfDigits_digitsOf (value : Nat) :
    naturalOfDigits (digitsOf value) = value := by
  rw [naturalOfDigits_eq, digitsOf, Nat.ofDigitChars_ten_toDigits]

theorem isWholePart_digitsOf (value : Nat) :
    isWholePart (digitsOf value) = true := by
  have leading : 0 < value → (digitsOf value).head? ≠ some '0' :=
    Text.head?_toDigits
  cases digits : digitsOf value with
  | nil => exact absurd digits Nat.toDigits_ne_nil
  | cons first later =>
      cases later with
      | nil => rfl
      | cons second others =>
          have positive : 0 < value := by
            refine Nat.pos_of_ne_zero fun zero => ?_
            rw [zero] at digits
            cases digits
          have significant := leading positive
          rw [digits] at significant
          refine bne_iff_ne.2 fun same => significant ?_
          rw [same]
          rfl

theorem unsignedLiteral?_digitsOf (negative : Bool) (value : Nat) :
    unsignedLiteral? negative (digitsOf value) =
      some { NumberLiteral.ofNat value with negative := negative } := by
  have all : ∀ digit ∈ digitsOf value, digit.isDigit = true :=
    fun _ => Text.isDigit_of_mem_toDigits
  have ends : ∀ character ∈ ([] : List Char).head?,
      character.isDigit = false := by
    simp
  have run := Text.run_of_append all ends
  rw [List.append_nil] at run
  rw [unsignedLiteral?, run.1, run.2, if_pos (isWholePart_digitsOf value)]
  rfl

/-- The literal that an integer is written as. -/
def Number.literal? : Number → Option NumberLiteral
  | .natural value => some (.ofNat value)
  | .negative magnitude =>
      some { NumberLiteral.ofNat magnitude with negative := true }
  | .binary _ => none

theorem numberLiteral?_of_unsigned {text : List Char} {literal : NumberLiteral}
    (unsigned : text.head? ≠ some '-')
    (read : unsignedLiteral? false text = some literal) :
    numberLiteral? text = some literal := by
  cases text with
  | nil => exact read
  | cons first later =>
      rw [numberLiteral?]
      · exact read
      · rintro rest same
        obtain ⟨rfl, _⟩ := List.cons.inj same
        exact unsigned rfl

theorem Number.numberLiteral?_written {number : Number} {literal : NumberLiteral}
    (known : number.literal? = some literal) :
    numberLiteral? number.written = some literal := by
  cases number with
  | natural value =>
      obtain rfl := Option.some.inj known
      refine numberLiteral?_of_unsigned (fun signed => ?_)
        (unsignedLiteral?_digitsOf false value)
      have digit := Text.isDigit_of_mem_toDigits (List.mem_of_head? signed)
      exact absurd digit (by decide)
  | negative magnitude =>
      obtain rfl := Option.some.inj known
      exact unsignedLiteral?_digitsOf true magnitude
  | binary value => cases known

theorem Number.written_ne_nil {number : Number} {literal : NumberLiteral}
    (known : number.literal? = some literal) : number.written ≠ [] := by
  intro empty
  have read := numberLiteral?_written known
  rw [empty] at read
  cases read

theorem Lexer.endsRun_of_isDigit {digit : Char}
    (decimal : digit.isDigit = true) : Lexer.endsRun digit = false :=
  Text.of_isDigit (fun digit => Lexer.endsRun digit = false) (by decide) decimal

theorem Number.any_endsRun_written {number : Number} {literal : NumberLiteral}
    (known : number.literal? = some literal) :
    number.written.any Lexer.endsRun = false := by
  have digits (value : Nat) : (digitsOf value).any Lexer.endsRun = false :=
    List.any_eq_false.2 fun digit member => by
      rw [Lexer.endsRun_of_isDigit (Text.isDigit_of_mem_toDigits member)]
      exact Bool.false_ne_true
  cases number with
  | natural value => exact digits value
  | negative magnitude => exact digits magnitude
  | binary value => cases known

/-- No word of the language is a number. -/
theorem bareToken?_of_numberLiteral? {text : List Char} {literal : NumberLiteral}
    (read : numberLiteral? text = some literal) :
    bareToken? text = some (.number literal) := by
  have other {word : List Char} (unread : numberLiteral? word = none) :
      text ≠ word := by
    rintro rfl
    rw [unread] at read
    cases read
  rw [bareToken?, if_neg (other rfl), if_neg (other rfl), if_neg (other rfl),
    read]
  rfl

theorem NumberLiteral.natural?_ofNat {value : Nat}
    (fits : value < significandBound) :
    (NumberLiteral.ofNat value).natural? = some value := by
  have same : naturalOfDigits (NumberLiteral.ofNat value).whole = value :=
    naturalOfDigits_digitsOf value
  rw [natural?, same]
  simp [isInteger, ofNat, fits]

theorem NumberLiteral.natural?_lt {literal : NumberLiteral} {value : Nat}
    (read : literal.natural? = some value) : value < significandBound := by
  rw [natural?] at read
  split at read
  · next integer =>
      obtain rfl := Option.some.inj read
      rw [Bool.and_eq_true] at integer
      exact of_decide_eq_true integer.2
  · cases read

theorem NumberLiteral.natural?_of_negative {literal : NumberLiteral}
    (negative : literal.negative = true) : literal.natural? = none := by
  simp [natural?, negative]

theorem NumberLiteral.negativeMagnitude?_ofNat {magnitude : Nat}
    (positive : 0 < magnitude) (fits : magnitude ≤ Nat.pow 2 63) :
    { NumberLiteral.ofNat magnitude with negative := true }.negativeMagnitude? =
      some magnitude := by
  have same : naturalOfDigits (NumberLiteral.ofNat magnitude).whole =
      magnitude := naturalOfDigits_digitsOf magnitude
  rw [negativeMagnitude?, same]
  simp only [isInteger, ofNat, positive, fits]
  rfl

theorem NumberLiteral.negativeMagnitude?_bounds {literal : NumberLiteral}
    {magnitude : Nat} (read : literal.negativeMagnitude? = some magnitude) :
    0 < magnitude ∧ magnitude ≤ Nat.pow 2 63 := by
  rw [negativeMagnitude?] at read
  split at read
  · next integer =>
      obtain rfl := Option.some.inj read
      simp only [Bool.and_eq_true, decide_eq_true_eq] at integer
      exact ⟨integer.1.2, integer.2⟩
  · cases read

/-- An integer that was read from any literal is read from its own. -/
theorem NumberLiteral.number?_literal? {literal written : NumberLiteral}
    {number : Number} (read : literal.number? = some number)
    (known : number.literal? = some written) :
    written.number? = some number := by
  unfold number? at read
  split at read
  next value natural =>
    obtain rfl := Option.some.inj read
    obtain rfl := Option.some.inj known
    rw [number?, natural?_ofNat (natural?_lt natural)]
  next magnitude _ negative =>
    obtain rfl := Option.some.inj read
    obtain rfl := Option.some.inj known
    obtain ⟨positive, fits⟩ := negativeMagnitude?_bounds negative
    rw [number?, natural?_of_negative rfl,
      negativeMagnitude?_ofNat positive fits]
  next =>
    obtain ⟨value, _, rfl⟩ := Option.map_eq_some_iff.1 read
    cases known

end Json

end ProxyLint
