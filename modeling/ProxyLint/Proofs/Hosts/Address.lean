import ProxyLint.Hosts.Address
import ProxyLint.Proofs.Text.Decimal
import ProxyLint.Proofs.Text.Search

/-!
# The form of addresses

An address of version four is four numbers below 256 in decimal notation with
dots in between.  A host without colons is no address of version six.
-/

namespace ProxyLint

namespace Host

/-- Further digits are appended to the notation of a number. -/
theorem toDigits_append_eq {digits : List Char} {value : Nat}
    (positive : 0 < value) (decimal : ∀ digit ∈ digits, digit.isDigit = true) :
    Nat.toDigits 10 value ++ digits =
      Nat.toDigits 10 (digits.foldl
        (fun value digit => value * 10 + (digit.toNat - '0'.toNat)) value) := by
  induction digits generalizing value with
  | nil => simp
  | cons digit digits ih =>
      obtain ⟨bound, written⟩ :=
        Text.digitChar_of_isDigit (decimal digit List.mem_cons_self)
      have appended := Nat.toDigits_append_toDigits (by decide) positive bound
      rw [Nat.toDigits_of_lt_base bound, written, Nat.mul_comm] at appended
      calc
        Nat.toDigits 10 value ++ digit :: digits =
            Nat.toDigits 10 value ++ [digit] ++ digits := by simp
        _ = Nat.toDigits 10 (value * 10 + (digit.toNat - 48)) ++ digits := by
          rw [appended]
        _ = _ := ih (by omega) fun other member =>
          decimal other (List.mem_cons_of_mem _ member)

/-- A number is read back from its notation without leading zeros. -/
theorem toDigits_decimalValue {text : List Char} (nonempty : text ≠ [])
    (decimal : ∀ digit ∈ text, digit.isDigit = true)
    (significant : text.length = 1 ∨ text.head? ≠ some '0') :
    Nat.toDigits 10 (decimalValue text) = text := by
  cases text with
  | nil => exact absurd rfl nonempty
  | cons first later =>
      obtain ⟨bound, written⟩ :=
        Text.digitChar_of_isDigit (decimal first List.mem_cons_self)
      have single : Nat.toDigits 10 (first.toNat - 48) = [first] := by
        rw [Nat.toDigits_of_lt_base bound, written]
      rw [decimalValue, List.foldl_cons, Nat.zero_mul, Nat.zero_add]
      cases later with
      | nil => exact single
      | cons second others =>
          have positive : 0 < first.toNat - 48 := by
            refine Nat.pos_of_ne_zero fun zero => ?_
            rw [zero] at written
            have leading := significant.resolve_left (by simp)
            exact leading (congrArg some written.symm)
          have read := toDigits_append_eq positive fun digit member =>
            decimal digit (List.mem_cons_of_mem _ member)
          rw [single] at read
          exact read.symm

/-- The numbers of an address in decimal notation. -/
theorem isOctet_iff {text : List Char} :
    isOctet text = true ↔ ∃ number < 256, text = Nat.toDigits 10 number := by
  constructor
  · intro octet
    simp only [isOctet, Bool.and_eq_true, Bool.or_eq_true, decide_eq_true_eq,
      Bool.not_eq_true', List.isEmpty_eq_false_iff, List.all_eq_true,
      beq_iff_eq, bne_iff_ne] at octet
    obtain ⟨⟨⟨⟨nonempty, decimal⟩, _⟩, significant⟩, bound⟩ := octet
    exact ⟨decimalValue text, by omega,
      (toDigits_decimalValue nonempty decimal significant).symm⟩
  · rintro ⟨number, bound, rfl⟩
    revert number
    decide +kernel

/-- The form of addresses of version four. -/
def IsDottedQuad (text : List Char) : Prop :=
  ∃ a < 256, ∃ b < 256, ∃ c < 256, ∃ d < 256,
    text = Nat.toDigits 10 a ++ '.' :: (Nat.toDigits 10 b ++
      '.' :: (Nat.toDigits 10 c ++ '.' :: Nat.toDigits 10 d))

theorem not_mem_toDigits {symbol : Char} (other : symbol.isDigit = false)
    (number : Nat) : symbol ∉ Nat.toDigits 10 number := by
  intro member
  have digit := Text.isDigit_of_mem_toDigits member
  rw [other] at digit
  cases digit

theorem isVersionFour_iff {text : List Char} :
    isVersionFour text = true ↔ IsDottedQuad text := by
  rw [isVersionFour, Bool.and_eq_true, beq_iff_eq]
  constructor
  · rintro ⟨four, allOctets⟩
    have whole := Text.intercalate_pieces '.' text
    generalize Text.pieces '.' text = octets at four allOctets whole
    match octets, four with
    | [first, second, third, last], _ =>
        simp only [List.all_cons, List.all_nil, Bool.and_true,
          Bool.and_eq_true, isOctet_iff] at allOctets
        obtain ⟨⟨a, aBound, rfl⟩, ⟨b, bBound, rfl⟩, ⟨c, cBound, rfl⟩,
          d, dBound, rfl⟩ := allOctets
        refine ⟨a, aBound, b, bBound, c, cBound, d, dBound, ?_⟩
        rw [← whole]
        simp
  · rintro ⟨a, aBound, b, bBound, c, cBound, d, dBound, rfl⟩
    have noDot : ∀ number, '.' ∉ Nat.toDigits 10 number :=
      not_mem_toDigits (by decide)
    have cut := Text.pieces_of_not_mem (noDot d)
    rw [Text.pieces_append (noDot a), Text.pieces_append (noDot b),
      Text.pieces_append (noDot c), cut]
    have octet : ∀ number < 256,
        isOctet (Nat.toDigits 10 number) = true := fun number bound =>
      isOctet_iff.2 ⟨number, bound, rfl⟩
    simp [octet, aBound, bBound, cBound, dBound]

theorem withoutPort_of_no_colon {text : List Char} (absent : ':' ∉ text) :
    withoutPort text = text := by
  rw [withoutPort, Text.pieces_of_not_mem absent]

theorem withoutBrackets_of_unbracketed {text : List Char}
    (unbracketed : text.head? ≠ some '[') : withoutBrackets text = text := by
  unfold withoutBrackets
  split
  · simp at unbracketed
  · rfl

theorem cutAtCompression_eq_none {text : List Char} (absent : ':' ∉ text) :
    cutAtCompression text = none := by
  induction text with
  | nil => rfl
  | cons character rest ih =>
      have deeper := ih fun member => absent (List.mem_cons_of_mem _ member)
      unfold cutAtCompression
      split
      next => contradiction
      next same =>
        rw [(List.cons.inj same).1] at absent
        exact absurd List.mem_cons_self absent
      next same =>
        rw [← (List.cons.inj same).2, deeper]
        rfl

/-- An address of version six has colons. -/
theorem isVersionSix_eq_false {text : List Char} (absent : ':' ∉ text) :
    isVersionSix text = false := by
  rw [isVersionSix, cutAtCompression_eq_none absent, groups,
    Text.pieces_of_not_mem absent]
  cases text with
  | nil => rfl
  | cons character rest =>
      by_cases hexadecimal : isGroup (character :: rest) = true
      · simp [groupCount?, hexadecimal]
      · by_cases dotted : isVersionFour (character :: rest) = true <;>
          simp [groupCount?, hexadecimal, dotted]

end Host

open Host

theorem isAddress_eq_isIpv4 {host : String} (absent : ':' ∉ host.toList)
    (unbracketed : host.toList.head? ≠ some '[') :
    isAddress host = isIpv4 host false := by
  simp [isAddress, isIpv6, isIpv4, withoutPort_of_no_colon absent,
    withoutBrackets_of_unbracketed unbracketed, isVersionSix_eq_false absent]

end ProxyLint
