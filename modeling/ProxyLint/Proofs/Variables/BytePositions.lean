import ProxyLint.Proofs.Variables.Segmentation
import Mathlib.Data.String.Basic

/-!
# Byte positions in a script

A script can be cut by going over its UTF-8 bytes with a position and taking
out the part between two positions whenever a segment is complete.  A text has
a part between two positions only if both are borders of characters and stand
in order.  The main statement is that no part is ever asked for that the text
does not have, whatever characters stand next to the dollar signs, and that the
segments are those of the cut by characters.
-/

namespace ProxyLint

namespace ByteCut

/-- The bytes of a text, each as the character with its number. -/
def bytes (text : String) : List Char :=
  text.toByteArray.data.toList.map Char.ofUInt8

/-- The part of a text between two positions that are borders of characters. -/
def slice? (text : String) (start stop : Nat) : Option String :=
  if start ≤ stop ∧ String.Pos.Raw.isValid text ⟨start⟩ = true ∧
      String.Pos.Raw.isValid text ⟨stop⟩ = true then
    some (String.Pos.Raw.extract text ⟨start⟩ ⟨stop⟩)
  else none

/-- The bytes behind a position in a text. -/
def bytesFrom? (text : String) (start : Nat) : Option (List Char) :=
  if start ≤ (bytes text).length then some ((bytes text).drop start) else none

/-- How many bytes stand before the first closing brace. -/
def closing? (characters : List Char) : Option Nat :=
  match characters.dropWhile (· != '}') with
  | [] => none
  | _ :: _ => some (String.utf8Len (characters.takeWhile (· != '}')))

/-- The name between two positions with the position behind its variable. -/
def nameBetween? (text : String) (start stop behind : Nat) :
    Option (Except ScriptFault (String × Nat)) :=
  (slice? text start stop).map fun name =>
    if Script.isName (bytes name) then .ok (name, behind)
    else .error .invalidName

/-- The name behind a dollar sign, which starts at the given position or at the
brace there. -/
def nameAt? (text : String) (start : Nat) :
    Option (Except ScriptFault (String × Nat)) :=
  if (bytes text)[start]? = some '{' then do
    let inside ← slice? text (start + 1) (bytes text).length
    match closing? inside.toList with
    | none => some (.error .unterminatedVariable)
    | some length =>
        nameBetween? text (start + 1) (start + 1 + length) (start + 2 + length)
  else if (bytes text)[start]?.any Char.isDigit then
    nameBetween? text start (start + 1) (start + 1)
  else do
    let rest ← bytesFrom? text start
    let stop := start + (rest.takeWhile Script.isNameCharacter).length
    nameBetween? text start stop stop

/-- The literal fragment between two positions, if there is something between
them. -/
def fragment? (text : String) (start stop : Nat) : Option (List Segment) :=
  if start < stop then (fun part => [.literal part]) <$> slice? text start stop
  else some []

theorem eq_of_nameBetween? {text name : String}
    {start stop behind next : Nat}
    (found : nameBetween? text start stop behind = some (.ok (name, next))) :
    next = behind := by
  obtain ⟨part, _, found⟩ := Option.map_eq_some_iff.1 found
  split at found <;> cases found
  rfl

theorem le_of_nameAt? {text name : String} {start stop : Nat}
    (found : nameAt? text start = some (.ok (name, stop))) : start ≤ stop := by
  unfold nameAt? at found
  split at found
  · obtain ⟨inside, _, found⟩ := Option.bind_eq_some_iff.1 found
    split at found
    · cases found
    · have := eq_of_nameBetween? found
      omega
  · split at found
    · have := eq_of_nameBetween? found
      omega
    · obtain ⟨rest, _, found⟩ := Option.bind_eq_some_iff.1 found
      have := eq_of_nameBetween? found
      omega

/-- Cut a text from a position on, behind a fragment that starts at another
position. -/
def cut (text : String) (fragmentStart position : Nat) :
    Option (Except ScriptFault (List Segment)) :=
  if inside : position < (bytes text).length then
    if (bytes text)[position] ≠ '$' then cut text fragmentStart (position + 1)
    else
      match fragment? text fragmentStart position with
      | none => none
      | some fragment =>
          match found : nameAt? text (position + 1) with
          | none => none
          | some (.error fault) => some (.error fault)
          | some (.ok (name, stop)) =>
              have := le_of_nameAt? found
              (fun outcome => (fun later =>
                fragment ++ .variable name :: later) <$> outcome) <$>
                cut text stop stop
  else .ok <$> fragment? text fragmentStart (bytes text).length
termination_by (bytes text).length - position

/-- The bytes of a character. -/
def unit (character : Char) : List Char :=
  (String.utf8EncodeChar character).map Char.ofUInt8

theorem bytes_ofList (characters : List Char) :
    bytes (String.ofList characters) = characters.flatMap unit := by
  rw [bytes, String.toByteArray_ofList, List.utf8Encode, List.data_toByteArray,
    List.map_flatMap]
  rfl

theorem length_unit (character : Char) :
    (unit character).length = character.utf8Size := by
  rw [unit, List.length_map, String.length_utf8EncodeChar]

theorem length_flatMap_unit (characters : List Char) :
    (characters.flatMap unit).length = String.utf8Len characters := by
  induction characters with
  | nil => rfl
  | cons character rest ih =>
      rw [List.flatMap_cons, List.length_append, ih, length_unit,
        String.utf8Len_cons, Nat.add_comm]

/-- An ASCII character is its own only byte. -/
theorem unit_of_lt {character : Char} (ascii : character.toNat < 128) :
    unit character = [character] := by
  have small : character.val ≤ 127 :=
    UInt32.le_iff_toNat_le.2 (Nat.le_of_lt_succ ascii)
  rw [unit, String.utf8EncodeChar_eq_singleton
    (Char.utf8Size_eq_one_iff.2 small), List.map_singleton]
  congr 1
  refine Char.ext (UInt32.toNat_inj.1 ?_)
  change character.val.toUInt8.toUInt32.toNat = character.val.toNat
  rw [UInt8.toNat_toUInt32, UInt32.toNat_toUInt8]
  exact Nat.mod_eq_of_lt (Nat.lt_trans ascii (by decide))

/-- All bytes of other characters are no ASCII characters. -/
theorem le_of_mem_unit {character byte : Char}
    (wide : 128 ≤ character.toNat) (member : byte ∈ unit character) :
    128 ≤ byte.toNat := by
  obtain ⟨code, encodes, rfl⟩ := List.mem_map.1 member
  change 128 ≤ code.toNat
  have wideValue : ¬ character.val.toNat ≤ 127 := Nat.not_le_of_lt wide
  have marked (value : Nat) (low : 128 ≤ value) (high : value < 256) :
      128 ≤ (UInt8.ofNat value).toNat := by
    rw [UInt8.toNat_ofNat', Nat.mod_eq_of_lt high]
    exact low
  unfold String.utf8EncodeChar at encodes
  simp only [if_neg wideValue] at encodes
  split at encodes
  · simp only [List.mem_cons, List.not_mem_nil, or_false] at encodes
    rcases encodes with rfl | rfl <;> exact marked _ (by omega) (by omega)
  · split at encodes
    · simp only [List.mem_cons, List.not_mem_nil, or_false] at encodes
      rcases encodes with rfl | rfl | rfl <;>
        exact marked _ (by omega) (by omega)
    · simp only [List.mem_cons, List.not_mem_nil, or_false] at encodes
      rcases encodes with rfl | rfl | rfl | rfl <;>
        exact marked _ (by omega) (by omega)

/-- A test that only ASCII characters pass. -/
def OnlyAscii (test : Char → Bool) : Prop :=
  ∀ character, 128 ≤ character.toNat → test character = false

theorem onlyAscii_isDigit : OnlyAscii Char.isDigit := by
  intro character wide
  rw [Bool.eq_false_iff]
  intro digit
  have most : character.toNat ≤ 57 := (Char.isDigit_iff_toNat.1 digit).2
  omega

theorem onlyAscii_isNameCharacter : OnlyAscii Script.isNameCharacter := by
  intro character wide
  have noDigit := onlyAscii_isDigit character wide
  have noMark : character ≠ '_' := by
    rintro rfl
    exact absurd wide (by decide)
  have beyond (last : UInt32) (ascii : last.toNat < 128) :
      ¬ character.val ≤ last := by
    rw [UInt32.le_iff_toNat_le]
    exact Nat.not_le_of_lt (Nat.lt_of_lt_of_le ascii wide)
  have noCapital : character.isUpper = false :=
    decide_eq_false fun bounds => beyond 90 (by decide) bounds.2
  have noSmall : character.isLower = false :=
    Bool.and_eq_false_iff.2 (.inr (decide_eq_false (beyond 122 (by decide))))
  have noLetter : character.isAlpha = false :=
    Bool.or_eq_false_iff.2 ⟨noCapital, noSmall⟩
  simp [Script.isNameCharacter, Char.isAlphanum, noDigit, noMark, noLetter]

theorem onlyAscii_beq {mark : Char} (ascii : mark.toNat < 128) :
    OnlyAscii (· == mark) := by
  intro character wide
  rw [beq_eq_false_iff_ne]
  rintro rfl
  omega

section Tests

variable {test : Char → Bool} (onlyAscii : OnlyAscii test)

include onlyAscii

/-- The bytes of a character pass a test if the character does. -/
theorem unit_cases (character : Char) :
    (unit character = [character] ∨ test character = false) ∧
      ∃ first others, unit character = first :: others ∧
        test first = test character := by
  rcases Nat.lt_or_ge character.toNat 128 with ascii | wide
  · have own := unit_of_lt ascii
    exact ⟨.inl own, character, [], own, rfl⟩
  · refine ⟨.inr (onlyAscii character wide), ?_⟩
    obtain ⟨first, others, split⟩ : ∃ first others,
        unit character = first :: others :=
      List.exists_cons_of_ne_nil fun empty => by
        have := length_unit character
        have := character.utf8Size_pos
        rw [empty, List.length_nil] at *
        omega
    refine ⟨first, others, split, ?_⟩
    rw [onlyAscii character wide, onlyAscii first
      (le_of_mem_unit wide (split ▸ List.mem_cons_self))]

/-- As far as a test is passed, bytes and characters are the same. -/
theorem takeWhile_flatMap_unit (characters : List Char) :
    (characters.flatMap unit).takeWhile test = characters.takeWhile test := by
  induction characters with
  | nil => rfl
  | cons character rest ih =>
      obtain ⟨alone, first, others, split, same⟩ :=
        unit_cases onlyAscii character
      rw [List.flatMap_cons, List.takeWhile_cons]
      cases passed : test character with
      | true =>
          rw [alone.resolve_right (by simp [passed]), List.singleton_append,
            List.takeWhile_cons, passed, ih]
      | false =>
          rw [split, List.cons_append, List.takeWhile_cons, same, passed]
          rfl

theorem any_head?_flatMap_unit (characters : List Char) :
    (characters.flatMap unit).head?.any test = characters.head?.any test := by
  cases characters with
  | nil => rfl
  | cons character rest =>
      obtain ⟨_, first, others, split, same⟩ := unit_cases onlyAscii character
      rw [List.flatMap_cons, split]
      exact same

theorem all_flatMap_unit (characters : List Char) :
    (characters.flatMap unit).all test = characters.all test := by
  induction characters with
  | nil => rfl
  | cons character rest ih =>
      obtain ⟨alone, first, others, split, same⟩ :=
        unit_cases onlyAscii character
      rw [List.flatMap_cons, List.all_append, ih, List.all_cons]
      cases passed : test character with
      | true =>
          rw [alone.resolve_right (by simp [passed])]
          simp [passed]
      | false =>
          rw [split]
          simp [same, passed]

end Tests

/-- An ASCII character stands first among the bytes if it stands first. -/
theorem head?_flatMap_unit {mark : Char} (ascii : mark.toNat < 128)
    (characters : List Char) :
    (characters.flatMap unit).head? = some mark ↔
      characters.head? = some mark := by
  have same := any_head?_flatMap_unit (onlyAscii_beq ascii) characters
  rw [Bool.eq_iff_iff] at same
  simpa [Option.any_eq_true, Option.mem_def] using same

theorem isName_bytes (name : List Char) :
    Script.isName (bytes (String.ofList name)) = Script.isName name := by
  have present : (name.flatMap unit).isEmpty = name.isEmpty := by
    rw [Bool.eq_iff_iff, List.isEmpty_iff_length_eq_zero,
      List.isEmpty_iff_length_eq_zero, length_flatMap_unit,
      String.utf8Len_eq_zero, List.length_eq_zero_iff]
  rw [bytes_ofList, Script.isName, Script.isName, present,
    all_flatMap_unit onlyAscii_isNameCharacter]

/-- The bytes of a run of ASCII characters are counted like characters. -/
theorem utf8Len_of_onlyAscii {test : Char → Bool} (onlyAscii : OnlyAscii test)
    {run : List Char} (passed : ∀ character ∈ run, test character = true) :
    String.utf8Len run = run.length := by
  induction run with
  | nil => rfl
  | cons character run ih =>
      obtain ⟨own, later⟩ := List.forall_mem_cons.1 passed
      have alone := (unit_cases onlyAscii character).1.resolve_right
        (by simp [own])
      have single := length_unit character
      rw [alone, List.length_singleton] at single
      rw [String.utf8Len_cons, ih later, ← single, List.length_cons]

/-- The border between two parts of a text is a border of characters. -/
theorem isValid_append (front rest : List Char) :
    String.Pos.Raw.isValid (String.ofList (front ++ rest))
      ⟨String.utf8Len front⟩ = true := by
  rw [String.Pos.Raw.isValid_eq_true_iff,
    String.Pos.Raw.isValid_iff_exists_append]
  refine ⟨String.ofList front, String.ofList rest, String.ofList_append, ?_⟩
  rw [String.rawEndPos, String.utf8ByteSize_ofList]

theorem slice?_append (front middle back : List Char) :
    slice? (String.ofList (front ++ middle ++ back)) (String.utf8Len front)
        (String.utf8Len (front ++ middle)) =
      some (String.ofList middle) := by
  have start := isValid_append front (middle ++ back)
  rw [← List.append_assoc] at start
  have stop := isValid_append (front ++ middle) back
  have part := String.extract_of_valid front middle back
  rw [← String.utf8Len_append] at part
  rw [slice?, if_pos ⟨by simp [String.utf8Len_append], start, stop⟩, part]

theorem getElem?_bytes (front rest : List Char) :
    (bytes (String.ofList (front ++ rest)))[String.utf8Len front]? =
      (rest.flatMap unit).head? := by
  rw [bytes_ofList, List.flatMap_append, ← length_flatMap_unit,
    List.getElem?_append_right le_rfl, Nat.sub_self, List.head?_eq_getElem?]

theorem bytesFrom?_append (front rest : List Char) :
    bytesFrom? (String.ofList (front ++ rest)) (String.utf8Len front) =
      some (rest.flatMap unit) := by
  rw [bytesFrom?, bytes_ofList, List.flatMap_append, ← length_flatMap_unit,
    if_pos (by simp), List.drop_left]

theorem length_bytes (characters : List Char) :
    (bytes (String.ofList characters)).length = String.utf8Len characters := by
  rw [bytes_ofList, length_flatMap_unit]

theorem fragment?_append (front middle back : List Char) :
    fragment? (String.ofList (front ++ middle ++ back)) (String.utf8Len front)
        (String.utf8Len (front ++ middle)) =
      some (Script.flush middle.reverse []) := by
  rw [fragment?, slice?_append, String.utf8Len_append]
  cases middle with
  | nil => simp [Script.flush]
  | cons first later =>
      have := first.utf8Size_pos
      rw [if_pos (by rw [String.utf8Len_cons]; omega)]
      simp [Script.flush]

/-- The name that is read, with the position behind its variable when the text
ends at the given position. -/
def located (stop : Nat) : Except ScriptFault (List Char × List Char) →
    Except ScriptFault (String × Nat)
  | .error fault => .error fault
  | .ok (name, after) => .ok (String.ofList name, stop - String.utf8Len after)

/-- A name is taken out between borders of characters. -/
theorem nameBetween?_append (front name gap after : List Char) :
    nameBetween? (String.ofList (front ++ name ++ (gap ++ after)))
        (String.utf8Len front) (String.utf8Len (front ++ name))
        (String.utf8Len (front ++ name ++ gap)) =
      some (located (String.utf8Len (front ++ name ++ (gap ++ after)))
        (if Script.isName name then .ok (name, after)
        else .error .invalidName)) := by
  have behind : String.utf8Len (front ++ name ++ (gap ++ after)) -
      String.utf8Len after = String.utf8Len (front ++ name ++ gap) := by
    rw [← List.append_assoc, String.utf8Len_append, Nat.add_sub_cancel]
  rw [nameBetween?, slice?_append, Option.map_some, isName_bytes]
  split
  · rw [located, behind]
  · rfl

theorem nameAt?_braced (front inside : List Char) :
    nameAt? (String.ofList (front ++ '{' :: inside)) (String.utf8Len front) =
      some (located (String.utf8Len (front ++ '{' :: inside))
        (Script.nameAt ('{' :: inside))) := by
  have opened : (bytes (String.ofList (front ++ '{' :: inside)))[
      String.utf8Len front]? = some '{' := by
    rw [getElem?_bytes, head?_flatMap_unit (by decide)]
    rfl
  let before := front ++ ['{']
  have border : String.utf8Len before = String.utf8Len front + 1 :=
    String.utf8Len_append _ _
  have whole : front ++ '{' :: inside = before ++ inside := by simp [before]
  have between := slice?_append before inside []
  rw [List.append_nil] at between
  rw [nameAt?, if_pos opened, length_bytes, whole, ← border]
  simp only [between, Option.bind_eq_bind, Option.bind_some,
    String.toList_ofList, closing?, Script.nameAt]
  cases dropped : inside.dropWhile (· != '}') with
  | nil => rfl
  | cons closing after =>
      have closes := List.head?_dropWhile_not (· != '}') inside
      rw [dropped] at closes
      obtain rfl : closing = '}' := by simpa using closes
      let name := inside.takeWhile (· != '}')
      have split : inside = name ++ (['}'] ++ after) := by
        rw [List.singleton_append, ← dropped,
          List.takeWhile_append_dropWhile]
      have taken := nameBetween?_append before name ['}'] after
      have behind : String.utf8Len (before ++ name ++ ['}']) =
          String.utf8Len front + 2 + String.utf8Len name := by
        have brace : String.utf8Len ['}'] = 1 := rfl
        rw [String.utf8Len_append, String.utf8Len_append, border, brace]
        omega
      rw [List.append_assoc, ← split, behind, String.utf8Len_append before]
        at taken
      exact taken

theorem nameAt?_bare (front : List Char) {rest : List Char}
    (unbraced : rest.head? ≠ some '{') :
    nameAt? (String.ofList (front ++ rest)) (String.utf8Len front) =
      some (located (String.utf8Len (front ++ rest)) (Script.nameAt rest)) := by
  have first := getElem?_bytes front rest
  have unopened : (rest.flatMap unit).head? ≠ some '{' := by
    rwa [Ne, head?_flatMap_unit (by decide)]
  have found : Script.nameAt rest =
      if rest.head?.any Char.isDigit then .ok (rest.take 1, rest.drop 1)
      else if (rest.takeWhile Script.isNameCharacter).isEmpty then
        .error .invalidName
      else .ok (rest.takeWhile Script.isNameCharacter,
        rest.dropWhile Script.isNameCharacter) := by
    unfold Script.nameAt
    split
    next => exact absurd rfl unbraced
    next => rfl
  rw [nameAt?, first, if_neg unopened,
    any_head?_flatMap_unit onlyAscii_isDigit, found]
  split
  next numbered =>
    cases rest with
    | nil => cases numbered
    | cons digit after =>
        have single : String.utf8Len [digit] = 1 :=
          utf8Len_of_onlyAscii onlyAscii_isDigit
            (List.forall_mem_singleton.2 numbered)
        have bare : Script.BareName [digit] after := .digit numbered
        have valid : Script.isName [digit] = true := bare.isName
        have taken := nameBetween?_append front [digit] [] after
        rw [if_pos valid, List.append_nil, String.utf8Len_append _ [digit],
          single] at taken
        simpa using taken
  next =>
    let name := rest.takeWhile Script.isNameCharacter
    let after := rest.dropWhile Script.isNameCharacter
    have split : rest = name ++ ([] ++ after) :=
      List.takeWhile_append_dropWhile.symm
    have inside : name.all Script.isNameCharacter = true :=
      List.all_takeWhile
    have taken := nameBetween?_append front name [] after
    rw [List.append_nil, List.append_assoc, ← split, String.utf8Len_append,
      utf8Len_of_onlyAscii onlyAscii_isNameCharacter
        (List.all_eq_true.1 inside), Script.isName, inside, Bool.and_true]
      at taken
    rw [bytesFrom?_append, Option.bind_eq_bind, Option.bind_some,
      takeWhile_flatMap_unit onlyAscii_isNameCharacter]
    refine taken.trans ?_
    cases name.isEmpty <;> rfl

/-- The name that is read at a position is the one that stands there. -/
theorem nameAt?_append (front rest : List Char) :
    nameAt? (String.ofList (front ++ rest)) (String.utf8Len front) =
      some (located (String.utf8Len (front ++ rest)) (Script.nameAt rest)) := by
  by_cases opened : rest.head? = some '{'
  · obtain ⟨inside, rfl⟩ := List.head?_eq_some_iff.1 opened
    exact nameAt?_braced front inside
  · exact nameAt?_bare front opened

/-- Bytes other than dollar signs are passed over. -/
theorem cut_skip {text : String} {before passed after : List Char}
    (whole : bytes text = before ++ passed ++ after)
    (others : ∀ byte ∈ passed, byte ≠ '$') (fragmentStart : Nat) :
    cut text fragmentStart before.length =
      cut text fragmentStart (before ++ passed).length := by
  induction passed generalizing before with
  | nil => rw [List.append_nil]
  | cons byte passed ih =>
      obtain ⟨other, later⟩ := List.forall_mem_cons.1 others
      have inside : before.length < (bytes text).length := by
        simp [whole]
      have here : (bytes text)[before.length] = byte := by
        simp [whole]
      have step : (before ++ [byte]).length = before.length + 1 := by simp
      rw [cut, dif_pos inside, here, if_pos other, ← step,
        ih (by simp [whole]) later, List.append_assoc, List.singleton_append]

/-- A character other than the dollar sign has no byte in common with it. -/
theorem ne_of_mem_unit {character byte : Char} (other : character ≠ '$')
    (member : byte ∈ unit character) : byte ≠ '$' := by
  rintro rfl
  rcases Nat.lt_or_ge character.toNat 128 with ascii | wide
  · rw [unit_of_lt ascii, List.mem_singleton] at member
    exact other member.symm
  · exact absurd (le_of_mem_unit wide member) (by decide)

section Mention

variable {text : String} {fragmentStart position : Nat}
  {fragment : List Segment} (here : (bytes text)[position]? = some '$')
  (pending : fragment? text fragmentStart position = some fragment)

include here pending

theorem cut_error {fault : ScriptFault}
    (unnamed : nameAt? text (position + 1) = some (.error fault)) :
    cut text fragmentStart position = some (.error fault) := by
  obtain ⟨inside, dollar⟩ := List.getElem?_eq_some_iff.1 here
  rw [cut, dif_pos inside, dollar, if_neg (not_not.2 rfl)]
  simp only [pending]
  split
  next missing => simp [unnamed] at missing
  next other again =>
    rw [unnamed] at again
    cases again
    rfl
  next name stop found => simp [unnamed] at found

theorem cut_variable {name : String} {stop : Nat}
    (found : nameAt? text (position + 1) = some (.ok (name, stop))) :
    cut text fragmentStart position =
      (fun outcome => (fun later => fragment ++ .variable name :: later) <$>
        outcome) <$> cut text stop stop := by
  obtain ⟨inside, dollar⟩ := List.getElem?_eq_some_iff.1 here
  rw [cut, dif_pos inside, dollar, if_neg (not_not.2 rfl)]
  simp only [pending]
  split
  next missing => simp [found] at missing
  next fault unnamed => simp [found] at unnamed
  next other behind again =>
    rw [found] at again
    cases again
    rfl

end Mention

theorem flush_nil_append (fragment : List Char) (parts : List Segment) :
    Script.flush fragment [] ++ parts = Script.flush fragment parts := by
  unfold Script.flush
  split <;> rfl

/-- Cutting by positions goes on from the border of a character as cutting by
characters does. -/
theorem cut_append {fragment rest : List Char} :
    ∀ front : List Char,
      cut (String.ofList (front ++ fragment.reverse ++ rest))
          (String.utf8Len front)
          (String.utf8Len (front ++ fragment.reverse)) =
        some (Script.split fragment rest) := by
  -- Where a dollar sign stands, the pending fragment and the name are taken.
  have taken (front fragment rest : List Char) :
      (bytes (String.ofList (front ++ fragment.reverse ++ '$' :: rest)))[
          String.utf8Len (front ++ fragment.reverse)]? = some '$' ∧
        fragment? (String.ofList (front ++ fragment.reverse ++ '$' :: rest))
            (String.utf8Len front) (String.utf8Len (front ++ fragment.reverse)) =
          some (Script.flush fragment []) ∧
        nameAt? (String.ofList (front ++ fragment.reverse ++ '$' :: rest))
            (String.utf8Len (front ++ fragment.reverse) + 1) =
          some (located (String.utf8Len
            (front ++ fragment.reverse ++ '$' :: rest))
              (Script.nameAt rest)) := by
    have pending := fragment?_append front fragment.reverse ('$' :: rest)
    have named := nameAt?_append (front ++ fragment.reverse ++ ['$']) rest
    rw [List.reverse_reverse] at pending
    rw [String.utf8Len_append _ ['$'], List.append_assoc _ ['$'],
      List.singleton_append] at named
    refine ⟨?_, pending, named⟩
    rw [getElem?_bytes, head?_flatMap_unit (by decide)]
    rfl
  fun_induction Script.split fragment rest with
  | case1 fragment =>
      intro front
      have last := fragment?_append front fragment.reverse []
      rw [List.append_nil] at last
      rw [List.append_nil, cut, dif_neg (by rw [length_bytes]; exact lt_irrefl _),
        length_bytes, last, List.reverse_reverse]
      rfl
  | case2 fragment rest fault unnamed =>
      intro front
      obtain ⟨here, pending, named⟩ := taken front fragment rest
      rw [unnamed] at named
      exact cut_error here pending named
  | case3 fragment rest name after found _ ih =>
      intro front
      obtain ⟨here, pending, named⟩ := taken front fragment rest
      rw [found] at named
      rw [cut_variable here pending named]
      obtain ⟨own, _, whole⟩ :=
        (Script.nameAt_eq_ok_iff.1 found).exists_spelling
      have behind := ih (front ++ fragment.reverse ++ own)
      rw [List.reverse_nil, List.append_nil, List.append_assoc _ own,
        ← whole] at behind
      have stop : String.utf8Len (front ++ fragment.reverse ++ '$' :: rest) -
          String.utf8Len after =
            String.utf8Len (front ++ fragment.reverse ++ own) := by
        rw [whole, ← List.append_assoc, String.utf8Len_append,
          Nat.add_sub_cancel]
      have joined (later : List Segment) :=
        flush_nil_append fragment (.variable (String.ofList name) :: later)
      rw [stop, behind]
      simp only [joined]
      rfl
  | case4 fragment character rest other ih =>
      intro front
      let before := (front ++ fragment.reverse).flatMap unit
      have whole : bytes (String.ofList (front ++ fragment.reverse ++
          character :: rest)) = before ++ unit character ++
            rest.flatMap unit := by
        rw [bytes_ofList]
        simp [before]
      have skipped := cut_skip whole
        (fun byte member => ne_of_mem_unit other member) (String.utf8Len front)
      have next : (before ++ unit character).length =
          String.utf8Len (front ++ (character :: fragment).reverse) := by
        rw [← length_flatMap_unit]
        simp [before]
      have tail : front ++ fragment.reverse ++ character :: rest =
          front ++ (character :: fragment).reverse ++ rest := by
        simp
      rw [← length_flatMap_unit (front ++ fragment.reverse), skipped, next,
        tail]
      exact ih front

/-- The segments that going over the bytes of a text finds, if it never asks
for a part that the text does not have. -/
def segments? (text : String) : Option (Except ScriptError (List Segment)) :=
  (cut text 0 0).map fun outcome =>
    match outcome with
    | .ok parts => .ok parts
    | .error fault => .error ⟨fault, text⟩

/-- Every part of the text that is taken out exists, and the segments are those
of the cut by characters. -/
theorem segments?_eq (text : String) :
    segments? text = some (segments text) := by
  have found := @cut_append [] text.toList []
  rw [List.reverse_nil, List.append_nil, List.nil_append,
    String.ofList_toList] at found
  have start : String.utf8Len [] = 0 := rfl
  rw [start] at found
  rw [segments?, found, Option.map_some]
  rfl

end ByteCut

/-- Cutting a script undoes writing it.  A text is cut exactly if a name follows
every dollar sign that is met from left to right.  Its segments have these
names, are written as the text and are in normal form, and going over its bytes
finds them with no part taken out that the text does not have.  Conversely
segments in normal form, written with braces, are found again. -/
theorem segments_undo_writing (text : String) :
    ((∃ parts, segments text = .ok parts) ↔
      ∃ names, Script.Scans text.toList names) ∧
    (∀ parts, segments text = .ok parts →
      Script.Scans text.toList (parts.filterMap Segment.name?) ∧
        Script.WrittenAs parts text.toList ∧ Script.Normal parts) ∧
    ByteCut.segments? text = some (segments text) ∧
    ∀ parts, Script.Normal parts →
      segments (Script.braced parts) = .ok parts := by
  refine ⟨⟨?_, ?_⟩, ?_, ByteCut.segments?_eq text,
    fun parts => segments_braced⟩
  · rintro ⟨parts, cut⟩
    exact ⟨_, Script.split_names_iff.1 ⟨parts, segments_eq_ok_iff.1 cut, rfl⟩⟩
  · rintro ⟨names, scans⟩
    obtain ⟨parts, cut, _⟩ :=
      (@Script.split_names_iff [] text.toList names).2 scans
    exact ⟨parts, segments_eq_ok_iff.2 cut⟩
  · intro parts cut
    have found := segments_eq_ok_iff.1 cut
    exact ⟨Script.split_names_iff.1 ⟨parts, found, rfl⟩,
      Script.writtenAs_of_split found, Script.normal_of_split (by simp) found⟩

end ProxyLint
