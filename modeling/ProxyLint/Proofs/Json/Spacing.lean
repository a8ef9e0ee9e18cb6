import ProxyLint.Json.Lexer
import ProxyLint.Json.Printer

/-!
# Blanks in written values

The two forms of a value differ only in their blanks.  Both are cases of one
form with any blanks in front of the items of containers and behind colons.
-/

namespace ProxyLint

namespace Json

/-- Where blanks stand: at the start of an item or of a closing bracket inside
some containers, and behind a colon. -/
structure Spacing where
  gap : Nat → List Char
  space : List Char
  isBlank_gap : ∀ level, ∀ character ∈ gap level, isBlank character = true
  isBlank_space : ∀ character ∈ space, isBlank character = true

namespace Spacing

def none : Spacing where
  gap _ := []
  space := []
  isBlank_gap _ _ member := by cases member
  isBlank_space _ member := by cases member

/-- One item a line. -/
def lines : Spacing where
  gap := newLine
  space := [' ']
  isBlank_gap level character member := by
    rcases List.mem_cons.1 member with rfl | member
    · rfl
    · rw [List.eq_of_mem_replicate member]
      rfl
  isBlank_space character member := by
    rw [List.mem_singleton.1 member]
    rfl

@[simp]
theorem gap_none (level : Nat) : none.gap level = [] :=
  rfl

@[simp]
theorem space_none : none.space = [] :=
  rfl

@[simp]
theorem gap_lines (level : Nat) : lines.gap level = newLine level :=
  rfl

@[simp]
theorem space_lines : lines.space = [' '] :=
  rfl

end Spacing

mutual

def Value.spaced (spacing : Spacing) (level : Nat) : Value → List Char
  | .null => ['n', 'u', 'l', 'l']
  | .boolean value => writtenBoolean value
  | .number value => value.written
  | .text value => writtenText value
  | .array [] => ['[', ']']
  | .array (item :: items) =>
      '[' :: (spacing.gap (level + 1) ++ item.spaced spacing (level + 1) ++
        spacedItems spacing (level + 1) items ++ spacing.gap level ++ [']'])
  | .object [] => ['{', '}']
  | .object ((key, value) :: members) =>
      '{' :: (spacing.gap (level + 1) ++ writtenText key ++
        ':' :: (spacing.space ++ value.spaced spacing (level + 1) ++
          spacedMembers spacing (level + 1) members ++ spacing.gap level ++
          ['}']))

def spacedItems (spacing : Spacing) (level : Nat) : List Value → List Char
  | [] => []
  | item :: items =>
      ',' :: (spacing.gap level ++ item.spaced spacing level ++
        spacedItems spacing level items)

def spacedMembers (spacing : Spacing) (level : Nat) :
    List (String × Value) → List Char
  | [] => []
  | (key, value) :: members =>
      ',' :: (spacing.gap level ++ writtenText key ++
        ':' :: (spacing.space ++ value.spaced spacing level ++
          spacedMembers spacing level members))

end

mutual

theorem Value.spaced_none : (value : Value) → (level : Nat) →
    value.spaced .none level = value.compact
  | .null, _ | .boolean _, _ | .number _, _ | .text _, _ | .array [], _
  | .object [], _ => by rw [Value.spaced, Value.compact]
  | .array (item :: items), level => by
      simp [Value.spaced, Value.compact, item.spaced_none,
        spacedItems_none items]
  | .object ((key, value) :: members), level => by
      simp [Value.spaced, Value.compact, value.spaced_none,
        spacedMembers_none members]

theorem spacedItems_none : (items : List Value) → (level : Nat) →
    spacedItems .none level items = compactItems items
  | [], _ => by rw [spacedItems, compactItems]
  | item :: items, level => by
      simp [spacedItems, compactItems, item.spaced_none,
        spacedItems_none items]

theorem spacedMembers_none : (members : List (String × Value)) →
    (level : Nat) → spacedMembers .none level members = compactMembers members
  | [], _ => by rw [spacedMembers, compactMembers]
  | (key, value) :: members, level => by
      simp [spacedMembers, compactMembers, value.spaced_none,
        spacedMembers_none members]

end

mutual

theorem Value.spaced_lines : (value : Value) → (level : Nat) →
    value.spaced .lines level = value.indented level
  | .null, _ | .boolean _, _ | .number _, _ | .text _, _ | .array [], _
  | .object [], _ => by rw [Value.spaced, Value.indented]
  | .array (item :: items), level => by
      simp [Value.spaced, Value.indented, item.spaced_lines,
        spacedItems_lines items]
  | .object ((key, value) :: members), level => by
      simp [Value.spaced, Value.indented, value.spaced_lines,
        spacedMembers_lines members]

theorem spacedItems_lines : (items : List Value) → (level : Nat) →
    spacedItems .lines level items = indentedItems level items
  | [], _ => by rw [spacedItems, indentedItems]
  | item :: items, level => by
      simp [spacedItems, indentedItems, item.spaced_lines,
        spacedItems_lines items]

theorem spacedMembers_lines : (members : List (String × Value)) →
    (level : Nat) →
    spacedMembers .lines level members = indentedMembers level members
  | [], _ => by rw [spacedMembers, indentedMembers]
  | (key, value) :: members, level => by
      simp [spacedMembers, indentedMembers, value.spaced_lines,
        spacedMembers_lines members]

end

end Json

end ProxyLint
