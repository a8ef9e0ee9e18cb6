import ProxyLint.Proofs.Text.Search
import ProxyLint.Text.Blank
import Mathlib.Data.List.Basic
import Mathlib.Data.List.TakeWhile

/-!
# Cutting blanks off

A trimmed text is the part of the text between blanks that neither starts nor
ends with a blank.  There is only one such part, so trimming can be described
without saying how it is done.
-/

namespace ProxyLint

namespace Text

/-- What a text has between the blanks at its ends. -/
structure IsCore (text core : List Char) : Prop where
  framed : ∃ before after, text = before ++ (core ++ after) ∧
    (∀ character ∈ before, isBlank character = true) ∧
    ∀ character ∈ after, isBlank character = true
  starts : ∀ character ∈ core.head?, isBlank character = false
  ends : ∀ character ∈ core.getLast?, isBlank character = false

theorem exists_append_dropBlanks (text : List Char) :
    ∃ before, text = before ++ dropBlanks text ∧
      ∀ character ∈ before, isBlank character = true :=
  ⟨text.takeWhile isBlank, List.takeWhile_append_dropWhile.symm,
    fun _ member => List.mem_takeWhile_imp member⟩

theorem head?_dropBlanks (text : List Char) :
    ∀ character ∈ (dropBlanks text).head?, isBlank character = false := by
  intro character first
  have stops := List.head?_dropWhile_not isBlank text
  rw [dropBlanks] at first
  rw [Option.mem_def.1 first] at stops
  exact stops

theorem dropBlanks_append {before rest : List Char}
    (blank : ∀ character ∈ before, isBlank character = true)
    (stops : ∀ character ∈ rest.head?, isBlank character = false) :
    dropBlanks (before ++ rest) = rest :=
  (run_of_append blank stops).2

/-- Trimming finds the part between the blanks. -/
theorem isCore_trim (text : String) : IsCore text.toList (trim text).toList := by
  obtain ⟨before, cut, blankBefore⟩ := exists_append_dropBlanks text.toList
  obtain ⟨after, cutBehind, blankAfter⟩ :=
    exists_append_dropBlanks (dropBlanks text.toList).reverse
  have front := head?_dropBlanks text.toList
  have back := head?_dropBlanks (dropBlanks text.toList).reverse
  rw [List.reverse_eq_iff, List.reverse_append] at cutBehind
  rw [trim, String.toList_ofList]
  refine ⟨⟨before, after.reverse, ?_, blankBefore, ?_⟩, ?_, ?_⟩
  · rw [← cutBehind]
    exact cut
  · exact fun character member => blankAfter character (List.mem_reverse.1 member)
  · intro character first
    refine front character ?_
    rw [cutBehind]
    exact List.mem_head?_append_of_mem_head? first
  · rw [List.getLast?_reverse]
    exact back

theorem eq_trim_of_isCore {text core : String}
    (middle : IsCore text.toList core.toList) : core = trim text := by
  obtain ⟨⟨before, after, cut, blankBefore, blankAfter⟩, starts, ends⟩ := middle
  rw [trim, cut, ← String.toList_inj, String.toList_ofList]
  cases nonempty : core.toList with
  | nil =>
      have all : dropBlanks (before ++ ([] ++ after)) = [] := by
        rw [dropBlanks, List.dropWhile_eq_nil_iff]
        intro character member
        rcases List.mem_append.1 member with member | member
        · exact blankBefore character member
        · exact blankAfter character member
      rw [all]
      rfl
  | cons first rest =>
      rw [nonempty] at starts ends
      have rear : dropBlanks (before ++ (first :: rest ++ after)) =
          first :: rest ++ after :=
        dropBlanks_append blankBefore starts
      have turned : (first :: rest ++ after).reverse =
          after.reverse ++ (first :: rest).reverse :=
        List.reverse_append
      rw [rear, turned, dropBlanks_append
        (fun character member => blankAfter character (List.mem_reverse.1 member))
        (by rw [List.head?_reverse]; exact ends), List.reverse_reverse]

/-- A trimmed text that is not empty has more than blanks. -/
theorem IsCore.isBlankText_eq_false {text : List Char} {core : String}
    (middle : IsCore text core.toList) (nonempty : core ≠ "") :
    isBlankText core = false := by
  cases characters : core.toList with
  | nil => exact absurd (String.toList_eq_nil_iff.1 characters) nonempty
  | cons first rest =>
      have starts := middle.starts
      rw [characters] at starts
      rw [isBlankText, characters, List.all_cons, starts first rfl,
        Bool.false_and]

end Text

end ProxyLint
