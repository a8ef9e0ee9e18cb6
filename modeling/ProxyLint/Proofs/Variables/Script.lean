import ProxyLint.Variables.Script

/-!
# Fragments of a script

A script is cut at every dollar sign, so its literal fragments have none, and
a text without dollar signs is a single fragment.
-/

namespace ProxyLint

namespace Script

theorem split_other {character : Char} (other : character ≠ '$')
    (fragment rest : List Char) :
    split fragment (character :: rest) =
      split (character :: fragment) rest := by
  rw [split]
  exact other

/-- A text without dollar signs joins the pending fragment. -/
theorem split_of_no_dollar (fragment text : List Char)
    (plain : '$' ∉ text) :
    split fragment text = .ok (flush (text.reverse ++ fragment) []) := by
  induction text generalizing fragment with
  | nil => rw [split, List.reverse_nil, List.nil_append]
  | cons character rest ih =>
      have other : character ≠ '$' := by
        rintro rfl
        exact plain List.mem_cons_self
      rw [split_other other, ih (character :: fragment)
        (fun member => plain (List.mem_cons_of_mem _ member))]
      simp

/-- A segment is a literal with no dollar sign, or a variable. -/
def FreeOfDollar : Segment → Prop
  | .literal text => '$' ∉ text.toList
  | .variable _ => True

theorem freeOfDollar_flush {fragment : List Char} {segments : List Segment}
    (plain : '$' ∉ fragment)
    (free : ∀ segment ∈ segments, FreeOfDollar segment) :
    ∀ segment ∈ flush fragment segments, FreeOfDollar segment := by
  unfold flush
  split
  · exact free
  · intro segment member
    rcases List.mem_cons.1 member with rfl | member
    · simpa [FreeOfDollar] using plain
    · exact free segment member

theorem freeOfDollar_split {fragment text : List Char}
    {segments : List Segment} (plain : '$' ∉ fragment)
    (cut : split fragment text = .ok segments) :
    ∀ segment ∈ segments, FreeOfDollar segment := by
  fun_induction split fragment text generalizing segments with
  | case1 fragment =>
      cases cut
      exact freeOfDollar_flush plain (by simp)
  | case2 fragment rest fault unnamed => cases cut
  | case3 fragment rest name after named _ ih =>
      cases inner : split [] after with
      | error fault =>
          rw [inner] at cut
          cases cut
      | ok later =>
          rw [inner] at cut
          cases cut
          refine freeOfDollar_flush plain fun segment member => ?_
          rcases List.mem_cons.1 member with rfl | member
          · trivial
          · exact ih (by simp) inner segment member
  | case4 fragment character rest other ih =>
      refine ih ?_ cut
      intro member
      rcases List.mem_cons.1 member with same | member
      · exact other same.symm
      · exact plain member

end Script

theorem segments_eq_ok_iff {text : String} {parts : List Segment} :
    segments text = .ok parts ↔ Script.split [] text.toList = .ok parts := by
  unfold segments
  cases Script.split [] text.toList <;> simp

theorem toOption_segments {text : String} {parts : List Segment} :
    (segments text).toOption = some parts ↔ segments text = .ok parts := by
  cases segments text <;> simp [Except.toOption]

/-- No literal fragment of a script has a dollar sign. -/
theorem freeOfDollar_of_segments {text : String} {parts : List Segment}
    (cut : segments text = .ok parts) :
    ∀ segment ∈ parts, Script.FreeOfDollar segment :=
  Script.freeOfDollar_split (by simp) (segments_eq_ok_iff.1 cut)

/-- A text without dollar signs is one fragment. -/
theorem segments_of_no_dollar {text : String} (plain : '$' ∉ text.toList)
    (nonempty : text ≠ "") : segments text = .ok [.literal text] := by
  rw [segments_eq_ok_iff, Script.split_of_no_dollar _ _ plain]
  have present : text.toList ≠ [] := by simpa using nonempty
  simp [Script.flush, present]

end ProxyLint
