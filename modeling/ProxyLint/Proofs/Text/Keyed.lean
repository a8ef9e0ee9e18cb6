import ProxyLint.Text.Keyed
import Mathlib.Data.List.Induction

/-!
# Collections by key

Whatever is put into a collection, its keys increase and it holds nothing
else.  Entries with increasing keys are a collection already.
-/

namespace ProxyLint

namespace Keyed

variable {α : Type} {key : String} {value : α}
  {collection entries : List (String × α)}

def Increasing (collection : List (String × α)) : Prop :=
  collection.Pairwise fun entry later => entry.1 < later.1

theorem mem_of_mem_put {entry : String × α}
    (member : entry ∈ put key value collection) :
    entry = (key, value) ∨ entry ∈ collection := by
  induction collection with
  | nil => exact .inl (List.mem_singleton.1 member)
  | cons first rest ih =>
      obtain ⟨other, held⟩ := first
      rw [put] at member
      split at member
      next => exact List.mem_cons.1 member
      next =>
        split at member
        next =>
          exact (List.mem_cons.1 member).imp_right (List.mem_cons_of_mem _)
        next =>
          rcases List.mem_cons.1 member with rfl | member
          · exact .inr List.mem_cons_self
          · exact (ih member).imp_right (List.mem_cons_of_mem _)

/-- A value is found for the keys of a collection and for no others. -/
theorem isSome_find?_iff :
    (find? key collection).isSome = true ↔ key ∈ collection.map Prod.fst := by
  induction collection with
  | nil => simp [find?]
  | cons first rest ih =>
      rw [find?, List.map_cons, List.mem_cons]
      split
      next same => simp [same]
      next different => simp [different, ih]

theorem Increasing.put (increasing : Increasing collection) :
    Increasing (put key value collection) := by
  induction collection with
  | nil => exact List.pairwise_singleton _ _
  | cons first rest ih =>
      obtain ⟨other, held⟩ := first
      obtain ⟨below, increasingRest⟩ := List.pairwise_cons.1 increasing
      rw [Keyed.put]
      split
      next before =>
        refine List.pairwise_cons.2 ⟨?_, increasing⟩
        intro entry member
        rcases List.mem_cons.1 member with rfl | member
        · exact before
        · exact String.lt_trans before (below entry member)
      next notBefore =>
        split
        next same =>
          subst same
          exact List.pairwise_cons.2 ⟨below, increasingRest⟩
        next distinct =>
          have behind : other < key := by
            by_contra notBehind
            exact distinct (String.le_antisymm (String.not_lt.1 notBehind)
              (String.not_lt.1 notBefore))
          refine List.pairwise_cons.2 ⟨?_, ih increasingRest⟩
          intro entry member
          rcases mem_of_mem_put member with rfl | member
          · exact behind
          · exact below entry member

/-- A key behind all others is put at the end. -/
theorem put_of_behind (behind : ∀ entry ∈ collection, entry.1 < key) :
    put key value collection = collection ++ [(key, value)] := by
  induction collection with
  | nil => rfl
  | cons first rest ih =>
      obtain ⟨other, held⟩ := first
      have after : other < key := behind (other, held) List.mem_cons_self
      have distinct : key ≠ other := by
        rintro rfl
        exact String.lt_irrefl key after
      rw [put, if_neg (String.lt_asymm after), if_neg distinct,
        ih fun entry member => behind entry (List.mem_cons_of_mem _ member)]
      rfl

theorem ofList_concat (entries : List (String × α)) (entry : String × α) :
    ofList (entries ++ [entry]) = put entry.1 entry.2 (ofList entries) := by
  rw [ofList, List.foldl_append]
  rfl

theorem increasing_ofList (entries : List (String × α)) :
    Increasing (ofList entries) := by
  induction entries using List.reverseRecOn with
  | nil => exact .nil
  | append_singleton entries entry ih =>
      rw [ofList_concat]
      exact ih.put

theorem ofList_subset (entries : List (String × α)) :
    ofList entries ⊆ entries := by
  induction entries using List.reverseRecOn with
  | nil => exact List.Subset.refl _
  | append_singleton entries entry ih =>
      intro other member
      rw [ofList_concat] at member
      rcases mem_of_mem_put member with rfl | member
      · exact List.mem_append_right _ (List.mem_singleton_self _)
      · exact List.mem_append_left _ (ih member)

theorem Increasing.ofList_eq (increasing : Increasing entries) :
    ofList entries = entries := by
  induction entries using List.reverseRecOn with
  | nil => rfl
  | append_singleton entries entry ih =>
      obtain ⟨increasingRest, _, below⟩ := List.pairwise_append.1 increasing
      rw [ofList_concat, ih increasingRest]
      exact put_of_behind fun other member =>
        below other member entry (List.mem_singleton_self _)

end Keyed

end ProxyLint
