import ProxyLint.Proofs.Json.Codec
import ProxyLint.Proofs.Json.Normal

/-!
# Nesting

Every part of a document is nested less deeply than the document, wherever a
field of a record stands in it.  A record of acceptable members is acceptable.
-/

namespace ProxyLint

namespace Json

theorem depth_le_depthOfItems {items : List Document} {item : Document}
    (member : item ∈ items) : item.depth ≤ depthOfItems items := by
  induction items with
  | nil => cases member
  | cons first items ih =>
      rw [depthOfItems]
      rcases List.mem_cons.1 member with rfl | member
      · exact Nat.le_max_left _ _
      · exact Nat.le_trans (ih member) (Nat.le_max_right _ _)

theorem depth_le_depthOfMembers {members : List (List TextUnit × Document)}
    {member : List TextUnit × Document} (listed : member ∈ members) :
    member.2.depth ≤ depthOfMembers members := by
  induction members with
  | nil => cases listed
  | cons first members ih =>
      obtain ⟨key, document⟩ := first
      rw [depthOfMembers]
      rcases List.mem_cons.1 listed with rfl | listed
      · exact Nat.le_max_left _ _
      · exact Nat.le_trans (ih listed) (Nat.le_max_right _ _)

theorem depthOfMembers_le {members : List (List TextUnit × Document)}
    {bound : Nat} (within : ∀ member ∈ members, member.2.depth ≤ bound) :
    depthOfMembers members ≤ bound := by
  induction members with
  | nil =>
      rw [depthOfMembers]
      exact Nat.zero_le _
  | cons first members ih =>
      obtain ⟨key, document⟩ := first
      rw [depthOfMembers]
      exact Nat.max_le.2 ⟨within (key, document) List.mem_cons_self,
        ih fun member listed => within member (List.mem_cons_of_mem _ listed)⟩

theorem Document.mem_of_unique? {key : String} {document : Document}
    {members : List (String × Document)}
    (found : unique? key members = some (some document)) :
    (key, document) ∈ members := by
  unfold unique? at found
  split at found
  next => cases found
  next member only =>
    obtain rfl := Option.some.inj (Option.some.inj found)
    have listed : member ∈ members.filter fun member => member.1 == key :=
      only ▸ List.mem_singleton_self _
    obtain ⟨listed, same⟩ := List.mem_filter.1 listed
    rwa [← eq_of_beq same]
  next => cases found

/-- A field of a record stands one container further in than the record. -/
theorem Document.depth_lt_of_fields? {names : List String}
    {document field : Document} {fields : List (Option Document)}
    (found : document.fields? names = some fields)
    (member : some field ∈ fields) : field.depth < document.depth := by
  cases document with
  | array items =>
      rw [fields?] at found
      split at found
      next =>
        obtain rfl := Option.some.inj found
        rcases List.mem_append.1 member with given | missing
        · obtain ⟨item, listed, same⟩ := List.mem_map.1 given
          obtain rfl := Option.some.inj same
          rw [depth]
          exact Nat.lt_succ_of_le (depth_le_depthOfItems listed)
        · cases List.eq_of_mem_replicate missing
      next => cases found
  | object members =>
      obtain ⟨keyed, known, found⟩ := Option.bind_eq_some_iff.1 found
      obtain ⟨name, _, unique⟩ := exists_of_mem_mapM found member
      obtain ⟨⟨key, value⟩, listed, same⟩ :=
        exists_of_mem_mapM known (mem_of_unique? unique)
      obtain ⟨_, _, same⟩ := Option.bind_eq_some_iff.1 same
      cases same
      rw [depth]
      exact Nat.lt_succ_of_le (depth_le_depthOfMembers listed)
  | _ => cases found

/-- A record of acceptable members is acceptable. -/
theorem isSome_value?_record {members : List (String × Document)}
    (acceptable : ∀ member ∈ members, member.2.value?.isSome = true) :
    (record members).value?.isSome = true := by
  have read : (membersOf? (members.map fun member =>
      (unitsOf member.1, member.2))).isSome = true := by
    induction members with
    | nil =>
        rw [List.map_nil, membersOf?]
        rfl
    | cons member members ih =>
        obtain ⟨value, known⟩ := Option.isSome_iff_exists.1
          (acceptable member List.mem_cons_self)
        obtain ⟨values, rest⟩ := Option.isSome_iff_exists.1
          (ih fun other listed => acceptable other (List.mem_cons_of_mem _ listed))
        rw [List.map_cons, membersOf?, textOf?_unitsOf, known, rest]
        rfl
  obtain ⟨values, known⟩ := Option.isSome_iff_exists.1 read
  rw [record, Document.value?, known]
  rfl

theorem depth_record_le {members : List (String × Document)} {bound : Nat}
    (within : ∀ member ∈ members, member.2.depth ≤ bound) :
    (record members).depth ≤ bound + 1 := by
  rw [record, Document.depth]
  refine Nat.succ_le_succ (depthOfMembers_le fun member listed => ?_)
  obtain ⟨member, original, rfl⟩ := List.mem_map.1 listed
  exact within member original

theorem rereads_text (text : String) : (Value.text text).Rereads 0 := by
  refine Document.rereads (.text (unitsOf text)) ?_
  rw [Document.value?, textOf?_unitsOf]
  rfl

theorem rereads_texts (texts : List String) :
    (Value.array (texts.map .text)).Rereads 1 := by
  have items : valuesOf? (texts.map fun text => .text (unitsOf text)) =
        some (texts.map .text) ∧
      depthOfItems (texts.map fun text => .text (unitsOf text)) = 0 := by
    induction texts with
    | nil =>
        rw [List.map_nil, valuesOf?, depthOfItems]
        exact ⟨rfl, rfl⟩
    | cons text texts ih =>
        rw [List.map_cons, valuesOf?, ih.1, Document.value?, textOf?_unitsOf,
          depthOfItems, ih.2, Document.depth]
        · exact ⟨rfl, rfl⟩
        all_goals simp
  have read : (Document.array (texts.map fun text =>
      .text (unitsOf text))).value? = some (.array (texts.map .text)) := by
    rw [Document.value?, items.1]
    rfl
  have rereads := Document.rereads _ read
  rwa [Document.depth, items.2] at rereads

end Json

end ProxyLint
