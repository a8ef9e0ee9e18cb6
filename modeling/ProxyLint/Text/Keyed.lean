/-!
# Lists with increasing keys

A collection with text keys is kept as a list in which the keys increase.
Texts are compared character by character, which is also the order of their
bytes.  Putting a value under a key that is there replaces the old value.
-/

namespace ProxyLint

namespace Keyed

variable {α : Type}

def put (key : String) (value : α) : List (String × α) → List (String × α)
  | [] => [(key, value)]
  | (other, held) :: rest =>
      if key < other then (key, value) :: (other, held) :: rest
      else if key = other then (key, value) :: rest
      else (other, held) :: put key value rest

def find? (key : String) : List (String × α) → Option α
  | [] => none
  | (other, held) :: rest => if key = other then some held else find? key rest

/-- The collection in which the last value given for a key counts. -/
def ofList (entries : List (String × α)) : List (String × α) :=
  entries.foldl (fun collection entry => put entry.1 entry.2 collection) []

theorem find?_put_self (key : String) (value : α)
    (collection : List (String × α)) :
    find? key (put key value collection) = some value := by
  induction collection with
  | nil => simp [put, find?]
  | cons entry rest ih =>
      simp only [put]
      split
      · simp [find?]
      · split
        · simp [find?]
        · next different => simp [find?, different, ih]

theorem find?_put_of_ne {key other : String} (different : other ≠ key)
    (value : α) (collection : List (String × α)) :
    find? other (put key value collection) = find? other collection := by
  induction collection with
  | nil => simp [put, find?, different]
  | cons entry rest ih =>
      simp only [put]
      split
      · simp [find?, different]
      · split
        · next same => simp [find?, different, ← same]
        · simp [find?, ih]

end Keyed

end ProxyLint
