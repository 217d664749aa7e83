/-!
# Lists ordered by key

A list of pairs in the order of their keys, with at most one pair for each key.
-/
namespace DataQuality.Keyed

variable {α β : Type}

/-- Puts a key with its value where it belongs, in place of what the key had. -/
def insert [BEq α] (before : α → α → Bool) (key : α) (value : β) : List (α × β) → List (α × β)
  | [] => [(key, value)]
  | (k, v) :: rest =>
    if k == key then (key, value) :: rest
    else if before key k then (key, value) :: (k, v) :: rest
    else (k, v) :: insert before key value rest

def get? [BEq α] (key : α) (pairs : List (α × β)) : Option β :=
  (pairs.find? fun p => p.1 == key).map (·.2)

/-- The key that was put last has the value it was put with. -/
@[simp] theorem get?_insert_self [BEq α] [LawfulBEq α] (before : α → α → Bool) (key : α) (value : β)
    (pairs : List (α × β)) : get? key (insert before key value pairs) = some value := by
  induction pairs with
  | nil => simp [insert, get?]
  | cons p rest ih =>
    obtain ⟨k, v⟩ := p
    unfold insert
    split
    · simp [get?]
    · split
      · simp [get?]
      · next h _ =>
        have hk : (k == key) = false := by simpa using h
        simpa [get?, hk] using ih

/-- Putting a key leaves the values of all others as they are. -/
theorem get?_insert_of_ne [BEq α] [LawfulBEq α] {before : α → α → Bool} {key k : α} (h : k ≠ key)
    (value : β) (pairs : List (α × β)) :
    get? k (insert before key value pairs) = get? k pairs := by
  have hkey : (key == k) = false := beq_eq_false_iff_ne.2 (Ne.symm h)
  induction pairs with
  | nil => simp [insert, get?, hkey]
  | cons p rest ih =>
    obtain ⟨k', v⟩ := p
    unfold insert
    split
    · next hk =>
      obtain rfl : k' = key := by simpa using hk
      simp [get?, hkey]
    · split
      · simp [get?, hkey]
      · by_cases hk' : (k' == k) = true
        · simp [get?, hk']
        · simpa [get?, hk'] using ih

theorem get?_eq_none [BEq α] [LawfulBEq α] {key : α} {pairs : List (α × β)} :
    get? key pairs = none ↔ key ∉ pairs.map (·.1) := by
  simp only [get?, Option.map_eq_none_iff, List.find?_eq_none, beq_iff_eq, List.mem_map, not_exists,
    not_and]

/-- Putting a new key adds it to the keys. -/
theorem keys_insert [BEq α] [LawfulBEq α] (before : α → α → Bool) {key : α} (value : β)
    {pairs : List (α × β)} (h : key ∉ pairs.map (·.1)) :
    ((insert before key value pairs).map (·.1)).Perm (key :: pairs.map (·.1)) := by
  induction pairs with
  | nil => exact .refl _
  | cons p rest ih =>
    obtain ⟨k, v⟩ := p
    rw [List.map_cons, List.mem_cons, not_or] at h
    have hk : (k == key) = false := beq_eq_false_iff_ne.2 (Ne.symm h.1)
    unfold insert
    rw [hk, if_neg Bool.false_ne_true]
    split
    · exact .refl _
    · exact ((ih h.2).cons k).trans (.swap key k _)

end DataQuality.Keyed
