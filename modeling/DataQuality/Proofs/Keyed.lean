import DataQuality.Id
import DataQuality.Keyed
import Mathlib.Tactic

/-!
# Order of keys

Lists ordered by key stay ordered when a key is put, and a list that is put together
again pair by pair is the list it was. Of several values that a key is put with, the last one
is left over.
-/
namespace DataQuality

namespace Keyed

variable {α β : Type} [BEq α] [LawfulBEq α] {before : α → α → Bool}

/-- Of two keys, one comes before the other. -/
structure IsOrder (before : α → α → Bool) : Prop where
  irrefl : ∀ a, before a a = false
  trans : ∀ {a b c}, before a b = true → before b c = true → before a c = true
  connex : ∀ {a b}, a ≠ b → before a b = false → before b a = true

/-- Each key comes before those after it. -/
def Ordered (before : α → α → Bool) (pairs : List (α × β)) : Prop :=
  pairs.Pairwise fun p q => before p.1 q.1 = true

/-- A key that comes after all others is put at the end. -/
theorem insert_last (h : IsOrder before) {pairs : List (α × β)} {key : α}
    (hlast : ∀ p ∈ pairs, before p.1 key = true) (value : β) :
    insert before key value pairs = pairs ++ [(key, value)] := by
  induction pairs with
  | nil => rfl
  | cons p rest ih =>
    obtain ⟨k, v⟩ := p
    have hk : before k key = true := hlast (k, v) (by simp)
    have hne : (k == key) = false := by
      rw [beq_eq_false_iff_ne]
      rintro rfl
      rw [h.irrefl] at hk
      cases hk
    have hafter : ¬ before key k = true := by
      intro hbefore
      have hself := h.trans hk hbefore
      rw [h.irrefl] at hself
      cases hself
    rw [insert, hne, if_neg Bool.false_ne_true, if_neg hafter,
      ih fun q hq => hlast q (by simp [hq]), List.cons_append]

/-- Putting the pairs of an ordered list after those before them gives the list. -/
theorem foldl_insert (h : IsOrder before) {front pairs : List (α × β)}
    (hordered : Ordered before (front ++ pairs)) :
    pairs.foldl (fun all p => insert before p.1 p.2 all) front = front ++ pairs := by
  induction pairs generalizing front with
  | nil => simp
  | cons p rest ih =>
    obtain ⟨-, -, hlast⟩ := List.pairwise_append.1 hordered
    have hfront : ∀ q ∈ front, before q.1 p.1 = true := fun q hq => hlast q hq p (by simp)
    have hsplit : front ++ p :: rest = (front ++ [p]) ++ rest := by simp
    rw [List.foldl_cons, insert_last h hfront, hsplit]
    exact ih (hsplit ▸ hordered)

omit [LawfulBEq α] in
/-- What is in a list after a key has been put. -/
theorem mem_insert {key : α} {value : β} {pairs : List (α × β)} {p : α × β}
    (h : p ∈ insert before key value pairs) : p = (key, value) ∨ p ∈ pairs := by
  induction pairs with
  | nil => simpa [insert] using h
  | cons q rest ih =>
    obtain ⟨k, v⟩ := q
    unfold insert at h
    split at h
    · rcases List.mem_cons.1 h with h | h
      · exact .inl h
      · exact .inr (by simp [h])
    · split at h
      · exact List.mem_cons.1 h
      · rcases List.mem_cons.1 h with h | h
        · exact .inr (by simp [h])
        · rcases ih h with h | h
          · exact .inl h
          · exact .inr (by simp [h])

/-- A list stays ordered when a key is put. -/
theorem Ordered.insert (h : IsOrder before) {pairs : List (α × β)}
    (hordered : Ordered before pairs) (key : α) (value : β) :
    Ordered before (insert before key value pairs) := by
  induction pairs with
  | nil => simp [Keyed.insert, Ordered]
  | cons q rest ih =>
    obtain ⟨k, v⟩ := q
    obtain ⟨hfirst, hrest⟩ := List.pairwise_cons.1 hordered
    unfold Keyed.insert
    split
    · next hk =>
      obtain rfl : k = key := by simpa using hk
      exact List.pairwise_cons.2 ⟨hfirst, hrest⟩
    · next hk =>
      have hne : k ≠ key := by simpa using hk
      split
      · next hbefore =>
        refine List.pairwise_cons.2 ⟨?_, hordered⟩
        intro q hq
        rcases List.mem_cons.1 hq with rfl | hq
        · exact hbefore
        · exact h.trans hbefore (hfirst q hq)
      · next hbefore =>
        refine List.pairwise_cons.2 ⟨?_, ih hrest⟩
        intro q hq
        rcases mem_insert hq with rfl | hq
        · exact h.connex (Ne.symm hne) (by simpa using hbefore)
        · exact hfirst q hq

theorem ordered_foldl_insert (h : IsOrder before) (pairs : List (α × β)) {front : List (α × β)}
    (hfront : Ordered before front) :
    Ordered before (pairs.foldl (fun all p => Keyed.insert before p.1 p.2 all) front) := by
  induction pairs generalizing front with
  | nil => exact hfront
  | cons p rest ih => exact ih (hfront.insert h p.1 p.2)

/-- No two of the pairs that are left over have the same key. -/
theorem nodup_keys_foldl_insert (h : IsOrder before) (pairs : List (α × β)) :
    ((pairs.foldl (fun all p => Keyed.insert before p.1 p.2 all) []).map Prod.fst).Nodup := by
  refine List.pairwise_map.2 ((ordered_foldl_insert h pairs List.Pairwise.nil).imp ?_)
  intro p q hbefore heq
  rw [heq, h.irrefl] at hbefore
  cases hbefore

/-- In an ordered list, each pair is the one that its key leads to. -/
theorem get?_of_mem (h : IsOrder before) {pairs : List (α × β)} (hordered : Ordered before pairs)
    {p : α × β} (hp : p ∈ pairs) : get? p.1 pairs = some p.2 := by
  induction pairs with
  | nil => cases hp
  | cons q rest ih =>
    obtain ⟨hfirst, hrest⟩ := List.pairwise_cons.1 hordered
    rcases List.mem_cons.1 hp with rfl | hp
    · simp [get?]
    · have hne : (q.1 == p.1) = false := by
        rw [beq_eq_false_iff_ne]
        intro hkey
        have hbefore := hfirst p hp
        rw [hkey, h.irrefl] at hbefore
        cases hbefore
      simpa [get?, hne] using ih hrest hp

/-- What a key leads to stands beside it. -/
theorem mem_of_get? {key : α} {value : β} {pairs : List (α × β)}
    (h : get? key pairs = some value) : (key, value) ∈ pairs := by
  obtain ⟨p, hp, rfl⟩ := Option.map_eq_some_iff.1 h
  have hkey : p.1 = key := by simpa using List.find?_some hp
  rw [← hkey]
  exact List.mem_of_find?_eq_some hp

/-- In an ordered list, what stands beside a key is what it leads to. -/
theorem mem_iff_get? (h : IsOrder before) {pairs : List (α × β)} (hordered : Ordered before pairs)
    {p : α × β} : p ∈ pairs ↔ get? p.1 pairs = some p.2 :=
  ⟨get?_of_mem h hordered, mem_of_get?⟩

/-- A key leads to the value that it was put with last. -/
theorem get?_foldl_insert (before : α → α → Bool) (pairs : List (α × β)) (key : α) :
    get? key (pairs.foldl (fun all p => insert before p.1 p.2 all) []) =
      pairs.reverse.lookup key := by
  induction pairs using List.reverseRecOn with
  | nil => rfl
  | append_singleton rest p ih =>
    rw [List.foldl_append, List.foldl_cons, List.foldl_nil, List.reverse_append,
      List.reverse_singleton, List.singleton_append, List.lookup_cons]
    by_cases hkey : key = p.1
    · subst hkey
      rw [get?_insert_self, beq_self_eq_true]
    · rw [get?_insert_of_ne hkey, ih, beq_false_of_ne hkey]

/-- A pair is left over when it is put and its key is not put again. -/
theorem mem_foldl_insert_iff (h : IsOrder before) {pairs : List (α × β)} {p : α × β} :
    p ∈ pairs.foldl (fun all p => insert before p.1 p.2 all) [] ↔
      ∃ front rest, pairs = front ++ p :: rest ∧ ∀ q ∈ rest, q.1 ≠ p.1 := by
  have hordered : Ordered before (pairs.foldl (fun all p => insert before p.1 p.2 all) []) :=
    ordered_foldl_insert h pairs List.Pairwise.nil
  rw [mem_iff_get? h hordered, get?_foldl_insert, List.lookup_eq_some_iff]
  simp only [bne_iff_ne]
  constructor
  · rintro ⟨later, earlier, hsplit, hlater⟩
    refine ⟨earlier.reverse, later.reverse, ?_, fun q hq => ?_⟩
    · rw [← List.reverse_reverse pairs, hsplit]
      simp
    · exact (hlater q (List.mem_reverse.1 hq)).symm
  · rintro ⟨front, rest, rfl, hrest⟩
    refine ⟨rest.reverse, front.reverse, by simp, fun q hq => ?_⟩
    exact (hrest q (List.mem_reverse.1 hq)).symm

/-- Leaving pairs out by their keys leaves what the other keys lead to. -/
theorem lookup_filter {κ : Type} [BEq κ] [LawfulBEq κ] (pairs : List (κ × β))
    (isKept : κ → Bool) (key : κ) :
    (pairs.filter fun p => isKept p.1).lookup key =
      if isKept key then pairs.lookup key else none := by
  induction pairs with
  | nil => simp
  | cons p rest ih =>
    obtain ⟨k, v⟩ := p
    rw [List.filter_cons]
    by_cases hk : isKept k = true
    · rw [if_pos hk, List.lookup_cons, List.lookup_cons, ih]
      by_cases hkey : key = k
      · subst hkey
        simp [hk]
      · have hne : (key == k) = false := by simpa using hkey
        simp [hne]
    · rw [if_neg hk, List.lookup_cons, ih]
      by_cases hkey : key = k
      · subst hkey
        simp [hk]
      · have hne : (key == k) = false := by simpa using hkey
        simp [hne]

end Keyed

/-- Texts are in alphabetical order. -/
theorem Keyed.isOrder_string : Keyed.IsOrder fun a b : String => a < b where
  irrefl a := by simp
  trans hab hbc := by
    simp only [decide_eq_true_eq] at *
    exact String.lt_trans hab hbc
  connex hne hab := by
    simp only [decide_eq_true_eq, decide_eq_false_iff_not] at *
    exact Classical.not_not.1 fun hba => hne (String.le_antisymm hba hab)

/-- Identifiers are ordered by their values. -/
theorem Id.isOrder_before (kind : IdKind) : Keyed.IsOrder (@Id.before kind) where
  irrefl i := by simp [Id.before]
  trans hab hbc := by
    simp only [Id.before, decide_eq_true_eq] at *
    exact Int64.lt_trans hab hbc
  connex {a b} hne hab := by
    simp only [Id.before, decide_eq_true_eq, decide_eq_false_iff_not, Int64.not_lt] at *
    refine Int64.lt_of_le_of_ne hab ?_
    intro he
    exact hne (by cases a; cases b; simp_all)

end DataQuality
