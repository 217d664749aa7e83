import DataQuality.Config
import DataQuality.Proofs.Keyed

/-!
# What a codelist answers

A codelist file is read into a map of codes and names, and the entries of the map are
put into the codelist one after the other. Of entries whose codes differ only in case,
the one that comes last is answered with. So what a codelist answers depends on the
order in which the map gives its entries, unless such entries have the same name.
-/
namespace DataQuality

namespace Codelist

/-- The codes and names of an object, as they are written. -/
def pairs? : Json → Option (List (String × String))
  | .object fields =>
    fields.mapM fun (code, name) => do
      let code ← code.content
      let name ← name.asString?
      pure (code, name)
  | _ => none

theorem ofJson?_eq (j : Json) : ofJson? j = (pairs? j).map ofList := by
  cases j with
  | object fields => exact (Option.map_eq_bind ..).symm
  | _ => rfl

/-- The name under a key of the map into which pairs are read: the last that the key is given. -/
def pairOf? (pairs : List (String × String)) (key : String) : Option String :=
  pairs.reverse.lookup key

/-- The map that pairs are read into gives its entries in this order: each key once, with its name. -/
structure IsIteration (order pairs : List (String × String)) : Prop where
  nodup : (order.map (·.1)).Nodup
  mem_iff : ∀ key name, (key, name) ∈ order ↔ pairOf? pairs key = some name

def AnswersAlike (c d : Codelist) : Prop := ∀ code, c.nameOf? code = d.nameOf? code

/-- Entries of the map whose keys differ only in case have the same name. -/
def NamesAgree (pairs : List (String × String)) : Prop :=
  ∀ key name key' name', pairOf? pairs key = some name → pairOf? pairs key' = some name' →
    Text.upper key = Text.upper key' → name = name'

theorem nameOf?_insert (c : Codelist) (key name code : String) :
    (c.insert key name).nameOf? code =
      if Text.upper key = Text.upper code then some name else c.nameOf? code := by
  have hfilter := Keyed.lookup_filter c.entries (· != Text.upper key) (Text.upper code)
  unfold nameOf? insert
  rw [List.lookup_append, hfilter, List.lookup_cons, List.lookup_nil]
  by_cases h : Text.upper key = Text.upper code
  · simp [h]
  · have hne : (Text.upper code == Text.upper key) = false := by simpa using Ne.symm h
    simp [h, hne, Ne.symm h]

/-- The last of the pairs whose key is the code but for case. -/
def last? (pairs : List (String × String)) (code : String) : Option (String × String) :=
  pairs.reverse.find? fun p => Text.upper p.1 == Text.upper code

theorem ofList_append_singleton (pairs : List (String × String)) (p : String × String) :
    ofList (pairs ++ [p]) = (ofList pairs).insert p.1 p.2 := by
  unfold ofList
  rw [List.foldl_append]
  rfl

theorem nameOf?_ofList (pairs : List (String × String)) (code : String) :
    (ofList pairs).nameOf? code = (last? pairs code).map (·.2) := by
  induction pairs using List.reverseRecOn with
  | nil => rfl
  | append_singleton pairs p ih =>
    unfold last? at ih ⊢
    rw [ofList_append_singleton, nameOf?_insert, List.reverse_append, List.reverse_singleton,
      List.singleton_append]
    by_cases h : Text.upper p.1 = Text.upper code
    · rw [if_pos h, List.find?_cons_of_pos (by simpa using h)]
      rfl
    · rw [if_neg h, List.find?_cons_of_neg (by simpa using h), ih]

theorem IsIteration.of_perm {order order' pairs : List (String × String)}
    (h : IsIteration order pairs) (hperm : order'.Perm order) : IsIteration order' pairs where
  nodup := (hperm.map _).nodup_iff.2 h.nodup
  mem_iff key name := hperm.mem_iff.trans (h.mem_iff key name)

/-- The entry that comes last is answered with. -/
theorem exists_isIteration_nameOf? {order pairs : List (String × String)}
    (h : IsIteration order pairs) {key name : String} (hentry : pairOf? pairs key = some name) :
    ∃ order', IsIteration order' pairs ∧ (ofList order').nameOf? key = some name := by
  have hmem : (key, name) ∈ order := (h.mem_iff key name).2 hentry
  refine ⟨order.erase (key, name) ++ [(key, name)], h.of_perm ?_, ?_⟩
  · exact (List.perm_append_singleton _ _).trans (List.perm_cons_erase hmem).symm
  · rw [nameOf?_ofList]
    simp [last?]

/-- If names agree, every order answers with the name of any entry for the code. -/
theorem IsIteration.nameOf?_eq_some_iff {order pairs : List (String × String)}
    (h : IsIteration order pairs) (hagree : NamesAgree pairs) (code name : String) :
    (ofList order).nameOf? code = some name ↔
      ∃ key, pairOf? pairs key = some name ∧ Text.upper key = Text.upper code := by
  rw [nameOf?_ofList]
  constructor
  · intro hname
    obtain ⟨⟨key, _⟩, hlast, rfl⟩ := Option.map_eq_some_iff.1 hname
    have hmem := List.mem_of_find?_eq_some hlast
    have hkey := List.find?_some hlast
    exact ⟨key, (h.mem_iff key _).1 (List.mem_reverse.1 hmem), by simpa using hkey⟩
  · rintro ⟨key, hentry, hkey⟩
    have hmem : (key, name) ∈ order := (h.mem_iff key name).2 hentry
    have hsome : (last? order code).isSome := by
      unfold last?
      rw [List.find?_isSome]
      exact ⟨(key, name), List.mem_reverse.2 hmem, by simpa using hkey⟩
    obtain ⟨⟨key', name'⟩, hlast⟩ := Option.isSome_iff_exists.1 hsome
    have hentry' := (h.mem_iff key' name').1 (List.mem_reverse.1 (List.mem_of_find?_eq_some hlast))
    have hkey' : Text.upper key' = Text.upper code := by simpa using List.find?_some hlast
    rw [hlast, hagree key' name' key name hentry' hentry (hkey'.trans hkey.symm)]
    rfl

theorem pairOf?_append_singleton (pairs : List (String × String)) (p : String × String)
    (key : String) :
    pairOf? (pairs ++ [p]) key = if p.1 = key then some p.2 else pairOf? pairs key := by
  obtain ⟨k, v⟩ := p
  unfold pairOf?
  rw [List.reverse_append, List.reverse_singleton, List.singleton_append, List.lookup_cons]
  by_cases h : k = key
  · simp [h]
  · have hne : (key == k) = false := by simpa using Ne.symm h
    simp [h, hne]

/-- Without repeated keys, the pairs are the entries of the map. -/
theorem isIteration_of_nodup {pairs : List (String × String)} (h : (pairs.map (·.1)).Nodup) :
    IsIteration pairs pairs := by
  refine ⟨h, fun key name => ?_⟩
  induction pairs using List.reverseRecOn with
  | nil => simp [pairOf?]
  | append_singleton pairs p ih =>
    rw [List.map_append, List.nodup_append] at h
    obtain ⟨hpairs, -, hnew⟩ := h
    rw [pairOf?_append_singleton, List.mem_append, List.mem_singleton, ih hpairs]
    split
    · next hp =>
      subst hp
      have hnone : pairOf? pairs p.1 ≠ some name := by
        intro hentry
        have hmem := (ih hpairs).2 hentry
        exact hnew p.1 (List.mem_map.2 ⟨_, hmem, rfl⟩) p.1 (by simp) rfl
      simp [hnone, Prod.ext_iff, eq_comm]
    · next hp => simp [Prod.ext_iff, Ne.symm hp]

/-- Pairs put in as they are written answer as the entries of the map in some order do. -/
theorem exists_isIteration (pairs : List (String × String)) :
    ∃ order, IsIteration order pairs ∧ AnswersAlike (ofList pairs) (ofList order) := by
  induction pairs using List.reverseRecOn with
  | nil => exact ⟨[], ⟨List.nodup_nil, by simp [pairOf?]⟩, fun code => rfl⟩
  | append_singleton pairs p ih =>
    obtain ⟨order, horder, halike⟩ := ih
    -- the new pair comes last, in place of the entry it overwrites
    refine ⟨order.filter (·.1 != p.1) ++ [p], ⟨?_, fun key name => ?_⟩, fun code => ?_⟩
    · have hkept : ((order.filter (·.1 != p.1)).map (·.1)).Nodup :=
        horder.nodup.sublist (List.filter_sublist.map _)
      rw [List.map_append, List.nodup_append]
      refine ⟨hkept, by simp, ?_⟩
      simp only [List.mem_map, List.mem_filter, List.map_singleton, List.mem_singleton]
      rintro _ ⟨q, ⟨-, hq⟩, rfl⟩ _ rfl
      simpa using hq
    · rw [pairOf?_append_singleton, List.mem_append, List.mem_filter, horder.mem_iff,
        List.mem_singleton]
      by_cases h : p.1 = key
      · subst h
        simp [Prod.ext_iff, eq_comm]
      · simp [Prod.ext_iff, h, Ne.symm h]
    · rw [ofList_append_singleton, ofList_append_singleton, nameOf?_insert, nameOf?_insert,
        halike code]
      split
      · rfl
      · next h =>
        have hkept : last? (order.filter (·.1 != p.1)) code = last? order code := by
          unfold last?
          rw [← List.filter_reverse, List.find?_filter]
          congr 1
          funext q
          by_cases hq : q.1 = p.1
          · simp [hq, h]
          · simp [hq, beq_eq_decide]
        rw [nameOf?_ofList, nameOf?_ofList, hkept]

/-- A codelist file is loaded, and what is answered is what its entries answer in some order. It is
what they answer in every order if entries whose codes differ only in case have the same name, and
only then. -/
theorem load_alike_iff_namesAgree {t : Files.Tree} {folder : Files.Path} {path text : String}
    {pairs : List (String × String)} (htext : (⟨folder, path⟩ : Files.Route).readText t = .ok text)
    (hpairs : (Json.parse text).bind pairs? = some pairs) :
    ∃ c, load t folder path = .ok c ∧
      (∃ order, IsIteration order pairs ∧ AnswersAlike c (ofList order)) ∧
      ((∀ order, IsIteration order pairs → AnswersAlike c (ofList order)) ↔ NamesAgree pairs) := by
  have hread : read? text = some (ofList pairs) := by
    obtain ⟨j, hj, hpairs⟩ := Option.bind_eq_some_iff.1 hpairs
    rw [read?, hj, Option.bind_some, ofJson?_eq, hpairs, Option.map_some]
  obtain ⟨order, horder, halike⟩ := exists_isIteration pairs
  refine ⟨ofList pairs, (Files.load_eq_ok_iff _ _ _ _).2 ⟨text, htext, hread⟩,
    ⟨order, horder, halike⟩, fun h => ?_, fun hagree other hother code => ?_⟩
  · intro key name key' name' hentry hentry' hkey
    obtain ⟨last, hlast, hname⟩ := exists_isIteration_nameOf? horder hentry
    obtain ⟨last', hlast', hname'⟩ := exists_isIteration_nameOf? horder hentry'
    have hsame : (ofList pairs).nameOf? key = (ofList pairs).nameOf? key' := by
      unfold nameOf?
      rw [hkey]
    rw [h last hlast key, hname, h last' hlast' key', hname'] at hsame
    exact Option.some.inj hsame
  · rw [halike code]
    ext name
    rw [horder.nameOf?_eq_some_iff hagree, hother.nameOf?_eq_some_iff hagree]

/-- A folder with one codelist file. -/
def filed (text : String) : Files.Tree where
  entries := [(["codes.json"], .file text.toUTF8)]

theorem load_alike_iff_namesAgree_same_name :
    let text := "\x7b\"ke\": \"Kenya\", \"KE\": \"Kenya\"\x7d"
    let pairs := [("ke", "Kenya"), ("KE", "Kenya")]
    (⟨[], "codes.json"⟩ : Files.Route).readText (filed text) = .ok text ∧
      (Json.parse text).bind pairs? = some pairs ∧
      ∃ c, load (filed text) [] "codes.json" = .ok c ∧
        (∃ order, IsIteration order pairs ∧ AnswersAlike c (ofList order)) ∧
        ((∀ order, IsIteration order pairs → AnswersAlike c (ofList order)) ↔ NamesAgree pairs) := by
  refine ⟨?htext, ?hpairs, load_alike_iff_namesAgree ?htext ?hpairs⟩ <;> decide +kernel

/-- Of two names for one code, either may be answered. -/
theorem not_alike_two_names :
    let text := "\x7b\"ke\": \"Kenya\", \"KE\": \"Kenia\"\x7d"
    let pairs := [("ke", "Kenya"), ("KE", "Kenia")]
    (Json.parse text).bind pairs? = some pairs ∧ IsIteration pairs.reverse pairs ∧
      ∃ c, load (filed text) [] "codes.json" = .ok c ∧ c.nameOf? "ke" = some "Kenia" ∧
        (ofList pairs.reverse).nameOf? "ke" = some "Kenya" := by
  refine ⟨by decide +kernel, ?_, ⟨[("KE", "Kenia")]⟩, by decide +kernel, by decide +kernel,
    by decide +kernel⟩
  exact (isIteration_of_nodup (by decide)).of_perm (List.reverse_perm _)

end Codelist

end DataQuality
