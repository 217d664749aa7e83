import DataQuality.RuleSet
import Mathlib.Tactic

/-!
# Compiling rules

What becomes of a definition depends on it and on the definitions before it alone: it is
skipped, kept as a rule, or a fault. The rules and the faults of a set are what becomes of
the definitions, in order. So the rules have different identifiers, each is what its own
definition compiles to, and a definition that is a fault changes nothing for the others. The
indexes of a set are joined by identifiers: each definition that is kept has its predicate under its
identifier, there is no other predicate, and no rule of a level is lost for want of one. The
identifiers of a plain source are numbers that count on.
-/
namespace DataQuality

namespace RuleDefinition

/-- Numbers that are not too far from each other are different identifiers. -/
theorem id_ne_of_lt {m n : Nat} (hlt : m < n) (hnear : n < m + 2 ^ 64) :
    (⟨Int64.ofNat m⟩ : RuleId) ≠ ⟨Int64.ofNat n⟩ := by
  intro hid
  have hbits := congrArg (fun id : RuleId => id.value.toBitVec.toNat) hid
  simp at hbits
  omega

/-- A number before or after those of some lines is the identifier of none. -/
theorem id_ne_of_mem_numberFrom {n m : Nat} {lines : List String} {d : RuleDefinition}
    (hd : d ∈ numberFrom n lines)
    (hout : m < n ∧ n + lines.length ≤ m + 2 ^ 64 ∨ n + lines.length ≤ m ∧ m < n + 2 ^ 64) :
    d.id ≠ ⟨Int64.ofNat m⟩ := by
  obtain ⟨i, hi, hid⟩ := id_of_mem_numberFrom hd
  rw [hid]
  rcases hout with ⟨hbefore, hnear⟩ | ⟨hafter, hnear⟩
  · exact (id_ne_of_lt (by omega) (by omega)).symm
  · exact id_ne_of_lt (by omega) (by omega)

end RuleDefinition

namespace RuleIndexes

variable {x : RuleIndexes} {d : RuleDefinition} {r : CompiledRule}

theorem of_join?_eq_some (h : x.join? d = some r) :
    r.definition = d ∧ x.get? d.id = some r.predicate := by
  obtain ⟨p, hp, rfl⟩ := Option.map_eq_some_iff.1 h
  exact ⟨rfl, hp⟩

/-- The predicate of a rule is that of its identifier. -/
theorem get?_of_mem_rules (h : r ∈ x.rules) :
    r.definition ∈ x.definitions ∧ x.get? r.definition.id = some r.predicate := by
  obtain ⟨d, hd, hjoin⟩ := List.mem_filterMap.1 h
  obtain ⟨rfl, hget⟩ := of_join?_eq_some hjoin
  exact ⟨hd, hget⟩

/-- Whether a definition is chosen may be asked before or after it is joined with its predicate. -/
theorem filterMap_join?_filter (definitions : List RuleDefinition) (chosen : RuleDefinition → Bool) :
    (definitions.filter chosen).filterMap x.join? =
      (definitions.filterMap x.join?).filter (chosen ·.definition) := by
  rw [List.filter_filterMap, List.filterMap_filter]
  refine List.filterMap_congr fun d _ => ?_
  cases hjoin : x.join? d with
  | none => simp
  | some r =>
    obtain ⟨rfl, -⟩ := of_join?_eq_some hjoin
    rfl

theorem forLevel_eq (x : RuleIndexes) (l : Level) :
    x.forLevel l = x.rules.filter fun r => r.definition.active && r.definition.level == l :=
  filterMap_join?_filter x.definitions _

theorem mem_forLevel {l : Level} :
    r ∈ x.forLevel l ↔ r ∈ x.rules ∧ r.definition.active = true ∧ r.definition.level = l := by
  rw [forLevel_eq, List.mem_filter, Bool.and_eq_true, beq_iff_eq]

theorem get?_of_mem_forLevel {l : Level} (h : r ∈ x.forLevel l) :
    x.get? r.definition.id = some r.predicate :=
  (get?_of_mem_rules (mem_forLevel.1 h).1).2

namespace Agree

/-- Every definition has a predicate. -/
theorem exists_join? (h : x.Agree) (hd : d ∈ x.definitions) : ∃ p, x.join? d = some ⟨d, p⟩ := by
  cases hget : x.get? d.id with
  | none => exact absurd rfl (h.get?_eq_none.1 hget d hd)
  | some p => exact ⟨p, congrArg (Option.map _) hget⟩

/-- No definition is lost when the indexes are joined. -/
theorem definitions_filterMap_join? (h : x.Agree) {definitions : List RuleDefinition}
    (hsubset : definitions ⊆ x.definitions) :
    (definitions.filterMap x.join?).map (·.definition) = definitions := by
  induction definitions with
  | nil => rfl
  | cons d rest ih =>
    obtain ⟨hd, hrest⟩ := List.cons_subset.1 hsubset
    obtain ⟨p, hp⟩ := h.exists_join? hd
    rw [List.filterMap_cons, hp]
    exact congrArg (d :: ·) (ih hrest)

theorem definitions_rules (h : x.Agree) : x.rules.map (·.definition) = x.definitions :=
  h.definitions_filterMap_join? (List.Subset.refl _)

theorem definitions_forLevel (h : x.Agree) (l : Level) :
    (x.forLevel l).map (·.definition) = x.definitions.filter fun d => d.active && d.level == l :=
  h.definitions_filterMap_join? List.filter_sublist.subset

theorem nodup_rules (h : x.Agree) : (x.rules.map (·.definition.id)).Nodup := by
  have hnodup := h.nodup
  rwa [← h.definitions_rules, List.map_map] at hnodup

theorem size_eq (h : x.Agree) : x.size = x.definitions.length := by
  have hlength := h.keys.length_eq
  rwa [List.length_map, List.length_map] at hlength

/-- The predicate of an identifier is that of the first rule with it. -/
theorem get?_eq (h : x.Agree) (id : RuleId) :
    x.get? id = (x.rules.find? (·.definition.id == id)).map (·.predicate) := by
  cases hfind : x.rules.find? (·.definition.id == id) with
  | some r =>
    obtain rfl : r.definition.id = id := by simpa using List.find?_some hfind
    exact (get?_of_mem_rules (List.mem_of_find?_eq_some hfind)).2
  | none =>
    rw [Option.map_none, h.get?_eq_none, ← h.definitions_rules]
    simpa using hfind

theorem isSome_get? (h : x.Agree) (id : RuleId) :
    (x.get? id).isSome = x.rules.any fun r => r.definition.id == id := by
  rw [h.get?_eq, Option.isSome_map, List.isSome_find?]

end Agree

/-- A definition of a new identifier is the last rule. -/
theorem rules_insert (h : x.Agree) (hnew : x.get? d.id = none) (p : Predicate) :
    (x.insert d p).rules = x.rules ++ [⟨d, p⟩] := by
  have hlast : (x.insert d p).join? d = some ⟨d, p⟩ :=
    congrArg (Option.map _) (Keyed.get?_insert_self _ d.id p x.predicates)
  have hothers : ∀ d' ∈ x.definitions, (x.insert d p).join? d' = x.join? d' := by
    intro d' hd'
    have hne : d'.id ≠ d.id := h.get?_eq_none.1 hnew d' hd'
    exact congrArg (Option.map _) (Keyed.get?_insert_of_ne hne p x.predicates)
  unfold rules
  rw [insert, List.filterMap_append, ← insert, List.filterMap_congr hothers, List.filterMap_cons,
    hlast]
  rfl

end RuleIndexes

namespace RuleSet

/-- What becomes of a definition. -/
inductive Fate
  | skipped
  | kept (rule : CompiledRule)
  | faulty (fault : SentenceFault)

namespace Fate

def rule? : Fate → Option CompiledRule
  | kept r => some r
  | _ => none

def fault? : Fate → Option SentenceFault
  | faulty f => some f
  | _ => none

end Fate

section Fates

variable (levels : List Level)

/-- Whether the definition is of a level that is compiled, and no comment or blank. -/
def isEligible (d : RuleDefinition) : Bool :=
  levels.contains d.level && !RuleDefinition.isIgnored d.sentence

/-- Whether the definition gives a rule of this identifier when there is none before it. -/
def gives (id : RuleId) (d : RuleDefinition) : Bool :=
  d.id == id && (isEligible levels d && (compileSentence d.id d.sentence).isOk)

/-- What becomes of a definition after others. -/
def fate (before : List RuleDefinition) (d : RuleDefinition) : Fate :=
  if !isEligible levels d || before.any (gives levels d.id) then .skipped
  else
    match compileSentence d.id d.sentence with
    | .ok p => .kept ⟨d, p⟩
    | .error f => .faulty f

/-- What becomes of definitions one after the other, after others. -/
def fates : List RuleDefinition → List RuleDefinition → List Fate
  | _, [] => []
  | before, d :: rest => fate levels before d :: fates (before ++ [d]) rest

end Fates

variable {levels : List Level} {before after definitions : List RuleDefinition} {d : RuleDefinition}

/-- The definitions are compiled one after the other. -/
theorem compile_append (before after : List RuleDefinition) :
    compile levels (before ++ after) = after.foldl (add levels) (compile levels before) :=
  List.foldl_append

theorem compile_concat (before : List RuleDefinition) (d : RuleDefinition) :
    compile levels (before ++ [d]) = add levels (compile levels before) d :=
  compile_append before [d]

/-- The cases of one more definition. -/
theorem add_cases (levels : List Level) (s : RuleSet) (d : RuleDefinition) :
    (isEligible levels d = false ∧ add levels s d = s) ∨
    (isEligible levels d = true ∧ (s.rules.any fun r => r.definition.id == d.id) = true ∧
      add levels s d = s) ∨
    isEligible levels d = true ∧ (s.rules.any fun r => r.definition.id == d.id) = false ∧
      ((∃ p, compileSentence d.id d.sentence = .ok p ∧
          (add levels s d).rules = s.rules ++ [⟨d, p⟩] ∧ (add levels s d).faults = s.faults) ∨
        ∃ f, compileSentence d.id d.sentence = .error f ∧
          (add levels s d).rules = s.rules ∧ (add levels s d).faults = s.faults ++ [f]) := by
  rw [← s.agree.isSome_get?]
  unfold add isEligible
  by_cases heligible :
      (levels.contains d.level && !RuleDefinition.isIgnored d.sentence) = true
  · have hskip : ¬ (!levels.contains d.level || RuleDefinition.isIgnored d.sentence) = true := by
      simpa using heligible
    rw [if_neg hskip]
    refine .inr ?_
    by_cases hfree : s.get? d.id = none
    · rw [dif_pos hfree]
      refine .inr ⟨heligible, congrArg Option.isSome hfree, ?_⟩
      cases compileSentence d.id d.sentence with
      | ok p => exact .inl ⟨p, rfl, RuleIndexes.rules_insert s.agree hfree p, rfl⟩
      | error f => exact .inr ⟨f, rfl, rfl, rfl⟩
    · exact .inl ⟨heligible, Option.isSome_iff_ne_none.2 hfree, dif_neg hfree⟩
  · have hskip : (!levels.contains d.level || RuleDefinition.isIgnored d.sentence) = true := by
      by_contra hnot
      exact heligible (by simpa using hnot)
    exact .inl ⟨Bool.not_eq_true _ ▸ heligible, if_pos hskip⟩

/-- An identifier is taken exactly if a definition has given a rule of it. -/
theorem any_rules_compile (levels : List Level) (definitions : List RuleDefinition) (id : RuleId) :
    ((compile levels definitions).rules.any fun r => r.definition.id == id) =
      definitions.any (gives levels id) := by
  induction definitions using List.reverseRecOn with
  | nil => rfl
  | append_singleton before d ih =>
    rw [compile_concat, List.any_append, List.any_cons, List.any_nil, Bool.or_false, ← ih]
    rcases add_cases levels (compile levels before) d with
      ⟨heligible, hadd⟩ | ⟨heligible, htaken, hadd⟩ |
      ⟨heligible, -, ⟨p, hcompile, hrules, -⟩ | ⟨f, hcompile, hrules, -⟩⟩
    · simp [hadd, gives, heligible]
    · rw [hadd, gives, heligible, Bool.true_and]
      by_cases hid : d.id = id
      · subst hid
        rw [htaken, Bool.true_or]
      · simp [hid]
    · simp [hrules, gives, heligible, hcompile, Except.isOk, Except.toBool]
    · simp [hrules, gives, heligible, hcompile, Except.isOk, Except.toBool]

/-- One more definition adds what becomes of it. -/
theorem add_compile (levels : List Level) (before : List RuleDefinition) (d : RuleDefinition) :
    (add levels (compile levels before) d).rules =
        (compile levels before).rules ++ (fate levels before d).rule?.toList ∧
      (add levels (compile levels before) d).faults =
        (compile levels before).faults ++ (fate levels before d).fault?.toList := by
  unfold fate
  rw [← any_rules_compile]
  rcases add_cases levels (compile levels before) d with
    ⟨heligible, hadd⟩ | ⟨heligible, htaken, hadd⟩ |
    ⟨heligible, hfree, ⟨p, hcompile, hrules, hfaults⟩ | ⟨f, hcompile, hrules, hfaults⟩⟩
  · simp [hadd, heligible, Fate.rule?, Fate.fault?]
  · simp [hadd, heligible, htaken, Fate.rule?, Fate.fault?]
  · simp [hrules, hfaults, heligible, hfree, hcompile, Fate.rule?, Fate.fault?]
  · simp [hrules, hfaults, heligible, hfree, hcompile, Fate.rule?, Fate.fault?]

/-- More definitions add what becomes of them. -/
theorem compile_append_fates (levels : List Level) (before after : List RuleDefinition) :
    (compile levels (before ++ after)).rules =
        (compile levels before).rules ++ (fates levels before after).filterMap Fate.rule? ∧
      (compile levels (before ++ after)).faults =
        (compile levels before).faults ++ (fates levels before after).filterMap Fate.fault? := by
  induction after generalizing before with
  | nil => simp [fates]
  | cons d rest ih =>
    have hconcat : before ++ d :: rest = (before ++ [d]) ++ rest := by simp
    obtain ⟨hrules, hfaults⟩ := ih (before ++ [d])
    obtain ⟨hrule, hfault⟩ := add_compile levels before d
    rw [hconcat, hrules, hfaults, compile_concat, hrule, hfault]
    constructor
    · cases h : (fate levels before d).rule? <;> simp [fates, h]
    · cases h : (fate levels before d).fault? <;> simp [fates, h]

/-- Only which identifiers are taken matters of the definitions before. -/
theorem fates_congr {before' : List RuleDefinition}
    (h : ∀ id, before.any (gives levels id) = before'.any (gives levels id)) :
    fates levels before after = fates levels before' after := by
  induction after generalizing before before' with
  | nil => rfl
  | cons d rest ih =>
    have hrest (id : RuleId) : (before ++ [d]).any (gives levels id) =
        (before' ++ [d]).any (gives levels id) := by
      rw [List.any_append, List.any_append, h]
    rw [fates, fates, ih hrest]
    unfold fate
    rw [h]

/-- A definition that is a fault gives no rule. -/
theorem of_fate_eq_faulty {f : SentenceFault} (h : fate levels before d = .faulty f) :
    f = ⟨d.id, d.sentence⟩ ∧ ∀ id, gives levels id d = false := by
  unfold fate at h
  split at h
  · cases h
  · cases hcompile : compileSentence d.id d.sentence with
    | ok p =>
      rw [hcompile] at h
      cases h
    | error f' =>
      rw [hcompile] at h
      obtain rfl := Fate.faulty.inj h
      refine ⟨?_, fun id => by simp [gives, hcompile, Except.isOk, Except.toBool]⟩
      unfold compileSentence at hcompile
      split at hcompile
      · cases hcompile
      · exact (Except.error.inj hcompile).symm

theorem of_fate_eq_kept {r : CompiledRule} (h : fate levels before d = .kept r) :
    r.definition = d ∧ isEligible levels d = true ∧
      compileSentence d.id d.sentence = .ok r.predicate := by
  unfold fate at h
  split at h
  · cases h
  · next hskip =>
    cases hcompile : compileSentence d.id d.sentence with
    | ok p =>
      rw [hcompile] at h
      obtain rfl := Fate.kept.inj h
      refine ⟨rfl, ?_, rfl⟩
      rw [Bool.or_eq_true, not_or] at hskip
      simpa using hskip.1
    | error f =>
      rw [hcompile] at h
      cases h

theorem exists_fate_of_mem {x : Fate} (h : x ∈ fates levels before after) :
    ∃ front, ∃ d ∈ after, x = fate levels front d := by
  induction after generalizing before with
  | nil => cases h
  | cons d rest ih =>
    rcases List.mem_cons.1 h with rfl | h
    · exact ⟨before, d, List.mem_cons_self, rfl⟩
    · obtain ⟨front, e, he, hx⟩ := ih h
      exact ⟨front, e, List.mem_cons_of_mem d he, hx⟩

/-- The rules stand in the order of their definitions. -/
theorem sublist_compile (levels : List Level) (definitions : List RuleDefinition) :
    ((compile levels definitions).rules.map (·.definition)).Sublist definitions := by
  induction definitions using List.reverseRecOn with
  | nil => exact .slnil
  | append_singleton before d ih =>
    rw [compile_concat, (add_compile levels before d).1, List.map_append]
    refine ih.append ?_
    cases h : fate levels before d with
    | kept r =>
      rw [← (of_fate_eq_kept h).1]
      exact .refl _
    | _ => exact List.nil_sublist _

/-- Every rule that is compiled is one of the definitions. -/
theorem definition_mem_of_mem_compile {r : CompiledRule}
    (hr : r ∈ (compile levels definitions).rules) : r.definition ∈ definitions :=
  (sublist_compile levels definitions).subset (List.mem_map_of_mem hr)

/-- Each rule is what its definition compiles to. -/
theorem of_mem_compile {r : CompiledRule} (hr : r ∈ (compile levels definitions).rules) :
    isEligible levels r.definition = true ∧
      compileSentence r.definition.id r.definition.sentence = .ok r.predicate := by
  rw [← List.nil_append definitions, (compile_append_fates levels [] definitions).1] at hr
  obtain ⟨x, hx, hrule⟩ := List.mem_filterMap.1 hr
  obtain ⟨front, d, -, rfl⟩ := exists_fate_of_mem hx
  have hkept : fate levels front d = .kept r := by
    unfold Fate.rule? at hrule
    split at hrule
    · next hfate => rw [hfate, Option.some.inj hrule]
    · cases hrule
  obtain ⟨rfl, hcompile⟩ := of_fate_eq_kept hkept
  exact hcompile

/-- A definition that compiles is the only rule when it is compiled alone. -/
theorem rules_compile_singleton {p : Predicate} (heligible : isEligible levels d = true)
    (hcompile : compileSentence d.id d.sentence = .ok p) :
    (compile levels [d]).rules = [⟨d, p⟩] := by
  have hrules := (compile_append_fates levels [] [d]).1
  rw [List.nil_append, fates, fates] at hrules
  rw [hrules]
  unfold fate
  rw [heligible, hcompile]
  rfl

/-- Among rules with different identifiers there is one of each identifier. -/
theorem filter_id_eq {rules : List CompiledRule} (h : (rules.map (·.definition.id)).Nodup)
    {r : CompiledRule} (hr : r ∈ rules) :
    rules.filter (·.definition.id == r.definition.id) = [r] := by
  induction rules with
  | nil => cases hr
  | cons q rest ih =>
    obtain ⟨hq, hrest⟩ := List.nodup_cons.1 h
    rcases List.mem_cons.1 hr with rfl | hr
    · have hnone : rest.filter (·.definition.id == r.definition.id) = [] := by
        refine List.filter_eq_nil_iff.2 fun p hp => ?_
        rw [beq_iff_eq]
        exact fun hid => hq (List.mem_map.2 ⟨p, hp, hid⟩)
      rw [List.filter_cons, if_pos (beq_self_eq_true _), hnone]
    · have hne : ¬ (q.definition.id == r.definition.id) = true := by
        rw [beq_iff_eq]
        exact fun hid => hq (List.mem_map.2 ⟨r, hr, hid.symm⟩)
      rw [List.filter_cons, if_neg hne, ih hrest hr]

/-- The set of some rules with different identifiers. -/
def ofRules (rules : List CompiledRule) (faults : List SentenceFault)
    (h : (rules.map (·.definition.id)).Nodup) : RuleSet where
  definitions := rules.map (·.definition)
  predicates := rules.map fun r => (r.definition.id, r.predicate)
  faults := faults
  agree := ⟨by rwa [List.map_map], by rw [List.map_map, List.map_map]; exact .refl _⟩

@[simp] theorem rules_ofRules {rules : List CompiledRule} {faults : List SentenceFault}
    (h : (rules.map (·.definition.id)).Nodup) : (ofRules rules faults h).rules = rules := by
  have hjoin : ∀ r ∈ rules, (ofRules rules faults h).join? r.definition = some r := by
    intro r hr
    unfold RuleIndexes.join? RuleIndexes.get? Keyed.get? ofRules
    rw [List.find?_map, ← List.head?_filter]
    simp only [Function.comp_def, filter_id_eq h hr]
    rfl
  change (rules.map (·.definition)).filterMap (ofRules rules faults h).join? = rules
  rw [List.filterMap_map]
  exact (List.filterMap_congr hjoin).trans List.filterMap_some

/-- Each active definition is one of those of its level. -/
theorem perm_levels (definitions : List RuleDefinition) :
    (Level.all.flatMap fun l => definitions.filter fun d => d.active && d.level == l).Perm
      (definitions.filter (·.active)) := by
  simp only [Level.all, List.flatMap_cons, List.flatMap_nil, List.append_nil]
  induction definitions with
  | nil => exact .refl _
  | cons d rest ih =>
    cases hactive : d.active with
    | false => simpa [List.filter_cons, hactive] using ih
    | true =>
      cases hlevel : d.level with
      | activity => simpa [List.filter_cons, hactive, hlevel] using ih
      | transaction =>
        simpa [List.filter_cons, hactive, hlevel] using List.perm_middle.trans (ih.cons d)
      | organisation =>
        have hmiddle := (List.perm_middle (a := d)).trans ((List.append_assoc _ _ _ ▸ ih).cons d)
        simpa [List.filter_cons, hactive, hlevel] using hmiddle

/-- What is compiled without a faulty definition: the same rules, and all faults but its own. -/
theorem compile_without_faulty (after : List RuleDefinition) {f : SentenceFault}
    (hfate : fate levels before d = .faulty f) :
    (compile levels (before ++ after)).rules = (compile levels (before ++ d :: after)).rules ∧
      ∃ later, (compile levels (before ++ d :: after)).faults =
          (compile levels before).faults ++ f :: later ∧
        (compile levels (before ++ after)).faults = (compile levels before).faults ++ later := by
  -- the later definitions find the same identifiers taken
  have hlater : fates levels (before ++ [d]) after = fates levels before after :=
    fates_congr fun id => by simp [(of_fate_eq_faulty hfate).2 id]
  obtain ⟨hrules, hfaults⟩ := compile_append_fates levels before (d :: after)
  obtain ⟨hrules', hfaults'⟩ := compile_append_fates levels before after
  rw [fates, hfate, hlater] at hrules hfaults
  exact ⟨hrules'.trans hrules.symm, _, hfaults, hfaults'⟩

/-- What becomes of each definition makes up the rules and the faults, and the indexes are joined by
identifiers: every definition that is kept has the predicate that it compiles to, and is one of the
rules of its level if it is active. -/
theorem compile_eq_fates (levels : List Level) (definitions : List RuleDefinition) :
    let s := compile levels definitions
    (s.rules = (fates levels [] definitions).filterMap Fate.rule? ∧
      s.faults = (fates levels [] definitions).filterMap Fate.fault? ∧
      ∀ id, (s.get? id).isSome = definitions.any (gives levels id)) ∧
    (s.definitions = s.rules.map (·.definition) ∧ s.definitions.Sublist definitions ∧
      (s.definitions.map (·.id)).Nodup ∧
      (s.predicates.map (·.1)).Perm (s.definitions.map (·.id)) ∧ s.size = s.definitions.length) ∧
    (∀ d ∈ s.definitions, ∃ p, compileSentence d.id d.sentence = .ok p ∧ s.get? d.id = some p) ∧
    (∀ before d after f, definitions = before ++ d :: after → fate levels before d = .faulty f →
      let others := compile levels (before ++ after)
      f = ⟨d.id, d.sentence⟩ ∧ others.definitions = s.definitions ∧
        (∀ id, others.get? id = s.get? id) ∧
        ∃ later, s.faults = (compile levels before).faults ++ f :: later ∧
          others.faults = (compile levels before).faults ++ later) ∧
    (∀ l, (s.forLevel l).map (·.definition) =
        s.definitions.filter (fun d => d.active && d.level == l) ∧
      ∀ r ∈ s.forLevel l, s.get? r.definition.id = some r.predicate) ∧
    (Level.all.flatMap fun l => (s.forLevel l).map (·.definition)).Perm
      (s.definitions.filter (·.active)) := by
  intro s
  obtain ⟨hrules, hfaults⟩ := compile_append_fates levels [] definitions
  have hdefinitions : s.rules.map (·.definition) = s.definitions := s.agree.definitions_rules
  have hlevels (l : Level) : (s.forLevel l).map (·.definition) =
      s.definitions.filter fun d => d.active && d.level == l := s.agree.definitions_forLevel l
  refine ⟨⟨hrules, hfaults, fun id => ?_⟩,
    ⟨hdefinitions.symm, ?_, s.agree.nodup, s.agree.keys, s.agree.size_eq⟩, fun d hd => ?_, ?_,
    fun l => ⟨hlevels l, fun r => RuleIndexes.get?_of_mem_forLevel⟩, ?_⟩
  · rw [s.agree.isSome_get?, any_rules_compile]
  · rw [← hdefinitions]
    exact sublist_compile levels definitions
  · obtain ⟨p, hjoin⟩ := s.agree.exists_join? hd
    have hr : ⟨d, p⟩ ∈ s.rules := List.mem_filterMap.2 ⟨d, hd, hjoin⟩
    exact ⟨p, (of_mem_compile hr).2, (RuleIndexes.get?_of_mem_rules hr).2⟩
  · rintro before d after f rfl hfate
    obtain ⟨hsame, hlater⟩ := compile_without_faulty after hfate
    refine ⟨(of_fate_eq_faulty hfate).1, ?_, fun id => ?_, hlater⟩
    · rw [← hdefinitions, ← hsame, RuleIndexes.Agree.definitions_rules]
      exact (compile levels (before ++ after)).agree
    · rw [s.agree.get?_eq, ← hsame]
      exact (compile levels (before ++ after)).agree.get?_eq id
  · simp only [hlevels]
    exact perm_levels s.definitions

/-- Definitions with a comment, a blank line and a level that is not compiled among them. A fault does
not take its identifier, and the rule that has it takes it. -/
def mixedDefinitions : List RuleDefinition := [
  ⟨⟨1⟩, "# a exists?", .activity, true⟩,
  ⟨⟨2⟩, "no sentence", .activity, true⟩,
  ⟨⟨2⟩, "a exists?", .activity, true⟩,
  ⟨⟨2⟩, "b exists?", .activity, true⟩,
  ⟨⟨3⟩, "", .transaction, true⟩,
  ⟨⟨3⟩, "c exists?", .organisation, true⟩,
  ⟨⟨3⟩, "d exists?", .transaction, true⟩,
  ⟨⟨1⟩, "e exists?", .transaction, false⟩]

/-- Without the fault, the same definitions are kept with the same predicates. -/
theorem compile_eq_fates_mixed :
    let levels : List Level := [.activity, .transaction]
    let s := compile levels mixedDefinitions
    let front := mixedDefinitions.take 1
    let others := compile levels (front ++ mixedDefinitions.drop 2)
    fate levels front ⟨⟨2⟩, "no sentence", .activity, true⟩ = .faulty ⟨⟨2⟩, "no sentence"⟩ ∧
      s.definitions = [⟨⟨2⟩, "a exists?", .activity, true⟩, ⟨⟨3⟩, "d exists?", .transaction, true⟩,
        ⟨⟨1⟩, "e exists?", .transaction, false⟩] ∧
      s.faults = [⟨⟨2⟩, "no sentence"⟩] ∧ others.definitions = s.definitions ∧
      (∀ id, others.get? id = s.get? id) ∧
      (s.forLevel .transaction).map (·.definition) = [⟨⟨3⟩, "d exists?", .transaction, true⟩] := by
  intro levels s front others
  have hfate : fate levels front ⟨⟨2⟩, "no sentence", .activity, true⟩ =
      .faulty ⟨⟨2⟩, "no sentence"⟩ := rfl
  have hdefinitions : s.definitions = [⟨⟨2⟩, "a exists?", .activity, true⟩,
      ⟨⟨3⟩, "d exists?", .transaction, true⟩, ⟨⟨1⟩, "e exists?", .transaction, false⟩] := by
    decide +kernel
  obtain ⟨-, -, -, hremoved, hlevels, -⟩ := compile_eq_fates levels mixedDefinitions
  obtain ⟨-, hsame, hget, -⟩ := hremoved front _ (mixedDefinitions.drop 2) _ rfl hfate
  refine ⟨hfate, hdefinitions, by decide +kernel, hsame, hget, ?_⟩
  rw [(hlevels .transaction).1, hdefinitions]
  rfl

end RuleSet

end DataQuality
