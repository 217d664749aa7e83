import DataQuality.Keyed
import DataQuality.Rule
import DataQuality.Sentence.Evaluation

/-!
# Compiled rules

A rule set holds the definitions that could be compiled, in their order, the predicates by the
identifiers of their definitions, and the faults of the definitions that could not. Of several
definitions with one identifier the first that compiles is kept.
-/
namespace DataQuality

/-- A sentence that fits no template, and the rule it belongs to. -/
structure SentenceFault where
  id : RuleId
  sentence : String
  deriving DecidableEq

def SentenceFault.message (f : SentenceFault) : String :=
  "rule " ++ f.id.text ++ ": unrecognised rule syntax: " ++ Text.quoted f.sentence

/-- A rule and its predicate. -/
structure CompiledRule where
  definition : RuleDefinition
  predicate : Predicate

/-- The definitions that compiled, their predicates by identifier, and the faults of those that did
not. -/
structure RuleIndexes where
  definitions : List RuleDefinition
  predicates : List (RuleId × Predicate)
  faults : List SentenceFault

namespace RuleIndexes

variable (x : RuleIndexes)

def get? (id : RuleId) : Option Predicate := Keyed.get? id x.predicates

/-- Adds a definition after all others, and its predicate under its identifier. -/
def insert (d : RuleDefinition) (p : Predicate) : RuleIndexes :=
  { x with
    definitions := x.definitions ++ [d]
    predicates := Keyed.insert (fun _ _ => false) d.id p x.predicates }

/-- Adds a fault after all others. -/
def addFault (f : SentenceFault) : RuleIndexes := { x with faults := x.faults ++ [f] }

/-- A definition with the predicate of its identifier, if there is one. -/
def join? (d : RuleDefinition) : Option CompiledRule := (x.get? d.id).map fun p => ⟨d, p⟩

/-- The rules with their predicates, in order. -/
def rules : List CompiledRule := x.definitions.filterMap x.join?

/-- The active rules of a level with their predicates, in order. -/
def forLevel (l : Level) : List CompiledRule :=
  (x.definitions.filter fun d => d.active && d.level == l).filterMap x.join?

def size : Nat := x.predicates.length

/-- No two definitions have the same identifier, and the identifiers of the predicates are those of
the definitions. -/
structure Agree : Prop where
  nodup : (x.definitions.map (·.id)).Nodup
  keys : (x.predicates.map (·.1)).Perm (x.definitions.map (·.id))

variable {x} {id : RuleId} {d : RuleDefinition} {p : Predicate}

namespace Agree

theorem empty : Agree ⟨[], [], []⟩ := ⟨List.nodup_nil, .refl _⟩

/-- An identifier has a predicate exactly if it is that of a definition. -/
theorem get?_eq_none (h : x.Agree) : x.get? id = none ↔ ∀ d ∈ x.definitions, d.id ≠ id := by
  unfold RuleIndexes.get?
  rw [Keyed.get?_eq_none, h.keys.mem_iff]
  simp

/-- The indexes agree after a definition of a new identifier has been added. -/
theorem insert (h : x.Agree) (hnew : x.get? d.id = none) (p : Predicate) : (x.insert d p).Agree where
  nodup := by
    rw [RuleIndexes.insert, List.map_append, List.map_singleton, List.nodup_append]
    refine ⟨h.nodup, List.pairwise_singleton _ _, fun id hid id' hid' => ?_⟩
    obtain ⟨d', hd', rfl⟩ := List.mem_map.1 hid
    obtain rfl := List.mem_singleton.1 hid'
    exact h.get?_eq_none.1 hnew d' hd'
  keys := by
    rw [RuleIndexes.insert, List.map_append, List.map_singleton]
    exact (Keyed.keys_insert _ p (Keyed.get?_eq_none.1 hnew)).trans
      ((h.keys.cons d.id).trans (List.perm_append_singleton _ _).symm)

theorem addFault (h : x.Agree) (f : SentenceFault) : (x.addFault f).Agree := ⟨h.nodup, h.keys⟩

end Agree

end RuleIndexes

/-- Compiled rules whose indexes agree. -/
structure RuleSet extends RuleIndexes where
  agree : toRuleIndexes.Agree

namespace RuleSet

def empty : RuleSet := ⟨⟨[], [], []⟩, .empty⟩

/-- Adds a definition of a new identifier and its predicate. -/
def insert (s : RuleSet) (d : RuleDefinition) (p : Predicate) (h : s.get? d.id = none) : RuleSet :=
  ⟨s.toRuleIndexes.insert d p, s.agree.insert h p⟩

/-- Adds a fault. -/
def addFault (s : RuleSet) (f : SentenceFault) : RuleSet :=
  ⟨s.toRuleIndexes.addFault f, s.agree.addFault f⟩

def compileSentence (id : RuleId) (sentence : String) : Except SentenceFault Predicate :=
  match Sentence.read? sentence with
  | some s => .ok s.compile
  | none => .error ⟨id, sentence⟩

/-- Adds a definition, unless it is of another level, a comment or blank, or its identifier has a
predicate. -/
def add (levels : List Level) (s : RuleSet) (d : RuleDefinition) : RuleSet :=
  if !levels.contains d.level || RuleDefinition.isIgnored d.sentence then s
  else if h : s.get? d.id = none then
    match compileSentence d.id d.sentence with
    | .ok p => s.insert d p h
    | .error f => s.addFault f
  else s

def compile (levels : List Level) (definitions : List RuleDefinition) : RuleSet :=
  definitions.foldl (add levels) empty

/-- The levels that are compiled when none are named. -/
def defaultLevels : List Level := [.activity]

end RuleSet

end DataQuality
