import DataQuality.Metric.Registry
import Mathlib.Tactic

/-!
# Calls to a registry

What a registry holds after any calls that register and unregister bindings, told from the calls
alone: an identifier is held if the last call about it was to register it, and a binding stands from
the call that registered it on, until a call takes it out.
-/
namespace DataQuality

namespace MetricIndexes

variable {x : MetricIndexes} {id : InfoId}

theorem isSome_get?_iff : (x.get? id).isSome ↔ id ∈ x.bindings.map (·.infoId) := by
  simp [get?, List.find?_isSome]

theorem bindings_remove (x : MetricIndexes) (id : InfoId) :
    (x.remove id).bindings = x.bindings.filter (·.infoId != id) := by
  cases hget : x.get? id with
  | none =>
    rw [remove_of_none hget]
    exact (List.filter_eq_self.2 fun b hb => bne_iff_ne.2 (get?_eq_none.1 hget b hb)).symm
  | some b => rw [remove_of_some hget]

namespace Agree

variable (h : x.Agree)
include h

/-- An identifier stands at the level of its binding. -/
theorem mem_idsAt (id : InfoId) (l : Level) :
    id ∈ x.idsAt l ↔ (x.get? id).map (·.level) = some l := by
  rw [h.idsAt_eq, List.mem_map, Option.map_eq_some_iff]
  constructor
  · rintro ⟨b, hb, rfl⟩
    obtain ⟨hin, hlevel⟩ := List.mem_filter.1 hb
    exact ⟨b, h.get?_of_mem hin, eq_of_beq hlevel⟩
  · rintro ⟨b, hget, rfl⟩
    obtain ⟨hin, rfl⟩ := mem_of_get? hget
    exact ⟨b, List.mem_filter.2 ⟨hin, beq_self_eq_true _⟩, rfl⟩

theorem exists_mem_idsAt (id : InfoId) : (∃ l, id ∈ x.idsAt l) ↔ (x.get? id).isSome := by
  simp [h.mem_idsAt, Option.isSome_iff_exists]

/-- An identifier stands once at the level of its binding, and nowhere else. -/
theorem count_idsAt (id : InfoId) (l : Level) :
    (x.idsAt l).count id = if (x.get? id).map (·.level) = some l then 1 else 0 := by
  have hnodup : (x.idsAt l).Nodup := by
    rw [h.idsAt_eq]
    exact h.nodup.sublist (List.filter_sublist.map _)
  rw [hnodup.count]
  exact if_congr (h.mem_idsAt id l) rfl rfl

/-- Each binding is at one of the levels. -/
theorem size_eq : x.size = (Level.all.map fun l => (x.idsAt l).length).sum := by
  simp only [size, h.idsAt_eq, List.length_map]
  induction x.bindings with
  | nil => rfl
  | cons b rest ih =>
    rcases b with ⟨id, metric, _ | _ | _⟩ <;> simp [Level.all] at ih ⊢ <;> omega

end Agree

end MetricIndexes

namespace MetricRegistry

variable {r : MetricRegistry} {b : MetricBinding}

theorem register_of_isSome (h : (r.get? b.infoId).isSome) : r.register b = .error ⟨b.infoId⟩ := by
  rw [register, dif_neg (Option.isSome_iff_ne_none.1 h)]

theorem register_of_none (h : r.get? b.infoId = none) : r.register b = .ok (r.insert b h) := by
  rw [register, dif_pos h]

/-- Registering fails for an identifier that is registered. -/
theorem register_fails_iff : (∃ e, r.register b = .error e) ↔ (r.get? b.infoId).isSome := by
  cases hget : r.get? b.infoId with
  | none => simp [register_of_none hget]
  | some b' => simp [register_of_isSome (r := r) (b := b) (hget ▸ rfl)]

/-- Bindings are registered one after the other as long as their identifiers are new. -/
theorem foldlM_register_isOk (bindings : List MetricBinding) (r : MetricRegistry) :
    (∃ r', bindings.foldlM register r = .ok r') ↔
      ((r.bindings ++ bindings).map (·.infoId)).Nodup := by
  induction bindings generalizing r with
  | nil => simpa [pure, Except.pure] using r.agree.nodup
  | cons b rest ih =>
    rw [List.foldlM_cons]
    cases hget : r.get? b.infoId with
    | none =>
      rw [register_of_none hget]
      refine (ih (r.insert b hget)).trans ?_
      change ((r.bindings ++ [b] ++ rest).map (·.infoId)).Nodup ↔ _
      rw [List.append_assoc, List.singleton_append]
    | some b' =>
      have hsome : (r.get? b.infoId).isSome := hget ▸ rfl
      rw [register_of_isSome hsome]
      refine iff_of_false ?_ fun hnodup => ?_
      · rintro ⟨r', h⟩
        cases h
      · rw [List.map_append, List.nodup_append] at hnodup
        exact hnodup.2.2 _ (MetricIndexes.isSome_get?_iff.1 hsome) _ (List.mem_cons_self ..) rfl

/-- A call to a registry. -/
inductive Call
  | register (b : MetricBinding)
  | unregister (id : InfoId)
  deriving DecidableEq

/-- The identifier that a call is about. -/
def Call.infoId : Call → InfoId
  | .register b => b.infoId
  | .unregister id => id

/-- The binding that a call registers, if it does not fail. -/
def Call.binding? : Call → Option MetricBinding
  | .register b => some b
  | .unregister _ => none

/-- The registry after a call. A call that fails leaves it as it was. -/
def call (r : MetricRegistry) : Call → MetricRegistry
  | .register b =>
    match r.register b with
    | .ok r' => r'
    | .error _ => r
  | .unregister id => r.unregister id

/-- The registry after some calls, of no metrics before them. -/
def after (calls : List Call) : MetricRegistry := calls.foldl call empty

/-- The last call about an identifier was to register it. -/
def held (calls : List Call) (id : InfoId) : Bool :=
  ((calls.reverse.find? (·.infoId == id)).bind Call.binding?).isSome

/-- The binding that the call at an index registered, if its identifier was not held before that call
and no call has taken it out since. -/
def standingAt? (calls : List Call) (i : Nat) : Option MetricBinding :=
  (calls[i]?.bind Call.binding?).filter fun b =>
    !held (calls.take i) b.infoId && !(calls.drop (i + 1)).contains (.unregister b.infoId)

/-- The bindings that were registered and have not been taken out since, in order of the calls that
registered them. -/
def standing (calls : List Call) : List MetricBinding :=
  (List.range calls.length).filterMap (standingAt? calls)

theorem call_register_of_isSome (h : (r.get? b.infoId).isSome) : r.call (.register b) = r := by
  rw [call, register_of_isSome h]

theorem call_register_of_none (h : r.get? b.infoId = none) :
    r.call (.register b) = r.insert b h := by
  rw [call, register_of_none h]

theorem after_append (calls : List Call) (c : Call) : after (calls ++ [c]) = (after calls).call c := by
  rw [after, List.foldl_append]
  rfl

theorem held_append (calls : List Call) (c : Call) (id : InfoId) :
    held (calls ++ [c]) id = if c.infoId = id then c.binding?.isSome else held calls id := by
  unfold held
  rw [List.reverse_append, List.reverse_singleton, List.singleton_append, List.find?_cons]
  by_cases hid : c.infoId = id
  · simp [hid]
  · simp [hid, beq_false_of_ne hid]

/-- After a call about an identifier, it is registered if the call was to register it. -/
theorem isSome_get?_call (r : MetricRegistry) (c : Call) (id : InfoId) :
    ((r.call c).get? id).isSome =
      if c.infoId = id then c.binding?.isSome else (r.get? id).isSome := by
  cases c with
  | register b =>
    cases hget : r.get? b.infoId with
    | some b' =>
      have hsome : (r.get? b.infoId).isSome := hget ▸ rfl
      rw [call_register_of_isSome hsome]
      by_cases hid : b.infoId = id
      · simp [Call.infoId, Call.binding?, ← hid, hget]
      · simp [Call.infoId, hid]
    | none =>
      rw [call_register_of_none hget]
      by_cases hid : b.infoId = id <;>
        simp [insert, MetricIndexes.insert, MetricIndexes.get?, Call.infoId, Call.binding?, hid]
  | unregister id' =>
    change ((r.remove id').get? id).isSome = _
    rw [Bool.eq_iff_iff, MetricIndexes.isSome_get?_iff, MetricIndexes.bindings_remove]
    by_cases hid : id' = id
    · simp [Call.infoId, Call.binding?, hid]
    · simp only [Call.infoId, hid, if_false, MetricIndexes.isSome_get?_iff, List.mem_map,
        List.mem_filter, bne_iff_ne]
      refine exists_congr fun b => ⟨fun h => ⟨h.1.1, h.2⟩, ?_⟩
      rintro ⟨hb, rfl⟩
      exact ⟨⟨hb, Ne.symm hid⟩, rfl⟩

/-- The identifiers that are held are those that are registered. -/
theorem isSome_get?_after (calls : List Call) (id : InfoId) :
    ((after calls).get? id).isSome = held calls id := by
  induction calls using List.reverseRecOn with
  | nil => rfl
  | append_singleton calls c ih => rw [after_append, isSome_get?_call, held_append, ih]

/-- What a call registered stands after one more call, unless that takes it out. -/
theorem standingAt?_append (calls : List Call) (c : Call) {i : Nat} (hi : i < calls.length) :
    standingAt? (calls ++ [c]) i =
      (standingAt? calls i).filter fun b => c != .unregister b.infoId := by
  unfold standingAt?
  rw [List.getElem?_append_left hi, List.take_append_of_le_length hi.le,
    List.drop_append_of_le_length hi, Option.filter_filter]
  congr 1
  funext b
  rw [List.contains_append, List.contains_cons, List.contains_nil, Bool.or_false, Bool.not_or,
    Bool.and_assoc, @BEq.comm _ _ _ _ c]
  rfl

/-- The binding of the last call stands if its identifier was not held before. -/
theorem standingAt?_length (calls : List Call) (c : Call) :
    standingAt? (calls ++ [c]) calls.length = c.binding?.filter fun b => !held calls b.infoId := by
  simp [standingAt?]

/-- What stands after one more call: what stood before and is not taken out by it, and what it
registers. -/
theorem standing_append (calls : List Call) (c : Call) :
    standing (calls ++ [c]) = (standing calls).filter (fun b => c != .unregister b.infoId) ++
      (c.binding?.filter fun b => !held calls b.infoId).toList := by
  have hbefore : (List.range calls.length).filterMap (standingAt? (calls ++ [c])) =
      (standing calls).filter fun b => c != .unregister b.infoId := by
    rw [standing, List.filter_filterMap]
    exact List.filterMap_congr fun i hi => standingAt?_append calls c (List.mem_range.1 hi)
  rw [standing, List.length_append, List.length_singleton, List.range_succ, List.filterMap_append,
    hbefore, ← standingAt?_length, List.filterMap_cons, List.filterMap_nil]
  cases standingAt? (calls ++ [c]) calls.length <;> rfl

/-- The bindings of a registry are those that stand. -/
theorem bindings_after (calls : List Call) : (after calls).bindings = standing calls := by
  induction calls using List.reverseRecOn with
  | nil => rfl
  | append_singleton calls c ih =>
    rw [after_append, standing_append, ← ih]
    cases c with
    | register b =>
      have hkept : (after calls).bindings.filter
          (fun b' => Call.register b != .unregister b'.infoId) = (after calls).bindings :=
        List.filter_eq_self.2 fun _ _ => rfl
      rw [hkept, Call.binding?, Option.filter_some, ← isSome_get?_after]
      cases hget : (after calls).get? b.infoId with
      | none =>
        rw [call_register_of_none hget]
        rfl
      | some b' =>
        rw [call_register_of_isSome (hget ▸ rfl)]
        simp
    | unregister id =>
      have hout (b : MetricBinding) :
          (Call.unregister id != .unregister b.infoId) = (b.infoId != id) := by
        rw [Bool.eq_iff_iff, bne_iff_ne, bne_iff_ne, Ne, Call.unregister.injEq, eq_comm]
      simp only [hout, Call.binding?, Option.filter_none, Option.toList_none, List.append_nil]
      exact MetricIndexes.bindings_remove _ id

/-- Whatever is called, the two indexes of a registry agree. Each registered identifier stands once
at the level of its binding and nowhere else, and what is not registered stands nowhere; those that
were registered and not taken out since are registered. The bindings of a level come in the order
in which they were registered last. There are as many bindings as identifiers at all levels.
Registering fails just when the identifier stands at some level, and just then it leaves the
registry as it is. Some bindings make a registry just when their identifiers differ. -/
theorem consistent_after :
    (∀ calls : List Call,
      let r := after calls
      (∀ id l, (r.idsAt l).count id = if (r.get? id).map (·.level) = some l then 1 else 0) ∧
      (∀ id, (r.get? id).isSome = held calls id) ∧
      (∀ l, r.forLevel l = (standing calls).filter (·.level == l)) ∧
      r.size = (Level.all.map fun l => (r.idsAt l).length).sum ∧
      (∀ b, (∃ e, r.register b = .error e) ↔ ∃ l, b.infoId ∈ r.idsAt l) ∧
      ∀ b, after (calls ++ [.register b]) = r ↔ ∃ l, b.infoId ∈ r.idsAt l) ∧
    ∀ bindings, (∃ r, ofList bindings = .ok r) ↔ (bindings.map (·.infoId)).Nodup := by
  refine ⟨fun calls => ?_, fun bindings => foldlM_register_isOk bindings empty⟩
  intro r
  refine ⟨r.agree.count_idsAt, isSome_get?_after calls, fun l => ?_, r.agree.size_eq,
    fun b => ?_, fun b => ?_⟩
  · rw [r.agree.forLevel_eq, bindings_after]
  · rw [register_fails_iff, r.agree.exists_mem_idsAt]
  · rw [after_append, r.agree.exists_mem_idsAt]
    cases hget : r.get? b.infoId with
    | some b' => exact iff_of_true (call_register_of_isSome (hget ▸ rfl)) rfl
    | none =>
      refine iff_of_false (fun hsame => ?_) Bool.false_ne_true
      have hbindings : r.bindings = r.bindings ++ [b] :=
        congrArg (·.bindings) (hsame.symm.trans (call_register_of_none hget))
      exact List.cons_ne_nil _ _ (List.self_eq_append_right.1 hbindings)

/-- An identifier that is registered again at another level stands at that level only, after what was
registered there before. -/
example :
    let budgets : MetricBinding := ⟨⟨1⟩, .totalBudgetsAvailable, .activity⟩
    let papers : MetricBinding := ⟨⟨2⟩, .sectorStrategyPapers, .organisation⟩
    let moved : MetricBinding := ⟨⟨1⟩, .totalBudgetsAvailable, .organisation⟩
    let r := after [.register budgets, .register papers, .register moved, .unregister ⟨1⟩,
      .register moved]
    r.forLevel .activity = [] ∧ r.forLevel .organisation = [papers, moved] := by
  decide

end MetricRegistry

end DataQuality
