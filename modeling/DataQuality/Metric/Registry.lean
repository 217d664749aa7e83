import DataQuality.Json.Domain
import DataQuality.Metric.Coverage

/-!
# Registries of metrics

A binding computes a metric at a level and keeps its values under an info identifier. A registry
holds bindings with different identifiers in two indexes: by their identifiers, and by their levels in
the order in which they were registered.
-/
namespace DataQuality

/-- A metric, the identifier its values are kept under, and the level it is computed at. -/
structure MetricBinding where
  infoId : InfoId
  metric : Metric
  level : Level
  deriving DecidableEq

namespace MetricBinding

def fields : List String := ["info_id", "name", "level"]

def ofJson? (j : Json) : Option MetricBinding := do
  let fs ← j.asRecord? fields
  let infoId ← fs.required fields "info_id" Json.asId?
  let metric ← fs.required fields "name" (·.asName? false Metric.ofName?)
  let level ← fs.required fields "level" Json.asLevel?
  pure ⟨infoId, metric, level⟩

def toJson (b : MetricBinding) : Json := Json.record [
  ("info_id", Json.ofId b.infoId),
  ("name", Json.ofString b.metric.name),
  ("level", Json.ofLevel b.level)]

end MetricBinding

/-- An identifier that is registered already. -/
structure DuplicateInfoId where
  infoId : InfoId
  deriving DecidableEq

def DuplicateInfoId.message (e : DuplicateInfoId) : String :=
  "info id " ++ e.infoId.text ++ " is already registered"

/-- The registered bindings, and the identifiers of each level in the order in which they were
registered. -/
structure MetricIndexes where
  bindings : List MetricBinding
  byLevel : List (Level × List InfoId)
  deriving DecidableEq

namespace MetricIndexes

variable (x : MetricIndexes)

def get? (id : InfoId) : Option MetricBinding := x.bindings.find? (·.infoId == id)

def idsAt (l : Level) : List InfoId := (Keyed.get? l x.byLevel).getD []

/-- Adds a binding, and its identifier after all others of its level. -/
def insert (b : MetricBinding) : MetricIndexes :=
  ⟨x.bindings ++ [b],
    Keyed.insert (fun _ _ => false) b.level (x.idsAt b.level ++ [b.infoId]) x.byLevel⟩

/-- Takes an identifier out of those of a level, if the level has any. -/
def dropId (l : Level) (id : InfoId) : List (Level × List InfoId) :=
  match Keyed.get? l x.byLevel with
  | none => x.byLevel
  | some ids => Keyed.insert (fun _ _ => false) l (ids.filter (· != id)) x.byLevel

/-- Takes the binding of an identifier out, and the identifier out of those of its level. -/
def remove (id : InfoId) : MetricIndexes :=
  match x.get? id with
  | none => x
  | some b => ⟨x.bindings.filter (·.infoId != id), x.dropId b.level id⟩

/-- The bindings of a level, in order. -/
def forLevel (l : Level) : List MetricBinding := (x.idsAt l).filterMap x.get?

def size : Nat := x.bindings.length

/-- No two bindings have the same identifier, and the identifiers of each level are those of its
bindings. -/
structure Agree : Prop where
  nodup : (x.bindings.map (·.infoId)).Nodup
  idsAt_eq : ∀ l, x.idsAt l = (x.bindings.filter (·.level == l)).map (·.infoId)

variable {x} {id : InfoId} {b : MetricBinding}

theorem get?_eq_none : x.get? id = none ↔ ∀ b ∈ x.bindings, b.infoId ≠ id := by
  simp [get?]

theorem mem_of_get? (h : x.get? id = some b) : b ∈ x.bindings ∧ b.infoId = id :=
  ⟨List.mem_of_find?_eq_some h, by simpa using List.find?_some h⟩

theorem idsAt_insert (b : MetricBinding) (l : Level) :
    (x.insert b).idsAt l = if l = b.level then x.idsAt l ++ [b.infoId] else x.idsAt l := by
  unfold insert idsAt
  split
  · next hl => rw [hl, Keyed.get?_insert_self]; rfl
  · next hl => rw [Keyed.get?_insert_of_ne hl]

theorem get?_dropId (l l' : Level) (id : InfoId) :
    (Keyed.get? l' (x.dropId l id)).getD [] =
      if l' = l then (x.idsAt l').filter (· != id) else x.idsAt l' := by
  unfold dropId idsAt
  split
  · next hnone =>
    split
    · next hl => rw [hl, hnone]; rfl
    · rfl
  · next ids hids =>
    split
    · next hl => rw [hl, hids, Keyed.get?_insert_self]; rfl
    · next hl => rw [Keyed.get?_insert_of_ne hl]

theorem remove_of_none (h : x.get? id = none) : x.remove id = x := by rw [remove, h]

theorem remove_of_some (h : x.get? id = some b) :
    x.remove id = ⟨x.bindings.filter (·.infoId != id), x.dropId b.level id⟩ := by rw [remove, h]

theorem idsAt_remove (h : x.get? id = some b) (l : Level) :
    (x.remove id).idsAt l =
      if l = b.level then (x.idsAt l).filter (· != id) else x.idsAt l := by
  rw [remove_of_some h]
  exact get?_dropId b.level l id

namespace Agree

/-- Each binding is found by its identifier. -/
theorem get?_of_mem (h : x.Agree) (hb : b ∈ x.bindings) : x.get? b.infoId = some b := by
  have hnodup := List.pairwise_map.1 h.nodup
  unfold get?
  generalize x.bindings = bs at hb hnodup
  induction bs with
  | nil => cases hb
  | cons b' rest ih =>
    obtain ⟨hfirst, hrest⟩ := List.pairwise_cons.1 hnodup
    rcases List.mem_cons.1 hb with rfl | hb
    · simp
    · simpa [hfirst b hb] using ih hb hrest

/-- Only one binding has an identifier. -/
theorem eq_of_get? (h : x.Agree) (hget : x.get? id = some b) {b' : MetricBinding}
    (hb : b' ∈ x.bindings) (hid : b'.infoId = id) : b' = b :=
  Option.some.inj ((h.get?_of_mem hb).symm.trans (hid ▸ hget))

/-- The identifiers of a level lead to its bindings. -/
theorem forLevel_eq (h : x.Agree) (l : Level) : x.forLevel l = x.bindings.filter (·.level == l) := by
  have hfound : ∀ b ∈ x.bindings.filter (·.level == l), x.get? b.infoId = some b :=
    fun b hb => h.get?_of_mem (List.mem_filter.1 hb).1
  rw [forLevel, h.idsAt_eq, List.filterMap_map]
  generalize x.bindings.filter (·.level == l) = bs at hfound
  induction bs with
  | nil => rfl
  | cons b rest ih =>
    rw [List.filterMap_cons, Function.comp_apply, hfound b (List.mem_cons_self ..)]
    exact congrArg (b :: ·) (ih fun b' hb' => hfound b' (List.mem_cons_of_mem _ hb'))

theorem empty : Agree ⟨[], []⟩ := ⟨List.nodup_nil, fun _ => rfl⟩

/-- The indexes agree after a binding of a new identifier has been added. -/
theorem insert (h : x.Agree) (hnew : x.get? b.infoId = none) : (x.insert b).Agree where
  nodup := by
    rw [MetricIndexes.insert, List.map_append, List.map_singleton, List.nodup_append]
    refine ⟨h.nodup, List.pairwise_singleton _ _, fun id hid id' hid' => ?_⟩
    obtain ⟨b', hb', rfl⟩ := List.mem_map.1 hid
    obtain rfl := List.mem_singleton.1 hid'
    exact get?_eq_none.1 hnew b' hb'
  idsAt_eq l := by
    rw [idsAt_insert, MetricIndexes.insert, List.filter_append, List.map_append, ← h.idsAt_eq]
    by_cases hl : l = b.level
    · simp [hl]
    · simp [hl, Ne.symm hl]

/-- The indexes agree after the binding of an identifier has been taken out. -/
theorem remove (h : x.Agree) (id : InfoId) : (x.remove id).Agree := by
  cases hget : x.get? id with
  | none => rwa [remove_of_none hget]
  | some b =>
    refine ⟨?_, fun l => ?_⟩
    · rw [remove_of_some hget]
      exact h.nodup.sublist (List.filter_sublist.map _)
    · have hfilter : (x.idsAt l).filter (· != id) =
          ((x.remove id).bindings.filter (·.level == l)).map (·.infoId) := by
        rw [remove_of_some hget, h.idsAt_eq, List.filter_map, List.filter_filter, List.filter_filter]
        simp only [Function.comp_def, Bool.and_comm]
      rw [idsAt_remove hget, ← hfilter]
      split
      · rfl
      · next hl =>
        -- at another level the identifier does not stand
        refine (List.filter_eq_self.2 fun id' hid' => ?_).symm
        rw [h.idsAt_eq] at hid'
        obtain ⟨b', hb', rfl⟩ := List.mem_map.1 hid'
        obtain ⟨hin, hlevel⟩ := List.mem_filter.1 hb'
        rw [bne_iff_ne]
        rintro rfl
        exact hl ((eq_of_beq hlevel).symm.trans (congrArg _ (h.eq_of_get? hget hin rfl)))

end Agree

end MetricIndexes

/-- Registered bindings in two indexes that agree. -/
structure MetricRegistry extends MetricIndexes where
  agree : toMetricIndexes.Agree
  deriving DecidableEq

namespace MetricRegistry

def empty : MetricRegistry := ⟨⟨[], []⟩, .empty⟩

/-- Adds a binding of a new identifier. -/
def insert (r : MetricRegistry) (b : MetricBinding) (h : r.get? b.infoId = none) : MetricRegistry :=
  ⟨r.toMetricIndexes.insert b, r.agree.insert h⟩

/-- Registers a binding after all others, unless its identifier is registered. -/
def register (r : MetricRegistry) (b : MetricBinding) : Except DuplicateInfoId MetricRegistry :=
  if h : r.get? b.infoId = none then .ok (r.insert b h) else .error ⟨b.infoId⟩

/-- Takes the binding of an identifier out. -/
def unregister (r : MetricRegistry) (id : InfoId) : MetricRegistry :=
  ⟨r.remove id, r.agree.remove id⟩

def ofList (bindings : List MetricBinding) : Except DuplicateInfoId MetricRegistry :=
  bindings.foldlM register empty

end MetricRegistry

end DataQuality
