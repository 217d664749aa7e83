import DataQuality.Store.Directory
import DataQuality.Store.Faults
import DataQuality.Store.Memory
import Mathlib.Tactic

/-!
# The contract of staging

A store keeps the contract of staging if each of its calls either does to the
ledger what it is for, or fails and leaves the ledger as it is. A store that
records its commits keeps the writes of each commit beside the store itself.
-/
namespace DataQuality

variable {σ α : Type}

/-- One more write is carried out last. -/
theorem Ledger.settle_stage (l : Ledger) (w : Write) :
    (l.stage w).settle = .ofTables (l.settle.tables.apply w) := by
  unfold settle stage
  rw [Tables.applyAll_append]
  rfl

/-- How two computations in sequence run, if each may fail. -/
theorem run_bind {ε β : Type} (m : ExceptT ε (StateM σ) α) (k : α → ExceptT ε (StateM σ) β) (s : σ) :
    (m >>= k).run s =
      match m.run s with
      | (.ok a, s') => (k a).run s'
      | (.error e, s') => (.error e, s') := by
  simp only [ExceptT.run, Bind.bind, ExceptT.bind, ExceptT.mk, StateT.bind, ExceptT.bindCont]
  rcases m s with ⟨r, s'⟩
  cases r <;> rfl

/-- How a computation runs whose error is ignored. -/
theorem run_quietly {ε : Type} (m : ExceptT ε (StateM σ) Unit) (s : σ) :
    (tryCatch m fun _ => pure ()).run s = (.ok (), (m.run s).2) := by
  change (ExceptT.tryCatch m fun _ => pure ()) s = _
  simp only [ExceptT.tryCatch, ExceptT.mk, Bind.bind, StateT.bind, ExceptT.run]
  rcases m s with ⟨r, s'⟩
  cases r <;> rfl

/-- Carried out, a call does to the ledger what is said and gives that result;
failing, it leaves the ledger as it is. -/
def Obeys [Datastore σ] (call : StoreM σ α) (does : Ledger → α × Ledger) : Prop :=
  ∀ s : σ,
    (∃ a, (call.run s).1 = .ok a ∧
      does (Datastore.ledger s) = (a, Datastore.ledger (call.run s).2)) ∨
    (∃ e, (call.run s).1 = .error e) ∧ Datastore.ledger (call.run s).2 = Datastore.ledger s

/-- A store whose calls keep the contract of staging. Dropping what is staged
never fails. -/
class LawfulStore (σ : Type) [Datastore σ] : Prop where
  stage (w : Write) : Obeys (σ := σ) (Datastore.stage w) fun l => ((), l.stage w)
  startRun (now : Instant) : Obeys (σ := σ) (Datastore.startRun now) (·.startRun now)
  aggregate (r : RuntimeId) (p : PackageId) :
    Obeys (σ := σ) (Datastore.aggregate r p) (·.aggregate r p)
  organisationsOf (p : PackageId) :
    Obeys (σ := σ) (Datastore.organisationsOf p) fun l => (l.tables.organisationsOf p, l)
  commit (message : String) : Obeys (σ := σ) (Datastore.commit message) fun l => ((), l.settle)
  rollback (s : σ) :
    Datastore.ledger (Datastore.rollback.run s).2 = (Datastore.ledger s).discard

/-- A call that never fails obeys what it does. -/
theorem obeys_of_run [Datastore σ] {call : StoreM σ α} {does : Ledger → α × Ledger}
    (h : ∀ s : σ, ∃ a s', call.run s = (.ok a, s') ∧
      does (Datastore.ledger s) = (a, Datastore.ledger s')) : Obeys call does := by
  intro s
  obtain ⟨a, s', hrun, hdoes⟩ := h s
  exact .inl ⟨a, by rw [hrun], by rw [hrun]; exact hdoes⟩

instance : LawfulStore MemoryStore where
  stage _ := obeys_of_run fun _ => ⟨_, _, rfl, rfl⟩
  startRun _ := obeys_of_run fun _ => ⟨_, _, rfl, rfl⟩
  aggregate _ _ := obeys_of_run fun _ => ⟨_, _, rfl, rfl⟩
  organisationsOf _ := obeys_of_run fun _ => ⟨_, _, rfl, rfl⟩
  commit _ := obeys_of_run fun _ => ⟨_, _, rfl, rfl⟩
  rollback _ := rfl

namespace DirectoryStore

/-- A commit of nothing does nothing. Any other writes its line first, and is
carried out only if that succeeds. -/
theorem commit_run (s : DirectoryStore) :
    commit.run s =
      if s.ledger.staged = [] then (.ok (), s)
      else
        match (s.directory.join journalName).append? (Journal.line s.ledger.staged).toUTF8 s.tree with
        | some tree => (.ok (), { s with tree := tree, ledger := s.ledger.settle })
        | none => (.error .io, s) := by
  by_cases h : s.ledger.staged = []
  · have he : s.ledger.staged.isEmpty = true := by simp [h]
    rw [if_pos h]
    change (if s.ledger.staged.isEmpty = true then _ else _ : StoreM DirectoryStore Unit).run s = _
    rw [if_pos he]
    rfl
  · have he : ¬ s.ledger.staged.isEmpty = true := by simpa using h
    rw [if_neg h]
    change (if s.ledger.staged.isEmpty = true then _ else _ : StoreM DirectoryStore Unit).run s = _
    rw [if_neg he]
    generalize (s.directory.join journalName).append? (Journal.line s.ledger.staged).toUTF8 s.tree = wrote
    cases wrote <;> rfl

theorem obeys_commit : Obeys commit fun l => ((), l.settle) := by
  intro s
  rw [commit_run]
  by_cases h : s.ledger.staged = []
  · rw [if_pos h]
    refine .inl ⟨(), rfl, ?_⟩
    change ((), (⟨s.ledger.tables.applyAll s.ledger.staged, []⟩ : Ledger)) = ((), s.ledger)
    rw [h, Tables.applyAll_nil, ← h]
  · rw [if_neg h]
    cases (s.directory.join journalName).append? (Journal.line s.ledger.staged).toUTF8 s.tree with
    | some tree => exact .inl ⟨(), rfl, rfl⟩
    | none => exact .inr ⟨⟨.io, rfl⟩, rfl⟩

instance : LawfulStore DirectoryStore where
  stage _ := obeys_of_run fun _ => ⟨_, _, rfl, rfl⟩
  startRun _ := obeys_of_run fun _ => ⟨_, _, rfl, rfl⟩
  aggregate _ _ := obeys_of_run fun _ => ⟨_, _, rfl, rfl⟩
  organisationsOf _ := obeys_of_run fun _ => ⟨_, _, rfl, rfl⟩
  commit _ := obeys_commit
  rollback _ := rfl

end DirectoryStore

namespace FaultyStore

/-- A call either fails by plan, and never reaches the inner store, or is made on
the inner store. The plan stays as it is. -/
theorem call_run (c : StoreCall) (note : Option String) (act : StoreM σ α) (s : FaultyStore σ) :
    ∃ s', s'.plan = s.plan ∧
      (((c, s.calls.count c + 1) ∈ s.plan ∧ s'.inner = s.inner ∧
          ∃ e, (call c note act).run s = (.error e, s')) ∨
        (s'.inner = (act.run s.inner).2 ∧ (call c note act).run s = ((act.run s.inner).1, s'))) := by
  by_cases h : s.plan.contains (c, s.calls.count c + 1) = true
  · refine ⟨{ s with
      calls := c :: s.calls
      notes := faultText c (s.calls.count c + 1) :: s.notes }, rfl, .inl ⟨by simpa using h, rfl, ?_⟩⟩
    refine ⟨.other (faultText c (s.calls.count c + 1)), ?_⟩
    change (if s.plan.contains (c, s.calls.count c + 1) = true then _ else _) = _
    rw [if_pos h]
  · refine ⟨{ s with
      inner := (act.run s.inner).2
      calls := c :: s.calls
      notes := note.toList ++ s.notes }, rfl, .inr ⟨rfl, ?_⟩⟩
    change (if s.plan.contains (c, s.calls.count c + 1) = true then _ else _) = _
    rw [if_neg h]
    rfl

/-- A call that is not planned to fail is made on the inner store. -/
theorem call_run_of_not_planned {c : StoreCall} {s : FaultyStore σ}
    (h : ∀ n, (c, n) ∉ s.plan) (note : Option String) (act : StoreM σ α) :
    ∃ s', s'.plan = s.plan ∧ s'.inner = (act.run s.inner).2 ∧
      (call c note act).run s = ((act.run s.inner).1, s') := by
  obtain ⟨s', hp, ⟨hmem, _⟩ | ⟨hi, hrun⟩⟩ := call_run c note act s
  · exact absurd hmem (h _)
  · exact ⟨s', hp, hi, hrun⟩

end FaultyStore

/-- A store around another one that keeps the writes of each commit. -/
structure RecordedStore (σ : Type) where
  inner : σ
  /-- The writes of the commits that succeeded, one list for each, in order. -/
  commits : List (List Write)

namespace RecordedStore

def around (inner : σ) : RecordedStore σ := ⟨inner, []⟩

def call (act : StoreM σ α) : StoreM (RecordedStore σ) α := fun s =>
  ((act.run s.inner).1, { s with inner := (act.run s.inner).2 })

theorem call_run (act : StoreM σ α) (s : RecordedStore σ) :
    (call act).run s = ((act.run s.inner).1, { s with inner := (act.run s.inner).2 }) :=
  rfl

/-- Commits what is staged in the inner store, and records it if that succeeds. -/
def commit [Datastore σ] (message : String) : StoreM (RecordedStore σ) Unit := fun s =>
  match (Datastore.commit message : StoreM σ Unit).run s.inner with
  | (.ok _, inner) => (.ok (), ⟨inner, s.commits ++ [(Datastore.ledger s.inner).staged]⟩)
  | (.error e, inner) => (.error e, { s with inner := inner })

instance [Datastore σ] : Datastore (RecordedStore σ) where
  ledger s := Datastore.ledger s.inner
  stage w := call (Datastore.stage w)
  startRun now := call (Datastore.startRun now)
  aggregate r p := call (Datastore.aggregate r p)
  organisationsOf p := call (Datastore.organisationsOf p)
  commit := commit
  rollback := call Datastore.rollback

/-- The tables of the inner store are those after the recorded commits. -/
def Reaches [Datastore σ] (before : Tables) (s : RecordedStore σ) : Prop :=
  (Datastore.ledger s.inner).tables = before.applyAll s.commits.flatten

/-- A call made in such a way that the record stays true. A call that succeeds
with writes staged as in `entry` leaves them staged as in `exit`. -/
structure Records [Datastore σ] (entry exit : Set (List Write)) (act : StoreM σ α)
    (recorded : StoreM (RecordedStore σ) α) : Prop where
  result : ∀ s, (recorded.run s).1 = (act.run s.inner).1
  inner : ∀ s, (recorded.run s).2.inner = (act.run s.inner).2
  grows : ∀ s, s.commits <+: (recorded.run s).2.commits
  reaches : ∀ before s, Reaches before s → Reaches before (recorded.run s).2
  staged : ∀ s a, (act.run s.inner).1 = .ok a → (Datastore.ledger s.inner).staged ∈ entry →
    (Datastore.ledger (recorded.run s).2.inner).staged ∈ exit
  failed : ∀ s e, (act.run s.inner).1 = .error e →
    Datastore.ledger (recorded.run s).2.inner = Datastore.ledger s.inner

/-- A call that changes no table is recorded as it is. -/
theorem records_call [Datastore σ] {act : StoreM σ α} {does : Ledger → α × Ledger}
    {entry exit : Set (List Write)} (hact : Obeys act does)
    (htables : ∀ l, (does l).2.tables = l.tables)
    (hstaged : ∀ l, l.staged ∈ entry → (does l).2.staged ∈ exit) :
    Records entry exit act (call act) where
  result _ := rfl
  inner _ := rfl
  grows _ := List.prefix_rfl
  reaches before s h := by
    change (Datastore.ledger (act.run s.inner).2).tables = before.applyAll s.commits.flatten
    rw [← h]
    rcases hact s.inner with ⟨a, -, hdoes⟩ | ⟨-, hsame⟩
    · rw [← htables (Datastore.ledger s.inner), hdoes]
    · rw [hsame]
  staged s a ha hs := by
    change (Datastore.ledger (act.run s.inner).2).staged ∈ exit
    rcases hact s.inner with ⟨a, -, hdoes⟩ | ⟨⟨e, he⟩, -⟩
    · have := hstaged _ hs
      rwa [hdoes] at this
    · rw [he] at ha
      cases ha
  failed s e he := by
    change Datastore.ledger (act.run s.inner).2 = Datastore.ledger s.inner
    rcases hact s.inner with ⟨a, ha, -⟩ | ⟨-, hsame⟩
    · rw [ha] at he
      cases he
    · exact hsame

/-- A commit is recorded with what was staged, and leaves nothing staged. -/
theorem records_commit [Datastore σ] [LawfulStore σ] (message : String) :
    Records (σ := σ) Set.univ {[]} (Datastore.commit message) (commit message) := by
  have hrun (s : RecordedStore σ) :
      (∃ a inner, (Datastore.commit message : StoreM σ Unit).run s.inner = (.ok a, inner) ∧
        Datastore.ledger inner = (Datastore.ledger s.inner).settle ∧
        (commit message).run s =
          (.ok (), ⟨inner, s.commits ++ [(Datastore.ledger s.inner).staged]⟩)) ∨
      (∃ e inner, (Datastore.commit message : StoreM σ Unit).run s.inner = (.error e, inner) ∧
        Datastore.ledger inner = Datastore.ledger s.inner ∧
        (commit message).run s = (.error e, { s with inner := inner })) := by
    have hobeys := LawfulStore.commit message s.inner
    have hcommit : (commit message).run s =
        match (Datastore.commit message : StoreM σ Unit).run s.inner with
        | (.ok _, inner) => (.ok (), ⟨inner, s.commits ++ [(Datastore.ledger s.inner).staged]⟩)
        | (.error e, inner) => (.error e, { s with inner := inner }) := rfl
    rcases h : (Datastore.commit message : StoreM σ Unit).run s.inner with ⟨r, inner⟩
    rw [h] at hobeys hcommit
    rcases hobeys with ⟨a, rfl, hdoes⟩ | ⟨⟨e, rfl⟩, hsame⟩
    · exact .inl ⟨a, inner, rfl, (congrArg Prod.snd hdoes).symm, hcommit⟩
    · exact .inr ⟨e, inner, rfl, hsame, hcommit⟩
  constructor
  · intro s
    rcases hrun s with ⟨a, inner, h, -, hc⟩ | ⟨e, inner, h, -, hc⟩ <;> rw [h, hc]
  · intro s
    rcases hrun s with ⟨a, inner, h, -, hc⟩ | ⟨e, inner, h, -, hc⟩ <;> rw [h, hc]
  · intro s
    rcases hrun s with ⟨a, inner, -, -, hc⟩ | ⟨e, inner, -, -, hc⟩ <;> rw [hc]
    exact List.prefix_append _ _
  · intro before s h
    rcases hrun s with ⟨a, inner, -, hl, hc⟩ | ⟨e, inner, -, hl, hc⟩ <;> rw [hc]
    · change (Datastore.ledger inner).tables =
        before.applyAll (s.commits ++ [(Datastore.ledger s.inner).staged]).flatten
      rw [List.flatten_concat, Tables.applyAll_append, hl, ← h]
      rfl
    · change (Datastore.ledger inner).tables = before.applyAll s.commits.flatten
      rw [hl, h]
  · intro s a ha _
    rcases hrun s with ⟨b, inner, -, hl, hc⟩ | ⟨e, inner, h, -, -⟩
    · rw [hc]
      change (Datastore.ledger inner).staged = []
      rw [hl, Ledger.staged_settle]
    · rw [h] at ha
      cases ha
  · intro s e he
    rcases hrun s with ⟨a, inner, h, -, -⟩ | ⟨e', inner, -, hl, hc⟩
    · rw [h] at he
      cases he
    · rw [hc]
      exact hl

end RecordedStore

end DataQuality
