import DataQuality.Proofs.Store.Home
import DataQuality.Proofs.Store.Staging
import DataQuality.Testing

/-!
# Testing on a store that does not fail

As long as no call on the store fails, a part of testing is determined by the context
of the run and the ledger: what it gives, the context and the ledger it leaves, and
the writes of each commit it makes. What parts make is joined along a sequence.
-/
namespace DataQuality

/-- The calls of testing succeed on each store that `After` is true of, and do to the
ledger what they are for. `After done s` says that `s` has committed `done`. -/
structure Reliable (σ : Type) [Datastore σ] (After : List (List Write) → σ → Prop) : Prop where
  stage {done : List (List Write)} {s : σ} (h : After done s) (w : Write) :
    ∃ s', (Datastore.stage w : StoreM σ Unit).run s = (.ok (), s') ∧ After done s' ∧
      Datastore.ledger s' = (Datastore.ledger s).stage w
  aggregate {done : List (List Write)} {s : σ} (h : After done s) (r : RuntimeId) (p : PackageId) :
    ∃ s', (Datastore.aggregate r p : StoreM σ (List AggregateRow)).run s =
        (.ok ((Datastore.ledger s).aggregate r p).1, s') ∧ After done s' ∧
      Datastore.ledger s' = ((Datastore.ledger s).aggregate r p).2
  organisationsOf {done : List (List Write)} {s : σ} (h : After done s) (p : PackageId) :
    ∃ s', (Datastore.organisationsOf p : StoreM σ (List Target)).run s =
        (.ok ((Datastore.ledger s).tables.organisationsOf p), s') ∧ After done s' ∧
      Datastore.ledger s' = Datastore.ledger s
  commit {done : List (List Write)} {s : σ} (h : After done s) (message : String) :
    ∃ s', (Datastore.commit message : StoreM σ Unit).run s = (.ok (), s') ∧
      After (done ++ [(Datastore.ledger s).staged]) s' ∧
      Datastore.ledger s' = (Datastore.ledger s).settle

/-- Stores in memory never fail, and count their commits. -/
theorem reliable_memoryStore (before : Nat) :
    Reliable MemoryStore fun done s => s.commits = before + done.length where
  stage h _ := ⟨_, rfl, h, rfl⟩
  aggregate h _ _ := ⟨_, rfl, h, rfl⟩
  organisationsOf h _ := ⟨_, rfl, h, rfl⟩
  commit {done s} h message := by
    refine ⟨_, rfl, ?_, rfl⟩
    change s.commits + 1 = before + (done ++ [s.ledger.staged]).length
    rw [h, List.length_append, List.length_singleton, Nat.add_assoc]

/-- Stores in a directory do not fail as long as the files of the store can be reached
and written. -/
theorem reliable_directoryStore :
    Reliable DirectoryStore fun _ s => ∃ base, DirectoryStore.Home s.tree s.directory base where
  stage h _ := ⟨_, rfl, h, rfl⟩
  aggregate h _ _ := ⟨_, rfl, h, rfl⟩
  organisationsOf h _ := ⟨_, rfl, h, rfl⟩
  commit {done s} h message := by
    have hname : DirectoryStore.journalName ∈ DirectoryStore.fileNames := by
      simp [DirectoryStore.fileNames]
    obtain ⟨base, hhome⟩ := h
    change ∃ s', DirectoryStore.commit.run s = (.ok (), s') ∧ _ ∧ _
    rw [DirectoryStore.commit_run]
    by_cases hstaged : s.ledger.staged = []
    · rw [if_pos hstaged]
      refine ⟨s, rfl, ⟨base, hhome⟩, ?_⟩
      change s.ledger = ⟨s.ledger.tables.applyAll s.ledger.staged, []⟩
      rw [hstaged, Tables.applyAll_nil, ← hstaged]
    · rw [if_neg hstaged]
      rcases (hhome.free _ hname).entry with hnone | ⟨content, hfile⟩
      · rw [hhome.append?_of_none hname hhome.journal hnone]
        exact ⟨_, rfl, ⟨base, hhome.put hname _⟩, rfl⟩
      · rw [hhome.append?_of_file hname hhome.journal hfile]
        exact ⟨_, rfl, ⟨base, hhome.put hname _⟩, rfl⟩

variable {σ α β : Type} [Datastore σ] {After : List (List Write) → σ → Prop}

/-- Begun with this context and ledger, a part of testing gives `a`, leaves that context
and ledger, and makes these commits. -/
def Makes (After : List (List Write) → σ → Prop) (m : Testing σ α) (start : TestState Ledger)
    (a : α) (finish : TestState Ledger) (commits : List (List Write)) : Prop :=
  ∀ done s, After done s → Datastore.ledger s = start.store →
    ∃ s', m.run ⟨start.context, s⟩ = (.ok a, ⟨finish.context, s'⟩) ∧ After (done ++ commits) s' ∧
      Datastore.ledger s' = finish.store

namespace Makes

variable {start middle finish : TestState Ledger}

theorem pure (a : α) : Makes After (Pure.pure a) start a start [] := by
  intro done s hs hl
  rw [List.append_nil]
  exact ⟨s, rfl, hs, hl⟩

theorem bind {m : Testing σ α} {k : α → Testing σ β} {a : α} {b : β}
    {first second : List (List Write)} (h : Makes After m start a middle first)
    (hk : Makes After (k a) middle b finish second) :
    Makes After (m >>= k) start b finish (first ++ second) := by
  intro done s hs hl
  obtain ⟨s₁, hrun₁, hs₁, hl₁⟩ := h done s hs hl
  obtain ⟨s₂, hrun₂, hs₂, hl₂⟩ := hk (done ++ first) s₁ hs₁ hl₁
  refine ⟨s₂, ?_, ?_, hl₂⟩
  · rw [run_bind, hrun₁]
    exact hrun₂
  · rwa [← List.append_assoc]

theorem context : Makes After Testing.context start start.context start [] := by
  intro done s hs hl
  rw [List.append_nil]
  exact ⟨s, rfl, hs, hl⟩

theorem nextMissing :
    Makes After Testing.nextMissing start start.context.nextMissing.1
      ⟨start.context.nextMissing.2, start.store⟩ [] := by
  intro done s hs hl
  rw [List.append_nil]
  exact ⟨s, rfl, hs, hl⟩

/-- A call that succeeds. -/
theorem onStore {call : StoreM σ α} {a : α} {l : Ledger} {commits : List (List Write)}
    (h : ∀ done s, After done s → Datastore.ledger s = start.store →
      ∃ s', call.run s = (.ok a, s') ∧ After (done ++ commits) s' ∧ Datastore.ledger s' = l) :
    Makes After (Testing.onStore call) start (.ok a) ⟨start.context, l⟩ commits := by
  intro done s hs hl
  obtain ⟨s', hrun, hs', hl'⟩ := h done s hs hl
  refine ⟨s', ?_, hs', hl'⟩
  change (Except.ok (call.run s).1, (⟨start.context, (call.run s).2⟩ : TestState σ)) = _
  rw [hrun]

theorem orAbort {call : StoreM σ α} {a : α} {l : Ledger} {commits : List (List Write)}
    (h : ∀ done s, After done s → Datastore.ledger s = start.store →
      ∃ s', call.run s = (.ok a, s') ∧ After (done ++ commits) s' ∧ Datastore.ledger s' = l) :
    Makes After (Testing.orAbort call) start a ⟨start.context, l⟩ commits := by
  unfold Testing.orAbort
  rw [← List.append_nil commits]
  exact (onStore h).bind (.pure a)

section Calls

variable (hstore : Reliable σ After) {c : RunContext} {l : Ledger}
include hstore

theorem stage (w : Write) :
    Makes After (Testing.orAbort (Datastore.stage w)) ⟨c, l⟩ () ⟨c, l.stage w⟩ [] := by
  refine orAbort fun done s hs hl => ?_
  rw [List.append_nil]
  obtain ⟨s', hrun, hs', hl'⟩ := hstore.stage hs w
  exact ⟨s', hrun, hs', by rw [hl', hl]⟩

theorem aggregate (r : RuntimeId) (p : PackageId) :
    Makes After (Testing.orAbort (Datastore.aggregate r p)) ⟨c, l⟩ (l.tables.aggregate r p)
      ⟨c, l.stage (.putAggregates r p (l.tables.aggregate r p))⟩ [] := by
  refine orAbort fun done s hs hl => ?_
  rw [List.append_nil]
  obtain ⟨s', hrun, hs', hl'⟩ := hstore.aggregate hs r p
  rw [hl] at hrun hl'
  exact ⟨s', hrun, hs', hl'⟩

theorem organisationsOf (p : PackageId) :
    Makes After (Testing.onStore (Datastore.organisationsOf p)) ⟨c, l⟩
      (.ok (l.tables.organisationsOf p)) ⟨c, l⟩ [] := by
  refine onStore fun done s hs hl => ?_
  rw [List.append_nil]
  obtain ⟨s', hrun, hs', hl'⟩ := hstore.organisationsOf hs p
  rw [hl] at hrun hl'
  exact ⟨s', hrun, hs', hl'⟩

theorem commit (message : String) :
    Makes After (Testing.commit message) ⟨c, l⟩ () ⟨c, l.settle⟩ [l.staged] := by
  refine orAbort fun done s hs hl => ?_
  obtain ⟨s', hrun, hs', hl'⟩ := hstore.commit hs message
  rw [hl] at hs' hl'
  exact ⟨s', hrun, hs', hl'⟩

theorem stageAll (ws : List Write) :
    Makes After (Testing.stageAll ws) ⟨c, l⟩ () ⟨c, ⟨l.tables, l.staged ++ ws⟩⟩ [] := by
  induction ws generalizing l with
  | nil =>
    rw [List.append_nil]
    exact .pure ()
  | cons w rest ih =>
    have hrest := (stage hstore w (l := l) (c := c)).bind (k := fun _ => Testing.stageAll rest) ih
    rwa [Ledger.stage, List.append_assoc] at hrest

/-- A batch of results is committed together with what is staged before it. -/
theorem flush {batch : List TestResult} (h : batch ≠ []) (message : String) :
    Makes After (Testing.flush batch message) ⟨c, l⟩ batch.length
      ⟨c, ⟨l.tables.applyAll (l.staged ++ batch.map .saveResult), []⟩⟩
      [l.staged ++ batch.map .saveResult] := by
  have hne : ¬ batch.isEmpty = true := by simpa using h
  unfold Testing.flush
  rw [if_neg hne]
  have hcommit := (commit hstore message (c := c)
    (l := ⟨l.tables, l.staged ++ batch.map .saveResult⟩)).bind (k := fun _ => Pure.pure batch.length)
    (.pure batch.length)
  exact (stageAll hstore (batch.map .saveResult)).bind hcommit

end Calls

end Makes

/-- Begun with nothing staged, a part of testing gives `a`, moves the context of the run
from `c` to `c'`, and makes these commits, after which nothing is staged. -/
def Completes (After : List (List Write) → σ → Prop) (m : Testing σ α) (c : RunContext) (a : α)
    (c' : RunContext) (commits : List (List Write)) : Prop :=
  ∀ t, Makes After m ⟨c, .ofTables t⟩ a ⟨c', .ofTables (t.applyAll commits.flatten)⟩ commits

/-- The commit of a batch of results; there is none of an empty batch. -/
def batchCommits (batch : List TestResult) : List (List Write) :=
  if batch = [] then [] else [batch.map .saveResult]

theorem flatten_batchCommits (batch : List TestResult) :
    (batchCommits batch).flatten = batch.map .saveResult := by
  unfold batchCommits
  split
  · rename_i h
    rw [h]
    rfl
  · simp

namespace Completes

variable {c c' c'' : RunContext}

theorem pure (a : α) : Completes After (Pure.pure a) c a c [] := fun _ => .pure a

theorem context : Completes After Testing.context c c c [] := fun _ => .context

theorem nextMissing :
    Completes After Testing.nextMissing c c.nextMissing.1 c.nextMissing.2 [] := fun _ => .nextMissing

theorem bind {m : Testing σ α} {k : α → Testing σ β} {a : α} {b : β}
    {first second : List (List Write)} (h : Completes After m c a c' first)
    (hk : Completes After (k a) c' b c'' second) :
    Completes After (m >>= k) c b c'' (first ++ second) := by
  intro t
  have hrest := hk (t.applyAll first.flatten)
  rw [← Tables.applyAll_append, ← List.flatten_append] at hrest
  exact (h t).bind hrest

/-- Parts that commit nothing may come before a part. -/
theorem after {m : Testing σ α} {k : α → Testing σ β} {a : α} {b : β}
    {commits : List (List Write)} (h : Completes After m c a c' [])
    (hk : Completes After (k a) c' b c'' commits) : Completes After (m >>= k) c b c'' commits :=
  h.bind hk

/-- Nor does giving a result after a part commit anything. -/
theorem giving {m : Testing σ α} {a : α} {b : β} {commits : List (List Write)} {k : α → Testing σ β}
    (h : Completes After m c a c' commits) (hk : k a = Pure.pure b) :
    Completes After (m >>= k) c b c' commits := by
  have hlast : Completes After (k a) c' b c' [] := by
    rw [hk]
    exact .pure b
  have hboth := h.bind hlast
  rwa [List.append_nil] at hboth

/-- A batch of results is committed together, if there is any. -/
theorem flush (hstore : Reliable σ After) (batch : List TestResult) (message : String) :
    Completes After (Testing.flush batch message) c batch.length c (batchCommits batch) := by
  unfold batchCommits
  by_cases h : batch = []
  · subst h
    exact .pure 0
  · rw [if_neg h]
    intro t
    have hflush := Makes.flush hstore h message (c := c) (l := .ofTables t)
    simpa only [Ledger.ofTables, List.nil_append, List.flatten_singleton] using hflush

end Completes

end DataQuality
