import DataQuality.Proofs.RuleSet
import DataQuality.Proofs.Store.Staging
import DataQuality.Testing
import Mathlib

/-!
# Interrupted testing

Some calls on the store fail while a package is tested. The run is compared with
the one in which none of them fails. Up to the first failure both do the same;
after it the interrupted run stands at a commit that the other one has passed,
with nothing staged. Parts of testing are compared one by one, and comparisons
are joined along the sequence of parts.
-/
namespace DataQuality.Interruption

open Testing

variable {σ α β : Type} [Datastore σ]

/-- What a part of testing commits when calls of a store fail: nothing is left
staged, and the tables are those after the first few commits that the part
makes when none of these calls fails. -/
def LeavesPrefix (c : RunContext) (s : FaultyStore σ) (faulty : Testing (FaultyStore σ) α)
    (clean : Testing (RecordedStore σ) α) : Prop :=
  let after := (faulty.run ⟨c, s⟩).2.store
  let commits := (clean.run ⟨c, .around s.inner⟩).2.store.commits
  (Datastore.ledger after).staged = [] ∧
    ∃ done, done <+: commits ∧
      (Datastore.ledger after).tables = (Datastore.ledger s).tables.applyAll done.flatten

/-- Both runs have come to the same point. -/
structure Abreast (before : Tables) (f : TestState (FaultyStore σ))
    (c : TestState (RecordedStore σ)) : Prop where
  context : f.context = c.context
  inner : f.store.inner = c.store.inner
  rollback : ∀ n, (StoreCall.rollback, n) ∉ f.store.plan
  reaches : c.store.Reaches before

/-- The first run has stopped at a commit of the second one. -/
def Behind (before : Tables) (f : TestState (FaultyStore σ))
    (c : TestState (RecordedStore σ)) : Prop :=
  (Datastore.ledger f.store.inner).staged = [] ∧
    ∃ done, done <+: c.store.commits ∧
      (Datastore.ledger f.store.inner).tables = before.applyAll done.flatten

/-- A part of testing in both runs, begun with writes staged as in `entry`. Either
the runs stay abreast, with writes staged as in `exit`, or the first one ends
behind the second one, which never takes a commit back. -/
structure Tracks (entry exit : Set (List Write)) (faulty : Testing (FaultyStore σ) α)
    (clean : Testing (RecordedStore σ) α) : Prop where
  grows : ∀ c, c.store.commits <+: (clean.run c).2.store.commits
  follows : ∀ before f c, Abreast before f c →
    (Datastore.ledger c.store.inner).staged ∈ entry →
    (∃ a, (faulty.run f).1 = .ok a ∧ (clean.run c).1 = .ok a ∧
      Abreast before (faulty.run f).2 (clean.run c).2 ∧
      (Datastore.ledger (clean.run c).2.store.inner).staged ∈ exit) ∨
    (∃ e, (faulty.run f).1 = .error e) ∧ Behind before (faulty.run f).2 (clean.run c).2

/-- Runs that are abreast with nothing staged count as one behind the other. -/
theorem Abreast.behind {before : Tables} {f : TestState (FaultyStore σ)}
    {c : TestState (RecordedStore σ)} (h : Abreast before f c)
    (hs : (Datastore.ledger c.store.inner).staged = []) : Behind before f c := by
  refine ⟨by rw [h.inner]; exact hs, c.store.commits, List.prefix_rfl, ?_⟩
  rw [h.inner]
  exact h.reaches

/-- The second run may go on. -/
theorem Behind.mono {before : Tables} {f : TestState (FaultyStore σ)}
    {c c' : TestState (RecordedStore σ)} (h : Behind before f c)
    (hc : c.store.commits <+: c'.store.commits) : Behind before f c' := by
  obtain ⟨hs, done, hd, ht⟩ := h
  exact ⟨hs, done, hd.trans hc, ht⟩

namespace Tracks

variable {entry middle exit : Set (List Write)}

theorem pure (a : α) : Tracks (σ := σ) entry entry (Pure.pure a) (Pure.pure a) where
  grows _ := List.prefix_rfl
  follows _ _ _ h hs := .inl ⟨a, rfl, rfl, h, hs⟩

/-- Comparisons are joined along a sequence. -/
theorem bind {m₁ : Testing (FaultyStore σ) α} {m₂ : Testing (RecordedStore σ) α}
    {k₁ : α → Testing (FaultyStore σ) β} {k₂ : α → Testing (RecordedStore σ) β}
    (h : Tracks entry middle m₁ m₂) (hk : ∀ a, Tracks middle exit (k₁ a) (k₂ a)) :
    Tracks entry exit (m₁ >>= k₁) (m₂ >>= k₂) where
  grows c := by
    have hm := h.grows c
    rw [run_bind]
    rcases hc : m₂.run c with ⟨r, c'⟩
    rw [hc] at hm
    cases r with
    | ok a => exact hm.trans ((hk a).grows c')
    | error e => exact hm
  follows before f c hab hs := by
    have hstep := h.follows before f c hab hs
    rw [run_bind, run_bind]
    rcases hf : m₁.run f with ⟨r₁, f'⟩
    rcases hc : m₂.run c with ⟨r₂, c'⟩
    simp only [hf, hc] at hstep
    rcases hstep with ⟨a, rfl, rfl, hab', hs'⟩ | ⟨⟨e, rfl⟩, hbehind⟩
    · exact (hk a).follows before f' c' hab' hs'
    · refine .inr ⟨⟨e, rfl⟩, ?_⟩
      cases r₂ with
      | ok a => exact hbehind.mono ((hk a).grows c')
      | error e => exact hbehind

/-- Ending with an error that has no other cause than the document. -/
theorem throw (e : TestingError) :
    Tracks (σ := σ) (α := α) {[]} exit (MonadExcept.throw e) (MonadExcept.throw e) where
  grows _ := List.prefix_rfl
  follows _ _ _ h hs := .inr ⟨⟨e, rfl⟩, h.behind hs⟩

theorem context : Tracks (σ := σ) entry entry Testing.context Testing.context where
  grows _ := List.prefix_rfl
  follows _ f c h hs := .inl ⟨c.context, by rw [← h.context]; rfl, rfl, h, hs⟩

theorem nextMissing : Tracks (σ := σ) entry entry Testing.nextMissing Testing.nextMissing where
  grows _ := List.prefix_rfl
  follows _ f c h hs := by
    refine .inl ⟨c.context.nextMissing.1, by rw [← h.context]; rfl, rfl, ?_, hs⟩
    refine ⟨?_, h.inner, h.rollback, h.reaches⟩
    change f.context.nextMissing.2 = c.context.nextMissing.2
    rw [h.context]

theorem mono {m₁ : Testing (FaultyStore σ) α} {m₂ : Testing (RecordedStore σ) α}
    {entry' exit' : Set (List Write)} (h : Tracks entry exit m₁ m₂) (he : entry' ⊆ entry)
    (hx : exit ⊆ exit') : Tracks entry' exit' m₁ m₂ where
  grows := h.grows
  follows before f c hab hs := by
    rcases h.follows before f c hab (he hs) with ⟨a, h₁, h₂, hab', hs'⟩ | hbehind
    · exact .inl ⟨a, h₁, h₂, hab', hx hs'⟩
    · exact .inr hbehind

/-- Parts that are added up are compared one by one. -/
theorem sum {γ : Type} {part₁ : γ → Testing (FaultyStore σ) Nat}
    {part₂ : γ → Testing (RecordedStore σ) Nat} (h : ∀ a, Tracks {[]} {[]} (part₁ a) (part₂ a))
    (items : List γ) : Tracks {[]} {[]} (Testing.sum part₁ items) (Testing.sum part₂ items) := by
  induction items with
  | nil => exact pure 0
  | cons a rest ih =>
    refine (h a).bind fun n => ih.bind fun m => ?_
    exact pure (n + m)

end Tracks

/-- A part of testing, begun with writes staged as in `entry`, after which the first
run is behind the second one, whether it has failed or not. -/
structure Settles (entry : Set (List Write)) (faulty : Testing (FaultyStore σ) α)
    (clean : Testing (RecordedStore σ) α) : Prop where
  grows : ∀ c, c.store.commits <+: (clean.run c).2.store.commits
  behind : ∀ before f c, Abreast before f c →
    (Datastore.ledger c.store.inner).staged ∈ entry →
    Behind before (faulty.run f).2 (clean.run c).2

theorem Tracks.settles {entry : Set (List Write)} {m₁ : Testing (FaultyStore σ) α}
    {m₂ : Testing (RecordedStore σ) α} (h : Tracks entry {[]} m₁ m₂) : Settles entry m₁ m₂ where
  grows := h.grows
  behind before f c hab hs := by
    rcases h.follows before f c hab hs with ⟨a, -, -, hab', hs'⟩ | ⟨-, hbehind⟩
    · exact hab'.behind hs'
    · exact hbehind

theorem Settles.bind {entry middle : Set (List Write)} {m₁ : Testing (FaultyStore σ) α}
    {m₂ : Testing (RecordedStore σ) α} {k₁ : α → Testing (FaultyStore σ) β}
    {k₂ : α → Testing (RecordedStore σ) β}
    (h : Tracks entry middle m₁ m₂) (hk : ∀ a, Settles middle (k₁ a) (k₂ a)) :
    Settles entry (m₁ >>= k₁) (m₂ >>= k₂) where
  grows c := by
    have hm := h.grows c
    rw [run_bind]
    rcases hc : m₂.run c with ⟨r, c'⟩
    rw [hc] at hm
    cases r with
    | ok a => exact hm.trans ((hk a).grows c')
    | error e => exact hm
  behind before f c hab hs := by
    have hstep := h.follows before f c hab hs
    rw [run_bind, run_bind]
    rcases hf : m₁.run f with ⟨r₁, f'⟩
    rcases hc : m₂.run c with ⟨r₂, c'⟩
    simp only [hf, hc] at hstep
    rcases hstep with ⟨a, rfl, rfl, hab', hs'⟩ | ⟨⟨e, rfl⟩, hbehind⟩
    · exact (hk a).behind before f' c' hab' hs'
    · cases r₂ with
      | ok a => exact hbehind.mono ((hk a).grows c')
      | error e => exact hbehind

/-- Looking at the state: both runs see the same inner store. -/
theorem Settles.get {entry : Set (List Write)}
    {k₁ : TestState (FaultyStore σ) → Testing (FaultyStore σ) α}
    {k₂ : TestState (RecordedStore σ) → Testing (RecordedStore σ) α}
    (hk : ∀ f c, f.store.inner = c.store.inner → Settles entry (k₁ f) (k₂ c)) :
    Settles entry (MonadState.get >>= k₁) (MonadState.get >>= k₂) where
  grows c := (hk ⟨c.context, .around c.store.inner []⟩ c rfl).grows c
  behind before f c hab hs := (hk f c hab.inner).behind before f c hab hs

theorem run_onStore {τ : Type} (call : StoreM τ α) (s : TestState τ) :
    (onStore call).run s = (.ok (call.run s.store).1, { s with store := (call.run s.store).2 }) :=
  rfl

theorem run_abort {τ : Type} [Datastore τ] (e : StoreError) (s : TestState τ) :
    (abort e : Testing τ α).run s =
      (.error (.store e), { s with store := ((Datastore.rollback : StoreM τ Unit).run s.store).2 }) := by
  unfold abort
  rw [run_bind, run_onStore]
  rfl

/-- Dropping what is staged takes no commit back. -/
theorem commits_abort (e : StoreError) (c : TestState (RecordedStore σ)) :
    ((abort e : Testing (RecordedStore σ) α).run c).2.store.commits = c.store.commits := by
  rw [run_abort]
  rfl

/-- A call is made alike in both runs, unless it is planned to fail. -/
theorem onStore_cases {entry exit : Set (List Write)} {before : Tables} {act : StoreM σ α}
    {recorded : StoreM (RecordedStore σ) α}
    (h : RecordedStore.Records entry exit act recorded) (kind : StoreCall) (note : Option String)
    {f : TestState (FaultyStore σ)} {c : TestState (RecordedStore σ)} (hab : Abreast before f c) :
    (∃ e f', (onStore (FaultyStore.call kind note act)).run f = (.ok (.error e), f') ∧
      Abreast before f' c) ∨
    (∃ f', (onStore (FaultyStore.call kind note act)).run f =
        (.ok (act.run c.store.inner).1, f') ∧
      Abreast before f' ((onStore recorded).run c).2) := by
  obtain ⟨s', hplan, ⟨-, hi, e, hrun⟩ | ⟨hi, hrun⟩⟩ := FaultyStore.call_run kind note act f.store
  · refine .inl ⟨e, { f with store := s' }, by rw [run_onStore, hrun], ?_⟩
    exact ⟨hab.context, hi.trans hab.inner, by rw [hplan]; exact hab.rollback, hab.reaches⟩
  · rw [hab.inner] at hi hrun
    refine .inr ⟨{ f with store := s' }, by rw [run_onStore, hrun], ?_⟩
    exact ⟨hab.context, hi.trans (h.inner c.store).symm, by rw [hplan]; exact hab.rollback,
      h.reaches before c.store hab.reaches⟩

theorem run_recorded {entry exit : Set (List Write)} {act : StoreM σ α}
    {recorded : StoreM (RecordedStore σ) α}
    (h : RecordedStore.Records entry exit act recorded) (c : TestState (RecordedStore σ)) :
    (onStore recorded).run c =
      (.ok (act.run c.store.inner).1, ((onStore recorded).run c).2) := by
  rw [← h.result]
  rfl

/-- A call whose failure ends testing, with nothing staged before it. -/
theorem tracks_onStore {exit : Set (List Write)} {act : StoreM σ β}
    {recorded : StoreM (RecordedStore σ) β}
    (h : RecordedStore.Records {[]} {[]} act recorded) (kind : StoreCall) (note : Option String)
    {k₁ : Except StoreError β → Testing (FaultyStore σ) α}
    {k₂ : Except StoreError β → Testing (RecordedStore σ) α}
    (herror : ∀ e, k₁ (.error e) = throw (.store e))
    (hk : ∀ r, Tracks {[]} exit (k₁ r) (k₂ r)) :
    Tracks {[]} exit (onStore (FaultyStore.call kind note act) >>= k₁)
      (onStore recorded >>= k₂) := by
  have hgrows (c : TestState (RecordedStore σ)) :
      c.store.commits <+: ((onStore recorded >>= k₂).run c).2.store.commits := by
    rw [run_bind, run_recorded h]
    exact List.IsPrefix.trans (h.grows c.store)
      ((hk (act.run c.store.inner).1).grows ((onStore recorded).run c).2)
  refine ⟨hgrows, fun before f c hab hs => ?_⟩
  obtain ⟨e, f', hf, hab'⟩ | ⟨f', hf, hab'⟩ := onStore_cases h kind note hab
  · have hrun : (onStore (FaultyStore.call kind note act) >>= k₁).run f =
        (throw (.store e) : Testing (FaultyStore σ) α).run f' := by
      rw [run_bind, hf, ← herror]
    rw [hrun]
    exact .inr ⟨⟨_, rfl⟩, (hab'.behind hs).mono (hgrows c)⟩
  · have hs' : (Datastore.ledger ((onStore recorded).run c).2.store.inner).staged ∈
        ({[]} : Set (List Write)) := by
      cases hr : (act.run c.store.inner).1 with
      | ok a => exact h.staged c.store a hr hs
      | error e =>
        have hsame : Datastore.ledger ((onStore recorded).run c).2.store.inner =
            Datastore.ledger c.store.inner := h.failed c.store e hr
        rwa [hsame]
    rw [run_bind, run_bind, hf, run_recorded h]
    exact (hk _).follows before f' _ hab' hs'

/-- How a part runs whose result is replaced. -/
theorem run_result {τ : Type} (m : Testing τ β) (a : α) (s : TestState τ) :
    ((m >>= fun _ => pure a).run s).2 = (m.run s).2 := by
  rw [run_bind]
  rcases m.run s with ⟨r, s'⟩
  cases r <;> rfl

/-- Ignoring the error of a part changes nothing about the stores. -/
theorem Settles.quietly {entry : Set (List Write)} {m₁ : Testing (FaultyStore σ) Unit}
    {m₂ : Testing (RecordedStore σ) Unit} (h : Settles entry m₁ m₂) :
    Settles entry (tryCatch m₁ fun _ => pure ()) (tryCatch m₂ fun _ => pure ()) where
  grows c := by
    rw [run_quietly]
    exact h.grows c
  behind before f c hab hs := by
    rw [run_quietly, run_quietly]
    exact h.behind before f c hab hs

/-- Nor does giving a result after it. -/
theorem Settles.result {entry : Set (List Write)} {m₁ : Testing (FaultyStore σ) β}
    {m₂ : Testing (RecordedStore σ) β} (h : Settles entry m₁ m₂) (a : α) :
    Settles entry (m₁ >>= fun _ => pure a) (m₂ >>= fun _ => pure a) where
  grows c := by
    rw [run_result]
    exact h.grows c
  behind before f c hab hs := by
    rw [run_result, run_result]
    exact h.behind before f c hab hs

/-- A call whose failure is passed over, followed by a part that commits. -/
theorem settles_onStore {act : StoreM σ Unit} {recorded : StoreM (RecordedStore σ) Unit}
    (h : RecordedStore.Records {[]} Set.univ act recorded) (kind : StoreCall)
    (note : Option String) {k₁ : Except StoreError Unit → Testing (FaultyStore σ) Unit}
    {k₂ : Except StoreError Unit → Testing (RecordedStore σ) Unit}
    (hok : Tracks Set.univ {[]} (k₁ (.ok ())) (k₂ (.ok ())))
    (herr₁ : ∀ e, k₁ (.error e) = pure ()) (herr₂ : ∀ e, k₂ (.error e) = pure ()) :
    Settles {[]} (onStore (FaultyStore.call kind note act) >>= k₁) (onStore recorded >>= k₂) := by
  have hgrows (c : TestState (RecordedStore σ)) :
      c.store.commits <+: ((onStore recorded >>= k₂).run c).2.store.commits := by
    rw [run_bind, run_recorded h]
    cases (act.run c.store.inner).1 with
    | ok u => exact List.IsPrefix.trans (h.grows c.store) (hok.grows ((onStore recorded).run c).2)
    | error e =>
      dsimp only
      rw [herr₂]
      exact h.grows c.store
  refine ⟨hgrows, fun before f c hab hs => ?_⟩
  obtain ⟨e, f', hf, hab'⟩ | ⟨f', hf, hab'⟩ := onStore_cases h kind note hab
  · have hrun : ((onStore (FaultyStore.call kind note act) >>= k₁).run f).2 = f' := by
      rw [run_bind, hf]
      dsimp only
      rw [herr₁]
      rfl
    rw [hrun]
    exact (hab'.behind hs).mono (hgrows c)
  · rw [run_bind, run_bind, hf, run_recorded h]
    cases hr : (act.run c.store.inner).1 with
    | ok u => exact hok.settles.behind before f' _ hab' (Set.mem_univ _)
    | error e =>
      have hsame : Datastore.ledger ((onStore recorded).run c).2.store.inner =
          Datastore.ledger c.store.inner := h.failed c.store e hr
      dsimp only
      rw [herr₁, herr₂]
      exact hab'.behind (by rw [hsame]; exact hs)

/-- A part that settles leaves a prefix of the commits. -/
theorem Settles.leavesPrefix {faulty : Testing (FaultyStore σ) α}
    {clean : Testing (RecordedStore σ) α} (h : Settles {[]} faulty clean) (c : RunContext)
    (s : FaultyStore σ) (hrollback : ∀ n, (StoreCall.rollback, n) ∉ s.plan)
    (hs : (Datastore.ledger s).staged = []) : LeavesPrefix c s faulty clean := by
  have hab : Abreast (Datastore.ledger s).tables ⟨c, s⟩ ⟨c, .around s.inner⟩ :=
    ⟨rfl, rfl, hrollback, rfl⟩
  exact h.behind _ _ _ hab hs

section Stores

variable [LawfulStore σ] {entry exit : Set (List Write)} {before : Tables}

/-- Testing that ends after a failed call drops what is staged, and so stands at
the last commit. -/
theorem behind_of_abort {f : TestState (FaultyStore σ)} {c : TestState (RecordedStore σ)}
    (hplan : ∀ n, (StoreCall.rollback, n) ∉ f.store.plan)
    (ht : (Datastore.ledger f.store.inner).tables = before.applyAll c.store.commits.flatten)
    (e : StoreError) :
    (∃ e', ((abort e : Testing (FaultyStore σ) α).run f).1 = .error e') ∧
      Behind before ((abort e : Testing (FaultyStore σ) α).run f).2 c := by
  obtain ⟨s', -, hi, hrun⟩ := FaultyStore.call_run_of_not_planned hplan (some "rollback")
    (Datastore.rollback : StoreM σ Unit)
  have hback : ((Datastore.rollback : StoreM (FaultyStore σ) Unit).run f.store).2 = s' := by
    change ((FaultyStore.call .rollback (some "rollback") Datastore.rollback).run f.store).2 = s'
    rw [hrun]
  have hl : Datastore.ledger s'.inner = (Datastore.ledger f.store.inner).discard := by
    rw [hi]
    exact LawfulStore.rollback f.store.inner
  rw [run_abort, hback]
  refine ⟨⟨_, rfl⟩, ?_, c.store.commits, List.prefix_rfl, ?_⟩
  · change (Datastore.ledger s'.inner).staged = []
    rw [hl]
    rfl
  · change (Datastore.ledger s'.inner).tables = _
    rw [hl]
    exact ht

/-- A call that ends testing when it fails. -/
theorem tracks_orAbort {act : StoreM σ α} {recorded : StoreM (RecordedStore σ) α}
    (h : RecordedStore.Records entry exit act recorded) (kind : StoreCall) (note : Option String) :
    Tracks entry exit (orAbort (FaultyStore.call kind note act))
      (orAbort recorded) := by
  have hgrows (c : TestState (RecordedStore σ)) :
      c.store.commits <+: ((orAbort recorded).run c).2.store.commits := by
    unfold orAbort
    rw [run_bind, run_recorded h]
    cases (act.run c.store.inner).1 with
    | ok a => exact h.grows c.store
    | error e =>
      dsimp only
      rw [commits_abort]
      exact h.grows c.store
  refine ⟨hgrows, fun before f c hab hs => ?_⟩
  obtain ⟨e, f', hf, hab'⟩ | ⟨f', hf, hab'⟩ := onStore_cases h kind note hab
  · -- the call fails by plan, whatever the other run makes of it
    have hrun : (orAbort (FaultyStore.call kind note act)).run f = (abort e).run f' := by
      unfold orAbort
      rw [run_bind, hf]
    rw [hrun]
    obtain ⟨herr, hbehind⟩ := behind_of_abort (α := α) hab'.rollback
      (by rw [hab'.inner]; exact hab'.reaches) e
    exact .inr ⟨herr, hbehind.mono (hgrows c)⟩
  · unfold orAbort
    rw [run_bind, run_bind, hf, run_recorded h]
    cases hr : (act.run c.store.inner).1 with
    | ok a => exact .inl ⟨a, rfl, rfl, hab', h.staged c.store a hr hs⟩
    | error e =>
      obtain ⟨herr, hbehind⟩ := behind_of_abort (α := α) hab'.rollback
        (by rw [hab'.inner]; exact hab'.reaches) e
      exact .inr ⟨herr, hbehind.mono (by dsimp only; rw [commits_abort])⟩

theorem tracks_stage (w : Write) :
    Tracks (σ := σ) Set.univ Set.univ (orAbort (Datastore.stage w))
      (orAbort (Datastore.stage w)) :=
  tracks_orAbort (RecordedStore.records_call (LawfulStore.stage w) (fun _ => rfl)
    fun _ _ => Set.mem_univ _) (.ofWrite w) none

theorem tracks_aggregate (r : RuntimeId) (p : PackageId) :
    Tracks (σ := σ) Set.univ Set.univ (orAbort (Datastore.aggregate r p))
      (orAbort (Datastore.aggregate r p)) :=
  tracks_orAbort (RecordedStore.records_call (LawfulStore.aggregate r p) (fun _ => rfl)
    fun _ _ => Set.mem_univ _) .aggregate none

theorem tracks_commit (message : String) :
    Tracks (σ := σ) Set.univ {[]} (Testing.commit message) (Testing.commit message) :=
  tracks_orAbort (RecordedStore.records_commit message) .commit (some ("commit " ++ message))

theorem tracks_stageAll (ws : List Write) :
    Tracks (σ := σ) Set.univ Set.univ (stageAll ws) (stageAll ws) := by
  induction ws with
  | nil => exact .pure ()
  | cons w rest ih => exact (tracks_stage w).bind fun _ => ih

theorem tracks_flush (batch : List TestResult) (message : String) :
    Tracks (σ := σ) {[]} {[]} (flush batch message) (flush batch message) := by
  unfold flush
  split
  · exact .pure 0
  · refine ((tracks_stageAll _).mono (Set.subset_univ _) subset_rfl).bind fun _ => ?_
    exact (tracks_commit message).bind fun _ => .pure batch.length

theorem tracks_organisationsOf (p : PackageId)
    {k₁ : Except StoreError (List Target) → Testing (FaultyStore σ) α}
    {k₂ : Except StoreError (List Target) → Testing (RecordedStore σ) α}
    (herror : ∀ e, k₁ (.error e) = throw (.store e))
    (hk : ∀ r, Tracks {[]} exit (k₁ r) (k₂ r)) :
    Tracks {[]} exit (onStore (Datastore.organisationsOf p) >>= k₁)
      (onStore (Datastore.organisationsOf p) >>= k₂) :=
  tracks_onStore (RecordedStore.records_call (LawfulStore.organisationsOf p) (fun _ => rfl)
    fun _ h => h) .organisationsOf none herror hk

variable (plan : TestPlan)

theorem tracks_testActivity (o : OrganisationId) (document : Markup.Node) (activity : Markup.Place) :
    Tracks (σ := σ) {[]} {[]} (plan.testActivity o document activity)
      (plan.testActivity o document activity) := by
  unfold TestPlan.testActivity
  cases TestPlan.identifier? activity.node with
  | some name =>
    exact (Tracks.pure name).bind fun name => Tracks.context.bind fun c => tracks_flush _ _
  | none =>
    exact Tracks.nextMissing.bind fun name => Tracks.context.bind fun c => tracks_flush _ _

theorem tracks_testOrganisation (o : OrganisationId) (document : Markup.Node) (node : Markup.Place) :
    Tracks (σ := σ) {[]} {[]} (plan.testOrganisation o document node)
      (plan.testOrganisation o document node) :=
  Tracks.context.bind fun _ => tracks_flush _ _

theorem tracks_runMetric (o : OrganisationId) (document : Markup.Node) (place : Markup.Place)
    (b : MetricBinding) :
    Tracks (σ := σ) {[]} {[]} (plan.runMetric o document place b)
      (plan.runMetric o document place b) := by
  refine Tracks.context.bind fun c => ?_
  refine ((tracks_stage _).mono (Set.subset_univ _) subset_rfl).bind fun _ => ?_
  exact (tracks_commit _).bind fun _ => .pure 1

theorem tracks_runMetrics (o : OrganisationId) (level : Level) (document : Markup.Node)
    (place : Markup.Place) :
    Tracks (σ := σ) {[]} {[]} (plan.runMetrics o level document place)
      (plan.runMetrics o level document place) :=
  Tracks.sum (tracks_runMetric plan o document place) _

theorem tracks_testNode (o : OrganisationId) (document : Markup.Node) (node : Markup.Place) :
    Tracks (σ := σ) {[]} {[]} (plan.testNode o document node) (plan.testNode o document node) := by
  refine (tracks_runMetrics plan o .organisation document node).bind fun infos => ?_
  exact (tracks_testOrganisation plan o document node).bind fun results => .pure (results, infos)

theorem tracks_testNodes (o : OrganisationId) (document : Markup.Node) (written : Nat × Nat)
    (nodes : List Markup.Place) :
    Tracks (σ := σ) {[]} {[]} (plan.testNodes o document written nodes)
      (plan.testNodes o document written nodes) := by
  induction nodes generalizing written with
  | nil => exact .pure written
  | cons node rest ih => exact (tracks_testNode plan o document node).bind fun n => ih _

theorem tracks_testTarget (organisations : Selector) (document : Markup.Node) (t : Target) :
    Tracks (σ := σ) {[]} {[]} (plan.testTarget organisations document t)
      (plan.testTarget organisations document t) := by
  unfold TestPlan.testTarget
  cases Selector.parse t.activitiesSelector with
  | error e => exact .throw _
  | ok selector =>
    refine (Tracks.sum (tracks_testActivity plan t.organisationId document) _).bind fun results => ?_
    have hinfos := tracks_runMetrics (σ := σ) plan t.organisationId .activity document (.top document)
    split
    · exact (Tracks.pure 0).bind fun infos => tracks_testNodes plan _ document _ _
    · exact hinfos.bind fun infos => tracks_testNodes plan _ document _ _

theorem tracks_testTargets (organisations : Selector) (document : Markup.Node) (written : Nat × Nat)
    (targets : List Target) :
    Tracks (σ := σ) {[]} {[]} (plan.testTargets organisations document written targets)
      (plan.testTargets organisations document written targets) := by
  induction targets generalizing written with
  | nil => exact .pure written
  | cons t rest ih => exact (tracks_testTarget plan organisations document t).bind fun n => ih _

theorem tracks_concludePackage :
    Tracks (σ := σ) {[]} {[]} TestPlan.concludePackage TestPlan.concludePackage := by
  refine Tracks.context.bind fun c => ?_
  refine ((tracks_aggregate _ _).mono (Set.subset_univ _) subset_rfl).bind fun rows => ?_
  refine (tracks_stage _).bind fun _ => ?_
  exact (tracks_commit _).bind fun _ => .pure rows

theorem tracks_checkDocument (document : Markup.Node) :
    Tracks (σ := σ) {[]} {[]} (plan.checkDocument document) (plan.checkDocument document) := by
  refine Tracks.context.bind fun c => tracks_organisationsOf _ (fun _ => rfl) fun r => ?_
  rcases r with e | targets
  · exact .throw _
  rcases targets with _ | ⟨t, rest⟩
  · exact .throw _
  dsimp only
  cases Selector.parse plan.organisationSelector with
  | error e => exact .throw _
  | ok organisations =>
    refine (tracks_testTargets plan organisations document _ _).bind fun written => ?_
    exact tracks_concludePackage.bind fun rows => .pure _

theorem tracks_recordValidity (code : Code) :
    Tracks (σ := σ) {[]} {[]} (TestPlan.recordValidity code) (TestPlan.recordValidity code) :=
  Tracks.context.bind fun _ => (tracks_flush _ _).bind fun _ => .pure ()

theorem tracks_checkText (text : String) :
    Tracks (σ := σ) {[]} {[]} (plan.checkText text) (plan.checkText text) := by
  unfold TestPlan.checkText
  cases Markup.parse? text with
  | none => exact (tracks_recordValidity .fail).bind fun _ => .pure _
  | some document =>
    exact (tracks_recordValidity .pass).bind fun _ => tracks_checkDocument plan document

/-- Recording the run ends with nothing staged, whether it succeeds or not. -/
theorem settles_recordTestrun :
    Settles (σ := σ) {[]} TestPlan.recordTestrun TestPlan.recordTestrun := by
  refine Settles.bind Tracks.context fun c => Settles.quietly ?_
  generalize Write.recordTestrun c.packageId c.runtimeId = w
  have hstage : RecordedStore.Records {[]} Set.univ (Datastore.stage w : StoreM σ Unit) _ :=
    RecordedStore.records_call (LawfulStore.stage w) (fun _ => rfl) fun _ _ => Set.mem_univ _
  refine settles_onStore hstage (.ofWrite w) none ?_ ?_ ?_
  · exact tracks_commit _
  · exact fun _ => rfl
  · exact fun _ => rfl

/-- What is done with the text of a file, and after it. -/
theorem settles_read (read : σ → Option String) :
    Settles {[]}
      (do
        match read (← get).store.inner with
        | some text => do
          let outcome ← plan.checkText text
          TestPlan.recordTestrun
          pure outcome
        | none => do
          TestPlan.recordValidity .fail
          let outcome ← pure .invalidDocument
          TestPlan.recordTestrun
          pure outcome : Testing (FaultyStore σ) PackageOutcome)
      (do
        match read (← get).store.inner with
        | some text => do
          let outcome ← plan.checkText text
          TestPlan.recordTestrun
          pure outcome
        | none => do
          TestPlan.recordValidity .fail
          let outcome ← pure .invalidDocument
          TestPlan.recordTestrun
          pure outcome : Testing (RecordedStore σ) PackageOutcome) := by
  refine Settles.get fun f c h => ?_
  rw [h]
  cases read c.store.inner with
  | some text =>
    exact Settles.bind (tracks_checkText plan text) settles_recordTestrun.result
  | none =>
    refine Settles.bind (tracks_recordValidity .fail) fun _ => ?_
    exact Settles.bind (Tracks.pure _) settles_recordTestrun.result

theorem settles_checkFile (read : σ → Option String) :
    Settles {[]} (plan.checkFile fun s : FaultyStore σ => read s.inner)
      (plan.checkFile fun s : RecordedStore σ => read s.inner) := by
  unfold TestPlan.checkFile
  refine Settles.bind Tracks.context fun c => ?_
  have hread := settles_read plan read
  by_cases hremove : plan.removeResults = true
  · simp only [hremove, if_true]
    refine Settles.bind ((tracks_stage _).mono (Set.subset_univ _) subset_rfl) fun _ => ?_
    exact Settles.bind (tracks_commit _) fun _ => hread
  · simp only [hremove]
    exact hread

/-- Testing a text or a file, while any calls but the dropping of writes fail,
leaves nothing staged, and the tables as they are after some of the first commits
of the same testing without these failures. -/
theorem leavesPrefix_check (c : RunContext) (s : FaultyStore σ)
    (hrollback : ∀ n, (StoreCall.rollback, n) ∉ s.plan)
    (hs : (Datastore.ledger s).staged = []) :
    (∀ text, LeavesPrefix c s (plan.checkText text) (plan.checkText text)) ∧
      ∀ read : σ → Option String, LeavesPrefix c s (plan.checkFile fun s => read s.inner)
        (plan.checkFile fun s => read s.inner) := by
  constructor
  · intro text
    exact (tracks_checkText plan text).settles.leavesPrefix c s hrollback hs
  · intro read
    exact (settles_checkFile plan read).leavesPrefix c s hrollback hs

end Stores

def twoRules : TestPlan :=
  let p : Predicate := .isPresent (.error ⟨"(", 0, .noName⟩)
  let rules : List CompiledRule :=
    [⟨⟨⟨1⟩, "( exists?", .activity, true⟩, p⟩, ⟨⟨⟨2⟩, "( exists?", .activity, true⟩, p⟩]
  ⟨.ofRules rules [] (by decide), false, "//b", .empty, none⟩

/-- A document with two activities, which have no identifiers. -/
def twoActivities : Markup.Node := .root [.element "r" [] [.element "a" [] [], .element "a" [] []]]

theorem checkText_twoActivities (plan : TestPlan) :
    (plan.checkText "<r><a/><a/></r>" : Testing σ PackageOutcome) =
      TestPlan.recordValidity .pass >>= fun _ => plan.checkDocument twoActivities := by
  have hdocument : Markup.parse? "<r><a/><a/></r>" = some twoActivities := by rfl
  unfold TestPlan.checkText
  rw [hdocument]

/-- The store fails when the second result of the second activity is to be saved. The first result of
that activity, which is staged by then, is not kept. -/
theorem leavesPrefix_check_inside_batch :
    let s := FaultyStore.around (MemoryStore.empty.withOrganisations ⟨7⟩ [⟨⟨5⟩, "//a"⟩])
      [(.saveResult, 5)]
    let c := RunContext.start ⟨1⟩ ⟨7⟩ ⟨0, 0⟩
    let after := ((twoRules.checkText "<r><a/><a/></r>").run ⟨c, s⟩).2.store
    (∀ n, (StoreCall.rollback, n) ∉ s.plan) ∧ (Datastore.ledger s).staged = [] ∧
      (∀ text, LeavesPrefix c s (twoRules.checkText text) (twoRules.checkText text)) ∧
      (∀ read : MemoryStore → Option String, LeavesPrefix c s
        (twoRules.checkFile fun s => read s.inner) (twoRules.checkFile fun s => read s.inner)) ∧
      after.notes.head? = some "rollback" ∧ after.calls.count .saveResult = 5 ∧
      (Datastore.ledger after).tables.results = [
        ⟨⟨1⟩, ⟨7⟩, ⟨0⟩, .pass, none, 0, none⟩,
        ⟨⟨1⟩, ⟨7⟩, ⟨1⟩, .fail, some "MISSING-1", 0, some ⟨5⟩⟩,
        ⟨⟨1⟩, ⟨7⟩, ⟨2⟩, .fail, some "MISSING-1", 0, some ⟨5⟩⟩] := by
  intro s c after
  have hrollback : ∀ n, (StoreCall.rollback, n) ∉ s.plan := by simp [s, FaultyStore.around]
  obtain ⟨htext, hread⟩ := leavesPrefix_check twoRules c s hrollback rfl
  simp only [after, checkText_twoActivities]
  exact ⟨hrollback, rfl, htext, hread, by cbv, by cbv, by cbv⟩

end DataQuality.Interruption
