import DataQuality.Proofs.Store.Runs
import DataQuality.Proofs.Testing.Conclusion

/-!
# Fresh runs

A run that is started is new if nothing is recorded of a run with that number. Packages may be tested
in any run, also in one that nobody has started, and the number of a new run is found among the
started ones alone. So a new run is fresh, and all after it are, as long as no package is tested in
a run beyond the latest one.
-/
namespace DataQuality

open Testing TestPlan

variable {σ : Type} [Datastore σ]

namespace EndsIn

variable {start : TestState Ledger} {α : Type}

/-- A part that looks at the store ends as what follows does, whatever the store. -/
theorem get {k : TestState (FaultyStore σ) → Testing (FaultyStore σ) α}
    {ways : Except TestingError α → TestState Ledger → Prop} (h : ∀ s, EndsIn (k s) start ways) :
    EndsIn (MonadState.get >>= k) start ways :=
  fun s hdrop hl => h ⟨start.context, s⟩ s hdrop hl

/-- The errors of a part are ignored, but not what it has done. -/
theorem quietly {m : Testing (FaultyStore σ) Unit} {after : TestState Ledger → Prop}
    (h : EndsIn m start fun _ => after) :
    EndsIn (tryCatch m fun _ => Pure.pure ()) start fun r s => r = .ok () ∧ after s := by
  intro s hdrop hl
  obtain ⟨r, s', hrun, hdrop', hend⟩ := h s hdrop hl
  exact ⟨.ok (), s', by rw [run_quietly, hrun], hdrop', rfl, hend⟩

end EndsIn

/-- Writes of the run are committed, and identifiers made up. -/
def CommitsOf (c : RunContext) (t : Tables) (s : TestState Ledger) : Prop :=
  ∃ n ws, (∀ w ∈ ws, w.IsOf c.runtimeId) ∧ s = ⟨c.madeUp n, .ofTables (t.applyAll ws)⟩

namespace CommitsOf

variable {c : RunContext} {t : Tables} {s : TestState Ledger}

theorem refl : CommitsOf c t ⟨c, .ofTables t⟩ := ⟨0, [], by simp, rfl⟩

theorem apply {w : Write} (hw : w.IsOf c.runtimeId) (h : CommitsOf c (t.apply w) s) :
    CommitsOf c t s := by
  obtain ⟨n, ws, hws, rfl⟩ := h
  refine ⟨n, w :: ws, fun v hv => ?_, rfl⟩
  rcases List.mem_cons.1 hv with rfl | hv
  · exact hw
  · exact hws v hv

theorem trans {n : Nat} {ws : List Write} (hws : ∀ w ∈ ws, w.IsOf c.runtimeId)
    (h : CommitsOf (c.madeUp n) (t.applyAll ws) s) : CommitsOf c t s := by
  obtain ⟨m, vs, hvs, rfl⟩ := h
  refine ⟨n + m, ws ++ vs, fun w hw => ?_, ?_⟩
  · exact (List.mem_append.1 hw).elim (hws w) (hvs w)
  · simp only [Tables.applyAll_append, RunContext.madeUp, Nat.add_assoc]

end CommitsOf

/-- What is staged is carried out and then writes of the run, or it is dropped and testing ends. -/
def EndsOf {α : Type} (c : RunContext) (l : Ledger) (r : Except TestingError α)
    (s : TestState Ledger) : Prop :=
  CommitsOf c l.settle.tables s ∨ (∃ e, r = .error e) ∧ s = ⟨c, .ofTables l.tables⟩

namespace TestPlan

variable [LawfulStore σ] (plan : TestPlan) (c : RunContext) (l : Ledger)

theorem IsOutcome.isOf {plan : TestPlan} {c : RunContext} {w : Write} (h : plan.IsOutcome c w) :
    w.IsOf c.runtimeId := by
  cases w with
  | saveResult x => exact h.1
  | replaceInfo x => exact h.1
  | _ => exact h.elim

/-- What testing a document commits is of the run. -/
theorem Concludes.commitsOf {plan : TestPlan} {c : RunContext} {t : Tables}
    {r : Except TestingError PackageOutcome} {s : TestState Ledger} (h : plan.Concludes c t r s) :
    CommitsOf c t s := by
  obtain ⟨n, ws, hws, hend⟩ := h
  have houtcomes : ∀ w ∈ ws, w.IsOf c.runtimeId := fun w hw => (hws w hw).isOf
  obtain ⟨_, _, -, rfl⟩ | ⟨-, rfl⟩ := hend
  · have hclosing : ∀ w ∈ closingCommit c (t.applyAll ws), w.IsOf c.runtimeId := by
      intro w hw
      rcases List.mem_cons.1 hw with rfl | hw
      · have hrows := ((t.applyAll ws).isCount_aggregate c.runtimeId c.packageId).belongs
        exact fun row hrow => (hrows row hrow).1
      · obtain rfl := List.mem_singleton.1 hw
        exact trivial
    exact CommitsOf.trans (n := n) houtcomes ⟨0, _, hclosing, rfl⟩
  · exact ⟨n, ws, houtcomes, rfl⟩

theorem endsOf_checkText (text : String) :
    EndsIn (σ := σ) (plan.checkText text) ⟨c, l⟩ (EndsOf c l) := by
  refine (endsIn_checkText_after plan text c l).mono fun r s hs => ?_
  obtain hs | ⟨-, rfl⟩ | hs := hs
  · exact .inl (CommitsOf.apply (w := .saveResult (validity c .pass)) rfl hs.commitsOf)
  · exact .inl (CommitsOf.apply (w := .saveResult (validity c .fail)) rfl .refl)
  · exact .inr hs

/-- The record of the tested run is a write of it, if it is made at all. -/
theorem commitsOf_recordTestrun (t : Tables) :
    EndsIn (σ := σ) recordTestrun ⟨c, .ofTables t⟩ fun r s => r = .ok () ∧ CommitsOf c t s := by
  refine EndsIn.withContext (EndsIn.quietly ?_)
  refine EndsIn.after_onStore (LawfulStore.stage _) _ _ c _ ?_ fun e => ?_
  · refine (EndsIn.commit c _ _).mono fun r s hs => ?_
    obtain ⟨-, rfl⟩ | ⟨-, rfl⟩ := hs
    · exact CommitsOf.apply (w := .recordTestrun c.packageId c.runtimeId) rfl .refl
    · exact .refl
  · exact (EndsIn.pure _).mono fun r s hs => hs.2 ▸ .refl

/-- So nothing else is committed when the run is recorded at the end. -/
theorem EndsOf.thenRecord {m : Testing (FaultyStore σ) PackageOutcome}
    (h : EndsIn m ⟨c, l⟩ (EndsOf c l)) :
    EndsIn (m >>= fun outcome => recordTestrun >>= fun _ => pure outcome) ⟨c, l⟩ (EndsOf c l) := by
  refine h.bind (fun outcome s hs => ?_) fun e s hs => ?_
  · obtain ⟨n, ws, hws, rfl⟩ | ⟨⟨e, he⟩, -⟩ := hs
    · refine (commitsOf_recordTestrun (c.madeUp n) _).bind (fun u s hs => ?_)
        fun e s hs => (by cases hs.1)
      refine (EndsIn.pure outcome).mono fun r s' hs' => .inl ?_
      rw [hs'.2]
      exact hs.2.trans hws
    · cases he
  · exact hs.imp id fun hs => ⟨⟨e, rfl⟩, hs.2⟩

/-- Testing what was read of a file commits writes of the run. -/
theorem endsOf_checkRead (text? : Option String) :
    EndsIn (σ := σ) (plan.checkRead text?) ⟨c, l⟩ (EndsOf c l) := by
  unfold checkRead
  cases text? with
  | some text => exact EndsOf.thenRecord c l (endsOf_checkText plan c l text)
  | none =>
    have hfail : EndsIn (σ := σ)
        (recordValidity .fail >>= fun _ => pure PackageOutcome.invalidDocument) ⟨c, l⟩
        (EndsOf c l) := by
      refine (EndsIn.recordValidity c l .fail).after_whole ?_ fun e => .inr ⟨⟨e, rfl⟩, rfl⟩
      rw [Ledger.settle_stage]
      refine (EndsIn.pure _).mono fun r s hs => .inl ?_
      rw [hs.2]
      exact CommitsOf.apply (w := .saveResult (validity c .fail)) rfl .refl
    have hrecord := EndsOf.thenRecord c l hfail
    rwa [bind_assoc] at hrecord

/-- Testing a file commits writes of the run, after what is staged or instead of it. -/
theorem endsOf_checkFile (read : FaultyStore σ → Option String) :
    EndsIn (plan.checkFile read) ⟨c, l⟩ (EndsOf c l) := by
  rw [checkFile_eq]
  have hrest (l : Ledger) : EndsIn (MonadState.get >>= fun s => plan.checkRead (read s.store)) ⟨c, l⟩
      (EndsOf c l) := EndsIn.get fun s => endsOf_checkRead plan c l (read s.store)
  unfold clearResults
  cases plan.removeResults with
  | false => exact hrest l
  | true =>
    have hclear : EndsIn (σ := σ)
        (Testing.orAbort (Datastore.stage (.deleteResults c.packageId)) >>= fun _ =>
          Testing.commit ("Remove results for package " ++ c.packageId.text)) ⟨c, l⟩
        (Whole () ⟨c, (l.stage (.deleteResults c.packageId)).settle⟩ ⟨c, .ofTables l.tables⟩) :=
      (EndsIn.stage c l _).whole_bind (EndsIn.commit c _ _)
    rw [Ledger.settle_stage] at hclear
    refine (EndsIn.withContext hclear).after_whole ?_ fun e => .inr ⟨⟨e, rfl⟩, rfl⟩
    refine (hrest _).mono fun r s hs => .inl ?_
    refine CommitsOf.apply (w := .deleteResults c.packageId) trivial ?_
    obtain hs | ⟨-, rfl⟩ := hs
    · exact hs
    · exact .refl

end TestPlan

/-- What is done with a store: a run is started, what is staged is committed or dropped, or a package
is tested in a run. -/
inductive RunUse (σ : Type)
  | start (now : Instant)
  | commit (message : String)
  | rollback
  | checkText (plan : TestPlan) (context : RunContext) (text : String)
  | checkFile (plan : TestPlan) (context : RunContext) (read : FaultyStore σ → Option String)

namespace RunUse

def perform : RunUse σ → FaultyStore σ → FaultyStore σ
  | .start now, s => ((Datastore.startRun now).run s).2
  | .commit message, s => ((Datastore.commit message).run s).2
  | .rollback, s => (Datastore.rollback.run s).2
  | .checkText plan c text, s => ((plan.checkText text).run ⟨c, s⟩).2.store
  | .checkFile plan c read, s => ((plan.checkFile read).run ⟨c, s⟩).2.store

/-- The run that is started, if one is. -/
def started? : RunUse σ → FaultyStore σ → Option RuntimeId
  | .start now, s => ((Datastore.startRun now).run s).1.toOption
  | _, _ => none

def testedIn? : RunUse σ → Option RuntimeId
  | .checkText _ c _ => some c.runtimeId
  | .checkFile _ c _ => some c.runtimeId
  | _ => none

/-- What a use may do to the ledger, and the run that it may start. -/
inductive Moves (u : RunUse σ) (l : Ledger) : Option RuntimeId → Ledger → Prop
  | stay : Moves u l none l
  | start (now : Instant) : Moves u l (some (l.startRun now).1) (l.startRun now).2
  | settle : Moves u l none l.settle
  | discard : Moves u l none l.discard
  | check {r : RuntimeId} {ws : List Write} (hr : u.testedIn? = some r) (hws : ∀ w ∈ ws, w.IsOf r) :
    Moves u l none (.ofTables (l.settle.tables.applyAll ws))

variable [LawfulStore σ] {s : FaultyStore σ}

omit [LawfulStore σ] in
theorem moves_of_endsOf {u : RunUse σ} {c : RunContext} {α : Type} {m : Testing (FaultyStore σ) α}
    (hdrop : s.CanDrop) (hm : EndsIn m ⟨c, Datastore.ledger s⟩ (EndsOf c (Datastore.ledger s)))
    (hu : u.testedIn? = some c.runtimeId) :
    let s' := (m.run ⟨c, s⟩).2.store
    s'.CanDrop ∧ u.Moves (Datastore.ledger s) none (Datastore.ledger s') := by
  obtain ⟨r, s', hrun, hdrop', hend⟩ := hm s hdrop rfl
  dsimp only at hrun ⊢
  rw [hrun]
  refine ⟨hdrop', ?_⟩
  obtain ⟨n, ws, hws, hs'⟩ | ⟨-, hs'⟩ := hend
  · have hledger := congrArg TestState.store hs'
    dsimp only at hledger
    rw [hledger]
    exact .check hu hws
  · have hledger := congrArg TestState.store hs'
    dsimp only at hledger
    rw [hledger]
    exact .discard

/-- Every use moves the ledger in one of these ways. -/
theorem moves_perform (hdrop : s.CanDrop) (u : RunUse σ) :
    (u.perform s).CanDrop ∧
      u.Moves (Datastore.ledger s) (u.started? s) (Datastore.ledger (u.perform s)) := by
  cases u with
  | start now =>
    obtain ⟨r, s', hrun, hdrop', hcase⟩ :=
      FaultyStore.call_cases (LawfulStore.startRun (σ := σ) now) .startRun none hdrop
    have hstarted : (start now).started? s = r.toOption := congrArg (·.1.toOption) hrun
    have hperform : (start now).perform s = s' := congrArg Prod.snd hrun
    rw [hstarted, hperform]
    refine ⟨hdrop', ?_⟩
    obtain ⟨rfl, hl⟩ | ⟨⟨e, rfl⟩, hl⟩ := hcase <;> rw [hl]
    · exact .start now
    · exact .stay
  | commit message =>
    obtain ⟨r, s', hrun, hdrop', hcase⟩ := FaultyStore.call_cases
      (LawfulStore.commit (σ := σ) message) .commit (some ("commit " ++ message)) hdrop
    have hperform : (commit message).perform s = s' := congrArg Prod.snd hrun
    rw [hperform]
    refine ⟨hdrop', ?_⟩
    obtain ⟨-, hl⟩ | ⟨-, hl⟩ := hcase <;> rw [hl]
    · exact .settle
    · exact .stay
  | rollback =>
    obtain ⟨hdrop', hl⟩ := FaultyStore.rollback_run hdrop
    refine ⟨hdrop', ?_⟩
    have hledger : Datastore.ledger (rollback.perform s) = (Datastore.ledger s).discard := hl
    rw [hledger]
    exact .discard
  | checkText plan c text => exact moves_of_endsOf hdrop (endsOf_checkText plan c _ text) rfl
  | checkFile plan c read => exact moves_of_endsOf hdrop (endsOf_checkFile plan c _ read) rfl

/-- No run that is started is one of which something is committed by then. -/
def StartsFresh : List (RunUse σ) → FaultyStore σ → Prop
  | [], _ => True
  | u :: rest, s =>
    (∀ r, u.started? s = some r → ¬ (Datastore.ledger s).tables.Uses r) ∧
      StartsFresh rest (u.perform s)

/-- No package is tested in a run beyond the latest one that was started by then. -/
def StaysBelow : List (RunUse σ) → FaultyStore σ → Prop
  | [], _ => True
  | u :: rest, s =>
    (∀ r, u.testedIn? = some r → r.toInt ≤ (Datastore.ledger s).latestRun) ∧
      StaysBelow rest (u.perform s)

omit [Datastore σ] [LawfulStore σ] in
/-- A use that stays below the latest run keeps the ledger grounded. The run it starts is fresh. -/
theorem Moves.grounded {u : RunUse σ} {l l' : Ledger} {started? : Option RuntimeId}
    (h : u.Moves l started? l') (hl : l.Grounded) (hbound : l.latestRun + 1 < 2 ^ 63)
    (hbelow : ∀ r, u.testedIn? = some r → r.toInt ≤ l.latestRun) :
    l'.Grounded ∧ l'.latestRun ≤ l.latestRun + 1 ∧ ∀ r, started? = some r → ¬ l.tables.Uses r := by
  cases h with
  | stay => exact ⟨hl, by omega, by simp⟩
  | start now =>
    refine ⟨hl.startRun now hbound, (l.latestRun_startRun now hbound).le, fun r hr => ?_⟩
    obtain rfl := Option.some.inj hr
    exact hl.not_uses_startRun now hbound
  | settle =>
    exact ⟨hl.settle, l.latestRun_settle.trans_le (by omega), by simp⟩
  | discard =>
    -- starts are dropped too, and the latest run is again the one that was committed
    exact ⟨hl.discard, hl.later.trans (by omega), by simp⟩
  | check hr hws =>
    obtain ⟨hgrounded, hlatest⟩ := hl.applyAll hws (hbelow _ hr)
    exact ⟨hgrounded, by omega, by simp⟩

theorem startsFresh_of_staysBelow {uses : List (RunUse σ)} (hdrop : s.CanDrop)
    (hl : (Datastore.ledger s).Grounded)
    (hbound : (Datastore.ledger s).latestRun + uses.length < 2 ^ 63) (hbelow : StaysBelow uses s) :
    StartsFresh uses s := by
  induction uses generalizing s with
  | nil => trivial
  | cons u rest ih =>
    rw [List.length_cons, Nat.cast_add_one] at hbound
    obtain ⟨hdrop', hmoves⟩ := moves_perform hdrop u
    obtain ⟨hgrounded, hlatest, hfresh⟩ := hmoves.grounded hl (by omega) hbelow.1
    exact ⟨hfresh, ih hdrop' hgrounded (by omega) hbelow.2⟩

end RunUse

/-- Runs can always be started. -/
structure FaultyStore.CanStart (s : FaultyStore σ) : Prop where
  unplanned : ∀ n, (StoreCall.startRun, n) ∉ s.plan
  inner : ∀ now (t : σ), ∃ r, ((Datastore.startRun now : StoreM σ RuntimeId).run t).1 = .ok r

namespace RunUse

variable [LawfulStore σ] {s : FaultyStore σ}

/-- A run that can be started is started. -/
theorem perform_start (h : s.CanStart) (now : Instant) :
    (start now).started? s = some ((Datastore.ledger s).startRun now).1 ∧
      ((start now).perform s).CanStart ∧
      Datastore.ledger ((start now).perform s) = ((Datastore.ledger s).startRun now).2 := by
  obtain ⟨s', hplan, hinner, hrun⟩ := FaultyStore.call_run_of_not_planned h.unplanned none
    (Datastore.startRun now : StoreM σ RuntimeId)
  have hstarted : (start now).started? s =
      ((Datastore.startRun now : StoreM σ RuntimeId).run s.inner).1.toOption :=
    congrArg (·.1.toOption) hrun
  have hperform : (start now).perform s = s' := congrArg Prod.snd hrun
  rw [hstarted, hperform, FaultyStore.ledger_eq s', hinner]
  obtain ⟨r, hr, hdoes⟩ | ⟨⟨e, he⟩, -⟩ := LawfulStore.startRun now s.inner
  · dsimp only at hdoes
    rw [hr, FaultyStore.ledger_eq s, hdoes]
    exact ⟨rfl, ⟨by rw [hplan]; exact h.unplanned, h.inner⟩, rfl⟩
  · obtain ⟨r, hr⟩ := h.inner now s.inner
    rw [hr] at he
    cases he

/-- If all of some runs in a row are fresh, none of them has been used. -/
theorem ne_of_startsFresh {n : Nat} {now : Instant} (hstart : s.CanStart)
    (hbound : (Datastore.ledger s).latestRun + n + 1 < 2 ^ 63)
    (h : StartsFresh (List.replicate (n + 1) (start now)) s) {r : RuntimeId}
    (hr : (Datastore.ledger s).tables.Uses r) :
    r.toInt ≠ (Datastore.ledger s).latestRun + n + 1 := by
  induction n generalizing s with
  | zero =>
    intro hid
    obtain ⟨hstarted, -, -⟩ := perform_start hstart now
    have hnext := (Datastore.ledger s).id_startRun now (by omega)
    have htoInt : r.toInt = ((Datastore.ledger s).startRun now).1.toInt := by omega
    have hsame : r = ((Datastore.ledger s).startRun now).1 :=
      congrArg Id.mk (Int64.toInt_inj.1 htoInt)
    exact h.1 _ hstarted (hsame ▸ hr)
  | succ n ih =>
    obtain ⟨-, hstart', hledger⟩ := perform_start hstart now
    have hlatest : (Datastore.ledger ((start now).perform s)).latestRun =
        (Datastore.ledger s).latestRun + 1 := by
      rw [hledger]
      exact Ledger.latestRun_startRun _ now (by omega)
    have hused : (Datastore.ledger ((start now).perform s)).tables.Uses r := by
      rw [hledger]
      exact hr
    have hne := ih hstart' (by omega) h.2 hused
    push_cast
    omega

/-- As long as no package is tested in a run beyond the latest one, every run that is started is
fresh: begun with a store in which nothing is staged and everything is recorded of runs up to the
latest one, whatever calls fail but the dropping of writes, and as long as there are numbers left.
Where something is recorded of a run beyond the latest one, starting runs in a row leads to it. -/
theorem startsFresh_while_below (hdrop : s.CanDrop) (hsettled : (Datastore.ledger s).staged = []) :
    let l := Datastore.ledger s
    ((∀ r, l.tables.Uses r → r.toInt ≤ l.latestRun) → ∀ uses : List (RunUse σ),
      l.latestRun + uses.length < 2 ^ 63 → StaysBelow uses s → StartsFresh uses s) ∧
    (s.CanStart → ∀ r, l.tables.Uses r → l.latestRun < r.toInt → ∀ now,
      ¬ StartsFresh (List.replicate (r.toInt - l.latestRun).toNat (start now)) s) := by
  intro l
  refine ⟨fun hused uses hbound hbelow =>
    startsFresh_of_staysBelow hdrop (.of_settled hsettled hused) hbound hbelow, ?_⟩
  intro hstart r hr hbeyond now hfresh
  obtain ⟨n, hn⟩ : ∃ n, (r.toInt - l.latestRun).toNat = n + 1 :=
    Nat.exists_eq_succ_of_ne_zero (by omega)
  have hmost := Int64.toInt_lt r.value
  rw [hn] at hfresh
  refine ne_of_startsFresh hstart ?_ hfresh hr ?_
  · change l.latestRun + n + 1 < 2 ^ 63
    have : r.toInt < 2 ^ 63 := hmost
    omega
  · change _ = l.latestRun + n + 1
    omega

/-- A store in memory that holds nothing. -/
def unusedStore : FaultyStore MemoryStore := .around .empty []

/-- A test of a file without a text, in a run. -/
def checkNothing (r : RuntimeId) : RunUse MemoryStore :=
  .checkFile ⟨.empty, false, "//b", .empty, none⟩ (.start r ⟨9⟩ ⟨0, 0⟩) fun _ => none

/-- A run is started, a file is tested in it, and the next run is another one. -/
theorem startsFresh_while_below_second :
    let uses := [start ⟨0, 0⟩, .commit "Start test run", checkNothing ⟨1⟩, start ⟨1, 0⟩]
    (∀ n, (StoreCall.rollback, n) ∉ unusedStore.plan) ∧ (Datastore.ledger unusedStore).staged = [] ∧
      StaysBelow uses unusedStore ∧ StartsFresh uses unusedStore := by
  intro uses
  have hdrop : unusedStore.CanDrop := by simp [unusedStore, FaultyStore.CanDrop, FaultyStore.around]
  have hbelow : StaysBelow uses unusedStore := by
    refine ⟨fun r hr => (by cases hr), fun r hr => (by cases hr), fun r hr => ?_,
      fun r hr => (by cases hr), trivial⟩
    obtain rfl := Option.some.inj hr
    decide +kernel
  have hnothing : ∀ r, (Datastore.ledger unusedStore).tables.Uses r →
      r.toInt ≤ (Datastore.ledger unusedStore).latestRun := by
    intro r hr
    cases hr with
    | result hx => cases hx
    | info hx => cases hx
    | row ha => cases ha
    | mark hr => cases hr
  have hfresh := (startsFresh_while_below hdrop rfl).1 hnothing uses (by decide +kernel) hbelow
  exact ⟨hdrop, rfl, hbelow, hfresh⟩

/-- A file is tested in run one, which nobody has started: then the first run that is started has
been used. -/
theorem not_startsFresh_unstarted :
    let s := (checkNothing ⟨1⟩).perform unusedStore
    (start ⟨0, 0⟩).started? s = some ⟨1⟩ ∧ (Datastore.ledger s).tables.Uses ⟨1⟩ ∧
      ¬ StartsFresh [checkNothing ⟨1⟩, start ⟨0, 0⟩] unusedStore := by
  intro s
  have hstarted : (start ⟨0, 0⟩).started? s = some ⟨1⟩ := by decide +kernel
  have hused : (Datastore.ledger s).tables.Uses ⟨1⟩ :=
    .result (x := TestPlan.validity (.start ⟨1⟩ ⟨9⟩ ⟨0, 0⟩) .fail) (by decide +kernel)
  exact ⟨hstarted, hused, fun hfresh => hfresh.2.1 _ hstarted hused⟩

end RunUse

end DataQuality
