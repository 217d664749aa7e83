import DataQuality.Proofs.Testing.Results

/-!
# Testing that stays in order

What a store keeps true at its commits is true again when a part of testing has ended,
whether it has failed or not. Of the identifiers that were made up before in the run a
part of testing sees nothing unless it makes one up itself: with another number of them
it does the same.
-/
namespace DataQuality

open Markup (Node Place)

variable {σ α β : Type} [Datastore σ]

/-- What is kept true of a store, at its commits and between them. The calls of testing
succeed as long as it is, if what is staged can be read back. -/
structure Upkeep (σ : Type) [Datastore σ] where
  Settled : σ → Prop
  Pending : σ → Prop
  pending {s : σ} : Settled s → Pending s
  stage {s : σ} (h : Pending s) {w : Write} (hw : w.ReadsBack) :
    ∃ s', (Datastore.stage w : StoreM σ Unit).run s = (.ok (), s') ∧ Pending s'
  aggregate {s : σ} (h : Pending s) (r : RuntimeId) (p : PackageId) :
    ∃ rows s', (Datastore.aggregate r p : StoreM σ (List AggregateRow)).run s = (.ok rows, s') ∧
      Pending s'
  organisationsOf {s : σ} (h : Settled s) (p : PackageId) :
    ∃ targets s', (Datastore.organisationsOf p : StoreM σ (List Target)).run s =
      (.ok targets, s') ∧ Settled s'
  commit {s : σ} (h : Pending s) (message : String) :
    ∃ s', (Datastore.commit message : StoreM σ Unit).run s = (.ok (), s') ∧ Settled s'

/-- The context if this many identifiers had been made up in its run. -/
def RunContext.withMissing (c : RunContext) (n : Nat) : RunContext := { c with missing := n }

/-- What is true of a part of testing that is begun in this state. -/
structure GoesOn (u : Upkeep σ) (after : σ → Prop) (m : Testing σ α) (s : TestState σ) : Prop where
  counts : ∃ n, (m.run s).2.context = s.context.madeUp n
  /-- With another number of made-up identifiers the part does the same, if it makes up none. -/
  alike : (m.run s).2.context = s.context → ∀ n, m.run ⟨s.context.withMissing n, s.store⟩ =
    ((m.run s).1, ⟨s.context.withMissing n, (m.run s).2.store⟩)
  ok : ∀ a, (m.run s).1 = .ok a → after (m.run s).2.store
  error : ∀ e, (m.run s).1 = .error e → u.Settled (m.run s).2.store

/-- What is true of a part of testing is true of how it runs. -/
theorem goesOn_of_run {u : Upkeep σ} {after : σ → Prop} {m : Testing σ α} {s t : TestState σ}
    {r : Except TestingError α} (h : m.run s = (r, t))
    (hcounts : ∃ n, t.context = s.context.madeUp n)
    (halike : t.context = s.context → ∀ n, m.run ⟨s.context.withMissing n, s.store⟩ =
      (r, ⟨s.context.withMissing n, t.store⟩))
    (hok : ∀ a, r = .ok a → after t.store) (herror : ∀ e, r = .error e → u.Settled t.store) :
    GoesOn u after m s := by
  constructor <;> rw [h] <;> assumption

/-- A part of testing that goes on so in each run that began at this time, and on each
store of which `before` is true. -/
def Steady (u : Upkeep σ) (now : Instant) (before after : σ → Prop) (m : Testing σ α) : Prop :=
  ∀ s : TestState σ, s.context.now = now → before s.store → GoesOn u after m s

namespace Steady

variable {u : Upkeep σ} {now : Instant} {before middle after : σ → Prop}

/-- A part that sees nothing of the context. -/
theorem of_run {m : Testing σ α}
    (h : ∀ s, before s → ∃ a s', (∀ c, m.run ⟨c, s⟩ = (.ok a, ⟨c, s'⟩)) ∧ after s') :
    Steady u now before after m := by
  rintro ⟨c, s⟩ - hs
  obtain ⟨a, s', hrun, hs'⟩ := h s hs
  exact goesOn_of_run (hrun c) ⟨0, rfl⟩ (fun _ n => hrun _) (fun _ _ => hs') fun e he => (by cases he)

theorem pure (a : α) : Steady u now before before (Pure.pure a) :=
  of_run fun s hs => ⟨a, s, fun _ => rfl, hs⟩

theorem throw (e : TestingError) :
    Steady (α := α) u now u.Settled after (MonadExcept.throw e) := by
  rintro ⟨c, s⟩ - hs
  exact ⟨⟨0, rfl⟩, fun _ _ => rfl, fun a ha => (by cases ha), fun _ _ => hs⟩

theorem bind {m : Testing σ α} {k : α → Testing σ β} (h : Steady u now before middle m)
    (hk : ∀ a, Steady u now middle after (k a)) : Steady u now before after (m >>= k) := by
  intro s hnow hs
  obtain ⟨⟨n, hcontext⟩, halike, hok, herror⟩ := h s hnow hs
  rcases hm : m.run s with ⟨r, s₁⟩
  simp only [hm] at hcontext halike hok herror
  cases r with
  | error e =>
    have hbind : (m >>= k).run s = (.error e, s₁) := by rw [run_bind, hm]
    refine goesOn_of_run hbind ⟨n, hcontext⟩ (fun hsame n' => ?_) (fun b hb => by cases hb)
      fun _ _ => herror e rfl
    rw [run_bind, halike hsame n']
  | ok a =>
    have hnow₁ : s₁.context.now = now := by
      rw [hcontext]
      exact hnow
    obtain ⟨⟨n', hcontext'⟩, halike', hok', herror'⟩ := hk a s₁ hnow₁ (hok a rfl)
    rcases hlast : (k a).run s₁ with ⟨r, s₂⟩
    simp only [hlast] at hcontext' halike' hok' herror'
    have hbind : (m >>= k).run s = (r, s₂) := by rw [run_bind, hm, ← hlast]
    refine goesOn_of_run hbind ⟨n + n', ?_⟩ (fun hsame k' => ?_) hok' herror'
    · rw [hcontext', hcontext]
      simp only [RunContext.madeUp, Nat.add_assoc]
    · -- neither of the two makes up an identifier
      have hfirst : s₁.context = s.context := by
        have hmissing := congrArg RunContext.missing hsame
        rw [hcontext', hcontext] at hmissing
        have hzero : n = 0 := by
          change s.context.missing + n + n' = s.context.missing at hmissing
          omega
        rw [hcontext, hzero]
        rfl
      have hsecond := halike' (hsame.trans hfirst.symm) k'
      rw [run_bind, halike hfirst k']
      rwa [hfirst] at hsecond

/-- What is begun while writes are staged may be begun at a commit. -/
theorem of_pending {m : Testing σ α} (h : Steady u now u.Pending after m) :
    Steady u now u.Settled after m := fun s hnow hs => h s hnow (u.pending hs)

/-- A part that looks at the state, but not at how many identifiers have been made up. -/
theorem get {k : TestState σ → Testing σ α}
    (hk : ∀ s, s.context.now = now → before s.store → Steady u now before after (k s))
    (hsame : ∀ s n, k ⟨s.context.withMissing n, s.store⟩ = k s) :
    Steady u now before after (MonadState.get >>= k) := by
  intro s hnow hs
  have hgo := hk s hnow hs s hnow hs
  refine goesOn_of_run (t := ((k s).run s).2) rfl hgo.counts (fun hcontext n => ?_) hgo.ok hgo.error
  change (k ⟨s.context.withMissing n, s.store⟩).run ⟨s.context.withMissing n, s.store⟩ = _
  rw [hsame]
  exact hgo.alike hcontext n

theorem context {k : RunContext → Testing σ α}
    (hk : ∀ c, c.now = now → Steady u now before after (k c))
    (hsame : ∀ c n, k (c.withMissing n) = k c) :
    Steady u now before after (Testing.context >>= k) :=
  get (k := fun s => k s.context) (fun s hnow _ => hk s.context hnow) fun s n => hsame s.context n

theorem nextMissing : Steady u now before before Testing.nextMissing := by
  rintro ⟨c, s⟩ - hs
  refine goesOn_of_run (t := ⟨c.nextMissing.2, s⟩) rfl ⟨1, rfl⟩ (fun hsame => ?_) (fun _ _ => hs)
    fun e he => (by cases he)
  have hmissing : c.missing + 1 = c.missing := congrArg RunContext.missing hsame
  omega

theorem sum {part : α → Testing σ Nat} {items : List α}
    (h : ∀ a ∈ items, Steady u now before before (part a)) :
    Steady u now before before (Testing.sum part items) := by
  induction items with
  | nil => exact pure 0
  | cons a rest ih =>
    refine (h a List.mem_cons_self).bind fun n => ?_
    exact (ih fun b hb => h b (List.mem_cons_of_mem a hb)).bind fun m => pure (n + m)

/-- A call that succeeds, and what is done with its result. -/
theorem onStore {call : StoreM σ β} {k : Except StoreError β → Testing σ α}
    (h : ∀ s, before s → ∃ b s', call.run s = (.ok b, s') ∧ middle s')
    (hk : ∀ b, Steady u now middle after (k (.ok b))) :
    Steady u now before after (Testing.onStore call >>= k) := by
  rintro ⟨c, s⟩ hnow hs
  obtain ⟨b, s', hcall, hs'⟩ := h s hs
  have hrun (c : RunContext) : (Testing.onStore call >>= k).run ⟨c, s⟩ = (k (.ok b)).run ⟨c, s'⟩ := by
    have hon : (Testing.onStore call).run ⟨c, s⟩ = (.ok (call.run s).1, ⟨c, (call.run s).2⟩) := rfl
    rw [run_bind, hon, hcall]
  have hgo := hk b ⟨c, s'⟩ hnow hs'
  exact goesOn_of_run (t := ((k (.ok b)).run ⟨c, s'⟩).2) (hrun c) hgo.counts
    (fun hsame n => (hrun _).trans (hgo.alike hsame n)) hgo.ok hgo.error

theorem orAbort {call : StoreM σ α}
    (h : ∀ s, before s → ∃ a s', call.run s = (.ok a, s') ∧ after s') :
    Steady u now before after (Testing.orAbort call) := onStore h fun a => pure a

theorem stage {w : Write} (hw : w.ReadsBack) :
    Steady u now u.Pending u.Pending (Testing.orAbort (Datastore.stage w)) := by
  refine orAbort fun s hs => ?_
  obtain ⟨s', hcall, hs'⟩ := u.stage hs hw
  exact ⟨(), s', hcall, hs'⟩

theorem aggregate (r : RuntimeId) (p : PackageId) :
    Steady u now u.Pending u.Pending (Testing.orAbort (Datastore.aggregate r p)) :=
  orAbort fun _ hs => u.aggregate hs r p

theorem commit (message : String) :
    Steady u now u.Pending u.Settled (Testing.commit message) := by
  refine orAbort fun s hs => ?_
  obtain ⟨s', hcall, hs'⟩ := u.commit hs message
  exact ⟨(), s', hcall, hs'⟩

theorem stageAll {ws : List Write} (h : ∀ w ∈ ws, w.ReadsBack) :
    Steady u now u.Pending u.Pending (Testing.stageAll ws) := by
  induction ws with
  | nil => exact pure ()
  | cons w rest ih =>
    exact (stage (h w List.mem_cons_self)).bind fun _ => ih fun v hv => h v (List.mem_cons_of_mem w hv)

theorem flush (batch : List TestResult) (message : String) :
    Steady u now u.Settled u.Settled (Testing.flush batch message) := by
  unfold Testing.flush
  split
  · exact pure 0
  · refine (stageAll fun w hw => ?_).of_pending.bind fun _ => ?_
    · obtain ⟨r, -, rfl⟩ := List.mem_map.1 hw
      trivial
    · exact (commit message).bind fun _ => pure batch.length

/-- A part whose error is ignored. -/
theorem quietly {m : Testing σ Unit} (h : Steady u now before u.Settled m) :
    Steady u now before u.Settled (tryCatch m fun _ => Pure.pure ()) := by
  intro s hnow hs
  have hgo := h s hnow hs
  refine goesOn_of_run (run_quietly m s) hgo.counts (fun hsame n => ?_) (fun _ _ => ?_)
    fun e he => (by cases he)
  · rw [run_quietly, hgo.alike hsame n]
  · rcases hr : (m.run s).1 with e | a
    · exact hgo.error e hr
    · exact hgo.ok a hr

end Steady

/-- The values of the metrics in a document are read back from their written forms. -/
def TestPlan.ValuesReadBack (plan : TestPlan) (now : Instant) (document : Node) : Prop :=
  ∀ b ∈ plan.metrics.bindings, ∀ place : Place, place.LiesIn document →
    let value := plan.metricValue now document place b.metric
    value.isFinite = true ∧ Json.float? (Decimal.Literal.ofFiniteFloat value) = some value

namespace Steady

variable {u : Upkeep σ} {now : Instant} (plan : TestPlan) {document : Node} (o : OrganisationId)

theorem recordValidity (code : Code) :
    Steady u now u.Settled u.Settled (TestPlan.recordValidity code) :=
  context (fun _ _ => (flush _ _).bind fun _ => pure ()) fun _ _ => rfl

theorem testActivity (activity : Place) :
    Steady u now u.Settled u.Settled (plan.testActivity o document activity) := by
  unfold TestPlan.testActivity
  cases TestPlan.identifier? activity.node with
  | some name => exact (pure name).bind fun _ => context (fun _ _ => flush _ _) fun _ _ => rfl
  | none => exact nextMissing.bind fun _ => context (fun _ _ => flush _ _) fun _ _ => rfl

theorem testOrganisation (node : Place) :
    Steady u now u.Settled u.Settled (plan.testOrganisation o document node) :=
  context (fun _ _ => flush _ _) fun _ _ => rfl

theorem concludePackage : Steady u now u.Settled u.Settled TestPlan.concludePackage := by
  refine context (fun c _ => ?_) fun _ _ => rfl
  refine (aggregate _ _).of_pending.bind fun rows => ?_
  refine (stage (w := .setStatus c.packageId .tested) trivial).bind fun _ => ?_
  exact (commit _).bind fun _ => pure rows

/-- Recording the run does not fail testing. -/
theorem recordTestrun : Steady u now u.Settled u.Settled TestPlan.recordTestrun := by
  refine context (fun c _ => quietly (onStore (fun s hs => ?_) fun _ => commit _)) fun _ _ => rfl
  obtain ⟨s', hcall, hs'⟩ :=
    u.stage (w := .recordTestrun c.packageId c.runtimeId) (u.pending hs) trivial
  exact ⟨(), s', hcall, hs'⟩

section Values

variable (hvalues : plan.ValuesReadBack now document)
include hvalues

theorem runMetrics (level : Level) {place : Place}
    (hplace : place.LiesIn document) :
    Steady u now u.Settled u.Settled (plan.runMetrics o level document place) := by
  refine sum fun b hb => ?_
  rw [plan.metrics.agree.forLevel_eq] at hb
  have hread := hvalues b (List.mem_filter.1 hb).1 place hplace
  refine context (fun c hnow => ?_) fun _ _ => rfl
  subst hnow
  refine (stage ?_).of_pending.bind fun _ => (commit _).bind fun _ => pure 1
  exact hread

theorem testNode {node : Place} (hnode : node.LiesIn document) :
    Steady u now u.Settled u.Settled (plan.testNode o document node) := by
  refine (runMetrics plan o hvalues .organisation hnode).bind fun infos => ?_
  exact (testOrganisation plan o node).bind fun results => pure (results, infos)

theorem testNodes (written : Nat × Nat) {nodes : List Place}
    (hnodes : ∀ node ∈ nodes, node.LiesIn document) :
    Steady u now u.Settled u.Settled (plan.testNodes o document written nodes) := by
  induction nodes generalizing written with
  | nil => exact pure written
  | cons node rest ih =>
    refine (testNode plan o hvalues (hnodes node List.mem_cons_self)).bind fun n => ?_
    exact ih _ fun other hother => hnodes other (List.mem_cons_of_mem node hother)

theorem testTarget (organisations : Selector) (t : Target) :
    Steady u now u.Settled u.Settled (plan.testTarget organisations document t) := by
  have htop : (Place.top document).LiesIn document := rfl
  have hnodes : ∀ node ∈ organisations.selectPlaces document (.top document),
      node.LiesIn document := fun node hnode =>
    Place.liesIn_of_mem_descendantsOrSelf htop ((organisations.selectPlaces_sublist htop).subset hnode)
  unfold TestPlan.testTarget
  cases Selector.parse t.activitiesSelector with
  | error e => exact throw _
  | ok selector =>
    refine (sum fun a _ => testActivity plan t.organisationId a).bind fun results => ?_
    have hinfos := runMetrics (u := u) plan t.organisationId hvalues .activity htop
    split
    · exact (pure 0).bind fun infos => testNodes plan _ hvalues _ hnodes
    · exact hinfos.bind fun infos => testNodes plan _ hvalues _ hnodes

theorem testTargets (organisations : Selector) (written : Nat × Nat) (targets : List Target) :
    Steady u now u.Settled u.Settled (plan.testTargets organisations document written targets) := by
  induction targets generalizing written with
  | nil => exact pure written
  | cons t rest ih => exact (testTarget plan hvalues organisations t).bind fun n => ih _

theorem checkDocument : Steady u now u.Settled u.Settled (plan.checkDocument document) := by
  refine context (fun c _ => onStore (fun _ hs => u.organisationsOf hs c.packageId) fun targets => ?_)
    fun _ _ => rfl
  rcases targets with _ | ⟨t, rest⟩
  · exact throw _
  dsimp only
  cases Selector.parse plan.organisationSelector with
  | error e => exact throw _
  | ok organisations =>
    refine (testTargets plan hvalues organisations _ _).bind fun written => ?_
    exact concludePackage.bind fun rows => pure _

end Values

theorem checkText {text : String}
    (hvalues : ∀ document, Markup.parse? text = some document → plan.ValuesReadBack now document) :
    Steady u now u.Settled u.Settled (plan.checkText text) := by
  unfold TestPlan.checkText
  cases hdocument : Markup.parse? text with
  | none => exact (recordValidity .fail).bind fun _ => pure _
  | some document =>
    exact (recordValidity .pass).bind fun _ => checkDocument plan (hvalues document hdocument)

theorem checkFile {read : σ → Option String}
    (hvalues : ∀ s, u.Settled s → ∀ text, read s = some text →
      ∀ document, Markup.parse? text = some document → plan.ValuesReadBack now document) :
    Steady u now u.Settled u.Settled (plan.checkFile read) := by
  unfold TestPlan.checkFile
  refine context (fun c _ => ?_) fun _ _ => rfl
  have hremoved {m : Testing σ PackageOutcome} (hm : Steady u now u.Settled u.Settled m) :
      Steady u now u.Settled u.Settled (if plan.removeResults then do
        Testing.orAbort (Datastore.stage (.deleteResults c.packageId))
        Testing.commit ("Remove results for package " ++ c.packageId.text)
        m
      else m) := by
    split
    · refine (stage (w := .deleteResults c.packageId) trivial).of_pending.bind fun _ => ?_
      exact (commit _).bind fun _ => hm
    · exact hm
  refine hremoved (get (fun s _ hs => ?_) fun _ _ => rfl)
  cases htext : read s.store with
  | some text =>
    refine (checkText plan (hvalues s.store hs text htext)).bind fun outcome => ?_
    exact recordTestrun.bind fun _ => pure outcome
  | none =>
    refine (recordValidity .fail).bind fun _ => ?_
    exact (pure _).bind fun outcome => recordTestrun.bind fun _ => pure outcome

end Steady

end DataQuality
