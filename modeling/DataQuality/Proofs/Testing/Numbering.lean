import DataQuality.Proofs.Decimal.Digits
import DataQuality.Proofs.Testing.Sessions

/-!
# The numbering of made-up identifiers

Testing is carried out with a witness, which notes each visit of an activity and the
identifier that the activity is tested under. Erasing the notes gives testing as it is.
Within a run, the activities without an identifier are given the numbers from one on, in
the order in which they are visited: whatever calls of the store fail, and however the
packages and runs follow each other.
-/
namespace DataQuality

open Markup (Node Place)

/-- A visit of an activity in a run, and the identifier that it is tested under. -/
structure Visit where
  runtimeId : RuntimeId
  packageId : PackageId
  activity : Place
  given : String

/-- The identifiers that are given to activities without one, in the order of the visits. -/
def Visit.madeUpNames (visits : List Visit) : List String :=
  (visits.filter fun v => (TestPlan.identifier? v.activity.node).isNone).map (·.given)

theorem Visit.madeUpNames_append (first second : List Visit) :
    madeUpNames (first ++ second) = madeUpNames first ++ madeUpNames second := by
  simp [madeUpNames]

/-- The identifiers that are made up after some others. -/
def missingNames (before count : Nat) : List String :=
  (List.range count).map fun k => "MISSING-" ++ Decimal.ofNat (before + k + 1)

theorem missingNames_add (before a b : Nat) :
    missingNames before (a + b) = missingNames before a ++ missingNames (before + a) b := by
  unfold missingNames
  rw [List.range_add, List.map_append, List.map_map]
  simp only [Function.comp_def, Nat.add_assoc]

/-- No identifier is made up twice. -/
theorem nodup_missingNames (before count : Nat) : (missingNames before count).Nodup := by
  refine List.Nodup.map (fun i j h => ?_) List.nodup_range
  have hdigits : Decimal.natDigits (before + i + 1) = Decimal.natDigits (before + j + 1) :=
    String.ofList_injective (String.append_right_inj _ |>.1 h)
  have hnumber := congrArg Decimal.natOfDigits hdigits
  rw [Decimal.natOfDigits_natDigits, Decimal.natOfDigits_natDigits] at hnumber
  omega

/-- A store, and the visits that were made while it was in use. -/
structure VisitedStore (σ : Type) where
  inner : σ
  visits : List Visit

namespace VisitedStore

variable {σ α : Type}

def around (inner : σ) : VisitedStore σ := ⟨inner, []⟩

def call (act : StoreM σ α) : StoreM (VisitedStore σ) α := fun s =>
  ((act.run s.inner).1, { s with inner := (act.run s.inner).2 })

instance [Datastore σ] : Datastore (VisitedStore σ) where
  ledger s := Datastore.ledger s.inner
  stage w := call (Datastore.stage w)
  startRun now := call (Datastore.startRun now)
  aggregate r p := call (Datastore.aggregate r p)
  organisationsOf p := call (Datastore.organisationsOf p)
  commit message := call (Datastore.commit message)
  rollback := call Datastore.rollback

end VisitedStore

/-- The state of testing without the notes. -/
def TestState.erased {σ : Type} (s : TestState (VisitedStore σ)) : TestState σ :=
  ⟨s.context, s.store.inner⟩

namespace TestPlan

variable {σ : Type} [Datastore σ]

/-- A way to test an activity of an organisation. -/
abbrev Visitor (σ : Type) := OrganisationId → Node → Place → Testing σ Nat

section Visiting

variable (plan : TestPlan) (visit : Visitor σ)

/-- Tests what belongs to an organisation, its activities in this way. -/
def testTargetBy (organisations : Selector) (document : Node) (t : Target) :
    Testing σ (Nat × Nat) := do
  match Selector.parse t.activitiesSelector with
  | .error e => throw (.invalidActivitiesSelector t.organisationId e)
  | .ok selector =>
    let root := Place.top document
    let activities := selector.selectPlaces document root
    let results ← Testing.sum (visit t.organisationId document) activities
    let infos ←
      if activities.isEmpty then pure 0
      else plan.runMetrics t.organisationId .activity document root
    plan.testNodes t.organisationId document (results, infos)
      (organisations.selectPlaces document root)

/-- Tests what belongs to each organisation, the activities in this way. -/
def testTargetsBy (organisations : Selector) (document : Node) :
    Nat × Nat → List Target → Testing σ (Nat × Nat)
  | written, [] => pure written
  | written, t :: rest => do
    let (results, infos) ← plan.testTargetBy visit organisations document t
    testTargetsBy organisations document (written.1 + results, written.2 + infos) rest

/-- Tests a document, its activities in this way. -/
def checkDocumentBy (document : Node) : Testing σ PackageOutcome := do
  let c ← Testing.context
  match ← Testing.onStore (Datastore.organisationsOf c.packageId) with
  | .error e => throw (.store e)
  | .ok [] => throw (.noOrganisations c.packageId)
  | .ok targets =>
    match Selector.parse plan.organisationSelector with
    | .error e => throw (.invalidOrganisationSelector e)
    | .ok organisations =>
      let (results, infos) ← plan.testTargetsBy visit organisations document (0, 0) targets
      let rows ← concludePackage
      pure (.tested results infos rows.length)

/-- Tests the text of a document, its activities in this way. -/
def checkTextBy (text : String) : Testing σ PackageOutcome := do
  match Markup.parse? text with
  | none =>
    recordValidity .fail
    pure .invalidDocument
  | some document =>
    recordValidity .pass
    plan.checkDocumentBy visit document

/-- Tests a file, its activities in this way. -/
def checkFileBy (read : σ → Option String) : Testing σ PackageOutcome := do
  let c ← Testing.context
  if plan.removeResults then
    Testing.orAbort (Datastore.stage (.deleteResults c.packageId))
    Testing.commit ("Remove results for package " ++ c.packageId.text)
  let outcome ←
    match read (← get).store with
    | some text => plan.checkTextBy visit text
    | none => do
      recordValidity .fail
      pure .invalidDocument
  recordTestrun
  pure outcome

theorem testTargetsBy_testActivity (organisations : Selector) (document : Node) (written : Nat × Nat)
    (targets : List Target) :
    plan.testTargetsBy (σ := σ) plan.testActivity organisations document written targets =
      plan.testTargets organisations document written targets := by
  induction targets generalizing written with
  | nil => rfl
  | cons t rest ih =>
    unfold testTargetsBy testTargets
    exact bind_congr fun n => ih _

/-- Testing is testing with activities tested as they are. -/
theorem checkFileBy_testActivity (read : σ → Option String) :
    plan.checkFileBy plan.testActivity read = plan.checkFile read := by
  have hdocument (document : Node) :
      plan.checkDocumentBy (σ := σ) plan.testActivity document = plan.checkDocument document := by
    simp only [checkDocumentBy, testTargetsBy_testActivity]
    rfl
  simp only [checkFileBy, checkTextBy, hdocument]
  rfl

end Visiting

def nameOf (activity : Place) : Testing σ String :=
  match identifier? activity.node with
  | some name => pure name
  | none => Testing.nextMissing

/-- Tests an activity and its transactions under an identifier. -/
def testUnder (plan : TestPlan) (name : String) (o : OrganisationId) (document : Node)
    (activity : Place) : Testing σ Nat := do
  let c ← Testing.context
  let verdicts := plan.activityVerdicts (identifier? activity.node).isNone document activity
  Testing.flush (results c (some name) (hierarchy activity.node) o verdicts)
    ("Test activity " ++ name)

theorem testActivity_eq (plan : TestPlan) (o : OrganisationId) (document : Node) (activity : Place) :
    plan.testActivity (σ := σ) o document activity = (do
      let name ← nameOf activity
      plan.testUnder name o document activity) := by
  unfold testActivity nameOf testUnder
  cases identifier? activity.node <;> rfl

def noteVisit (activity : Place) (name : String) : Testing (VisitedStore σ) Unit := fun s =>
  let visit : Visit := ⟨s.context.runtimeId, s.context.packageId, activity, name⟩
  (.ok (), { s with store := { s.store with visits := s.store.visits ++ [visit] } })

/-- The identifier that an activity is tested under, which is noted. -/
def notedName (activity : Place) : Testing (VisitedStore σ) String := do
  let name ← nameOf activity
  noteVisit activity name
  pure name

def testNoted (plan : TestPlan) : Visitor (VisitedStore σ) := fun o document activity => do
  let name ← notedName activity
  plan.testUnder name o document activity

end TestPlan

/-- With its notes erased, the one part of testing is the other. The visits that it notes
are of its run, and count on from the identifiers that were made up before. -/
structure Notes {σ α : Type} (noted : Testing (VisitedStore σ) α) (plain : Testing σ α) : Prop where
  erased (s : TestState (VisitedStore σ)) :
    plain.run s.erased = ((noted.run s).1, (noted.run s).2.erased)
  numbered (s : TestState (VisitedStore σ)) :
    ∃ visits n, (noted.run s).2.store.visits = s.store.visits ++ visits ∧
      (noted.run s).2.context = s.context.madeUp n ∧
      (∀ v ∈ visits, v.runtimeId = s.context.runtimeId) ∧
      Visit.madeUpNames visits = missingNames s.context.missing n

namespace Notes

variable {σ α β : Type}

/-- A part without visits. -/
theorem of_run {noted : Testing (VisitedStore σ) α} {plain : Testing σ α}
    (h : ∀ s, plain.run s.erased = ((noted.run s).1, (noted.run s).2.erased))
    (hvisits : ∀ s, (noted.run s).2.store.visits = s.store.visits)
    (hcontext : ∀ s, (noted.run s).2.context = s.context) : Notes noted plain where
  erased := h
  numbered s := ⟨[], 0, by rw [hvisits, List.append_nil], hcontext s, by simp, rfl⟩

theorem pure (a : α) : Notes (σ := σ) (Pure.pure a) (Pure.pure a) :=
  of_run (fun _ => rfl) (fun _ => rfl) fun _ => rfl

theorem throw (e : TestingError) :
    Notes (σ := σ) (α := α) (MonadExcept.throw e) (MonadExcept.throw e) :=
  of_run (fun _ => rfl) (fun _ => rfl) fun _ => rfl

theorem context : Notes (σ := σ) Testing.context Testing.context :=
  of_run (fun _ => rfl) (fun _ => rfl) fun _ => rfl

theorem onStore (act : StoreM σ α) :
    Notes (Testing.onStore (VisitedStore.call act)) (Testing.onStore act) :=
  of_run (fun _ => rfl) (fun _ => rfl) fun _ => rfl

/-- The second part counts on from the first one. -/
theorem bind {noted : Testing (VisitedStore σ) α} {plain : Testing σ α}
    {notedNext : α → Testing (VisitedStore σ) β} {plainNext : α → Testing σ β}
    (h : Notes noted plain) (hnext : ∀ a, Notes (notedNext a) (plainNext a)) :
    Notes (noted >>= notedNext) (plain >>= plainNext) where
  erased s := by
    rw [run_bind, run_bind, h.erased s]
    rcases noted.run s with ⟨r, s₁⟩
    cases r with
    | ok a => exact (hnext a).erased s₁
    | error e => rfl
  numbered s := by
    obtain ⟨first, n, hfirst, hcontext, hruns, hnames⟩ := h.numbered s
    rw [run_bind]
    rcases hrun : noted.run s with ⟨r, s₁⟩
    rw [hrun] at hfirst hcontext
    cases r with
    | error e => exact ⟨first, n, hfirst, hcontext, hruns, hnames⟩
    | ok a =>
      obtain ⟨second, m, hsecond, hcontext', hruns', hnames'⟩ := (hnext a).numbered s₁
      dsimp only at hfirst hcontext
      have hmissing : s₁.context.missing = s.context.missing + n := by rw [hcontext]; rfl
      refine ⟨first ++ second, n + m, ?_, ?_, ?_, ?_⟩
      · rw [← List.append_assoc, ← hfirst]
        exact hsecond
      · rw [RunContext.madeUp, ← Nat.add_assoc, ← hmissing]
        refine hcontext'.trans ?_
        rw [hcontext]
        rfl
      · intro v hv
        rcases List.mem_append.1 hv with hv | hv
        · exact hruns v hv
        · rw [hruns' v hv, hcontext]
          rfl
      · rw [Visit.madeUpNames_append, missingNames_add, ← hmissing, hnames, hnames']

theorem get {notedNext : TestState (VisitedStore σ) → Testing (VisitedStore σ) α}
    {plainNext : TestState σ → Testing σ α}
    (hnext : ∀ s, Notes (notedNext s) (plainNext s.erased)) :
    Notes (MonadState.get >>= notedNext) (MonadState.get >>= plainNext) where
  erased s := (hnext s).erased s
  numbered s := (hnext s).numbered s

theorem sum {notedPart : β → Testing (VisitedStore σ) Nat} {plainPart : β → Testing σ Nat}
    (h : ∀ b, Notes (notedPart b) (plainPart b)) (items : List β) :
    Notes (Testing.sum notedPart items) (Testing.sum plainPart items) := by
  induction items with
  | nil => exact pure 0
  | cons b rest ih => exact (h b).bind fun n => ih.bind fun m => pure (n + m)

/-- A part whose error is ignored. -/
theorem quietly {noted : Testing (VisitedStore σ) Unit} {plain : Testing σ Unit}
    (h : Notes noted plain) :
    Notes (tryCatch noted fun _ => Pure.pure ()) (tryCatch plain fun _ => Pure.pure ()) := by
  constructor
  · intro s
    rw [run_quietly, run_quietly, h.erased]
  · intro s
    rw [run_quietly]
    exact h.numbered s

/-- A visit is noted with the identifier that is given. -/
theorem notedName (activity : Place) :
    Notes (σ := σ) (TestPlan.notedName activity) (TestPlan.nameOf activity) := by
  unfold TestPlan.notedName TestPlan.nameOf
  cases hfound : TestPlan.identifier? activity.node with
  | some name =>
    refine ⟨fun _ => rfl, fun s => ?_⟩
    refine ⟨[⟨s.context.runtimeId, s.context.packageId, activity, name⟩], 0, rfl, rfl, by simp, ?_⟩
    simp [Visit.madeUpNames, missingNames, hfound]
  | none =>
    refine ⟨fun _ => rfl, fun s => ?_⟩
    refine ⟨[⟨s.context.runtimeId, s.context.packageId, activity, s.context.nextMissing.1⟩], 1, rfl,
      rfl, by simp, ?_⟩
    simp [Visit.madeUpNames, missingNames, RunContext.nextMissing, hfound]

section Calls

variable [Datastore σ]

theorem orAbort (act : StoreM σ α) :
    Notes (Testing.orAbort (VisitedStore.call act)) (Testing.orAbort act) := by
  refine (onStore act).bind fun result => ?_
  cases result with
  | ok a => exact pure a
  | error e => exact (onStore Datastore.rollback).bind fun _ => throw _

theorem stage (w : Write) :
    Notes (σ := σ) (Testing.orAbort (Datastore.stage w)) (Testing.orAbort (Datastore.stage w)) :=
  orAbort (Datastore.stage w)

theorem commit (message : String) :
    Notes (σ := σ) (Testing.commit message) (Testing.commit message) :=
  orAbort (Datastore.commit message)

theorem stageAll (ws : List Write) :
    Notes (σ := σ) (Testing.stageAll ws) (Testing.stageAll ws) := by
  induction ws with
  | nil => exact pure ()
  | cons w rest ih => exact (stage w).bind fun _ => ih

theorem flush (batch : List TestResult) (message : String) :
    Notes (σ := σ) (Testing.flush batch message) (Testing.flush batch message) := by
  unfold Testing.flush
  split
  · exact pure 0
  · exact (stageAll _).bind fun _ => (commit message).bind fun _ => pure _

end Calls

section Parts

variable [Datastore σ] (plan : TestPlan) (o : OrganisationId) (document : Node)

theorem recordValidity (code : Code) :
    Notes (σ := σ) (TestPlan.recordValidity code) (TestPlan.recordValidity code) :=
  context.bind fun _ => (flush _ _).bind fun _ => pure ()

theorem testNoted (activity : Place) :
    Notes (σ := σ) (plan.testNoted o document activity) (plan.testActivity o document activity) := by
  rw [TestPlan.testActivity_eq]
  exact (notedName activity).bind fun _ => context.bind fun _ => flush _ _

theorem testOrganisation (node : Place) :
    Notes (σ := σ) (plan.testOrganisation o document node) (plan.testOrganisation o document node) :=
  context.bind fun _ => flush _ _

theorem runMetrics (level : Level) (place : Place) :
    Notes (σ := σ) (plan.runMetrics o level document place) (plan.runMetrics o level document place) :=
  sum (fun _ => context.bind fun _ => (stage _).bind fun _ => (commit _).bind fun _ => pure 1) _

theorem testNodes (written : Nat × Nat) (nodes : List Place) :
    Notes (σ := σ) (plan.testNodes o document written nodes)
      (plan.testNodes o document written nodes) := by
  induction nodes generalizing written with
  | nil => exact pure written
  | cons node rest ih =>
    have hnode : Notes (σ := σ) (plan.testNode o document node) (plan.testNode o document node) :=
      (runMetrics plan o document .organisation node).bind fun _ =>
        (testOrganisation plan o document node).bind fun _ => pure _
    exact hnode.bind fun _ => ih _

theorem testTarget (organisations : Selector) (t : Target) :
    Notes (σ := σ) (plan.testTargetBy plan.testNoted organisations document t)
      (plan.testTargetBy plan.testActivity organisations document t) := by
  unfold TestPlan.testTargetBy
  cases Selector.parse t.activitiesSelector with
  | error e => exact throw _
  | ok selector =>
    refine (sum (testNoted plan t.organisationId document) _).bind fun results => ?_
    split
    · exact (pure 0).bind fun infos => testNodes plan _ document _ _
    · exact (runMetrics plan _ document _ _).bind fun infos => testNodes plan _ document _ _

theorem testTargets (organisations : Selector) (written : Nat × Nat) (targets : List Target) :
    Notes (σ := σ) (plan.testTargetsBy plan.testNoted organisations document written targets)
      (plan.testTargetsBy plan.testActivity organisations document written targets) := by
  induction targets generalizing written with
  | nil => exact pure written
  | cons t rest ih => exact (testTarget plan document organisations t).bind fun _ => ih _

theorem concludePackage : Notes (σ := σ) TestPlan.concludePackage TestPlan.concludePackage :=
  context.bind fun _ => (orAbort (Datastore.aggregate _ _)).bind fun _ =>
    (stage _).bind fun _ => (commit _).bind fun _ => pure _

theorem checkDocument :
    Notes (σ := σ) (plan.checkDocumentBy plan.testNoted document)
      (plan.checkDocumentBy plan.testActivity document) := by
  refine context.bind fun c => (onStore (Datastore.organisationsOf c.packageId)).bind fun found => ?_
  rcases found with e | _ | ⟨t, rest⟩
  · exact throw _
  · exact throw _
  · dsimp only
    cases Selector.parse plan.organisationSelector with
    | error e => exact throw _
    | ok organisations =>
      refine (testTargets plan document organisations _ _).bind fun written => ?_
      exact concludePackage.bind fun rows => pure _

theorem checkText (text : String) :
    Notes (σ := σ) (plan.checkTextBy plan.testNoted text)
      (plan.checkTextBy plan.testActivity text) := by
  unfold TestPlan.checkTextBy
  cases Markup.parse? text with
  | none => exact (recordValidity .fail).bind fun _ => pure _
  | some document => exact (recordValidity .pass).bind fun _ => checkDocument plan document

/-- Recording the run does not fail testing. -/
theorem recordTestrun : Notes (σ := σ) TestPlan.recordTestrun TestPlan.recordTestrun := by
  refine context.bind fun c => quietly ?_
  refine (onStore (Datastore.stage (.recordTestrun c.packageId c.runtimeId))).bind fun result => ?_
  cases result with
  | ok _ => exact commit _
  | error e => exact pure ()

theorem checkFile (read : σ → Option String) :
    Notes (plan.checkFileBy plan.testNoted fun s => read s.inner) (plan.checkFile read) := by
  rw [← TestPlan.checkFileBy_testActivity]
  unfold TestPlan.checkFileBy
  refine context.bind fun c => ?_
  have hremoved {noted : Testing (VisitedStore σ) PackageOutcome} {plain : Testing σ PackageOutcome}
      (h : Notes noted plain) :
      Notes (if plan.removeResults then do
        Testing.orAbort (Datastore.stage (.deleteResults c.packageId))
        Testing.commit ("Remove results for package " ++ c.packageId.text)
        noted
      else noted) (if plan.removeResults then do
        Testing.orAbort (Datastore.stage (.deleteResults c.packageId))
        Testing.commit ("Remove results for package " ++ c.packageId.text)
        plain
      else plain) := by
    split
    · exact (stage _).bind fun _ => (commit _).bind fun _ => h
    · exact h
  refine hremoved (get fun s => ?_)
  change Notes (match read s.store.inner with | some text => _ | none => _)
    (match read s.store.inner with | some text => _ | none => _)
  cases read s.store.inner with
  | some text => exact (checkText plan text).bind fun _ => recordTestrun.bind fun _ => pure _
  | none => exact (recordValidity .fail).bind fun _ => recordTestrun.bind fun _ => pure _

end Parts

end Notes

/-- A file that is to be tested at some time as a package of a run. -/
structure Submission (σ : Type) where
  now : Instant
  /-- Gives the text of the file, unless there is none to be read. -/
  read : σ → Option String
  runtimeId : RuntimeId
  packageId : PackageId

namespace TestSession

variable {σ : Type}

/-- The session without the notes. -/
def erased (session : TestSession (VisitedStore σ)) : TestSession σ :=
  ⟨session.store.inner, session.runs⟩

/-- The visits of a run. -/
def visitsOf (session : TestSession (VisitedStore σ)) (r : RuntimeId) : List Visit :=
  session.store.visits.filter (·.runtimeId == r)

/-- In each run, the activities without an identifier have been given the numbers from one
on, and the session knows how many there were. -/
structure Numbered (session : TestSession (VisitedStore σ)) : Prop where
  contexts : ∀ r c, session.runs.lookup r = some c → c.runtimeId = r
  names : ∀ r, Visit.madeUpNames (session.visitsOf r) = missingNames 0 (session.madeUp r)

theorem Numbered.contextFor {session : TestSession (VisitedStore σ)} (h : session.Numbered)
    (r : RuntimeId) (p : PackageId) (now : Instant) :
    (session.contextFor r p now).runtimeId = r ∧
      (session.contextFor r p now).missing = session.madeUp r := by
  unfold TestSession.contextFor madeUp
  cases hlookup : session.runs.lookup r with
  | none => exact ⟨rfl, rfl⟩
  | some c => exact ⟨h.contexts r c hlookup, rfl⟩

/-- Visits that count on in their run leave every run numbered. -/
theorem Numbered.visited {session : TestSession (VisitedStore σ)} (h : session.Numbered)
    {c : RunContext} (hmissing : c.missing = session.madeUp c.runtimeId) {visits : List Visit}
    (hruns : ∀ v ∈ visits, v.runtimeId = c.runtimeId) {n : Nat}
    (hnames : Visit.madeUpNames visits = missingNames c.missing n) (inner : σ) :
    Numbered ⟨⟨inner, session.store.visits ++ visits⟩,
      (c.runtimeId, c.madeUp n) :: session.runs.filter (·.1 != c.runtimeId)⟩ where
  contexts r c' hlookup := by
    rw [lookup_replaced] at hlookup
    split at hlookup
    · next hr =>
      obtain rfl := Option.some.inj hlookup
      exact hr.symm
    · exact h.contexts r c' hlookup
  names r := by
    have hbefore := h.names r
    unfold visitsOf at hbefore ⊢
    rw [List.filter_append, Visit.madeUpNames_append, hbefore]
    unfold madeUp at hmissing ⊢
    rw [lookup_replaced]
    by_cases hr : r = c.runtimeId
    · have hnew : visits.filter (·.runtimeId == r) = visits := by
        refine List.filter_eq_self.2 fun v hv => ?_
        rw [hruns v hv, hr]
        exact beq_self_eq_true _
      rw [if_pos hr, hnew, hnames, hr, ← hmissing]
      have hadd := missingNames_add 0 c.missing n
      rw [Nat.zero_add] at hadd
      exact hadd.symm
    · have hnone : visits.filter (·.runtimeId == r) = [] := by
        refine List.filter_eq_nil_iff.2 fun v hv => ?_
        rw [hruns v hv, beq_iff_eq]
        exact fun hsame => hr hsame.symm
      rw [if_neg hr, hnone]
      exact List.append_nil _

variable [Datastore σ] (plan : TestPlan)

/-- Tests a file as a package of a run and notes the visits. -/
def checkNoted (f : Submission σ) (session : TestSession (VisitedStore σ)) :
    Except TestingError PackageOutcome × TestSession (VisitedStore σ) :=
  let tested := (plan.checkFileBy plan.testNoted fun s => f.read s.inner).run
    ⟨session.contextFor f.runtimeId f.packageId f.now, session.store⟩
  (tested.1, ⟨tested.2.store,
    (f.runtimeId, tested.2.context) :: session.runs.filter (·.1 != f.runtimeId)⟩)

/-- Tests files one after the other. -/
def checkAll : List (Submission σ) → TestSession σ →
    List (Except TestingError PackageOutcome) × TestSession σ
  | [], session => ([], session)
  | f :: rest, session =>
    let (outcome, session) := session.check plan f.now f.read f.runtimeId f.packageId
    let (outcomes, session) := checkAll rest session
    (outcome :: outcomes, session)

def checkAllNoted : List (Submission σ) → TestSession (VisitedStore σ) →
    List (Except TestingError PackageOutcome) × TestSession (VisitedStore σ)
  | [], session => ([], session)
  | f :: rest, session =>
    let (outcome, session) := session.checkNoted plan f
    let (outcomes, session) := checkAllNoted rest session
    (outcome :: outcomes, session)

/-- Testing one more file keeps the numbering of every run, and is testing the file once
the notes are erased. -/
theorem checkNoted_numbered (f : Submission σ) {session : TestSession (VisitedStore σ)}
    (h : session.Numbered) :
    let noted := session.checkNoted plan f
    session.erased.check plan f.now f.read f.runtimeId f.packageId = (noted.1, noted.2.erased) ∧
      noted.2.Numbered := by
  have hnotes := Notes.checkFile plan f.read
  obtain ⟨hrun, hmissing⟩ := h.contextFor f.runtimeId f.packageId f.now
  refine ⟨check_eq session.erased (hnotes.erased ⟨_, session.store⟩), ?_⟩
  unfold checkNoted
  generalize session.contextFor f.runtimeId f.packageId f.now = c at hrun hmissing
  obtain ⟨visits, n, hvisits, hcontext, hruns, hnames⟩ := hnotes.numbered ⟨c, session.store⟩
  generalize (plan.checkFileBy plan.testNoted fun s => f.read s.inner).run ⟨c, session.store⟩ = tested
    at hvisits hcontext ⊢
  obtain ⟨outcome, ⟨c', ⟨inner, visits'⟩⟩⟩ := tested
  dsimp only at hvisits hcontext hruns hnames ⊢
  rw [← hrun] at hmissing ⊢
  rw [hvisits, hcontext]
  exact h.visited hmissing hruns hnames inner

theorem checkAllNoted_numbered (files : List (Submission σ)) {session : TestSession (VisitedStore σ)}
    (h : session.Numbered) :
    let noted := session.checkAllNoted plan files
    session.erased.checkAll plan files = (noted.1, noted.2.erased) ∧ noted.2.Numbered := by
  induction files generalizing session with
  | nil => exact ⟨rfl, h⟩
  | cons f rest ih =>
    obtain ⟨hcheck, hnumbered⟩ := checkNoted_numbered plan f h
    obtain ⟨hrest, hlast⟩ := ih hnumbered
    refine ⟨?_, hlast⟩
    unfold checkAll checkAllNoted
    rw [hcheck]
    dsimp only
    rw [hrest]

/-- However files are tested one after the other, and whatever calls of the store fail, in
each run the activities without an identifier are given `MISSING-1`, `MISSING-2` and so on,
in the order in which they are visited; none of these identifiers is given twice. Noting
the visits changes no outcome and nothing that the session keeps. -/
theorem names_of_visits (files : List (Submission σ)) (store : σ) :
    let noted := (start (VisitedStore.around store)).checkAllNoted plan files
    (start store).checkAll plan files = (noted.1, noted.2.erased) ∧
      ∀ r, let names := Visit.madeUpNames (noted.2.visitsOf r)
        names = (List.range names.length).map (fun k => "MISSING-" ++ Decimal.ofNat (k + 1)) ∧
          names.Nodup := by
  intro noted
  have hstart : (start (VisitedStore.around store)).Numbered := ⟨fun _ _ h => (by cases h), fun _ => rfl⟩
  obtain ⟨herased, hnumbered⟩ := checkAllNoted_numbered plan files hstart
  refine ⟨herased, fun r => ?_⟩
  have hnames := hnumbered.names r
  have hcount : (missingNames 0 (noted.2.madeUp r)).length = noted.2.madeUp r := by
    simp [missingNames]
  intro names
  have hall : names = missingNames 0 (noted.2.madeUp r) := hnames
  rw [hall, hcount]
  refine ⟨?_, nodup_missingNames 0 _⟩
  simp only [missingNames, Nat.zero_add]

end TestSession

end DataQuality
