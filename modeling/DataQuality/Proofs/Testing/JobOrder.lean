import DataQuality.CommandLine.Execution
import DataQuality.Proofs.Store.Opening
import DataQuality.Proofs.Testing.Packages
import DataQuality.Proofs.Testing.Sessions
import DataQuality.Proofs.Worker

/-!
# The order of jobs

Jobs of different packages in different runs do not get in each other's way, although they share the
store and the memory of the runs. Each leaves the record of its package that it would leave alone, and
fails if it would fail alone. So the order in which they wait does not matter, nor does it matter at
which times they are carried out.
-/
namespace DataQuality

open Markup (Node Place)

namespace TestPlan

variable (plan : TestPlan) (document : Node) (o : OrganisationId)

/-- The time at which a test begins plays no part in its results. -/
theorem activitiesResults_now (r : RuntimeId) (p : PackageId) (now now' : Instant) (n : Nat)
    (activities : List Place) :
    plan.activitiesResults document o ⟨r, p, now, n⟩ activities =
      plan.activitiesResults document o ⟨r, p, now', n⟩ activities := by
  induction activities generalizing n with
  | nil => rfl
  | cons a rest ih => exact congrArg (plan.activityResults document ⟨r, p, now', n⟩ o a ++ ·) (ih _)

theorem targetsResults_now (nodes : List Place) (r : RuntimeId) (p : PackageId) (now now' : Instant)
    (n : Nat) (targets : List Target) :
    plan.targetsResults document nodes ⟨r, p, now, n⟩ targets =
      plan.targetsResults document nodes ⟨r, p, now', n⟩ targets := by
  induction targets generalizing n with
  | nil => rfl
  | cons t rest ih =>
    have hactivities := plan.activitiesResults_now document t.organisationId r p now now' n
      (activitiesOf document t)
    unfold targetsResults targetResults
    rw [hactivities]
    exact congrArg (_ ++ ·) (ih _)

theorem recordAfter_now (r : RuntimeId) (p : PackageId) (now now' : Instant) (n : Nat)
    (targets : List Target) (record : PackageRecord) (document? : Option Node) :
    plan.recordAfter ⟨r, p, now, n⟩ targets record document? =
      plan.recordAfter ⟨r, p, now', n⟩ targets record document? := by
  have hresults : plan.contentResults ⟨r, p, now, n⟩ targets document? =
      plan.contentResults ⟨r, p, now', n⟩ targets document? := by
    cases document? with
    | none => rfl
    | some document =>
      have hdocument : plan.documentResults ⟨r, p, now, n⟩ targets document =
          plan.documentResults ⟨r, p, now', n⟩ targets document := by
        unfold documentResults
        split
        · rfl
        · exact plan.targetsResults_now document _ r p now now' n _
      exact congrArg (_ :: ·) hdocument
  unfold recordAfter
  rw [hresults]

end TestPlan

namespace TestSession

variable {σ : Type} [Datastore σ]

/-- Carries out a job: its file is tested, and the job fails if testing does. -/
def carryOut (plan : TestPlan) (clock : Job → Instant) (read : Job → σ → Option String) (job : Job)
    (session : TestSession σ) : Except TestingError Unit × TestSession σ :=
  let (outcome, after) :=
    session.check plan (clock job) (read job) job.runtimeId job.packageId
  (outcome.map fun _ => (), after)

/-- What the store holds when what is staged has been carried out. -/
def settled (session : TestSession σ) : Tables := (Datastore.ledger session.store).settle.tables

/-- Whether a job succeeds if it is carried out in this session. -/
def wouldSucceed (plan : TestPlan) (files : String → Option String) (session : TestSession σ)
    (job : Job) : Bool :=
  plan.succeeds (session.settled.organisationsOf job.packageId)
    ((files job.filename).bind Markup.parse?)

/-- The record that a job leaves of its package if it is carried out in this session. -/
def recordOfJob (plan : TestPlan) (clock : Job → Instant) (files : String → Option String)
    (session : TestSession σ) (job : Job) : PackageRecord :=
  plan.recordAfter (session.contextFor job.runtimeId job.packageId (clock job))
    (session.settled.organisationsOf job.packageId) (session.settled.recordOf job.packageId)
    ((files job.filename).bind Markup.parse?)

theorem recordOfJob_clock (plan : TestPlan) (clock clock' : Job → Instant)
    (files : String → Option String) (session : TestSession σ) (job : Job) :
    session.recordOfJob plan clock files job = session.recordOfJob plan clock' files job := by
  unfold recordOfJob contextFor
  cases session.runs.lookup job.runtimeId with
  | none => exact plan.recordAfter_now _ _ _ _ 0 _ _ _
  | some c => rfl

/-- The jobs are of different packages, and in different runs. -/
def Apart (a b : Job) : Prop := a.packageId ≠ b.packageId ∧ a.runtimeId ≠ b.runtimeId

section Jobs

variable {After : List (List Write) → σ → Prop} (hstore : Reliable σ After) (plan : TestPlan)
  (clock : Job → Instant) {read : Job → σ → Option String} {files : String → Option String}
include hstore

/-- What carrying out one job does: it leaves the record of its package, and leaves the records of all
other packages, the organisations and the contexts of all other runs as they were. -/
theorem carryOut_step (session : TestSession σ) {done : List (List Write)}
    (hs : After done session.store) {job : Job}
    (hfile : ∀ done s, After done s → read job s = files job.filename) :
    let after := (carryOut plan clock read job session).2
    (carryOut plan clock read job session).1.isOk = wouldSucceed plan files session job ∧
    (∃ done', After done' after.store) ∧ (Datastore.ledger after.store).staged = [] ∧
    after.settled.recordOf job.packageId = session.recordOfJob plan clock files job ∧
    (∀ p, p ≠ job.packageId → after.settled.recordOf p = session.settled.recordOf p) ∧
    after.settled.organisations = session.settled.organisations ∧
    ∀ r, r ≠ job.runtimeId → after.runs.lookup r = session.runs.lookup r := by
  let p := job.packageId
  let c := session.contextFor job.runtimeId p (clock job)
  let document? := (files job.filename).bind Markup.parse?
  let targets := session.settled.organisationsOf p
  let cleared := plan.clearedTables c session.settled
  let writes := plan.fileWrites c targets cleared document?
  obtain ⟨l, first, hclear, hsettle⟩ :=
    Makes.clearResults hstore plan (c := c) (Datastore.ledger session.store)
  obtain ⟨s₁, hrun₁, hs₁, hl₁⟩ := hclear done session.store hs rfl
  have hcleared : l.settle.tables = cleared := congrArg Ledger.tables hsettle
  have horganisations : cleared.organisations = session.settled.organisations :=
    TestPlan.organisations_clearedTables session.settled
  have htargets : l.tables.organisationsOf p = targets := by
    have hsame : l.tables.organisations = session.settled.organisations := by
      rw [← horganisations, ← hcleared]
      exact (Tables.organisations_applyAll l.tables l.staged).symm
    unfold targets Tables.organisationsOf
    rw [hsame]
  obtain ⟨r, c', commits, hends, hok, hcommits⟩ :=
    Ends.checkRead_writes hstore plan (c := c) (files job.filename) l htargets
  obtain ⟨s₂, hrun₂, hs₂, hl₂⟩ := hends _ s₁ hs₁ hl₁
  have hcheck : (plan.checkFile (read job)).run ⟨c, session.store⟩ = (r, ⟨c', s₂⟩) := by
    rw [TestPlan.checkFile_eq, run_bind, hrun₁]
    change (plan.checkRead (read job s₁)).run ⟨c, s₁⟩ = _
    rw [hfile _ s₁ hs₁]
    exact hrun₂
  have hcarried : carryOut plan clock read job session = (r.map fun _ => (),
      ⟨s₂, (job.runtimeId, c') :: session.runs.filter (·.1 != job.runtimeId)⟩) := by
    unfold carryOut
    rw [check_eq session hcheck]
  have hledger : Datastore.ledger s₂ = .ofTables (cleared.applyAll writes) := by
    rw [hl₂, hcommits, Tables.applyAll_append]
    change Ledger.ofTables (l.settle.tables.applyAll _) = _
    rw [hcleared]
  have habout : ∀ w ∈ writes, w.IsAbout p := fun w => TestPlan.isAbout_of_mem_fileWrites
  rw [hcarried]
  unfold settled
  dsimp only
  rw [hledger]
  refine ⟨?_, ⟨_, hs₂⟩, rfl, TestPlan.recordOf_fileWrites _ _, fun q hq => ?_, ?_, fun q hq => ?_⟩
  · cases r <;> exact hok
  · exact (Tables.recordOf_applyAll_of_ne habout hq).trans
      (TestPlan.recordOf_clearedTables_of_ne hq session.settled)
  · exact (Tables.organisations_applyAll cleared writes).trans horganisations
  · rw [lookup_replaced, if_neg hq]

/-- Jobs of different packages in different runs do what each of them would do alone: they succeed and
fail alike, and leave the same records. Packages without a job are left alone. -/
theorem callEach_carryOut {jobs : List Job} (hdistinct : jobs.Pairwise Apart)
    (hfiles : ∀ job ∈ jobs, ∀ done s, After done s → read job s = files job.filename)
    (session : TestSession σ) {done : List (List Write)} (hs : After done session.store) :
    let calls := (Worker.callEach (carryOut plan clock read) jobs session).1
    let after := (Worker.callEach (carryOut plan clock read) jobs session).2
    calls.map (·.2.isOk) = jobs.map (wouldSucceed plan files session) ∧
    (∀ job ∈ jobs,
      after.settled.recordOf job.packageId = session.recordOfJob plan clock files job) ∧
    (∀ p, (∀ job ∈ jobs, job.packageId ≠ p) →
      after.settled.recordOf p = session.settled.recordOf p) ∧
    (jobs ≠ [] → (Datastore.ledger after.store).staged = []) := by
  induction jobs generalizing session done with
  | nil => exact ⟨rfl, fun job hjob => (by cases hjob), fun p _ => rfl, fun h => absurd rfl h⟩
  | cons job rest ih =>
    obtain ⟨hfirst, hrest⟩ := List.pairwise_cons.1 hdistinct
    obtain ⟨hok, ⟨done', hs'⟩, hstaged, hrecord, hothers, horganisations, hruns⟩ :=
      carryOut_step hstore plan clock session hs (hfiles job List.mem_cons_self)
    obtain ⟨hcalls, hrecords, hkept, hlast⟩ :=
      ih hrest (fun other hother => hfiles other (List.mem_cons_of_mem job hother)) _ hs'
    -- the jobs that follow find what they would find without the first one
    have hsucceed : ∀ other ∈ rest, wouldSucceed plan files (carryOut plan clock read job session).2 other =
        wouldSucceed plan files session other := by
      intro other _
      unfold wouldSucceed Tables.organisationsOf
      rw [horganisations]
    have hsame : ∀ other ∈ rest,
        (carryOut plan clock read job session).2.recordOfJob plan clock files other =
          session.recordOfJob plan clock files other := by
      intro other hother
      obtain ⟨hpackage, hrun⟩ := hfirst other hother
      unfold recordOfJob contextFor Tables.organisationsOf
      rw [horganisations, hruns _ hrun.symm, hothers _ hpackage.symm]
    refine ⟨?_, fun other hother => ?_, fun p hp => ?_, fun _ => ?_⟩
    · refine (congrArg₂ List.cons hok hcalls).trans ?_
      rw [List.map_cons, List.map_congr_left hsucceed]
    · rcases List.mem_cons.1 hother with rfl | hother
      · exact (hkept _ fun next hnext => (hfirst next hnext).1.symm).trans hrecord
      · exact (hrecords other hother).trans (hsame other hother)
    · refine (hkept p fun next hnext => hp next (List.mem_cons_of_mem job hnext)).trans ?_
      exact hothers p (hp job List.mem_cons_self).symm
    · by_cases hnil : rest = []
      · subst hnil
        exact hstaged
      · exact hlast hnil

/-- Working off a queue: each job of it does what it would do alone. -/
theorem drain_carryOut {bodies : List String}
    (hdistinct : (bodies.filterMap Job.decode?).Pairwise Apart)
    (hfiles : ∀ job ∈ bodies.filterMap Job.decode?, ∀ done s, After done s →
      read job s = files job.filename)
    (session : TestSession σ) {done : List (List Write)} (hs : After done session.store) :
    let jobs := bodies.filterMap Job.decode?
    let succeeds := wouldSucceed plan files session
    let malformed := bodies.countP fun body => (Job.decode? body).isNone
    ∃ after,
      (Worker.onMemory (carryOut plan clock read)).drain (⟨bodies⟩, session) =
        (.ok ⟨jobs.countP succeeds, jobs.countP (!succeeds ·), malformed⟩, (.empty, after)) ∧
      (jobs = [] → after = session) ∧
      (∀ job ∈ jobs, (Datastore.ledger after.store).tables.recordOf job.packageId =
        session.recordOfJob plan clock files job) ∧
      (jobs ≠ [] → ∀ p, (∀ job ∈ jobs, job.packageId ≠ p) →
        (Datastore.ledger after.store).tables.recordOf p = session.settled.recordOf p) := by
  intro jobs succeeds malformed
  obtain ⟨hcalls, hrecords, hkept, hstaged⟩ :=
    callEach_carryOut hstore plan clock hdistinct hfiles session hs
  have hcount (good : Bool → Bool) :
      (Worker.callEach (carryOut plan clock read) jobs session).1.countP (fun call => good call.2.isOk) =
        jobs.countP fun job => good (succeeds job) := by
    have hmap := congrArg (List.countP good) hcalls
    rwa [List.countP_map, List.countP_map] at hmap
  -- with nothing staged, what is settled is what is committed
  have hsettled : jobs ≠ [] → ∀ p,
      (Datastore.ledger (Worker.callEach (carryOut plan clock read) jobs session).2.store).tables.recordOf p =
        (Worker.callEach (carryOut plan clock read) jobs session).2.settled.recordOf p := by
    intro hjobs p
    unfold settled Ledger.settle
    rw [hstaged hjobs]
    rfl
  refine ⟨(Worker.callEach (carryOut plan clock read) jobs session).2, ?_, fun hnil => ?_,
    fun job hjob => ?_, fun hjobs p hp => (hsettled hjobs p).trans (hkept p hp)⟩
  · rw [Worker.drain_onMemory (carryOut plan clock read) bodies session, Worker.workOff_eq_callEach]
    simp only [Worker.tally, DrainCounts.zero, Nat.zero_add]
    rw [hcount fun ok => ok, hcount fun ok => !ok]
    rfl
  · rw [hnil]
    rfl
  · exact (hsettled (List.ne_nil_of_mem hjob) _).trans (hrecords job hjob)

end Jobs

/-- The order of jobs does not matter if they are of different packages and in different runs. Whatever
bodies wait in a queue and whatever the session holds, if the files stay as they are and no call of the
store fails, every order of the bodies is worked off to the same counts, and leaves the same record of
every package: the same results, status, tested run and rows. Nor does it matter when each job is
carried out. -/
theorem drain_of_perm {After : List (List Write) → σ → Prop} (hstore : Reliable σ After)
    (plan : TestPlan) {bodies bodies' : List String} (hperm : bodies.Perm bodies')
    (hdistinct : (bodies.filterMap Job.decode?).Pairwise Apart) {read : Job → σ → Option String}
    {files : String → Option String}
    (hfiles : ∀ job ∈ bodies.filterMap Job.decode?, ∀ done s, After done s →
      read job s = files job.filename)
    (clock clock' : Job → Instant) (session : TestSession σ) {done : List (List Write)}
    (hs : After done session.store) :
    ∃ counts after after',
      (Worker.onMemory (carryOut plan clock read)).drain (⟨bodies⟩, session) =
        (.ok counts, (.empty, after)) ∧
      (Worker.onMemory (carryOut plan clock' read)).drain (⟨bodies'⟩, session) =
        (.ok counts, (.empty, after')) ∧
      ∀ p, (Datastore.ledger after.store).tables.recordOf p =
        (Datastore.ledger after'.store).tables.recordOf p := by
  have hjobs := hperm.filterMap Job.decode?
  have hdistinct' : (bodies'.filterMap Job.decode?).Pairwise Apart :=
    (hjobs.pairwise_iff fun h => ⟨h.1.symm, h.2.symm⟩).1 hdistinct
  obtain ⟨after, hdrain, hnone, hrecords, hkept⟩ :=
    drain_carryOut hstore plan clock hdistinct hfiles session hs
  obtain ⟨after', hdrain', hnone', hrecords', hkept'⟩ :=
    drain_carryOut hstore plan clock' hdistinct' (fun job hjob => hfiles job (hjobs.mem_iff.2 hjob))
      session hs
  rw [← hjobs.countP_eq, ← hjobs.countP_eq, ← hperm.countP_eq] at hdrain'
  refine ⟨_, after, after', hdrain, hdrain', fun p => ?_⟩
  by_cases hjob : ∃ job ∈ bodies.filterMap Job.decode?, job.packageId = p
  · obtain ⟨job, hjob, rfl⟩ := hjob
    rw [hrecords job hjob, hrecords' job (hjobs.mem_iff.1 hjob)]
    exact recordOfJob_clock plan clock clock' files session job
  · have hp : ∀ job ∈ bodies.filterMap Job.decode?, job.packageId ≠ p :=
      fun job hmem heq => hjob ⟨job, hmem, heq⟩
    by_cases hnil : bodies.filterMap Job.decode? = []
    · have hnil' : bodies'.filterMap Job.decode? = [] := (hnil ▸ hjobs).nil_eq.symm
      rw [hnone hnil, hnone' hnil']
    · have hne' : bodies'.filterMap Job.decode? ≠ [] :=
        fun h => hnil (List.Perm.eq_nil (h ▸ hjobs))
      rw [hkept hnil p hp, hkept' hne' p fun job hmem => hp job (hjobs.mem_iff.2 hmem)]

/-- A body that holds no job, a document that is tested, one whose package has no organisations, and a
file that is none. -/
def mixedBodies : List String :=
  ["no job", Job.encode ⟨"a.xml", ⟨1⟩, ⟨7⟩⟩, Job.encode ⟨"a.xml", ⟨2⟩, ⟨8⟩⟩,
    Job.encode ⟨"b.xml", ⟨3⟩, ⟨9⟩⟩]

/-- The files of these jobs. -/
def mixedFiles (name : String) : Option String := if name = "a.xml" then some "<r><a/></r>" else none

/-- Both orders of these bodies are worked off alike, by a clock that shows the run and one that stands
still, in a store in memory. -/
theorem drain_of_perm_mixed :
    let session : TestSession MemoryStore :=
      .start (MemoryStore.empty.withOrganisations ⟨7⟩ [⟨⟨5⟩, "//a"⟩])
    let read (job : Job) (_ : MemoryStore) := mixedFiles job.filename
    let worker (clock : Job → Instant) := Worker.onMemory (carryOut TestPlan.unreadablePlan clock read)
    ∃ after after',
      (worker fun job => ⟨job.runtimeId.toInt, 0⟩).drain (⟨mixedBodies⟩, session) =
        (.ok ⟨2, 1, 1⟩, (.empty, after)) ∧
      (worker fun _ => ⟨0, 0⟩).drain (⟨mixedBodies.reverse⟩, session) =
        (.ok ⟨2, 1, 1⟩, (.empty, after')) ∧
      ∀ p, (Datastore.ledger after.store).tables.recordOf p =
        (Datastore.ledger after'.store).tables.recordOf p := by
  intro session read worker
  have hjobs : mixedBodies.filterMap Job.decode? =
      [⟨"a.xml", ⟨1⟩, ⟨7⟩⟩, ⟨"a.xml", ⟨2⟩, ⟨8⟩⟩, ⟨"b.xml", ⟨3⟩, ⟨9⟩⟩] := by decide +kernel
  have hmalformed : (mixedBodies.countP fun body => (Job.decode? body).isNone) = 1 := by decide +kernel
  have hdistinct : (mixedBodies.filterMap Job.decode?).Pairwise Apart := by
    rw [hjobs]
    unfold Apart
    decide
  have hs : session.store.commits = 0 + ([] : List (List Write)).length := rfl
  have hread : ∀ job ∈ mixedBodies.filterMap Job.decode?, ∀ (done : List (List Write)) (s : MemoryStore),
      s.commits = 0 + done.length → read job s = mixedFiles job.filename := fun _ _ _ _ _ => rfl
  obtain ⟨counts, after, after', hdrain, hdrain', hrecords⟩ :=
    drain_of_perm (reliable_memoryStore 0) TestPlan.unreadablePlan (List.reverse_perm mixedBodies).symm
      hdistinct hread (fun job => ⟨job.runtimeId.toInt, 0⟩) (fun _ => ⟨0, 0⟩) session hs
  obtain ⟨_, hcounted, -⟩ := drain_carryOut (reliable_memoryStore 0) TestPlan.unreadablePlan
    (fun job => ⟨job.runtimeId.toInt, 0⟩) hdistinct hread session hs
  have hcan : TestPlan.unreadablePlan.canTest [⟨⟨5⟩, "//a"⟩] = true := by
    refine TestPlan.canTest_iff.2 ⟨List.cons_ne_nil _ _, ⟨_, rfl⟩, fun t ht => ?_⟩
    obtain rfl := List.mem_singleton.1 ht
    exact ⟨_, rfl⟩
  have htested : wouldSucceed TestPlan.unreadablePlan mixedFiles session ⟨"a.xml", ⟨1⟩, ⟨7⟩⟩ = true := hcan
  have hfailed : wouldSucceed TestPlan.unreadablePlan mixedFiles session ⟨"a.xml", ⟨2⟩, ⟨8⟩⟩ = false := rfl
  have hnone : wouldSucceed TestPlan.unreadablePlan mixedFiles session ⟨"b.xml", ⟨3⟩, ⟨9⟩⟩ = true := rfl
  rw [hmalformed, hjobs] at hcounted
  simp only [List.countP_cons, List.countP_nil, htested, hfailed, hnone] at hcounted
  obtain rfl := Except.ok.inj (congrArg Prod.fst (hdrain.symm.trans hcounted))
  exact ⟨after, after', hdrain, hdrain', hrecords⟩

end TestSession

/-- A worker that carries out jobs itself carries out each in its session, at the files in front of
it. -/
theorem CommandLine.QueueWork.handle_here {w : QueueWork} {plan : TestPlan}
    {session : TestSession DirectoryStore} (h : w.dispatch = .here plan session) (e : Surroundings)
    (job : Job) :
    let read (job : Job) (s : DirectoryStore) : Option String :=
      ((⟨e.folder, job.filename⟩ : Files.Route).readText s.tree).toOption
    let carried := TestSession.carryOut plan (fun _ => e.now) read job
      { session with store := { session.store with tree := w.desk.tree } }
    handle e job w =
      (carried.1.mapError .testing,
        ⟨{ w.desk with tree := carried.2.store.tree }, w.spool, .here plan carried.2⟩) := by
  intro read carried
  unfold handle
  rw [h]
  dsimp only [Command.check]
  cases houtcome : (TestSession.check plan e.now (read job) job.runtimeId job.packageId
      { session with store := { session.store with tree := w.desk.tree } }).1 with
  | ok outcome =>
    have hcarried : carried.1 = .ok () := congrArg (Except.map _) houtcome
    rw [hcarried]
    rfl
  | error error =>
    have hcarried : carried.1 = .error error := congrArg (Except.map _) houtcome
    rw [hcarried]
    rfl

namespace DirectoryStore

open Files (Route)

theorem directory_commit (s : DirectoryStore) : (commit.run s).2.directory = s.directory := by
  rw [commit_run]
  split
  · rfl
  · split <;> rfl

/-- A store in a directory does not fail, either, if files beside its journal are read, and leaves them
as they are. -/
theorem reliable_beside (base folder : Files.Path) (names : List String)
    (files : String → Option String) :
    Reliable DirectoryStore fun _ s => Home s.tree s.directory base ∧
      ∀ name ∈ names, (⟨folder, name⟩ : Route).follow s.tree ≠ .ok (base ++ [journalName]) ∧
        ((⟨folder, name⟩ : Route).readText s.tree).toOption = files name where
  stage h _ := ⟨_, rfl, h, rfl⟩
  aggregate h _ _ := ⟨_, rfl, h, rfl⟩
  organisationsOf h _ := ⟨_, rfl, h, rfl⟩
  commit {done s} h message := by
    obtain ⟨hhome, hread⟩ := h
    obtain ⟨s', hrun, ⟨base', hhome'⟩, hledger⟩ :=
      @Reliable.commit _ _ _ reliable_directoryStore done s ⟨base, hhome⟩ message
    have hsame : Files.SameBut (base ++ [journalName]) s.tree s'.tree := hhome.sameBut_commit hrun
    have hdirectory : s'.directory = s.directory := by
      rw [← directory_commit s]
      exact congrArg (fun r => r.2.directory) hrun.symm
    have hfollow := Route.follow_sameWays hsame.sameWays hhome.follow
    obtain rfl : base' = base := by
      have hbase := hhome'.follow
      rw [hdirectory, hfollow] at hbase
      exact (Except.ok.inj hbase).symm
    refine ⟨s', hrun, ⟨hhome', fun name hname => ?_⟩, hledger⟩
    obtain ⟨hne, htext⟩ := hread name hname
    exact ⟨Route.follow_ne_sameBut hsame hne, (Route.readText_toOption_sameBut hsame hne).trans htext⟩

end DirectoryStore

end DataQuality
