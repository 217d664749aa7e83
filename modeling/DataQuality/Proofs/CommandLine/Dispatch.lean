import DataQuality.Proofs.CommandLine.Preparation
import DataQuality.Proofs.Worker

/-!
# Jobs carried out here and apart

A command carries out queued jobs itself, with one store and one memory of the runs, or
each by a command of its own, which starts from the files alone. Both do the same, step
by step: the store that a child opens is the one that the command has kept. Only the
number of made-up identifiers is not in the files. So the two part where a job makes one
up in a run in which an earlier job did.
-/
namespace DataQuality

open Files (Route Tree)

namespace CommandLine

namespace Preparation

variable (P : Preparation)

/-- Opening a store that is in its place gives it as it is. -/
theorem inFolder_settled {s : DirectoryStore} (h : P.Settled s) :
    DirectoryStore.inFolder s.tree P.directory = (.ok s, s.tree) := by
  obtain ⟨⟨hdirectory, -, journal, hstored⟩, hstaged⟩ := h
  have hopen := hstored.inFolder_eq
  have hdiscard : s.ledger.discard = s.ledger := by
    unfold Ledger.discard
    rw [← hstaged]
  rw [hdiscard] at hopen
  rw [← hdirectory]
  exact hopen

/-- A command that carries out jobs itself, with a session and a desk in front of it, and one
that has children carry them out have come to the same: the store that is found apart is
the one of the session, at a commit. -/
structure Together (session : TestSession DirectoryStore) (here apart : Desk) : Prop where
  shows : here.tree = session.store.tree
  opens : DirectoryStore.inFolder apart.tree P.directory = (.ok session.store, session.store.tree)
  settled : P.Settled session.store
  reads : ∀ job, (Command.settings P.surroundings (P.childInvocation job)).run apart =
    (.ok P.config, apart)
  began : session.BeganAt P.surroundings.now

theorem together_start : P.Together (.start P.store) P.opened P.desk := by
  obtain ⟨htree, hsettled, -⟩ := P.settled_store
  refine ⟨htree.symm, ?_, hsettled, fun job => P.settings_of_load fun _ h => h,
    TestSession.beganAt_start P.store⟩
  change DirectoryStore.inFolder P.desk.tree P.directory = (.ok P.store, P.store.tree)
  rw [htree]
  exact P.inFolder_desk

namespace Together

variable {P} {session : TestSession DirectoryStore} {here apart : Desk} {job : Job}

/-- The store stays in its place when a file is tested in the session. -/
theorem check (h : P.Together session here apart) (hjob : P.Suits job) :
    (P.check job session).2.BeganAt P.surroundings.now ∧ P.Settled (P.check job session).2.store := by
  obtain ⟨hbegan, hsettled, -⟩ :=
    TestSession.check_alike (P.steady_test hjob) h.began h.settled job.runtimeId job.packageId
  exact ⟨hbegan, hsettled⟩

/-- A child tests the file of a job in a session of its own, on the same store. -/
theorem runChild (h : P.Together session here apart) (hjob : P.Suits job) :
    let alone := P.check job (.start session.store)
    let child := CommandLine.runChild P.surroundings (P.argumentsFor job) apart
    P.Settled alone.2.store ∧ child.2.tree = alone.2.store.tree ∧
      (child.1.result job.packageId = .ok () ↔ ∃ outcome, alone.1 = .ok outcome) := by
  intro alone child
  obtain ⟨-, hsettled, -⟩ := TestSession.check_alike (P.steady_test hjob)
    (TestSession.beganAt_start _) h.settled job.runtimeId job.packageId
  obtain ⟨code, printed, hchild, hcode⟩ := P.runChild_run hjob (h.reads job) h.opens h.settled.1.same
  have hresult : child = (.exited code, ⟨alone.2.store.tree, printed⟩) := hchild
  rw [hresult, ChildStatus.result_eq_ok_iff, ChildStatus.exited.injEq, hcode]
  exact ⟨hsettled, rfl, Iff.rfl⟩

/-- A job is carried out in either way with the same success, and they have come to the same
again, if none or no further identifier is made up in its run. -/
theorem step (h : P.Together session here apart) (hjob : P.Suits job)
    (hnames : session.madeUp job.runtimeId = 0 ∨
      (P.check job session).2.madeUp job.runtimeId = session.madeUp job.runtimeId) :
    let checked := P.check job session
    let child := CommandLine.runChild P.surroundings (P.argumentsFor job) apart
    (child.1.result job.packageId = .ok () ↔ ∃ outcome, checked.1 = .ok outcome) ∧
      P.Together checked.2 { here with tree := checked.2.store.tree } child.2 := by
  intro checked child
  obtain ⟨hbegan, hsettled⟩ := h.check hjob
  obtain ⟨-, htree, hresult⟩ := h.runChild hjob
  obtain ⟨-, -, halike⟩ :=
    TestSession.check_alike (P.steady_test hjob) h.began h.settled job.runtimeId job.packageId
  obtain ⟨hsame, hstore⟩ := halike hnames
  have houtcome : (P.check job (.start session.store)).1 = checked.1 := hsame
  have hafter : (P.check job (.start session.store)).2.store = checked.2.store := hstore
  rw [houtcome] at hresult
  rw [hafter] at htree
  have htree : child.2.tree = checked.2.store.tree := htree
  refine ⟨hresult, rfl, ?_, hsettled, fun _ => P.settings_child ?_, hbegan⟩
  · rw [htree]
    exact P.inFolder_settled hsettled
  · rw [htree]
    exact hsettled.1.same

end Together

/-- The command that carries out the jobs itself. -/
def here (spool : Spool) (session : TestSession DirectoryStore) (d : Desk) : QueueWork :=
  ⟨d, spool, .here P.plan session⟩

/-- The command that has children carry out the jobs. -/
def apart (spool : Spool) (d : Desk) : QueueWork :=
  ⟨d, spool, .apart (childArguments P.invocation P.config)⟩

/-- The command itself tests the file of a job in its session, with the files as they are. -/
theorem handle_here (spool : Spool) (session : TestSession DirectoryStore) (d : Desk) (job : Job) :
    let checked := P.check job { session with store := { session.store with tree := d.tree } }
    (QueueWork.handle P.surroundings job (P.here spool session d)).2 =
        P.here spool checked.2 { d with tree := checked.2.store.tree } ∧
      ((QueueWork.handle P.surroundings job (P.here spool session d)).1 = .ok () ↔
        ∃ outcome, checked.1 = .ok outcome) := by
  intro checked
  have hcheck : Command.check P.surroundings P.plan job session d =
      (checked.1, checked.2, { d with tree := checked.2.store.tree }) := rfl
  unfold QueueWork.handle here
  dsimp only
  rw [hcheck]
  rcases checked.1 with error | outcome <;> simp

variable {P} in
theorem Together.handle_here {session : TestSession DirectoryStore} {d d' : Desk}
    (h : P.Together session d d') (spool : Spool) (job : Job) :
    let checked := P.check job session
    (QueueWork.handle P.surroundings job (P.here spool session d)).2 =
        P.here spool checked.2 { d with tree := checked.2.store.tree } ∧
      ((QueueWork.handle P.surroundings job (P.here spool session d)).1 = .ok () ↔
        ∃ outcome, checked.1 = .ok outcome) := by
  have hhere := P.handle_here spool session d job
  have hsession : { session with store := { session.store with tree := d.tree } } = session := by
    rw [h.shows]
  rwa [hsession] at hhere

theorem handle_apart (spool : Spool) (d : Desk) (job : Job) :
    let child := runChild P.surroundings (P.argumentsFor job) d
    QueueWork.handle P.surroundings job (P.apart spool d) =
      (child.1.result job.packageId, P.apart spool child.2) := rfl

/-- How many identifiers a command that carries out jobs itself has made up in a run. -/
def madeUp (w : QueueWork) (r : RuntimeId) : Nat :=
  match w.dispatch with
  | .here _ session => session.madeUp r
  | .apart _ => 0

/-- No job makes up an identifier in a run in which there were some before. -/
def MakesUpOnce (spool : Spool) (bodies : List String) : Prop :=
  ∀ x ∈ Worker.carriedOut (QueueWork.handle P.surroundings) bodies
      (P.here spool (.start P.store) P.opened),
    madeUp x.2 x.1.runtimeId = 0 ∨
      madeUp (QueueWork.handle P.surroundings x.1 x.2).2 x.1.runtimeId = madeUp x.2 x.1.runtimeId

/-- Jobs of different runs make up identifiers once. -/
theorem makesUpOnce_of_pairwise_runs (spool : Spool) (bodies : List String)
    (hruns : (bodies.filterMap Job.decode?).Pairwise fun job job' =>
      job.runtimeId ≠ job'.runtimeId) : P.MakesUpOnce spool bodies := by
  have hnone (session : TestSession DirectoryStore) (d : Desk)
      (h : ∀ job ∈ bodies.filterMap Job.decode?, session.madeUp job.runtimeId = 0) :
      ∀ x ∈ Worker.carriedOut (QueueWork.handle P.surroundings) bodies (P.here spool session d),
        madeUp x.2 x.1.runtimeId = 0 := by
    induction bodies generalizing session d with
    | nil => simp [Worker.carriedOut]
    | cons body rest ih =>
      unfold Worker.carriedOut
      cases hdecode : Job.decode? body with
      | none =>
        rw [List.filterMap_cons_none hdecode] at h hruns
        exact ih hruns session d h
      | some job =>
        rw [List.filterMap_cons_some hdecode] at h hruns
        obtain ⟨hother, hrest⟩ := List.pairwise_cons.1 hruns
        obtain ⟨hafter, -⟩ := P.handle_here spool session d job
        intro x hx
        dsimp only at hx
        rcases List.mem_cons.1 hx with rfl | hx
        · exact h job List.mem_cons_self
        · rw [hafter] at hx
          refine ih hrest _ _ (fun job' hjob' => ?_) x hx
          refine (TestSession.madeUp_check _ _ _ _ _ (hother job' hjob').symm).trans ?_
          exact h job' (List.mem_cons_of_mem job hjob')
  exact fun x hx => .inl (hnone _ _ (fun _ _ => rfl) x hx)

/-- What the working off of the bodies of a queue in memory comes to. -/
def drained (w : QueueWork) (bodies : List String) : Except QueueError DrainCounts × QueueWork :=
  let worked := (Worker.onMemory (QueueWork.handle P.surroundings)).drain (⟨bodies⟩, w)
  (worked.1, worked.2.2)

theorem drained_eq (w : QueueWork) (bodies : List String) :
    P.drained w bodies = (.ok (Worker.workOff (QueueWork.handle P.surroundings) bodies .zero w).1,
      (Worker.workOff (QueueWork.handle P.surroundings) bodies .zero w).2) := by
  unfold drained
  rw [Worker.drain_onMemory]

/-- The jobs of a queue have been carried out by the command itself and apart from it: both
have counted the same, and opening the folder gives after both the store that the command
has kept. -/
structure SameEnd (here apart : Except QueueError DrainCounts × QueueWork) : Prop where
  counts : ∃ counts, here.1 = .ok counts ∧ apart.1 = .ok counts
  stores : ∃ session, here.2.dispatch = .here P.plan session ∧
    DirectoryStore.inFolder here.2.desk.tree P.directory = (.ok session.store, session.store.tree) ∧
    DirectoryStore.inFolder apart.2.desk.tree P.directory = (.ok session.store, session.store.tree)

/-- Carrying out queued jobs by the command itself and by a command of its own for each comes
to the same, if no job makes up an identifier in a run in which there were some before. -/
theorem drain_apart_eq (spool : Spool) (bodies : List String)
    (hjobs : ∀ body ∈ bodies, ∀ job, Job.decode? body = some job → P.Suits job)
    (hnames : P.MakesUpOnce spool bodies) :
    P.SameEnd (P.drained (P.here spool (.start P.store) P.opened) bodies)
      (P.drained (P.apart spool P.desk) bodies) := by
  let R (w w' : QueueWork) : Prop :=
    ∃ session d d', w = P.here spool session d ∧ w' = P.apart spool d' ∧ P.Together session d d'
  have hstart : R (P.here spool (.start P.store) P.opened) (P.apart spool P.desk) :=
    ⟨_, _, _, rfl, rfl, P.together_start⟩
  have hstep : ∀ x ∈ Worker.carriedOut (QueueWork.handle P.surroundings) bodies
      (P.here spool (.start P.store) P.opened), ∀ w, R x.2 w →
      ((QueueWork.handle P.surroundings x.1 x.2).1 = .ok () ↔
        (QueueWork.handle P.surroundings x.1 w).1 = .ok ()) ∧
        R (QueueWork.handle P.surroundings x.1 x.2).2 (QueueWork.handle P.surroundings x.1 w).2 := by
    rintro ⟨job, w⟩ hx w' ⟨session, d, d', rfl, rfl, htogether⟩
    obtain ⟨body, hbody, hdecode⟩ := Worker.exists_body_of_mem_carriedOut hx
    obtain ⟨hafter, hresult⟩ := htogether.handle_here spool job
    have hname := hnames _ hx
    dsimp only at hname ⊢
    rw [hafter] at hname ⊢
    obtain ⟨hchild, hagain⟩ := htogether.step (hjobs body hbody job hdecode) hname
    rw [hresult, P.handle_apart]
    exact ⟨hchild.symm, _, _, _, rfl, rfl, hagain⟩
  obtain ⟨hcounts, session, d, d', hhere, hapart, htogether⟩ := Worker.workOff_alike hstart hstep .zero
  rw [P.drained_eq, P.drained_eq, ← hcounts, hhere, hapart]
  refine ⟨⟨_, rfl, rfl⟩, session, rfl, ?_, htogether.opens⟩
  change DirectoryStore.inFolder d.tree P.directory = _
  rw [htogether.shows]
  exact P.inFolder_settled htogether.settled

/-- A folder with settings, a rule, a document whose only activity has no identifier, and
the folder of a store with the organisations of two packages. -/
def sampleTree : Tree where
  entries := [
    (["dq.json"], .file "\x7b\"organisation_selector\":\"iati-organisation\"\x7d".toUTF8),
    (["rules.txt"], .file "b exists?\n".toUTF8),
    (["p.xml"], .file "<r/>".toUTF8),
    (["data"], .folder),
    (["data", DirectoryStore.organisationsName], .file (
      "\x7b\"9\":[\x7b\"organisation_id\":1,\"activities_selector\":\".\"\x7d]," ++
        "\"10\":[\x7b\"organisation_id\":1,\"activities_selector\":\".\"\x7d]\x7d").toUTF8)]

def sampleSurroundings : Surroundings := ⟨[], [], ⟨0, 0⟩⟩

def sampleInvocation : Invocation :=
  ⟨some "dq.json", some "data", none, .testQueue true false none⟩

def sampleConfig : Config :=
  { Config.standard with dataDir := "data", organisationSelector := "iati-organisation" }

def samplePlan : TestPlan where
  rules := RuleSet.compile RuleSet.defaultLevels (RuleDefinition.ofLines "b exists?\n")
  removeResults := false
  organisationSelector := "iati-organisation"
  metrics := .empty
  codelist := none

def sampleStore : DirectoryStore where
  tree := sampleTree
  directory := ⟨[], "data"⟩
  ledger := .ofTables { Tables.empty with
    organisations := [(⟨9⟩, [⟨⟨1⟩, "."⟩]), (⟨10⟩, [⟨⟨1⟩, "."⟩])] }

theorem makeFolder_sampleTree :
    (⟨[], "data"⟩ : Route).makeFolder.run sampleTree = (.ok (), sampleTree) :=
  Route.makeFolder_run rfl rfl

theorem home_sampleTree : DirectoryStore.Home sampleTree ⟨[], "data"⟩ ["data"] :=
  .of_ungrouped rfl rfl rfl (by decide +kernel) (by decide +kernel) (by decide +kernel)

theorem settings_sampleTree :
    (Command.settings sampleSurroundings sampleInvocation).run ⟨sampleTree, ""⟩ =
      (.ok sampleConfig, ⟨sampleTree, ""⟩) := by
  have hload : Config.load sampleTree [] (some "dq.json") =
      .ok { Config.standard with organisationSelector := "iati-organisation" } := by decide +kernel
  have hrun := settings_run (d := ⟨sampleTree, ""⟩) (e := sampleSurroundings)
    (i := sampleInvocation) hload
  exact hrun

theorem openStore_sampleTree :
    (Command.openStore sampleSurroundings sampleConfig).run ⟨sampleTree, ""⟩ =
      (.ok sampleStore, ⟨sampleTree, ""⟩) := by
  have hload : DirectoryStore.loadOrganisations sampleTree ⟨[], "data"⟩ =
      .ok [(⟨9⟩, [⟨⟨1⟩, "."⟩]), (⟨10⟩, [⟨⟨1⟩, "."⟩])] := by decide +kernel
  have hopen : DirectoryStore.inFolder sampleTree ⟨[], "data"⟩ = (.ok sampleStore, sampleTree) :=
    DirectoryStore.inFolder_of_missing makeFolder_sampleTree hload (by decide +kernel)
  rw [openStore_run (d := ⟨sampleTree, ""⟩) (e := sampleSurroundings) (c := sampleConfig) hopen]
  rfl

theorem loadPlan_sampleTree :
    (Command.loadPlan sampleSurroundings sampleConfig).run ⟨sampleTree, ""⟩ =
      (.ok samplePlan, ⟨sampleTree, ""⟩) := by
  have hload : RuleDefinition.load sampleTree [] "rules.txt" =
      .ok (RuleDefinition.ofLines "b exists?\n") := by decide +kernel
  exact loadPlan_run hload rfl rfl

/-- A command that is about to carry out jobs in this folder. -/
def sample : Preparation where
  surroundings := sampleSurroundings
  invocation := sampleInvocation
  config := sampleConfig
  desk := ⟨sampleTree, ""⟩
  base := ["data"]
  plan := samplePlan
  store := sampleStore
  opened := ⟨sampleTree, ""⟩
  invoked := ⟨["--config", "dq.json", "--data-dir", "data", "test-queue", "--once"],
    by decide +kernel⟩
  reads := settings_sampleTree
  home := by
    change DirectoryStore.Home ((⟨[], "data"⟩ : Route).makeFolder.run sampleTree).2 _ _
    rw [makeFolder_sampleTree]
    exact home_sampleTree
  opens := openStore_sampleTree
  loads := loadPlan_sampleTree
  elsewhere := by decide +kernel

def sampleSpool : Spool := ⟨⟨[], "queue"⟩, 0⟩

theorem suits_sample {bodies : List String}
    (h : ∀ job ∈ bodies.filterMap Job.decode?,
      ChildCommand.isStartable "" (sample.argumentsFor job) = true ∧
        (Invocation.parse [] (sample.argumentsFor job)).toOption.isSome = true ∧
        (⟨[], job.filename⟩ : Route).follow sampleTree ≠ .ok sample.journal) :
    ∀ body ∈ bodies, ∀ job, Job.decode? body = some job → sample.Suits job := by
  intro body hbody job hdecode
  obtain ⟨hstart, hparse, helsewhere⟩ := h job (List.mem_filterMap.2 ⟨body, hbody, hdecode⟩)
  refine ⟨hstart, ?_, helsewhere, fun _ _ _ _ b hb => by cases hb⟩
  change ∃ i, Invocation.parse [] (sample.argumentsFor job) = .ok i
  cases hresult : Invocation.parse [] (sample.argumentsFor job) with
  | ok i => exact ⟨i, rfl⟩
  | error e =>
    rw [hresult] at hparse
    cases hparse

/-- A body without a job, and jobs of two runs. An identifier is made up in each run, for one
job only. -/
def twoRuns : List String :=
  ["\x7b", Job.encode ⟨"p.xml", ⟨4⟩, ⟨9⟩⟩, Job.encode ⟨"missing.xml", ⟨4⟩, ⟨10⟩⟩,
    Job.encode ⟨"p.xml", ⟨5⟩, ⟨10⟩⟩]

theorem drain_apart_eq_two_runs :
    (∀ body ∈ twoRuns, ∀ job, Job.decode? body = some job → sample.Suits job) ∧
      sample.MakesUpOnce sampleSpool twoRuns ∧
      sample.SameEnd
        (sample.drained (sample.here sampleSpool (.start sample.store) sample.opened) twoRuns)
        (sample.drained (sample.apart sampleSpool sample.desk) twoRuns) := by
  have hjobs : ∀ body ∈ twoRuns, ∀ job, Job.decode? body = some job → sample.Suits job :=
    suits_sample (by decide +kernel)
  have hnames : sample.MakesUpOnce sampleSpool twoRuns := by
    unfold MakesUpOnce
    decide +kernel
  exact ⟨hjobs, hnames, sample.drain_apart_eq sampleSpool twoRuns hjobs hnames⟩

/-- Two jobs with which a command and its children have success. -/
theorem drained_two (spool : Spool) {job job' : Job} {body body' : String}
    (hdecode : Job.decode? body = some job) (hdecode' : Job.decode? body' = some job')
    (hjob : P.Suits job) (hjob' : P.Suits job') :
    let first := P.check job (.start P.store)
    let kept := P.check job' first.2
    let alone := P.check job' (.start first.2.store)
    let here := P.drained (P.here spool (.start P.store) P.opened) [body, body']
    let apart := P.drained (P.apart spool P.desk) [body, body']
    (∃ outcome, first.1 = .ok outcome) → (∃ outcome, kept.1 = .ok outcome) →
      (∃ outcome, alone.1 = .ok outcome) →
      here.1 = .ok ⟨2, 0, 0⟩ ∧ apart.1 = .ok ⟨2, 0, 0⟩ ∧
      DirectoryStore.inFolder here.2.desk.tree P.directory =
        (.ok kept.2.store, kept.2.store.tree) ∧
      DirectoryStore.inFolder apart.2.desk.tree P.directory =
        (.ok alone.2.store, alone.2.store.tree) := by
  intro first kept alone here apart hfirst hkept halone
  obtain ⟨hchild, htogether⟩ := P.together_start.step hjob (.inl rfl)
  obtain ⟨hfirst', hfirst''⟩ := P.together_start.handle_here spool job
  obtain ⟨hsecond, hsecond'⟩ := htogether.handle_here spool job'
  obtain ⟨hsettled, htree, hchild'⟩ := htogether.runChild hjob'
  have hhere : here =
      (.ok ⟨2, 0, 0⟩, P.here spool kept.2 { P.opened with tree := kept.2.store.tree }) := by
    change P.drained _ _ = _
    rw [P.drained_eq]
    unfold Worker.workOff Worker.workOff Worker.workOff
    rw [hdecode, hdecode']
    dsimp only
    rw [hfirst''.2 hfirst, hfirst', hsecond'.2 hkept, hsecond]
    rfl
  have hapart : apart.1 = .ok ⟨2, 0, 0⟩ ∧ apart.2.desk.tree = alone.2.store.tree := by
    change (P.drained _ _).1 = _ ∧ (P.drained _ _).2.desk.tree = _
    rw [P.drained_eq]
    unfold Worker.workOff Worker.workOff Worker.workOff
    rw [hdecode, hdecode']
    dsimp only
    rw [P.handle_apart, P.handle_apart]
    dsimp only
    rw [hchild.2 hfirst, hchild'.2 halone]
    exact ⟨rfl, htree⟩
  obtain ⟨-, hkeptSettled⟩ := htogether.check hjob'
  rw [hhere, hapart.2]
  exact ⟨rfl, hapart.1, P.inFolder_settled hkeptSettled, P.inFolder_settled hsettled⟩

/-- The identifiers of the results of a package that a store lists. -/
def identifiers (s : DirectoryStore) (p : PackageId) : List (Option String) :=
  (s.ledger.tables.resultsOf p).map TestResult.identifier

def sharedRun : List String := [Job.encode ⟨"p.xml", ⟨4⟩, ⟨9⟩⟩, Job.encode ⟨"p.xml", ⟨4⟩, ⟨10⟩⟩]

theorem not_drain_apart_eq_shared_run :
    let here := sample.drained (sample.here sampleSpool (.start sample.store) sample.opened) sharedRun
    let apart := sample.drained (sample.apart sampleSpool sample.desk) sharedRun
    (∀ body ∈ sharedRun, ∀ job, Job.decode? body = some job → sample.Suits job) ∧
      here.1 = .ok ⟨2, 0, 0⟩ ∧ apart.1 = .ok ⟨2, 0, 0⟩ ∧
      ∃ s s', DirectoryStore.inFolder here.2.desk.tree sample.directory = (.ok s, s.tree) ∧
        DirectoryStore.inFolder apart.2.desk.tree sample.directory = (.ok s', s'.tree) ∧
        identifiers s ⟨10⟩ = [none, some "MISSING-2"] ∧
        identifiers s' ⟨10⟩ = [none, some "MISSING-1"] := by
  have hjobs : ∀ body ∈ sharedRun, ∀ job, Job.decode? body = some job → sample.Suits job :=
    suits_sample (by decide +kernel)
  unfold sharedRun at hjobs ⊢
  have hdecode (p : PackageId) (hp : p = ⟨9⟩ ∨ p = ⟨10⟩) :
      Job.decode? (Job.encode ⟨"p.xml", ⟨4⟩, p⟩) = some ⟨"p.xml", ⟨4⟩, p⟩ := by
    rcases hp with rfl | rfl <;> decide +kernel
  have hfirst := hdecode ⟨9⟩ (.inl rfl)
  have hsecond := hdecode ⟨10⟩ (.inr rfl)
  obtain ⟨hhere, hapart, hopen, hopen'⟩ := sample.drained_two sampleSpool hfirst hsecond
    (hjobs _ List.mem_cons_self _ hfirst)
    (hjobs _ (List.mem_cons_of_mem _ List.mem_cons_self) _ hsecond)
    ⟨.tested 1 0 2, by decide +kernel⟩ ⟨.tested 1 0 2, by decide +kernel⟩
    ⟨.tested 1 0 2, by decide +kernel⟩
  refine ⟨hjobs, hhere, hapart, _, _, hopen, hopen', ?_, ?_⟩ <;> decide +kernel

end Preparation

end CommandLine

end DataQuality
