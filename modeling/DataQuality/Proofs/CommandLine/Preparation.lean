import DataQuality.Proofs.CommandLine.ChildArguments
import DataQuality.Proofs.Store.Opening
import DataQuality.Proofs.Testing.Sessions

/-!
# What a child finds

A command that is about to carry out queued jobs can have each carried out by a command of
its own, which starts from the files alone. As long as only the journal of the store
changes in these, the child reads the settings, the rules and the codelist as the command
has read them, and opens its store: it tests the file of the job in a session of its own.
-/
namespace DataQuality

open Files (Path Route SameBut Tree)

namespace DirectoryStore

/-- The store is the one in this folder, it keeps its invariant, and nothing but its
journal has changed in the files. -/
structure InPlace (t : Tree) (directory : Route) (base : Path) (s : DirectoryStore) : Prop where
  directory : s.directory = directory
  same : SameBut (base ++ [journalName]) t s.tree
  stored : ∃ journal, Stored s base journal

/-- Testing keeps a store in its place. -/
def upkeep (t : Tree) (directory : Route) (base : Path) : Upkeep DirectoryStore where
  Settled s := InPlace t directory base s ∧ s.ledger.staged = []
  Pending := InPlace t directory base
  pending h := h.1
  stage h _ hw := by
    obtain ⟨journal, hstored⟩ := h.stored
    exact ⟨_, rfl, h.directory, h.same, journal, hstored.stage hw⟩
  aggregate {s} h r p := by
    obtain ⟨journal, hstored⟩ := h.stored
    have hrows : (Write.putAggregates r p (s.ledger.tables.aggregate r p)).ReadsBack := trivial
    exact ⟨_, _, rfl, h.directory, h.same, journal, hstored.stage hrows⟩
  organisationsOf h p := ⟨_, _, rfl, h⟩
  commit {s} h message := by
    obtain ⟨journal, hstored⟩ := h.stored
    obtain ⟨s', hrun, hdirectory, hledger, hstored'⟩ := hstored.commit
    refine ⟨s', hrun, ⟨hdirectory.trans h.directory, h.same.trans (hstored.home.sameBut_commit hrun),
      _, hstored'⟩, ?_⟩
    rw [hledger, Ledger.staged_settle]

end DirectoryStore

namespace CommandLine

variable {α β : Type} {p : Path} {t : Tree} {d d' : Desk}

/-- A part of a command that changes nothing, and sees nothing of what is at a path: where
it succeeds it does the same on any desk whose files differ from these in nothing else. -/
def LooksPast (p : Path) (t : Tree) (m : Command α) : Prop :=
  ∀ d a d', SameBut p t d.tree → m.run d = (.ok a, d') →
    d' = d ∧ ∀ other : Desk, SameBut p t other.tree → m.run other = (.ok a, other)

namespace LooksPast

theorem pure (a : α) : LooksPast p t (Pure.pure a) := by
  intro d b d' _ hrun
  cases hrun
  exact ⟨rfl, fun _ _ => rfl⟩

theorem bind {m : Command α} {k : α → Command β} (h : LooksPast p t m)
    (hk : ∀ a, LooksPast p t (k a)) : LooksPast p t (m >>= k) := by
  intro d b d' hd hrun
  rw [run_bind] at hrun
  rcases hm : m.run d with ⟨_ | a, d₁⟩
  · rw [hm] at hrun
    cases hrun
  · rw [hm] at hrun
    obtain ⟨rfl, hsame⟩ := h d a d₁ hd hm
    obtain ⟨rfl, hsame'⟩ := hk a d₁ b d' hd hrun
    refine ⟨rfl, fun other hother => ?_⟩
    rw [run_bind, hsame other hother]
    exact hsame' other hother

theorem orFail {ε : Type} (failure : ε → Failure) (r : Except ε α) :
    LooksPast p t (Command.orFail failure r) := by
  cases r with
  | ok a => exact pure a
  | error e =>
    intro d a d' _ hrun
    cases hrun

/-- A file is loaded that is not the one at the path. -/
theorem load (failure : Files.LoadError → Failure) (read? : String → Option α) {r : Route}
    (hr : r.follow t ≠ .ok p) {k : α → Command β} (hk : ∀ a, LooksPast p t (k a)) :
    LooksPast p t (do k (← Command.orFail failure (Files.load read? (← get).tree r))) := by
  rw [← bind_assoc]
  refine bind (fun d a d' hd hrun => ?_) hk
  have hrun : (Command.orFail failure (Files.load read? d.tree r)).run d = (.ok a, d') := hrun
  cases hload : Files.load read? d.tree r with
  | error e =>
    rw [hload] at hrun
    cases hrun
  | ok a' =>
    rw [hload] at hrun
    cases hrun
    refine ⟨rfl, fun other hother => ?_⟩
    change (Command.orFail failure (Files.load read? other.tree r)).run other = _
    rw [Files.load_sameBut (hd.symm.trans hother) (Route.follow_ne_sameBut hd hr) hload]
    rfl

/-- The rules and the codelist are read, if they are not at the path. -/
theorem loadPlan {e : Surroundings} {c : Config}
    (hrules : (⟨e.folder, c.rulesFile⟩ : Route).follow t ≠ .ok p)
    (hcodelist : ∀ written ∈ c.codelistFile, (⟨e.folder, written⟩ : Route).follow t ≠ .ok p) :
    LooksPast p t (Command.loadPlan e c) := by
  unfold Command.loadPlan Command.compileRules
  refine bind (load .rules _ hrules fun definitions => pure _) fun rules => ?_
  refine bind (orFail .metrics _) fun plan => ?_
  cases hpath : c.codelistFile with
  | none => exact pure plan
  | some path => exact load .codelist Codelist.read? (hcodelist path hpath) fun codelist => pure _

end LooksPast

/-- The settings are those of the configuration, except where the command line gives others. -/
theorem settings_run {e : Surroundings} {i : Invocation} {c : Config}
    (hload : Config.load d.tree e.folder i.configFile = .ok c) :
    (Command.settings e i).run d =
      (.ok { c with
        dataDir := i.dataDir.getD c.dataDir
        rulesFile := i.rulesFile.getD c.rulesFile }, d) := by
  unfold Command.settings
  change (Command.orFail .config (Config.load d.tree e.folder i.configFile) >>= _).run d = _
  rw [hload]
  rfl

theorem load_of_settings_run {e : Surroundings} {i : Invocation} {c : Config}
    (h : (Command.settings e i).run d = (.ok c, d')) :
    ∃ read, Config.load d.tree e.folder i.configFile = .ok read ∧
      c = { read with
        dataDir := i.dataDir.getD read.dataDir
        rulesFile := i.rulesFile.getD read.rulesFile } := by
  cases hload : Config.load d.tree e.folder i.configFile with
  | error error =>
    unfold Command.settings at h
    change (Command.orFail .config (Config.load d.tree e.folder i.configFile) >>= _).run d = _ at h
    rw [hload] at h
    cases h
  | ok read =>
    rw [settings_run hload] at h
    exact ⟨read, rfl, (Except.ok.inj (Prod.mk.inj h).1).symm⟩

theorem loadPlan_run {e : Surroundings} {c : Config} {definitions : List RuleDefinition}
    {plan : TestPlan}
    (hload : RuleDefinition.load d.tree e.folder c.rulesFile = .ok definitions)
    (hplan : c.plan (RuleSet.compile c.levels definitions) none = .ok plan)
    (hcodelist : c.codelistFile = none) :
    (Command.loadPlan e c).run d = (.ok plan, d) := by
  have hrules : (Command.compileRules e c c.rulesFile).run d =
      (.ok (RuleSet.compile c.levels definitions), d) := by
    unfold Command.compileRules
    change (Command.orFail .rules (RuleDefinition.load d.tree e.folder c.rulesFile) >>= _).run d = _
    rw [hload]
    rfl
  unfold Command.loadPlan
  rw [run_bind, hrules]
  dsimp only
  rw [hplan, hcodelist]
  rfl

theorem run_get (d : Desk) : (MonadState.get : Command Desk).run d = (.ok d, d) := rfl

theorem openStore_run {e : Surroundings} {c : Config} {result : Except StoreError DirectoryStore}
    (hopen : DirectoryStore.inFolder d.tree ⟨e.folder, c.dataDir⟩ = (result, t)) :
    (Command.openStore e c).run d = (Command.orFail .store result).run { d with tree := t } := by
  unfold Command.openStore
  rw [run_bind, run_get]
  dsimp only
  rw [hopen]
  rfl

/-- A command that is about to carry out jobs: what it has been asked for, the desk in front
of it, and the store and the plan with which it would carry them out itself. Where the
folder of the store is made, none of its files is a link, and the command has read nothing
else in its journal. -/
structure Preparation where
  surroundings : Surroundings
  invocation : Invocation
  config : Config
  desk : Desk
  /-- The path of the folder of the store. -/
  base : Path
  plan : TestPlan
  store : DirectoryStore
  /-- The desk after the store has been opened. -/
  opened : Desk
  invoked : ∃ arguments, Invocation.parse surroundings.environment arguments = .ok invocation
  reads : (Command.settings surroundings invocation).run desk = (.ok config, desk)
  home : DirectoryStore.Home
    ((⟨surroundings.folder, config.dataDir⟩ : Route).makeFolder.run desk.tree).2
    ⟨surroundings.folder, config.dataDir⟩ base
  opens : (Command.openStore surroundings config).run desk = (.ok store, opened)
  loads : (Command.loadPlan surroundings config).run opened = (.ok plan, opened)
  elsewhere : ∀ written ∈
      invocation.configFile.toList ++ config.rulesFile :: config.codelistFile.toList,
    (⟨surroundings.folder, written⟩ : Route).follow opened.tree ≠
      .ok (base ++ [DirectoryStore.journalName])

namespace Preparation

variable (P : Preparation) {job : Job}

/-- The folder of the store. -/
def directory : Route := ⟨P.surroundings.folder, P.config.dataDir⟩

def journal : Path := P.base ++ [DirectoryStore.journalName]

def argumentsFor (job : Job) : List String :=
  childArguments P.invocation P.config ++ ChildCommand.jobArguments job

def fileText (job : Job) (s : DirectoryStore) : Option String :=
  ((⟨P.surroundings.folder, job.filename⟩ : Route).readText s.tree).toOption

/-- The job can be carried out by a child, and it is one for a file other than the journal,
in which the values of the metrics are read back from their written forms. -/
structure Suits (job : Job) : Prop where
  startable : ChildCommand.isStartable "" (P.argumentsFor job) = true
  accepted : ∃ i, Invocation.parse P.surroundings.environment (P.argumentsFor job) = .ok i
  elsewhere : (⟨P.surroundings.folder, job.filename⟩ : Route).follow P.opened.tree ≠ .ok P.journal
  values : ∀ text document,
    (⟨P.surroundings.folder, job.filename⟩ : Route).readText P.opened.tree = .ok text →
    Markup.parse? text = some document → P.plan.ValuesReadBack P.surroundings.now document

def check (job : Job) (session : TestSession DirectoryStore) :
    Except TestingError PackageOutcome × TestSession DirectoryStore :=
  TestSession.check P.plan P.surroundings.now (P.fileText job) job.runtimeId job.packageId session

/-- The arguments of a child for a job, as they are read. -/
def childInvocation (job : Job) : Invocation :=
  ⟨P.invocation.configFile, some P.config.dataDir, some P.config.rulesFile,
    .testPackage job.packageId (some job.runtimeId) job.filename⟩

/-- What is true of a store that testing keeps in its place, at its commits. -/
def Settled (s : DirectoryStore) : Prop :=
  (DirectoryStore.upkeep P.opened.tree P.directory P.base).Settled s

theorem inFolder_desk :
    DirectoryStore.inFolder P.desk.tree P.directory = (.ok P.store, P.opened.tree) := by
  rcases hopen : DirectoryStore.inFolder P.desk.tree P.directory with ⟨result, t⟩
  have hrun := (openStore_run hopen).symm.trans P.opens
  cases result with
  | error e => cases hrun
  | ok s =>
    obtain ⟨hstore, hdesk⟩ := Prod.mk.inj hrun
    rw [Except.ok.inj hstore, ← hdesk]

/-- The store is in its place when the first job is carried out, and opening it has changed
nothing but its journal in the files. -/
theorem settled_store : P.store.tree = P.opened.tree ∧ P.Settled P.store ∧
    SameBut P.journal (P.directory.makeFolder.run P.desk.tree).2 P.opened.tree := by
  obtain ⟨htree, hdirectory, hstaged, hsame, journal, hstored⟩ :=
    P.home.stored_of_inFolder (DirectoryStore.inFolder_of_made P.inFolder_desk P.home)
  have hhome := hstored.home
  rw [htree] at hhome
  refine ⟨htree, ⟨⟨hdirectory, ?_, journal, hstored⟩, hstaged⟩, hsame⟩
  rw [htree]
  exact hhome.sameBut_refl

theorem sameBut_opened : SameBut P.journal P.opened.tree P.opened.tree := by
  obtain ⟨htree, hsettled, -⟩ := P.settled_store
  have hsame := hsettled.1.same
  rwa [htree] at hsame

/-- The settings of a child, where the configuration is as it was. -/
theorem settings_of_load {d : Desk} (hload : ∀ read,
    Config.load P.desk.tree P.surroundings.folder P.invocation.configFile = .ok read →
    Config.load d.tree P.surroundings.folder P.invocation.configFile = .ok read) :
    (Command.settings P.surroundings (P.childInvocation job)).run d = (.ok P.config, d) := by
  obtain ⟨read, hread, hconfig⟩ := load_of_settings_run P.reads
  have hrun := settings_run (i := P.childInvocation job) (hload read hread)
  have hsame : { read with dataDir := P.config.dataDir, rulesFile := P.config.rulesFile } =
      P.config := by rw [hconfig]
  unfold childInvocation at hrun ⊢
  rwa [Option.getD_some, Option.getD_some, hsame] at hrun

/-- A child reads the settings of the command that starts it. -/
theorem settings_child {d : Desk} (hd : SameBut P.journal P.opened.tree d.tree) :
    (Command.settings P.surroundings (P.childInvocation job)).run d = (.ok P.config, d) := by
  refine P.settings_of_load fun read hload => ?_
  cases hpath : P.invocation.configFile with
  | none =>
    rw [hpath] at hload
    exact hload
  | some path =>
    obtain ⟨-, -, hopened⟩ := P.settled_store
    have helsewhere : (⟨P.surroundings.folder, path⟩ : Route).follow P.opened.tree ≠ .ok P.journal :=
      P.elsewhere path (List.mem_append_left _ (by rw [hpath]; exact List.mem_cons_self))
    have hmade := Files.load_grown (Route.makeFolder_grown P.desk.tree P.directory)
      (hpath ▸ hload : Config.load P.desk.tree P.surroundings.folder (some path) = .ok read)
    exact Files.load_sameBut hd helsewhere
      (Files.load_sameBut hopened (Route.follow_ne_sameBut hopened.symm helsewhere) hmade)

theorem loadPlan_child {d : Desk} (hd : SameBut P.journal P.opened.tree d.tree) :
    (Command.loadPlan P.surroundings P.config).run d = (.ok P.plan, d) := by
  have hlooks : LooksPast P.journal P.opened.tree (Command.loadPlan P.surroundings P.config) := by
    refine LooksPast.loadPlan (P.elsewhere _ ?_) fun written hwritten => P.elsewhere written ?_
    · exact List.mem_append_right _ List.mem_cons_self
    · exact List.mem_append_right _ (List.mem_cons_of_mem _ (Option.mem_toList.2 hwritten))
  exact (hlooks P.opened _ _ P.sameBut_opened P.loads).2 d hd

/-- What a child does with a job: it tests the file in a session of its own, on the store
that it opens. -/
theorem runChild_run {d : Desk} {s : DirectoryStore} (hjob : P.Suits job)
    (hsettings :
      (Command.settings P.surroundings (P.childInvocation job)).run d = (.ok P.config, d))
    (hopen : DirectoryStore.inFolder d.tree P.directory = (.ok s, s.tree))
    (hs : SameBut P.journal P.opened.tree s.tree) :
    let checked := P.check job (.start s)
    ∃ code printed, runChild P.surroundings (P.argumentsFor job) d =
        (.exited code, ⟨checked.2.store.tree, printed⟩) ∧
      (code = 0 ↔ ∃ outcome, checked.1 = .ok outcome) := by
  intro checked
  obtain ⟨i, hparse⟩ := hjob.accepted
  obtain ⟨arguments, hinvoked⟩ := P.invoked
  obtain rfl : i = P.childInvocation job := Invocation.parse_child hinvoked hparse
  have hstore : (Command.openStore P.surroundings P.config).run d =
      (.ok s, { d with tree := s.tree }) := openStore_run hopen
  have hplan := P.loadPlan_child (d := { d with tree := s.tree }) hs
  have hcheck : Command.check P.surroundings P.plan job (.start s) { d with tree := s.tree } =
      (checked.1, checked.2, { d with tree := checked.2.store.tree }) := rfl
  unfold runChild
  rw [hjob.startable, Bool.not_true, if_neg Bool.false_ne_true, hparse]
  dsimp only
  rw [run_bind, hsettings]
  dsimp only
  unfold childInvocation Command.perform Command.testPackage
  dsimp only
  rw [run_bind, hstore]
  dsimp only
  rw [pure_bind, run_bind, hplan]
  dsimp only
  rw [run_bind, run_get]
  dsimp only
  rw [hcheck]
  rcases hchecked : checked.1 with error | outcome
  · exact ⟨1, d.printed, rfl, by simp⟩
  · exact ⟨0, _, rfl, by simp⟩

/-- Testing a file keeps the store in its place. -/
theorem steady_test (hjob : P.Suits job) :
    let u := DirectoryStore.upkeep P.opened.tree P.directory P.base
    Steady u P.surroundings.now u.Settled u.Settled (P.plan.checkFile (P.fileText job)) := by
  refine Steady.checkFile P.plan fun s hs text htext document hdocument => ?_
  refine hjob.values text document ?_ hdocument
  unfold fileText at htext
  rw [Route.readText_toOption_sameBut hs.1.same hjob.elsewhere] at htext
  cases hread : (⟨P.surroundings.folder, job.filename⟩ : Route).readText P.opened.tree with
  | error e =>
    rw [hread] at htext
    cases htext
  | ok text' =>
    rw [hread] at htext
    rw [Option.some.inj htext]

end Preparation

end CommandLine

end DataQuality
