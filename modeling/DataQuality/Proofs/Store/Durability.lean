import DataQuality.Proofs.Store.Home
import DataQuality.Proofs.Store.Journal
import DataQuality.Proofs.Store.Organisations
import DataQuality.Proofs.Store.Staging

/-!
# Stores opened again

A store in a directory keeps an invariant: its journal holds its commits, its file of
organisations holds its organisations, and its tables are those that the two give. Each
operation keeps it, so opening the directory again after any run of operations gives
the committed tables, with nothing staged.
-/
namespace DataQuality

open Files (Path Route Tree)

namespace DirectoryStore

variable {t : Tree} {directory : Route} {base : Path} {journal : String}
  {organisations : List (PackageId × List Target)} {s s' : DirectoryStore}

theorem journalName_mem : journalName ∈ fileNames := by simp [fileNames]

theorem organisationsName_mem : organisationsName ∈ fileNames := by simp [fileNames]

theorem temporaryName_mem : temporaryName ∈ fileNames := by simp [fileNames]

theorem organisationsName_ne : organisationsName ≠ journalName := by decide

/-- The folder at a path has this journal; an empty one need not be there. -/
def HoldsJournal (t : Tree) (base : Path) (journal : String) : Prop :=
  t.lookup? (base ++ [journalName]) = some (.file journal.toUTF8) ∨
    t.lookup? (base ++ [journalName]) = none ∧ journal = ""

/-- What is always true of a store: its files hold its journal and its organisations,
and its tables are what the journal is replayed as. -/
structure Stored (s : DirectoryStore) (base : Path) (journal : String) : Prop where
  home : Home s.tree s.directory base
  organisations : loadOrganisations s.tree s.directory = .ok s.ledger.tables.organisations
  file : HoldsJournal s.tree base journal
  complete : Journal.IsComplete journal
  tables : Journal.replay? (Tables.listing s.ledger.tables.organisations) journal =
    some s.ledger.tables
  staged : ∀ w ∈ s.ledger.staged, w.ReadsBack

/-- No store is opened if its organisations cannot be loaded. -/
theorem inFolder_of_error (hmake : directory.makeFolder.run t = (.ok (), t)) {e : StoreError}
    (hload : loadOrganisations t directory = .error e) : inFolder t directory = (.error e, t) := by
  unfold inFolder
  rw [hmake]
  dsimp only
  rw [hload]

/-- A store is opened without a journal. -/
theorem inFolder_of_missing (hmake : directory.makeFolder.run t = (.ok (), t))
    (hload : loadOrganisations t directory = .ok organisations)
    (hread : (directory.join journalName).readText t = .error .missing) :
    inFolder t directory = (.ok ⟨t, directory, .ofTables (Tables.listing organisations)⟩, t) := by
  unfold inFolder
  rw [hmake]
  dsimp only
  rw [hload]
  dsimp only
  rw [hread]
  rfl

/-- No store is opened if its journal holds no text. -/
theorem inFolder_of_unusable (hmake : directory.makeFolder.run t = (.ok (), t))
    (hload : loadOrganisations t directory = .ok organisations)
    (hread : (directory.join journalName).readText t = .error .unusable) :
    inFolder t directory = (.error .io, t) := by
  unfold inFolder
  rw [hmake]
  dsimp only
  rw [hload]
  dsimp only
  rw [hread]

/-- A store is opened with what its journal is replayed as, after it has been cut. -/
theorem inFolder_of_text (hmake : directory.makeFolder.run t = (.ok (), t))
    (hload : loadOrganisations t directory = .ok organisations)
    (hread : (directory.join journalName).readText t = .ok journal) {t' : Tree}
    (hcut : cutJournal t (directory.join journalName) journal = .ok t') {tables : Tables}
    (hreplay : Journal.replay? (Tables.listing organisations) journal = some tables) :
    inFolder t directory = (.ok ⟨t', directory, .ofTables tables⟩, t') := by
  unfold Tables.listing at hreplay
  unfold inFolder
  rw [hmake]
  dsimp only
  rw [hload]
  dsimp only
  rw [hread]
  dsimp only
  rw [hcut]
  dsimp only
  rw [hreplay]

/-- No store is opened if its journal is not replayed. It is cut all the same. -/
theorem inFolder_of_unreplayed (hmake : directory.makeFolder.run t = (.ok (), t))
    (hload : loadOrganisations t directory = .ok organisations)
    (hread : (directory.join journalName).readText t = .ok journal) {t' : Tree}
    (hcut : cutJournal t (directory.join journalName) journal = .ok t')
    (hreplay : Journal.replay? (Tables.listing organisations) journal = none) :
    inFolder t directory = (.error .json, t') := by
  unfold Tables.listing at hreplay
  unfold inFolder
  rw [hmake]
  dsimp only
  rw [hload]
  dsimp only
  rw [hread]
  dsimp only
  rw [hcut]
  dsimp only
  rw [hreplay]

theorem Home.makeFolder (h : Home t directory base) :
    directory.makeFolder.run t = (.ok (), t) := Route.makeFolder_run h.follow h.folder

/-- Organisations are loaded alike where their file is the same. -/
theorem Home.loadOrganisations_eq {t' : Tree} (h : Home t directory base)
    (h' : Home t' directory base)
    (hsame : t'.lookup? (base ++ [organisationsName]) = t.lookup? (base ++ [organisationsName])) :
    loadOrganisations t' directory = loadOrganisations t directory := by
  unfold loadOrganisations
  rw [h.readText_eq h' organisationsName_mem h.organisations hsame]

/-- What is done when the organisations of a package are replaced. -/
theorem setOrganisations_run (p : PackageId) (targets : List Target) (s : DirectoryStore) :
    (setOrganisations p targets).run s =
      let ledger := { s.ledger with tables := s.ledger.tables.setOrganisations p targets }
      let text := organisationsText ledger.tables.organisations
      let temporary := s.directory.join temporaryName
      match temporary.write? text.toUTF8 s.tree with
      | none => (.error .io, { s with ledger := ledger })
      | some tree =>
        match temporary.rename? (s.directory.join organisationsName) tree with
        | none => (.error .io, { s with ledger := ledger, tree := tree })
        | some tree => (.ok (), { s with ledger := ledger, tree := tree }) := by
  dsimp only
  change (match (s.directory.join temporaryName).write? (organisationsText
      (s.ledger.tables.setOrganisations p targets).organisations).toUTF8 s.tree with
    | none => throw .io
    | some tree => _ : StoreM DirectoryStore Unit).run { s with ledger := _ } = _
  cases (s.directory.join temporaryName).write? (organisationsText
      (s.ledger.tables.setOrganisations p targets).organisations).toUTF8 s.tree with
  | none => rfl
  | some tree =>
    dsimp only
    change (match (s.directory.join temporaryName).rename? (s.directory.join organisationsName) tree with
      | none => throw .io
      | some tree => _ : StoreM DirectoryStore Unit).run { s with ledger := _, tree := tree } = _
    cases (s.directory.join temporaryName).rename? (s.directory.join organisationsName) tree <;> rfl

/-- The organisations are registered in the tables, whether or not they can be written. -/
theorem ledger_setOrganisations (p : PackageId) (targets : List Target) (s : DirectoryStore) :
    ((setOrganisations p targets).run s).2.ledger =
      { s.ledger with tables := s.ledger.tables.setOrganisations p targets } := by
  rw [setOrganisations_run]
  dsimp only
  split
  · rfl
  · split <;> rfl

/-- Replacing the organisations of a package, if it succeeds, changes nothing but the
organisations, and they are loaded again, whatever the file held before. -/
theorem Home.setOrganisations (h : Home s.tree s.directory base)
    (hordered : Keyed.Ordered Id.before s.ledger.tables.organisations)
    {p : PackageId} {targets : List Target}
    (hrun : (DirectoryStore.setOrganisations p targets).run s = (.ok (), s')) :
    s'.directory = s.directory ∧
      s'.ledger = { s.ledger with tables := s.ledger.tables.setOrganisations p targets } ∧
      Home s'.tree s.directory base ∧
      loadOrganisations s'.tree s.directory = .ok s'.ledger.tables.organisations ∧
      s'.tree.lookup? (base ++ [journalName]) = s.tree.lookup? (base ++ [journalName]) := by
  rw [setOrganisations_run] at hrun
  dsimp only at hrun
  generalize htext : organisationsText (s.ledger.tables.setOrganisations p targets).organisations =
    text at hrun
  have husable : (s.directory.join temporaryName).isUsable = true := by
    cases hwrite : (s.directory.join temporaryName).write? text.toUTF8 s.tree with
    | none =>
      rw [hwrite] at hrun
      cases hrun
    | some tree => exact Route.isUsable_of_write? hwrite
  obtain ⟨t₁, t', hwrite, hrename, hhome, hfile, hsame⟩ := h.replace temporaryName_mem
    organisationsName_mem husable h.organisations text.toUTF8
  rw [hwrite] at hrun
  dsimp only at hrun
  rw [hrename] at hrun
  obtain rfl := (Prod.mk.inj hrun).2
  have hinserted := hordered.insert (Id.isOrder_before .package) p targets
  refine ⟨rfl, rfl, hhome, ?_, hsame journalName (by decide) (by decide)⟩
  have hread := hhome.readText_of_file organisationsName_mem h.organisations hfile
  unfold loadOrganisations
  rw [hread]
  dsimp only
  rw [← htext]
  unfold Tables.setOrganisations
  rw [asOrganisations?_organisationsText hinserted]

/-- Bytes are added to the journal in a folder, and the organisations stay. -/
theorem Home.append?_journal (h : Home t directory base) (hfile : HoldsJournal t base journal)
    (content : ByteArray) :
    ∃ tree, (directory.join journalName).append? content t = some tree ∧ Home tree directory base ∧
      tree.lookup? (base ++ [journalName]) = some (.file (journal.toUTF8 ++ content)) ∧
      tree.lookup? (base ++ [organisationsName]) = t.lookup? (base ++ [organisationsName]) := by
  have hput (content : ByteArray) := h.put journalName_mem content
  have hother (content : ByteArray) :=
    h.lookup?_put_other journalName_mem content organisationsName_ne
  rcases hfile with hfile | ⟨hnone, rfl⟩
  · exact ⟨_, h.append?_of_file journalName_mem h.journal hfile _, hput _,
      Tree.lookup?_put _ _ _ (by simp), hother _⟩
  · refine ⟨_, h.append?_of_none journalName_mem h.journal hnone _, hput _, ?_, hother _⟩
    rw [Tree.lookup?_put _ _ _ (by simp)]
    simp

/-- The line of a commit is added to the journal in a folder, and the organisations stay. -/
theorem Home.append?_line (h : Home t directory base) (hfile : HoldsJournal t base journal)
    (writes : List Write) :
    ∃ tree, (directory.join journalName).append? (Journal.line writes).toUTF8 t = some tree ∧
      Home tree directory base ∧ HoldsJournal tree base (journal ++ Journal.line writes) ∧
      tree.lookup? (base ++ [organisationsName]) = t.lookup? (base ++ [organisationsName]) := by
  obtain ⟨tree, happend, hhome, hafter, hsame⟩ :=
    h.append?_journal hfile (Journal.line writes).toUTF8
  refine ⟨tree, happend, hhome, .inl ?_, hsame⟩
  rw [hafter, toUTF8_append]

/-- What is always true of a store, whether or not it can be opened again: its journal is
replayed as these tables, if it can be replayed at all. -/
structure Replays (s : DirectoryStore) (base : Path) (journal : String)
    (replayed : Option Tables) : Prop where
  home : Home s.tree s.directory base
  organisations : loadOrganisations s.tree s.directory = .ok s.ledger.tables.organisations
  file : HoldsJournal s.tree base journal
  complete : Journal.IsComplete journal
  replay : Journal.replay? (Tables.listing s.ledger.tables.organisations) journal = replayed

/-- The directory of a store can be opened again. -/
def Opens (s : DirectoryStore) : Prop :=
  ∃ reopened, (inFolder s.tree s.directory).1 = .ok reopened

namespace Replays

variable {replayed : Option Tables}

/-- Opening the directory of a store again gives what its journal is replayed as, and
changes no file. -/
theorem inFolder_eq (h : Replays s base journal replayed) :
    inFolder s.tree s.directory =
      (match replayed with
        | some tables => .ok ⟨s.tree, s.directory, .ofTables tables⟩
        | none => .error .json, s.tree) := by
  rcases h.file with hfile | ⟨hnone, rfl⟩
  · have hread := h.home.readText_of_file journalName_mem h.home.journal hfile
    have hcut : cutJournal s.tree (s.directory.join journalName) journal = .ok s.tree := by
      unfold cutJournal
      dsimp only
      rw [if_pos (Journal.completePart_eq h.complete)]
    cases replayed with
    | some tables => exact inFolder_of_text h.home.makeFolder h.organisations hread hcut h.replay
    | none => exact inFolder_of_unreplayed h.home.makeFolder h.organisations hread hcut h.replay
  · have hread := h.home.readText_of_none journalName_mem h.home.journal hnone
    obtain rfl : some (Tables.listing s.ledger.tables.organisations) = replayed := h.replay
    exact inFolder_of_missing h.home.makeFolder h.organisations hread

/-- A store can be opened again exactly if its journal can be replayed. -/
theorem opens_iff (h : Replays s base journal replayed) : s.Opens ↔ replayed.isSome = true := by
  unfold Opens
  rw [h.inFolder_eq]
  cases replayed <;> simp

/-- What is staged does not matter. -/
theorem withLedger (h : Replays s base journal replayed) {l : Ledger}
    (hl : l.tables = s.ledger.tables) :
    Replays { s with ledger := l } base journal replayed := by
  refine ⟨h.home, ?_, h.file, h.complete, ?_⟩
  · rw [hl]
    exact h.organisations
  · rw [hl]
    exact h.replay

/-- A commit succeeds, whatever its writes are read as, and adds the line of what was
staged to the journal, unless that is nothing. -/
theorem commit (h : Replays s base journal replayed) :
    ∃ s', DirectoryStore.commit.run s = (.ok (), s') ∧ s'.directory = s.directory ∧
      s'.ledger = s.ledger.settle ∧
      Replays s' base
        (if s.ledger.staged = [] then journal else journal ++ Journal.line s.ledger.staged)
        (replayed.bind (·.replayed? s.ledger.staged)) := by
  rw [commit_run]
  by_cases hstaged : s.ledger.staged = []
  · have hnothing : replayed.bind (·.replayed? []) = replayed := Option.bind_fun_some replayed
    rw [if_pos hstaged, if_pos hstaged, hstaged, hnothing]
    refine ⟨s, rfl, rfl, ?_, h⟩
    change s.ledger = ⟨s.ledger.tables.applyAll s.ledger.staged, []⟩
    rw [hstaged, Tables.applyAll_nil, ← hstaged]
  · rw [if_neg hstaged, if_neg hstaged]
    obtain ⟨tree, happend, hhome, hfile, hsame⟩ := h.home.append?_line h.file s.ledger.staged
    have horganisations : s.ledger.settle.tables.organisations = s.ledger.tables.organisations :=
      Tables.organisations_applyAll _ _
    rw [happend]
    refine ⟨_, rfl, rfl, rfl, hhome, ?_, hfile, Journal.isComplete_append_line _ _, ?_⟩
    · rw [h.home.loadOrganisations_eq hhome hsame, horganisations]
      exact h.organisations
    · rw [horganisations, Journal.replay?_append_line h.complete, h.replay]

end Replays

namespace Stored

/-- The journal of a store is replayed as its tables. -/
theorem replays (h : Stored s base journal) : Replays s base journal (some s.ledger.tables) :=
  ⟨h.home, h.organisations, h.file, h.complete, h.tables⟩

/-- Opening the directory of a store again gives its tables, and changes no file. -/
theorem inFolder_eq (h : Stored s base journal) :
    inFolder s.tree s.directory = (.ok ⟨s.tree, s.directory, s.ledger.discard⟩, s.tree) :=
  h.replays.inFolder_eq

/-- Staging a write that is read back. -/
theorem stage (h : Stored s base journal) {w : Write} (hw : w.ReadsBack) :
    Stored { s with ledger := s.ledger.stage w } base journal := by
  refine ⟨h.home, h.organisations, h.file, h.complete, h.tables, ?_⟩
  intro v hv
  rcases List.mem_append.1 hv with hv | hv
  · exact h.staged v hv
  · obtain rfl := List.mem_singleton.1 hv
    exact hw

/-- Dropping what is staged. -/
theorem discard (h : Stored s base journal) :
    Stored { s with ledger := s.ledger.discard } base journal :=
  ⟨h.home, h.organisations, h.file, h.complete, h.tables, fun _ hw => (by cases hw)⟩

/-- Bytes are added to the journal, and the organisations stay. -/
theorem append? (h : Stored s base journal) (content : ByteArray) :
    ∃ tree, (s.directory.join journalName).append? content s.tree = some tree ∧
      Home tree s.directory base ∧
      tree.lookup? (base ++ [journalName]) = some (.file (journal.toUTF8 ++ content)) ∧
      tree.lookup? (base ++ [organisationsName]) = s.tree.lookup? (base ++ [organisationsName]) :=
  h.home.append?_journal h.file content

/-- A commit succeeds, and adds the line of what was staged to the journal, unless that
is nothing. -/
theorem commit (h : Stored s base journal) :
    ∃ s', DirectoryStore.commit.run s = (.ok (), s') ∧ s'.directory = s.directory ∧
      s'.ledger = s.ledger.settle ∧
      Stored s' base
        (if s.ledger.staged = [] then journal else journal ++ Journal.line s.ledger.staged) := by
  obtain ⟨s', hrun, hdirectory, hledger, hafter⟩ := h.replays.commit
  refine ⟨s', hrun, hdirectory, hledger, hafter.home, hafter.organisations, hafter.file,
    hafter.complete, ?_, ?_⟩
  · rw [hafter.replay, Option.bind_some, Tables.replayed?_of_readsBack _ h.staged, hledger]
    rfl
  · rw [hledger]
    exact fun _ hw => by cases hw

end Stored

def withListing (s : DirectoryStore) (organisations : List (PackageId × List Target)) :
    DirectoryStore :=
  { s with ledger :=
      { s.ledger with tables := { s.ledger.tables with organisations := organisations } } }

/-- What is true of a store behind whose tables the file of organisations may be: it would
be a stored one with the organisations of the file. -/
structure Behind (s : DirectoryStore) (base : Path) (journal : String)
    (saved : List (PackageId × List Target)) : Prop where
  stored : Stored (s.withListing saved) base journal
  ordered : Keyed.Ordered Id.before s.ledger.tables.organisations

/-- A stored one is not behind. -/
theorem Stored.behind (h : Stored s base journal) :
    Behind s base journal s.ledger.tables.organisations :=
  ⟨h, ordered_of_loadOrganisations h.organisations⟩

/-- Replacing the organisations of a package, if it succeeds, brings the file up to date,
whatever it held. -/
theorem Behind.setOrganisations {saved : List (PackageId × List Target)}
    (h : Behind s base journal saved) {p : PackageId} {targets : List Target}
    (hrun : (DirectoryStore.setOrganisations p targets).run s = (.ok (), s')) :
    s'.directory = s.directory ∧ Stored s' base journal := by
  have hhome : Home s.tree s.directory base := h.stored.home
  obtain ⟨hdirectory, hledger, hhome', hload, hsame⟩ := hhome.setOrganisations h.ordered hrun
  refine ⟨hdirectory, by rwa [hdirectory], by rwa [hdirectory], ?_, h.stored.complete, ?_, ?_⟩
  · unfold HoldsJournal
    rw [hsame]
    exact h.stored.file
  · have hreplay := Journal.replay?_withOrganisations
      (Tables.listing (s.withListing saved).ledger.tables.organisations)
      (s.ledger.tables.setOrganisations p targets).organisations journal
    rw [h.stored.tables] at hreplay
    rw [hledger]
    exact hreplay
  · rw [hledger]
    exact h.stored.staged

theorem Stored.setOrganisations (h : Stored s base journal) {p : PackageId} {targets : List Target}
    (hrun : (DirectoryStore.setOrganisations p targets).run s = (.ok (), s')) :
    s'.directory = s.directory ∧ Stored s' base journal := h.behind.setOrganisations hrun

/-- An operation on a store that may change it. -/
inductive Operation
  | saveResult (result : TestResult)
  | deleteResults (packageId : PackageId)
  | replaceInfo (result : InfoResult)
  | startRun (now : Instant)
  | recordTestrun (packageId : PackageId) (runtimeId : RuntimeId)
  | setStatus (packageId : PackageId) (status : PackageStatus)
  | aggregate (runtimeId : RuntimeId) (packageId : PackageId)
  | setOrganisations (packageId : PackageId) (targets : List Target)
  | commit (message : String)
  | rollback

/-- Carries out an operation. -/
def perform : Operation → StoreM DirectoryStore Unit
  | .saveResult r => Datastore.stage (.saveResult r)
  | .deleteResults p => Datastore.stage (.deleteResults p)
  | .replaceInfo r => Datastore.stage (.replaceInfo r)
  | .startRun now => discard (Datastore.startRun now)
  | .recordTestrun p r => Datastore.stage (.recordTestrun p r)
  | .setStatus p st => Datastore.stage (.setStatus p st)
  | .aggregate r p => discard (Datastore.aggregate r p)
  | .setOrganisations p targets => setOrganisations p targets
  | .commit message => Datastore.commit message
  | .rollback => Datastore.rollback

/-- Carries out operations one after the other. -/
def performAll : List Operation → StoreM DirectoryStore Unit
  | [] => pure ()
  | op :: rest => do
    perform op
    performAll rest

/-- The times and doubles in an operation are read back from their written forms. -/
def Operation.ReadsBack : Operation → Prop
  | .replaceInfo r => (Write.replaceInfo r).ReadsBack
  | .startRun now => Instant.read? now.text = some now
  | _ => True

/-- Each operation keeps the invariant. -/
theorem Stored.perform (h : Stored s base journal) {op : Operation} (hop : op.ReadsBack)
    (hrun : (perform op).run s = (.ok (), s')) :
    s'.directory = s.directory ∧ ∃ journal', Stored s' base journal' := by
  have hstage {w : Write} (hw : w.ReadsBack)
      (he : { s with ledger := s.ledger.stage w } = s') :
      s'.directory = s.directory ∧ ∃ journal', Stored s' base journal' := by
    subst he
    exact ⟨rfl, journal, h.stage hw⟩
  cases op with
  | saveResult r => exact hstage (w := .saveResult r) trivial (Prod.mk.inj hrun).2
  | deleteResults p => exact hstage (w := .deleteResults p) trivial (Prod.mk.inj hrun).2
  | replaceInfo r => exact hstage (w := .replaceInfo r) hop (Prod.mk.inj hrun).2
  | startRun now =>
    exact hstage (w := .startRun ⟨s.ledger.tables.nextRuntimeId s.ledger.staged, now⟩) hop
      (Prod.mk.inj hrun).2
  | recordTestrun p r => exact hstage (w := .recordTestrun p r) trivial (Prod.mk.inj hrun).2
  | setStatus p st => exact hstage (w := .setStatus p st) trivial (Prod.mk.inj hrun).2
  | aggregate r p =>
    exact hstage (w := .putAggregates r p (s.ledger.tables.aggregate r p)) trivial
      (Prod.mk.inj hrun).2
  | setOrganisations p targets =>
    obtain ⟨hdirectory, hstored⟩ := h.setOrganisations hrun
    exact ⟨hdirectory, journal, hstored⟩
  | commit message =>
    obtain ⟨s₁, hcommit, hdirectory, -, hstored⟩ := h.commit
    obtain rfl : s₁ = s' := (Prod.mk.inj (hcommit.symm.trans hrun)).2
    exact ⟨hdirectory, _, hstored⟩
  | rollback =>
    obtain rfl := (Prod.mk.inj hrun).2
    exact ⟨rfl, journal, h.discard⟩

/-- Operations that all succeed, the first and then the others. -/
theorem performAll_cons {op : Operation} {rest : List Operation}
    (h : (performAll (op :: rest)).run s = (.ok (), s')) :
    ∃ s₁, (perform op).run s = (.ok (), s₁) ∧ (performAll rest).run s₁ = (.ok (), s') := by
  rw [performAll, run_bind] at h
  rcases hfirst : (perform op).run s with ⟨_ | _, s₁⟩
  · rw [hfirst] at h
    cases h
  · rw [hfirst] at h
    exact ⟨s₁, rfl, h⟩

/-- A run of operations keeps the invariant. -/
theorem Stored.performAll (h : Stored s base journal) {ops : List Operation}
    (hops : ∀ op ∈ ops, op.ReadsBack) (hrun : (performAll ops).run s = (.ok (), s')) :
    s'.directory = s.directory ∧ ∃ journal', Stored s' base journal' := by
  induction ops generalizing s journal with
  | nil =>
    obtain rfl := (Prod.mk.inj hrun).2
    exact ⟨rfl, journal, h⟩
  | cons op rest ih =>
    obtain ⟨s₁, hfirst, hrest⟩ := performAll_cons hrun
    obtain ⟨hdirectory₁, journal₁, hstored₁⟩ := h.perform (hops op (by simp)) hfirst
    obtain ⟨hdirectory, journal', hstored⟩ :=
      ih hstored₁ (fun other hother => hops other (by simp [hother])) hrest
    exact ⟨hdirectory.trans hdirectory₁, journal', hstored⟩

/-- If a store is opened in a folder, its files can be reached there and its organisations
are loaded. -/
theorem isUsable_of_inFolder {t₀ : Tree} (hfollow : directory.follow t = .ok base)
    (hmake : directory.makeFolder.run t = (.ok (), t))
    (hopen : inFolder t directory = (.ok s, t₀)) :
    (directory.join journalName).isUsable = true ∧
      (directory.join organisationsName).isUsable = true ∧
      ∃ organisations, loadOrganisations t directory = .ok organisations := by
  have hunusable {name : String} (hname : name ∈ fileNames)
      (husable : ¬ (directory.join name).isUsable = true) :
      (directory.join name).readText t = .error .unusable :=
    Route.readText_of_not_isUsable (Route.join_names hfollow (isName_of_mem hname).noSlash).1
      (by simpa using husable)
  obtain ⟨organisations, hload⟩ : ∃ organisations,
      loadOrganisations t directory = .ok organisations := by
    cases hload : loadOrganisations t directory with
    | error e =>
      rw [inFolder_of_error hmake hload] at hopen
      cases hopen
    | ok organisations => exact ⟨organisations, rfl⟩
  refine ⟨?_, ?_, organisations, hload⟩
  · by_contra husable
    rw [inFolder_of_unusable hmake hload (hunusable journalName_mem husable)] at hopen
    cases hopen
  · by_contra husable
    unfold loadOrganisations at hload
    rw [hunusable organisationsName_mem husable] at hload
    cases hload

/-- A store that is opened in an empty folder has an empty journal. -/
theorem stored_of_inFolder {t₀ : Tree} (hsound : t.IsSound) (hempty : directory.list? t = some [])
    (hopen : inFolder t directory = (.ok s, t₀)) :
    s.directory = directory ∧ ∃ base, Stored s base "" := by
  obtain ⟨base, hfollow, hlist⟩ := Route.follow_of_list? hempty
  have hnone (name : String) : t.lookup? (base ++ [name]) = none :=
    (Tree.lookup?_of_list?_nil hlist name).2
  have hfolder : t.lookup? base = some .folder :=
    Tree.lookup?_of_isFolder (Tree.lookup?_of_list?_nil hlist "").1
  have hmake := Route.makeFolder_run hfollow hfolder
  obtain ⟨hjournal, horganisations, organisations, hload⟩ := isUsable_of_inFolder hfollow hmake hopen
  have hhome : Home t directory base :=
    ⟨hfollow, hfolder, fun name _ => ⟨hsound.lone (hnone name), .inl (hnone name)⟩, hjournal,
      horganisations⟩
  have hmissing := hhome.readText_of_none journalName_mem hjournal (hnone journalName)
  rw [inFolder_of_missing hmake hload hmissing] at hopen
  obtain rfl := Except.ok.inj (Prod.mk.inj hopen).1
  exact ⟨rfl, base, hhome, hload, .inr ⟨hnone journalName, rfl⟩, Journal.isComplete_empty, rfl,
    fun _ hw => (by cases hw)⟩

/-- A directory that was empty when a store was opened in it, and on which operations
were carried out: opening it again gives the committed tables, with nothing staged. -/
theorem inFolder_of_performAll {t₀ : Tree} {s₀ : DirectoryStore} {ops : List Operation}
    (hsound : t.IsSound) (hempty : directory.list? t = some [])
    (hopen : inFolder t directory = (.ok s₀, t₀)) (hops : ∀ op ∈ ops, op.ReadsBack)
    (hrun : (performAll ops).run s₀ = (.ok (), s)) :
    inFolder s.tree directory = (.ok ⟨s.tree, directory, s.ledger.discard⟩, s.tree) := by
  obtain ⟨hdirectory₀, base, hstored₀⟩ := stored_of_inFolder hsound hempty hopen
  obtain ⟨hdirectory, journal, hstored⟩ := hstored₀.performAll hops hrun
  have hreopened := hstored.inFolder_eq
  rwa [hdirectory, hdirectory₀] at hreopened

/-- Two commits with a rollback after them, around a change of organisations. What the reopened store
answers is what was committed. -/
theorem inFolder_of_performAll_two_commits :
    let t : Tree := { entries := [(["store"], .folder)] }
    let directory : Route := ⟨[], "store"⟩
    let s₀ : DirectoryStore := ⟨t, directory, .ofTables (Tables.listing [])⟩
    let result : TestResult := ⟨⟨1⟩, ⟨-7⟩, ⟨3⟩, .fail, some "a\n\"é", 1, none⟩
    let ops : List Operation := [
      .startRun ⟨1700000000, 123000000⟩, .saveResult result,
      .replaceInfo ⟨⟨1⟩, ⟨-7⟩, ⟨5⟩, ⟨2⟩, 40.0⟩, .replaceInfo ⟨⟨1⟩, ⟨-7⟩, ⟨5⟩, ⟨2⟩, 37.5⟩,
      .recordTestrun ⟨-7⟩ ⟨1⟩, .setStatus ⟨-7⟩ .tested, .commit "unit",
      .setOrganisations ⟨-7⟩ [⟨⟨5⟩, "//a[@b='é']"⟩],
      .aggregate ⟨1⟩ ⟨-7⟩, .commit "rows", .deleteResults ⟨-7⟩, .rollback]
    let s := ((performAll ops).run s₀).2
    let reopened : DirectoryStore := ⟨s.tree, directory, s.ledger.discard⟩
    directory.list? t = some [] ∧ inFolder t directory = (.ok s₀, t) ∧
      (performAll ops).run s₀ = (.ok (), s) ∧
      inFolder s.tree directory = (.ok reopened, s.tree) ∧
      reopened.ledger.tables.resultsOf ⟨-7⟩ = [result] ∧
      (reopened.ledger.tables.infoOf ⟨5⟩).map (·.value) = [37.5] ∧
      reopened.ledger.tables.lastTestedRun? ⟨-7⟩ = some ⟨1⟩ ∧
      reopened.ledger.tables.aggregates = [⟨⟨1⟩, ⟨-7⟩, none, ⟨3⟩, 0, 1, 0⟩] := by
  intro t directory s₀ result ops s reopened
  have hempty : directory.list? t = some [] := by decide +kernel
  have hsound : t.IsSound := by
    intro g hg
    cases hg
  have hfollow : directory.follow t = .ok ["store"] := by decide +kernel
  have hopen : inFolder t directory = (.ok s₀, t) :=
    inFolder_of_missing (Route.makeFolder_run hfollow rfl) (by decide +kernel) (by decide +kernel)
  have hops : ∀ op ∈ ops, op.ReadsBack := by
    have hread : Instant.read? (⟨1700000000, 123000000⟩ : Instant).text =
        some ⟨1700000000, 123000000⟩ := by decide +kernel
    have hforty : (Write.replaceInfo ⟨⟨1⟩, ⟨-7⟩, ⟨5⟩, ⟨2⟩, 40.0⟩).ReadsBack := by
      unfold Write.ReadsBack
      decide +kernel
    have hvalue : (Write.replaceInfo ⟨⟨1⟩, ⟨-7⟩, ⟨5⟩, ⟨2⟩, 37.5⟩).ReadsBack := by
      unfold Write.ReadsBack
      decide +kernel
    simp only [ops, List.forall_mem_cons, List.not_mem_nil, false_implies, implies_true, and_true,
      Operation.ReadsBack, hread, hforty, hvalue]
  have hrun : (performAll ops).run s₀ = (.ok (), s) := Prod.ext (by decide +kernel) rfl
  exact ⟨hempty, hopen, hrun, inFolder_of_performAll hsound hempty hopen hops hrun,
    by decide +kernel, by decide +kernel, by decide +kernel, by decide +kernel⟩

end DirectoryStore

end DataQuality
