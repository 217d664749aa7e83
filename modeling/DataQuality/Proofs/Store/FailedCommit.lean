import DataQuality.Proofs.Json.Torn
import DataQuality.Proofs.Store.TornJournal

/-!
# Failed commits

A commit fails if its line cannot be added to the journal, or not be brought to disk.
What has been written of the line by then stays in the journal. The writes are dropped
from memory, and the store goes on: the next commit is added behind what is there. If
that is part of a line, the two make one line that is no commit, and the store cannot
be opened again. If it is the whole line, the commit takes effect after all.
-/
namespace DataQuality

open Files (Path Route Tree)

theorem Tables.eq_of_withOrganisations {a b : Tables}
    {organisations : List (PackageId × List Target)}
    (h : { a with organisations := organisations } = { b with organisations := organisations })
    (hsame : a.organisations = b.organisations) : a = b := by
  cases a
  cases b
  simp_all

namespace Journal

theorem isRecords_body {writes : List Write} (hne : writes ≠ []) :
    Json.IsRecords (body writes).toList := by
  obtain ⟨w, rest, rfl⟩ := List.exists_cons_of_ne_nil hne
  unfold body Json.render
  rw [String.toList_ofList]
  exact Json.isRecords_chars (writable_writes (w :: rest)) rfl rfl (by decide)

/-- A commit that is written behind part of another one is not read. -/
theorem readLine?_torn {first next : List Write} (hnext : next ≠ []) {text : String}
    (hne : text ≠ "") (htext : text.toList <+: (body first).toList) :
    readLine? (text ++ body next) = none := by
  have hparse : Json.parse (text ++ body next) = none := by
    refine Json.parse_torn (isRecords_body hnext) (writable_writes first) (by simpa using hne) ?_
      String.toList_append
    unfold body Json.render at htext
    rwa [String.toList_ofList] at htext
  unfold readLine?
  rw [hparse]
  rfl

/-- Nor is it replayed. -/
theorem replay?_torn_line {first next : List Write} (hnext : next ≠ []) {text : String}
    (hne : text ≠ "") (htext : text.toList <+: (body first).toList) (t : Tables) :
    replay? t (text ++ line next) = none := by
  have hreturn : Text.dropReturn (text ++ body next).toList = (text ++ body next).toList := by
    unfold Text.dropReturn
    rw [if_neg]
    rw [String.toList_append, toList_body, ← List.cons_append, ← List.append_assoc,
      List.getLast?_concat]
    simp
  have hblank : Text.isAllBlank (text ++ body next) = false := by
    unfold Text.isAllBlank
    rw [String.toList_append, List.all_append, toList_body]
    simp [Text.isBlank]
  have hbreak : '\n' ∉ (text ++ body next).toList := by
    rw [String.toList_append, List.mem_append, not_or]
    exact ⟨fun hmem => newline_not_mem_body first (htext.mem hmem), newline_not_mem_body next⟩
  have hread := replay?_of_unread hbreak hreturn hblank (readLine?_torn hnext hne htext) t
  rwa [String.append_assoc] at hread

end Journal

namespace DirectoryStore

variable {s s' : DirectoryStore} {base : Path} {journal : String} {content : ByteArray}

/-- Adds bytes to a file, and tells whether that was reported to be done. -/
abbrev Append := Route → ByteArray → Tree → Bool × Tree

/-- Adds all of the bytes, if the file can be written. -/
def fullAppend : Append := fun path bytes t =>
  match path.append? bytes t with
  | some t => (true, t)
  | none => (false, t)

/-- Adds the first `n` bytes, all of them if they are no more, and then reports an error. -/
def partialAppend (n : Nat) : Append := fun path bytes t =>
  (false, (path.append? (bytes.extract 0 n) t).getD t)

/-- Carries out a commit by such an addition to the journal. -/
def commitBy (append : Append) : StoreM DirectoryStore Unit := do
  let s ← get
  if s.ledger.staged.isEmpty then return
  let line := Journal.line s.ledger.staged
  match append (s.directory.join journalName) line.toUTF8 s.tree with
  | (true, tree) => set { s with tree := tree, ledger := s.ledger.settle }
  | (false, tree) => do
    set { s with tree := tree }
    throw .io

theorem commitBy_run (append : Append) (hstaged : s.ledger.staged ≠ []) :
    (commitBy append).run s =
      let added := append (s.directory.join journalName) (Journal.line s.ledger.staged).toUTF8 s.tree
      if added.1 then (.ok (), { s with tree := added.2, ledger := s.ledger.settle })
      else (.error .io, { s with tree := added.2 }) := by
  have he : ¬ s.ledger.staged.isEmpty = true := by simpa using hstaged
  change (if s.ledger.staged.isEmpty = true then _ else _ : StoreM DirectoryStore Unit).run s = _
  rw [if_neg he]
  rcases append (s.directory.join journalName) (Journal.line s.ledger.staged).toUTF8 s.tree with
    ⟨_ | _, tree⟩ <;> rfl

/-- A commit adds its whole line. -/
theorem commitBy_fullAppend : commitBy fullAppend = commit := by
  funext s
  change (commitBy fullAppend).run s = commit.run s
  rw [commit_run]
  by_cases hstaged : s.ledger.staged = []
  · have he : s.ledger.staged.isEmpty = true := by simpa using hstaged
    rw [if_pos hstaged]
    change (if s.ledger.staged.isEmpty = true then _ else _ : StoreM DirectoryStore Unit).run s = _
    rw [if_pos he]
    rfl
  · rw [if_neg hstaged, commitBy_run fullAppend hstaged]
    unfold fullAppend
    cases (s.directory.join journalName).append? (Journal.line s.ledger.staged).toUTF8 s.tree <;> rfl

/-- Carries out a commit that fails when `n` bytes of its line have been written, drops
its writes, and goes on with more operations. -/
def goOnAfterFailure (n : Nat) (ops : List Operation) : StoreM DirectoryStore Unit := do
  tryCatch (commitBy (partialAppend n)) fun _ => Datastore.rollback
  performAll ops

namespace Operation

def onLedger : Operation → Ledger → Ledger
  | .saveResult r, l => l.stage (.saveResult r)
  | .deleteResults p, l => l.stage (.deleteResults p)
  | .replaceInfo r, l => l.stage (.replaceInfo r)
  | .startRun now, l => (l.startRun now).2
  | .recordTestrun p r, l => l.stage (.recordTestrun p r)
  | .setStatus p st, l => l.stage (.setStatus p st)
  | .aggregate r p, l => (l.aggregate r p).2
  | .setOrganisations p targets, l => { l with tables := l.tables.setOrganisations p targets }
  | .commit _, l => l.settle
  | .rollback, l => l.discard

/-- The commits that an operation adds to a journal: one or none. -/
def commits : Operation → Ledger → List (List Write)
  | .commit _, l => if l.staged = [] then [] else [l.staged]
  | _, _ => []

end Operation

/-- What operations do to tables and staged writes, one after the other. -/
def ledgerAfter (ops : List Operation) (l : Ledger) : Ledger := ops.foldl (fun l op => op.onLedger l) l

/-- The commits that operations add to a journal. -/
def commitsOf : List Operation → Ledger → List (List Write)
  | [], _ => []
  | op :: rest, l => op.commits l ++ commitsOf rest (op.onLedger l)

/-- What an operation that succeeds does to tables and staged writes, whatever the files hold. -/
theorem ledger_perform {op : Operation} (hrun : (perform op).run s = (.ok (), s')) :
    s'.ledger = op.onLedger s.ledger := by
  cases op with
  | setOrganisations p targets =>
    have hledger := ledger_setOrganisations p targets s
    change (setOrganisations p targets).run s = _ at hrun
    rw [hrun] at hledger
    exact hledger
  | commit message =>
    change commit.run s = _ at hrun
    obtain ⟨_, -, hledger⟩ | ⟨⟨e, herror⟩, -⟩ := obeys_commit s
    · rw [hrun] at hledger
      exact (Prod.mk.inj hledger).2.symm
    · rw [hrun] at herror
      cases herror
  | _ =>
    obtain rfl := (Prod.mk.inj hrun).2
    rfl

/-- What is true of a store whose journal holds these bytes, whether or not they are a
journal: nothing else is wrong with its files. -/
structure Keeps (s : DirectoryStore) (base : Path) (content : ByteArray) : Prop where
  home : Home s.tree s.directory base
  organisations : loadOrganisations s.tree s.directory = .ok s.ledger.tables.organisations
  file : s.tree.lookup? (base ++ [journalName]) = some (.file content)

/-- Each operation adds its commits to the journal, whatever that holds. -/
theorem Keeps.perform (h : Keeps s base content) {op : Operation}
    (hrun : (perform op).run s = (.ok (), s')) :
    s'.directory = s.directory ∧ s'.ledger = op.onLedger s.ledger ∧
      Keeps s' base (content ++ (Journal.ofCommits (op.commits s.ledger)).toUTF8) := by
  refine and_left_comm.1 ⟨ledger_perform hrun, ?_⟩
  have hnothing : content ++ (Journal.ofCommits []).toUTF8 = content := by
    rw [Journal.ofCommits_nil]
    simp
  have hledger (l : Ledger) (hsame : l.tables = s.ledger.tables) :
      Keeps { s with ledger := l } base (content ++ (Journal.ofCommits []).toUTF8) := by
    rw [hnothing]
    refine ⟨h.home, ?_, h.file⟩
    rw [hsame]
    exact h.organisations
  cases op with
  | setOrganisations p targets =>
    obtain ⟨hdirectory, -, hhome, hload, hsame⟩ :=
      h.home.setOrganisations (ordered_of_loadOrganisations h.organisations) hrun
    refine ⟨hdirectory, ?_⟩
    change Keeps s' base (content ++ (Journal.ofCommits []).toUTF8)
    rw [hnothing]
    exact ⟨by rwa [hdirectory], by rwa [hdirectory], hsame.trans h.file⟩
  | commit message =>
    change commit.run s = _ at hrun
    rw [commit_run] at hrun
    by_cases hstaged : s.ledger.staged = []
    · rw [if_pos hstaged] at hrun
      obtain rfl := (Prod.mk.inj hrun).2
      rw [Operation.commits, if_pos hstaged, hnothing]
      exact ⟨rfl, h⟩
    · rw [if_neg hstaged, h.home.append?_of_file journalName_mem h.home.journal h.file] at hrun
      obtain rfl := (Prod.mk.inj hrun).2
      have hhome := h.home.put journalName_mem (content ++ (Journal.line s.ledger.staged).toUTF8)
      have horganisations : s.ledger.settle.tables.organisations = s.ledger.tables.organisations :=
        Tables.organisations_applyAll _ _
      rw [Operation.commits, if_neg hstaged, Journal.ofCommits_cons, Journal.ofCommits_nil,
        String.append_empty]
      refine ⟨rfl, hhome, ?_, Tree.lookup?_put _ _ _ (by simp)⟩
      rw [h.home.loadOrganisations_eq hhome
        (h.home.lookup?_put_other journalName_mem _ organisationsName_ne), horganisations]
      exact h.organisations
  | _ =>
    obtain rfl := (Prod.mk.inj hrun).2
    exact ⟨rfl, hledger _ rfl⟩

/-- A run of operations adds its commits to the journal, whatever that holds. -/
theorem Keeps.performAll (h : Keeps s base content) {ops : List Operation}
    (hrun : (performAll ops).run s = (.ok (), s')) :
    s'.directory = s.directory ∧ s'.ledger = ledgerAfter ops s.ledger ∧
      Keeps s' base (content ++ (Journal.ofCommits (commitsOf ops s.ledger)).toUTF8) := by
  induction ops generalizing s content with
  | nil =>
    obtain rfl := (Prod.mk.inj hrun).2
    rw [commitsOf, Journal.ofCommits_nil]
    exact ⟨rfl, rfl, by simpa using h⟩
  | cons op rest ih =>
    obtain ⟨s₁, hfirst, hrest⟩ := performAll_cons hrun
    obtain ⟨hdirectory₁, hledger₁, hkeeps₁⟩ := h.perform hfirst
    obtain ⟨hdirectory, hledger, hkeeps⟩ := ih hkeeps₁ hrest
    refine ⟨hdirectory.trans hdirectory₁, ?_, ?_⟩
    · rw [hledger, hledger₁]
      rfl
    · rw [hledger₁, ByteArray.append_assoc, ← toUTF8_append, ← Journal.ofCommits_append] at hkeeps
      exact hkeeps

/-- An operation changes the tables by its commits, apart from the organisations. -/
theorem tables_onLedger (op : Operation) (l : Ledger)
    (organisations : List (PackageId × List Target)) :
    { (op.onLedger l).tables with organisations := organisations } =
      { l.tables.applyAll (op.commits l).flatten with organisations := organisations } := by
  cases op with
  | commit message =>
    rw [Operation.commits]
    split_ifs with hstaged
    · change { l.tables.applyAll l.staged with organisations := organisations } = _
      rw [hstaged]
      rfl
    · rw [List.flatten_singleton]
      rfl
  | _ => rfl

/-- Operations change the tables by their commits, apart from the organisations. -/
theorem tables_ledgerAfter (ops : List Operation) (l : Ledger)
    (organisations : List (PackageId × List Target)) :
    { (ledgerAfter ops l).tables with organisations := organisations } =
      { l.tables.applyAll (commitsOf ops l).flatten with organisations := organisations } := by
  induction ops generalizing l with
  | nil => rfl
  | cons op rest ih =>
    have hfirst := tables_onLedger op l organisations
    have hrest := ih (op.onLedger l)
    rw [commitsOf, List.flatten_append, Tables.applyAll_append,
      ← Tables.applyAll_withOrganisations, ← hfirst, Tables.applyAll_withOrganisations]
    exact hrest

theorem readsBack_onLedger {op : Operation} {l : Ledger} (hop : op.ReadsBack)
    (hl : ∀ w ∈ l.staged, w.ReadsBack) : ∀ w ∈ (op.onLedger l).staged, w.ReadsBack := by
  have hstage {w : Write} (hw : w.ReadsBack) : ∀ v ∈ (l.stage w).staged, v.ReadsBack := by
    intro v hv
    rcases List.mem_append.1 hv with hv | hv
    · exact hl v hv
    · obtain rfl := List.mem_singleton.1 hv
      exact hw
  cases op with
  | saveResult r => exact hstage (w := .saveResult r) trivial
  | deleteResults p => exact hstage (w := .deleteResults p) trivial
  | replaceInfo r => exact hstage (w := .replaceInfo r) hop
  | startRun now => exact hstage (w := .startRun ⟨l.tables.nextRuntimeId l.staged, now⟩) hop
  | recordTestrun p r => exact hstage (w := .recordTestrun p r) trivial
  | setStatus p st => exact hstage (w := .setStatus p st) trivial
  | aggregate r p => exact hstage (w := .putAggregates r p (l.tables.aggregate r p)) trivial
  | setOrganisations p targets => exact hl
  | commit message => exact fun _ hw => by cases hw
  | rollback => exact fun _ hw => by cases hw

theorem readsBack_commits {op : Operation} {l : Ledger} (hl : ∀ w ∈ l.staged, w.ReadsBack) :
    ∀ writes ∈ op.commits l, ∀ w ∈ writes, w.ReadsBack := by
  cases op with
  | commit message =>
    rw [Operation.commits]
    split_ifs
    · intro writes hwrites
      cases hwrites
    · intro writes hwrites
      rwa [List.mem_singleton.1 hwrites]
  | _ =>
    intro writes hwrites
    cases hwrites

/-- The writes of the commits that operations make are read back. -/
theorem readsBack_commitsOf {ops : List Operation} {l : Ledger}
    (hops : ∀ op ∈ ops, op.ReadsBack) (hl : ∀ w ∈ l.staged, w.ReadsBack) :
    ∀ writes ∈ commitsOf ops l, ∀ w ∈ writes, w.ReadsBack := by
  induction ops generalizing l with
  | nil =>
    intro writes hwrites
    cases hwrites
  | cons op rest ih =>
    intro writes hwrites
    rcases List.mem_append.1 hwrites with hwrites | hwrites
    · exact readsBack_commits hl writes hwrites
    · exact ih (fun other hother => hops other (by simp [hother]))
        (readsBack_onLedger (hops op (by simp)) hl) writes hwrites

/-- Nothing is written for a commit of nothing. -/
theorem ne_nil_of_mem_commitsOf {ops : List Operation} {l : Ledger} :
    ∀ writes ∈ commitsOf ops l, writes ≠ [] := by
  induction ops generalizing l with
  | nil =>
    intro writes hwrites
    cases hwrites
  | cons op rest ih =>
    intro writes hwrites
    rcases List.mem_append.1 hwrites with hwrites | hwrites
    · cases op with
      | commit message =>
        rw [Operation.commits] at hwrites
        split_ifs at hwrites with hstaged
        · cases hwrites
        · rwa [List.mem_singleton.1 hwrites]
      | _ => cases hwrites
    · exact ih writes hwrites

/-- Opening the directory of a store again gives the tables that it holds itself, with
nothing staged. -/
def Reopens (s : DirectoryStore) : Prop :=
  ∃ t, inFolder s.tree s.directory = (.ok ⟨t, s.directory, s.ledger.discard⟩, t)

/-- A store is opened again exactly if its tables are those that its journal is replayed
as; what was never completed does not count. -/
theorem Keeps.reopens_iff {torn : String} (h : Keeps s base (journal ++ torn).toUTF8)
    (hcomplete : Journal.IsComplete journal) (htorn : '\n' ∉ torn.toList) :
    Reopens s ↔ Journal.replay? (Tables.listing s.ledger.tables.organisations) journal =
      some s.ledger.tables := by
  constructor
  · rintro ⟨t, hopen⟩
    cases hreplay : Journal.replay? (Tables.listing s.ledger.tables.organisations) journal with
    | none =>
      have herror := h.home.inFolder_of_unread h.organisations hcomplete htorn h.file hreplay
      rw [hopen] at herror
      cases herror
    | some tables =>
      obtain ⟨s', hopen', -, hledger, -, -⟩ :=
        h.home.inFolder_of_torn h.organisations hcomplete htorn h.file hreplay
      obtain rfl := Except.ok.inj (Prod.mk.inj (hopen.symm.trans hopen')).1
      exact congrArg (some ·.tables) hledger.symm
  · intro hreplay
    obtain ⟨s', hopen, hdirectory, hledger, -, -⟩ :=
      h.home.inFolder_of_torn h.organisations hcomplete htorn h.file hreplay
    have hsame : s' = ⟨s'.tree, s.directory, s.ledger.discard⟩ := by
      change s' = ⟨s'.tree, s.directory, .ofTables s.ledger.tables⟩
      rw [← hdirectory, ← hledger]
    exact ⟨s'.tree, hopen.trans (congrArg (fun store => (Except.ok store, s'.tree)) hsame)⟩

/-- A store whose journal does not end with text is not opened again. -/
theorem Keeps.not_reopens {torn : ByteArray} (h : Keeps s base (journal.toUTF8 ++ torn))
    (htorn : ¬ torn.IsValidUTF8) : ¬ Reopens s := by
  rintro ⟨t, hopen⟩
  rw [h.home.inFolder_of_not_isValidUTF8 h.organisations htorn h.file] at hopen
  cases hopen

/-- After a commit that failed, the journal holds what was written of its line, and behind
that the commits that were made later; in memory, nothing is left of it. -/
theorem Stored.keeps_of_failure (h : Stored s base journal) (hstaged : s.ledger.staged ≠ [])
    {n : Nat} {ops : List Operation} (hrun : (goOnAfterFailure n ops).run s = (.ok (), s')) :
    s'.directory = s.directory ∧ s'.ledger = ledgerAfter ops s.ledger.discard ∧
      Keeps s' base (journal.toUTF8 ++ ((Journal.line s.ledger.staged).toUTF8.extract 0 n ++
        (Journal.ofCommits (commitsOf ops s.ledger.discard)).toUTF8)) := by
  obtain ⟨tree, happend, hhome, hfile, hsame⟩ :=
    h.append? ((Journal.line s.ledger.staged).toUTF8.extract 0 n)
  have hfailed : (commitBy (partialAppend n)).run s = (.error .io, { s with tree := tree }) := by
    rw [commitBy_run _ hstaged]
    unfold partialAppend
    rw [happend]
    rfl
  have hdropped : (tryCatch (commitBy (partialAppend n)) fun _ => Datastore.rollback :
      StoreM DirectoryStore Unit).run s = (.ok (), ⟨tree, s.directory, s.ledger.discard⟩) := by
    simp only [tryCatch, tryCatchThe, MonadExceptOf.tryCatch, ExceptT.tryCatch, ExceptT.run,
      ExceptT.mk, bind, StateT.bind] at hfailed ⊢
    rw [hfailed]
    rfl
  have hkeeps : Keeps ⟨tree, s.directory, s.ledger.discard⟩ base
      (journal.toUTF8 ++ (Journal.line s.ledger.staged).toUTF8.extract 0 n) := by
    refine ⟨hhome, ?_, hfile⟩
    rw [h.home.loadOrganisations_eq hhome hsame]
    exact h.organisations
  rw [goOnAfterFailure, run_bind, hdropped] at hrun
  have hgoes := hkeeps.performAll hrun
  rwa [ByteArray.append_assoc] at hgoes

/-- Commits behind a journal are replayed on the tables that it gives, whatever the
organisations are by then. -/
theorem Stored.replay?_append (h : Stored s base journal)
    (organisations : List (PackageId × List Target)) {commits : List (List Write)}
    (hcommits : ∀ writes ∈ commits, ∀ w ∈ writes, w.ReadsBack) :
    Journal.replay? (Tables.listing organisations) (journal ++ Journal.ofCommits commits) =
      some { s.ledger.tables.applyAll commits.flatten with organisations := organisations } := by
  have hbase := Journal.replay?_withOrganisations
    (Tables.listing s.ledger.tables.organisations) organisations journal
  rw [h.tables, Option.map_some] at hbase
  change Journal.replay? (Tables.listing organisations) journal = _ at hbase
  rw [Journal.replay?_append h.complete (Journal.isComplete_ofCommits commits), hbase,
    Option.bind_some, Journal.replay?_ofCommits _ hcommits, Tables.applyAll_withOrganisations]

/-- Part of a line and the first commit behind it make a line that is not replayed. -/
theorem Stored.replay?_torn_line (h : Stored s base journal)
    (organisations : List (PackageId × List Target)) {first next : List Write}
    {rest : List (List Write)} (hnext : next ≠ []) {text : String} (hne : text ≠ "")
    (htext : text.toList <+: (Journal.body first).toList) :
    Journal.replay? (Tables.listing organisations)
      (journal ++ (text ++ Journal.ofCommits (next :: rest))) = none := by
  have hline : Journal.IsComplete (text ++ Journal.line next) := Journal.isComplete_append_line _ _
  have hrest := Journal.isComplete_ofCommits rest
  have hcontent : text ++ Journal.ofCommits (next :: rest) =
      text ++ Journal.line next ++ Journal.ofCommits rest := by
    rw [Journal.ofCommits_cons, String.append_assoc]
  rw [hcontent, Journal.replay?_append h.complete (hline.append hrest)]
  cases Journal.replay? (Tables.listing organisations) journal with
  | none => rfl
  | some tables =>
    rw [Option.bind_some, Journal.replay?_append hline hrest,
      Journal.replay?_torn_line hnext hne htext, Option.bind_none]

/-- If the journal holds some commits behind the earlier ones, the store is opened again
exactly if they give the same tables as the later commits in memory. -/
theorem Stored.reopens_iff (h : Stored s base journal) {commits later : List (List Write)}
    (hcommits : ∀ writes ∈ commits, ∀ w ∈ writes, w.ReadsBack) {torn : String}
    (htorn : '\n' ∉ torn.toList)
    (hkeeps : Keeps s' base (journal ++ Journal.ofCommits commits ++ torn).toUTF8)
    (htables : s'.ledger.tables = { s.ledger.tables.applyAll later.flatten with
      organisations := s'.ledger.tables.organisations }) :
    Reopens s' ↔ s.ledger.tables.applyAll commits.flatten =
      s.ledger.tables.applyAll later.flatten := by
  rw [hkeeps.reopens_iff (h.complete.append (Journal.isComplete_ofCommits commits)) htorn,
    h.replay?_append _ hcommits]
  constructor
  · intro hsame
    exact Tables.eq_of_withOrganisations ((Option.some.inj hsame).trans htables)
      (by simp only [Tables.organisations_applyAll])
  · intro hsame
    rw [hsame, ← htables]

/-- If the journal holds part of the line of a commit behind the earlier ones, the store
is opened again exactly if the part is text and nothing comes behind it. -/
theorem Stored.reopens_iff_of_part (h : Stored s base journal) {first : List Write}
    {later : List (List Write)} {torn rest : ByteArray}
    (hline : torn ++ rest = (Journal.line first).toUTF8) (htorn : torn ≠ ByteArray.empty)
    (hrest : rest ≠ ByteArray.empty) (hlater : ∀ writes ∈ later, writes ≠ [])
    (hkeeps : Keeps s' base (journal.toUTF8 ++ (torn ++ (Journal.ofCommits later).toUTF8)))
    (htables : s'.ledger.tables = { s.ledger.tables.applyAll later.flatten with
      organisations := s'.ledger.tables.organisations }) :
    Reopens s' ↔ torn.IsValidUTF8 ∧ later = [] := by
  by_cases hvalid : torn.IsValidUTF8
  · obtain ⟨text, rfl, hfront⟩ := Journal.exists_front_of_torn hline hrest hvalid
    simp only [hvalid, true_and]
    cases later with
    | nil =>
      have hbreak : '\n' ∉ text.toList := fun hmem =>
        Journal.newline_not_mem_body first (hfront.mem hmem)
      have hcontent : journal.toUTF8 ++ (text.toUTF8 ++ (Journal.ofCommits []).toUTF8) =
          (journal ++ Journal.ofCommits [] ++ text).toUTF8 := by
        rw [Journal.ofCommits_nil, String.append_empty, toUTF8_append]
        simp
      rw [hcontent] at hkeeps
      rw [h.reopens_iff (by simp) hbreak hkeeps htables]
      simp
    | cons next later =>
      have hnext : next ≠ [] := hlater next (by simp)
      have hne : text ≠ "" := by
        rintro rfl
        exact htorn rfl
      have hcomplete : Journal.IsComplete (text ++ Journal.ofCommits (next :: later)) := by
        rw [Journal.ofCommits_cons, ← String.append_assoc]
        exact (Journal.isComplete_append_line text next).append (Journal.isComplete_ofCommits later)
      have hcontent : journal.toUTF8 ++ (text.toUTF8 ++ (Journal.ofCommits (next :: later)).toUTF8) =
          (journal ++ (text ++ Journal.ofCommits (next :: later)) ++ "").toUTF8 := by
        rw [String.append_empty, toUTF8_append, toUTF8_append]
      rw [hcontent] at hkeeps
      rw [hkeeps.reopens_iff (h.complete.append hcomplete) (by simp),
        h.replay?_torn_line _ hnext hne hfront]
      simp
  · simp only [hvalid, false_and, iff_false]
    exact hkeeps.not_reopens fun hboth => hvalid (isValidUTF8_of_append hboth)

/-- The tables of a store that went on are those that its commits give, apart from the
organisations. -/
theorem tables_of_ledgerAfter {ops : List Operation}
    (hledger : s'.ledger = ledgerAfter ops s.ledger.discard) :
    s'.ledger.tables = { s.ledger.tables.applyAll (commitsOf ops s.ledger.discard).flatten with
      organisations := s'.ledger.tables.organisations } := by
  have htables := tables_ledgerAfter ops s.ledger.discard s'.ledger.tables.organisations
  rw [← hledger] at htables
  exact htables

/-- After part of a line was written, the store is opened again exactly if the part is text
and no commit was made since. -/
theorem Stored.reopens_iff_of_partly_written (h : Stored s base journal)
    (hstaged : s.ledger.staged ≠ []) {n : Nat} {ops : List Operation} (hsome : 0 < n)
    (hpart : n < (Journal.line s.ledger.staged).toUTF8.size)
    (hrun : (goOnAfterFailure n ops).run s = (.ok (), s')) :
    Reopens s' ↔ ((Journal.line s.ledger.staged).toUTF8.extract 0 n).IsValidUTF8 ∧
      commitsOf ops s.ledger.discard = [] := by
  obtain ⟨-, hledger, hkeeps⟩ := h.keeps_of_failure hstaged hrun
  generalize hbytes : (Journal.line s.ledger.staged).toUTF8 = line at hpart hkeeps
  have hline : line.extract 0 n ++ line.extract n line.size = line := by
    rw [ByteArray.extract_append_extract, Nat.zero_min, Nat.max_eq_right hpart.le,
      ByteArray.extract_zero_size]
  have htorn : line.extract 0 n ≠ ByteArray.empty := by
    rw [Ne, ByteArray.extract_eq_empty_iff]
    omega
  have hrest : line.extract n line.size ≠ ByteArray.empty := by
    rw [Ne, ByteArray.extract_eq_empty_iff]
    omega
  exact h.reopens_iff_of_part (hline.trans hbytes.symm) htorn hrest ne_nil_of_mem_commitsOf hkeeps
    (tables_of_ledgerAfter hledger)

/-- A store that went on after a commit that failed is opened again with what it holds
exactly if nothing was written of the commit, or if part of it was written, in whole
characters, and no commit was made since, or if all of it was written and makes no
difference to the tables. -/
theorem reopens_goOnAfterFailure_iff (h : Stored s base journal) (hstaged : s.ledger.staged ≠ [])
    {n : Nat} {ops : List Operation} (hops : ∀ op ∈ ops, op.ReadsBack)
    (hrun : (goOnAfterFailure n ops).run s = (.ok (), s')) :
    let line := (Journal.line s.ledger.staged).toUTF8
    let later := commitsOf ops s.ledger.discard
    s'.ledger = ledgerAfter ops s.ledger.discard ∧
      (Reopens s' ↔ n = 0 ∨
        (n < line.size ∧ (line.extract 0 n).IsValidUTF8 ∧ later = []) ∨
        (line.size ≤ n ∧ s.ledger.tables.applyAll (s.ledger.staged ++ later.flatten) =
          s.ledger.tables.applyAll later.flatten)) := by
  intro line later
  obtain ⟨-, hledger, hkeeps⟩ := h.keeps_of_failure hstaged hrun
  refine ⟨hledger, ?_⟩
  have hlater : ∀ writes ∈ later, ∀ w ∈ writes, w.ReadsBack :=
    readsBack_commitsOf hops fun _ hw => by cases hw
  have htables := tables_of_ledgerAfter hledger
  change Keeps s' base (journal.toUTF8 ++ (line.extract 0 n ++ (Journal.ofCommits later).toUTF8))
    at hkeeps
  rcases Nat.eq_zero_or_pos n with rfl | hsome
  · -- nothing was written: the journal holds the later commits and no other
    have hcontent : journal.toUTF8 ++ (line.extract 0 0 ++ (Journal.ofCommits later).toUTF8) =
        (journal ++ Journal.ofCommits later ++ "").toUTF8 := by
      rw [String.append_empty, toUTF8_append]
      simp
    rw [hcontent] at hkeeps
    rw [h.reopens_iff hlater (by simp) hkeeps htables]
    simp [later]
  by_cases hwhole : line.size ≤ n
  · -- all of it was written: the journal holds the commit like any other
    have hall : line.extract 0 n = line := by
      rw [← Nat.max_eq_left hwhole, ByteArray.extract_zero_max_size]
    have hcontent : journal.toUTF8 ++ (line.extract 0 n ++ (Journal.ofCommits later).toUTF8) =
        (journal ++ Journal.ofCommits (s.ledger.staged :: later) ++ "").toUTF8 := by
      rw [String.append_empty, Journal.ofCommits_cons, toUTF8_append, toUTF8_append, hall]
    have hboth : ∀ writes ∈ s.ledger.staged :: later, ∀ w ∈ writes, w.ReadsBack :=
      List.forall_mem_cons.2 ⟨h.staged, hlater⟩
    rw [hcontent] at hkeeps
    rw [h.reopens_iff hboth (by simp) hkeeps htables, List.flatten_cons]
    simp only [hwhole, true_and, hsome.ne', Nat.not_lt.2 hwhole, false_and, false_or, later]
  · have hpart : n < line.size := Nat.lt_of_not_le hwhole
    rw [h.reopens_iff_of_partly_written hstaged hsome hpart hrun]
    simp only [hwhole, hsome.ne', hpart, false_and, true_and, false_or, or_false, line, later]

theorem run_eq_of_ok {σ α : Type} {m : StoreM σ α} {s : σ} {a : α} (h : (m.run s).1 = .ok a) :
    m.run s = (.ok a, (m.run s).2) := Prod.ext h rfl

/-- A store in an empty folder, with a commit staged. -/
def waiting : DirectoryStore :=
  ⟨{ entries := [(["store"], .folder)] }, ⟨[], "store"⟩, ⟨Tables.listing [], accented⟩⟩

theorem stored_waiting : Stored waiting ["store"] "" := by
  have hhome : Home waiting.tree waiting.directory ["store"] :=
    .of_ungrouped rfl rfl rfl (by decide +kernel) (by decide +kernel) (by decide +kernel)
  refine ⟨hhome, ?_, .inr ⟨rfl, rfl⟩, Journal.isComplete_empty, rfl, ?_⟩
  · unfold loadOrganisations
    rw [hhome.readText_of_none organisationsName_mem hhome.organisations rfl]
    rfl
  · exact readsBack_accented accented (by simp)

/-- Another commit, after the one that fails. -/
def afterwards : List Operation :=
  [.saveResult ⟨⟨2⟩, ⟨7⟩, ⟨3⟩, .fail, none, 1, none⟩, .commit "afterwards"]

/-- The commit fails before anything is written. -/
theorem reopens_goOnAfterFailure_iff_nothing_written :
    let s' := ((goOnAfterFailure 0 afterwards).run waiting).2
    Stored waiting ["store"] "" ∧ waiting.ledger.staged ≠ [] ∧
      (∀ op ∈ afterwards, op.ReadsBack) ∧
      (goOnAfterFailure 0 afterwards).run waiting = (.ok (), s') ∧ Reopens s' := by
  intro s'
  have hstaged : waiting.ledger.staged ≠ [] := by simp [waiting, accented]
  have hops : ∀ op ∈ afterwards, op.ReadsBack := by simp [afterwards, Operation.ReadsBack]
  have hrun : (goOnAfterFailure 0 afterwards).run waiting = (.ok (), s') :=
    run_eq_of_ok (by decide +kernel)
  exact ⟨stored_waiting, hstaged, hops, hrun,
    (reopens_goOnAfterFailure_iff stored_waiting hstaged hops hrun).2.2 (.inl rfl)⟩

/-- The commit fails when one byte has been written. -/
theorem not_reopens_after_one_byte :
    let s' := ((goOnAfterFailure 1 afterwards).run waiting).2
    Stored waiting ["store"] "" ∧ waiting.ledger.staged ≠ [] ∧
      (∀ op ∈ afterwards, op.ReadsBack) ∧
      (goOnAfterFailure 1 afterwards).run waiting = (.ok (), s') ∧ ¬ Reopens s' := by
  intro s'
  have hstaged : waiting.ledger.staged ≠ [] := by simp [waiting, accented]
  have hops : ∀ op ∈ afterwards, op.ReadsBack := by simp [afterwards, Operation.ReadsBack]
  have hrun : (goOnAfterFailure 1 afterwards).run waiting = (.ok (), s') :=
    run_eq_of_ok (by decide +kernel)
  refine ⟨stored_waiting, hstaged, hops, hrun, ?_⟩
  have hpart : 1 < (Journal.line accented).toUTF8.size := by decide +kernel
  rw [stored_waiting.reopens_iff_of_partly_written hstaged Nat.one_pos hpart hrun]
  rintro ⟨-, hnone⟩
  cases hnone

end DirectoryStore

end DataQuality
