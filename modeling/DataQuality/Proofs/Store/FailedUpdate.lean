import DataQuality.Proofs.Store.FailedCommit

/-!
# Failed updates of organisations

To replace the organisations of a package, a store changes its tables, then writes a
temporary file, and then lets that take the place of the file of organisations. Where
the writing or the renaming fails, the tables stay changed: the open store answers the
new organisations, while its directory still gives the old ones. The next update that
succeeds, of whatever package, writes the tables, and the failed one takes effect.
-/
namespace DataQuality

open Files (Path Route Tree)

namespace DirectoryStore

variable {s s' s'' : DirectoryStore} {base : Path} {journal : String}
  {saved : List (PackageId × List Target)} {p : PackageId} {targets : List Target}

/-- Writes a file, and tells whether that was reported to be done. -/
abbrev Writing := Route → ByteArray → Tree → Bool × Tree

/-- Lets one file take the place of another, and tells whether that was reported to be done. -/
abbrev Renaming := Route → Route → Tree → Bool × Tree

/-- What is reported to be written has been written. Otherwise the file may be as it was,
or hold anything. -/
structure IsWriting (write : Writing) : Prop where
  done : ∀ {r bytes t t'}, write r bytes t = (true, t') → r.write? bytes t = some t'
  failed : ∀ {r bytes t t'}, write r bytes t = (false, t') →
    t' = t ∨ ∃ part, r.write? part t = some t'

/-- A file takes the place of another, or both stay. -/
structure IsRenaming (rename : Renaming) : Prop where
  done : ∀ {r r' t t'}, rename r r' t = (true, t') → r.rename? r' t = some t'
  failed : ∀ {r r' t t'}, rename r r' t = (false, t') → t' = t

/-- Writes all of the bytes, if the file can be written. -/
def fullWriting : Writing := fun r bytes t =>
  match r.write? bytes t with
  | some t => (true, t)
  | none => (false, t)

/-- Writes the first `n` bytes, all of them if they are no more, and then reports an error. -/
def partialWriting (n : Nat) : Writing := fun r bytes t =>
  (false, (r.write? (bytes.extract 0 n) t).getD t)

/-- Renames a file, if that can be done. -/
def fullRenaming : Renaming := fun r r' t =>
  match r.rename? r' t with
  | some t => (true, t)
  | none => (false, t)

theorem isWriting_full : IsWriting fullWriting where
  done h := by
    unfold fullWriting at h
    split at h
    next hwritten => rw [hwritten, (Prod.mk.inj h).2]
    next => cases h
  failed h := by
    unfold fullWriting at h
    split at h
    next => cases h
    next => exact .inl (Prod.mk.inj h).2.symm

theorem isWriting_partial (n : Nat) : IsWriting (partialWriting n) where
  done h := by cases h
  failed {r bytes t t'} h := by
    obtain rfl := (Prod.mk.inj h).2
    cases hwrite : r.write? (bytes.extract 0 n) t with
    | none => exact .inl rfl
    | some tree => exact .inr ⟨_, hwrite⟩

theorem isRenaming_full : IsRenaming fullRenaming where
  done h := by
    unfold fullRenaming at h
    split at h
    next hrenamed => rw [hrenamed, (Prod.mk.inj h).2]
    next => cases h
  failed h := by
    unfold fullRenaming at h
    split at h
    next => cases h
    next => exact (Prod.mk.inj h).2.symm

/-- Replaces the organisations of a package by such a writing and renaming. -/
def setOrganisationsBy (write : Writing) (rename : Renaming) (p : PackageId)
    (targets : List Target) : StoreM DirectoryStore Unit := do
  modify fun s =>
    { s with ledger := { s.ledger with tables := s.ledger.tables.setOrganisations p targets } }
  let s ← get
  let text := organisationsText s.ledger.tables.organisations
  let temporary := s.directory.join temporaryName
  match write temporary text.toUTF8 s.tree with
  | (false, tree) => do
    set { s with tree := tree }
    throw .io
  | (true, tree) =>
    match rename temporary (s.directory.join organisationsName) tree with
    | (false, tree) => do
      set { s with tree := tree }
      throw .io
    | (true, tree) => set { s with tree := tree }

theorem setOrganisationsBy_run (write : Writing) (rename : Renaming) (p : PackageId)
    (targets : List Target) (s : DirectoryStore) :
    (setOrganisationsBy write rename p targets).run s =
      let ledger := { s.ledger with tables := s.ledger.tables.setOrganisations p targets }
      let temporary := s.directory.join temporaryName
      let written := write temporary (organisationsText ledger.tables.organisations).toUTF8 s.tree
      let renamed := rename temporary (s.directory.join organisationsName) written.2
      if written.1 = false then (.error .io, { s with ledger := ledger, tree := written.2 })
      else if renamed.1 = false then (.error .io, { s with ledger := ledger, tree := renamed.2 })
      else (.ok (), { s with ledger := ledger, tree := renamed.2 }) := by
  dsimp only
  change (match write (s.directory.join temporaryName) (organisationsText
      (s.ledger.tables.setOrganisations p targets).organisations).toUTF8 s.tree with
    | (false, tree) => _
    | (true, tree) => _ : StoreM DirectoryStore Unit).run { s with ledger := _ } = _
  rcases write (s.directory.join temporaryName) (organisationsText
      (s.ledger.tables.setOrganisations p targets).organisations).toUTF8 s.tree with ⟨_ | _, tree⟩
  · rfl
  · dsimp only
    rw [if_neg Bool.true_eq_false_eq_False]
    rcases rename (s.directory.join temporaryName) (s.directory.join organisationsName) tree with
      ⟨_ | _, tree'⟩ <;> rfl

/-- The file of organisations is written and renamed in full. -/
theorem setOrganisationsBy_full :
    setOrganisationsBy fullWriting fullRenaming = setOrganisations := by
  funext p targets s
  change (setOrganisationsBy fullWriting fullRenaming p targets).run s =
    (setOrganisations p targets).run s
  rw [setOrganisationsBy_run, setOrganisations_run]
  dsimp only
  unfold fullWriting
  cases (s.directory.join temporaryName).write? (organisationsText
      (s.ledger.tables.setOrganisations p targets).organisations).toUTF8 s.tree with
  | none => rfl
  | some tree =>
    dsimp only
    unfold fullRenaming
    cases (s.directory.join temporaryName).rename? (s.directory.join organisationsName) tree <;> rfl

/-- What an update that fails has done: it has changed the tables, and perhaps the temporary
file. -/
theorem of_failed_update {write : Writing} {rename : Renaming} (hwrite : IsWriting write)
    (hrename : IsRenaming rename) {e : StoreError}
    (hrun : (setOrganisationsBy write rename p targets).run s = (.error e, s')) :
    e = .io ∧ s'.directory = s.directory ∧
      s'.ledger = { s.ledger with tables := s.ledger.tables.setOrganisations p targets } ∧
      (s'.tree = s.tree ∨
        ∃ part, (s.directory.join temporaryName).write? part s.tree = some s'.tree) := by
  rw [setOrganisationsBy_run] at hrun
  dsimp only at hrun
  generalize hwritten : write _ _ s.tree = written at hrun
  obtain ⟨_ | _, tree⟩ := written
  · obtain ⟨he, rfl⟩ := Prod.mk.inj hrun
    exact ⟨(Except.error.inj he).symm, rfl, rfl, hwrite.failed hwritten⟩
  · dsimp only at hrun
    generalize hrenamed : rename _ _ tree = renamed at hrun
    obtain ⟨_ | _, tree'⟩ := renamed
    · obtain ⟨he, rfl⟩ := Prod.mk.inj hrun
      obtain rfl := hrename.failed hrenamed
      exact ⟨(Except.error.inj he).symm, rfl, rfl, .inr ⟨_, hwrite.done hwritten⟩⟩
    · cases (Prod.mk.inj hrun).1

/-- What a store holds that is opened again in the directory of this one, or why it cannot
be opened. -/
def reopened (s : DirectoryStore) : Except StoreError Ledger :=
  (inFolder s.tree s.directory).1.map (·.ledger)

theorem Home.exists_cutJournal {t : Tree} {directory : Route} (h : Home t directory base)
    (journal : String) : ∃ t', cutJournal t (directory.join journalName) journal = .ok t' := by
  unfold cutJournal
  dsimp only
  rw [h.write? journalName_mem h.journal]
  split_ifs
  · exact ⟨_, rfl⟩
  · exact ⟨_, rfl⟩

/-- What a store is opened with depends on nothing but its journal and its file of
organisations. -/
theorem Home.ledger_inFolder_eq {t t' : Tree} {directory : Route} (h : Home t directory base)
    (h' : Home t' directory base)
    (hjournal : t'.lookup? (base ++ [journalName]) = t.lookup? (base ++ [journalName]))
    (hsame : t'.lookup? (base ++ [organisationsName]) = t.lookup? (base ++ [organisationsName])) :
    (inFolder t' directory).1.map (·.ledger) = (inFolder t directory).1.map (·.ledger) := by
  have hload' := h.loadOrganisations_eq h' hsame
  have hread' := h.readText_eq h' journalName_mem h.journal hjournal
  cases hload : loadOrganisations t directory with
  | error e =>
    rw [hload] at hload'
    rw [inFolder_of_error h.makeFolder hload, inFolder_of_error h'.makeFolder hload']
  | ok organisations =>
    rw [hload] at hload'
    cases hread : (directory.join journalName).readText t with
    | error e =>
      rw [hread] at hread'
      cases e with
      | missing =>
        rw [inFolder_of_missing h.makeFolder hload hread,
          inFolder_of_missing h'.makeFolder hload' hread']
        rfl
      | unusable =>
        rw [inFolder_of_unusable h.makeFolder hload hread,
          inFolder_of_unusable h'.makeFolder hload' hread']
    | ok journal =>
      rw [hread] at hread'
      obtain ⟨t₁, hcut⟩ := h.exists_cutJournal journal
      obtain ⟨t₁', hcut'⟩ := h'.exists_cutJournal journal
      cases hreplay : Journal.replay? (Tables.listing organisations) journal with
      | none =>
        rw [inFolder_of_unreplayed h.makeFolder hload hread hcut hreplay,
          inFolder_of_unreplayed h'.makeFolder hload' hread' hcut' hreplay]
      | some tables =>
        rw [inFolder_of_text h.makeFolder hload hread hcut hreplay,
          inFolder_of_text h'.makeFolder hload' hread' hcut' hreplay]
        rfl

/-- The temporary file cannot be written: a folder may be in its place. -/
def IsBlocked (s : DirectoryStore) : Prop :=
  ∀ content, (s.directory.join temporaryName).write? content s.tree = none

/-- Whether or not the temporary file has been written, the folder stays that of a store, with
the same journal and the same file of organisations. -/
theorem Home.of_temporary {t t' : Tree} {directory : Route} (h : Home t directory base)
    (htree : t' = t ∨ ∃ part, (directory.join temporaryName).write? part t = some t') :
    Home t' directory base ∧
      t'.lookup? (base ++ [journalName]) = t.lookup? (base ++ [journalName]) ∧
      t'.lookup? (base ++ [organisationsName]) = t.lookup? (base ++ [organisationsName]) := by
  rcases htree with rfl | ⟨part, hwrite⟩
  · exact ⟨h, rfl, rfl⟩
  · rw [h.write? temporaryName_mem (Route.isUsable_of_write? hwrite)] at hwrite
    obtain rfl := Option.some.inj hwrite
    exact ⟨h.put temporaryName_mem part,
      h.lookup?_put_other temporaryName_mem part (by decide),
      h.lookup?_put_other temporaryName_mem part (by decide)⟩

/-- So the directory gives the same when a store is opened there. -/
theorem reopened_eq_of_temporary (hroom : s.IsBlocked ∨ ∃ base, Home s.tree s.directory base)
    (hdirectory : s'.directory = s.directory)
    (htree : s'.tree = s.tree ∨
      ∃ part, (s.directory.join temporaryName).write? part s.tree = some s'.tree) :
    s'.reopened = s.reopened := by
  unfold reopened
  rw [hdirectory]
  rcases hroom with hblocked | ⟨base, hhome⟩
  · obtain hsame | ⟨part, hwrite⟩ := htree
    · rw [hsame]
    · rw [hblocked part] at hwrite
      cases hwrite
  · obtain ⟨hhome', hjournal, hsame⟩ := hhome.of_temporary htree
    exact hhome.ledger_inFolder_eq hhome' hjournal hsame

namespace Behind

/-- The directory of a store gives its tables with the organisations of the file. -/
theorem reopened_eq (h : Behind s base journal saved) :
    s.reopened = .ok (s.withListing saved).ledger.discard := by
  have hopen := h.stored.inFolder_eq
  change inFolder s.tree s.directory = _ at hopen
  unfold reopened
  rw [hopen]
  rfl

/-- An update that fails leaves the file behind. -/
theorem of_failed_update (h : Behind s base journal saved) {write : Writing} {rename : Renaming}
    (hwrite : IsWriting write) (hrename : IsRenaming rename) {e : StoreError}
    (hrun : (setOrganisationsBy write rename p targets).run s = (.error e, s')) :
    Behind s' base journal saved := by
  obtain ⟨-, hdirectory, hledger, htree⟩ := DirectoryStore.of_failed_update hwrite hrename hrun
  have hhome : Home s.tree s.directory base := h.stored.home
  obtain ⟨hhome', hjournal, hsame⟩ := hhome.of_temporary htree
  have hload : loadOrganisations s.tree s.directory = .ok saved := h.stored.organisations
  have htables : (s'.withListing saved).ledger = (s.withListing saved).ledger := by
    unfold withListing
    rw [hledger]
    rfl
  refine ⟨⟨?_, ?_, ?_, h.stored.complete, ?_, ?_⟩, ?_⟩
  · change Home s'.tree s'.directory base
    rwa [hdirectory]
  · change loadOrganisations s'.tree s'.directory = .ok saved
    rw [hdirectory, hhome.loadOrganisations_eq hhome' hsame, hload]
  · change HoldsJournal s'.tree base journal
    unfold HoldsJournal
    rw [hjournal]
    exact h.stored.file
  · rw [htables]
    exact h.stored.tables
  · rw [htables]
    exact h.stored.staged
  · rw [hledger]
    exact h.ordered.insert (Id.isOrder_before .package) p targets

end Behind

namespace Operation

def replaces? : Operation → Option PackageId
  | .setOrganisations p _ => some p
  | _ => none

theorem organisations_onLedger {op : Operation} (h : op.replaces? = none) (l : Ledger) :
    (op.onLedger l).tables.organisations = l.tables.organisations := by
  cases op with
  | setOrganisations q targets => cases h
  | commit message => exact Tables.organisations_applyAll _ _
  | _ => rfl

theorem organisationsOf_onLedger {op : Operation} (h : op.replaces? ≠ some p) (l : Ledger) :
    (op.onLedger l).tables.organisationsOf p = l.tables.organisationsOf p := by
  cases op with
  | setOrganisations q targets =>
    have hpq : p ≠ q := fun he => h (by rw [he, replaces?])
    exact congrArg (·.getD []) (Keyed.get?_insert_of_ne hpq targets l.tables.organisations)
  | _ =>
    unfold Tables.organisationsOf
    rw [organisations_onLedger rfl]

end Operation

/-- An operation that replaces no organisations neither sees nor changes them. -/
theorem perform_withListing {op : Operation} (hop : op.replaces? = none) (s : DirectoryStore)
    (organisations : List (PackageId × List Target)) :
    (perform op).run (s.withListing organisations) =
      (((perform op).run s).1, ((perform op).run s).2.withListing organisations) := by
  cases op with
  | setOrganisations p targets => cases hop
  | commit message =>
    change commit.run (s.withListing organisations) =
      ((commit.run s).1, (commit.run s).2.withListing organisations)
    have hsettle : (s.withListing organisations).ledger.settle =
        ⟨{ s.ledger.settle.tables with organisations := organisations }, []⟩ :=
      congrArg (Ledger.mk · []) (Tables.applyAll_withOrganisations _ _ _)
    rw [commit_run, commit_run, hsettle]
    change (if s.ledger.staged = [] then _ else
      match (s.directory.join journalName).append? (Journal.line s.ledger.staged).toUTF8 s.tree with
      | some tree => _
      | none => _) = _
    by_cases hstaged : s.ledger.staged = []
    · rw [if_pos hstaged, if_pos hstaged]
    · rw [if_neg hstaged, if_neg hstaged]
      cases (s.directory.join journalName).append? (Journal.line s.ledger.staged).toUTF8 s.tree <;>
        rfl
  | _ => rfl

namespace Behind

/-- An operation that replaces no organisations leaves the file behind; one that does
brings it up to date. -/
theorem perform (h : Behind s base journal saved) {op : Operation} (hop : op.ReadsBack)
    (hrun : (perform op).run s = (.ok (), s')) :
    ∃ journal', op.replaces? = none ∧ Behind s' base journal' saved ∨
      op.replaces? ≠ none ∧ Stored s' base journal' := by
  by_cases hnone : op.replaces? = none
  · have hsaved := perform_withListing hnone s saved
    rw [hrun] at hsaved
    obtain ⟨-, journal', hstored⟩ := h.stored.perform hop hsaved
    have horganisations : s'.ledger.tables.organisations = s.ledger.tables.organisations := by
      rw [ledger_perform hrun]
      exact Operation.organisations_onLedger hnone s.ledger
    refine ⟨journal', .inl ⟨hnone, hstored, ?_⟩⟩
    rw [horganisations]
    exact h.ordered
  · cases op with
    | setOrganisations p targets => exact ⟨journal, .inr ⟨hnone, (h.setOrganisations hrun).2⟩⟩
    | _ => exact absurd rfl hnone

/-- A run of operations brings the file up to date if one of them replaces organisations. -/
theorem performAll (h : Behind s base journal saved) {ops : List Operation}
    (hops : ∀ op ∈ ops, op.ReadsBack) (hrun : (performAll ops).run s = (.ok (), s')) :
    ∃ journal', (∀ op ∈ ops, op.replaces? = none) ∧ Behind s' base journal' saved ∨
      (¬ ∀ op ∈ ops, op.replaces? = none) ∧ Stored s' base journal' := by
  induction ops generalizing s journal with
  | nil =>
    obtain rfl := (Prod.mk.inj hrun).2
    exact ⟨journal, .inl ⟨by simp, h⟩⟩
  | cons op rest ih =>
    obtain ⟨s₁, hfirst, hrest⟩ := performAll_cons hrun
    have hlater : ∀ op ∈ rest, op.ReadsBack := fun other hother => hops other (by simp [hother])
    simp only [List.forall_mem_cons]
    obtain ⟨journal₁, ⟨hnone, h₁⟩ | ⟨hsome, hstored⟩⟩ := h.perform (hops op (by simp)) hfirst
    · simp only [hnone, true_and]
      exact ih h₁ hlater hrest
    · simp only [hsome, false_and, not_false_eq_true, true_and, false_or]
      exact (hstored.performAll hlater hrest).2

end Behind

/-- What a store answers when it is asked for the organisations to test in a package. -/
def listed (s : DirectoryStore) (q : PackageId) : Except StoreError (List Target) :=
  ((Datastore.organisationsOf q).run s).1

/-- What a store answers that is opened again in the directory of this one. -/
def listedAgain (s : DirectoryStore) (q : PackageId) : Except StoreError (List Target) :=
  (inFolder s.tree s.directory).1.bind (·.listed q)

theorem listedAgain_eq (s : DirectoryStore) (q : PackageId) :
    s.listedAgain q = s.reopened.map (·.tables.organisationsOf q) := by
  unfold listedAgain reopened
  cases (inFolder s.tree s.directory).1 <;> rfl

/-- What is answered for each package is the same before and after, by the open store and
by one that is opened again. -/
def LeavesNoTrace (s s' : DirectoryStore) : Prop :=
  ∀ q, s'.listed q = s.listed q ∧ s'.listedAgain q = s.listedAgain q

theorem listed_eq_of_setOrganisations
    (hledger : s'.ledger = { s.ledger with tables := s.ledger.tables.setOrganisations p targets })
    (q : PackageId) : s'.listed q = if q = p then .ok targets else s.listed q := by
  change Except.ok (s'.ledger.tables.organisationsOf q) = _
  rw [hledger]
  change Except.ok ((Keyed.get? q (Keyed.insert Id.before p targets _)).getD []) = _
  split_ifs with hq
  · rw [hq, Keyed.get?_insert_self]
    rfl
  · rw [Keyed.get?_insert_of_ne hq]
    rfl

theorem listed_performAll {ops : List Operation} (hops : ∀ op ∈ ops, op.replaces? ≠ some p)
    (hrun : (performAll ops).run s = (.ok (), s')) : s'.listed p = s.listed p := by
  induction ops generalizing s with
  | nil => rw [← (Prod.mk.inj hrun).2]
  | cons op rest ih =>
    obtain ⟨s₁, hfirst, hrest⟩ := performAll_cons hrun
    rw [ih (fun other hother => hops other (by simp [hother])) hrest]
    change Except.ok (s₁.ledger.tables.organisationsOf p) = _
    rw [ledger_perform hfirst, Operation.organisationsOf_onLedger (hops op (by simp))]
    rfl

/-- After an update that has failed, only the next one that succeeds is seen when the
directory is opened again, and the failed one with it. -/
theorem Stored.listed_after_failed_update (h : Stored s base journal) {write : Writing}
    {rename : Renaming} (hwrite : IsWriting write) (hrename : IsRenaming rename) {e : StoreError}
    (hrun : (setOrganisationsBy write rename p targets).run s = (.error e, s'))
    {ops : List Operation} (hops : ∀ op ∈ ops, op.ReadsBack)
    (hafter : (DirectoryStore.performAll ops).run s' = (.ok (), s'')) :
    ((∀ op ∈ ops, op.replaces? ≠ some p) → s''.listed p = .ok targets) ∧
      ∀ q, s''.listedAgain q =
        if ∀ op ∈ ops, op.replaces? = none then s.listed q else s''.listed q := by
  have hbehind := h.behind.of_failed_update hwrite hrename hrun
  obtain ⟨-, -, hledger, -⟩ := of_failed_update hwrite hrename hrun
  constructor
  · intro hother
    have hkept : s''.listed p = s'.listed p := listed_performAll hother hafter
    rw [hkept, listed_eq_of_setOrganisations hledger, if_pos rfl]
  · intro q
    rw [listedAgain_eq]
    obtain ⟨journal', ⟨hnone, h'⟩ | ⟨hsome, h'⟩⟩ := hbehind.performAll hops hafter
    · rw [if_pos hnone, h'.reopened_eq]
      rfl
    · rw [if_neg hsome, h'.behind.reopened_eq]
      rfl

/-- An update that fails is answered by the open store all the same, and not by one that is
opened again in its directory. It leaves no trace exactly if the package had these
organisations before. With the next update that succeeds, of whatever package, the
directory gives what the open store answers. -/
theorem leavesNoTrace_iff_of_failed_update {write : Writing} {rename : Renaming}
    (hwrite : IsWriting write) (hrename : IsRenaming rename)
    (hroom : s.IsBlocked ∨ ∃ base, Home s.tree s.directory base) {e : StoreError}
    (hrun : (setOrganisationsBy write rename p targets).run s = (.error e, s')) :
    e = .io ∧
      (∀ q, s'.listed q = if q = p then .ok targets else s.listed q) ∧
      (∀ q, s'.listedAgain q = s.listedAgain q) ∧
      (LeavesNoTrace s s' ↔ s.listed p = .ok targets) ∧
      ∀ {base journal}, Stored s base journal → ∀ {ops : List Operation} {s''},
        (∀ op ∈ ops, op.ReadsBack) → (performAll ops).run s' = (.ok (), s'') →
        ((∀ op ∈ ops, op.replaces? ≠ some p) → s''.listed p = .ok targets) ∧
          ∀ q, s''.listedAgain q =
            if ∀ op ∈ ops, op.replaces? = none then s.listed q else s''.listed q := by
  obtain ⟨he, hdirectory, hledger, htree⟩ := of_failed_update hwrite hrename hrun
  have hlisted := listed_eq_of_setOrganisations hledger
  have hagain (q : PackageId) : s'.listedAgain q = s.listedAgain q := by
    rw [listedAgain_eq, listedAgain_eq, reopened_eq_of_temporary hroom hdirectory htree]
  refine ⟨he, hlisted, hagain, ?_, fun h _ _ hops hafter =>
    h.listed_after_failed_update hwrite hrename hrun hops hafter⟩
  constructor
  · intro htrace
    rw [← (htrace p).1, hlisted p, if_pos rfl]
  · intro hsame q
    refine ⟨?_, hagain q⟩
    rw [hlisted q]
    split_ifs with hq
    · rw [hq, hsame]
    · rfl

/-- Five bytes of the temporary file are written. The next update is of another package, and
takes the failed one along. -/
theorem leavesNoTrace_iff_of_failed_update_five_bytes :
    let targets : List Target := [⟨⟨1⟩, "//a"⟩]
    let s' := ((setOrganisationsBy (partialWriting 5) fullRenaming ⟨7⟩ targets).run waiting).2
    let s'' := ((performAll [.setOrganisations ⟨8⟩ []]).run s').2
    (setOrganisationsBy (partialWriting 5) fullRenaming ⟨7⟩ targets).run waiting =
        (.error .io, s') ∧
      ¬ LeavesNoTrace waiting s' ∧ s'.listedAgain ⟨7⟩ = .ok [] ∧
      (performAll [.setOrganisations ⟨8⟩ []]).run s' = (.ok (), s'') ∧
      s''.listedAgain ⟨7⟩ = .ok targets := by
  intro targets s' s''
  have hrun : (setOrganisationsBy (partialWriting 5) fullRenaming ⟨7⟩ targets).run waiting =
      (.error .io, s') := Prod.ext (by decide +kernel) rfl
  have hafter : (performAll [.setOrganisations ⟨8⟩ []]).run s' = (.ok (), s'') :=
    run_eq_of_ok (by decide +kernel)
  obtain ⟨-, -, hagain, htrace, hlater⟩ := leavesNoTrace_iff_of_failed_update
    (isWriting_partial 5) isRenaming_full (.inr ⟨_, stored_waiting.home⟩) hrun
  obtain ⟨hkept, hwritten⟩ := hlater stored_waiting (by simp [Operation.ReadsBack]) hafter
  refine ⟨hrun, ?_, ?_, hafter, ?_⟩
  · rw [htrace]
    decide +kernel
  · rw [hagain, listedAgain_eq, stored_waiting.behind.reopened_eq]
    rfl
  · rw [hwritten, if_neg (by simp [Operation.replaces?]), hkept (by simp [Operation.replaces?])]

/-- A store in a folder in which another folder has the name of the temporary file. -/
def blocked : DirectoryStore :=
  ⟨{ entries := [(["store"], .folder), (["store", temporaryName], .folder)] }, ⟨[], "store"⟩,
    .ofTables (Tables.listing [])⟩

/-- The store was opened there, and its update fails and is answered. -/
theorem not_leavesNoTrace_folder_in_place :
    let targets : List Target := [⟨⟨1⟩, "//a"⟩]
    let s' := ((setOrganisations ⟨7⟩ targets).run blocked).2
    inFolder blocked.tree ⟨[], "store"⟩ = (.ok blocked, blocked.tree) ∧
      (setOrganisations ⟨7⟩ targets).run blocked = (.error .io, s') ∧
      ¬ LeavesNoTrace blocked s' := by
  intro targets s'
  refine ⟨?_, Prod.ext (by decide +kernel) rfl, ?_⟩
  · have hfollow : blocked.directory.follow blocked.tree = .ok ["store"] := by decide +kernel
    exact inFolder_of_missing (Route.makeFolder_run hfollow rfl) (by decide +kernel)
      (by decide +kernel)
  · intro htrace
    have hlisted := (htrace ⟨7⟩).1
    revert hlisted
    decide +kernel

end DirectoryStore

end DataQuality
