import DataQuality.Proofs.Store.Durability

/-!
# Torn journals

A journal is torn if writing the line of a commit to it ended early. What is left of
the line is cut off when the store is opened, if it is text. It is text if the cut is
between two characters; if it is inside one, the journal cannot be read and the store
cannot be opened.
-/
namespace DataQuality

open Files (Path Route Tree)

/-- Bytes after those of a text are text if they are text by themselves. -/
theorem isValidUTF8_append_iff (s : String) (b : ByteArray) :
    (s.toUTF8 ++ b).IsValidUTF8 ↔ b.IsValidUTF8 := by
  rw [String.toUTF8_eq_toByteArray, ← String.utf8Encode_toList]
  induction s.toList with
  | nil => simp
  | cons c cs ih =>
    rw [List.utf8Encode_cons, ByteArray.append_assoc,
      ByteArray.isValidUTF8_utf8Encode_singleton_append_iff, ih]

/-- The first bytes of a text are its first characters, if they are text. -/
theorem exists_text_of_append {front rest : ByteArray} {s : String}
    (h : front ++ rest = s.toUTF8) (hfront : front.IsValidUTF8) :
    ∃ text : String, text.toUTF8 = front ∧ text.toList <+: s.toList := by
  obtain ⟨cs, rfl⟩ := hfront
  refine ⟨String.ofList cs, ?_, ?_⟩
  · rw [String.toUTF8_eq_toByteArray, String.toByteArray_ofList]
  · rw [String.toUTF8_eq_toByteArray, ← String.utf8Encode_toList] at h
    rw [String.toList_ofList]
    exact List.isPrefix_of_utf8Encode_append_eq_utf8Encode rest h

/-- Bytes before those of a text are text if they are text together. -/
theorem isValidUTF8_of_append {front : ByteArray} {s : String}
    (h : (front ++ s.toUTF8).IsValidUTF8) : front.IsValidUTF8 := by
  let whole : String := .ofByteArray (front ++ s.toUTF8) h
  have hsize : whole.utf8ByteSize = front.size + s.toUTF8.size := ByteArray.size_append
  have hback : whole.toByteArray.extract front.size whole.utf8ByteSize = s.toUTF8 :=
    ByteArray.extract_append_eq_right rfl hsize
  -- the place between the two is one between characters, since a text goes on from it
  have hplace : String.Pos.Raw.IsValid whole ⟨front.size⟩ := by
    rw [String.Pos.Raw.isValid_iff_isValidUTF8_extract_utf8ByteSize]
    refine ⟨?_, ?_⟩
    · change front.size ≤ whole.utf8ByteSize
      omega
    · rw [hback]
      exact s.isValidUTF8
  have hfront := (String.Pos.Raw.isValid_iff_isValidUTF8_extract_zero.1 hplace).2
  have heq : whole.toByteArray.extract 0 front.size = front := ByteArray.extract_append_eq_left rfl
  rwa [heq] at hfront

/-- What is left of a torn line are the first characters of the commit, if it is text. -/
theorem Journal.exists_front_of_torn {writes : List Write} {torn rest : ByteArray}
    (hline : torn ++ rest = (line writes).toUTF8) (hrest : rest ≠ ByteArray.empty)
    (hvalid : torn.IsValidUTF8) :
    ∃ text : String, text.toUTF8 = torn ∧ text.toList <+: (body writes).toList := by
  obtain ⟨text, rfl, hprefix⟩ := exists_text_of_append hline hvalid
  refine ⟨text, rfl, ?_⟩
  rw [toList_line] at hprefix
  rcases List.prefix_concat_iff.1 hprefix with hwhole | hbody
  · have hsame : text = line writes := by
      rw [← String.toList_inj, hwhole, toList_line]
    rw [hsame] at hline
    have hsize := congrArg ByteArray.size hline
    rw [ByteArray.size_append] at hsize
    exact absurd (ByteArray.size_eq_zero_iff.1 (by omega)) hrest
  · exact hbody

/-- What is left of a torn line has no line feed, if it is text. -/
theorem Journal.exists_text_of_torn {writes : List Write} {torn rest : ByteArray}
    (hline : torn ++ rest = (line writes).toUTF8) (hrest : rest ≠ ByteArray.empty)
    (hvalid : torn.IsValidUTF8) : ∃ text : String, text.toUTF8 = torn ∧ '\n' ∉ text.toList := by
  obtain ⟨text, htext, hfront⟩ := exists_front_of_torn hline hrest hvalid
  exact ⟨text, htext, fun hmem => newline_not_mem_body writes (hfront.mem hmem)⟩

namespace DirectoryStore

variable {t : Tree} {directory : Route} {base : Path} {journal : String}
  {organisations : List (PackageId × List Target)} {s : DirectoryStore}

/-- Stages the writes of each commit, and carries it out. -/
def commitAll : List (List Write) → StoreM DirectoryStore Unit
  | [] => pure ()
  | writes :: rest => do
    writes.forM Datastore.stage
    commit
    commitAll rest

/-- The store is opened with the tables that the commits give, and with a journal of the
commits and nothing else. Later commits are added to them, and are there as well when
the store is opened again. -/
def Recovers (t : Tree) (directory : Route) (base : Path)
    (organisations : List (PackageId × List Target)) (commits : List (List Write)) : Prop :=
  ∃ s, inFolder t directory = (.ok s, s.tree) ∧
    s.ledger = .ofTables ((Tables.listing organisations).applyAll commits.flatten) ∧
    s.tree.lookup? (base ++ [journalName]) = some (.file (Journal.ofCommits commits).toUTF8) ∧
    ∀ later : List (List Write), (∀ writes ∈ later, ∀ w ∈ writes, w.ReadsBack) →
      ∃ s', (commitAll later).run s = (.ok (), s') ∧
        inFolder s'.tree directory =
          (.ok ⟨s'.tree, directory,
            .ofTables ((Tables.listing organisations).applyAll (commits ++ later).flatten)⟩, s'.tree)

/-- Staging writes one after the other. -/
theorem Stored.stageAll (h : Stored s base journal) {writes : List Write}
    (hw : ∀ w ∈ writes, w.ReadsBack) :
    ∃ s', (writes.forM Datastore.stage).run s = (.ok (), s') ∧ s'.directory = s.directory ∧
      s'.ledger = ⟨s.ledger.tables, s.ledger.staged ++ writes⟩ ∧ Stored s' base journal := by
  induction writes generalizing s with
  | nil => exact ⟨s, rfl, rfl, by rw [List.append_nil], h⟩
  | cons w rest ih =>
    obtain ⟨s', hrun, hdirectory, hledger, hstored⟩ :=
      ih (h.stage (hw w (by simp))) fun v hv => hw v (by simp [hv])
    refine ⟨s', ?_, hdirectory, ?_, hstored⟩
    · change (Datastore.stage w >>= fun _ => rest.forM Datastore.stage :
        StoreM DirectoryStore Unit).run s = _
      rw [run_bind]
      exact hrun
    · rw [hledger]
      simp [Ledger.stage]

/-- Commits made one after the other succeed, and are carried out. -/
theorem Stored.commitAll (h : Stored s base journal) (hstaged : s.ledger.staged = [])
    {later : List (List Write)} (hlater : ∀ writes ∈ later, ∀ w ∈ writes, w.ReadsBack) :
    ∃ s', (DirectoryStore.commitAll later).run s = (.ok (), s') ∧ s'.directory = s.directory ∧
      s'.ledger = .ofTables (s.ledger.tables.applyAll later.flatten) ∧
      ∃ journal', Stored s' base journal' := by
  induction later generalizing s journal with
  | nil =>
    refine ⟨s, rfl, rfl, ?_, journal, h⟩
    change s.ledger = ⟨s.ledger.tables, []⟩
    rw [← hstaged]
  | cons writes rest ih =>
    obtain ⟨s₁, hstage, hdirectory₁, hledger₁, hstored₁⟩ := h.stageAll (hlater writes (by simp))
    obtain ⟨s₂, hcommit, hdirectory₂, hledger₂, hstored₂⟩ := hstored₁.commit
    have hstaged₂ : s₂.ledger.staged = [] := by rw [hledger₂, Ledger.staged_settle]
    obtain ⟨s', hrest, hdirectory, hledger, hstored⟩ :=
      ih hstored₂ hstaged₂ fun ws hws => hlater ws (by simp [hws])
    refine ⟨s', ?_, hdirectory.trans (hdirectory₂.trans hdirectory₁), ?_, hstored⟩
    · rw [DirectoryStore.commitAll, run_bind, hstage]
      dsimp only
      rw [run_bind, hcommit]
      exact hrest
    · rw [hledger, hledger₂, hledger₁, hstaged, List.nil_append, List.flatten_cons,
        Tables.applyAll_append]
      rfl

/-- What was never completed of a journal is cut off. -/
theorem Home.cutJournal_torn (h : Home t directory base) (hcomplete : Journal.IsComplete journal)
    {torn : String} (htorn : '\n' ∉ torn.toList)
    (hfile : t.lookup? (base ++ [journalName]) = some (.file (journal ++ torn).toUTF8)) :
    ∃ t', cutJournal t (directory.join journalName) (journal ++ torn) = .ok t' ∧
      Home t' directory base ∧
      t'.lookup? (base ++ [journalName]) = some (.file journal.toUTF8) ∧
      t'.lookup? (base ++ [organisationsName]) = t.lookup? (base ++ [organisationsName]) := by
  unfold cutJournal
  dsimp only
  rw [Journal.completePart_append hcomplete htorn]
  by_cases hwhole : journal = journal ++ torn
  · rw [if_pos hwhole]
    rw [← hwhole] at hfile
    exact ⟨t, rfl, h, hfile, rfl⟩
  · rw [if_neg hwhole, h.write? journalName_mem h.journal]
    exact ⟨_, rfl, h.put journalName_mem _, Tree.lookup?_put _ _ _ (by simp),
      h.lookup?_put_other journalName_mem _ organisationsName_ne⟩

/-- A store is opened with what is complete of its journal. -/
theorem Home.inFolder_of_torn (h : Home t directory base)
    (hload : loadOrganisations t directory = .ok organisations)
    (hcomplete : Journal.IsComplete journal) {torn : String} (htorn : '\n' ∉ torn.toList)
    (hfile : t.lookup? (base ++ [journalName]) = some (.file (journal ++ torn).toUTF8))
    {tables : Tables} (hreplay : Journal.replay? (Tables.listing organisations) journal = some tables) :
    ∃ s, inFolder t directory = (.ok s, s.tree) ∧ s.directory = directory ∧
      s.ledger = .ofTables tables ∧
      s.tree.lookup? (base ++ [journalName]) = some (.file journal.toUTF8) ∧
      Stored s base journal := by
  obtain ⟨t', hcut, hhome, hjournal, hsame⟩ := h.cutJournal_torn hcomplete htorn hfile
  have hread := h.readText_of_file journalName_mem h.journal hfile
  have htorn' := Journal.replay?_torn hcomplete htorn (Tables.listing organisations)
  rw [hreplay] at htorn'
  have horganisations : tables.organisations = organisations :=
    Journal.organisations_of_replay? hreplay
  refine ⟨⟨t', directory, .ofTables tables⟩,
    inFolder_of_text h.makeFolder hload hread hcut htorn', rfl, rfl, hjournal,
    hhome, ?_, .inl hjournal, hcomplete, ?_, fun _ hw => (by cases hw)⟩
  · change loadOrganisations t' directory = .ok tables.organisations
    rw [h.loadOrganisations_eq hhome hsame, horganisations, hload]
  · change Journal.replay? (Tables.listing tables.organisations) journal = some tables
    rw [horganisations, hreplay]

/-- No store is opened if the complete part of its journal is not read. -/
theorem Home.inFolder_of_unread (h : Home t directory base)
    (hload : loadOrganisations t directory = .ok organisations)
    (hcomplete : Journal.IsComplete journal) {torn : String} (htorn : '\n' ∉ torn.toList)
    (hfile : t.lookup? (base ++ [journalName]) = some (.file (journal ++ torn).toUTF8))
    (hreplay : Journal.replay? (Tables.listing organisations) journal = none) :
    (inFolder t directory).1 = .error .json := by
  obtain ⟨t', hcut, -, -, -⟩ := h.cutJournal_torn hcomplete htorn hfile
  have hread := h.readText_of_file journalName_mem h.journal hfile
  have htorn' := Journal.replay?_torn hcomplete htorn (Tables.listing organisations)
  rw [hreplay] at htorn'
  rw [inFolder_of_unreplayed h.makeFolder hload hread hcut htorn']

/-- No store is opened, and nothing is changed, if its journal ends inside a character. -/
theorem Home.inFolder_of_not_isValidUTF8 (h : Home t directory base)
    (hload : loadOrganisations t directory = .ok organisations) {torn : ByteArray}
    (htorn : ¬ torn.IsValidUTF8)
    (hfile : t.lookup? (base ++ [journalName]) = some (.file (journal.toUTF8 ++ torn))) :
    inFolder t directory = (.error .io, t) := by
  have hread : (directory.join journalName).readText t = .error .unusable := by
    unfold Route.readText
    rw [(h.follow_join journalName_mem h.journal).1]
    exact Tree.readText_of_not_isValidUTF8 hfile (by rwa [isValidUTF8_append_iff])
  exact inFolder_of_unusable h.makeFolder hload hread

/-- A store recovers from a journal that ends with a line of which some characters are
missing, if what is complete of the journal is replayed as the commits it is made of. -/
theorem Home.recovers {commits : List (List Write)} (h : Home t directory base)
    (hload : loadOrganisations t directory = .ok organisations) {torn : String}
    (htorn : '\n' ∉ torn.toList)
    (hfile : t.lookup? (base ++ [journalName]) =
      some (.file (Journal.ofCommits commits ++ torn).toUTF8))
    (hreplay : Journal.replay? (Tables.listing organisations) (Journal.ofCommits commits) =
      some ((Tables.listing organisations).applyAll commits.flatten)) :
    Recovers t directory base organisations commits := by
  have hcomplete := Journal.isComplete_ofCommits commits
  obtain ⟨s, hopen, hdirectory, hledger, hjournal, hstored⟩ :=
    h.inFolder_of_torn hload hcomplete htorn hfile hreplay
  refine ⟨s, hopen, hledger, hjournal, ?_⟩
  intro later hlater
  have hstaged : s.ledger.staged = [] := by rw [hledger]; rfl
  obtain ⟨s', hrun, hdirectory', hledger', journal', hstored'⟩ := hstored.commitAll hstaged hlater
  have hreopen := hstored'.inFolder_eq
  rw [hdirectory', hdirectory, hledger', hledger] at hreopen
  refine ⟨s', hrun, ?_⟩
  rw [hreopen, List.flatten_append, Tables.applyAll_append]
  rfl

/-- A store that recovers has read its journal as the commits it is made of. -/
theorem Home.replay?_of_recovers {commits : List (List Write)} (h : Home t directory base)
    (hload : loadOrganisations t directory = .ok organisations) {torn : String}
    (htorn : '\n' ∉ torn.toList)
    (hfile : t.lookup? (base ++ [journalName]) =
      some (.file (Journal.ofCommits commits ++ torn).toUTF8))
    (hrecovers : Recovers t directory base organisations commits) :
    Journal.replay? (Tables.listing organisations) (Journal.ofCommits commits) =
      some ((Tables.listing organisations).applyAll commits.flatten) := by
  have hcomplete := Journal.isComplete_ofCommits commits
  obtain ⟨s, hopen, hledger, -, -⟩ := hrecovers
  cases hreplay : Journal.replay? (Tables.listing organisations) (Journal.ofCommits commits) with
  | none =>
    have herror := h.inFolder_of_unread hload hcomplete htorn hfile hreplay
    rw [hopen] at herror
    cases herror
  | some tables =>
    obtain ⟨s', hopen', -, hledger', -, -⟩ :=
      h.inFolder_of_torn hload hcomplete htorn hfile hreplay
    obtain rfl : s = s' := Except.ok.inj (Prod.mk.inj (hopen.symm.trans hopen')).1
    have htables := congrArg Ledger.tables (hledger'.symm.trans hledger)
    exact congrArg some htables

/-- A store recovers from a journal that was torn in the line of a commit exactly if the
line was cut between two characters and what is complete of the journal is replayed as
the commits it is made of. Cut inside a character, the journal is an error, and stays. -/
theorem recovers_iff_isValidUTF8 {commits : List (List Write)} {writes : List Write}
    {torn rest : ByteArray} (hhome : Home t directory base)
    (hload : loadOrganisations t directory = .ok organisations)
    (hline : torn ++ rest = (Journal.line writes).toUTF8) (hrest : rest ≠ ByteArray.empty)
    (hfile : t.lookup? (base ++ [journalName]) =
      some (.file ((Journal.ofCommits commits).toUTF8 ++ torn))) :
    (Recovers t directory base organisations commits ↔
      torn.IsValidUTF8 ∧
        Journal.replay? (Tables.listing organisations) (Journal.ofCommits commits) =
          some ((Tables.listing organisations).applyAll commits.flatten)) ∧
      (¬ torn.IsValidUTF8 → inFolder t directory = (.error .io, t)) := by
  by_cases hvalid : torn.IsValidUTF8
  · obtain ⟨text, rfl, hnewline⟩ := Journal.exists_text_of_torn hline hrest hvalid
    have htext : t.lookup? (base ++ [journalName]) =
        some (.file (Journal.ofCommits commits ++ text).toUTF8) := by
      rw [hfile]
      simp only [String.toUTF8_eq_toByteArray, String.toByteArray_append]
    refine ⟨⟨?_, ?_⟩, fun hinvalid => absurd hvalid hinvalid⟩
    · intro hrecovers
      exact ⟨hvalid, hhome.replay?_of_recovers hload hnewline htext hrecovers⟩
    · rintro ⟨-, hreplay⟩
      exact hhome.recovers hload hnewline htext hreplay
  · have hopen := hhome.inFolder_of_not_isValidUTF8 hload hvalid hfile
    refine ⟨⟨?_, fun h => absurd h.1 hvalid⟩, fun _ => hopen⟩
    rintro ⟨s, hopen', -, -, -⟩
    rw [hopen] at hopen'
    cases hopen'

/-- A commit of one result, whose identifier is a character of two bytes. -/
def accented : List Write := [.saveResult ⟨⟨1⟩, ⟨7⟩, ⟨3⟩, .pass, some "é", 1, none⟩]

/-- The line of the commit up to the character. -/
def beforeAccent : String :=
  "[\x7b\"op\":\"save_result\",\"runtime_id\":1,\"package_id\":7,\"test_id\":3," ++
    "\"result_data\":\"PASS\",\"result_identifier\":\""

/-- The line of the commit after the character. -/
def afterAccent : String := "\",\"result_hierarchy\":1,\"organisation_id\":null\x7d]\n"

theorem line_accented : Journal.line accented = beforeAccent ++ ("é" ++ afterAccent) := by
  decide +kernel

/-- A folder with a journal of the commit, to which its line was to be added once more. -/
def tornTree (torn : ByteArray) : Tree where
  entries := [(["store"], .folder),
    (["store", journalName], .file ((Journal.ofCommits [accented]).toUTF8 ++ torn))]

theorem home_tornTree (torn : ByteArray) : Home (tornTree torn) ⟨[], "store"⟩ ["store"] := by
  refine .of_ungrouped rfl rfl rfl (fun name hname => ?_) (by decide +kernel) (by decide +kernel)
  simp only [fileNames, List.mem_cons, List.not_mem_nil, or_false] at hname
  rcases hname with rfl | rfl | rfl <;> rfl

theorem loadOrganisations_tornTree (torn : ByteArray) :
    loadOrganisations (tornTree torn) ⟨[], "store"⟩ = .ok [] := by
  have hhome := home_tornTree torn
  unfold loadOrganisations
  rw [hhome.readText_of_none organisationsName_mem hhome.organisations rfl]

theorem ne_empty_of_afterAccent (b : ByteArray) : b ++ afterAccent.toUTF8 ≠ ByteArray.empty := by
  intro hempty
  have hsize := congrArg ByteArray.size hempty
  have hafter : 0 < afterAccent.toUTF8.size := by decide +kernel
  rw [ByteArray.size_append, ByteArray.size_empty] at hsize
  omega

theorem readsBack_accented : ∀ writes ∈ [accented], ∀ w ∈ writes, w.ReadsBack := by
  simp only [accented, List.forall_mem_cons, List.not_mem_nil, false_implies, implies_true,
    and_true, Write.ReadsBack]

/-- The line was cut before the character. -/
theorem recovers_iff_isValidUTF8_before_character :
    Home (tornTree beforeAccent.toUTF8) ⟨[], "store"⟩ ["store"] ∧
      beforeAccent.toUTF8 ++ ("é".toUTF8 ++ afterAccent.toUTF8) = (Journal.line accented).toUTF8 ∧
      Recovers (tornTree beforeAccent.toUTF8) ⟨[], "store"⟩ ["store"] [] [accented] := by
  have hline : beforeAccent.toUTF8 ++ ("é".toUTF8 ++ afterAccent.toUTF8) =
      (Journal.line accented).toUTF8 := by
    rw [line_accented]
    simp only [String.toUTF8_eq_toByteArray, String.toByteArray_append]
  have hiff := recovers_iff_isValidUTF8 (home_tornTree _)
    (loadOrganisations_tornTree _) hline (ne_empty_of_afterAccent _) rfl
  exact ⟨home_tornTree _, hline,
    hiff.1.2 ⟨beforeAccent.isValidUTF8, Journal.replay?_ofCommits _ readsBack_accented⟩⟩

/-- The line was cut inside the character. -/
theorem not_recovers_inside_character :
    let torn : ByteArray := beforeAccent.toUTF8 ++ ⟨#[0xC3]⟩
    let rest : ByteArray := ⟨#[0xA9]⟩ ++ afterAccent.toUTF8
    Home (tornTree torn) ⟨[], "store"⟩ ["store"] ∧
      loadOrganisations (tornTree torn) ⟨[], "store"⟩ = .ok [] ∧
      (∀ writes ∈ [accented], ∀ w ∈ writes, w.ReadsBack) ∧
      torn ++ rest = (Journal.line accented).toUTF8 ∧ rest ≠ ByteArray.empty ∧
      (tornTree torn).lookup? (["store"] ++ [journalName]) =
        some (.file ((Journal.ofCommits [accented]).toUTF8 ++ torn)) ∧
      ¬ Recovers (tornTree torn) ⟨[], "store"⟩ ["store"] [] [accented] := by
  intro torn rest
  have hline : torn ++ rest = (Journal.line accented).toUTF8 := by
    have haccent : "é".toUTF8 = ⟨#[0xC3]⟩ ++ ⟨#[0xA9]⟩ := by decide +kernel
    have hbytes : (Journal.line accented).toUTF8 =
        beforeAccent.toUTF8 ++ ("é".toUTF8 ++ afterAccent.toUTF8) := by
      rw [line_accented]
      simp only [String.toUTF8_eq_toByteArray, String.toByteArray_append]
    rw [hbytes, haccent]
    simp only [torn, rest, ByteArray.append_assoc]
  have hinvalid : ¬ torn.IsValidUTF8 := by
    rw [isValidUTF8_append_iff]
    decide +kernel
  refine ⟨home_tornTree torn, loadOrganisations_tornTree torn, readsBack_accented, hline,
    ne_empty_of_afterAccent _, rfl, ?_⟩
  rintro ⟨s, hopen, -, -, -⟩
  rw [(home_tornTree torn).inFolder_of_not_isValidUTF8 (loadOrganisations_tornTree torn) hinvalid
    rfl] at hopen
  cases hopen

end DirectoryStore

end DataQuality
