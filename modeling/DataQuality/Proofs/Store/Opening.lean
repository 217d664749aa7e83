import DataQuality.Proofs.Files.Changes
import DataQuality.Proofs.Store.TornJournal

/-!
# Opening a store

Opening a store changes nothing but its journal, of which it cuts off what was never
completed, and a store that has been opened keeps the invariant of stores. Commits
change nothing but the journal, either.
-/
namespace DataQuality

open Files (Path Route SameBut Tree)

/-- A journal is its complete part, and what comes after its last line feed. -/
theorem Journal.exists_torn (journal : String) :
    ∃ complete torn, IsComplete complete ∧ '\n' ∉ torn.toList ∧ journal = complete ++ torn := by
  let isRest : Char → Bool := fun c => c != '\n'
  refine ⟨completePart journal, String.ofList (journal.toList.reverse.takeWhile isRest).reverse,
    ?_, ?_, ?_⟩
  · unfold completePart IsComplete
    rw [String.toList_ofList]
    cases hcomplete : journal.toList.reverse.dropWhile isRest with
    | nil => exact .inl rfl
    | cons c rest =>
      right
      have hc : isRest c = false := by
        have hhead := List.head?_dropWhile_not isRest journal.toList.reverse
        rw [hcomplete] at hhead
        simpa using hhead
      obtain rfl : c = '\n' := by simpa [isRest] using hc
      exact ⟨rest.reverse, List.reverse_cons⟩
  · rw [String.toList_ofList, List.mem_reverse]
    intro hmem
    have hrest := List.all_eq_true.1 (List.all_takeWhile (p := isRest)) '\n' hmem
    simp [isRest] at hrest
  · rw [← String.toList_inj, String.toList_append]
    unfold completePart
    rw [String.toList_ofList, String.toList_ofList, ← List.reverse_append,
      List.takeWhile_append_dropWhile, List.reverse_reverse]

namespace DirectoryStore

variable {t t' : Tree} {directory : Route} {base : Path} {s s' : DirectoryStore}

/-- Nothing else has changed when bytes have been put into the journal. -/
theorem Home.sameBut_put (h : Home t directory base) (content : ByteArray) :
    SameBut (base ++ [journalName]) t (t.put (base ++ [journalName]) (.file content)) where
  other _ hq := Tree.lookup?_put_of_ne (h.free _ journalName_mem).lone content hq
  before := (h.free _ journalName_mem).entry
  after := .inr ⟨content, Tree.lookup?_put t _ _ (by simp)⟩

theorem Home.sameBut_refl (h : Home t directory base) : SameBut (base ++ [journalName]) t t :=
  ⟨fun _ _ => rfl, (h.free _ journalName_mem).entry, (h.free _ journalName_mem).entry⟩

/-- A commit changes nothing but the journal. -/
theorem Home.sameBut_commit (h : Home s.tree s.directory base)
    (hrun : commit.run s = (.ok (), s')) : SameBut (base ++ [journalName]) s.tree s'.tree := by
  rw [commit_run] at hrun
  split at hrun
  · obtain rfl := (Prod.mk.inj hrun).2
    exact h.sameBut_refl
  · rcases (h.free _ journalName_mem).entry with hnone | ⟨content, hfile⟩
    · rw [h.append?_of_none journalName_mem h.journal hnone] at hrun
      obtain rfl := (Prod.mk.inj hrun).2
      exact h.sameBut_put _
    · rw [h.append?_of_file journalName_mem h.journal hfile] at hrun
      obtain rfl := (Prod.mk.inj hrun).2
      exact h.sameBut_put _

/-- Nor does cutting off what was never completed. -/
theorem Home.sameBut_cutJournal (h : Home t directory base) {journal : String}
    (hcut : cutJournal t (directory.join journalName) journal = .ok t') :
    SameBut (base ++ [journalName]) t t' := by
  unfold cutJournal at hcut
  dsimp only at hcut
  rw [h.write? journalName_mem h.journal] at hcut
  split at hcut
  · obtain rfl := Except.ok.inj hcut
    exact h.sameBut_refl
  · obtain rfl := Except.ok.inj hcut
    exact h.sameBut_put _

theorem Home.sameBut_inFolder (h : Home t directory base)
    (hopen : inFolder t directory = (.ok s, t')) : SameBut (base ++ [journalName]) t t' := by
  unfold inFolder at hopen
  rw [h.makeFolder] at hopen
  dsimp only at hopen
  split at hopen
  · cases hopen
  split at hopen
  · cases hopen
    exact h.sameBut_refl
  · cases hopen
  split at hopen
  · cases hopen
  next hcut =>
    split at hopen
    · cases hopen
      exact h.sameBut_cutJournal hcut
    · cases hopen

/-- A store that has been opened keeps the invariant, and opening it changed nothing but
the journal. -/
theorem Home.stored_of_inFolder (h : Home t directory base)
    (hopen : inFolder t directory = (.ok s, t')) :
    s.tree = t' ∧ s.directory = directory ∧ s.ledger.staged = [] ∧
      SameBut (base ++ [journalName]) t t' ∧ ∃ journal, Stored s base journal := by
  cases hload : loadOrganisations t directory with
  | error e =>
    rw [inFolder_of_error h.makeFolder hload] at hopen
    cases hopen
  | ok organisations =>
    rcases (h.free _ journalName_mem).entry with hnone | ⟨content, hfile⟩
    · have hread := h.readText_of_none journalName_mem h.journal hnone
      rw [inFolder_of_missing h.makeFolder hload hread] at hopen
      cases hopen
      refine ⟨rfl, rfl, rfl, h.sameBut_refl, "", h, hload, .inr ⟨hnone, rfl⟩,
        Journal.isComplete_empty, rfl, fun _ hw => (by cases hw)⟩
    · by_cases hvalid : content.IsValidUTF8
      · obtain ⟨text, rfl⟩ : ∃ text : String, text.toUTF8 = content :=
          ⟨String.fromUTF8 content hvalid, rfl⟩
        obtain ⟨complete, torn, hcomplete, htorn, rfl⟩ := Journal.exists_torn text
        cases hreplay : Journal.replay? (Tables.listing organisations) complete with
        | none =>
          have herror := h.inFolder_of_unread hload hcomplete htorn hfile hreplay
          rw [hopen] at herror
          cases herror
        | some tables =>
          obtain ⟨s', hopen', hdirectory, hledger, -, hstored⟩ :=
            h.inFolder_of_torn hload hcomplete htorn hfile hreplay
          rw [hopen'] at hopen
          cases hopen
          exact ⟨rfl, hdirectory, by rw [hledger]; rfl, h.sameBut_inFolder hopen', complete, hstored⟩
      · have hread : (directory.join journalName).readText t = .error .unusable := by
          unfold Route.readText
          rw [(h.follow_join journalName_mem h.journal).1]
          exact Tree.readText_of_not_isValidUTF8 hfile hvalid
        rw [inFolder_of_unusable h.makeFolder hload hread] at hopen
        cases hopen

/-- A store is opened in a folder that has been made before. -/
theorem inFolder_of_made (hopen : inFolder t directory = (.ok s, t'))
    (h : Home (directory.makeFolder.run t).2 directory base) :
    inFolder (directory.makeFolder.run t).2 directory = (.ok s, t') := by
  have hagain := h.makeFolder
  rcases hmake : directory.makeFolder.run t with ⟨_ | _, made⟩
  · unfold inFolder at hopen
    rw [hmake] at hopen
    cases hopen
  · rw [hmake] at hagain
    rw [← hopen]
    unfold inFolder
    rw [hagain, hmake]

end DirectoryStore

end DataQuality
