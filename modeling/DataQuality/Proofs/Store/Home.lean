import DataQuality.Proofs.Files.Folder
import DataQuality.Store.Directory

/-!
# The folder of a store

A store has three files in its folder. What is written to one of them is found there,
and the other two stay as they are. None of them is a link or shared with another
path, so the way to the folder stays the same.
-/
namespace DataQuality

open Files (Path Route Tree)

namespace DirectoryStore

def fileNames : List String := [journalName, organisationsName, temporaryName]

theorem isName_of_mem {name : String} (h : name ∈ fileNames) : Route.IsName name := by
  unfold fileNames journalName organisationsName temporaryName at h
  rcases List.mem_cons.1 h with rfl | h
  · exact ⟨by decide, fun p => by simp +decide [Path.follow], by decide⟩
  · rcases List.mem_cons.1 h with rfl | h
    · exact ⟨by decide, fun p => by simp +decide [Path.follow], by decide⟩
    · obtain rfl := List.mem_singleton.1 h
      exact ⟨by decide, fun p => by simp +decide [Path.follow], by decide⟩

/-- A route leads to a folder in which the names of the files of a store are free, and
the journal and the organisations can be reached there. -/
structure Home (t : Tree) (directory : Route) (base : Path) : Prop where
  follow : directory.follow t = .ok base
  folder : t.lookup? base = some .folder
  free : ∀ name ∈ fileNames, t.Free (base ++ [name])
  journal : (directory.join journalName).isUsable = true
  organisations : (directory.join organisationsName).isUsable = true

namespace Home

variable {t t' : Tree} {directory : Route} {base : Path} {name : String}

/-- A folder of a tree in which no paths share a file. -/
theorem of_ungrouped (hgroups : t.groups = []) (hfollow : directory.follow t = .ok base)
    (hfolder : t.lookup? base = some .folder)
    (hfiles : ∀ name ∈ fileNames, t.has (base ++ [name]) = t.isFile (base ++ [name]))
    (hjournal : (directory.join journalName).isUsable = true)
    (horganisations : (directory.join organisationsName).isUsable = true) :
    Home t directory base where
  follow := hfollow
  folder := hfolder
  free name hname := by
    refine ⟨fun g hg => ?_, ?_⟩
    · rw [hgroups] at hg
      cases hg
    · have hfile := hfiles name hname
      unfold Tree.has Tree.isFile at hfile
      rcases hentry : t.lookup? (base ++ [name]) with _ | ⟨content⟩ | _ | _
      · exact .inl rfl
      · exact .inr ⟨content, rfl⟩
      all_goals
        rw [hentry] at hfile
        cases hfile
  journal := hjournal
  organisations := horganisations

theorem leads (h : Home t directory base) : directory.LeadsTo t base := ⟨h.follow, h.folder⟩

/-- The route to a file of the store ends in its folder. -/
theorem follow_join (h : Home t directory base) (hname : name ∈ fileNames)
    (husable : (directory.join name).isUsable = true) :
    (directory.join name).follow t = .ok (base ++ [name]) ∧
      (directory.join name).reach t = .ok (base ++ [name]) :=
  h.leads.follow_join (h.free name hname) (isName_of_mem hname) husable

/-- Writing one file of a store changes nothing about its folder. -/
theorem put (h : Home t directory base) (hname : name ∈ fileNames) (content : ByteArray) :
    Home (t.put (base ++ [name]) (.file content)) directory base where
  follow := (h.leads.put (h.free name hname) content).follow
  folder := (h.leads.put (h.free name hname) content).folder
  free other hmem := (h.free other hmem).put (h.free name hname) (by simp) content
  journal := h.journal
  organisations := h.organisations

theorem erase (h : Home t directory base) (hname : name ∈ fileNames) :
    Home (t.erase (base ++ [name])) directory base where
  follow := (h.leads.erase (h.free name hname)).follow
  folder := (h.leads.erase (h.free name hname)).folder
  free other hmem := (h.free other hmem).erase (by simp)
  journal := h.journal
  organisations := h.organisations

/-- What is put for one name is not seen under another. -/
theorem lookup?_put_other (h : Home t directory base) (hname : name ∈ fileNames)
    (content : ByteArray) {other : String} (hother : other ≠ name) :
    (t.put (base ++ [name]) (.file content)).lookup? (base ++ [other]) =
      t.lookup? (base ++ [other]) :=
  Tree.lookup?_put_of_ne (h.free name hname).lone content (by simpa using hother)

/-- The text of a file of the store. -/
theorem readText_of_file (h : Home t directory base) (hname : name ∈ fileNames)
    (husable : (directory.join name).isUsable = true) {s : String}
    (hfile : t.lookup? (base ++ [name]) = some (.file s.toUTF8)) :
    (directory.join name).readText t = .ok s := by
  unfold Route.readText
  rw [(h.follow_join hname husable).1]
  exact Tree.readText_of_lookup? hfile

theorem readText_of_none (h : Home t directory base) (hname : name ∈ fileNames)
    (husable : (directory.join name).isUsable = true)
    (hnone : t.lookup? (base ++ [name]) = none) :
    (directory.join name).readText t = .error .missing := by
  unfold Route.readText
  rw [(h.follow_join hname husable).1]
  exact Tree.readText_of_none hnone

/-- Reading a file of the store depends on nothing but what is at its path. -/
theorem readText_eq (h : Home t directory base) (h' : Home t' directory base)
    (hname : name ∈ fileNames) (husable : (directory.join name).isUsable = true)
    (hsame : t'.lookup? (base ++ [name]) = t.lookup? (base ++ [name])) :
    (directory.join name).readText t' = (directory.join name).readText t := by
  unfold Route.readText
  rw [(h.follow_join hname husable).1, (h'.follow_join hname husable).1]
  change t'.readText _ = t.readText _
  unfold Tree.readText Tree.read
  rw [hsame]

/-- A file of the store is written by putting it into the folder. -/
theorem write? (h : Home t directory base) (hname : name ∈ fileNames)
    (husable : (directory.join name).isUsable = true) (content : ByteArray) :
    (directory.join name).write? content t = some (t.put (base ++ [name]) (.file content)) :=
  h.leads.write? (h.free name hname) (isName_of_mem hname) husable content

/-- Bytes are added to those of a file of the store. -/
theorem append?_of_file (h : Home t directory base) (hname : name ∈ fileNames)
    (husable : (directory.join name).isUsable = true) {before : ByteArray}
    (hfile : t.lookup? (base ++ [name]) = some (.file before)) (content : ByteArray) :
    (directory.join name).append? content t =
      some (t.put (base ++ [name]) (.file (before ++ content))) :=
  h.leads.append?_of_file (h.free name hname) (isName_of_mem hname) husable hfile content

theorem append?_of_none (h : Home t directory base) (hname : name ∈ fileNames)
    (husable : (directory.join name).isUsable = true)
    (hnone : t.lookup? (base ++ [name]) = none) (content : ByteArray) :
    (directory.join name).append? content t =
      some (t.put (base ++ [name]) (.file content)) :=
  h.leads.append?_of_none (h.free name hname) (isName_of_mem hname) husable hnone content

/-- A file of the store takes the place of another one. -/
theorem rename? (h : Home t directory base) {source goal : String} (hsource : source ∈ fileNames)
    (hgoal : goal ∈ fileNames) (husable : (directory.join source).isUsable = true)
    (husable' : (directory.join goal).isUsable = true) {content : ByteArray}
    (hfile : t.lookup? (base ++ [source]) = some (.file content)) :
    (directory.join source).rename? (directory.join goal) t =
      some (((t.erase (base ++ [source])).erase (base ++ [goal])).put (base ++ [goal])
        (.file content)) :=
  h.leads.rename? (h.free source hsource) (h.free goal hgoal) (isName_of_mem hsource)
    (isName_of_mem hgoal) husable husable' hfile

/-- A new file takes the place of an old one by way of another name, and the rest of the
folder stays as it is. -/
theorem replace (h : Home t directory base) {source goal : String} (hsource : source ∈ fileNames)
    (hgoal : goal ∈ fileNames) (husable : (directory.join source).isUsable = true)
    (husable' : (directory.join goal).isUsable = true) (content : ByteArray) :
    ∃ t₁ t', (directory.join source).write? content t = some t₁ ∧
      (directory.join source).rename? (directory.join goal) t₁ = some t' ∧
      Home t' directory base ∧ t'.lookup? (base ++ [goal]) = some (.file content) ∧
      ∀ other, other ≠ source → other ≠ goal →
        t'.lookup? (base ++ [other]) = t.lookup? (base ++ [other]) := by
  have hput := h.put hsource content
  have herased := (hput.erase hsource).erase hgoal
  have hrename := hput.rename? hsource hgoal husable husable' (Tree.lookup?_put _ _ _ (by simp))
  refine ⟨_, _, h.write? hsource husable content, hrename, herased.put hgoal content,
    Tree.lookup?_put _ _ _ (by simp), ?_⟩
  intro other hne hne'
  rw [herased.lookup?_put_other hgoal _ hne', Tree.lookup?_erase_of_ne (by simpa using hne'),
    Tree.lookup?_erase_of_ne (by simpa using hne), h.lookup?_put_other hsource _ hne]

end Home

end DirectoryStore

end DataQuality
