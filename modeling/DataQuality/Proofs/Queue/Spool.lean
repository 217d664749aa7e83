import DataQuality.Queue.Spool
import DataQuality.Proofs.Files.Tree
import DataQuality.Proofs.Files.Walk

/-!
# The files of a spool

What a spool holds, as the files of JSON in its folder in the order of their names, and
what becomes of it when the file at the front is taken. A file whose bytes are text, and
whose path is not too long to be followed, is taken and leaves the others as they are.
Any other file cannot be taken and stays at the front.
-/
namespace DataQuality

open Files (Path Route Tree SameWays sameWays_of_file)

namespace Spool

/-- The folder to which a route leads, at some path, has these files of JSON and no others. They are
given by their names, in order, with their bytes. -/
structure Holds (directory : Route) (base : Path) (files : List (String × ByteArray)) (t : Tree) :
    Prop where
  leads : directory.follow t = .ok base
  listed : (t.list? base).map (List.filter Path.isJson) = some (files.map Prod.fst)
  ordered : (files.map Prod.fst).Pairwise (· < ·)
  isName : ∀ f ∈ files, Route.IsName f.1
  isFile : ∀ f ∈ files, t.lookup? (base ++ [f.1]) = some (.file f.2)

/-- A file can be taken off a spool: its path can be followed, and its bytes are text. -/
def CanTake (directory : Route) (f : String × ByteArray) : Prop :=
  (directory.join f.1).isUsable = true ∧ (String.fromUTF8? f.2).isSome = true

instance (directory : Route) (f : String × ByteArray) : Decidable (CanTake directory f) :=
  inferInstanceAs (Decidable (_ ∧ _))

namespace Holds

variable {s : Spool} {base : Path} {f : String × ByteArray} {files : List (String × ByteArray)}
  {t : Tree}

theorem folder {directory : Route} (h : Holds directory base files t) :
    t.lookup? base = some .folder := by
  obtain ⟨names, hnames, -⟩ := Option.map_eq_some_iff.1 h.listed
  exact Tree.lookup?_of_isFolder (Tree.list?_eq_some_iff.1 hnames).1

theorem waiting (h : Holds s.directory base files t) : s.waiting t = .ok (files.map Prod.fst) := by
  obtain ⟨names, hnames, hfilter⟩ := Option.map_eq_some_iff.1 h.listed
  have hlist : s.directory.list? t = some names := by
    unfold Route.list?
    rw [h.leads]
    exact hnames
  unfold Spool.waiting
  rw [hlist]
  exact congrArg Except.ok hfilter

theorem pop_nil (h : Holds s.directory base [] t) : s.pop t = .ok none := by
  unfold pop
  rw [h.waiting]
  rfl

theorem pop_cons (h : Holds s.directory base (f :: files) t) :
    s.pop t = (s.take t f.1).map some := by
  unfold pop
  rw [h.waiting]
  rfl

/-- Where the file at the front lies. -/
theorem reached {directory : Route} (h : Holds directory base (f :: files) t)
    (husable : (directory.join f.1).isUsable = true) :
    (directory.join f.1).follow t = .ok (base ++ [f.1]) ∧
      (directory.join f.1).reach t = .ok (base ++ [f.1]) := by
  have hfile := h.isFile f List.mem_cons_self
  refine Route.follow_join h.leads h.folder (h.isName f List.mem_cons_self) husable ?_
  intro goal hgoal
  rw [hfile] at hgoal
  cases hgoal

/-- What a spool holds after the file at the front has been removed. -/
theorem erase {directory : Route} (h : Holds directory base (f :: files) t) :
    Holds directory base files (t.erase (base ++ [f.1])) := by
  have hne : base ++ [f.1] ≠ [] := by simp
  have hfront : ∀ g ∈ files, f.1 < g.1 := fun g hg =>
    (List.pairwise_cons.1 h.ordered).1 g.1 (List.mem_map_of_mem hg)
  have hother : ∀ g ∈ files, g.1 ≠ f.1 := fun g hg he =>
    String.lt_irrefl f.1 (he ▸ hfront g hg)
  constructor
  · have hways : SameWays t (t.erase (base ++ [f.1])) :=
      sameWays_of_file (fun _ hq => Tree.lookup?_erase_of_ne hq)
        (.inr ⟨f.2, h.isFile f List.mem_cons_self⟩) (.inl (Tree.lookup?_erase_self hne))
    exact Route.follow_sameWays hways h.leads
  · obtain ⟨names, hnames, hfilter⟩ := Option.map_eq_some_iff.1 h.listed
    have hrest : (files.map Prod.fst).filter (· != f.1) = files.map Prod.fst := by
      rw [List.filter_eq_self]
      intro name hname
      obtain ⟨g, hg, rfl⟩ := List.mem_map.1 hname
      simpa using hother g hg
    rw [Tree.list?_erase hnames, Option.map_some, List.filter_comm, hfilter, List.map_cons,
      List.filter_cons_of_neg (by simp), hrest]
  · exact (List.pairwise_cons.1 h.ordered).2
  · exact fun g hg => h.isName g (List.mem_cons_of_mem f hg)
  · intro g hg
    rw [Tree.lookup?_erase_of_ne (by simpa using hother g hg)]
    exact h.isFile g (List.mem_cons_of_mem f hg)

/-- A file at the front that can be taken is taken, and the others are left. -/
theorem pop_canTake (h : Holds s.directory base (f :: files) t) {body : String}
    (husable : (s.directory.join f.1).isUsable = true)
    (hbody : String.fromUTF8? f.2 = some body) :
    s.pop t = .ok (some (body, t.erase (base ++ [f.1]))) := by
  have hfile := h.isFile f List.mem_cons_self
  obtain ⟨hfollow, hreach⟩ := h.reached husable
  have hread : (s.directory.join f.1).readText t = .ok body := by
    have htext : t.readText (base ++ [f.1]) = .ok body := by
      unfold Tree.readText Tree.read
      simp only [hfile, hbody]
    unfold Route.readText
    rw [hfollow]
    exact htext
  have hremove : (s.directory.join f.1).removeFile? t = some (t.erase (base ++ [f.1])) := by
    have hremoved : t.removeFile? (base ++ [f.1]) = some (t.erase (base ++ [f.1])) := by
      unfold Tree.removeFile? Tree.has Tree.isFolder
      rw [hfile]
      rfl
    unfold Route.removeFile?
    rw [hreach]
    exact hremoved
  rw [h.pop_cons, take, hread]
  dsimp only
  rw [hremove]
  rfl

/-- Nothing is taken if the file at the front cannot be. -/
theorem pop_not_canTake (h : Holds s.directory base (f :: files) t)
    (hf : ¬ CanTake s.directory f) : s.pop t = .error .io := by
  have hread : ∃ e, (s.directory.join f.1).readText t = .error e := by
    by_cases husable : (s.directory.join f.1).isUsable = true
    · have hnone : String.fromUTF8? f.2 = none := by
        rw [← Option.not_isSome_iff_eq_none]
        exact fun hsome => hf ⟨husable, hsome⟩
      have htext : t.readText (base ++ [f.1]) = .error .unusable := by
        unfold Tree.readText Tree.read
        simp only [h.isFile f List.mem_cons_self, hnone]
      refine ⟨.unusable, ?_⟩
      unfold Route.readText
      rw [(h.reached husable).1]
      exact htext
    · have hwritten := (Route.join_names h.leads (h.isName f List.mem_cons_self).noSlash).1
      exact ⟨.unusable, Route.readText_of_not_isUsable hwritten (by simpa using husable)⟩
  obtain ⟨e, he⟩ := hread
  rw [h.pop_cons, take, he]
  rfl

end Holds

end Spool

end DataQuality
