import Mathlib.Data.String.Basic
import DataQuality.Proofs.Files.Walk

/-!
# The files of a folder

A name of characters that take one byte and are no slash leads from a folder to something in it, if
it is short enough, and its part after the last point is its extension.

What can be done with the files in a folder to which a route leads is said here too. A name is free
there if it leads to nothing, or to a file that has no other path. A free name is written, read,
renamed and removed without a change at any other path, and the route still leads to the folder then.
-/
namespace DataQuality.Files

namespace Route

/-- A character of one byte that neither ends a name nor a path. -/
def isPlain (c : Char) : Bool := 0 < c.toNat && c.toNat < 128 && c != '/'

/-- A name has one byte for each of its plain characters. -/
theorem utf8ByteSize_of_isPlain {cs : List Char} (h : cs.all isPlain = true) :
    (String.ofList cs).utf8ByteSize = cs.length := by
  rw [String.utf8ByteSize_ofList]
  induction cs with
  | nil => rfl
  | cons c cs ih =>
    rw [List.all_cons, Bool.and_eq_true] at h
    have hascii : c.toNat < 128 := by
      have hc := h.1
      simp only [isPlain, Bool.and_eq_true, decide_eq_true_eq] at hc
      exact hc.1.2
    have hsize : c.utf8Size = 1 := by
      have hval : c.val ≤ 0x7f := by
        rw [UInt32.le_iff_toNat_le]
        exact Nat.le_of_lt_succ hascii
      exact Char.utf8Size_eq_one_iff.2 hval
    rw [String.utf8Len_cons, ih h.2, hsize, List.length_cons]

theorem not_mem_of_isPlain {cs : List Char} (h : cs.all isPlain = true) :
    '/' ∉ cs ∧ '\x00' ∉ cs := by
  rw [List.all_eq_true] at h
  constructor
  · intro hmem
    have hplain := h _ hmem
    revert hplain
    decide
  · intro hmem
    have hplain := h _ hmem
    revert hplain
    decide

/-- A name of plain characters that is longer than two points. -/
structure IsPlainName (name : String) : Prop where
  plain : name.toList.all isPlain = true
  long : 2 < name.toList.length

theorem IsPlainName.utf8ByteSize {name : String} (h : IsPlainName name) :
    name.utf8ByteSize = name.toList.length := by
  have hsize := utf8ByteSize_of_isPlain h.plain
  rwa [String.ofList_toList] at hsize

/-- A short plain name leads from a folder to something in it. -/
theorem IsPlainName.isName {name : String} (h : IsPlainName name)
    (hshort : name.utf8ByteSize ≤ longestName) : IsName name where
  noSlash := (not_mem_of_isPlain h.plain).1
  follow p := by
    have hlong := h.long
    have hne (other : String) (hother : other.toList.length ≤ 2) : name ≠ other := by
      rintro rfl
      omega
    unfold Path.follow
    simp [hne "" (by decide), hne "." (by decide), hne ".." (by decide)]
  short := hshort

/-- A plain name is reached where there is room for it in the written path. -/
theorem isUsable_join {r : Route} {name : String} (husable : r.isUsable = true)
    (h : IsPlainName name) (hroom : r.written.utf8ByteSize + name.toList.length < longestPath) :
    (r.join name).isUsable = true := by
  have hsize := h.utf8ByteSize
  have hzero := (not_mem_of_isPlain h.plain).2
  simp only [isUsable, Bool.and_eq_true, decide_eq_true_eq, Bool.not_eq_true',
    List.contains_eq_mem, decide_eq_false_iff_not] at husable
  unfold join isUsable
  split_ifs
  · simp [String.utf8ByteSize_append, String.toList_append, hsize, husable.2, hzero]
    omega
  · have hslash : "/".utf8ByteSize = 1 := by decide
    simp [String.utf8ByteSize_append, String.toList_append, hsize, husable.2, hzero, hslash]
    omega

end Route

/-- The part after the last point of a name is its extension. -/
theorem Path.extension?_append {name : String} (hname : name ≠ "") (ext : List Char)
    (hext : ext ≠ []) (hpoint : '.' ∉ ext) :
    extension? (name ++ String.ofList ('.' :: ext)) = some (String.ofList ext) := by
  have hreverse : (name ++ String.ofList ('.' :: ext)).toList.reverse =
      ext.reverse ++ '.' :: name.toList.reverse := by
    simp [String.toList_append]
  have hafter : (ext.reverse ++ '.' :: name.toList.reverse).takeWhile (· != '.') = ext.reverse := by
    rw [List.takeWhile_append_of_pos]
    · simp
    · intro c hc
      rw [bne_iff_ne]
      rintro rfl
      exact hpoint (List.mem_reverse.1 hc)
  have hne : name ++ String.ofList ('.' :: ext) ≠ ".." := by
    intro hpoints
    have hlength := congrArg (fun s => s.toList.length) hpoints
    have hext' := List.length_pos_iff.2 hext
    have hname' : 0 < name.toList.length := List.length_pos_iff.2 (by simpa using hname)
    rw [String.toList_append, String.toList_ofList, List.length_append, List.length_cons,
      show "..".toList.length = 2 from rfl] at hlength
    omega
  obtain ⟨c, cs, hcs⟩ := List.exists_cons_of_ne_nil
    (show name.toList.reverse ≠ [] by simpa using hname)
  unfold extension?
  rw [hreverse]
  dsimp only
  rw [hafter, List.drop_left, hcs, if_neg hne, List.reverse_reverse]
  rfl

namespace Tree

variable {t : Tree} {p q : Path}

/-- Nothing is at the path, or a file that no other path leads to. -/
structure Free (t : Tree) (p : Path) : Prop where
  lone : t.Lone p
  entry : t.lookup? p = none ∨ ∃ content, t.lookup? p = some (.file content)

namespace Free

theorem no_link (h : t.Free p) (goal : String) : t.lookup? p ≠ some (.link goal) := by
  intro hlink
  rcases h.entry with hnone | ⟨content, hfile⟩
  · rw [hnone] at hlink
    cases hlink
  · rw [hfile] at hlink
    cases hlink

theorem not_isFolder (h : t.Free p) : t.isFolder p = false := by
  unfold isFolder
  rcases h.entry with hnone | ⟨content, hfile⟩
  · rw [hnone]
  · rw [hfile]

/-- A free path stays free when a file is put at a free path. -/
theorem put (h : t.Free q) (hp : t.Free p) (hroot : p ≠ []) (content : ByteArray) :
    (t.put p (.file content)).Free q := by
  refine ⟨h.lone.put p content, ?_⟩
  by_cases hqp : q = p
  · rw [hqp, lookup?_put t p _ hroot]
    exact .inr ⟨content, rfl⟩
  · rw [lookup?_put_of_ne hp.lone content hqp]
    exact h.entry

/-- So it does when something is removed. -/
theorem erase (h : t.Free q) (hroot : p ≠ []) : (t.erase p).Free q := by
  refine ⟨h.lone.erase p, ?_⟩
  by_cases hqp : q = p
  · rw [hqp]
    exact .inl (lookup?_erase_self hroot)
  · rw [lookup?_erase_of_ne hqp]
    exact h.entry

end Free

end Tree

namespace Route

variable {r : Route} {t t' : Tree} {base : Path} {name : String}

/-- A route leads to a folder. -/
structure LeadsTo (r : Route) (t : Tree) (base : Path) : Prop where
  follow : r.follow t = .ok base
  folder : t.lookup? base = some .folder

namespace LeadsTo

theorem isFolder (h : r.LeadsTo t base) : t.isFolder base = true := by
  unfold Tree.isFolder
  rw [h.folder]

/-- Changing a file of the folder changes nothing about the way to it. -/
theorem change (h : r.LeadsTo t base) (hfree : t.Free (base ++ [name]))
    (hother : ∀ q, q ≠ base ++ [name] → t'.lookup? q = t.lookup? q)
    (hafter : t'.lookup? (base ++ [name]) = none ∨
      ∃ content, t'.lookup? (base ++ [name]) = some (.file content)) : r.LeadsTo t' base where
  follow := follow_sameWays (sameWays_of_file hother hfree.entry hafter) h.follow
  folder := (sameWays_of_file hother hfree.entry hafter).folder base h.folder

theorem put (h : r.LeadsTo t base) (hfree : t.Free (base ++ [name])) (content : ByteArray) :
    r.LeadsTo (t.put (base ++ [name]) (.file content)) base :=
  h.change hfree (fun _ hq => Tree.lookup?_put_of_ne hfree.lone content hq)
    (.inr ⟨content, Tree.lookup?_put t _ _ (by simp)⟩)

theorem erase (h : r.LeadsTo t base) (hfree : t.Free (base ++ [name])) :
    r.LeadsTo (t.erase (base ++ [name])) base :=
  h.change hfree (fun _ hq => Tree.lookup?_erase_of_ne hq)
    (.inl (Tree.lookup?_erase_self (by simp)))

/-- The route to a free name ends in the folder. -/
theorem follow_join (h : r.LeadsTo t base) (hfree : t.Free (base ++ [name])) (hname : IsName name)
    (husable : (r.join name).isUsable = true) :
    (r.join name).follow t = .ok (base ++ [name]) ∧ (r.join name).reach t = .ok (base ++ [name]) :=
  Route.follow_join h.follow h.folder hname husable hfree.no_link

/-- A file is written by putting it into the folder. -/
theorem write? (h : r.LeadsTo t base) (hfree : t.Free (base ++ [name])) (hname : IsName name)
    (husable : (r.join name).isUsable = true) (content : ByteArray) :
    (r.join name).write? content t = some (t.put (base ++ [name]) (.file content)) := by
  have hwrite : t.write? (base ++ [name]) content =
      some (t.put (base ++ [name]) (.file content)) := by
    unfold Tree.write?
    rw [hfree.not_isFolder, List.dropLast_concat, h.isFolder]
    rfl
  unfold Route.write?
  rw [(h.follow_join hfree hname husable).1]
  exact hwrite

/-- Bytes are added to those of a file. -/
theorem append?_of_file (h : r.LeadsTo t base) (hfree : t.Free (base ++ [name]))
    (hname : IsName name) (husable : (r.join name).isUsable = true) {before : ByteArray}
    (hfile : t.lookup? (base ++ [name]) = some (.file before)) (content : ByteArray) :
    (r.join name).append? content t =
      some (t.put (base ++ [name]) (.file (before ++ content))) := by
  unfold Route.append?
  rw [(h.follow_join hfree hname husable).1]
  change t.append? (base ++ [name]) content = _
  unfold Tree.append?
  rw [hfile]

theorem append?_of_none (h : r.LeadsTo t base) (hfree : t.Free (base ++ [name]))
    (hname : IsName name) (husable : (r.join name).isUsable = true)
    (hnone : t.lookup? (base ++ [name]) = none) (content : ByteArray) :
    (r.join name).append? content t = some (t.put (base ++ [name]) (.file content)) := by
  have hwrite := h.write? hfree hname husable content
  unfold Route.write? at hwrite
  unfold Route.append?
  rw [(h.follow_join hfree hname husable).1] at hwrite ⊢
  change t.append? (base ++ [name]) content = _
  unfold Tree.append?
  rw [hnone]
  exact hwrite

/-- A file takes the place of another one. -/
theorem rename? (h : r.LeadsTo t base) {source goal : String}
    (hsource : t.Free (base ++ [source])) (hgoal : t.Free (base ++ [goal])) (hname : IsName source)
    (hname' : IsName goal) (husable : (r.join source).isUsable = true)
    (husable' : (r.join goal).isUsable = true) {content : ByteArray}
    (hfile : t.lookup? (base ++ [source]) = some (.file content)) :
    (r.join source).rename? (r.join goal) t =
      some (((t.erase (base ++ [source])).erase (base ++ [goal])).put (base ++ [goal])
        (.file content)) := by
  have hgoal' : (t.erase (base ++ [source])).Free (base ++ [goal]) := hgoal.erase (by simp)
  have hleads := (h.erase hsource).erase hgoal'
  have hfree : ((t.erase (base ++ [source])).erase (base ++ [goal])).Free (base ++ [goal]) :=
    hgoal'.erase (by simp)
  unfold Route.rename?
  rw [(h.follow_join hsource hname husable).2, (h.follow_join hgoal hname' husable').2]
  change t.rename? (base ++ [source]) (base ++ [goal]) = _
  unfold Tree.rename?
  rw [hfile]
  dsimp only
  rw [hgoal.not_isFolder, if_neg Bool.false_ne_true]
  unfold Tree.write?
  rw [hfree.not_isFolder, List.dropLast_concat, hleads.isFolder]
  rfl

/-- A file is removed. -/
theorem removeFile? (h : r.LeadsTo t base) (hfree : t.Free (base ++ [name])) (hname : IsName name)
    (husable : (r.join name).isUsable = true) {content : ByteArray}
    (hfile : t.lookup? (base ++ [name]) = some (.file content)) :
    (r.join name).removeFile? t = some (t.erase (base ++ [name])) := by
  have hremove : t.removeFile? (base ++ [name]) = some (t.erase (base ++ [name])) := by
    unfold Tree.removeFile? Tree.has
    rw [hfree.not_isFolder, hfile]
    rfl
  unfold Route.removeFile?
  rw [(h.follow_join hfree hname husable).2]
  exact hremove

/-- The text of a file. -/
theorem readText (h : r.LeadsTo t base) (hfree : t.Free (base ++ [name])) (hname : IsName name)
    (husable : (r.join name).isUsable = true) :
    (r.join name).readText t = t.readText (base ++ [name]) := by
  unfold Route.readText
  rw [(h.follow_join hfree hname husable).1]
  rfl

section

/-! What an operation on a plain name has done if it has not failed. -/

variable {content : ByteArray}

/-- A plain name is short enough if it is reached in the folder. -/
theorem isName_of_walk (h : r.LeadsTo t base) (hplain : IsPlainName name) {atEnd : Bool} {q : Path}
    (hjoin : walkLinks atEnd t (mostLinks + 1) (r.join name).start (r.join name).names = .ok q) :
    IsName name := by
  obtain ⟨-, hstart, names, hwalk, hnames⟩ := join_names h.follow (not_mem_of_isPlain hplain.plain).1
  rw [hstart, hnames] at hjoin
  exact hplain.isName (short_of_walkLinks hwalk hjoin)

theorem isName_of_follow (h : r.LeadsTo t base) (hplain : IsPlainName name) {q : Path}
    (hjoin : (r.join name).follow t = .ok q) : IsName name ∧ (r.join name).isUsable = true :=
  ⟨h.isName_of_walk hplain (follow_eq_ok hjoin).2.2, (follow_eq_ok hjoin).2.1⟩

theorem isName_of_reach (h : r.LeadsTo t base) (hplain : IsPlainName name) {q : Path}
    (hjoin : (r.join name).reach t = .ok q) : IsName name ∧ (r.join name).isUsable = true :=
  ⟨h.isName_of_walk hplain (reach_eq_ok hjoin).2, (reach_eq_ok hjoin).1⟩

theorem eq_of_write? (h : r.LeadsTo t base) (hfree : t.Free (base ++ [name]))
    (hplain : IsPlainName name) (hwrite : (r.join name).write? content t = some t') :
    t' = t.put (base ++ [name]) (.file content) := by
  cases hfollow : (r.join name).follow t with
  | error e =>
    unfold Route.write? at hwrite
    rw [hfollow] at hwrite
    cases hwrite
  | ok q =>
    obtain ⟨hname, husable⟩ := h.isName_of_follow hplain hfollow
    rw [h.write? hfree hname husable] at hwrite
    exact (Option.some.inj hwrite).symm

theorem eq_of_append? (h : r.LeadsTo t base) (hfree : t.Free (base ++ [name]))
    (hplain : IsPlainName name) {before : ByteArray}
    (hfile : t.lookup? (base ++ [name]) = some (.file before))
    (happend : (r.join name).append? content t = some t') :
    t' = t.put (base ++ [name]) (.file (before ++ content)) := by
  cases hfollow : (r.join name).follow t with
  | error e =>
    unfold Route.append? at happend
    rw [hfollow] at happend
    cases happend
  | ok q =>
    obtain ⟨hname, husable⟩ := h.isName_of_follow hplain hfollow
    rw [h.append?_of_file hfree hname husable hfile] at happend
    exact (Option.some.inj happend).symm

theorem eq_of_rename? (h : r.LeadsTo t base) {source goal : String}
    (hsource : t.Free (base ++ [source])) (hgoal : t.Free (base ++ [goal]))
    (hplain : IsPlainName source) (hplain' : IsPlainName goal)
    (hfile : t.lookup? (base ++ [source]) = some (.file content))
    (hrename : (r.join source).rename? (r.join goal) t = some t') :
    t' = ((t.erase (base ++ [source])).erase (base ++ [goal])).put (base ++ [goal])
      (.file content) := by
  cases hreach : (r.join source).reach t with
  | error e =>
    unfold Route.rename? at hrename
    rw [hreach] at hrename
    cases hrename
  | ok q =>
    cases hreach' : (r.join goal).reach t with
    | error e =>
      unfold Route.rename? at hrename
      rw [hreach, hreach'] at hrename
      cases hrename
    | ok q' =>
      obtain ⟨hname, husable⟩ := h.isName_of_reach hplain hreach
      obtain ⟨hname', husable'⟩ := h.isName_of_reach hplain' hreach'
      rw [h.rename? hsource hgoal hname hname' husable husable' hfile] at hrename
      exact (Option.some.inj hrename).symm

theorem eq_of_removeFile? (h : r.LeadsTo t base) (hfree : t.Free (base ++ [name]))
    (hplain : IsPlainName name) (hremove : (r.join name).removeFile? t = some t') :
    (∃ content, t.lookup? (base ++ [name]) = some (.file content)) ∧
      t' = t.erase (base ++ [name]) := by
  cases hreach : (r.join name).reach t with
  | error e =>
    unfold Route.removeFile? at hremove
    rw [hreach] at hremove
    cases hremove
  | ok q =>
    obtain ⟨hname, husable⟩ := h.isName_of_reach hplain hreach
    rcases hfree.entry with hnone | ⟨content, hfile⟩
    · have hmissing : t.removeFile? (base ++ [name]) = none := by
        unfold Tree.removeFile? Tree.has
        rw [hnone]
        rfl
      unfold Route.removeFile? at hremove
      rw [(h.follow_join hfree hname husable).2] at hremove
      exact absurd (hmissing.symm.trans hremove) (by simp)
    · rw [h.removeFile? hfree hname husable hfile] at hremove
      exact ⟨⟨content, hfile⟩, (Option.some.inj hremove).symm⟩

theorem readText_of_ok (h : r.LeadsTo t base) (hfree : t.Free (base ++ [name]))
    (hplain : IsPlainName name) {text : String} (hread : (r.join name).readText t = .ok text) :
    t.readText (base ++ [name]) = .ok text := by
  cases hfollow : (r.join name).follow t with
  | error e =>
    unfold Route.readText at hread
    rw [hfollow] at hread
    cases hread
  | ok q =>
    obtain ⟨hname, husable⟩ := h.isName_of_follow hplain hfollow
    rwa [h.readText hfree hname husable] at hread

end

end LeadsTo

end Route

end DataQuality.Files
