import DataQuality.Files.Route
import DataQuality.Proofs.Files.Tree

/-!
# Where routes end

A route that ends in a folder can be followed one name further, and still ends there
after files have been changed: only folders and links lie on the way.
-/
namespace DataQuality.Files

variable {t t' : Tree}

/-- The second tree has the folders and links of the first, and no other links. -/
structure SameWays (t t' : Tree) : Prop where
  folder : ∀ p, t.lookup? p = some .folder → t'.lookup? p = some .folder
  link : ∀ p goal, t.lookup? p = some (.link goal) → t'.lookup? p = some (.link goal)
  noLink : ∀ p, (∀ goal, t.lookup? p ≠ some (.link goal)) →
    ∀ goal, t'.lookup? p ≠ some (.link goal)

/-- Changing what is neither a folder nor a link, into what is neither, leaves the ways
as they are. -/
theorem sameWays_of_file {p : Path} (hother : ∀ q, q ≠ p → t'.lookup? q = t.lookup? q)
    (hbefore : t.lookup? p = none ∨ ∃ content, t.lookup? p = some (.file content))
    (hafter : t'.lookup? p = none ∨ ∃ content, t'.lookup? p = some (.file content)) :
    SameWays t t' where
  folder q hq := by
    by_cases hqp : q = p
    · subst hqp
      rcases hbefore with h | ⟨content, h⟩ <;> rw [h] at hq <;> cases hq
    · rw [hother q hqp, hq]
  link q goal hq := by
    by_cases hqp : q = p
    · subst hqp
      rcases hbefore with h | ⟨content, h⟩ <;> rw [h] at hq <;> cases hq
    · rw [hother q hqp, hq]
  noLink q hq goal := by
    by_cases hqp : q = p
    · subst hqp
      rcases hafter with h | ⟨content, h⟩ <;> rw [h] <;> intro he <;> cases he
    · rw [hother q hqp]
      exact hq goal

namespace Route

variable {again again' : Path → List String → Except FileError Path} {atEnd : Bool}

/-- A step of a walk that ends: it starts in a folder, and then follows a link or goes
on. -/
theorem walkWith_cons {p q : Path} {name : String} {rest : List String}
    (h : walkWith again atEnd t p (name :: rest) = .ok q) :
    t.lookup? p = some .folder ∧ name.utf8ByteSize ≤ longestName ∧
      ((∃ goal, t.lookup? (p.follow name) = some (.link goal) ∧
          if atEnd && rest.isEmpty then q = p.follow name
          else again (startOf p goal) (namesOf goal ++ rest) = .ok q) ∨
        ((∀ goal, t.lookup? (p.follow name) ≠ some (.link goal)) ∧
          walkWith again atEnd t (p.follow name) rest = .ok q)) := by
  unfold walkWith at h
  split at h
  · cases h
  · cases h
  · cases h
  · next hp =>
    by_cases hsize : longestName < name.utf8ByteSize
    · rw [if_pos hsize] at h
      cases h
    · rw [if_neg hsize] at h
      refine ⟨hp, by omega, ?_⟩
      split at h
      · next goal hgoal =>
        left
        refine ⟨goal, hgoal, ?_⟩
        split at h
        · next hend =>
          rw [if_pos hend]
          exact (Except.ok.inj h).symm
        · next hend =>
          rw [if_neg hend]
          exact h
      · next hno => exact .inr ⟨fun goal hgoal => hno goal hgoal, h⟩

theorem walkWith_link {p : Path} {name goal : String} (rest : List String)
    (hp : t.lookup? p = some .folder) (hsize : name.utf8ByteSize ≤ longestName)
    (hgoal : t.lookup? (p.follow name) = some (.link goal)) :
    walkWith again atEnd t p (name :: rest) =
      if atEnd && rest.isEmpty then .ok (p.follow name)
      else again (startOf p goal) (namesOf goal ++ rest) := by
  have hshort : ¬ longestName < name.utf8ByteSize := by omega
  rw [walkWith, hp]
  dsimp only
  rw [if_neg hshort, hgoal]

theorem walkWith_on {p : Path} {name : String} (rest : List String)
    (hp : t.lookup? p = some .folder) (hsize : name.utf8ByteSize ≤ longestName)
    (hno : ∀ goal, t.lookup? (p.follow name) ≠ some (.link goal)) :
    walkWith again atEnd t p (name :: rest) = walkWith again atEnd t (p.follow name) rest := by
  have hshort : ¬ longestName < name.utf8ByteSize := by omega
  rw [walkWith, hp]
  dsimp only
  rw [if_neg hshort]
  split
  · next goal hgoal => exact absurd hgoal (hno goal)
  · rfl

/-- A walk ends in the same place in a tree with the same ways. -/
theorem walkLinks_sameWays (h : SameWays t t') {links : Nat} {p q : Path} {names : List String}
    (hwalk : walkLinks atEnd t links p names = .ok q) : walkLinks atEnd t' links p names = .ok q := by
  induction links generalizing p names with
  | zero => cases hwalk
  | succ links ih =>
    induction names generalizing p with
    | nil => exact hwalk
    | cons name rest ihNames =>
      obtain ⟨hp, hsize, ⟨goal, hgoal, hgo⟩ | ⟨hno, hgo⟩⟩ := walkWith_cons hwalk
      · rw [walkLinks, walkWith_link rest (h.folder p hp) hsize (h.link _ goal hgoal)]
        split at hgo
        · next hend => rw [if_pos hend, hgo]
        · next hend => rw [if_neg hend, ih hgo]
      · rw [walkLinks, walkWith_on rest (h.folder p hp) hsize (h.noLink _ hno)]
        exact ihNames hgo

/-- A walk to a folder goes on to a name in it that is no link. -/
theorem walkLinks_concat {links : Nat} {p q : Path} {names : List String} {name : String}
    (hwalk : walkLinks false t links p names = .ok q) (hq : t.lookup? q = some .folder)
    (hsize : name.utf8ByteSize ≤ longestName)
    (hno : ∀ goal, t.lookup? (q.follow name) ≠ some (.link goal)) (atEnd : Bool) :
    walkLinks atEnd t links p (names ++ [name]) = .ok (q.follow name) := by
  induction links generalizing p names with
  | zero => cases hwalk
  | succ links ih =>
    induction names generalizing p with
    | nil =>
      obtain rfl : p = q := Except.ok.inj hwalk
      rw [walkLinks, List.nil_append, walkWith_on [] hq hsize hno]
      rfl
    | cons first rest ihNames =>
      obtain ⟨hp, hfirst, ⟨goal, hgoal, hgo⟩ | ⟨hno', hgo⟩⟩ := walkWith_cons hwalk
      · have hend : (atEnd && (rest ++ [name]).isEmpty) = false := by simp
        rw [walkLinks, List.cons_append, walkWith_link (rest ++ [name]) hp hfirst hgoal, hend]
        rw [Bool.false_and, if_neg Bool.false_ne_true] at hgo
        rw [if_neg Bool.false_ne_true, ← List.append_assoc]
        exact ih hgo
      · rw [walkLinks, List.cons_append, walkWith_on (rest ++ [name]) hp hfirst hno']
        exact ihNames hgo

/-- A name to which a walk goes on from a folder is not too long. -/
theorem short_of_walkLinks {links : Nat} {p q end' : Path} {names : List String} {name : String}
    (hwalk : walkLinks false t links p names = .ok q)
    (hend : walkLinks atEnd t links p (names ++ [name]) = .ok end') :
    name.utf8ByteSize ≤ longestName := by
  induction links generalizing p names with
  | zero => cases hwalk
  | succ links ih =>
    induction names generalizing p with
    | nil => exact (walkWith_cons hend).2.1
    | cons first rest ihNames =>
      rw [walkLinks] at hend
      obtain ⟨hp, hfirst, ⟨goal, hgoal, hgo⟩ | ⟨hno, hgo⟩⟩ := walkWith_cons hwalk
      · have hlast : (atEnd && (rest ++ [name]).isEmpty) = false := by simp
        rw [List.cons_append, walkWith_link (rest ++ [name]) hp hfirst hgoal, hlast,
          if_neg Bool.false_ne_true, ← List.append_assoc] at hend
        rw [Bool.false_and, if_neg Bool.false_ne_true] at hgo
        exact ih hgo hend
      · rw [List.cons_append, walkWith_on (rest ++ [name]) hp hfirst hno] at hend
        exact ihNames hgo hend

/-- A slash at the end of a walk changes nothing about where it ends. -/
theorem walkLinks_of_concat_empty {links : Nat} {p q : Path} {names : List String}
    (hwalk : walkLinks false t links p (names ++ [""]) = .ok q) :
    walkLinks false t links p names = .ok q := by
  induction links generalizing p names with
  | zero => cases hwalk
  | succ links ih =>
    induction names generalizing p with
    | nil =>
      have hfollow : Path.follow p "" = p := by simp [Path.follow]
      obtain ⟨hp, -, ⟨goal, hgoal, -⟩ | ⟨-, hgo⟩⟩ := walkWith_cons hwalk
      · rw [hfollow, hp] at hgoal
        cases hgoal
      · rw [hfollow] at hgo
        exact hgo
    | cons first rest ihNames =>
      rw [List.cons_append] at hwalk
      obtain ⟨hp, hfirst, ⟨goal, hgoal, hgo⟩ | ⟨hno', hgo⟩⟩ := walkWith_cons hwalk
      · rw [Bool.false_and, if_neg Bool.false_ne_true, ← List.append_assoc] at hgo
        rw [walkLinks, walkWith_link rest hp hfirst hgoal, Bool.false_and,
          if_neg Bool.false_ne_true]
        exact ih hgo
      · rw [walkLinks, walkWith_on rest hp hfirst hno']
        exact ihNames hgo

/-- A name that leads from a folder to something in it. -/
structure IsName (name : String) : Prop where
  noSlash : '/' ∉ name.toList
  follow : ∀ p, Path.follow p name = p ++ [name]
  short : name.utf8ByteSize ≤ longestName

theorem namesOf_slash (written name : String) (hname : '/' ∉ name.toList) :
    namesOf (written ++ "/" ++ name) = namesOf written ++ [name] := by
  have hchars : (written ++ "/" ++ name).toList = written.toList ++ '/' :: name.toList := by
    rw [String.toList_append, String.toList_append, List.append_assoc]
    rfl
  unfold namesOf
  rw [hchars, List.splitOn_append_cons_self, List.splitOn_eq_singleton hname, List.map_append,
    List.map_singleton, String.ofList_toList]

/-- A written path with a slash at its end has an empty name after it. -/
theorem exists_of_slash {written : String} (h : written.toList.getLast? = some '/') :
    ∃ front, written = front ++ "/" ∧ namesOf written = namesOf front ++ [""] := by
  obtain ⟨cs, hcs⟩ : ∃ cs, written.toList = cs ++ ['/'] := by
    have hne : written.toList ≠ [] := by
      rintro he
      rw [he] at h
      cases h
    have hlast : written.toList.getLast hne = '/' := by
      rw [List.getLast?_eq_some_getLast hne] at h
      exact Option.some.inj h
    exact ⟨written.toList.dropLast, by rw [← hlast, List.dropLast_concat_getLast]⟩
  have hwritten : written = String.ofList cs ++ "/" := by
    rw [← String.toList_inj, hcs, String.toList_append, String.toList_ofList]
    rfl
  refine ⟨String.ofList cs, hwritten, ?_⟩
  have hnames := namesOf_slash (String.ofList cs) "" (by simp)
  rwa [String.append_empty, ← hwritten] at hnames

theorem startOf_append (folder : Path) {written : String} (h : written ≠ "") (more : String) :
    startOf folder (written ++ more) = startOf folder written := by
  have hne : written.toList ≠ [] := by
    intro he
    exact h (String.toList_inj.1 (he.trans String.toList_empty.symm))
  unfold startOf
  rw [String.toList_append, List.head?_append_of_ne_nil _ hne]

/-- A route that leads somewhere is written, can be followed, and is walked. -/
theorem follow_eq_ok {r : Route} {q : Path} (h : r.follow t = .ok q) :
    r.written ≠ "" ∧ r.isUsable = true ∧ walk t r.start r.names = .ok q := by
  unfold follow at h
  split at h
  · cases h
  · next hwritten =>
    split at h
    · cases h
    · next husable => exact ⟨hwritten, by simpa using husable, h⟩

theorem reach_eq_ok {r : Route} {q : Path} (h : r.reach t = .ok q) :
    r.isUsable = true ∧ walkLinks true t (mostLinks + 1) r.start r.names = .ok q := by
  unfold reach at h
  split at h
  · cases h
  · split at h
    · cases h
    · next husable => exact ⟨by simpa using husable, h⟩

/-- A route that leads to a folder with some names ends there. -/
theorem follow_of_list? {r : Route} {names : List String} (h : r.list? t = some names) :
    ∃ p, r.follow t = .ok p ∧ t.list? p = some names := by
  unfold list? at h
  cases hfollow : r.follow t with
  | error e =>
    rw [hfollow] at h
    cases h
  | ok p =>
    rw [hfollow] at h
    exact ⟨p, rfl, h⟩

/-- A file that is written can be reached. -/
theorem isUsable_of_write? {r : Route} {content : ByteArray} (h : r.write? content t = some t') :
    r.isUsable = true := by
  unfold write? at h
  cases hfollow : r.follow t with
  | ok q => exact (follow_eq_ok hfollow).2.1
  | error e =>
    rw [hfollow] at h
    cases h

/-- A route that cannot be followed leads to no text. -/
theorem readText_of_not_isUsable {r : Route} (hwritten : r.written ≠ "")
    (husable : r.isUsable = false) : r.readText t = .error .unusable := by
  unfold readText follow
  rw [if_neg hwritten, husable]
  rfl

/-- The route to a name in a folder goes the way to the folder, and then one name on. -/
theorem join_names {r : Route} {base : Path} (h : r.follow t = .ok base) {name : String}
    (hname : '/' ∉ name.toList) :
    (r.join name).written ≠ "" ∧ (r.join name).start = r.start ∧
      ∃ names, walk t r.start names = .ok base ∧ (r.join name).names = names ++ [name] := by
  obtain ⟨hwritten, -, hwalk⟩ := follow_eq_ok h
  have hne (more : String) : r.written ++ more ≠ "" := by
    intro he
    exact hwritten (String.append_eq_empty_iff.1 he).1
  unfold join
  split
  · next hcase =>
    have hslash : r.written.toList.getLast? = some '/' := by
      simpa [hwritten] using hcase
    obtain ⟨front, hfront, hnames⟩ := exists_of_slash hslash
    refine ⟨hne name, startOf_append _ hwritten name, namesOf front, ?_, ?_⟩
    · unfold names at hwalk
      rw [hnames] at hwalk
      exact walkLinks_of_concat_empty hwalk
    · change namesOf (r.written ++ name) = _
      rw [hfront, namesOf_slash front name hname]
  · refine ⟨?_, ?_, r.names, hwalk, namesOf_slash r.written name hname⟩
    · rw [String.append_assoc]
      exact hne _
    · rw [String.append_assoc]
      exact startOf_append _ hwritten _

/-- A name in the folder to which a route leads is where the route to that name ends,
unless it is a link. -/
theorem follow_join {r : Route} {base : Path} (h : r.follow t = .ok base)
    (hbase : t.lookup? base = some .folder) {name : String} (hname : IsName name)
    (husable : (r.join name).isUsable = true)
    (hno : ∀ goal, t.lookup? (base ++ [name]) ≠ some (.link goal)) :
    (r.join name).follow t = .ok (base ++ [name]) ∧ (r.join name).reach t = .ok (base ++ [name]) := by
  obtain ⟨hwritten, hstart, names, hwalk, hnames⟩ := join_names h hname.noSlash
  have hjoined (atEnd : Bool) :
      walkLinks atEnd t (mostLinks + 1) (r.join name).start (r.join name).names =
        .ok (base ++ [name]) := by
    rw [hstart, hnames, ← hname.follow base]
    exact walkLinks_concat hwalk hbase hname.short (by rw [hname.follow]; exact hno) atEnd
  have hnotUnusable : (!(r.join name).isUsable) = false := by rw [husable]; rfl
  unfold follow reach walk
  rw [if_neg hwritten, if_neg hwritten, hnotUnusable, if_neg Bool.false_ne_true,
    if_neg Bool.false_ne_true]
  exact ⟨hjoined false, hjoined true⟩

theorem follow_sameWays (h : SameWays t t') {r : Route} {q : Path} (hr : r.follow t = .ok q) :
    r.follow t' = .ok q := by
  unfold follow at hr ⊢
  split at hr
  · cases hr
  · next hwritten =>
    rw [if_neg hwritten]
    split at hr
    · cases hr
    · next husable =>
      rw [if_neg husable]
      exact walkLinks_sameWays h hr

/-- Slashes at the end of a walk change nothing about where it ends. -/
theorem walk_dropSlashes {p q : Path} {names : List String} (h : walk t p names = .ok q) :
    walk t p (names.reverse.dropWhile (· = "")).reverse = .ok q := by
  generalize hreverse : names.reverse = reversed
  have hnames : names = reversed.reverse := by rw [← hreverse, List.reverse_reverse]
  subst hnames
  clear hreverse
  induction reversed with
  | nil => exact h
  | cons last rest ih =>
    by_cases hlast : last = ""
    · subst hlast
      rw [List.reverse_cons] at h
      simpa using ih (walkLinks_of_concat_empty h)
    · simpa [List.dropWhile_cons, hlast] using h

/-- Nothing is made at the end of some names if a folder is there. -/
theorem makeLast_run {p q : Path} {names : List String} (h : walk t p names = .ok q)
    (hq : t.lookup? q = some .folder) : (makeLast p names).run t = (.ok (), t) := by
  have hwalked : makeLast.liftExcept (walk t p names) = pure q := by
    rw [h]
    rfl
  change (makeLast.liftExcept (walk t p names) >>= _ : Change Unit).run t = _
  rw [hwalked, pure_bind, hq]
  rfl

/-- Making a folder that is there changes nothing. -/
theorem makeFolder_run {r : Route} {base : Path} (h : r.follow t = .ok base)
    (hbase : t.lookup? base = some .folder) : r.makeFolder.run t = (.ok (), t) := by
  obtain ⟨hwritten, husable, hwalk⟩ := follow_eq_ok h
  have hmake := makeLast_run (walk_dropSlashes hwalk) hbase
  unfold makeFolder
  rw [if_neg hwritten, husable, Bool.not_true, if_neg Bool.false_ne_true]
  dsimp only
  unfold makeAfter
  change (ExceptT.tryCatch (makeLast _ _) _) t = _
  simp only [ExceptT.tryCatch, ExceptT.mk, Bind.bind, StateT.bind]
  rw [ExceptT.run] at hmake
  rw [hmake]
  rfl

end Route

end DataQuality.Files
