import DataQuality.Files.Route
import DataQuality.Proofs.Files.Walk

/-!
# Reading from changed trees

What can be read from a tree is read alike after some changes: after a file has been
written somewhere else, and after folders have been made. Making a folder, and those on the
way to it, adds folders where there was nothing, and changes nothing else.
-/
namespace DataQuality.Files

variable {t t' t'' : Tree}

/-- The trees differ in nothing but one path, where each of them has a file or nothing. -/
structure SameBut (p : Path) (t t' : Tree) : Prop where
  other : ∀ q, q ≠ p → t'.lookup? q = t.lookup? q
  before : t.lookup? p = none ∨ ∃ content, t.lookup? p = some (.file content)
  after : t'.lookup? p = none ∨ ∃ content, t'.lookup? p = some (.file content)

namespace SameBut

variable {p : Path}

theorem symm (h : SameBut p t t') : SameBut p t' t :=
  ⟨fun q hq => (h.other q hq).symm, h.after, h.before⟩

theorem trans (h : SameBut p t t') (h' : SameBut p t' t'') : SameBut p t t'' :=
  ⟨fun q hq => (h'.other q hq).trans (h.other q hq), h.before, h'.after⟩

theorem sameWays (h : SameBut p t t') : SameWays t t' := sameWays_of_file h.other h.before h.after

end SameBut

/-- The second tree has what is in the first, and besides it nothing but folders. -/
structure Grown (t t' : Tree) : Prop where
  kept : ∀ q, t.lookup? q ≠ none → t'.lookup? q = t.lookup? q
  added : ∀ q, t.lookup? q = none → t'.lookup? q = none ∨ t'.lookup? q = some .folder

namespace Grown

theorem refl (t : Tree) : Grown t t := ⟨fun _ _ => rfl, fun _ h => .inl h⟩

theorem trans (h : Grown t t') (h' : Grown t' t'') : Grown t t'' where
  kept q hq := by
    have hkept := h.kept q hq
    rw [h'.kept q (by rwa [hkept]), hkept]
  added q hq := by
    rcases h.added q hq with hnone | hfolder
    · exact h'.added q hnone
    · right
      rw [h'.kept q (by rw [hfolder]; exact Option.some_ne_none _), hfolder]

theorem sameWays (h : Grown t t') : SameWays t t' where
  folder q hq := by rw [h.kept q (by rw [hq]; exact Option.some_ne_none _), hq]
  link q goal hq := by rw [h.kept q (by rw [hq]; exact Option.some_ne_none _), hq]
  noLink q hq goal hgoal := by
    by_cases hnone : t.lookup? q = none
    · rcases h.added q hnone with h' | h' <;> rw [h'] at hgoal <;> cases hgoal
    · exact hq goal ((h.kept q hnone).symm.trans hgoal)

/-- A folder is put where there was nothing. -/
theorem put {p : Path} (h : t.lookup? p = none) : Grown t (t.put p .folder) := by
  have hp : p ≠ [] := by
    rintro rfl
    cases h
  have hother {q : Path} (hq : q ≠ p) : (t.put p .folder).lookup? q = t.lookup? q := by
    by_cases hroot : q = []
    · subst hroot
      rfl
    · have hqp : (q == p) = false := by simpa using hq
      have herased := Tree.lookup?_erase_of_ne (t := t) hq
      rw [← herased]
      unfold Tree.lookup?
      rw [if_neg hroot, if_neg hroot]
      change List.lookup q ((p, Entry.folder) :: (t.erase p).entries) = _
      rw [List.lookup_cons, hqp]
  constructor
  · intro q hq
    refine hother fun he => hq ?_
    rw [he, h]
  · intro q hq
    by_cases hqp : q = p
    · rw [hqp]
      exact .inr (Tree.lookup?_put t p .folder hp)
    · rw [hother hqp]
      exact .inl hq

end Grown

namespace Route

/-- A route that leads elsewhere gives the same text. -/
theorem readText_sameBut {p : Path} (h : SameBut p t t') {r : Route} (hr : r.follow t ≠ .ok p)
    {text : String} (hread : r.readText t = .ok text) : r.readText t' = .ok text := by
  unfold readText at hread ⊢
  cases hfollow : r.follow t with
  | error e =>
    rw [hfollow] at hread
    cases hread
  | ok q =>
    have hq : q ≠ p := fun he => hr (by rw [hfollow, he])
    have hsame : t'.readText q = t.readText q := by
      unfold Tree.readText Tree.read
      rw [h.other q hq]
    rw [hfollow] at hread
    rw [follow_sameWays h.sameWays hfollow]
    exact hsame.trans hread

theorem follow_ne_sameBut {p : Path} (h : SameBut p t t') {r : Route} (hr : r.follow t ≠ .ok p) :
    r.follow t' ≠ .ok p := fun hfollow => hr (follow_sameWays h.symm.sameWays hfollow)

/-- Whether such a route gives a text is the same, too. -/
theorem readText_toOption_sameBut {p : Path} (h : SameBut p t t') {r : Route}
    (hr : r.follow t ≠ .ok p) : (r.readText t').toOption = (r.readText t).toOption := by
  cases hread : r.readText t with
  | ok text => rw [readText_sameBut h hr hread]
  | error e =>
    cases hread' : r.readText t' with
    | error e' => rfl
    | ok text =>
      rw [readText_sameBut h.symm (follow_ne_sameBut h hr) hread'] at hread
      cases hread

theorem readText_grown (h : Grown t t') {r : Route} {text : String} (hread : r.readText t = .ok text) :
    r.readText t' = .ok text := by
  unfold readText at hread ⊢
  cases hfollow : r.follow t with
  | error e =>
    rw [hfollow] at hread
    cases hread
  | ok q =>
    rw [hfollow] at hread
    have hread : t.readText q = .ok text := hread
    have hthere : t.lookup? q ≠ none := by
      intro hnone
      rw [Tree.readText_of_none hnone] at hread
      cases hread
    have hsame : t'.readText q = t.readText q := by
      unfold Tree.readText Tree.read
      rw [h.kept q hthere]
    rw [follow_sameWays h.sameWays hfollow]
    exact hsame.trans hread

section

/-! What putting folders where there was nothing keeps is kept when a folder is made. -/

variable {P : Tree → Prop}
  (hput : ∀ t p, P t → t.lookup? p = none → P (t.put p .folder))
include hput

theorem makeLast_keeps (h : P t) (start : Path) (names : List String) :
    P ((makeLast start names).run t).2 := by
  change P ((makeLast.liftExcept (walk t start names) >>= _ : Change Unit).run t).2
  cases walk t start names with
  | error e => exact h
  | ok p =>
    rw [show makeLast.liftExcept (.ok p) = pure p from rfl, pure_bind]
    cases hp : t.lookup? p with
    | none => exact hput t p h hp
    | some entry => cases entry <;> exact h

/-- Where something is missing on the way, it is made before. -/
theorem makeAfter_keeps (h : P t) (start : Path) (names : List String) {before : Change Unit}
    (hbefore : ∀ t, P t → P (before.run t).2) : P ((makeAfter start names before).run t).2 := by
  have hlast := makeLast_keeps hput h start names
  unfold makeAfter
  change P ((ExceptT.tryCatch (makeLast start names) _) t).2
  simp only [ExceptT.tryCatch, ExceptT.mk, Bind.bind, StateT.bind]
  rw [ExceptT.run] at hlast
  rcases hrun : (makeLast start names) t with ⟨e | u, t₁⟩
  · rw [hrun] at hlast
    cases e with
    | missing =>
      change P ((ExceptT.bind before fun _ => makeLast start names) t₁).2
      have hthen := hbefore t₁ hlast
      simp only [ExceptT.bind, ExceptT.mk, Bind.bind, StateT.bind]
      rw [ExceptT.run] at hthen
      rcases hrun' : before t₁ with ⟨e | u, t₂⟩
      · rw [hrun'] at hthen
        exact hthen
      · rw [hrun'] at hthen
        exact makeLast_keeps hput hthen start names
    | unusable => exact hlast
  · rw [hrun] at hlast
    exact hlast

theorem makeAll_keeps (h : P t) (start : Path) (names : List String) :
    P ((makeAll start names).run t).2 := by
  induction names generalizing t with
  | nil => exact h
  | cons name rest ih => exact makeAfter_keeps hput h start _ fun t ht => ih ht

theorem makeFolder_keeps (h : P t) (r : Route) : P (r.makeFolder.run t).2 := by
  unfold makeFolder
  split
  · exact h
  · split
    · exact h
    · exact makeAfter_keeps hput h r.start _ fun t ht => makeAll_keeps hput ht r.start _

end

theorem makeFolder_grown (t : Tree) (r : Route) : Grown t (r.makeFolder.run t).2 :=
  makeFolder_keeps (fun _ _ h hp => h.trans (.put hp)) (.refl t) r

theorem isSound_makeFolder (h : t.IsSound) (r : Route) : (r.makeFolder.run t).2.IsSound :=
  makeFolder_keeps (fun _ p h _ => h.put p .folder) h r

end Route

/-- What is loaded from a file is loaded alike after another one has been written. -/
theorem load_sameBut {α : Type} {read? : String → Option α} {p : Path} {r : Route} {a : α}
    (h : SameBut p t t') (hr : r.follow t ≠ .ok p) (hload : load read? t r = .ok a) :
    load read? t' r = .ok a := by
  obtain ⟨text, htext, hread⟩ := (load_eq_ok_iff read? t r a).1 hload
  exact (load_eq_ok_iff read? t' r a).2 ⟨text, Route.readText_sameBut h hr htext, hread⟩

/-- So it is after folders have been made. -/
theorem load_grown {α : Type} {read? : String → Option α} {r : Route} {a : α} (h : Grown t t')
    (hload : load read? t r = .ok a) : load read? t' r = .ok a := by
  obtain ⟨text, htext, hread⟩ := (load_eq_ok_iff read? t r a).1 hload
  exact (load_eq_ok_iff read? t' r a).2 ⟨text, Route.readText_grown h htext, hread⟩

end DataQuality.Files
