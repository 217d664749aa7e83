import DataQuality.Files.Tree
import DataQuality.Proofs.Keyed

/-!
# Changing trees

What a path leads to after a file has been put somewhere, or taken away. A path is
lone if it shares its file with no other path; what is put at a lone path changes
nothing elsewhere. A tree is sound if its groups name only what is there, and stays
so whatever is done to it. The names that a folder lists are those that lead to something
right in it, in their order.
-/
namespace DataQuality.Files.Tree

variable {t : Tree} {p q : Path}

/-- No group names the path. -/
def Lone (t : Tree) (p : Path) : Prop := ∀ g ∈ t.groups, p ∉ g

/-- The groups name nothing but paths that lead to something. -/
def IsSound (t : Tree) : Prop := ∀ g ∈ t.groups, ∀ p ∈ g, t.lookup? p ≠ none

theorem IsSound.lone (h : t.IsSound) (hp : t.lookup? p = none) : t.Lone p :=
  fun g hg hmem => h g hg p hmem hp

theorem group_of_lone (h : t.Lone p) : t.group p = [p] := by
  have hnone : t.groups.find? (·.contains p) = none := by
    rw [List.find?_eq_none]
    intro g hg
    simpa using h g hg
  unfold group
  rw [hnone]
  rfl

theorem lookup?_keep (isKept : Path → Bool) (hq : q ≠ []) :
    (t.keep isKept).lookup? q = if isKept q then t.lookup? q else none := by
  unfold lookup? keep
  rw [if_neg hq, if_neg hq]
  exact Keyed.lookup_filter t.entries isKept q

theorem lookup?_erase_self (hp : p ≠ []) : (t.erase p).lookup? p = none := by
  unfold erase
  rw [lookup?_keep _ hp]
  simp

theorem lookup?_erase_of_ne (h : q ≠ p) : (t.erase p).lookup? q = t.lookup? q := by
  by_cases hq : q = []
  · subst hq
    rfl
  · unfold erase
    rw [lookup?_keep _ hq]
    simp [h]

theorem lookup?_ne_none_iff : t.lookup? q ≠ none ↔ q = [] ∨ ∃ e, (q, e) ∈ t.entries := by
  unfold lookup?
  by_cases hq : q = []
  · simp [hq]
  · rw [if_neg hq, ne_eq, List.lookup_eq_none_iff]
    simp [hq]

theorem IsSound.keep (h : t.IsSound) (isKept : Path → Bool) : (t.keep isKept).IsSound := by
  intro g hg q hq
  obtain ⟨g', hg', rfl⟩ := List.mem_map.1 hg
  obtain ⟨hmem, hkept⟩ := List.mem_filter.1 hq
  rcases lookup?_ne_none_iff.1 (h g' hg' q hmem) with hroot | ⟨e, he⟩
  · exact lookup?_ne_none_iff.2 (.inl hroot)
  · exact lookup?_ne_none_iff.2 (.inr ⟨e, List.mem_filter.2 ⟨he, hkept⟩⟩)

/-- A tree stays sound whatever is put into it. -/
theorem IsSound.put (h : t.IsSound) (p : Path) (e : Entry) : (t.put p e).IsSound := by
  cases e with
  | file content =>
    intro g hg q hq
    rw [lookup?_ne_none_iff]
    rcases lookup?_ne_none_iff.1 (h g hg q hq) with hroot | ⟨e, he⟩
    · exact .inl hroot
    · right
      by_cases hpaths : q ∈ t.group p
      · exact ⟨.file content, List.mem_append_left _ (List.mem_map.2 ⟨q, hpaths, rfl⟩)⟩
      · exact ⟨e, List.mem_append_right _ (List.mem_filter.2 ⟨he, by simpa using hpaths⟩)⟩
  | folder =>
    intro g hg q hq
    have herased := h.keep (· != p) g hg q hq
    rw [lookup?_ne_none_iff] at herased ⊢
    exact herased.imp_right fun ⟨e, he⟩ => ⟨e, List.mem_cons_of_mem _ he⟩
  | link goal =>
    intro g hg q hq
    have herased := h.keep (· != p) g hg q hq
    rw [lookup?_ne_none_iff] at herased ⊢
    exact herased.imp_right fun ⟨e, he⟩ => ⟨e, List.mem_cons_of_mem _ he⟩

/-- A tree stays sound when another path is tied to that of a file. -/
theorem IsSound.tie (h : t.IsSound) {content : ByteArray}
    (hp : t.lookup? p = some (.file content)) (hpq : p ≠ q) : (t.tie p q).IsSound := by
  have herased : (t.erase q).IsSound := h.keep _
  have hp' : (t.erase q).lookup? p = some (.file content) := by rwa [lookup?_erase_of_ne hpq]
  have hkept {x : Path} (hx : (t.erase q).lookup? x ≠ none) : (t.tie p q).lookup? x ≠ none := by
    rw [lookup?_ne_none_iff] at hx ⊢
    refine hx.imp_right fun ⟨e, he⟩ => ⟨e, List.mem_flatMap.2 ⟨(x, e), he, ?_⟩⟩
    by_cases hxp : x = p
    · simp [hxp]
    · simp [hxp]
  have hgroup : ∀ x ∈ (t.erase q).group p, (t.erase q).lookup? x ≠ none := by
    intro x hx
    unfold group at hx
    rcases List.mem_cons.1 hx with rfl | hx
    · rw [hp']
      exact Option.some_ne_none _
    · have hmem := (List.mem_filter.1 hx).1
      cases hfind : (t.erase q).groups.find? (·.contains p) with
      | none =>
        rw [hfind] at hmem
        cases hmem
      | some g =>
        rw [hfind] at hmem
        exact herased g (List.mem_of_find?_eq_some hfind) x hmem
  intro g hg x hx
  rcases List.mem_cons.1 hg with rfl | hg
  · rcases List.mem_cons.1 hx with rfl | hx
    · rcases lookup?_ne_none_iff.1 (hp'.trans_ne (Option.some_ne_none _)) with rfl | ⟨e, he⟩
      · cases hp
      · exact lookup?_ne_none_iff.2 (.inr ⟨e, List.mem_flatMap.2 ⟨(p, e), he, by simp⟩⟩)
    · exact hkept (hgroup x hx)
  · exact hkept (herased g (List.mem_filter.1 hg).1 x hx)

/-- A file put at a lone path changes nothing at other paths. -/
theorem lookup?_put_of_ne (hlone : t.Lone p) (content : ByteArray) (h : q ≠ p) :
    (t.put p (.file content)).lookup? q = t.lookup? q := by
  have hqp : (q == p) = false := by simpa using h
  by_cases hq : q = []
  · subst hq
    rfl
  · unfold lookup? put
    rw [if_neg hq, if_neg hq]
    simp only [group_of_lone hlone, List.map_cons, List.map_nil, List.cons_append, List.nil_append,
      List.lookup_cons, hqp]
    rw [Keyed.lookup_filter t.entries (fun q => !List.contains [p] q) q]
    simp [h]

theorem Lone.put (hlone : t.Lone q) (p : Path) (content : ByteArray) :
    (t.put p (.file content)).Lone q := hlone

theorem Lone.erase (hlone : t.Lone q) (p : Path) : (t.erase p).Lone q := by
  intro g hg
  obtain ⟨g', hg', rfl⟩ := List.mem_map.1 hg
  exact fun hq => hlone g' hg' (List.mem_filter.1 hq).1

theorem lookup?_of_isFolder (h : t.isFolder p = true) : t.lookup? p = some .folder := by
  unfold isFolder at h
  split at h
  · assumption
  · cases h

/-- Nothing is in a folder that lists no names. -/
theorem lookup?_of_list?_nil (h : t.list? p = some []) (name : String) :
    t.isFolder p = true ∧ t.lookup? (p ++ [name]) = none := by
  unfold list? at h
  split at h
  · next hfolder =>
    refine ⟨hfolder, ?_⟩
    have hlength := congrArg List.length (Option.some.inj h)
    rw [List.length_mergeSort] at hlength
    have hnames := List.filterMap_eq_nil_iff.1 (List.length_eq_zero_iff.1 hlength)
    unfold lookup?
    rw [if_neg (by simp), List.lookup_eq_none_iff]
    rintro ⟨q, e⟩ hq
    have hnone := hnames (q, e) hq
    by_contra hsame
    obtain rfl : p ++ [name] = q := by simpa using hsame
    simp at hnone
  · cases h

/-- The bytes of a text hold the text. -/
theorem fromUTF8?_toUTF8 (s : String) : String.fromUTF8? s.toUTF8 = some s := by
  unfold String.fromUTF8?
  rw [dif_pos (show s.toUTF8.IsValidUTF8 from s.isValidUTF8)]
  rfl

/-- Reading text that was put at a path. -/
theorem readText_of_lookup? {s : String} (h : t.lookup? p = some (.file s.toUTF8)) :
    t.readText p = .ok s := by
  unfold readText read
  simp only [h, fromUTF8?_toUTF8]

/-- No text is read where the bytes are none. -/
theorem readText_of_not_isValidUTF8 {content : ByteArray}
    (h : t.lookup? p = some (.file content)) (hinvalid : ¬ content.IsValidUTF8) :
    t.readText p = .error .unusable := by
  have hnone : String.fromUTF8? content = none := by
    unfold String.fromUTF8?
    rw [dif_neg hinvalid]
  unfold readText read
  simp only [h, hnone]

theorem readText_of_none (h : t.lookup? p = none) : t.readText p = .error .missing := by
  unfold readText read
  simp only [h]

/-- The name that a path has in a folder, if it leads to something right in the folder. -/
def nameIn (folder path : Path) : Option String :=
  if path ≠ [] ∧ path.dropLast = folder then path.getLast? else none

theorem nameIn_eq_some {q : Path} {name : String} (h : nameIn p q = some name) :
    q = p ++ [name] := by
  unfold nameIn at h
  split at h
  · next hq =>
    obtain ⟨hne, rfl⟩ := hq
    rw [List.getLast?_eq_some_getLast hne] at h
    rw [← Option.some.inj h, List.dropLast_concat_getLast hne]
  · cases h

def sorted (names : List String) : List String := names.mergeSort fun a b => !(b < a)

theorem pairwise_sorted (names : List String) : (sorted names).Pairwise (· ≤ ·) := by
  have hle (a b : String) : (!decide (b < a)) = true ↔ a ≤ b := by
    rw [Bool.not_eq_true', decide_eq_false_iff_not]
    exact String.not_lt
  refine (List.pairwise_mergeSort ?_ ?_ names).imp fun hab => (hle _ _).1 hab
  · intro a b c hab hbc
    exact (hle a c).2 (String.le_trans ((hle a b).1 hab) ((hle b c).1 hbc))
  · intro a b
    rw [Bool.or_eq_true, hle, hle]
    exact String.le_total a b

/-- Names that are left out may be left out before or after sorting. -/
theorem sorted_filter (isKept : String → Bool) (names : List String) :
    sorted (names.filter isKept) = (sorted names).filter isKept := by
  have hperm : (sorted (names.filter isKept)).Perm ((sorted names).filter isKept) :=
    (List.mergeSort_perm _ _).trans ((List.mergeSort_perm names _).symm.filter isKept)
  exact hperm.eq_of_pairwise (fun _ _ _ _ hab hba => String.le_antisymm hab hba)
    (pairwise_sorted _) ((pairwise_sorted names).filter isKept)

theorem list?_eq_some_iff {names : List String} :
    t.list? p = some names ↔
      t.isFolder p = true ∧ sorted (t.entries.filterMap fun e => nameIn p e.1) = names := by
  unfold list?
  split
  · next hfolder => exact Option.some_inj.trans (by simp [hfolder, sorted, nameIn])
  · next hfolder => simp [hfolder]

/-- A folder lists the other names as before after one of its files has been removed. -/
theorem list?_erase {names : List String} (h : t.list? p = some names) (name : String) :
    (t.erase (p ++ [name])).list? p = some (names.filter (· != name)) := by
  obtain ⟨hfolder, rfl⟩ := list?_eq_some_iff.1 h
  refine list?_eq_some_iff.2 ⟨?_, ?_⟩
  · have hne : p ≠ p ++ [name] := by simp
    unfold isFolder
    rw [lookup?_erase_of_ne hne]
    exact hfolder
  · rw [← sorted_filter, List.filter_filterMap]
    change sorted ((t.entries.filter fun e => e.1 != p ++ [name]).filterMap _) = _
    rw [List.filterMap_filter]
    congr 1
    refine List.filterMap_congr fun e _ => ?_
    cases hname : nameIn p e.1 with
    | none => simp
    | some other =>
      rw [nameIn_eq_some hname]
      by_cases hother : other = name <;> simp [Option.filter, hother]

/-- What is listed is what is there. -/
theorem mem_list?_iff {names : List String} (h : t.list? p = some names) {name : String} :
    name ∈ names ↔ t.lookup? (p ++ [name]) ≠ none := by
  obtain ⟨-, rfl⟩ := list?_eq_some_iff.1 h
  unfold sorted
  rw [List.mem_mergeSort, List.mem_filterMap, lookup?_ne_none_iff]
  constructor
  · rintro ⟨⟨q, e⟩, hmem, hname⟩
    rw [← nameIn_eq_some hname]
    exact .inr ⟨e, hmem⟩
  · rintro (hroot | ⟨e, hmem⟩)
    · simp at hroot
    · exact ⟨(p ++ [name], e), hmem, by simp [nameIn]⟩

theorem sorted_eq_of_perm {names names' : List String} (h : names.Perm names') :
    sorted names = sorted names' :=
  (((List.mergeSort_perm names _).trans h).trans (List.mergeSort_perm names' _).symm).eq_of_pairwise
    (fun _ _ _ _ hab hba => String.le_antisymm hab hba) (pairwise_sorted _) (pairwise_sorted _)

theorem sorted_of_pairwise {names : List String} (h : names.Pairwise (· ≤ ·)) :
    sorted names = names :=
  (List.mergeSort_perm names _).eq_of_pairwise
    (fun _ _ _ _ hab hba => String.le_antisymm hab hba) (pairwise_sorted _) h

theorem filter_ne_of_not_mem {names : List String} {name : String} (h : name ∉ names) :
    names.filter (· != name) = names := by
  rw [List.filter_eq_self]
  intro other hother
  rw [bne_iff_ne]
  rintro rfl
  exact h hother

/-- A folder lists the name of a file that is put into it, once, among the others. -/
theorem list?_put {names : List String} (h : t.list? p = some names) {name : String}
    (hlone : t.Lone (p ++ [name])) (content : ByteArray) :
    (t.put (p ++ [name]) (.file content)).list? p =
      some (sorted (name :: names.filter (· != name))) := by
  obtain ⟨hfolder, hnames⟩ := list?_eq_some_iff.1 (list?_erase h name)
  obtain ⟨hfolder', -⟩ := list?_eq_some_iff.1 h
  refine list?_eq_some_iff.2 ⟨?_, ?_⟩
  · unfold isFolder at hfolder' ⊢
    rwa [lookup?_put_of_ne hlone content (by simp)]
  · have hentries : (t.put (p ++ [name]) (.file content)).entries =
        (p ++ [name], .file content) :: (t.erase (p ++ [name])).entries := by
      have hkept (q : Path) : (!decide (q = p ++ [name])) = (q != p ++ [name]) := by
        by_cases hq : q = p ++ [name] <;> simp [hq]
      unfold put erase keep
      simp [group_of_lone hlone, hkept]
    have hself : nameIn p (p ++ [name]) = some name := by simp [nameIn]
    rw [hentries, List.filterMap_cons, hself]
    dsimp only
    refine sorted_eq_of_perm (List.Perm.cons _ ?_)
    rw [← hnames]
    exact (List.mergeSort_perm _ _).symm

/-- A file that was put into a folder and taken out of it is not listed. -/
theorem list?_put_erase {names : List String} (h : t.list? p = some names) {name : String}
    (hlone : t.Lone (p ++ [name])) (hname : name ∉ names) (content : ByteArray) :
    ((t.put (p ++ [name]) (.file content)).erase (p ++ [name])).list? p = some names := by
  obtain ⟨-, hnames⟩ := list?_eq_some_iff.1 h
  have hother := filter_ne_of_not_mem hname
  have hordered : sorted names = names := by
    refine sorted_of_pairwise ?_
    rw [← hnames]
    exact pairwise_sorted _
  rw [list?_erase (list?_put h hlone content), hother, ← sorted_filter,
    List.filter_cons_of_neg (by simp), hother, hordered]

/-- A file whose name stands behind all others is listed last. -/
theorem list?_put_last {names : List String} (h : t.list? p = some names) {name : String}
    (hlone : t.Lone (p ++ [name])) (hlast : ∀ other ∈ names, other < name) (content : ByteArray) :
    (t.put (p ++ [name]) (.file content)).list? p = some (names ++ [name]) := by
  obtain ⟨-, hnames⟩ := list?_eq_some_iff.1 h
  have hordered : names.Pairwise (· ≤ ·) := by
    rw [← hnames]
    exact pairwise_sorted _
  have hother := filter_ne_of_not_mem fun hname => String.lt_irrefl name (hlast name hname)
  rw [list?_put h hlone, hother, sorted_eq_of_perm (List.perm_append_singleton name names).symm,
    sorted_of_pairwise]
  refine List.pairwise_append.2 ⟨hordered, List.pairwise_singleton _ _, ?_⟩
  intro other hmem last hlast'
  rw [List.mem_singleton.1 hlast']
  exact String.not_lt.1 fun hlt => String.lt_irrefl _ (String.lt_trans hlt (hlast other hmem))

end DataQuality.Files.Tree
