import DataQuality.Proofs.Calendar.Order
import DataQuality.Proofs.Files.Changes
import DataQuality.Proofs.Files.Folder
import DataQuality.Proofs.Queue.Spool
import DataQuality.Queue.Spool
import Mathlib.Data.List.ReduceOption

/-!
# First in, first out

A spool that one user opens on an empty folder answers like a queue in memory. What is pushed is
written under a name that is not listed and then gets a name for the time and the number of its
push, which stands behind all others, as long as the clock is not set back and shows years of
four digits, and not so many bodies are pushed that the number of a push becomes longer than the
others. So the folder holds the waiting bodies in the order of their pushes.
-/
namespace DataQuality

open Files (Path Route Tree)

theorem Files.Route.isPlain_padded (width n : Nat) : (Decimal.padded width n).all isPlain = true := by
  rw [List.all_eq_true]
  intro c hc
  have hbounds := Decimal.toNat_of_isDigit (Decimal.isDigit_of_mem_padded hc)
  have hslash : c ≠ '/' := by
    rintro rfl
    exact absurd hbounds.1 (by decide)
  simp only [isPlain, Bool.and_eq_true, decide_eq_true_eq, bne_iff_ne]
  exact ⟨⟨by omega, by omega⟩, hslash⟩

namespace Instant

open Files.Route (isPlain isPlain_padded)

theorem isPlain_dateText (d : Date) : d.text.all isPlain = true := by
  unfold Date.text
  dsimp only
  split_ifs <;> simp [isPlain_padded] <;> decide

theorem isPlain_chars (places : Nat) (t : Instant) : (t.chars places).all isPlain = true := by
  unfold chars
  dsimp only
  split_ifs <;> simp [isPlain_padded, isPlain_dateText] <;> decide

theorem isPlain_compactChars (t : Instant) : t.compactChars.all isPlain = true := by
  have hchars := t.isPlain_chars 9
  rw [List.all_eq_true] at hchars ⊢
  exact fun c hc => hchars c (List.mem_of_mem_filter hc)

variable {a b t : Instant}

theorem length_compactChars (h : t.IsShown) : t.compactChars.length = 25 := by
  have hfits := fits_fields h
  rw [compactChars_eq h]
  unfold fields columns Decimal.Fits at hfits
  unfold fields columns
  simp only [List.forall₂_cons] at hfits
  obtain ⟨hyear, hmonth, hday, hhour, hminute, hsecond, hnanos, -⟩ := hfits
  simp [Decimal.row, Decimal.length_padded hyear, Decimal.length_padded hmonth,
    Decimal.length_padded hday, Decimal.length_padded hhour, Decimal.length_padded hminute,
    Decimal.length_padded hsecond, Decimal.length_padded hnanos]

/-- What is written of an instant comes before what is written of a later one. -/
theorem compactChars_lex (ha : a.IsShown) (hb : b.IsShown) (h : a.before b = true) :
    List.Lex (· < ·) a.compactChars b.compactChars := by
  rw [compactChars_eq ha, compactChars_eq hb]
  exact Decimal.row_lex (fits_fields ha) (fits_fields hb) (fields_lex ha hb h)

/-- Of two instants, one lies before the other if they differ. -/
theorem eq_of_not_before (h : a.before b = false) (h' : b.before a = false) : a = b := by
  have hsame : a.seconds = b.seconds ∧ a.nanos = b.nanos := by
    simp only [before, Bool.or_eq_false_iff, decide_eq_false_iff_not, Bool.and_eq_false_iff,
      beq_eq_false_iff_ne] at h h'
    omega
  cases a
  cases b
  simpa using hsame

end Instant

namespace Spool

open Files.Route (isPlain isPlain_padded IsName)

variable {now later : Instant} {m n : Nat}

theorem isPlain_bodyName (now : Instant) (n : Nat) : (bodyName now n).toList.all isPlain = true := by
  unfold bodyName
  rw [String.toList_ofList]
  simp [isPlain_padded, Instant.isPlain_compactChars]
  decide

theorem bodyName_ne (now : Instant) (n : Nat) : bodyName now n ≠ "" := by
  intro h
  have hlist := congrArg String.toList h
  unfold bodyName at hlist
  rw [String.toList_ofList] at hlist
  exact List.append_ne_nil_of_right_ne_nil _ (List.cons_ne_nil _ _) hlist

theorem fileName_inj {name name' : String} (h : fileName name = fileName name') : name = name' := by
  have hlist := congrArg String.toList h
  unfold fileName at hlist
  rw [String.toList_append, String.toList_append] at hlist
  exact String.toList_inj.1 (List.append_cancel_right hlist)

theorem temporaryName_inj {name name' : String} (h : temporaryName name = temporaryName name') :
    name = name' := by
  have hlist := congrArg String.toList h
  unfold temporaryName at hlist
  rw [String.toList_append, String.toList_append] at hlist
  exact String.toList_inj.1 (List.append_cancel_right hlist)

theorem isPlainName_fileName (now : Instant) (n : Nat) :
    Files.Route.IsPlainName (fileName (bodyName now n)) where
  plain := by
    unfold fileName
    rw [String.toList_append, List.all_append, isPlain_bodyName]
    decide
  long := by
    unfold fileName
    rw [String.toList_append, List.length_append, show ".json".toList.length = 5 from rfl]
    omega

theorem isPlainName_temporaryName (now : Instant) (n : Nat) :
    Files.Route.IsPlainName (temporaryName (bodyName now n)) where
  plain := by
    unfold temporaryName
    rw [String.toList_append, List.all_append, isPlain_bodyName]
    decide
  long := by
    unfold temporaryName
    rw [String.toList_append, List.length_append, show ".tmp".toList.length = 4 from rfl]
    omega

theorem isJson_fileName {name : String} (h : name ≠ "") : Path.isJson (fileName name) = true := by
  have hext := Path.extension?_append h ['j', 's', 'o', 'n'] (by decide) (by decide)
  unfold Path.isJson
  exact (congrArg (· == some "json") hext).trans (by decide)

/-- What is still being written is not listed. -/
theorem isJson_temporaryName {name : String} (h : name ≠ "") :
    Path.isJson (temporaryName name) = false := by
  have hext := Path.extension?_append h ['t', 'm', 'p'] (by decide) (by decide)
  unfold Path.isJson
  exact (congrArg (· == some "json") hext).trans (by decide)

theorem length_bodyName (h : now.IsShown) (hn : n < 1000000) :
    (bodyName now n).toList.length = 32 := by
  unfold bodyName
  rw [String.toList_ofList, List.length_append, List.length_cons, Instant.length_compactChars h,
    Decimal.length_padded (show n < 10 ^ 6 from hn)]
  rfl

theorem bodyName_lex (hnow : now.IsShown) (hlater : later.IsShown) (h : later.before now = false)
    (hmn : m < n) (hn : n < 1000000) :
    List.Lex (· < ·) (bodyName now m).toList (bodyName later n).toList := by
  unfold bodyName
  rw [String.toList_ofList, String.toList_ofList]
  by_cases hbefore : now.before later = true
  · refine Decimal.lex_append (Instant.compactChars_lex hnow hlater hbefore) ?_ _ _
    rw [Instant.length_compactChars hnow, Instant.length_compactChars hlater]
  · obtain rfl := Instant.eq_of_not_before (by simpa using hbefore) h
    exact .append_left _ (.cons (Decimal.padded_lex hmn hn)) _

/-- The file of a later push stands behind that of an earlier one, also if the clock has shown the same
time. -/
theorem fileName_lt (hnow : now.IsShown) (hlater : later.IsShown) (h : later.before now = false)
    (hmn : m < n) (hn : n < 1000000) :
    fileName (bodyName now m) < fileName (bodyName later n) := by
  have hlength : (bodyName now m).toList.length = (bodyName later n).toList.length := by
    rw [length_bodyName hnow (by omega), length_bodyName hlater hn]
  have hlex := Decimal.lex_append (bodyName_lex hnow hlater h hmn hn) hlength
    ".json".toList ".json".toList
  rw [← String.toList_append, ← String.toList_append] at hlex
  exact String.lt_iff.2 ((List.lt_iff_lex_lt _ _).2 hlex)

end Spool

open Files.Route (IsName isUsable_join)

/-- What is done with a queue. A push notes what the clock shows. -/
inductive QueueUse
  | push (now : Instant) (body : String)
  | pop

namespace QueueUse

/-- What the clock shows at a push. -/
def time? : QueueUse → Option Instant
  | push now _ => some now
  | pop => none

def body? : QueueUse → Option String
  | push _ body => some body
  | pop => none

/-- What the clock shows at the pushes, in their order. -/
def times (us : List QueueUse) : List Instant := us.filterMap time?

/-- The clock shows years of four digits and is not set back from one push to the next, and all pushes
together, with some before, have numbers of six digits. -/
structure Orderly (us : List QueueUse) (before : Nat) : Prop where
  shown : ∀ now ∈ times us, now.IsShown
  notBack : (times us).Pairwise fun now later => later.before now = false
  few : before + (times us).length < 1000000

/-- The answers to some uses of a queue, one after the other, and the queue that is left. -/
def answers {α τ : Type} (use : QueueUse → τ → α × τ) : List QueueUse → τ → List α × τ
  | [], s => ([], s)
  | u :: us, s =>
    let (answer, s) := use u s
    let (rest, s) := answers use us s
    (answer :: rest, s)

end QueueUse

/-- Uses a queue in memory. Only taking a body gives one. -/
def MemoryQueue.use : QueueUse → MemoryQueue → Option String × MemoryQueue
  | .push _ body, q => (none, q.push body)
  | .pop, q =>
    match q.pop? with
    | none => (none, q)
    | some (body, q) => (some body, q)

/-- What is taken from a queue in memory, and then what is left, is what was in it, and then what was
pushed. -/
theorem MemoryQueue.taken_append (us : List QueueUse) (q : MemoryQueue) :
    (QueueUse.answers use us q).1.reduceOption ++ (QueueUse.answers use us q).2.bodies =
      q.bodies ++ us.filterMap QueueUse.body? := by
  induction us generalizing q with
  | nil => simp [QueueUse.answers]
  | cons u us ih =>
    rw [QueueUse.answers]
    dsimp only
    cases u with
    | push now body =>
      have hrest := ih (q.push body)
      rw [bodies_push, List.append_assoc] at hrest
      exact hrest
    | pop =>
      rcases hpop : q.pop? with _ | ⟨body, rest⟩
      · have huse : use .pop q = (none, q) := by simp [use, hpop]
        rw [huse]
        exact ih q
      · have huse : use .pop q = (some body, rest) := by simp [use, hpop]
        rw [huse, List.reduceOption_cons_of_some, bodies_of_pop? hpop, List.cons_append, ih rest]
        rfl

namespace Spool

def use : QueueUse → Spool × Tree → Except QueueError (Option String) × (Spool × Tree)
  | .push now body, (s, t) =>
    match s.push now body t with
    | (.ok t, s) => (.ok none, (s, t))
    | (.error e, s) => (.error e, (s, t))
  | .pop, (s, t) =>
    match s.pop t with
    | .ok (some (body, t)) => (.ok (some body), (s, t))
    | .ok none => (.ok none, (s, t))
    | .error e => (.error e, (s, t))

/-- A written path to a folder is so short that those to the files of a spool in it can be followed. -/
def HasRoom (directory : Route) : Prop := directory.written.utf8ByteSize + 37 < Route.longestPath

/-- A spool holds some files, and nothing else lies or has lain in its folder. -/
structure HoldsOnly (directory : Route) (base : Path) (files : List (String × ByteArray)) (t : Tree) :
    Prop extends Holds directory base files t where
  all : t.list? base = some (files.map Prod.fst)
  lone : ∀ name, t.Lone (base ++ [name])

section

variable {now : Instant} {n : Nat} {body : String} {directory : Route} {base : Path} {s : Spool}
  {files : List (String × ByteArray)} {t : Tree}

theorem length_fileName (h : now.IsShown) (hn : n < 1000000) :
    (fileName (bodyName now n)).toList.length = 37 := by
  unfold fileName
  rw [String.toList_append, List.length_append, length_bodyName h hn]
  rfl

theorem length_temporaryName (h : now.IsShown) (hn : n < 1000000) :
    (temporaryName (bodyName now n)).toList.length = 36 := by
  unfold temporaryName
  rw [String.toList_append, List.length_append, length_bodyName h hn]
  rfl

theorem isName_fileName (h : now.IsShown) (hn : n < 1000000) : IsName (fileName (bodyName now n)) := by
  refine (isPlainName_fileName now n).isName ?_
  rw [(isPlainName_fileName now n).utf8ByteSize, length_fileName h hn]
  decide

theorem isName_temporaryName (h : now.IsShown) (hn : n < 1000000) :
    IsName (temporaryName (bodyName now n)) := by
  refine (isPlainName_temporaryName now n).isName ?_
  rw [(isPlainName_temporaryName now n).utf8ByteSize, length_temporaryName h hn]
  decide

theorem HasRoom.isUsable (hroom : HasRoom directory) (husable : directory.isUsable = true)
    (h : now.IsShown) (hn : n < 1000000) :
    (directory.join (fileName (bodyName now n))).isUsable = true ∧
      (directory.join (temporaryName (bodyName now n))).isUsable = true := by
  unfold HasRoom at hroom
  constructor
  · refine isUsable_join husable (isPlainName_fileName now n) ?_
    rw [length_fileName h hn]
    exact hroom
  · refine isUsable_join husable (isPlainName_temporaryName now n) ?_
    rw [length_temporaryName h hn]
    omega

namespace HoldsOnly

theorem leadsTo (h : HoldsOnly directory base files t) : directory.LeadsTo t base :=
  ⟨h.leads, h.folder⟩

theorem lookup?_of_not_mem (h : HoldsOnly directory base files t) {name : String}
    (hname : name ∉ files.map Prod.fst) : t.lookup? (base ++ [name]) = none := by
  by_contra hthere
  exact hname ((Tree.mem_list?_iff h.all).2 hthere)

theorem isJson_of_mem (h : HoldsOnly directory base files t) {name : String}
    (hname : name ∈ files.map Prod.fst) : Path.isJson name = true := by
  have hlisted := h.listed
  rw [h.all, Option.map_some, Option.some.injEq, List.filter_eq_self] at hlisted
  exact hlisted name hname

/-- An empty folder of a sound tree holds nothing, and nothing has lain in it. -/
theorem of_empty (hsound : t.IsSound) (h : directory.list? t = some []) :
    ∃ base, HoldsOnly directory base [] t := by
  obtain ⟨base, hfollow, hlist⟩ := Route.follow_of_list? h
  refine ⟨base, ⟨⟨hfollow, ?_, .nil, ?_, ?_⟩, hlist, fun name => ?_⟩⟩
  · rw [hlist]
    rfl
  · exact fun f hf => by cases hf
  · exact fun f hf => by cases hf
  · exact hsound.lone (Tree.lookup?_of_list?_nil hlist name).2

/-- A file that is taken leaves the others. -/
theorem erase {f : String × ByteArray} (h : HoldsOnly directory base (f :: files) t) :
    HoldsOnly directory base files (t.erase (base ++ [f.1])) where
  toHolds := h.toHolds.erase
  all := by
    have hordered := List.pairwise_cons.1 h.ordered
    have hfront : f.1 ∉ files.map Prod.fst := fun hmem => String.lt_irrefl _ (hordered.1 _ hmem)
    rw [Tree.list?_erase h.all, List.map_cons, List.filter_cons_of_neg (by simp),
      Tree.filter_ne_of_not_mem hfront]
  lone name := (h.lone name).erase _

/-- A name that is not listed is free. -/
theorem free (h : HoldsOnly directory base files t) {name : String}
    (hname : name ∉ files.map Prod.fst) : t.Free (base ++ [name]) :=
  ⟨h.lone name, .inl (h.lookup?_of_not_mem hname)⟩

/-- A file that gets its name after it was written under another one is listed last, and the other
files stay as they are. -/
theorem rename {source goal : String} {content : ByteArray} (h : HoldsOnly directory base files t)
    (hsource : source ∉ files.map Prod.fst) (hgoal : IsName goal) (hjson : Path.isJson goal = true)
    (hlast : ∀ name ∈ files.map Prod.fst, name < goal) :
    HoldsOnly directory base (files ++ [(goal, content)])
      ((((t.put (base ++ [source]) (.file content)).erase (base ++ [source])).erase
        (base ++ [goal])).put (base ++ [goal]) (.file content)) := by
  have hgoal' : goal ∉ files.map Prod.fst := fun hmem => String.lt_irrefl _ (hlast goal hmem)
  have hwritten := (h.free hsource).put (h.free hsource) (by simp) content
  have hfree := (((h.free hgoal').put (h.free hsource) (by simp) content).erase
    (p := base ++ [source]) (by simp))
  have hfree' := hfree.erase (p := base ++ [goal]) (by simp)
  have hleads := (((h.leadsTo.put (h.free hsource) content).erase hwritten).erase hfree).put hfree'
    content
  have hlist := Tree.list?_erase (Tree.list?_put_erase h.all (h.lone source) hsource content) goal
  rw [Tree.filter_ne_of_not_mem hgoal'] at hlist
  have hall := Tree.list?_put_last hlist hfree'.lone hlast content
  have hnames : (files ++ [(goal, content)]).map Prod.fst = files.map Prod.fst ++ [goal] := by simp
  refine ⟨⟨hleads.follow, ?_, ?_, ?_, ?_⟩, ?_, ?_⟩
  · rw [hall, hnames, Option.map_some, List.filter_eq_self.2]
    intro name hname
    rcases List.mem_append.1 hname with hname | hname
    · exact h.isJson_of_mem hname
    · rwa [List.mem_singleton.1 hname]
  · rw [hnames]
    refine List.pairwise_append.2 ⟨h.ordered, List.pairwise_singleton _ _, ?_⟩
    intro name hname last hlast'
    rw [List.mem_singleton.1 hlast']
    exact hlast name hname
  · intro f hf
    rcases List.mem_append.1 hf with hf | hf
    · exact h.isName f hf
    · rwa [List.mem_singleton.1 hf]
  · intro f hf
    rcases List.mem_append.1 hf with hf | hf
    · have hmem : f.1 ∈ files.map Prod.fst := List.mem_map_of_mem hf
      have hne : base ++ [f.1] ≠ base ++ [goal] := by
        simpa using fun he : f.1 = goal => hgoal' (he ▸ hmem)
      have hne' : base ++ [f.1] ≠ base ++ [source] := by
        simpa using fun he : f.1 = source => hsource (he ▸ hmem)
      rw [Tree.lookup?_put_of_ne hfree'.lone content hne, Tree.lookup?_erase_of_ne hne,
        Tree.lookup?_erase_of_ne hne', Tree.lookup?_put_of_ne (h.lone source) content hne']
      exact h.isFile f hf
    · rw [List.mem_singleton.1 hf]
      exact Tree.lookup?_put _ _ _ (by simp)
  · rw [hall, hnames]
  · exact fun name => (((h.lone name).put _ content).erase _ |>.erase _).put _ content

/-- A push adds a file behind the others. -/
theorem push (h : HoldsOnly s.directory base files t) (hroom : HasRoom s.directory)
    (hnow : now.IsShown) (hpushes : s.pushes + 1 < 1000000)
    (hlast : ∀ name ∈ files.map Prod.fst, name < fileName (bodyName now (s.pushes + 1)))
    (body : String) :
    ∃ t', s.push now body t = (.ok t', { s with pushes := s.pushes + 1 }) ∧
      HoldsOnly s.directory base
        (files ++ [(fileName (bodyName now (s.pushes + 1)), body.toUTF8)]) t' := by
  generalize hname : bodyName now (s.pushes + 1) = name at *
  have hempty : name ≠ "" := hname ▸ bodyName_ne now _
  have hgoal := isName_fileName hnow hpushes
  have hsource := isName_temporaryName hnow hpushes
  obtain ⟨husable, husable'⟩ := hroom.isUsable (Route.follow_eq_ok h.leads).2.1 hnow hpushes
  rw [hname] at hgoal hsource husable husable'
  have hhidden : temporaryName name ∉ files.map Prod.fst := by
    intro hmem
    have hjson := h.isJson_of_mem hmem
    rw [isJson_temporaryName hempty] at hjson
    cases hjson
  have hnew : fileName name ∉ files.map Prod.fst := fun hmem => String.lt_irrefl _ (hlast _ hmem)
  have hfree := h.free hhidden
  have hwrite := h.leadsTo.write? hfree hsource husable' body.toUTF8
  have hrename := (h.leadsTo.put hfree body.toUTF8).rename? (hfree.put hfree (by simp) _)
    ((h.free hnew).put hfree (by simp) _) hsource hgoal husable' husable
    (Tree.lookup?_put t _ _ (by simp))
  refine ⟨_, ?_, h.rename hhidden hgoal (isJson_fileName hempty) hlast⟩
  unfold Spool.push stage? publish?
  dsimp only
  rw [hname, hwrite, Option.bind_some, hrename]

end HoldsOnly

end

/-- A spool holds the bodies that wait in a queue in memory, in their order. Their files are named for
pushes before those that are yet to come. -/
structure Follows (directory : Route) (base : Path) (q : MemoryQueue) (us : List QueueUse)
    (s : Spool) (t : Tree) : Prop where
  sameFolder : s.directory = directory
  files : ∃ files, HoldsOnly directory base files t ∧
    files.map Prod.snd = q.bodies.map String.toUTF8 ∧
    ∀ name ∈ files.map Prod.fst, ∃ now n, name = fileName (bodyName now n) ∧ now.IsShown ∧
      n ≤ s.pushes ∧ ∀ later ∈ QueueUse.times us, later.before now = false

section

variable {directory : Route} {base : Path} {q : MemoryQueue} {us : List QueueUse} {s : Spool}
  {t : Tree}

theorem Follows.push {now : Instant} {body : String}
    (h : Follows directory base q (.push now body :: us) s t) (hroom : HasRoom directory)
    (hus : QueueUse.Orderly (.push now body :: us) s.pushes) :
    ∃ s' t', use (.push now body) (s, t) = (.ok none, (s', t')) ∧
      Follows directory base (q.push body) us s' t' ∧ QueueUse.Orderly us s'.pushes := by
  obtain ⟨rfl, files, hholds, hbodies, hnames⟩ := h
  obtain ⟨hshown, hback, hfew⟩ := hus
  have htimes : QueueUse.times (.push now body :: us) = now :: QueueUse.times us := rfl
  rw [htimes] at hshown hback hfew hnames
  rw [List.length_cons] at hfew
  obtain ⟨hnow, hshown⟩ := List.forall_mem_cons.1 hshown
  obtain ⟨hlater, hback⟩ := List.pairwise_cons.1 hback
  have hlast : ∀ name ∈ files.map Prod.fst, name < fileName (bodyName now (s.pushes + 1)) := by
    intro name hname
    obtain ⟨before, n, rfl, hbefore, hn, hafter⟩ := hnames name hname
    exact fileName_lt hbefore hnow (hafter now List.mem_cons_self) (by omega) (by omega)
  obtain ⟨t', hpush, hholds'⟩ := hholds.push hroom hnow (by omega) hlast body
  refine ⟨{ s with pushes := s.pushes + 1 }, t', ?_, ⟨rfl, _, hholds', ?_, ?_⟩,
    ⟨hshown, hback, by dsimp only; omega⟩⟩
  · unfold use
    dsimp only
    rw [hpush]
  · rw [List.map_append, hbodies, MemoryQueue.bodies_push, List.map_append]
    rfl
  · intro name hname
    rw [List.map_append] at hname
    rcases List.mem_append.1 hname with hname | hname
    · obtain ⟨before, n, rfl, hbefore, hn, hafter⟩ := hnames name hname
      exact ⟨before, n, rfl, hbefore, Nat.le_succ_of_le hn,
        fun later hmem => hafter later (List.mem_cons_of_mem _ hmem)⟩
    · exact ⟨now, s.pushes + 1, List.mem_singleton.1 hname, hnow, Nat.le_refl _, hlater⟩

theorem Follows.pop (h : Follows directory base q (.pop :: us) s t) (hroom : HasRoom directory)
    (hus : QueueUse.Orderly (.pop :: us) s.pushes) :
    ∃ t', use .pop (s, t) = (.ok (q.use .pop).1, (s, t')) ∧
      Follows directory base (q.use .pop).2 us s t' := by
  obtain ⟨rfl, files, hholds, hbodies, hnames⟩ := h
  have hfew := hus.few
  rcases q with ⟨_ | ⟨body, rest⟩⟩
  · obtain rfl : files = [] := by simpa using hbodies
    refine ⟨t, ?_, ⟨rfl, [], hholds, rfl, hnames⟩⟩
    unfold use
    dsimp only
    rw [hholds.pop_nil]
    rfl
  · cases files with
    | nil => cases hbodies
    | cons f files =>
      rw [List.map_cons, List.map_cons, List.cons.injEq] at hbodies
      obtain ⟨hbody, hbodies⟩ := hbodies
      obtain ⟨now, n, hname, hnow, hn, -⟩ := hnames f.1 List.mem_cons_self
      have husable : (s.directory.join f.1).isUsable = true := by
        rw [hname]
        exact (hroom.isUsable (Route.follow_eq_ok hholds.leads).2.1 hnow (by omega)).1
      have hread : String.fromUTF8? f.2 = some body := by
        rw [hbody]
        exact Tree.fromUTF8?_toUTF8 body
      refine ⟨_, ?_, ⟨rfl, files, hholds.erase, hbodies, fun name hmem =>
        hnames name (List.mem_cons_of_mem _ hmem)⟩⟩
      unfold use
      dsimp only
      rw [hholds.pop_canTake husable hread]
      rfl

/-- A spool answers like the queue that it follows, and follows it to the end. -/
theorem Follows.answers_eq (h : Follows directory base q us s t) (hroom : HasRoom directory)
    (hus : QueueUse.Orderly us s.pushes) :
    (QueueUse.answers use us (s, t)).1 =
        (QueueUse.answers MemoryQueue.use us q).1.map Except.ok ∧
      Follows directory base (QueueUse.answers MemoryQueue.use us q).2 []
        (QueueUse.answers use us (s, t)).2.1 (QueueUse.answers use us (s, t)).2.2 := by
  induction us generalizing q s t with
  | nil => exact ⟨rfl, h⟩
  | cons u us ih =>
    obtain ⟨s', t', huse, hfollows, hus'⟩ : ∃ s' t', use u (s, t) = (.ok (q.use u).1, (s', t')) ∧
        Follows directory base (q.use u).2 us s' t' ∧ QueueUse.Orderly us s'.pushes := by
      cases u with
      | push now body => exact h.push hroom hus
      | pop =>
        obtain ⟨t', huse, hfollows⟩ := h.pop hroom hus
        exact ⟨s, t', huse, hfollows, ⟨hus.shown, hus.notBack, hus.few⟩⟩
    obtain ⟨hanswers, hends⟩ := ih hfollows hus'
    rw [QueueUse.answers, QueueUse.answers, huse]
    exact ⟨congrArg (List.cons _) hanswers, hends⟩

end

/-- A spool that is opened on an empty folder answers each push and pop with success, and gives what a
queue in memory gives. In the end, its folder holds the bodies that wait in the queue, in their order.
What was taken, and then what waits, is what was pushed. -/
theorem answers_eq_memoryQueue {t t' : Tree} {directory : Route} {s : Spool} {us : List QueueUse}
    (hopen : inFolder t directory = (.ok s, t')) (hsound : t.IsSound)
    (hempty : directory.list? t' = some []) (hroom : HasRoom directory)
    (hus : QueueUse.Orderly us 0) :
    let answered := QueueUse.answers MemoryQueue.use us .empty
    let ended := QueueUse.answers use us (s, t')
    ended.1 = answered.1.map Except.ok ∧
      (∃ base files, HoldsOnly directory base files ended.2.2 ∧
        files.map Prod.snd = answered.2.bodies.map String.toUTF8) ∧
      answered.1.reduceOption ++ answered.2.bodies = us.filterMap QueueUse.body? := by
  intro answered ended
  have hmade := Route.isSound_makeFolder hsound directory
  unfold inFolder at hopen
  rcases hrun : directory.makeFolder.run t with ⟨e | u, t₁⟩
  · rw [hrun] at hopen
    cases hopen
  · rw [hrun] at hopen hmade
    cases hopen
    obtain ⟨base, hholds⟩ := HoldsOnly.of_empty hmade hempty
    have hfollows : Follows directory base .empty us ⟨directory, 0⟩ t' :=
      ⟨rfl, [], hholds, rfl, fun name hname => by cases hname⟩
    obtain ⟨hanswers, hends⟩ := hfollows.answers_eq hroom hus
    obtain ⟨files, hholds', hbodies, -⟩ := hends.files
    exact ⟨hanswers, ⟨base, files, hholds', hbodies⟩, MemoryQueue.taken_append us .empty⟩

def emptyTree : Tree := { entries := [(["spool"], .folder)] }

def emptyFolder : Route := ⟨[], "/spool"⟩

theorem follow_emptyTree : emptyFolder.follow emptyTree = .ok ["spool"] := rfl

theorem isSound_emptyTree : emptyTree.IsSound := fun g hg => by cases hg

theorem inFolder_emptyTree : inFolder emptyTree emptyFolder = (.ok ⟨emptyFolder, 0⟩, emptyTree) := by
  unfold inFolder
  rw [Route.makeFolder_run follow_emptyTree rfl]

theorem list?_emptyTree : emptyFolder.list? emptyTree = some [] := by
  change emptyTree.list? ["spool"] = some []
  exact Tree.list?_eq_some_iff.2 ⟨rfl, List.mergeSort_nil⟩

theorem hasRoom_emptyFolder : HasRoom emptyFolder := show _ < _ by decide

/-- Two pushes at one time, and more pops than pushes. -/
theorem answers_eq_memoryQueue_same_time :
    let us : List QueueUse := [.push ⟨1000000000, 5⟩ "a", .push ⟨1000000000, 5⟩ "b", .pop,
      .push ⟨1000000001, 0⟩ "a", .pop, .pop, .pop]
    inFolder emptyTree emptyFolder = (.ok ⟨emptyFolder, 0⟩, emptyTree) ∧ emptyTree.IsSound ∧
      emptyFolder.list? emptyTree = some [] ∧ HasRoom emptyFolder ∧ QueueUse.Orderly us 0 ∧
      (QueueUse.answers use us (⟨emptyFolder, 0⟩, emptyTree)).1 =
        [.ok none, .ok none, .ok (some "a"), .ok none, .ok (some "b"), .ok (some "a"), .ok none] := by
  intro us
  have hus : QueueUse.Orderly us 0 := by
    refine ⟨?_, ?_, by decide⟩
    · intro now hnow
      simp [us, QueueUse.times, QueueUse.time?] at hnow
      rcases hnow with rfl | rfl <;> exact ⟨by decide, .inl (by decide)⟩
    · decide
  refine ⟨inFolder_emptyTree, isSound_emptyTree, list?_emptyTree, hasRoom_emptyFolder, hus, ?_⟩
  exact (answers_eq_memoryQueue inFolder_emptyTree isSound_emptyTree list?_emptyTree
    hasRoom_emptyFolder hus).1

end Spool

end DataQuality
