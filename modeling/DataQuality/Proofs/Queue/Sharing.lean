import DataQuality.Proofs.Queue.Order
import Mathlib.Logic.Relation

/-!
# A spool that is shared

Any number of users have a spool each in one folder, and push and pop there at the same time. A
push writes its file in parts and then gives it its name. A pop finds the file at the front, reads
it, removes it, and then gives its body. The steps of all users come in any order, and a step may
fail. A file that has got its name is there with all of its body until one pop, and only one,
removes it, and that pop has given its body or is about to give it.
-/
namespace DataQuality

open Files (Path Route Tree)

/-- What a user of a spool is doing. -/
inductive Activity
  | idle
  /-- A push has found a name for its body, and no file has been made. -/
  | named (name body : String)
  /-- A push has written its file but for some bytes. -/
  | written (name body : String) (left : ByteArray)
  /-- A pop has found a file at the front. -/
  | found (file : String)
  /-- A pop has read a file. -/
  | read (file body : String)
  /-- A pop has removed a file and is about to give its body. -/
  | removed (file body : String)

def Activity.IsPush (a : Activity) (name body : String) : Prop :=
  a = .named name body ∨ ∃ left, a = .written name body left

/-- If the user pops, it has to do with one of these files and its body. -/
def Activity.Concerns (pushed : List (String × String)) : Activity → Prop
  | .found file => file ∈ pushed.map Prod.fst
  | .read file body => (file, body) ∈ pushed
  | .removed file body => (file, body) ∈ pushed
  | _ => True

theorem Activity.Concerns.cons {pushed : List (String × String)} {a : Activity}
    (h : a.Concerns pushed) (p : String × String) : a.Concerns (p :: pushed) := by
  cases a with
  | found file => exact List.mem_cons_of_mem _ h
  | read file body => exact List.mem_cons_of_mem _ h
  | removed file body => exact List.mem_cons_of_mem _ h
  | _ => trivial

/-- A folder of spools with their users, and what has happened so far. -/
structure SharedSpool (ι : Type) where
  tree : Tree
  spool : ι → Spool
  activity : ι → Activity
  /-- The names that pushes have found for their bodies. -/
  names : List String
  /-- The files that have got their names, each with the body that was pushed. -/
  pushed : List (String × String)
  /-- The bodies that pops have given, each with the name of its file. -/
  popped : List (String × String)

namespace SharedSpool

variable {ι : Type} [DecidableEq ι]

/-- The users with another activity of one of them. -/
def withActivity (st : SharedSpool ι) (i : ι) (a : Activity) : SharedSpool ι :=
  { st with activity := Function.update st.activity i a }

/-- One step of one user. Only names that no push has found before are found. -/
inductive Step (st : SharedSpool ι) : SharedSpool ι → Prop
  | name (i : ι) (now : Instant) (body : String) (hidle : st.activity i = .idle)
      (hnew : Spool.bodyName now ((st.spool i).pushes + 1) ∉ st.names) :
      Step st { st.withActivity i (.named (Spool.bodyName now ((st.spool i).pushes + 1)) body) with
        spool := Function.update st.spool i ⟨(st.spool i).directory, (st.spool i).pushes + 1⟩
        names := Spool.bodyName now ((st.spool i).pushes + 1) :: st.names }
  | create (i : ι) {name body : String} {part left : ByteArray} {t : Tree}
      (hnamed : st.activity i = .named name body) (hpart : part ++ left = body.toUTF8)
      (hwrite : ((st.spool i).directory.join (Spool.temporaryName name)).write? part st.tree =
        some t) :
      Step st { st.withActivity i (.written name body left) with tree := t }
  | append (i : ι) {name body : String} {part left : ByteArray} {t : Tree}
      (hwritten : st.activity i = .written name body (part ++ left))
      (hwrite : ((st.spool i).directory.join (Spool.temporaryName name)).append? part st.tree =
        some t) :
      Step st { st.withActivity i (.written name body left) with tree := t }
  | publish (i : ι) {name body : String} {t : Tree}
      (hwritten : st.activity i = .written name body ByteArray.empty)
      (hrename : (st.spool i).publish? st.tree name = some t) :
      Step st { st.withActivity i .idle with
        tree := t
        pushed := (Spool.fileName name, body) :: st.pushed }
  | find (i : ι) {file : String} {others : List String} (hidle : st.activity i = .idle)
      (hwaiting : (st.spool i).waiting st.tree = .ok (file :: others)) :
      Step st (st.withActivity i (.found file))
  | read (i : ι) {file body : String} (hfound : st.activity i = .found file)
      (hread : ((st.spool i).directory.join file).readText st.tree = .ok body) :
      Step st (st.withActivity i (.read file body))
  | remove (i : ι) {file body : String} {t : Tree} (hread : st.activity i = .read file body)
      (hremove : ((st.spool i).directory.join file).removeFile? st.tree = some t) :
      Step st { st.withActivity i (.removed file body) with tree := t }
  | give (i : ι) {file body : String} (hremoved : st.activity i = .removed file body) :
      Step st { st.withActivity i .idle with popped := (file, body) :: st.popped }
  /-- A push or pop ends with an error, after what it has done so far. -/
  | fail (i : ι) (hremoved : ∀ file body, st.activity i ≠ .removed file body) :
      Step st (st.withActivity i .idle)

section

variable {st : SharedSpool ι} {i : ι}

/-- A push that is carried out without a break is a row of these steps. -/
theorem steps_push {now : Instant} {body : String} {s : Spool} {t : Tree}
    (hidle : st.activity i = .idle)
    (hnew : Spool.bodyName now ((st.spool i).pushes + 1) ∉ st.names)
    (hpush : (st.spool i).push now body st.tree = (.ok t, s)) :
    Relation.ReflTransGen Step st { st with
      tree := t
      spool := Function.update st.spool i s
      names := Spool.bodyName now ((st.spool i).pushes + 1) :: st.names
      pushed := (Spool.fileName (Spool.bodyName now ((st.spool i).pushes + 1)), body) ::
        st.pushed } := by
  have hname := Step.name i now body hidle hnew
  unfold Spool.push at hpush
  dsimp only at hpush
  generalize Spool.bodyName now ((st.spool i).pushes + 1) = name at *
  split at hpush
  · next t' ht =>
    cases hpush
    obtain ⟨t₁, hwrite, hrename⟩ := Option.bind_eq_some_iff.1 ht
    let st₁ : SharedSpool ι := { st.withActivity i (.named name body) with
      spool := Function.update st.spool i ⟨(st.spool i).directory, (st.spool i).pushes + 1⟩
      names := name :: st.names }
    let st₂ : SharedSpool ι := { st₁.withActivity i (.written name body ByteArray.empty) with
      tree := t₁ }
    have hspool : st₁.spool i = ⟨(st.spool i).directory, (st.spool i).pushes + 1⟩ :=
      Function.update_self ..
    have hcreate : Step st₁ st₂ :=
      .create i (Function.update_self ..) ByteArray.append_empty (by rw [hspool]; exact hwrite)
    have hpublish : Step st₂ { st₂.withActivity i .idle with
        tree := t
        pushed := (Spool.fileName name, body) :: st.pushed } :=
      .publish i (Function.update_self ..) (by
        change (st₁.spool i).publish? t₁ name = some t
        rw [hspool]
        exact hrename)
    have hsteps := ((Relation.ReflTransGen.single hname).tail hcreate).tail hpublish
    simpa [st₁, st₂, withActivity, ← hidle] using hsteps
  · cases hpush

/-- So is a pop that gives a body. -/
theorem steps_pop {body : String} {t : Tree} (hidle : st.activity i = .idle)
    (hpop : (st.spool i).pop st.tree = .ok (some (body, t))) :
    ∃ file, Relation.ReflTransGen Step st { st with
      tree := t
      popped := (file, body) :: st.popped } := by
  unfold Spool.pop at hpop
  split at hpop
  · cases hpop
  · cases hpop
  · next file others hwaiting =>
    unfold Spool.take at hpop
    dsimp only at hpop
    split at hpop
    · cases hpop
    · next body' hread =>
      split at hpop
      · next t' hremove =>
        cases hpop
        let st₁ := st.withActivity i (.found file)
        let st₂ := st₁.withActivity i (.read file body)
        let st₃ : SharedSpool ι := { st₂.withActivity i (.removed file body) with tree := t }
        have hfind : Step st st₁ := .find i hidle hwaiting
        have hread : Step st₁ st₂ := .read i (Function.update_self ..) hread
        have hremove : Step st₂ st₃ := .remove i (Function.update_self ..) hremove
        have hgive : Step st₃ { st₃.withActivity i .idle with
            popped := (file, body) :: st.popped } := .give i (Function.update_self ..)
        have hsteps := (((Relation.ReflTransGen.single hfind).tail hread).tail hremove).tail hgive
        exact ⟨file, by simpa [st₁, st₂, st₃, withActivity, ← hidle] using hsteps⟩
      · cases hpop

end

/-- Nothing has happened yet. The spools of all users are in one folder, and it is empty. -/
structure IsOpened (st : SharedSpool ι) (base : Path) : Prop where
  follow : ∀ i, (st.spool i).directory.follow st.tree = .ok base
  empty : st.tree.list? base = some []
  sound : st.tree.IsSound
  idle : ∀ i, st.activity i = .idle
  names : st.names = []
  pushed : st.pushed = []
  popped : st.popped = []

/-- A user is about to give the body of a file. -/
def Holds (st : SharedSpool ι) (file : String) (i : ι) : Prop :=
  ∃ body, st.activity i = .removed file body

/-- A file that was pushed is there with all of its body, and no pop has given it or is about to. -/
structure Waits (st : SharedSpool ι) (base : Path) (file body : String) : Prop where
  there : st.tree.lookup? (base ++ [file]) = some (.file body.toUTF8)
  notPopped : file ∉ st.popped.map Prod.fst
  notHeld : ∀ i, ¬ st.Holds file i

/-- A file that was pushed is gone, and one pop, and no other, is about to give its body. -/
structure IsHeld (st : SharedSpool ι) (base : Path) (file body : String) : Prop where
  gone : st.tree.lookup? (base ++ [file]) = none
  notPopped : file ∉ st.popped.map Prod.fst
  held : ∃ i, st.activity i = .removed file body ∧ ∀ j, st.Holds file j → j = i

/-- A file that was pushed is gone, its body has been given, and no pop is about to give it. -/
structure IsPopped (st : SharedSpool ι) (base : Path) (file body : String) : Prop where
  gone : st.tree.lookup? (base ++ [file]) = none
  popped : (file, body) ∈ st.popped
  notHeld : ∀ i, ¬ st.Holds file i

/-! ### What the steps keep -/

/-- Some routes lead to the folder, and nothing in it is a folder, a link or tied to another path. -/
structure Placed (directory : ι → Route) (base : Path) (t : Tree) : Prop where
  leads : ∀ i, (directory i).LeadsTo t base
  free : ∀ name, t.Free (base ++ [name])

/-- What is known of the pushes that are under way or done. Each has a name of its own, and what is
written and what is left to be written make up the body. -/
structure Pushes (st : SharedSpool ι) (base : Path) : Prop where
  ofTime : ∀ name ∈ st.names, ∃ now n, name = Spool.bodyName now n
  notPushed : ∀ i name body, (st.activity i).IsPush name body →
    name ∈ st.names ∧ Spool.fileName name ∉ st.pushed.map Prod.fst
  alone : ∀ i j name body body', (st.activity i).IsPush name body →
    (st.activity j).IsPush name body' → i = j
  bytes : ∀ i name body left, st.activity i = .written name body left → ∃ before,
    st.tree.lookup? (base ++ [Spool.temporaryName name]) = some (.file before) ∧
      before ++ left = body.toUTF8
  ofName : ∀ file ∈ st.pushed.map Prod.fst, ∃ name ∈ st.names, file = Spool.fileName name
  once : (st.pushed.map Prod.fst).Nodup

/-- A file that was pushed waits, or one pop has it, or one pop has given it. -/
def Accounted (st : SharedSpool ι) (base : Path) (file body : String) : Prop :=
  st.Waits base file body ∨ st.IsHeld base file body ∨ st.IsPopped base file body

/-- What is known of the pops. They have to do with nothing but files that were pushed. -/
structure Pops (st : SharedSpool ι) (base : Path) : Prop where
  listed : ∀ file, Path.isJson file = true → st.tree.lookup? (base ++ [file]) ≠ none →
    file ∈ st.pushed.map Prod.fst
  concerns : ∀ i, (st.activity i).Concerns st.pushed
  popped : ∀ p ∈ st.popped, p ∈ st.pushed
  once : (st.popped.map Prod.fst).Nodup
  accounted : ∀ file body, (file, body) ∈ st.pushed → st.Accounted base file body

/-- What holds of a shared spool after any steps. -/
structure Sound (st : SharedSpool ι) (base : Path) : Prop where
  placed : Placed (fun i => (st.spool i).directory) base st.tree
  pushes : st.Pushes base
  pops : st.Pops base

section

omit [DecidableEq ι]

variable {st st' : SharedSpool ι} {directory : ι → Route} {base : Path} {t : Tree} {i : ι}

theorem Placed.put (h : Placed directory base t) (name : String) (content : ByteArray) :
    Placed directory base (t.put (base ++ [name]) (.file content)) where
  leads i := (h.leads i).put (h.free name) content
  free other := (h.free other).put (h.free name) (by simp) content

theorem Placed.erase (h : Placed directory base t) (name : String) :
    Placed directory base (t.erase (base ++ [name])) where
  leads i := (h.leads i).erase (h.free name)
  free other := (h.free other).erase (by simp)

theorem Pushes.isJson (h : st.Pushes base) {file : String} (hfile : file ∈ st.pushed.map Prod.fst) :
    Path.isJson file = true := by
  obtain ⟨name, hname, rfl⟩ := h.ofName file hfile
  obtain ⟨now, n, rfl⟩ := h.ofTime name hname
  exact Spool.isJson_fileName (Spool.bodyName_ne now n)

/-- What is still being written is not one of the files of bodies. -/
theorem Pushes.ne_temporaryName (h : st.Pushes base) {name : String} (hname : name ∈ st.names)
    {file : String} (hfile : Path.isJson file = true) :
    base ++ [file] ≠ base ++ [Spool.temporaryName name] := by
  obtain ⟨now, n, rfl⟩ := h.ofTime name hname
  intro he
  obtain rfl : file = _ := by simpa using he
  rw [Spool.isJson_temporaryName (Spool.bodyName_ne now n)] at hfile
  cases hfile

/-- A file was pushed with one body. -/
theorem Pushes.body_unique (h : st.Pushes base) {file body body' : String}
    (hmem : (file, body) ∈ st.pushed) (hmem' : (file, body') ∈ st.pushed) : body = body' := by
  have hsame := List.inj_on_of_nodup_map h.once hmem hmem' rfl
  exact (Prod.mk.inj hsame).2

/-- What waits in the folder was pushed. -/
theorem Sound.waiting (h : st.Sound base) {files : List String}
    (hwaiting : (st.spool i).waiting st.tree = .ok files) {file : String} (hfile : file ∈ files) :
    file ∈ st.pushed.map Prod.fst := by
  cases hlist : st.tree.list? base with
  | none =>
    obtain hfolder := (h.placed.leads i).isFolder
    unfold Tree.list? at hlist
    rw [if_pos hfolder] at hlist
    cases hlist
  | some names =>
    have hroute : (st.spool i).directory.list? st.tree = some names := by
      unfold Route.list?
      rw [(h.placed.leads i).follow]
      exact hlist
    unfold Spool.waiting at hwaiting
    rw [hroute] at hwaiting
    obtain rfl := Except.ok.inj hwaiting
    obtain ⟨hmem, hjson⟩ := List.mem_filter.1 hfile
    exact h.pops.listed file hjson ((Tree.mem_list?_iff hlist).1 hmem)

theorem Pushes.isPlainName (h : st.Pushes base) {file : String}
    (hfile : file ∈ st.pushed.map Prod.fst) : Route.IsPlainName file := by
  obtain ⟨name, hname, rfl⟩ := h.ofName file hfile
  obtain ⟨now, n, rfl⟩ := h.ofTime name hname
  exact Spool.isPlainName_fileName now n

/-- What is read of a file is the body that was pushed. -/
theorem Sound.read (h : st.Sound base) {file body : String} (hfound : st.activity i = .found file)
    (hread : ((st.spool i).directory.join file).readText st.tree = .ok body) :
    (file, body) ∈ st.pushed := by
  have hmem : file ∈ st.pushed.map Prod.fst := by
    have hconcerns := h.pops.concerns i
    rwa [hfound] at hconcerns
  have htext := (h.placed.leads i).readText_of_ok (h.placed.free file) (h.pushes.isPlainName hmem)
    hread
  obtain ⟨⟨other, body'⟩, hpushed, hsame⟩ := List.mem_map.1 hmem
  obtain rfl : other = file := hsame
  have hgone (hnone : st.tree.lookup? (base ++ [other]) = none) : False := by
    rw [Tree.readText_of_none hnone] at htext
    cases htext
  rcases h.pops.accounted other body' hpushed with hwaits | hheld | hpopped
  · rw [Tree.readText_of_lookup? hwaits.there] at htext
    obtain rfl := Except.ok.inj htext
    exact hpushed
  · exact (hgone hheld.gone).elim
  · exact (hgone hpopped.gone).elim

theorem IsOpened.sound_start (h : st.IsOpened base) : st.Sound base := by
  have hempty (name : String) := Tree.lookup?_of_list?_nil h.empty name
  have hpush (i : ι) (name body : String) : ¬ (st.activity i).IsPush name body := by
    rw [h.idle i]
    rintro (ha | ⟨left, ha⟩) <;> cases ha
  refine ⟨⟨fun i => ⟨h.follow i, Tree.lookup?_of_isFolder (hempty "").1⟩, fun name =>
    ⟨h.sound.lone (hempty name).2, .inl (hempty name).2⟩⟩, ⟨?_, ?_, ?_, ?_, ?_, ?_⟩,
    ⟨?_, ?_, ?_, ?_, ?_⟩⟩
  · simp [h.names]
  · exact fun i name body hi => absurd hi (hpush i name body)
  · exact fun i j name body _ hi _ => absurd hi (hpush i name body)
  · exact fun i name body left hi => absurd (.inr ⟨left, hi⟩) (hpush i name body)
  · simp [h.pushed]
  · simp [h.pushed]
  · exact fun file _ hthere => absurd (hempty file).2 hthere
  · intro i
    rw [h.idle i]
    trivial
  · simp [h.popped]
  · simp [h.popped]
  · simp [h.pushed]

end

section

variable {st st' : SharedSpool ι} {base : Path} {i : ι} {a : Activity}

/-- What holds of what a user is doing after one of them has changed it. -/
theorem activity_update {P : Activity → Prop} {j : ι} (h : P (Function.update st.activity i a j)) :
    j = i ∧ P a ∨ j ≠ i ∧ P (st.activity j) := by
  by_cases hj : j = i
  · subst hj
    rw [Function.update_self] at h
    exact .inl ⟨rfl, h⟩
  · rw [Function.update_of_ne hj] at h
    exact .inr ⟨hj, h⟩

theorem concerns_update {pushed : List (String × String)}
    (h : ∀ j, (st.activity j).Concerns pushed) (ha : a.Concerns pushed) (j : ι) :
    (Function.update st.activity i a j).Concerns pushed := by
  by_cases hj : j = i
  · subst hj
    rwa [Function.update_self]
  · rw [Function.update_of_ne hj]
    exact h j

/-- Users who have not removed a file before or after a change do not count. -/
theorem removed_update (hbefore : ∀ file body, st.activity i ≠ .removed file body)
    (hafter : ∀ file body, a ≠ .removed file body) (j : ι) (file body : String) :
    Function.update st.activity i a j = .removed file body ↔
      st.activity j = .removed file body := by
  by_cases hj : j = i
  · subst hj
    rw [Function.update_self]
    exact ⟨fun ha => absurd ha (hafter file body), fun ha => absurd ha (hbefore file body)⟩
  · rw [Function.update_of_ne hj]

omit [DecidableEq ι] in
/-- A file stays accounted for if nothing changes about it. -/
theorem Accounted.frame {file body : String} (h : st.Accounted base file body)
    (htree : st'.tree.lookup? (base ++ [file]) = st.tree.lookup? (base ++ [file]))
    (hpopped : ∀ body, (file, body) ∈ st'.popped ↔ (file, body) ∈ st.popped)
    (hremoved : ∀ j body, st'.activity j = .removed file body ↔ st.activity j = .removed file body) :
    st'.Accounted base file body := by
  have hmem : file ∈ st'.popped.map Prod.fst ↔ file ∈ st.popped.map Prod.fst := by
    simp [hpopped]
  have hholds (j : ι) : st'.Holds file j ↔ st.Holds file j := exists_congr fun body => hremoved j body
  rcases h with ⟨hthere, hnot, hheld⟩ | ⟨hgone, hnot, j, hj, honly⟩ | ⟨hgone, hmem', hheld⟩
  · exact .inl ⟨htree.trans hthere, by rwa [hmem], fun j => by rw [hholds]; exact hheld j⟩
  · exact .inr (.inl ⟨htree.trans hgone, by rwa [hmem], j, (hremoved j body).2 hj,
      fun k hk => honly k ((hholds k).1 hk)⟩)
  · exact .inr (.inr ⟨htree.trans hgone, (hpopped body).2 hmem', fun j => by
      rw [hholds]; exact hheld j⟩)

/-- Pops are kept by a step that leaves the files of bodies as they are, and after which the user has
no file. -/
theorem Pops.quiet (h : st.Pops base) (hactivity : st'.activity = Function.update st.activity i a)
    (hpushed : st'.pushed = st.pushed) (hpopped : st'.popped = st.popped)
    (htree : ∀ file, Path.isJson file = true →
      st'.tree.lookup? (base ++ [file]) = st.tree.lookup? (base ++ [file]))
    (hjson : ∀ file ∈ st.pushed.map Prod.fst, Path.isJson file = true)
    (hbefore : ∀ file body, st.activity i ≠ .removed file body)
    (hafter : ∀ file body, a ≠ .removed file body)
    (hconcerns : a.Concerns st.pushed) : st'.Pops base := by
  constructor
  · intro file hfile hthere
    rw [hpushed]
    rw [htree file hfile] at hthere
    exact h.listed file hfile hthere
  · intro j
    rw [hpushed, hactivity]
    exact concerns_update h.concerns hconcerns j
  · rw [hpopped, hpushed]
    exact h.popped
  · rw [hpopped]
    exact h.once
  · intro file body hmem
    rw [hpushed] at hmem
    have hfile := hjson file (List.mem_map_of_mem hmem)
    refine (h.accounted file body hmem).frame (htree file hfile) (fun _ => by rw [hpopped]) ?_
    rw [hactivity]
    exact fun j body => removed_update hbefore hafter j file body

/-- Pushes are kept by a step of a user that does not push then. -/
theorem Pushes.quiet (h : st.Pushes base) (hactivity : st'.activity = Function.update st.activity i a)
    (hnames : st'.names = st.names) (hpushed : st'.pushed = st.pushed)
    (htree : ∀ name ∈ st.names, st'.tree.lookup? (base ++ [Spool.temporaryName name]) =
      st.tree.lookup? (base ++ [Spool.temporaryName name]))
    (hafter : ∀ name body, ¬ a.IsPush name body) : st'.Pushes base := by
  have hpush {j : ι} {name body : String} (hj : (st'.activity j).IsPush name body) :
      (st.activity j).IsPush name body := by
    rw [hactivity] at hj
    rcases activity_update (P := fun a => a.IsPush name body) hj with ⟨-, ha⟩ | ⟨-, hj⟩
    · exact absurd ha (hafter name body)
    · exact hj
  constructor
  · rw [hnames]
    exact h.ofTime
  · intro j name body hj
    rw [hnames, hpushed]
    exact h.notPushed j name body (hpush hj)
  · exact fun j k name body body' hj hk => h.alone j k name body body' (hpush hj) (hpush hk)
  · intro j name body left hj
    rw [hactivity] at hj
    rcases activity_update (P := (· = .written name body left)) hj with ⟨-, ha⟩ | ⟨-, hj⟩
    · exact absurd (.inr ⟨left, ha⟩) (hafter name body)
    · rw [htree name (h.notPushed j name body (.inr ⟨left, hj⟩)).1]
      exact h.bytes j name body left hj
  · rw [hnames, hpushed]
    exact h.ofName
  · rw [hpushed]
    exact h.once

/-- A push that finds a new name has that name alone. -/
theorem Pushes.name (h : st.Pushes base) {now : Instant} {n : Nat} {name body : String}
    (hname : name = Spool.bodyName now n) (hnew : name ∉ st.names)
    (hactivity : st'.activity = Function.update st.activity i (.named name body))
    (hnames : st'.names = name :: st.names) (hpushed : st'.pushed = st.pushed)
    (htree : st'.tree = st.tree) : st'.Pushes base := by
  have hpush {j : ι} {name' body' : String} (hj : (st'.activity j).IsPush name' body') :
      j = i ∧ name' = name ∨ j ≠ i ∧ (st.activity j).IsPush name' body' := by
    rw [hactivity] at hj
    rcases activity_update (P := fun a => a.IsPush name' body') hj with ⟨rfl, ha⟩ | hj
    · rcases ha with ha | ⟨left, ha⟩
      · cases ha
        exact .inl ⟨rfl, rfl⟩
      · cases ha
    · exact .inr hj
  constructor
  · rw [hnames]
    exact List.forall_mem_cons.2 ⟨⟨now, n, hname⟩, h.ofTime⟩
  · intro j name' body' hj
    rw [hnames, hpushed]
    rcases hpush hj with ⟨-, rfl⟩ | ⟨-, hj⟩
    · refine ⟨List.mem_cons_self, fun hmem => ?_⟩
      obtain ⟨other, hother, hsame⟩ := h.ofName _ hmem
      exact hnew (Spool.fileName_inj hsame ▸ hother)
    · obtain ⟨hmem, hnot⟩ := h.notPushed j name' body' hj
      exact ⟨List.mem_cons_of_mem _ hmem, hnot⟩
  · intro j k name' body' body'' hj hk
    rcases hpush hj with ⟨rfl, hj'⟩ | ⟨-, hj'⟩ <;> rcases hpush hk with ⟨rfl, hk'⟩ | ⟨-, hk'⟩
    · rfl
    · exact absurd (hj' ▸ (h.notPushed k _ _ hk').1) hnew
    · exact absurd (hk' ▸ (h.notPushed j _ _ hj').1) hnew
    · exact h.alone j k _ _ _ hj' hk'
  · intro j name' body' left hj
    rw [hactivity] at hj
    rw [htree]
    rcases activity_update (P := (· = .written name' body' left)) hj with ⟨-, ha⟩ | ⟨-, hj⟩
    · cases ha
    · exact h.bytes j name' body' left hj
  · rw [hnames, hpushed]
    intro file hfile
    obtain ⟨other, hother, hsame⟩ := h.ofName file hfile
    exact ⟨other, List.mem_cons_of_mem _ hother, hsame⟩
  · rw [hpushed]
    exact h.once

/-- A push that has written a part of its file leaves the files of all other pushes as they are. -/
theorem Pushes.write (h : st.Pushes base) (hfree : ∀ name, st.tree.Free (base ++ [name]))
    {name body : String} {content left : ByteArray} (hpush : (st.activity i).IsPush name body)
    (hcontent : content ++ left = body.toUTF8)
    (hactivity : st'.activity = Function.update st.activity i (.written name body left))
    (hnames : st'.names = st.names) (hpushed : st'.pushed = st.pushed)
    (htree : st'.tree = st.tree.put (base ++ [Spool.temporaryName name]) (.file content)) :
    st'.Pushes base := by
  have hback {j : ι} {name' body' : String} (hj : (st'.activity j).IsPush name' body') :
      (st.activity j).IsPush name' body' := by
    rw [hactivity] at hj
    rcases activity_update (P := fun a => a.IsPush name' body') hj with ⟨rfl, ha⟩ | ⟨-, hj⟩
    · rcases ha with ha | ⟨left, ha⟩
      · cases ha
      · cases ha
        exact hpush
    · exact hj
  constructor
  · rw [hnames]
    exact h.ofTime
  · intro j name' body' hj
    rw [hnames, hpushed]
    exact h.notPushed j name' body' (hback hj)
  · exact fun j k name' body' body'' hj hk => h.alone j k name' body' body'' (hback hj) (hback hk)
  · intro j name' body' left' hj
    rw [hactivity] at hj
    rw [htree]
    rcases activity_update (P := (· = .written name' body' left')) hj with ⟨-, ha⟩ | ⟨hji, hold⟩
    · cases ha
      exact ⟨content, Tree.lookup?_put _ _ _ (by simp), hcontent⟩
    · have hne : base ++ [Spool.temporaryName name'] ≠ base ++ [Spool.temporaryName name] := by
        intro he
        obtain rfl : name' = name := Spool.temporaryName_inj (by simpa using he)
        exact hji (h.alone j i name' body' body (.inr ⟨left', hold⟩) hpush)
      rw [Tree.lookup?_put_of_ne (hfree _).lone content hne]
      exact h.bytes j name' body' left' hold
  · rw [hnames, hpushed]
    exact h.ofName
  · rw [hpushed]
    exact h.once

/-- A file that gets its name is one that was pushed, and the files of the other pushes stay as they
are. -/
theorem Pushes.publish (h : st.Pushes base) {name body : String}
    (hpush : (st.activity i).IsPush name body)
    (hactivity : st'.activity = Function.update st.activity i .idle)
    (hnames : st'.names = st.names)
    (hpushed : st'.pushed = (Spool.fileName name, body) :: st.pushed)
    (htree : ∀ q, q ≠ base ++ [Spool.temporaryName name] → q ≠ base ++ [Spool.fileName name] →
      st'.tree.lookup? q = st.tree.lookup? q) : st'.Pushes base := by
  obtain ⟨hname, hnot⟩ := h.notPushed i name body hpush
  have hback {j : ι} {name' body' : String} (hj : (st'.activity j).IsPush name' body') :
      j ≠ i ∧ (st.activity j).IsPush name' body' := by
    rw [hactivity] at hj
    rcases activity_update (P := fun a => a.IsPush name' body') hj with ⟨-, ha⟩ | hj
    · rcases ha with ha | ⟨left, ha⟩ <;> cases ha
    · exact hj
  have hother {j : ι} {name' body' : String} (hj : j ≠ i ∧ (st.activity j).IsPush name' body') :
      name' ≠ name := by
    rintro rfl
    exact hj.1 (h.alone j i name' body' body hj.2 hpush)
  have hfiles : st'.pushed.map Prod.fst = Spool.fileName name :: st.pushed.map Prod.fst := by
    rw [hpushed, List.map_cons]
  constructor
  · rw [hnames]
    exact h.ofTime
  · intro j name' body' hj
    have hold := hback hj
    obtain ⟨hmem, hnot'⟩ := h.notPushed j name' body' hold.2
    rw [hnames, hfiles]
    refine ⟨hmem, fun hcons => ?_⟩
    rcases List.mem_cons.1 hcons with hsame | hmem'
    · exact hother hold (Spool.fileName_inj hsame)
    · exact hnot' hmem'
  · exact fun j k name' body' body'' hj hk =>
      h.alone j k name' body' body'' (hback hj).2 (hback hk).2
  · intro j name' body' left hj
    rw [hactivity] at hj
    rcases activity_update (P := (· = .written name' body' left)) hj with ⟨-, ha⟩ | ⟨hji, hold⟩
    · cases ha
    · have hpush' : (st.activity j).IsPush name' body' := .inr ⟨left, hold⟩
      have hjson : Path.isJson (Spool.fileName name) = true := by
        obtain ⟨now, n, rfl⟩ := h.ofTime name hname
        exact Spool.isJson_fileName (Spool.bodyName_ne now n)
      rw [htree]
      · exact h.bytes j name' body' left hold
      · intro he
        exact hother ⟨hji, hpush'⟩ (Spool.temporaryName_inj (by simpa using he))
      · exact (h.ne_temporaryName (h.notPushed j name' body' hpush').1 hjson).symm
  · rw [hnames, hfiles]
    exact List.forall_mem_cons.2 ⟨⟨name, hname, rfl⟩, h.ofName⟩
  · rw [hfiles]
    exact List.nodup_cons.2 ⟨hnot, h.once⟩

/-- A file that has got its name waits, and nothing changes about the others. -/
theorem Pops.publish (h : st.Pops base) {file body : String}
    (hactivity : st'.activity = Function.update st.activity i .idle)
    (hbefore : ∀ file body, st.activity i ≠ .removed file body)
    (hnot : file ∉ st.pushed.map Prod.fst) (hpushed : st'.pushed = (file, body) :: st.pushed)
    (hpopped : st'.popped = st.popped)
    (hthere : st'.tree.lookup? (base ++ [file]) = some (.file body.toUTF8))
    (hjson : ∀ file ∈ st.pushed.map Prod.fst, Path.isJson file = true)
    (htree : ∀ other, Path.isJson other = true → other ≠ file →
      st'.tree.lookup? (base ++ [other]) = st.tree.lookup? (base ++ [other])) : st'.Pops base := by
  have hremoved (j : ι) (file body : String) :
      st'.activity j = .removed file body ↔ st.activity j = .removed file body := by
    rw [hactivity]
    exact removed_update hbefore (by simp) j file body
  constructor
  · intro other hother hthere'
    rw [hpushed, List.map_cons]
    by_cases hsame : other = file
    · exact hsame ▸ List.mem_cons_self
    · rw [htree other hother hsame] at hthere'
      exact List.mem_cons_of_mem _ (h.listed other hother hthere')
  · intro j
    rw [hpushed, hactivity]
    exact concerns_update (a := .idle) (fun j => (h.concerns j).cons _) trivial j
  · rw [hpopped, hpushed]
    exact fun p hp => List.mem_cons_of_mem _ (h.popped p hp)
  · rw [hpopped]
    exact h.once
  · intro other body' hmem
    rw [hpushed] at hmem
    rcases List.mem_cons.1 hmem with hnew | hold
    · obtain ⟨rfl, rfl⟩ := Prod.mk.inj hnew
      refine .inl ⟨hthere, fun hmem' => ?_, ?_⟩
      · rw [hpopped] at hmem'
        obtain ⟨p, hp, rfl⟩ := List.mem_map.1 hmem'
        exact hnot (List.mem_map_of_mem (h.popped p hp))
      · rintro j ⟨body', hj⟩
        have hconcerns := h.concerns j
        rw [(hremoved j _ body').1 hj] at hconcerns
        exact hnot (List.mem_map_of_mem hconcerns)
    · have hother : other ∈ st.pushed.map Prod.fst := List.mem_map_of_mem hold
      have hne : other ≠ file := by
        rintro rfl
        exact hnot hother
      exact (h.accounted other body' hold).frame (htree other (hjson other hother) hne)
        (fun _ => by rw [hpopped]) fun j body => hremoved j other body

/-- A pop that removes a file is the only one that has it. -/
theorem Pops.remove (h : st.Pops base) {file body : String}
    (hunique : ∀ body', (file, body') ∈ st.pushed → body' = body)
    (hread : st.activity i = .read file body)
    (hactivity : st'.activity = Function.update st.activity i (.removed file body))
    (hpushed : st'.pushed = st.pushed) (hpopped : st'.popped = st.popped)
    (hthere : st.tree.lookup? (base ++ [file]) ≠ none)
    (htree : st'.tree = st.tree.erase (base ++ [file])) : st'.Pops base := by
  have hother {other : String} (hne : other ≠ file) :
      st'.tree.lookup? (base ++ [other]) = st.tree.lookup? (base ++ [other]) := by
    rw [htree]
    exact Tree.lookup?_erase_of_ne (by simpa using hne)
  have hgone : st'.tree.lookup? (base ++ [file]) = none := by
    rw [htree]
    exact Tree.lookup?_erase_self (by simp)
  have hmem : (file, body) ∈ st.pushed := by
    have hconcerns := h.concerns i
    rwa [hread] at hconcerns
  constructor
  · intro other hjson hthere'
    rw [hpushed]
    by_cases hsame : other = file
    · rw [hsame] at hthere'
      exact absurd hgone hthere'
    · rw [hother hsame] at hthere'
      exact h.listed other hjson hthere'
  · intro j
    rw [hpushed, hactivity]
    exact concerns_update (a := .removed file body) h.concerns hmem j
  · rw [hpopped, hpushed]
    exact h.popped
  · rw [hpopped]
    exact h.once
  · intro other body' hmem'
    rw [hpushed] at hmem'
    have haccounted := h.accounted other body' hmem'
    by_cases hsame : other = file
    · subst hsame
      obtain rfl := hunique body' hmem'
      have hwaits : st.Waits base other body' := by
        rcases haccounted with hwaits | hheld | hpop
        · exact hwaits
        · exact absurd hheld.gone hthere
        · exact absurd hpop.gone hthere
      refine .inr (.inl ⟨hgone, by rw [hpopped]; exact hwaits.notPopped, i, ?_, ?_⟩)
      · rw [hactivity, Function.update_self]
      · rintro j ⟨body'', hj⟩
        by_contra hji
        rw [hactivity, Function.update_of_ne hji] at hj
        exact hwaits.notHeld j ⟨body'', hj⟩
    · refine haccounted.frame (hother hsame) (fun _ => by rw [hpopped]) fun j body'' => ?_
      rw [hactivity]
      by_cases hj : j = i
      · subst hj
        rw [Function.update_self, hread]
        simp [Ne.symm hsame]
      · rw [Function.update_of_ne hj]

/-- A pop that gives the body of the file that it has removed has it no longer. -/
theorem Pops.give (h : st.Pops base) {file body : String}
    (hunique : ∀ body', (file, body') ∈ st.pushed → body' = body)
    (hremoved : st.activity i = .removed file body)
    (hactivity : st'.activity = Function.update st.activity i .idle)
    (hpushed : st'.pushed = st.pushed) (hpopped : st'.popped = (file, body) :: st.popped)
    (htree : st'.tree = st.tree) : st'.Pops base := by
  have hmem : (file, body) ∈ st.pushed := by
    have hconcerns := h.concerns i
    rwa [hremoved] at hconcerns
  have hheld : st.IsHeld base file body := by
    rcases h.accounted file body hmem with hwaits | hheld | hpop
    · exact absurd ⟨body, hremoved⟩ (hwaits.notHeld i)
    · exact hheld
    · exact absurd ⟨body, hremoved⟩ (hpop.notHeld i)
  constructor
  · rw [hpushed, htree]
    exact h.listed
  · intro j
    rw [hpushed, hactivity]
    exact concerns_update (a := .idle) h.concerns trivial j
  · rw [hpopped, hpushed]
    exact List.forall_mem_cons.2 ⟨hmem, h.popped⟩
  · rw [hpopped, List.map_cons]
    exact List.nodup_cons.2 ⟨hheld.notPopped, h.once⟩
  · intro other body' hmem'
    rw [hpushed] at hmem'
    by_cases hsame : other = file
    · subst hsame
      obtain rfl := hunique body' hmem'
      refine .inr (.inr ⟨by rw [htree]; exact hheld.gone, by rw [hpopped]; exact List.mem_cons_self, ?_⟩)
      rintro j ⟨body'', hj⟩
      obtain ⟨k, hk, honly⟩ := hheld.held
      by_cases hji : j = i
      · rw [hactivity, hji, Function.update_self] at hj
        cases hj
      · rw [hactivity, Function.update_of_ne hji] at hj
        exact hji ((honly j ⟨body'', hj⟩).trans (honly i ⟨body', hremoved⟩).symm)
    · refine (h.accounted other body' hmem').frame (by rw [htree]) (fun body'' => ?_) fun j body'' => ?_
      · rw [hpopped, List.mem_cons]
        simp [hsame]
      · rw [hactivity]
        by_cases hj : j = i
        · subst hj
          rw [Function.update_self, hremoved]
          simp [Ne.symm hsame]
        · rw [Function.update_of_ne hj]

theorem Sound.name (h : st.Sound base) {now : Instant} {body : String}
    (hidle : st.activity i = .idle)
    (hnew : Spool.bodyName now ((st.spool i).pushes + 1) ∉ st.names) :
    Sound { st.withActivity i (.named (Spool.bodyName now ((st.spool i).pushes + 1)) body) with
      spool := Function.update st.spool i ⟨(st.spool i).directory, (st.spool i).pushes + 1⟩
      names := Spool.bodyName now ((st.spool i).pushes + 1) :: st.names } base where
  placed := by
    refine ⟨fun j => ?_, h.placed.free⟩
    by_cases hj : j = i
    · subst hj
      change (Function.update st.spool j _ j).directory.LeadsTo st.tree base
      rw [Function.update_self]
      exact h.placed.leads j
    · change (Function.update st.spool i _ j).directory.LeadsTo st.tree base
      rw [Function.update_of_ne hj]
      exact h.placed.leads j
  pushes := h.pushes.name rfl hnew rfl rfl rfl rfl
  pops := h.pops.quiet rfl rfl rfl (fun _ _ => rfl) (fun _ => h.pushes.isJson) (by simp [hidle])
    (by simp) trivial

/-- A part of a body is written under the name of the push. -/
theorem Sound.write (h : st.Sound base) {name body : String} {content left : ByteArray}
    (hpush : (st.activity i).IsPush name body) (hcontent : content ++ left = body.toUTF8) :
    Sound { st.withActivity i (.written name body left) with
      tree := st.tree.put (base ++ [Spool.temporaryName name]) (.file content) } base where
  placed := h.placed.put _ content
  pushes := h.pushes.write h.placed.free hpush hcontent rfl rfl rfl rfl
  pops := by
    have hname := (h.pushes.notPushed i name body hpush).1
    refine h.pops.quiet rfl rfl rfl (fun file hfile => ?_) (fun _ => h.pushes.isJson) ?_ (by simp)
      trivial
    · exact Tree.lookup?_put_of_ne (h.placed.free _).lone content
        (h.pushes.ne_temporaryName hname hfile)
    · intro file body hremoved
      rw [hremoved] at hpush
      rcases hpush with hpush | ⟨left, hpush⟩ <;> cases hpush

theorem Sound.publish (h : st.Sound base) {name body : String}
    (hpush : (st.activity i).IsPush name body) {t : Tree}
    (ht : t = ((st.tree.erase (base ++ [Spool.temporaryName name])).erase
      (base ++ [Spool.fileName name])).put (base ++ [Spool.fileName name]) (.file body.toUTF8)) :
    Sound { st.withActivity i .idle with
      tree := t
      pushed := (Spool.fileName name, body) :: st.pushed } base := by
  obtain ⟨hname, hnot⟩ := h.pushes.notPushed i name body hpush
  have herased := (h.placed.erase (Spool.temporaryName name)).erase (Spool.fileName name)
  have htree {q : Path} (hne : q ≠ base ++ [Spool.temporaryName name])
      (hne' : q ≠ base ++ [Spool.fileName name]) : t.lookup? q = st.tree.lookup? q := by
    rw [ht, Tree.lookup?_put_of_ne (herased.free _).lone _ hne', Tree.lookup?_erase_of_ne hne',
      Tree.lookup?_erase_of_ne hne]
  refine ⟨?_, h.pushes.publish hpush rfl rfl rfl fun q => htree, ?_⟩
  · rw [ht]
    exact herased.put _ _
  · refine h.pops.publish rfl ?_ hnot rfl rfl ?_ (fun _ => h.pushes.isJson) fun other hother hne => ?_
    · intro file body hremoved
      rw [hremoved] at hpush
      rcases hpush with hpush | ⟨left, hpush⟩ <;> cases hpush
    · change t.lookup? (base ++ [Spool.fileName name]) = _
      rw [ht]
      exact Tree.lookup?_put _ _ _ (by simp)
    · exact htree (h.pushes.ne_temporaryName hname hother) (by simpa using hne)

/-- Nothing that a pop has read or found, or that an error has ended, changes a file. -/
theorem Sound.quiet (h : st.Sound base) (hbefore : ∀ file body, st.activity i ≠ .removed file body)
    (hafter : ∀ file body, a ≠ .removed file body) (hpush : ∀ name body, ¬ a.IsPush name body)
    (hconcerns : a.Concerns st.pushed) : Sound (st.withActivity i a) base where
  placed := h.placed
  pushes := h.pushes.quiet rfl rfl rfl (fun _ _ => rfl) hpush
  pops := h.pops.quiet rfl rfl rfl (fun _ _ => rfl) (fun _ => h.pushes.isJson) hbefore hafter hconcerns

/-- A pop that removes or gives a file is no push, and its tree has the unfinished files of before. -/
theorem Sound.remove (h : st.Sound base) {file body : String} (hread : st.activity i = .read file body)
    (hthere : st.tree.lookup? (base ++ [file]) ≠ none) :
    Sound { st.withActivity i (.removed file body) with
      tree := st.tree.erase (base ++ [file]) } base := by
  have hmem : (file, body) ∈ st.pushed := by
    have hconcerns := h.pops.concerns i
    rwa [hread] at hconcerns
  have hjson := h.pushes.isJson (List.mem_map_of_mem hmem)
  refine ⟨h.placed.erase file, ?_, ?_⟩
  · refine h.pushes.quiet rfl rfl rfl (fun name hname => ?_) ?_
    · exact Tree.lookup?_erase_of_ne (h.pushes.ne_temporaryName hname hjson).symm
    · rintro name body (ha | ⟨left, ha⟩) <;> cases ha
  · exact h.pops.remove (fun body' hmem' => h.pushes.body_unique hmem' hmem) hread rfl rfl rfl hthere
      rfl

theorem Sound.give (h : st.Sound base) {file body : String}
    (hremoved : st.activity i = .removed file body) :
    Sound { st.withActivity i .idle with popped := (file, body) :: st.popped } base := by
  have hmem : (file, body) ∈ st.pushed := by
    have hconcerns := h.pops.concerns i
    rwa [hremoved] at hconcerns
  refine ⟨h.placed, ?_, ?_⟩
  · refine h.pushes.quiet rfl rfl rfl (fun _ _ => rfl) ?_
    rintro name body (ha | ⟨left, ha⟩) <;> cases ha
  · exact h.pops.give (fun body' hmem' => h.pushes.body_unique hmem' hmem) hremoved rfl rfl rfl rfl

/-- What holds of a shared spool is kept by every step of every user. -/
theorem Sound.step (h : st.Sound base) (hstep : st.Step st') : st'.Sound base := by
  have htemporary {i : ι} {name body : String} (hpush : (st.activity i).IsPush name body) :
      Route.IsPlainName (Spool.temporaryName name) ∧ Route.IsPlainName (Spool.fileName name) := by
    obtain ⟨now, n, rfl⟩ := h.pushes.ofTime name (h.pushes.notPushed i name body hpush).1
    exact ⟨Spool.isPlainName_temporaryName now n, Spool.isPlainName_fileName now n⟩
  cases hstep with
  | name i now body hidle hnew => exact h.name hidle hnew
  | @create i name body part left t hnamed hpart hwrite =>
    have hpush : (st.activity i).IsPush name body := .inl hnamed
    obtain rfl := (h.placed.leads i).eq_of_write? (h.placed.free _) (htemporary hpush).1 hwrite
    exact h.write hpush hpart
  | @append i name body part left t hwritten hwrite =>
    have hpush : (st.activity i).IsPush name body := .inr ⟨_, hwritten⟩
    obtain ⟨before, hfile, hbytes⟩ := h.pushes.bytes i _ _ _ hwritten
    obtain rfl := (h.placed.leads i).eq_of_append? (h.placed.free _) (htemporary hpush).1 hfile hwrite
    exact h.write hpush (by rw [← hbytes, ByteArray.append_assoc])
  | @publish i name body t hwritten hrename =>
    have hpush : (st.activity i).IsPush name body := .inr ⟨_, hwritten⟩
    obtain ⟨before, hfile, hbytes⟩ := h.pushes.bytes i _ _ _ hwritten
    rw [ByteArray.append_empty] at hbytes
    subst hbytes
    exact h.publish hpush ((h.placed.leads i).eq_of_rename? (h.placed.free _) (h.placed.free _)
      (htemporary hpush).1 (htemporary hpush).2 hfile hrename)
  | find i hidle hwaiting =>
    refine h.quiet (by simp [hidle]) (by simp) ?_ (h.waiting hwaiting List.mem_cons_self)
    rintro name body (ha | ⟨left, ha⟩) <;> cases ha
  | read i hfound hread =>
    refine h.quiet (by simp [hfound]) (by simp) ?_ (h.read hfound hread)
    rintro name body (ha | ⟨left, ha⟩) <;> cases ha
  | @remove i file body t hread hremove =>
    have hmem : (file, body) ∈ st.pushed := by
      have hconcerns := h.pops.concerns i
      rwa [hread] at hconcerns
    obtain ⟨⟨content, hfile⟩, rfl⟩ := (h.placed.leads i).eq_of_removeFile? (h.placed.free file)
      (h.pushes.isPlainName (List.mem_map_of_mem hmem)) hremove
    exact h.remove hread (by rw [hfile]; exact Option.some_ne_none _)
  | give i hremoved => exact h.give hremoved
  | fail i hremoved =>
    refine h.quiet hremoved (by simp) ?_ trivial
    rintro name body (ha | ⟨left, ha⟩) <;> cases ha

/-- Whatever the users of a shared spool have done, in whatever order: each body that was given is one
that was pushed, each file that was pushed has one body, and it was given at most once. A file that was
pushed is there with all of its body, and no pop has given it or is about to, or it is gone, and it has
been given, or one pop, and no other, is about to give it. -/
theorem delivered_at_most_once (hopened : st.IsOpened base) (hsteps : Relation.ReflTransGen Step st st') :
    (∀ p ∈ st'.popped, p ∈ st'.pushed) ∧ (st'.pushed.map Prod.fst).Nodup ∧
      (st'.popped.map Prod.fst).Nodup ∧
      ∀ file body, (file, body) ∈ st'.pushed →
        st'.Waits base file body ∨ st'.IsHeld base file body ∨ st'.IsPopped base file body := by
  have hsound : st'.Sound base := by
    induction hsteps with
    | refl => exact hopened.sound_start
    | tail _ hstep ih => exact ih.step hstep
  exact ⟨hsound.pops.popped, hsound.pushes.once, hsound.pops.once, hsound.pops.accounted⟩

end

/-- Two users on an empty folder. -/
def twoUsers : SharedSpool Bool where
  tree := Spool.emptyTree
  spool _ := ⟨Spool.emptyFolder, 0⟩
  activity _ := .idle
  names := []
  pushed := []
  popped := []

theorem isOpened_twoUsers : twoUsers.IsOpened ["spool"] where
  follow _ := Spool.follow_emptyTree
  empty := by
    have hlist := Spool.list?_emptyTree
    unfold Route.list? at hlist
    rw [Spool.follow_emptyTree] at hlist
    exact hlist
  sound := Spool.isSound_emptyTree
  idle _ := rfl
  names := rfl
  pushed := rfl
  popped := rfl

/-- Both users find and read the file that one of them has pushed. The other one removes it and gives
its body; the first one fails to remove it. -/
theorem delivered_at_most_once_race :
    ∃ st file, twoUsers.IsOpened ["spool"] ∧ Relation.ReflTransGen Step twoUsers st ∧
      st.popped = [(file, "a")] ∧ st.IsPopped ["spool"] file "a" := by
  let now : Instant := ⟨1000000000, 5⟩
  let file := Spool.fileName (Spool.bodyName now 1)
  have hshown : now.IsShown := ⟨by decide, .inl (by decide)⟩
  obtain ⟨base, hempty⟩ := Spool.HoldsOnly.of_empty Spool.isSound_emptyTree Spool.list?_emptyTree
  obtain ⟨t, hpush, hholds⟩ := hempty.push (s := ⟨Spool.emptyFolder, 0⟩) Spool.hasRoom_emptyFolder
    hshown (by decide) (fun name hname => by cases hname) "a"
  have hfile := hholds.isFile _ (List.mem_singleton_self _)
  have hname := Spool.isName_fileName hshown (n := 1) (by decide)
  have husable := (Spool.hasRoom_emptyFolder.isUsable (by decide) hshown (n := 1) (by decide)).1
  have hfree : t.Free (base ++ [file]) := ⟨hholds.lone _, .inr ⟨_, hfile⟩⟩
  have hread : (Spool.emptyFolder.join file).readText t = .ok "a" :=
    (hholds.leadsTo.readText hfree hname husable).trans (Tree.readText_of_lookup? hfile)
  have hremove := hholds.leadsTo.removeFile? hfree hname husable hfile
  have hsteps := steps_push (show twoUsers.activity false = .idle from rfl) (by simp [twoUsers]) hpush
  generalize hst : ({ twoUsers with
    tree := t
    spool := _
    names := _
    pushed := _ } : SharedSpool Bool) = st at hsteps
  have hdirectory (i : Bool) : (st.spool i).directory = Spool.emptyFolder := by
    rw [← hst]
    cases i <;> rfl
  obtain ⟨htree, hactivity, hpushed, hpopped⟩ : st.tree = t ∧ st.activity = (fun _ => .idle) ∧
      st.pushed = [(file, "a")] ∧ st.popped = [] := by
    rw [← hst]
    exact ⟨rfl, rfl, rfl, rfl⟩
  have hwaiting (i : Bool) : (st.spool i).waiting st.tree = .ok [file] := by
    rw [htree]
    exact Spool.Holds.waiting (s := st.spool i) (by rw [hdirectory]; exact hholds.toHolds)
  have hread' (i : Bool) : ((st.spool i).directory.join file).readText st.tree = .ok "a" := by
    rw [hdirectory, htree]
    exact hread
  let st₁ := st.withActivity false (.found file)
  let st₂ := st₁.withActivity true (.found file)
  let st₃ := st₂.withActivity false (.read file "a")
  let st₄ := st₃.withActivity true (.read file "a")
  let st₅ : SharedSpool Bool := { st₄.withActivity true (.removed file "a") with
    tree := t.erase (base ++ [file]) }
  let st₆ := st₅.withActivity false .idle
  let st₇ : SharedSpool Bool := { st₆.withActivity true .idle with popped := (file, "a") :: st.popped }
  have hstep₁ : Step st st₁ := .find false (by simp [hactivity]) (hwaiting false)
  have hstep₂ : Step st₁ st₂ := .find true (by simp [st₁, withActivity, hactivity]) (hwaiting true)
  have hstep₃ : Step st₂ st₃ := .read false (by simp [st₂, st₁, withActivity]) (hread' false)
  have hstep₄ : Step st₃ st₄ := .read true (by simp [st₃, st₂, withActivity]) (hread' true)
  have hstep₅ : Step st₄ st₅ := by
    refine .remove true (by simp [st₄, withActivity]) ?_
    change ((st.spool true).directory.join file).removeFile? st.tree = _
    rw [hdirectory, htree]
    exact hremove
  have hstep₆ : Step st₅ st₆ := .fail false (by simp [st₅, st₄, st₃, withActivity])
  have hstep₇ : Step st₆ st₇ := .give true (by simp [st₆, st₅, withActivity])
  have hrun := ((((((hsteps.tail hstep₁).tail hstep₂).tail hstep₃).tail hstep₄).tail hstep₅).tail
    hstep₆).tail hstep₇
  have hgiven : st₇.popped = [(file, "a")] := congrArg (List.cons _) hpopped
  obtain ⟨-, -, -, haccounted⟩ := delivered_at_most_once isOpened_twoUsers hrun
  have hmem : (file, "a") ∈ st₇.pushed := by
    change (file, "a") ∈ st.pushed
    rw [hpushed]
    exact List.mem_singleton_self _
  refine ⟨st₇, file, isOpened_twoUsers, hrun, hgiven, ?_⟩
  rcases haccounted file "a" hmem with hwaits | hheld | hpop
  · exact absurd (by simp [hgiven]) hwaits.notPopped
  · exact absurd (by simp [hgiven]) hheld.notPopped
  · exact hpop

end SharedSpool

end DataQuality
