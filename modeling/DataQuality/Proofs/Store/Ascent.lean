import DataQuality.Proofs.Store.Agreement
import DataQuality.Proofs.Store.Opening
import DataQuality.Proofs.Store.Runs

/-!
# Runs in ascending order

Whatever is done to a store, its runs are those from before, or the first of them, or one
more with the next number. An operation adds one run at most, also if it fails; a rollback
drops the runs that are staged, and so does opening a directory again. The journal may then
be replayed as other writes than those that were committed, but their runs have the same
numbers. So the runs stay in ascending order.
-/
namespace DataQuality

open DirectoryStore (Operation)
open Files (Path Route Tree)

instance lawfulOrderMax_int64 : Std.LawfulOrderMax Int64 where
  max_le_iff a b c := by
    change (if a ≤ b then b else a) ≤ c ↔ _
    simp only [Int64.le_iff_toInt_le]
    split <;> omega
  max_eq_or a b := by
    change (if a ≤ b then b else a) = a ∨ (if a ≤ b then b else a) = b
    split <;> simp

namespace Ledger

variable {l l' : Ledger}

/-- No run has a greater number than the latest one. -/
theorem toInt_le_latestRun {r : RuntimeId} (h : r ∈ l.startedRuns) : r.toInt ≤ l.latestRun := by
  have hmem : r.value ∈ l.startedRuns.map Id.value := List.mem_map_of_mem h
  unfold latestRun
  cases hmax : (l.startedRuns.map Id.value).max? with
  | none =>
    rw [List.max?_eq_none_iff.1 hmax] at hmem
    cases hmem
  | some greatest => exact Int64.le_iff_toInt_le.1 ((List.max?_eq_some_iff.1 hmax).2 _ hmem)

theorem latestRun_le {n : Int} (hn : 0 ≤ n) (h : ∀ r ∈ l.startedRuns, r.toInt ≤ n) :
    l.latestRun ≤ n := by
  unfold latestRun
  cases hmax : (l.startedRuns.map Id.value).max? with
  | none => exact hn
  | some greatest =>
    obtain ⟨r, hr, rfl⟩ := List.mem_map.1 (List.max?_eq_some_iff.1 hmax).1
    exact h r hr

/-- The runs are those from before, or the first of them, or one more with the next number. -/
def Follows (l' l : Ledger) : Prop :=
  l'.startedRuns <+: l.startedRuns ++ [l.tables.nextRuntimeId l.staged]

theorem follows_of_eq (h : l'.startedRuns = l.startedRuns) : l'.Follows l := by
  unfold Follows
  rw [h]
  exact List.prefix_append _ _

theorem follows_stage {w : Write} (h : ∀ run, w ≠ .startRun run) : (l.stage w).Follows l := by
  apply follows_of_eq
  change _ ++ List.filterMap _ (l.staged ++ [w]) = _
  rw [List.filterMap_append]
  cases w with
  | startRun run => exact absurd rfl (h run)
  | _ => exact congrArg _ (List.append_nil _)

theorem follows_startRun (l : Ledger) (now : Instant) : (l.startRun now).2.Follows l := by
  unfold Follows
  rw [startedRuns_startRun]
  exact List.prefix_rfl

theorem follows_discard (l : Ledger) : l.discard.Follows l := by
  change _ ++ [] <+: _
  rw [List.append_nil]
  exact (List.prefix_append _ _).trans (List.prefix_append _ _)

theorem follows_perform (l : Ledger) (op : Operation) : (l.perform op).2.Follows l := by
  cases op with
  | startRun now => exact l.follows_startRun now
  | setOrganisations p targets => exact follows_of_eq rfl
  | commit message => exact follows_of_eq l.startedRuns_settle
  | rollback => exact l.follows_discard
  | _ => exact follows_stage nofun

/-- The runs that were started, committed or staged, are in ascending order. -/
def Ascends (l : Ledger) : Prop := l.startedRuns.Pairwise fun a b => a.toInt < b.toInt

theorem toInt_nextRuntimeId (hbound : l.latestRun < 2 ^ 63 - 1) :
    (l.tables.nextRuntimeId l.staged).toInt = l.latestRun + 1 :=
  l.id_startRun ⟨0, 0⟩ (by omega)

/-- The next run is beyond all others. -/
theorem lt_nextRuntimeId (hbound : l.latestRun < 2 ^ 63 - 1) {r : RuntimeId}
    (h : r ∈ l.startedRuns) : r.toInt < (l.tables.nextRuntimeId l.staged).toInt := by
  rw [toInt_nextRuntimeId hbound]
  exact Int.lt_add_one_of_le (toInt_le_latestRun h)

/-- The numbers of runs grow by one at most. -/
theorem Follows.latestRun_le (hfollows : l'.Follows l) {n : Int} (hn : 0 ≤ n)
    (h : l.latestRun ≤ n) (hbound : n < 2 ^ 63 - 1) : l'.latestRun ≤ n + 1 := by
  refine Ledger.latestRun_le (by omega) fun r hr => ?_
  rcases List.mem_append.1 (hfollows.mem hr) with hr | hr
  · have hle := toInt_le_latestRun hr
    omega
  · rw [List.mem_singleton.1 hr, toInt_nextRuntimeId (by omega)]
    omega

theorem Ascends.of_follows (h : l.Ascends) (hbound : l.latestRun < 2 ^ 63 - 1)
    (hfollows : l'.Follows l) : l'.Ascends := by
  have hall : (l.startedRuns ++ [l.tables.nextRuntimeId l.staged]).Pairwise
      fun a b => a.toInt < b.toInt := by
    refine List.pairwise_append.2 ⟨h, List.pairwise_singleton _ _, fun r hr next hnext => ?_⟩
    rw [List.mem_singleton.1 hnext]
    exact lt_nextRuntimeId hbound hr
  exact hall.sublist hfollows.sublist

end Ledger

section Stores

variable {σ α : Type}

/-- What is made of the result of a call changes no store. -/
theorem run_bind_pure {β : Type} (call : StoreM σ α) (f : α → β) (s : σ) :
    ((call >>= fun a => pure (f a)).run s).2 = (call.run s).2 := by
  rw [run_bind]
  rcases call.run s with ⟨_ | a, s'⟩ <;> rfl

variable [Datastore σ]

/-- What a store promises of its runs: a new one is beyond all that were started, be they
committed or staged, and the committed ones are in ascending order. -/
structure HasRisingRuns (s : σ) : Prop where
  next (now : Instant) : ∃ id s', (Datastore.startRun now).run s = (.ok id, s') ∧
    ∀ r ∈ (Datastore.ledger s).startedRuns, r.toInt < id.toInt
  committed : ((Datastore.ledger s).tables.runs.map (·.id)).Pairwise fun a b => a.toInt < b.toInt

theorem hasRisingRuns_of_ascends {s : σ} (h : (Datastore.ledger s).Ascends)
    (hbound : (Datastore.ledger s).latestRun < 2 ^ 63 - 1)
    (hstart : ∀ now, ((Datastore.startRun now).run s).1 =
      .ok ((Datastore.ledger s).startRun now).1) : HasRisingRuns s where
  next now := ⟨_, _, Prod.ext (hstart now) rfl, fun _ hr => Ledger.lt_nextRuntimeId hbound hr⟩
  committed := h.sublist (List.sublist_append_left _ _)

/-- A call that fails has left the ledger as it was. -/
theorem Obeys.ledger_eq_or {call : StoreM σ α} {does : Ledger → α × Ledger} (h : Obeys call does)
    (s : σ) : Datastore.ledger (call.run s).2 = (does (Datastore.ledger s)).2 ∨
      Datastore.ledger (call.run s).2 = Datastore.ledger s := by
  rcases h s with ⟨a, -, hdoes⟩ | ⟨-, hsame⟩
  · exact .inl (congrArg Prod.snd hdoes).symm
  · exact .inr hsame

/-- An operation does to the ledger what it is for, or nothing at all. -/
theorem ledger_answer_eq_or [LawfulStore σ] {register : PackageId → List Target → StoreM σ Unit}
    (hregister : ∀ p targets s, Datastore.ledger ((register p targets).run s).2 =
      { Datastore.ledger s with tables := (Datastore.ledger s).tables.setOrganisations p targets })
    (op : Operation) (s : σ) :
    Datastore.ledger ((answer register op).run s).2 = ((Datastore.ledger s).perform op).2 ∨
      Datastore.ledger ((answer register op).run s).2 = Datastore.ledger s := by
  cases op <;> unfold answer <;> rw [run_bind_pure]
  case setOrganisations p targets => exact .inl (hregister p targets s)
  case startRun now => exact (LawfulStore.startRun now).ledger_eq_or s
  case aggregate r p => exact (LawfulStore.aggregate r p).ledger_eq_or s
  case commit message => exact (LawfulStore.commit message).ledger_eq_or s
  case rollback => exact .inl (LawfulStore.rollback s)
  all_goals exact (LawfulStore.stage _).ledger_eq_or s

/-- An operation adds one run at most. -/
theorem follows_answer [LawfulStore σ] {register : PackageId → List Target → StoreM σ Unit}
    (hregister : ∀ p targets s, Datastore.ledger ((register p targets).run s).2 =
      { Datastore.ledger s with tables := (Datastore.ledger s).tables.setOrganisations p targets })
    (op : Operation) (s : σ) :
    (Datastore.ledger ((answer register op).run s).2).Follows (Datastore.ledger s) := by
  rcases ledger_answer_eq_or hregister op s with h | h <;> rw [h]
  · exact Ledger.follows_perform _ op
  · exact Ledger.follows_of_eq rfl

section Steps

variable {β : Type} (after : σ → β → σ) (Keeps : σ → Prop)
  (hstep : ∀ s, Keeps s → ∀ step, Keeps (after s step) ∧
    (Datastore.ledger (after s step)).Follows (Datastore.ledger s))
include hstep

/-- If each step keeps something from which it follows that it adds one run at most, runs
stay in ascending order as long as their numbers fit. -/
theorem ascends_foldl {s : σ} (hkeeps : Keeps s) (hascends : (Datastore.ledger s).Ascends)
    {steps : List β} (hbound : ∀ before, before <+: steps →
      (Datastore.ledger (before.foldl after s)).latestRun < 2 ^ 63 - 1) :
    (Datastore.ledger (steps.foldl after s)).Ascends := by
  induction steps generalizing s with
  | nil => exact hascends
  | cons step rest ih =>
    obtain ⟨hnext, hfollows⟩ := hstep s hkeeps step
    have hfirst := hbound [] List.nil_prefix
    exact ih hnext (hascends.of_follows hfirst hfollows) fun before hbefore =>
      hbound (step :: before) (List.cons_prefix_cons.2 ⟨rfl, hbefore⟩)

/-- The numbers of runs fit if there are not too many steps. -/
theorem latestRun_foldl_le {s : σ} (hkeeps : Keeps s) {n : Nat} {steps : List β}
    (hn : (Datastore.ledger s).latestRun ≤ n) (hbound : n + steps.length ≤ 2 ^ 63 - 1) :
    (Datastore.ledger (steps.foldl after s)).latestRun ≤ n + steps.length := by
  induction steps generalizing s n with
  | nil => exact hn
  | cons step rest ih =>
    obtain ⟨hnext, hfollows⟩ := hstep s hkeeps step
    rw [List.length_cons] at hbound ⊢
    have hlatest := hfollows.latestRun_le (by omega) hn (by omega)
    have hrest := ih hnext (n := n + 1) (by omega) (by omega)
    rw [List.foldl_cons]
    omega

end Steps

end Stores

namespace Write

/-- A write is read as one that starts the same run, or as one that starts none either. -/
theorem startedRuns_of_reread? {w v : Write} (h : w.reread? = some v) :
    Tables.startedRuns [v] = Tables.startedRuns [w] := by
  cases w with
  | replaceInfo r =>
    unfold reread? at h
    obtain ⟨x, -, rfl⟩ := Option.map_eq_some_iff.1 h
    rfl
  | startRun run =>
    unfold reread? at h
    obtain ⟨time, -, rfl⟩ := Option.map_eq_some_iff.1 h
    rfl
  | _ => rw [Option.some.inj h]

/-- Writes are read as writes that start the same runs. -/
theorem startedRuns_of_mapM {writes read : List Write} (h : writes.mapM reread? = some read) :
    Tables.startedRuns read = Tables.startedRuns writes := by
  induction writes generalizing read with
  | nil =>
    cases h
    rfl
  | cons w rest ih =>
    rw [List.mapM_cons] at h
    obtain ⟨v, hv, h⟩ := Option.bind_eq_some_iff.1 h
    obtain ⟨vs, hvs, h⟩ := Option.bind_eq_some_iff.1 h
    cases h
    have hsplit (u : Write) (us : List Write) :
        Tables.startedRuns (u :: us) = Tables.startedRuns [u] ++ Tables.startedRuns us := by
      unfold Tables.startedRuns
      rw [← List.filterMap_append, List.singleton_append]
    rw [hsplit, hsplit w, startedRuns_of_reread? hv, ih hvs]

end Write

/-- When the line of a commit is replayed, its runs come behind those that are there. -/
theorem Tables.ids_of_replayed? {t t' : Tables} {writes : List Write}
    (h : t.replayed? writes = some t') :
    t'.runs.map (·.id) = t.runs.map (·.id) ++ startedRuns writes := by
  obtain ⟨read, hread, rfl⟩ := Option.map_eq_some_iff.1 h
  rw [ids_applyAll, Write.startedRuns_of_mapM hread]

namespace DirectoryStore

variable {base : Path} {journal : String} {s : DirectoryStore}

/-- What is done to a store in a directory: an operation, or opening the directory again. -/
inductive Step
  | perform (op : Operation)
  | reopen

/-- The store after a step, whether or not that succeeds. If the directory cannot be opened
again, the store from before is still there. -/
def after (s : DirectoryStore) : Step → DirectoryStore
  | .perform op => ((answer setOrganisations op).run s).2
  | .reopen =>
    match inFolder s.tree s.directory with
    | (.ok reopened, _) => reopened
    | (.error _, tree) => { s with tree := tree }

/-- What is true of a store whatever was done to it, be it with success or not: its folder has
its journal, and if that can be replayed at all, the runs in it are the committed ones. -/
structure Logged (s : DirectoryStore) (base : Path) (journal : String) : Prop where
  home : Home s.tree s.directory base
  file : HoldsJournal s.tree base journal
  complete : Journal.IsComplete journal
  runs : ∀ {organisations tables},
    Journal.replay? (Tables.listing organisations) journal = some tables →
      tables.runs.map (·.id) = s.ledger.tables.runs.map (·.id)

theorem Stored.logged (h : Stored s base journal) : Logged s base journal where
  home := h.home
  file := h.file
  complete := h.complete
  runs {organisations tables} hreplay := by
    have hsame := Journal.replay?_withOrganisations
      (Tables.listing s.ledger.tables.organisations) organisations journal
    rw [h.tables, Option.map_some] at hsame
    change Journal.replay? (Tables.listing organisations) journal = _ at hsame
    rw [hreplay] at hsame
    rw [Option.some.inj hsame]

namespace Logged

/-- What is staged does not matter, nor do tables other than that of the runs. -/
theorem withLedger (h : Logged s base journal) {l : Ledger}
    (hl : l.tables.runs.map (·.id) = s.ledger.tables.runs.map (·.id)) :
    Logged { s with ledger := l } base journal where
  home := h.home
  file := h.file
  complete := h.complete
  runs hreplay := (h.runs hreplay).trans hl.symm

/-- A commit puts its runs behind the committed ones, in the tables and in the journal. -/
theorem commit (h : Logged s base journal) :
    ∃ journal', Logged (DirectoryStore.commit.run s).2 base journal' := by
  rw [commit_run]
  split
  · exact ⟨journal, h⟩
  · obtain ⟨tree, happend, hhome, hfile, -⟩ := h.home.append?_line h.file s.ledger.staged
    rw [happend]
    refine ⟨journal ++ Journal.line s.ledger.staged, hhome, hfile,
      Journal.isComplete_append_line _ _, fun {organisations tables} hreplay => ?_⟩
    rw [Journal.replay?_append_line h.complete] at hreplay
    obtain ⟨before, hbefore, hline⟩ := Option.bind_eq_some_iff.1 hreplay
    have hcommitted := Tables.ids_applyAll s.ledger.tables s.ledger.staged
    exact (Tables.ids_of_replayed? hline).trans ((h.runs hbefore) ▸ hcommitted.symm)

theorem setOrganisations (h : Logged s base journal) (p : PackageId) (targets : List Target) :
    Logged ((DirectoryStore.setOrganisations p targets).run s).2 base journal := by
  rw [setOrganisations_run]
  dsimp only
  generalize (organisationsText _).toUTF8 = content
  cases hwrite : (s.directory.join temporaryName).write? content s.tree with
  | none => exact h.withLedger rfl
  | some tree =>
    obtain ⟨t₁, t', hwrite', hrename, hhome, -, hsame⟩ := h.home.replace temporaryName_mem
      organisationsName_mem (Route.isUsable_of_write? hwrite) h.home.organisations content
    obtain rfl : t₁ = tree := Option.some.inj (hwrite'.symm.trans hwrite)
    dsimp only
    rw [hrename]
    refine ⟨hhome, ?_, h.complete, h.runs⟩
    unfold HoldsJournal
    rw [hsame journalName (by decide) (by decide)]
    exact h.file

/-- Opening the directory again gives the committed runs, or it fails; no file is changed. -/
theorem inFolder (h : Logged s base journal) :
    (∃ e, DirectoryStore.inFolder s.tree s.directory = (.error e, s.tree)) ∨
      ∃ tables, tables.runs.map (·.id) = s.ledger.tables.runs.map (·.id) ∧
        DirectoryStore.inFolder s.tree s.directory =
          (.ok { s with ledger := .ofTables tables }, s.tree) := by
  cases hload : loadOrganisations s.tree s.directory with
  | error e => exact .inl ⟨e, inFolder_of_error h.home.makeFolder hload⟩
  | ok organisations =>
    have hreplays {replayed : Option Tables}
        (hreplay : Journal.replay? (Tables.listing organisations) journal = replayed) :
        Replays { s with ledger := .ofTables (Tables.listing organisations) } base journal replayed :=
      ⟨h.home, hload, h.file, h.complete, hreplay⟩
    cases hreplay : Journal.replay? (Tables.listing organisations) journal with
    | none => exact .inl ⟨_, (hreplays hreplay).inFolder_eq⟩
    | some tables => exact .inr ⟨tables, h.runs hreplay, (hreplays hreplay).inFolder_eq⟩

/-- Each operation keeps the invariant, whether or not it succeeds. -/
theorem answer (h : Logged s base journal) (op : Operation) :
    ∃ journal', Logged ((answer DirectoryStore.setOrganisations op).run s).2 base journal' := by
  cases op with
  | commit message =>
    unfold DataQuality.answer
    rw [run_bind_pure]
    exact h.commit
  | setOrganisations p targets =>
    unfold DataQuality.answer
    rw [run_bind_pure]
    exact ⟨journal, h.setOrganisations p targets⟩
  | _ => exact ⟨journal, h.withLedger rfl⟩

end Logged

/-- Each step keeps the invariant, and adds one run at most. -/
theorem follows_after (s : DirectoryStore) (h : ∃ journal, Logged s base journal) (step : Step) :
    (∃ journal, Logged (s.after step) base journal) ∧ (s.after step).ledger.Follows s.ledger := by
  obtain ⟨journal, h⟩ := h
  cases step with
  | perform op => exact ⟨h.answer op, follows_answer ledger_setOrganisations op s⟩
  | reopen =>
    unfold after
    rcases h.inFolder with ⟨e, hopen⟩ | ⟨tables, hruns, hopen⟩
    · rw [hopen]
      exact ⟨⟨journal, h⟩, Ledger.follows_of_eq rfl⟩
    · have hdropped : (Ledger.ofTables tables).startedRuns = s.ledger.discard.startedRuns :=
        congrArg (· ++ []) hruns
      rw [hopen]
      refine ⟨⟨journal, h.withLedger hruns⟩, ?_⟩
      change (Ledger.ofTables tables).startedRuns <+: _
      rw [hdropped]
      exact s.ledger.follows_discard

def afterAll (s : DirectoryStore) (steps : List Step) : DirectoryStore :=
  steps.foldl after s

theorem latestRun_afterAll_le (h : Logged s base journal) {n : Nat} {steps : List Step}
    (hn : s.ledger.latestRun ≤ n) (hbound : n + steps.length ≤ 2 ^ 63 - 1) :
    (s.afterAll steps).ledger.latestRun ≤ n + steps.length :=
  latestRun_foldl_le after _ follows_after ⟨journal, h⟩ hn hbound

end DirectoryStore

namespace MemoryStore

def after (m : MemoryStore) (op : Operation) : MemoryStore := ((answer setOrganisations op).run m).2

/-- Each operation adds one run at most. -/
theorem follows_after (m : MemoryStore) (op : Operation) : (m.after op).ledger.Follows m.ledger :=
  follows_answer (fun _ _ _ => rfl) op m

def afterAll (m : MemoryStore) (ops : List Operation) : MemoryStore := ops.foldl after m

theorem latestRun_afterAll_le {m : MemoryStore} {n : Nat} {ops : List Operation}
    (hn : m.ledger.latestRun ≤ n) (hbound : n + ops.length ≤ 2 ^ 63 - 1) :
    (m.afterAll ops).ledger.latestRun ≤ n + ops.length :=
  latestRun_foldl_le after (fun _ => True) (fun m _ op => ⟨trivial, m.follows_after op⟩) trivial hn
    hbound

end MemoryStore

/-- Whatever is done to a store in memory or in a directory, also if the directory is opened
again, a new run is beyond all others, and the committed ones are in ascending order, if the
runs were in ascending order at first, as those of a new store are. -/
theorem hasRisingRuns_of_steps :
    (∀ (m : MemoryStore) (ops : List Operation), m.ledger.Ascends →
      (∀ before, before <+: ops → (m.afterAll before).ledger.latestRun < 2 ^ 63 - 1) →
      HasRisingRuns (m.afterAll ops)) ∧
    ∀ (t t₀ : Tree) (directory : Route) (base : Path) (s : DirectoryStore)
      (steps : List DirectoryStore.Step),
      DirectoryStore.inFolder t directory = (.ok s, t₀) →
      DirectoryStore.Home (directory.makeFolder.run t).2 directory base →
      s.ledger.Ascends →
      (∀ before, before <+: steps → (s.afterAll before).ledger.latestRun < 2 ^ 63 - 1) →
      HasRisingRuns (s.afterAll steps) := by
  constructor
  · intro m ops hascends hbound
    have hafter := ascends_foldl MemoryStore.after (fun _ => True)
      (fun m _ op => ⟨trivial, m.follows_after op⟩) trivial hascends hbound
    exact hasRisingRuns_of_ascends hafter (hbound ops List.prefix_rfl) fun _ => rfl
  · intro t t₀ directory base s steps hopen hhome hascends hbound
    obtain ⟨-, -, -, -, hstored⟩ :=
      hhome.stored_of_inFolder (DirectoryStore.inFolder_of_made hopen hhome)
    have hafter := ascends_foldl DirectoryStore.after _ DirectoryStore.follows_after
      (hstored.imp fun _ h => h.logged) hascends hbound
    exact hasRisingRuns_of_ascends hafter (hbound steps List.prefix_rfl) fun _ => rfl

/-- Runs that are dropped, by a rollback and by opening the directory again. -/
theorem hasRisingRuns_of_steps_dropped :
    let now : Instant := ⟨1700000000, 0⟩
    let ops : List Operation := [.startRun now, .startRun now, .commit "", .startRun now, .rollback,
      .startRun now]
    let t : Tree := { entries := [(["store"], .folder)] }
    let directory : Route := ⟨[], "store"⟩
    let s : DirectoryStore := ⟨t, directory, .ofTables (Tables.listing [])⟩
    let steps : List DirectoryStore.Step := ops.map .perform ++ [.reopen, .perform (.startRun now)]
    DirectoryStore.inFolder t directory = (.ok s, t) ∧
      HasRisingRuns (MemoryStore.empty.afterAll ops) ∧ HasRisingRuns (s.afterAll steps) ∧
      (MemoryStore.empty.afterAll ops).ledger.startedRuns = [⟨1⟩, ⟨2⟩, ⟨3⟩] := by
  intro now ops t directory s steps
  have hfollow : directory.follow t = .ok ["store"] := by decide +kernel
  have hmade : directory.makeFolder.run t = (.ok (), t) := Route.makeFolder_run hfollow rfl
  have hopen : DirectoryStore.inFolder t directory = (.ok s, t) :=
    DirectoryStore.inFolder_of_missing hmade (by decide +kernel) (by decide +kernel)
  have hhome : DirectoryStore.Home (directory.makeFolder.run t).2 directory ["store"] := by
    rw [hmade]
    exact .of_ungrouped rfl hfollow rfl (by decide +kernel) (by decide +kernel) (by decide +kernel)
  obtain ⟨-, -, -, -, journal, hstored⟩ :=
    hhome.stored_of_inFolder (DirectoryStore.inFolder_of_made hopen hhome)
  have hempty : s.ledger.Ascends := List.Pairwise.nil
  have hfit (before : List Operation) (h : before <+: ops) :
      (MemoryStore.empty.afterAll before).ledger.latestRun < 2 ^ 63 - 1 := by
    have hlength : before.length ≤ 6 := h.length_le
    have hlatest := MemoryStore.latestRun_afterAll_le (m := .empty) (n := 0) (by decide)
      (show 0 + before.length ≤ _ by omega)
    omega
  have hfit' (before : List DirectoryStore.Step) (h : before <+: steps) :
      (s.afterAll before).ledger.latestRun < 2 ^ 63 - 1 := by
    have hlength : before.length ≤ 8 := h.length_le
    have hlatest := DirectoryStore.latestRun_afterAll_le hstored.logged (n := 0) (by decide)
      (show 0 + before.length ≤ _ by omega)
    omega
  have hruns : (MemoryStore.empty.afterAll ops).ledger.startedRuns = [⟨1⟩, ⟨2⟩, ⟨3⟩] :=
    eq_of_beq (by decide +kernel)
  exact ⟨hopen, hasRisingRuns_of_steps.1 .empty ops .nil hfit,
    hasRisingRuns_of_steps.2 t t directory _ s steps hopen hhome hempty hfit', hruns⟩

end DataQuality
