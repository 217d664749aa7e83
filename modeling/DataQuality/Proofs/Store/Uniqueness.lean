import DataQuality.Proofs.Store.Ascent
import DataQuality.Proofs.Store.LastWrites

/-!
# One value for each key

A store keeps at most one info value for each identifier and organisation, and at most one row
for each run, package, organisation and rule. They are the ones that were committed last:
whatever was replaced before, within one commit or in an earlier one, is gone, and whatever was
rolled back has never been there. This holds whether or not the operations on the store have
succeeded, because one that fails does nothing to what is kept.
-/
namespace DataQuality

open DirectoryStore (Operation)
open Files (Route Tree)

namespace Event

/-- The events whose writes have been carried out. -/
def committed : List Event → List Event
  | [] => []
  | e :: later => if fate later = .committed then e :: committed later else committed later

/-- The last info value that was committed under an identifier for an organisation. -/
def lastInfo? (events : List Event) (i : InfoId) (o : OrganisationId) : Option InfoResult :=
  (committed events).reverse.findSome? fun
    | (.replaceInfo x, _) => if x.infoId = i ∧ x.organisationId = o then some x else none
    | _ => none

/-- What the last aggregation of a package in a run gave that was committed. -/
def lastRows? (events : List Event) (r : RuntimeId) (p : PackageId) : Option (List AggregateRow) :=
  (committed events).reverse.findSome? fun
    | (.aggregate r' p', .rows rows) => if r' = r ∧ p' = p then some rows else none
    | _ => none

/-- An aggregation has given a count of results. -/
def GivesCount : Event → Prop
  | (.aggregate r p, .rows rows) => ∃ results, Tables.IsCount r p results rows
  | _ => True

theorem writes_committed (events : List Event) :
    writes .committed events = (committed events).filterMap staged? := by
  induction events with
  | nil => rfl
  | cons e later ih =>
    rw [writes, committed, ih]
    split
    · rw [List.filterMap_cons]
      cases e.staged? <;> rfl
    · rfl

theorem mem_of_mem_committed {events : List Event} {e : Event} (h : e ∈ committed events) :
    e ∈ events := by
  induction events with
  | nil => cases h
  | cons e' later ih =>
    rw [committed] at h
    split at h
    · exact (List.mem_cons.1 h).elim (fun he => he ▸ List.mem_cons_self)
        fun h => List.mem_cons_of_mem _ (ih h)
    · exact List.mem_cons_of_mem _ (ih h)

/-- The last info value among the committed writes. -/
theorem getLast?_infosOf (events : List Event) (i : InfoId) (o : OrganisationId) :
    ((Write.infosOf (writes .committed events)).filter
      fun x => x.infoId == i && x.organisationId == o).getLast? = lastInfo? events i o := by
  rw [writes_committed, Write.infosOf, List.filterMap_filterMap, ← List.filterMap_eq_filter,
    List.filterMap_filterMap, List.getLast?_filterMap, lastInfo?]
  congr 1
  funext e
  obtain ⟨op, reply⟩ := e
  cases op with
  | replaceInfo x => simp [staged?, Option.guard]
  | _ => cases reply <;> rfl

/-- The rows of the last aggregation among the committed writes. -/
theorem getLast?_rowsFor (events : List Event) (r : RuntimeId) (p : PackageId) :
    (Write.rowsFor r p (writes .committed events)).getLast? = lastRows? events r p := by
  rw [writes_committed, Write.rowsFor, List.filterMap_filterMap, List.getLast?_filterMap, lastRows?]
  congr 1
  funext e
  obtain ⟨op, reply⟩ := e
  cases op <;> cases reply <;> rfl

theorem putsCount_of_staged? {e : Event} (h : e.GivesCount) {w : Write} (hw : e.staged? = some w) :
    w.PutsCount := by
  obtain ⟨op, reply⟩ := e
  cases op <;> cases reply <;> cases hw <;> exact h

/-- Aggregations give counts of results. -/
theorem givesCount_reply (base : Tables) (events : List Event) (op : Operation) :
    GivesCount (op, reply base events op) := by
  cases op with
  | aggregate r p => exact ⟨_, (tables base events).isCount_aggregate r p⟩
  | _ => trivial

end Event

/-- What an operation has done to the ledger, if it has ended like this. Organisations are registered
even if they cannot be written to their file, and a rollback always drops what is staged. -/
def event? : Operation → Except StoreError Reply → Option Event
  | .setOrganisations p targets, _ => some (.setOrganisations p targets, .done)
  | .rollback, _ => some (.rollback, .done)
  | op, .ok reply => some (op, reply)
  | _, .error _ => none

section Histories

variable {σ : Type} [Datastore σ]

/-- Carries out operations one after the other, whether or not they succeed. Gives what they have
done, and the store after them. -/
def history (register : PackageId → List Target → StoreM σ Unit) :
    List Operation → σ → List Event × σ
  | [], s => ([], s)
  | op :: rest, s =>
    let ended := (answer register op).run s
    let later := history register rest ended.2
    ((event? op ended.1).toList ++ later.1, later.2)

/-- A call whose result is made a reply succeeds with what it is for, or fails and does nothing. -/
theorem Obeys.answer {α : Type} {call : StoreM σ α} {does : Ledger → α × Ledger}
    (h : Obeys call does) (reply : α → Reply) (s : σ) :
    (∃ a s', (call >>= fun a => pure (reply a)).run s = (.ok (reply a), s') ∧
      does (Datastore.ledger s) = (a, Datastore.ledger s')) ∨
    ∃ e s', (call >>= fun a => pure (reply a)).run s = (.error e, s') ∧
      Datastore.ledger s' = Datastore.ledger s := by
  rw [run_bind]
  rcases hcall : call.run s with ⟨r, s'⟩
  have hobeys := h s
  rw [hcall] at hobeys
  rcases hobeys with ⟨a, hok, hdoes⟩ | ⟨⟨e, herror⟩, hsame⟩
  · obtain rfl : r = .ok a := hok
    exact .inl ⟨a, s', rfl, hdoes⟩
  · obtain rfl : r = .error e := herror
    exact .inr ⟨e, s', rfl, hsame⟩

variable [LawfulStore σ] {register : PackageId → List Target → StoreM σ Unit}
  (hregister : ∀ p targets s, Datastore.ledger ((register p targets).run s).2 =
    { Datastore.ledger s with tables := (Datastore.ledger s).tables.setOrganisations p targets })
include hregister

/-- An operation either does what it is for, and is an event, or does nothing to the ledger, and is
none. -/
theorem perform_of_event? (op : Operation) (s : σ) :
    (∃ reply, event? op ((answer register op).run s).1 = some (op, reply) ∧
      (Datastore.ledger s).perform op = (reply, Datastore.ledger ((answer register op).run s).2)) ∨
    event? op ((answer register op).run s).1 = none ∧
      Datastore.ledger ((answer register op).run s).2 = Datastore.ledger s := by
  have hcall {α : Type} {call : StoreM σ α} {does : Ledger → α × Ledger} (h : Obeys call does)
      (reply : α → Reply) (hevent : ∀ outcome, event? op outcome = outcome.toOption.map (op, ·))
      (hperform : ∀ l : Ledger, l.perform op = (reply (does l).1, (does l).2))
      (hanswer : answer register op = call >>= fun a => pure (reply a)) :
      (∃ reply, event? op ((answer register op).run s).1 = some (op, reply) ∧
        (Datastore.ledger s).perform op = (reply, Datastore.ledger ((answer register op).run s).2)) ∨
      event? op ((answer register op).run s).1 = none ∧
        Datastore.ledger ((answer register op).run s).2 = Datastore.ledger s := by
    rw [hevent, hanswer, hperform]
    rcases h.answer reply s with ⟨a, s', hrun, hdoes⟩ | ⟨e, s', hrun, hsame⟩
    · rw [hrun, hdoes]
      exact .inl ⟨reply a, rfl, rfl⟩
    · rw [hrun]
      exact .inr ⟨rfl, hsame⟩
  have hevent {op : Operation} (hop : ∀ r, event? op (.ok r) = some (op, r))
      (hop' : ∀ e, event? op (.error e) = none) (outcome : Except StoreError Reply) :
      event? op outcome = outcome.toOption.map (op, ·) := by
    cases outcome with
    | error e => exact hop' e
    | ok r => exact hop r
  cases op with
  | setOrganisations p targets =>
    refine .inl ⟨.done, rfl, ?_⟩
    rw [answer, run_bind_pure, hregister]
    rfl
  | rollback =>
    refine .inl ⟨.done, rfl, ?_⟩
    rw [answer, run_bind_pure, LawfulStore.rollback]
    rfl
  | startRun now =>
    exact hcall (LawfulStore.startRun now) .run (hevent (fun _ => rfl) fun _ => rfl) (fun _ => rfl) rfl
  | aggregate r p =>
    exact hcall (LawfulStore.aggregate r p) .rows (hevent (fun _ => rfl) fun _ => rfl) (fun _ => rfl)
      rfl
  | commit message =>
    exact hcall (LawfulStore.commit message) (fun _ => .done) (hevent (fun _ => rfl) fun _ => rfl)
      (fun _ => rfl) rfl
  | _ =>
    exact hcall (LawfulStore.stage _) (fun _ => .done) (hevent (fun _ => rfl) fun _ => rfl)
      (fun _ => rfl) rfl

/-- After a history, the ledger is the one that its events account for. -/
theorem ledger_history {base : Tables} {events : List Event} (ops : List Operation) {s : σ}
    (hledger : Datastore.ledger s = Event.ledger base events)
    (hcounts : ∀ e ∈ events, e.GivesCount) :
    Datastore.ledger (history register ops s).2 =
        Event.ledger base (events ++ (history register ops s).1) ∧
      ∀ e ∈ events ++ (history register ops s).1, e.GivesCount := by
  induction ops generalizing s events with
  | nil => exact ⟨by rw [history, List.append_nil, hledger], by simpa [history] using hcounts⟩
  | cons op rest ih =>
    rw [history]
    dsimp only
    rcases perform_of_event? hregister op s with ⟨reply, hevent, hperform⟩ | ⟨hevent, hsame⟩
    · rw [hevent, Option.toList_some, ← List.append_assoc]
      rw [hledger, Event.perform_ledger] at hperform
      obtain ⟨rfl, hnext⟩ := Prod.mk.inj hperform
      refine ih hnext.symm fun e he => ?_
      rcases List.mem_append.1 he with he | he
      · exact hcounts e he
      · rw [List.mem_singleton.1 he]
        exact Event.givesCount_reply base events op
    · rw [hevent, Option.toList_none, List.nil_append]
      exact ih (hsame.trans hledger) hcounts

end Histories

/-- Nothing is staged, and there are no info values and no rows. -/
structure Ledger.IsBlank (l : Ledger) : Prop where
  staged : l.staged = []
  infoResults : l.tables.infoResults = []
  aggregates : l.tables.aggregates = []

/-- After some events, the tables hold one info value for each identifier and organisation and one row
for each run, package, organisation and rule: those committed last. Deletions of results have made no
difference to them. -/
structure Tables.KeepsLast (base t : Tables) (events : List Event) : Prop where
  infoKeys : (t.infoResults.map fun x => (x.infoId, x.organisationId)).Nodup
  infos : ∀ i o, t.infoResults.filter (fun x => x.infoId == i && x.organisationId == o) =
    (Event.lastInfo? events i o).toList
  rowKeys : (t.aggregates.map fun row =>
    (row.runtimeId, row.packageId, row.organisationId, row.testId)).Nodup
  rows : ∀ r p, t.aggregates.filter (fun row => row.runtimeId == r && row.packageId == p) =
    (Event.lastRows? events r p).getD []
  undeleted : t.SameValues (base.applyAll ((Event.writes .committed events).filter (!·.isDeletion)))

/-- The tables that events account for keep what was committed last. -/
theorem Event.keepsLast_tables {base : Tables} {events : List Event}
    (hinfos : base.infoResults = []) (hrows : base.aggregates = [])
    (hcounts : ∀ e ∈ events, e.GivesCount) : base.KeepsLast (tables base events) events := by
  have hputs : ∀ w ∈ writes .committed events, w.PutsCount := by
    intro w hw
    rw [writes_committed] at hw
    obtain ⟨e, he, hstaged⟩ := List.mem_filterMap.1 hw
    exact putsCount_of_staged? (hcounts e (mem_of_mem_committed he)) hstaged
  have hunder (i : InfoId) (o : OrganisationId) :
      (tables base events).infoResults.filter (fun x => x.infoId == i && x.organisationId == o) =
        (lastInfo? events i o).toList := by
    rw [← getLast?_infosOf]
    exact Tables.infoUnder_applyAll hinfos _ i o
  have hof (r : RuntimeId) (p : PackageId) :
      (tables base events).aggregatesOf r p = (lastRows? events r p).getD [] := by
    have hnone : base.aggregatesOf r p = [] := by rw [Tables.aggregatesOf, hrows, List.filter_nil]
    rw [← getLast?_rowsFor, ← hnone]
    exact Tables.aggregatesOf_applyAll hputs base r p
  have hnodup (r : RuntimeId) (p : PackageId) :
      (((tables base events).aggregatesOf r p).map (·.countKey)).Nodup := by
    rw [hof]
    cases hlast : lastRows? events r p with
    | none => exact List.nodup_nil
    | some rows =>
      obtain ⟨⟨op, reply⟩, he, hrows⟩ := List.exists_of_findSome?_eq_some hlast
      have hcount := hcounts _ (mem_of_mem_committed (List.mem_reverse.1 he))
      cases op <;> cases reply <;> try cases hrows
      dsimp only at hrows
      split at hrows
      · obtain rfl := Option.some.inj hrows
        obtain ⟨results, hcount⟩ := hcount
        exact hcount.nodup_keys
      · cases hrows
  have hsame : base.SameValues base := ⟨rfl, rfl⟩
  refine ⟨List.nodup_iff_count_le_one.2 fun key => ?_, hunder, ?_, hof, hsame.applyAll_filter _⟩
  · obtain ⟨i, o⟩ := key
    have hone : ((lastInfo? events i o).toList).length ≤ 1 := by
      cases lastInfo? events i o <;> simp
    rw [← hunder, ← List.countP_eq_length_filter] at hone
    rw [List.count, List.countP_map]
    exact hone
  · exact Tables.nodup_rowKeys hnodup

/-- Whatever is done to a store in memory or in a directory that held no info values and no rows, and
whether or not it succeeds, the store keeps one info value for each identifier and organisation and
one row for each run, package, organisation and rule, those committed last. -/
theorem keepsLast_history :
    (∀ (m : MemoryStore) (ops : List Operation), m.ledger.IsBlank →
      let run := history MemoryStore.setOrganisations ops m
      m.ledger.tables.KeepsLast run.2.ledger.tables run.1) ∧
    ∀ (s : DirectoryStore) (ops : List Operation), s.ledger.IsBlank →
      let run := history DirectoryStore.setOrganisations ops s
      s.ledger.tables.KeepsLast run.2.ledger.tables run.1 := by
  have hblank {l : Ledger} (h : l.IsBlank) : l = Event.ledger l.tables [] := by
    obtain ⟨hstaged, -, -⟩ := h
    obtain ⟨t, staged⟩ := l
    subst hstaged
    rfl
  constructor
  · intro m ops hm run
    have hregister (p : PackageId) (targets : List Target) (m : MemoryStore) :
        Datastore.ledger ((MemoryStore.setOrganisations p targets).run m).2 =
          { Datastore.ledger m with
            tables := (Datastore.ledger m).tables.setOrganisations p targets } := rfl
    obtain ⟨hledger, hcounts⟩ := ledger_history hregister ops (hblank hm) (by simp)
    have hkeeps := Event.keepsLast_tables hm.infoResults hm.aggregates hcounts
    rw [List.nil_append] at hledger hkeeps
    have htables : run.2.ledger.tables = Event.tables m.ledger.tables run.1 :=
      congrArg Ledger.tables hledger
    rw [htables]
    exact hkeeps
  · intro s ops hs run
    obtain ⟨hledger, hcounts⟩ :=
      ledger_history DirectoryStore.ledger_setOrganisations ops (hblank hs) (by simp)
    have hkeeps := Event.keepsLast_tables hs.infoResults hs.aggregates hcounts
    rw [List.nil_append] at hledger hkeeps
    have htables : run.2.ledger.tables = Event.tables s.ledger.tables run.1 :=
      congrArg Ledger.tables hledger
    rw [htables]
    exact hkeeps

/-- A value is replaced within a commit, for another package, and once more before a rollback; rows
are put, the results that they count are deleted, and a new aggregation is rolled back. -/
theorem keepsLast_history_replaced :
    let value (p : PackageId) (x : Float) : InfoResult := ⟨⟨1⟩, p, ⟨5⟩, ⟨2⟩, x⟩
    let ops : List Operation := [.replaceInfo (value ⟨7⟩ 1), .replaceInfo (value ⟨8⟩ 2),
      .saveResult ⟨⟨1⟩, ⟨7⟩, ⟨3⟩, .fail, none, 0, some ⟨5⟩⟩, .commit "", .replaceInfo (value ⟨7⟩ 3),
      .rollback, .aggregate ⟨1⟩ ⟨7⟩, .commit "", .deleteResults ⟨7⟩, .commit "", .aggregate ⟨1⟩ ⟨7⟩,
      .rollback]
    let t : Tree := { entries := [(["store"], .folder)] }
    let directory : Route := ⟨[], "store"⟩
    let s : DirectoryStore := ⟨t, directory, .ofTables (Tables.listing [])⟩
    let kept (t : Tables) :=
      (t.infoResults.filter fun x => x.infoId == ⟨2⟩ && x.organisationId == ⟨5⟩).map (·.packageId) =
        [⟨8⟩] ∧
      t.aggregates.filter (fun row => row.runtimeId == ⟨1⟩ && row.packageId == ⟨7⟩) =
        [⟨⟨1⟩, ⟨7⟩, some ⟨5⟩, ⟨3⟩, 0, 1, 0⟩]
    DirectoryStore.inFolder t directory = (.ok s, t) ∧ s.ledger.IsBlank ∧
      MemoryStore.empty.ledger.IsBlank ∧
      kept (history MemoryStore.setOrganisations ops .empty).2.ledger.tables ∧
      kept (history DirectoryStore.setOrganisations ops s).2.ledger.tables := by
  intro value ops t directory s kept
  have hfollow : directory.follow t = .ok ["store"] := by decide +kernel
  have hopen : DirectoryStore.inFolder t directory = (.ok s, t) :=
    DirectoryStore.inFolder_of_missing (Route.makeFolder_run hfollow rfl) (by decide +kernel)
      (by decide +kernel)
  have hs : s.ledger.IsBlank := ⟨rfl, rfl, rfl⟩
  have hm : MemoryStore.empty.ledger.IsBlank := ⟨rfl, rfl, rfl⟩
  have hkept {base t : Tables} {events : List Event} (h : base.KeepsLast t events)
      (hinfo : (Event.lastInfo? events ⟨2⟩ ⟨5⟩).map (·.packageId) = some ⟨8⟩)
      (hrows : Event.lastRows? events ⟨1⟩ ⟨7⟩ = some [⟨⟨1⟩, ⟨7⟩, some ⟨5⟩, ⟨3⟩, 0, 1, 0⟩]) :
      kept t := by
    obtain ⟨x, hx, hpackage⟩ := Option.map_eq_some_iff.1 hinfo
    unfold kept
    rw [h.infos, h.rows, hx, hrows, ← hpackage]
    exact ⟨rfl, rfl⟩
  exact ⟨hopen, hs, hm,
    hkept (keepsLast_history.1 .empty ops hm) (by decide +kernel) (by decide +kernel),
    hkept (keepsLast_history.2 s ops hs) (by decide +kernel) (by decide +kernel)⟩

end DataQuality
