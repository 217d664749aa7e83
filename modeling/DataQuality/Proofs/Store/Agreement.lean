import DataQuality.Proofs.Store.Durability

/-!
# Stores agree

What a store answers is written down here from the operations alone. A write is in effect
when the first commit or rollback after it is a commit; nothing that is still staged is
seen by a query or counted, but the identifier of a new run takes staged runs into
account. Stores in memory and stores in a directory give these answers, as long as no
file operation fails, and so each gives those of the other.
-/
namespace DataQuality

open DirectoryStore (Operation)
open Files (Route Tree)

/-- If a sequence of two calls succeeds, so do both. -/
theorem run_bind_ok {σ α β : Type} {call : StoreM σ α} {next : α → StoreM σ β} {s s' : σ} {b : β}
    (h : (call >>= next).run s = (.ok b, s')) :
    ∃ a s₁, call.run s = (.ok a, s₁) ∧ (next a).run s₁ = (.ok b, s') := by
  rw [run_bind] at h
  rcases hcall : call.run s with ⟨_ | a, s₁⟩
  · rw [hcall] at h
    cases h
  · rw [hcall] at h
    exact ⟨a, s₁, rfl, h⟩

/-- What an operation on a store gives. -/
inductive Reply
  | done
  | run (id : RuntimeId)
  | rows (rows : List AggregateRow)
  deriving DecidableEq

/-- The answers of a store to every query. -/
structure View where
  results : PackageId → List TestResult
  infoResults : OrganisationId → List InfoResult
  lastTestedRun? : PackageId → Option RuntimeId
  status? : PackageId → Option PackageStatus
  organisations : PackageId → Except StoreError (List Target)

/-- An operation that was carried out, and what it gave. -/
abbrev Event := Operation × Reply

namespace Event

def staged? : Event → Option Write
  | (.saveResult r, _) => some (.saveResult r)
  | (.deleteResults p, _) => some (.deleteResults p)
  | (.replaceInfo r, _) => some (.replaceInfo r)
  | (.startRun now, .run id) => some (.startRun ⟨id, now⟩)
  | (.recordTestrun p r, _) => some (.recordTestrun p r)
  | (.setStatus p status, _) => some (.setStatus p status)
  | (.aggregate r p, .rows rows) => some (.putAggregates r p rows)
  | _ => none

/-- What becomes of a write: it is carried out, or dropped, or it stays staged. -/
inductive Fate
  | committed
  | dropped
  | pending
  deriving DecidableEq

/-- What becomes of a write that is staged before these events: the first commit or
rollback among them decides. -/
def fate : List Event → Fate
  | [] => .pending
  | (.commit _, _) :: _ => .committed
  | (.rollback, _) :: _ => .dropped
  | _ :: later => fate later

/-- The writes of this fate, in the order in which they were staged. -/
def writes (f : Fate) : List Event → List Write
  | [] => []
  | e :: later => (if fate later = f then e.staged?.toList else []) ++ writes f later

/-- The organisations after the registrations among some events. -/
def registered (organisations : List (PackageId × List Target)) (events : List Event) :
    List (PackageId × List Target) :=
  events.foldl (fun all e =>
    match e.1 with
    | .setOrganisations p targets => Keyed.insert Id.before p targets all
    | _ => all) organisations

/-- The tables after some events: the committed writes are carried out, and organisations
are registered at once. -/
def tables (base : Tables) (events : List Event) : Tables :=
  { base.applyAll (writes .committed events) with
    organisations := registered base.organisations events }

def reply (base : Tables) (events : List Event) : Operation → Reply
  | .startRun _ => .run ((tables base events).nextRuntimeId (writes .pending events))
  | .aggregate r p => .rows ((tables base events).aggregate r p)
  | _ => .done

end Event

/-- The answers that tables give. -/
def Tables.view (t : Tables) : View :=
  ⟨t.resultsOf, t.infoOf, t.lastTestedRun?, t.statusOf?, fun p => .ok (t.organisationsOf p)⟩

/-- What each operation has to give, and what every query has to be answered after it. -/
def Event.expected (base : Tables) : List Event → List Operation → List (Reply × View)
  | _, [] => []
  | events, op :: rest =>
    let events' := events ++ [(op, reply base events op)]
    (reply base events op, (tables base events').view) :: expected base events' rest

variable {σ : Type} [Datastore σ]

/-- The answers of a store. -/
def view (s : σ) : View :=
  let t := (Datastore.ledger s).tables
  ⟨t.resultsOf, t.infoOf, t.lastTestedRun?, t.statusOf?, fun p =>
    ((Datastore.organisationsOf p).run s).1⟩

section Observing

variable (register : PackageId → List Target → StoreM σ Unit)

def answer : Operation → StoreM σ Reply
  | .saveResult r => do Datastore.stage (.saveResult r); return .done
  | .deleteResults p => do Datastore.stage (.deleteResults p); return .done
  | .replaceInfo r => do Datastore.stage (.replaceInfo r); return .done
  | .startRun now => do return .run (← Datastore.startRun now)
  | .recordTestrun p r => do Datastore.stage (.recordTestrun p r); return .done
  | .setStatus p status => do Datastore.stage (.setStatus p status); return .done
  | .aggregate r p => do return .rows (← Datastore.aggregate r p)
  | .setOrganisations p targets => do register p targets; return .done
  | .commit message => do Datastore.commit message; return .done
  | .rollback => do Datastore.rollback; return .done

/-- Carries out operations one after the other. Gives the reply to each of them, and the
answers to every query after it. -/
def observe : List Operation → StoreM σ (List (Reply × View))
  | [] => pure []
  | op :: rest => do
    let reply ← answer register op
    let seen := view (← get)
    let later ← observe rest
    return (reply, seen) :: later

end Observing

def Ledger.perform (l : Ledger) : Operation → Reply × Ledger
  | .saveResult r => (.done, l.stage (.saveResult r))
  | .deleteResults p => (.done, l.stage (.deleteResults p))
  | .replaceInfo r => (.done, l.stage (.replaceInfo r))
  | .startRun now => (.run (l.startRun now).1, (l.startRun now).2)
  | .recordTestrun p r => (.done, l.stage (.recordTestrun p r))
  | .setStatus p status => (.done, l.stage (.setStatus p status))
  | .aggregate r p => (.rows (l.aggregate r p).1, (l.aggregate r p).2)
  | .setOrganisations p targets => (.done, { l with tables := l.tables.setOrganisations p targets })
  | .commit _ => (.done, l.settle)
  | .rollback => (.done, l.discard)

namespace Event

variable {base : Tables} {events : List Event}

theorem fate_append (first second : List Event) :
    fate (first ++ second) = if fate first = .pending then fate second else fate first := by
  induction first with
  | nil => rfl
  | cons e rest ih =>
    obtain ⟨op, reply⟩ := e
    cases op <;> first | exact ih | rfl

/-- As long as some write is pending nothing later has been committed. -/
theorem writes_committed_of_pending (h : fate events = .pending) : writes .committed events = [] := by
  induction events with
  | nil => rfl
  | cons e rest ih =>
    have hrest : fate rest = .pending := by
      obtain ⟨op, reply⟩ := e
      cases op <;> first | exact h | cases h
    rw [writes, hrest, if_neg (by decide), ih hrest]
    rfl

/-- An event that is no commit or rollback leaves the fate of earlier writes open. -/
theorem writes_append_of_pending (events : List Event) (f : Fate) {e : Event} (he : fate [e] = .pending) :
    writes f (events ++ [e]) = writes f events ++ if f = .pending then e.staged?.toList else [] := by
  induction events with
  | nil =>
    change (if Fate.pending = f then e.staged?.toList else []) ++ [] = _
    rw [List.append_nil]
    simp only [eq_comm]
    rfl
  | cons e' rest ih =>
    have hfate : fate (rest ++ [e]) = fate rest := by
      rw [fate_append, he]
      split <;> simp_all
    rw [List.cons_append, writes, writes, ih, hfate, List.append_assoc]

/-- A commit carries out what is pending, after what has been committed before. -/
theorem writes_append_commit (events : List Event) (message : String) (reply : Reply) :
    writes .committed (events ++ [(.commit message, reply)]) =
        writes .committed events ++ writes .pending events ∧
      writes .pending (events ++ [(.commit message, reply)]) = [] := by
  induction events with
  | nil => exact ⟨rfl, rfl⟩
  | cons e rest ih =>
    obtain ⟨hcommitted, hpending⟩ := ih
    have hfate := fate_append rest [(.commit message, reply)]
    rw [List.cons_append, writes, writes, writes, writes, hcommitted, hpending, hfate]
    cases hrest : fate rest with
    | committed => simp
    | dropped => simp
    | pending => simp [writes_committed_of_pending hrest, fate]

/-- A rollback drops what is pending. -/
theorem writes_append_rollback (events : List Event) (reply : Reply) :
    writes .committed (events ++ [(.rollback, reply)]) = writes .committed events ∧
      writes .pending (events ++ [(.rollback, reply)]) = [] := by
  induction events with
  | nil => exact ⟨rfl, rfl⟩
  | cons e rest ih =>
    obtain ⟨hcommitted, hpending⟩ := ih
    have hfate := fate_append rest [(.rollback, reply)]
    rw [List.cons_append, writes, writes, writes, hcommitted, hpending, hfate]
    cases hrest : fate rest with
    | committed => simp
    | dropped => simp
    | pending => simp [fate]

theorem registered_append (organisations : List (PackageId × List Target)) (e : Event) :
    registered organisations (events ++ [e]) = registered (registered organisations events) [e] :=
  List.foldl_append

/-- The ledger after some events, if nothing was staged before them. -/
def ledger (base : Tables) (events : List Event) : Ledger :=
  ⟨tables base events, writes .pending events⟩

/-- A write that is staged is seen by nobody. -/
theorem ledger_append_staged {e : Event} {w : Write} (hfate : fate [e] = .pending)
    (hwrite : e.staged? = some w) (hkept : ∀ organisations, registered organisations [e] = organisations) :
    ledger base (events ++ [e]) = (ledger base events).stage w := by
  have hcommitted := writes_append_of_pending events .committed hfate
  have hpending := writes_append_of_pending events .pending hfate
  rw [hwrite, if_pos rfl] at hpending
  rw [if_neg (by decide), List.append_nil] at hcommitted
  unfold ledger tables
  rw [hcommitted, hpending, registered_append, hkept]
  rfl

theorem ledger_append_registered (p : PackageId) (targets : List Target) (reply : Reply) :
    ledger base (events ++ [(.setOrganisations p targets, reply)]) =
      { ledger base events with tables := (tables base events).setOrganisations p targets } := by
  have hwrites (f : Fate) : writes f (events ++ [(.setOrganisations p targets, reply)]) = writes f events := by
    rw [writes_append_of_pending events f rfl]
    simp [staged?]
  unfold ledger tables
  rw [hwrites, hwrites, registered_append]
  rfl

theorem ledger_append_commit (message : String) (reply : Reply) :
    ledger base (events ++ [(.commit message, reply)]) = (ledger base events).settle := by
  obtain ⟨hcommitted, hpending⟩ := writes_append_commit events message reply
  have hsettled := Tables.applyAll_withOrganisations (base.applyAll (writes .committed events))
    (registered base.organisations events) (writes .pending events)
  unfold ledger tables Ledger.settle
  dsimp only
  rw [hcommitted, hpending, registered_append, Tables.applyAll_append, hsettled]
  rfl

theorem ledger_append_rollback (reply : Reply) :
    ledger base (events ++ [(.rollback, reply)]) = (ledger base events).discard := by
  obtain ⟨hcommitted, hpending⟩ := writes_append_rollback events reply
  unfold ledger tables
  rw [hcommitted, hpending, registered_append]
  rfl

/-- An operation on the ledger after some events gives what it has to give, and leaves the
ledger after one more event. -/
theorem perform_ledger (op : Operation) :
    (ledger base events).perform op =
      (reply base events op, ledger base (events ++ [(op, reply base events op)])) := by
  have hstaged {op : Operation} {r : Reply} {w : Write} (hfate : fate [(op, r)] = .pending)
      (hwrite : staged? (op, r) = some w)
      (hkept : ∀ organisations, registered organisations [(op, r)] = organisations) :
      ledger base (events ++ [(op, r)]) = (ledger base events).stage w :=
    ledger_append_staged hfate hwrite hkept
  cases op with
  | commit message => exact congrArg _ (ledger_append_commit message _).symm
  | rollback => exact congrArg _ (ledger_append_rollback _).symm
  | setOrganisations p targets => exact congrArg _ (ledger_append_registered p targets _).symm
  | _ => exact congrArg _ (hstaged rfl rfl fun _ => rfl).symm

end Event

/-- The operation without the time that the clock has given it. -/
def DirectoryStore.Operation.untimed : Operation → Operation
  | .startRun _ => .startRun ⟨0, 0⟩
  | op => op

/-- The write without the time at which its run has started. -/
def Write.untimed : Write → Write
  | .startRun run => .startRun ⟨run.id, ⟨0, 0⟩⟩
  | w => w

namespace Tables

/-- The tables without the times at which runs have started. No query asks for them. -/
def untimed (t : Tables) : Tables := { t with runs := t.runs.map fun run => ⟨run.id, ⟨0, 0⟩⟩ }

theorem untimed_applyAll (t : Tables) (writes : List Write) :
    (t.applyAll writes).untimed = t.untimed.applyAll (writes.map Write.untimed) := by
  have happly (t : Tables) (w : Write) : (t.apply w).untimed = t.untimed.apply w.untimed := by
    cases w with
    | startRun run => simp [apply, untimed, Write.untimed]
    | _ => rfl
  induction writes generalizing t with
  | nil => rfl
  | cons w rest ih =>
    change ((t.apply w).applyAll rest).untimed = (t.untimed.apply w.untimed).applyAll _
    rw [ih, happly]

theorem view_of_untimed {t t' : Tables} (h : t.untimed = t'.untimed) : t.view = t'.view := by
  have hview : t.untimed.view = t'.untimed.view := by rw [h]
  exact hview

theorem aggregate_of_untimed {t t' : Tables} (h : t.untimed = t'.untimed) (r : RuntimeId)
    (p : PackageId) : t.aggregate r p = t'.aggregate r p := by
  have hrows : t.untimed.aggregate r p = t'.untimed.aggregate r p := by rw [h]
  exact hrows

theorem nextRuntimeId_untimed (t : Tables) (writes : List Write) :
    t.untimed.nextRuntimeId (writes.map Write.untimed) = t.nextRuntimeId writes := by
  have hstarted : startedRuns (writes.map Write.untimed) = startedRuns writes := by
    unfold startedRuns
    rw [List.filterMap_map]
    refine List.filterMap_congr fun w _ => ?_
    cases w <;> rfl
  have hruns : t.untimed.runs.map (·.id) = t.runs.map (·.id) := by
    simp [untimed]
  unfold nextRuntimeId
  rw [hstarted, hruns]

end Tables

namespace Event

/-- The event without the time of its operation. -/
def untimed (e : Event) : Event := (e.1.untimed, e.2)

theorem fate_untimed (events : List Event) : fate (events.map untimed) = fate events := by
  induction events with
  | nil => rfl
  | cons e rest ih =>
    obtain ⟨op, reply⟩ := e
    cases op <;> first | exact ih | rfl

theorem writes_untimed (f : Fate) (events : List Event) :
    writes f (events.map untimed) = (writes f events).map Write.untimed := by
  have hstaged (e : Event) : e.untimed.staged? = e.staged?.map Write.untimed := by
    obtain ⟨op, reply⟩ := e
    cases op <;> cases reply <;> rfl
  induction events with
  | nil => rfl
  | cons e rest ih =>
    rw [List.map_cons, writes, writes, fate_untimed, ih, hstaged, List.map_append]
    split
    · cases e.staged? <;> rfl
    · rfl

theorem tables_untimed (base : Tables) (events : List Event) :
    (tables base (events.map untimed)).untimed = (tables base events).untimed := by
  have hregistered (organisations : List (PackageId × List Target)) :
      registered organisations (events.map untimed) = registered organisations events := by
    unfold registered
    rw [List.foldl_map]
    congr 1
    funext all e
    obtain ⟨op, reply⟩ := e
    cases op <;> rfl
  have hidle (w : Write) : w.untimed.untimed = w.untimed := by cases w <;> rfl
  have hcommitted : (base.applyAll (writes .committed (events.map untimed))).untimed =
      (base.applyAll (writes .committed events)).untimed := by
    rw [Tables.untimed_applyAll, Tables.untimed_applyAll, writes_untimed, List.map_map]
    congr 2
    funext w
    exact hidle w
  calc (tables base (events.map untimed)).untimed
      = { (base.applyAll (writes .committed (events.map untimed))).untimed with
          organisations := registered base.organisations (events.map untimed) } := rfl
    _ = { (base.applyAll (writes .committed events)).untimed with
          organisations := registered base.organisations events } := by
        rw [hcommitted, hregistered]
    _ = (tables base events).untimed := rfl

/-- The clock makes no difference to what operations give. -/
theorem reply_untimed (base : Tables) (events : List Event) (op : Operation) :
    reply base (events.map untimed) op.untimed = reply base events op := by
  have htables := tables_untimed base events
  cases op with
  | startRun now =>
    change Reply.run _ = Reply.run _
    rw [← Tables.nextRuntimeId_untimed, ← Tables.nextRuntimeId_untimed (tables base events), htables,
      writes_untimed, List.map_map]
    congr 3
    funext w
    cases w <;> rfl
  | aggregate r p =>
    change Reply.rows _ = Reply.rows _
    rw [Tables.aggregate_of_untimed htables]
  | _ => rfl

theorem expected_untimed (base : Tables) (events : List Event) (ops : List Operation) :
    expected base (events.map untimed) (ops.map Operation.untimed) = expected base events ops := by
  induction ops generalizing events with
  | nil => rfl
  | cons op rest ih =>
    have hevents : events.map untimed ++ [(op.untimed, reply base events op)] =
        (events ++ [(op, reply base events op)]).map untimed := by
      rw [List.map_append]
      rfl
    rw [List.map_cons, expected, expected, reply_untimed, hevents, ih,
      Tables.view_of_untimed (tables_untimed base _)]

end Event

/-- A kind of store that keeps the contract of staging, whose queries and rollbacks never
fail, and in which organisations can be registered. -/
structure Obedient (σ : Type) [Datastore σ] [LawfulStore σ]
    (register : PackageId → List Target → StoreM σ Unit) : Prop where
  organisationsOf (p : PackageId) (s : σ) :
    ((Datastore.organisationsOf p).run s).1 = .ok ((Datastore.ledger s).tables.organisationsOf p)
  register {p : PackageId} {targets : List Target} {s s' : σ}
    (h : (register p targets).run s = (.ok (), s')) :
    Datastore.ledger s' =
      { Datastore.ledger s with tables := (Datastore.ledger s).tables.setOrganisations p targets }

/-- A call that has succeeded has done what it is for. -/
theorem Obeys.of_ok {α : Type} {call : StoreM σ α} {does : Ledger → α × Ledger} (h : Obeys call does)
    {s s' : σ} {a : α} (hrun : call.run s = (.ok a, s')) :
    does (Datastore.ledger s) = (a, Datastore.ledger s') := by
  rcases h s with ⟨b, hok, hdoes⟩ | ⟨⟨e, herror⟩, -⟩
  · rw [hrun] at hok hdoes
    obtain rfl := Except.ok.inj hok
    exact hdoes
  · rw [hrun] at herror
    cases herror

namespace Obedient

variable [LawfulStore σ] {register : PackageId → List Target → StoreM σ Unit} {s s' : σ}

theorem view_eq (h : Obedient σ register) (s : σ) : view s = (Datastore.ledger s).tables.view := by
  unfold view Tables.view
  simp only [h.organisationsOf]

/-- An operation that succeeds does to the ledger what it is for. -/
theorem answer_ok (h : Obedient σ register) {op : Operation} {reply : Reply}
    (hrun : (answer register op).run s = (.ok reply, s')) :
    (Datastore.ledger s).perform op = (reply, Datastore.ledger s') := by
  have hstage {w : Write} (hrun : (do
      Datastore.stage w
      return Reply.done : StoreM σ Reply).run s = (.ok reply, s')) :
      (Reply.done, (Datastore.ledger s).stage w) = (reply, Datastore.ledger s') := by
    obtain ⟨_, s₁, hcall, hlast⟩ := run_bind_ok hrun
    cases hlast
    exact congrArg (Prod.mk _) (Prod.mk.inj ((LawfulStore.stage w).of_ok hcall)).2
  cases op with
  | saveResult r => exact hstage hrun
  | deleteResults p => exact hstage hrun
  | replaceInfo r => exact hstage hrun
  | recordTestrun p r => exact hstage hrun
  | setStatus p status => exact hstage hrun
  | startRun now =>
    obtain ⟨id, s₁, hcall, hlast⟩ := run_bind_ok hrun
    cases hlast
    have hdone := (LawfulStore.startRun now).of_ok hcall
    change (Reply.run ((Datastore.ledger s).startRun now).1, ((Datastore.ledger s).startRun now).2) = _
    rw [hdone]
  | aggregate r p =>
    obtain ⟨rows, s₁, hcall, hlast⟩ := run_bind_ok hrun
    cases hlast
    have hdone := (LawfulStore.aggregate r p).of_ok hcall
    change (Reply.rows ((Datastore.ledger s).aggregate r p).1, ((Datastore.ledger s).aggregate r p).2) = _
    rw [hdone]
  | setOrganisations p targets =>
    obtain ⟨_, s₁, hcall, hlast⟩ := run_bind_ok hrun
    cases hlast
    exact congrArg (Prod.mk _) (h.register hcall).symm
  | commit message =>
    obtain ⟨_, s₁, hcall, hlast⟩ := run_bind_ok hrun
    cases hlast
    exact congrArg (Prod.mk _) (Prod.mk.inj ((LawfulStore.commit message).of_ok hcall)).2
  | rollback =>
    obtain ⟨_, s₁, hcall, hlast⟩ := run_bind_ok hrun
    cases hlast
    have hledger := LawfulStore.rollback s
    rw [hcall] at hledger
    exact congrArg (Prod.mk _) hledger.symm

/-- Operations that all succeed give what they have to, and every query is answered as it
has to be after each of them. -/
theorem observe_ok (h : Obedient σ register) {base : Tables} {events : List Event}
    {ops : List Operation} {seen : List (Reply × View)}
    (hledger : Datastore.ledger s = Event.ledger base events)
    (hrun : (observe register ops).run s = (.ok seen, s')) : seen = Event.expected base events ops := by
  induction ops generalizing s events seen with
  | nil =>
    cases hrun
    rfl
  | cons op rest ih =>
    obtain ⟨reply, s₁, hanswer, hlater⟩ := run_bind_ok hrun
    change (observe register rest >>= fun later => pure ((reply, view s₁) :: later)).run s₁ = _
      at hlater
    have hperform := h.answer_ok hanswer
    rw [hledger, Event.perform_ledger] at hperform
    obtain ⟨rfl, hledger₁⟩ := Prod.mk.inj hperform
    obtain ⟨later, s₂, hrest, hlast⟩ := run_bind_ok hlater
    cases hlast
    rw [ih hledger₁.symm hrest, h.view_eq, ← hledger₁]
    rfl

end Obedient

namespace MemoryStore

def setOrganisations (p : PackageId) (targets : List Target) : StoreM MemoryStore Unit :=
  modify (·.withOrganisations p targets)

theorem obedient : Obedient MemoryStore setOrganisations where
  organisationsOf _ _ := rfl
  register h := by
    cases h
    rfl

/-- Operations on a store in memory never fail. -/
theorem exists_observe (ops : List Operation) (m : MemoryStore) :
    ∃ seen m', (observe setOrganisations ops).run m = (.ok seen, m') := by
  have hanswer (op : Operation) (m : MemoryStore) :
      ∃ reply m', (answer setOrganisations op).run m = (.ok reply, m') := by
    cases op <;> exact ⟨_, _, rfl⟩
  induction ops generalizing m with
  | nil => exact ⟨_, _, rfl⟩
  | cons op rest ih =>
    obtain ⟨reply, m₁, hfirst⟩ := hanswer op m
    obtain ⟨later, m₂, hrest⟩ := ih m₁
    refine ⟨(reply, view m₁) :: later, m₂, ?_⟩
    unfold observe
    rw [run_bind, hfirst]
    change ((observe setOrganisations rest) >>= fun later => pure ((reply, view m₁) :: later)).run m₁ = _
    rw [run_bind, hrest]
    rfl

end MemoryStore

theorem DirectoryStore.obedient : Obedient DirectoryStore setOrganisations where
  organisationsOf _ _ := rfl
  register {p targets s s'} h := by
    rw [setOrganisations_run] at h
    dsimp only at h
    split at h
    · cases h
    split at h
    · cases h
    · cases h
      rfl

namespace DirectoryStore

/-- A store in memory and a store in a directory that have the same tables and nothing
staged give the same replies to the same operations, whatever their clocks show, and the
same answers to every query after each of them, if no file operation fails. These are the
ones that the committed writes account for: those whose next commit or rollback is a
commit, in the order in which they were staged. -/
theorem observe_eq_expected {s s' : DirectoryStore} {m : MemoryStore} (hsame : m.ledger = s.ledger)
    (hstaged : s.ledger.staged = []) {ops ops' : List Operation}
    (hops : ops'.map Operation.untimed = ops.map Operation.untimed) {seen : List (Reply × View)}
    (hrun : (observe setOrganisations ops).run s = (.ok seen, s')) :
    seen = Event.expected s.ledger.tables [] ops ∧
      ∃ m', (observe MemoryStore.setOrganisations ops').run m = (.ok seen, m') := by
  have hledger : s.ledger = Event.ledger s.ledger.tables [] := by
    rcases hl : s.ledger with ⟨t, staged⟩
    rw [hl] at hstaged
    subst hstaged
    rfl
  have hseen := obedient.observe_ok hledger hrun
  obtain ⟨seen', m', hmemory⟩ := MemoryStore.exists_observe ops' m
  have hseen' := MemoryStore.obedient.observe_ok (hsame.trans hledger) hmemory
  have hclock : Event.expected s.ledger.tables [] ops' = Event.expected s.ledger.tables [] ops := by
    rw [← Event.expected_untimed, ← Event.expected_untimed s.ledger.tables [] ops, hops]
  refine ⟨hseen, m', ?_⟩
  rw [hmemory, hseen', hclock, ← hseen]

/-- A new store in memory and one opened in an empty folder: two commits around a change of
organisations, a rollback, and a run that is not committed. -/
theorem observe_eq_expected_two_commits :
    let t : Tree := { entries := [(["store"], .folder)] }
    let directory : Route := ⟨[], "store"⟩
    let s : DirectoryStore := ⟨t, directory, .ofTables (Tables.listing [])⟩
    let ops (now : Instant) : List Operation := [
      .startRun now, .saveResult ⟨⟨1⟩, ⟨-7⟩, ⟨3⟩, .fail, some "é", 1, none⟩,
      .aggregate ⟨1⟩ ⟨-7⟩, .commit "unit", .setOrganisations ⟨-7⟩ [⟨⟨5⟩, "//a"⟩],
      .aggregate ⟨1⟩ ⟨-7⟩, .commit "rows", .deleteResults ⟨-7⟩, .rollback, .startRun now,
      .startRun now]
    inFolder t directory = (.ok s, t) ∧
      ∃ seen s' m', (observe setOrganisations (ops ⟨1700000000, 0⟩)).run s = (.ok seen, s') ∧
        (observe MemoryStore.setOrganisations (ops ⟨1800000000, 0⟩)).run .empty = (.ok seen, m') ∧
        seen.map (·.1) = [.run ⟨1⟩, .done, .rows [], .done, .done,
          .rows [⟨⟨1⟩, ⟨-7⟩, none, ⟨3⟩, 0, 1, 0⟩], .done, .done, .done, .run ⟨2⟩, .run ⟨3⟩] := by
  intro t directory s ops
  have hfollow : directory.follow t = .ok ["store"] := by decide +kernel
  have hopen : inFolder t directory = (.ok s, t) :=
    inFolder_of_missing (Route.makeFolder_run hfollow rfl) (by decide +kernel) (by decide +kernel)
  have hok : ((observe setOrganisations (ops ⟨1700000000, 0⟩)).run s).1.isOk = true := by
    decide +kernel
  rcases hrun : (observe setOrganisations (ops ⟨1700000000, 0⟩)).run s with ⟨_ | seen, s'⟩
  · rw [hrun] at hok
    cases hok
  · have hsame : MemoryStore.empty.ledger = s.ledger := rfl
    have hstaged : s.ledger.staged = [] := rfl
    have hclock : (ops ⟨1800000000, 0⟩).map Operation.untimed =
        (ops ⟨1700000000, 0⟩).map Operation.untimed := rfl
    obtain ⟨hseen, m', hmemory⟩ := observe_eq_expected hsame hstaged hclock hrun
    have hreplies : (Event.expected s.ledger.tables [] (ops ⟨1700000000, 0⟩)).map (·.1) =
        [.run ⟨1⟩, .done, .rows [], .done, .done, .rows [⟨⟨1⟩, ⟨-7⟩, none, ⟨3⟩, 0, 1, 0⟩], .done,
          .done, .done, .run ⟨2⟩, .run ⟨3⟩] := by
      decide +kernel
    rw [← hseen] at hreplies
    exact ⟨hopen, seen, s', m', rfl, hmemory, hreplies⟩

end DirectoryStore

end DataQuality
