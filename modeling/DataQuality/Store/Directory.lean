import DataQuality.Files.Route
import DataQuality.Store.Journal

/-!
# Stores in a directory

A store that keeps its commits in a journal and the organisations of each package in a file of their
own. Opening it replays the journal, after cutting off what was never completed.
-/
namespace DataQuality

open Files (Route Tree)

/-- A store in a directory of a tree of files. -/
structure DirectoryStore where
  tree : Tree
  directory : Route
  ledger : Ledger

namespace DirectoryStore

def journalName : String := "journal.jsonl"

def organisationsName : String := "organisations.json"

/-- The name under which a new file of organisations is written. -/
def temporaryName : String := "organisations.json.tmp"

def targetFields : List String := ["organisation_id", "activities_selector"]

def asTarget? (j : Json) : Option Target := do
  let fs ← j.asRecord? targetFields
  let organisationId ← fs.required targetFields "organisation_id" Json.asId?
  let selector ← fs.required targetFields "activities_selector" Json.asString?
  pure ⟨organisationId, selector⟩

def ofTarget (t : Target) : Json := Json.record [
  ("organisation_id", Json.ofId t.organisationId),
  ("activities_selector", Json.ofString t.activitiesSelector)]

/-- Reads the name of a field as a package: the quotes enclose an integer as it would stand without
them, so nothing in it may be escaped. -/
def packageOfName? (name : Json.Name) : Option PackageId :=
  if !name.isPlain then none
  else
    match name.content.bind fun s => Json.readNumber? s.toList with
    | some (l, []) => ((Json.integer? l).bind Decimal.int64?).map fun i => ⟨i⟩
    | _ => none

def asOrganisations? : Json → Option (List (PackageId × List Target))
  | .object fields => do
    let pairs ← fields.mapM fun (name, value) => do
      pure (← packageOfName? name, ← value.asList? asTarget?)
    pure (pairs.foldl (fun all (p, targets) => Keyed.insert Id.before p targets all) [])
  | _ => none

def organisationsText (organisations : List (PackageId × List Target)) : String :=
  (Json.record (organisations.map fun (p, targets) =>
    (p.text, .array (targets.map ofTarget)))).pretty

/-- The organisations that a directory lists; none if it has no file of them. -/
def loadOrganisations (t : Tree) (directory : Route) :
    Except StoreError (List (PackageId × List Target)) :=
  match (directory.join organisationsName).readText t with
  | .error .missing => .ok []
  | .error .unusable => .error .io
  | .ok s =>
    match (Json.parse s).bind asOrganisations? with
    | some organisations => .ok organisations
    | none => .error .json

/-- Cuts off what was never completed of a journal. -/
def cutJournal (t : Tree) (path : Route) (journal : String) : Except StoreError Tree :=
  let complete := Journal.completePart journal
  if complete = journal then .ok t
  else
    match path.write? complete.toUTF8 t with
    | some t => .ok t
    | none => .error .io

/-- Opens a store in a directory, which is made if it is not there. Gives the tree of files even if
opening fails. -/
def inFolder (t : Tree) (directory : Route) : Except StoreError DirectoryStore × Tree :=
  match directory.makeFolder.run t with
  | (.error _, t) => (.error .io, t)
  | (.ok _, t) =>
    match loadOrganisations t directory with
    | .error e => (.error e, t)
    | .ok organisations =>
      let tables : Tables := { Tables.empty with organisations := organisations }
      let path := directory.join journalName
      match path.readText t with
      | .error .missing => (.ok ⟨t, directory, .ofTables tables⟩, t)
      | .error .unusable => (.error .io, t)
      | .ok journal =>
        match cutJournal t path journal with
        | .error e => (.error e, t)
        | .ok t =>
          match Journal.replay? tables journal with
          | some tables => (.ok ⟨t, directory, .ofTables tables⟩, t)
          | none => (.error .json, t)

def modifyLedger (f : Ledger → Ledger) : StoreM DirectoryStore Unit :=
  modify fun s => { s with ledger := f s.ledger }

/-- Changes the ledger and takes a result from it. -/
def withLedger {α : Type} (f : Ledger → α × Ledger) : StoreM DirectoryStore α :=
  modifyGet fun s => let (a, l) := f s.ledger; (a, { s with ledger := l })

/-- Writes the line of a commit into the journal and carries the commit out. Nothing is written for a
commit of nothing, and nothing is carried out when writing fails. -/
def commit : StoreM DirectoryStore Unit := do
  let s ← get
  if s.ledger.staged.isEmpty then return
  let line := Journal.line s.ledger.staged
  match (s.directory.join journalName).append? line.toUTF8 s.tree with
  | some tree => set { s with tree := tree, ledger := s.ledger.settle }
  | none => throw .io

/-- Replaces the organisations of a package, first in the tables, then in a temporary file, which
takes the place of the file of organisations. -/
def setOrganisations (p : PackageId) (targets : List Target) : StoreM DirectoryStore Unit := do
  modify fun s =>
    { s with ledger := { s.ledger with tables := s.ledger.tables.setOrganisations p targets } }
  let s ← get
  let text := organisationsText s.ledger.tables.organisations
  let temporary := s.directory.join temporaryName
  match temporary.write? text.toUTF8 s.tree with
  | none => throw .io
  | some tree =>
    set { s with tree := tree }
    match temporary.rename? (s.directory.join organisationsName) tree with
    | none => throw .io
    | some tree => set { s with tree := tree }

instance : Datastore DirectoryStore where
  ledger s := s.ledger
  stage w := modifyLedger (·.stage w)
  startRun now := withLedger (·.startRun now)
  aggregate r p := withLedger (·.aggregate r p)
  organisationsOf p := do return (← get).ledger.tables.organisationsOf p
  commit _ := commit
  rollback := modifyLedger Ledger.discard

end DirectoryStore

end DataQuality
