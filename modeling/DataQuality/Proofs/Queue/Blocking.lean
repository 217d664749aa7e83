import DataQuality.CommandLine.Execution
import DataQuality.Proofs.Queue.Spool

/-!
# Working off a spool

A worker on a spool works off all files exactly if each of them can be taken. The first one
that cannot be taken blocks the spool: the worker ends with an error, the jobs of the files
before it have been handed over, and it stays together with all that follow it, as often as
the worker tries again. A body that holds no job does not block: its file is gone when that
turns out.
-/
namespace DataQuality

open Files (Path Route Tree)

namespace Worker

variable {σ τ ε : Type}

/-- A worker that notes which jobs are handed over, in order. -/
def recording (w : Worker τ ε) : Worker (τ × List Job) ε where
  waiting s := w.waiting s.1
  pop s := (w.pop s.1).map (Option.map fun (body, t) => (body, (t, s.2)))
  handle job s :=
    let (result, t) := w.handle job s.1
    (result, (t, s.2 ++ [job]))

/-- The jobs that are handed over while the queue is worked off. -/
def handedOver (w : Worker τ ε) (s : τ) : List Job := (w.recording.drain (s, [])).2.2

theorem drainAtMost_of_pop {w : Worker τ ε} {s t : τ} {body : String}
    (h : w.pop s = .ok (some (body, t))) (limit : Nat) (c : DrainCounts) :
    w.drainAtMost (limit + 1) c s =
      w.drainAtMost limit (w.process body c t).1 (w.process body c t).2 := by
  rw [drainAtMost, h]

theorem pop_recording {w : Worker τ ε} {s t : τ} {body : String} (h : w.pop s = .ok (some (body, t)))
    (jobs : List Job) : w.recording.pop (s, jobs) = .ok (some (body, (t, jobs))) := by
  change (w.pop s).map _ = _
  rw [h]
  rfl

theorem process_recording (w : Worker τ ε) (body : String) (c : DrainCounts) (s : τ)
    (jobs : List Job) :
    w.recording.process body c (s, jobs) =
      ((w.process body c s).1, ((w.process body c s).2, jobs ++ (Job.decode? body).toList)) := by
  unfold process
  cases Job.decode? body with
  | none => rw [Option.toList_none, List.append_nil]
  | some job => rfl

/-- What is noted changes nothing about the work. -/
theorem drainAtMost_recording (w : Worker τ ε) (limit : Nat) (c : DrainCounts) (s : τ)
    (jobs : List Job) :
    (w.recording.drainAtMost limit c (s, jobs)).1 = (w.drainAtMost limit c s).1 ∧
      (w.recording.drainAtMost limit c (s, jobs)).2.1 = (w.drainAtMost limit c s).2 := by
  induction limit generalizing c s jobs with
  | zero => exact ⟨rfl, rfl⟩
  | succ limit ih =>
    rcases hpop : w.pop s with e | _ | ⟨body, t⟩
    · have hrecord : w.recording.pop (s, jobs) = .error e := congrArg (Except.map _) hpop
      rw [drainAtMost, drainAtMost, hpop, hrecord]
      exact ⟨rfl, rfl⟩
    · have hrecord : w.recording.pop (s, jobs) = .ok none := congrArg (Except.map _) hpop
      rw [drainAtMost, drainAtMost, hpop, hrecord]
      exact ⟨rfl, rfl⟩
    · rw [drainAtMost_of_pop hpop, drainAtMost_of_pop (pop_recording hpop jobs), process_recording]
      exact ih _ _ _

theorem drain_recording (w : Worker τ ε) (s : τ) :
    (w.recording.drain (s, [])).1 = (w.drain s).1 ∧
      (w.recording.drain (s, [])).2.1 = (w.drain s).2 :=
  w.drainAtMost_recording _ _ _ _

/-- The queue of a worker is a spool in its state: what waits and what is taken is that of the
spool. -/
structure TakesFrom (w : Worker τ ε) (place : τ → Spool × Tree) : Prop where
  waiting : ∀ s, w.waiting s =
    (((place s).1.waiting (place s).2).toOption.getD []).length
  pop : ∀ s, (w.pop s).map (Option.map fun x => (x.1, place x.2)) =
    ((place s).1.pop (place s).2).map (Option.map fun x => (x.1, ((place s).1, x.2)))

/-- A worker on a spool. The handler keeps a state of its own. -/
def onSpool (handle : Job → σ → Except ε Unit × σ) : Worker ((Spool × Tree) × σ) ε where
  waiting s := ((s.1.1.waiting s.1.2).toOption.getD []).length
  pop s := (s.1.1.pop s.1.2).map (Option.map fun (body, t) => (body, ((s.1.1, t), s.2)))
  handle job s :=
    let (result, h) := handle job s.2
    (result, (s.1, h))

theorem takesFrom_onSpool (handle : Job → σ → Except ε Unit × σ) :
    (onSpool handle).TakesFrom Prod.fst where
  waiting _ := rfl
  pop s := by
    change ((s.1.1.pop s.1.2).map _).map _ = _
    rcases s.1.1.pop s.1.2 with e | _ | x <;> rfl

/-- The command that works on a queue takes the bodies from its spool. -/
theorem takesFrom_queueWork (e : CommandLine.Surroundings) :
    (CommandLine.QueueWork.worker e).TakesFrom fun w => (w.spool, w.desk.tree) where
  waiting _ := rfl
  pop w := by
    change ((w.spool.pop w.desk.tree).map _).map _ = _
    rcases w.spool.pop w.desk.tree with e | _ | x <;> rfl

/-- In a state of the worker, the spool is in this folder and holds these files. -/
def HoldsAt (place : τ → Spool × Tree) (directory : Route) (base : Path)
    (files : List (String × ByteArray)) (s : τ) : Prop :=
  (place s).1.directory = directory ∧ Spool.Holds directory base files (place s).2

/-- Carrying out a job leaves the files of the spool as they are. -/
def LeavesSpool (w : Worker τ ε) (place : τ → Spool × Tree) (directory : Route) (base : Path) :
    Prop :=
  ∀ job files s, HoldsAt place directory base files s →
    HoldsAt place directory base files (w.handle job s).2

/-- The job in a file of a spool. -/
def jobIn? (f : String × ByteArray) : Option Job := (String.fromUTF8? f.2).bind Job.decode?

/-- All files of the spool are worked off: each of them is counted, none of them is left, and the jobs
in them are handed over in the order of the files. -/
structure WorksOff (w : Worker τ ε) (place : τ → Spool × Tree) (directory : Route) (base : Path)
    (files : List (String × ByteArray)) (s : τ) : Prop where
  counted : ∃ c, (w.drain s).1 = .ok c ∧ c.total = files.length
  emptied : HoldsAt place directory base [] (w.drain s).2
  handed : w.handedOver s = files.filterMap jobIn?

section

variable {w : Worker τ ε} {place : τ → Spool × Tree} {directory : Route} {base : Path}
  {f : String × ByteArray} {files front rest : List (String × ByteArray)} {s : τ}

namespace TakesFrom

theorem pop_none (h : w.TakesFrom place) (hs : HoldsAt place directory base [] s) :
    w.pop s = .ok none := by
  obtain ⟨rfl, hholds⟩ := hs
  have hpop := h.pop s
  rw [hholds.pop_nil] at hpop
  rcases hw : w.pop s with e | _ | x
  · rw [hw] at hpop
    cases hpop
  · rfl
  · rw [hw] at hpop
    cases hpop

/-- The file at the front is taken if it can be. -/
theorem pop_some (h : w.TakesFrom place) (hs : HoldsAt place directory base (f :: files) s)
    (hf : Spool.CanTake directory f) :
    ∃ body s', String.fromUTF8? f.2 = some body ∧ w.pop s = .ok (some (body, s')) ∧
      HoldsAt place directory base files s' := by
  obtain ⟨rfl, hholds⟩ := hs
  obtain ⟨body, hbody⟩ := Option.isSome_iff_exists.1 hf.2
  have hpop := h.pop s
  rw [hholds.pop_canTake hf.1 hbody] at hpop
  rcases hw : w.pop s with e | _ | ⟨body', s'⟩
  · rw [hw] at hpop
    cases hpop
  · rw [hw] at hpop
    cases hpop
  · rw [hw] at hpop
    simp only [Except.map, Option.map_some, Except.ok.injEq, Option.some.injEq, Prod.mk.injEq] at hpop
    obtain ⟨rfl, hplace⟩ := hpop
    refine ⟨body', s', hbody, rfl, ?_⟩
    unfold HoldsAt
    rw [hplace]
    exact ⟨rfl, hholds.erase⟩

theorem pop_error (h : w.TakesFrom place) (hs : HoldsAt place directory base (f :: files) s)
    (hf : ¬ Spool.CanTake directory f) : w.pop s = .error .io := by
  obtain ⟨rfl, hholds⟩ := hs
  have hpop := h.pop s
  rw [hholds.pop_not_canTake hf] at hpop
  rcases hw : w.pop s with e | _ | x
  · cases e
    rfl
  · rw [hw] at hpop
    cases hpop
  · rw [hw] at hpop
    cases hpop

/-- One more file is worked off: it is counted and gone, and the job in it is handed over. -/
theorem drainAtMost_cons (h : w.TakesFrom place) (hleaves : w.LeavesSpool place directory base)
    (hs : HoldsAt place directory base (f :: files) s) (hf : Spool.CanTake directory f)
    (c : DrainCounts) (jobs : List Job) :
    ∃ c' s', c'.total = c.total + 1 ∧ HoldsAt place directory base files s' ∧
      ∀ limit, w.recording.drainAtMost (limit + 1) c (s, jobs) =
        w.recording.drainAtMost limit c' (s', jobs ++ (jobIn? f).toList) := by
  obtain ⟨body, s', hbody, hpop, hs'⟩ := h.pop_some hs hf
  have hjob : jobIn? f = Job.decode? body := by
    unfold jobIn?
    rw [hbody]
    rfl
  refine ⟨(w.process body c s').1, (w.process body c s').2, w.total_process body c s', ?_, ?_⟩
  · unfold process
    cases Job.decode? body with
    | none => exact hs'
    | some job => exact hleaves job files s' hs'
  · intro limit
    rw [drainAtMost_of_pop (pop_recording hpop jobs), process_recording, hjob]

/-- The files at the front that can be taken are worked off, one after the other. -/
theorem drainAtMost_append (h : w.TakesFrom place) (hleaves : w.LeavesSpool place directory base)
    (hs : HoldsAt place directory base (front ++ rest) s)
    (hfront : ∀ f ∈ front, Spool.CanTake directory f) (c : DrainCounts) (jobs : List Job) :
    ∃ c' s', c'.total = c.total + front.length ∧ HoldsAt place directory base rest s' ∧
      ∀ limit, w.recording.drainAtMost (front.length + limit) c (s, jobs) =
        w.recording.drainAtMost limit c' (s', jobs ++ front.filterMap jobIn?) := by
  induction front generalizing c s jobs with
  | nil =>
    refine ⟨c, s, rfl, hs, fun limit => ?_⟩
    rw [List.length_nil, Nat.zero_add, List.filterMap_nil, List.append_nil]
  | cons f front ih =>
    obtain ⟨hf, hfront⟩ := List.forall_mem_cons.1 hfront
    obtain ⟨c₁, s₁, htotal₁, hs₁, hstep⟩ := h.drainAtMost_cons hleaves hs hf c jobs
    obtain ⟨c', s', htotal, hs', hrun⟩ := ih hs₁ hfront c₁ (jobs ++ (jobIn? f).toList)
    refine ⟨c', s', ?_, hs', fun limit => ?_⟩
    · rw [htotal, htotal₁, List.length_cons]
      omega
    · have hjobs : jobs ++ (jobIn? f).toList ++ front.filterMap jobIn? =
          jobs ++ (f :: front).filterMap jobIn? := by
        rw [List.append_assoc, List.filterMap_cons]
        cases jobIn? f <;> rfl
      rw [List.length_cons, Nat.add_right_comm, hstep, hrun, hjobs]

/-- The worker looks often enough to come to the end of the spool. -/
theorem waiting_eq (h : w.TakesFrom place) (hs : HoldsAt place directory base files s) :
    w.waiting s = files.length := by
  obtain ⟨rfl, hholds⟩ := hs
  rw [h.waiting, hholds.waiting]
  exact List.length_map _

/-- What working off a spool comes to, when only the files at the front are known to be such that they
can be taken. -/
theorem drain_append (h : w.TakesFrom place) (hleaves : w.LeavesSpool place directory base)
    (hs : HoldsAt place directory base (front ++ rest) s)
    (hfront : ∀ f ∈ front, Spool.CanTake directory f) :
    ∃ c s', c.total = front.length ∧ HoldsAt place directory base rest s' ∧
      w.recording.drain (s, []) =
        w.recording.drainAtMost (rest.length + 1) c (s', front.filterMap jobIn?) := by
  obtain ⟨c, s', htotal, hs', hrun⟩ := h.drainAtMost_append hleaves hs hfront .zero []
  refine ⟨c, s', by simpa using htotal, hs', ?_⟩
  have hlimit : w.recording.waiting (s, []) + 1 = front.length + (rest.length + 1) := by
    change w.waiting s + 1 = _
    rw [h.waiting_eq hs, List.length_append, Nat.add_assoc]
  unfold drain
  rw [hlimit, hrun, List.nil_append]

/-- A spool all of whose files can be taken is worked off. -/
theorem worksOff (h : w.TakesFrom place) (hleaves : w.LeavesSpool place directory base)
    (hs : HoldsAt place directory base files s)
    (hfiles : ∀ f ∈ files, Spool.CanTake directory f) :
    w.WorksOff place directory base files s := by
  rw [← List.append_nil files] at hs
  obtain ⟨c, s', htotal, hs', hdrain⟩ := h.drain_append hleaves hs hfiles
  have hend : w.recording.drain (s, []) = (.ok c, (s', files.filterMap jobIn?)) := by
    have hpop : w.recording.pop (s', files.filterMap jobIn?) = .ok none := by
      change (w.pop s').map _ = _
      rw [h.pop_none hs']
      rfl
    rw [hdrain, drainAtMost, hpop]
  obtain ⟨hresult, hstate⟩ := w.drain_recording s
  rw [hend] at hresult hstate
  refine ⟨⟨c, hresult.symm, htotal⟩, ?_, ?_⟩
  · rw [← hstate]
    exact hs'
  · exact congrArg (fun r => r.2.2) hend

/-- The first file that cannot be taken blocks the spool. -/
theorem drain_blocked (h : w.TakesFrom place) (hleaves : w.LeavesSpool place directory base)
    (hs : HoldsAt place directory base (front ++ f :: rest) s)
    (hfront : ∀ g ∈ front, Spool.CanTake directory g) (hf : ¬ Spool.CanTake directory f) :
    (w.drain s).1 = .error .io ∧ HoldsAt place directory base (f :: rest) (w.drain s).2 ∧
      w.handedOver s = front.filterMap jobIn? := by
  obtain ⟨c, s', -, hs', hdrain⟩ := h.drain_append hleaves hs hfront
  have hend : w.recording.drain (s, []) = (.error .io, (s', front.filterMap jobIn?)) := by
    have hpop : w.recording.pop (s', front.filterMap jobIn?) = .error .io := by
      change (w.pop s').map _ = _
      rw [h.pop_error hs' hf]
      rfl
    rw [hdrain, drainAtMost, hpop]
  obtain ⟨hresult, hstate⟩ := w.drain_recording s
  rw [hend] at hresult hstate
  refine ⟨hresult.symm, ?_, congrArg (fun r => r.2.2) hend⟩
  rw [← hstate]
  exact hs'

end TakesFrom

/-- A worker that leaves the spool alone while it carries out a job works off all files exactly if each
of them can be taken. Otherwise the first one that cannot be taken blocks the spool. -/
theorem worksOff_iff_canTake (h : w.TakesFrom place) (hleaves : w.LeavesSpool place directory base)
    (hs : HoldsAt place directory base files s) :
    (w.WorksOff place directory base files s ↔ ∀ f ∈ files, Spool.CanTake directory f) ∧
      ∀ front f rest, files = front ++ f :: rest → (∀ g ∈ front, Spool.CanTake directory g) →
        ¬ Spool.CanTake directory f →
        (w.drain s).1 = .error .io ∧ HoldsAt place directory base (f :: rest) (w.drain s).2 ∧
          w.handedOver s = front.filterMap jobIn? := by
  have hblocked : ∀ front f rest, files = front ++ f :: rest →
      (∀ g ∈ front, Spool.CanTake directory g) → ¬ Spool.CanTake directory f →
      (w.drain s).1 = .error .io ∧ HoldsAt place directory base (f :: rest) (w.drain s).2 ∧
        w.handedOver s = front.filterMap jobIn? := by
    rintro front f rest rfl hfront hf
    exact h.drain_blocked hleaves hs hfront hf
  refine ⟨⟨fun hworks => ?_, h.worksOff hleaves hs⟩, hblocked⟩
  by_contra hall
  cases hfind : files.find? fun f => !decide (Spool.CanTake directory f) with
  | none => exact hall (by simpa using hfind)
  | some f =>
    obtain ⟨hf, front, rest, hfiles, hfront⟩ := List.find?_eq_some_iff_append.1 hfind
    obtain ⟨c, hcounted, -⟩ := hworks.counted
    obtain ⟨herror, -⟩ := hblocked front f rest hfiles (by simpa using hfront) (by simpa using hf)
    rw [herror] at hcounted
    cases hcounted

end

/-- The folder of a spool with nothing but two files. -/
def spoolTree (content content' : ByteArray) : Tree where
  entries := [(["spool"], .folder), (["spool", "1.json"], .file content),
    (["spool", "2.json"], .file content')]

def spoolFolder : Route := ⟨[], "/spool"⟩

theorem holds_spoolTree (content content' : ByteArray) :
    Spool.Holds spoolFolder ["spool"] [("1.json", content), ("2.json", content')]
      (spoolTree content content') where
  leads := rfl
  listed := by
    have hlist : (spoolTree content content').list? ["spool"] = some ["1.json", "2.json"] :=
      Tree.list?_eq_some_iff.2
        ⟨rfl, show Tree.sorted ["1.json", "2.json"] = _ from List.mergeSort_of_pairwise (by decide)⟩
    rw [hlist]
    exact show some (List.filter Path.isJson ["1.json", "2.json"]) = some ["1.json", "2.json"] by decide
  ordered := show ["1.json", "2.json"].Pairwise (· < ·) by decide
  isName f hf := by
    have hname : f.1 ∈ ["1.json", "2.json"] := List.mem_map_of_mem hf
    generalize f.1 = name at hname
    simp only [List.mem_cons, List.not_mem_nil, or_false] at hname
    rcases hname with rfl | rfl <;> exact ⟨by decide, fun p => by simp [Path.follow], by decide⟩
  isFile f hf := by
    simp only [List.mem_cons, List.not_mem_nil, or_false] at hf
    rcases hf with rfl | rfl <;> rfl

/-- A worker on a spool that has success with every job. -/
def contentWorker : Worker ((Spool × Tree) × Unit) Unit := onSpool fun _ s => (.ok (), s)

theorem leavesSpool_contentWorker :
    contentWorker.LeavesSpool Prod.fst spoolFolder ["spool"] := fun _ _ _ h => h

def sampleJob : Job := ⟨"p.xml", ⟨4⟩, ⟨9⟩⟩

/-- A body without a job does not block a spool: the job in the file behind it is handed over. -/
theorem worksOff_iff_canTake_no_job :
    let files := [("1.json", "no job".toUTF8), ("2.json", sampleJob.encode.toUTF8)]
    let s := ((⟨spoolFolder, 0⟩, spoolTree "no job".toUTF8 sampleJob.encode.toUTF8), ())
    HoldsAt Prod.fst spoolFolder ["spool"] files s ∧ (∀ f ∈ files, Spool.CanTake spoolFolder f) ∧
      contentWorker.WorksOff Prod.fst spoolFolder ["spool"] files s ∧
      files.filterMap jobIn? = [sampleJob] := by
  intro files s
  have hs : HoldsAt Prod.fst spoolFolder ["spool"] files s := ⟨rfl, holds_spoolTree _ _⟩
  have hfiles : ∀ f ∈ files, Spool.CanTake spoolFolder f := by decide +kernel
  have hiff := worksOff_iff_canTake (takesFrom_onSpool _) leavesSpool_contentWorker hs
  exact ⟨hs, hfiles, hiff.1.2 hfiles, by decide +kernel⟩

/-- A file with a byte that no text has blocks a spool: the job in the file behind it is not handed
over, and both files stay. -/
theorem not_worksOff_stray_byte :
    let files := [("1.json", ⟨#[0xff]⟩), ("2.json", sampleJob.encode.toUTF8)]
    let s := ((⟨spoolFolder, 0⟩, spoolTree ⟨#[0xff]⟩ sampleJob.encode.toUTF8), ())
    HoldsAt Prod.fst spoolFolder ["spool"] files s ∧ files.filterMap jobIn? = [sampleJob] ∧
      ¬ contentWorker.WorksOff Prod.fst spoolFolder ["spool"] files s ∧
      (contentWorker.drain s).1 = .error .io ∧
      HoldsAt Prod.fst spoolFolder ["spool"] files (contentWorker.drain s).2 ∧
      contentWorker.handedOver s = [] := by
  intro files s
  have hs : HoldsAt Prod.fst spoolFolder ["spool"] files s := ⟨rfl, holds_spoolTree _ _⟩
  have hstray : ¬ Spool.CanTake spoolFolder ("1.json", ⟨#[0xff]⟩) := by decide
  have hfront : HoldsAt Prod.fst spoolFolder ["spool"] ([] ++ files) s := hs
  obtain ⟨herror, hleft, hjobs⟩ := (takesFrom_onSpool _).drain_blocked leavesSpool_contentWorker
    hfront (fun _ h => by cases h) hstray
  refine ⟨hs, by decide +kernel, fun hworks => ?_, herror, hleft, hjobs⟩
  obtain ⟨c, hcounted, -⟩ := hworks.counted
  have hends := herror.symm.trans hcounted
  cases hends

end Worker

end DataQuality
