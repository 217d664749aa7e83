import DataQuality.Worker

/-!
# Working off a queue in memory

A worker on a queue in memory carries out the jobs of the waiting bodies one after the
other, each of them once, and leaves the queue empty. Two ways to carry out jobs that keep
their states related, and succeed with the same jobs, count the same.
-/
namespace DataQuality

theorem DrainCounts.countJob_eq {ε δ : Type} {r : Except ε Unit} {r' : Except δ Unit}
    (h : r = .ok () ↔ r' = .ok ()) (c : DrainCounts) : c.countJob r = c.countJob r' := by
  cases r with
  | ok u => rw [h.1 rfl]; rfl
  | error e =>
    cases r' with
    | ok u => cases h.2 rfl
    | error e' => rfl

namespace Worker

variable {σ τ ε δ : Type}

/-- Carries out the jobs of some bodies, one after the other, counting on. -/
def workOff (handle : Job → σ → Except ε Unit × σ) : List String → DrainCounts → σ → DrainCounts × σ
  | [], c, s => (c, s)
  | body :: rest, c, s =>
    match Job.decode? body with
    | none => workOff handle rest c.countMalformed s
    | some job => workOff handle rest (c.countJob (handle job s).1) (handle job s).2

/-- The jobs of some bodies, each with the state in which it is carried out. -/
def carriedOut (handle : Job → σ → Except ε Unit × σ) : List String → σ → List (Job × σ)
  | [], _ => []
  | body :: rest, s =>
    match Job.decode? body with
    | none => carriedOut handle rest s
    | some job => (job, s) :: carriedOut handle rest (handle job s).2

variable (handle : Job → σ → Except ε Unit × σ)

theorem drainAtMost_onMemory (bodies : List String) (c : DrainCounts) (s : σ) :
    (onMemory handle).drainAtMost (bodies.length + 1) c (⟨bodies⟩, s) =
      (.ok (workOff handle bodies c s).1, (⟨[]⟩, (workOff handle bodies c s).2)) := by
  induction bodies generalizing c s with
  | nil => rfl
  | cons body rest ih =>
    have hpop : (onMemory handle).pop (⟨body :: rest⟩, s) = .ok (some (body, (⟨rest⟩, s))) := rfl
    rw [List.length_cons, drainAtMost, hpop, workOff]
    dsimp only
    unfold process
    cases Job.decode? body with
    | none => exact ih _ _
    | some job => exact ih _ _

/-- All bodies are worked off. -/
theorem drain_onMemory (bodies : List String) (s : σ) :
    (onMemory handle).drain (⟨bodies⟩, s) =
      (.ok (workOff handle bodies .zero s).1, (⟨[]⟩, (workOff handle bodies .zero s).2)) :=
  drainAtMost_onMemory handle bodies .zero s

variable {handle}

/-- Two ways to carry out jobs do the same with all of them if they do so with each. -/
theorem workOff_alike {handle' : Job → τ → Except δ Unit × τ} {R : σ → τ → Prop}
    {bodies : List String} {s : σ} {t : τ} (h : R s t)
    (hstep : ∀ x ∈ carriedOut handle bodies s, ∀ t, R x.2 t →
      ((handle x.1 x.2).1 = .ok () ↔ (handle' x.1 t).1 = .ok ()) ∧
        R (handle x.1 x.2).2 (handle' x.1 t).2) (c : DrainCounts) :
    (workOff handle bodies c s).1 = (workOff handle' bodies c t).1 ∧
      R (workOff handle bodies c s).2 (workOff handle' bodies c t).2 := by
  induction bodies generalizing c s t with
  | nil => exact ⟨rfl, h⟩
  | cons body rest ih =>
    unfold workOff
    unfold carriedOut at hstep
    cases hbody : Job.decode? body with
    | none =>
      rw [hbody] at hstep
      exact ih h hstep _
    | some job =>
      rw [hbody] at hstep
      obtain ⟨hresult, hafter⟩ := hstep (job, s) List.mem_cons_self t h
      dsimp only
      rw [DrainCounts.countJob_eq hresult]
      exact ih hafter (fun x hx => hstep x (List.mem_cons_of_mem _ hx)) _

/-- The jobs that are carried out are those of the bodies. -/
theorem exists_body_of_mem_carriedOut {bodies : List String} {s : σ} {x : Job × σ}
    (h : x ∈ carriedOut handle bodies s) : ∃ body ∈ bodies, Job.decode? body = some x.1 := by
  induction bodies generalizing s with
  | nil => cases h
  | cons body rest ih =>
    unfold carriedOut at h
    cases hbody : Job.decode? body with
    | none =>
      rw [hbody] at h
      obtain ⟨other, hother, hdecode⟩ := ih h
      exact ⟨other, List.mem_cons_of_mem body hother, hdecode⟩
    | some job =>
      rw [hbody] at h
      rcases List.mem_cons.1 h with rfl | h
      · exact ⟨body, List.mem_cons_self, hbody⟩
      · obtain ⟨other, hother, hdecode⟩ := ih h
        exact ⟨other, List.mem_cons_of_mem body hother, hdecode⟩

variable (handle)

/-- Calls a handler with some jobs, one after the other. Gives each call with its answer, and the state
after the last one. -/
def callEach : List Job → σ → List (Job × Except ε Unit) × σ
  | [], s => ([], s)
  | job :: rest, s =>
    let (answer, s) := handle job s
    let (calls, s) := callEach rest s
    ((job, answer) :: calls, s)

/-- The handler, with a list to which it adds each call of it. -/
def logging (job : Job) (s : σ × List (Job × Except ε Unit)) :
    Except ε Unit × (σ × List (Job × Except ε Unit)) :=
  let (answer, after) := handle job s.1
  (answer, (after, s.2 ++ [(job, answer)]))

theorem map_fst_callEach (jobs : List Job) (s : σ) : (callEach handle jobs s).1.map Prod.fst = jobs := by
  induction jobs generalizing s with
  | nil => rfl
  | cons job rest ih => exact congrArg (job :: ·) (ih _)

/-- A handler that records its calls gives the same answers, and the record is that of these calls. -/
theorem callEach_logging (jobs : List Job) (s : σ) (log : List (Job × Except ε Unit)) :
    callEach (logging handle) jobs (s, log) =
      ((callEach handle jobs s).1, ((callEach handle jobs s).2, log ++ (callEach handle jobs s).1)) := by
  induction jobs generalizing s log with
  | nil => simp only [callEach, List.append_nil]
  | cons job rest ih => simp only [callEach, logging, ih, List.append_assoc, List.singleton_append]

/-- The counts after some more jobs have been answered so, and some more bodies held none. -/
def tally (c : DrainCounts) (calls : List (Job × Except ε Unit)) (bodies : List String) : DrainCounts :=
  ⟨c.handled + calls.countP (·.2.isOk), c.failed + calls.countP (fun call => !call.2.isOk),
    c.malformed + bodies.countP fun body => (Job.decode? body).isNone⟩

/-- Working off bodies calls the handler with the jobs among them. -/
theorem workOff_eq_callEach (bodies : List String) (c : DrainCounts) (s : σ) :
    workOff handle bodies c s =
      let (calls, after) := callEach handle (bodies.filterMap Job.decode?) s
      (tally c calls bodies, after) := by
  induction bodies generalizing c s with
  | nil => rfl
  | cons body rest ih =>
    unfold workOff
    cases hbody : Job.decode? body with
    | none =>
      rw [List.filterMap_cons_none hbody]
      refine (ih _ s).trans ?_
      simp [tally, DrainCounts.countMalformed, hbody, Nat.add_assoc, Nat.add_comm 1]
    | some job =>
      rw [List.filterMap_cons_some hbody]
      refine (ih _ _).trans ?_
      -- the answer to the call decides which of the two counts it adds to
      cases hanswer : (handle job s).1 <;>
        simp [callEach, tally, DrainCounts.countJob, hbody, hanswer, Except.isOk, Except.toBool,
          Nat.add_assoc, Nat.add_comm 1]

/-- Every body is counted once. -/
theorem total_workOff (bodies : List String) (c : DrainCounts) (s : σ) :
    (workOff handle bodies c s).1.total = c.total + bodies.length := by
  induction bodies generalizing c s with
  | nil => rfl
  | cons body rest ih =>
    unfold workOff
    cases Job.decode? body with
    | none =>
      rw [ih, DrainCounts.total_countMalformed, List.length_cons]
      omega
    | some job =>
      rw [ih, DrainCounts.total_countJob, List.length_cons]
      omega

/-- Draining a queue in memory leaves it empty, and calls the handler once for each body that holds a
job, in the order of the queue and with that job, each time in the state that the call before has left;
a handler that records its calls finds exactly these. The calls that succeed, those that fail and the
bodies without a job are counted, and together they are all bodies. -/
theorem drain_calls_each (q : MemoryQueue) (s : σ) :
    let jobs := q.bodies.filterMap Job.decode?
    let (calls, after) := callEach handle jobs s
    ∃ counts,
      (onMemory handle).drain (q, s) = (.ok counts, (.empty, after)) ∧
      (onMemory (logging handle)).drain (q, (s, [])) = (.ok counts, (.empty, (after, calls))) ∧
      calls.map Prod.fst = jobs ∧
      counts.handled = calls.countP (·.2.isOk) ∧
      counts.failed = calls.countP (fun call => !call.2.isOk) ∧
      counts.malformed = q.bodies.countP (fun body => (Job.decode? body).isNone) ∧
      counts.total = q.size := by
  intro jobs
  have hworked := workOff_eq_callEach handle q.bodies .zero s
  have hrecorded := workOff_eq_callEach (logging handle) q.bodies .zero (s, [])
  have htotal := total_workOff handle q.bodies .zero s
  rw [callEach_logging, List.nil_append] at hrecorded
  dsimp only at hworked hrecorded ⊢
  refine ⟨tally .zero (callEach handle jobs s).1 q.bodies, ?_, ?_, map_fst_callEach handle jobs s,
    Nat.zero_add _, Nat.zero_add _, Nat.zero_add _, ?_⟩
  · rw [drain_onMemory handle q.bodies s, hworked]
    rfl
  · rw [drain_onMemory (logging handle) q.bodies (s, []), hrecorded]
    rfl
  · rw [hworked, DrainCounts.total_zero, Nat.zero_add] at htotal
    exact htotal

end Worker

end DataQuality
