import DataQuality.Proofs.Keyed
import DataQuality.Proofs.Testing.Steadiness

/-!
# Sessions

A session keeps the contexts of its runs from one package to the next. All that it keeps
in this way is how many identifiers have been made up in each run: a session without a
memory does the same with a package, unless an identifier is made up for it in a run in
which there were some before.
-/
namespace DataQuality

namespace TestSession

variable {σ : Type} {session : TestSession σ} {now : Instant}

/-- How many identifiers have been made up in a run. -/
def madeUp (session : TestSession σ) (r : RuntimeId) : Nat :=
  (session.runs.lookup r).elim 0 (·.missing)

def BeganAt (session : TestSession σ) (now : Instant) : Prop :=
  ∀ r c, session.runs.lookup r = some c → c.runtimeId = r ∧ c.now = now

theorem beganAt_start (s : σ) : (start s).BeganAt now := fun _ _ h => by cases h

theorem contextFor_eq (h : session.BeganAt now) (r : RuntimeId) (p : PackageId) :
    session.contextFor r p now = (RunContext.start r p now).withMissing (session.madeUp r) := by
  unfold contextFor madeUp
  cases hlookup : session.runs.lookup r with
  | none => rfl
  | some c =>
    obtain ⟨rfl, rfl⟩ := h r c hlookup
    rfl

/-- The context of a run is replaced, those of the others stay. -/
theorem lookup_replaced (runs : List (RuntimeId × RunContext)) (r q : RuntimeId) (c : RunContext) :
    ((r, c) :: runs.filter (·.1 != r)).lookup q = if q = r then some c else runs.lookup q := by
  rw [List.lookup_cons, Keyed.lookup_filter runs (· != r) q]
  by_cases hq : q = r
  · simp [hq]
  · have hne : (q == r) = false := by simpa using hq
    simp [hq, hne]

theorem check_eq [Datastore σ] (session : TestSession σ) {plan : TestPlan}
    {read : σ → Option String} {r : RuntimeId} {p : PackageId}
    {outcome : Except TestingError PackageOutcome} {after : TestState σ}
    (h : (plan.checkFile read).run ⟨session.contextFor r p now, session.store⟩ = (outcome, after)) :
    session.check plan now read r p =
      (outcome, ⟨after.store, (r, after.context) :: session.runs.filter (·.1 != r)⟩) := by
  unfold check
  rw [h]

/-- Testing a file in a run makes up no identifier in the other runs. -/
theorem madeUp_check [Datastore σ] (session : TestSession σ) (plan : TestPlan) (now : Instant)
    (read : σ → Option String) {r q : RuntimeId} (p : PackageId) (hq : q ≠ r) :
    (session.check plan now read r p).2.madeUp q = session.madeUp q := by
  rw [check_eq session rfl]
  unfold madeUp
  rw [lookup_replaced, if_neg hq]

/-- Testing a file in a session keeps the store in order. Where no identifier had been made
up in the run, or none is made up now, a session without a memory does the same. -/
theorem check_alike [Datastore σ] {u : Upkeep σ} {plan : TestPlan} {read : σ → Option String}
    (hsteady : Steady u now u.Settled u.Settled (plan.checkFile read)) (hnow : session.BeganAt now)
    (hs : u.Settled session.store) (r : RuntimeId) (p : PackageId) :
    let kept := session.check plan now read r p
    let alone := (start session.store).check plan now read r p
    kept.2.BeganAt now ∧ u.Settled kept.2.store ∧
      (session.madeUp r = 0 ∨ kept.2.madeUp r = session.madeUp r →
        alone.1 = kept.1 ∧ alone.2.store = kept.2.store) := by
  intro kept alone
  have hcontext := contextFor_eq hnow r p
  generalize hc : session.contextFor r p now = c at hcontext
  obtain ⟨⟨n, hcounts⟩, halike, hok, herror⟩ :=
    hsteady ⟨c, session.store⟩ (by rw [hcontext]; rfl) hs
  rcases htested : (plan.checkFile read).run ⟨c, session.store⟩ with ⟨outcome, after⟩
  rw [htested] at hcounts halike hok herror
  have hkept : kept = (outcome, ⟨after.store, (r, after.context) :: session.runs.filter (·.1 != r)⟩) :=
    check_eq session (by rw [hc, htested])
  refine ⟨?_, ?_, fun hnames => ?_⟩
  · intro q c' hlookup
    rw [hkept, lookup_replaced] at hlookup
    split at hlookup
    · next hq =>
      obtain rfl := Option.some.inj hlookup
      rw [hq, hcounts, hcontext]
      exact ⟨rfl, rfl⟩
    · exact hnow q c' hlookup
  · rw [hkept]
    cases outcome with
    | ok a => exact hok a rfl
    | error e => exact herror e rfl
  · -- the session without a memory begins as if no identifier had been made up
    have halone : ∃ c', (plan.checkFile read).run ⟨.start r p now, session.store⟩ =
        (outcome, ⟨c', after.store⟩) := by
      by_cases hzero : session.madeUp r = 0
      · rw [hzero] at hcontext
        have hstart : RunContext.start r p now = c := hcontext.symm
        exact ⟨after.context, by rw [hstart, htested]⟩
      · have hmissing : c.missing + n = c.missing := by
          have hmade := hnames.resolve_left hzero
          rw [hkept] at hmade
          unfold madeUp at hmade
          rw [lookup_replaced, if_pos rfl, hcounts] at hmade
          have hbefore : c.missing = session.madeUp r := by rw [hcontext]; rfl
          exact hmade.trans hbefore.symm
        have hsame : after.context = c := by
          have hnone : n = 0 := by omega
          rw [hcounts, hnone]
          rfl
        have hstart : RunContext.start r p now = c.withMissing 0 := by
          rw [hcontext]
          rfl
        exact ⟨c.withMissing 0, by rw [hstart, halike hsame 0]⟩
    obtain ⟨c', halone⟩ := halone
    have hrun : alone = (outcome, ⟨after.store, [(r, c')]⟩) :=
      check_eq (start session.store) halone
    rw [hrun, hkept]
    exact ⟨rfl, rfl⟩

end TestSession

end DataQuality
