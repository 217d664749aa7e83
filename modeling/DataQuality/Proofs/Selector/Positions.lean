import DataQuality.Proofs.Decimal.WholeNumbers
import DataQuality.Proofs.Selector.Cursor
import DataQuality.Selector.Selection
import Mathlib.Data.Nat.PSub

/-!
# Offsets and positions

Neither reading a selector nor evaluating it leaves its bounds. The offset at which a text is read,
and the offset of a fault in it, is within the text and splits no character. A position that is
asked for, however deep in conditions, is read as a double from one on, and stays one or more as a
whole number, so that there is an index before it. Evaluating with a subtraction that fails below
zero therefore gives what evaluating gives.
-/
namespace DataQuality.Selector

open Markup

section Counting

mutual

/-- The positions that a path asks for, in the conditions of its steps and in the paths there. -/
def Path.positions : Path → List ℕ
  | .mk _ steps => Steps.positions steps

def Steps.positions : List Step → List ℕ
  | [] => []
  | step :: rest => step.positions ++ Steps.positions rest

def Step.positions : Step → List ℕ
  | .mk _ _ conditions => Conditions.positions conditions

def Conditions.positions : List Condition → List ℕ
  | [] => []
  | condition :: rest => condition.positions ++ Conditions.positions rest

/-- The positions that a condition asks for: its own, or those of its path. -/
def Condition.positions : Condition → List ℕ
  | .position n => [n]
  | .present path => path.positions
  | .compares path _ _ => path.positions

end

/-- A whole number is a number. -/
theorem parts_ne_of_isWhole {x : Float} (h : isWhole x = true) :
    Double.parts x ≠ .notANumber := by
  intro hx
  have hfinite : x.isFinite = false := by
    rw [Double.isFinite_eq, hx]
    rfl
  unfold isWhole at h
  rw [hfinite, Bool.and_false, Bool.or_false] at h
  exact Double.parts_ne_of_beq h hx

/-- Positions are counted from one. -/
theorem one_le_of_positionOf? {x : Float} {n : ℕ} (h : positionOf? x = some n) : 1 ≤ n := by
  unfold positionOf? at h
  split_ifs at h with hno
  obtain rfl := Option.some.inj h
  rw [Bool.or_eq_true, not_or, decide_eq_true_iff, Bool.not_eq_true', Bool.not_eq_false] at hno
  exact Double.one_le_toNat_toUInt64 hno.1 (parts_ne_of_isWhole hno.2)

/-- Every position is one or more. -/
def FromOne (positions : List ℕ) : Prop := ∀ n ∈ positions, 1 ≤ n

theorem fromOne_nil : FromOne [] := fun _ h => nomatch h

theorem fromOne_append {ms ns : List ℕ} : FromOne (ms ++ ns) ↔ FromOne ms ∧ FromOne ns :=
  List.forall_mem_append

/-- What is read, if anything is, has a property. -/
def Gives {α : Type} (good : α → Prop) (r : Except Fault (α × List Char)) : Prop :=
  ∀ a rest, r = .ok (a, rest) → good a

variable {α β : Type} {good : α → Prop} {fine : β → Prop}

theorem Gives.ok {a : α} {rest : List Char} (h : good a) : Gives good (.ok (a, rest)) := by
  intro a' rest' heq
  obtain ⟨rfl, -⟩ := Prod.mk.inj (Except.ok.inj heq)
  exact h

theorem Gives.error (fault : Fault) : Gives good (.error fault) := fun _ _ h => nomatch h

theorem Gives.bind {r : Except Fault (α × List Char)}
    {n : α × List Char → Except Fault (β × List Char)} (hr : Gives good r)
    (hn : ∀ a rest, good a → Gives fine (n (a, rest))) : Gives fine (r >>= n) := by
  cases r with
  | error fault => exact .error fault
  | ok read => exact hn _ _ (hr _ _ rfl)

/-- Whatever is read. -/
theorem gives_true (r : Except Fault (α × List Char)) : Gives (fun _ => True) r :=
  fun _ _ _ => trivial

-- The induction is on the steps of the readers. Only a condition brings a position in.
mutual

theorem gives_readPath (fuel : ℕ) (cs : List Char) :
    Gives (fun path => FromOne path.positions) (readPath fuel cs) := by
  match fuel with
  | 0 => exact .error _
  | fuel + 1 =>
    unfold readPath
    split
    · next heq => cases heq
    · next heq =>
      cases heq
      exact (gives_readSteps fuel _).bind fun steps rest hsteps => .ok hsteps
    · next heq =>
      cases heq
      split
      · exact (gives_readSteps fuel _).bind fun steps rest hsteps => .ok hsteps
      · exact .ok fromOne_nil
    · next heq _ _ =>
      cases heq
      exact (gives_readSteps fuel _).bind fun steps rest hsteps => .ok hsteps

theorem gives_readSteps (fuel : ℕ) (cs : List Char) :
    Gives (fun steps => FromOne (Steps.positions steps)) (readSteps fuel cs) := by
  match fuel with
  | 0 => exact .error _
  | fuel + 1 =>
    unfold readSteps
    refine (gives_readStep fuel cs).bind fun step rest hstep => ?_
    dsimp only
    split
    · exact (gives_readSteps fuel _).bind fun steps rest hsteps =>
        .ok (fromOne_append.2 ⟨hstep, hsteps⟩)
    · exact (gives_readSteps fuel _).bind fun steps rest hsteps =>
        .ok (fromOne_append.2 ⟨hstep, hsteps⟩)
    · exact .ok (fromOne_append.2 ⟨hstep, fromOne_nil⟩)

theorem gives_readStep (fuel : ℕ) (cs : List Char) :
    Gives (fun step => FromOne step.positions) (readStep fuel cs) := by
  match fuel with
  | 0 => exact .error _
  | fuel + 1 =>
    have hstep (axis : Axis) (test : NodeTest) (rest : List Char) :
        Gives (fun step => FromOne step.positions) (do
          let (conditions, rest) ← readConditions fuel rest
          pure (Step.mk axis test conditions, rest)) :=
      (gives_readConditions fuel rest).bind fun conditions rest hconditions => .ok hconditions
    unfold readStep
    split
    · next heq => cases heq
    · exact .ok fromOne_nil
    · exact .ok fromOne_nil
    · next heq =>
      cases heq
      exact (gives_true _).bind fun test rest _ => hstep .attributes test rest
    · next heq _ _ _ =>
      cases heq
      exact (gives_true _).bind fun named rest _ =>
        (gives_true _).bind fun test rest _ => hstep _ test rest

theorem gives_readConditions (fuel : ℕ) (cs : List Char) :
    Gives (fun conditions => FromOne (Conditions.positions conditions))
      (readConditions fuel cs) := by
  match fuel with
  | 0 => exact .error _
  | fuel + 1 =>
    unfold readConditions
    split
    · refine (gives_readCondition fuel _).bind fun condition rest hcondition => ?_
      dsimp only
      split
      · exact (gives_readConditions fuel _).bind fun conditions rest hconditions =>
          .ok (fromOne_append.2 ⟨hcondition, hconditions⟩)
      · exact .error _
    · exact .ok fromOne_nil

theorem gives_readCondition (fuel : ℕ) (cs : List Char) :
    Gives (fun condition => FromOne condition.positions) (readCondition fuel cs) := by
  match fuel with
  | 0 => exact .error _
  | fuel + 1 =>
    unfold readCondition
    dsimp only
    split
    · refine (gives_true _).bind fun x rest _ => ?_
      dsimp only
      cases hposition : positionOf? x with
      | none => exact .error _
      | some n => exact .ok (List.forall_mem_singleton.2 (one_le_of_positionOf? hposition))
    · refine (gives_readPath fuel _).bind fun path rest hpath => ?_
      dsimp only
      split
      · exact (gives_true _).bind fun literal rest _ => .ok hpath
      · exact (gives_true _).bind fun literal rest _ => .ok hpath
      · exact .ok hpath

end

theorem gives_readBranches (fuel : ℕ) (cs : List Char) :
    Gives (fun paths => ∀ path ∈ paths, FromOne path.positions)
      (Reading.toEnd (readBranches fuel cs)) := by
  induction fuel generalizing cs with
  | zero => exact .error _
  | succ fuel ih =>
    rw [readBranches, Reading.toEnd_bind]
    refine (gives_readPath fuel cs).bind fun path rest hpath => ?_
    dsimp only
    split
    · exact .ok (List.forall_mem_singleton.2 hpath)
    · rw [Reading.toEnd_cons]
      exact (ih _).bind fun others rest hothers => .ok (List.forall_mem_cons.2 ⟨hpath, hothers⟩)
    · exact .error _

/-- What is read as a selector asks for positions from one on. -/
theorem fromOne_of_readAll {cs : List Char} {paths : List Path} (h : readAll cs = .ok paths) :
    ∀ path ∈ paths, FromOne path.positions := by
  unfold readAll at h
  split at h
  · cases h
  · exact gives_readBranches _ _ paths [] (congrArg Reading.toEnd h)

end Counting

section Checked

mutual

/-- What a path finds from a place, if every index is there that its conditions ask for. -/
def Path.select? (scope : Scope) : Path → Place → Option (List Item)
  | .mk absolute steps, p => Steps.select? scope steps [.node (if absolute then scope.top else p)]

/-- What some steps find from these items, one step after the other. -/
def Steps.select? (scope : Scope) : List Step → List Item → Option (List Item)
  | [], items => some items
  | step :: rest, items => do
    let found ← items.mapM fun item =>
      match item with
      | .node p => Step.select? scope step p
      | .attr _ _ _ => some []
    Steps.select? scope rest (inOrder found.flatten)

def Step.select? (scope : Scope) : Step → Place → Option (List Item)
  | .mk axis test conditions, p =>
    Conditions.filter? scope conditions (scope.candidates axis test p)

def Conditions.filter? (scope : Scope) : List Condition → List Item → Option (List Item)
  | [], items => some items
  | condition :: rest, items => do
    let left ← Condition.filter? scope condition items
    Conditions.filter? scope rest left

/-- What is left of some items after a condition. The index of a position is one less than it, and
there is none less than zero. -/
def Condition.filter? (scope : Scope) : Condition → List Item → Option (List Item)
  | .position n, items => (n.psub 1).map fun index => (items.drop index).take 1
  | .present path, items =>
    items.filterM fun item =>
      match item with
      | .node p => (Path.select? scope path p).map fun found => !found.isEmpty
      | .attr _ _ _ => some false
  | .compares path equal literal, items =>
    items.filterM fun item =>
      match item with
      | .node p => (Path.select? scope path p).map fun found =>
          found.any fun x => literal.equals x.stringValue == equal
      | .attr _ _ _ => some false

end

/-- What some paths find from a place, in document order. -/
def selectAll? (scope : Scope) (paths : List Path) (p : Place) : Option (List Item) :=
  (paths.mapM fun path => Path.select? scope path p).map fun found => inOrder found.flatten

theorem filterM_some {α : Type} (keep : α → Bool) (xs : List α) :
    xs.filterM (fun x => some (keep x)) = some (xs.filter keep) := by
  have haux (kept : List α) : xs.filterAuxM (fun x => some (keep x)) kept =
      some ((xs.filter keep).reverse ++ kept) := by
    induction xs generalizing kept with
    | nil => rfl
    | cons x xs ih =>
      unfold List.filterAuxM
      cases hx : keep x <;> simp [hx, ih]
  unfold List.filterM
  rw [haux]
  simp

/-- What is asked of the nodes is answered. -/
theorem filterM_nodes {keep? : Place → Option Bool} {keep : Place → Bool}
    (h : ∀ p, keep? p = some (keep p)) (items : List Item) :
    items.filterM (fun item => match item with
      | .node p => keep? p
      | .attr _ _ _ => some false) =
        some (items.filter fun item => match item with
          | .node p => keep p
          | .attr _ _ _ => false) := by
  rw [← filterM_some]
  congr 1
  funext item
  cases item with
  | node p => exact h p
  | attr owner slot content => rfl

/-- What is looked for from the nodes is found. -/
theorem mapM_nodes {find? : Place → Option (List Item)} {find : Place → List Item}
    (h : ∀ p, find? p = some (find p)) (items : List Item) :
    items.mapM (fun item => match item with
      | .node p => find? p
      | .attr _ _ _ => some []) =
        some (items.map fun item => match item with
          | .node p => find p
          | .attr _ _ _ => []) := by
  refine Eq.trans ?_ List.mapM_pure
  congr 1
  funext item
  cases item with
  | node p => exact h p
  | attr owner slot content => rfl

variable {scope : Scope}

-- The induction is on the selector. Only a position has an index, and it is there because the
-- position is one or more.
mutual

theorem select?_path (path : Path) (h : FromOne path.positions) (p : Place) :
    Path.select? scope path p = some (path.select scope p) := by
  match path with
  | .mk absolute steps =>
    rw [Path.select?, Path.select]
    exact select?_steps steps h _

theorem select?_steps (steps : List Step) (h : FromOne (Steps.positions steps))
    (items : List Item) :
    Steps.select? scope steps items = some (Steps.select scope steps items) := by
  match steps with
  | [] => rw [Steps.select?, Steps.select]
  | step :: rest =>
    obtain ⟨hstep, hrest⟩ := fromOne_append.1 h
    rw [Steps.select?, Steps.select, mapM_nodes (select?_step step hstep)]
    exact select?_steps rest hrest _

theorem select?_step (step : Step) (h : FromOne step.positions) (p : Place) :
    Step.select? scope step p = some (step.select scope p) := by
  match step with
  | .mk axis test conditions =>
    rw [Step.select?, Step.select]
    exact filter?_conditions conditions h _

theorem filter?_conditions (conditions : List Condition)
    (h : FromOne (Conditions.positions conditions)) (items : List Item) :
    Conditions.filter? scope conditions items =
      some (Conditions.filter scope conditions items) := by
  match conditions with
  | [] => rw [Conditions.filter?, Conditions.filter]
  | condition :: rest =>
    obtain ⟨hcondition, hrest⟩ := fromOne_append.1 h
    rw [Conditions.filter?, Conditions.filter, filter?_condition condition hcondition items]
    exact filter?_conditions rest hrest _

theorem filter?_condition (condition : Condition) (h : FromOne condition.positions)
    (items : List Item) :
    Condition.filter? scope condition items = some (condition.filter scope items) := by
  match condition with
  | .position n =>
    have hindex : n.psub 1 = some (n - 1) := Nat.psub_eq_sub (h n List.mem_cons_self)
    rw [Condition.filter?, Condition.filter, hindex, Option.map_some]
  | .present path =>
    rw [Condition.filter?, Condition.filter]
    exact filterM_nodes (fun p => congrArg (Option.map _) (select?_path path h p)) items
  | .compares path equal literal =>
    rw [Condition.filter?, Condition.filter]
    exact filterM_nodes (fun p => congrArg (Option.map _) (select?_path path h p)) items

end

theorem selectAll?_eq {paths : List Path} (h : ∀ path ∈ paths, FromOne path.positions) (p : Place) :
    selectAll? scope paths p = some (selectAll scope paths p) := by
  have hfound : paths.mapM (fun path => Path.select? scope path p) =
      some (paths.map fun path => path.select scope p) := by
    induction paths with
    | nil => rfl
    | cons path rest ih =>
      rw [List.forall_mem_cons] at h
      rw [List.mapM_cons, select?_path path h.1 p, ih h.2]
      rfl
  unfold selectAll? selectAll
  rw [hfound]
  rfl

end Checked

/-- What a selector finds from a place of a document, if every index is there. -/
def select? (s : Selector) (document : Node) (context : Place) : Option (List Item) :=
  selectAll? (Scope.ofDocument document) s.branches context

/-- What a selector finds from a unit of a document, if every index is there. -/
def selectUnit? (s : Selector) (document : Node) (unit : Place) : Option (List Item) :=
  selectAll? (Scope.ofUnit document unit) s.branches unit

/-- Reading and evaluating stay within their bounds. Read with a cursor, a text gives what it gives
read by characters. Wherever the cursor has been, and where a fault is, is an offset within the text
that splits no character. The positions that a selector asks for, at any depth, are counted from
one, so a subtraction that fails below zero does not fail for them. -/
theorem parse_within_bounds (s : String) :
    (∀ n ∈ (Reading.selector.runOn s .start).2.visited, n ≤ s.utf8ByteSize ∧ IsBoundary s n) ∧
      match Selector.parse s with
      | .error e =>
        (Reading.selector.runOn s .start).1 = .error (.fault e.offset e.reason) ∧
          e.offset ≤ s.utf8ByteSize ∧ IsBoundary s e.offset
      | .ok selector =>
        (Reading.selector.runOn s .start).1 = .ok selector.branches ∧
          (∀ path ∈ selector.branches, ∀ n ∈ path.positions, 1 ≤ n) ∧
          ∀ document p, selector.select? document p = some (selector.select document p) ∧
            selector.selectUnit? document p = some (selector.selectUnit document p) := by
  have hrun := Reading.reads_selector s .start (stands_start s)
  unfold Selector.parse
  cases hread : readAll s.toList with
  | error fault =>
    rw [hread] at hrun
    obtain ⟨n, c, hfault, hfaces, hvisited⟩ := hrun.exists_of_fault
    rw [hfault]
    have hoffset := hfaces.offset_eq
    subst hoffset
    exact ⟨fun n hn => ⟨(hvisited n hn).le_rawEndPos, hvisited n hn⟩, rfl,
      hfaces.isBoundary.le_rawEndPos, hfaces.isBoundary⟩
  | ok branches =>
    rw [hread] at hrun
    obtain ⟨c, hok, hstands, -⟩ := hrun.exists_of_ok
    rw [hok]
    have hpositions := fromOne_of_readAll hread
    exact ⟨fun n hn => ⟨(hstands.visited n hn).le_rawEndPos, hstands.visited n hn⟩, rfl, hpositions,
      fun document p => ⟨selectAll?_eq hpositions p, selectAll?_eq hpositions p⟩⟩

end DataQuality.Selector
