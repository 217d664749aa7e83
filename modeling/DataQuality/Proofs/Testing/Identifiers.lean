import DataQuality.Proofs.Testing.Results

/-!
# The identifiers of activities

An activity is recognised by the text that its identifier element begins with. What else the element
holds after this text does not matter; but with a comment, an instruction or an element before it, or
with no text at all, the activity counts as one without an identifier, whatever its string-value is.
-/
namespace DataQuality

open Markup (Node Place)

/-- A text that an element begins with stands at the beginning of its string-value. -/
theorem Markup.Node.stringValue_eq_append {n : Node} {s : String} {rest : List Node}
    (h : n.children = .text s :: rest) :
    n.stringValue = s ++ String.ofList (Node.textCharsAll rest) := by
  have hchars : n.textChars = s.toList ++ Node.textCharsAll rest := by
    cases n with
    | root cs =>
      obtain rfl : cs = .text s :: rest := h
      simp [Node.textChars, Node.textCharsAll]
    | element name attributes cs =>
      obtain rfl : cs = .text s :: rest := h
      simp [Node.textChars, Node.textCharsAll]
    | text => cases h
    | comment => cases h
    | instruction => cases h
  unfold Node.stringValue
  rw [hchars, String.ofList_append, String.ofList_toList]

namespace TestPlan

variable {σ : Type} [Datastore σ]

/-- The identifier of an activity is the text that its first identifier element begins with. -/
theorem identifier?_eq_some_iff {activity element : Node} {name : String}
    (h : activity.child? "iati-identifier" = some element) :
    identifier? activity = some name ↔
      name ≠ "" ∧ ∃ rest, element.children = .text name :: rest := by
  have hnamed : element.isNamed "iati-identifier" = true := by
    unfold Node.child? at h
    simpa using List.find?_some h
  unfold identifier? Node.childText?
  rw [h, Option.bind_some, Option.filter_eq_some_iff, Node.leadingText?_eq_some_iff hnamed]
  simp [and_comm]

/-- Tests an activity and its transactions under an identifier; all results fail where that is
forced. -/
def testAs (plan : TestPlan) (forced : Bool) (name : String) (o : OrganisationId) (document : Node)
    (activity : Place) : Testing σ Nat := do
  let c ← Testing.context
  Testing.flush
    (results c (some name) (hierarchy activity.node) o (plan.activityVerdicts forced document activity))
    ("Test activity " ++ name)

/-- In every store, the activity is tested under this identifier, and what its rules say of it is
kept. -/
def Recognises (plan : TestPlan) (o : OrganisationId) (document : Node) (activity : Place)
    (name : String) : Prop :=
  ∀ {σ : Type} [Datastore σ],
    plan.testActivity (σ := σ) o document activity = plan.testAs false name o document activity

/-- In every store, the activity is tested under a made-up identifier, and fails. -/
def Overrides (plan : TestPlan) (o : OrganisationId) (document : Node) (activity : Place) : Prop :=
  (∀ {σ : Type} [Datastore σ], plan.testActivity (σ := σ) o document activity = do
      let name ← Testing.nextMissing
      plan.testAs true name o document activity) ∧
    ∀ v ∈ plan.activityVerdicts true document activity, v.2 = .fail

variable {plan : TestPlan} {o : OrganisationId} {document : Node} {activity : Place}

theorem recognises_of_identifier?_eq_some {name : String}
    (h : identifier? activity.node = some name) : plan.Recognises o document activity name := by
  intro σ _
  unfold testActivity testAs
  rw [h]
  rfl

theorem overrides_of_identifier?_eq_none (h : identifier? activity.node = none) :
    plan.Overrides o document activity := by
  constructor
  · intro σ _
    unfold testActivity testAs
    rw [h]
    rfl
  · intro v hv
    simp only [activityVerdicts, verdicts, if_true, List.mem_append, List.mem_flatMap,
      List.mem_map] at hv
    obtain ⟨r, -, rfl⟩ | ⟨t, -, r, -, rfl⟩ := hv
    · rfl
    · rfl

/-- Making up an identifier shows in the context of the run. -/
theorem not_recognises_of_identifier?_eq_none (h : identifier? activity.node = none) (name : String) :
    ¬ plan.Recognises o document activity name := by
  intro hrecognises
  have hstore := reliable_memoryStore 0
  let c := RunContext.start ⟨1⟩ ⟨1⟩ ⟨0, 0⟩
  obtain ⟨s, hrun, -⟩ := Completes.testActivity hstore plan document (c := c) o activity
    MemoryStore.empty.ledger.tables [] MemoryStore.empty rfl rfl
  obtain ⟨s', hrun', -⟩ := (Completes.context.after (Completes.flush hstore _ _) :
    Completes _ (plan.testAs false name o document activity) c _ c _)
    MemoryStore.empty.ledger.tables [] MemoryStore.empty rfl rfl
  rw [hrecognises] at hrun
  have hmissing := congrArg (fun r => r.2.context.missing) (hrun.symm.trans hrun')
  simp [RunContext.madeUp, unnamedIn, h] at hmissing

/-- An activity is recognised exactly if its first identifier element begins with a text that is not
empty. That text is the identifier, and the string-value of the element begins with it. All other
activities fail under made-up identifiers. -/
theorem recognises_iff_begins_with_text (plan : TestPlan) (o : OrganisationId) (document : Node)
    {activity : Place} {element : Node}
    (h : activity.node.child? "iati-identifier" = some element) :
    ((∃ name, plan.Recognises o document activity name) ↔
      ∃ name rest, name ≠ "" ∧ element.children = .text name :: rest) ∧
    (∀ name rest, name ≠ "" → element.children = .text name :: rest →
      plan.Recognises o document activity name ∧
        element.stringValue = name ++ String.ofList (Node.textCharsAll rest)) ∧
    ((¬ ∃ name rest, name ≠ "" ∧ element.children = .text name :: rest) →
      plan.Overrides o document activity) := by
  have hrecognised (name : String) (rest : List Node) (hname : name ≠ "")
      (hrest : element.children = .text name :: rest) : plan.Recognises o document activity name :=
    recognises_of_identifier?_eq_some ((identifier?_eq_some_iff h).2 ⟨hname, rest, hrest⟩)
  have hunnamed (hnone : ¬ ∃ name rest, name ≠ "" ∧ element.children = .text name :: rest) :
      identifier? activity.node = none := by
    rw [Option.eq_none_iff_forall_ne_some]
    intro name hname
    obtain ⟨hne, rest, hrest⟩ := (identifier?_eq_some_iff h).1 hname
    exact hnone ⟨name, rest, hne, hrest⟩
  refine ⟨⟨fun ⟨name, hname⟩ => ?_, fun ⟨name, rest, hne, hrest⟩ => ?_⟩, ?_, ?_⟩
  · by_contra hnone
    exact not_recognises_of_identifier?_eq_none (hunnamed hnone) name hname
  · exact ⟨name, hrecognised name rest hne hrest⟩
  · intro name rest hne hrest
    exact ⟨hrecognised name rest hne hrest, Node.stringValue_eq_append hrest⟩
  · intro hnone
    exact overrides_of_identifier?_eq_none (hunnamed hnone)

/-- A document with one activity, whose identifier element holds these nodes. -/
def identifiedBy (parts : List Node) : Node :=
  .root [.element "iati-activity" [] [.element "iati-identifier" [] parts]]

/-- The activity of the document. -/
def identifiedActivity (parts : List Node) : Place :=
  ⟨[0], .element "iati-activity" [] [.element "iati-identifier" [] parts]⟩

/-- A comment inside an identifier cuts it short, but does not hide it. -/
theorem recognises_iff_begins_with_text_cut_short :
    let element : Node := .element "iati-identifier" [] [.text "GB-1", .comment "new", .text "-123"]
    let activity := identifiedActivity element.children
    activity.node.child? "iati-identifier" = some element ∧
      unreadablePlan.Recognises ⟨5⟩ (identifiedBy element.children) activity "GB-1" ∧
      element.stringValue = "GB-1" ++ "-123" := by
  intro element activity
  have helement : activity.node.child? "iati-identifier" = some element := rfl
  obtain ⟨-, hrecognises, -⟩ := recognises_iff_begins_with_text unreadablePlan ⟨5⟩
    (identifiedBy element.children) helement
  exact ⟨helement, hrecognises "GB-1" [.comment "new", .text "-123"] (by decide) rfl⟩

/-- A comment before the text hides an identifier whose string-value is not empty. -/
theorem not_recognises_of_comment_first :
    ¬ ∀ (plan : TestPlan) (o : OrganisationId) (document : Node) (activity : Place) (element : Node),
      activity.node.child? "iati-identifier" = some element → element.stringValue ≠ "" →
        ∃ name, plan.Recognises o document activity name := by
  intro hall
  let parts : List Node := [.comment "new", .text "GB-1-123"]
  have hvalue : (Node.element "iati-identifier" [] parts).stringValue ≠ "" := by decide
  obtain ⟨name, hname⟩ := hall unreadablePlan ⟨5⟩ (identifiedBy parts) (identifiedActivity parts) _
    rfl hvalue
  exact not_recognises_of_identifier?_eq_none rfl name hname

end TestPlan

end DataQuality
