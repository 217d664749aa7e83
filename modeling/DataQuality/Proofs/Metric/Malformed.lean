import DataQuality.Proofs.Metric.Isolation

/-!
# Malformed records

A budget without a date at its end or without an amount makes no difference to any metric: one that
is added to an organisation is passed over wherever metrics look for budgets. Metrics look for records
everywhere, though, also inside other records. So a malformed budget has to be without well-formed
records inside; what it holds of them counts.
-/
namespace DataQuality

namespace Markup.Node

/-- The node with other children. Only a root and elements have any. -/
def withChildren (n : Node) (cs : List Node) : Node :=
  match n with
  | root _ => root cs
  | element name as _ => element name as cs
  | _ => n

/-- The node with another one added below the end of a way down, in front of the child of an index. -/
def insertBelow (n : Node) (way : List Nat) (i : Nat) (added : Node) : Node :=
  match way with
  | [] => n.withChildren (n.children.insertIdx i added)
  | j :: way => n.withChildren (n.children.modify j fun c => c.insertBelow way i added)

/-- The way to a node after another one has been added. What stood behind the place of the new node
stands one further. -/
def movedBy (way : List Nat) (i : Nat) (location : List Nat) : List Nat :=
  match way, location with
  | _, [] => []
  | [], j :: rest => (if i ≤ j then j + 1 else j) :: rest
  | j :: way, k :: rest => if j = k then k :: movedBy way i rest else k :: rest

/-- A choice of nodes that leaves organisation elements out and does not see what they hold. -/
structure ChoosesOutside (keep : Node → Bool) : Prop where
  organisation (n : Node) : n.isOrganisation = true → keep n = false
  hollow (n : Node) : n.isOrganisation = false → keep n.hollow = keep n

section Insertion

variable {n o added c : Node} {cs : List Node} {way : List Nat} {i j : Nat} {keep : Node → Bool}

theorem at?_cons (hc : n.children[j]? = some c) (way : List Nat) : n.at? (j :: way) = c.at? way := by
  rw [at?, hc, Option.bind_some]

theorem children_withChildren_of_isOrganisation (h : n.isOrganisation = true) (cs : List Node) :
    (n.withChildren cs).children = cs := by
  cases n with
  | element => rfl
  | _ => cases h

theorem children_withChildren_modify (n : Node) (j : Nat) (f : Node → Node) :
    (n.withChildren (n.children.modify j f)).children = n.children.modify j f := by
  cases n with
  | root | element => rfl
  | _ => exact (List.modify_nil f j).symm

theorem hollow_withChildren (h : n.isOrganisation = false → cs.map hollow = n.children.map hollow) :
    (n.withChildren cs).hollow = n.hollow := by
  cases n with
  | element name as ds =>
    rw [withChildren, hollow, hollow]
    split
    · rfl
    · next hname =>
      have hnot : (element name as ds).isOrganisation = false := by
        simpa [isOrganisation_element] using hname
      rw [hollowAll_eq, hollowAll_eq, h hnot]
      rfl
  | root ds =>
    rw [withChildren, hollow, hollow, hollowAll_eq, hollowAll_eq, h rfl]
    rfl
  | _ => rfl

/-- What is added to an organisation element is part of what that holds. -/
theorem hollow_insertBelow (hat : n.at? way = some o) (ho : o.isOrganisation = true) :
    (n.insertBelow way i added).hollow = n.hollow := by
  induction way generalizing n with
  | nil =>
    obtain rfl := Option.some.inj hat
    exact hollow_withChildren fun hnot => absurd ho (by simp [hnot])
  | cons j way ih =>
    refine hollow_withChildren fun _ => List.ext_getElem? fun k => ?_
    rw [List.getElem?_map, List.getElem?_map, List.getElem?_modify]
    cases hk : n.children[k]? with
    | none => rfl
    | some c =>
      by_cases hjk : j = k
      · subst hjk
        rw [at?_cons hk] at hat
        simp [ih hat]
      · simp [hjk]

theorem sameOutside_of_keep (hkeep : ChoosesOutside keep) (h : keep n = true)
    {n' : Node} (hhollow : n'.hollow = n.hollow) : SameOutside n n' := by
  have hnot : n.isOrganisation = false := by
    by_contra horganisation
    rw [Bool.not_eq_false] at horganisation
    rw [hkeep.organisation n horganisation] at h
    cases h
  exact ⟨hhollow.symm, hnot, (isNamed_eq_of_hollow hhollow).trans hnot⟩

theorem forall₂_filter_refl (hkeep : ChoosesOutside keep) (nodes : List Node) :
    List.Forall₂ SameOutside (nodes.filter keep) (nodes.filter keep) :=
  List.forall₂_same.2 fun _ hn => sameOutside_of_keep hkeep (List.mem_filter.1 hn).2 rfl

theorem keep_eq_of_hollow (hkeep : ChoosesOutside keep) {n' : Node} (hhollow : n'.hollow = n.hollow) :
    keep n' = keep n := by
  have hsame : n'.isOrganisation = n.isOrganisation := isNamed_eq_of_hollow hhollow
  cases horganisation : n.isOrganisation with
  | true =>
    rw [hkeep.organisation n horganisation, hkeep.organisation n' (hsame.trans horganisation)]
  | false =>
    rw [← hkeep.hollow n horganisation, ← hkeep.hollow n' (hsame.trans horganisation), hhollow]

theorem insideAll_eq_flatMap (cs : List Node) : insideAll cs = cs.flatMap fun c => c :: c.inside := by
  induction cs with
  | nil => rfl
  | cons c cs ih => rw [insideAll, ih, List.flatMap_cons, List.cons_append]

theorem inside_eq_flatMap (n : Node) : n.inside = n.children.flatMap fun c => c :: c.inside := by
  rw [inside_eq, insideAll_eq_flatMap]

/-- If nothing is chosen of what comes with a node, then the node makes no difference. -/
theorem filter_flatMap_insertIdx {g : Node → List Node} (hadded : (g added).filter keep = []) :
    ((cs.insertIdx i added).flatMap g).filter keep = (cs.flatMap g).filter keep := by
  induction cs generalizing i with
  | nil => cases i <;> simp [hadded]
  | cons c cs ih =>
    cases i with
    | zero => simp [hadded]
    | succ i =>
      rw [List.insertIdx_succ_cons, List.flatMap_cons, List.flatMap_cons, List.filter_append,
        List.filter_append, ih]

/-- If the same is chosen of what comes with a node, then it is of what comes with all nodes. -/
theorem forall₂_filter_flatMap_modify (hkeep : ChoosesOutside keep) {g : Node → List Node}
    {f : Node → Node} (hf : ∀ c, cs[j]? = some c →
      List.Forall₂ SameOutside ((g c).filter keep) ((g (f c)).filter keep)) :
    List.Forall₂ SameOutside ((cs.flatMap g).filter keep)
      (((cs.modify j f).flatMap g).filter keep) := by
  induction cs generalizing j with
  | nil => simp
  | cons c cs ih =>
    cases j with
    | zero =>
      rw [List.modify_zero_cons, List.flatMap_cons, List.flatMap_cons, List.filter_append,
        List.filter_append]
      exact List.rel_append (hf c rfl) (forall₂_filter_refl hkeep _)
    | succ j =>
      rw [List.modify_succ_cons, List.flatMap_cons, List.flatMap_cons, List.filter_append,
        List.filter_append]
      exact List.rel_append (forall₂_filter_refl hkeep _) (ih fun d hd => hf d hd)

theorem forall₂_filter_cons (hkeep : ChoosesOutside keep) {n' : Node} (hhollow : n'.hollow = n.hollow)
    {xs ys : List Node} (h : List.Forall₂ SameOutside (xs.filter keep) (ys.filter keep)) :
    List.Forall₂ SameOutside ((n :: xs).filter keep) ((n' :: ys).filter keep) := by
  rw [List.filter_cons, List.filter_cons, keep_eq_of_hollow hkeep hhollow]
  split
  · next hchosen => exact .cons (sameOutside_of_keep hkeep hchosen hhollow) h
  · exact h

/-- A node that nothing is chosen of makes no difference to what is chosen below a node. -/
theorem forall₂_filter_flatMap_insertBelow (hkeep : ChoosesOutside keep) {g : Node → List Node}
    (hadded : (g added).filter keep = []) (hat : n.at? way = some o) (ho : o.isOrganisation = true)
    (hg : ∀ j rest c, way = j :: rest → c.at? rest = some o →
      List.Forall₂ SameOutside ((g c).filter keep) ((g (c.insertBelow rest i added)).filter keep)) :
    List.Forall₂ SameOutside ((n.children.flatMap g).filter keep)
      (((n.insertBelow way i added).children.flatMap g).filter keep) := by
  cases way with
  | nil =>
    obtain rfl := Option.some.inj hat
    rw [insertBelow, children_withChildren_of_isOrganisation ho, filter_flatMap_insertIdx hadded]
    exact forall₂_filter_refl hkeep _
  | cons j way =>
    rw [insertBelow, children_withChildren_modify]
    refine forall₂_filter_flatMap_modify hkeep fun c hc => ?_
    exact hg j way c rfl ((at?_cons hc way).symm.trans hat)

/-- If neither a node nor anything inside it is chosen, it makes no difference inside another one. -/
theorem forall₂_filter_inside_insertBelow (hkeep : ChoosesOutside keep)
    (hadded : (added :: added.inside).filter keep = []) (hat : n.at? way = some o)
    (ho : o.isOrganisation = true) :
    List.Forall₂ SameOutside (n.inside.filter keep)
      ((n.insertBelow way i added).inside.filter keep) := by
  induction way generalizing n with
  | nil =>
    rw [inside_eq_flatMap, inside_eq_flatMap]
    refine forall₂_filter_flatMap_insertBelow hkeep hadded hat ho fun j rest c hway _ => ?_
    cases hway
  | cons j way ih =>
    rw [inside_eq_flatMap, inside_eq_flatMap]
    refine forall₂_filter_flatMap_insertBelow hkeep hadded hat ho fun j rest c hway hat => ?_
    obtain ⟨rfl, rfl⟩ := List.cons_eq_cons.1 hway
    exact forall₂_filter_cons hkeep (hollow_insertBelow hat ho) (ih hat)

/-- Nor does it among the children of a node. -/
theorem forall₂_filter_children_insertBelow (hkeep : ChoosesOutside keep)
    (hadded : keep added = false) (hat : n.at? way = some o) (ho : o.isOrganisation = true) :
    List.Forall₂ SameOutside (n.children.filter keep)
      ((n.insertBelow way i added).children.filter keep) := by
  rw [← List.flatMap_singleton' n.children,
    ← List.flatMap_singleton' (n.insertBelow way i added).children]
  refine forall₂_filter_flatMap_insertBelow hkeep (by simp [hadded]) hat ho fun j rest c _ hat => ?_
  exact forall₂_filter_cons hkeep (hollow_insertBelow hat ho) .nil

/-- Every node is still there, as it was or with the new one added below it. -/
theorem at?_insertBelow (added : Node) (i : Nat) (hat : n.at? way = some o)
    (ho : o.isOrganisation = true) {location : List Nat} {m : Node} (hm : n.at? location = some m) :
    ∃ m', (n.insertBelow way i added).at? (movedBy way i location) = some m' ∧
      (m' = m ∨ ∃ way', m' = m.insertBelow way' i added ∧ m.at? way' = some o) := by
  induction way generalizing n location with
  | nil =>
    obtain rfl := Option.some.inj hat
    cases location with
    | nil =>
      obtain rfl := Option.some.inj hm
      exact ⟨_, rfl, .inr ⟨[], rfl, rfl⟩⟩
    | cons k rest =>
      refine ⟨m, ?_, .inl rfl⟩
      have hshift : (n.children.insertIdx i added)[if i ≤ k then k + 1 else k]? = n.children[k]? := by
        split
        · next hle => exact List.getElem?_insertIdx_of_gt (Nat.lt_succ_of_le hle)
        · next hgt => exact List.getElem?_insertIdx_of_lt (Nat.lt_of_not_le hgt)
      rw [movedBy, at?, insertBelow, children_withChildren_of_isOrganisation ho, hshift]
      exact hm
  | cons j way ih =>
    cases location with
    | nil =>
      obtain rfl := Option.some.inj hm
      exact ⟨_, rfl, .inr ⟨j :: way, rfl, hat⟩⟩
    | cons k rest =>
      obtain ⟨c, hc, hrest⟩ := Option.bind_eq_some_iff.1 hm
      rw [movedBy, insertBelow]
      split
      · next hsame =>
        subst hsame
        rw [at?_cons hc] at hat
        obtain ⟨m', hm', hcases⟩ := ih hat hrest
        refine ⟨m', ?_, hcases⟩
        rw [at?, children_withChildren_modify, List.getElem?_modify, hc]
        simpa using hm'
      · next hother =>
        refine ⟨m, ?_, .inl rfl⟩
        rw [at?, children_withChildren_modify, List.getElem?_modify, hc]
        simpa [hother] using hrest

end Insertion

end Markup.Node

namespace Metric

open Markup Node

/-- A total budget or a budget for a recipient country without a date at its end or an amount. -/
structure IsMalformed (record : Node) : Prop where
  named : record.isNamed "total-budget" = true ∨ record.isNamed "recipient-country-budget" = true
  unsound : isSound record = false

section

variable {record : Node}

theorem choosesOutside_named (name : String) (hname : name ≠ organisationName)
    {passes : Node → Bool} (hpasses : ∀ n : Node, n.isOrganisation = false → passes n.hollow = passes n) :
    ChoosesOutside fun n => n.isNamed name && passes n where
  organisation n hn := by rw [isNamed_eq_false hn hname.symm, Bool.false_and]
  hollow n hn := by rw [changesOnly_hollow.isNamed, hpasses n hn]

theorem filter_named_eq (name : String) (passes : Node → Bool) (nodes : List Node) :
    (Node.named name nodes).filter passes = nodes.filter fun n => n.isNamed name && passes n := by
  unfold Node.named
  rw [List.filter_filter]
  simp only [Bool.and_comm]

theorem IsMalformed.isNamed_link (h : IsMalformed record) : record.isNamed "document-link" = false := by
  rcases h.named with hnamed | hnamed
  · exact isNamed_eq_false hnamed (by decide)
  · exact isNamed_eq_false hnamed (by decide)

theorem IsMalformed.not_counted (h : IsMalformed record) (kind : RecordKind) :
    (record.isNamed kind.name && kind.counts record) = false := by
  cases kind with
  | totalBudget => rw [Bool.and_eq_false_iff]; exact .inr h.unsound
  | countryBudget => rw [Bool.and_eq_false_iff]; exact .inr h.unsound
  | documentLink => rw [Bool.and_eq_false_iff]; exact .inl h.isNamed_link

/-- A malformed budget is none of the records that count. -/
theorem agreeOn_insertBelow (h : IsMalformed record) {kind : RecordKind}
    (hinside : counted kind record.inside = []) {d o : Node} {way : List Nat} (i : Nat)
    (hat : d.at? way = some o) (ho : o.isOrganisation = true) :
    AgreeOn kind d (d.insertBelow way i record) := by
  have hkeep : ChoosesOutside fun n => n.isNamed kind.name && kind.counts n :=
    choosesOutside_named kind.name (by cases kind <;> decide) fun n hn => counts_hollow hn kind
  unfold counted at hinside
  rw [filter_named_eq] at hinside
  unfold AgreeOn counted
  rw [filter_named_eq, filter_named_eq]
  refine forall₂_filter_inside_insertBelow hkeep ?_ hat ho
  rw [List.filter_cons, h.not_counted kind, hinside]
  rfl

end

/-- A malformed budget that is added to an organisation element leaves a metric at every node of the
document as it is, value or error, if no record inside it counts for the metric. -/
theorem evaluate_insertBelow {record d : Node} (h : IsMalformed record) {m : Metric}
    (hinside : ∀ kind ∈ m.reads, counted kind record.inside = []) {o p : Place} (ho : o.LiesIn d)
    (horganisation : o.node.isOrganisation = true) (hp : p.LiesIn d) (i : Nat)
    (setting : MetricSetting) :
    ∃ p' : Place, p'.LiesIn (d.insertBelow o.location i record) ∧
      p'.location = movedBy o.location i p.location ∧
      m.evaluate setting (d.insertBelow o.location i record) p' = m.evaluate setting d p := by
  obtain ⟨n, hn, hcases⟩ := at?_insertBelow record i ho horganisation hp
  have hp' : Place.LiesIn (d.insertBelow o.location i record) ⟨movedBy o.location i p.location, n⟩ := hn
  have hkeep : ChoosesOutside fun n => n.isNamed "document-link" && n.isInCategory "B12" :=
    choosesOutside_named "document-link" (by decide) fun n hn => isInCategory_hollow hn "B12"
  have hlinks : List.Forall₂ SameOutside (linksIn "B12" p.node.children) (linksIn "B12" n.children) := by
    unfold linksIn
    rw [filter_named_eq, filter_named_eq]
    rcases hcases with rfl | ⟨way, rfl, hat⟩
    · exact forall₂_filter_refl hkeep _
    · refine forall₂_filter_children_insertBelow hkeep ?_ hat horganisation
      rw [h.isNamed_link, Bool.false_and]
  refine ⟨_, hp', rfl, (evaluate_eq hp hp' hlinks setting m fun kind hkind => ?_).symm⟩
  exact agreeOn_insertBelow h (hinside kind hkind) i ho horganisation

/-- A budget for a recipient country that ends at no date. -/
def undatedBudget (inCountry : List Node) : Node :=
  .element "recipient-country-budget" [] [attributeElement "period-end" "iso-date" "soon",
    textElement "value" "10", .element "recipient-country" [⟨none, "code", "AF"⟩] inCountry]

/-- A document of one organisation. -/
def oneOrganisation (records : List Node) : Node := .root [organisation records]

theorem isMalformed_undatedBudget (inCountry : List Node) : IsMalformed (undatedBudget inCountry) where
  named := .inr rfl
  unsound := by
    have hdate : endDate? (undatedBudget inCountry) = some "soon" := rfl
    have hread : Date.read? "soon" = none := by decide +kernel
    unfold isSound
    rw [hdate, Option.any_some, hread]
    rfl

/-- A budget without a date is added in front of one that counts. -/
theorem evaluate_insertBelow_undated :
    IsMalformed (undatedBudget [textElement "narrative" "Afghanistan"]) ∧
      (∀ kind ∈ sectorStrategyPapers.reads,
        counted kind (undatedBudget [textElement "narrative" "Afghanistan"]).inside = []) ∧
      ∃ p' : Place,
        p'.LiesIn ((oneOrganisation [healthBudget]).insertBelow [0] 0
          (undatedBudget [textElement "narrative" "Afghanistan"])) ∧
        p'.location = [0, 1] ∧
        sectorStrategyPapers.evaluate sampleSetting ((oneOrganisation [healthBudget]).insertBelow [0] 0
            (undatedBudget [textElement "narrative" "Afghanistan"])) p' =
          sectorStrategyPapers.evaluate sampleSetting (oneOrganisation [healthBudget])
            ⟨[0, 0], healthBudget⟩ := by
  have hinside : ∀ kind ∈ sectorStrategyPapers.reads,
      counted kind (undatedBudget [textElement "narrative" "Afghanistan"]).inside = [] := by
    intro kind _
    cases kind <;> rfl
  have hmalformed := isMalformed_undatedBudget [textElement "narrative" "Afghanistan"]
  have ho : Place.LiesIn (oneOrganisation [healthBudget]) ⟨[0], organisation [healthBudget]⟩ := rfl
  have hp : Place.LiesIn (oneOrganisation [healthBudget]) ⟨[0, 0], healthBudget⟩ := rfl
  have horganisation : (organisation [healthBudget]).isOrganisation = true := rfl
  exact ⟨hmalformed, hinside,
    evaluate_insertBelow hmalformed hinside ho horganisation hp 0 sampleSetting⟩

/-- A strategy paper inside a malformed budget counts. -/
theorem not_passed_over_paper_inside :
    let record := undatedBudget [strategyPaper ["B11"]]
    let d := oneOrganisation [healthBudget]
    let d' := oneOrganisation [healthBudget, record]
    let p : Place := ⟨[0], organisation [healthBudget]⟩
    let p' : Place := ⟨[0], organisation [healthBudget, record]⟩
    IsMalformed record ∧
      record.children.map elementName? =
        [some "period-end", some "value", some "recipient-country"] ∧
      d.insertBelow [0] 1 record = d' ∧ p.LiesIn d ∧ p'.LiesIn d' ∧
      (sectorStrategyPapers.evaluate sampleSetting d p).toOption = some 0.0 ∧
      (sectorStrategyPapers.evaluate sampleSetting d' p').toOption = some 100.0 ∧
      sectorStrategyPapers.evaluate sampleSetting d' p' ≠
        sectorStrategyPapers.evaluate sampleSetting d p := by
  intro record d d' p p'
  have hp : p.LiesIn d := rfl
  have hp' : p'.LiesIn d' := rfl
  have hbefore : (sectorStrategyPapers.evaluate sampleSetting d p).toOption = some 0.0 := by
    simp only [evaluate, sectorPapers, sectorYears, elements_totalBudget hp, any_sectorTitles hp]
    decide +kernel
  have hafter : (sectorStrategyPapers.evaluate sampleSetting d' p').toOption = some 100.0 := by
    simp only [evaluate, sectorPapers, sectorYears, elements_totalBudget hp', any_sectorTitles hp']
    decide +kernel
  refine ⟨isMalformed_undatedBudget _, rfl, rfl, hp, hp', hbefore, hafter, fun hsame => ?_⟩
  rw [hsame, hbefore] at hafter
  revert hafter
  decide +kernel

end Metric

end DataQuality
