import DataQuality.Proofs.CommandLine.ChildArguments

/-!
# Which jobs reach a child

A value that looks like an option, or an empty path, is not taken after the name of an option. So a
job reaches its child unless an identifier is below zero, or a path is empty or starts with a hyphen.
An empty path in the environment is refused as well, even if the arguments give another.
-/
namespace DataQuality

/-- The decimal form of an identifier looks like an option exactly if it has a sign. -/
theorem CommandLine.isOptionLike_text {kind : IdKind} (i : Id kind) :
    isOptionLike i.text = decide (i.toInt < 0) := by
  unfold isOptionLike Id.text Decimal.ofInt64 Decimal.ofInt Id.toInt
  rw [String.toList_ofList]
  cases i.value.toInt with
  | ofNat n =>
    have hdigit : ∀ c ∈ Decimal.natDigits n, c ≠ '-' := by
      rintro c hc rfl
      exact absurd (Decimal.isDigit_of_mem_natDigits hc) (by decide)
    have hnonneg : ¬ Int.ofNat n < 0 := by simp
    rw [decide_eq_false hnonneg]
    dsimp only [Decimal.intChars]
    split
    · next hdigits => exact absurd rfl (hdigit '-' (hdigits ▸ List.mem_cons_self))
    · rfl
  | negSucc n =>
    rw [decide_eq_true (Int.negSucc_lt_zero n)]
    dsimp only [Decimal.intChars]
    cases hdigits : Decimal.natDigits (n + 1) with
    | nil => exact absurd hdigits (Decimal.natDigits_ne_nil _)
    | cons c cs => rfl

namespace CommandLine

variable {environment : List (String × String)}

namespace Found

/-- Variables that suit their options are all taken. -/
theorem exists_addVariables {switches : List Switch}
    (h : ∀ w ∈ switches, ∀ value, (w.variableName?.bind fun v => environment.lookup v) = some value →
      w.operand.accepts value = true) (f : Found) :
    ∃ f', f.addVariables environment switches = .ok f' := by
  induction switches generalizing f with
  | nil => exact ⟨f, rfl⟩
  | cons w rest ih =>
    have ih := ih fun w' hw' => h w' (List.mem_cons_of_mem w hw')
    unfold addVariables
    split
    · next value _ hvalue =>
      rw [if_pos (h w List.mem_cons_self value hvalue)]
      exact ih _
    · exact ih f

/-- A variable that does not suit its option is refused, if the option was not found. -/
theorem addVariables_eq_invalid {switches : List Switch} (hdistinct : (switches.map (·.name)).Nodup)
    {w : Switch} (hw : w ∈ switches) {value : String}
    (hvalue : (w.variableName?.bind fun v => environment.lookup v) = some value)
    (hrefused : w.operand.accepts value = false) {f : Found} (hnew : f.get? w.name = none) :
    f.addVariables environment switches = .error .invalid := by
  induction switches generalizing f with
  | nil => cases hw
  | cons w' rest ih =>
    rw [List.map_cons, List.nodup_cons] at hdistinct
    unfold addVariables
    obtain rfl | hw := List.mem_cons.1 hw
    · rw [hnew, hvalue]
      dsimp only
      rw [if_neg (by simp [hrefused])]
    · have ih {f : Found} := ih (f := f) hdistinct.2 hw
      split
      · split
        · refine ih ?_
          have hne : w'.name ≠ w.name := fun h => hdistinct.1 (h ▸ List.mem_map_of_mem hw)
          unfold get? at hnew ⊢
          rw [List.find?_append, hnew]
          simp [hne]
        · rfl
      · exact ih hnew

end Found

theorem takes_path_iff {w : Switch} (hw : w.operand = .path) {s : String} :
    takes (w, s) = true ↔ s ≠ "" ∧ isOptionLike s = false := by
  unfold takes Operand.accepts
  rw [hw]
  dsimp only
  rw [Bool.and_eq_true, Bool.not_eq_true', bne_iff_ne, and_comm]

theorem takes_id_iff {kind : IdKind} {w : Switch} (hw : w.operand = .id kind) {i : Id kind} :
    takes (w, i.text) = true ↔ 0 ≤ i.toInt := by
  unfold takes Operand.accepts
  rw [hw, isOptionLike_text]
  dsimp only
  rw [Id.parse_text, Bool.and_eq_true, Bool.not_eq_true', decide_eq_false_iff_not, not_lt]
  exact and_iff_left rfl

/-- What the options give a child is taken exactly if the paths are plain. -/
theorem all_takes_childOptions_iff {i : Invocation} {c : Config} :
    (childOptions i c).all takes = true ↔
      ∀ path ∈ i.configFile.toList ++ [c.dataDir, c.rulesFile],
        path ≠ "" ∧ isOptionLike path = false := by
  unfold childOptions
  cases i.configFile <;> simp [takes_path_iff, configSwitch, dataSwitch, rulesSwitch]

/-- What the options tell it of a job is taken exactly if no identifier is below zero and the name of
the document is plain. -/
theorem all_takes_jobOptions_iff {job : Job} :
    (jobOptions job).all takes = true ↔
      0 ≤ job.packageId.toInt ∧ 0 ≤ job.runtimeId.toInt ∧
        job.filename ≠ "" ∧ isOptionLike job.filename = false := by
  unfold jobOptions
  simp [takes_id_iff, takes_path_iff, Invocation.packageSwitch, Invocation.runtimeSwitch,
    Invocation.filenameSwitch]

namespace Invocation

variable {i : Invocation} {c : Config} {job : Job}

/-- The variables of the options that all commands have. -/
def commonVariables : List String := commonSwitches.filterMap (·.variableName?)

/-- The arguments of a child whose options before the command are taken. -/
theorem parse_of_childOptions (hchild : (childOptions i c).all takes = true) :
    parse environment (childArguments i c ++ ChildCommand.jobArguments job) =
      if (jobOptions job).all takes then do
        let after ← (⟨settingsAfter job, []⟩ : Found).addVariables environment
          (grammarOf "test-package" testSwitches).switches
        let before ← (⟨settingsBefore i c, []⟩ : Found).addVariables environment commonSwitches
        match action? after "test-package" with
        | some action =>
          .ok ⟨common? before after "config", common? before after "data-dir",
            common? before after "rules", action⟩
        | none => .error .invalid
      else .error .invalid := by
  have hscan := scan_childArguments i c ((jobOptions job).flatMap spelled)
  have hlookup : commands.lookup "test-package" = some testSwitches := rfl
  change parse environment
    (childArguments i c ++ "test-package" :: (jobOptions job).flatMap spelled) = _
  unfold parse
  rw [hscan, if_pos hchild]
  dsimp only [bind, Except.bind]
  rw [hlookup]
  dsimp only
  rw [scan_jobArguments]
  cases (jobOptions job).all takes <;> rfl

/-- The arguments of a child are refused with an option before the command that is not taken. -/
theorem parse_of_not_childOptions (hchild : (childOptions i c).all takes = false) :
    parse environment (childArguments i c ++ ChildCommand.jobArguments job) = .error .invalid := by
  have hscan := scan_childArguments i c ((jobOptions job).flatMap spelled)
  change parse environment
    (childArguments i c ++ "test-package" :: (jobOptions job).flatMap spelled) = _
  unfold parse
  rw [hscan, if_neg (by simp [hchild])]
  rfl

/-- Arguments whose options take their values are accepted if no variable is empty. -/
theorem parse_child_eq_ok (hchild : (childOptions i c).all takes = true)
    (hjob : (jobOptions job).all takes = true)
    (hvariables : ∀ v ∈ commonVariables, environment.lookup v ≠ some "") :
    parse environment (childArguments i c ++ ChildCommand.jobArguments job) =
      .ok ⟨i.configFile.or (environment.lookup "DQ_CONFIG"), some c.dataDir, some c.rulesFile,
        .testPackage job.packageId (some job.runtimeId) job.filename⟩ := by
  have haccepts : ∀ w ∈ commonSwitches, ∀ value,
      (w.variableName?.bind fun v => environment.lookup v) = some value →
        w.operand.accepts value = true := by
    intro w hw value hvalue
    obtain ⟨v, hv, hlookup⟩ := Option.bind_eq_some_iff.1 hvalue
    have hpath : ∀ w ∈ commonSwitches, w.operand = .path := by decide
    have hne := hvariables v (List.mem_filterMap.2 ⟨w, hw, hv⟩)
    rw [hpath w hw]
    unfold Operand.accepts
    rw [bne_iff_ne]
    rintro rfl
    exact hne hlookup
  have haccepts' : ∀ w ∈ (grammarOf "test-package" testSwitches).switches, ∀ value,
      (w.variableName?.bind fun v => environment.lookup v) = some value →
        w.operand.accepts value = true := by
    intro w hw value hvalue
    obtain hw | hw := List.mem_append.1 hw
    · exact haccepts w hw value hvalue
    · have hnone : ∀ w ∈ testSwitches, w.variableName? = none := by decide
      rw [hnone w hw] at hvalue
      cases hvalue
  obtain ⟨before, hbefore⟩ := Found.exists_addVariables haccepts ⟨settingsBefore i c, []⟩
  obtain ⟨after, hafter⟩ := Found.exists_addVariables haccepts' ⟨settingsAfter job, []⟩
  have haction : action? after "test-package" =
      some (.testPackage job.packageId (some job.runtimeId) job.filename) :=
    action?_of_settingsAfter hafter
  have hparse : ∃ i', parse environment (childArguments i c ++ ChildCommand.jobArguments job) =
      .ok i' := by
    rw [parse_of_childOptions hchild, if_pos hjob, hafter, hbefore]
    dsimp only [bind, Except.bind]
    rw [haction]
    exact ⟨_, rfl⟩
  obtain ⟨i', hi'⟩ := hparse
  rw [hi', eq_of_parse_child hi']

/-- An empty path in the environment is refused. -/
theorem parse_of_empty_variable {v : String} (hv : v ∈ commonVariables)
    (hempty : environment.lookup v = some "") :
    parse environment (childArguments i c ++ ChildCommand.jobArguments job) = .error .invalid := by
  obtain ⟨w, hw, hname⟩ := List.mem_filterMap.1 hv
  have hpath : ∀ w ∈ commonSwitches, w.operand = .path := by decide
  have hafter : (⟨settingsAfter job, []⟩ : Found).addVariables environment
      (grammarOf "test-package" testSwitches).switches = .error .invalid := by
    have hvalue : (w.variableName?.bind fun v => environment.lookup v) = some "" := by
      rw [hname]
      exact hempty
    have hrefused : w.operand.accepts "" = false := by
      rw [hpath w hw]
      rfl
    refine Found.addVariables_eq_invalid (by decide) (List.mem_append_left _ hw) hvalue hrefused ?_
    have hother : ∀ w ∈ commonSwitches, ∀ w' ∈ testSwitches, (w'.name == w.name) = false := by decide
    refine List.find?_eq_none.2 fun s hs => ?_
    obtain ⟨w', hw', hname'⟩ : ∃ w' ∈ testSwitches, w'.name = s.name := by
      have hmap : (settingsAfter job).map (·.name) = testSwitches.map (·.name) := rfl
      exact List.mem_map.1 (hmap ▸ List.mem_map_of_mem hs)
    rw [← hname', hother w hw w' hw']
    exact Bool.false_ne_true
  cases hchild : (childOptions i c).all takes with
  | false => exact parse_of_not_childOptions hchild
  | true =>
    rw [parse_of_childOptions hchild, hafter]
    split <;> rfl

/-- The arguments of a child are accepted, and read as the settings of the command that starts it and
the job, exactly if no identifier of the job is below zero and no path, in the settings or the job, is
empty or looks like an option. An empty variable in the environment is refused in any case. -/
theorem parse_child_eq (environment : List (String × String)) (i : Invocation) (c : Config)
    (job : Job) :
    parse environment (childArguments i c ++ ChildCommand.jobArguments job) =
      if 0 ≤ job.packageId.toInt ∧ 0 ≤ job.runtimeId.toInt ∧
        (∀ path ∈ i.configFile.toList ++ [c.dataDir, c.rulesFile, job.filename],
          path ≠ "" ∧ isOptionLike path = false) ∧
        ∀ v ∈ commonVariables, environment.lookup v ≠ some ""
      then .ok ⟨i.configFile.or (environment.lookup "DQ_CONFIG"), some c.dataDir, some c.rulesFile,
        .testPackage job.packageId (some job.runtimeId) job.filename⟩
      else .error .invalid := by
  have hsplit : (∀ path ∈ i.configFile.toList ++ [c.dataDir, c.rulesFile, job.filename],
        path ≠ "" ∧ isOptionLike path = false) ↔
      (childOptions i c).all takes = true ∧ job.filename ≠ "" ∧ isOptionLike job.filename = false := by
    rw [all_takes_childOptions_iff]
    simp only [List.mem_append, List.mem_cons, List.not_mem_nil, or_false]
    exact ⟨fun h => ⟨fun path hpath => h path (by tauto), h _ (by tauto)⟩,
      fun h path hpath => by obtain hp | rfl | rfl | rfl := hpath <;> simp_all⟩
  split
  · next h =>
    obtain ⟨hpackage, hrun, hpaths, hvariables⟩ := h
    obtain ⟨hchild, hname⟩ := hsplit.1 hpaths
    exact parse_child_eq_ok hchild (all_takes_jobOptions_iff.2 ⟨hpackage, hrun, hname⟩) hvariables
  · next h =>
    by_cases hvariables : ∀ v ∈ commonVariables, environment.lookup v ≠ some ""
    · cases hchild : (childOptions i c).all takes with
      | false => exact parse_of_not_childOptions hchild
      | true =>
        rw [parse_of_childOptions hchild, if_neg]
        rw [all_takes_jobOptions_iff]
        rintro ⟨hpackage, hrun, hname⟩
        exact h ⟨hpackage, hrun, hsplit.2 ⟨hchild, hname⟩, hvariables⟩
    · push Not at hvariables
      obtain ⟨v, hv, hempty⟩ := hvariables
      exact parse_of_empty_variable hv hempty

/-- A command that works on a queue in a folder of its own. -/
def queueInvocation : Invocation :=
  ⟨none, some "apart", none, .testQueue true true (some "apart-queue")⟩

/-- The child for a queued package with an identifier below zero is refused. -/
theorem not_parse_child_negative_package :
    parse [] ["--data-dir", "apart", "test-queue", "--once", "--subprocess", "--queue-dir",
        "apart-queue"] = .ok queueInvocation ∧
      parse [] (childArguments queueInvocation { Config.standard with dataDir := "apart" } ++
        ChildCommand.jobArguments ⟨"p.xml", ⟨4⟩, ⟨-9⟩⟩) = .error .invalid := by
  refine ⟨rfl, ?_⟩
  rw [parse_of_childOptions (by decide), if_neg]
  rw [all_takes_jobOptions_iff]
  rintro ⟨hpackage, -⟩
  exact absurd hpackage (by decide)

end Invocation

end CommandLine

end DataQuality
