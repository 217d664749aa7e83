import DataQuality.CommandLine.Execution
import DataQuality.Proofs.Decimal.Digits

/-!
# The arguments of children

The arguments with which a job is carried out by a command of its own name the settings
of the command that starts it, and the job. If they are accepted, they are read as just
that, whatever stands in the environment.
-/
namespace DataQuality

/-- The decimal form of an identifier is read back. -/
theorem Id.parse_text {kind : IdKind} (i : Id kind) : Id.parse kind i.text = .ok i := by
  rw [Id.parse_eq_ok_iff]
  unfold Id.text Decimal.ofInt64 Decimal.ofInt
  rw [String.toList_ofList,
    Text.trimChars_of_not_blank fun c hc => Decimal.isBlank_of_mem_intChars hc]
  unfold Decimal.readInt64?
  rw [Decimal.readInt?_intChars, Option.bind_some, Decimal.int64?_toInt]

/-- In a sequence that succeeds both parts do. -/
theorem exists_of_bind_eq_ok {ε α β : Type} {x : Except ε α} {f : α → Except ε β} {b : β}
    (h : x >>= f = .ok b) : ∃ a, x = .ok a ∧ f a = .ok b := by
  cases x with
  | error e => cases h
  | ok a => exact ⟨a, rfl, h⟩

namespace CommandLine

namespace Found

variable {f f' : Found} {w : Switch} {environment : List (String × String)}

/-- The value that stands in the environment for an option. -/
def inEnvironment? (environment : List (String × String)) (switches : List Switch) (name : String) :
    Option Setting :=
  (switches.findSome? fun w =>
    if w.name = name then w.variableName?.bind fun v => environment.lookup v else none).map
      (⟨name, ·, .environment⟩)

theorem source_of_inEnvironment {switches : List Switch} {name : String} {a : Setting}
    (h : inEnvironment? environment switches name = some a) : a.source = .environment := by
  obtain ⟨value, -, rfl⟩ := Option.map_eq_some_iff.1 h
  rfl

/-- What stands in the environment counts for options that were not found. -/
theorem get?_addVariables {switches : List Switch}
    (h : f.addVariables environment switches = .ok f') (name : String) :
    f'.get? name = (f.get? name).or (inEnvironment? environment switches name) := by
  induction switches generalizing f with
  | nil =>
    obtain rfl := Except.ok.inj h
    exact (Option.or_none).symm
  | cons w rest ih =>
    unfold addVariables at h
    unfold inEnvironment? at ih ⊢
    split at h
    · next value hnone hvalue =>
      split at h
      · rw [ih h, List.findSome?_cons, hvalue]
        unfold get? at hnone ⊢
        rw [List.find?_append]
        by_cases hname : w.name = name
        · subst hname
          simp [hnone]
        · simp [hname]
      · cases h
    · next hother =>
      rw [ih h, List.findSome?_cons]
      by_cases hname : w.name = name
      · subst hname
        cases hget : f.get? w.name with
        | some s => rfl
        | none =>
          cases hvalue : w.variableName?.bind fun v => environment.lookup v with
          | none => rw [if_pos rfl]
          | some value => exact absurd hvalue (hother value hget)
      · simp [hname]

end Found

/-- Options with the values that are given to them. -/
abbrev Options := List (Switch × String)

/-- Whether an option stands before its value, under its long name. -/
def Grammar.Knows (g : Grammar) (w : Switch) : Prop :=
  w.operand ≠ .nothing ∧ w.name ≠ "help" ∧ g.switches.find? (·.name == w.name) = some w ∧
    longName? ("--" ++ w.name) = some (w.name, none) ∧ "--" ++ w.name ≠ "--" ∧
    g.subcommands.contains ("--" ++ w.name) = false

instance (g : Grammar) (w : Switch) : Decidable (g.Knows w) := inferInstanceAs (Decidable (_ ∧ _))

/-- The arguments that give a value to an option. -/
def spelled (o : Switch × String) : List String := ["--" ++ o.1.name, o.2]

/-- Whether an option takes the argument after it as its value. -/
def takes (o : Switch × String) : Bool := !isOptionLike o.2 && o.1.operand.accepts o.2

/-- What is found of an option and its value. -/
def setting (o : Switch × String) : Setting := ⟨o.1.name, o.2, .argument⟩

/-- An option takes the next argument, or nothing is accepted. -/
theorem scan_spelled {g : Grammar} {f : Found} {o : Switch × String} (hknown : g.Knows o.1)
    (hnew : f.get? o.1.name = none) (rest : List String) :
    scan g false f (spelled o ++ rest) =
      if takes o then scan g false { f with settings := f.settings ++ [setting o] } rest
      else .error .invalid := by
  obtain ⟨w, value⟩ := o
  obtain ⟨hoperand, hhelp, hfind, hname, hdashes, hcommand⟩ := hknown
  dsimp only at *
  unfold spelled takes setting
  rw [List.cons_append, List.cons_append, List.nil_append, scan, if_neg Bool.false_ne_true, hcommand,
    if_neg Bool.false_ne_true, if_neg hdashes, hname]
  dsimp only
  have hadd : f.add w value = if w.operand.accepts value then
      .ok { f with settings := f.settings ++ [⟨w.name, value, .argument⟩] }
      else .error .invalid := by
    unfold Found.add
    rw [hnew]
    cases w.operand.accepts value <;> rfl
  cases hlike : isOptionLike value <;> cases haccepts : w.operand.accepts value <;>
    cases hkind : w.operand <;> simp_all <;> rfl

/-- Options take the arguments after them, or nothing is accepted. -/
theorem scan_options {g : Grammar} {os : Options} (hknown : ∀ o ∈ os, g.Knows o.1)
    (hdistinct : (os.map (·.1.name)).Nodup) {f : Found} (hnew : ∀ o ∈ os, f.get? o.1.name = none)
    (rest : List String) :
    scan g false f (os.flatMap spelled ++ rest) =
      if os.all takes then scan g false { f with settings := f.settings ++ os.map setting } rest
      else .error .invalid := by
  induction os generalizing f with
  | nil => simp
  | cons o os ih =>
    rw [List.map_cons, List.nodup_cons] at hdistinct
    have hnew' : ∀ p ∈ os,
        ({ f with settings := f.settings ++ [setting o] } : Found).get? p.1.name = none := by
      intro p hp
      have hne : o.1.name ≠ p.1.name := fun h => hdistinct.1 (h ▸ List.mem_map_of_mem hp)
      have hfound := hnew p (List.mem_cons_of_mem o hp)
      unfold Found.get? at hfound ⊢
      rw [List.find?_append, hfound]
      simp [setting, hne]
    rw [List.flatMap_cons, List.append_assoc,
      scan_spelled (hknown o List.mem_cons_self) (hnew o List.mem_cons_self),
      ih (fun p hp => hknown p (List.mem_cons_of_mem o hp)) hdistinct.2 hnew', List.all_cons,
      List.map_cons, List.append_assoc]
    cases takes o <;> rfl

/-- The option that names a file of settings. -/
def configSwitch : Switch := ⟨"config", .path, some "DQ_CONFIG"⟩

/-- The option that names the folder of the store. -/
def dataSwitch : Switch := ⟨"data-dir", .path, some "DQ_DATA_DIR"⟩

/-- The option that names a file of rules. -/
def rulesSwitch : Switch := ⟨"rules", .path, some "DQ_RULES"⟩

/-- The options that give a child the settings of the command that starts it. -/
def childOptions (i : Invocation) (c : Config) : Options :=
  i.configFile.toList.map (configSwitch, ·) ++ [(dataSwitch, c.dataDir), (rulesSwitch, c.rulesFile)]

/-- The options that tell a child its job. -/
def jobOptions (job : Job) : Options :=
  [(Invocation.packageSwitch, job.packageId.text), (Invocation.runtimeSwitch, job.runtimeId.text),
    (Invocation.filenameSwitch, job.filename)]

/-- What is found before the name of the command. -/
def settingsBefore (i : Invocation) (c : Config) : List Setting :=
  i.configFile.toList.map (⟨"config", ·, .argument⟩) ++
    [⟨"data-dir", c.dataDir, .argument⟩, ⟨"rules", c.rulesFile, .argument⟩]

/-- What is found after it. -/
def settingsAfter (job : Job) : List Setting :=
  [⟨"package-id", job.packageId.text, .argument⟩, ⟨"runtime-id", job.runtimeId.text, .argument⟩,
    ⟨"filename", job.filename, .argument⟩]

/-- The options of the command that carries out a job. -/
def testSwitches : List Switch :=
  [Invocation.packageSwitch, Invocation.runtimeSwitch, Invocation.filenameSwitch]

open Invocation in
theorem scan_childArguments (i : Invocation) (c : Config) (rest : List String) :
    scan mainGrammar false .empty (childArguments i c ++ "test-package" :: rest) =
      if (childOptions i c).all takes then
        .ok (⟨settingsBefore i c, []⟩, some ("test-package", rest))
      else .error .invalid := by
  have hspelled : childArguments i c = (childOptions i c).flatMap spelled := by
    unfold childArguments childOptions
    cases i.configFile <;> rfl
  have hsettings : settingsBefore i c = (childOptions i c).map setting := by
    unfold settingsBefore childOptions
    cases i.configFile <;> rfl
  have hnames : (childOptions i c).map (·.1) = [configSwitch, dataSwitch, rulesSwitch] ∨
      (childOptions i c).map (·.1) = [dataSwitch, rulesSwitch] := by
    unfold childOptions
    cases i.configFile with
    | none => exact .inr rfl
    | some path => exact .inl rfl
  have hknown : ∀ w ∈ [configSwitch, dataSwitch, rulesSwitch], mainGrammar.Knows w := by decide
  have hcommand (f : Found) :
      scan mainGrammar false f ("test-package" :: rest) = .ok (f, some ("test-package", rest)) := by
    rw [scan, if_neg Bool.false_ne_true, if_pos (by decide)]
  rw [hspelled, hsettings, scan_options _ _ fun o ho => rfl, hcommand]
  · rfl
  · intro o ho
    have hmem := List.mem_map_of_mem (f := (·.1)) ho
    obtain hw | hw := hnames
    · exact hknown _ (hw ▸ hmem)
    · exact hknown _ (List.mem_cons_of_mem _ (hw ▸ hmem))
  · have hmap : (childOptions i c).map (·.1.name) = ((childOptions i c).map (·.1)).map (·.name) := by
      rw [List.map_map]
      rfl
    rw [hmap]
    obtain hw | hw := hnames <;> rw [hw] <;> decide

open Invocation in
theorem scan_jobArguments (job : Job) :
    scan (grammarOf "test-package" testSwitches) false .empty ((jobOptions job).flatMap spelled) =
      if (jobOptions job).all takes then .ok (⟨settingsAfter job, []⟩, none)
      else .error .invalid := by
  have hknown : ∀ w ∈ testSwitches, (grammarOf "test-package" testSwitches).Knows w := by decide
  have hjob : ∀ o ∈ jobOptions job, (grammarOf "test-package" testSwitches).Knows o.1 :=
    fun o ho => hknown o.1 (List.mem_map_of_mem (f := (·.1)) ho)
  have hdistinct : ((jobOptions job).map (·.1.name)).Nodup := by
    change (testSwitches.map (·.name)).Nodup
    decide
  have hscan := scan_options hjob hdistinct (f := .empty) (fun _ _ => rfl) []
  rwa [List.append_nil] at hscan

namespace Invocation

/-- An argument counts more than the environment. -/
theorem common?_of_argument {before after : Found} {name value : String}
    (hbefore : before.get? name = some ⟨name, value, .argument⟩)
    (hafter : ∀ a, after.get? name = some a → a.source = .environment) :
    common? before after name = some value := by
  unfold common?
  rw [hbefore]
  cases hget : after.get? name with
  | none => rfl
  | some a => simp [hafter a hget]

variable {environment : List (String × String)} {i i' : Invocation}

/-- What has been read of arguments that are accepted. -/
theorem exists_of_parse {arguments : List String} (h : parse environment arguments = .ok i) :
    ∃ before before' after after' command rest switches more action,
      scan mainGrammar false .empty arguments = .ok (before, some (command, rest)) ∧
      commands.lookup command = some switches ∧
      scan (grammarOf command switches) false .empty rest = .ok (after, more) ∧
      after.addVariables environment (grammarOf command switches).switches = .ok after' ∧
      before.addVariables environment commonSwitches = .ok before' ∧
      action? after' command = some action ∧
      i = ⟨common? before' after' "config", common? before' after' "data-dir",
        common? before' after' "rules", action⟩ := by
  unfold parse at h
  obtain ⟨⟨before, found⟩, hscan, h⟩ := exists_of_bind_eq_ok h
  rcases found with _ | ⟨command, rest⟩
  · cases h
  dsimp only at h
  cases hswitches : commands.lookup command with
  | none =>
    rw [hswitches] at h
    cases h
  | some switches =>
    rw [hswitches] at h
    obtain ⟨⟨after, more⟩, hrest, h⟩ := exists_of_bind_eq_ok h
    obtain ⟨after', hafter, h⟩ := exists_of_bind_eq_ok h
    obtain ⟨before', hbefore, h⟩ := exists_of_bind_eq_ok h
    cases haction : action? after' command with
    | none =>
      rw [haction] at h
      cases h
    | some action =>
      rw [haction] at h
      exact ⟨before, before', after, after', command, rest, switches, more, action, hscan, hswitches,
        hrest, hafter, hbefore, haction, (Except.ok.inj h).symm⟩

/-- The variable for the path of the configuration is not set if no path is given. -/
theorem lookup_of_configFile {arguments : List String} (h : parse environment arguments = .ok i)
    (hconfig : i.configFile = none) : environment.lookup "DQ_CONFIG" = none := by
  obtain ⟨before, before', after, after', command, rest, switches, more, action, -, -, -, -, hbefore,
    -, rfl⟩ := exists_of_parse h
  have hget := Found.get?_addVariables hbefore "config"
  cases hlookup : environment.lookup "DQ_CONFIG" with
  | none => rfl
  | some path =>
    -- otherwise the variable would have been read
    exfalso
    have hsome : Found.inEnvironment? environment commonSwitches "config" =
        some ⟨"config", path, .environment⟩ := by
      simp [Found.inEnvironment?, commonSwitches, hlookup]
    rw [hsome] at hget
    unfold common? at hconfig
    cases hbefore' : before'.get? "config" with
    | none => cases hfound : before.get? "config" <;> simp [hfound, hbefore'] at hget
    | some b =>
      rw [hbefore'] at hconfig
      cases hafter' : after'.get? "config" <;> simp [hafter'] at hconfig

/-- The options that tell a child its job are read as that, whatever stands in the environment. -/
theorem action?_of_settingsAfter {job : Job} {switches : List Switch} {after : Found}
    (h : (⟨settingsAfter job, []⟩ : Found).addVariables environment switches = .ok after) :
    action? after "test-package" =
      some (.testPackage job.packageId (some job.runtimeId) job.filename) := by
  have hget := Found.get?_addVariables h
  unfold action? id? text?
  rw [hget, hget, hget]
  simp [Found.get?, settingsAfter, Id.parse_text]
  rfl

/-- Arguments of a child that are accepted are read as the settings that they give, and the job. If
they give no file of settings, the environment may name one. -/
theorem eq_of_parse_child {c : Config} {job : Job}
    (h : parse environment (childArguments i c ++ ChildCommand.jobArguments job) = .ok i') :
    i' = ⟨i.configFile.or (environment.lookup "DQ_CONFIG"), some c.dataDir, some c.rulesFile,
      .testPackage job.packageId (some job.runtimeId) job.filename⟩ := by
  obtain ⟨before, before', after, after', command, rest, switches, more, action, hscan, hswitches,
    hrest, hafter, hbefore, haction, rfl⟩ := exists_of_parse h
  obtain ⟨rfl, rfl, rfl⟩ : before = ⟨settingsBefore i c, []⟩ ∧ command = "test-package" ∧
      rest = (jobOptions job).flatMap spelled := by
    replace hscan := (scan_childArguments i c _).symm.trans hscan
    split at hscan <;> cases hscan
    exact ⟨rfl, rfl, rfl⟩
  obtain rfl : testSwitches = switches := Option.some.inj hswitches
  obtain rfl : after = ⟨settingsAfter job, []⟩ := by
    replace hrest := (scan_jobArguments job).symm.trans hrest
    split at hrest <;> cases hrest
    rfl
  have hget := Found.get?_addVariables hbefore
  have hget' := Found.get?_addVariables hafter
  have hgiven {name value : String}
      (hname : (⟨settingsBefore i c, []⟩ : Found).get? name = some ⟨name, value, .argument⟩)
      (hname' : (⟨settingsAfter job, []⟩ : Found).get? name = none) :
      common? before' after' name = some value := by
    refine common?_of_argument (by rw [hget, hname]; rfl) fun a ha => ?_
    rw [hget', hname', Option.none_or] at ha
    exact Found.source_of_inEnvironment ha
  have hdata : common? before' after' "data-dir" = some c.dataDir := by
    refine hgiven ?_ rfl
    cases hpath : i.configFile <;> simp [Found.get?, settingsBefore, hpath]
  have hrules : common? before' after' "rules" = some c.rulesFile := by
    refine hgiven ?_ rfl
    cases hpath : i.configFile <;> simp [Found.get?, settingsBefore, hpath]
  have hconfig : common? before' after' "config" =
      i.configFile.or (environment.lookup "DQ_CONFIG") := by
    cases hpath : i.configFile with
    | some path => exact hgiven (by simp [Found.get?, settingsBefore, hpath]) rfl
    | none =>
      unfold common?
      rw [hget, hget']
      cases hlookup : environment.lookup "DQ_CONFIG" <;>
        simp +decide [Found.get?, settingsBefore, settingsAfter, hpath, Found.inEnvironment?,
          grammarOf, commonSwitches, testSwitches, hlookup]
  have haction' := action?_of_settingsAfter hafter
  rw [hconfig, hdata, hrules, Option.some.inj (haction.symm.trans haction')]

/-- Arguments of a child that are accepted are read as the settings of the command that
starts it, and the job. -/
theorem parse_child {arguments : List String} (hi : parse environment arguments = .ok i) {c : Config}
    {job : Job}
    (h : parse environment (childArguments i c ++ ChildCommand.jobArguments job) = .ok i') :
    i' = ⟨i.configFile, some c.dataDir, some c.rulesFile,
      .testPackage job.packageId (some job.runtimeId) job.filename⟩ := by
  rw [eq_of_parse_child h]
  cases hpath : i.configFile with
  | some path => rfl
  | none => rw [lookup_of_configFile hi hpath, Option.or_none]

end Invocation

end CommandLine

end DataQuality
