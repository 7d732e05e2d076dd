import VectorIcon.Proofs.Cli.Arguments

/-!
# The order of arguments

Settings stand anywhere on a command line, and each of them says the same wherever it stands. So a command
line is described by its command, its path and its settings (`described`), and these are what reading gives
(`parse_arranged`). The path is the argument after the command that is no setting, unless it is spelled like a
command: then it is taken for one, and there is no path (`parse_directory_named_info`).
-/

namespace VectorIcon.Cli

open Template (Builtin)

/-! ## Settings -/

/-- A flag, or an option with a value. -/
inductive Setting
  | flag (flag : Flag)
  | option (option : ValueOption) (value : String)
  deriving Repr, DecidableEq

/-- What a setting is about. -/
def Setting.subject : Setting → Flag ⊕ ValueOption
  | .flag f => .inl f
  | .option o _ => .inr o

/-- The value that a setting has for an option. -/
def Setting.valueFor? (asked : ValueOption) : Setting → Option String
  | .flag _ => none
  | .option o value => if o = asked then some value else none

/-- An option takes a value: a template has to be there, and an indentation has to be a count. -/
def ValueOption.Accepts (value : String) : ValueOption → Prop
  | .template => (Builtin.ofName? value).isSome
  | .indent => (readCount? value).isSome
  | _ => True

/-- A setting is written as some arguments, an option with its value after it. -/
inductive Setting.IsWritten : Setting → List String → Prop
  | flag {argument : String} {f : Flag} :
    Flag.ofArgument? argument = some f → IsWritten (.flag f) [argument]
  | option {argument value : String} {o : ValueOption} :
    ValueOption.ofArgument? argument = some o → o.Accepts value →
      IsWritten (.option o value) [argument, value]

/-- The value that settings give an option: the last one that is there. -/
def valueOf? (settings : List Setting) (option : ValueOption) : Option String :=
  (settings.filterMap (Setting.valueFor? option)).getLast?

/-- The change that a flag makes, if it is among some settings. -/
def offIf (settings : List Setting) (flag : Flag) : Option Bool :=
  if .flag flag ∈ settings then some false else none

/-- The command line of a command, a path and settings. -/
def described (command : Command) (input : Option String) (settings : List Setting) : Arguments where
  command
  input
  output := valueOf? settings .output
  name := valueOf? settings .name
  template := (valueOf? settings .template).bind Builtin.ofName?
  configFile := (valueOf? settings .config).map FilePath.mk
  changes := {
    template := (valueOf? settings .templateFile).map FilePath.mk
    multicolorTemplate := (valueOf? settings .multicolorTemplate).map FilePath.mk
    namedColors := offIf settings .literalColors
    indentSize := (valueOf? settings .indent).bind readCount?
    trailingCommas := offIf settings .noTrailingComma
    groupImports := offIf settings .flatImports }
  lenient := decide (.flag .lenient ∈ settings)
  json := decide (.flag .json ∈ settings)
  dryRun := decide (.flag .dryRun ∈ settings)
  overwrite := decide (.flag .overwrite ∈ settings)
  namespaceFolders := decide (.flag .noNamespaceFolders ∉ settings)

variable {command command' : Command} {input : Option String} {settings settings' : List Setting}
  {flag flag' : Flag} {option option' : ValueOption} {value argument : String}

/-! ## One setting more -/

theorem valueOf?_concat_flag : valueOf? (settings ++ [.flag flag]) option = valueOf? settings option := by
  simp [valueOf?, Setting.valueFor?]

theorem valueOf?_concat_option : valueOf? (settings ++ [.option option' value]) option =
    if option' = option then some value else valueOf? settings option := by
  rw [valueOf?, List.filterMap_append, List.getLast?_append]
  split
  · next h => simp [Setting.valueFor?, h]
  · next h => simp [Setting.valueFor?, h, valueOf?]

theorem offIf_concat_flag : offIf (settings ++ [.flag flag']) flag =
    if flag = flag' then some false else offIf settings flag := by
  by_cases h : flag = flag' <;> simp [offIf, h]

theorem offIf_concat_option : offIf (settings ++ [.option option value]) flag = offIf settings flag := by
  simp [offIf]

theorem setFlag_described (flag : Flag) :
    (described command input settings).setFlag flag =
      described command input (settings ++ [.flag flag]) := by
  cases flag <;>
    simp [Arguments.setFlag, described, valueOf?_concat_flag, offIf_concat_flag]

theorem setOption_described (h : option.Accepts value) :
    (described command input settings).setOption option value =
      .ok (described command input (settings ++ [.option option value])) := by
  cases option with
  | template =>
    obtain ⟨template, htemplate⟩ := Option.isSome_iff_exists.1 h
    simp [Arguments.setOption, described, valueOf?_concat_option, offIf_concat_option, htemplate]
  | indent =>
    obtain ⟨n, hn⟩ := Option.isSome_iff_exists.1 h
    simp [Arguments.setOption, described, valueOf?_concat_option, offIf_concat_option, hn]
  | _ => simp [Arguments.setOption, described, valueOf?_concat_option, offIf_concat_option]

theorem addAll_setting {arguments rest : List String} {setting : Setting} (h : setting.IsWritten arguments) :
    (described command input settings).addAll (arguments ++ rest) =
      (described command input (settings ++ [setting])).addAll rest := by
  cases h with
  | @flag argument f hflag =>
    have hnone : ValueOption.ofArgument? argument = none := by
      unfold Flag.ofArgument? at hflag
      split at hflag <;> first | rfl | cases hflag
    have hcommand : Command.ofArgument? argument = none := by
      unfold Flag.ofArgument? at hflag
      split at hflag <;> first | rfl | cases hflag
    have hadd : (described command input settings).add argument =
        .ok (described command input (settings ++ [.flag f])) := by
      rw [Arguments.add, hcommand, hflag]
      exact congrArg _ (setFlag_described f)
    rw [List.singleton_append, Arguments.addAll_cons_of_none hnone, hadd]
    rfl
  | option hoption haccepts =>
    rw [List.cons_append, List.singleton_append, Arguments.addAll_cons_of_some hoption,
      setOption_described haccepts]
    rfl

/-! ## Command lines -/

/-- An argument that is no setting: a dash, or a text that does not begin with one. -/
def IsPositional (argument : String) : Prop :=
  argument = "-" ∨ argument.toList.head? ≠ some '-'

/-- A part of a command line. -/
inductive Item
  | setting (setting : Setting)
  | positional (argument : String)
  deriving Repr, DecidableEq

/-- Parts of a command line are written as some arguments. -/
inductive IsWritten : List Item → List String → Prop
  | nil : IsWritten [] []
  | setting {s : Setting} {items : List Item} {arguments rest : List String} :
    s.IsWritten arguments → IsWritten items rest → IsWritten (.setting s :: items) (arguments ++ rest)
  | positional {argument : String} {items : List Item} {rest : List String} :
    IsPositional argument → IsWritten items rest →
      IsWritten (.positional argument :: items) (argument :: rest)

/-- The settings among some parts. -/
def settingsOf : List Item → List Setting
  | [] => []
  | .setting s :: items => s :: settingsOf items
  | .positional _ :: items => settingsOf items

/-- The arguments among some parts that are no settings. -/
def positionals : List Item → List String
  | [] => []
  | .setting _ :: items => positionals items
  | .positional argument :: items => argument :: positionals items

/-- The commands that some arguments are spelled like. -/
def commandsOf (arguments : List String) : List Command :=
  arguments.filterMap Command.ofArgument?

/-- The arguments that are not spelled like a command. -/
def pathsOf (arguments : List String) : List String :=
  arguments.filter fun argument => Command.ofArgument? argument = none

variable {items : List Item} {arguments : List String}

theorem ofArgument?_of_isPositional (h : IsPositional argument) :
    ValueOption.ofArgument? argument = none ∧ Flag.ofArgument? argument = none := by
  constructor
  · unfold ValueOption.ofArgument?
    split <;> first | rfl | exact absurd h (by unfold IsPositional; decide)
  · unfold Flag.ofArgument?
    split <;> first | rfl | exact absurd h (by unfold IsPositional; decide)

theorem add_positional (h : IsPositional argument) (a : Arguments) :
    a.add argument = match Command.ofArgument? argument with
      | some command => .ok { a with command }
      | none => a.setInput argument := by
  have hpath : ¬ (argument ≠ "-" ∧ argument.toList.head? = some '-') := fun hdash =>
    h.elim hdash.1 fun hne => hne hdash.2
  rw [Arguments.add, (ofArgument?_of_isPositional h).2]
  cases Command.ofArgument? argument with
  | some command => rfl
  | none => exact if_neg hpath

theorem commandsOf_cons_of_some {rest : List String} (h : Command.ofArgument? argument = some command) :
    commandsOf (argument :: rest) = command :: commandsOf rest :=
  List.filterMap_cons_some h

theorem commandsOf_cons_of_none {rest : List String} (h : Command.ofArgument? argument = none) :
    commandsOf (argument :: rest) = commandsOf rest :=
  List.filterMap_cons_none h

theorem pathsOf_cons_of_some {rest : List String} (h : Command.ofArgument? argument = some command) :
    pathsOf (argument :: rest) = pathsOf rest :=
  List.filter_cons_of_neg (by simp [h])

theorem pathsOf_cons_of_none {rest : List String} (h : Command.ofArgument? argument = none) :
    pathsOf (argument :: rest) = argument :: pathsOf rest :=
  List.filter_cons_of_pos (by simp [h])

/-- The command line that is read when some parts follow a command line that is described: their settings come
after its own, the last command holds, and there is one path at most. -/
def readOn (command : Command) (input : Option String) (settings : List Setting) (items : List Item) :
    Except ArgumentError Arguments :=
  if (input.toList ++ pathsOf (positionals items)).length ≤ 1 then
    .ok (described ((commandsOf (positionals items)).getLast?.getD command)
      (input.or (pathsOf (positionals items)).head?) (settings ++ settingsOf items))
  else .error .wrongUsage

theorem addAll_written (h : IsWritten items arguments) (command : Command) (input : Option String)
    (settings : List Setting) :
    (described command input settings).addAll arguments = readOn command input settings items := by
  induction h generalizing command input settings with
  | nil => cases input <;> simp [Arguments.addAll, readOn, positionals, pathsOf, commandsOf, settingsOf]
  | setting hs _ ih =>
    rw [addAll_setting hs, ih, readOn, readOn, List.append_assoc]
    rfl
  | @positional argument items rest hpositional _ ih =>
    rw [Arguments.addAll_cons_of_none (ofArgument?_of_isPositional hpositional).1,
      add_positional hpositional]
    cases hcommand : Command.ofArgument? argument with
    | some command' =>
      refine (ih command' input settings).trans ?_
      rw [readOn, readOn, positionals, pathsOf_cons_of_some hcommand, commandsOf_cons_of_some hcommand,
        List.getLast?_cons]
      rfl
    | none =>
      cases input with
      | some path =>
        simp [readOn, positionals, pathsOf_cons_of_none hcommand, Arguments.setInput, described,
          Except.bind]
      | none =>
        refine (ih command (some argument) settings).trans ?_
        rw [readOn, readOn, positionals, pathsOf_cons_of_none hcommand, commandsOf_cons_of_none hcommand]
        rfl

/-! ## Settings in another order -/

theorem valueFor?_eq_some_iff {setting : Setting} :
    setting.valueFor? option = some value ↔ setting = .option option value := by
  cases setting with
  | flag f => simp [Setting.valueFor?]
  | option o v => simp [Setting.valueFor?]

theorem valueOf?_cons (setting : Setting) (settings : List Setting) :
    valueOf? (setting :: settings) option =
      (valueOf? settings option).or (setting.valueFor? option) := by
  rw [valueOf?, ← List.singleton_append, List.filterMap_append, List.getLast?_append, ← valueOf?]
  cases hvalue : setting.valueFor? option <;> simp [hvalue]

/-- When no option is given twice, each one has the value that it is given. -/
theorem valueOf?_eq_some_iff (h : (settings.map Setting.subject).Nodup) :
    valueOf? settings option = some value ↔ .option option value ∈ settings := by
  induction settings generalizing value with
  | nil => simp [valueOf?]
  | cons setting rest ih =>
    obtain ⟨hfresh, hrest⟩ := List.nodup_cons.1 (List.map_cons ▸ h)
    rw [valueOf?_cons, Option.or_eq_some_iff, ih hrest, valueFor?_eq_some_iff, List.mem_cons, or_comm,
      eq_comm (a := setting)]
    refine or_congr_left ⟨And.right, fun hsetting => ⟨?_, hsetting⟩⟩
    subst hsetting
    refine Option.eq_none_iff_forall_ne_some.2 fun value' hvalue' => hfresh ?_
    exact List.mem_map.2 ⟨_, (ih hrest).1 hvalue', rfl⟩

theorem valueOf?_perm (hperm : settings.Perm settings') (h : (settings.map Setting.subject).Nodup) :
    valueOf? settings' option = valueOf? settings option := by
  have h' : (settings'.map Setting.subject).Nodup := (hperm.map _).nodup h
  refine Option.ext fun value => ?_
  rw [valueOf?_eq_some_iff h, valueOf?_eq_some_iff h', hperm.mem_iff]

theorem described_perm (hperm : settings.Perm settings') (h : (settings.map Setting.subject).Nodup) :
    described command input settings' = described command input settings := by
  simp only [described, offIf, valueOf?_perm hperm h, hperm.mem_iff]

/-! ## Reading command lines -/

theorem parse_written (h : IsWritten items arguments) :
    Arguments.parse arguments = readOn .help none [] items :=
  addAll_written h .help none []

/-- However the settings of a command line are arranged, reading it gives the command, the path and the
settings, and a second path is refused. An argument that is spelled like a command is one wherever it stands,
also in the place of the path. -/
theorem parse_arranged (h : IsWritten items arguments) :
    (∀ word path command, positionals items = [word, path] → Command.ofArgument? word = some command →
      Arguments.parse arguments = .ok (match Command.ofArgument? path with
        | none => described command (some path) (settingsOf items)
        | some command' => described command' none (settingsOf items))) ∧
    (Arguments.parse arguments = .error .wrongUsage ↔ 2 ≤ (pathsOf (positionals items)).length) ∧
    ∀ items' arguments', IsWritten items' arguments' → positionals items' = positionals items →
      (settingsOf items).Perm (settingsOf items') → ((settingsOf items).map Setting.subject).Nodup →
      Arguments.parse arguments' = Arguments.parse arguments := by
  refine ⟨fun word path command hitems hword => ?_, ?_, fun items' arguments' h' hitems hperm hnodup => ?_⟩
  · rw [parse_written h, readOn, hitems, commandsOf_cons_of_some hword, pathsOf_cons_of_some hword]
    cases hpath : Command.ofArgument? path with
    | none =>
      rw [commandsOf_cons_of_none hpath, pathsOf_cons_of_none hpath]
      rfl
    | some command' =>
      rw [commandsOf_cons_of_some hpath, pathsOf_cons_of_some hpath]
      rfl
  · rw [parse_written h, readOn, Option.toList_none, List.nil_append]
    split
    · next hfew => exact iff_of_false nofun (by omega)
    · next hmany => exact iff_of_true rfl (by omega)
  · rw [parse_written h, parse_written h', readOn, readOn, hitems, List.nil_append, List.nil_append,
      described_perm hperm hnodup]

/-- A directory that is spelled like a command cannot be converted, and after a path it is not refused. -/
theorem parse_directory_named_info :
    IsWritten [.positional "batch", .positional "info"] ["batch", "info"] ∧
      Arguments.parse ["batch", "info"] ≠ .ok (described .batch (some "info") []) ∧
      Arguments.parse ["batch", "info"] = .ok (described .info none []) ∧
      Arguments.parse ["batch", "icons", "info"] = .ok (described .info (some "icons") []) := by
  have hbatch : IsPositional "batch" := .inr (by decide)
  have hinfo : IsPositional "info" := .inr (by decide)
  have hparse : Arguments.parse ["batch", "info"] = .ok (described .info none []) := rfl
  refine ⟨.positional hbatch (.positional hinfo .nil), ?_, hparse, rfl⟩
  rw [hparse]
  intro heq
  exact absurd (congrArg Arguments.command (Except.ok.inj heq)) (by decide)

/-- Two arrangements of one command line. -/
theorem parse_arranged_batch :
    Arguments.parse ["-o", "out", "batch", "--indent", "4", "icons", "--dry-run"] =
        .ok (described .batch (some "icons") [.option .output "out", .option .indent "4", .flag .dryRun]) ∧
      Arguments.parse ["--dry-run", "batch", "icons", "--indent", "4", "--output", "out"] =
        Arguments.parse ["-o", "out", "batch", "--indent", "4", "icons", "--dry-run"] := by
  have hbatch : IsPositional "batch" := .inr (by decide)
  have hicons : IsPositional "icons" := .inr (by decide)
  have houtput : (Setting.option .output "out").IsWritten ["-o", "out"] := .option rfl trivial
  have houtput' : (Setting.option .output "out").IsWritten ["--output", "out"] := .option rfl trivial
  have hindent : (Setting.option .indent "4").IsWritten ["--indent", "4"] := .option rfl rfl
  have hdry : (Setting.flag .dryRun).IsWritten ["--dry-run"] := .flag rfl
  have hwritten : IsWritten [.setting (.option .output "out"), .positional "batch",
      .setting (.option .indent "4"), .positional "icons", .setting (.flag .dryRun)]
      ["-o", "out", "batch", "--indent", "4", "icons", "--dry-run"] :=
    .setting houtput (.positional hbatch (.setting hindent (.positional hicons (.setting hdry .nil))))
  have hwritten' : IsWritten [.setting (.flag .dryRun), .positional "batch", .positional "icons",
      .setting (.option .indent "4"), .setting (.option .output "out")]
      ["--dry-run", "batch", "icons", "--indent", "4", "--output", "out"] :=
    .setting hdry (.positional hbatch (.positional hicons (.setting hindent (.setting houtput' .nil))))
  obtain ⟨hparse, -, horder⟩ := parse_arranged hwritten
  exact ⟨hparse "batch" "icons" .batch rfl rfl, horder _ _ hwritten' rfl (by decide) (by decide)⟩

end VectorIcon.Cli
