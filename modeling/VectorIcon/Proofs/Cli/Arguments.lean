import VectorIcon.Cli.Arguments

/-!
# A flag among the arguments

The flag of a dry run can stand anywhere but in the place of a value, and has the same effect there
(`parse_dryRun`).
-/

namespace VectorIcon.Cli.Arguments

variable {a b : Arguments} {argument value : String} {option : ValueOption} {rest before : List String}

/-- A command line as one of a dry run. -/
def dry (a : Arguments) : Arguments :=
  { a with dryRun := true }

/-! ## One argument after the other -/

theorem addAll_cons_of_none (h : ValueOption.ofArgument? argument = none) :
    a.addAll (argument :: rest) = (a.add argument).bind fun a => a.addAll rest := by
  rw [addAll.eq_def]
  dsimp only
  rw [h]
  rfl

theorem addAll_cons_of_some (h : ValueOption.ofArgument? argument = some option) :
    a.addAll (argument :: value :: rest) =
      (a.setOption option value).bind fun a => a.addAll rest := by
  rw [addAll.eq_def]
  dsimp only
  rw [h]
  rfl

theorem addAll_singleton_of_some (h : ValueOption.ofArgument? argument = some option) :
    a.addAll [argument] = .error .wrongUsage := by
  rw [addAll.eq_def]
  dsimp only
  rw [h]

/-- Arguments after others are added to what these give. -/
theorem addAll_append (h : a.addAll before = .ok b) : a.addAll (before ++ rest) = b.addAll rest := by
  induction a, before using addAll.induct with
  | case1 a =>
    rw [addAll] at h
    rw [List.nil_append, Except.ok.inj h]
  | case2 a argument tail hnone ih =>
    rw [addAll_cons_of_none hnone] at h
    rw [List.cons_append, addAll_cons_of_none hnone]
    cases hadd : a.add argument with
    | error error =>
      rw [hadd] at h
      cases h
    | ok a' =>
      rw [hadd] at h
      exact ih a' h
  | case3 a argument option hsome =>
    rw [addAll_singleton_of_some hsome] at h
    cases h
  | case4 a argument option value tail hsome ih =>
    rw [addAll_cons_of_some hsome] at h
    rw [List.cons_append, List.cons_append, addAll_cons_of_some hsome]
    cases hset : a.setOption option value with
    | error error =>
      rw [hset] at h
      cases h
    | ok a' =>
      rw [hset] at h
      exact ih a' h

/-! ## Dry runs -/

theorem setOption_dry (a : Arguments) (option : ValueOption) (value : String) :
    a.dry.setOption option value = (a.setOption option value).map dry := by
  cases option with
  | template =>
    unfold setOption
    cases Template.Builtin.ofName? value <;> rfl
  | indent =>
    unfold setOption
    cases readCount? value <;> rfl
  | _ => rfl

theorem setFlag_dry (a : Arguments) (flag : Flag) : a.dry.setFlag flag = (a.setFlag flag).dry := by
  cases flag <;> rfl

theorem setInput_dry (a : Arguments) (path : String) :
    a.dry.setInput path = (a.setInput path).map dry := by
  unfold setInput
  rw [show a.dry.input = a.input from rfl]
  split <;> rfl

theorem add_dry (a : Arguments) (argument : String) :
    a.dry.add argument = (a.add argument).map dry := by
  unfold add
  cases Command.ofArgument? argument with
  | some command => rfl
  | none =>
    cases Flag.ofArgument? argument with
    | some flag => exact congrArg _ (setFlag_dry a flag)
    | none =>
      dsimp only
      split
      · rfl
      · exact setInput_dry a argument

theorem addAll_dry (a : Arguments) (rest : List String) :
    a.dry.addAll rest = (a.addAll rest).map dry := by
  induction a, rest using addAll.induct with
  | case1 a =>
    rw [addAll, addAll]
    rfl
  | case2 a argument tail hnone ih =>
    rw [addAll_cons_of_none hnone, addAll_cons_of_none hnone, add_dry]
    cases a.add argument with
    | error error => rfl
    | ok a' => exact ih a'
  | case3 a argument option hsome =>
    rw [addAll_singleton_of_some hsome, addAll_singleton_of_some hsome]
    rfl
  | case4 a argument option value tail hsome ih =>
    rw [addAll_cons_of_some hsome, addAll_cons_of_some hsome, setOption_dry]
    cases a.setOption option value with
    | error error => rfl
    | ok a' => exact ih a'

/-- The flag of a dry run after arguments that are complete makes the command line one of a dry run. -/
theorem parse_dryRun (hbefore : parse before = .ok b) :
    parse (before ++ "--dry-run" :: rest) = (parse (before ++ rest)).map dry := by
  have hflag : b.addAll ("--dry-run" :: rest) = b.dry.addAll rest :=
    addAll_cons_of_none (by decide +kernel)
  unfold parse at hbefore ⊢
  rw [addAll_append hbefore, addAll_append hbefore, hflag]
  exact addAll_dry b rest

end VectorIcon.Cli.Arguments
