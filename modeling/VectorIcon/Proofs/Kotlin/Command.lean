import Mathlib.Data.List.Nodup
import VectorIcon.Proofs.Kotlin.Paint

/-!
# Commands as tokens

A command is a call of the builder, or an entry of a clip. Both names tell the letter, so that the tokens
of a command tell it up to the literals of its numbers.
-/

namespace VectorIcon.Kotlin

open VectorIcon.Path

/-! ## Names -/

/-- The letters of path data. -/
def letters : List Letter :=
  let kinds := [Kind.moveTo, .lineTo, .horizontalTo, .verticalTo, .curveTo, .quadTo, .smoothCurveTo,
    .smoothQuadTo, .arcTo]
  .close :: (kinds.map (.draw .absolute) ++ kinds.map (.draw .relative))

theorem mem_letters (letter : Letter) : letter ∈ letters := by
  cases letter with
  | draw frame kind => cases frame <;> cases kind <;> decide
  | close => decide

theorem reads_callName (letter : Letter) : Reads (callName letter) [.word (callName letter)] := by
  have hwords : ∀ letter ∈ letters, isWord (callName letter) = true := by decide +kernel
  exact reads_word (hwords letter (mem_letters letter))

theorem callName_inj {a b : Letter} (h : callName a = callName b) : a = b := by
  have hnodup : (letters.map callName).Nodup := by decide +kernel
  exact List.inj_on_of_nodup_map hnodup (mem_letters a) (mem_letters b) h

/-- The name of a clip's command in its class. -/
def memberName (letter : Letter) : String :=
  String.ofList ((nodeName letter).toList.drop 9)

theorem nodeName_eq (letter : Letter) : nodeName letter = "PathNode" ++ ("." ++ memberName letter) := by
  have hmembers : ∀ letter ∈ letters, nodeName letter = "PathNode" ++ ("." ++ memberName letter) := by
    decide +kernel
  exact hmembers letter (mem_letters letter)

theorem reads_nodeName (letter : Letter) :
    Reads (nodeName letter) [.word "PathNode", .mark '.', .word (memberName letter)] := by
  have hclass : IsRun "PathNode".toList := isRun_of_isWord (by decide)
  have hmembers : ∀ letter ∈ letters, isWord (memberName letter) = true ∧
      (memberName letter).toList.head?.any (!Text.isDigit ·) = true := by decide +kernel
  obtain ⟨hword, hfirst⟩ := hmembers letter (mem_letters letter)
  rw [nodeName_eq]
  exact (hclass.append_member (reads_word hword) hfirst).1

theorem nodeName_inj {a b : Letter} (h : nodeName a = nodeName b) : a = b := by
  have hnodup : (letters.map nodeName).Nodup := by decide +kernel
  exact List.inj_on_of_nodup_map hnodup (mem_letters a) (mem_letters b) h

theorem memberName_inj {a b : Letter} (h : memberName a = memberName b) : a = b :=
  nodeName_inj (by rw [nodeName_eq, nodeName_eq, h])

/-! ## Arguments -/

/-- The tokens of an argument. -/
def argumentTokens : Argument Float → List Token
  | .number v => numberTokens v
  | .flag b => [.word (argumentText (.flag b))]

theorem reads_argumentText (a : Argument Float) : Reads (argumentText a) (argumentTokens a) := by
  cases a with
  | number v => exact reads_floatLiteral v
  | flag b => cases b <;> exact reads_word (by decide)

theorem isUnit_argumentTokens (a : Argument Float) : IsUnit (argumentTokens a) := by
  cases a with
  | number v => exact isUnit_numberTokens v
  | flag b => exact isUnit_word _

/-- A number literal ends with a letter that ends no truth value. -/
theorem numberTokens_ne_flag (v : Float) (b : Bool) : numberTokens v ≠ argumentTokens (.flag b) := by
  intro h
  have hlast : (floatLiteral v).toList.getLast? = some 'f' := by
    rw [floatLiteral, String.toList_append]
    exact List.getLast?_concat
  rcases numberTokens_cases v with hv | ⟨w, hv, -⟩
  · rw [hv, argumentTokens] at h
    rw [Token.word.inj (List.cons.inj h).1] at hlast
    cases b <;> exact absurd hlast (by decide)
  · rw [hv, argumentTokens] at h
    cases (List.cons.inj h).1

theorem sameArgument_of_argumentTokens {a b : Argument Float}
    (h : argumentTokens a = argumentTokens b) : SameArgument a b := by
  have hflags : ∀ c d, argumentText (.flag c) = argumentText (.flag d) → c = d := by decide
  cases a with
  | number v =>
    cases b with
    | number w => exact .number (alike_of_numberTokens h)
    | flag d => exact absurd h (numberTokens_ne_flag v d)
  | flag c =>
    cases b with
    | number w => exact absurd h.symm (numberTokens_ne_flag w c)
    | flag d =>
      rw [hflags c d (Token.word.inj (List.cons.inj h).1)]
      exact .flag d

/-- The arguments of a command in parentheses. -/
def argumentListTokens (c : Command Float) : List Token :=
  arguments false (c.arguments.map argumentTokens)

theorem isUnit_argument (c : Command Float) : ∀ u ∈ c.arguments.map argumentTokens, IsUnit u :=
  isUnit_of_mem_map isUnit_argumentTokens c.arguments

theorem reads_command {name : String} {ns : List Token} (hname : Reads name ns) (c : Command Float) :
    Reads (name ++ argumentList c) (ns ++ argumentListTokens c) := by
  rw [argumentList, ← String.append_assoc, ← String.append_assoc]
  exact reads_callLine hname.then_open (forall₂_map_map reads_argumentText c.arguments)

theorem sameCommand_of_argumentListTokens {c d : Command Float} {ts us : List Token}
    (hletter : c.letter = d.letter) (h : argumentListTokens c ++ ts = argumentListTokens d ++ us) :
    SameCommand c d ∧ ts = us := by
  obtain ⟨hlists, hrest⟩ := arguments_append_inj (isUnit_argument c) (isUnit_argument d) h
  exact ⟨⟨hletter, forall₂_of_map_eq (fun a b => sameArgument_of_argumentTokens) hlists⟩, hrest⟩

/-! ## Calls of the builder -/

/-- The tokens of a call of the builder. -/
def callTokens (c : Command Float) : List Token :=
  .word (callName c.letter) :: argumentListTokens c

theorem reads_builderCall (c : Command Float) : Reads (builderCall c) (callTokens c) :=
  reads_command (reads_callName c.letter) c

theorem sameCommand_of_callTokens {c d : Command Float} {ts us : List Token}
    (h : callTokens c ++ ts = callTokens d ++ us) : SameCommand c d ∧ ts = us := by
  obtain ⟨hname, hrest⟩ := List.cons.inj h
  exact sameCommand_of_argumentListTokens (callName_inj (Token.word.inj hname)) hrest

/-! ## Entries of a clip -/

/-- The tokens of an entry of a clip. -/
def entryTokens (c : Command Float) : List Token :=
  .word "PathNode" :: .mark '.' :: .word (memberName c.letter) ::
    if c.letter = .close then [] else argumentListTokens c

theorem reads_pathNode (c : Command Float) : Reads (pathNode c) (entryTokens c) := by
  unfold pathNode entryTokens
  have hname := reads_nodeName c.letter
  cases hletter : c.letter with
  | close =>
    rw [hletter] at hname
    exact hname
  | draw frame kind =>
    rw [hletter] at hname
    exact reads_command hname c

theorem isUnit_entryTokens (c : Command Float) : IsUnit (entryTokens c) := by
  have hname : IsUnit [.word "PathNode", .mark '.', .word (memberName c.letter)] :=
    (isUnit_word "PathNode").cons (isUnit_dot.cons (isUnit_word _))
  unfold entryTokens
  split
  · exact hname
  · exact hname.append (isUnit_arguments (isUnit_argument c))

theorem arguments_of_close {c : Command Float} (h : c.letter = .close) : c.arguments = [] := by
  cases c with
  | close => rfl
  | _ => cases h

theorem sameCommand_of_entryTokens {c d : Command Float} (h : entryTokens c = entryTokens d) :
    SameCommand c d := by
  obtain ⟨hname, hrest⟩ := List.cons.inj (List.cons.inj (List.cons.inj h).2).2
  have hletter := memberName_inj (Token.word.inj hname)
  by_cases hclose : c.letter = .close
  · refine ⟨hletter, ?_⟩
    rw [arguments_of_close hclose, arguments_of_close (hletter.symm.trans hclose)]
    exact .nil
  · rw [if_neg hclose, if_neg fun hd => hclose (hletter.trans hd)] at hrest
    exact (@sameCommand_of_argumentListTokens c d [] [] hletter (congrArg (· ++ []) hrest)).1

end VectorIcon.Kotlin
