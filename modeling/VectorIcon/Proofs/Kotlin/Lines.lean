import Mathlib.Data.List.Forall2
import VectorIcon.Kotlin.Builder
import VectorIcon.Proofs.Kotlin.Arguments

/-!
# Tokens of lines

Code is made of lines that are moved to the right, put before or after other texts and joined. None of
this is seen in the tokens: a line break and the blanks before a line end tokens and are none
(`LinesRead.nested`, `reads_of_linesRead`), and a call has the tokens of its arguments with commas
between them, on however many lines (`LinesRead.call`).
-/

namespace VectorIcon.Kotlin

/-- The lines have the given tokens, and no literal is open at the end of any of them. -/
inductive LinesRead : List String → List Token → Prop
  | nil : LinesRead [] []
  | cons {line lines ts us} : Reads line ts → LinesRead lines us → LinesRead (line :: lines) (ts ++ us)

namespace LinesRead

variable {lines lines' : List String} {ts us : List Token}

theorem singleton {line : String} (h : Reads line ts) : LinesRead [line] ts := by
  have := cons h nil
  rwa [List.append_nil] at this

theorem append (h : LinesRead lines ts) (h' : LinesRead lines' us) :
    LinesRead (lines ++ lines') (ts ++ us) := by
  induction h with
  | nil => exact h'
  | cons hline _ ih =>
    rw [List.cons_append, List.append_assoc]
    exact cons hline ih

/-- Lines that are moved to the right keep their tokens. -/
theorem nested {style : CallStyle} (hindent : Ends style.indent []) (h : LinesRead lines ts) :
    LinesRead (style.nested lines) ts := by
  induction h with
  | nil => exact nil
  | cons hline _ ih => exact cons (hindent.append_reads hline) ih

theorem labelled {label : String} (hlabel : Ends label ts) (h : LinesRead lines us)
    (hne : lines ≠ []) : LinesRead (Kotlin.labelled label lines) (ts ++ us) := by
  cases h with
  | nil => exact absurd rfl hne
  | cons hline hlines =>
    rw [← List.append_assoc]
    exact cons (hlabel.append_reads hline) hlines

theorem endedWith {ending : String} (h : LinesRead lines ts) (hne : lines ≠ [])
    (hending : Reads ending us) (hbreak : startsWithBreak ending = true) :
    LinesRead (Kotlin.endedWith ending lines) (ts ++ us) := by
  induction h with
  | nil => exact absurd rfl hne
  | @cons line lines vs ws hline hlines ih =>
    cases lines with
    | nil =>
      cases hlines
      rw [List.append_nil]
      exact singleton (hline.append_reads hending hbreak)
    | cons next lines =>
      rw [Kotlin.endedWith, List.append_assoc]
      · exact cons hline (ih (List.cons_ne_nil _ _))
      · exact List.cons_ne_nil _ _

end LinesRead

theorem endedWith_concat (ending last : String) (lines : List String) :
    endedWith ending (lines ++ [last]) = lines ++ [last ++ ending] := by
  induction lines with
  | nil => rfl
  | cons line lines ih =>
    rw [List.cons_append, endedWith, ih, List.cons_append]
    exact fun h => List.cons_ne_nil _ _ (List.append_eq_nil_iff.1 h).2

/-- Lines that are joined have the tokens of all of them. -/
theorem reads_of_linesRead {lines : List String} {ts : List Token} (h : LinesRead lines ts) :
    Reads ("\n".intercalate lines) ts := by
  have hbreak : Ends "\n" [] := by decide
  induction h with
  | nil => exact reads_empty
  | @cons line lines ts us hline hlines ih =>
    cases lines with
    | nil =>
      cases hlines
      rw [String.intercalate_singleton, List.append_nil]
      exact hline
    | cons next lines =>
      have hends := hline.append_ends hbreak (by decide) (by decide)
      rw [List.append_nil] at hends
      rw [String.intercalate_cons_cons]
      exact hends.append_reads ih

/-- Texts that are joined with commas read as arguments. -/
theorem reads_commas {texts : List String} {tss : List (List Token)}
    (h : List.Forall₂ Reads texts tss) : Reads (", ".intercalate texts) (separated false tss) := by
  induction h with
  | nil => exact reads_empty
  | @cons text ts texts tss htext htexts ih =>
    cases htexts with
    | nil =>
      rw [String.intercalate_singleton, separated, furtherArguments, if_neg Bool.false_ne_true,
        List.append_nil]
      exact htext
    | @cons next us texts tss hnext htexts =>
      have hreads := htext.then_comma.append_reads ih
      rw [String.intercalate_cons_cons, separated, furtherArguments, List.cons_append]
      rw [separated, List.append_assoc] at hreads
      exact hreads

/-! ## Calls -/

/-- A call on one line. -/
theorem reads_callLine {head : String} {ns : List Token} {texts : List String}
    {tss : List (List Token)} (hhead : Ends head (ns ++ [.mark '(']))
    (h : List.Forall₂ Reads texts tss) :
    Reads (head ++ ", ".intercalate texts ++ ")") (ns ++ arguments false tss) := by
  have hcall := (hhead.append_reads (reads_commas h)).then_close
  rw [List.append_assoc, List.append_assoc] at hcall
  exact hcall

/-- The lines of an argument, of which there are some, have the given tokens. -/
def ArgumentReads (lines : List String) (ts : List Token) : Prop :=
  lines ≠ [] ∧ LinesRead lines ts

theorem argumentReads_singleton {line : String} {ts : List Token} (h : Reads line ts) :
    ArgumentReads [line] ts :=
  ⟨List.cons_ne_nil _ _, .singleton h⟩

theorem forall₂_map_map {α β γ : Type} {f : α → β} {g : α → γ} {r : β → γ → Prop}
    (h : ∀ a, r (f a) (g a)) (l : List α) : List.Forall₂ r (l.map f) (l.map g) := by
  rw [List.forall₂_map_left_iff, List.forall₂_map_right_iff]
  exact List.forall₂_same.2 fun a _ => h a

section

variable {style : CallStyle} (hindent : Ends style.indent [])

include hindent

/-- The arguments of a call read as arguments between commas. -/
theorem linesRead_arguments {args : List (List String)} {tss : List (List Token)}
    (h : List.Forall₂ ArgumentReads args tss) :
    LinesRead (style.arguments args) (separated style.trailingComma tss) := by
  have hcomma : Reads "," [.mark ','] := by decide
  induction h with
  | nil => exact .nil
  | @cons arg ts args tss harg hargs ih =>
    cases hargs with
    | nil =>
      rw [CallStyle.arguments, separated, furtherArguments]
      refine LinesRead.nested hindent (harg.2.endedWith harg.1 ?_ ?_)
      · cases style.trailingComma with
        | true => exact hcomma
        | false => exact reads_empty
      · cases style.trailingComma <;> decide
    | @cons next us args tss hnext hargs =>
      rw [CallStyle.arguments, separated, furtherArguments]
      · have hfirst := LinesRead.nested hindent (harg.2.endedWith harg.1 hcomma (by decide))
        have hall := hfirst.append ih
        rw [separated, List.append_assoc] at hall
        exact hall
      · exact List.cons_ne_nil _ _

/-- A call over several lines, and what stands after it on its last line. -/
theorem LinesRead.callThen {name last : String} {ns us : List Token} {args : List (List String)}
    {tss : List (List Token)} (hname : Reads name ns) (h : List.Forall₂ ArgumentReads args tss)
    (hlast : Reads last (.mark ')' :: us)) :
    LinesRead ((name ++ "(") :: style.arguments args ++ [last])
      (ns ++ (Kotlin.arguments style.trailingComma tss ++ us)) := by
  have harguments := (linesRead_arguments hindent h).append (.singleton hlast)
  have hlines := LinesRead.cons hname.then_open.reads harguments
  rw [List.append_assoc] at hlines
  rw [Kotlin.arguments, List.append_assoc]
  exact hlines

theorem LinesRead.call {name : String} {ns : List Token} {args : List (List String)}
    {tss : List (List Token)} (hname : Reads name ns) (h : List.Forall₂ ArgumentReads args tss) :
    LinesRead (style.call name args) (ns ++ Kotlin.arguments style.trailingComma tss) := by
  have hlines := LinesRead.callThen hindent hname h reads_close
  rwa [List.append_nil] at hlines

theorem ArgumentReads.call {name : String} {ns : List Token} {args : List (List String)}
    {tss : List (List Token)} (hname : Reads name ns) (h : List.Forall₂ ArgumentReads args tss) :
    ArgumentReads (style.call name args) (ns ++ Kotlin.arguments style.trailingComma tss) :=
  ⟨List.cons_ne_nil _ _, LinesRead.call hindent hname h⟩

end

end VectorIcon.Kotlin
