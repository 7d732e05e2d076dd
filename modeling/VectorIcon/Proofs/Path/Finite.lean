import VectorIcon.Proofs.Kotlin.Printed
import VectorIcon.Proofs.Path.Parsing

/-!
# Path data has finite numbers

A numeral beyond the limit of doubles is a fault of path data. So the commands that are read have finite
numbers only (`areFinite_of_parse`).
-/

namespace VectorIcon.Path

open Number Kotlin

/-- All numbers of some commands are finite. -/
def AreFinite (cs : List (Command Float)) : Prop :=
  ∀ v ∈ cs.flatMap commandNumbers, isFinite v = true

theorem areFinite_nil : AreFinite [] :=
  nofun

theorem areFinite_append {cs ds : List (Command Float)} :
    AreFinite (cs ++ ds) ↔ AreFinite cs ∧ AreFinite ds := by
  rw [AreFinite, List.flatMap_append, List.forall_mem_append]
  rfl

theorem isFinite_of_argumentAt {slot : Slot} {s rest : List Char} {v : Float}
    (h : ArgumentAt slot s (.number v) rest) : isFinite v = true := by
  cases h with
  | number _ hfinite => exact hfinite

theorem isFinite_of_argumentsAt {slots : List Slot} {s rest : List Char} {as : List (Argument Float)}
    (h : ArgumentsAt slots s as rest) {v : Float} (hv : .number v ∈ as) : isFinite v = true := by
  induction h with
  | nil => cases hv
  | cons _ hargument _ ih =>
    rcases List.mem_cons.1 hv with rfl | hrest
    · exact isFinite_of_argumentAt hargument
    · exact ih hrest

variable {frame : Frame} {kind : Kind} {s rest : List Char} {cs : List (Command Float)}

theorem areFinite_of_groupAt {c : Command Float} (h : GroupAt frame kind s c rest) : AreFinite [c] := by
  intro v hv
  rw [List.flatMap_singleton, commandNumbers] at hv
  obtain ⟨a, ha, hav⟩ := List.mem_filterMap.1 hv
  cases a with
  | number w =>
    obtain rfl := Option.some.inj hav
    exact isFinite_of_argumentsAt h.2 ha
  | flag b => cases hav

theorem areFinite_of_groupsAt (h : GroupsAt frame kind s cs rest) : AreFinite cs := by
  induction h with
  | last hgroup => exact areFinite_of_groupAt hgroup
  | more hgroup _ ih => exact areFinite_append.2 ⟨areFinite_of_groupAt hgroup, ih⟩

theorem areFinite_of_pathData (h : PathData s cs) : AreFinite cs := by
  induction h with
  | done _ => exact areFinite_nil
  | close _ _ _ ih => exact ih
  | draw _ _ hgroups _ ih => exact areFinite_append.2 ⟨areFinite_of_groupsAt hgroups, ih⟩

/-- What is read from path data is finite. -/
theorem areFinite_of_parse {data : String} (h : parse data = .ok cs) : AreFinite cs := by
  rcases derives_of_readFrom isSteady_none h with hdata | ⟨_, _, hnone, -⟩
  · exact areFinite_of_pathData hdata
  · cases hnone

end VectorIcon.Path
