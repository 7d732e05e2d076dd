import VectorIcon.Proofs.Svg.Faultless
import VectorIcon.Proofs.Svg.Size

/-!
# Lenient readings

A lenient reading gives what a strict one gives, where that gives anything. Where path data has a fault,
it gives the icon and the warnings of the document without faults, and beside them a warning for each
fault, of which the first is what the strict reading fails with (`lenient_extends_strict`).

Faults are turned into warnings after a document is surveyed. So all this is about one list of notices,
which is cleaned of its faults (`cleans_survey`) or turned into a log. A log keeps the first report of each
warning, and what is asked about it here does not depend on the repeated ones (`filter_ofReports`,
`findSome?_ofReports`).
-/

namespace VectorIcon.Svg

open Markup

/-- The warning is about a path that was dropped. -/
def isDropped (w : Warning) : Bool :=
  (droppedMessage? w).isSome

/-! ## Logs -/

theorem filter_report (p : Warning → Bool) (log : Warning.Log) (w : Warning) :
    (log.report w).filter p = if p w then Warning.Log.report (log.filter p) w else log.filter p := by
  unfold Warning.Log.report
  by_cases hp : p w = true
  · by_cases hlog : w ∈ log
    · simp [hp, hlog]
    · simp [hp, hlog, List.filter_append]
  · by_cases hlog : w ∈ log
    · simp [hp, hlog]
    · simp [hp, hlog, List.filter_append]

theorem filter_ofReports (p : Warning → Bool) (reports : List Warning) :
    (Warning.Log.ofReports reports).filter p = Warning.Log.ofReports (reports.filter p) := by
  have hfold (log : Warning.Log) : (reports.foldl Warning.Log.report log).filter p =
      (reports.filter p).foldl Warning.Log.report (log.filter p) := by
    induction reports generalizing log with
    | nil => rfl
    | cons w reports ih =>
      rw [List.foldl_cons, ih, filter_report]
      by_cases hp : p w = true
      · rw [if_pos hp, List.filter_cons_of_pos hp, List.foldl_cons]
      · rw [if_neg hp, List.filter_cons_of_neg hp]
  exact hfold []

theorem findSome?_report {α : Type} (f : Warning → Option α) (log : Warning.Log) (w : Warning) :
    (log.report w).findSome? f = (log.findSome? f).or (f w) := by
  unfold Warning.Log.report
  by_cases hlog : w ∈ log
  · rw [if_pos (by simpa using hlog)]
    cases hfound : log.findSome? f with
    | some a => rfl
    | none => rw [List.findSome?_eq_none_iff.1 hfound w hlog]; rfl
  · rw [if_neg (by simpa using hlog), List.findSome?_append]
    simp

theorem findSome?_ofReports {α : Type} (f : Warning → Option α) (reports : List Warning) :
    (Warning.Log.ofReports reports).findSome? f = reports.findSome? f := by
  have hfold (log : Warning.Log) : (reports.foldl Warning.Log.report log).findSome? f =
      (log.findSome? f).or (reports.findSome? f) := by
    induction reports generalizing log with
    | nil => simp
    | cons w reports ih =>
      rw [List.foldl_cons, ih, findSome?_report, List.findSome?_cons]
      cases log.findSome? f <;> cases f w <;> rfl
  exact hfold []

/-! ## Notices as warnings -/

section

variable {notices : List Notice}

theorem isDropped_toWarning {n : Notice} (h : n.isOwn = true) :
    isDropped n.toWarning = !n.isWarning := by
  cases n with
  | warning w =>
    rw [Notice.isOwn, Option.isNone_iff_eq_none] at h
    simp [Notice.toWarning, Notice.isWarning, isDropped, h]
  | fault error => rfl

/-- The warnings that are not about dropped paths are those that are no faults. -/
theorem filter_map_toWarning (h : ∀ n ∈ notices, n.isOwn = true) :
    (notices.map Notice.toWarning).filter (fun w => !isDropped w) =
      (notices.filter Notice.isWarning).map Notice.toWarning := by
  rw [List.filter_map]
  refine congrArg (List.map Notice.toWarning) (List.filter_congr fun n hn => ?_)
  rw [Function.comp_apply, isDropped_toWarning (h n hn), Bool.not_not]

/-- The first warning about a dropped path tells the first fault. -/
theorem findSome?_map_toWarning (h : ∀ n ∈ notices, n.isOwn = true) :
    (notices.map Notice.toWarning).findSome? droppedMessage? =
      (firstFault? notices).map Path.Error.message := by
  induction notices with
  | nil => rfl
  | cons n notices ih =>
    have hrest := ih fun m hm => h m (List.mem_cons_of_mem _ hm)
    have hn := h n (List.mem_cons_self ..)
    cases n with
    | warning w =>
      rw [Notice.isOwn, Option.isNone_iff_eq_none] at hn
      rw [List.map_cons, List.findSome?_cons, Notice.toWarning, hn]
      exact hrest
    | fault error => rfl

theorem firstFault?_filter_isWarning (notices : List Notice) :
    firstFault? (notices.filter Notice.isWarning) = none := by
  rw [firstFault?, List.findSome?_eq_none_iff]
  intro n hn
  cases n with
  | warning w => rfl
  | fault error => cases (List.mem_filter.1 hn).2

end

/-! ## Readings -/

/-- The drawing of a document, with its faults as warnings. -/
def drawingOf (root : Element) : Drawing :=
  ⟨(survey root).value, .ofReports ((survey root).notices.map Notice.toWarning)⟩

section

variable {root : Element}

theorem read_wrongRoot (h : root.name ≠ "svg") (mode : Mode) :
    read mode root = .error (.wrongRoot root.name) := by
  rw [read_eq, if_pos h]

theorem read_lenient (h : root.name = "svg") : read .lenient root = .ok (drawingOf root) := by
  rw [read_eq, if_neg fun hne => hne h]
  rfl

theorem read_strict_of_none (h : root.name = "svg")
    (hfault : firstFault? (survey root).notices = none) :
    read .strict root = .ok (drawingOf root) := by
  rw [read_eq, if_neg fun hne => hne h, hfault]
  rfl

theorem read_strict_of_some {error : Path.Error} (h : root.name = "svg")
    (hfault : firstFault? (survey root).notices = some error) :
    read .strict root = .error (.path error) := by
  rw [read_eq, if_neg fun hne => hne h, hfault]

/-- What a strict reading gives, a lenient one gives. -/
theorem read_lenient_of_strict {drawing : Drawing} (h : read .strict root = .ok drawing) :
    read .lenient root = .ok drawing := by
  by_cases hname : root.name = "svg"
  · cases hfault : firstFault? (survey root).notices with
    | none => rw [read_lenient hname, ← h, read_strict_of_none hname hfault]
    | some error =>
      rw [read_strict_of_some hname hfault] at h
      cases h
  · rw [read_wrongRoot hname] at h
    cases h

/-- A strict reading fails for path data only where a document has a first fault. -/
theorem firstFault?_of_read {error : Path.Error} (h : read .strict root = .error (.path error)) :
    root.name = "svg" ∧ firstFault? (survey root).notices = some error := by
  by_cases hname : root.name = "svg"
  · refine ⟨hname, ?_⟩
    cases hfault : firstFault? (survey root).notices with
    | none =>
      rw [read_strict_of_none hname hfault] at h
      cases h
    | some first =>
      rw [read_strict_of_some hname hfault] at h
      cases h
      rfl
  · rw [read_wrongRoot hname] at h
    cases h

/-- The document without faults has the icon of the document, and its other warnings. -/
theorem drawingOf_withoutFaults (root : Element) :
    (drawingOf root).icon = (drawingOf (withoutFaults root)).icon ∧
      (drawingOf root).warnings.filter (fun w => !isDropped w) =
        (drawingOf (withoutFaults root)).warnings := by
  have hclean := cleans_survey root
  refine ⟨hclean.value.symm, ?_⟩
  rw [drawingOf, drawingOf, filter_ofReports, filter_map_toWarning hclean.own, ← hclean.notices]

theorem read_strict_withoutFaults (h : root.name = "svg") :
    read .strict (withoutFaults root) = .ok (drawingOf (withoutFaults root)) := by
  refine read_strict_of_none ((name_withoutFaults root).trans h) ?_
  rw [(cleans_survey root).notices]
  exact firstFault?_filter_isWarning _

theorem findSome?_warnings_drawingOf (root : Element) :
    (drawingOf root).warnings.findSome? droppedMessage? =
      (firstFault? (survey root).notices).map Path.Error.message := by
  rw [drawingOf, findSome?_ofReports, findSome?_map_toWarning (cleans_survey root).own]

end

/-! ## Texts -/

/-- A text without a root fails in every reading. -/
theorem parse_cases (text : String) :
    (∃ fault, ∀ mode, parse mode text = .error (.markup fault)) ∨
      ∃ root, ∀ mode, parse mode text = read mode root := by
  unfold parse
  cases Markup.parse text with
  | error fault => exact .inl ⟨fault, fun _ => rfl⟩
  | ok root => exact .inr ⟨root, fun _ => rfl⟩

/-- The failures of a reading are those of a root and, in a strict one, those of path data. -/
theorem read_cases (root : Element) :
    (∀ mode, read mode root = .error (.wrongRoot root.name)) ∨
      ∃ drawing, read .lenient root = .ok drawing ∧
        (read .strict root = .ok drawing ∨ ∃ fault, read .strict root = .error (.path fault)) := by
  by_cases hname : root.name = "svg"
  · refine .inr ⟨drawingOf root, read_lenient hname, ?_⟩
    cases hfault : firstFault? (survey root).notices with
    | none => exact .inl (read_strict_of_none hname hfault)
    | some fault => exact .inr ⟨fault, read_strict_of_some hname hfault⟩
  · exact .inl fun mode => read_wrongRoot hname mode

/-- What is no failure of path data fails in both readings, or in none. -/
theorem parse_strict_eq_error_iff (text : String) {error : Error}
    (h : ∀ fault, error ≠ .path fault) :
    parse .strict text = .error error ↔ parse .lenient text = .error error := by
  rcases parse_cases text with ⟨fault, hparse⟩ | ⟨root, hparse⟩
  · rw [hparse, hparse]
  · rw [hparse, hparse]
    rcases read_cases root with hread | ⟨drawing, hlenient, hstrict | ⟨fault, hstrict⟩⟩
    · rw [hread, hread]
    · rw [hlenient, hstrict]
    · rw [hlenient, hstrict]
      constructor
      · intro heq
        cases heq
        exact absurd rfl (h fault)
      · intro heq
        cases heq

theorem error_cases_of_parse {mode : Mode} {text : String} {error : Error}
    (h : parse mode text = .error error) :
    (∃ fault, error = .markup fault) ∨ (∃ tag, error = .wrongRoot tag) ∨
      mode = .strict ∧ ∃ fault, error = .path fault := by
  rcases parse_cases text with ⟨fault, hparse⟩ | ⟨root, hparse⟩
  · rw [hparse] at h
    cases h
    exact .inl ⟨fault, rfl⟩
  · rw [hparse] at h
    rcases read_cases root with hread | ⟨drawing, hlenient, hstrict⟩
    · rw [hread] at h
      cases h
      exact .inr (.inl ⟨root.name, rfl⟩)
    · cases mode with
      | lenient =>
        rw [hlenient] at h
        cases h
      | strict =>
        rcases hstrict with hstrict | ⟨fault, hstrict⟩
        · rw [hstrict] at h
          cases h
        · rw [hstrict] at h
          cases h
          exact .inr (.inr ⟨rfl, fault, rfl⟩)

/-- A lenient reading extends the strict one. What a document gives in a strict reading, it gives in a
lenient one. Where a strict reading fails for path data, a lenient one gives the icon of the document
without faults and its warnings, and besides these warnings about dropped paths, of which the first has
the message of the failure. All other failures are those of a text and of its root, and are the same in
both. -/
theorem lenient_extends_strict (root : Element) (text : String) :
    (∀ drawing, read .strict root = .ok drawing → read .lenient root = .ok drawing) ∧
    (∀ error, read .strict root = .error (.path error) →
      ∃ drawing cleared, read .lenient root = .ok drawing ∧
        read .strict (withoutFaults root) = .ok cleared ∧
        drawing.warnings.findSome? droppedMessage? = some error.message ∧
        drawing.icon = cleared.icon ∧
        drawing.warnings.filter (fun w => !isDropped w) = cleared.warnings) ∧
    (∀ error, parse .strict text = .error (.markup error) ↔
      parse .lenient text = .error (.markup error)) ∧
    (∀ tag, parse .strict text = .error (.wrongRoot tag) ↔
      parse .lenient text = .error (.wrongRoot tag)) ∧
    (∀ mode error, parse mode text = .error error →
      (∃ fault, error = .markup fault) ∨ (∃ tag, error = .wrongRoot tag) ∨
        mode = .strict ∧ ∃ fault, error = .path fault) := by
  refine ⟨fun _ h => read_lenient_of_strict h, fun error h => ?_,
    fun error => parse_strict_eq_error_iff text nofun,
    fun tag => parse_strict_eq_error_iff text nofun, fun _ _ h => error_cases_of_parse h⟩
  obtain ⟨hname, hfault⟩ := firstFault?_of_read h
  obtain ⟨hicon, hwarnings⟩ := drawingOf_withoutFaults root
  refine ⟨drawingOf root, drawingOf (withoutFaults root), read_lenient hname,
    read_strict_withoutFaults hname, ?_, hicon, hwarnings⟩
  rw [findSome?_warnings_drawingOf, hfault]
  rfl

/-- A drawing with a letter that no command has, in a clip path and in a path. -/
def spoiltDocument : Element :=
  ⟨"svg", [], [
    ⟨"clipPath", [⟨none, "id", "corner"⟩], [⟨"path", [⟨none, "d", "zX"⟩], []⟩]⟩,
    ⟨"g", [⟨none, "clip-path", "url(#corner)"⟩], [
      ⟨"path", [⟨none, "d", "z"⟩], []⟩,
      ⟨"path", [⟨none, "d", "Yz"⟩], []⟩]⟩]⟩

theorem lenient_extends_strict_spoiltDocument :
    read .strict spoiltDocument = .error (.path (.unknownCommand 'X' 1)) ∧
      ∃ drawing cleared, read .lenient spoiltDocument = .ok drawing ∧
        read .strict (withoutFaults spoiltDocument) = .ok cleared ∧
        drawing.warnings.findSome? droppedMessage? = some "Unknown path command 'X' at offset 1" ∧
        drawing.icon = cleared.icon ∧
        drawing.warnings.filter (fun w => !isDropped w) = cleared.warnings ∧
        read .lenient (withoutFaults spoiltDocument) = .ok cleared := by
  have hfault : firstFault? (survey spoiltDocument).notices = some (.unknownCommand 'X' 1) := by
    decide +kernel
  have hread := read_strict_of_some rfl hfault
  obtain ⟨drawing, cleared, hlenient, hcleared, hmessage, hicon, hwarnings⟩ :=
    (lenient_extends_strict spoiltDocument "").2.1 _ hread
  exact ⟨hread, drawing, cleared, hlenient, hcleared, hmessage, hicon, hwarnings,
    (lenient_extends_strict (withoutFaults spoiltDocument) "").1 cleared hcleared⟩

end VectorIcon.Svg
