import Mathlib
import VectorIcon.Kotlin.Import
import VectorIcon.Proofs.Kotlin.Indentation

/-!
# Import lines in groups

The lines of imports in groups are those of the same imports without groups, with one blank line between two
whose names differ in their first three segments (`formatImports_grouped`).

1. The key of a group is the text of its names up to their third point (`groupKey_eq`).
2. No character of a name comes before the point. So names in order have keys in order, also where one name
   begins with another (`groupKey_le`), and the names of a group stand side by side.
3. Then a name that is put before all others either goes to the first group or is a group of its own
   (`grouped_cons_cons`), which is what tells whether a blank line follows it.
-/

namespace VectorIcon.Text

theorem mem_sortedSet {texts : List String} {s : String} : s ∈ sortedSet texts ↔ s ∈ texts := by
  rw [sortedSet, List.mem_eraseDups, List.mem_mergeSort]

/-- Texts in order without repetitions are in strict order. -/
theorem pairwise_eraseDups : ∀ {texts : List String}, texts.Pairwise (· ≤ ·) →
    texts.eraseDups.Pairwise (· < ·)
  | [], _ => .nil
  | a :: texts, h => by
    obtain ⟨ha, htexts⟩ := List.pairwise_cons.1 h
    have hlength := List.length_filter_le (fun b => !b == a) texts
    rw [List.eraseDups_cons]
    refine .cons (fun b hb => ?_) (pairwise_eraseDups (htexts.filter _))
    obtain ⟨hmem, hne⟩ := List.mem_filter.1 (List.mem_eraseDups.1 hb)
    exact lt_of_le_of_ne (ha b hmem) (by rintro rfl; simp at hne)
termination_by texts => texts.length

/-- Texts that are in order are not moved. -/
theorem sortedSet_of_pairwise {texts : List String} (h : texts.Pairwise (· ≤ ·)) :
    sortedSet texts = texts.eraseDups := by
  rw [sortedSet, List.mergeSort_of_pairwise (h.imp fun hab => by simpa using hab)]

theorem pairwise_sortedSet (texts : List String) : (sortedSet texts).Pairwise (· < ·) := by
  refine pairwise_eraseDups ((List.pairwise_mergeSort (fun a b c hab hbc => ?_) (fun a b => ?_) texts).imp
    fun hab => by simpa using hab)
  · simp only [decide_eq_true_eq] at hab hbc ⊢
    exact hab.trans hbc
  · simpa using le_total a b

end VectorIcon.Text

namespace VectorIcon.Kotlin

open Text

/-! ## First segments -/

/-- The first three segments of a name; all of a shorter one. -/
def firstSegments (name : String) : List (List Char) :=
  (name.toList.splitOn '.').take 3

/-- A text up to the point that comes after `n` others. -/
def heading : Nat → List Char → List Char
  | _, [] => []
  | 0, c :: s => if c = '.' then [] else c :: heading 0 s
  | n + 1, c :: s => if c = '.' then c :: heading n s else c :: heading (n + 1) s

theorem heading_cons_of_ne {c : Char} (hc : c ≠ '.') (n : Nat) (s : List Char) :
    heading n (c :: s) = c :: heading n s := by
  cases n <;> rw [heading, if_neg hc]

/-- A character at the front ends the heading or is kept, whatever follows it. -/
theorem heading_cons_cases (n : Nat) (c : Char) :
    (∀ s, heading n (c :: s) = []) ∨ ∃ m, ∀ s, heading n (c :: s) = c :: heading m s := by
  by_cases hc : c = '.'
  · cases n with
    | zero => exact .inl fun s => if_pos hc
    | succ n => exact .inr ⟨n, fun s => if_pos hc⟩
  · exact .inr ⟨n, heading_cons_of_ne hc n⟩

theorem splitOn_heading (n : Nat) (s : List Char) :
    (heading n s).splitOn '.' = (s.splitOn '.').take (n + 1) := by
  induction s generalizing n with
  | nil =>
    rw [heading, List.splitOn_nil, List.take_succ_cons, List.take_nil]
  | cons c s ih =>
    by_cases hc : c = '.'
    · subst hc
      cases n with
      | zero =>
        rw [heading, if_pos rfl, List.splitOn_cons_eq_if_modifyHead, if_pos (by rfl)]
        rfl
      | succ n =>
        rw [heading, if_pos rfl, List.splitOn_cons_eq_if_modifyHead, if_pos (by rfl),
          List.splitOn_cons_eq_if_modifyHead, if_pos (by rfl), ih, List.take_succ_cons]
    · have hne : ¬ (c == '.') = true := by simpa using hc
      rw [heading_cons_of_ne hc, List.splitOn_cons_eq_if_modifyHead, if_neg hne,
        List.splitOn_cons_eq_if_modifyHead, if_neg hne, ih, List.take_modifyHead]

theorem groupKey_eq (name : String) : groupKey name = String.ofList (heading 2 name.toList) := by
  have hjoined : ['.'].intercalate ((name.toList.splitOn '.').take 3) = heading 2 name.toList := by
    rw [← splitOn_heading 2 name.toList, List.intercalate_splitOn]
  unfold groupKey
  dsimp only
  split
  · rw [← hjoined, ← String.toList_inj, String.toList_intercalate, String.toList_ofList, List.map_map]
    have hpieces (pieces : List (List Char)) : pieces.map (String.toList ∘ String.ofList) = pieces :=
      (List.map_congr_left fun s _ => String.toList_ofList).trans (List.map_id _)
    rw [hpieces, String.toList_ofList]
  · next hshort =>
    rw [← hjoined, List.take_of_length_le (by omega), List.intercalate_splitOn, String.ofList_toList]

/-- Names are in the same group when their first segments are the same. -/
theorem groupKey_eq_iff {a b : String} : groupKey a = groupKey b ↔ firstSegments a = firstSegments b := by
  rw [groupKey_eq, groupKey_eq, String.ofList_inj, firstSegments, firstSegments,
    ← splitOn_heading 2 a.toList, ← splitOn_heading 2 b.toList]
  have hback (s : List Char) : ['.'].intercalate (s.splitOn '.') = s := List.intercalate_splitOn '.'
  refine ⟨fun h => by rw [h], fun h => ?_⟩
  rw [← hback (heading 2 a.toList), h, hback]

/-! ## Names in order -/

/-- A letter, a digit, an underscore or a point. -/
def isDottedChar (c : Char) : Bool :=
  isWordChar c || c == '.'

/-- The name is made of words and points. -/
def IsDotted (name : String) : Prop :=
  ∀ c ∈ name.toList, isDottedChar c = true

instance : DecidablePred IsDotted := fun name =>
  decidable_of_iff (name.toList.all isDottedChar = true) List.all_eq_true

theorem point_le_of_isDottedChar {c : Char} (h : isDottedChar c = true) : '.' ≤ c := by
  simp only [isDottedChar, isWordChar, isAlphanumeric, isLetter, isDigit, Bool.or_eq_true, Bool.and_eq_true,
    decide_eq_true_eq, beq_iff_eq] at h
  rcases h with (((⟨ha, -⟩ | ⟨hA, -⟩) | ⟨h0, -⟩) | rfl) | rfl
  · exact le_trans (by decide) ha
  · exact le_trans (by decide) hA
  · exact le_trans (by decide) h0
  · decide
  · decide

/-- Texts of which no character comes before the point are in the order of their headings. -/
theorem not_heading_lt {s t : List Char} (n : Nat) (hs : ∀ c ∈ s, '.' ≤ c) (ht : ∀ c ∈ t, '.' ≤ c)
    (h : s < t) : ¬ heading n t < heading n s := by
  induction s generalizing n t with
  | nil =>
    rw [heading]
    exact List.not_lt_nil _
  | cons c s ih =>
    obtain ⟨hc, hs'⟩ := List.forall_mem_cons.1 hs
    cases t with
    | nil => exact absurd h (List.not_lt_nil _)
    | cons d t =>
      have ht' := (List.forall_mem_cons.1 ht).2
      rcases heading_cons_cases n c with hnil | ⟨m, hm⟩
      · rw [hnil]
        exact List.not_lt_nil _
      · rcases List.cons_lt_cons_iff.1 h with hlt | ⟨rfl, hrest⟩
        · -- the second text goes on with a greater character, which is no point
          have hpoint : d ≠ '.' := fun heq => absurd hc (not_le.2 (heq ▸ hlt))
          rw [hm, heading_cons_of_ne hpoint, List.cons_lt_cons_iff]
          rintro (hdc | ⟨rfl, -⟩)
          · exact absurd hdc hlt.asymm
          · exact lt_irrefl _ hlt
        · rw [hm, hm, List.cons_lt_cons_iff]
          rintro (hcc | ⟨-, hless⟩)
          · exact lt_irrefl _ hcc
          · exact ih m hs' ht' hrest hless

/-- Names in order have keys in order. -/
theorem groupKey_le {a b : String} (ha : IsDotted a) (hb : IsDotted b) (h : a < b) :
    groupKey a ≤ groupKey b := by
  have hpoint {name : String} (hname : IsDotted name) : ∀ c ∈ name.toList, '.' ≤ c :=
    fun c hc => point_le_of_isDottedChar (hname c hc)
  rw [groupKey_eq, groupKey_eq, ← not_lt, String.lt_iff_toList_lt, String.toList_ofList,
    String.toList_ofList]
  exact not_heading_lt 2 (hpoint ha) (hpoint hb) (String.lt_iff_toList_lt.1 h)

/-! ## Groups -/

/-- The import line of a name. -/
def importLine (name : String) : String :=
  "import " ++ name

/-- The lines of imports: a blank one stands between two whose first segments differ, and nowhere else. -/
def spacedLines : List String → List String
  | [] => []
  | [name] => [importLine name]
  | a :: b :: rest =>
    if firstSegments a = firstSegments b then importLine a :: spacedLines (b :: rest)
    else importLine a :: "" :: spacedLines (b :: rest)

/-- The lines of a text without the blank ones. -/
def withoutBlankLines (text : String) : String :=
  "\n".intercalate (((linesOf text).filter fun line => !line.isEmpty).map String.ofList)

section

variable {a b : String} {names rest : List String}

theorem grouped_of_pairwise (h : names.Pairwise fun a b => groupKey a ≤ groupKey b) :
    grouped names = (names.map groupKey).eraseDups.map fun key =>
      names.filter fun name => groupKey name == key := by
  rw [grouped, sortedSet_of_pairwise (List.pairwise_map.2 h)]

/-- A name begins its group. -/
theorem exists_grouped_cons (h : (a :: rest).Pairwise fun a b => groupKey a ≤ groupKey b) :
    ∃ members groups, grouped (a :: rest) = (a :: members) :: groups := by
  rw [grouped_of_pairwise h, List.map_cons, List.eraseDups_cons, List.map_cons,
    List.filter_cons_of_pos (by exact beq_self_eq_true _)]
  exact ⟨_, _, rfl⟩

/-- Keys that grow do not come back to one that they have left. -/
theorem groupKey_ne_of_pairwise (h : (a :: b :: rest).Pairwise fun a b => groupKey a ≤ groupKey b)
    (hne : groupKey a ≠ groupKey b) : ∀ name ∈ b :: rest, groupKey name ≠ groupKey a := by
  obtain ⟨ha, hrest⟩ := List.pairwise_cons.1 h
  intro name hname heq
  have hle : groupKey b ≤ groupKey name := by
    rcases List.mem_cons.1 hname with rfl | hmem
    · exact le_rfl
    · exact (List.pairwise_cons.1 hrest).1 name hmem
  exact hne (le_antisymm (ha b List.mem_cons_self) (heq ▸ hle))

/-- A name that comes first goes to the first group when this has its key, and is a group otherwise. -/
theorem grouped_cons_cons (h : (a :: b :: rest).Pairwise fun a b => groupKey a ≤ groupKey b) :
    grouped (a :: b :: rest) =
      if groupKey a = groupKey b then (grouped (b :: rest)).modifyHead (a :: ·)
      else [a] :: grouped (b :: rest) := by
  have hrest := (List.pairwise_cons.1 h).2
  -- the groups of the other keys do not have the first name
  have hothers (keys : List String) (hkeys : ∀ key ∈ keys, key ≠ groupKey a) :
      (keys.map fun key => (a :: b :: rest).filter fun name => groupKey name == key) =
        keys.map fun key => (b :: rest).filter fun name => groupKey name == key := by
    refine List.map_congr_left fun key hkey => List.filter_cons_of_neg ?_
    simpa using (hkeys key hkey).symm
  have hfirst : (a :: b :: rest).filter (fun name => groupKey name == groupKey a) =
      a :: (b :: rest).filter fun name => groupKey name == groupKey a :=
    List.filter_cons_of_pos (p := fun name => groupKey name == groupKey a) (beq_self_eq_true _)
  rw [grouped_of_pairwise h, grouped_of_pairwise hrest, List.map_cons, List.eraseDups_cons, List.map_cons,
    hothers _ fun key hkey => by simpa using (List.mem_filter.1 (List.mem_eraseDups.1 hkey)).2, hfirst]
  split
  · next heq =>
    have hkeys : ((b :: rest).map groupKey).filter (fun key => !key == groupKey a) =
        (rest.map groupKey).filter fun key => !key == groupKey b := by
      rw [heq, List.map_cons]
      exact List.filter_cons_of_neg (by simp)
    rw [hkeys, heq, List.map_cons, List.eraseDups_cons, List.map_cons, List.modifyHead]
  · next hne =>
    have hgreater := groupKey_ne_of_pairwise h hne
    have hnone : (b :: rest).filter (fun name => groupKey name == groupKey a) = [] :=
      List.filter_eq_nil_iff.2 fun name hname => by simpa using hgreater name hname
    have hall : ((b :: rest).map groupKey).filter (fun key => !key == groupKey a) = (b :: rest).map groupKey :=
      List.filter_eq_self.2 fun key hkey => by
        obtain ⟨name, hname, rfl⟩ := List.mem_map.1 hkey
        simpa using hgreater name hname
    rw [hnone, hall]

theorem exists_spacedLines_cons (a : String) (rest : List String) :
    ∃ lines, spacedLines (a :: rest) = importLine a :: lines := by
  cases rest with
  | nil => exact ⟨[], rfl⟩
  | cons b rest =>
    rw [spacedLines]
    split
    · exact ⟨_, rfl⟩
    · exact ⟨_, rfl⟩

/-- The lines of groups with a blank line between them. -/
theorem intercalate_grouped (h : names.Pairwise fun a b => groupKey a ≤ groupKey b) :
    "\n\n".intercalate ((grouped names).map importLines) = "\n".intercalate (spacedLines names) := by
  induction names using spacedLines.induct with
  | case1 => rw [grouped_of_pairwise h]; rfl
  | case2 name =>
    have hone : grouped [name] = [[name]] := by
      rw [grouped_of_pairwise h, List.map_singleton, List.eraseDups_cons, List.filter_nil,
        List.eraseDups_nil, List.map_singleton]
      exact congrArg (fun members => [members]) (List.filter_cons_of_pos (beq_self_eq_true (groupKey name)))
    rw [hone]
    rfl
  | case3 a b rest heq ih =>
    have hrest := (List.pairwise_cons.1 h).2
    obtain ⟨members, groups, hgroups⟩ := exists_grouped_cons hrest
    have hfirst : importLines (a :: b :: members) = importLine a ++ "\n" ++ importLines (b :: members) :=
      String.intercalate_cons_cons
    rw [grouped_cons_cons h, if_pos (groupKey_eq_iff.2 heq), spacedLines, if_pos heq]
    obtain ⟨lines, hlines⟩ := exists_spacedLines_cons b rest
    have hnext := ih hrest
    rw [hgroups, List.map_cons] at hnext
    rw [hgroups, List.modifyHead, List.map_cons, hfirst, String.intercalate_cons_append, hnext, hlines,
      String.intercalate_cons_cons]
  | case4 a b rest hne ih =>
    have hrest := (List.pairwise_cons.1 h).2
    obtain ⟨members, groups, hgroups⟩ := exists_grouped_cons hrest
    obtain ⟨lines, hlines⟩ := exists_spacedLines_cons b rest
    have hnext := ih hrest
    rw [hgroups, List.map_cons] at hnext
    have hblank : "\n\n".intercalate ((grouped (a :: b :: rest)).map importLines) =
        importLine a ++ "\n\n" ++ "\n".intercalate (spacedLines (b :: rest)) := by
      rw [grouped_cons_cons h, if_neg (mt groupKey_eq_iff.1 hne), hgroups, List.map_cons, List.map_cons,
        String.intercalate_cons_cons, hnext]
      rfl
    have hbreaks : "\n\n" = "\n" ++ ("" ++ "\n") := by decide
    rw [hblank, spacedLines, if_neg hne, hlines, String.intercalate_cons_cons, String.intercalate_cons_cons,
      hbreaks]
    simp only [String.append_assoc]

theorem toList_importLine (name : String) : (importLine name).toList = "import ".toList ++ name.toList :=
  String.toList_append

/-- Only the lines of imports are not blank. -/
theorem filter_spacedLines (names : List String) :
    ((spacedLines names).map String.toList).filter (fun line => !line.isEmpty) =
      (names.map importLine).map String.toList := by
  have hline (name : String) (lines : List (List Char)) :
      ((importLine name).toList :: lines).filter (fun line => !line.isEmpty) =
        (importLine name).toList :: lines.filter fun line => !line.isEmpty := by
    rw [toList_importLine]
    rfl
  induction names using spacedLines.induct with
  | case1 => rfl
  | case2 name => exact hline name []
  | case3 a b rest heq ih =>
    rw [spacedLines, if_pos heq, List.map_cons, hline, ih]
    rfl
  | case4 a b rest hne ih =>
    have hblank (lines : List (List Char)) : ("".toList :: lines).filter (fun line => !line.isEmpty) =
        lines.filter fun line => !line.isEmpty := rfl
    rw [spacedLines, if_neg hne, List.map_cons, List.map_cons, hline, hblank, ih]
    rfl

theorem lineFeed_not_mem_spacedLines (h : ∀ name ∈ names, IsDotted name) :
    ∀ line ∈ spacedLines names, '\n' ∉ line.toList := by
  have hline {name : String} (hname : IsDotted name) : '\n' ∉ (importLine name).toList := by
    rw [toList_importLine, List.mem_append, not_or]
    exact ⟨by decide, fun hmem => absurd (hname _ hmem) (by decide)⟩
  induction names using spacedLines.induct with
  | case1 => nofun
  | case2 name => exact List.forall_mem_singleton.2 (hline (h name List.mem_cons_self))
  | case3 a b rest heq ih =>
    obtain ⟨ha, hrest⟩ := List.forall_mem_cons.1 h
    rw [spacedLines, if_pos heq]
    exact List.forall_mem_cons.2 ⟨hline ha, ih hrest⟩
  | case4 a b rest hne ih =>
    obtain ⟨ha, hrest⟩ := List.forall_mem_cons.1 h
    rw [spacedLines, if_neg hne]
    exact List.forall_mem_cons.2 ⟨hline ha, List.forall_mem_cons.2 ⟨by decide, ih hrest⟩⟩

theorem withoutBlankLines_spacedLines (h : ∀ name ∈ names, IsDotted name) :
    withoutBlankLines ("\n".intercalate (spacedLines names)) = importLines names := by
  cases names with
  | nil => decide
  | cons a rest =>
    obtain ⟨lines, hlines⟩ := exists_spacedLines_cons a rest
    have hne : spacedLines (a :: rest) ≠ [] := by
      rw [hlines]
      exact List.cons_ne_nil _ _
    have htexts (texts : List String) : (texts.map String.toList).map String.ofList = texts := by
      rw [List.map_map]
      exact (List.map_congr_left fun s _ => String.ofList_toList).trans (List.map_id _)
    rw [withoutBlankLines, linesOf_intercalate (lineFeed_not_mem_spacedLines h) hne, filter_spacedLines,
      htexts]
    rfl

end

/-- Imports are written in order and each of them once. In groups they are the same lines, with one blank line
between two that differ in their first three segments. -/
theorem formatImports_grouped (names : List String) (h : ∀ name ∈ names, IsDotted name) :
    ∃ sorted : List String, sorted.Pairwise (· < ·) ∧ (∀ name, name ∈ sorted ↔ name ∈ names) ∧
      formatImports names false = "\n".intercalate (sorted.map importLine) ∧
      formatImports names true = "\n".intercalate (spacedLines sorted) ∧
      withoutBlankLines (formatImports names true) = formatImports names false := by
  have hsorted := pairwise_sortedSet names
  have hdotted : ∀ name ∈ sortedSet names, IsDotted name := fun name hname => h name (mem_sortedSet.1 hname)
  have hkeys : (sortedSet names).Pairwise fun a b => groupKey a ≤ groupKey b :=
    hsorted.imp_of_mem fun ha hb hab => groupKey_le (hdotted _ ha) (hdotted _ hb) hab
  have hlines : formatImports names true = "\n".intercalate (spacedLines (sortedSet names)) :=
    intercalate_grouped hkeys
  refine ⟨sortedSet names, hsorted, fun name => mem_sortedSet, rfl, hlines, ?_⟩
  rw [hlines, withoutBlankLines_spacedLines hdotted]
  rfl

/-- Names that others begin with, and one that differs from them only in its third segment. -/
def nestedNames : List String :=
  ["a.b.c_1", "a.b.c.d", "a.b", "a.b.c", "a.b.c.d.e"]

theorem formatImports_grouped_nested :
    (∀ name ∈ nestedNames, IsDotted name) ∧
      withoutBlankLines (formatImports nestedNames true) = formatImports nestedNames false := by
  have h : ∀ name ∈ nestedNames, IsDotted name := by decide
  obtain ⟨sorted, -, -, -, -, hlines⟩ := formatImports_grouped nestedNames h
  exact ⟨h, hlines⟩

end VectorIcon.Kotlin
