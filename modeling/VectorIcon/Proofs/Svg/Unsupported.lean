import Mathlib.Data.List.Induction
import Mathlib.Data.List.Nodup
import VectorIcon.Proofs.Fallible
import VectorIcon.Proofs.Svg.Leniency

/-!
# Elements that cannot be drawn

The log of a document begins with its tags that cannot be drawn, each once and in the order in which the
document first has them, wherever they stand; no later warning is about such a tag, and none is told twice
(`unsupported_told_first`). What the walk leaves out for its tag is among them.

1. A log is free of repetitions, and only grows (`nodup_ofReports`, `ofReports_append`).
2. The first tags of a list, and the log of them, grow in step with the list (`exists_firstMet`).
3. No reader but the survey of tags tells such a tag. This is kept by what readers are made of, so it is
   shown for one reader after the other (`withholds_define`, `withholds_walkAll`).
-/

namespace VectorIcon.Svg

open Markup Icon

/-- The warning is about an element that cannot be drawn. -/
def isUnsupported : Warning → Bool
  | .unsupportedElement .. => true
  | _ => false

/-- The warning about a tag with its family. -/
def unsupportedWarning (tag : String × Category) : Warning :=
  .unsupportedElement tag.2 tag.1

/-- The tags of a list that cannot be drawn, with their families, in the order in which the list first has
them. -/
structure FirstMet (names : List String) (found : List (String × Category)) : Prop where
  mem_iff : ∀ tag category,
    (tag, category) ∈ found ↔ tag ∈ names ∧ Category.ofTag? tag = some category
  ordered : found.Pairwise fun a b => names.idxOf a.1 < names.idxOf b.1

/-! ## Logs -/

theorem nodup_report {log : Warning.Log} (h : log.Nodup) (w : Warning) : (log.report w).Nodup := by
  unfold Warning.Log.report
  by_cases hw : w ∈ log
  · rwa [if_pos (List.contains_iff_mem.2 hw)]
  · rw [if_neg (mt List.contains_iff_mem.1 hw)]
    rw [← List.concat_eq_append]
    exact h.concat hw

theorem nodup_ofReports (reports : List Warning) : (Warning.Log.ofReports reports).Nodup := by
  have hfold (log : Warning.Log) (h : log.Nodup) : (reports.foldl Warning.Log.report log).Nodup := by
    induction reports generalizing log with
    | nil => exact h
    | cons w reports ih => exact ih _ (nodup_report h w)
  exact hfold [] List.nodup_nil

/-- Later reports come after the log of the earlier ones. -/
theorem ofReports_append (first later : List Warning) :
    ∃ others, Warning.Log.ofReports (first ++ later) = Warning.Log.ofReports first ++ others ∧
      others ⊆ later := by
  have hfold (log : Warning.Log) :
      ∃ others, later.foldl Warning.Log.report log = log ++ others ∧ others ⊆ later := by
    induction later generalizing log with
    | nil => exact ⟨[], (List.append_nil log).symm, List.Subset.refl _⟩
    | cons w later ih =>
      obtain ⟨others, hothers, hsub⟩ := ih (log.report w)
      rw [List.foldl_cons, hothers]
      unfold Warning.Log.report
      split
      · exact ⟨others, rfl, List.Subset.trans hsub (List.subset_cons_self ..)⟩
      · exact ⟨w :: others, List.append_assoc .., List.cons_subset_cons w hsub⟩
  unfold Warning.Log.ofReports
  rw [List.foldl_append]
  exact hfold _

/-! ## The survey of tags -/

namespace FirstMet

variable {names : List String} {found : List (String × Category)} {name : String}

theorem mem_names (h : FirstMet names found) {tag : String × Category} (htag : tag ∈ found) :
    tag.1 ∈ names :=
  ((h.mem_iff _ _).1 htag).1

theorem ordered_concat (h : FirstMet names found) :
    found.Pairwise fun a b => (names ++ [name]).idxOf a.1 < (names ++ [name]).idxOf b.1 := by
  refine h.ordered.imp_of_mem fun ha hb hlt => ?_
  rwa [List.idxOf_append_of_mem (h.mem_names ha), List.idxOf_append_of_mem (h.mem_names hb)]

/-- A tag that can be drawn, or that was met before, changes nothing. -/
theorem concat_known (h : FirstMet names found)
    (hknown : ∀ category, Category.ofTag? name = some category → (name, category) ∈ found) :
    FirstMet (names ++ [name]) found := by
  refine ⟨fun tag category => ?_, h.ordered_concat⟩
  rw [h.mem_iff, List.mem_append, List.mem_singleton]
  refine ⟨fun ⟨hmem, hcategory⟩ => ⟨Or.inl hmem, hcategory⟩, ?_⟩
  rintro ⟨hmem | rfl, hcategory⟩
  · exact ⟨hmem, hcategory⟩
  · exact (h.mem_iff _ _).1 (hknown category hcategory)

/-- A tag that is met for the first time comes last. -/
theorem concat_new (h : FirstMet names found) {category : Category}
    (hcategory : Category.ofTag? name = some category) (hnew : (name, category) ∉ found) :
    FirstMet (names ++ [name]) (found ++ [(name, category)]) := by
  have hname : name ∉ names := fun hmem => hnew ((h.mem_iff _ _).2 ⟨hmem, hcategory⟩)
  refine ⟨fun tag c => ?_, List.pairwise_append.2 ⟨h.ordered_concat, List.pairwise_singleton _ _, ?_⟩⟩
  · rw [List.mem_append, List.mem_singleton, h.mem_iff, List.mem_append, List.mem_singleton]
    constructor
    · rintro (⟨hmem, hc⟩ | heq)
      · exact ⟨Or.inl hmem, hc⟩
      · obtain ⟨rfl, rfl⟩ := Prod.mk.inj heq
        exact ⟨Or.inr rfl, hcategory⟩
    · rintro ⟨hmem | rfl, hc⟩
      · exact Or.inl ⟨hmem, hc⟩
      · rw [hcategory] at hc
        exact Or.inr (congrArg _ (Option.some.inj hc).symm)
  · intro a ha b hb
    rw [List.mem_singleton.1 hb, List.idxOf_append_of_mem (h.mem_names ha),
      List.idxOf_append_of_notMem hname]
    exact Nat.lt_add_right _ (List.idxOf_lt_length_iff.2 (h.mem_names ha))

end FirstMet

/-- The warning about a tag, if it cannot be drawn. -/
def tagWarning? (tag : String) : Option Warning :=
  (Category.ofTag? tag).map fun category => unsupportedWarning (tag, category)

theorem unsupportedWarning_injective : Function.Injective unsupportedWarning := by
  rintro ⟨tag, category⟩ ⟨tag', category'⟩ heq
  obtain ⟨rfl, rfl⟩ := Warning.unsupportedElement.inj heq
  rfl

/-- The log of the tags of a list holds those that cannot be drawn as the list first has them. -/
theorem exists_firstMet (names : List String) :
    ∃ found, FirstMet names found ∧
      Warning.Log.ofReports (names.filterMap tagWarning?) = found.map unsupportedWarning := by
  induction names using List.reverseRecOn with
  | nil => exact ⟨[], ⟨fun tag category => by simp, List.Pairwise.nil⟩, rfl⟩
  | append_singleton names name ih =>
    obtain ⟨found, hfound, hlog⟩ := ih
    cases hcategory : Category.ofTag? name with
    | none =>
      have hnone : tagWarning? name = none := by rw [tagWarning?, hcategory]; rfl
      refine ⟨found, hfound.concat_known (by rw [hcategory]; nofun), ?_⟩
      rwa [List.filterMap_append, List.filterMap_cons, hnone, List.filterMap_nil, List.append_nil]
    | some category =>
      have hsome : tagWarning? name = some (unsupportedWarning (name, category)) := by
        rw [tagWarning?, hcategory]
        rfl
      have hreport : Warning.Log.ofReports ((names ++ [name]).filterMap tagWarning?) =
          Warning.Log.report (found.map unsupportedWarning) (unsupportedWarning (name, category)) := by
        rw [← hlog, Warning.Log.ofReports, List.filterMap_append, List.filterMap_cons, hsome,
          List.foldl_append]
        rfl
      have hmem : (found.map unsupportedWarning).contains (unsupportedWarning (name, category)) = true ↔
          (name, category) ∈ found := by
        rw [List.contains_iff_mem, List.mem_map_of_injective unsupportedWarning_injective]
      rw [hreport, Warning.Log.report]
      by_cases hknown : (name, category) ∈ found
      · refine ⟨found, hfound.concat_known fun c hc => ?_, if_pos (hmem.2 hknown)⟩
        rw [hcategory] at hc
        rwa [← Option.some.inj hc]
      · refine ⟨found ++ [(name, category)], hfound.concat_new hcategory hknown, ?_⟩
        rw [if_neg (mt hmem.1 hknown), List.map_append]
        rfl

/-! ## Readers that tell no tags -/

/-- Nothing is told about elements that cannot be drawn. -/
def Withholds {α : Type} (x : Noted α) : Prop :=
  ∀ n ∈ x.notices, isUnsupported n.toWarning = false

namespace Withholds

variable {α β : Type}

theorem pure (a : α) : Withholds (Pure.pure a) :=
  List.forall_mem_nil _

theorem bind {x : Noted α} {f : α → Noted β} (h : Withholds x) (hf : ∀ a, Withholds (f a)) :
    Withholds (x >>= f) :=
  List.forall_mem_append.2 ⟨h, hf x.value⟩

theorem warn (value : α) {w : Warning} (h : isUnsupported w = false) : Withholds (Noted.warn value w) :=
  List.forall_mem_singleton.2 h

theorem fail (value : α) (error : Path.Error) : Withholds (Noted.fail value error) :=
  List.forall_mem_singleton.2 rfl

theorem foldlM {f : α → β → Noted α} (h : ∀ a b, Withholds (f a b)) (l : List β) (a : α) :
    Withholds (l.foldlM f a) := by
  induction l generalizing a with
  | nil => exact pure a
  | cons b l ih =>
    rw [List.foldlM_cons]
    exact bind (h a b) ih

theorem mapM {f : α → Noted β} (h : ∀ a, Withholds (f a)) (l : List α) : Withholds (l.mapM f) := by
  induction l with
  | nil => exact pure []
  | cons a l ih =>
    rw [List.mapM_cons]
    exact bind (h a) fun b => bind ih fun bs => pure (b :: bs)

end Withholds

section

variable (e : Element)

theorem withholds_pathCommands : Withholds (pathCommands e) := by
  unfold pathCommands
  split
  · exact .pure _
  · exact .fail _ _

theorem withholds_checkedShapeCommands : Withholds (checkedShapeCommands e) := by
  unfold checkedShapeCommands
  dsimp only
  split
  · exact .warn _ rfl
  · exact .pure _

theorem withholds_stopColor : Withholds (stopColor e) := by
  unfold stopColor
  split
  · exact .pure _
  · split
    · exact .pure _
    · split
      · exact .pure _
      · exact .pure _
      · exact .warn _ rfl

theorem withholds_readStop : Withholds (readStop e) := by
  unfold readStop
  refine .bind (withholds_stopColor e) fun color => ?_
  split <;> exact .pure _

theorem withholds_resolveStops (gradients : List (String × Element)) (steps : Nat) :
    Withholds (resolveStops gradients steps e) := by
  induction steps generalizing e with
  | zero => exact .pure []
  | succ steps ih =>
    refine .bind (.mapM withholds_readStop _) fun stops => ?_
    split
    · exact .pure stops
    · split
      · exact ih _
      · exact .pure []

end

mutual

theorem withholds_clipPart : ∀ e : Element, Withholds (clipPart e)
  | ⟨name, attributes, children⟩ => by
    rw [clipPart]
    cases Role.ofTag name with
    | path => exact withholds_pathCommands _
    | shape => exact withholds_checkedShapeCommands _
    | group => exact withholds_clipParts children
    | silent => exact .pure []
    | container => exact .pure []

theorem withholds_clipParts : ∀ es : List Element, Withholds (clipParts es)
  | [] => .pure []
  | e :: rest => by
    rw [clipParts]
    exact .bind (withholds_clipPart e) fun first =>
      .bind (withholds_clipParts rest) fun others => .pure (first ++ others)

end

theorem withholds_define (root : Element) : Withholds (define root) := by
  have hclips (d : Definitions) : Withholds (defineClips root d) := by
    refine .foldlM (fun d e => ?_) _ d
    split
    · exact .bind (withholds_clipParts e.children) fun commands => .pure _
    · exact .pure d
  refine .bind (.foldlM (fun d entry => ?_) _ _) hclips
  exact .bind (withholds_resolveStops entry.2 _ chainLength) fun stops => .pure _

section

variable (d : Definitions) (e : Element)

theorem withholds_readPaint (value : String) : Withholds (readPaint d value) := by
  unfold readPaint
  split
  · split
    · exact .pure _
    · exact .warn _ rfl
  · split
    · exact .pure _
    · exact .warn none rfl

theorem withholds_styled (commands : List (Path.Command Float)) : Withholds (styled d e commands) := by
  unfold styled
  cases property? e "fill" with
  | none =>
    refine .bind (.pure _) fun _ => ?_
    cases property? e "stroke" with
    | none => exact .pure _
    | some stroke => exact .bind (withholds_readPaint d stroke) fun _ => .pure _
  | some fill =>
    refine .bind (withholds_readPaint d fill) fun _ => ?_
    cases property? e "stroke" with
    | none => exact .pure _
    | some stroke => exact .bind (withholds_readPaint d stroke) fun _ => .pure _

theorem withholds_placement (name : String) : Withholds (placement d e name) := by
  have hparams : Withholds (transformParams e) := by
    unfold transformParams
    split
    · intro n hn
      obtain ⟨text, -, rfl⟩ := List.mem_map.1 hn
      rfl
    · exact .pure _
  have hclip : Withholds (clipOf d e) := by
    unfold clipOf
    split
    · split
      · exact .pure _
      · exact .warn none rfl
    · exact .pure none
  exact .bind hparams fun _ => .bind hclip fun _ => .pure _

theorem withholds_leaf (commands : List (Path.Command Float)) : Withholds (leaf d e commands) := by
  unfold leaf
  split
  · exact .pure []
  · refine .bind (withholds_styled d e commands) fun outline => ?_
    refine .bind (withholds_placement d e "group") fun ⟨placement, isNothing⟩ => ?_
    dsimp only
    split <;> exact .pure _

theorem withholds_grouped (children : List Node) : Withholds (grouped d e children) := by
  unfold grouped
  split
  · exact .pure []
  · refine .bind (withholds_placement d e _) fun ⟨placement, isNothing⟩ => ?_
    dsimp only
    split <;> exact .pure _

end

mutual

theorem withholds_walk (d : Definitions) : ∀ e : Element, Withholds (walk d e)
  | ⟨name, attributes, children⟩ => by
    let e : Element := ⟨name, attributes, children⟩
    have hchildren := withholds_walkAll d children
    show Withholds (walk d e)
    rw [walk_eq]
    split
    · exact .pure []
    · cases Role.ofTag e.name with
      | path => exact .bind (withholds_pathCommands e) (withholds_leaf d e)
      | shape => exact .bind (withholds_checkedShapeCommands e) (withholds_leaf d e)
      | group => exact .bind hchildren (withholds_grouped d e)
      | silent => exact .pure []
      | container => exact hchildren

/-- The walk over elements tells nothing about those that it leaves out. -/
theorem withholds_walkAll (d : Definitions) : ∀ es : List Element, Withholds (walkAll d es)
  | [] => .pure []
  | e :: rest => by
    rw [walkAll]
    exact .bind (withholds_walk d e) fun first =>
      .bind (withholds_walkAll d rest) fun others => .pure (first ++ others)

end

/-- What no other rule is about is walked through, or left out for its tag. -/
theorem walk_cases {e : Element} (hvisible : isHidden e = false) (hdraw : isDrawable e = false)
    (hgroup : e.name ≠ "g") (hsilent : silentTags.contains e.name = false) (d : Definitions) :
    (Category.ofTag? e.name = none ∧ walk d e = walkAll d e.children) ∨
      ∃ category, Category.ofTag? e.name = some category ∧ walk d e = pure [] := by
  have hbarred : isBarred e = (Category.ofTag? e.name).isSome := by
    rw [isBarred, hvisible, hsilent, Bool.false_or, Bool.or_false]
  have hwalk : walk d e = _ := walk_eq d e
  rw [if_neg (by rw [hvisible]; exact Bool.false_ne_true)] at hwalk
  rcases role_cases hvisible with ⟨-, hpath, -⟩ | ⟨-, hshape, -⟩ | ⟨-, -, -, hname⟩ |
    ⟨hrole, hsome⟩ | ⟨hrole, -, hnone, -⟩
  · exact absurd hpath (by rw [hdraw]; exact Bool.false_ne_true)
  · exact absurd hshape (by rw [hdraw]; exact Bool.false_ne_true)
  · exact absurd hname hgroup
  · rw [hbarred, Option.isSome_iff_exists] at hsome
    obtain ⟨category, hcategory⟩ := hsome
    rw [hrole] at hwalk
    exact Or.inr ⟨category, hcategory, hwalk⟩
  · rw [hbarred, Option.isSome_eq_false_iff, Option.isNone_iff_eq_none] at hnone
    rw [hrole] at hwalk
    exact Or.inl ⟨hnone, hwalk⟩

/-! ## Documents -/

theorem eq_drawingOf_of_read {mode : Mode} {root : Element} {drawing : Drawing}
    (h : read mode root = .ok drawing) : drawing = drawingOf root := by
  rw [read_eq] at h
  split at h
  · cases h
  · split at h
    · cases h
    · cases h
      rfl

/-- The tags that cannot be drawn are reported before all that the readers have to tell. -/
theorem exists_reports (root : Element) :
    ∃ later, (survey root).notices.map Notice.toWarning =
        (root.descendants.map Element.name).filterMap tagWarning? ++ later ∧
      ∀ w ∈ later, isUnsupported w = false := by
  have hwithheld : Withholds (define root >>= fun d => walkAll d root.children) :=
    .bind (withholds_define root) fun d => withholds_walkAll d root.children
  refine ⟨_, ?_, List.forall_mem_map.2 hwithheld⟩
  have htags : (unsupported root).map Notice.toWarning =
      (root.descendants.map Element.name).filterMap tagWarning? := by
    rw [unsupported, List.map_filterMap, List.filterMap_map]
    congr 1
    funext e
    rw [Option.map_map]
    rfl
  rw [← htags, ← List.map_append]
  show List.map Notice.toWarning (unsupported root ++ ((define root).notices ++
    ((walkAll (define root).value root.children).notices ++ []))) = _
  rw [List.append_nil]
  rfl

/-- The log of a document that is read begins with the tags in it that cannot be drawn, with their families
and in the order in which they are first met anywhere in the document. No other warning is about such a tag,
and no warning is there twice. An element that is not hidden, draws nothing itself, and is neither a group
nor one that only defines or describes something is walked through, or its tag is among them. -/
theorem unsupported_told_first {mode : Mode} {text : String} {drawing : Drawing}
    (h : parse mode text = .ok drawing) :
    ∃ root, Markup.parse text = .ok root ∧
      (∃ found others, FirstMet (root.descendants.map Element.name) found ∧
        drawing.warnings = found.map unsupportedWarning ++ others ∧
        ∀ w ∈ others, isUnsupported w = false) ∧
      drawing.warnings.Nodup ∧
      ∀ e ∈ root.descendants, isHidden e = false → isDrawable e = false → e.name ≠ "g" →
        silentTags.contains e.name = false → ∀ d,
          (Category.ofTag? e.name = none ∧ walk d e = walkAll d e.children) ∨
            ∃ category, walk d e = pure [] ∧ .unsupportedElement category e.name ∈ drawing.warnings := by
  obtain ⟨root, hroot, hread⟩ := exists_root_of_parse h
  obtain ⟨found, hfound, hlog⟩ := exists_firstMet (root.descendants.map Element.name)
  obtain ⟨later, hreports, hlater⟩ := exists_reports root
  obtain ⟨others, hothers, hsub⟩ :=
    ofReports_append ((root.descendants.map Element.name).filterMap tagWarning?) later
  have hwarnings : drawing.warnings = found.map unsupportedWarning ++ others := by
    rw [eq_drawingOf_of_read hread, drawingOf, hreports, hothers, hlog]
  refine ⟨root, hroot, ⟨found, others, hfound, hwarnings, fun w hw => hlater w (hsub hw)⟩, ?_, ?_⟩
  · rw [eq_drawingOf_of_read hread]
    exact nodup_ofReports _
  · intro e he hvisible hdraw hgroup hsilent d
    refine (walk_cases hvisible hdraw hgroup hsilent d).imp_right ?_
    rintro ⟨category, hcategory, hwalk⟩
    have hmem : (e.name, category) ∈ found :=
      (hfound.mem_iff _ _).2 ⟨List.mem_map_of_mem he, hcategory⟩
    rw [hwarnings]
    exact ⟨category, hwalk, List.mem_append_left _ (List.mem_map_of_mem hmem)⟩

/-- A drawing with a text in its definitions and in a hidden group, and with a text in an image. -/
def wordyText : String :=
  "<svg><rect/><defs><text/></defs><g display=\"none\"><text/><image/></g><a><image><tspan/></image></a></svg>"

theorem unsupported_told_first_wordyText :
    ∃ drawing root found others, parse .strict wordyText = .ok drawing ∧
      Markup.parse wordyText = .ok root ∧ FirstMet (root.descendants.map Element.name) found ∧
      drawing.warnings = found.map unsupportedWarning ++ others ∧ drawing.warnings.Nodup ∧
      drawing.warnings = [.unsupportedElement .text "text", .unsupportedElement .embedded "image",
        .unsupportedElement .text "tspan", .invalidGeometry "rect"] := by
  have hlog : (parse .strict wordyText).toOption.map Drawing.warnings =
      some [.unsupportedElement .text "text", .unsupportedElement .embedded "image",
        .unsupportedElement .text "tspan", .invalidGeometry "rect"] := by decide +kernel
  obtain ⟨drawing, hparse, hlog⟩ := exists_of_toOption_map hlog
  obtain ⟨root, hroot, ⟨found, others, hfound, hwarnings, -⟩, hnodup, -⟩ := unsupported_told_first hparse
  exact ⟨drawing, root, found, others, hparse, hroot, hfound, hwarnings, hnodup, hlog⟩

end VectorIcon.Svg
