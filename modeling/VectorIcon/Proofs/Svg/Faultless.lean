import VectorIcon.Proofs.Svg.DocumentOrder

/-!
# Documents without faults

`withoutFaults` empties all path data with a fault. A document and the one without faults are read in
step: each reader gives the same value for both, and notes the same but for the faults (`Cleans`). The
relation is kept by what readers are made of, so it is shown for one reader after the other, up to the
survey of a whole document (`cleans_survey`).
-/

namespace VectorIcon.Svg

open Markup Icon

/-- Path data, emptied when it has a fault. -/
def cleanData (data : String) : String :=
  if (Path.parse data).toOption.isNone then "" else data

/-- An attribute, emptied when it is path data with a fault. -/
def cleanAttribute (a : Attribute) : Attribute :=
  if a.space.isNone && a.name == "d" then { a with value := cleanData a.value } else a

mutual

/-- An element in which all path data with a fault is empty. -/
def withoutFaults : Element → Element
  | ⟨name, attributes, children⟩ =>
    ⟨name, attributes.map cleanAttribute, withoutFaultsOf children⟩

/-- Elements in which all path data with a fault is empty. -/
def withoutFaultsOf : List Element → List Element
  | [] => []
  | e :: rest => withoutFaults e :: withoutFaultsOf rest

end

/-! ## Elements -/

theorem withoutFaultsOf_eq_map (es : List Element) : withoutFaultsOf es = es.map withoutFaults := by
  induction es with
  | nil => rfl
  | cons e rest ih => rw [withoutFaultsOf, ih, List.map_cons]

section

variable (e : Element)

@[simp]
theorem name_withoutFaults : (withoutFaults e).name = e.name := by
  cases e
  rfl

@[simp]
theorem children_withoutFaults : (withoutFaults e).children = e.children.map withoutFaults := by
  cases e
  exact withoutFaultsOf_eq_map _

@[simp]
theorem attributes_withoutFaults :
    (withoutFaults e).attributes = e.attributes.map cleanAttribute := by
  cases e
  rfl

end

mutual

theorem descendants_withoutFaults :
    ∀ e : Element, (withoutFaults e).descendants = e.descendants.map withoutFaults
  | ⟨name, attributes, children⟩ => by
    rw [withoutFaults, Element.descendants, Element.descendants, List.map_cons, withoutFaults,
      descendantsOf_withoutFaultsOf children]

theorem descendantsOf_withoutFaultsOf : ∀ es : List Element,
    Element.descendantsOf (withoutFaultsOf es) = (Element.descendantsOf es).map withoutFaults
  | [] => rfl
  | e :: rest => by
    rw [withoutFaultsOf, Element.descendantsOf, Element.descendantsOf, List.map_append,
      descendants_withoutFaults e, descendantsOf_withoutFaultsOf rest]

end

/-! ## Attributes -/

@[simp]
theorem space_cleanAttribute (a : Attribute) : (cleanAttribute a).space = a.space := by
  unfold cleanAttribute
  split <;> rfl

@[simp]
theorem name_cleanAttribute (a : Attribute) : (cleanAttribute a).name = a.name := by
  unfold cleanAttribute
  split <;> rfl

theorem value_cleanAttribute_of_ne {a : Attribute} (h : a.name ≠ "d") :
    (cleanAttribute a).value = a.value := by
  simp [cleanAttribute, h]

theorem value_cleanAttribute_of_space {a : Attribute} (h : a.space ≠ none) :
    (cleanAttribute a).value = a.value := by
  simp [cleanAttribute, h]

/-- Path data that is left out is no fault. -/
theorem parse_cleanData (data : String) :
    Path.parse (cleanData data) = .ok ((Path.parse data).toOption.getD []) := by
  have hempty : Path.parse "" = .ok [] := by
    simp [Path.parse, Path.readFrom, Path.skipSeparators]
  unfold cleanData
  cases hparse : Path.parse data with
  | ok commands => exact hparse
  | error error => exact hempty

section

variable (e : Element)

theorem find?_attributes_withoutFaults (p : Option String → String → Bool) :
    ((withoutFaults e).attributes.find? fun a => p a.space a.name) =
      (e.attributes.find? fun a => p a.space a.name).map cleanAttribute := by
  have hsame : (fun a => p a.space a.name) ∘ cleanAttribute = fun a => p a.space a.name := by
    funext a
    rw [Function.comp_apply, space_cleanAttribute, name_cleanAttribute]
  rw [attributes_withoutFaults, List.find?_map, hsame]

/-- Nothing but path data is emptied. -/
@[simp]
theorem attribute?_withoutFaults {name : String} (h : name ≠ "d") :
    (withoutFaults e).attribute? name = e.attribute? name := by
  rw [Element.attribute?, Element.attribute?,
    find?_attributes_withoutFaults e fun space n => space.isNone && n == name, Option.map_map]
  refine Option.map_congr fun a ha => value_cleanAttribute_of_ne ?_
  have hfound := List.find?_some ha
  rw [Bool.and_eq_true, beq_iff_eq] at hfound
  rwa [hfound.2]

@[simp]
theorem attributeIn?_withoutFaults (space name : String) :
    (withoutFaults e).attributeIn? space name = e.attributeIn? space name := by
  rw [Element.attributeIn?, Element.attributeIn?,
    find?_attributes_withoutFaults e fun s n => s == some space && n == name, Option.map_map]
  refine Option.map_congr fun a ha => value_cleanAttribute_of_space ?_
  have hfound := List.find?_some ha
  rw [Bool.and_eq_true, beq_iff_eq] at hfound
  rw [hfound.1]
  exact nofun

theorem attribute?_d_withoutFaults :
    (withoutFaults e).attribute? "d" = (e.attribute? "d").map cleanData := by
  rw [Element.attribute?, Element.attribute?,
    find?_attributes_withoutFaults e fun space n => space.isNone && n == "d", Option.map_map,
    Option.map_map]
  refine Option.map_congr fun a ha => ?_
  simp [cleanAttribute, List.find?_some ha]

@[simp]
theorem property?_withoutFaults {property : String} (h : property ≠ "d") :
    property? (withoutFaults e) property = property? e property := by
  have hstyle : "style" ≠ "d" := by decide
  simp [property?, declared?, h, hstyle]

@[simp]
theorem id?_withoutFaults : id? (withoutFaults e) = id? e := by
  simp [id?]

@[simp]
theorem isHidden_withoutFaults : isHidden (withoutFaults e) = isHidden e := by
  simp [isHidden]

theorem shapeCommands_withoutFaults : shapeCommands (withoutFaults e) = shapeCommands e := by
  simp [shapeCommands]

end

/-! ## Readings in step -/

instance : LawfulMonad Noted := by
  refine LawfulMonad.mk' Noted (fun x => ?_) (fun _ _ => rfl) fun x f g => ?_
  · exact congrArg (Noted.mk x.value) (List.append_nil x.notices)
  · exact congrArg (Noted.mk _) (List.append_assoc ..)

/-- The notice is no fault. -/
def Notice.isWarning : Notice → Bool
  | .warning _ => true
  | .fault _ => false

/-- The message of a warning about a path that was dropped. -/
def droppedMessage? : Warning → Option String
  | .droppedPath message => some message
  | _ => none

/-- No reader warns that a path was dropped; what it notes is a fault. -/
def Notice.isOwn : Notice → Bool
  | .warning w => (droppedMessage? w).isNone
  | .fault _ => true

/-- The second reading has the value of the first, and its notices but for the faults. -/
structure Cleans {α : Type} (x y : Noted α) : Prop where
  value : y.value = x.value
  notices : y.notices = x.notices.filter Notice.isWarning
  own : ∀ n ∈ x.notices, n.isOwn = true

namespace Cleans

variable {α β : Type}

theorem pure (a : α) : Cleans (pure a : Noted α) (Pure.pure a) :=
  ⟨rfl, rfl, nofun⟩

theorem bind {x y : Noted α} {f g : α → Noted β} (h : Cleans x y)
    (hf : ∀ a, Cleans (f a) (g a)) : Cleans (x >>= f) (y >>= g) := by
  have hvalue := hf x.value
  constructor
  · rw [Noted.value_bind, Noted.value_bind, h.value, hvalue.value]
  · rw [Noted.notices_bind, Noted.notices_bind, h.value, h.notices, hvalue.notices,
      List.filter_append]
  · rw [Noted.notices_bind]
    exact List.forall_mem_append.2 ⟨h.own, hvalue.own⟩

/-- Notices that are warnings of the reader itself stay. -/
theorem of_warnings {value : α} {notices : List Notice}
    (h : ∀ n ∈ notices, n.isWarning = true ∧ n.isOwn = true) :
    Cleans (⟨value, notices⟩ : Noted α) ⟨value, notices⟩ :=
  ⟨rfl, (List.filter_eq_self.2 fun n hn => (h n hn).1).symm, fun n hn => (h n hn).2⟩

theorem warn (value : α) {w : Warning} (h : droppedMessage? w = none) :
    Cleans (Noted.warn value w) (Noted.warn value w) := by
  refine of_warnings fun n hn => ?_
  rw [List.mem_singleton.1 hn]
  exact ⟨rfl, by rw [Notice.isOwn, h]; rfl⟩

theorem foldlM {t : β → β} {f g : α → β → Noted α} (h : ∀ a b, Cleans (f a b) (g a (t b)))
    (l : List β) (a : α) : Cleans (l.foldlM f a) ((l.map t).foldlM g a) := by
  induction l generalizing a with
  | nil => exact pure a
  | cons b l ih =>
    rw [List.map_cons, List.foldlM_cons, List.foldlM_cons]
    exact bind (h a b) ih

theorem mapM {γ : Type} {t : β → γ} {f : β → Noted α} {g : γ → Noted α}
    (h : ∀ b, Cleans (f b) (g (t b))) (l : List β) : Cleans (l.mapM f) ((l.map t).mapM g) := by
  induction l with
  | nil => exact pure []
  | cons b l ih =>
    rw [List.map_cons, List.mapM_cons, List.mapM_cons]
    exact bind (h b) fun a => bind ih fun as => pure (a :: as)

end Cleans

/-! ## Drawables -/

section

variable (e : Element)

/-- Path data with a fault has no commands, and neither has empty data. -/
theorem cleans_pathCommands : Cleans (pathCommands e) (pathCommands (withoutFaults e)) := by
  have hempty : cleanData "" = "" := by
    unfold cleanData
    split <;> rfl
  have hdata : ((withoutFaults e).attribute? "d").getD "" =
      cleanData ((e.attribute? "d").getD "") := by
    rw [attribute?_d_withoutFaults]
    cases e.attribute? "d" with
    | none => exact hempty.symm
    | some data => rfl
  rw [pathCommands, pathCommands, hdata, parse_cleanData]
  cases Path.parse ((e.attribute? "d").getD "") with
  | ok commands => exact .pure commands
  | error error => exact ⟨rfl, rfl, fun n hn => by rw [List.mem_singleton.1 hn]; rfl⟩

theorem cleans_checkedShapeCommands :
    Cleans (checkedShapeCommands e) (checkedShapeCommands (withoutFaults e)) := by
  rw [checkedShapeCommands, checkedShapeCommands, shapeCommands_withoutFaults, name_withoutFaults]
  by_cases h : (shapeCommands e).isEmpty = true
  · simp only [if_pos h]
    exact .warn [] rfl
  · simp only [if_neg h]
    exact .pure _

end

/-! ## Gradients -/

section

variable (e : Element)

theorem cleans_stopColor : Cleans (stopColor e) (stopColor (withoutFaults e)) := by
  have hproperty : property? (withoutFaults e) "stop-color" = property? e "stop-color" := by simp
  rw [stopColor, stopColor, hproperty]
  cases property? e "stop-color" with
  | none => exact .pure _
  | some value =>
    by_cases href : (referencedId? value).isSome = true
    · simp only [if_pos href]
      exact .pure _
    · simp only [if_neg href]
      cases Color.parse value with
      | ok color => cases color <;> exact .pure _
      | error error => exact .warn _ rfl

theorem cleans_readStop : Cleans (readStop e) (readStop (withoutFaults e)) := by
  have hoffset : property? (withoutFaults e) "offset" = property? e "offset" := by simp
  have hopacity : property? (withoutFaults e) "stop-opacity" = property? e "stop-opacity" := by simp
  rw [readStop, readStop, hoffset, hopacity]
  refine .bind (cleans_stopColor e) fun color => ?_
  cases (property? e "stop-opacity").bind readOpacity? with
  | none => exact .pure _
  | some opacity => exact .pure _

theorem cleans_ownStops : Cleans (ownStops e) (ownStops (withoutFaults e)) := by
  have hstops : (withoutFaults e).children.filter (fun child => child.name == "stop") =
      (e.children.filter fun child => child.name == "stop").map withoutFaults := by
    simp [List.filter_map, Function.comp_def]
  rw [ownStops, ownStops, hstops]
  exact .mapM cleans_readStop _

@[simp]
theorem gradientReference?_withoutFaults :
    gradientReference? (withoutFaults e) = gradientReference? e := by
  simp [gradientReference?]

@[simp]
theorem gradientCoordinate_withoutFaults {name : String} (h : name ≠ "d") (default : Float) :
    gradientCoordinate (withoutFaults e) name default = gradientCoordinate e name default := by
  simp [gradientCoordinate, h]

theorem gradientPaint_withoutFaults (stops : List Stop) :
    gradientPaint (withoutFaults e) stops = gradientPaint e stops := by
  simp [gradientPaint]

end

/-- A named element without its faults. -/
def withoutFaultsAt (entry : String × Element) : String × Element :=
  (entry.1, withoutFaults entry.2)

/-- What is found in a table whose entries are mapped under their names. -/
theorem lookup_map_snd {α β : Type} (f : α → β) (l : List (String × α)) (id : String) :
    (l.map fun entry => (entry.1, f entry.2)).lookup id = (l.lookup id).map f := by
  induction l with
  | nil => rfl
  | cons entry l ih =>
    obtain ⟨name, a⟩ := entry
    rw [List.map_cons, List.lookup_cons, List.lookup_cons]
    cases id == name with
    | true => rfl
    | false => exact ih

theorem cleans_resolveStops (gradients : List (String × Element)) (steps : Nat) (e : Element) :
    Cleans (resolveStops gradients steps e)
      (resolveStops (gradients.map withoutFaultsAt) steps (withoutFaults e)) := by
  induction steps generalizing e with
  | zero => exact .pure []
  | succ steps ih =>
    have hnext : ((gradientReference? (withoutFaults e)).bind fun id =>
          (gradients.map withoutFaultsAt).reverse.lookup id) =
        ((gradientReference? e).bind fun id => gradients.reverse.lookup id).map withoutFaults := by
      rw [gradientReference?_withoutFaults, ← List.map_reverse]
      cases gradientReference? e with
      | none => rfl
      | some id => exact lookup_map_snd withoutFaults gradients.reverse id
    rw [resolveStops, resolveStops, hnext]
    refine .bind (cleans_ownStops e) fun stops => ?_
    by_cases h : (!stops.isEmpty) = true
    · simp only [if_pos h]
      exact .pure stops
    · simp only [if_neg h]
      cases (gradientReference? e).bind fun id => gradients.reverse.lookup id with
      | none => exact .pure []
      | some next => exact ih next

theorem gradientElements_withoutFaults (root : Element) :
    gradientElements (withoutFaults root) = (gradientElements root).map withoutFaultsAt := by
  have hgradients : (withoutFaults root).descendants.filter isGradient =
      (root.descendants.filter isGradient).map withoutFaults := by
    have hsame : isGradient ∘ withoutFaults = isGradient := by
      funext e
      simp [isGradient]
    rw [descendants_withoutFaults, List.filter_map, hsame]
  rw [gradientElements, gradientElements, hgradients, List.filterMap_map, List.map_filterMap]
  congr 1
  funext e
  simp [Function.comp_def, withoutFaultsAt]

theorem cleans_defineGradients (root : Element) (d : Definitions) :
    Cleans (defineGradients root d) (defineGradients (withoutFaults root) d) := by
  rw [defineGradients, defineGradients, gradientElements_withoutFaults]
  refine .foldlM (fun d entry => ?_) _ d
  refine .bind (cleans_resolveStops _ chainLength entry.2) fun stops => ?_
  simp only [gradientPaint_withoutFaults]
  exact .pure _

/-! ## Clips -/

mutual

theorem cleans_clipPart : ∀ e : Element, Cleans (clipPart e) (clipPart (withoutFaults e))
  | ⟨name, attributes, children⟩ => by
    have hpath := cleans_pathCommands ⟨name, attributes, children⟩
    have hshape := cleans_checkedShapeCommands ⟨name, attributes, children⟩
    rw [withoutFaults] at hpath hshape ⊢
    rw [clipPart, clipPart]
    cases Role.ofTag name with
    | path => exact hpath
    | shape => exact hshape
    | group => exact cleans_clipParts children
    | silent => exact .pure []
    | container => exact .pure []

theorem cleans_clipParts : ∀ es : List Element, Cleans (clipParts es) (clipParts (withoutFaultsOf es))
  | [] => .pure []
  | e :: rest => by
    rw [withoutFaultsOf, clipParts, clipParts]
    exact .bind (cleans_clipPart e) fun first =>
      .bind (cleans_clipParts rest) fun others => .pure (first ++ others)

end

theorem cleans_defineClips (root : Element) (d : Definitions) :
    Cleans (defineClips root d) (defineClips (withoutFaults root) d) := by
  have hclips : ((withoutFaults root).descendants.filter fun e => e.name == "clipPath") =
      (root.descendants.filter fun e => e.name == "clipPath").map withoutFaults := by
    simp [descendants_withoutFaults, List.filter_map, Function.comp_def]
  rw [defineClips, defineClips, hclips]
  refine .foldlM (fun d e => ?_) _ d
  rw [id?_withoutFaults]
  cases id? e with
  | none => exact .pure d
  | some id =>
    rw [children_withoutFaults, ← withoutFaultsOf_eq_map]
    exact .bind (cleans_clipParts e.children) fun commands => .pure (d.addClip id commands)

/-! ## The walk -/

theorem cleans_readPaint (d : Definitions) (value : String) :
    Cleans (readPaint d value) (readPaint d value) := by
  unfold readPaint
  split
  · split
    · exact .pure _
    · exact .warn _ rfl
  · split
    · exact .pure _
    · exact .warn none rfl

section

variable (d : Definitions) (e : Element)

theorem cleans_styled (commands : List (Path.Command Float)) :
    Cleans (styled d e commands) (styled d (withoutFaults e) commands) := by
  unfold styled
  simp (disch := decide) only [property?_withoutFaults, id?_withoutFaults, name_withoutFaults]
  cases property? e "fill" with
  | none =>
    refine .bind (.pure _) fun _ => ?_
    cases property? e "stroke" with
    | none => exact .pure _
    | some stroke => exact .bind (cleans_readPaint d stroke) fun _ => .pure _
  | some fill =>
    refine .bind (cleans_readPaint d fill) fun _ => ?_
    cases property? e "stroke" with
    | none => exact .pure _
    | some stroke => exact .bind (cleans_readPaint d stroke) fun _ => .pure _

theorem cleans_transformParams :
    Cleans (transformParams e) (transformParams (withoutFaults e)) := by
  have hvalue : (withoutFaults e).attribute? "transform" = e.attribute? "transform" := by simp
  rw [transformParams, transformParams, hvalue]
  cases e.attribute? "transform" with
  | none => exact .pure _
  | some value =>
    refine .of_warnings fun n hn => ?_
    obtain ⟨text, -, rfl⟩ := List.mem_map.1 hn
    exact ⟨rfl, rfl⟩

theorem cleans_clipOf : Cleans (clipOf d e) (clipOf d (withoutFaults e)) := by
  have hvalue : property? (withoutFaults e) "clip-path" = property? e "clip-path" := by simp
  rw [clipOf, clipOf, hvalue]
  cases (property? e "clip-path").bind referencedId? with
  | none => exact .pure none
  | some id =>
    dsimp only
    cases d.clip? id with
    | some commands => exact .pure (some commands)
    | none => exact .warn none rfl

theorem cleans_placement (name : String) :
    Cleans (placement d e name) (placement d (withoutFaults e) name) :=
  .bind (cleans_transformParams e) fun _ => .bind (cleans_clipOf d e) fun _ => .pure _

theorem cleans_leaf (commands : List (Path.Command Float)) :
    Cleans (leaf d e commands) (leaf d (withoutFaults e) commands) := by
  unfold leaf
  by_cases h : commands.isEmpty = true
  · simp only [if_pos h]
    exact .pure []
  · simp only [if_neg h]
    refine .bind (cleans_styled d e commands) fun outline => ?_
    refine .bind (cleans_placement d e "group") fun placement => ?_
    split <;> exact .pure _

theorem cleans_grouped (children : List Node) :
    Cleans (grouped d e children) (grouped d (withoutFaults e) children) := by
  unfold grouped
  rw [id?_withoutFaults]
  by_cases h : children.isEmpty = true
  · simp only [if_pos h]
    exact .pure []
  · simp only [if_neg h]
    refine .bind (cleans_placement d e _) fun placement => ?_
    split <;> exact .pure _

end

mutual

/-- The walk over an element and the one without faults go in step. -/
theorem cleans_walk (d : Definitions) : ∀ e : Element, Cleans (walk d e) (walk d (withoutFaults e))
  | ⟨name, attributes, children⟩ => by
    let e : Element := ⟨name, attributes, children⟩
    have hpath := Cleans.bind (cleans_pathCommands e) (cleans_leaf d e)
    have hshape := Cleans.bind (cleans_checkedShapeCommands e) (cleans_leaf d e)
    have hchildren := cleans_walkAll d children
    have hgroup := Cleans.bind hchildren (cleans_grouped d e)
    have hhidden : isHidden (withoutFaults e) = isHidden e := isHidden_withoutFaults e
    show Cleans (walk d e) (walk d (withoutFaults e))
    rw [withoutFaults] at hpath hshape hgroup hhidden ⊢
    rw [walk_eq, walk_eq, hhidden]
    by_cases h : isHidden e = true
    · simp only [if_pos h]
      exact .pure []
    · simp only [if_neg h]
      cases Role.ofTag name with
      | path => exact hpath
      | shape => exact hshape
      | group => exact hgroup
      | silent => exact .pure []
      | container => exact hchildren

theorem cleans_walkAll (d : Definitions) :
    ∀ es : List Element, Cleans (walkAll d es) (walkAll d (withoutFaultsOf es))
  | [] => .pure []
  | e :: rest => by
    rw [withoutFaultsOf, walkAll, walkAll]
    exact .bind (cleans_walk d e) fun first =>
      .bind (cleans_walkAll d rest) fun others => .pure (first ++ others)

end

/-! ## Documents -/

section

variable (root : Element)

theorem documentName_withoutFaults : documentName (withoutFaults root) = documentName root := by
  simp [documentName, descendants_withoutFaults, List.filter_map, List.findSome?_map,
    Function.comp_def]

theorem cleans_unsupported :
    Cleans (⟨(), unsupported root⟩ : Noted Unit) ⟨(), unsupported (withoutFaults root)⟩ := by
  have hsame : unsupported (withoutFaults root) = unsupported root := by
    rw [unsupported, unsupported, descendants_withoutFaults, List.filterMap_map]
    congr 1
    funext e
    rw [Function.comp_apply, name_withoutFaults]
  rw [hsame]
  refine .of_warnings fun n hn => ?_
  obtain ⟨e, -, hcategory⟩ := List.mem_filterMap.1 hn
  obtain ⟨category, -, rfl⟩ := Option.map_eq_some_iff.1 hcategory
  exact ⟨rfl, rfl⟩

theorem cleans_define : Cleans (define root) (define (withoutFaults root)) :=
  .bind (cleans_defineGradients root {}) (cleans_defineClips root)

/-- A document and the one without faults are surveyed in step. -/
theorem cleans_survey : Cleans (survey root) (survey (withoutFaults root)) := by
  have hattributes : (withoutFaults root).attribute? "width" = root.attribute? "width" ∧
      (withoutFaults root).attribute? "height" = root.attribute? "height" ∧
      (withoutFaults root).attribute? "viewBox" = root.attribute? "viewBox" := by simp
  obtain ⟨hwidth, hheight, hbox⟩ := hattributes
  rw [survey, survey, hwidth, hheight, hbox, documentName_withoutFaults, children_withoutFaults,
    ← withoutFaultsOf_eq_map]
  exact .bind (cleans_unsupported root) fun _ => .bind (cleans_define root) fun d =>
    .bind (cleans_walkAll d root.children) fun _ => .pure _

end

end VectorIcon.Svg
