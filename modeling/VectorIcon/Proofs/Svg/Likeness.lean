import Mathlib.Data.List.Forall2
import VectorIcon.Proofs.Svg.DocumentOrder
import VectorIcon.Proofs.Svg.Faultless

/-!
# Documents that are read alike

What a reading asks of an element is its tag, some attributes as they stand, and some properties; of a
gradient also its identifier and its stops, of a clip path its commands. Two documents in which each
element has a counterpart that answers the same (`ReadsAlike`) are therefore read alike.

1. `Counterparts` relates two forests element by element. Some elements of the first may be left out of
   the second, so that the relation is also one between a document and what is kept of it.
2. The definitions of both documents note the same, and find the same by every identifier that is asked
   for (`define_of_counterparts`). An identifier that nothing asks for may be any text.
3. With such definitions the walks over both are equal (`walkAll_of_counterparts`). They ask for less than
   definitions do (`DrawsAlike`), and what draws nothing may be left out.
4. Where nothing is left out, all that is said about both documents is equal
   (`survey_of_counterparts`).
-/

namespace VectorIcon.Svg

open Markup Icon

/-- The element is a gradient or a clip path. -/
def isDefinition (e : Element) : Bool :=
  isGradient e || e.name == "clipPath"

/-- The definitions of a document, in document order. -/
def definitions (root : Element) : List Element :=
  root.descendants.filter isDefinition

/-- The properties that an inline style can declare. -/
def styleable : List String :=
  ["fill", "stroke", "opacity", "fill-opacity", "stroke-opacity", "stroke-width", "stroke-linecap",
    "stroke-linejoin", "stroke-miterlimit", "fill-rule", "clip-path", "display", "offset",
    "stop-color", "stop-opacity"]

/-- The identifiers by which an element asks for gradients. -/
def askedBy (e : Element) : List String :=
  ((property? e "fill").bind referencedId?).toList ++
    ((property? e "stroke").bind referencedId?).toList ++
    if isGradient e then (gradientReference? e).toList else []

/-- Elements of which the same is asked, but for their identifiers and what is in them. -/
structure LooksAlike (e e' : Element) : Prop where
  name : e'.name = e.name
  written : ∀ name ∉ "id" :: "style" :: styleable, e'.attribute? name = e.attribute? name
  link : e'.attributeIn? linkSpace "href" = e.attributeIn? linkSpace "href"
  property : ∀ name ∈ styleable, property? e' name = property? e name

/-- Elements that the walk takes alike, when gradients are asked for by some identifiers only. -/
structure DrawsAlike (asked : String → Prop) (e e' : Element) : Prop extends LooksAlike e e' where
  id : id? e' = id? e
  asks : ∀ id ∈ askedBy e, asked id

/-- Two identifiers, if there are any, that cannot be told apart by what is asked for. -/
def SameIfAsked (asked : String → Prop) : Option String → Option String → Prop :=
  Option.Rel fun s t => ∀ id, asked id → (id = s ↔ id = t)

/-- Elements that are also taken alike as definitions. -/
structure ReadsAlike (asked : String → Prop) (e e' : Element) : Prop extends
    DrawsAlike asked e e' where
  gradientId : isGradient e = true →
    SameIfAsked asked (e.attribute? "id") (e'.attribute? "id")
  stops : isGradient e = true → ownStops e' = ownStops e
  clip : e.name = "clipPath" → clipParts e'.children = clipParts e.children

/-- Forests in which the elements of the second stand for those of the first, one for one and as deep as
they go, but for some that are left out. -/
inductive Counterparts (R : Element → Element → Prop) (leftOut : Element → Prop) :
    List Element → List Element → Prop
  | nil : Counterparts R leftOut [] []
  | cons {e e' : Element} {rest rest' : List Element} : R e e' →
      Counterparts R leftOut e.children e'.children → Counterparts R leftOut rest rest' →
      Counterparts R leftOut (e :: rest) (e' :: rest')
  | drop {e : Element} {rest rest' : List Element} : leftOut e →
      Counterparts R leftOut rest rest' → Counterparts R leftOut (e :: rest) rest'

/-- Documents in which each element has its counterpart. -/
abbrev InStep (R : Element → Element → Prop) (root root' : Element) : Prop :=
  Counterparts R (fun _ => False) [root] [root']

/-- The attribute has the name, in no namespace. -/
def isNamed (name : String) (a : Attribute) : Bool :=
  a.space.isNone && a.name == name

/-- Elements with one tag and the same attributes, but for the attribute of a name: it may have any
value, be missing, or be new. -/
structure SameBut (name : String) (e e' : Element) : Prop where
  tag : e'.name = e.name
  others : (e'.attributes.filter fun a => !isNamed name a) =
    e.attributes.filter fun a => !isNamed name a

/-! ## Forests -/

section

variable {R S : Element → Element → Prop} {leftOut : Element → Prop} {es es' : List Element}

theorem descendants_eq (e : Element) :
    e.descendants = e :: Element.descendantsOf e.children := by
  cases e
  rfl

theorem descendantsOf_cons (e : Element) (rest : List Element) :
    Element.descendantsOf (e :: rest) =
      e :: (Element.descendantsOf e.children ++ Element.descendantsOf rest) := by
  rw [Element.descendantsOf, descendants_eq, List.cons_append]

theorem Counterparts.refl (leftOut : Element → Prop) (h : ∀ e, R e e) :
    ∀ es : List Element, Counterparts R leftOut es es
  | [] => .nil
  | ⟨name, attributes, children⟩ :: rest =>
    .cons (h _) (Counterparts.refl leftOut h children) (Counterparts.refl leftOut h rest)

/-- A relation of counterparts may be replaced by one that follows from it, for elements of the first
forest and what is in them. -/
theorem Counterparts.mono (h : Counterparts R leftOut es es')
    (himp : ∀ e e', e ∈ Element.descendantsOf es → R e e' →
      Counterparts R leftOut e.children e'.children → S e e') :
    Counterparts S leftOut es es' := by
  induction h with
  | nil => exact .nil
  | @cons e e' rest rest' hhead hchildren hrest ihchildren ihrest =>
    simp only [descendantsOf_cons, List.mem_cons, List.mem_append] at himp
    refine .cons (himp e e' (.inl rfl) hhead hchildren) (ihchildren ?_) (ihrest ?_)
    · intro c c' hc
      exact himp c c' (.inr (.inl hc))
    · intro c c' hc
      exact himp c c' (.inr (.inr hc))
  | @drop e rest rest' hout hrest ih =>
    simp only [descendantsOf_cons, List.mem_cons, List.mem_append] at himp
    exact .drop hout (ih fun c c' hc => himp c c' (.inr (.inr hc)))

/-- Elements of a kind have counterparts of this kind, in the same order, when none of them is left
out. -/
theorem Counterparts.forall₂_filter {p : Element → Bool} (h : Counterparts R leftOut es es')
    (hkind : ∀ e e', R e e' → p e' = p e)
    (hout : ∀ e, leftOut e → e.descendants.filter p = []) :
    List.Forall₂ R ((Element.descendantsOf es).filter p)
      ((Element.descendantsOf es').filter p) := by
  induction h with
  | nil => exact .nil
  | @cons e e' rest rest' hhead _ _ ihchildren ihrest =>
    have hinside := List.rel_append ihchildren ihrest
    simp only [descendantsOf_cons, List.filter_cons, List.filter_append, hkind e e' hhead]
    split
    · exact .cons hhead hinside
    · exact hinside
  | @drop e rest rest' hleft _ ih =>
    rw [Element.descendantsOf, List.filter_append, hout e hleft, List.nil_append]
    exact ih

end

/-! ## Attributes and properties -/

theorem SameIfAsked.refl (asked : String → Prop) (s : Option String) : SameIfAsked asked s s := by
  cases s with
  | none => exact .none
  | some => exact .some fun _ _ => Iff.rfl

section

variable {name : String} {e e' : Element}

theorem attribute?_of_attributes_eq (h : e'.attributes = e.attributes) (other : String) :
    e'.attribute? other = e.attribute? other := by
  rw [Element.attribute?, Element.attribute?, h]

theorem property?_of_attributes_eq (h : e'.attributes = e.attributes) (property : String) :
    property? e' property = property? e property := by
  simp only [property?, declared?, attribute?_of_attributes_eq h]

theorem drawsAlike_of_attributes_eq (hname : e'.name = e.name)
    (h : e'.attributes = e.attributes) : DrawsAlike (fun _ => True) e e' where
  name := hname
  written other _ := attribute?_of_attributes_eq h other
  link := by rw [Element.attributeIn?, Element.attributeIn?, h]
  property other _ := property?_of_attributes_eq h other
  id := by rw [id?, id?, attribute?_of_attributes_eq h]
  asks _ _ := trivial

/-- What is found among the attributes without one that is not looked for is found among all. -/
theorem find?_attributes_of_sameBut (h : SameBut name e e') {p : Attribute → Bool}
    (hp : ∀ a, p a = true → isNamed name a = false) :
    e'.attributes.find? p = e.attributes.find? p := by
  have hothers (l : List Attribute) : (l.filter fun a => !isNamed name a).find? p = l.find? p := by
    rw [List.find?_filter]
    congr 1
    funext a
    cases hpa : p a with
    | false => simp
    | true => simp [hp a hpa]
  rw [← hothers e'.attributes, ← hothers e.attributes, h.others]

theorem attribute?_of_sameBut (h : SameBut name e e') {other : String} (hne : other ≠ name) :
    e'.attribute? other = e.attribute? other := by
  unfold Element.attribute?
  rw [find?_attributes_of_sameBut h]
  intro a ha
  simp only [Bool.and_eq_true, beq_iff_eq] at ha
  simp [isNamed, ha.2, hne]

theorem attributeIn?_of_sameBut (h : SameBut name e e') (space other : String) :
    e'.attributeIn? space other = e.attributeIn? space other := by
  unfold Element.attributeIn?
  rw [find?_attributes_of_sameBut h]
  intro a ha
  simp only [Bool.and_eq_true, beq_iff_eq] at ha
  simp [isNamed, ha.1]

/-- Elements that differ in one attribute look alike, when all properties are the same. -/
theorem looksAlike_of_sameBut (h : SameBut name e e') (hname : name ∈ "id" :: "style" :: styleable)
    (hproperty : ∀ p ∈ styleable, property? e' p = property? e p) : LooksAlike e e' where
  name := h.tag
  written _ hother := attribute?_of_sameBut h fun heq => hother (heq ▸ hname)
  link := attributeIn?_of_sameBut h linkSpace "href"
  property := hproperty

end

section

variable {e e' : Element} (h : LooksAlike e e')

include h

theorem isHidden_of_looksAlike : isHidden e' = isHidden e := by
  rw [isHidden, isHidden, h.property "display" (by decide)]

theorem pathCommands_of_looksAlike : pathCommands e' = pathCommands e := by
  rw [pathCommands, pathCommands, h.written "d" (by decide)]

theorem checkedShapeCommands_of_looksAlike :
    checkedShapeCommands e' = checkedShapeCommands e := by
  have hcommands : shapeCommands e' = shapeCommands e := by
    simp (disch := decide) only [shapeCommands, h.written, h.name]
  rw [checkedShapeCommands, checkedShapeCommands, hcommands, h.name]

theorem readStop_of_looksAlike : readStop e' = readStop e := by
  simp (disch := decide) only [readStop, stopColor, h.property]

theorem gradientReference?_of_looksAlike : gradientReference? e' = gradientReference? e := by
  rw [gradientReference?, gradientReference?, h.link, h.written "href" (by decide)]

theorem gradientPaint_of_looksAlike (stops : List Stop) :
    gradientPaint e' stops = gradientPaint e stops := by
  unfold gradientPaint gradientCoordinate
  rw [h.name]
  simp (disch := decide) only [h.written]

theorem transformParams_of_looksAlike : transformParams e' = transformParams e := by
  rw [transformParams, transformParams, h.written "transform" (by decide)]

end

section

variable {leftOut : Element → Prop} {es es' : List Element}

/-- The stops among elements without losses are read alike. -/
theorem mapM_readStop_of_counterparts (h : Counterparts LooksAlike (fun _ => False) es es') :
    (es'.filter fun child => child.name == "stop").mapM readStop =
      (es.filter fun child => child.name == "stop").mapM readStop := by
  induction h with
  | nil => rfl
  | cons hhead _ _ _ ih =>
    simp only [List.filter_cons, hhead.name]
    split
    · rw [List.mapM_cons, List.mapM_cons, readStop_of_looksAlike hhead, ih]
    · exact ih
  | drop hout => exact hout.elim

theorem clipPart_eq (e : Element) :
    clipPart e =
      match Role.ofTag e.name with
      | .path => pathCommands e
      | .shape => checkedShapeCommands e
      | .group => clipParts e.children
      | .silent | .container => pure [] := by
  cases e
  unfold clipPart
  rfl

/-- Elements without losses add the same to a clip path. -/
theorem clipParts_of_counterparts (h : Counterparts LooksAlike (fun _ => False) es es') :
    clipParts es' = clipParts es := by
  induction h with
  | nil => rfl
  | @cons e e' rest rest' hhead _ _ ihchildren ihrest =>
    have hpart : clipPart e' = clipPart e := by
      rw [clipPart_eq, clipPart_eq, hhead.name, pathCommands_of_looksAlike hhead,
        checkedShapeCommands_of_looksAlike hhead, ihchildren]
    rw [clipParts, clipParts, hpart, ihrest]
  | drop hout => exact hout.elim

end

/-! ## Definitions -/

/-- Definitions that find the same by all identifiers that are asked for. -/
structure AgreeOn (asked : String → Prop) (d d' : Definitions) : Prop where
  gradient : ∀ id, asked id → d'.gradient? id = d.gradient? id
  clip : ∀ id, d'.clip? id = d.clip? id

/-- Gradients under identifiers that are read alike. -/
def EntriesAlike (asked : String → Prop) (x y : String × Element) : Prop :=
  (∀ id, asked id → (id = x.1 ↔ id = y.1)) ∧ isGradient x.2 = true ∧ ReadsAlike asked x.2 y.2

/-- Two runs over lists that go in step note the same, and end in step. -/
theorem foldlM_in_step {α β δ : Type} {P : δ → δ → Prop} {S : α → β → Prop}
    {f : δ → α → Noted δ} {g : δ → β → Noted δ}
    (hstep : ∀ d d' a b, P d d' → S a b →
      (g d' b).notices = (f d a).notices ∧ P (f d a).value (g d' b).value)
    {l : List α} {l' : List β} (h : List.Forall₂ S l l') {d d' : δ} (hd : P d d') :
    (l'.foldlM g d').notices = (l.foldlM f d).notices ∧
      P (l.foldlM f d).value (l'.foldlM g d').value := by
  induction h generalizing d d' with
  | nil => exact ⟨rfl, hd⟩
  | cons hhead _ ih =>
    obtain ⟨hnotices, hvalue⟩ := hstep d d' _ _ hd hhead
    obtain ⟨hnotices', hvalue'⟩ := ih hvalue
    rw [List.foldlM_cons, List.foldlM_cons, Noted.notices_bind, Noted.notices_bind, hnotices,
      hnotices']
    exact ⟨rfl, hvalue'⟩

section

variable {asked : String → Prop} {gradients gradients' : List (String × Element)}

/-- What is asked for leads to gradients that are read alike. -/
theorem lookup_of_entriesAlike (h : List.Forall₂ (EntriesAlike asked) gradients gradients')
    {id : String} (hid : asked id) :
    Option.Rel (fun e e' => isGradient e = true ∧ ReadsAlike asked e e')
      (gradients.lookup id) (gradients'.lookup id) := by
  induction h with
  | nil => exact .none
  | @cons x y l l' hhead _ ih =>
    obtain ⟨hsame, hentry⟩ := hhead
    have hbeq : (id == y.1) = (id == x.1) := by
      rw [Bool.eq_iff_iff, beq_iff_eq, beq_iff_eq]
      exact (hsame id hid).symm
    rw [List.lookup_cons, List.lookup_cons, hbeq]
    cases id == x.1 with
    | true => exact .some hentry
    | false => exact ih

theorem resolveStops_of_entriesAlike
    (h : List.Forall₂ (EntriesAlike asked) gradients gradients') (steps : Nat) {e e' : Element}
    (hgradient : isGradient e = true) (he : ReadsAlike asked e e') :
    resolveStops gradients' steps e' = resolveStops gradients steps e := by
  induction steps generalizing e e' with
  | zero => rfl
  | succ steps ih =>
    have hnext : Option.Rel (fun e e' => isGradient e = true ∧ ReadsAlike asked e e')
        ((gradientReference? e).bind fun id => gradients.reverse.lookup id)
        ((gradientReference? e).bind fun id => gradients'.reverse.lookup id) := by
      cases hreference : gradientReference? e with
      | none => exact .none
      | some id =>
        have hasked : id ∈ askedBy e := by
          simp [askedBy, hgradient, hreference]
        exact lookup_of_entriesAlike (List.rel_reverse h) (he.asks id hasked)
    rw [resolveStops, resolveStops, he.stops hgradient,
      gradientReference?_of_looksAlike he.toLooksAlike]
    refine congrArg _ (funext fun stops => ?_)
    -- Both chains break off here, or go on to gradients that are read alike.
    revert hnext
    generalize ((gradientReference? e).bind fun id => gradients.reverse.lookup id) = next
    generalize ((gradientReference? e).bind fun id => gradients'.reverse.lookup id) = next'
    intro hnext
    cases hnext with
    | none => rfl
    | some hnext => simp only [ih hnext.1 hnext.2]

end

section

variable {asked : String → Prop} {leftOut : Element → Prop} {es es' : List Element}

theorem AgreeOn.addGradient {d d' : Definitions} (h : AgreeOn asked d d') {s t : String}
    (hids : ∀ id, asked id → (id = s ↔ id = t)) (paint : Paint) :
    AgreeOn asked (d.addGradient s paint) (d'.addGradient t paint) where
  gradient id hid := by
    have hbeq : (id == t) = (id == s) := by
      rw [Bool.eq_iff_iff, beq_iff_eq, beq_iff_eq]
      exact (hids id hid).symm
    have hrest := h.gradient id hid
    unfold Definitions.gradient? Definitions.addGradient at *
    rw [List.lookup_cons, List.lookup_cons, hbeq, hrest]
  clip := h.clip

theorem AgreeOn.addClip {d d' : Definitions} (h : AgreeOn asked d d') (id : String)
    (commands : List (Path.Command Float)) :
    AgreeOn asked (d.addClip id commands) (d'.addClip id commands) where
  gradient := h.gradient
  clip other := by
    have hrest := h.clip other
    unfold Definitions.clip? Definitions.addClip at *
    rw [List.lookup_cons, List.lookup_cons, hrest]

end

section

variable {asked : String → Prop} {leftOut : Element → Prop} {root root' : Element}
  (h : Counterparts (ReadsAlike asked) leftOut [root] [root'])
  (hout : ∀ e, leftOut e → definitions e = [])

include h hout

/-- Definitions of a kind have counterparts in the same order. -/
theorem forall₂_definitions {p : Element → Bool} (hp : ∀ e, p e = true → isDefinition e = true)
    (hkind : ∀ e e', e'.name = e.name → p e' = p e) :
    List.Forall₂ (fun e e' => p e = true ∧ ReadsAlike asked e e') (root.descendants.filter p)
      (root'.descendants.filter p) := by
  have hall := h.forall₂_filter (p := p) (fun e e' he => hkind e e' he.name) fun e he => by
    refine List.filter_eq_nil_iff.2 fun c hc hpc => ?_
    have hdefinition := List.filter_eq_nil_iff.1 (hout e he) c hc
    exact hdefinition (hp c hpc)
  simp only [Element.descendantsOf, List.append_nil] at hall
  exact (List.forall₂_and_left _ _).2 ⟨fun e he => (List.mem_filter.1 he).2, hall⟩

theorem forall₂_gradientElements :
    List.Forall₂ (EntriesAlike asked) (gradientElements root) (gradientElements root') := by
  have hgradients := forall₂_definitions h hout (p := isGradient)
    (fun e he => by rw [isDefinition, he, Bool.true_or])
    (fun e e' hname => by rw [isGradient, isGradient, hname])
  refine List.rel_filterMap (fun e e' he => ?_) hgradients
  obtain ⟨hgradient, halike⟩ := he
  have hid := halike.gradientId hgradient
  revert hid
  generalize e.attribute? "id" = s
  generalize e'.attribute? "id" = t
  intro hid
  cases hid with
  | none => exact .none
  | some hids => exact .some ⟨hids, hgradient, halike⟩

theorem defineGradients_of_counterparts {d d' : Definitions} (hd : AgreeOn asked d d') :
    (defineGradients root' d').notices = (defineGradients root d).notices ∧
      AgreeOn asked (defineGradients root d).value (defineGradients root' d').value := by
  have hentries := forall₂_gradientElements h hout
  unfold defineGradients
  refine foldlM_in_step (fun d d' x y hd hxy => ?_) hentries hd
  obtain ⟨s, e⟩ := x
  obtain ⟨t, e'⟩ := y
  obtain ⟨hids, hgradient, halike⟩ := hxy
  simp only [resolveStops_of_entriesAlike hentries chainLength hgradient halike,
    gradientPaint_of_looksAlike halike.toLooksAlike, Noted.notices_bind, Noted.value_bind]
  refine ⟨rfl, ?_⟩
  split
  · exact hd
  · exact hd.addGradient hids _

theorem defineClips_of_counterparts {d d' : Definitions} (hd : AgreeOn asked d d') :
    (defineClips root' d').notices = (defineClips root d).notices ∧
      AgreeOn asked (defineClips root d).value (defineClips root' d').value := by
  have hclips := forall₂_definitions h hout (p := fun e => e.name == "clipPath")
    (fun e he => by rw [isDefinition, he, Bool.or_true])
    (fun e e' hname => by rw [hname])
  unfold defineClips
  refine foldlM_in_step (fun d d' e e' hd he => ?_) hclips hd
  obtain ⟨hname, halike⟩ := he
  rw [halike.id, halike.clip (beq_iff_eq.1 hname)]
  cases id? e with
  | none => exact ⟨rfl, hd⟩
  | some id => exact ⟨rfl, hd.addClip id _⟩

/-- Documents that are read alike have definitions that agree. -/
theorem define_of_counterparts :
    (define root').notices = (define root).notices ∧
      AgreeOn asked (define root).value (define root').value := by
  have hempty : AgreeOn asked {} {} := ⟨fun _ _ => rfl, fun _ => rfl⟩
  obtain ⟨hgradients, hd⟩ := defineGradients_of_counterparts h hout hempty
  obtain ⟨hclips, hboth⟩ := defineClips_of_counterparts h hout hd
  unfold define
  rw [Noted.notices_bind, Noted.notices_bind, hgradients, hclips]
  exact ⟨rfl, hboth⟩

end

/-! ## The walk -/

section

variable {asked : String → Prop} {d d' : Definitions} (hd : AgreeOn asked d d') {e e' : Element}
  (h : DrawsAlike asked e e')

include hd h

/-- A paint property of an element asks for the same. -/
theorem readPaint_of_drawsAlike {name value : String} (hname : name = "fill" ∨ name = "stroke")
    (hvalue : property? e name = some value) : readPaint d' value = readPaint d value := by
  unfold readPaint
  cases hid : referencedId? value with
  | none => rfl
  | some id =>
    have hasked : id ∈ askedBy e := by
      rcases hname with rfl | rfl <;> simp [askedBy, hvalue, hid]
    simp only [hd.gradient id (h.asks id hasked)]

theorem styled_of_drawsAlike (commands : List (Path.Command Float)) :
    styled d' e' commands = styled d e commands := by
  unfold styled
  simp (disch := decide) only [h.property, h.id, h.name]
  cases hfill : property? e "fill" <;> cases hstroke : property? e "stroke"
  · rfl
  · simp only [readPaint_of_drawsAlike hd h (.inr rfl) hstroke]
  · simp only [readPaint_of_drawsAlike hd h (.inl rfl) hfill]
  · simp only [readPaint_of_drawsAlike hd h (.inl rfl) hfill,
      readPaint_of_drawsAlike hd h (.inr rfl) hstroke]

theorem placement_of_drawsAlike (name : String) : placement d' e' name = placement d e name := by
  have hclip : clipOf d' e' = clipOf d e := by
    unfold clipOf
    simp only [h.property "clip-path" (by decide), hd.clip]
  rw [placement, placement, transformParams_of_looksAlike h.toLooksAlike, hclip]

theorem leaf_of_drawsAlike (commands : List (Path.Command Float)) :
    leaf d' e' commands = leaf d e commands := by
  rw [leaf, leaf, styled_of_drawsAlike hd h, placement_of_drawsAlike hd h]

theorem grouped_of_drawsAlike (children : List Node) :
    grouped d' e' children = grouped d e children := by
  rw [grouped, grouped, h.id]
  simp only [placement_of_drawsAlike hd h]

end

/-- The walk skips what is hidden. -/
theorem walk_of_isHidden {e : Element} (h : isHidden e = true) (d : Definitions) :
    walk d e = pure [] := by
  rw [walk_eq, if_pos h]

/-- The walks over forests that are taken alike are equal; what draws nothing may be left out. -/
theorem walkAll_of_counterparts {asked : String → Prop} {leftOut : Element → Prop}
    {d d' : Definitions} {es es' : List Element} (hd : AgreeOn asked d d')
    (hout : ∀ e, leftOut e → walk d e = pure [])
    (h : Counterparts (DrawsAlike asked) leftOut es es') : walkAll d' es' = walkAll d es := by
  induction h with
  | nil => rfl
  | @cons e e' rest rest' hhead _ _ ihchildren ihrest =>
    have hlooks := hhead.toLooksAlike
    have hwalk : walk d' e' = walk d e := by
      rw [walk_eq, walk_eq, isHidden_of_looksAlike hlooks, hhead.name, ihchildren,
        pathCommands_of_looksAlike hlooks, checkedShapeCommands_of_looksAlike hlooks]
      simp only [leaf_of_drawsAlike hd hhead, grouped_of_drawsAlike hd hhead]
    rw [walkAll, walkAll, hwalk, ihrest]
  | @drop e rest rest' hleft _ ih =>
    rw [walkAll, hout e hleft, ih]
    exact (bind_pure _).symm

/-! ## Documents -/

/-- Documents whose elements look alike are read alike, when their gradients have the same identifiers
as far as these are asked for. -/
theorem InStep.readsAlike {asked : String → Prop} {R : Element → Element → Prop}
    {root root' : Element} (h : InStep R root root') (hlooks : ∀ e e', R e e' → LooksAlike e e')
    (hids : ∀ e e', R e e' → id? e' = id? e)
    (hgradients : ∀ e ∈ root.descendants, ∀ e', R e e' → isGradient e = true →
      SameIfAsked asked (e.attribute? "id") (e'.attribute? "id"))
    (hasks : ∀ e ∈ root.descendants, ∀ id ∈ askedBy e, asked id) :
    InStep (ReadsAlike asked) root root' := by
  have hall : Element.descendantsOf [root] = root.descendants := by
    rw [Element.descendantsOf, Element.descendantsOf, List.append_nil]
  refine Counterparts.mono h fun e e' he hhead hchildren => ?_
  rw [hall] at he
  have hinside := hchildren.mono fun c c' _ hc _ => hlooks c c' hc
  exact {
    toLooksAlike := hlooks e e' hhead
    id := hids e e' hhead
    asks := hasks e he
    gradientId := hgradients e he e' hhead
    stops := fun _ => mapM_readStop_of_counterparts hinside
    clip := fun _ => clipParts_of_counterparts hinside }

/-- A run that goes on in the same way after the same notices is the same. -/
theorem bind_eq_of_notices {α β : Type} {x x' : Noted α} {f f' : α → Noted β}
    (hnotices : x'.notices = x.notices) (hf : f' x'.value = f x.value) : x' >>= f' = x >>= f := by
  show Noted.mk (f' x'.value).value (x'.notices ++ (f' x'.value).notices) =
    Noted.mk (f x.value).value (x.notices ++ (f x.value).notices)
  rw [hnotices, hf]

/-- What is collected from lists that go in step is the same. -/
theorem filterMap_in_step {α β : Type} {R : α → α → Prop} {f : α → Option β}
    (hstep : ∀ a b, R a b → f b = f a) {l l' : List α} (h : List.Forall₂ R l l') :
    l'.filterMap f = l.filterMap f := by
  induction h with
  | nil => rfl
  | cons hhead _ ih => rw [List.filterMap_cons, List.filterMap_cons, hstep _ _ hhead, ih]

section

variable {asked : String → Prop} {root root' : Element}
  (h : InStep (ReadsAlike asked) root root')

include h

theorem forall₂_descendants {p : Element → Bool} (hkind : ∀ e e', e'.name = e.name → p e' = p e) :
    List.Forall₂ (ReadsAlike asked) (root.descendants.filter p) (root'.descendants.filter p) := by
  have hall := h.forall₂_filter (fun e e' he => hkind e e' he.name) fun _ hout => hout.elim
  simpa only [Element.descendantsOf, List.append_nil] using hall

theorem documentName_of_counterparts (hroot : ReadsAlike asked root root') :
    documentName root' = documentName root := by
  have hpaths := forall₂_descendants h (p := fun e => e.name == "path") fun e e' hname => by
    rw [hname]
  rw [documentName, documentName, hroot.id, ← List.head?_filterMap, ← List.head?_filterMap,
    filterMap_in_step (fun _ _ he => he.id) hpaths]

theorem unsupported_of_counterparts : unsupported root' = unsupported root := by
  have hall := forall₂_descendants h (p := fun _ => true) fun _ _ _ => rfl
  simp only [List.filter_true] at hall
  exact filterMap_in_step (fun e e' he => by rw [he.name]) hall

/-- All that is said about documents that are read alike is equal. -/
theorem survey_of_counterparts : survey root' = survey root := by
  obtain ⟨hroot, hchildren⟩ : ReadsAlike asked root root' ∧
      Counterparts (ReadsAlike asked) (fun _ => False) root.children root'.children := by
    cases h with
    | cons hroot hchildren _ => exact ⟨hroot, hchildren⟩
    | drop hout => exact hout.elim
  obtain ⟨hnotices, hd⟩ := define_of_counterparts h fun _ hout => hout.elim
  have hwalk := walkAll_of_counterparts hd (fun _ hout => hout.elim)
    (hchildren.mono fun _ _ _ he _ => he.toDrawsAlike)
  rw [survey, survey, unsupported_of_counterparts h, documentName_of_counterparts h hroot,
    hroot.written "width" (by decide), hroot.written "height" (by decide),
    hroot.written "viewBox" (by decide)]
  refine congrArg _ (funext fun _ => bind_eq_of_notices hnotices ?_)
  rw [hwalk]

/-- Documents that are read alike give the same drawing, or fail in the same way. -/
theorem read_of_counterparts (mode : Mode) : read mode root' = read mode root := by
  have hname : root'.name = root.name := by
    cases h with
    | cons hroot _ _ => exact hroot.name
    | drop hout => exact hout.elim
  rw [read_eq, read_eq, hname, survey_of_counterparts h]

end

end VectorIcon.Svg
