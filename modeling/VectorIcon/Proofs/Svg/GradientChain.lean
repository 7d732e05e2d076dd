import VectorIcon.Proofs.Svg.WellFormed

/-!
# What gradients are found as

The references between the gradients of a document lead from each of them along a chain (`chain?`), which
may break off or run in a circle. The stops of a gradient are those of the first gradient with any among
the first eight of its chain (`value_resolveStops`), and under an identifier the last gradient is found
that has such stops (`gradient?_eq_last`). So a gradient without stops hides no earlier one of the same
identifier from what is painted, though it does hide it from references.
-/

namespace VectorIcon.Svg

open Markup Icon

/-- The gradients of a document in document order. -/
def gradientsOf (root : Element) : List Element :=
  root.descendants.filter isGradient

/-- The gradient that an element refers to, the last one of several with its identifier. -/
def referred? (root e : Element) : Option Element :=
  (gradientReference? e).bind fun id =>
    ((gradientsOf root).filter fun g => g.attribute? "id" == some id).getLast?

/-- What references lead to from an element in a number of steps. -/
def chain? (root e : Element) : Nat → Option Element
  | 0 => some e
  | n + 1 => (chain? root e n).bind (referred? root)

/-- The gradient has a reference to an identifier, which is written after a mark. A reference of the link
namespace comes before a plain one. -/
inductive RefersTo (e : Element) : String → Prop
  | linked {value} : e.attributeIn? linkSpace "href" = some value →
      RefersTo e (String.ofList ((Text.trim value.toList).dropWhile (· == '#')))
  | plain {value} : e.attributeIn? linkSpace "href" = none → e.attribute? "href" = some value →
      RefersTo e (String.ofList ((Text.trim value.toList).dropWhile (· == '#')))

/-- The paint has the given stops and the geometry that the gradient has itself: the ends of a line, or a
circle, with a focus if one of its coordinates is there. -/
inductive Paints (e : Element) (stops : List Stop) : Paint → Prop
  | linear : e.name = "linearGradient" →
      Paints e stops (.linear ⟨gradientCoordinate e "x1" 0, gradientCoordinate e "y1" 0⟩
        ⟨gradientCoordinate e "x2" 100, gradientCoordinate e "y2" 0⟩ stops)
  | radial : e.name = "radialGradient" → e.attribute? "fx" = none → e.attribute? "fy" = none →
      Paints e stops (.radial ⟨gradientCoordinate e "cx" 50, gradientCoordinate e "cy" 50⟩
        (gradientCoordinate e "r" 50) none stops)
  | focal {x y} : e.name = "radialGradient" →
      (e.attribute? "fx").isSome = true ∨ (e.attribute? "fy").isSome = true →
      x = (if (e.attribute? "fx").isSome then gradientCoordinate e "fx" 50
        else gradientCoordinate e "cx" 50) →
      y = (if (e.attribute? "fy").isSome then gradientCoordinate e "fy" 50
        else gradientCoordinate e "cy" 50) →
      Paints e stops (.radial ⟨gradientCoordinate e "cx" 50, gradientCoordinate e "cy" 50⟩
        (gradientCoordinate e "r" 50) (some ⟨x, y⟩) stops)

/-- The elements for the stops of a gradient. -/
def stopElements (e : Element) : List Element :=
  e.children.filter fun child => child.name == "stop"

/-- The stops of the first element with any on the first part of a chain. -/
def stopsWithin (root e : Element) (length : Nat) : List Stop :=
  (((List.range length).filterMap (chain? root e)).find? fun g => !(stopElements g).isEmpty).elim []
    fun g => (stopElements g).map fun child => (readStop child).value

/-- The stops that a gradient has, or takes from the gradients it refers to. -/
def chainStops (root e : Element) : List Stop :=
  stopsWithin root e 8

/-! ## What a gradient says itself -/

section

variable {e : Element} {stops : List Stop} {paint : Paint} {id : String}

theorem gradientReference?_eq_some_iff : gradientReference? e = some id ↔ RefersTo e id := by
  rw [gradientReference?]
  constructor
  · intro h
    obtain ⟨value, hvalue, rfl⟩ := Option.map_eq_some_iff.1 h
    rcases Option.or_eq_some_iff.1 hvalue with hlinked | ⟨hnone, hplain⟩
    · exact .linked hlinked
    · exact .plain hnone hplain
  · rintro (hlinked | ⟨hnone, hplain⟩)
    · rw [hlinked]
      rfl
    · rw [hnone, hplain]
      rfl

theorem paints_gradientPaint (h : isGradient e = true) : Paints e stops (gradientPaint e stops) := by
  rw [gradientPaint]
  by_cases hname : e.name = "linearGradient"
  · rw [if_pos hname]
    exact .linear hname
  · have hradial : e.name = "radialGradient" := by
      rw [isGradient, beq_false_of_ne hname, Bool.false_or] at h
      exact eq_of_beq h
    rw [if_neg hname]
    dsimp only
    cases hx : e.attribute? "fx" with
    | none =>
      cases hy : e.attribute? "fy" with
      | none => exact .radial hradial hx hy
      | some y => exact .focal hradial (.inr (by rw [hy]; rfl)) (by rw [hx]; rfl) (by rw [hy]; rfl)
    | some x =>
      refine .focal hradial (.inl (by rw [hx]; rfl)) (by rw [hx]; rfl) ?_
      cases e.attribute? "fy" <;> rfl

/-- A gradient with its own geometry is one paint. -/
theorem Paints.unique {other : Paint} (h : Paints e stops paint) (h' : Paints e stops other) :
    paint = other := by
  have hnames : "linearGradient" ≠ "radialGradient" := by decide
  cases h with
  | linear hname =>
    cases h' with
    | linear => rfl
    | radial hother => exact absurd (hname.symm.trans hother) hnames
    | focal hother => exact absurd (hname.symm.trans hother) hnames
  | radial hname hx hy =>
    cases h' with
    | linear hother => exact absurd (hother.symm.trans hname) hnames
    | radial => rfl
    | focal _ hfocus =>
      rw [hx, hy] at hfocus
      exact hfocus.elim Bool.noConfusion Bool.noConfusion
  | focal hname hfocus hx hy =>
    cases h' with
    | linear hother => exact absurd (hother.symm.trans hname) hnames
    | radial _ hx' hy' =>
      rw [hx', hy'] at hfocus
      exact hfocus.elim Bool.noConfusion Bool.noConfusion
    | focal _ _ hx' hy' => rw [hx, hy, hx', hy']

theorem gradientPaint_eq_iff (h : isGradient e = true) :
    gradientPaint e stops = paint ↔ Paints e stops paint := by
  constructor
  · rintro rfl
    exact paints_gradientPaint h
  · exact (paints_gradientPaint h).unique

end

/-! ## Chains -/

section

variable (root e : Element)

theorem chain?_succ (n : Nat) : chain? root e (n + 1) = (chain? root e n).bind (referred? root) :=
  rfl

theorem chain?_add (m n : Nat) :
    chain? root e (m + n) = (chain? root e m).bind fun g => chain? root g n := by
  induction n with
  | zero => cases chain? root e m <;> rfl
  | succ n ih => rw [← Nat.add_assoc, chain?_succ, ih, Option.bind_assoc]; rfl

/-- A chain goes on as the chain of what its first element refers to. -/
theorem chain?_succ_eq (n : Nat) :
    chain? root e (n + 1) = (referred? root e).bind fun g => chain? root g n := by
  rw [Nat.add_comm, chain?_add]
  rfl

variable {root e}

/-- A chain that comes back to where it was runs in a circle from there on. -/
theorem chain?_of_circle {m n : Nat} (h : chain? root e m = chain? root e n) (k : Nat) :
    chain? root e (n + k) = chain? root e (m + k) := by
  rw [chain?_add, ← h, ← chain?_add]

/-- A circle without stops, and no stops on the way to it: there are none on the whole chain. -/
theorem stopElements_of_circle {m n : Nat} (hlt : m < n) (h : chain? root e m = chain? root e n)
    (hnone : ∀ k < n, ∀ g, chain? root e k = some g → stopElements g = []) (k : Nat) :
    ∀ g, chain? root e k = some g → stopElements g = [] := by
  induction k using Nat.strongRecOn with
  | ind k ih =>
    by_cases hk : k < n
    · exact hnone k hk
    · -- one turn of the circle earlier the chain is at the same element
      obtain ⟨i, rfl⟩ := Nat.exists_eq_add_of_le (Nat.le_of_not_lt hk)
      rw [chain?_of_circle h]
      exact ih (m + i) (by omega)

theorem filterMap_chain?_succ (n : Nat) :
    (List.range (n + 1)).filterMap (chain? root e) =
      e :: ((referred? root e).elim [] fun g => (List.range n).filterMap (chain? root g)) := by
  rw [List.range_succ_eq_map, List.filterMap_cons, List.filterMap_map]
  show e :: (List.range n).filterMap (fun k => chain? root e (k + 1)) = _
  simp only [chain?_succ_eq]
  cases referred? root e with
  | none => simp
  | some g => rfl

/-- Stops are those of the element itself, or else of what it refers to. -/
theorem stopsWithin_succ (n : Nat) :
    stopsWithin root e (n + 1) =
      if (stopElements e).isEmpty then (referred? root e).elim [] fun g => stopsWithin root g n
      else (stopElements e).map fun child => (readStop child).value := by
  rw [stopsWithin, filterMap_chain?_succ, List.find?_cons]
  cases (stopElements e).isEmpty with
  | false => rfl
  | true => cases referred? root e <;> rfl

theorem stopsWithin_eq_nil_iff (n : Nat) :
    stopsWithin root e n = [] ↔
      ∀ k < n, ∀ g, chain? root e k = some g → stopElements g = [] := by
  rw [stopsWithin]
  cases hfind : ((List.range n).filterMap (chain? root e)).find? fun g => !(stopElements g).isEmpty with
  | none =>
    refine iff_of_true rfl fun k hk g hchain => ?_
    have hg := List.find?_eq_none.1 hfind g (List.mem_filterMap.2 ⟨k, List.mem_range.2 hk, hchain⟩)
    simpa using hg
  | some g =>
    obtain ⟨k, hk, hchain⟩ := List.mem_filterMap.1 (List.mem_of_find?_eq_some hfind)
    have hstops : stopElements g ≠ [] := by simpa using List.find?_some hfind
    refine iff_of_false (by simpa using hstops) fun hnone => ?_
    exact hstops (hnone k (List.mem_range.1 hk) g hchain)

end

/-! ## Tables of a document -/

/-- What is found in a table of some elements under their keys: the first with the key. -/
theorem lookup_filterMap_map {α β : Type} (key : α → Option String) (made : α → β) (l : List α)
    (id : String) :
    (l.filterMap fun a => (key a).map (·, made a)).lookup id =
      (l.find? fun a => key a == some id).map made := by
  induction l with
  | nil => rfl
  | cons a l ih =>
    rw [List.filterMap_cons, List.find?_cons]
    cases hkey : key a with
    | none => exact ih
    | some k =>
      rw [Option.map_some, List.lookup_cons, ih, Option.some_beq_some, Bool.beq_comm]
      cases k == id <;> rfl

/-- The last one with the key, when the table is read from its end. -/
theorem lookup_reverse_filterMap_map {α β : Type} (key : α → Option String) (made : α → β)
    (l : List α) (id : String) :
    (l.filterMap fun a => (key a).map (·, made a)).reverse.lookup id =
      ((l.filter fun a => key a == some id).getLast?).map made := by
  rw [← List.filterMap_reverse, lookup_filterMap_map, List.getLast?_filter]

section

variable (root : Element)

theorem lookup_gradientElements (id : String) :
    (gradientElements root).reverse.lookup id =
      ((gradientsOf root).filter fun g => g.attribute? "id" == some id).getLast? := by
  have hlast := lookup_reverse_filterMap_map (·.attribute? "id") (fun e => e) (gradientsOf root) id
  rw [Option.map_id'] at hlast
  exact hlast

/-- The stops that are resolved are those of the chain. -/
theorem value_resolveStops (e : Element) (steps : Nat) :
    (resolveStops (gradientElements root) steps e).value = stopsWithin root e steps := by
  induction steps generalizing e with
  | zero => rfl
  | succ steps ih =>
    have hown : (ownStops e).value = (stopElements e).map fun child => (readStop child).value :=
      value_mapM _ _
    have hnext : ((gradientReference? e).bind fun id => (gradientElements root).reverse.lookup id) =
        referred? root e := by
      simp only [lookup_gradientElements]
      rfl
    rw [resolveStops, Noted.value_bind, hown, hnext, stopsWithin_succ, List.isEmpty_map]
    cases (stopElements e).isEmpty with
    | false => rfl
    | true =>
      cases referred? root e with
      | none => rfl
      | some g => exact ih g

/-- A gradient is defined under its identifier as it is written, when its chain has stops. -/
theorem paintEntries_eq :
    paintEntries root = (gradientsOf root).filterMap fun e =>
      (if (chainStops root e).isEmpty then none else e.attribute? "id").map
        (·, gradientPaint e (chainStops root e)) := by
  rw [paintEntries, gradientElements, List.filterMap_filterMap]
  congr 1
  funext e
  cases e.attribute? "id" with
  | none => simp
  | some id =>
    show paintOf? (gradientElements root) (id, e) = _
    rw [paintOf?, value_resolveStops]
    show (if (chainStops root e).isEmpty then none else some (id, _)) = _
    split <;> rfl

theorem gradient?_of_chains (id : String) :
    (define root).value.gradient? id =
      (((gradientsOf root).filter fun e =>
        e.attribute? "id" == some id && !(chainStops root e).isEmpty).getLast?).map
          fun e => gradientPaint e (chainStops root e) := by
  have hkey (e : Element) :
      ((if (chainStops root e).isEmpty then none else e.attribute? "id") == some id) =
        (e.attribute? "id" == some id && !(chainStops root e).isEmpty) := by
    cases (chainStops root e).isEmpty <;> simp
  rw [gradient?_define, paintEntries_eq, lookup_reverse_filterMap_map]
  simp only [hkey]

/-- Under an identifier the last gradient is found that has it and has stops, with the geometry of this
gradient (`Paints`). Its stops are those of the first gradient with any among the first eight of its chain;
there are none if the chain ends or runs in a circle before that. The references of the chain are those that
the gradients have (`RefersTo`). -/
theorem gradient?_eq_last :
    (∀ id, (define root).value.gradient? id =
      (((gradientsOf root).filter fun e =>
        e.attribute? "id" == some id && !(chainStops root e).isEmpty).getLast?).map
          fun e => gradientPaint e (chainStops root e)) ∧
    (∀ e, chainStops root e = [] ↔
      ∀ n < 8, ∀ g, chain? root e n = some g → stopElements g = []) ∧
    (∀ e m n, m < n → chain? root e m = chain? root e n →
      (∀ k < n, ∀ g, chain? root e k = some g → stopElements g = []) → chainStops root e = []) ∧
    (∀ e ∈ gradientsOf root, ∀ stops paint, gradientPaint e stops = paint ↔ Paints e stops paint) ∧
    ∀ e id, gradientReference? e = some id ↔ RefersTo e id := by
  refine ⟨gradient?_of_chains root, fun e => stopsWithin_eq_nil_iff 8, ?_, ?_,
    fun e id => gradientReference?_eq_some_iff⟩
  · intro e m n hlt h hnone
    exact (stopsWithin_eq_nil_iff 8).2 fun k _ => stopElements_of_circle hlt h hnone k
  · intro e he stops paint
    exact gradientPaint_eq_iff (List.mem_filter.1 he).2

end

/-- A stop. -/
def redStop : Element :=
  ⟨"stop", [⟨none, "stop-color", "red"⟩], []⟩

/-- A gradient of one stop. -/
def ownGradient : Element :=
  ⟨"radialGradient", [⟨none, "id", "fade"⟩], [redStop]⟩

/-- A gradient that refers to others in both ways, of which the first counts. -/
def linkedGradient : Element :=
  ⟨"linearGradient", [⟨none, "id", "shade"⟩, ⟨none, "href", "#forth"⟩,
    ⟨some linkSpace, "href", " #fade "⟩], []⟩

/-- A gradient without stops. -/
def emptyGradient (id reference : String) : Element :=
  ⟨"linearGradient", [⟨none, "id", id⟩, ⟨none, "href", reference⟩], []⟩

/-- One of two gradients without stops that refer to each other. -/
def forthGradient : Element :=
  emptyGradient "forth" "#back"

/-- Gradients of which two have the same identifier, the later of them without stops. -/
def gradientRing : Element :=
  ⟨"svg", [], [linkedGradient, forthGradient, emptyGradient "back" "#forth", ownGradient,
    emptyGradient "shade" "#forth"]⟩

theorem gradient?_eq_last_ring :
    (define gradientRing).value.gradient? "shade" =
        some (gradientPaint linkedGradient [(readStop redStop).value]) ∧
      (define gradientRing).value.gradient? "forth" = none ∧
      chain? gradientRing forthGradient 0 = chain? gradientRing forthGradient 2 ∧
      chainStops gradientRing forthGradient = [] ∧
      Paints linkedGradient [(readStop redStop).value]
        (gradientPaint linkedGradient [(readStop redStop).value]) ∧
      RefersTo linkedGradient "fade" := by
  have hcircle : chain? gradientRing forthGradient 0 = chain? gradientRing forthGradient 2 := rfl
  have hnone : ∀ k < 2, ∀ g, chain? gradientRing forthGradient k = some g → stopElements g = [] := by
    intro k hk
    obtain rfl | rfl : k = 0 ∨ k = 1 := by omega
    · rintro _ ⟨⟩
      rfl
    · rintro _ ⟨⟩
      rfl
  have hmem : linkedGradient ∈ gradientsOf gradientRing := List.mem_cons_self ..
  obtain ⟨hfound, -, hring, hpaint, hreference⟩ := gradient?_eq_last gradientRing
  exact ⟨(hfound "shade").trans rfl, (hfound "forth").trans rfl, hcircle,
    hring _ 0 2 (by decide) hcircle hnone, (hpaint linkedGradient hmem _ _).1 rfl,
    (hreference linkedGradient "fade").1 rfl⟩

end VectorIcon.Svg
