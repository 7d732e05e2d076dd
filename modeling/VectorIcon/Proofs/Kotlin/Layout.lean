import VectorIcon.Proofs.Kotlin.Faithful

/-!
# The layout of code

Indentation, the length of lines and trailing commas are no part of the program. Code in any layout has
the tokens of its icon (`reads_builderCode`), and without the commas before closing parentheses these are
the tokens in the bare layout (`withoutTrailingCommas_iconTokens`), which keeps only the way that colors
are named.

A comma is removed for what stands after it. So a part may be cleaned on its own when it does not end
with a comma, as no unit does (`withoutTrailingCommas_append`, `IsUnit.endsWithComma`).
-/

namespace VectorIcon.Kotlin

open Icon

/-- Tokens without the commas directly before a closing parenthesis. -/
def withoutTrailingCommas : List Token → List Token
  | [] => []
  | t :: ts =>
    if t = .mark ',' ∧ ts.head? = some (.mark ')') then withoutTrailingCommas ts
    else t :: withoutTrailingCommas ts

/-- What follows the tokens may change what is left of them. -/
def endsWithComma (ts : List Token) : Bool :=
  ts.getLast? == some (.mark ',')

/-- The layout with no trailing commas and no settings but the way that colors are named. -/
def Options.bare (o : Options) : Options :=
  { namedColors := o.namedColors, trailingCommas := false }

/-! ## Parts of tokens -/

section

variable {t : Token} {ts us u : List Token}

theorem withoutTrailingCommas_cons (h : t ≠ .mark ',') (ts : List Token) :
    withoutTrailingCommas (t :: ts) = t :: withoutTrailingCommas ts := by
  rw [withoutTrailingCommas, if_neg fun hcomma => h hcomma.1]

theorem withoutTrailingCommas_of_not_mem (h : .mark ',' ∉ ts) : withoutTrailingCommas ts = ts := by
  induction ts with
  | nil => rfl
  | cons t ts ih =>
    rw [List.mem_cons, not_or] at h
    rw [withoutTrailingCommas_cons (Ne.symm h.1), ih h.2]

theorem withoutTrailingCommas_append (h : endsWithComma ts = false) (us : List Token) :
    withoutTrailingCommas (ts ++ us) = withoutTrailingCommas ts ++ withoutTrailingCommas us := by
  induction ts with
  | nil => rfl
  | cons t ts ih =>
    cases ts with
    | nil =>
      have ht : t ≠ .mark ',' := by simpa [endsWithComma] using h
      rw [List.cons_append, withoutTrailingCommas_cons ht, withoutTrailingCommas_cons ht]
      rfl
    | cons s ts =>
      have hrest : endsWithComma (s :: ts) = false := by
        rwa [endsWithComma, List.getLast?_cons_cons] at h
      rw [List.cons_append, withoutTrailingCommas, withoutTrailingCommas, ih hrest]
      by_cases hcomma : t = .mark ',' ∧ s = .mark ')'
      · simp [hcomma]
      · simp [hcomma]

theorem endsWithComma_append (hts : endsWithComma ts = false) (hus : endsWithComma us = false) :
    endsWithComma (ts ++ us) = false := by
  unfold endsWithComma at *
  rw [List.getLast?_append]
  cases hlast : us.getLast? with
  | none => simpa using hts
  | some s => simpa [hlast] using hus

/-- A comma at the end of a unit would stand outside of all parentheses. -/
theorem IsUnit.endsWithComma (h : IsUnit ts) : endsWithComma ts = false := by
  rw [Bool.eq_false_iff]
  intro hcomma
  obtain ⟨vs, rfl⟩ := List.getLast?_eq_some_iff.1 (beq_iff_eq.1 hcomma)
  have hfold := h.2
  rw [List.foldlM_append] at hfold
  obtain ⟨n, -, hlast⟩ := Option.bind_eq_some_iff.1 hfold
  cases n <;> cases hlast

/-- The comma before a unit stays. -/
theorem withoutTrailingCommas_comma (hu : IsUnit u) (ts : List Token) :
    withoutTrailingCommas (.mark ',' :: (u ++ ts)) =
      .mark ',' :: (withoutTrailingCommas u ++ withoutTrailingCommas ts) := by
  have hhead : ¬ (Token.mark ',' = .mark ',' ∧ (u ++ ts).head? = some (.mark ')')) := by
    rintro ⟨-, hclose⟩
    obtain ⟨vs, hvs⟩ := List.head?_eq_some_iff.1 hclose
    exact hu.ne_close hvs.symm
  rw [withoutTrailingCommas, if_neg hhead, withoutTrailingCommas_append hu.endsWithComma]

theorem withoutTrailingCommas_furtherArguments {trailing : Bool} {l : List (List Token)}
    (hl : ∀ u ∈ l, IsUnit u) :
    withoutTrailingCommas (furtherArguments trailing l ++ [.mark ')']) =
      furtherArguments false (l.map withoutTrailingCommas) ++ [.mark ')'] := by
  induction l with
  | nil => cases trailing <;> decide
  | cons u l ih =>
    have hrest := ih fun v hv => hl v (List.mem_cons_of_mem _ hv)
    rw [furtherArguments, List.map_cons, furtherArguments, List.append_assoc, List.cons_append,
      withoutTrailingCommas_comma (hl u (List.mem_cons_self ..)), hrest, List.cons_append,
      List.cons_append, List.append_assoc]

/-- Arguments in parentheses lose their trailing comma. -/
theorem withoutTrailingCommas_arguments {trailing : Bool} {l : List (List Token)}
    (hl : ∀ u ∈ l, IsUnit u) :
    withoutTrailingCommas (arguments trailing l) =
      arguments false (l.map withoutTrailingCommas) := by
  have hopen : Token.mark '(' ≠ .mark ',' := by decide
  rw [arguments, arguments, List.cons_append, withoutTrailingCommas_cons hopen, List.cons_append]
  cases l with
  | nil => rfl
  | cons u l =>
    have hu := hl u (List.mem_cons_self ..)
    have hrest := @withoutTrailingCommas_furtherArguments trailing l
      fun v hv => hl v (List.mem_cons_of_mem _ hv)
    rw [separated, List.map_cons, separated, List.append_assoc, List.append_assoc,
      withoutTrailingCommas_append hu.endsWithComma, hrest]

theorem withoutTrailingCommas_call {name : String} {trailing : Bool} {l : List (List Token)}
    (hl : ∀ u ∈ l, IsUnit u) :
    withoutTrailingCommas (.word name :: arguments trailing l) =
      .word name :: arguments false (l.map withoutTrailingCommas) := by
  have hword : Token.word name ≠ .mark ',' := nofun
  rw [withoutTrailingCommas_cons hword, withoutTrailingCommas_arguments hl]

theorem withoutTrailingCommas_flatMap {α : Type} {f : α → List Token}
    (hf : ∀ a, endsWithComma (f a) = false) (l : List α) :
    withoutTrailingCommas (l.flatMap f) = l.flatMap fun a => withoutTrailingCommas (f a) := by
  induction l with
  | nil => rfl
  | cons a l ih =>
    rw [List.flatMap_cons, List.flatMap_cons, withoutTrailingCommas_append (hf a), ih]

end

/-! ## Named arguments -/

/-- A named argument in the bare layout. -/
def Field.bare (f : Field) : Field :=
  ⟨f.label, f.value.map withoutTrailingCommas⟩

theorem withoutTrailingCommas_fieldTokens (l : List Field) :
    (fieldTokens l).map withoutTrailingCommas = fieldTokens (l.map Field.bare) := by
  induction l with
  | nil => rfl
  | cons f l ih =>
    have hword : Token.word f.label ≠ .mark ',' := nofun
    have hequals : Token.mark '=' ≠ .mark ',' := by decide
    have hf : f.tokens.map withoutTrailingCommas = f.bare.tokens := by
      cases hvalue : f.value with
      | none => simp [Field.tokens, Field.bare, hvalue]
      | some ts =>
        simp [Field.tokens, Field.bare, hvalue, withoutTrailingCommas_cons hword,
          withoutTrailingCommas_cons hequals]
    unfold fieldTokens at ih ⊢
    rw [List.flatMap_cons, List.map_append, hf, ih, List.map_cons, List.flatMap_cons]

theorem bare_givenUnless {label : String} {ts us : List Token} (b : Bool)
    (h : withoutTrailingCommas ts = us) :
    Field.bare ⟨label, givenUnless b ts⟩ = ⟨label, givenUnless b us⟩ := by
  cases b with
  | true => rfl
  | false => rw [← h]; rfl

theorem bare_map {α : Type} {label : String} {f g : α → List Token} (o : Option α)
    (h : ∀ a, withoutTrailingCommas (f a) = g a) :
    Field.bare ⟨label, o.map f⟩ = ⟨label, o.map g⟩ := by
  cases o with
  | none => rfl
  | some a => rw [Option.map_some, Option.map_some, ← h a]; rfl

/-! ## Numbers and colors -/

theorem withoutTrailingCommas_numberTokens (v : Float) :
    withoutTrailingCommas (numberTokens v) = numberTokens v := by
  refine withoutTrailingCommas_of_not_mem ?_
  rcases numberTokens_cases v with h | ⟨w, h, -⟩ <;> simp [h]

theorem withoutTrailingCommas_colorTokens (named : Bool) (c : Color) :
    withoutTrailingCommas (colorTokens named c) = colorTokens named c := by
  refine withoutTrailingCommas_of_not_mem ?_
  unfold colorTokens
  split
  · split <;> simp
  · simp

theorem bare_numberField (label : String) (v d : Float) :
    (numberField label v d).bare = numberField label v d :=
  bare_givenUnless (v == d) (withoutTrailingCommas_numberTokens v)

/-! ## Paints -/

theorem withoutTrailingCommas_pointTokens (p : Point) :
    withoutTrailingCommas (pointTokens p) = pointTokens p := by
  rw [pointTokens, withoutTrailingCommas_call (isUnit_coordinate p)]
  simp [withoutTrailingCommas_numberTokens]

section

variable (options : Options)

theorem withoutTrailingCommas_stopTokens (s : Stop) :
    withoutTrailingCommas (stopTokens options s) = stopTokens options.bare s := by
  have hword : Token.word "to" ≠ .mark ',' := nofun
  rw [stopTokens, withoutTrailingCommas_append (isUnit_numberTokens s.offset).endsWithComma,
    withoutTrailingCommas_cons hword, withoutTrailingCommas_numberTokens,
    withoutTrailingCommas_colorTokens]
  rfl

theorem withoutTrailingCommas_stopsTokens (stops : List Stop) :
    withoutTrailingCommas (stopsTokens options stops) = stopsTokens options.bare stops := by
  have hunits := isUnit_of_mem_map (isUnit_stopTokens options) stops
  rw [stopsTokens, withoutTrailingCommas_call hunits, List.map_map]
  have hstops : withoutTrailingCommas ∘ stopTokens options = stopTokens options.bare :=
    funext (withoutTrailingCommas_stopTokens options)
  rw [hstops]
  rfl

theorem withoutTrailingCommas_brushTokens {name : String} {fields : List Field}
    (h : HasUnits fields) : withoutTrailingCommas (brushTokens options name fields) =
      brushTokens options.bare name (fields.map Field.bare) := by
  have hbrush : Token.word "Brush" ≠ .mark ',' := nofun
  have hdot : Token.mark '.' ≠ .mark ',' := by decide
  rw [brushTokens, withoutTrailingCommas_cons hbrush, withoutTrailingCommas_cons hdot,
    withoutTrailingCommas_call h.isUnit, withoutTrailingCommas_fieldTokens]
  rfl

theorem withoutTrailingCommas_paintTokens (paint : Paint) :
    withoutTrailingCommas (paintTokens options paint) = paintTokens options.bare paint := by
  cases paint with
  | solid color =>
    rw [paintTokens, withoutTrailingCommas_call (isUnit_colorArgument options color),
      List.map_singleton, withoutTrailingCommas_colorTokens]
    rfl
  | linear start finish stops =>
    rw [paintTokens, withoutTrailingCommas_brushTokens options (hasUnits_linearFields ..)]
    simp [linearFields, Field.bare, withoutTrailingCommas_stopsTokens,
      withoutTrailingCommas_pointTokens, paintTokens]
  | radial center radius focus stops =>
    rw [paintTokens, withoutTrailingCommas_brushTokens options (hasUnits_radialFields ..)]
    simp [radialFields, Field.bare, withoutTrailingCommas_stopsTokens,
      withoutTrailingCommas_pointTokens, withoutTrailingCommas_numberTokens, paintTokens]

end

/-! ## Commands -/

theorem withoutTrailingCommas_argumentListTokens (c : Path.Command Float) :
    withoutTrailingCommas (argumentListTokens c) = argumentListTokens c := by
  have hargument (a : Path.Argument Float) :
      withoutTrailingCommas (argumentTokens a) = argumentTokens a := by
    cases a with
    | number v => exact withoutTrailingCommas_numberTokens v
    | flag b => rfl
  rw [argumentListTokens, withoutTrailingCommas_arguments (isUnit_argument c), List.map_map]
  exact congrArg (arguments false) (List.map_congr_left fun a _ => hargument a)

theorem withoutTrailingCommas_callTokens (c : Path.Command Float) :
    withoutTrailingCommas (callTokens c) = callTokens c := by
  have hword : Token.word (callName c.letter) ≠ .mark ',' := nofun
  rw [callTokens, withoutTrailingCommas_cons hword, withoutTrailingCommas_argumentListTokens]

theorem withoutTrailingCommas_entryTokens (c : Path.Command Float) :
    withoutTrailingCommas (entryTokens c) = entryTokens c := by
  have hword (s : String) : Token.word s ≠ .mark ',' := nofun
  have hdot : Token.mark '.' ≠ .mark ',' := by decide
  rw [entryTokens, withoutTrailingCommas_cons (hword _), withoutTrailingCommas_cons hdot,
    withoutTrailingCommas_cons (hword _)]
  split
  · rfl
  · rw [withoutTrailingCommas_argumentListTokens]

theorem withoutTrailingCommas_clipTokens (clip : List (Path.Command Float)) :
    withoutTrailingCommas (clipTokens clip) = clipTokens clip := by
  rw [clipTokens, withoutTrailingCommas_call (isUnit_entry clip), List.map_map]
  have hentries : withoutTrailingCommas ∘ entryTokens = entryTokens :=
    funext withoutTrailingCommas_entryTokens
  rw [hentries]

/-! ## Blocks -/

theorem withoutTrailingCommas_blockTokens (options : Options) {name : String}
    {args : List (List Token)} {body : List Token} (hargs : ∀ u ∈ args, IsUnit u)
    (hbody : endsWithComma body = false) :
    withoutTrailingCommas (blockTokens options name args body) =
      blockTokens options.bare name (args.map withoutTrailingCommas)
        (withoutTrailingCommas body) := by
  have hname : Token.word name ≠ .mark ',' := nofun
  have hopen : Token.mark '{' ≠ .mark ',' := by decide
  have hhead : endsWithComma (headTokens options args) = false ∧
      withoutTrailingCommas (headTokens options args) =
        headTokens options.bare (args.map withoutTrailingCommas) := by
    unfold headTokens
    cases args with
    | nil => exact ⟨rfl, rfl⟩
    | cons u args =>
      exact ⟨(isUnit_arguments hargs).endsWithComma, withoutTrailingCommas_arguments hargs⟩
  rw [blockTokens, List.cons_append, withoutTrailingCommas_cons hname,
    withoutTrailingCommas_append hhead.1, hhead.2, withoutTrailingCommas_cons hopen,
    withoutTrailingCommas_append hbody]
  rfl

theorem endsWithComma_blockTokens (options : Options) (name : String) (args : List (List Token))
    (body : List Token) : endsWithComma (blockTokens options name args body) = false := by
  rw [blockTokens, ← List.cons_append, ← List.append_assoc, endsWithComma, List.getLast?_concat]
  decide

theorem endsWithComma_flatMap {α : Type} {f : α → List Token}
    (hf : ∀ a, endsWithComma (f a) = false) (l : List α) : endsWithComma (l.flatMap f) = false := by
  induction l with
  | nil => rfl
  | cons a l ih => exact endsWithComma_append (hf a) ih

section

variable (options : Options)

theorem bare_outlineFields (o : Outline) :
    (outlineFields options o).map Field.bare = outlineFields options.bare o := by
  have hconstant (className name : String) :
      withoutTrailingCommas (constantTokens className name) = constantTokens className name := by
    refine withoutTrailingCommas_of_not_mem ?_
    simp [constantTokens]
  simp only [outlineFields, List.map_cons, List.map_nil, bare_numberField,
    bare_map _ (withoutTrailingCommas_paintTokens options), bare_givenUnless _ (hconstant _ _)]

theorem bare_placementFields (p : Placement) :
    (placementFields p).map Field.bare = placementFields p := by
  have hname (name : String) : withoutTrailingCommas [.literal name] = [.literal name] := rfl
  simp only [placementFields, List.map_cons, List.map_nil, bare_numberField,
    bare_map _ hname, bare_givenUnless _ (withoutTrailingCommas_clipTokens p.clip)]

theorem withoutTrailingCommas_outlineTokens (o : Outline) :
    withoutTrailingCommas (outlineTokens options o) = outlineTokens options.bare o := by
  have hcalls (c : Path.Command Float) : endsWithComma (callTokens c) = false :=
    (isUnit_call (isUnit_argument c)).endsWithComma
  rw [outlineTokens, withoutTrailingCommas_blockTokens options
    (hasUnits_outlineFields options o).isUnit (endsWithComma_flatMap hcalls _),
    withoutTrailingCommas_fieldTokens, bare_outlineFields, withoutTrailingCommas_flatMap hcalls]
  simp only [withoutTrailingCommas_callTokens]
  rfl

theorem endsWithComma_nodeTokens (node : Node) :
    endsWithComma (nodeTokens options node) = false := by
  cases node with
  | path o => rw [nodeTokens, outlineTokens]; exact endsWithComma_blockTokens ..
  | group p children => rw [nodeTokens]; exact endsWithComma_blockTokens ..

theorem endsWithComma_nodesTokens (nodes : List Node) :
    endsWithComma (nodesTokens options nodes) = false := by
  rw [nodesTokens_eq_flatMap]
  exact endsWithComma_flatMap (endsWithComma_nodeTokens options) nodes

end

mutual

theorem withoutTrailingCommas_nodeTokens (options : Options) (node : Node) :
    withoutTrailingCommas (nodeTokens options node) = nodeTokens options.bare node := by
  cases node with
  | path o =>
    rw [nodeTokens, nodeTokens]
    exact withoutTrailingCommas_outlineTokens options o
  | group p children =>
    rw [nodeTokens, nodeTokens, withoutTrailingCommas_blockTokens options
      (hasUnits_placementFields p).isUnit (endsWithComma_nodesTokens options children),
      withoutTrailingCommas_fieldTokens, bare_placementFields,
      withoutTrailingCommas_nodesTokens options children]

theorem withoutTrailingCommas_nodesTokens (options : Options) (nodes : List Node) :
    withoutTrailingCommas (nodesTokens options nodes) = nodesTokens options.bare nodes := by
  cases nodes with
  | nil =>
    rw [nodesTokens, nodesTokens]
    rfl
  | cons node rest =>
    rw [nodesTokens, nodesTokens,
      withoutTrailingCommas_append (endsWithComma_nodeTokens options node),
      withoutTrailingCommas_nodeTokens options node, withoutTrailingCommas_nodesTokens options rest]

end

/-! ## Icons -/

section

variable (options : Options) (icon : Icon)

theorem bare_iconFields :
    (iconFields options icon).map Field.bare = iconFields options.bare icon := by
  have hsize (v : Float) : withoutTrailingCommas (sizeTokens v) = sizeTokens v := by
    rw [sizeTokens, withoutTrailingCommas_append (isUnit_numberTokens v).endsWithComma,
      withoutTrailingCommas_numberTokens]
    rfl
  have hgiven {label : String} {ts : List Token} (h : withoutTrailingCommas ts = ts) :
      Field.bare ⟨label, some ts⟩ = ⟨label, some ts⟩ :=
    bare_givenUnless false h
  have hmirror : withoutTrailingCommas [.word "true"] = [.word "true"] := rfl
  have hname : withoutTrailingCommas [.literal icon.name] = [.literal icon.name] := rfl
  simp only [iconFields, List.map_cons, List.map_nil, hgiven hname, hgiven (hsize _),
    hgiven (withoutTrailingCommas_numberTokens _),
    bare_map _ (withoutTrailingCommas_colorTokens options.namedColors), bare_givenUnless _ hmirror]
  rfl

/-- Without trailing commas the tokens of an icon are those in the bare layout. -/
theorem withoutTrailingCommas_iconTokens :
    withoutTrailingCommas (iconTokens options icon) = iconTokens options.bare icon := by
  have hword (s : String) : Token.word s ≠ .mark ',' := nofun
  have hdot : Token.mark '.' ≠ .mark ',' := by decide
  have hopen : Token.mark '{' ≠ .mark ',' := by decide
  have happly : withoutTrailingCommas (applyTokens (nodesTokens options icon.nodes)) =
      applyTokens (nodesTokens options.bare icon.nodes) := by
    rw [applyTokens, withoutTrailingCommas_cons hdot, withoutTrailingCommas_cons (hword _),
      withoutTrailingCommas_cons hopen,
      withoutTrailingCommas_append (endsWithComma_nodesTokens options icon.nodes),
      withoutTrailingCommas_nodesTokens]
    rfl
  have hunits := (hasUnits_iconFields options icon).isUnit
  rw [iconTokens, withoutTrailingCommas_cons (hword _), withoutTrailingCommas_cons hdot,
    withoutTrailingCommas_cons (hword _),
    withoutTrailingCommas_append (isUnit_arguments hunits).endsWithComma,
    withoutTrailingCommas_arguments hunits, withoutTrailingCommas_fieldTokens, bare_iconFields,
    happly]
  rfl

end

/-- Layouts that name colors in one way give the same program: the same tokens, but for commas before a
closing parenthesis, and the same imports. -/
theorem sameProgram_of_namedColors_eq {o o' : Options} (h : o.namedColors = o'.namedColors)
    (icon : Icon) :
    withoutTrailingCommas (tokensOf (generate o (.ofEntries []) icon).code) =
        withoutTrailingCommas (tokensOf (generate o' (.ofEntries []) icon).code) ∧
      (generate o (.ofEntries []) icon).imports = (generate o' (.ofEntries []) icon).imports := by
  have hbare : o.bare = o'.bare := by
    unfold Options.bare
    rw [h]
  have htokens (o : Options) : withoutTrailingCommas (tokensOf (generate o (.ofEntries []) icon).code) =
      iconTokens o.bare icon := by
    show withoutTrailingCommas (tokensOf (builderCode o (.ofEntries []) icon)) = _
    rw [(reads_builderCode o icon).1, withoutTrailingCommas_iconTokens]
  refine ⟨?_, rfl⟩
  rw [htokens o, htokens o', hbare]

/-- A layout in which a clip takes many lines. -/
def narrow : Options :=
  { indentSize := 4, maxLineLength := 40, trailingCommas := false }

theorem sameProgram_disc_narrow :
    Options.namedColors {} = narrow.namedColors ∧
      (generate {} (.ofEntries []) (disc none 1 none)).code ≠
        (generate narrow (.ofEntries []) (disc none 1 none)).code ∧
      withoutTrailingCommas (tokensOf (generate {} (.ofEntries []) (disc none 1 none)).code) =
        withoutTrailingCommas (tokensOf (generate narrow (.ofEntries []) (disc none 1 none)).code) ∧
      (generate {} (.ofEntries []) (disc none 1 none)).imports =
        (generate narrow (.ofEntries []) (disc none 1 none)).imports :=
  ⟨rfl, by decide +kernel, @sameProgram_of_namedColors_eq {} narrow rfl (disc none 1 none)⟩

end VectorIcon.Kotlin
