import VectorIcon.Proofs.Color.Argb
import VectorIcon.Proofs.Fallible
import VectorIcon.Proofs.Text.Blank
import VectorIcon.Template.Multicolor

/-!
# When a table of colors is used, and what it replaces

A multicolor template is used for an icon when a key of its table is among the keys of the icon's colors;
the code is then written again with the colors of the table's keys replaced. The keys of a color and the
color of a key do not correspond one to one:

1. A key of six digits stands for a solid color, but it is also a key of every color that differs from
   the solid one in its alpha channel only (`Color.shortKey`, `Mappings.isShaded`).
2. A key of eight digits may stand for a solid color, but an icon lists solid colors under six digits
   (`Mappings.replacesListed`).

So `multicolor_selection` has a condition that is enough and one that is needed. They are the same but for
solid colors that only have a key of eight digits. What a template makes of its variables is a parameter
here (`Rendering`), so the two hold for any language that templates are written in; `renderMulticolor` is
`renderMapped` with `renderAll`.
-/

namespace VectorIcon.Template

open Text

/-! ## Solid colors -/

/-- A word of six digits under a full alpha channel. -/
theorem toNat_solid {word : UInt32} (h : word.toNat < 16 ^ 6) :
    ((0xFF000000 : UInt32) ||| word).toNat = 255 * 16 ^ 6 + word.toNat := by
  have hor := Nat.shiftLeft_add_eq_or_of_lt (i := 24) h 255
  have hpow : 2 ^ 24 = 16 ^ 6 := rfl
  rw [UInt32.toNat_or, show (0xFF000000 : UInt32).toNat = 255 <<< 24 from rfl, ← hor,
    Nat.shiftLeft_eq, hpow]

theorem isSolid_solid {word : UInt32} (h : word.toNat < 16 ^ 6) :
    Color.isSolid ⟨0xFF000000 ||| word⟩ = true := by
  rw [Color.isSolid_iff, toNat_solid h]
  omega

/-! ## The color of a key -/

/-- The color of a mark and some digits. -/
theorem keyColor?_hexDigits (width n : Nat) :
    keyColor? ("#" ++ String.ofList (Color.hexDigits width n)) =
      if width = 6 then
        some ("#" ++ Color.hexText 6 (UInt32.ofNat (n % 16 ^ width)),
          ⟨0xFF000000 ||| UInt32.ofNat (n % 16 ^ width)⟩)
      else if width = 8 then
        some ("#" ++ Color.hexText 8 (UInt32.ofNat (n % 16 ^ width)), ⟨UInt32.ofNat (n % 16 ^ width)⟩)
      else none := by
  have htrim : trim ("#" ++ String.ofList (Color.hexDigits width n)).toList =
      '#' :: Color.hexDigits width n := by
    rw [String.toList_append, String.toList_ofList, String.toList_ofList]
    show trim ('#' :: Color.hexDigits width n) = '#' :: Color.hexDigits width n
    refine trim_of_isTrimmed (isTrimmed_of_forall fun c hc => ?_)
    rcases List.mem_cons.1 hc with rfl | hc
    · decide
    · have hall : ∀ d : Fin 16, isBlank (Color.hexDigit d.val) = false := by decide
      obtain ⟨d, rfl⟩ := Color.exists_hexDigit_of_mem hc
      exact hall d
  have hafter : after? ['#'] ('#' :: Color.hexDigits width n) = some (Color.hexDigits width n) := by
    simp [after?]
  unfold keyColor?
  rw [htrim, hafter]
  simp only [Option.bind_eq_bind, Option.bind_some, Color.hexNumber?_hexDigits,
    Color.length_hexDigits]
  rfl

/-- A word under a full alpha channel keeps its last six digits. -/
theorem shortKey_solid {word : UInt32} (h : word.toNat < 16 ^ 6) :
    Color.shortKey ⟨0xFF000000 ||| word⟩ = "#" ++ Color.hexText 6 word := by
  rw [Color.shortKey, Color.hexText_eq_iff.2]
  rw [toNat_solid h]
  omega

theorem keyColor?_longKey (c : Color) : keyColor? c.longKey = some (c.longKey, c) := by
  have hword : UInt32.ofNat (c.argb.toNat % 16 ^ 8) = c.argb := by
    have hlt : c.argb.toNat < 16 ^ 8 := c.argb.toNat_lt
    rw [Nat.mod_eq_of_lt hlt, UInt32.ofNat_toNat]
  rw [Color.longKey, Color.hexText, keyColor?_hexDigits, if_neg (by decide), if_pos rfl, hword]
  rfl

theorem keyColor?_shortKey {c : Color} (h : c.isSolid = true) :
    keyColor? c.shortKey = some (c.shortKey, c) := by
  have hlt : c.argb.toNat % 16 ^ 6 < 16 ^ 6 := Nat.mod_lt _ (by decide)
  have hnat : (UInt32.ofNat (c.argb.toNat % 16 ^ 6)).toNat = c.argb.toNat % 16 ^ 6 :=
    UInt32.toNat_ofNat_of_lt' (by rw [UInt32.size]; omega)
  have hword : (0xFF000000 : UInt32) ||| UInt32.ofNat (c.argb.toNat % 16 ^ 6) = c.argb := by
    rw [← UInt32.toNat_inj, toNat_solid (by rw [hnat]; exact hlt), hnat]
    have := (Color.isSolid_iff c).1 h
    omega
  have hkey : Color.shortKey ⟨0xFF000000 ||| UInt32.ofNat (c.argb.toNat % 16 ^ 6)⟩ = _ :=
    shortKey_solid (by rw [hnat]; exact hlt)
  rw [hword] at hkey
  rw [Color.shortKey, Color.hexText, keyColor?_hexDigits, if_pos rfl, hword, ← hkey]
  rfl

/-- A key is written as a key of its color, and one of six digits is for a solid color. -/
theorem keyColor?_cases {key normal : String} {c : Color} (h : keyColor? key = some (normal, c)) :
    normal = c.longKey ∨ (c.isSolid = true ∧ normal = c.shortKey) := by
  unfold keyColor? at h
  simp only [Option.bind_eq_bind, Option.bind_eq_some_iff] at h
  obtain ⟨digits, -, n, hn, hif⟩ := h
  split at hif
  · next hlen =>
    have hlt := Color.hexNumber?_lt hn
    rw [hlen] at hlt
    have hnat : (UInt32.ofNat n).toNat = n :=
      UInt32.toNat_ofNat_of_lt' (by rw [UInt32.size]; omega)
    cases hif
    exact .inr ⟨isSolid_solid (by rw [hnat]; exact hlt), (shortKey_solid (by rw [hnat]; exact hlt)).symm⟩
  split at hif
  · cases hif
    exact .inl rfl
  · cases hif

/-- The key of a color stands for itself and for that color. -/
theorem keyColor?_idem {key normal : String} {c : Color} (h : keyColor? key = some (normal, c)) :
    keyColor? normal = some (normal, c) := by
  rcases keyColor?_cases h with rfl | ⟨hsolid, rfl⟩
  · exact keyColor?_longKey c
  · exact keyColor?_shortKey hsolid

/-! ## The keys of a table -/

/-- The table has a mapping under the key. -/
def Mappings.hasKey (m : Mappings) (key : String) : Bool :=
  (m.map Prod.fst).contains key

/-- The color is replaced when the code is written with the overrides of the table. -/
def Mappings.replaces (m : Mappings) (c : Color) : Bool :=
  ((Kotlin.Overrides.ofEntries m.overrides).lookup c).isSome

/-- Every key is written as its color writes it. -/
def Mappings.IsNormal (m : Mappings) : Prop :=
  ∀ key ∈ m.map Prod.fst, ∃ c, keyColor? key = some (key, c)

theorem Mappings.mem_keys_insert {m : Mappings} {key : String} {mapping : Mapping} {k : String} :
    k ∈ (Mappings.insert key mapping m).map Prod.fst ↔ k = key ∨ k ∈ m.map Prod.fst := by
  induction m with
  | nil => rw [Mappings.insert, List.map_cons, List.mem_cons]
  | cons entry rest ih =>
    rw [Mappings.insert]
    split
    · next h => rw [List.map_cons, List.mem_cons, List.map_cons, List.mem_cons, h, or_self_left]
    · rw [List.map_cons, List.mem_cons, ih, List.map_cons, List.mem_cons, or_left_comm]

theorem Mappings.isNormal_insert {m : Mappings} {key : String} {c : Color} (mapping : Mapping)
    (hm : m.IsNormal) (hkey : keyColor? key = some (key, c)) :
    (Mappings.insert key mapping m).IsNormal := by
  intro k hk
  rcases Mappings.mem_keys_insert.1 hk with rfl | hk
  · exact ⟨c, hkey⟩
  · exact hm k hk

theorem Mappings.keyColor?_of_entry? {table key : Value} {normal : String} {mapping : Mapping}
    (h : Mappings.entry? table key = some (normal, mapping)) :
    ∃ c, keyColor? normal = some (normal, c) := by
  simp only [Mappings.entry?, Option.bind_eq_bind, Option.bind_eq_some_iff] at h
  obtain ⟨text, -, ⟨normal', c⟩, hkey, entry, -, mapping', -, heq⟩ := h
  cases heq
  exact ⟨c, keyColor?_idem hkey⟩

theorem Mappings.isNormal_ofValue (table : Value) : (Mappings.ofValue table).IsNormal := by
  have hfold : ∀ (entries : List (String × Mapping)) (m : Mappings), m.IsNormal →
      (∀ entry ∈ entries, ∃ c, keyColor? entry.1 = some (entry.1, c)) →
      (entries.foldl (fun m entry => Mappings.insert entry.1 entry.2 m) m).IsNormal := by
    intro entries
    induction entries with
    | nil =>
      intro m hm _
      exact hm
    | cons entry rest ih =>
      intro m hm hentries
      obtain ⟨c, hc⟩ := hentries entry (List.mem_cons_self ..)
      exact ih _ (Mappings.isNormal_insert entry.2 hm hc) fun e he =>
        hentries e (List.mem_cons_of_mem _ he)
  refine hfold _ [] (fun key hkey => by cases hkey) ?_
  intro entry hentry
  obtain ⟨key, -, heq⟩ := List.mem_filterMap.1 hentry
  exact Mappings.keyColor?_of_entry? heq

theorem Mappings.hasKey_iff {m : Mappings} {key : String} :
    m.hasKey key = true ↔ key ∈ m.map Prod.fst :=
  List.contains_iff_mem

theorem lookup_isSome_iff {entries : List (Color × String)} {c : Color} :
    (entries.lookup c).isSome = true ↔ c ∈ entries.map Prod.fst := by
  induction entries with
  | nil => simp
  | cons entry rest ih =>
    by_cases h : c = entry.1
    · rw [List.lookup_cons, h, beq_self_eq_true, List.map_cons]
      simp
    · rw [List.lookup_cons, beq_false_of_ne h, List.map_cons, List.mem_cons]
      simp only [h, false_or]
      exact ih

/-- The colors that are replaced are the colors of the keys. -/
theorem Mappings.replaces_iff_keyColor? {m : Mappings} (hm : m.IsNormal) {c : Color} :
    m.replaces c = true ↔ ∃ key ∈ m.map Prod.fst, keyColor? key = some (key, c) := by
  rw [Mappings.replaces, lookup_isSome_iff, Kotlin.Overrides.ofEntries, List.map_reverse,
    List.mem_reverse, Mappings.overrides]
  constructor
  · intro h
    obtain ⟨⟨c', text⟩, hmem, rfl⟩ := List.mem_map.1 h
    obtain ⟨entry, hentry, hmap⟩ := List.mem_filterMap.1 hmem
    obtain ⟨⟨normal, color⟩, hkey, heq⟩ := Option.map_eq_some_iff.1 hmap
    have hmemkey := List.mem_map_of_mem (f := Prod.fst) hentry
    obtain ⟨color', hkey'⟩ := hm entry.1 hmemkey
    rw [hkey] at hkey'
    cases heq
    cases hkey'
    exact ⟨entry.1, hmemkey, hkey⟩
  · rintro ⟨key, hmem, hkey⟩
    obtain ⟨entry, hentry, rfl⟩ := List.mem_map.1 hmem
    refine List.mem_map.2 ⟨(c, entry.2.substitution), List.mem_filterMap.2 ⟨entry, hentry, ?_⟩, rfl⟩
    rw [hkey]
    rfl

/-- The colors that are replaced: those with a key of eight digits, and the solid ones also with a key
of six. -/
theorem Mappings.replaces_iff {m : Mappings} (hm : m.IsNormal) {c : Color} :
    m.replaces c = true ↔
      m.hasKey c.longKey = true ∨ (c.isSolid = true ∧ m.hasKey c.shortKey = true) := by
  rw [Mappings.replaces_iff_keyColor? hm, Mappings.hasKey_iff, Mappings.hasKey_iff]
  constructor
  · rintro ⟨key, hkey, hcolor⟩
    rcases keyColor?_cases hcolor with rfl | ⟨hsolid, rfl⟩
    · exact .inl hkey
    · exact .inr ⟨hsolid, hkey⟩
  · rintro (hkey | ⟨hsolid, hkey⟩)
    · exact ⟨_, hkey, keyColor?_longKey c⟩
    · exact ⟨_, hkey, keyColor?_shortKey hsolid⟩

/-! ## Selection -/

theorem mem_palette_iff {icon : Icon} {key : String} :
    key ∈ icon.palette ↔ ∃ c ∈ icon.colors, key ∈ c.keys := by
  rw [Icon.palette, sortedSet, List.mem_eraseDups, List.mem_mergeSort, List.mem_flatMap]

theorem mem_keys_iff {c : Color} {key : String} :
    key ∈ c.keys ↔ key = c.shortKey ∨ (c.isSolid = false ∧ key = c.longKey) := by
  rw [Color.keys]
  cases h : c.isSolid with
  | true => simp
  | false => simp

/-- The template is used for an icon with a color one of whose keys is in the table. -/
theorem usesKey_iff {icon : Icon} {m : Mappings} (hm : m.IsNormal) :
    usesKey icon (m.map Prod.fst) = true ↔ ∃ c ∈ icon.colors,
      m.hasKey c.shortKey = true ∨ (c.isSolid = false ∧ m.hasKey c.longKey = true) := by
  have hkeys : usesKey icon (m.map Prod.fst) = true ↔ ∃ key ∈ m.map Prod.fst, key ∈ icon.palette := by
    rw [usesKey, List.any_eq_true]
    refine exists_congr fun key => and_congr_right fun hkey => ?_
    obtain ⟨c, hc⟩ := hm key hkey
    rw [hc, Option.any_some, List.contains_iff_mem]
  rw [hkeys]
  constructor
  · rintro ⟨key, hkey, hpalette⟩
    obtain ⟨c, hc, hmem⟩ := mem_palette_iff.1 hpalette
    refine ⟨c, hc, ?_⟩
    rcases mem_keys_iff.1 hmem with rfl | ⟨hshade, rfl⟩
    · exact .inl (Mappings.hasKey_iff.2 hkey)
    · exact .inr ⟨hshade, Mappings.hasKey_iff.2 hkey⟩
  · rintro ⟨c, hc, hkey | ⟨hshade, hkey⟩⟩
    · exact ⟨c.shortKey, Mappings.hasKey_iff.1 hkey,
        mem_palette_iff.2 ⟨c, hc, mem_keys_iff.2 (.inl rfl)⟩⟩
    · exact ⟨c.longKey, Mappings.hasKey_iff.1 hkey,
        mem_palette_iff.2 ⟨c, hc, mem_keys_iff.2 (.inr ⟨hshade, rfl⟩)⟩⟩

/-- The color is not solid, but the table has a key for it without its alpha channel. -/
def Mappings.isShaded (m : Mappings) (c : Color) : Bool :=
  !c.isSolid && m.hasKey c.shortKey

/-- The color is replaced under a key that an icon lists for it: six digits for a solid color. -/
def Mappings.replacesListed (m : Mappings) (c : Color) : Bool :=
  m.replaces c && (!c.isSolid || m.hasKey c.shortKey)

/-- A color that is replaced under a key of its own, or that has one of the table without its alpha channel,
makes an icon use the table. -/
theorem usesKey_of_mem {icon : Icon} {m : Mappings} (hm : m.IsNormal) {c : Color} (hc : c ∈ icon.colors)
    (h : m.replacesListed c = true ∨ m.isShaded c = true) : usesKey icon (m.map Prod.fst) = true := by
  refine (usesKey_iff hm).2 ⟨c, hc, ?_⟩
  simp only [Mappings.replacesListed, Mappings.isShaded, Bool.and_eq_true, Bool.or_eq_true,
    Bool.not_eq_true', m.replaces_iff hm] at h
  rcases h with ⟨hlong | ⟨-, hshort⟩, hshade | hshort'⟩ | ⟨-, hshort⟩
  · exact .inr ⟨hshade, hlong⟩
  · exact .inl hshort'
  · exact .inl hshort
  · exact .inl hshort
  · exact .inl hshort

/-- An icon uses a table only for a color that is replaced, or that has a key without its alpha channel. -/
theorem exists_of_usesKey {icon : Icon} {m : Mappings} (hm : m.IsNormal)
    (h : usesKey icon (m.map Prod.fst) = true) :
    ∃ c ∈ icon.colors, m.replaces c = true ∨ m.isShaded c = true := by
  obtain ⟨c, hc, hkey⟩ := (usesKey_iff hm).1 h
  refine ⟨c, hc, ?_⟩
  rw [m.replaces_iff hm, Mappings.isShaded]
  rcases hkey with hkey | ⟨-, hkey⟩
  · cases hsolid : c.isSolid with
    | true => exact .inl (.inr ⟨rfl, hkey⟩)
    | false => exact .inr (by rw [hkey]; rfl)
  · exact .inl (.inl hkey)

/-! ## The text of a template -/

section

variable {rendering : Rendering} {l : Layout} {options : Kotlin.Options}
  {overrides : List (Color × String)} {icon : Icon} {name : Name} {text : String} {set : Frame}

/-- The variables of a template, with one code as the code of the icon and one as its code with the
colors of the table. -/
def variablesOf (l : Layout) (icon : Icon) (name : Name) (plain mapped : String) : Frame :=
  multicolorVariables l ⟨plain, Kotlin.required icon, name⟩ icon mapped

/-- What a template is given before its table is known: the code as it is. -/
def plainVariables (l : Layout) (options : Kotlin.Options) (overrides : List (Color × String))
    (icon : Icon) (name : Name) : Frame :=
  let code := Kotlin.builderCode options (.ofEntries overrides) icon
  variablesOf l icon name code code

/-- What a template is given when its table is known: the code with the colors of the table replaced. -/
def mappedVariables (l : Layout) (options : Kotlin.Options) (overrides : List (Color × String))
    (icon : Icon) (name : Name) (table : Value) : Frame :=
  variablesOf l icon name (Kotlin.builderCode options (.ofEntries overrides) icon)
    (Kotlin.builderCode options (.ofEntries (Mappings.ofValue table).overrides) icon)

theorem renderMapped_of_error {e : Error}
    (h : rendering (plainVariables l options overrides icon name) = .error e) :
    renderMapped rendering l options overrides icon name = .error e := by
  simp only [plainVariables, variablesOf] at h
  simp only [renderMapped, h]
  rfl

/-- With a table, the colors of its keys decide whether the template is rendered once more. -/
theorem renderMapped_of_ok
    (h : rendering (plainVariables l options overrides icon name) = .ok (text, set)) :
    renderMapped rendering l options overrides icon name =
      match set.lookup "color_mappings" with
      | none => .ok none
      | some table =>
        if usesKey icon ((Mappings.ofValue table).map Prod.fst) then
          (rendering (mappedVariables l options overrides icon name table)).map fun made => some made.1
        else .ok none := by
  have hmade : rendering (plainVariables l options overrides icon name) = pure (text, set) := h
  simp only [plainVariables, variablesOf] at hmade
  simp only [renderMapped, hmade, pure_bind]
  cases set.lookup "color_mappings" with
  | none => rfl
  | some table =>
    refine if_congr Iff.rfl ?_ rfl
    rw [mappedVariables, variablesOf]
    cases rendering _ with
    | error e => rfl
    | ok made => rfl

theorem renderMapped_of_table {table : Value}
    (h : rendering (plainVariables l options overrides icon name) = .ok (text, set))
    (hset : set.lookup "color_mappings" = some table) :
    renderMapped rendering l options overrides icon name =
      if usesKey icon ((Mappings.ofValue table).map Prod.fst) then
        (rendering (mappedVariables l options overrides icon name table)).map fun made => some made.1
      else .ok none := by
  rw [renderMapped_of_ok h, hset]

end

/-- When a template with a table is used, and its text then. Between the two conditions are solid colors
whose only key has eight digits: nothing is said of them. -/
theorem multicolor_selection (icon : Icon) :
    (∀ table, let m := Mappings.ofValue table
      ((∃ c ∈ icon.colors, m.replacesListed c = true ∨ m.isShaded c = true) →
        usesKey icon (m.map Prod.fst) = true) ∧
      (usesKey icon (m.map Prod.fst) = true →
        ∃ c ∈ icon.colors, m.replaces c = true ∨ m.isShaded c = true)) ∧
    ∀ (rendering : Rendering) l options overrides name,
      let result := renderMapped rendering l options overrides icon name
      (∀ e, rendering (plainVariables l options overrides icon name) = .error e → result = .error e) ∧
      ∀ text set, rendering (plainVariables l options overrides icon name) = .ok (text, set) →
        (set.lookup "color_mappings" = none → result = .ok none) ∧
        ∀ table, set.lookup "color_mappings" = some table →
          let m := Mappings.ofValue table
          ((∃ c ∈ icon.colors, m.replacesListed c = true ∨ m.isShaded c = true) →
            result = (rendering (mappedVariables l options overrides icon name table)).map
              fun made => some made.1) ∧
          ((∀ c ∈ icon.colors, m.replaces c = false ∧ m.isShaded c = false) → result = .ok none) := by
  refine ⟨fun table => ⟨?_, exists_of_usesKey (Mappings.isNormal_ofValue table)⟩,
    fun rendering l options overrides name => ⟨fun e h => renderMapped_of_error h, ?_⟩⟩
  · rintro ⟨c, hc, hkey⟩
    exact usesKey_of_mem (Mappings.isNormal_ofValue table) hc hkey
  intro text set h
  refine ⟨fun hset => by rw [renderMapped_of_ok h, hset], fun table hset => ⟨?_, fun hnone => ?_⟩⟩
  · rintro ⟨c, hc, hkey⟩
    rw [renderMapped_of_table h hset,
      if_pos (usesKey_of_mem (Mappings.isNormal_ofValue table) hc hkey)]
  · have hunused : ¬ usesKey icon ((Mappings.ofValue table).map Prod.fst) = true := by
      intro huse
      obtain ⟨c, hc, hkey⟩ := exists_of_usesKey (Mappings.isNormal_ofValue table) huse
      rw [(hnone c hc).1, (hnone c hc).2] at hkey
      exact hkey.elim Bool.false_ne_true Bool.false_ne_true
    rw [renderMapped_of_table h hset, if_neg hunused]

/-- An icon of one filled path. -/
def dot (c : Color) : Icon :=
  { name := "Dot", width := 24, height := 24, viewportWidth := 24, viewportHeight := 24
    nodes := [.path { commands := [.close], fill := some (.solid c) }]
    autoMirror := false, tint := none }

/-- The mappings of a table with one key. -/
def accent (key : String) : Mappings :=
  .ofValue (.record [(.text key, .text "accent")])

/-- A template that sets a table, if it has one, and is the code with the colors of that table. -/
def painted (table : Option Value) : Rendering := fun given =>
  match given.lookup "build_code_with_color_params" with
  | some (.text code) => .ok (code, table.toList.map fun table => ("color_mappings", table))
  | _ => .error .malformed

theorem painted_variablesOf (table : Option Value) (l : Layout) (icon : Icon) (name : Name)
    (plain mapped : String) : painted table (variablesOf l icon name plain mapped) =
      .ok (mapped, table.toList.map fun table => ("color_mappings", table)) := by
  have hcode : (variablesOf l icon name plain mapped).lookup "build_code_with_color_params" =
      some (.text mapped) := by
    simp [variablesOf, multicolorVariables, iconVariables, List.lookup_cons]
  rw [painted, hcode]

/-- The dot with an alpha channel uses the table for its color without one, and another dot does not. A
template without a table is not used, and one that fails on the plain code fails. -/
theorem multicolor_selection_dot :
    let name : Name := ⟨"dot", [], "dot"⟩
    let table := Value.record [(.text "#FF0000", .text "accent")]
    let result (rendering : Rendering) (argb : UInt32) :=
      renderMapped rendering {} {} [] (dot ⟨argb⟩) name
    usesKey (dot ⟨0x80FF0000⟩) ((accent "#FF0000").map Prod.fst) = true ∧
      result (painted (some table)) 0x80FF0000 = .ok (some (Kotlin.builderCode {}
        (.ofEntries (accent "#FF0000").overrides) (dot ⟨0x80FF0000⟩))) ∧
      result (painted (some table)) 0xFF0000FF = .ok none ∧
      result (painted none) 0x80FF0000 = .ok none ∧
      result (fun _ => .error .malformed) 0x80FF0000 = .error .malformed := by
  intro name table result
  have hpainted (table : Option Value) (c : Color) := painted_variablesOf table {} (dot c) name
  obtain ⟨huse, hrender⟩ := multicolor_selection (dot ⟨0x80FF0000⟩)
  have hshade : ∃ c ∈ (dot ⟨0x80FF0000⟩).colors,
      (accent "#FF0000").replacesListed c = true ∨ (accent "#FF0000").isShaded c = true := by
    decide +kernel
  have hother : ∀ c ∈ (dot ⟨0xFF0000FF⟩).colors,
      (accent "#FF0000").replaces c = false ∧ (accent "#FF0000").isShaded c = false := by
    decide +kernel
  refine ⟨(huse table).1 hshade, ?_, ?_, ?_, (hrender _ {} {} [] name).1 _ rfl⟩
  · have hused := ((hrender (painted (some table)) {} {} [] name).2 _ _ (hpainted _ _ _ _)).2 table rfl
    have hcode : Mappings.ofValue table = accent "#FF0000" := rfl
    refine (hused.1 hshade).trans ?_
    rw [mappedVariables, hpainted, Except.map, hcode]
  · have hnone := (multicolor_selection (dot ⟨0xFF0000FF⟩)).2 (painted (some table)) {} {} [] name
    exact ((hnone.2 _ _ (hpainted _ _ _ _)).2 table rfl).2 hother
  · exact ((hrender (painted none) {} {} [] name).2 _ _ (hpainted _ _ _ _)).1 rfl

/-- Selection and replacement do not agree: a key of six digits makes an icon use the table for a color with
an alpha channel, which is not replaced. -/
theorem usesKey_and_replaces_differ :
    usesKey (dot ⟨0x80FF0000⟩) ((accent "#FF0000").map Prod.fst) = true ∧
      ¬ ∃ c ∈ (dot ⟨0x80FF0000⟩).colors, (accent "#FF0000").replaces c = true := by
  refine ⟨(usesKey_iff (Mappings.isNormal_ofValue _)).2 ?_, ?_⟩
  · decide +kernel
  · decide +kernel

end VectorIcon.Template
