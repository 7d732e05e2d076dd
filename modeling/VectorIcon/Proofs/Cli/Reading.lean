import VectorIcon.Proofs.Cli.Record

/-!
# What conversions read

A conversion reads the text of its drawing and the texts of the template files of the settings, and nothing
else. When it succeeds and with what depends only on which of these are there and what they hold, not on the
faults of those that are missing (`toOption_conversion`).
-/

namespace VectorIcon

variable {files files' : FilePath → Except FileFault String}

namespace Conversion

variable {o : Options} {c : Config} {icon : Icon} {name : Name} {text : String}

theorem toOption_templateText (path : FilePath) (h : (files path).toOption = (files' path).toOption) :
    (templateText files path).toOption = (templateText files' path).toOption := by
  rw [templateText, templateText, toOption_mapError, toOption_mapError, h]

theorem toOption_multicolorText (h : ∀ path, (files path).toOption = (files' path).toOption) :
    (multicolorText files c icon name).toOption = (multicolorText files' c icon name).toOption := by
  unfold multicolorText
  cases c.multicolorTemplate with
  | none => rfl
  | some path =>
    dsimp only
    rw [toOption_bind, toOption_bind, toOption_templateText path (h path)]

theorem toOption_plainText {p : Template.Parts}
    (h : ∀ path, (files path).toOption = (files' path).toOption) :
    (plainText files o p).toOption = (plainText files' o p).toOption := by
  unfold plainText
  cases o.config.template with
  | none => rfl
  | some path =>
    dsimp only
    rw [toOption_bind, toOption_bind, toOption_templateText path (h path)]

theorem toOption_convert (h : ∀ path, (files path).toOption = (files' path).toOption) :
    (convert files o text).toOption = (convert files' o text).toOption := by
  unfold convert
  rw [toOption_bind, toOption_bind]
  congr 1
  funext drawing
  dsimp only
  rw [toOption_bind, toOption_bind, toOption_multicolorText h]
  congr 1
  funext code
  cases code with
  | some code => rfl
  | none =>
    dsimp only
    rw [toOption_bind, toOption_bind, toOption_plainText h]

end Conversion

namespace Cli

variable {current : List String} {t t' : FileTree current} {plan : BatchPlan} {c : Config} {file path : FilePath}

theorem toOption_text (h : (t'.read path).toOption = (t.read path).toOption) :
    (t'.text path).toOption = (t.text path).toOption := by
  have hbind (t : FileTree current) : (t.text path).toOption =
      (t.read path).toOption.bind fun bytes => (textOfBytes bytes).toOption :=
    toOption_bind (t.read path) textOfBytes
  rw [hbind, hbind, h]

theorem toOption_lookup {f f' : FilePath → Except FileFault String} {paths : List FilePath}
    (h : ∀ template ∈ paths, (f' template).toOption = (f template).toOption) (fault : FileFault) :
    (((paths.map fun path => (path, f' path)).lookup path).getD (.error fault)).toOption =
      (((paths.map fun path => (path, f path)).lookup path).getD (.error fault)).toOption := by
  induction paths with
  | nil => rfl
  | cons template rest ih =>
    have hrest := ih fun template' h' => h template' (List.mem_cons_of_mem _ h')
    rw [List.map_cons, List.map_cons, List.lookup_cons, List.lookup_cons]
    cases path == template with
    | true => exact h template (List.mem_cons_self ..)
    | false => exact hrest

theorem toOption_templatesOf
    (h : ∀ template ∈ templatePaths c, (t'.text template).toOption = (t.text template).toOption) :
    (templatesOf t' c path).toOption = (templatesOf t c path).toOption :=
  toOption_lookup h .missing

theorem toOption_conversion (htext : (t'.text file).toOption = (t.text file).toOption)
    (htemplates : ∀ template ∈ templatePaths plan.config,
      (t'.text template).toOption = (t.text template).toOption) :
    (plan.conversion t' file).toOption = (plan.conversion t file).toOption := by
  have hconvert (text : String) :
      (Conversion.convert (templatesOf t' plan.config) (plan.options file) text).toOption =
        (Conversion.convert (templatesOf t plan.config) (plan.options file) text).toOption :=
    Conversion.toOption_convert fun _ => toOption_templatesOf htemplates
  unfold BatchPlan.conversion
  cases htext' : t'.text file with
  | error fault =>
    cases htext'' : t.text file with
    | error fault' => rfl
    | ok text =>
      rw [htext', htext''] at htext
      cases htext
  | ok text' =>
    cases htext'' : t.text file with
    | error fault' =>
      rw [htext', htext''] at htext
      cases htext
    | ok text =>
      rw [htext', htext''] at htext
      obtain rfl : text' = text := Option.some.inj htext
      dsimp only
      rw [toOption_mapError, toOption_mapError, hconvert]

end Cli

end VectorIcon
