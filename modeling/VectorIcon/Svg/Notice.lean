import VectorIcon.Warning
import VectorIcon.Path.Error

/-!
# Values with notices

Reading a drawing never stops: what is wrong is noted beside the value that is found anyway. Whether a
fault in path data fails the document or only drops the path is decided once, over the notices of the
whole document (`Svg.Document`).
-/

namespace VectorIcon.Svg

/-- Something to tell about a document. -/
inductive Notice
  | warning (w : Warning)
  | fault (e : Path.Error)
  deriving Repr, DecidableEq

/-- A value and what was noted on the way to it, in order. -/
structure Noted (α : Type) where
  value : α
  notices : List Notice

namespace Noted

/-- A value and a warning. -/
def warn {α : Type} (value : α) (w : Warning) : Noted α :=
  ⟨value, [.warning w]⟩

/-- A value and a fault. -/
def fail {α : Type} (value : α) (e : Path.Error) : Noted α :=
  ⟨value, [.fault e]⟩

instance : Monad Noted where
  pure a := ⟨a, []⟩
  bind x f := ⟨(f x.value).value, x.notices ++ (f x.value).notices⟩

@[simp]
theorem value_pure {α : Type} (a : α) : (pure a : Noted α).value = a := rfl

@[simp]
theorem notices_pure {α : Type} (a : α) : (pure a : Noted α).notices = [] := rfl

@[simp]
theorem value_bind {α β : Type} (x : Noted α) (f : α → Noted β) :
    (x >>= f).value = (f x.value).value := rfl

@[simp]
theorem notices_bind {α β : Type} (x : Noted α) (f : α → Noted β) :
    (x >>= f).notices = x.notices ++ (f x.value).notices := rfl

end Noted

end VectorIcon.Svg
