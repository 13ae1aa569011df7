/-!
# Styles of screen cells

A style says which colours a cell has and whether it is bold. A style laid over another changes only
the parts it names, so that styles can be given to an area, then to a line of it, then to a word.
-/

namespace MiniJava

/-- A colour of the screen. -/
inductive Color where
  | white | black
  | rgb (red green blue : UInt8)
deriving DecidableEq, Repr, Inhabited

/-- The parts of a cell's look. A colour that is not named is left as it is. -/
structure Style where
  foreground : Option Color
  background : Option Color
  bold : Bool
deriving DecidableEq, Repr, Inhabited

namespace Style

/-- The style that names nothing. -/
def plain : Style := ⟨none, none, false⟩

/-- A foreground colour. -/
def colored (c : Color) : Style := ⟨some c, none, false⟩

/-- A foreground colour on a background. -/
def onBackground (c background : Color) : Style := ⟨some c, some background, false⟩

/-- A background alone. -/
def filled (background : Color) : Style := ⟨none, some background, false⟩

/-- The same style, bold. -/
def strong (s : Style) : Style := { s with bold := true }

/-- The style `top` laid over `under`. -/
def patch (under top : Style) : Style :=
  ⟨top.foreground <|> under.foreground, top.background <|> under.background,
    under.bold || top.bold⟩

@[simp] theorem patch_plain (s : Style) : s.patch plain = s := by
  cases s with
  | mk f b m => cases f <;> cases b <;> simp [patch, plain]

@[simp] theorem plain_patch (s : Style) : plain.patch s = s := by
  cases s with
  | mk f b m => cases f <;> cases b <;> simp [patch, plain]

theorem patch_assoc (a b c : Style) : (a.patch b).patch c = a.patch (b.patch c) := by
  cases a with
  | mk fa ba ma =>
    cases b with
    | mk fb bb mb =>
      cases c with
      | mk fc bc mc =>
        cases fc <;> cases fb <;> cases bc <;> cases bb <;> simp [patch, Bool.or_assoc]

end Style

end MiniJava
