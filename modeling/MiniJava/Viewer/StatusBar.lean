import MiniJava.Screen.Area
import MiniJava.Viewer.Palette

/-!
# The status bar

The left half of the last line says whether there are problems, which node of the tree is selected,
and what was last done. The right half lists the keys, at the right edge.
-/

namespace MiniJava

/-- What the status bar tells. -/
structure StatusBar where
  message : String
  problems : Nat
  /-- The number of the selected node and how many there are. -/
  node? : Option (Nat × Nat)
deriving DecidableEq, Repr, Inhabited

namespace StatusBar

/-- The style of the whole bar. -/
def barStyle : Style := .filled Palette.currentLine

/-- The style of words. -/
def wordStyle : Style := .onBackground Palette.text Palette.currentLine

/-- The style of separators. -/
def ruleStyle : Style := .onBackground Palette.comment Palette.currentLine

/-- The style of keys. -/
def keyStyle : Style := .onBackground .black Palette.comment

/-- The left half: problems, node and message. -/
def left (s : StatusBar) : List Span :=
  let badge : Span :=
    if s.problems = 0 then ⟨" OK ", (Style.onBackground .black Palette.success).strong⟩
    else ⟨" " ++ toString s.problems ++ " ERROR(S) ",
      (Style.onBackground .black Palette.error).strong⟩
  let node :=
    match s.node? with
    | some (current, total) => " Node " ++ toString current ++ "/" ++ toString total ++ " "
    | none => " Node -/- "
  [badge, ⟨node, (Style.onBackground .black Palette.primary).strong⟩, ⟨" | ", ruleStyle⟩,
    ⟨" " ++ s.message ++ " ", wordStyle⟩]

/-- The right half: the keys. -/
def right : List Span := [
  ⟨" ⇥ ", keyStyle⟩, ⟨" focus ", wordStyle⟩, ⟨"│", ruleStyle⟩, ⟨" ", wordStyle⟩,
  ⟨" ↑/↓ ", keyStyle⟩, ⟨" move ", wordStyle⟩, ⟨"│", ruleStyle⟩, ⟨" ", wordStyle⟩,
  ⟨" Home/End ", keyStyle⟩, ⟨" jump ", wordStyle⟩, ⟨"│", ruleStyle⟩, ⟨" ", wordStyle⟩,
  ⟨"q", keyStyle⟩, ⟨" quit ", wordStyle⟩]

/-- The left half as a canvas; lines below the first are empty. -/
def drawLeft (s : StatusBar) (width height : Nat) : Canvas :=
  Canvas.fit barStyle width height [Row.ofSpans barStyle width s.left]

/-- The right half as a canvas. -/
def drawRight (width height : Nat) : Canvas :=
  Canvas.fit barStyle width height [Row.ofSpansRight barStyle width right]

/-- The bar on an area of a screen of some size. -/
def paint (s : StatusBar) (width height : Nat) (area : Area) (screen : Canvas) : Canvas :=
  let (leftArea, rightArea) := area.splitColumns 50
  Canvas.paintClipped width height rightArea drawRight
    (Canvas.paintClipped width height leftArea s.drawLeft screen)

end StatusBar

end MiniJava
