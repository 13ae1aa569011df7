import MiniJava.Screen.Canvas

/-!
# Frames — bordered panes

A frame draws a border with a title around rows of text. The border takes one cell on every side; a
pane of height one has only its top border, and one of width one only its left border.
-/

namespace MiniJava

/-- The look of a pane around its content. -/
structure Frame where
  title : String
  border : Style
  /-- The style that covers the whole pane, under everything else. -/
  base : Style
  /-- Blank columns between the left border and the content. -/
  padding : Nat
deriving DecidableEq, Repr, Inhabited

namespace Frame

/-- How wide the content of a pane is. -/
def innerWidth (f : Frame) (width : Nat) : Nat := width - 2 - f.padding

/-- How high the content of a pane is. -/
def innerHeight (height : Nat) : Nat := height - 2

/-- A row between a left and a right end. -/
def between (left right : Cell) (middle : Row) : Nat → Row
  | 0 => []
  | 1 => [left]
  | _ + 2 => left :: middle ++ [right]

/-- A cell of the border. -/
def edge (f : Frame) (c : Char) : Cell := ⟨String.singleton c, f.base.patch f.border⟩

/-- The top border, with the title over it. -/
def top (f : Frame) (width : Nat) : Row :=
  let style := f.base.patch f.border
  let title := f.title.toList.take (width - 2)
  let line := List.replicate (width - 2 - title.length) '─'
  between (f.edge '┌') (f.edge '┐') (Row.ofChars style (title ++ line)) width

/-- The bottom border. -/
def bottom (f : Frame) (width : Nat) : Row :=
  between (f.edge '└') (f.edge '┘') (List.replicate (width - 2) (f.edge '─')) width

/-- A row of content between the side borders. -/
def side (f : Frame) (width : Nat) (content : Row) : Row :=
  let padding := List.replicate (min f.padding (width - 2)) (Cell.space f.base)
  between (f.edge '│') (f.edge '│') (padding ++ content) width

/-- A pane. `content` gives rows of the width that it is told. -/
def draw (f : Frame) (width height : Nat) (content : Nat → List Row) : Canvas :=
  match height with
  | 0 => []
  | 1 => [f.top width]
  | inner + 2 =>
    let rows := Canvas.fit f.base (f.innerWidth width) inner (content (f.innerWidth width))
    f.top width :: rows.map (f.side width) ++ [f.bottom width]

/-- A pane is as high as it was asked to be. -/
theorem length_draw (f : Frame) (width height : Nat) (content : Nat → List Row) :
    (f.draw width height content).length = height := by
  unfold draw
  split <;> simp

end Frame

end MiniJava
