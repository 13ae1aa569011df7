import MiniJava.Screen.Canvas

/-!
# Areas — where a canvas goes on the screen

An area is a rectangle of the screen. Areas are cut into shares of their width or height, given in
hundredths: the first share is rounded to the nearest number of cells, a half upwards, and the
second is the rest. A canvas is painted onto the part of its area that is on the screen.
-/

namespace MiniJava

/-- A rectangle of cells. -/
structure Area where
  x : Nat
  y : Nat
  width : Nat
  height : Nat
deriving DecidableEq, Repr, Inhabited

namespace Area

/-- A number of hundredths of a length, rounded to the nearest cell. -/
def share (length hundredths : Nat) : Nat := (length * hundredths + 50) / 100

/-- Cuts an area into a left and a right one. -/
def splitColumns (a : Area) (hundredths : Nat) : Area × Area :=
  let left := share a.width hundredths
  ({ a with width := left }, { a with x := a.x + left, width := a.width - left })

/-- Cuts an area into an upper and a lower one. -/
def splitRows (a : Area) (hundredths : Nat) : Area × Area :=
  let upper := share a.height hundredths
  ({ a with height := upper }, { a with y := a.y + upper, height := a.height - upper })

/-- The part of an area that is on a screen of some size. -/
def clip (a : Area) (width height : Nat) : Area :=
  let x := min a.x width
  let y := min a.y height
  ⟨x, y, min (a.x + a.width) width - x, min (a.y + a.height) height - y⟩

/-- A share of no more than the whole is no longer than the whole. -/
theorem share_le {length hundredths : Nat} (h : hundredths ≤ 100) :
    share length hundredths ≤ length := by
  unfold share
  have := Nat.mul_le_mul_left length h
  omega

/-- What is on the screen of an area does not reach beyond the screen. -/
theorem clip_within (a : Area) (width height : Nat) :
    (a.clip width height).x + (a.clip width height).width ≤ width ∧
      (a.clip width height).y + (a.clip width height).height ≤ height := by
  simp only [clip]
  omega

/-- The two parts of an area that is cut into columns are as wide as the area. -/
theorem splitColumns_width (a : Area) {hundredths : Nat} (h : hundredths ≤ 100) :
    (a.splitColumns hundredths).1.width + (a.splitColumns hundredths).2.width = a.width := by
  have hleft : share a.width hundredths ≤ a.width := share_le h
  simp only [splitColumns]
  omega

/-- The two parts of an area that is cut into rows are as high as the area. -/
theorem splitRows_height (a : Area) {hundredths : Nat} (h : hundredths ≤ 100) :
    (a.splitRows hundredths).1.height + (a.splitRows hundredths).2.height = a.height := by
  have hupper : share a.height hundredths ≤ a.height := share_le h
  simp only [splitRows]
  omega

end Area

namespace Canvas

/-- Puts a row over the cells of another from a column on. -/
def overlay (x : Nat) (upper lower : Row) : Row :=
  lower.take x ++ upper ++ lower.drop (x + upper.length)

/-- Puts a canvas onto an area of another. -/
def paint (screen : Canvas) (area : Area) (picture : Canvas) : Canvas :=
  screen.mapIdx fun y row =>
    if area.y ≤ y then
      match picture[y - area.y]? with
      | some upper => overlay area.x upper row
      | none => row
    else row

/-- A screen of some size on which an area was drawn. -/
def paintClipped (width height : Nat) (area : Area) (draw : Nat → Nat → Canvas) (screen : Canvas) :
    Canvas :=
  let shown := area.clip width height
  screen.paint shown (draw shown.width shown.height)

end Canvas

end MiniJava
