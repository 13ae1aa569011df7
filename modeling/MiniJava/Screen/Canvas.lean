import MiniJava.Screen.Style
import MiniJava.Text.Cluster
import MiniJava.Text.Width

/-!
# Canvases — rectangles of cells

A canvas is a list of rows of cells. Lines of styled text become rows of an exact width. A line of a
text is set from the left, cluster by cluster, until the next one does not fit, and what is missing
is blank (`Row.length_ofSpans`). An item of a list is drawn span by span: a span begins behind the
width of those before it, so that it may draw over their last clusters, if these are wider side by
side than in one piece (`Row.length_ofItem`). What is right behind a symbol that needs more than one
cell is not shown (`Canvas.shown`).
-/

namespace MiniJava

/-- What one place of the screen shows. -/
structure Cell where
  symbol : String
  style : Style
deriving DecidableEq, Repr, Inhabited

/-- A row of cells. -/
abbrev Row := List Cell

/-- Rows of cells, from the top. -/
abbrev Canvas := List Row

/-- A text of one style. -/
structure Span where
  text : String
  style : Style
deriving DecidableEq, Repr, Inhabited

namespace Cell

/-- The cell that nothing was drawn on. -/
def blank : Cell := ⟨" ", .plain⟩

/-- An empty cell of a style. -/
def space (style : Style) : Cell := ⟨" ", style⟩

/-- The cell with another symbol, in a style over its own. -/
def put (symbol : List Char) (style : Style) (c : Cell) : Cell :=
  ⟨String.ofList symbol, c.style.patch style⟩

/-- The cell with more characters behind its symbol, in a style over its own. -/
def join (symbol : List Char) (style : Style) (c : Cell) : Cell :=
  ⟨c.symbol ++ String.ofList symbol, c.style.patch style⟩

end Cell

namespace Span

/-- The clusters that are drawn of a span; newlines are not. -/
def clusters (s : Span) : List (List Char) := (Text.clusters s.text.toList).filter (· != ['\n'])

/-- How many cells the text of a span takes. -/
def width (s : Span) : Nat := Text.width s.text.toList

end Span

namespace Row

/-! ## Lines of a text -/

/-- Clusters over a base style, cut off or filled up to a number of cells. The cells that a cluster
takes beside its first one keep the base style. -/
def ofClusters (base : Style) : Nat → List (List Char × Style) → Row
  | room, [] => List.replicate room (.space base)
  | room, (cluster, style) :: rest =>
    if Text.width cluster ≤ room then
      (List.replicate (Text.width cluster) (Cell.space base)).modify 0 (·.put cluster style) ++
        ofClusters base (room - Text.width cluster) rest
    else List.replicate room (.space base)

/-- The clusters of a line, each with its style. What takes no cell, or more than there are, is left
out. -/
def lineClusters (width : Nat) (spans : List Span) : List (List Char × Style) :=
  (spans.flatMap fun s => s.clusters.map (·, s.style)).filter fun (cluster, _) =>
    0 < Text.width cluster && Text.width cluster ≤ width

/-- A line of a text from the left edge. -/
def ofSpans (base : Style) (width : Nat) (spans : List Span) : Row :=
  ofClusters base width (lineClusters width spans)

/-- A line of a text that ends at the right edge, or begins at the left edge if it is too long. -/
def ofSpansRight (base : Style) (width : Nat) (spans : List Span) : Row :=
  let clusters := lineClusters width spans
  let indent := clusters.foldl (fun room c => room - Text.width c.1) width
  List.replicate indent (.space base) ++ ofClusters base (width - indent) clusters

@[simp] theorem length_ofClusters (base : Style) (room : Nat)
    (clusters : List (List Char × Style)) : (ofClusters base room clusters).length = room := by
  fun_induction ofClusters base room clusters with
  | case1 => simp
  | case2 room cluster style rest h ih => simp [ih]; omega
  | case3 => simp

/-- A line of a text has the width it was made for. -/
@[simp] theorem length_ofSpans (base : Style) (width : Nat) (spans : List Span) :
    (ofSpans base width spans).length = width := length_ofClusters _ _ _

theorem foldl_sub_le (clusters : List (List Char × Style)) (room : Nat) :
    clusters.foldl (fun room c => room - Text.width c.1) room ≤ room := by
  induction clusters generalizing room with
  | nil => simp
  | cons c rest ih => exact Nat.le_trans (ih _) (Nat.sub_le _ _)

@[simp] theorem length_ofSpansRight (base : Style) (width : Nat) (spans : List Span) :
    (ofSpansRight base width spans).length = width := by
  have := foldl_sub_le (lineClusters width spans) width
  simp only [ofSpansRight, List.length_append, List.length_replicate, length_ofClusters]
  omega

/-! ## Items of a list -/

/-- A row with so many blank cells from a column on. -/
def clear (row : Row) (x : Nat) : Nat → Row
  | 0 => row
  | count + 1 => clear (row.set x .blank) (x + 1) count

/-- A row with a symbol at a column. The cells that it takes beside its first one are blank. -/
def put (row : Row) (x : Nat) (symbol : List Char) (style : Style) : Row :=
  clear (row.modify x (·.put symbol style)) (x + 1) (Text.width symbol - 1)

/-- A row with a symbol behind that of a column, which it joins. -/
def join (row : Row) (x : Nat) (symbol : List Char) (style : Style) : Row :=
  clear (row.modify x (·.join symbol style)) (x + 1) (Text.width symbol - 1)

/-- A row with the clusters of a span behind its first one. `start` is the column of the span, and
`x` the column behind what was drawn of it. What takes no cell shares that of the cluster before it;
what follows such a cluster at the start of the span shares the first cell with it. -/
def drawRest (style : Style) (start x : Nat) (row : Row) : List (List Char) → Row
  | [] => row
  | cluster :: rest =>
    if x + Text.width cluster ≤ row.length then
      drawRest style start (x + Text.width cluster)
        (if x = start then row.join x cluster style
          else if Text.width cluster = 0 then row.join (x - 1) cluster style
          else row.put x cluster style) rest
    else row

/-- A row with a span from a column on, as far as it fits. -/
def drawSpan (row : Row) (x : Nat) (s : Span) : Row :=
  match s.clusters with
  | [] => row
  | cluster :: rest =>
    if x + Text.width cluster ≤ row.length then
      drawRest s.style x (x + Text.width cluster) (row.put x cluster s.style) rest
    else row

/-- A row with spans from a column on. Spans without a width are not drawn. -/
def drawSpans (row : Row) (x : Nat) : List Span → Row
  | [] => row
  | s :: rest =>
    if x < row.length then
      drawSpans (if s.width = 0 then row else row.drawSpan x s) (x + s.width) rest
    else row

/-- An item of a list, over a base style. -/
def ofItem (base : Style) (width : Nat) (spans : List Span) : Row :=
  drawSpans (List.replicate width (.space base)) 0 spans

@[simp] theorem length_clear (row : Row) (x count : Nat) :
    (row.clear x count).length = row.length := by
  induction count generalizing row x with
  | zero => rfl
  | succ count ih => simp [clear, ih]

@[simp] theorem length_put (row : Row) (x : Nat) (symbol : List Char) (style : Style) :
    (row.put x symbol style).length = row.length := by
  simp [put]

@[simp] theorem length_join (row : Row) (x : Nat) (symbol : List Char) (style : Style) :
    (row.join x symbol style).length = row.length := by
  simp [join]

@[simp] theorem length_drawRest (style : Style) (start x : Nat) (row : Row)
    (clusters : List (List Char)) :
    (drawRest style start x row clusters).length = row.length := by
  induction clusters generalizing x row with
  | nil => rfl
  | cons cluster rest ih =>
    rw [drawRest]
    repeat' split
    all_goals simp [ih]

@[simp] theorem length_drawSpan (row : Row) (x : Nat) (s : Span) :
    (row.drawSpan x s).length = row.length := by
  rw [drawSpan]
  repeat' split
  all_goals simp

@[simp] theorem length_drawSpans (row : Row) (x : Nat) (spans : List Span) :
    (row.drawSpans x spans).length = row.length := by
  induction spans generalizing row x with
  | nil => rfl
  | cons s rest ih =>
    rw [drawSpans]
    repeat' split
    all_goals simp [ih]

/-- An item of a list has the width it was made for. -/
@[simp] theorem length_ofItem (base : Style) (width : Nat) (spans : List Span) :
    (ofItem base width spans).length = width := by
  simp [ofItem]

/-! ## Rows on a screen -/

/-- Characters of one style that take one cell each. -/
def ofChars (style : Style) (text : List Char) : Row :=
  text.map fun c => ⟨String.singleton c, style⟩

/-- What is shown of a row. A cell right behind a symbol that needs more than one is blank. -/
def shown (hidden : Bool) : Row → Row
  | [] => []
  | c :: rest =>
    (if hidden then .blank else c) :: shown (1 < Text.width c.symbol.toList) rest

@[simp] theorem length_shown (hidden : Bool) (row : Row) :
    (shown hidden row).length = row.length := by
  induction row generalizing hidden with
  | nil => rfl
  | cons c rest ih => simp [shown, ih]

end Row

namespace Canvas

/-- Rows filled up with blank ones, or cut off, to a height. -/
def fit (base : Style) (width height : Nat) (rows : List Row) : Canvas :=
  rows.take height ++
    List.replicate (height - rows.length) (List.replicate width (.space base))

/-- A canvas on which nothing was drawn. -/
def blank (width height : Nat) : Canvas := List.replicate height (List.replicate width .blank)

/-- What a screen shows of a canvas. -/
def shown (canvas : Canvas) : Canvas := canvas.map (Row.shown false)

@[simp] theorem length_shown (canvas : Canvas) : canvas.shown.length = canvas.length := by
  simp [shown]

@[simp] theorem length_fit (base : Style) (width height : Nat) (rows : List Row) :
    (fit base width height rows).length = height := by
  simp [fit]
  omega

end Canvas

end MiniJava
