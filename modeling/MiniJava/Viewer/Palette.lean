import MiniJava.Screen.Frame

/-!
# The colours of the viewer

One name for every role that a colour plays, and the two looks of a pane's border.
-/

namespace MiniJava.Palette

/-- Plain text. -/
def text : Color := .rgb 0xcd 0xd6 0xf4

/-- Brackets, kinds of tokens and the node counter. -/
def primary : Color := .rgb 0x89 0xb4 0xfa

/-- The number of the current line. -/
def secondary : Color := .rgb 0xfa 0xb3 0x87

/-- Comments, positions and whatever should not stand out. -/
def comment : Color := .rgb 0x6c 0x70 0x86

/-- A program without problems. -/
def success : Color := .rgb 0xa6 0xe3 0xa1

/-- Problems. -/
def error : Color := .rgb 0xf3 0x8b 0xa8

/-- Reserved words. -/
def keyword : Color := .rgb 0x89 0xb4 0xfa

/-- Literals. -/
def number : Color := .rgb 0xfa 0xb3 0x87

/-- The border of the pane that has the focus. -/
def borderFocused : Color := .rgb 0xf9 0xe2 0xaf

/-- The border of every other pane. -/
def borderNormal : Color := .rgb 0x6c 0x70 0x86

/-- The background of the current line. -/
def currentLine : Color := .rgb 0x32 0x32 0x46

/-- Names before an opening parenthesis. -/
def function : Color := .rgb 0xf9 0xe2 0xaf

/-- Types and classes. -/
def typeName : Color := .rgb 0x94 0xe2 0xd5

/-- Nodes of the tree. -/
def node : Color := .rgb 0xf5 0xc2 0xe7

/-- The border of a pane. -/
def border (focused : Bool) : Style :=
  if focused then (Style.colored borderFocused).strong else .colored borderNormal

/-- A pane with a title; `padding` columns on the left stay blank. -/
def pane (title : String) (focused : Bool) (base : Style) (padding : Nat) : Frame :=
  ⟨title, border focused, base, padding⟩

end MiniJava.Palette
