import MiniJava.Text.Combining
import MiniJava.Text.Conjunct
import MiniJava.Text.Control
import MiniJava.Text.Emoji
import MiniJava.Text.Spacing
import MiniJava.Text.Syllable

/-!
# Clusters — what a reader takes for one character

A letter and its marks, the parts of a syllable, the two letters of a flag and the members of a
family of emoji are several characters each, and one to a reader. A text is cut into such clusters
from the left: whether a character goes on with the cluster before it depends on its own kind and
on the end of that cluster (`ClusterEnd.joins`). These are the extended grapheme clusters of
Unicode. Nothing is lost (`flatten_clusters`), no cluster is empty (`nil_notMem_clusters`), and
printable ASCII is cut into its characters (`clusters_of_printable`).
-/

namespace MiniJava.Text

/-- What a character does at the border of a cluster. -/
inductive BreakKind
  | carriageReturn
  | lineFeed
  /-- It stands alone. -/
  | control
  /-- It joins what is before it. -/
  | combining
  /-- It joins what is before it, and a consonant behind it. -/
  | linker
  /-- U+200C joins what is before it, and keeps consonants apart. -/
  | nonJoiner
  /-- U+200D joins what is before it, and a picture behind it. -/
  | joiner
  /-- It joins what is before it, and has a width. -/
  | spacing
  /-- It joins what is behind it. -/
  | leading
  | regional
  | syllable (part : SyllablePart)
  | pictograph
  | consonant
  | other
deriving DecidableEq, Repr, Inhabited

namespace BreakKind

/-- The kind of a character. -/
def ofChar (c : Char) : BreakKind :=
  if 0x20 ≤ c.toNat ∧ c.toNat ≤ 0x7e then .other
  else if c = '\r' then .carriageReturn
  else if c = '\n' then .lineFeed
  else if c = '\u200c' then .nonJoiner
  else if c = '\u200d' then .joiner
  else if isLinker c then .linker
  else if isCombining c || isSkinTone c then .combining
  else if isControl c then .control
  else if isSpacing c then .spacing
  else if isLeading c then .leading
  else if isRegional c then .regional
  else if isPictograph c then .pictograph
  else if isConsonant c then .consonant
  else match SyllablePart.ofChar? c with
    | some part => .syllable part
    | none => .other

/-- It joins what is before it, whatever that is. -/
def isMark : BreakKind → Bool
  | .combining | .linker | .nonJoiner | .joiner | .spacing => true
  | _ => false

end BreakKind

/-- How far a picture at the end of a cluster has come: it may have marks, and may be joined to
another. -/
inductive PictureEnd
  | absent
  | picture
  | joined
deriving DecidableEq, Repr, Inhabited

/-- The end of a cluster behind one more character. -/
def PictureEnd.next : PictureEnd → BreakKind → PictureEnd
  | _, .pictograph => .picture
  | .picture, .combining | .picture, .linker | .picture, .nonJoiner => .picture
  | .picture, .joiner => .joined
  | _, _ => .absent

/-- How far a conjunct at the end of a cluster has come: it may have marks, and may be linked to
another consonant. -/
inductive ConjunctEnd
  | absent
  | consonant
  | linked
deriving DecidableEq, Repr, Inhabited

/-- The end of a cluster behind one more character. -/
def ConjunctEnd.next : ConjunctEnd → BreakKind → ConjunctEnd
  | _, .consonant => .consonant
  | .absent, _ => .absent
  | _, .linker => .linked
  | before, .combining | before, .joiner => before
  | _, _ => .absent

/-- What of a cluster decides whether it goes on. -/
structure ClusterEnd where
  last : BreakKind
  /-- The cluster ends with a regional letter that is not the second of a flag. -/
  halfFlag : Bool
  picture : PictureEnd
  conjunct : ConjunctEnd
deriving DecidableEq, Repr, Inhabited

namespace ClusterEnd

/-- The end of a cluster of one character. -/
def first (kind : BreakKind) : ClusterEnd :=
  ⟨kind, kind == .regional, PictureEnd.absent.next kind, ConjunctEnd.absent.next kind⟩

/-- The end of a cluster behind one more character. -/
def next (e : ClusterEnd) (kind : BreakKind) : ClusterEnd :=
  ⟨kind, kind == .regional && !e.halfFlag, e.picture.next kind, e.conjunct.next kind⟩

/-- A character goes on with the cluster that ends so. -/
def joins (e : ClusterEnd) (kind : BreakKind) : Bool :=
  match e.last, kind with
  -- the two characters of one line end belong together, and nothing else joins a control
  | .carriageReturn, .lineFeed => true
  | .carriageReturn, _ | .lineFeed, _ | .control, _ => false
  | _, .carriageReturn | _, .lineFeed | _, .control => false
  | .leading, _ => true
  | .syllable before, .syllable part => before.joins part
  -- these three join what is before them only where it waits for them
  | _, .regional => e.halfFlag
  | _, .pictograph => e.picture == .joined
  | _, .consonant => e.conjunct == .linked
  | _, _ => kind.isMark

end ClusterEnd

/-- The characters that go on with a cluster, and the clusters behind it. -/
def clustersAfter : ClusterEnd → List Char → List Char × List (List Char)
  | _, [] => ([], [])
  | e, c :: rest =>
    let kind := BreakKind.ofChar c
    if e.joins kind then
      let (inside, behind) := clustersAfter (e.next kind) rest
      (c :: inside, behind)
    else
      let (inside, behind) := clustersAfter (.first kind) rest
      ([], (c :: inside) :: behind)

/-- The clusters of a text. -/
def clusters : List Char → List (List Char)
  | [] => []
  | c :: rest =>
    let (inside, behind) := clustersAfter (.first (BreakKind.ofChar c)) rest
    (c :: inside) :: behind

theorem flatten_clustersAfter (e : ClusterEnd) (text : List Char) :
    (clustersAfter e text).1 ++ (clustersAfter e text).2.flatten = text := by
  induction text generalizing e with
  | nil => rfl
  | cons c rest ih =>
    rw [clustersAfter]
    split <;> simp [ih]

/-- The clusters of a text are the text, cut. -/
@[simp] theorem flatten_clusters (text : List Char) : (clusters text).flatten = text := by
  cases text with
  | nil => rfl
  | cons c rest => simp [clusters, flatten_clustersAfter]

theorem nil_notMem_clustersAfter (e : ClusterEnd) (text : List Char) :
    [] ∉ (clustersAfter e text).2 := by
  induction text generalizing e with
  | nil => simp [clustersAfter]
  | cons c rest ih =>
    rw [clustersAfter]
    split <;> simp [ih]

/-- No cluster is empty. -/
@[simp] theorem nil_notMem_clusters (text : List Char) : [] ∉ clusters text := by
  cases text with
  | nil => simp [clusters]
  | cons c rest => simp [clusters, nil_notMem_clustersAfter]

theorem clustersAfter_of_printable {e : ClusterEnd} {text : List Char} (he : e.last = .other)
    (h : ∀ c ∈ text, 0x20 ≤ c.toNat ∧ c.toNat ≤ 0x7e) :
    clustersAfter e text = ([], text.map ([·])) := by
  induction text generalizing e with
  | nil => rfl
  | cons c rest ih =>
    have hkind : BreakKind.ofChar c = .other := if_pos (h c List.mem_cons_self)
    have hjoins : e.joins .other = false := by simp [ClusterEnd.joins, he, BreakKind.isMark]
    rw [clustersAfter, hkind, hjoins]
    simp [ih (e := .first .other) rfl fun x hx => h x (List.mem_cons_of_mem c hx)]

/-- Every character of printable ASCII is a cluster. -/
theorem clusters_of_printable {text : List Char}
    (h : ∀ c ∈ text, 0x20 ≤ c.toNat ∧ c.toNat ≤ 0x7e) : clusters text = text.map ([·]) := by
  cases text with
  | nil => rfl
  | cons c rest =>
    have hkind : BreakKind.ofChar c = .other := if_pos (h c List.mem_cons_self)
    rw [clusters, hkind, clustersAfter_of_printable rfl fun x hx => h x (List.mem_cons_of_mem c hx)]
    rfl

end MiniJava.Text
