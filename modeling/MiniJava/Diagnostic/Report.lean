import MiniJava.Position

/-!
# Reports — what went wrong, as text

A notice is a message with the position it speaks of. A report holds the notices of the two stages
of reading a text, each in the order in which they were found. `Report.entries` puts them in reading
order: notices at one position keep their order, those of the first stage before those of the
second.
-/

namespace MiniJava

/-- A message and the position it speaks of. -/
structure Notice where
  message : String
  position : Position
deriving DecidableEq, Repr, Inhabited

namespace Notice

/-- The notice in full, under the name of its stage. -/
def rendered (stage : String) (n : Notice) : String :=
  stage ++ " error at line " ++ toString n.position.line ++ ", column " ++
    toString n.position.column ++ ": " ++ n.message

end Notice

/-- The notices of both stages. -/
structure Report where
  lexical : List Notice
  syntactic : List Notice
deriving DecidableEq, Repr, Inhabited

namespace Report

/-- Every notice in full with its position, lexical ones first. -/
def found (r : Report) : List (Position × String) :=
  r.lexical.map (fun n => (n.position, n.rendered "Lexer")) ++
    r.syntactic.map (fun n => (n.position, n.rendered "Parse"))

/-- Every notice in full with its position, in reading order. -/
def entries (r : Report) : List (Position × String) :=
  r.found.mergeSort fun a b => a.1.notAfter b.1

/-- Every notice in full on a line of its own, lexical ones first. -/
def rendered (r : Report) : String := "\n".intercalate (r.found.map (·.2))

/-- How many notices there are. -/
def size (r : Report) : Nat := r.lexical.length + r.syntactic.length

/-- Nothing went wrong. -/
def isEmpty (r : Report) : Bool := r.lexical.isEmpty && r.syntactic.isEmpty

@[simp] theorem length_found (r : Report) : r.found.length = r.size := by simp [found, size]

@[simp] theorem length_entries (r : Report) : r.entries.length = r.size := by simp [entries]

theorem isEmpty_iff_size (r : Report) : r.isEmpty = true ↔ r.size = 0 := by
  simp [isEmpty, size, List.isEmpty_iff]

/-- The entries are in reading order. -/
theorem pairwise_entries (r : Report) :
    r.entries.Pairwise fun a b => a.1.notAfter b.1 := by
  refine List.pairwise_mergeSort (fun _ _ _ hab hbc => ?_) (fun _ _ => ?_) _
  · exact Position.notAfter_trans hab hbc
  · exact Position.notAfter_total _ _

/-- Reading order changes no notice. -/
theorem entries_perm_found (r : Report) : r.entries.Perm r.found := List.mergeSort_perm _ _

end Report

end MiniJava
