namespace ConstraintGraph

/-- Vertices, each listed once, and arcs between them. Parallel arcs and loops are allowed. -/
structure Dependencies (α : Type) where
  vertices : List α
  arcs : List (α × α)

namespace Dependencies

variable {α : Type} [DecidableEq α]

def parents (d : Dependencies α) (v : α) : List α := (d.arcs.filter (·.2 = v)).map (·.1)

def children (d : Dependencies α) (v : α) : List α := (d.arcs.filter (·.1 = v)).map (·.2)

def hasParent (d : Dependencies α) (v : α) : Bool := d.arcs.any (·.2 = v)

def hasChild (d : Dependencies α) (v : α) : Bool := d.arcs.any (·.1 = v)

def isolated (d : Dependencies α) : List α :=
  d.vertices.filter fun v => !d.hasParent v && !d.hasChild v

def roots (d : Dependencies α) : List α :=
  d.vertices.filter fun v => !d.hasParent v && d.hasChild v

def dependents (d : Dependencies α) : List α := d.vertices.filter d.hasParent

end Dependencies
end ConstraintGraph
