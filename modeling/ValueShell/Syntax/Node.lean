/-
  The nodes of a syntax tree, all as one type.

  The tree has a type for every rule of the grammar.  What is said of ALL its nodes, whatever their rule, is
  said of a `Node`: where it was read from (`span`), which nodes it is made of (`children`, in source
  order), and which nodes are somewhere inside it (`Inside`).
-/
import ValueShell.Syntax.Tree

namespace ValueShell

/-- A node of a syntax tree. -/
inductive Node
  | chunk (chunk : Chunk)
  | pipeline (pipeline : Pipeline)
  | form (form : Form)
  | assignment (assignment : Assignment)
  | compound (compound : Compound)
  | indexing (indexing : Indexing)
  | bracket (bracket : Bracket)
  | primary (primary : Primary)
  | pair (pair : MapPair)
  | param (param : Param)

namespace Node

/-- The span the node was read from. -/
def span : Node → Span
  | chunk c => c.span
  | pipeline p => p.span
  | form f => f.span
  | assignment a => a.span
  | compound c => c.span
  | indexing i => i.span
  | bracket b => b.span
  | primary p => p.span
  | pair p => p.span
  | param p => p.span

/-- The nodes that the node is made of, in source order. -/
def children : Node → List Node
  | chunk c => c.pipelines.map pipeline
  | pipeline p => p.forms.map form
  | form (.assign assignments _) => assignments.map assignment
  | form (.command head args _) => (head :: args).map compound
  | assignment a => indexing a.left :: a.right.map compound
  | compound c => c.indexings.map indexing
  | indexing i => primary i.head :: i.brackets.map bracket
  | bracket b => b.items.map compound
  | primary (.capture c _) => [chunk c]
  | primary (.list items _) | primary (.braced items _) => items.map compound
  | primary (.map pairs _) => pairs.map pair
  | primary (.lambda params body _) => params.map param ++ [chunk body]
  | primary (.bareword ..) | primary (.singleQuoted ..) | primary (.doubleQuoted ..)
  | primary (.reference ..) => []
  | pair p => [compound p.key, compound p.value]
  | param _ => []

/-- The node is the other one, or somewhere inside it. -/
inductive Inside (n : Node) : Node → Prop
  | self : Inside n n
  | child {m parent : Node} (h : m ∈ parent.children) (inside : Inside n m) : Inside n parent

end Node

end ValueShell
