import LiveExpr.Graph.Basic

/-!
The graph in the DOT language: a line for every node, then one for every edge from an input to the
node that reads it.
-/

namespace LiveExpr.Graph.Dot

/-- A backslash goes before quotation marks and backslashes, and a line break becomes `\l`. -/
def escapeChar : Char → String
  | '"' => "\\\""
  | '\\' => "\\\\"
  | '\n' => "\\l"
  | c => String.singleton c

def escape (s : String) : String :=
  String.join (s.toList.map escapeChar)

def nodeLabel (n : Node) : String :=
  n.kind.tag.name ++ " " ++ n.label ++ " : " ++ n.type.render

def nodeLine (id : Nat) (n : Node) : String :=
  "    " ++ toString id ++ " [ label = \"" ++ escape (nodeLabel n) ++ "\" ]\n"

def edgeLine (source target : Nat) : String :=
  "    " ++ toString source ++ " -> " ++ toString target ++ " [ ]\n"

def render (g : Graph) : String :=
  let numbered := (List.range g.size).zip g.nodes.toList
  "digraph \x7b\n" ++
    String.join (numbered.map fun (id, n) => nodeLine id n) ++
    String.join (numbered.flatMap fun (id, n) => n.inputs.map (edgeLine · id)) ++
    "\x7d\n"

end LiveExpr.Graph.Dot
