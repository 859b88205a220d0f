import LiveExpr.Value.Basic
import LiveExpr.Numeric.Shortest
import LiveExpr.Text

/-!
The text of a value: bare for readers, and with strings and characters quoted where it stands in
an expression or a trace.
-/

namespace LiveExpr.Value

mutual

def render : Value → String
  | null => "null"
  | bool b => toString b
  | char c => String.singleton c
  | int n => toString n.toInt
  | float _ x => x.render
  | str _ s => s
  | timestamp t => t.render
  | duration d => d.render
  | uuid bits => Text.uuidText bits
  | enum name d => name ++ "(" ++ toString d.toInt ++ ")"
  | array _ items => "[" ++ renderItems items ++ "]"
  | object r | struct r => "<" ++ r.typeName ++ ">"

/-- Items stand bare, even strings, with a comma and a space between them. -/
def renderItems : List Value → String
  | [] => ""
  | [v] => v.render
  | v :: w :: rest => v.render ++ ", " ++ renderItems (w :: rest)

end

/-- A string or a character in quotation marks; anything else bare. -/
def quoted : Value → String
  | str _ s => Text.quote s
  | char c => Text.quoteChar c
  | v => v.render

end LiveExpr.Value
