import FormulaReader.Expression.Basic

/-!
The written form of formulas and definitions. Every connective and every quantifier stands in
parentheses of its own, so that the form shows the tree whatever binds tighter.
-/

namespace FormulaReader

/-- The texts with a comma and a space between each two. -/
def commaSeparated : List String → String
  | [] => ""
  | text :: texts => text ++ texts.foldr (fun next rest => ", " ++ next ++ rest) ""

def Quantifier.keyword : Quantifier → String
  | .universal => "forall"
  | .existential => "exists"

def Connective.glyph : Connective → String
  | .and => "/\\"
  | .or => "\\/"

namespace Expression

mutual

/-- The written form of a formula. -/
def text : Expression → String
  | .var name => name
  | .call name arguments => name ++ "(" ++ argumentsText arguments ++ ")"
  | .binary connective left right =>
      "(" ++ left.text ++ " " ++ connective.glyph ++ " " ++ right.text ++ ")"
  | .quantified quantifier name body =>
      "(" ++ quantifier.keyword ++ " " ++ name ++ ", " ++ body.text ++ ")"

/-- The written form of an argument list, without its parentheses. -/
def argumentsText : List Expression → String
  | [] => ""
  | e :: es => e.text ++ furtherText es

/-- The written form of the arguments after the first, each led by its comma. -/
def furtherText : List Expression → String
  | [] => ""
  | e :: es => ", " ++ e.text ++ furtherText es

end

theorem furtherText_eq_foldr (es : List Expression) :
    furtherText es = (es.map text).foldr (fun next rest => ", " ++ next ++ rest) "" := by
  induction es with
  | nil => rfl
  | cons e es ih => simp [furtherText, ih]

theorem argumentsText_eq (es : List Expression) :
    argumentsText es = commaSeparated (es.map text) := by
  cases es with
  | nil => rfl
  | cons e es => simp [argumentsText, commaSeparated, furtherText_eq_foldr]

end Expression

/-- The written form of a prototype. -/
def Prototype.text (p : Prototype) : String :=
  p.name ++ "(" ++ commaSeparated p.parameters ++ ")"

/-- The written form of a definition. -/
def Definition.text (d : Definition) : String :=
  "def " ++ d.prototype.text ++ " " ++ d.body.text

end FormulaReader
