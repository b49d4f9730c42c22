/-!
Formulas of first-order logic over named functions, and definitions that give such a formula a
name and parameters. Equality of formulas is decidable.
-/

namespace FormulaReader

inductive Quantifier where
  | universal
  | existential
deriving DecidableEq

inductive Connective where
  | and
  | or
deriving DecidableEq

inductive Expression where
  | var (name : String)
  | call (name : String) (arguments : List Expression)
  | binary (connective : Connective) (left right : Expression)
  | quantified (quantifier : Quantifier) (name : String) (body : Expression)

namespace Expression

mutual

private def decideEq : (e f : Expression) → Decidable (e = f)
  | .var a, .var b =>
      decidable_of_iff (a = b) (by simp)
  | .call a es, .call b fs =>
      match decEq a b, decideListEq es fs with
      | isTrue sameName, isTrue sameArguments =>
          isTrue (by rw [sameName, sameArguments])
      | isFalse differ, _ => isFalse fun same => differ (by injection same)
      | _, isFalse differ => isFalse fun same => differ (by injection same)
  | .binary c l r, .binary d m s =>
      match decEq c d, decideEq l m, decideEq r s with
      | isTrue sameConnective, isTrue sameLeft, isTrue sameRight =>
          isTrue (by rw [sameConnective, sameLeft, sameRight])
      | isFalse differ, _, _ => isFalse fun same => differ (by injection same)
      | _, isFalse differ, _ => isFalse fun same => differ (by injection same)
      | _, _, isFalse differ => isFalse fun same => differ (by injection same)
  | .quantified p x e, .quantified q y f =>
      match decEq p q, decEq x y, decideEq e f with
      | isTrue sameQuantifier, isTrue sameName, isTrue sameBody =>
          isTrue (by rw [sameQuantifier, sameName, sameBody])
      | isFalse differ, _, _ => isFalse fun same => differ (by injection same)
      | _, isFalse differ, _ => isFalse fun same => differ (by injection same)
      | _, _, isFalse differ => isFalse fun same => differ (by injection same)
  | .var _, .call _ _ => isFalse (by simp)
  | .var _, .binary _ _ _ => isFalse (by simp)
  | .var _, .quantified _ _ _ => isFalse (by simp)
  | .call _ _, .var _ => isFalse (by simp)
  | .call _ _, .binary _ _ _ => isFalse (by simp)
  | .call _ _, .quantified _ _ _ => isFalse (by simp)
  | .binary _ _ _, .var _ => isFalse (by simp)
  | .binary _ _ _, .call _ _ => isFalse (by simp)
  | .binary _ _ _, .quantified _ _ _ => isFalse (by simp)
  | .quantified _ _ _, .var _ => isFalse (by simp)
  | .quantified _ _ _, .call _ _ => isFalse (by simp)
  | .quantified _ _ _, .binary _ _ _ => isFalse (by simp)

private def decideListEq : (es fs : List Expression) → Decidable (es = fs)
  | [], [] => isTrue rfl
  | [], _ :: _ => isFalse (by simp)
  | _ :: _, [] => isFalse (by simp)
  | e :: es, f :: fs =>
      match decideEq e f, decideListEq es fs with
      | isTrue sameHead, isTrue sameTail => isTrue (by rw [sameHead, sameTail])
      | isFalse differ, _ => isFalse fun same => differ (by injection same)
      | _, isFalse differ => isFalse fun same => differ (by injection same)

end

instance : DecidableEq Expression := decideEq

end Expression

/-- The name of a function and of its parameters, which may repeat. -/
structure Prototype where
  name : String
  parameters : List String
deriving DecidableEq

structure Definition where
  prototype : Prototype
  body : Expression
deriving DecidableEq

end FormulaReader
