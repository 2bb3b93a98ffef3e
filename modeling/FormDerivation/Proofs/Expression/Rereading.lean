import FormDerivation.Expression.Stored

/-!
# Reading written expressions

A formula is read back from its stored form as it is, and so is a script.  A malformed expression
is not: its stored form is of no known kind, so it is read as malformed for that reason.
`Expression.reread` is what becomes of an expression that is written and read.
-/

namespace FormDerivation

theorem Formula.readFields_written {operator : String} {operands : List Operand} {stored : Json}
    (h : Operand.readList stored = .ok operands) :
    Formula.readFields [("operator", .string operator), ("operands", stored)] =
      .ok ⟨some operator, some operands⟩ := by
  simp [readFields, Json.requireText, h]

mutual

@[simp] theorem Formula.read_toJson : (formula : Formula) → Formula.read formula.toJson = .ok formula
  | .apply operator operands => by
      rw [Formula.toJson, Formula.read,
        Formula.readFields_written (by rw [Operand.readList, Operand.readItems_toJsonAll operands])]
      rfl

@[simp] theorem Operand.read_toJson : (operand : Operand) → Operand.read operand.toJson = .ok operand
  | .constant value => by
      simp [Operand.toJson, Operand.read, Operand.readKind, Operand.kinds]
  | .reference id => by
      simp [Operand.toJson, Operand.read, Operand.readKind, Operand.kinds,
        Json.requireText, bind, Except.bind]
  | .nested formula => by
      have hread := Formula.read_toJson formula
      simp [Operand.toJson, Operand.read, Operand.readKind, Operand.kinds,
        Operand.readNested, hread]

@[simp] theorem Operand.readItems_toJsonAll : (operands : List Operand) →
    Operand.readItems (Operand.toJsonAll operands) = .ok operands
  | [] => rfl
  | operand :: rest => by
      rw [Operand.toJsonAll, Operand.readItems, Operand.read_toJson operand]
      simp only [Operand.readItems_toJsonAll rest]

end

namespace Expression

def isMalformed : Expression → Bool
  | .malformed _ _ => true
  | _ => false

def reread (e : Expression) : Expression :=
  match e with
  | .malformed raw reason =>
    .malformed (toJson (.malformed raw reason)) "unknown expression kind 'malformed'"
  | e => e

theorem ofJson_toJson (e : Expression) : ofJson e.toJson = e.reread := by
  cases e with
  | script code => rfl
  | formula formula =>
      obtain ⟨operator, operands⟩ := formula
      have hkind : ExpressionKind.ofName "no_code" = .formula := by decide
      have hread : Formula.read (toJson (.formula (.apply operator operands))) =
          .ok (.apply operator operands) := by
        rw [toJson, Formula.read, Formula.readFields]
        simp only [String.reduceBEq, Bool.false_eq_true, if_false]
        rw [Formula.readFields_written
          (by rw [Operand.readList, Operand.readItems_toJsonAll operands])]
        rfl
      rw [toJson] at hread ⊢
      simp [ofJson, ExpressionKind.ofMembers?, hkind, hread, reread]
  | malformed raw reason =>
      have hkind : ExpressionKind.ofName "malformed" = .other "malformed" := by decide
      simp [toJson, ofJson, ExpressionKind.ofMembers?, hkind, reread]

theorem reread_eq_self {e : Expression} (h : e.isMalformed = false) : e.reread = e := by
  cases e with
  | script code => rfl
  | formula formula => rfl
  | malformed raw reason => cases h

end Expression

end FormDerivation
