import FormDerivation.Operator.Evaluation
import FormDerivation.Proofs.Element.Names

/-!
# Elements under other ids

`Element.rename` gives the elements of a scope other ids and lets formulas refer to them under
these.  Elements inside a repetition are named within it, so they keep their ids.  A formula has the
same value where the keys of its references stand for the same values
(`Formula.evaluate_rename_congr`).
-/

namespace FormDerivation

/-! ## Formulas -/

mutual

def Formula.rename (p : String → String) : Formula → Formula
  | .apply operator operands => .apply operator (Operand.renameAll p operands)

def Operand.rename (p : String → String) : Operand → Operand
  | .constant value => .constant value
  | .reference id => .reference (p id)
  | .nested formula => .nested (Formula.rename p formula)

def Operand.renameAll (p : String → String) : List Operand → List Operand
  | [] => []
  | operand :: rest => Operand.rename p operand :: Operand.renameAll p rest

end

mutual

@[simp] theorem Formula.rename_self :
    (formula : Formula) → formula.rename (fun name => name) = formula
  | .apply operator operands => by rw [Formula.rename, Operand.renameAll_self operands]

@[simp] theorem Operand.rename_self :
    (operand : Operand) → operand.rename (fun name => name) = operand
  | .constant value => rfl
  | .reference id => rfl
  | .nested formula => by rw [Operand.rename, Formula.rename_self formula]

@[simp] theorem Operand.renameAll_self : (operands : List Operand) →
    Operand.renameAll (fun name => name) operands = operands
  | [] => rfl
  | operand :: rest => by
      rw [Operand.renameAll, Operand.rename_self operand, Operand.renameAll_self rest]

end

def SameNames (p : String → String) (scope scope' : Option String) (context context' : KeyMap Json) :
    Prop :=
  ∀ id, context'.get? (scopedKey scope' (p id)) = context.get? (scopedKey scope id)

section Evaluation

variable {p : String → String} {scope scope' : Option String} {context context' : KeyMap Json}
  (registry : OperatorRegistry)

mutual

theorem Formula.evaluate_rename_congr : (formula : Formula) →
    (∀ id ∈ formula.references,
      context'.get? (scopedKey scope' (p id)) = context.get? (scopedKey scope id)) →
    (formula.rename p).evaluate registry context' scope' = formula.evaluate registry context scope
  | .apply operator operands, h => by
      rw [Formula.references] at h
      rw [Formula.rename, Formula.evaluate, Formula.evaluate,
        Operand.evaluateAll_rename_congr operands h]

theorem Operand.evaluate_rename_congr : (operand : Operand) →
    (∀ id ∈ operand.references,
      context'.get? (scopedKey scope' (p id)) = context.get? (scopedKey scope id)) →
    (operand.rename p).evaluate registry context' scope' = operand.evaluate registry context scope
  | .constant value, _ => rfl
  | .reference id, h => by
      rw [Operand.references, List.forall_mem_singleton] at h
      rw [Operand.rename, Operand.evaluate, Operand.evaluate, h]
  | .nested formula, h => by
      rw [Operand.references] at h
      rw [Operand.rename, Operand.evaluate, Operand.evaluate,
        Formula.evaluate_rename_congr formula h]

theorem Operand.evaluateAll_rename_congr : (operands : List Operand) →
    (∀ id ∈ Operand.referencesAll operands,
      context'.get? (scopedKey scope' (p id)) = context.get? (scopedKey scope id)) →
    Operand.evaluateAll registry context' scope' (Operand.renameAll p operands) =
      Operand.evaluateAll registry context scope operands
  | [], _ => rfl
  | operand :: rest, h => by
      rw [Operand.referencesAll, List.forall_mem_append] at h
      rw [Operand.renameAll, Operand.evaluateAll, Operand.evaluateAll,
        Operand.evaluate_rename_congr operand h.1, Operand.evaluateAll_rename_congr rest h.2]

end

/-- A formula has the same value where all names stand for the same values. -/
theorem Formula.evaluate_rename (h : SameNames p scope scope' context context')
    (formula : Formula) : (formula.rename p).evaluate registry context' scope' =
      formula.evaluate registry context scope :=
  Formula.evaluate_rename_congr registry formula fun id _ => h id

end Evaluation

/-! ## Elements -/

namespace Expression

def isScript : Expression → Bool
  | .script _ => true
  | _ => false

/-- An expression whose formula refers to other ids; scripts stay as they are. -/
def rename (p : String → String) : Expression → Expression
  | .formula f => .formula (f.rename p)
  | e => e

@[simp] theorem rename_self (e : Expression) : e.rename (fun name => name) = e := by
  cases e with
  | formula f => rw [rename, Formula.rename_self]
  | _ => rfl

@[simp] theorem map_rename_self (e : Option Expression) : e.map (rename fun name => name) = e := by
  cases e with
  | none => rfl
  | some e => rw [Option.map_some, rename_self]

end Expression

def Attributes.rename (p : String → String) (a : Attributes) : Attributes :=
  { a with
    id := p a.id
    visibility := a.visibility.map (.rename p)
    patch := a.patch.map (.rename p) }

def FieldTraits.rename (p : String → String) (t : FieldTraits) : FieldTraits :=
  { t with
    validation := t.validation.map (.rename p)
    compute := t.compute.map (.rename p) }

@[simp] theorem Attributes.rename_self (a : Attributes) : a.rename (fun name => name) = a := by
  simp [rename]

@[simp] theorem FieldTraits.rename_self (t : FieldTraits) : t.rename (fun name => name) = t := by
  simp [rename]

/-- What becomes of the ids below a container: those in a repetition stay as they are. -/
def Container.renaming (p : String → String) : Container → String → String
  | .repeating _ => fun name => name
  | _ => p

@[simp] theorem Container.renaming_self (kind : Container) :
    kind.renaming (fun name => name) = fun name => name := by
  cases kind <;> rfl

namespace Element

mutual

def rename (p : String → String) : Element → Element
  | .container attributes kind children =>
    .container (attributes.rename p) kind (renameAll (kind.renaming p) children)
  | .field attributes traits => .field (attributes.rename p) (traits.rename p)
  | .content attributes text => .content (attributes.rename p) text

def renameAll (p : String → String) : List Element → List Element
  | [] => []
  | e :: rest => rename p e :: renameAll p rest

end

theorem attributes_rename (p : String → String) (e : Element) :
    (e.rename p).attributes = e.attributes.rename p := by
  cases e <;> simp [rename]

theorem id_rename (p : String → String) (e : Element) : (e.rename p).id = p e.id := by
  rw [id, attributes_rename]
  rfl

mutual

theorem rename_self : (e : Element) → e.rename (fun name => name) = e
  | .container attributes kind children => by
      simp [rename, renameAll_self children]
  | .field attributes traits => by simp [rename]
  | .content attributes text => by simp [rename]

theorem renameAll_self : (es : List Element) → renameAll (fun name => name) es = es
  | [] => rfl
  | e :: rest => by rw [renameAll, rename_self e, renameAll_self rest]

end

structure Plain (e : Element) : Prop where
  patch : e.attributes.patch = none
  expressions : ∀ x ∈ e.expressions, x.isScript = false

namespace Plain

theorem visibility {e : Element} (h : e.Plain) :
    ∀ x ∈ e.attributes.visibility.toList, x.isScript = false :=
  fun x hx => h.expressions x (e.attribute_expressions_subset (List.mem_append_left _ hx))

theorem validation {attributes : Attributes} {traits : FieldTraits}
    (h : (field attributes traits).Plain) : ∀ x ∈ traits.validation.toList, x.isScript = false :=
  fun x hx => h.expressions x (List.mem_append_left _ (List.mem_append_right _ hx))

theorem compute {attributes : Attributes} {traits : FieldTraits}
    (h : (field attributes traits).Plain) : ∀ x ∈ traits.compute.toList, x.isScript = false :=
  fun x hx => h.expressions x (List.mem_append_right _ hx)

end Plain

end Element

end FormDerivation
