import FormDerivation.Expression.Basic

/-!
The elements of a form: a tree of containers with fields and contents as its leaves.

A repeating container stands for one copy of its children per repetition.  A root lists its
introduction before its other children, and its summary and submit step behind them.
-/

namespace FormDerivation

structure Attributes where
  id : String
  label : String
  weight : Option Int
  visibility : Option Expression
  patch : Option Expression
  deriving Repr, Inhabited

inductive FieldKind where
  | text
  | textarea
  | number
  | checkbox
  | date
  | select
  | email
  | other
  deriving DecidableEq, Repr, Inhabited

namespace FieldKind

def name : FieldKind → String
  | .text => "text"
  | .textarea => "textarea"
  | .number => "number"
  | .checkbox => "checkbox"
  | .date => "date"
  | .select => "select"
  | .email => "email"
  | .other => "other"

end FieldKind

structure Constraint where
  pattern : Option String
  minLength : Option Nat
  maxLength : Option Nat
  min : Option Float
  max : Option Float
  deriving Repr, Inhabited

structure FieldTraits where
  kind : FieldKind
  required : Bool
  constraint : Option Constraint
  validation : Option Expression
  validationMessage : Option String
  compute : Option Expression
  deriving Repr, Inhabited

structure RootSteps where
  introduction : Bool
  summary : Bool
  submit : Bool
  deriving DecidableEq, Repr, Inhabited

structure RepetitionBounds where
  min : Nat
  max : Option Nat
  deriving DecidableEq, Repr, Inhabited

inductive Container where
  | root (steps : RootSteps)
  | step
  | group
  | repeating (bounds : RepetitionBounds)
  deriving DecidableEq, Repr, Inhabited

inductive Element where
  | container (attributes : Attributes) (kind : Container) (children : List Element)
  | field (attributes : Attributes) (traits : FieldTraits)
  | content (attributes : Attributes) (text : String)
  deriving Repr, Inhabited

namespace Container

def name : Container → String
  | .root _ => "root"
  | .step => "step"
  | .group => "group"
  | .repeating _ => "repeating"

end Container

namespace Element

def attributes : Element → Attributes
  | .container attributes _ _ => attributes
  | .field attributes _ => attributes
  | .content attributes _ => attributes

@[simp] theorem attributes_container (attributes : Attributes) (kind : Container)
    (children : List Element) : (container attributes kind children).attributes = attributes := rfl

@[simp] theorem attributes_field (attributes : Attributes) (traits : FieldTraits) :
    (field attributes traits).attributes = attributes := rfl

@[simp] theorem attributes_content (attributes : Attributes) (text : String) :
    (content attributes text).attributes = attributes := rfl

def id (e : Element) : String :=
  e.attributes.id

@[simp] theorem id_container (attributes : Attributes) (kind : Container)
    (children : List Element) : (container attributes kind children).id = attributes.id := rfl

@[simp] theorem id_field (attributes : Attributes) (traits : FieldTraits) :
    (field attributes traits).id = attributes.id := rfl

@[simp] theorem id_content (attributes : Attributes) (text : String) :
    (content attributes text).id = attributes.id := rfl

def label (e : Element) : String :=
  e.attributes.label

def children : Element → List Element
  | .container _ _ children => children
  | .field _ _ => []
  | .content _ _ => []

@[simp] theorem children_container (attributes : Attributes) (kind : Container)
    (children : List Element) : (container attributes kind children).children = children := rfl

@[simp] theorem children_field (attributes : Attributes) (traits : FieldTraits) :
    (field attributes traits).children = [] := rfl

@[simp] theorem children_content (attributes : Attributes) (text : String) :
    (content attributes text).children = [] := rfl

def kindName : Element → String
  | .container _ kind _ => kind.name
  | .field _ _ => "field"
  | .content _ _ => "content"

def isField : Element → Bool
  | .field _ _ => true
  | _ => false

def expressions (e : Element) : List Expression :=
  let own := e.attributes.visibility.toList ++ e.attributes.patch.toList
  match e with
  | .field _ traits => own ++ traits.validation.toList ++ traits.compute.toList
  | _ => own

end Element

/-! ## Equality -/

def sameOption {α : Type} (same : α → α → Bool) : Option α → Option α → Bool
  | none, none => true
  | some a, some b => same a b
  | _, _ => false

def Attributes.same (a b : Attributes) : Bool :=
  a.id == b.id && a.label == b.label && a.weight == b.weight &&
    sameOption Expression.same a.visibility b.visibility &&
    sameOption Expression.same a.patch b.patch

def Constraint.same (a b : Constraint) : Bool :=
  a.pattern == b.pattern && a.minLength == b.minLength && a.maxLength == b.maxLength &&
    a.min == b.min && a.max == b.max

def FieldTraits.same (a b : FieldTraits) : Bool :=
  a.kind == b.kind && a.required == b.required &&
    sameOption Constraint.same a.constraint b.constraint &&
    sameOption Expression.same a.validation b.validation &&
    a.validationMessage == b.validationMessage &&
    sameOption Expression.same a.compute b.compute

mutual

/-- Equality of trees: scripts by their source, stored values as such. -/
def Element.same : Element → Element → Bool
  | .container a kind children, .container b other others =>
    a.same b && kind == other && Element.sameAll children others
  | .field a traits, .field b others => a.same b && traits.same others
  | .content a text, .content b other => a.same b && text == other
  | _, _ => false

def Element.sameAll : List Element → List Element → Bool
  | [], [] => true
  | a :: as, b :: bs => Element.same a b && Element.sameAll as bs
  | _, _ => false

end

instance : BEq Element := ⟨Element.same⟩

end FormDerivation
