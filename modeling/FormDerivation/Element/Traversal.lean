import FormDerivation.Element.Basic
import FormDerivation.Expression.References

/-!
Walking over the tree of elements: every element before its children, and all that lies below it
before its next sibling.
-/

namespace FormDerivation.Element

mutual

def nodesFrom (depth : Nat) : Element → List (Nat × Element)
  | .container attributes kind children =>
    (depth, .container attributes kind children) :: nodesFromAll (depth + 1) children
  | .field attributes traits => [(depth, .field attributes traits)]
  | .content attributes text => [(depth, .content attributes text)]

def nodesFromAll (depth : Nat) : List Element → List (Nat × Element)
  | [] => []
  | e :: rest => nodesFrom depth e ++ nodesFromAll depth rest

end

def nodes (e : Element) : List (Nat × Element) :=
  e.nodesFrom 0

def ids (e : Element) : List String :=
  e.nodes.map fun node => node.2.id

mutual

def find? (id : String) : Element → Option Element
  | .container attributes kind children =>
    if attributes.id = id then some (.container attributes kind children)
    else findAmong? id children
  | .field attributes traits =>
    if attributes.id = id then some (.field attributes traits) else none
  | .content attributes text =>
    if attributes.id = id then some (.content attributes text) else none

def findAmong? (id : String) : List Element → Option Element
  | [] => none
  | e :: rest =>
    match find? id e with
    | some found => some found
    | none => findAmong? id rest

end

def ownReferences (e : Element) : KeySet :=
  e.expressions.foldl (fun set expression => KeySet.insertAll set expression.references.keys)
    KeyMap.empty

/-- The references of each element that has any, by its id; of equal ids the last one counts. -/
def references (e : Element) : KeyMap KeySet :=
  e.nodes.foldl
    (fun map node =>
      let own := node.2.ownReferences
      if own.isEmpty then map else map.insert node.2.id own)
    KeyMap.empty

end FormDerivation.Element
