import FormDerivation.Element.Traversal

/-!
Diagnostics of references: which elements the expressions of a form mention, and which of the
mentioned ids no element explains.
-/

namespace FormDerivation

structure ReferenceReport where
  references : KeyMap KeySet
  unresolved : KeySet

namespace ReferenceReport

def endsWith (text ending : String) : Bool :=
  (Text.dropBeginning? ending.toList.reverse text.toList.reverse).isSome

/-- Whether an id of a form explains a reference: it is the id, or a key of a repetition for it. -/
def explains (id reference : String) : Bool :=
  id == reference || endsWith reference ("_" ++ id)

def ofTree (tree : Element) : ReferenceReport :=
  let references := tree.references
  let mentioned := references.values.flatMap KeyMap.keys
  { references
    unresolved := KeySet.ofList (mentioned.filter fun reference =>
      !tree.ids.any fun id => explains id reference) }

def toJson (report : ReferenceReport) : Json :=
  .object [
    ("references", Json.ofMap (report.references.mapValues fun _ ids => Json.ofStrings ids.keys)),
    ("unresolved", Json.ofStrings report.unresolved.keys)]

end ReferenceReport

end FormDerivation
