import FormDerivation.Element.Basic

/-!
# Elements that differ below a place

The outline of an element is what hiding sees of it: ids, repetitions and the nesting.  Elements
that differ below themselves (`Element.DiffersBelow`) have the same attributes and children of the
same outline, and `Element.plug` puts an element into its place in a tree.
-/

namespace FormDerivation

inductive Outline where
  | node (id : String) (bounds : Option RepetitionBounds) (children : List Outline)

/-- A container around a place: what it has besides the child at the place. -/
structure Frame where
  attributes : Attributes
  kind : Container
  before : List Element
  after : List Element

namespace Frame

def children (frame : Frame) (e : Element) : List Element :=
  frame.before ++ e :: frame.after

def around (frame : Frame) (e : Element) : Element :=
  .container frame.attributes frame.kind (frame.children e)

end Frame

namespace Element

mutual

def outline : Element → Outline
  | .container attributes (.repeating bounds) children =>
    .node attributes.id (some bounds) (outlines children)
  | .container attributes _ children => .node attributes.id none (outlines children)
  | .field attributes _ => .node attributes.id none []
  | .content attributes _ => .node attributes.id none []

def outlines : List Element → List Outline
  | [] => []
  | e :: rest => outline e :: outlines rest

end

/-- An element in its place: the containers around it are listed from the outermost one. -/
def plug (e : Element) : List Frame → Element
  | [] => e
  | frame :: frames => frame.around (plug e frames)

/-- Elements that are the same but for what the elements strictly below them are besides an outline. -/
inductive DiffersBelow : Element → Element → Prop where
  | refl (e : Element) : DiffersBelow e e
  | container (attributes : Attributes) (kind : Container) {children children' : List Element}
      (h : outlines children' = outlines children) :
      DiffersBelow (.container attributes kind children) (.container attributes kind children')

variable {e e' : Element}

theorem outlines_append (first second : List Element) :
    outlines (first ++ second) = outlines first ++ outlines second := by
  induction first with
  | nil => rfl
  | cons e rest ih => rw [List.cons_append, outlines, ih, outlines, List.cons_append]

theorem outlines_children (frame : Frame) (h : e'.outline = e.outline) :
    outlines (frame.children e') = outlines (frame.children e) := by
  simp only [Frame.children, outlines_append, outlines, h]

theorem outline_container (attributes : Attributes) (kind : Container)
    {children children' : List Element} (h : outlines children' = outlines children) :
    (container attributes kind children').outline = (container attributes kind children).outline := by
  cases kind <;> simp only [outline, h]

theorem outline_plug (h : e'.outline = e.outline) (frames : List Frame) :
    (plug e' frames).outline = (plug e frames).outline := by
  induction frames with
  | nil => exact h
  | cons frame frames ih => exact outline_container _ _ (outlines_children frame ih)

theorem DiffersBelow.outline_eq (h : DiffersBelow e e') : e'.outline = e.outline := by
  cases h with
  | refl => rfl
  | container attributes kind h => exact outline_container attributes kind h

theorem DiffersBelow.plug_id (h : DiffersBelow e e') (frames : List Frame) :
    (plug e' frames).id = (plug e frames).id := by
  cases frames with
  | nil => cases h <;> rfl
  | cons frame frames => rfl

end Element

end FormDerivation
