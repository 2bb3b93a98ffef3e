import FormDerivation.Proofs.Derivation.Record

/-!
# The own steps of an instance

`Walk.Own` relates the walks before and behind the own steps of an instance.  A relation that these
steps have and that sequences keep (`Walk.Sequential`) is one of every walk, and a derivation splits
at each of its instances: into what comes before, the own steps and what comes later
(`FormEngine.exists_around`).
-/

namespace FormDerivation

namespace Walk

variable (setting : WalkSetting)

/-- The walks before and behind the own steps of an instance, which come before what is below it. -/
inductive Own : Instance → Walk → Walk → Prop where
  | entered (above : List Instance) {scope : Option String} {e : Element} {visible : Bool}
      {walk entered : Walk} (h : (enter setting scope e).run walk = .ok (visible, entered)) :
      Own (enteredInstance setting above scope e walk) walk
        (if visible then opened setting scope e entered else entered)
  | hidden (above : List Instance) (scope : Option String) (e : Element) (walk : Walk) :
      Own (hiddenInstance above scope e walk) walk (markVisibility (scopedKey scope e.id) false walk)

structure Sequential (P : List Instance → Walk → Walk → Prop) : Prop where
  nil : ∀ walk, P [] walk walk
  append : ∀ {first second : List Instance} {walk between walk' : Walk},
    P first walk between → P second between walk' → P (first ++ second) walk walk'
  own : ∀ {v : Instance} {walk walk' : Walk}, Own setting v walk walk' → P [v] walk walk'

variable {setting}

theorem Own.state_eq {v : Instance} {walk walk' : Walk} (h : Own setting v walk walk') :
    walk'.state = v.after := by
  cases h with
  | entered above henter => simp only [enteredInstance, henter]
  | hidden above scope e walk => rfl

namespace Sequential

variable {P Q : List Instance → Walk → Walk → Prop}

theorem compositional (hP : Sequential setting P) : Compositional setting P where
  nil := hP.nil
  append := hP.append
  entered := by
    intro above scope e visible walk entered walk' below henter _ _ hbelow
    exact hP.append (hP.own (.entered above henter)) hbelow
  hidden := by
    intro above scope e walk walk' below _ hbelow
    exact hP.append (hP.own (.hidden above scope e walk)) hbelow

theorem records : Sequential setting Records where
  nil := .nil
  append := .append
  own := by
    intro v walk walk' h
    cases h with
    | entered above henter => exact .entered henter
    | hidden above scope e walk => exact .hidden above scope e walk

theorem both (hP : Sequential setting P) (hQ : Sequential setting Q) :
    Sequential setting fun list walk walk' => P list walk walk' ∧ Q list walk walk' where
  nil := fun walk => ⟨hP.nil walk, hQ.nil walk⟩
  append := fun h h' => ⟨hP.append h.1 h'.1, hQ.append h.2 h'.2⟩
  own := fun h => ⟨hP.own h, hQ.own h⟩

end Sequential

/-! ## A walk around an instance -/

structure Splits (setting : WalkSetting) (P : List Instance → Walk → Walk → Prop)
    (list : List Instance) (walk walk' : Walk) : Prop where
  whole : P list walk walk'
  around : ∀ before v later, list = before ++ v :: later →
    ∃ start between, P before walk start ∧ Own setting v start between ∧ P later between walk'

variable {P : List Instance → Walk → Walk → Prop}

theorem Splits.append (hP : Sequential setting P) {first second : List Instance}
    {walk between walk' : Walk} (h : Splits setting P first walk between)
    (h' : Splits setting P second between walk') :
    Splits setting P (first ++ second) walk walk' where
  whole := hP.append h.whole h'.whole
  around := by
    intro before v later hlist
    -- The instance is listed either by the second walk or by the first one.
    rw [List.append_eq_append_iff] at hlist
    rcases hlist with ⟨part, rfl, hsecond⟩ | ⟨part, rfl, hpart⟩
    · obtain ⟨start, after, hbefore, hown, hlater⟩ := h'.around part v later hsecond
      exact ⟨start, after, hP.append h.whole hbefore, hown, hlater⟩
    · cases part with
      | nil =>
          obtain ⟨start, after, hbefore, hown, hlater⟩ := h'.around [] v later hpart.symm
          have hfirst := hP.append h.whole hbefore
          simp only [List.append_nil] at hfirst
          exact ⟨start, after, hfirst, hown, hlater⟩
      | cons u part =>
          obtain ⟨rfl, rfl⟩ := List.cons.inj hpart
          obtain ⟨start, after, hbefore, hown, hlater⟩ := h.around before v part rfl
          exact ⟨start, after, hbefore, hown, hP.append hlater h'.whole⟩

theorem sequential_splits (hP : Sequential setting P) : Sequential setting (Splits setting P) where
  nil := by
    intro walk
    refine ⟨hP.nil walk, ?_⟩
    intro before v later hlist
    cases before <;> cases hlist
  append := .append hP
  own := by
    intro u walk walk' hown
    refine ⟨hP.own hown, ?_⟩
    intro before v later hlist
    cases before with
    | nil =>
        cases hlist
        exact ⟨walk, walk', hP.nil walk, hown, hP.nil walk'⟩
    | cons w before => cases before <;> cases hlist

end Walk

/-! ## A derivation around an instance -/

namespace FormEngine

variable {engine : FormEngine} {tree : Element} {inputs globals : KeyMap Json} {state : FormState}

theorem exists_around {P : List Instance → Walk → Walk → Prop}
    (hP : Walk.Sequential ⟨engine.operators, engine.config⟩ P)
    (h : engine.derive tree inputs globals = .ok state) {before later : List Instance} {v : Instance}
    (hlist : engine.instances tree inputs globals = before ++ v :: later) :
    ∃ walk start between walk' : Walk, walk.state = .ofInputs inputs ∧ P before walk start ∧
      Walk.Own ⟨engine.operators, engine.config⟩ v start between ∧ P later between walk' ∧
      walk'.state = state := by
  obtain ⟨walk, walk', hstart, hend, hsplits⟩ :=
    compositional_of_derive (Walk.sequential_splits hP).compositional h
  obtain ⟨start, between, hbefore, hown, hlater⟩ := hsplits.around before v later hlist
  exact ⟨walk, start, between, walk', hstart, hbefore, hown, hlater, hend⟩

end FormEngine

end FormDerivation
