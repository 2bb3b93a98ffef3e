import FormDerivation.Proofs.Derivation.Inheritance
import FormDerivation.Proofs.Derivation.Lockstep

/-!
# Walks that no step tells apart

`Walk.Congruent` lists what a relation between walks has to keep so that every visit keeps it, with
scripts and patches (`Walk.Congruent.visit`).  The second walk may go over other elements than the
first one as long as a patch leaves the same of both (`Walk.Twins`).
-/

namespace FormDerivation.Walk

variable (setting : WalkSetting)

/-- What a relation of walks has to keep; `T` relates the elements that patches leave. -/
structure Congruent (T : Element → Element → Prop) (R : Walk → Walk → Prop) : Prop
    extends Shared R fun _ => True where
  refl : ∀ e, T e e
  visibility_eq : ∀ {e e'}, T e e' → e'.attributes.visibility = e.attributes.visibility
  traits_eq : ∀ {e e'}, T e e' → e'.traits? = e.traits?
  evaluate : ∀ {walk walk' : Walk} (site : Site) (e : Expression), R walk walk' →
    (walk'.evaluate setting site e).1 = (walk.evaluate setting site e).1 ∧
      R (walk.evaluate setting site e).2 (walk'.evaluate setting site e).2
  recordOverride : ∀ {walk walk' : Walk} {e e' : Element} (key : String), T e e' → R walk walk' →
    R (recordOverride key e walk) (recordOverride key e' walk')

def enterAs (scope : Option String) (id : String) (effective : Element) : WalkM Bool := do
  let visible ← visibility setting ⟨id, scope⟩ effective
  modify (markVisibility (scopedKey scope id) visible)
  answer setting ⟨id, scope⟩ visible effective
  return visible

theorem enter_eq_enterAs (scope : Option String) (e : Element) :
    enter setting scope e = patch setting ⟨e.id, scope⟩ e >>= fun replaced =>
      enterAs setting scope e.id (replaced.getD e) :=
  enter_eq setting scope e

structure Twins (T : Element → Element → Prop) (e e' : Element) : Prop where
  id_eq : e'.id = e.id
  patch_eq : e'.attributes.patch = e.attributes.patch
  self : T e e'
  replacement : ∀ overlay, T (replacement e overlay) (replacement e' overlay)

namespace Congruent

variable {setting} {T : Element → Element → Prop} {R : Walk → Walk → Prop} {site : Site}

theorem twins (h : Congruent setting T R) (e : Element) : Twins T e e :=
  ⟨rfl, rfl, h.refl e, fun _ => h.refl _⟩

theorem value_eq (h : Congruent setting T R) {walk walk' : Walk} (hrelated : R walk walk')
    (key : String) : walk'.state.values.get? key = walk.state.values.get? key :=
  h.values hrelated trivial

/-! ## The steps of an element -/

theorem value (h : Congruent setting T R) (e : Expression) :
    Lockstep R (value setting site e) (value setting site e) := by
  intro walk walk' hrelated
  obtain ⟨hresult, hwalk⟩ := h.evaluate site e hrelated
  rw [value_run, value_run]
  cases hrun : walk.evaluate setting site e with
  | mk result last =>
      cases hrun' : walk'.evaluate setting site e with
      | mk result' last' =>
          simp only [hrun, hrun'] at hresult hwalk
          rw [hresult]
          exact .ok result hwalk

theorem settle (h : Congruent setting T R) {α : Type} (step : DerivationStep)
    (result : Except ExpressionError α) (fallback : α) :
    Lockstep R (settle setting site step result fallback)
      (settle setting site step result fallback) :=
  settle_lockstep setting h.toShared rfl step result fallback

theorem patch_bind (h : Congruent setting T R) {e e' : Element} (htwins : Twins T e e')
    {β : Type} {next next' : Element → WalkM β}
    (hnext : ∀ x x', T x x' → Lockstep R (next x) (next' x')) :
    Lockstep R (patch setting site e >>= fun replaced => next (replaced.getD e))
      (patch setting site e' >>= fun replaced => next' (replaced.getD e')) := by
  unfold patch
  rw [htwins.patch_eq]
  cases e.attributes.patch with
  | none =>
      simp only [pure_bind, Option.getD_none]
      exact hnext e e' htwins.self
  | some expression =>
      simp only [bind_assoc]
      refine (h.value expression).bind fun result => ?_
      refine (h.settle .patch result .null).bind fun overlay => ?_
      cases overlay.object? with
      | none =>
          simp only [pure_bind, Option.getD_none]
          exact hnext e e' htwins.self
      | some members =>
          simp only [bind_assoc, pure_bind, Option.getD_some]
          have hreplaced := htwins.replacement members
          refine Lockstep.bind ?_ fun _ => hnext _ _ hreplaced
          exact .modify fun _ _ hrelated => h.recordOverride site.key hreplaced hrelated

theorem visibility (h : Congruent setting T R) {e e' : Element} (he : T e e') :
    Lockstep R (visibility setting site e) (visibility setting site e') := by
  unfold Walk.visibility
  rw [h.visibility_eq he]
  cases e.attributes.visibility with
  | none => exact .pure true
  | some expression => exact (h.value expression).bind fun result => h.settle .visibility _ false

theorem compute (h : Congruent setting T R) (field : FieldTraits) :
    Lockstep R (compute setting site field) (compute setting site field) := by
  unfold Walk.compute
  cases field.compute with
  | none => exact .pure ()
  | some expression =>
      refine (h.value expression).bind fun result => ?_
      refine (h.settle .compute _ none).bind fun value => ?_
      cases value with
      | none => exact .pure ()
      | some value => exact .modify fun _ _ hrelated => h.setValue value hrelated trivial

theorem findViolation (h : Congruent setting T R) (field : FieldTraits) :
    Lockstep R (findViolation setting site field) (findViolation setting site field) := by
  unfold Walk.findViolation
  refine .get_bind fun walk walk' hrelated => ?_
  rw [h.value_eq hrelated]
  cases field.check (walk.state.values.get? site.key) with
  | some violation => exact Lockstep.pure _ walk walk' hrelated
  | none =>
      cases field.validation with
      | none => exact Lockstep.pure _ walk walk' hrelated
      | some expression =>
          have hviolation : Lockstep R (violation? setting site field expression)
              (violation? setting site field expression) := by
            unfold violation?
            refine (h.value expression).bind fun result => ?_
            cases result with
            | ok result => exact .pure _
            | error error =>
                refine Lockstep.bind ?_ fun _ => .pure _
                exact .modify fun _ _ hrelated => h.recordFailure .validate error hrelated rfl
          exact hviolation walk walk' hrelated

theorem validate (h : Congruent setting T R) (field : FieldTraits) :
    Lockstep R (validate setting site field) (validate setting site field) := by
  rw [validate_eq]
  refine (h.findViolation field).bind fun violation => ?_
  cases violation with
  | none => exact .pure ()
  | some violation => exact .modify fun _ _ hrelated => h.recordError _ hrelated trivial

theorem answer (h : Congruent setting T R) (visible : Bool) {e e' : Element} (he : T e e') :
    Lockstep R (answer setting site visible e) (answer setting site visible e') := by
  have htraits := h.traits_eq he
  cases visible with
  | false => exact .pure ()
  | true =>
      cases e with
      | field attributes traits =>
          cases e' with
          | field attributes' traits' =>
              cases htraits
              exact (h.compute traits).bind fun _ => h.validate traits
          | _ => cases htraits
      | _ =>
          cases e' with
          | field attributes' traits' => cases htraits
          | _ => exact .pure ()

theorem enter (h : Congruent setting T R) (scope : Option String) {e e' : Element}
    (htwins : Twins T e e') : Lockstep R (enter setting scope e) (enter setting scope e') := by
  rw [enter_eq_enterAs, enter_eq_enterAs, htwins.id_eq]
  refine h.patch_bind htwins fun x x' hx => ?_
  refine (h.visibility hx).bind fun visible => ?_
  refine Lockstep.bind ?_ fun _ => (h.answer visible hx).bind fun _ => .pure visible
  exact .modify fun _ _ hrelated => h.markVisibility visible hrelated trivial

/-! ## The walk -/

theorem spread (h : Congruent setting T R) {walk walk' : Walk} (hrelated : R walk walk')
    (scope : Option String) (id : String) (kind : Container) :
    R (spread setting scope id walk kind) (spread setting scope id walk' kind) := by
  cases kind with
  | repeating bounds =>
      have hexpanded : ∀ count, R (expandRows (scopedKey scope id) count walk)
          (expandRows (scopedKey scope id) count walk') :=
        h.expandRows hrelated (fun _ => trivial) id
      simp only [Walk.spread, h.value_eq hrelated]
      exact h.recordCount _ (hexpanded _) trivial
  | _ => exact hrelated

theorem scopesBelow_eq (h : Congruent setting T R) {walk walk' : Walk} (hrelated : R walk walk')
    (scope : Option String) (id : String) (kind : Container) :
    scopesBelow setting scope id walk' kind = scopesBelow setting scope id walk kind := by
  cases kind <;> simp only [scopesBelow, h.value_eq hrelated]

theorem hide (h : Congruent setting T R) (scope : Option String) (e : Element) :
    Lockstep R (hide setting scope e) (hide setting scope e) := by
  have hself : SameKeys (fun _ => True) (fun name => name) scope scope :=
    ⟨fun _ => rfl, fun _ => trivial⟩
  have hlockstep := hide_lockstep setting h.toShared e hself
  rwa [e.rename_self] at hlockstep

theorem hideAll (h : Congruent setting T R) (scope : Option String) (es : List Element) :
    Lockstep R (hideAll setting scope es) (hideAll setting scope es) := by
  induction es with
  | nil => exact .pure ()
  | cons e rest ih =>
      rw [Walk.hideAll]
      exact (h.hide scope e).bind fun _ => ih

theorem scopes (h : Congruent setting T R) {inner inner' : Option String → WalkM Unit}
    (hinner : ∀ scope, Lockstep R (inner scope) (inner' scope)) (scope : Option String)
    (id : String) (kind : Container) :
    Lockstep R (visitWithin setting scope id kind inner) (visitWithin setting scope id kind inner') ∧
      Lockstep R (hideWithin setting scope id kind inner)
        (hideWithin setting scope id kind inner') := by
  have hforM : ∀ scopes : List (Option String), Lockstep R (forM scopes inner) (forM scopes inner') :=
    fun scopes => .forM fun scope _ => hinner scope
  constructor
  · intro walk walk' hrelated
    rw [visitWithin_run, visitWithin_run, h.scopesBelow_eq hrelated]
    exact hforM _ _ _ (h.spread hrelated scope id kind)
  · intro walk walk' hrelated
    rw [hideWithin_run, hideWithin_run, h.scopesBelow_eq hrelated]
    exact hforM _ _ _ hrelated

mutual

theorem visit (h : Congruent setting T R) (scope : Option String) : (e : Element) →
    Lockstep R (visit setting scope e) (visit setting scope e)
  | .container attributes kind children => by
      rw [Walk.visit]
      refine (h.enter scope (h.twins _)).bind fun visible => ?_
      cases visible with
      | true => exact (h.scopes (fun inner => visitAll h inner children) scope attributes.id kind).1
      | false => exact (h.scopes (fun inner => h.hideAll inner children) scope attributes.id kind).2
  | .field attributes traits => by
      rw [Walk.visit]
      exact (h.enter scope (h.twins _)).bind fun _ => .pure ()
  | .content attributes text => by
      rw [Walk.visit]
      exact (h.enter scope (h.twins _)).bind fun _ => .pure ()

theorem visitAll (h : Congruent setting T R) (scope : Option String) : (es : List Element) →
    Lockstep R (visitAll setting scope es) (visitAll setting scope es)
  | [] => .pure ()
  | e :: rest => by
      rw [Walk.visitAll]
      exact (visit h scope e).bind fun _ => visitAll h scope rest

end

end Congruent

end FormDerivation.Walk
