import FormDerivation.Proofs.Derivation.Rows
import FormDerivation.Proofs.Element.Renaming

/-!
# Walks in lockstep

Two walks go the same way over an element and a copy of it under other ids if the keys are the same
and the walks agree on the values there (`Walk.visitAll_lockstep`).  What it means to agree is left
open: `Walk.Shared` lists what the steps of a walk need of it.
-/

namespace FormDerivation

namespace Walk

/-! ## Related results -/

inductive Matched {α : Type} (R : Walk → Walk → Prop) :
    Except DerivationError (α × Walk) → Except DerivationError (α × Walk) → Prop where
  | ok (a : α) {walk walk' : Walk} (h : R walk walk') : Matched R (.ok (a, walk)) (.ok (a, walk'))
  | error (error : DerivationError) : Matched R (.error error) (.error error)

theorem Matched.error_or_ok {α : Type} {R : Walk → Walk → Prop}
    {result result' : Except DerivationError (α × Walk)} (h : Matched R result result') :
    (∃ error, result = .error error ∧ result' = .error error) ∨
    (∃ a walk walk', result = .ok (a, walk) ∧ result' = .ok (a, walk') ∧ R walk walk') := by
  cases h with
  | error error => exact .inl ⟨error, rfl, rfl⟩
  | ok a hrelated => exact .inr ⟨a, _, _, rfl, rfl, hrelated⟩

theorem Matched.bind {α β : Type} {R R' : Walk → Walk → Prop} {part part' : WalkM α}
    {next next' : α → WalkM β} {walk walk' : Walk}
    (h : Matched R (part.run walk) (part'.run walk'))
    (hnext : ∀ a between between', part.run walk = .ok (a, between) → R between between' →
      Matched R' ((next a).run between) ((next' a).run between')) :
    Matched R' ((part >>= next).run walk) ((part' >>= next').run walk') := by
  rcases h.error_or_ok with
    ⟨error, hrun, hrun'⟩ | ⟨a, between, between', hrun, hrun', hbetween⟩
  · rw [run_bind_of_error hrun, run_bind_of_error hrun']
    exact .error error
  · rw [run_bind_of_ok hrun, run_bind_of_ok hrun']
    exact hnext a between between' hrun hbetween

/-- Two parts of walks that keep related walks related. -/
def Lockstep {α : Type} (R : Walk → Walk → Prop) (part part' : WalkM α) : Prop :=
  ∀ walk walk', R walk walk' → Matched R (part.run walk) (part'.run walk')

namespace Lockstep

variable {α β : Type} {R : Walk → Walk → Prop} {part part' : WalkM α} {next next' : α → WalkM β}

theorem pure (a : α) : Lockstep R (pure a : WalkM α) (pure a) :=
  fun _ _ h => .ok a h

theorem bind (h : Lockstep R part part') (hnext : ∀ a, Lockstep R (next a) (next' a)) :
    Lockstep R (part >>= next) (part' >>= next') :=
  fun walk walk' hrelated => (h walk walk' hrelated).bind fun a between between' _ hbetween =>
    hnext a between between' hbetween

theorem modify {change change' : Walk → Walk}
    (h : ∀ walk walk', R walk walk' → R (change walk) (change' walk')) :
    Lockstep R (modify change : WalkM Unit) (modify change') :=
  fun walk walk' hrelated => .ok () (h walk walk' hrelated)

theorem get_bind {next next' : Walk → WalkM β}
    (h : ∀ walk walk', R walk walk' →
      Matched R ((next walk).run walk) ((next' walk').run walk')) :
    Lockstep R (get >>= next) (get >>= next') :=
  fun walk walk' hrelated => h walk walk' hrelated

theorem forM {act act' : α → WalkM Unit} {items : List α}
    (h : ∀ item ∈ items, Lockstep R (act item) (act' item)) :
    Lockstep R (forM items act) (forM items act') := by
  induction items with
  | nil => exact .pure ()
  | cons item items ih =>
      rw [List.forM_cons, List.forM_cons]
      exact (h item List.mem_cons_self).bind fun _ =>
        ih fun item hitem => h item (List.mem_cons_of_mem _ hitem)

end Lockstep

/-! ## Shared regions -/

structure Shared (R : Walk → Walk → Prop) (region : String → Prop) : Prop where
  values : ∀ {walk walk' : Walk} {key}, R walk walk' → region key →
    walk'.state.values.get? key = walk.state.values.get? key
  recordFailure : ∀ {walk walk' : Walk} {site site' : Site} (step : DerivationStep)
    (error : ExpressionError), R walk walk' → site'.key = site.key →
    R (recordFailure site step error walk) (recordFailure site' step error walk')
  markVisibility : ∀ {walk walk' : Walk} {key} (visible : Bool), R walk walk' → region key →
    R (markVisibility key visible walk) (markVisibility key visible walk')
  setValue : ∀ {walk walk' : Walk} {key} (value : Json), R walk walk' → region key →
    R (setValue key value walk) (setValue key value walk')
  recordError : ∀ {walk walk' : Walk} {key} (message : String), R walk walk' → region key →
    R (recordError key message walk) (recordError key message walk')
  recordCount : ∀ {walk walk' : Walk} {key} (count : Nat), R walk walk' → region key →
    R (recordCount key count walk) (recordCount key count walk')

/-- Scopes whose names, the second ones changed by `p`, stand for the same keys of a region. -/
structure SameKeys (region : String → Prop) (p : String → String) (scope scope' : Option String) :
    Prop where
  keys : ∀ name, scopedKey scope' (p name) = scopedKey scope name
  within : ∀ name, region (scopedKey scope name)

theorem SameKeys.row {region : String → Prop} {p : String → String} {scope scope' : Option String}
    (h : SameKeys region p scope scope') (id : String) (index : Nat) :
    let row := some (rowScope (scopedKey scope id) index)
    SameKeys region (fun name => name) row row where
  keys := fun _ => rfl
  within := by
    intro name
    rw [scopedKey_rowScope]
    exact h.within _

section Steps

variable (setting : WalkSetting) {R : Walk → Walk → Prop} {region : String → Prop}
  {p : String → String} {scope scope' : Option String} {id : String}

theorem value_lockstep (shared : Shared R region) (h : SameKeys region p scope scope')
    {e : Expression} (he : e.isScript = false) :
    Lockstep R (value setting ⟨id, scope⟩ e) (value setting ⟨p id, scope'⟩ (e.rename p)) := by
  intro walk walk' hrelated
  rw [value_run, value_run]
  cases e with
  | formula formula =>
      have hnames : SameNames p scope scope' walk.state.values walk'.state.values := by
        intro name
        rw [h.keys, shared.values hrelated (h.within name)]
      simp only [evaluate, Expression.rename, Formula.evaluate_rename _ hnames]
      exact .ok _ hrelated
  | script code => cases he
  | malformed raw reason => exact .ok _ hrelated

theorem settle_lockstep (shared : Shared R region) {site site' : Site}
    (hkey : site'.key = site.key) {α : Type} (step : DerivationStep)
    (result : Except ExpressionError α) (fallback : α) :
    Lockstep R (settle setting site step result fallback)
      (settle setting site' step result fallback) := by
  intro walk walk' hrelated
  unfold settle
  cases result with
  | ok a => exact .ok a hrelated
  | error cause =>
      cases setting.config.failurePolicy with
      | abort =>
          rw [hkey]
          exact .error _
      | degrade => exact .ok fallback (shared.recordFailure step cause hrelated hkey)

theorem SameKeys.site_key (h : SameKeys region p scope scope') (id : String) :
    (Site.mk (p id) scope').key = (Site.mk id scope).key :=
  h.keys id

theorem visibility_lockstep (shared : Shared R region) (h : SameKeys region p scope scope')
    {e : Element} (he : e.Plain) :
    Lockstep R (visibility setting ⟨id, scope⟩ e)
      (visibility setting ⟨p id, scope'⟩ (e.rename p)) := by
  unfold visibility
  rw [Element.attributes_rename, Attributes.rename]
  cases hvisibility : e.attributes.visibility with
  | none => exact .pure true
  | some expression =>
      have hplain := he.visibility expression (by simp [hvisibility])
      refine (value_lockstep setting shared h hplain).bind fun result => ?_
      exact settle_lockstep setting shared (h.site_key id) .visibility _ false

theorem compute_lockstep (shared : Shared R region) (h : SameKeys region p scope scope')
    {field : FieldTraits} (hfield : ∀ x ∈ field.compute.toList, x.isScript = false) :
    Lockstep R (compute setting ⟨id, scope⟩ field)
      (compute setting ⟨p id, scope'⟩ (field.rename p)) := by
  unfold compute
  rw [FieldTraits.rename]
  cases hcompute : field.compute with
  | none => exact .pure ()
  | some expression =>
      have hplain := hfield expression (by simp [hcompute])
      refine (value_lockstep setting shared h hplain).bind fun result => ?_
      refine (settle_lockstep setting shared (h.site_key id) .compute _ none).bind fun value => ?_
      cases value with
      | none => exact .pure ()
      | some value =>
          have hkey := h.site_key id
          rw [hkey]
          exact .modify fun _ _ hrelated => shared.setValue value hrelated (h.within id)

theorem violation?_lockstep (shared : Shared R region) (h : SameKeys region p scope scope')
    (field : FieldTraits) {e : Expression} (he : e.isScript = false) :
    Lockstep R (violation? setting ⟨id, scope⟩ field e)
      (violation? setting ⟨p id, scope'⟩ (field.rename p) (e.rename p)) := by
  unfold violation?
  refine (value_lockstep setting shared h he).bind fun result => ?_
  cases result with
  | ok result => exact .pure _
  | error error =>
      refine Lockstep.bind ?_ fun _ => .pure _
      exact .modify fun _ _ hrelated => shared.recordFailure .validate error hrelated (h.keys id)

theorem validate_lockstep (shared : Shared R region) (h : SameKeys region p scope scope')
    {field : FieldTraits} (hfield : ∀ x ∈ field.validation.toList, x.isScript = false) :
    Lockstep R (validate setting ⟨id, scope⟩ field)
      (validate setting ⟨p id, scope'⟩ (field.rename p)) := by
  have hkey := h.site_key id
  rw [validate_eq, validate_eq]
  refine Lockstep.bind ?_ fun violation => ?_
  · unfold findViolation
    refine .get_bind fun walk walk' hrelated => ?_
    have hvalue : walk'.state.values.get? (Site.mk id scope).key =
        walk.state.values.get? (Site.mk id scope).key := shared.values hrelated (h.within id)
    have hcheck : (field.rename p).check = field.check := rfl
    rw [hkey, hvalue, hcheck]
    cases field.check (walk.state.values.get? (Site.mk id scope).key) with
    | some violation => exact Lockstep.pure _ walk walk' hrelated
    | none =>
        rw [FieldTraits.rename]
        cases hvalidation : field.validation with
        | none => exact Lockstep.pure _ walk walk' hrelated
        | some e =>
            have hplain := hfield e (by simp [hvalidation])
            exact violation?_lockstep setting shared h field hplain walk walk' hrelated
  · cases violation with
    | none => exact .pure ()
    | some violation =>
        unfold recordViolation
        rw [hkey]
        exact .modify fun _ _ hrelated => shared.recordError _ hrelated (h.within id)

theorem answer_lockstep (shared : Shared R region) (h : SameKeys region p scope scope')
    (visible : Bool) {e : Element} (he : e.Plain) :
    Lockstep R (answer setting ⟨id, scope⟩ visible e)
      (answer setting ⟨p id, scope'⟩ visible (e.rename p)) := by
  cases visible with
  | false => exact .pure ()
  | true =>
      cases e with
      | field attributes traits =>
          rw [Element.rename]
          exact (compute_lockstep setting shared h he.compute).bind fun _ =>
            validate_lockstep setting shared h he.validation
      | container attributes kind children => exact .pure ()
      | content attributes text => exact .pure ()

theorem enter_lockstep (shared : Shared R region) (h : SameKeys region p scope scope')
    {e : Element} (he : e.Plain) :
    Lockstep R (enter setting scope e) (enter setting scope' (e.rename p)) := by
  have hpatch : (e.rename p).attributes.patch = none := by
    rw [Element.attributes_rename, Attributes.rename, he.patch]
    rfl
  rw [enter_eq, enter_eq, patch_eq_pure setting he.patch, patch_eq_pure setting hpatch, pure_bind,
    pure_bind, Option.getD_none, Option.getD_none, Element.id_rename, h.keys]
  refine (visibility_lockstep setting shared h he).bind fun visible => ?_
  refine Lockstep.bind ?_ fun _ => ?_
  · exact .modify fun _ _ hrelated => shared.markVisibility visible hrelated (h.within e.id)
  · exact (answer_lockstep setting shared h visible he).bind fun _ => .pure visible

end Steps

/-! ## Rows -/

namespace Shared

variable {R : Walk → Walk → Prop} {region : String → Prop} {walk walk' : Walk}

theorem addEntry (shared : Shared R region) (h : R walk walk') {entry : String × Json}
    (hentry : region entry.1) : R (addEntry walk entry) (addEntry walk' entry) := by
  unfold Walk.addEntry
  rw [KeyMap.contains, KeyMap.contains, shared.values h hentry]
  split
  · exact h
  · exact shared.setValue entry.2 h hentry

theorem foldl_addEntry (shared : Shared R region) (h : R walk walk')
    {entries : List (String × Json)} (hentries : ∀ entry ∈ entries, region entry.1) :
    R (entries.foldl Walk.addEntry walk) (entries.foldl Walk.addEntry walk') := by
  induction entries generalizing walk walk' with
  | nil => exact h
  | cons entry rest ih =>
      rw [List.forall_mem_cons] at hentries
      exact ih (shared.addEntry h hentries.1) hentries.2

theorem expandRows (shared : Shared R region) (h : R walk walk') {scope : Option String}
    (hregion : ∀ name, region (scopedKey scope name)) (id : String) (count : Nat) :
    R (expandRows (scopedKey scope id) count walk) (expandRows (scopedKey scope id) count walk') := by
  unfold Walk.expandRows
  rw [shared.values h (hregion id)]
  split
  · refine shared.foldl_addEntry h fun entry hentry => ?_
    obtain ⟨index, name, hkey⟩ := mem_rowEntries hentry
    rw [hkey, ← scopedKey_row, scopedKey_rowScope]
    exact hregion _
  · exact h

end Shared

/-! ## The walk -/

section Visit

variable (setting : WalkSetting) {R : Walk → Walk → Prop} {region : String → Prop}
  {p : String → String} {scope scope' : Option String}

theorem countAt_lockstep (shared : Shared R region) {key : String} (hkey : region key)
    (bounds : RepetitionBounds) :
    Lockstep R (countAt setting bounds key) (countAt setting bounds key) := by
  unfold countAt
  refine .get_bind fun walk walk' hrelated => ?_
  rw [shared.values hrelated hkey]
  exact .ok _ hrelated

theorem mark_lockstep (shared : Shared R region) (h : SameKeys region p scope scope')
    (id : String) (visible : Bool) :
    Lockstep R (modify (markVisibility (scopedKey scope id) visible))
      (modify (markVisibility (scopedKey scope' (p id)) visible)) := by
  rw [h.keys]
  exact .modify fun _ _ hrelated => shared.markVisibility visible hrelated (h.within id)

theorem forRows_lockstep {key : String} {inner inner' : Option String → WalkM Unit}
    (h : ∀ index, Lockstep R (inner (some (rowScope key index))) (inner' (some (rowScope key index))))
    (count : Nat) :
    Lockstep R (forRows key (fun row => inner (some row)) count)
      (forRows key (fun row => inner' (some row)) count) := by
  induction count with
  | zero => exact .pure ()
  | succ count ih => exact ih.bind fun _ => h count

variable {kind : Container} {inner inner' : Option String → WalkM Unit}

theorem hideWithin_lockstep (shared : Shared R region) (h : SameKeys region p scope scope')
    (id : String) (hinner : ∀ {s s'}, SameKeys region (kind.renaming p) s s' →
      Lockstep R (inner s) (inner' s')) :
    Lockstep R (hideWithin setting scope id kind inner)
      (hideWithin setting scope' (p id) kind inner') := by
  cases kind with
  | repeating bounds =>
      simp only [hideWithin, h.keys]
      refine (countAt_lockstep setting shared (h.within id) bounds).bind fun count => ?_
      exact forRows_lockstep (fun index => hinner (h.row id index)) count
  | root steps => exact hinner h
  | step => exact hinner h
  | group => exact hinner h

theorem visitWithin_lockstep (shared : Shared R region) (h : SameKeys region p scope scope')
    (id : String) (hinner : ∀ {s s'}, SameKeys region (kind.renaming p) s s' →
      Lockstep R (inner s) (inner' s')) :
    Lockstep R (visitWithin setting scope id kind inner)
      (visitWithin setting scope' (p id) kind inner') := by
  cases kind with
  | repeating bounds =>
      simp only [visitWithin, h.keys]
      refine (countAt_lockstep setting shared (h.within id) bounds).bind fun count => ?_
      refine Lockstep.bind ?_ fun _ => Lockstep.bind ?_ fun _ => ?_
      · exact .modify fun _ _ hrelated => shared.expandRows hrelated h.within id count
      · exact .modify fun _ _ hrelated => shared.recordCount count hrelated (h.within id)
      · exact forRows_lockstep (fun index => hinner (h.row id index)) count
  | root steps => exact hinner h
  | step => exact hinner h
  | group => exact hinner h

mutual

theorem hide_lockstep (shared : Shared R region) : (e : Element) → ∀ {p scope scope'},
    SameKeys region p scope scope' →
    Lockstep R (hide setting scope e) (hide setting scope' (e.rename p))
  | .container attributes kind children, p, scope, scope', h => by
      rw [Element.rename, hide, hide]
      refine (mark_lockstep shared h attributes.id false).bind fun _ => ?_
      exact hideWithin_lockstep setting shared h attributes.id
        fun hinner => hideAll_lockstep shared children hinner
  | .field attributes traits, p, scope, scope', h => by
      rw [Element.rename, hide, hide]
      exact mark_lockstep shared h attributes.id false
  | .content attributes text, p, scope, scope', h => by
      rw [Element.rename, hide, hide]
      exact mark_lockstep shared h attributes.id false

theorem hideAll_lockstep (shared : Shared R region) : (es : List Element) → ∀ {p scope scope'},
    SameKeys region p scope scope' →
    Lockstep R (hideAll setting scope es) (hideAll setting scope' (Element.renameAll p es))
  | [], _, _, _, _ => .pure ()
  | e :: rest, p, scope, scope', h => by
      rw [Element.renameAll, hideAll, hideAll]
      exact (hide_lockstep shared e h).bind fun _ => hideAll_lockstep shared rest h

end

mutual

theorem visit_lockstep (shared : Shared R region) : (e : Element) →
    (∀ x ∈ e.elements, x.Plain) → ∀ {p scope scope'}, SameKeys region p scope scope' →
    Lockstep R (visit setting scope e) (visit setting scope' (e.rename p))
  | .container attributes kind children, hplain, p, scope, scope', h => by
      rw [Element.elements, List.forall_mem_cons] at hplain
      have henter := enter_lockstep setting shared h hplain.1
      rw [Element.rename] at henter ⊢
      rw [visit, visit]
      refine henter.bind fun visible => ?_
      cases visible with
      | true =>
          exact visitWithin_lockstep setting shared h attributes.id
            fun hinner => visitAll_lockstep shared children hplain.2 hinner
      | false =>
          exact hideWithin_lockstep setting shared h attributes.id
            fun hinner => hideAll_lockstep setting shared children hinner
  | .field attributes traits, hplain, p, scope, scope', h => by
      have henter := enter_lockstep setting shared h (hplain _ (List.mem_singleton_self _))
      rw [Element.rename] at henter ⊢
      rw [visit, visit]
      exact henter.bind fun _ => .pure ()
  | .content attributes text, hplain, p, scope, scope', h => by
      have henter := enter_lockstep setting shared h (hplain _ (List.mem_singleton_self _))
      rw [Element.rename] at henter ⊢
      rw [visit, visit]
      exact henter.bind fun _ => .pure ()

/-- Walks over elements and copies of them under the same keys go the same way. -/
theorem visitAll_lockstep (shared : Shared R region) : (es : List Element) →
    (∀ x ∈ Element.elementsAll es, x.Plain) → ∀ {p scope scope'},
    SameKeys region p scope scope' →
    Lockstep R (visitAll setting scope es) (visitAll setting scope' (Element.renameAll p es))
  | [], _, _, _, _, _ => .pure ()
  | e :: rest, hplain, p, scope, scope', h => by
      rw [Element.elementsAll, List.forall_mem_append] at hplain
      rw [Element.renameAll, visitAll, visitAll]
      exact (visit_lockstep shared e hplain.1 h).bind fun _ =>
        visitAll_lockstep shared rest hplain.2 h

end

end Visit

end Walk

namespace FormEngine

theorem derive_matched_of_prepare (engine : FormEngine) {R : Walk → Walk → Prop}
    {tree tree' : Element} (hid : tree'.id = tree.id) {inputs inputs' globals : KeyMap Json}
    (h : ∀ scripts, prepare (.fresh engine.host engine.config.script) globals.toList = .ok scripts →
      Walk.Matched R
        ((Walk.visit ⟨engine.operators, engine.config⟩ none tree).run (.start scripts inputs))
        ((Walk.visit ⟨engine.operators, engine.config⟩ none tree').run (.start scripts inputs'))) :
    (∃ error, engine.derive tree inputs globals = .error error ∧
      engine.derive tree' inputs' globals = .error error) ∨
    (∃ walk walk', engine.derive tree inputs globals = .ok walk.state ∧
      engine.derive tree' inputs' globals = .ok walk'.state ∧ R walk walk') := by
  cases hprepare : prepare (.fresh engine.host engine.config.script) globals.toList with
  | error error =>
      refine .inl ⟨_, derive_of_prepare_error engine tree _ _ hprepare, ?_⟩
      rw [derive_of_prepare_error engine tree' _ _ hprepare, hid]
  | ok scripts =>
      rcases (h scripts hprepare).error_or_ok with
        ⟨error, hrun, hrun'⟩ | ⟨⟨⟩, walk, walk', hrun, hrun', hrelated⟩
      · exact .inl ⟨error, derive_of_visit_error engine tree _ _ hprepare hrun,
          derive_of_visit_error engine tree' _ _ hprepare hrun'⟩
      · exact .inr ⟨walk, walk', derive_of_visit_ok engine tree _ _ hprepare hrun,
          derive_of_visit_ok engine tree' _ _ hprepare hrun', hrelated⟩

theorem derive_matched (engine : FormEngine) {R : Walk → Walk → Prop}
    {tree tree' : Element} (hid : tree'.id = tree.id) {inputs inputs' : KeyMap Json}
    (h : ∀ scripts, Walk.Matched R
      ((Walk.visit ⟨engine.operators, engine.config⟩ none tree).run (.start scripts inputs))
      ((Walk.visit ⟨engine.operators, engine.config⟩ none tree').run (.start scripts inputs')))
    (globals : KeyMap Json) :
    (∃ error, engine.derive tree inputs globals = .error error ∧
      engine.derive tree' inputs' globals = .error error) ∨
    (∃ walk walk', engine.derive tree inputs globals = .ok walk.state ∧
      engine.derive tree' inputs' globals = .ok walk'.state ∧ R walk walk') :=
  engine.derive_matched_of_prepare hid fun scripts _ => h scripts

end FormEngine

end FormDerivation
