import FormDerivation.Proofs.Derivation.Instances

/-!
# Instances around an instance

What is around an instance is listed with it, whether or not a walk comes to its end, and an
instance is hidden if one around it is (`Walk.instancesFrom_nested`).  Where a walk comes to its
end, the children of every visible instance are listed (`Walk.compositional_allCovered`).
-/

namespace FormDerivation.Walk

variable (setting : WalkSetting)

structure Hereditary (R : List Instance → Prop) : Prop where
  nil : R []
  append : ∀ {first second : List Instance}, R first → R second → R (first ++ second)

namespace Hereditary

variable {R : List Instance → Prop}

theorem listFrom (hR : Hereditary R) {part : WalkM Unit} {next : Walk → List Instance}
    (h : ∀ walk, R (next walk)) (walk : Walk) : R (listFrom part next walk) := by
  unfold Walk.listFrom
  split
  · exact h _
  · exact hR.nil

theorem scopes (hR : Hereditary R) {part : Option String → WalkM Unit}
    {inner : Option String → Walk → List Instance} {scopes : List (Option String)}
    (h : ∀ scope ∈ scopes, ∀ walk, R (inner scope walk)) (walk : Walk) :
    R (listScopes part inner scopes walk) := by
  induction scopes generalizing walk with
  | nil => exact hR.nil
  | cons scope scopes ih =>
      rw [listScopes]
      refine hR.append (h scope List.mem_cons_self walk) (hR.listFrom ?_ walk)
      intro between
      exact ih (fun scope hscope => h scope (List.mem_cons_of_mem _ hscope)) between

theorem forall_mem (Q : Instance → Prop) : Hereditary fun list => ∀ v ∈ list, Q v where
  nil := by simp
  append := by
    intro first second hfirst hsecond v hv
    rcases List.mem_append.mp hv with hv | hv
    · exact hfirst v hv
    · exact hsecond v hv

end Hereditary

/--
The instances around an instance, up to those of `above`, are listed with it, and it is hidden if
one of them is.
-/
def Nested (above list : List Instance) (v : Instance) : Prop :=
  ∃ between, v.above = between ++ above ∧
    ∀ u ∈ between, u ∈ list ∧ (u.visible = false → v.visible = false)

theorem Nested.mono {above list list' : List Instance} {v : Instance} (h : Nested above list v)
    (hsub : ∀ u ∈ list, u ∈ list') : Nested above list' v := by
  obtain ⟨between, habove, hbetween⟩ := h
  exact ⟨between, habove, fun u hu => ⟨hsub u (hbetween u hu).1, (hbetween u hu).2⟩⟩

theorem Nested.within {above list : List Instance} {u v : Instance} (h : Nested (u :: above) list v)
    (hhidden : u.visible = false → v.visible = false) : Nested above (u :: list) v := by
  obtain ⟨between, habove, hbetween⟩ := h
  refine ⟨between ++ [u], by rw [habove, List.append_assoc]; rfl, ?_⟩
  intro w hw
  rcases List.mem_append.mp hw with hw | hw
  · exact ⟨List.mem_cons_of_mem _ (hbetween w hw).1, (hbetween w hw).2⟩
  · cases List.mem_singleton.mp hw
    exact ⟨List.mem_cons_self, hhidden⟩

theorem nested_of_above_eq {above list : List Instance} {v : Instance} (h : v.above = above) :
    Nested above list v :=
  ⟨[], h, by simp⟩

def AllNested (above list : List Instance) : Prop :=
  ∀ v ∈ list, Nested above list v

theorem hereditary_allNested (above : List Instance) : Hereditary (AllNested above) where
  nil := by simp [AllNested]
  append := by
    intro first second hfirst hsecond v hv
    rcases List.mem_append.mp hv with hv | hv
    · exact (hfirst v hv).mono fun u hu => List.mem_append_left _ hu
    · exact (hsecond v hv).mono fun u hu => List.mem_append_right _ hu

def AllHidden (list : List Instance) : Prop :=
  ∀ v ∈ list, v.visible = false

theorem hereditary_allHidden : Hereditary AllHidden :=
  .forall_mem _

theorem AllNested.cons {above list : List Instance} {v : Instance} (h : AllNested (v :: above) list)
    (habove : v.above = above) (hhidden : v.visible = false → AllHidden list) :
    AllNested above (v :: list) := by
  intro u hu
  rcases List.mem_cons.mp hu with rfl | hu
  · exact nested_of_above_eq habove
  · exact (h u hu).within fun hv => hhidden hv u hu

mutual

theorem hiddenFrom_allHidden (above : List Instance) (scope : Option String) : (e : Element) →
    ∀ walk, AllHidden (hiddenFrom setting above scope e walk)
  | .container attributes kind children => by
      intro walk v hv
      rw [hiddenFrom] at hv
      rcases List.mem_cons.mp hv with rfl | hv
      · rfl
      · refine hereditary_allHidden.scopes ?_ _ v hv
        intro scope' _
        exact hiddenFromAll_allHidden _ scope' children
  | .field attributes traits => by
      intro walk v hv
      rw [hiddenFrom] at hv
      cases List.mem_singleton.mp hv
      rfl
  | .content attributes text => by
      intro walk v hv
      rw [hiddenFrom] at hv
      cases List.mem_singleton.mp hv
      rfl

theorem hiddenFromAll_allHidden (above : List Instance) (scope : Option String) :
    (es : List Element) → ∀ walk, AllHidden (hiddenFromAll setting above scope es walk)
  | [] => fun _ => hereditary_allHidden.nil
  | e :: rest => by
      intro walk
      rw [hiddenFromAll]
      have hrest := hiddenFromAll_allHidden above scope rest
      exact hereditary_allHidden.append (hiddenFrom_allHidden above scope e walk)
        (hereditary_allHidden.listFrom hrest walk)

end

theorem hiddenScopes_allHidden (above : List Instance) (children : List Element)
    (scopes : List (Option String)) (walk : Walk) :
    AllHidden (listScopes (fun scope => hideAll setting scope children)
      (fun scope => hiddenFromAll setting above scope children) scopes walk) := by
  refine hereditary_allHidden.scopes ?_ walk
  intro scope _
  exact hiddenFromAll_allHidden setting above scope children

mutual

theorem hiddenFrom_nested (above : List Instance) (scope : Option String) : (e : Element) →
    ∀ walk, AllNested above (hiddenFrom setting above scope e walk)
  | .container attributes kind children => by
      intro walk
      rw [hiddenFrom]
      refine AllNested.cons ((hereditary_allNested _).scopes ?_ _) rfl fun _ => ?_
      · intro scope' _
        exact hiddenFromAll_nested _ scope' children
      · exact hiddenScopes_allHidden setting _ children _ _
  | .field attributes traits => by
      intro walk v hv
      rw [hiddenFrom] at hv
      cases List.mem_singleton.mp hv
      exact nested_of_above_eq rfl
  | .content attributes text => by
      intro walk v hv
      rw [hiddenFrom] at hv
      cases List.mem_singleton.mp hv
      exact nested_of_above_eq rfl

theorem hiddenFromAll_nested (above : List Instance) (scope : Option String) :
    (es : List Element) → ∀ walk, AllNested above (hiddenFromAll setting above scope es walk)
  | [] => fun _ => (hereditary_allNested above).nil
  | e :: rest => by
      intro walk
      rw [hiddenFromAll]
      have hrest := hiddenFromAll_nested above scope rest
      exact (hereditary_allNested above).append (hiddenFrom_nested above scope e walk)
        ((hereditary_allNested above).listFrom hrest walk)

end

mutual

theorem instancesFrom_nested (above : List Instance) (scope : Option String) : (e : Element) →
    ∀ walk, AllNested above (instancesFrom setting above scope e walk)
  | .container attributes kind children => by
      intro walk
      rw [instancesFrom]
      refine AllNested.cons ?_ (by simp) ?_
      · split
        · refine (hereditary_allNested _).scopes ?_ _
          intro scope' _
          exact instancesFromAll_nested _ scope' children
        · refine (hereditary_allNested _).scopes ?_ _
          intro scope' _
          exact hiddenFromAll_nested setting _ scope' children
        · exact (hereditary_allNested _).nil
      · intro hhidden
        split
        · next henter =>
          rw [enteredInstance_visible setting henter] at hhidden
          cases hhidden
        · exact hiddenScopes_allHidden setting _ children _ _
        · exact hereditary_allHidden.nil
  | .field attributes traits => by
      intro walk v hv
      rw [instancesFrom] at hv
      cases List.mem_singleton.mp hv
      exact nested_of_above_eq (by simp)
  | .content attributes text => by
      intro walk v hv
      rw [instancesFrom] at hv
      cases List.mem_singleton.mp hv
      exact nested_of_above_eq (by simp)

theorem instancesFromAll_nested (above : List Instance) (scope : Option String) :
    (es : List Element) → ∀ walk, AllNested above (instancesFromAll setting above scope es walk)
  | [] => fun _ => (hereditary_allNested above).nil
  | e :: rest => by
      intro walk
      rw [instancesFromAll]
      have hrest := instancesFromAll_nested above scope rest
      exact (hereditary_allNested above).append (instancesFrom_nested above scope e walk)
        ((hereditary_allNested above).listFrom hrest walk)

end

/-! ## Children of visible instances -/

def AllCovered (list : List Instance) : Prop :=
  ∀ v ∈ list, v.visible = true → Covers v list

theorem Covers.mono {v : Instance} {list list' : List Instance} (h : Covers v list)
    (hsub : list ⊆ list') : Covers v list' := by
  intro child hchild scope hscope
  obtain ⟨u, hu, hchild⟩ := h child hchild scope hscope
  exact ⟨u, hsub hu, hchild⟩

theorem AllCovered.cons {v : Instance} {list : List Instance} (h : AllCovered list)
    (hv : v.visible = true → Covers v list) : AllCovered (v :: list) := by
  intro u hu hvisible
  have hcovers : Covers u list := by
    rcases List.mem_cons.mp hu with rfl | hu
    · exact hv hvisible
    · exact h u hu hvisible
  exact hcovers.mono (List.subset_cons_self v list)

theorem compositional_allCovered :
    Compositional setting fun list _ _ => AllCovered list where
  nil := by simp [AllCovered]
  append := by
    intro first second walk between walk' hfirst hsecond v hv hvisible
    rcases List.mem_append.mp hv with hv | hv
    · exact (hfirst v hv hvisible).mono (List.subset_append_left first second)
    · exact (hsecond v hv hvisible).mono (List.subset_append_right first second)
  entered := by
    intro above scope e visible walk entered walk' below henter hcovers _ hbelow
    refine hbelow.cons fun hvisible => hcovers ?_
    rw [← enteredInstance_visible setting henter, hvisible]
  hidden := by
    intro above scope e walk walk' below _ hbelow
    refine hbelow.cons fun hvisible => ?_
    cases hvisible

end FormDerivation.Walk
