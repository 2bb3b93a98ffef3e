import FormDerivation.Proofs.Derivation.Keys
import FormDerivation.Proofs.Derivation.Unrolling

/-!
# Siblings and repetitions one after the other

The instances of siblings are those of the first ones and, from where the walk is then, those of the
others; so are the instances in scopes that are walked through (`Walk.listScopes_split`).
-/

namespace FormDerivation.Walk

variable {setting : WalkSetting}

/-! ## Siblings -/

theorem listFrom_bind {part next : WalkM Unit} {list : Walk → List Instance} (walk : Walk) :
    listFrom (part >>= fun _ => next) list walk = listFrom part (listFrom next list) walk := by
  unfold listFrom
  cases hrun : part.run walk with
  | error error => rw [run_bind_of_error hrun]
  | ok result =>
      obtain ⟨⟨⟩, between⟩ := result
      rw [run_bind_of_ok hrun]

theorem listFrom_append {part : WalkM Unit} {list next : Walk → List Instance} (walk : Walk) :
    listFrom part (fun walk => list walk ++ next walk) walk =
      listFrom part list walk ++ listFrom part next walk := by
  unfold listFrom
  split <;> simp

@[simp] theorem listFrom_pure {list : Walk → List Instance} (walk : Walk) :
    listFrom (pure ()) list walk = list walk :=
  rfl

@[simp] theorem hideAll_append (scope : Option String) (first second : List Element) :
    hideAll setting scope (first ++ second) =
      hideAll setting scope first >>= fun _ => hideAll setting scope second := by
  induction first with
  | nil => rfl
  | cons e rest ih => rw [List.cons_append, hideAll, hideAll, ih, bind_assoc]

@[simp] theorem hiddenFromAll_append (above : List Instance) (scope : Option String)
    (first second : List Element) (walk : Walk) :
    hiddenFromAll setting above scope (first ++ second) walk =
      hiddenFromAll setting above scope first walk ++
        listFrom (hideAll setting scope first) (hiddenFromAll setting above scope second) walk := by
  induction first generalizing walk with
  | nil => rw [List.nil_append, hiddenFromAll, hideAll, List.nil_append, listFrom_pure]
  | cons e rest ih =>
      rw [List.cons_append, hiddenFromAll, hiddenFromAll, hideAll, listFrom_bind, List.append_assoc,
        ← listFrom_append]
      exact congrArg (_ ++ ·) (congrArg (listFrom _ · walk) (funext ih))

@[simp] theorem instancesFromAll_append (above : List Instance) (scope : Option String)
    (first second : List Element) (walk : Walk) :
    instancesFromAll setting above scope (first ++ second) walk =
      instancesFromAll setting above scope first walk ++
        listFrom (visitAll setting scope first) (instancesFromAll setting above scope second)
          walk := by
  induction first generalizing walk with
  | nil => rw [List.nil_append, instancesFromAll, visitAll, List.nil_append, listFrom_pure]
  | cons e rest ih =>
      rw [List.cons_append, instancesFromAll, instancesFromAll, visitAll, listFrom_bind,
        List.append_assoc, ← listFrom_append]
      exact congrArg (_ ++ ·) (congrArg (listFrom _ · walk) (funext ih))

section Singleton

variable (above : List Instance) (scope : Option String) (e : Element)

@[simp] theorem listFrom_nil {part : WalkM Unit} (walk : Walk) :
    listFrom part (fun _ => []) walk = [] := by
  unfold listFrom
  split <;> rfl

@[simp] theorem visitAll_singleton : visitAll setting scope [e] = visit setting scope e := by
  rw [visitAll, visitAll]
  exact bind_pure_unit

@[simp] theorem hideAll_singleton : hideAll setting scope [e] = hide setting scope e := by
  rw [hideAll, hideAll]
  exact bind_pure_unit

@[simp] theorem instancesFromAll_singleton :
    instancesFromAll setting above scope [e] = instancesFrom setting above scope e := by
  funext walk
  have hnone : instancesFromAll setting above scope [] = fun _ => [] := by
    funext walk
    rw [instancesFromAll]
  rw [instancesFromAll, hnone, listFrom_nil, List.append_nil]

@[simp] theorem hiddenFromAll_singleton :
    hiddenFromAll setting above scope [e] = hiddenFrom setting above scope e := by
  funext walk
  have hnone : hiddenFromAll setting above scope [] = fun _ => [] := by
    funext walk
    rw [hiddenFromAll]
  rw [hiddenFromAll, hnone, listFrom_nil, List.append_nil]

end Singleton

/-! ## Scopes -/

section Scopes

variable {part : Option String → WalkM Unit} {inner : Option String → Walk → List Instance}

theorem exists_mem_of_mem_listScopes {scopes : List (Option String)} {walk : Walk} {v : Instance}
    (h : v ∈ listScopes part inner scopes walk) :
    ∃ scope ∈ scopes, ∃ between, v ∈ inner scope between := by
  induction scopes generalizing walk with
  | nil => cases h
  | cons scope rest ih =>
      rw [listScopes] at h
      rcases List.mem_append.mp h with h | h
      · exact ⟨scope, List.mem_cons_self, walk, h⟩
      · obtain ⟨between, h⟩ := exists_mem_of_mem_listFrom h
        obtain ⟨scope', hscope, hmem⟩ := ih h
        exact ⟨scope', List.mem_cons_of_mem _ hscope, hmem⟩

theorem listScopes_split {before after : List (Option String)} {walk start : Walk}
    (h : (forM before part).run walk = .ok ((), start)) (scope : Option String) :
    listScopes part inner (before ++ scope :: after) walk =
      listScopes part inner before walk ++
        (inner scope start ++ listFrom (part scope) (listScopes part inner after) start) := by
  induction before generalizing walk with
  | nil =>
      cases h
      rfl
  | cons first rest ih =>
      rw [List.forM_cons] at h
      obtain ⟨⟨⟩, between, hfirst, hrest⟩ := exists_of_run_bind_eq_ok h
      rw [List.cons_append, listScopes, listScopes, listFrom_of_run hfirst, listFrom_of_run hfirst,
        ih hrest, List.append_assoc]

end Scopes

end FormDerivation.Walk
