import Mathlib.Data.List.Induction
import Mathlib.Data.List.Nodup

/-!
# The first offence in a list

What is registered one after the other is refused at the first item that offends, given the items
before it.  `Passes` says that no item does, and `FirstOffence` by which error the first one does;
a list that passes can be made longer item by item (`passes_append_singleton`), which is how a loop
over the list gets to know either.
-/

namespace FormDerivation

variable {α ε : Type} {offends : List α → α → ε → Prop}

/-- No item of a list offends, given the items before it. -/
def Passes (offends : List α → α → ε → Prop) (items : List α) : Prop :=
  ∀ before item after, items = before ++ item :: after → ∀ error, ¬ offends before item error

/-- The first item of a list that offends, given the items before it, does so by an error. -/
def FirstOffence (offends : List α → α → ε → Prop) (items : List α) (error : ε) : Prop :=
  ∃ before item after, items = before ++ item :: after ∧ Passes offends before ∧
    offends before item error

@[simp] theorem passes_nil : Passes offends [] := by
  intro before item after h
  simp at h

@[simp] theorem passes_append_singleton {items : List α} {item : α} :
    Passes offends (items ++ [item]) ↔
      Passes offends items ∧ ∀ error, ¬ offends items item error := by
  constructor
  · intro h
    constructor
    · rintro before other after rfl
      exact h before other (after ++ [item]) (by simp)
    · exact h items item [] rfl
  · rintro ⟨hitems, hitem⟩ before other after h
    -- The item is the last one, or comes before it.
    rcases List.eq_nil_or_concat after with rfl | ⟨front, last, rfl⟩
    · obtain ⟨rfl, hlast⟩ := List.append_inj' h rfl
      cases hlast
      exact hitem
    · have hsplit : items ++ [item] = (before ++ other :: front) ++ [last] := by simpa using h
      obtain ⟨rfl, -⟩ := List.append_inj' hsplit rfl
      exact hitems before other front rfl

theorem eq_or_among_before {before after before' after' : List α} {item item' : α}
    (h : before ++ item :: after = before' ++ item' :: after') :
    (before = before' ∧ item = item') ∨ (∃ rest, before' = before ++ item :: rest) ∨
      ∃ rest, before = before' ++ item' :: rest := by
  induction before generalizing before' with
  | nil => cases before' <;> simp_all
  | cons first before ih =>
      cases before' with
      | nil => simp_all
      | cons first' before' =>
          simp only [List.cons_append, List.cons.injEq] at h ⊢
          obtain ⟨rfl, h⟩ := h
          simpa using ih h

namespace FirstOffence

variable {items : List α} {error error' : ε}

theorem not_passes (h : FirstOffence offends items error) : ¬ Passes offends items := by
  obtain ⟨before, item, after, rfl, -, hitem⟩ := h
  exact fun hpasses => hpasses before item after rfl error hitem

theorem append (h : FirstOffence offends items error) (rest : List α) :
    FirstOffence offends (items ++ rest) error := by
  obtain ⟨before, item, after, rfl, hbefore, hitem⟩ := h
  exact ⟨before, item, after ++ rest, by simp, hbefore, hitem⟩

theorem unique (hone : ∀ before item error error', offends before item error →
    offends before item error' → error = error')
    (h : FirstOffence offends items error) (h' : FirstOffence offends items error') :
    error = error' := by
  obtain ⟨before, item, after, rfl, hbefore, hitem⟩ := h
  obtain ⟨before', item', after', hsplit, hbefore', hitem'⟩ := h'
  rcases eq_or_among_before hsplit with ⟨rfl, rfl⟩ | ⟨rest, rfl⟩ | ⟨rest, rfl⟩
  · exact hone _ _ _ _ hitem hitem'
  · exact absurd hitem (hbefore' _ _ _ rfl error)
  · exact absurd hitem' (hbefore _ _ _ rfl error')

end FirstOffence

theorem passes_iff {items : List α} :
    Passes offends items ↔ ∀ error, ¬ FirstOffence offends items error := by
  refine ⟨fun hpasses error h => h.not_passes hpasses, fun h => ?_⟩
  induction items using List.reverseRecOn with
  | nil => exact passes_nil
  | append_singleton items item ih =>
      have hitems : Passes offends items := ih fun error hfirst => h error (hfirst.append [item])
      exact passes_append_singleton.mpr
        ⟨hitems, fun error hitem => h error ⟨items, item, [], rfl, hitems, hitem⟩⟩

def Finds (offends : List α → α → ε → Prop) (items : List α) : Option ε → Prop
  | none => Passes offends items
  | some error => FirstOffence offends items error

namespace Finds

variable {items : List α} {result : Option ε}

theorem eq_none_iff (h : Finds offends items result) : result = none ↔ Passes offends items := by
  cases result with
  | none => exact iff_of_true rfl h
  | some error => exact iff_of_false (Option.some_ne_none error) (FirstOffence.not_passes h)

theorem eq_some_iff (h : Finds offends items result)
    (hone : ∀ before item error error', offends before item error →
      offends before item error' → error = error') (error : ε) :
    result = some error ↔ FirstOffence offends items error := by
  cases result with
  | none => simpa using passes_iff.mp h error
  | some found =>
      rw [Option.some.injEq]
      constructor
      · rintro rfl
        exact h
      · exact FirstOffence.unique hone h

end Finds

/-! ## Names that must differ -/

variable {β : Type} {key : α → β}

theorem nodup_map_append_singleton {items : List α} {item : α} :
    ((items ++ [item]).map key).Nodup ↔ key item ∉ items.map key ∧ (items.map key).Nodup := by
  rw [List.map_append, List.map_singleton, ← List.concat_eq_append, List.nodup_concat]

theorem mem_cons_taken_iff {items : List α} {taken : List β}
    (htaken : ∀ name, name ∈ taken ↔ name ∈ items.map key) (item : α) (name : β) :
    name ∈ key item :: taken ↔ name ∈ (items ++ [item]).map key := by
  simp [htaken, or_comm]

end FormDerivation
