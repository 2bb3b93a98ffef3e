import FormDerivation.Proofs.Derivation.Steps
import FormDerivation.Proofs.Element.Names
import FormDerivation.Proofs.KeyMap
import Mathlib.Data.List.Induction

/-!
# Rows of a repeating container

Spreading the rows of a container gives every repetition the members of its row, under their own
keys and unless there is a value already (`Walk.get?_spreadRows`); nothing else changes.
-/

namespace FormDerivation

open KeyMap (lookupEntry lookupEntry_append)

theorem scopedKey_row (key name : String) (index : Nat) :
    scopedKey (some (rowScope key index)) name = rowStart key index ++ name :=
  scopedKey_rowScope none key name index

namespace Walk

/-! ## Entries of rows -/

def entriesOfRow (key : String) (index : Nat) : Json → List (String × Json)
  | .object members =>
    members.map fun (name, value) => (scopedKey (some (rowScope key index)) name, value)
  | _ => []

theorem rowEntries_concat (key : String) (rows : List Json) (row : Json) :
    rowEntries key (rows ++ [row]) = rowEntries key rows ++ entriesOfRow key rows.length row := by
  rw [rowEntries, rowEntries, List.zipIdx_append, List.flatMap_append, List.zipIdx_singleton,
    List.flatMap_singleton, Nat.zero_add]
  cases row <;> rfl

theorem lookupEntry_entriesOfRow (key name : String) (index other : Nat) (row : Json) :
    lookupEntry (rowStart key index ++ name) (entriesOfRow key other row) =
      if index = other then row.member? name else none := by
  cases row with
  | object members =>
      simp only [entriesOfRow, Json.member?]
      induction members with
      | nil => simp
      | cons member rest ih =>
          rw [List.map_cons, lookupEntry, ih, scopedKey_row, lookupEntry]
          by_cases hindex : index = other
          · simp [hindex]
          · have hother : rowStart key index ++ name ≠ rowStart key other ++ member.1 :=
              fun h => hindex (Element.rowStart_append_inj h)
            simp [hindex, hother]
  | _ => simp [entriesOfRow, Json.member?]

theorem lookupEntry_rowEntries (key name : String) (index : Nat) (rows : List Json) :
    lookupEntry (rowStart key index ++ name) (rowEntries key rows) =
      rows[index]?.bind fun row => row.member? name := by
  induction rows using List.reverseRecOn with
  | nil => rfl
  | append_singleton rows row ih =>
      rw [rowEntries_concat, lookupEntry_append, ih, lookupEntry_entriesOfRow]
      rcases Nat.lt_trichotomy index rows.length with hbefore | rfl | hbehind
      · rw [if_neg (Nat.ne_of_lt hbefore), Option.or_none, List.getElem?_append_left hbefore]
      · simp
      · have hnone : (rows ++ [row])[index]? = none := by
          rw [List.getElem?_eq_none_iff, List.length_append, List.length_singleton]
          omega
        rw [if_neg (Nat.ne_of_gt hbehind), hnone, List.getElem?_eq_none (Nat.le_of_lt hbehind)]
        rfl

theorem mem_rowEntries {key : String} {rows : List Json} {entry : String × Json}
    (h : entry ∈ rowEntries key rows) : ∃ index name, entry.1 = rowStart key index ++ name := by
  obtain ⟨⟨row, index⟩, -, hentry⟩ := List.mem_flatMap.mp h
  cases row with
  | object members =>
      obtain ⟨⟨name, value⟩, -, rfl⟩ := List.mem_map.mp hentry
      exact ⟨index, name, scopedKey_row key name index⟩
  | _ => cases hentry

/-! ## Spreading -/

/-- The rows of a value; one that is no array has none. -/
def rowsOf (value : Option Json) : List Json :=
  (value.bind Json.array?).getD []

def spreadRows (key : String) (count : Nat) (values : KeyMap Json) : KeyMap Json :=
  values.insertAllNew (rowEntries key ((rowsOf (values.get? key)).take count))

theorem foldl_addEntry_eq (entries : List (String × Json)) (walk : Walk) :
    (entries.foldl addEntry walk).state =
      { walk.state with values := walk.state.values.insertAllNew entries } := by
  induction entries generalizing walk with
  | nil => rfl
  | cons entry rest ih =>
      have hentry : (addEntry walk entry).state =
          { walk.state with values := walk.state.values.insertIfNew entry.1 entry.2 } := by
        unfold addEntry KeyMap.insertIfNew
        split <;> rfl
      rw [List.foldl_cons, ih, hentry]
      rfl

theorem expandRows_eq (key : String) (count : Nat) (walk : Walk) :
    (expandRows key count walk).state =
      { walk.state with values := spreadRows key count walk.state.values } := by
  unfold expandRows spreadRows
  cases walk.state.values.get? key with
  | none => simp [rowsOf, rowEntries, KeyMap.insertAllNew]
  | some value =>
      cases value with
      | array rows => exact foldl_addEntry_eq _ walk
      | _ => simp [rowsOf, Json.array?, rowEntries, KeyMap.insertAllNew]

theorem get?_spreadRows (key name : String) (count index : Nat) (values : KeyMap Json) :
    (spreadRows key count values).get? (rowStart key index ++ name) =
      (values.get? (rowStart key index ++ name)).or
        (((rowsOf (values.get? key)).take count)[index]?.bind fun row => row.member? name) := by
  rw [spreadRows, KeyMap.get?_insertAllNew, lookupEntry_rowEntries]

theorem get?_spreadRows_other {key other : String} (count : Nat) (values : KeyMap Json)
    (h : ∀ index name, other ≠ rowStart key index ++ name) :
    (spreadRows key count values).get? other = values.get? other := by
  rw [spreadRows, KeyMap.get?_insertAllNew, KeyMap.lookupEntry_eq_none, Option.or_none]
  intro hmem
  obtain ⟨entry, hentry, hkey⟩ := List.mem_map.mp hmem
  obtain ⟨index, name, hrow⟩ := mem_rowEntries hentry
  exact h index name (hkey ▸ hrow)

/-! ## Open containers -/

section Open

variable (setting : WalkSetting)

theorem patch_eq_pure {site : Site} {e : Element} (h : e.attributes.patch = none) :
    patch setting site e = pure none := by
  unfold patch
  rw [h]

theorem visibility_eq_pure {site : Site} {e : Element} (h : e.attributes.visibility = none) :
    visibility setting site e = pure true := by
  unfold visibility
  rw [h]

theorem visible_of_enter {scope : Option String} {e : Element}
    (hvisibility : e.attributes.visibility = none) (hpatch : e.attributes.patch = none)
    {visible : Bool} {walk entered : Walk}
    (h : (enter setting scope e).run walk = .ok (visible, entered)) : visible = true := by
  rw [enter_eq, patch_eq_pure setting hpatch, pure_bind, Option.getD_none,
    visibility_eq_pure setting hvisibility, pure_bind] at h
  obtain ⟨⟨⟩, marked, -, h⟩ := exists_of_run_bind_eq_ok h
  obtain ⟨⟨⟩, answered, -, h⟩ := exists_of_run_bind_eq_ok h
  cases h
  rfl

theorem enter_open {scope : Option String} {e : Element}
    (hvisibility : e.attributes.visibility = none) (hpatch : e.attributes.patch = none)
    (hfield : e.isField = false) :
    enter setting scope e =
      modify (markVisibility (scopedKey scope e.id) true) >>= fun _ => pure true := by
  have hanswer : answer setting ⟨e.id, scope⟩ true e = pure () := by
    cases e with
    | field attributes traits => cases hfield
    | _ => rfl
  rw [enter_eq, patch_eq_pure setting hpatch, pure_bind, Option.getD_none,
    visibility_eq_pure setting hvisibility, pure_bind, hanswer]
  rfl

variable {attributes : Attributes} (hvisibility : attributes.visibility = none)
  (hpatch : attributes.patch = none)

include hvisibility hpatch

theorem enter_open_run (scope : Option String) (kind : Container) (children : List Element)
    (walk : Walk) :
    (enter setting scope (.container attributes kind children)).run walk =
      .ok (true, markVisibility (scopedKey scope attributes.id) true walk) := by
  have henter : enter setting scope (.container attributes kind children) =
      modify (markVisibility (scopedKey scope attributes.id) true) >>= fun _ => pure true :=
    enter_open setting hvisibility hpatch rfl
  rw [henter]
  rfl

theorem visit_open_run (scope : Option String) (kind : Container) (children : List Element)
    (walk : Walk) :
    (visit setting scope (.container attributes kind children)).run walk =
      (visitWithin setting scope attributes.id kind
        fun scope => visitAll setting scope children).run
          (markVisibility (scopedKey scope attributes.id) true walk) := by
  rw [visit, run_bind_of_ok (enter_open_run setting hvisibility hpatch scope kind children walk),
    if_pos rfl]

theorem visit_rows_run (bounds : RepetitionBounds) (children : List Element)
    (scripts : ScriptEngine) (inputs : KeyMap Json) :
    let count := repetitions setting.config.repetition bounds (inputs.get? attributes.id)
    ∃ spread : Walk,
      spread.state = { FormState.ofInputs (spreadRows attributes.id count inputs) with
        visibilities := KeyMap.empty.insert attributes.id true
        repetitions := KeyMap.empty.insert attributes.id count } ∧
      (visit setting none (.container attributes (.repeating bounds) children)).run
          (start scripts inputs) =
        (forM (List.range count) fun index =>
          visitAll setting (some (rowScope attributes.id index)) children).run spread := by
  intro count
  let marked := markVisibility attributes.id true (start scripts inputs)
  refine ⟨recordCount attributes.id count (expandRows attributes.id count marked), ?_, ?_⟩
  · rw [recordCount, expandRows_eq]
    rfl
  · rw [visit_open_run setting hvisibility hpatch, visitWithin_run, scopesBelow, List.forM_map]
    rfl

end Open

end Walk

end FormDerivation
