import FormDerivation.Proofs.Derivation.RowIsolation
import FormDerivation.Proofs.Derivation.ScriptGlobals
import FormDerivation.Proofs.Script.Members

/-!
# Siblings in a repetition

In a repetition formulas read a sibling under the key with its prefix, and scripts in the row that
is made of the keys with the prefix taken off.  Both find the same value, and none of another
repetition of the container (`Walk.reference_eq_row`), also where the container is itself in a
repetition.
-/

namespace FormDerivation.Walk

open Script (Value memberText isPathName)
open ScriptEngine (Genuine)

/-! ## The row that scripts see -/

theorem row_congr {values values' : KeyMap Json} {scope : String}
    (h : ∀ id, values.get? (scope ++ "_" ++ id) = values'.get? (scope ++ "_" ++ id)) :
    row values (some scope) = row values' (some scope) := by
  apply KeyMap.ext_get?
  intro id
  rw [get?_row, get?_row]
  exact h id

theorem exists_publish (walk : Walk) (site : Site) :
    ∃ globals, walk.publish site = .ok { walk with
        scripts := { walk.scripts with globals := globals }
        stale := false } ∧
      globals.get? "row" = some (.ofJson (.ofMap (row walk.state.values site.scope))) := by
  have hrow : ScriptEngine.isGlobalName "row" = true := by decide
  have helement : ScriptEngine.isGlobalName "element" = true := by decide
  -- Only `data` is left as it is where it is not stale.
  cases hstale : walk.stale with
  | true =>
      refine ⟨_, publish_eq (fresh_of_stale hstale) site, ?_⟩
      simp
  | false =>
      have hpublished : walk.publishData = .ok walk := by
        rw [publishData, if_neg (by simp [hstale])]
      unfold publish
      rw [hpublished]
      simp only [bind, Except.bind, ScriptEngine.register_eq_ok hrow,
        ScriptEngine.register_eq_ok helement, ← hstale]
      refine ⟨_, rfl, ?_⟩
      simp

theorem evaluate_row_member (setting : WalkSetting) (walk : Walk) (site : Site)
    {host : HostRegistry} {limits : ScriptLimits} (h : Genuine host limits walk.scripts)
    (hlimits : 3 ≤ Script.Run.allowance limits) {id : String} (hid : isPathName id = true) :
    (walk.evaluate setting site (.script (memberText "row" id))).1 =
      (ScriptEngine.stored
        (.ofJson (((row walk.state.values site.scope).get? id).getD .null))).mapError .script := by
  obtain ⟨globals, hpublish, hrow⟩ := walk.exists_publish site
  have hgenuine : Genuine host limits { walk.scripts with globals := globals } :=
    ⟨h.host_eq, h.limits_eq, h.kept⟩
  simp only [evaluate, hpublish]
  rw [hgenuine.evaluate_memberText hlimits (by decide) hid hrow]

/--
In a repetition a reference of a formula has the value that the row of scripts has under its
identifier, or `null`, and that is the value under the key with the prefix.  No key of another
repetition has this prefix, and none of its values changes the row.  Scripts find the row as a
constant, and a script that reads a member of it answers with the value of the reference.
-/
theorem reference_eq_row (operators : OperatorRegistry) (setting : WalkSetting) (walk : Walk)
    (key : String) (index : Nat) :
    let values := walk.state.values
    let scope := rowScope key index
    (∀ id, Operand.evaluate operators values (some scope) (.reference id) =
        .ok (((row values (some scope)).get? id).getD .null) ∧
      (row values (some scope)).get? id = values.get? (scope ++ "_" ++ id)) ∧
    (∀ other, other ≠ index →
      (∀ id name, scope ++ "_" ++ id ≠ rowScope key other ++ "_" ++ name) ∧
      ∀ values' : KeyMap Json, (∀ k, ¬ InRow key other k → values'.get? k = values.get? k) →
        row values' (some scope) = row values (some scope)) ∧
    ∀ element,
      (∃ published members, walk.publish ⟨element, some scope⟩ = .ok published ∧
        published.scripts.constant? "row" = some (.map members) ∧
        ∀ id, members.lookup id = ((row values (some scope)).get? id).map Value.ofJson) ∧
      ∀ host limits, Genuine host limits walk.scripts → 3 ≤ Script.Run.allowance limits →
        ∀ id value, isPathName id = true →
          Operand.evaluate operators values (some scope) (.reference id) = .ok value →
          ∃ answer, (Value.ofJson value).toJson = .ok answer ∧ (Value.Kept value → answer = value) ∧
            (walk.evaluate setting ⟨element, some scope⟩ (.script (memberText "row" id))).1 =
              .ok answer := by
  intro values scope
  have hreference : ∀ id, Operand.evaluate operators values (some scope) (.reference id) =
      .ok (((row values (some scope)).get? id).getD .null) := by
    intro id
    have hkey : scopedKey (some scope) id = scope ++ "_" ++ id := scopedKey_row key id index
    rw [Operand.evaluate, hkey, get?_row]
    rfl
  refine ⟨fun id => ⟨hreference id, get?_row values (some scope) id⟩, fun other hother => ?_,
    fun element => ⟨?_, ?_⟩⟩
  · have hapart : ∀ id, ¬ InRow key other (scope ++ "_" ++ id) := fun id =>
      not_inRow_of_inRow ⟨id, rfl⟩ hother.symm
    exact ⟨fun id name hkey => hapart id ⟨name, hkey⟩, fun values' hvalues =>
      row_congr fun id => hvalues _ (hapart id)⟩
  · obtain ⟨globals, hpublish, hrow⟩ := walk.exists_publish ⟨element, some scope⟩
    refine ⟨_, _, hpublish, (ScriptEngine.constant?_eq _ _).trans hrow, fun id => ?_⟩
    exact Script.lookup_ofJsonMembers _ id
  · intro host limits hgenuine hlimits id value hid hvalue
    rw [hreference id] at hvalue
    have hscript := evaluate_row_member setting walk ⟨element, some scope⟩ hgenuine hlimits hid
    rw [Except.ok.inj hvalue] at hscript
    obtain ⟨answer, hanswer⟩ := Value.exists_toJson_ofJson value
    refine ⟨answer, hanswer, fun hkept => ?_, ?_⟩
    · rw [Value.toJson_ofJson value hkept] at hanswer
      exact (Except.ok.inj hanswer).symm
    · rw [hscript, ScriptEngine.stored, hanswer]
      rfl

theorem reference_eq_row_rooms :
    let values : KeyMap Json := .ofList [("name", .string "plot"),
      ("houses_2_rooms_1_name", .string "attic"), ("houses_2_rooms_10_size", .int 4)]
    let values' : KeyMap Json := .ofList [("name", .string "plot"),
      ("houses_2_rooms_1_name", .string "attic")]
    let walk : Walk := .start (.fresh .empty {}) values
    let site : Site := ⟨"label", some (rowScope "houses_2_rooms" 1)⟩
    (row values site.scope).get? "name" = some (.string "attic") ∧
      (row values site.scope).get? "size" = none ∧
      row values' site.scope = row values site.scope ∧
      (walk.evaluate ⟨.empty, {}⟩ site (.script "row.name")).1 = .ok (.string "attic") := by
  intro values values' walk site
  have hvalues : ∀ k, ¬ InRow "houses_2_rooms" 10 k → values'.get? k = values.get? k := by
    intro k hk
    have hsize : k ≠ "houses_2_rooms_10_size" := by
      rintro rfl
      exact hk ⟨"size", by decide⟩
    simp [values, values', KeyMap.ofList, KeyMap.insertAll, hsize]
  obtain ⟨hentry, hother, hsite⟩ := reference_eq_row .empty ⟨.empty, {}⟩ walk "houses_2_rooms" 1
  obtain ⟨answer, hanswer, -, hscript⟩ := (hsite "label").2 .empty {}
    (ScriptEngine.fresh_genuine .empty {}) (by decide) "name" (.string "attic") (by decide) rfl
  cases hanswer
  exact ⟨(hentry "name").2, (hentry "size").2, (hother 10 (by decide)).2 values' hvalues, hscript⟩

end FormDerivation.Walk
