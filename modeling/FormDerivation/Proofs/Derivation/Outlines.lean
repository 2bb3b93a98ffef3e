import FormDerivation.Proofs.Derivation.Congruence
import FormDerivation.Proofs.Element.Outline

/-!
# Children that are not visited

A patch leaves a container with the same expressions whatever its children are
(`Walk.twins_container`), and hiding children goes by their outline (`Walk.hideAll_congr`).  What
children leave in a state then are overrides, and no step tells walks apart that differ in these
(`Walk.congruent_sameButOverrides`).
-/

namespace FormDerivation

open KeyMap (lookupEntry lookupEntry_append get?_insertAll get?_ofList)

namespace Walk

/-! ## Patched containers -/

def childKeys : List String :=
  ["children", "introduction", "summary", "submit"]

theorem lookupEntry_members_congr {key : String} (hkey : key ∉ childKeys) (kind : Container)
    (children children' : List Json) :
    lookupEntry key (kind.members children') = lookupEntry key (kind.members children) := by
  simp only [childKeys, List.mem_cons, List.not_mem_nil, or_false, not_or] at hkey
  obtain ⟨hchildren, hintroduction, hsummary, hsubmit⟩ := hkey
  cases kind with
  | root steps =>
      simp [Container.members, RootParts.members, hchildren, hintroduction, hsummary, hsubmit]
  | step => simp [Container.members, hchildren]
  | group => simp [Container.members, hchildren]
  | repeating bounds => simp [Container.members, hchildren]

theorem get?_overlaid (e : Element) (overlay : KeyMap Json) (key : String) :
    (overlaid e overlay).get? key = (overlay.get? key).or (lookupEntry key e.members) := by
  rw [overlaid, KeyMap.get?_insertIfNew, get?_insertAll overlay.keys_nodup,
    get?_ofList e.keys_members_nodup]
  by_cases hid : key = "id"
  · subst hid
    rw [e.lookupEntry_id_members, if_pos rfl]
    cases h : lookupEntry "id" overlay.toList <;> simp [KeyMap.get?, h]
  · rw [if_neg hid, Option.or_none]
    rfl

structure SameSteps (e e' : Element) : Prop where
  visibility : e'.attributes.visibility = e.attributes.visibility
  traits : e'.traits? = e.traits?

theorem traits_ofType_congr {m m' : List (String × Json)}
    (h : ∀ key, key ∉ childKeys → lookupEntry key m' = lookupEntry key m) (type : StoredType) :
    (Element.ofType m' type).traits? = (Element.ofType m type).traits? := by
  cases type with
  | field kind =>
      have hcompute : Json.expressionMember? m' FieldTraits.computeKeys =
          Json.expressionMember? m FieldTraits.computeKeys :=
        Json.expressionMember?_congr fun key hkey => h key (by revert key; decide)
      have hvalidation : Json.expressionMember? m' ["validation"] =
          Json.expressionMember? m ["validation"] :=
        Json.expressionMember?_congr fun key hkey => h key (by revert key; decide)
      simp only [Element.ofType, Element.traits?, FieldTraits.ofMembers, hcompute, hvalidation,
        h "field_type" (by decide), h "required" (by decide), h "constraint" (by decide),
        h "validation_message" (by decide)]
  | _ => rfl

theorem twins_of_lookupEntry {e e' : Element} (hattributes : e'.attributes = e.attributes)
    (htraits : e'.traits? = e.traits?)
    (h : ∀ key, key ∉ childKeys → lookupEntry key e'.members = lookupEntry key e.members) :
    Twins SameSteps e e' where
  id_eq := congrArg Attributes.id hattributes
  patch_eq := by rw [hattributes]
  self := ⟨by rw [hattributes], htraits⟩
  replacement := by
    intro overlay
    have hlookup : ∀ key, key ∉ childKeys →
        lookupEntry key (overlaid e' overlay).toList =
          lookupEntry key (overlaid e overlay).toList := by
      intro key hkey
      change (overlaid _ overlay).get? key = (overlaid _ overlay).get? key
      rw [get?_overlaid, get?_overlaid, h key hkey]
    have htype : StoredType.ofMembers (overlaid e' overlay).toList =
          StoredType.ofMembers (overlaid e overlay).toList := by
      simp only [StoredType.ofMembers, hlookup "type" (by decide)]
    -- Both replacements are read as the same type, and from other keys than those of children.
    rw [replacement_eq, replacement_eq, htype]
    constructor
    · exact Element.attribute_ofType_congr .visibility _ fun key hkey =>
        hlookup key (by revert key; decide)
    · exact traits_ofType_congr hlookup _

theorem twins_container (attributes : Attributes) (kind : Container)
    (children children' : List Element) :
    Twins SameSteps (.container attributes kind children)
      (.container attributes kind children') := by
  refine twins_of_lookupEntry rfl rfl fun key hkey => ?_
  rw [Element.members, Element.members, lookupEntry_append, lookupEntry_append,
    lookupEntry_members_congr hkey kind (children.map Element.toJson)]

/-! ## Hiding by outline -/

section Outlines

variable (setting : WalkSetting)

mutual

def hideOutline (scope : Option String) : Outline → WalkM Unit
  | .node id bounds children => do
    modify (markVisibility (scopedKey scope id) false)
    match bounds with
    | some bounds =>
      let key := scopedKey scope id
      forRows key (fun row => hideOutlines (some row) children) (← countAt setting bounds key)
    | none => hideOutlines scope children

def hideOutlines (scope : Option String) : List Outline → WalkM Unit
  | [] => return
  | outline :: rest => do
    hideOutline scope outline
    hideOutlines scope rest

end

mutual

theorem hide_eq_hideOutline (scope : Option String) : (e : Element) →
    hide setting scope e = hideOutline setting scope e.outline
  | .container attributes kind children => by
      have hchildren : ∀ scope, hideAll setting scope children =
          hideOutlines setting scope (Element.outlines children) :=
        fun scope => hideAll_eq_hideOutlines scope children
      cases kind <;> simp only [hide, hideWithin, Element.outline, hideOutline, hchildren]
  | .field attributes traits => by
      simp [hide, Element.outline, hideOutline, hideOutlines]
  | .content attributes text => by
      simp [hide, Element.outline, hideOutline, hideOutlines]

theorem hideAll_eq_hideOutlines (scope : Option String) : (es : List Element) →
    hideAll setting scope es = hideOutlines setting scope (Element.outlines es)
  | [] => by rw [hideAll, Element.outlines, hideOutlines]
  | e :: rest => by
      rw [hideAll, Element.outlines, hideOutlines, hide_eq_hideOutline scope e,
        hideAll_eq_hideOutlines scope rest]

end

theorem hideAll_congr (scope : Option String) {es es' : List Element}
    (h : Element.outlines es' = Element.outlines es) :
    hideAll setting scope es' = hideAll setting scope es := by
  rw [hideAll_eq_hideOutlines, hideAll_eq_hideOutlines, h]

end Outlines

/-! ## Walks with other overrides -/

def SameButOverrides (walk walk' : Walk) : Prop :=
  ∃ overrides, walk' = { walk with state := { walk.state with overrides := overrides } }

theorem publish_of_values (walk : Walk) (site : Site) {state : FormState}
    (h : state.values = walk.state.values) :
    ({ walk with state } : Walk).publish site =
      (walk.publish site).map fun published => { published with state } := by
  obtain ⟨before, scripts, stale⟩ := walk
  have hdata : ScriptEngine.isGlobalName "data" = true := by decide
  have hrow : ScriptEngine.isGlobalName "row" = true := by decide
  have helement : ScriptEngine.isGlobalName "element" = true := by decide
  cases stale <;>
    simp [publish, publishData, ScriptEngine.register, h, hdata, hrow, helement, bind, Except.bind,
      Except.map]

theorem congruent_sameButOverrides (setting : WalkSetting) :
    Congruent setting SameSteps SameButOverrides where
  values := by
    rintro walk _ key ⟨overrides, rfl⟩ _
    rfl
  recordFailure := by
    rintro walk _ site site' step error ⟨overrides, rfl⟩ hkey
    exact ⟨overrides, by simp only [recordFailure, hkey]⟩
  markVisibility := by
    rintro walk _ key visible ⟨overrides, rfl⟩ _
    exact ⟨overrides, rfl⟩
  setValue := by
    rintro walk _ key value ⟨overrides, rfl⟩ _
    exact ⟨overrides, rfl⟩
  recordError := by
    rintro walk _ key message ⟨overrides, rfl⟩ _
    exact ⟨overrides, rfl⟩
  recordCount := by
    rintro walk _ key count ⟨overrides, rfl⟩ _
    exact ⟨overrides, rfl⟩
  refl := fun _ => ⟨rfl, rfl⟩
  visibility_eq := fun h => h.visibility
  traits_eq := fun h => h.traits
  evaluate := by
    rintro walk _ site e ⟨overrides, rfl⟩
    cases e with
    | formula formula => exact ⟨rfl, overrides, rfl⟩
    | script code =>
        have hvalues := @publish_of_values walk site { walk.state with overrides := overrides } rfl
        simp only [evaluate, hvalues]
        cases hpublish : walk.publish site with
        | error error => exact ⟨rfl, overrides, rfl⟩
        | ok published =>
            rw [← publish_state hpublish]
            exact ⟨rfl, overrides, rfl⟩
    | malformed raw reason => exact ⟨rfl, overrides, rfl⟩
  recordOverride := by
    rintro walk _ e e' key _ ⟨overrides, rfl⟩
    exact ⟨overrides.insert key e', rfl⟩

end Walk

end FormDerivation
