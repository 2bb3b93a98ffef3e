import FormDerivation.Proofs.Derivation.Inheritance

/-!
# What a patched element takes from its patch

An attribute may be stored under several keys, of which the first one counts that is there.  An
element is written under the first of them, its *key*, so a patch that uses an alias is read only
where the element itself has nothing under the key (`Walk.patch_overlays`).  Otherwise the element
keeps its own value, also against an alias with `null` (`Walk.patch_keeps_visibility`).
-/

namespace FormDerivation

open KeyMap (lookupEntry lookupEntry_append)

/-! ## Keys and aliases -/

namespace Attribute

theorem spellings_ne_nil (a : Attribute) : a.spellings ≠ [] := by
  cases a <;> exact List.cons_ne_nil _ _

def key (a : Attribute) : String :=
  a.spellings.head a.spellings_ne_nil

def aliases (a : Attribute) : List String :=
  a.spellings.tail

theorem spellings_eq (a : Attribute) : a.spellings = a.key :: a.aliases :=
  (List.cons_head_tail a.spellings_ne_nil).symm

theorem type_notMem_spellings (a : Attribute) : "type" ∉ a.spellings := by
  cases a <;> decide

theorem mem_of_aliases_ne_nil {a : Attribute} (h : a.aliases ≠ []) :
    a = .visibility ∨ a = .patch ∨ a = .compute := by
  cases a <;> first | decide | exact absurd rfl h

end Attribute

namespace Element

def ownMembers : Element → List (String × Json)
  | .container _ kind children => kind.members (children.map toJson)
  | .field _ traits => traits.toMembers
  | .content _ text => [("content", .string text)]

theorem members_eq (e : Element) :
    e.members = ("type", .string e.kindName) :: e.attributes.toMembers ++ e.ownMembers := by
  cases e <;> rfl

@[simp] theorem lookupEntry_type_members (e : Element) :
    lookupEntry "type" e.members = some (.string e.kindName) := by
  rw [members_eq]
  rfl

theorem lookupEntry_ownMembers (e : Element) :
    ∀ name ∈ ["visibility", "visible_if", "patch", "override", "computed"],
      lookupEntry name e.ownMembers = none := by
  cases e with
  | container attributes kind children =>
      cases kind <;> simp [ownMembers, Container.members, RootParts.members]
  | field attributes traits =>
      simp [ownMembers, FieldTraits.toMembers]
  | content attributes text => simp [ownMembers]

theorem lookupEntry_compute (e : Element) :
    lookupEntry "compute_value" e.ownMembers =
      (e.traits?.bind FieldTraits.compute).map Expression.toJson := by
  cases e with
  | container attributes kind children =>
      cases kind <;> simp [ownMembers, Container.members, RootParts.members, traits?]
  | field attributes traits =>
      simp [ownMembers, FieldTraits.toMembers, traits?]
  | content attributes text => simp [ownMembers, traits?]

theorem lookupEntry_alias (e : Element) {a : Attribute} {name : String} (h : name ∈ a.aliases) :
    lookupEntry name e.members = none := by
  have hname : name = "visible_if" ∨ name = "override" ∨ name = "computed" := by
    rcases Attribute.mem_of_aliases_ne_nil (List.ne_nil_of_mem h) with rfl | rfl | rfl
    · exact .inl (List.mem_singleton.mp h)
    · exact .inr (.inl (List.mem_singleton.mp h))
    · exact .inr (.inr (List.mem_singleton.mp h))
  rw [members_eq]
  rcases hname with rfl | rfl | rfl <;>
    simp [Attributes.toMembers, lookupEntry_ownMembers]

theorem lookupEntry_key (e : Element) {a : Attribute} (h : a.aliases ≠ []) :
    lookupEntry a.key e.members = (a.expressions e).head?.map Expression.toJson := by
  have hown := e.lookupEntry_ownMembers
  rw [members_eq]
  rcases Attribute.mem_of_aliases_ne_nil h with rfl | rfl | rfl
  · change lookupEntry "visibility" _ = e.attributes.visibility.toList.head?.map _
    simp [Attributes.toMembers, hown]
  · change lookupEntry "patch" _ = e.attributes.patch.toList.head?.map _
    simp [Attributes.toMembers, hown]
  · change lookupEntry "compute_value" _ = (e.traits?.bind FieldTraits.compute).toList.head?.map _
    rw [lookupEntry_own (by decide) (by decide), lookupEntry_compute, Option.head?_toList]

theorem attribute_ofType_null {a : Attribute} {m : List (String × Json)} (type : StoredType)
    (h : Json.firstMember? m a.spellings = some .null) :
    a.of (ofType m type) = a.of (ofType [] type) := by
  have hnull : Json.firstMember? [(a.key, .null)] a.spellings = some .null := by
    simp [a.spellings_eq, Json.firstMember?]
  -- One such list of members stands for all, and on it the attribute computes.
  rw [attribute_ofType_first a type (h.trans hnull.symm)]
  cases a <;> cases type <;> rfl

end Element

namespace Walk

/-! ## Overlays alone -/

/-- An overlay by itself, read as an element of the kind of `e`. -/
def alone (e : Element) (overlay : KeyMap Json) : Element :=
  .ofJson (.ofMap (overlay.insert "type" (.string e.kindName)))

theorem alone_eq_ofType (e : Element) (overlay : KeyMap Json) :
    alone e overlay = Element.ofType (overlay.insert "type" (.string e.kindName)).toList
      (.ofMembers e.members) := by
  have htype : lookupEntry "type" (overlay.insert "type" (.string e.kindName)).toList =
      lookupEntry "type" e.members := by
    rw [e.lookupEntry_type_members]
    exact KeyMap.get?_insert_self _ _ _
  rw [alone, Json.ofMap, Element.ofJson_object, StoredType.ofMembers, htype]
  rfl

theorem firstMember?_alone (e : Element) (overlay : KeyMap Json) (a : Attribute) :
    Json.firstMember? (overlay.insert "type" (.string e.kindName)).toList a.spellings =
      Json.firstMember? overlay.toList a.spellings := by
  refine Json.firstMember?_congr fun name hname => ?_
  have hne : name ≠ "type" := fun heq => a.type_notMem_spellings (heq ▸ hname)
  change (overlay.insert "type" _).get? name = overlay.get? name
  rw [KeyMap.get?_insert, if_neg hne]

theorem alone_null (e : Element) {overlay : KeyMap Json} {a : Attribute}
    (h : Json.firstMember? overlay.toList a.spellings = some .null) :
    a.of (alone e overlay) = a.of (alone e .empty) := by
  have hempty : a.of (alone e .empty) = a.of (Element.ofType [] (.ofMembers e.members)) := by
    rw [alone_eq_ofType]
    exact Element.attribute_ofType_first a _ (firstMember?_alone e .empty a)
  rw [hempty, alone_eq_ofType]
  exact Element.attribute_ofType_null _ ((firstMember?_alone e overlay a).trans h)

/-! ## Overlays in place -/

theorem firstMember?_overlaid (e : Element) (overlay : KeyMap Json) (a : Attribute) :
    Json.firstMember? (overlaid e overlay).toList a.spellings =
      (overlay.get? a.key).or ((lookupEntry a.key e.members).or
        (Json.firstMember? overlay.toList a.aliases)) := by
  have haliases : Json.firstMember? (overlaid e overlay).toList a.aliases =
      Json.firstMember? overlay.toList a.aliases := by
    refine Json.firstMember?_congr fun name hname => ?_
    rw [lookupEntry_overlaid, e.lookupEntry_alias hname, Option.or_none]
    rfl
  rw [a.spellings_eq, Json.firstMember?, haliases, lookupEntry_overlaid, Option.or_assoc]

theorem replacement_takes (e : Element) {overlay : KeyMap Json} (htype : overlay.get? "type" = none)
    {a : Attribute}
    (h : (overlay.get? a.key).isSome ∨ lookupEntry a.key e.members = none) :
    a.of (replacement e overlay) = a.of (alone e overlay) := by
  rw [replacement_eq_ofType e htype, alone_eq_ofType]
  refine Element.attribute_ofType_first a _ ?_
  rw [firstMember?_overlaid, firstMember?_alone, a.spellings_eq, Json.firstMember?]
  rcases h with hkey | hown
  · obtain ⟨value, hvalue⟩ := Option.isSome_iff_exists.mp hkey
    have hlookup : lookupEntry a.key overlay.toList = some value := hvalue
    rw [hvalue, hlookup, Option.some_or, Option.some_or]
  · rw [hown, Option.none_or]
    rfl

theorem replacement_keeps {e : Element} (he : e.Readable) {overlay : KeyMap Json}
    (htype : overlay.get? "type" = none) {a : Attribute} (hkey : overlay.get? a.key = none)
    (hown : (lookupEntry a.key e.members).isSome) :
    a.of (replacement e overlay) = a.of e.reread := by
  obtain ⟨value, hvalue⟩ := Option.isSome_iff_exists.mp hown
  rw [replacement_eq_ofType e htype, Element.reread_eq_ofType he]
  refine Element.attribute_ofType_first a _ ?_
  rw [firstMember?_overlaid, a.spellings_eq, Json.firstMember?, hkey, hvalue, Option.none_or,
    Option.some_or, Option.some_or]

/-! ## Patches -/

/--
What the replacement of an element has for an attribute that a patch names: what the patch alone
has, if it uses the key of the attribute or the element has no expression there, and what the
element has otherwise.
-/
theorem patch_overlays (setting : WalkSetting) (site : Site) (j : Json) (e : Element)
    (he : e ∈ (Element.ofJson j).elements) (expression : Expression)
    (hpatch : e.attributes.patch = some expression) (walk walk' : Walk) (value : Json)
    (hvalue : walk.evaluate setting site expression = (.ok value, walk')) (overlay : KeyMap Json)
    (hoverlay : value.object? = some overlay) (htype : overlay.get? "type" = none) :
    ∃ replaced patched, (patch setting site e).run walk = .ok (some replaced, patched) ∧
      patched.state.overrides.get? site.key = some replaced ∧
      ∀ a : Attribute, (∃ name ∈ a.spellings, overlay.contains name) →
        (overlay.contains a.key ∨ a.expressions e = [] →
          a.of replaced = a.of (alone e overlay) ∧
          (Json.firstMember? overlay.toList a.spellings = some .null →
            a.of replaced = a.of (alone e .empty))) ∧
        (overlay.contains a.key = false → a.expressions e ≠ [] →
          a.of replaced = a.of e.reread) := by
  have hreadable : e.Readable := (Element.ofJson_readable j).of_mem he
  refine ⟨_, _, patch_run setting site hpatch hvalue hoverlay, KeyMap.get?_insert_self _ _ _, ?_⟩
  intro a hnamed
  -- An attribute that is named, but not by its key, is named by an alias.
  have haliases (hkey : overlay.contains a.key = false) : a.aliases ≠ [] := by
    obtain ⟨name, hname, hcontains⟩ := hnamed
    rw [a.spellings_eq] at hname
    rcases List.mem_cons.mp hname with rfl | halias
    · rw [hkey] at hcontains
      cases hcontains
    · exact List.ne_nil_of_mem halias
  constructor
  · intro hgiven
    have htakes : a.of (replacement e overlay) = a.of (alone e overlay) := by
      refine replacement_takes e htype ?_
      cases hkey : overlay.contains a.key with
      | true => exact .inl hkey
      | false =>
          have hnone : a.expressions e = [] := hgiven.resolve_left (by simp [hkey])
          exact .inr (by rw [e.lookupEntry_key (haliases hkey), hnone]; rfl)
    exact ⟨htakes, fun hnull => htakes.trans (alone_null e hnull)⟩
  · intro hkey hsome
    have hnone : overlay.get? a.key = none := by simpa [KeyMap.contains] using hkey
    have hown : (lookupEntry a.key e.members).isSome := by
      rw [e.lookupEntry_key (haliases hkey), Option.isSome_map, List.isSome_head?]
      simpa using hsome
    exact replacement_keeps hreadable htype hnone hown

theorem patch_overlays_total :
    let setting : WalkSetting := ⟨⟨.ofList [("logic.if-else", Operator.ifElseOperator)]⟩, {}⟩
    let fill : Expression := .formula (.apply "logic.if-else" [.constant (.bool true),
      .constant (.object [("computed", (Expression.script "1 + 1").toJson), ("visibility", .null)]),
      .constant .null])
    let total : Element := .field ⟨"total", "Total", none, some (.script "false"), some fill⟩
      ⟨.number, false, none, none, none, none⟩
    ∃ replaced patched,
      (patch setting ⟨"total", none⟩ total).run (.start (.fresh .empty {}) .empty) =
        .ok (some replaced, patched) ∧
      replaced.attributes.visibility = none ∧
      replaced.traits?.map FieldTraits.compute = some (some (.script "1 + 1")) := by
  intro setting fill total
  have hreadable : total.Readable := by
    simp [total, Element.Readable, Element.elements, Element.Tidy, Attributes.InRange]
  have htotal : total ∈ (Element.ofJson total.toJson).elements := by
    rw [Element.ofJson_toJson total hreadable]
    exact List.mem_singleton_self total
  let overlay : KeyMap Json :=
    .ofList [("computed", (Expression.script "1 + 1").toJson), ("visibility", .null)]
  obtain ⟨replaced, patched, hrun, -, htakes⟩ :=
    patch_overlays setting ⟨"total", none⟩ total.toJson total htotal fill rfl
      (.start (.fresh .empty {}) .empty) _ _ rfl overlay rfl rfl
  have hvisibility := ((htakes .visibility ⟨"visibility", by decide, rfl⟩).1 (.inl rfl)).2 rfl
  have hcompute := ((htakes .compute ⟨"computed", by decide, rfl⟩).1 (.inr rfl)).1
  refine ⟨replaced, patched, hrun, hvisibility.trans ?_, hcompute.trans ?_⟩
  · rw [Attribute.of, alone_eq_ofType, Element.attributes_ofType]
    rfl
  · have htype : StoredType.ofMembers total.members = .field none := by decide
    rw [alone_eq_ofType, htype]
    rfl

/-- A hidden group stays hidden if its patch clears the visibility under the alias. -/
theorem patch_keeps_visibility :
    let engine : FormEngine := ⟨⟨.ofList [("logic.not", Operator.notOperator),
      ("logic.if-else", Operator.ifElseOperator)]⟩, .empty, {}⟩
    let hidden : Expression := .formula (.apply "logic.not" [.constant (.bool true)])
    let clear : Expression := .formula (.apply "logic.if-else" [.constant (.bool true),
      .constant (.object [("visible_if", .null)]), .constant .null])
    let tree : Element := .ofJson (.object [("id", .string "g"), ("type", .string "group"),
      ("visibility", hidden.toJson), ("patch", clear.toJson)])
    tree.attributes.patch = some clear ∧
    ((Walk.start (.fresh .empty {}) .empty).evaluate ⟨engine.operators, {}⟩ ⟨"g", none⟩ clear).1 =
      .ok (.object [("visible_if", .null)]) ∧
    (alone tree (.ofList [("visible_if", .null)])).attributes.visibility = none ∧
    ∃ state replaced, engine.derive tree .empty .empty = .ok state ∧
      state.overrides.get? "g" = some replaced ∧
      replaced.attributes.visibility = some hidden ∧
      state.visibilities.get? "g" = some false :=
  ⟨rfl, rfl, rfl, _, _, rfl, rfl, rfl, rfl⟩

end Walk

end FormDerivation
