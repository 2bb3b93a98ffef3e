import FormDerivation.Expression.References
import FormDerivation.Proofs.KeyMap
import FormDerivation.Proofs.Script.ModuleCalls
import Mathlib.Data.List.TakeWhile

/-!
# References of scripts

What a script refers to is looked for in its text.  Every reference is a word: ASCII letters,
digits and underscores without a digit in front (`ScriptText.isGlobalName_of_mem_references`).  So a
script that reads a member of `data` or `row` refers to it exactly if the name of the member is such
a word, whichever way the access is written (`ScriptText.accessed_iff`); a member in brackets may
have any other name, and is passed over.
-/

namespace FormDerivation.ScriptText

/-! ## Words -/

def IsWord (cs : List Char) : Prop :=
  ∃ c word, cs = c :: word ∧ Script.isNameStart c = true ∧ ∀ d ∈ word, isNameChar d = true

theorem isWord_toList_iff (s : String) :
    IsWord s.toList ↔ ScriptEngine.isGlobalName s = true := by
  refine ⟨?_, Script.exists_of_isGlobalName⟩
  rintro ⟨c, word, hs, hc, hword⟩
  rw [ScriptEngine.isGlobalName, hs, Bool.and_eq_true, List.all_eq_true]
  exact ⟨hc, hword⟩

theorem IsWord.all {cs : List Char} (h : IsWord cs) : ∀ c ∈ cs, isNameChar c = true := by
  obtain ⟨c, word, rfl, hc, hword⟩ := h
  exact List.forall_mem_cons.mpr ⟨Script.isNameChar_of_isNameStart hc, hword⟩

theorem IsWord.name? {cs rest : List Char} (h : IsWord cs)
    (hrest : rest.head?.any isNameChar = false) : name? (cs ++ rest) = some (cs, rest) := by
  have htaken : (cs ++ rest).takeWhile isNameChar = cs := Script.takeWhile_word h.all hrest
  obtain ⟨c, word, rfl, hc, -⟩ := h
  change (if Script.isNameStart c then some ((c :: word ++ rest).takeWhile isNameChar,
    (c :: word ++ rest).drop ((c :: word ++ rest).takeWhile isNameChar).length) else none) = _
  rw [if_pos hc, htaken, List.drop_left]

theorem IsWord.trimStartChars {cs rest : List Char} (h : IsWord cs) :
    Text.trimStartChars (cs ++ rest) = cs ++ rest := by
  obtain ⟨c, word, rfl, hc, -⟩ := h
  rw [Text.trimStartChars, List.cons_append, List.dropWhile_cons_of_neg]
  simp [Script.isBlank_of_isNameStart hc]

/-! ## Every reference is a word -/

theorem isWord_of_name? {cs name rest : List Char} (h : name? cs = some (name, rest)) :
    IsWord name := by
  cases cs with
  | nil => cases h
  | cons c cs =>
      rw [ScriptText.name?] at h
      split at h
      · next hc =>
        cases h
        have hc : Script.isNameStart c = true := hc
        have hchar : isNameChar c = true := Script.isNameChar_of_isNameStart hc
        rw [List.takeWhile_cons_of_pos hchar]
        exact ⟨c, _, rfl, hc, fun d hd => List.mem_takeWhile_imp hd⟩
      · cases h

theorem isWord_of_bracketed? {cs name rest : List Char} (h : bracketed? cs = some (name, rest)) :
    IsWord name := by
  unfold bracketed? at h
  split at h
  · obtain ⟨⟨read, behind⟩, hname, h⟩ := Option.bind_eq_some_iff.mp h
    dsimp only at h
    split at h
    · split at h
      · cases h
        exact isWord_of_name? hname
      · cases h
    · cases h
  · cases h

theorem isWord_of_member? {cs name rest : List Char} (h : member? cs = some (name, rest)) :
    IsWord name := by
  unfold member? at h
  split at h
  · exact isWord_of_name? h
  · exact isWord_of_name? h
  · exact isWord_of_bracketed? h
  · exact isWord_of_bracketed? h
  · cases h

theorem isWord_of_access? {cs name rest : List Char} (h : access? cs = some (name, rest)) :
    IsWord name := by
  unfold access? at h
  split at h
  · exact isWord_of_member? h
  · exact isWord_of_member? h
  · cases h

theorem isWord_of_mem_accesses {steps : Nat} {inWord : Bool} {cs name : List Char}
    (h : name ∈ accesses steps inWord cs) : IsWord name := by
  induction steps generalizing inWord cs with
  | zero => cases h
  | succ steps ih =>
      cases cs with
      | nil => cases h
      | cons c rest =>
          rw [accesses] at h
          split at h
          · next hread =>
            rcases List.mem_cons.mp h with rfl | h
            · split at hread
              · cases hread
              · exact isWord_of_access? hread
            · exact ih h
          · exact ih h

theorem mem_splitAtChar {separator c : Char} {cs : List Char} (h : c ∈ cs) (hc : c ≠ separator) :
    ∃ part ∈ Text.splitAtChar separator cs, c ∈ part := by
  induction cs with
  | nil => cases h
  | cons d rest ih =>
      rw [Text.splitAtChar]
      rcases List.mem_cons.mp h with rfl | h
      · rw [if_neg (by simpa using hc)]
        split
        · exact ⟨[c], List.mem_singleton_self _, List.mem_singleton_self _⟩
        · next part others _ => exact ⟨c :: part, List.mem_cons_self, List.mem_cons_self⟩
      · obtain ⟨part, hpart, hmem⟩ := ih h
        split
        · exact ⟨part, List.mem_cons_of_mem _ hpart, hmem⟩
        · split
          · next hnone =>
            rw [hnone] at hpart
            cases hpart
          · next first others hparts =>
            rw [hparts] at hpart
            rcases List.mem_cons.mp hpart with rfl | hpart
            · exact ⟨d :: part, List.mem_cons_self, List.mem_cons_of_mem _ hmem⟩
            · exact ⟨part, List.mem_cons_of_mem _ hpart, hmem⟩

theorem isWord_of_isNumbered {word : List Char} (h : isNumbered word = true) : IsWord word := by
  simp only [isNumbered, Bool.and_eq_true, List.all_eq_true] at h
  obtain ⟨⟨⟨hhead, -⟩, hparts⟩, -⟩ := h
  cases word with
  | nil => cases hhead
  | cons c rest =>
      have hc : Text.isLetter c = true := hhead
      refine ⟨c, rest, rfl, by rw [Script.isNameStart, hc, Bool.true_or], fun d hd => ?_⟩
      rw [isNameChar, Bool.or_eq_true, beq_iff_eq]
      by_cases hunderscore : d = '_'
      · exact .inr hunderscore
      -- Any other character lies in one of the parts, which are letters and digits.
      · obtain ⟨part, hpart, hmem⟩ := mem_splitAtChar (List.mem_cons_of_mem c hd) hunderscore
        exact .inl ((hparts part hpart).2 d hmem)

theorem isGlobalName_of_mem_references {code s : String} (h : s ∈ references code) :
    ScriptEngine.isGlobalName s = true := by
  rw [← isWord_toList_iff]
  obtain ⟨word, hword, rfl⟩ := List.mem_map.mp h
  rw [String.toList_ofList]
  rcases List.mem_append.mp hword with hword | hword
  · exact isWord_of_mem_accesses hword
  · exact isWord_of_isNumbered (List.mem_filter.mp hword).2

/-! ## Accesses -/

def accessTexts (global member : String) : List String :=
  [global ++ "[\"" ++ member ++ "\"]", global ++ "?[\"" ++ member ++ "\"]",
    global ++ "." ++ member, global ++ "?." ++ member]

theorem bracketed?_word {cs : List Char} (h : IsWord cs) :
    bracketed? ('"' :: (cs ++ ['"', ']'])) = some (cs, []) := by
  have hname : ScriptText.name? (cs ++ ['"', ']']) = some (cs, ['"', ']']) := h.name? rfl
  change (ScriptText.name? (cs ++ ['"', ']'])).bind _ = _
  rw [hname]
  rfl

theorem name?_trimmed {cs : List Char} (h : IsWord cs) :
    ScriptText.name? (Text.trimStartChars cs) = some (cs, []) := by
  have hname : ScriptText.name? (cs ++ []) = some (cs, []) := h.name? rfl
  have htrim : Text.trimStartChars (cs ++ []) = cs ++ [] := h.trimStartChars
  rw [List.append_nil] at hname htrim
  rw [htrim, hname]

theorem access?_of_mem_accessTexts {global s code : String} (hglobal : global ∈ ["data", "row"])
    (hcode : code ∈ accessTexts global s) (h : IsWord s.toList) :
    access? code.toList = some (s.toList, []) := by
  simp only [List.mem_cons, List.not_mem_nil, or_false] at hglobal
  simp only [accessTexts, List.mem_cons, List.not_mem_nil, or_false] at hcode
  rcases hcode with rfl | rfl | rfl | rfl <;> simp only [String.toList_append, List.append_assoc]
  · rcases hglobal with rfl | rfl <;> exact bracketed?_word h
  · rcases hglobal with rfl | rfl <;> exact bracketed?_word h
  · rcases hglobal with rfl | rfl <;> exact name?_trimmed h
  · rcases hglobal with rfl | rfl <;> exact name?_trimmed h

theorem mem_references_of_access? {code : String} {name rest : List Char}
    (h : access? code.toList = some (name, rest)) : String.ofList name ∈ references code := by
  refine List.mem_map_of_mem (List.mem_append_left _ ?_)
  cases hcode : code.toList with
  | nil =>
      rw [hcode] at h
      cases h
  | cons c cs =>
      rw [hcode] at h
      rw [accesses, if_neg Bool.false_ne_true, h]
      exact List.mem_cons_self

/-- A script that does nothing else than reading a member of `data` or `row` refers to the member
exactly if its name is a word. -/
theorem accessed_iff (global : String) (hglobal : global ∈ ["data", "row"]) (s : String) :
    ∀ code ∈ accessTexts global s,
      ((Expression.script code).references.contains s = true ↔
        ScriptEngine.isGlobalName s = true) := by
  intro code hcode
  rw [Expression.references, KeySet.contains_ofList]
  refine ⟨isGlobalName_of_mem_references, fun hname => ?_⟩
  have haccess := access?_of_mem_accessTexts hglobal hcode ((isWord_toList_iff s).mpr hname)
  have hmem := mem_references_of_access? haccess
  rwa [String.ofList_toList] at hmem

theorem income_accessed :
    "data" ∈ ["data", "row"] ∧
    (Expression.script "data[\"income\"]").references.contains "income" = true :=
  ⟨List.mem_cons_self,
    (accessed_iff "data" List.mem_cons_self "income" _ List.mem_cons_self).mpr (by decide)⟩

/-- A name that can be put between quotes as it is, but is no word, is passed over. -/
theorem hyphenated_passed_over :
    "my-id".toList.all (fun c => c != '"' && c != '\\' && 32 ≤ c.toNat && c.toNat < 127) = true ∧
    "data[\"my-id\"]" ∈ accessTexts "data" "my-id" ∧
    (Expression.script "data[\"my-id\"]").references.contains "my-id" = false := by
  decide

end FormDerivation.ScriptText
