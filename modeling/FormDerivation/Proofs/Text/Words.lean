import FormDerivation.Host.Text
import Mathlib.Data.List.Chain

/-!
# Words of texts

A text is made of words and of the blanks around them, in one way only (`Text.Parts`,
`Text.parts_iff`).  `normalize` writes the same words with one space between any two of them and
nothing else, so it has nothing left to do on what it has written
(`HostProvider.normalizeFunction_call`).
-/

namespace FormDerivation.Text

/-! ## Blanks and words -/

theorem isBlank_iff (c : Char) : isBlank c = true ↔ CharSet.contains blanks c.toNat = true := by
  simp only [isBlank, blanks, CharSet.contains, List.any_cons, List.any_nil, Bool.or_eq_true,
    Bool.and_eq_true, decide_eq_true_eq, beq_iff_eq, Bool.or_false]
  omega

structure IsRun (w : List Char) : Prop where
  nonempty : w ≠ []
  visible : ∀ c ∈ w, isBlank c = false

/-- The words of a text, one behind the other, with at least one blank between any two. -/
inductive Parts : List Char → List (List Char) → Prop where
  | nil : Parts [] []
  | blank {c : Char} {cs : List Char} {ws : List (List Char)} (hc : isBlank c = true)
      (hcs : Parts cs ws) : Parts (c :: cs) ws
  | last {w : List Char} (hw : IsRun w) : Parts w [w]
  | word {w : List Char} {c : Char} {cs : List Char} {ws : List (List Char)} (hw : IsRun w)
      (hc : isBlank c = true) (hcs : Parts cs ws) : Parts (w ++ c :: cs) (w :: ws)

theorem Parts.isRun {cs : List Char} {ws : List (List Char)} (h : Parts cs ws) :
    ∀ w ∈ ws, IsRun w := by
  induction h with
  | nil => simp
  | blank hc hcs ih => exact ih
  | last hw => simpa using hw
  | word hw hc hcs ih => exact List.forall_mem_cons.mpr ⟨hw, ih⟩

theorem Parts.around {cs ds : List Char} {ws us : List (List Char)} {c : Char} (h : Parts cs ws)
    (hc : isBlank c = true) (h' : Parts ds us) : Parts (cs ++ c :: ds) (ws ++ us) := by
  induction h with
  | nil => exact .blank hc h'
  | blank hd hcs ih => exact .blank hd ih
  | last hw => exact .word hw hc h'
  | word hw hd hcs ih =>
      rw [List.append_assoc, List.cons_append]
      exact .word hw hd ih

/-! ## Reading words -/

theorem wordsFrom_run (current rest : List Char) {w : List Char}
    (hw : ∀ c ∈ w, isBlank c = false) :
    wordsFrom current (w ++ rest) = wordsFrom (w.reverse ++ current) rest := by
  induction w generalizing current with
  | nil => rfl
  | cons c w ih =>
      rw [List.forall_mem_cons] at hw
      rw [List.cons_append, wordsFrom, hw.1, if_neg (by decide), ih _ hw.2, List.reverse_cons,
        List.append_assoc, List.singleton_append]

theorem parts_wordsFrom (current cs : List Char) (hcurrent : ∀ c ∈ current, isBlank c = false) :
    Parts (current.reverse ++ cs) (wordsFrom current cs) := by
  have hrun {current : List Char} (hvisible : ∀ c ∈ current, isBlank c = false)
      (hnonempty : ¬ current.isEmpty = true) : IsRun current.reverse :=
    ⟨by simpa using hnonempty, by simpa using hvisible⟩
  fun_induction wordsFrom current cs with
  | case1 current hempty =>
      rw [List.isEmpty_iff.mp hempty]
      exact .nil
  | case2 current hnonempty =>
      rw [List.append_nil]
      exact .last (hrun hcurrent hnonempty)
  | case3 current c rest hc hempty ih =>
      rw [List.isEmpty_iff.mp hempty]
      exact .blank hc (ih (by simp))
  | case4 current c rest hc hnonempty ih =>
      exact .word (hrun hcurrent hnonempty) hc (ih (by simp))
  | case5 current c rest hc ih =>
      have hread := ih (List.forall_mem_cons.mpr ⟨Bool.eq_false_iff.mpr hc, hcurrent⟩)
      rwa [List.reverse_cons, List.append_assoc, List.singleton_append] at hread

/-- A text has one list of words, the one that is read. -/
theorem parts_iff (cs : List Char) (ws : List (List Char)) : Parts cs ws ↔ words cs = ws := by
  constructor
  · intro h
    induction h with
    | nil => rfl
    | blank hc hcs ih => rwa [words, wordsFrom, if_pos hc, List.isEmpty_nil, if_pos rfl]
    | @last w hw =>
        have hnonempty : w.reverse.isEmpty = false := by simpa using hw.nonempty
        rw [words, ← List.append_nil w, wordsFrom_run _ _ hw.visible, List.append_nil,
          List.append_nil, wordsFrom, hnonempty, if_neg (by decide), List.reverse_reverse]
    | @word w c cs ws hw hc hcs ih =>
        have hnonempty : w.reverse.isEmpty = false := by simpa using hw.nonempty
        rw [words, wordsFrom_run _ _ hw.visible, List.append_nil, wordsFrom, if_pos hc, hnonempty,
          if_neg (by decide), List.reverse_reverse]
        exact congrArg (w :: ·) ih
  · rintro rfl
    exact parts_wordsFrom [] cs (by simp)

/-! ## Writing words -/

structure Tidy (cs : List Char) : Prop where
  leading : ∀ c ∈ cs.head?, isBlank c = false
  trailing : ∀ c ∈ cs.getLast?, isBlank c = false
  single : cs.IsChain fun c d => isBlank c = false ∨ isBlank d = false
  spaces : ∀ c ∈ cs, isBlank c = true → c = ' '

theorem tidy_nil : Tidy [] :=
  ⟨by simp, by simp, .nil, by simp⟩

theorem IsRun.tidy {w : List Char} (h : IsRun w) : Tidy w where
  leading := fun c hc => h.visible c (List.mem_of_mem_head? hc)
  trailing := fun c hc => h.visible c (List.mem_of_mem_getLast? hc)
  single := (List.pairwise_of_forall_mem_list fun c hc _ _ => .inl (h.visible c hc)).isChain
  spaces := fun c hc hblank => by
    rw [h.visible c hc] at hblank
    cases hblank

theorem Tidy.join {w cs : List Char} (hw : IsRun w) (hcs : cs ≠ []) (h : Tidy cs) :
    Tidy (w ++ ' ' :: cs) := by
  obtain ⟨c, rest, rfl⟩ := List.exists_cons_of_ne_nil hcs
  refine ⟨?_, ?_, ?_, ?_⟩
  · intro d hd
    rw [List.head?_append_of_ne_nil _ hw.nonempty] at hd
    exact hw.tidy.leading d hd
  · intro d hd
    rw [List.getLast?_append_cons, List.getLast?_cons_cons] at hd
    exact h.trailing d hd
  · have hvisible : isBlank c = false := h.leading c rfl
    refine List.isChain_append.mpr ⟨hw.tidy.single, ?_, fun d hd _ _ => .inl (hw.tidy.trailing d hd)⟩
    exact List.isChain_cons_cons.mpr ⟨.inr hvisible, h.single⟩
  · intro d hd hblank
    rcases List.mem_append.mp hd with hd | hd
    · exact hw.tidy.spaces d hd hblank
    · rcases List.mem_cons.mp hd with rfl | hd
      · rfl
      · exact h.spaces d hd hblank

theorem joinWords_ne_nil {w : List Char} (hw : IsRun w) (rest : List (List Char)) :
    joinWords (w :: rest) ≠ [] := by
  cases rest with
  | nil => exact hw.nonempty
  | cons u rest => exact List.append_ne_nil_of_left_ne_nil hw.nonempty _

theorem joinWords_tidy : (ws : List (List Char)) → (∀ w ∈ ws, IsRun w) →
    Tidy (joinWords ws) ∧ Parts (joinWords ws) ws
  | [], _ => ⟨tidy_nil, .nil⟩
  | [w], h => by
      rw [List.forall_mem_singleton] at h
      exact ⟨h.tidy, .last h⟩
  | w :: u :: rest, h => by
      rw [List.forall_mem_cons] at h
      obtain ⟨htidy, hparts⟩ := joinWords_tidy (u :: rest) h.2
      have hrest := joinWords_ne_nil (h.2 u List.mem_cons_self) rest
      exact ⟨htidy.join h.1 hrest, .word h.1 (by decide) hparts⟩

theorem toList_normalize (s : String) : (normalize s).toList = joinWords (words s.toList) := by
  rw [normalize, String.toList_ofList]

theorem tidy_normalize (s : String) :
    Tidy (normalize s).toList ∧ Parts (normalize s).toList (words s.toList) := by
  rw [toList_normalize]
  exact joinWords_tidy _ ((parts_iff s.toList _).mpr rfl).isRun

@[simp] theorem words_normalize (s : String) : words (normalize s).toList = words s.toList :=
  (parts_iff _ _).mp (tidy_normalize s).2

@[simp] theorem normalize_normalize (s : String) : normalize (normalize s) = normalize s := by
  rw [normalize, words_normalize, normalize]

end FormDerivation.Text

namespace FormDerivation.HostProvider

open Text

/--
The normal form of a text.  It is its own normal form, has no blanks but single spaces between
words, and has the words of the text; each of the blank characters parts the words of the text
before it from those behind it.
-/
theorem normalizeFunction_call (s : String) :
    ∃ normal, normalizeFunction.call [.string s] = .ok (.string normal) ∧
      normalizeFunction.call [.string normal] = .ok (.string normal) ∧
      Tidy normal.toList ∧
      (∀ ws, Parts normal.toList ws ↔ Parts s.toList ws) ∧
      ∀ start c rest, s.toList = start ++ c :: rest → CharSet.contains blanks c.toNat = true →
        ∀ ws us, Parts start ws → Parts rest us → Parts normal.toList (ws ++ us) := by
  have hsame (ws : List (List Char)) : Parts (normalize s).toList ws ↔ Parts s.toList ws := by
    rw [parts_iff, parts_iff, words_normalize]
  refine ⟨normalize s, rfl, ?_, (tidy_normalize s).1, hsame, ?_⟩
  · have hcall : normalizeFunction.call [.string (normalize s)] =
        .ok (.string (normalize (normalize s))) := rfl
    rw [hcall, normalize_normalize]
  · intro start c rest hs hc ws us hws hus
    rw [hsame, hs]
    exact hws.around ((isBlank_iff c).mpr hc) hus

theorem normalizeFunction_call_emSpace :
    let s := "\t Max \u2003Mustermann\n"
    CharSet.contains blanks '\u2003'.toNat = true ∧
    normalizeFunction.call [.string s] = .ok (.string "Max Mustermann") ∧
    Tidy "Max Mustermann".toList ∧
    Parts "Max Mustermann".toList ["Max".toList, "Mustermann".toList] := by
  intro s
  obtain ⟨normal, hcall, -, htidy, -, hparted⟩ := normalizeFunction_call s
  have hnormal : normalize s = "Max Mustermann" := by
    rw [← String.toList_inj, toList_normalize]
    decide
  obtain rfl : normalize s = normal := Json.string.inj (Except.ok.inj hcall)
  rw [hnormal] at hcall htidy hparted
  have hleft : Parts "\t Max ".toList ["Max".toList] := (parts_iff _ _).mpr (by decide)
  have hright : Parts "Mustermann\n".toList ["Mustermann".toList] := (parts_iff _ _).mpr (by decide)
  exact ⟨by decide, hcall, htidy, hparted _ '\u2003' _ (by decide) (by decide) _ _ hleft hright⟩

end FormDerivation.HostProvider
