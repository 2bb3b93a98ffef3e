import FormDerivation.Operator.Evaluation
import FormDerivation.Proofs.Pattern.Reading

/-!
# Matching the whole of a text

The operator `text.matches` puts the text of a pattern between `^(?:` and `)$` and searches with the
pattern that this text is.  For a pattern that can be read on its own the search is for the pattern
between two anchors (`Pattern.ofText_anchored_of_ok`), and such a search matches the whole of a text
or nothing (`Pattern.matchesWithin_whole`).

The added text is read as part of the pattern, so there are two kinds of patterns for which this goes
wrong.  A comment at the end of a pattern in verbose mode takes the closing parenthesis with it
(`Pattern.EndsInComment`), and a pattern may close the group that is opened in front of it, which is
an error on its own.  Every other pattern is an error exactly if it is one on its own
(`Formula.evaluate_matches`).
-/

namespace FormDerivation

namespace Pattern

def ofText (text : String) : Except Reason Pattern :=
  (readAlternatives (text.toList.length + 1) 0 [] [] ⟨text.toList, {}, []⟩).map Prod.fst

theorem parse_eq (text : String) : parse text =
    match ofText text with
    | .error reason => .error (.malformed text reason)
    | .ok p => if maxCompiledSize < compiledSize p then .error .tooLarge else .ok p := by
  rw [parse, ofText]
  cases readAlternatives (text.toList.length + 1) 0 [] [] ⟨text.toList, {}, []⟩ <;> rfl

theorem ofText_ordered (text : String) : Ensures Pattern.Ordered (ofText text) := by
  have hreads := readAlternatives_reads (text.toList.length + 1) 0 [] [] ⟨text.toList, {}, []⟩
    (List.forall_mem_nil _) (List.forall_mem_nil _)
  rw [ofText]
  cases hr : readAlternatives (text.toList.length + 1) 0 [] [] ⟨text.toList, {}, []⟩ with
  | error reason => exact .fails
  | ok b => exact .of_ok (hreads b hr).ordered

def anchored (pattern : String) : String :=
  "^(?:" ++ pattern ++ ")$"

def whole (p : Pattern) : Pattern :=
  .cat (.anchor .textStart []) (.cat p (.anchor .textEnd []))

theorem charBefore_eq_none {text : List Char} {i : Nat} (hi : i ≤ text.length)
    (h : charBefore text i = none) : i = 0 := by
  by_contra hne
  rw [charBefore, if_neg hne, List.getElem?_eq_none_iff] at h
  omega

theorem spans_whole_iff {p : Pattern} {text : List Char} {i k : Nat} (hi : i ≤ text.length) :
    Spans text p.whole i k ↔ i = 0 ∧ k = text.length ∧ Spans text p 0 text.length := by
  constructor
  · intro h
    cases h with
    | cat hstart hrest =>
      cases hstart with
      | anchor hstart =>
        cases hrest with
        | cat hp hend =>
          cases hend with
          | anchor hend =>
            obtain rfl := charBefore_eq_none hi (Option.isNone_iff_eq_none.mp hstart)
            have hge := List.getElem?_eq_none_iff.mp (Option.isNone_iff_eq_none.mp hend)
            obtain rfl := Nat.le_antisymm (hp.le_length hi) hge
            exact ⟨rfl, rfl, hp⟩
  · rintro ⟨rfl, rfl, h⟩
    exact .cat (.anchor rfl) (.cat h (.anchor (by simp [Anchor.holds])))

theorem matchesWithin_whole {p : Pattern} (hordered : p.Ordered) (text : List Char) :
    matchesWithin p.whole text = true ↔ Spans text p 0 text.length := by
  have hwhole : p.whole.Ordered := ⟨trivial, hordered, trivial⟩
  rw [matchesWithin_iff hwhole, MatchesWithin]
  constructor
  · rintro ⟨i, k, hi, h⟩
    exact ((spans_whole_iff hi).mp h).2.2
  · intro h
    exact ⟨0, text.length, Nat.zero_le _, (spans_whole_iff (Nat.zero_le _)).mpr ⟨rfl, rfl, h⟩⟩

/-- A pattern that ends in a comment: a closing parenthesis behind it is no part of the pattern. -/
def EndsInComment (pattern : String) : Prop :=
  (∃ p, ofText pattern = .ok p) ∧ ∃ p, ofText (pattern ++ ")") = .ok p

theorem ofText_closing_eq (pattern : String) : ofText (pattern ++ ")") =
    (readAlternatives (pattern.toList.length + 2) 0 [] []
      (Source.append ⟨pattern.toList, {}, []⟩ (closing 0))).map Prod.fst := by
  have hlist : (pattern ++ ")").toList = pattern.toList ++ closing 0 := by
    rw [String.toList_append]
    rfl
  have hlength : (pattern.toList ++ closing 0).length + 1 = pattern.toList.length + 2 := by
    simp
  rw [ofText, hlist, hlength]
  rfl

theorem ofText_anchored_eq (pattern : String) : ofText (anchored pattern) =
    (readAlternatives (pattern.toList.length + 5) 1 [] []
      (Source.append ⟨pattern.toList, {}, []⟩ (closing 1)) >>= fun b =>
        readAlternatives (pattern.toList.length + 5) 0 []
          [⟨b.1, true⟩, ⟨.anchor .textStart [], true⟩] { b.2 with flags := {} }).map Prod.fst := by
  have hlist : (anchored pattern).toList =
      '^' :: '(' :: '?' :: ':' :: (pattern.toList ++ closing 1) := by
    rw [anchored, String.toList_append, String.toList_append]
    rfl
  have hlength : ('^' :: '(' :: '?' :: ':' :: (pattern.toList ++ closing 1)).length + 1 =
      pattern.toList.length + 7 := by
    simp
  rw [ofText, hlist, hlength]
  rfl

/-- How the reading of a pattern ends, and what follows for the pattern with anchors. -/
theorem ofText_outcome (pattern : String) :
    Outcome pattern.toList 0
      (readAlternatives (pattern.toList.length + 1) 0 [] [] ⟨pattern.toList, {}, []⟩)
      (InLonger 0 [] [] ⟨pattern.toList, {}, []⟩) :=
  readAlternatives_outcome _ 0 [] [] ⟨pattern.toList, {}, []⟩ (List.forall_mem_nil _)
    (List.forall_mem_nil _) (Nat.lt_succ_self _)

theorem ofText_anchored_of_error {pattern : String} {reason : Reason}
    (h : ofText pattern = .error reason) (hopened : reason ≠ .groupUnopened) :
    ∃ reason, ofText (anchored pattern) = .error reason := by
  rw [ofText] at h
  cases ofText_outcome pattern with
  | ended p source swallowed hr _ _ =>
      rw [hr] at h
      cases h
  | closed p source hr hlevel _ => exact absurd rfl hlevel
  | failed e hr hlonger =>
      have hgroup := hlonger 1 1 (pattern.toList.length + 5) (Nat.zero_le _) (by simp) (by decide)
      obtain ⟨reason, hreason⟩ := (Ensures.fails_bind hgroup).exists_error
      exact ⟨reason, by rw [ofText_anchored_eq, hreason]; rfl⟩
  | unopened hr _ =>
      rw [hr] at h
      cases h
      exact absurd rfl hopened

theorem exists_ending_of_ok {pattern : String} {p : Pattern} (h : ofText pattern = .ok p) :
    ∃ (source : Source) (swallowed : Bool), (swallowed = true → '#' ∈ pattern.toList) ∧
      ofText (pattern ++ ")") =
        (ending 0 p source (if swallowed then [] else closing 0)).map Prod.fst ∧
      Shallow 0 1 (ending 1 p source (if swallowed then [] else closing 1))
        (readAlternatives (pattern.toList.length + 5) 1 [] []
          (Source.append ⟨pattern.toList, {}, []⟩ (closing 1))) := by
  rw [ofText] at h
  cases ofText_outcome pattern with
  | ended p' source swallowed hr hcomment hlonger =>
      rw [hr] at h
      cases h
      refine ⟨source, swallowed, hcomment, ?_, hlonger 1 1 _ (Nat.zero_le _) (by simp)⟩
      have hclosing := hlonger 0 0 (pattern.toList.length + 2) (Nat.le_refl _) (by simp)
      rw [ofText_closing_eq, hclosing.resolve_right fun h => Nat.lt_irrefl 0 h.1]
  | closed p source hr hlevel _ => exact absurd rfl hlevel
  | failed e hr _ =>
      rw [hr] at h
      cases h
  | unopened hr _ =>
      rw [hr] at h
      cases h

theorem mem_of_endsInComment {pattern : String} (h : EndsInComment pattern) :
    '#' ∈ pattern.toList := by
  obtain ⟨⟨p, hp⟩, q, hq⟩ := h
  obtain ⟨source, swallowed, hcomment, hclosing, -⟩ := exists_ending_of_ok hp
  cases swallowed with
  | true => exact hcomment rfl
  | false => cases hclosing.symm.trans hq

/--
A pattern that is one on its own is found between the anchors, unless a comment at its end takes the
closing parenthesis, which leaves the group open.
-/
theorem ofText_anchored_of_ok {pattern : String} {p : Pattern} (h : ofText pattern = .ok p)
    (hdeep : ofText (anchored pattern) ≠ .error .nestedTooDeep) :
    ¬EndsInComment pattern ∧ ofText (anchored pattern) = .ok p.whole ∨
      EndsInComment pattern ∧ ofText (anchored pattern) = .error .groupUnclosed := by
  obtain ⟨source, swallowed, -, hclosing, hgroup | ⟨-, hgroup⟩⟩ := exists_ending_of_ok h
  · rw [ofText_anchored_eq, hgroup]
    cases swallowed with
    | true => exact .inr ⟨⟨⟨p, h⟩, p, hclosing⟩, rfl⟩
    | false =>
        refine .inl ⟨fun ⟨_, q, hq⟩ => ?_, rfl⟩
        cases hclosing.symm.trans hq
  · rw [ofText_anchored_eq, hgroup] at hdeep
    exact absurd rfl hdeep

/-- The limits of patterns: on their compiled size, and on the nesting of their groups. -/
def WithinLimits (text : String) : Prop :=
  parse text ≠ .error .tooLarge ∧ parse text ≠ .error (.malformed text .nestedTooDeep)

theorem parse_of_ok {text : String} {p : Pattern} (h : ofText text = .ok p)
    (hlimits : WithinLimits text) : parse text = .ok p := by
  have hparse := parse_eq text
  rw [h] at hparse
  dsimp only at hparse
  split_ifs at hparse
  · exact absurd hparse hlimits.1
  · exact hparse

theorem parse_of_error {text : String} {reason : Reason} (h : ofText text = .error reason) :
    parse text = .error (.malformed text reason) := by
  rw [parse_eq, h]

end Pattern

theorem Operator.matchesOperator_evaluate (text pattern : String) :
    matchesOperator.evaluate [.string text, .string pattern] =
      match Pattern.parse (Pattern.anchored pattern) with
      | .ok p => .ok (.boolean (p.matchesWithin text.toList))
      | .error error => .error (.evaluation "matches" ("invalid pattern: " ++ error.message)) :=
  rfl

theorem Formula.evaluate_matches_eq {context : KeyMap Json} {scope : Option String}
    {textOperand patternOperand : Operand} {text pattern : String}
    (htext : textOperand.evaluate .builtin context scope = .ok (.string text))
    (hpattern : patternOperand.evaluate .builtin context scope = .ok (.string pattern)) :
    Formula.evaluate .builtin context scope (.apply "text.matches" [textOperand, patternOperand]) =
      match Pattern.parse (Pattern.anchored pattern) with
      | .ok p => .ok (.boolean (p.matchesWithin text.toList))
      | .error error =>
        .error (.evaluation "text.matches" ("invalid pattern: " ++ error.message)) := by
  have hfound : OperatorRegistry.builtin.get? "text.matches" = some Operator.matchesOperator := rfl
  rw [Formula.evaluate, hfound]
  simp only [Operand.evaluateAll, htext, hpattern, Operator.matchesOperator_evaluate]
  cases Pattern.parse (Pattern.anchored pattern) <;> rfl

/--
The operator `text.matches` fails exactly on patterns that are none on their own, and otherwise answers
whether the pattern matches the whole of the text.
-/
theorem Formula.evaluate_matches {context : KeyMap Json} {scope : Option String}
    {textOperand patternOperand : Operand} {text pattern : String}
    (htext : textOperand.evaluate .builtin context scope = .ok (.string text))
    (hpattern : patternOperand.evaluate .builtin context scope = .ok (.string pattern))
    (hlimits : Pattern.WithinLimits (Pattern.anchored pattern))
    (hcomment : ¬Pattern.EndsInComment pattern)
    (hopened : Pattern.ofText pattern ≠ .error .groupUnopened) :
    let result := Formula.evaluate .builtin context scope
      (.apply "text.matches" [textOperand, patternOperand])
    ((∃ message, result = .error (.evaluation "text.matches" message)) ↔
      ∃ reason, Pattern.ofText pattern = .error reason) ∧
    ∀ p, Pattern.ofText pattern = .ok p → ∃ answer, result = .ok (.boolean answer) ∧
      (answer = true ↔ p.Spans text.toList 0 text.toList.length) := by
  intro result
  have hresult : result = _ := Formula.evaluate_matches_eq htext hpattern
  cases h : Pattern.ofText pattern with
  | error reason =>
      obtain ⟨reason', hanchored⟩ := Pattern.ofText_anchored_of_error h fun heq => hopened (heq ▸ h)
      rw [Pattern.parse_of_error hanchored] at hresult
      exact ⟨⟨fun _ => ⟨reason, rfl⟩, fun _ => ⟨_, hresult⟩⟩, fun p hp => by cases hp⟩
  | ok p =>
      have hdeep : Pattern.ofText (Pattern.anchored pattern) ≠ .error .nestedTooDeep :=
        fun hdeep => hlimits.2 (Pattern.parse_of_error hdeep)
      obtain ⟨_, hanchored⟩ | ⟨hends, _⟩ := Pattern.ofText_anchored_of_ok h hdeep
      · rw [Pattern.parse_of_ok hanchored hlimits] at hresult
        refine ⟨⟨fun ⟨_, hfails⟩ => ?_, fun ⟨_, hr⟩ => by cases hr⟩, fun _ hp => ?_⟩
        · rw [hresult] at hfails
          cases hfails
        · cases hp
          exact ⟨_, hresult, Pattern.matchesWithin_whole (Pattern.ofText_ordered pattern p h) _⟩
      · exact absurd hends hcomment

theorem Formula.evaluate_matches_alternatives :
    let operands : List Operand := [.constant (.string "ab"), .constant (.string "a|b")]
    Pattern.WithinLimits (Pattern.anchored "a|b") ∧ ¬Pattern.EndsInComment "a|b" ∧
      Pattern.ofText "a|b" ≠ .error .groupUnopened ∧
      Formula.evaluate .builtin .empty none (.apply "text.matches" operands) =
        .ok (.boolean false) ∧
      ∃ p, Pattern.ofText "a|b" = .ok p ∧ ¬p.Spans "ab".toList 0 "ab".toList.length := by
  intro operands
  have hlimits : Pattern.WithinLimits (Pattern.anchored "a|b") := ⟨nofun, nofun⟩
  have hcomment : ¬Pattern.EndsInComment "a|b" :=
    fun h => absurd (Pattern.mem_of_endsInComment h) (by decide)
  have hopened : Pattern.ofText "a|b" ≠ .error .groupUnopened := nofun
  obtain ⟨p, hp⟩ : ∃ p, Pattern.ofText "a|b" = .ok p := ⟨_, rfl⟩
  have htext : Operand.evaluate .builtin .empty none (.constant (.string "ab")) =
      .ok (.string "ab") := rfl
  have hpattern : Operand.evaluate .builtin .empty none (.constant (.string "a|b")) =
      .ok (.string "a|b") := rfl
  have hfalse : Formula.evaluate .builtin .empty none (.apply "text.matches" operands) =
      .ok (.boolean false) := Formula.evaluate_matches_eq htext hpattern
  obtain ⟨-, hanswers⟩ := Formula.evaluate_matches htext hpattern hlimits hcomment hopened
  obtain ⟨answer, hanswer, hspans⟩ := hanswers p hp
  refine ⟨hlimits, hcomment, hopened, hfalse, p, hp, fun h => ?_⟩
  cases hspans.mpr h
  cases hfalse.symm.trans hanswer

/--
On its own the pattern is one and matches the text.  Between the anchors its comment goes on to the
end, and the evaluation fails.
-/
theorem Formula.evaluate_matches_comment :
    (∃ p, Pattern.parse "(?x)a #c" = .ok p ∧ p.Spans "a".toList 0 "a".toList.length) ∧
      ∃ message, Formula.evaluate .builtin .empty none
        (.apply "text.matches" [.constant (.string "a"), .constant (.string "(?x)a #c")]) =
          .error (.evaluation "text.matches" message) :=
  ⟨⟨_, rfl, .cat .empty (.chars rfl rfl)⟩, _, (Formula.evaluate_matches_eq rfl rfl).trans rfl⟩

/-- Between the anchors a pattern may close a group that it does not open. -/
example : Pattern.ofText "a)|(?:b" = .error .groupUnopened ∧
    Formula.evaluate .builtin .empty none
      (.apply "text.matches" [.constant (.string "a"), .constant (.string "a)|(?:b")]) =
        .ok (.boolean true) :=
  ⟨rfl, (Formula.evaluate_matches_eq rfl rfl).trans rfl⟩

end FormDerivation
