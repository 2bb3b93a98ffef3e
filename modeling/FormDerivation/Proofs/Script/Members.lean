import FormDerivation.Proofs.Script.MemberOrder

/-!
# Scripts that read a member of a global

`memberText` is the source of a member of a global.  The answer is the stored form of the member, or
`null` where there is none (`ScriptEngine.Genuine.evaluate_memberText`); that is the member itself
unless it has an integer in it that scripts make a double of (`Script.Value.toJson_ofJson`).
-/

namespace FormDerivation

namespace Script

/-! ## The source of a member -/

def memberText (global member : String) : String :=
  global ++ "." ++ member

theorem lexes_memberText {global member : String} (hglobal : isPathName global = true)
    (hmember : isPathName member = true) : Lexes (memberText global member).toList
      [.name global, .symbol ".", .name member] := by
  simpa [memberText] using Lexes.member hglobal hmember rfl Lexes.nil

theorem Parser.expression_member (around : Surroundings) {global member : String}
    (hglobal : functionWords.contains global = false)
    (hmember : functionWords.contains member = false) (fuel : Nat) (p q r : Position) :
    ∃ free, (expression (fuel + 6) around).run
        ⟨[⟨.name global, p⟩, ⟨.symbol ".", q⟩, ⟨.name member, r⟩], [], [], []⟩ =
      .ok (.access (.variable global p) [.property member false r] q, ⟨[], [], free, []⟩) := by
  obtain ⟨free, hunary⟩ := unary_member around hglobal hmember (fuel + 1) (.inl rfl) [] p q r
  refine ⟨free, ?_⟩
  rw [expression, run_bind_of_ok hunary]
  rfl

theorem parse_memberText (limits : ScriptLimits) {global member : String}
    (hglobal : isPathName global = true) (hmember : isPathName member = true) :
    ∃ p q r, Program.parse limits (memberText global member) =
      .ok ⟨[], [.expr (.access (.variable global p) [.property member false r] q)]⟩ := by
  obtain ⟨lexemes, hlexemes, htokens⟩ := (lexes_memberText hglobal hmember).tokenize
  obtain ⟨p, afterGlobal, rfl, hafterGlobal⟩ := Parser.exists_lexeme htokens
  obtain ⟨q, afterPoint, rfl, hafterPoint⟩ := Parser.exists_lexeme hafterGlobal
  obtain ⟨r, behind, rfl, hbehind⟩ := Parser.exists_lexeme hafterPoint
  cases List.map_eq_nil_iff.mp hbehind
  obtain ⟨free, hexpression⟩ := Parser.expression_member ⟨false, false, false, limits⟩
    (not_functionWord_of_isPathName hglobal) (not_functionWord_of_isPathName hmember) 71 p q r
  refine ⟨p, q, r, ?_⟩
  rw [Program.parse, hlexemes]
  exact Parser.program_expression limits hexpression

/-! ## Running it -/

theorem Eval.statement_member_run {ctx : Context} {run : Run} {found : Variable}
    {members : List (String × Value)} (fuel : Nat) (name member : String) (p q r : Position)
    (hlimits : run.operations + 3 ≤ Run.allowance ctx.limits)
    (hfound : run.lookup? name = some found) (hmap : run.read found.value = .map members) :
    statement (fuel + 5) ctx (.expr (.access (.variable name p) [.property member false r] q)) run =
      (.ok ((members.lookup member).getD .unit),
        { run with operations := run.operations + 3 }) := by
  rw [statement_expr_run _ _ (by omega)]
  exact expression_member_run fuel _ name member p q r hlimits hfound hmap

/-! ## Values that scripts keep -/

namespace Value

mutual

/-- A value that scripts have as it is: without integers that they make doubles of. -/
def Kept : Json → Prop
  | .null | .bool _ | .string _ => True
  | .int n => n ≤ 9223372036854775807
  | .float x => Decimal.isFinite x = true
  | .array items => KeptItems items
  | .object members => KeptMembers members

def KeptItems : List Json → Prop
  | [] => True
  | j :: rest => Kept j ∧ KeptItems rest

def KeptMembers : List (String × Json) → Prop
  | [] => True
  | (_, j) :: rest => Kept j ∧ KeptMembers rest

end

mutual

theorem toJson_ofJson : (j : Json) → Kept j → (ofJson j).toJson = .ok j
  | .null, _ | .bool _, _ | .string _, _ => rfl
  | .int n, h => by
      have hn : n ≤ 9223372036854775807 := h
      rw [ofJson, if_pos hn]
      rfl
  | .float x, h => by
      have hfinite : Decimal.isFinite x = true := h
      rw [ofJson, toJson, if_pos hfinite]
  | .array items, h => by
      rw [ofJson, toJson, toJsonItems_ofJsonItems items h]
      rfl
  | .object members, h => by
      rw [ofJson, toJson, toJsonMembers_ofJsonMembers members h]
      rfl

theorem toJsonItems_ofJsonItems : (items : List Json) → KeptItems items →
    toJsonItems (ofJsonItems items) = .ok items
  | [], _ => rfl
  | j :: rest, h => by
      rw [ofJsonItems, toJsonItems, toJson_ofJson j h.1, toJsonItems_ofJsonItems rest h.2]
      rfl

theorem toJsonMembers_ofJsonMembers : (members : List (String × Json)) → KeptMembers members →
    toJsonMembers (ofJsonMembers members) = .ok members
  | [], _ => rfl
  | (key, j) :: rest, h => by
      rw [ofJsonMembers, toJsonMembers, toJson_ofJson j h.1, toJsonMembers_ofJsonMembers rest h.2]
      rfl

end

end Value

end Script

/-! ## Answers -/

namespace ScriptEngine

open Script

variable {host : HostRegistry} {limits : ScriptLimits} {engine : ScriptEngine}

theorem Genuine.evaluate_memberText (h : Genuine host limits engine)
    (hlimits : 3 ≤ Run.allowance limits) {global member : String}
    (hglobal : isPathName global = true) (hmember : isPathName member = true)
    {values : KeyMap Json} (hvalues : engine.globals.get? global = some (.ofJson (.ofMap values))) :
    (engine.evaluate (memberText global member)).1 =
      stored (.ofJson ((values.get? member).getD .null)) := by
  obtain ⟨p, q, r, hparse⟩ := parse_memberText limits hglobal hmember
  obtain ⟨fuel, ctx, hctx, houtcome⟩ := h.evaluate_statement hparse
  have hanswer : ((Value.ofJsonMembers values.toList).lookup member).getD .unit =
      .ofJson ((values.get? member).getD .null) := by
    rw [lookup_ofJsonMembers, KeyMap.get?]
    cases KeyMap.lookupEntry member values.toList <;> rfl
  have hrun := Eval.statement_member_run (fuel + 11) global member p q r (by rwa [hctx])
    (lookup?_global hvalues) rfl
  rw [hanswer] at hrun
  rw [houtcome _ _ hrun, Except.map, Run.read_ofJson]
  rfl

end ScriptEngine

end FormDerivation
