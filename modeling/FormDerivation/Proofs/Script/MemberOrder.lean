import FormDerivation.Proofs.Script.GlobalNames

/-!
# Scripts that compare two members of a global

`orderText` is the source of the question whether one member of a global comes before another one.
It is read as that comparison if the names can stand in paths (`parse_orderText`), and if both
members are texts the answer is the order of texts (`ScriptEngine.evaluate_registered_order`).
-/

namespace FormDerivation

namespace Script

/-! ## The source of a comparison -/

def orderText (global first second : String) : String :=
  global ++ "." ++ first ++ " < " ++ global ++ "." ++ second

@[simp] theorem toList_orderText (global first second : String) :
    (orderText global first second).toList =
      global.toList ++ '.' :: (first.toList ++ ' ' :: '<' :: ' ' ::
        (global.toList ++ '.' :: second.toList)) := by
  simp [orderText]

theorem Lexes.blank {rest : List Char} {tokens : List Token} (h : Lexes rest tokens) :
    Lexes (' ' :: rest) tokens := by
  intro steps pos hsteps
  cases steps with
  | zero => cases hsteps
  | succ steps => exact h steps (pos.afterAll [' ']) (Nat.lt_of_succ_lt_succ hsteps)

theorem symbol?_member {c : Char} (hc : isNameStart c = true) (rest : List Char) :
    symbol? ('.' :: c :: rest) = some "." := by
  have hother : ('.' == c) = false := by
    rw [beq_eq_false_iff_ne]
    rintro rfl
    exact absurd hc (by decide)
  have hreserved : symbolAhead? ('.' :: c :: rest) reservedSymbols = none := by
    change (if (if ('.' == c) = true then Text.dropBeginning? ['.'] rest else none).isSome = true
      then some "..." else none) = none
    rw [hother]
    rfl
  have hused : symbolAhead? ('.' :: c :: rest) symbols = some "." := by
    change (if (if ('.' == c) = true then Text.dropBeginning? ['='] rest else none).isSome = true
      then some "..=" else if (if ('.' == c) = true then some rest else none).isSome = true
      then some ".." else some ".") = some "."
    rw [hother]
    rfl
  rw [symbol?, hreserved, hused]

theorem Lexes.point {c : Char} (hc : isNameStart c = true) {rest : List Char} {tokens : List Token}
    (h : Lexes (c :: rest) tokens) : Lexes ('.' :: c :: rest) (.symbol "." :: tokens) := by
  refine h.cons ['.'] (List.cons_ne_nil _ _) fun steps pos => ?_
  rw [List.cons_append, List.nil_append, tokensFrom]
  split
  case h_1 | h_2 | h_3 | h_4 | h_5 | h_6 => next heq => cases heq
  case h_7 heq =>
    cases heq
    rw [symbol?_member hc]
    rfl

theorem Lexes.member {global member : String} (hglobal : isPathName global = true)
    (hmember : isPathName member = true) {rest : List Char} {tokens : List Token}
    (hend : rest.head?.any isNameChar = false) (hrest : Lexes rest tokens) :
    Lexes (global.toList ++ '.' :: (member.toList ++ rest))
      (.name global :: .symbol "." :: .name member :: tokens) := by
  have hlexes := Lexes.pathName hmember hend hrest
  obtain ⟨c, word, hname, hc, -⟩ := exists_of_isGlobalName (isGlobalName_of_isPathName hmember)
  rw [hname, List.cons_append] at hlexes ⊢
  exact Lexes.pathName hglobal rfl (hlexes.point hc)

theorem lexes_orderText {global first second : String} (hglobal : isPathName global = true)
    (hfirst : isPathName first = true) (hsecond : isPathName second = true) :
    Lexes (orderText global first second).toList
      [.name global, .symbol ".", .name first, .symbol "<", .name global, .symbol ".",
        .name second] := by
  have hright := (Lexes.member hglobal hsecond rfl Lexes.nil).blank
  rw [List.append_nil] at hright
  have hless := (hright.cons ['<'] (List.cons_ne_nil _ _) fun _ _ => rfl).blank
  rw [toList_orderText]
  exact Lexes.member hglobal hfirst rfl hless

/-! ## Reading a comparison -/

namespace Parser

variable (around : Surroundings)

theorem useName_run (name : String) (pos : Position) (input : List Lexeme)
    (free : List (String × Position)) :
    ∃ free', (useName name pos).run ⟨input, [], free, []⟩ = .ok ((), ⟨input, [], free', []⟩) := by
  have hrun : (useName name pos).run ⟨input, [], free, []⟩ =
      .ok ((), if (free.lookup name).isSome || false then ⟨input, [], free, []⟩
        else ⟨input, [], free ++ [(name, pos)], []⟩) := rfl
  rw [hrun]
  split
  · exact ⟨free, rfl⟩
  · exact ⟨free ++ [(name, pos)], rfl⟩

/-- What can stand behind the members of a comparison: nothing, or its sign. -/
def EndsMember (rest : List Lexeme) : Prop :=
  rest = [] ∨ ∃ pos more, rest = ⟨.symbol "<", pos⟩ :: more

theorem links_member {member : String} (hmember : functionWords.contains member = false)
    (root : Expr) (fuel : Nat) {rest : List Lexeme} (hrest : EndsMember rest)
    (free : List (String × Position)) (q r : Position) :
    (links (fuel + 2) around root).run
        ⟨⟨.symbol ".", q⟩ :: ⟨.name member, r⟩ :: rest, [], free, []⟩ =
      .ok ([.property member false r], ⟨rest, [], free, []⟩) := by
  have hend : (links (fuel + 1) around (.access root [.property member false r] q)).run
      ⟨rest, [], free, []⟩ = .ok ([], ⟨rest, [], free, []⟩) := by
    rcases hrest with rfl | ⟨pos, more, rfl⟩ <;> rfl
  have hlink : (links (fuel + 2) around root).run
        ⟨⟨.symbol ".", q⟩ :: ⟨.name member, r⟩ :: rest, [], free, []⟩ =
      (if functionWords.contains member then fail
      else do
        return .property member false r ::
          (← links (fuel + 1) around (.access root [.property member false r] q))).run
        ⟨rest, [], free, []⟩ := by
    rcases hrest with rfl | ⟨pos, more, rfl⟩ <;> rfl
  rw [hlink, hmember]
  exact (run_bind_of_ok hend).trans rfl

theorem unary_member {global member : String} (hglobal : functionWords.contains global = false)
    (hmember : functionWords.contains member = false) (fuel : Nat) {rest : List Lexeme}
    (hrest : EndsMember rest) (free : List (String × Position)) (p q r : Position) :
    ∃ free', (unary (fuel + 4) around).run
        ⟨⟨.name global, p⟩ :: ⟨.symbol ".", q⟩ :: ⟨.name member, r⟩ :: rest, [], free, []⟩ =
      .ok (.access (.variable global p) [.property member false r] q, ⟨rest, [], free', []⟩) := by
  obtain ⟨free', huse⟩ :=
    useName_run global p (⟨.symbol ".", q⟩ :: ⟨.name member, r⟩ :: rest) free
  have hprimary : (primary (fuel + 3) around).run
        ⟨⟨.name global, p⟩ :: ⟨.symbol ".", q⟩ :: ⟨.name member, r⟩ :: rest, [], free, []⟩ =
      .ok (.variable global p,
        ⟨⟨.symbol ".", q⟩ :: ⟨.name member, r⟩ :: rest, [], free', []⟩) := by
    change (named (fuel + 2) around global p).run
      ⟨⟨.symbol ".", q⟩ :: ⟨.name member, r⟩ :: rest, [], free, []⟩ = _
    rw [named]
    simp only [hglobal, Bool.false_eq_true, if_false]
    change (useName global p >>= fun _ => pure (Expr.variable global p)).run _ = _
    rw [run_bind_of_ok huse]
    rfl
  refine ⟨free', ?_⟩
  change (primary (fuel + 3) around >>= fun root => do
    let pos ← here
    let links ← links (fuel + 3) around root
    return if links.isEmpty then root else .access root links pos).run _ = _
  rw [run_bind_of_ok hprimary]
  change (links (fuel + 3) around (.variable global p) >>= fun links =>
    pure (if links.isEmpty then Expr.variable global p
      else Expr.access (.variable global p) links q)).run _ = _
  rw [run_bind_of_ok (links_member around hmember _ (fuel + 1) hrest free' q r)]
  rfl

theorem expression_order {global first second : String}
    (hglobal : functionWords.contains global = false)
    (hfirst : functionWords.contains first = false)
    (hsecond : functionWords.contains second = false) (fuel : Nat) (p q r t u v w : Position) :
    ∃ free, (expression (fuel + 6) around).run
        ⟨[⟨.name global, p⟩, ⟨.symbol ".", q⟩, ⟨.name first, r⟩, ⟨.symbol "<", t⟩,
          ⟨.name global, u⟩, ⟨.symbol ".", v⟩, ⟨.name second, w⟩], [], [], []⟩ =
      .ok (.binary .less (.access (.variable global p) [.property first false r] q)
        (.access (.variable global u) [.property second false w] v) t, ⟨[], [], free, []⟩) := by
  have hsign : EndsMember
      [⟨.symbol "<", t⟩, ⟨.name global, u⟩, ⟨.symbol ".", v⟩, ⟨.name second, w⟩] :=
    .inr ⟨t, _, rfl⟩
  obtain ⟨free, hleft⟩ := unary_member around hglobal hfirst (fuel + 1) hsign [] p q r
  obtain ⟨free', hright⟩ := unary_member around hglobal hsecond fuel (.inl rfl) free u v w
  let right : List Lexeme := [⟨.name global, u⟩, ⟨.symbol ".", v⟩, ⟨.name second, w⟩]
  have hjoint : joint?.run ⟨⟨.symbol "<", t⟩ :: right, [], free, []⟩ =
      .ok (some (.op .less), ⟨⟨.symbol "<", t⟩ :: right, [], free, []⟩) := rfl
  have hhere : here.run ⟨⟨.symbol "<", t⟩ :: right, [], free, []⟩ =
      .ok (t, ⟨⟨.symbol "<", t⟩ :: right, [], free, []⟩) := rfl
  have hskip : skip.run ⟨⟨.symbol "<", t⟩ :: right, [], free, []⟩ =
      .ok ((), ⟨right, [], free, []⟩) := rfl
  refine ⟨free', ?_⟩
  rw [expression, run_bind_of_ok hleft, joined, run_bind_of_ok hjoint]
  dsimp only
  rw [if_neg (by decide), run_bind_of_ok hhere, run_bind_of_ok hskip, run_bind_of_ok hright]
  rfl

end Parser

theorem parse_orderText (limits : ScriptLimits) {global first second : String}
    (hglobal : isPathName global = true) (hfirst : isPathName first = true)
    (hsecond : isPathName second = true) :
    ∃ p q r t u v w, Program.parse limits (orderText global first second) =
      .ok ⟨[], [.expr (.binary .less (.access (.variable global p) [.property first false r] q)
        (.access (.variable global u) [.property second false w] v) t)]⟩ := by
  obtain ⟨lexemes, hlexemes, htokens⟩ := (lexes_orderText hglobal hfirst hsecond).tokenize
  obtain ⟨p, afterGlobal, rfl, hafterGlobal⟩ := Parser.exists_lexeme htokens
  obtain ⟨q, afterPoint, rfl, hafterPoint⟩ := Parser.exists_lexeme hafterGlobal
  obtain ⟨r, afterFirst, rfl, hafterFirst⟩ := Parser.exists_lexeme hafterPoint
  obtain ⟨t, right, rfl, hright⟩ := Parser.exists_lexeme hafterFirst
  obtain ⟨u, rightPoint, rfl, hrightPoint⟩ := Parser.exists_lexeme hright
  obtain ⟨v, rightMember, rfl, hrightMember⟩ := Parser.exists_lexeme hrightPoint
  obtain ⟨w, behind, rfl, hbehind⟩ := Parser.exists_lexeme hrightMember
  cases List.map_eq_nil_iff.mp hbehind
  obtain ⟨free, hexpression⟩ := Parser.expression_order ⟨false, false, false, limits⟩
    (not_functionWord_of_isPathName hglobal) (not_functionWord_of_isPathName hfirst)
    (not_functionWord_of_isPathName hsecond) 151 p q r t u v w
  refine ⟨p, q, r, t, u, v, w, ?_⟩
  rw [Program.parse, hlexemes]
  exact Parser.program_expression limits hexpression

/-! ## Running a comparison -/

namespace Eval

theorem expression_member_run {ctx : Context} {run : Run} {found : Variable}
    {members : List (String × Value)} (fuel count : Nat) (name member : String) (p q r : Position)
    (hlimits : count + 2 ≤ Run.allowance ctx.limits) (hfound : run.lookup? name = some found)
    (hmap : run.read found.value = .map members) :
    expression (fuel + 4) ctx (.access (.variable name p) [.property member false r] q)
        { run with operations := count } =
      (.ok ((members.lookup member).getD .unit), { run with operations := count + 2 }) := by
  have hsteps (run : Run) : steps (fuel + 2) ctx [.property member false r] run =
      (.ok [.part (.property member false r)], run) := rfl
  have hfollow (place : Option Variable) (run : Run) :
      follow (fuel + 2) ctx place (.map members) [.part (.property member false r)] run =
        (.ok ((members.lookup member).getD .unit), run) := rfl
  have haccess : access (fuel + 3) ctx (.variable name p) [.property member false r] =
      steps (fuel + 2) ctx [.property member false r] >>= fun steps =>
        expression (fuel + 2) ctx (.variable name p) >>= fun value =>
          variableValue? name >>= fun held =>
            follow (fuel + 2) ctx (held.map (·.1)) value steps := rfl
  change (operation ctx q >>= fun _ =>
    access (fuel + 3) ctx (.variable name p) [.property member false r]) _ = _
  rw [operation_bind_run _ (Nat.le_of_succ_le hlimits), haccess, bind_run, hsteps]
  dsimp only
  rw [bind_run, expression_variable_run (fuel + 1) _ name p hlimits hfound]
  dsimp only
  rw [bind_run, variableValue?_run hfound, hmap]
  exact hfollow (some found) _

theorem binary_less_texts (ctx : Context) (pos : Position) (a b : String) (run : Run) :
    binary ctx .less pos (.text a) (.text b) run = (.ok (.bool (decide (a < b))), run) := by
  have hholds : BinaryOp.less.holds (some (compare a b)) = decide (a < b) := by
    rw [Bool.eq_iff_iff, decide_eq_true_iff, ← compareOfLessAndEq_eq_lt]
    change _ ↔ compare a b = .lt
    cases compare a b <;> decide
  rw [← hholds]
  rfl

theorem statement_order_run {ctx : Context} {run : Run} {found : Variable}
    {members : List (String × Value)} {first second a b : String} (fuel : Nat) (name : String)
    (p q r t u v w : Position) (hlimits : run.operations + 6 ≤ Run.allowance ctx.limits)
    (hfound : run.lookup? name = some found) (hmap : run.read found.value = .map members)
    (hfirst : members.lookup first = some (.text a))
    (hsecond : members.lookup second = some (.text b)) :
    statement (fuel + 6) ctx (.expr (.binary .less
        (.access (.variable name p) [.property first false r] q)
        (.access (.variable name u) [.property second false w] v) t)) run =
      (.ok (.bool (decide (a < b))), { run with operations := run.operations + 6 }) := by
  have hexpression (left right : Expr) : expression (fuel + 5) ctx (.binary .less left right t) =
      operation ctx t >>= fun _ => expression (fuel + 4) ctx left >>= fun a =>
        expression (fuel + 4) ctx right >>= fun b => binary ctx .less t a b := rfl
  have hcost (n : Nat) (hn : n ≤ 6) : run.operations + n ≤ Run.allowance ctx.limits :=
    Nat.le_trans (Nat.add_le_add_left hn _) hlimits
  rw [statement_expr_run _ _ (hcost 1 (by decide)), hexpression,
    operation_bind_run _ (hcost 2 (by decide)), bind_run,
    expression_member_run fuel _ name first p q r (hcost 4 (by decide)) hfound hmap]
  dsimp only
  rw [bind_run, expression_member_run fuel _ name second u v w (hcost 6 (by decide)) hfound hmap]
  dsimp only
  rw [hfirst, hsecond]
  exact binary_less_texts ctx t a b _

end Eval

/-! ## Members of globals -/

theorem lookup_ofJsonMembers (members : List (String × Json)) (key : String) :
    (Value.ofJsonMembers members).lookup key =
      (KeyMap.lookupEntry key members).map Value.ofJson := by
  induction members with
  | nil => rfl
  | cons member rest ih =>
      obtain ⟨other, j⟩ := member
      rw [Value.ofJsonMembers, List.lookup_cons, KeyMap.lookupEntry, ih]
      by_cases h : key = other
      · simp [h]
      · simp [h, beq_eq_false_iff_ne.mpr h]

end Script

namespace ScriptEngine

open Script

namespace Genuine

variable {host : HostRegistry} {limits : ScriptLimits} {engine : ScriptEngine}

theorem evaluate_orderText (h : Genuine host limits engine) (hlimits : 6 ≤ Run.allowance limits)
    {global first second : String} (hglobal : isPathName global = true)
    (hfirst : isPathName first = true) (hsecond : isPathName second = true)
    {values : KeyMap Json} (hvalues : engine.globals.get? global = some (.ofJson (.ofMap values)))
    {a b : String} (ha : values.get? first = some (.string a))
    (hb : values.get? second = some (.string b)) :
    (engine.evaluate (orderText global first second)).1 = .ok (.bool (decide (a < b))) := by
  obtain ⟨p, q, r, t, u, v, w, hparse⟩ := parse_orderText limits hglobal hfirst hsecond
  obtain ⟨fuel, ctx, hctx, houtcome⟩ := h.evaluate_statement hparse
  have hmember {key text : String} (hkey : values.get? key = some (.string text)) :
      (Value.ofJsonMembers values.toList).lookup key = some (.text text) := by
    rw [lookup_ofJsonMembers]
    exact congrArg (Option.map Value.ofJson) hkey
  exact houtcome _ _ (Eval.statement_order_run (fuel + 10) global p q r t u v w
    (by rwa [hctx]) (lookup?_global hvalues) rfl (hmember ha) (hmember hb))

end Genuine

/-- Two texts under members of a registered global compare as texts, whatever the engine has been
asked for before. -/
theorem evaluate_registered_order (host : HostRegistry) (limits : ScriptLimits)
    (hlimits : 6 ≤ Run.allowance limits) (calls : List ScriptCall) {global first second : String}
    (hglobal : isPathName global = true) (hfirst : isPathName first = true)
    (hsecond : isPathName second = true) (values : KeyMap Json) {a b : String}
    (ha : values.get? first = some (.string a)) (hb : values.get? second = some (.string b)) :
    ∃ engine, ((fresh host limits).afterCalls calls).register global (.ofMap values) = .ok engine ∧
      (engine.evaluate (orderText global first second)).1 = .ok (.bool (decide (a < b))) := by
  have hnone : Knows .empty (fresh host limits) := rfl
  obtain ⟨hgenuine, -⟩ := afterCalls_kept (fresh_genuine host limits) hnone calls
  refine ⟨_, register_eq_ok (isGlobalName_of_isPathName hglobal) _, ?_⟩
  have hregistered : Genuine host limits { (fresh host limits).afterCalls calls with
      globals := ((fresh host limits).afterCalls calls).globals.insert global
        (.ofJson (.ofMap values)) } :=
    ⟨hgenuine.host_eq, hgenuine.limits_eq, hgenuine.kept⟩
  exact hregistered.evaluate_orderText hlimits hglobal hfirst hsecond
    (KeyMap.get?_insert_self _ global _) ha hb

end ScriptEngine

end FormDerivation
