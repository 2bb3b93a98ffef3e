import FormDerivation.Proofs.Host.Modules
import FormDerivation.Proofs.Script.History

/-!
# Globals by their names

A global can be given any name of letters, digits and underscores without a digit in front, but a
script that is nothing else than the name reads its value only if the name can also stand in the
path of a module (`Script.isPathName`).  Every other name is no script, or a word of the language
that does not look at the global (`ScriptEngine.evaluate_registered_name`).
-/

namespace FormDerivation

namespace Script

/-! ## Names as scripts -/

theorem tokenize_word {name : String} {token : Token}
    (hname : ScriptEngine.isGlobalName name = true) (htoken : wordToken? name.toList = some token) :
    ∃ pos, tokenize name = .ok [⟨token, pos⟩] := by
  obtain ⟨c, word, hchars, hc, hword⟩ := exists_of_isGlobalName hname
  rw [hchars] at htoken
  have hlexes := Lexes.word hc hword htoken rfl Lexes.nil
  rw [List.append_nil, ← hchars] at hlexes
  obtain ⟨lexemes, hlexemes, htokens⟩ := hlexes.tokenize
  obtain ⟨pos, rest, rfl, hrest⟩ := Parser.exists_lexeme htokens
  cases List.map_eq_nil_iff.mp hrest
  exact ⟨pos, hlexemes⟩

theorem parse_word (limits : ScriptLimits) {name : String} {token : Token}
    (hname : ScriptEngine.isGlobalName name = true) (htoken : wordToken? name.toList = some token) :
    ∃ pos, Program.parse limits name =
      (Parser.program limits 40).run' ⟨[⟨token, pos⟩], [], [], []⟩ := by
  obtain ⟨pos, htokens⟩ := tokenize_word hname htoken
  exact ⟨pos, by rw [Program.parse, htokens]; rfl⟩

theorem parse_word_fails (limits : ScriptLimits) {name : String}
    (hname : ScriptEngine.isGlobalName name = true) (htoken : wordToken? name.toList = none) :
    ∃ fault, Program.parse limits name = .error fault := by
  obtain ⟨c, word, hchars, hc, hword⟩ := exists_of_isGlobalName hname
  rw [hchars] at htoken
  have htokens : tokenize name = .error ⟨.start⟩ := by
    rw [tokenize, Source.start, hchars, ← List.append_nil (c :: word)]
    exact tokensFrom_no_word hc hword htoken rfl _ _
  exact ⟨_, by rw [Program.parse, htokens]⟩

namespace Parser

theorem expression_variable (around : Surroundings) {name : String}
    (h : functionWords.contains name = false) (fuel : Nat) (p : Position) :
    (expression (fuel + 4) around).run ⟨[⟨.name name, p⟩], [], [], []⟩ =
      .ok (.variable name p, ⟨[], [], [(name, p)], []⟩) := by
  have hnamed : (named (fuel + 1) around name p).run ⟨[], [], [], []⟩ =
      .ok (.variable name p, ⟨[], [], [(name, p)], []⟩) := by
    rw [named]
    simp only [h, Bool.false_eq_true, if_false]
    rfl
  have hunary : (unary (fuel + 3) around).run ⟨[⟨.name name, p⟩], [], [], []⟩ =
      .ok (.variable name p, ⟨[], [], [(name, p)], []⟩) := by
    have hprimary : (primary (fuel + 2) around).run ⟨[⟨.name name, p⟩], [], [], []⟩ =
        .ok (.variable name p, ⟨[], [], [(name, p)], []⟩) := hnamed
    change (primary (fuel + 2) around >>= fun root => do
      let pos ← here
      let links ← links (fuel + 2) around root
      return if links.isEmpty then root else .access root links pos).run _ = _
    rw [run_bind_of_ok hprimary]
    rfl
  rw [expression, run_bind_of_ok hunary]
  rfl

theorem program_keyword_fails (limits : ScriptLimits) (p : Position) : ∀ word ∈ keywords,
    word ∉ ["true", "false", "return", "throw"] →
      ∃ fault, (program limits 40).run' ⟨[⟨.keyword word, p⟩], [], [], []⟩ = .error fault := by
  intro word hword hother
  simp only [keywords, List.mem_cons, List.not_mem_nil, or_false] at hword
  rcases hword with rfl | rfl | rfl | rfl | rfl | rfl | rfl | rfl | rfl | rfl | rfl | rfl | rfl |
    rfl | rfl | rfl | rfl | rfl | rfl | rfl | rfl | rfl | rfl | rfl | rfl
  all_goals first | exact absurd (by decide) hother | exact ⟨_, rfl⟩

theorem program_functionWord_fails (limits : ScriptLimits) (p : Position) : ∀ name ∈ functionWords,
    ∃ fault, (program limits 40).run' ⟨[⟨.name name, p⟩], [], [], []⟩ = .error fault := by
  intro name hname
  simp only [functionWords, List.mem_cons, List.not_mem_nil, or_false] at hname
  rcases hname with rfl | rfl | rfl | rfl | rfl | rfl | rfl | rfl | rfl
  all_goals exact ⟨_, rfl⟩

end Parser

theorem parse_pathName (limits : ScriptLimits) {name : String} (h : isPathName name = true) :
    ∃ pos, Program.parse limits name = .ok ⟨[], [.expr (.variable name pos)]⟩ := by
  obtain ⟨pos, hparse⟩ := parse_word limits (isGlobalName_of_isPathName h)
    (wordToken?_of_isPathName h)
  refine ⟨pos, hparse.trans ?_⟩
  exact Parser.program_expression limits
    (Parser.expression_variable _ (not_functionWord_of_isPathName h) 33 pos)

theorem parse_takenName_fails (limits : ScriptLimits) {name : String}
    (hname : ScriptEngine.isGlobalName name = true) (h : isPathName name = false)
    (hkeyword : name ∉ keywords) : ∃ fault, Program.parse limits name = .error fault := by
  have hread {token : Token} (htoken : wordToken? name.toList = some token)
      (hfails : ∀ pos, ∃ fault,
        (Parser.program limits 40).run' ⟨[⟨token, pos⟩], [], [], []⟩ = .error fault) :
      ∃ fault, Program.parse limits name = .error fault := by
    obtain ⟨pos, hparse⟩ := parse_word limits hname htoken
    rw [hparse]
    exact hfails pos
  rcases wordToken?_of_not_isPathName hname h with hnone | ⟨hword, -⟩ | htoken | ⟨htoken, hword⟩
  · exact parse_word_fails limits hname hnone
  · exact absurd hword hkeyword
  · exact hread htoken fun pos => ⟨_, rfl⟩
  · exact hread htoken fun pos => Parser.program_functionWord_fails limits pos name hword

/-! ## Values that globals can have -/

mutual

theorem Value.exists_toJson_ofJson : (j : Json) → ∃ stored, (Value.ofJson j).toJson = .ok stored
  | .null | .bool _ | .float _ | .string _ => ⟨_, rfl⟩
  | .int n => by
      rw [Value.ofJson]
      split
      · exact ⟨_, rfl⟩
      · exact ⟨_, rfl⟩
  | .array items => by
      obtain ⟨stored, h⟩ := exists_toJsonItems_ofJson items
      exact ⟨.array stored, by rw [Value.ofJson, Value.toJson, h]; rfl⟩
  | .object members => by
      obtain ⟨stored, h⟩ := exists_toJsonMembers_ofJson members
      exact ⟨.object stored, by rw [Value.ofJson, Value.toJson, h]; rfl⟩

theorem Value.exists_toJsonItems_ofJson : (items : List Json) →
    ∃ stored, Value.toJsonItems (Value.ofJsonItems items) = .ok stored
  | [] => ⟨_, rfl⟩
  | j :: rest => by
      obtain ⟨stored, h⟩ := exists_toJson_ofJson j
      obtain ⟨more, hrest⟩ := exists_toJsonItems_ofJson rest
      exact ⟨stored :: more, by rw [Value.ofJsonItems, Value.toJsonItems, h, hrest]; rfl⟩

theorem Value.exists_toJsonMembers_ofJson : (members : List (String × Json)) →
    ∃ stored, Value.toJsonMembers (Value.ofJsonMembers members) = .ok stored
  | [] => ⟨_, rfl⟩
  | (key, j) :: rest => by
      obtain ⟨stored, h⟩ := exists_toJson_ofJson j
      obtain ⟨more, hrest⟩ := exists_toJsonMembers_ofJson rest
      exact ⟨(key, stored) :: more, by
        rw [Value.ofJsonMembers, Value.toJsonMembers, h, hrest]; rfl⟩

end

@[simp] theorem Run.read_ofJson (run : Run) (j : Json) : run.read (.ofJson j) = .ofJson j := by
  cases j with
  | int n =>
      rw [Value.ofJson]
      split <;> rfl
  | _ => rfl

/-! ## Operations -/

namespace Eval

theorem operation_run {ctx : Context} {run : Run} (pos : Position)
    (h : run.operations + 1 ≤ Run.allowance ctx.limits) :
    operation ctx pos run = (.ok (), { run with operations := run.operations + 1 }) := by
  have hoperations : (ctx.limits.maxOperations != 0 &&
      decide (ctx.limits.maxOperations < run.operations + 1)) = false := by
    rw [Run.allowance] at h
    split at h
    · next hzero => simp [beq_iff_eq.mp hzero]
    · simp only [Bool.and_eq_false_iff, decide_eq_false_iff_not]
      omega
  have htime : ¬ Run.timeAllowance ctx.limits < run.operations + 1 := by
    rw [Run.allowance] at h
    split at h <;> omega
  have hcounted : operation ctx pos run =
      (if (ctx.limits.maxOperations != 0 &&
          decide (ctx.limits.maxOperations < run.operations + 1)) = true then
        failAt pos .outOfOperations
      else if Run.timeAllowance ctx.limits < run.operations + 1 then failAt pos .outOfTime
      else pure () : Eval Unit) { run with operations := run.operations + 1 } := rfl
  rw [hcounted, hoperations, if_neg htime]
  rfl

theorem operation_bind_run {α : Type} {ctx : Context} {run : Run} (pos : Position)
    (h : run.operations + 1 ≤ Run.allowance ctx.limits) (next : Unit → Eval α) :
    (operation ctx pos >>= next) run = next () { run with operations := run.operations + 1 } := by
  rw [bind_run, operation_run pos h]

theorem statement_expr_run {ctx : Context} {run : Run} (fuel : Nat) (e : Expr)
    (h : run.operations + 1 ≤ Run.allowance ctx.limits) :
    statement (fuel + 1) ctx (.expr e) run =
      expression fuel ctx e { run with operations := run.operations + 1 } :=
  operation_bind_run .none h fun _ => expression fuel ctx e

theorem variableValue?_run {run : Run} {name : String} {found : Variable}
    (hfound : run.lookup? name = some found) (count : Nat) :
    variableValue? name { run with operations := count } =
      (.ok (some (found, run.read found.value)), { run with operations := count }) := by
  change (Except.ok ((run.lookup? name).map fun v => (v, run.read v.value)), _) = _
  rw [hfound]
  rfl

theorem expression_variable_run {ctx : Context} {run : Run} {found : Variable} (fuel count : Nat)
    (name : String) (pos : Position) (hlimits : count + 1 ≤ Run.allowance ctx.limits)
    (hfound : run.lookup? name = some found) :
    expression (fuel + 1) ctx (.variable name pos) { run with operations := count } =
      (.ok (run.read found.value), { run with operations := count + 1 }) := by
  obtain ⟨next, hexpression, hnext⟩ : ∃ next : Option (Variable × Value) → Eval Value,
      expression (fuel + 1) ctx (.variable name pos) =
        operation ctx pos >>= (fun _ => variableValue? name >>= next) ∧
      ∀ v value, next (some (v, value)) = pure value :=
    ⟨_, rfl, fun _ _ => rfl⟩
  rw [hexpression, operation_bind_run _ hlimits, bind_run, variableValue?_run hfound]
  exact congrFun (hnext found _) _

theorem statement_variable_run {ctx : Context} {run : Run} {found : Variable} (fuel : Nat)
    (name : String) (pos : Position) (hlimits : run.operations + 2 ≤ Run.allowance ctx.limits)
    (hfound : run.lookup? name = some found) :
    statement (fuel + 2) ctx (.expr (.variable name pos)) run =
      (.ok (run.read found.value), { run with operations := run.operations + 2 }) := by
  rw [statement_expr_run _ _ (by omega)]
  exact expression_variable_run fuel _ name pos hlimits hfound

theorem statement_constant_run {ctx : Context} {run : Run} (fuel : Nat) (value : Value)
    (pos : Position) (hlimits : run.operations + 2 ≤ Run.allowance ctx.limits) :
    statement (fuel + 2) ctx (.expr (.constant value pos)) run =
      (.ok value, { run with operations := run.operations + 2 }) := by
  have hexpression : expression (fuel + 1) ctx (.constant value pos) =
      operation ctx pos >>= fun _ => pure value := rfl
  rw [statement_expr_run _ _ (by omega), hexpression, operation_bind_run _ hlimits]
  rfl

theorem statement_answer_run {ctx : Context} {run : Run} (fuel : Nat)
    (hlimits : run.operations + 1 ≤ Run.allowance ctx.limits) :
    statement (fuel + 2) ctx (.answer none) run =
      (.error (.answer .unit), { run with operations := run.operations + 1 }) := by
  have hstatement : statement (fuel + 2) ctx (.answer none) =
      operation ctx .none >>= fun _ => optional (fuel + 1) ctx none >>= fun value =>
        throw (.answer value) := rfl
  rw [hstatement, operation_bind_run _ hlimits]
  rfl

theorem statement_throw_run {ctx : Context} {run : Run} (fuel : Nat) (pos : Position)
    (hlimits : run.operations + 1 ≤ Run.allowance ctx.limits) :
    statement (fuel + 2) ctx (.throwValue none pos) run =
      (.error (.failure ⟨.thrown .unit, pos⟩ none),
        { run with operations := run.operations + 1 }) := by
  have hstatement : statement (fuel + 2) ctx (.throwValue none pos) =
      operation ctx .none >>= fun _ => optional (fuel + 1) ctx none >>= fun value =>
        failAt pos (.thrown value) := rfl
  rw [hstatement, operation_bind_run _ hlimits]
  rfl

end Eval

end Script

namespace ScriptEngine

open Script

theorem lookup?_global {engine : ScriptEngine} {name : String} {value : Value}
    (h : engine.globals.get? name = some value) :
    (Run.mk engine.scope #[] 0 none).lookup? name = some ⟨name, value, true⟩ := by
  rw [Run.lookup?, find?_scope, h]
  rfl

def wordAnswer? : String → Option Json
  | "true" => some (.bool true)
  | "false" => some (.bool false)
  | "return" => some .null
  | _ => none

theorem wordAnswer?_eq_none {name : String} (h : name ∉ ["true", "false", "return"]) :
    wordAnswer? name = none := by
  simp only [List.mem_cons, List.not_mem_nil, or_false, not_or] at h
  unfold wordAnswer?
  split <;> simp_all

/-! ## Runs of one statement -/

theorem exists_run_statement (engine : ScriptEngine) (s : Stmt) (code : String) :
    ∃ fuel, engine.run ⟨[], [s]⟩ code =
      Eval.statement (fuel + 16) ⟨⟨[], [s]⟩, engine.host, engine.limits, 0⟩ s
        ⟨engine.scope, #[], 0, none⟩ := by
  -- No factor of the number of steps is zero, whatever the limits and the source are.
  have hsteps : 17 ≤ stepsFor engine.limits code := by
    have hfactors := Nat.mul_le_mul
      (Nat.mul_le_mul (Nat.le_refl 8)
        (Nat.le_add_left 2 (Run.allowance engine.limits + engine.limits.maxCallLevels)))
      (Nat.le_add_left 8 code.length)
    rw [stepsFor]
    omega
  obtain ⟨fuel, hfuel⟩ := Nat.exists_eq_add_of_le' hsteps
  refine ⟨fuel, ?_⟩
  rw [run]
  simp only [hfuel]
  rfl

namespace Genuine

variable {host : HostRegistry} {limits : ScriptLimits} {engine : ScriptEngine}

theorem evaluate_statement_run (h : Genuine host limits engine) {code : String} {s : Stmt}
    (hparse : Program.parse limits code = .ok ⟨[], [s]⟩) :
    ∃ fuel, ∀ result last,
      Eval.statement (fuel + 16) ⟨⟨[], [s]⟩, host, limits, 0⟩ s ⟨engine.scope, #[], 0, none⟩ =
          (result, last) →
        (engine.evaluate code).1 = outcome limits last.hostFailure (result.map last.read) := by
  have hcompile := h.compile_eq code
  rw [hparse] at hcompile
  obtain ⟨loaded, hloaded, hgenuine, hglobals⟩ := hcompile
  obtain ⟨fuel, hrun⟩ := loaded.exists_run_statement s code
  have hscope : loaded.scope = engine.scope := by rw [scope, scope, hglobals]
  rw [hscope, hgenuine.host_eq, hgenuine.limits_eq] at hrun
  refine ⟨fuel, ?_⟩
  intro result last hlast
  simp only [evaluate, hloaded, hrun.trans hlast, hgenuine.limits_eq]

theorem evaluate_statement (h : Genuine host limits engine) {code : String} {s : Stmt}
    (hparse : Program.parse limits code = .ok ⟨[], [s]⟩) :
    ∃ fuel ctx, ctx.limits = limits ∧ ∀ result last,
      Eval.statement (fuel + 16) ctx s ⟨engine.scope, #[], 0, none⟩ = (result, last) →
        (engine.evaluate code).1 = outcome limits last.hostFailure (result.map last.read) := by
  obtain ⟨fuel, houtcome⟩ := h.evaluate_statement_run hparse
  exact ⟨fuel, _, rfl, houtcome⟩

theorem evaluate_error (h : Genuine host limits engine) {code : String}
    (hparse : ∃ fault, Program.parse limits code = .error fault) :
    ∃ error, (engine.evaluate code).1 = .error error := by
  obtain ⟨fault, hfault⟩ := hparse
  have hcompile := h.compile_eq code
  rw [hfault] at hcompile
  exact ⟨_, by rw [evaluate, hcompile]⟩

theorem evaluate_pathName (h : Genuine host limits engine) (hlimits : 2 ≤ Run.allowance limits)
    {name : String} (hname : isPathName name = true) {value : Json}
    (hglobal : engine.globals.get? name = some (.ofJson value)) :
    (engine.evaluate name).1 = stored (.ofJson value) := by
  obtain ⟨pos, hparse⟩ := parse_pathName limits hname
  obtain ⟨fuel, ctx, hctx, houtcome⟩ := h.evaluate_statement hparse
  have hrun := Eval.statement_variable_run (fuel + 14) name pos (by rwa [hctx])
    (lookup?_global hglobal)
  rw [houtcome _ _ hrun, Except.map, Run.read_ofJson, Run.read_ofJson]
  rfl

theorem evaluate_keyword (h : Genuine host limits engine) (hlimits : 2 ≤ Run.allowance limits)
    {word : String} (hword : word ∈ keywords) :
    match wordAnswer? word with
    | some answer => (engine.evaluate word).1 = .ok answer
    | none => ∃ error, (engine.evaluate word).1 = .error error := by
  have hname : isGlobalName word = true := by revert word; decide
  have htoken : wordToken? word.toList = some (.keyword word) := by
    rw [wordToken?, String.ofList_toList, if_pos (List.contains_iff_mem.mpr hword)]
  obtain ⟨pos, hparse⟩ := parse_word limits hname htoken
  by_cases hother : word ∈ ["true", "false", "return", "throw"]
  · -- Three of these words have an answer; `throw` is a script and fails when it runs.
    have hone : 1 ≤ Run.allowance limits := Nat.le_of_succ_le hlimits
    simp only [List.mem_cons, List.not_mem_nil, or_false] at hother
    rcases hother with rfl | rfl | rfl | rfl
    · obtain ⟨fuel, ctx, hctx, houtcome⟩ := h.evaluate_statement (hparse.trans rfl)
      exact houtcome _ _ (Eval.statement_constant_run (fuel + 14) (.bool true) pos (by rwa [hctx]))
    · obtain ⟨fuel, ctx, hctx, houtcome⟩ := h.evaluate_statement (hparse.trans rfl)
      exact houtcome _ _ (Eval.statement_constant_run (fuel + 14) (.bool false) pos (by rwa [hctx]))
    · obtain ⟨fuel, ctx, hctx, houtcome⟩ := h.evaluate_statement (hparse.trans rfl)
      exact houtcome _ _ (Eval.statement_answer_run (fuel + 14) (by rwa [hctx]))
    · obtain ⟨fuel, ctx, hctx, houtcome⟩ := h.evaluate_statement (hparse.trans rfl)
      exact ⟨_, houtcome _ _ (Eval.statement_throw_run (fuel + 14) pos (by rwa [hctx]))⟩
  · obtain ⟨fault, hfault⟩ := Parser.program_keyword_fails limits pos word hword hother
    have hsilent : word ∉ ["true", "false", "return"] := fun hmem =>
      hother ((by decide : ["true", "false", "return"] ⊆ ["true", "false", "return", "throw"]) hmem)
    rw [wordAnswer?_eq_none hsilent]
    exact h.evaluate_error ⟨fault, hparse.trans hfault⟩

end Genuine

/-! ## Globals as scripts -/

/--
What a script is that consists of the name of a global alone.  It reads the value, whatever the
engine has been asked for before, if the name can stand in the path of a module.  Otherwise no
value of the global can be read: the script fails, or is `true`, `false` or `return`.
-/
theorem evaluate_registered_name (host : HostRegistry) (limits : ScriptLimits)
    (hlimits : 2 ≤ Run.allowance limits) (calls : List ScriptCall) (name : String) (value : Json)
    (engine : ScriptEngine)
    (h : ((fresh host limits).afterCalls calls).register name value = .ok engine) :
    (isPathName name = true → ∃ answer, (Value.ofJson value).toJson = .ok answer ∧
      (engine.evaluate name).1 = .ok answer) ∧
    (isPathName name = false →
      match wordAnswer? name with
      | some answer => (engine.evaluate name).1 = .ok answer
      | none => ∃ error, (engine.evaluate name).1 = .error error) := by
  have hname : isGlobalName name = true := by
    rw [register] at h
    split at h
    · assumption
    · cases h
  rw [register_eq_ok hname] at h
  cases h
  have hnone : Knows .empty (fresh host limits) := rfl
  obtain ⟨hgenuine, -⟩ := afterCalls_kept (fresh_genuine host limits) hnone calls
  have hregistered : Genuine host limits { (fresh host limits).afterCalls calls with
      globals := ((fresh host limits).afterCalls calls).globals.insert name (.ofJson value) } :=
    ⟨hgenuine.host_eq, hgenuine.limits_eq, hgenuine.kept⟩
  refine ⟨fun hpath => ?_, fun hpath => ?_⟩
  · obtain ⟨answer, hanswer⟩ := Value.exists_toJson_ofJson value
    refine ⟨answer, hanswer, ?_⟩
    have hglobal := KeyMap.get?_insert_self ((fresh host limits).afterCalls calls).globals name
      (Value.ofJson value)
    rw [hregistered.evaluate_pathName hlimits hpath hglobal, stored, hanswer]
  · by_cases hkeyword : name ∈ keywords
    · exact hregistered.evaluate_keyword hlimits hkeyword
    · have hsilent : name ∉ ["true", "false", "return"] :=
        fun hmem => hkeyword ((by decide : ["true", "false", "return"] ⊆ keywords) hmem)
      rw [wordAnswer?_eq_none hsilent]
      exact hregistered.evaluate_error (parse_takenName_fails limits hname hpath hkeyword)

theorem evaluate_registered_name_settings :
    let value : Json := .object [("languages", .array [.string "de", .string "fr"])]
    let calls : List ScriptCall := [.evaluate "settings", .register "settings" (.int 1)]
    ∃ engine, ((fresh ⟨[]⟩ {}).afterCalls calls).register "settings" value = .ok engine ∧
      (engine.evaluate "settings").1 = .ok value := by
  intro value calls
  obtain ⟨answer, hanswer, hread⟩ := (evaluate_registered_name ⟨[]⟩ {} (by decide) calls "settings"
    value _ rfl).1 (by decide)
  cases hanswer
  exact ⟨_, rfl, hread⟩

/-- A word of the language is accepted as the name of a global, and is no script. -/
theorem evaluate_registered_if :
    2 ≤ Run.allowance {} ∧
    ∃ engine, (fresh ⟨[]⟩ {}).register "if" (.int 1) = .ok engine ∧
      ∃ error, (engine.evaluate "if").1 = .error error :=
  ⟨by decide, _, rfl, _, rfl⟩

end ScriptEngine

end FormDerivation
