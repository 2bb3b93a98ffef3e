import FormDerivation.Proofs.Script.GlobalNames

/-!
# Calls with a text

`textCall` is the source of a call of a function in a module with a text written in quotes.  What
stands between the quotes is read back as the text (`readQuoted?_quotedChars`), so that the script
is what the function answers for it (`ScriptEngine.Genuine.evaluate_textCall`).
-/

namespace FormDerivation

namespace Script

/-! ## Texts in quotes -/

def quotedChar : Char → List Char
  | '"' => ['\\', '"']
  | '\\' => ['\\', '\\']
  | '\n' => ['\\', 'n']
  | '\r' => ['\\', 'r']
  | c => [c]

def quotedChars (cs : List Char) : List Char :=
  cs.flatMap quotedChar

@[simp] theorem quotedChars_cons (c : Char) (cs : List Char) :
    quotedChars (c :: cs) = quotedChar c ++ quotedChars cs := rfl

def quoted (s : String) : String :=
  "\"" ++ String.ofList (quotedChars s.toList) ++ "\""

theorem readQuoted?_quotedChar (column steps : Nat) (read : List Char) (c : Char)
    (rest : List Char) :
    readQuoted? '"' column (steps + 1) read (quotedChar c ++ rest) =
      readQuoted? '"' column steps (c :: read) rest := by
  unfold quotedChar
  split
  case h_1 | h_2 | h_3 | h_4 => rfl
  case h_5 hquote hslash hline _ =>
    rw [List.singleton_append, readQuoted?.eq_def]
    simp only [beq_iff_eq]
    rw [if_neg hquote, if_neg hslash, if_neg hline]

theorem length_le_quotedChars (cs : List Char) : cs.length ≤ (quotedChars cs).length := by
  induction cs with
  | nil => exact Nat.le_refl _
  | cons c cs ih =>
      have hchar : 0 < (quotedChar c).length := by
        unfold quotedChar
        split <;> exact Nat.succ_pos _
      rw [quotedChars_cons, List.length_append, List.length_cons]
      omega

theorem readQuoted?_quotedChars (column : Nat) {rest : List Char}
    (hrest : rest.head? ≠ some '"') (cs read : List Char) (steps : Nat) (h : cs.length < steps) :
    readQuoted? '"' column steps read (quotedChars cs ++ '"' :: rest) =
      some (read.reverse ++ cs, rest) := by
  induction cs generalizing read steps with
  | nil =>
      obtain ⟨steps, rfl⟩ := Nat.exists_eq_succ_of_ne_zero (Nat.ne_zero_of_lt h)
      cases rest with
      | nil => simp [quotedChars, readQuoted?]
      | cons c rest =>
          have hc : c ≠ '"' := fun hc => hrest (by rw [hc, List.head?_cons])
          simp [quotedChars, readQuoted?, hc]
  | cons c cs ih =>
      obtain ⟨steps, rfl⟩ := Nat.exists_eq_succ_of_ne_zero (Nat.ne_zero_of_lt h)
      rw [quotedChars_cons, List.append_assoc, readQuoted?_quotedChar,
        ih (c :: read) steps (Nat.lt_of_succ_lt_succ h), List.reverse_cons, List.append_assoc,
        List.singleton_append]

theorem Lexes.quoted (s : String) {rest : List Char} {tokens : List Token}
    (hend : rest.head? ≠ some '"') (hrest : Lexes rest tokens) :
    Lexes ('"' :: (quotedChars s.toList ++ ['"']) ++ rest) (.text s :: tokens) := by
  refine hrest.cons _ (List.cons_ne_nil _ _) fun steps pos => ?_
  have hread := readQuoted?_quotedChars pos.column hend s.toList []
    ((quotedChars s.toList ++ '"' :: rest).length + 1) (by
      have hlength := length_le_quotedChars s.toList
      rw [List.length_append]
      omega)
  rw [List.cons_append, List.append_assoc, List.singleton_append, tokensFrom]
  simp only [hread, List.reverse_nil, List.nil_append, String.ofList_toList]

/-! ## The source of a call with a text -/

def textCall (module function argument : String) : String :=
  module ++ "::" ++ function ++ "(" ++ quoted argument ++ ")"

example : textCall "forms_secrets" "get" "api_key" = "forms_secrets::get(\"api_key\")" := by decide

theorem tokenize_textCall {module function : String} (hmodule : isPathName module = true)
    (hfunction : isPathName function = true) (argument : String) :
    ∃ lexemes, tokenize (textCall module function argument) = .ok lexemes ∧
      lexemes.map Lexeme.token = [.name module, .symbol "::", .name function, .symbol "(",
        .text argument, .symbol ")"] := by
  have hclosing := Lexes.nil.cons [')'] (List.cons_ne_nil _ _) fun _ _ => rfl
  have hargument := Lexes.quoted argument (by decide) hclosing
  have hopening := hargument.cons ['('] (List.cons_ne_nil _ _) fun _ _ => rfl
  have hname := Lexes.pathName hfunction rfl hopening
  obtain ⟨c, word, hchars, hc, -⟩ := exists_of_isGlobalName (isGlobalName_of_isPathName hfunction)
  rw [hchars, List.cons_append] at hname
  have hpath := Lexes.pathName hmodule rfl (hname.path hc)
  refine Lexes.tokenize ?_
  simpa [textCall, quoted, hchars] using hpath

end Script

/-! ## Sizes of texts -/

def ScriptLimits.Admits (limits : ScriptLimits) (s : String) : Prop :=
  limits.maxStringSize = 0 ∨ s.utf8ByteSize ≤ limits.maxStringSize

namespace Script

theorem Eval.exceeds_eq_false {limits : ScriptLimits} {s : String} (h : limits.Admits s) :
    (limits.maxStringSize != 0 && decide (limits.maxStringSize < s.utf8ByteSize)) = false := by
  rcases h with h | h
  · simp [h]
  · simp [Nat.not_lt.mpr h]

namespace Parser

theorem arguments_text (around : Surroundings) {argument : String}
    (h : around.limits.Admits argument) (fuel : Nat) (state : ParserState) (p q : Position) :
    (arguments (fuel + 6) around ")").run
        { state with input := [⟨.text argument, p⟩, ⟨.symbol ")", q⟩] } =
      .ok ([.constant (.text argument) p], { state with input := [] }) := by
  have hprimary : (primary (fuel + 3) around).run
      { state with input := [⟨.text argument, p⟩, ⟨.symbol ")", q⟩] } =
        .ok (.constant (.text argument) p, { state with input := [⟨.symbol ")", q⟩] }) := by
    have hsize : (primary (fuel + 3) around).run
        { state with input := [⟨.text argument, p⟩, ⟨.symbol ")", q⟩] } =
          (checkSize around.limits.maxStringSize argument.utf8ByteSize >>= fun _ => do
            skip
            return .constant (.text argument) p).run
              { state with input := [⟨.text argument, p⟩, ⟨.symbol ")", q⟩] } := rfl
    rw [hsize, checkSize, Eval.exceeds_eq_false h]
    rfl
  have hunary : (unary (fuel + 4) around).run
      { state with input := [⟨.text argument, p⟩, ⟨.symbol ")", q⟩] } =
        .ok (.constant (.text argument) p, { state with input := [⟨.symbol ")", q⟩] }) := by
    change (primary (fuel + 3) around >>= fun root => do
      let pos ← here
      let links ← links (fuel + 3) around root
      return if links.isEmpty then root else .access root links pos).run _ = _
    rw [run_bind_of_ok hprimary]
    rfl
  have hexpression : (expression (fuel + 5) around).run
      { state with input := [⟨.text argument, p⟩, ⟨.symbol ")", q⟩] } =
        .ok (.constant (.text argument) p, { state with input := [⟨.symbol ")", q⟩] }) := by
    rw [expression, run_bind_of_ok hunary]
    rfl
  change (expression (fuel + 5) around >>= fun first => do
    if ← takeSymbol ")" then return [first]
    else
      expectSymbol ","
      return first :: (← arguments (fuel + 5) around ")")).run _ = _
  rw [run_bind_of_ok hexpression]
  rfl

end Parser

theorem parse_textCall {limits : ScriptLimits} {module function argument : String}
    (hmodule : isPathName module = true) (hfunction : isPathName function = true)
    (hargument : limits.Admits argument) :
    ∃ argPos pathPos pos, Program.parse limits (textCall module function argument) =
      .ok ⟨[], [.expr (.moduleCall [module] function [.constant (.text argument) argPos]
        pathPos pos)]⟩ := by
  obtain ⟨lexemes, hlexemes, htokens⟩ := tokenize_textCall hmodule hfunction argument
  obtain ⟨p, path, rfl, hpath⟩ := Parser.exists_lexeme htokens
  obtain ⟨q, name, rfl, hname⟩ := Parser.exists_lexeme hpath
  obtain ⟨r, opening, rfl, hopening⟩ := Parser.exists_lexeme hname
  obtain ⟨t, inner, rfl, hinner⟩ := Parser.exists_lexeme hopening
  obtain ⟨a, closing, rfl, hclosing⟩ := Parser.exists_lexeme hinner
  obtain ⟨z, rest, rfl, hrest⟩ := Parser.exists_lexeme hclosing
  cases List.map_eq_nil_iff.mp hrest
  refine ⟨a, p, r, ?_⟩
  have hexpression := Parser.expression_call ⟨false, false, false, limits⟩
    (not_functionWord_of_isPathName hmodule) (not_functionWord_of_isPathName hfunction) p q r t
    (Parser.arguments_text ⟨false, false, false, limits⟩ hargument 126 ⟨[], [], [], []⟩ a z) rfl
  rw [Program.parse, hlexemes]
  exact Parser.program_expression limits hexpression

/-! ## Running a call with a text -/

namespace Eval

variable {ctx : Context}

theorem expressions_constant_run {run : Run} (fuel : Nat) (value : Value) (pos : Position)
    (hlimits : run.operations + 1 ≤ Run.allowance ctx.limits) :
    expressions (fuel + 2) ctx [.constant value pos] run =
      (.ok [value], { run with operations := run.operations + 1 }) := by
  have hexpressions : expressions (fuel + 2) ctx [.constant value pos] =
      (operation ctx pos >>= fun _ => pure value) >>= fun value =>
        expressions (fuel + 1) ctx [] >>= fun values => pure (value :: values) := rfl
  rw [hexpressions, bind_run, operation_bind_run _ hlimits]
  rfl

theorem statement_textCall_run {providers : List HostProvider}
    (haccepted : HostRegistry.Registrable providers) {provider : HostProvider}
    (hprovider : provider ∈ providers) {function : HostFunction}
    (hfunction : function ∈ provider.functions) (harity : function.arity = 1)
    (hhost : ctx.host = ⟨providers⟩) {run : Run}
    (hlimits : run.operations + 3 ≤ Run.allowance ctx.limits) (fuel : Nat) (argument : String)
    (argPos pathPos pos : Position) :
    statement (fuel + 4) ctx (.expr (.moduleCall [provider.moduleName] function.name
        [.constant (.text argument) argPos] pathPos pos)) run =
      callHost ctx provider.moduleName function [.text argument] pos
        { run with operations := run.operations + 3 } := by
  have hargs : [Expr.constant (.text argument) argPos].length = function.arity := harity.symm
  rw [statement_expr_run _ _ (by omega),
    HostRegistry.expression_call haccepted hprovider hfunction hhost hargs,
    operation_bind_run _ (by exact Nat.le_of_succ_le hlimits), bind_run,
    expressions_constant_run _ _ _ (by exact hlimits)]

theorem checkSize_run (pos : Position) (v : Value) (run : Run) :
    checkSize ctx pos v run = (.ok (), run) ∨
      ∃ failure, checkSize ctx pos v run = (.error (.failure failure none), run) := by
  unfold checkSize
  split
  case h_1 | h_2 | h_3 =>
    dsimp only
    split
    · exact .inr ⟨_, rfl⟩
    split
    · exact .inr ⟨_, rfl⟩
    split
    · exact .inr ⟨_, rfl⟩
    · exact .inl rfl
  case h_4 => exact .inl rfl

theorem checkSize_text {s : String} (h : ctx.limits.Admits s) (pos : Position) :
    checkSize ctx pos (.text s) = pure () := by
  have hitems : exceeds ctx.limits.maxArraySize (Value.text s).sizes.items = false := by
    simp [exceeds, Value.sizes]
  have hmembers : exceeds ctx.limits.maxMapSize (Value.text s).sizes.members = false := by
    simp [exceeds, Value.sizes]
  have hbytes : exceeds ctx.limits.maxStringSize (Value.text s).sizes.bytes = false :=
    exceeds_eq_false h
  simp only [checkSize, hbytes, hitems, hmembers, Bool.false_eq_true, if_false]

variable {module : String} {function : HostFunction} {argument : String} {pos : Position}

theorem callHost_text : callHost ctx module function [.text argument] pos =
    let outcome := function.call [.string argument]
    match hostReport? ctx.limits module function.name outcome, outcome with
    | some report, _ => do
      modify fun run => { run with hostFailure := some report }
      throw (.failure ⟨.thrown (.text report.message), pos⟩ (some report))
    | none, .ok result => do
      checkSize ctx pos (.ofJson result)
      return .ofJson result
    | none, .error error => failAt pos (.thrown (.text error.message)) :=
  rfl

theorem callHost_text_ok {answer : Json} (htime : ctx.limits.hostCallTimeoutMs ≠ 0)
    (h : function.call [.string argument] = .ok answer) :
    callHost ctx module function [.text argument] pos = do
      checkSize ctx pos (.ofJson answer)
      return .ofJson answer := by
  have hreport : hostReport? ctx.limits module function.name (.ok answer) = none := by
    simp [hostReport?, hostTimedOut, htime]
  rw [callHost_text, h]
  simp only [hreport]

theorem callHost_text_error {error : HostError}
    (h : function.call [.string argument] = .error error) (run : Run) : ∃ failure report last,
      callHost ctx module function [.text argument] pos run =
        (.error (.failure failure report), last) := by
  rw [callHost_text, h]
  cases hreport : hostReport? ctx.limits module function.name (.error error) with
  | none => exact ⟨_, _, _, by simp only [hreport]; rfl⟩
  | some report => exact ⟨_, _, _, by simp only [hreport]; rfl⟩

end Eval

theorem Value.toJson_ofJson_eq_string {j : Json} {s : String}
    (h : (ofJson j).toJson = .ok (.string s)) : j = .string s := by
  cases j with
  | string _ =>
      cases h
      rfl
  | null | bool _ => cases h
  | int n =>
      rw [ofJson] at h
      split at h
      · cases h
      · rw [toJson] at h
        split at h <;> cases h
  | float x =>
      rw [ofJson, toJson] at h
      split at h <;> cases h
  | array items =>
      rw [ofJson, toJson] at h
      cases hitems : toJsonItems (ofJsonItems items) <;> rw [hitems] at h <;> cases h
  | object members =>
      rw [ofJson, toJson] at h
      cases hmembers : toJsonMembers (ofJsonMembers members) <;> rw [hmembers] at h <;> cases h

end Script

theorem ScriptEngine.stored_ofJson_eq_string {j : Json} {s : String} :
    stored (.ofJson j) = .ok (.string s) ↔ j = .string s := by
  constructor
  · intro h
    rw [stored] at h
    split at h
    · next stored hstored =>
      cases h
      exact Script.Value.toJson_ofJson_eq_string hstored
    · cases h
  · rintro rfl
    rfl

structure ScriptLimits.LetsCall (limits : ScriptLimits) : Prop where
  operations : 3 ≤ Script.Run.allowance limits
  time : limits.hostCallTimeoutMs ≠ 0

namespace ScriptEngine.Genuine

open Script

variable {providers : List HostProvider} {limits : ScriptLimits} {engine : ScriptEngine}
  {provider : HostProvider} {function : HostFunction} {argument : String}

theorem evaluate_textCall_run (h : Genuine ⟨providers⟩ limits engine)
    (haccepted : HostRegistry.Registrable providers) (hprovider : provider ∈ providers)
    (hmodule : isPathName provider.moduleName = true) (hfunction : function ∈ provider.functions)
    (hname : isPathName function.name = true) (harity : function.arity = 1)
    (hlimits : 3 ≤ Run.allowance limits) (hargument : limits.Admits argument) :
    ∃ ctx pos run, ctx.limits = limits ∧ ∀ result last,
      Eval.callHost ctx provider.moduleName function [.text argument] pos run = (result, last) →
        (engine.evaluate (textCall provider.moduleName function.name argument)).1 =
          outcome limits last.hostFailure (result.map last.read) := by
  obtain ⟨argPos, pathPos, pos, hparse⟩ := parse_textCall hmodule hname hargument
  obtain ⟨fuel, houtcome⟩ := h.evaluate_statement_run hparse
  exact ⟨_, pos, _, rfl, fun result last hlast => houtcome result last <|
    (Eval.statement_textCall_run haccepted hprovider hfunction harity rfl
      (by rw [Nat.zero_add]; exact hlimits) (fuel + 12) argument argPos pathPos pos).trans hlast⟩

theorem evaluate_textCall (h : Genuine ⟨providers⟩ limits engine)
    (haccepted : HostRegistry.Registrable providers) (hprovider : provider ∈ providers)
    (hmodule : isPathName provider.moduleName = true) (hfunction : function ∈ provider.functions)
    (hname : isPathName function.name = true) (harity : function.arity = 1)
    (hlimits : limits.LetsCall) (hargument : limits.Admits argument) {answer : String}
    (hanswer : limits.Admits answer) :
    (engine.evaluate (textCall provider.moduleName function.name argument)).1 =
        .ok (.string answer) ↔ function.call [.string argument] = .ok (.string answer) := by
  obtain ⟨ctx, pos, run, rfl, houtcome⟩ := h.evaluate_textCall_run haccepted hprovider hmodule
    hfunction hname harity hlimits.operations hargument
  cases hcall : function.call [.string argument] with
  | error error =>
      obtain ⟨failure, report, last, hlast⟩ := Eval.callHost_text_error hcall run
      rw [houtcome _ _ hlast]
      exact ⟨nofun, nofun⟩
  | ok found =>
      have hvalue : Eval.callHost ctx provider.moduleName function [.text argument] pos = do
          Eval.checkSize ctx pos (.ofJson found)
          return .ofJson found := Eval.callHost_text_ok hlimits.time hcall
      rcases Eval.checkSize_run pos (.ofJson found) run with hsize | ⟨failure, hsize⟩
      · have hlast : Eval.callHost ctx provider.moduleName function [.text argument] pos run =
            (.ok (.ofJson found), run) := by
          rw [hvalue, Eval.bind_run, hsize]
          rfl
        rw [houtcome _ _ hlast, Except.map, Run.read_ofJson, Except.ok.injEq]
        exact stored_ofJson_eq_string
      · have hlast : Eval.callHost ctx provider.moduleName function [.text argument] pos run =
            (.error (.failure failure none), run) := by
          rw [hvalue, Eval.bind_run, hsize]
        rw [houtcome _ _ hlast]
        -- The answer fits, so it is another value that is too large.
        refine ⟨nofun, fun hfound => ?_⟩
        cases hfound
        rw [Value.ofJson, Eval.checkSize_text hanswer] at hsize
        cases hsize

end ScriptEngine.Genuine

end FormDerivation
