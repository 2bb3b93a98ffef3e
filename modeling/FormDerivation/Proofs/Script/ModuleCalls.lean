import FormDerivation.Script.Engine

/-!
# Calls of functions in modules

`callText` is the source of a call of a function by the name of its module.  It is split into the
words and symbols that one expects (`tokenize_callText`), and if the function has a name that can
be read then it is read as a call exactly if the module has one (`parse_callText`,
`parse_callText_fails`).
-/

namespace FormDerivation.Script

/-! ## Names -/

def takenWords : List String :=
  keywords ++ reservedWords ++ functionWords

/--
Whether a text can stand in the path of a module: letters, digits and underscores with a letter
before the first digit, and no word that is taken.
-/
def isPathName (name : String) : Bool :=
  name.toList.all isNameChar && (name.toList.dropWhile (· == '_')).head?.any Text.isLetter &&
    !takenWords.contains name

theorem isNameChar_of_isNameStart {c : Char} (h : isNameStart c = true) : isNameChar c = true := by
  simp only [isNameStart, Bool.or_eq_true] at h
  simp only [isNameChar, Text.isAlphanumeric, Bool.or_eq_true]
  rcases h with h | h
  · exact .inl (.inl h)
  · exact .inr h

theorem toNat_of_isNameStart {c : Char} (h : isNameStart c = true) :
    97 ≤ c.toNat ∧ c.toNat ≤ 122 ∨ 65 ≤ c.toNat ∧ c.toNat ≤ 90 ∨ c.toNat = 95 := by
  simp only [isNameStart, Text.isLetter, Bool.or_eq_true, Bool.and_eq_true, decide_eq_true_eq,
    beq_iff_eq, Char.le_def, UInt32.le_iff_toNat_le] at h
  rcases h with (⟨hlow, hhigh⟩ | ⟨hlow, hhigh⟩) | rfl
  · exact .inl ⟨hlow, hhigh⟩
  · exact .inr (.inl ⟨hlow, hhigh⟩)
  · exact .inr (.inr rfl)

theorem isBlank_of_isNameStart {c : Char} (h : isNameStart c = true) :
    Text.isBlank c = false := by
  have hcode := toNat_of_isNameStart h
  exact Text.isBlank_of_visible (by omega)

theorem isDigit_of_isNameStart {c : Char} (h : isNameStart c = true) :
    Text.isDigit c = false := by
  have hcode := toNat_of_isNameStart h
  simp only [Text.isDigit, Bool.and_eq_false_iff, decide_eq_false_iff_not, Char.le_def,
    UInt32.le_iff_toNat_le]
  change ¬ 48 ≤ c.toNat ∨ ¬ c.toNat ≤ 57
  omega

/-! ## Words of a source -/

@[simp] theorem Source.upTo_append (front behind : List Char) (pos : Position) :
    Source.upTo ⟨front ++ behind, pos⟩ behind = ⟨behind, pos.afterAll front⟩ := by
  simp [Source.upTo, Source.skip]

theorem tokensFrom_word {c : Char} (hc : isNameStart c = true) (steps : Nat) (rest : List Char)
    (pos : Position) :
    tokensFrom (steps + 1) [] ⟨c :: rest, pos⟩ =
      match wordToken? ((c :: rest).takeWhile isNameChar) with
      | some token => do
        let behind := (c :: rest).drop ((c :: rest).takeWhile isNameChar).length
        .ok (⟨token, pos⟩ :: (← tokensFrom steps [] (Source.upTo ⟨c :: rest, pos⟩ behind)))
      | none => .error ⟨pos⟩ := by
  rw [tokensFrom]
  split
  case h_1 heq => cases heq
  -- What begins a comment or a text begins no name.
  case h_2 | h_3 | h_4 | h_5 | h_6 =>
    next heq =>
    cases heq
    exact absurd hc (by decide)
  case h_7 heq =>
    cases heq
    cases hword : wordToken? ((c :: rest).takeWhile isNameChar) <;>
      simp only [isBlank_of_isNameStart hc, isDigit_of_isNameStart hc, hc, hword,
        Bool.false_eq_true, if_false, if_true]

def Lexes (cs : List Char) (tokens : List Token) : Prop :=
  ∀ steps pos, cs.length < steps →
    ∃ lexemes, tokensFrom steps [] ⟨cs, pos⟩ = .ok lexemes ∧ lexemes.map Lexeme.token = tokens

theorem Lexes.nil : Lexes [] [] := by
  intro steps pos hsteps
  cases steps with
  | zero => cases hsteps
  | succ steps => exact ⟨[], rfl, rfl⟩

theorem Lexes.tokenize {code : String} {tokens : List Token} (h : Lexes code.toList tokens) :
    ∃ lexemes, Script.tokenize code = .ok lexemes ∧ lexemes.map Lexeme.token = tokens := by
  apply h
  rw [String.length_toList]
  exact Nat.lt_succ_self _

theorem Lexes.cons (front : List Char) {rest : List Char} {token : Token} {tokens : List Token}
    (hfront : front ≠ []) (hrest : Lexes rest tokens)
    (h : ∀ steps pos, tokensFrom (steps + 1) [] ⟨front ++ rest, pos⟩ = do
      .ok (⟨token, pos⟩ :: (← tokensFrom steps [] (Source.upTo ⟨front ++ rest, pos⟩ rest)))) :
    Lexes (front ++ rest) (token :: tokens) := by
  intro steps pos hsteps
  cases steps with
  | zero => cases hsteps
  | succ steps =>
      have hlength : rest.length < steps := by
        have hpos := List.length_pos_iff.mpr hfront
        rw [List.length_append] at hsteps
        omega
      obtain ⟨lexemes, hlexemes, htokens⟩ := hrest steps (pos.afterAll front) hlength
      refine ⟨⟨token, pos⟩ :: lexemes, ?_, by rw [List.map_cons, htokens]⟩
      rw [h, Source.upTo_append, hlexemes]
      rfl

theorem takeWhile_word {word rest : List Char} (hword : ∀ c ∈ word, isNameChar c = true)
    (hrest : rest.head?.any isNameChar = false) : (word ++ rest).takeWhile isNameChar = word := by
  rw [List.takeWhile_append_of_pos hword]
  cases rest with
  | nil => simp
  | cons c rest =>
      rw [List.head?_cons, Option.any_some] at hrest
      simp [hrest]

theorem Lexes.word {c : Char} {word rest : List Char} {token : Token} {tokens : List Token}
    (hc : isNameStart c = true) (hword : ∀ d ∈ word, isNameChar d = true)
    (htoken : wordToken? (c :: word) = some token) (hend : rest.head?.any isNameChar = false)
    (hrest : Lexes rest tokens) : Lexes (c :: word ++ rest) (token :: tokens) := by
  refine Lexes.cons _ (List.cons_ne_nil c word) hrest fun steps pos => ?_
  have hall : ∀ d ∈ c :: word, isNameChar d = true :=
    List.forall_mem_cons.mpr ⟨isNameChar_of_isNameStart hc, hword⟩
  have htaken := takeWhile_word hall hend
  rw [List.cons_append] at htaken ⊢
  rw [tokensFrom_word hc, htaken, htoken]
  simp

theorem tokensFrom_no_word {c : Char} {word rest : List Char} (hc : isNameStart c = true)
    (hword : ∀ d ∈ word, isNameChar d = true) (htoken : wordToken? (c :: word) = none)
    (hend : rest.head?.any isNameChar = false) (steps : Nat) (pos : Position) :
    tokensFrom (steps + 1) [] ⟨c :: word ++ rest, pos⟩ = .error ⟨pos⟩ := by
  have hall : ∀ d ∈ c :: word, isNameChar d = true :=
    List.forall_mem_cons.mpr ⟨isNameChar_of_isNameStart hc, hword⟩
  have htaken := takeWhile_word hall hend
  rw [List.cons_append] at htaken ⊢
  rw [tokensFrom_word hc, htaken, htoken]

/-! ## Symbols of a call -/

def unitChars : Nat → List Char
  | 0 => [')']
  | 1 => ['(', ')', ')']
  | n + 2 => '(' :: ')' :: ',' :: unitChars (n + 1)

def unitTokens : Nat → List Token
  | 0 => [.symbol ")"]
  | 1 => [.symbol "(", .symbol ")", .symbol ")"]
  | n + 2 => .symbol "(" :: .symbol ")" :: .symbol "," :: unitTokens (n + 1)

theorem lexes_unitChars : ∀ n, Lexes (unitChars n) (unitTokens n)
  | 0 => Lexes.nil.cons [')'] (List.cons_ne_nil _ _) fun _ _ => rfl
  | 1 => by
      have hclosing := Lexes.nil.cons [')'] (List.cons_ne_nil _ _) fun _ _ => rfl
      have hinner := hclosing.cons [')'] (List.cons_ne_nil _ _) fun _ _ => rfl
      exact hinner.cons ['('] (List.cons_ne_nil _ _) fun _ _ => rfl
  | n + 2 => by
      have hcomma : Lexes (',' :: unitChars (n + 1)) (.symbol "," :: unitTokens (n + 1)) := by
        refine (lexes_unitChars (n + 1)).cons [','] (List.cons_ne_nil _ _) fun steps pos => ?_
        cases n <;> rfl
      have hinner := hcomma.cons [')'] (List.cons_ne_nil _ _) fun _ _ => rfl
      exact hinner.cons ['('] (List.cons_ne_nil _ _) fun _ _ => rfl

/-! ## The source of a call -/

/-- The source of a call of a function in a module, with `()` for each of its arguments. -/
def callText (module function : String) (arity : Nat) : String :=
  module ++ "::" ++ function ++ "(" ++ Text.joinWith "," (List.replicate arity "()") ++ ")"

theorem toList_units : ∀ n,
    (Text.joinWith "," (List.replicate n "()")).toList ++ [')'] = unitChars n
  | 0 => rfl
  | 1 => rfl
  | n + 2 => by
      have hrest := toList_units (n + 1)
      rw [List.replicate_succ] at hrest
      rw [List.replicate_succ, List.replicate_succ, Text.joinWith]
      · simp only [String.toList_append, List.append_assoc, hrest]
        rfl
      · simp

theorem toList_callText (module function : String) (arity : Nat) :
    (callText module function arity).toList =
      module.toList ++ (':' :: ':' :: (function.toList ++ '(' :: unitChars arity)) := by
  rw [← toList_units, callText]
  simp only [String.toList_append, List.append_assoc]
  rfl

theorem exists_of_isGlobalName {name : String} (h : ScriptEngine.isGlobalName name = true) :
    ∃ c word, name.toList = c :: word ∧ isNameStart c = true ∧ ∀ d ∈ word, isNameChar d = true := by
  unfold ScriptEngine.isGlobalName at h
  split at h
  · next c word hname =>
    rw [Bool.and_eq_true, List.all_eq_true] at h
    exact ⟨c, word, hname, h.1, h.2⟩
  · cases h

theorem isGlobalName_of_isPathName {name : String} (h : isPathName name = true) :
    ScriptEngine.isGlobalName name = true := by
  simp only [isPathName, Bool.and_eq_true, List.all_eq_true] at h
  obtain ⟨⟨hchars, hletter⟩, -⟩ := h
  unfold ScriptEngine.isGlobalName
  cases hname : name.toList with
  | nil => simp [hname] at hletter
  | cons c word =>
      rw [hname] at hchars hletter
      rw [Bool.and_eq_true, List.all_eq_true]
      refine ⟨?_, fun d hd => hchars d (List.mem_cons_of_mem _ hd)⟩
      rw [List.dropWhile_cons] at hletter
      split at hletter
      · next hunderscore => simp [isNameStart, hunderscore]
      · rw [List.head?_cons, Option.any_some] at hletter
        simp [isNameStart, hletter]

theorem wordToken?_of_isPathName {name : String} (h : isPathName name = true) :
    wordToken? name.toList = some (.name name) := by
  simp only [isPathName, takenWords, Bool.and_eq_true, Bool.not_eq_true', List.contains_append,
    Bool.or_eq_false_iff] at h
  obtain ⟨⟨-, hletter⟩, ⟨hkeyword, hreserved⟩, -⟩ := h
  have hunderscore : (name == "_") = false := by
    rw [beq_eq_false_iff_ne]
    rintro rfl
    exact absurd hletter (by decide)
  rw [wordToken?, String.ofList_toList]
  simp only [hkeyword, hreserved, hunderscore, Bool.false_eq_true, if_false]
  cases hrest : name.toList.dropWhile (· == '_') with
  | nil => simp [hrest] at hletter
  | cons c rest =>
      rw [hrest, List.head?_cons, Option.any_some] at hletter
      simp [hletter]

theorem symbol?_path {c : Char} (hc : isNameStart c = true) (rest : List Char) :
    symbol? (':' :: ':' :: c :: rest) = some "::" := by
  have hother : ('<' == c) = false := by
    rw [beq_eq_false_iff_ne]
    rintro rfl
    exact absurd hc (by decide)
  have hreserved : symbolAhead? (':' :: ':' :: c :: rest) reservedSymbols = none := by
    change (if (if ('<' == c) = true then some rest else none).isSome = true then some "::<"
      else none) = none
    rw [hother]
    rfl
  rw [symbol?, hreserved]
  rfl

theorem Lexes.path {c : Char} (hc : isNameStart c = true) {rest : List Char} {tokens : List Token}
    (h : Lexes (c :: rest) tokens) : Lexes (':' :: ':' :: c :: rest) (.symbol "::" :: tokens) := by
  refine h.cons [':', ':'] (List.cons_ne_nil _ _) fun steps pos => ?_
  rw [List.cons_append, List.cons_append, List.nil_append, tokensFrom]
  split
  case h_1 | h_2 | h_3 | h_4 | h_5 | h_6 => next heq => cases heq
  case h_7 heq =>
    cases heq
    rw [symbol?_path hc]
    rfl

theorem Lexes.pathName {name : String} (h : isPathName name = true) {rest : List Char}
    {tokens : List Token} (hend : rest.head?.any isNameChar = false) (hrest : Lexes rest tokens) :
    Lexes (name.toList ++ rest) (.name name :: tokens) := by
  obtain ⟨c, word, hname, hc, hword⟩ := exists_of_isGlobalName (isGlobalName_of_isPathName h)
  have htoken := wordToken?_of_isPathName h
  rw [hname] at htoken ⊢
  exact Lexes.word hc hword htoken hend hrest

theorem lexes_function {function : String} (h : isPathName function = true) (arity : Nat) :
    Lexes (':' :: ':' :: (function.toList ++ '(' :: unitChars arity))
      (.symbol "::" :: .name function :: .symbol "(" :: unitTokens arity) := by
  have hopen : Lexes ('(' :: unitChars arity) (.symbol "(" :: unitTokens arity) := by
    refine (lexes_unitChars arity).cons ['('] (List.cons_ne_nil _ _) fun steps pos => ?_
    rcases arity with _ | _ | arity <;> rfl
  have hlexes := Lexes.pathName h rfl hopen
  obtain ⟨c, word, hname, hc, -⟩ := exists_of_isGlobalName (isGlobalName_of_isPathName h)
  rw [hname, List.cons_append] at hlexes ⊢
  exact hlexes.path hc

theorem tokenize_callText {module function : String} {token : Token}
    (hmodule : ScriptEngine.isGlobalName module = true)
    (htoken : wordToken? module.toList = some token) (hfunction : isPathName function = true)
    (arity : Nat) :
    ∃ lexemes, tokenize (callText module function arity) = .ok lexemes ∧
      lexemes.map Lexeme.token =
        token :: .symbol "::" :: .name function :: .symbol "(" :: unitTokens arity := by
  obtain ⟨c, word, hname, hc, hword⟩ := exists_of_isGlobalName hmodule
  rw [hname] at htoken
  have hlexes := Lexes.word hc hword htoken rfl (lexes_function hfunction arity)
  rw [← hname, ← toList_callText] at hlexes
  exact hlexes.tokenize

theorem tokenize_callText_fails {module : String} (function : String)
    (hmodule : ScriptEngine.isGlobalName module = true) (htoken : wordToken? module.toList = none)
    (arity : Nat) : ∃ fault, tokenize (callText module function arity) = .error fault := by
  obtain ⟨c, word, hname, hc, hword⟩ := exists_of_isGlobalName hmodule
  rw [hname] at htoken
  refine ⟨⟨.start⟩, ?_⟩
  rw [tokenize, Source.start, toList_callText, hname]
  exact tokensFrom_no_word hc hword htoken rfl _ _

/-! ## Reading a call -/

namespace Parser

theorem run_bind_of_ok {α β : Type} {part : Parser α} {next : α → Parser β} {a : α}
    {state state' : ParserState} (h : part.run state = .ok (a, state')) :
    (part >>= next).run state = (next a).run state' := by
  rw [StateT.run_bind, h]
  rfl

theorem exists_lexeme {lexemes : List Lexeme} {token : Token} {tokens : List Token}
    (h : lexemes.map Lexeme.token = token :: tokens) :
    ∃ pos rest, lexemes = ⟨token, pos⟩ :: rest ∧ rest.map Lexeme.token = tokens := by
  obtain ⟨⟨_, pos⟩, rest, rfl, rfl, hrest⟩ := List.map_eq_cons_iff.mp h
  exact ⟨pos, rest, rfl, hrest⟩

variable (around : Surroundings)

theorem arguments_units (state : ParserState) (fuel : Nat) : ∀ (n : Nat) (lexemes : List Lexeme),
    lexemes.map Lexeme.token = unitTokens n →
    ∃ args, (arguments (fuel + n + 6) around ")").run { state with input := lexemes } =
        .ok (args, { state with input := [] }) ∧
      args.length = n ∧ ∀ e ∈ args, ∃ pos, e = .constant .unit pos
  | 0, lexemes, h => by
      obtain ⟨p, rest, rfl, hrest⟩ := exists_lexeme h
      cases List.map_eq_nil_iff.mp hrest
      exact ⟨[], rfl, rfl, by simp⟩
  | 1, lexemes, h => by
      obtain ⟨p, inner, rfl, hinner⟩ := exists_lexeme h
      obtain ⟨q, last, rfl, hlast⟩ := exists_lexeme hinner
      obtain ⟨r, rest, rfl, hrest⟩ := exists_lexeme hlast
      cases List.map_eq_nil_iff.mp hrest
      exact ⟨[.constant .unit p], rfl, rfl, by simp⟩
  | n + 2, lexemes, h => by
      obtain ⟨p, inner, rfl, hinner⟩ := exists_lexeme h
      obtain ⟨q, comma, rfl, hcomma⟩ := exists_lexeme hinner
      obtain ⟨r, rest, rfl, hrest⟩ := exists_lexeme hcomma
      obtain ⟨args, hargs, hlength, hunits⟩ := arguments_units state fuel (n + 1) rest hrest
      refine ⟨.constant .unit p :: args, ?_, by simp [hlength], ?_⟩
      · change (arguments (fuel + (n + 1) + 6) around ")" >>= fun args =>
          pure (.constant .unit p :: args)).run { state with input := rest } = _
        rw [run_bind_of_ok hargs]
        rfl
      · rw [List.forall_mem_cons]
        exact ⟨⟨p, rfl⟩, hunits⟩

theorem inModule_call {module function : String} (h : functionWords.contains function = false)
    (fuel : Nat) (state : ParserState) (rest : List Lexeme) (p q r t : Position) :
    (inModule (fuel + 1) around [] module p).run { state with
        input := ⟨.symbol "::", q⟩ :: ⟨.name function, r⟩ :: ⟨.symbol "(", t⟩ :: rest } =
      (arguments fuel around ")" >>= fun args =>
        pure (.moduleCall [module] function args p r)).run { state with input := rest } := by
  have hname : (inModule (fuel + 1) around [] module p).run { state with
        input := ⟨.symbol "::", q⟩ :: ⟨.name function, r⟩ :: ⟨.symbol "(", t⟩ :: rest } =
      (if functionWords.contains function then fail
      else do
        skip
        if ← atSymbol "::" then inModule fuel around [module] function p
        else if ← takeSymbol "(" then
          return .moduleCall [module] function (← arguments fuel around ")") p r
        else return .moduleName [module] function p).run { state with
          input := ⟨.name function, r⟩ :: ⟨.symbol "(", t⟩ :: rest } := by
    rfl
  rw [hname, h]
  rfl

theorem named_path {module : String} (h : functionWords.contains module = false) (fuel : Nat)
    (state : ParserState) (rest : List Lexeme) (p q : Position) :
    (named (fuel + 1) around module p).run { state with input := ⟨.symbol "::", q⟩ :: rest } =
      (inModule fuel around [] module p).run { state with input := ⟨.symbol "::", q⟩ :: rest } := by
  rw [named]
  simp only [h, Bool.false_eq_true, if_false]
  rfl

theorem expression_call {module function : String} (hmodule : functionWords.contains module = false)
    (hfunction : functionWords.contains function = false) (p q r t : Position) {fuel : Nat}
    {state state' : ParserState} {rest : List Lexeme} {args : List Expr}
    (h : (arguments fuel around ")").run { state with input := rest } = .ok (args, state'))
    (hend : state'.input = []) :
    (expression (fuel + 5) around).run { state with
        input := ⟨.name module, p⟩ :: ⟨.symbol "::", q⟩ :: ⟨.name function, r⟩ ::
          ⟨.symbol "(", t⟩ :: rest } =
      .ok (.moduleCall [module] function args p r, state') := by
  obtain ⟨input, scope, free, functions⟩ := state'
  cases hend
  have hprimary : (primary (fuel + 3) around).run { state with
      input := ⟨.name module, p⟩ :: ⟨.symbol "::", q⟩ :: ⟨.name function, r⟩ ::
        ⟨.symbol "(", t⟩ :: rest } =
      .ok (.moduleCall [module] function args p r, ⟨[], scope, free, functions⟩) := by
    have hnamed : (primary (fuel + 3) around).run { state with
        input := ⟨.name module, p⟩ :: ⟨.symbol "::", q⟩ :: ⟨.name function, r⟩ ::
          ⟨.symbol "(", t⟩ :: rest } =
        (named (fuel + 2) around module p).run { state with
          input := ⟨.symbol "::", q⟩ :: ⟨.name function, r⟩ :: ⟨.symbol "(", t⟩ :: rest } := by
      rfl
    rw [hnamed, named_path around hmodule, inModule_call around hfunction, run_bind_of_ok h]
    rfl
  have hunary : (unary (fuel + 4) around).run { state with
      input := ⟨.name module, p⟩ :: ⟨.symbol "::", q⟩ :: ⟨.name function, r⟩ ::
        ⟨.symbol "(", t⟩ :: rest } =
      .ok (.moduleCall [module] function args p r, ⟨[], scope, free, functions⟩) := by
    change (primary (fuel + 3) around >>= fun root => do
      let pos ← here
      let links ← links (fuel + 3) around root
      return if links.isEmpty then root else .access root links pos).run _ = _
    rw [run_bind_of_ok hprimary]
    rfl
  rw [expression, run_bind_of_ok hunary]
  rfl

theorem program_expression (limits : ScriptLimits) {fuel : Nat} {name : String} {p : Position}
    {rest : List Lexeme} {e : Expr} {free : List (String × Position)}
    (h : (expression fuel ⟨false, false, false, limits⟩).run ⟨⟨.name name, p⟩ :: rest, [], [], []⟩ =
      .ok (e, ⟨[], [], free, []⟩)) :
    (program limits (fuel + 3)).run' ⟨⟨.name name, p⟩ :: rest, [], [], []⟩ =
      .ok ⟨[], [.expr e]⟩ := by
  have hstatement : (statement (fuel + 2) ⟨false, false, true, limits⟩).run
      ⟨⟨.name name, p⟩ :: rest, [], [], []⟩ = .ok (.expr e, ⟨[], [], free, []⟩) := by
    change (expressionStatement (fuel + 1) ⟨false, false, false, limits⟩).run _ = _
    rw [expressionStatement, run_bind_of_ok h]
    rfl
  have hstatements : (statements (fuel + 3) ⟨false, false, true, limits⟩ false).run
      ⟨⟨.name name, p⟩ :: rest, [], [], []⟩ = .ok ([.expr e], ⟨[], [], free, []⟩) := by
    change (statement (fuel + 2) ⟨false, false, true, limits⟩ >>= fun first => do
      let atEnd := (← get).input.isEmpty
      let atClosing ← atSymbol "\x7d"
      if ← takeSymbol ";" then
        return first :: (← statements (fuel + 2) ⟨false, false, true, limits⟩ false)
      else if first.endsItself || (atEnd && !false) || (atClosing && false) then
        return first :: (← statements (fuel + 2) ⟨false, false, true, limits⟩ false)
      else fail).run _ = _
    rw [run_bind_of_ok hstatement]
    rfl
  change Prod.fst <$> (statements (fuel + 3) ⟨false, false, true, limits⟩ false >>= fun body => do
    return (⟨(← get).functions, body⟩ : Program)).run _ = _
  rw [run_bind_of_ok hstatements]
  rfl

theorem program_keyword_path (limits : ScriptLimits) (fuel : Nat) (p q : Position)
    (rest : List Lexeme) : ∀ word ∈ keywords, ∃ fault,
      (program limits (fuel + 20)).run' ⟨⟨.keyword word, p⟩ :: ⟨.symbol "::", q⟩ :: rest, [], [], []⟩ =
        .error fault := by
  intro word hword
  simp only [keywords, List.mem_cons, List.not_mem_nil, or_false] at hword
  rcases hword with rfl | rfl | rfl | rfl | rfl | rfl | rfl | rfl | rfl | rfl | rfl | rfl | rfl |
    rfl | rfl | rfl | rfl | rfl | rfl | rfl | rfl | rfl | rfl | rfl | rfl
  all_goals exact ⟨_, rfl⟩

theorem program_underscore_path (limits : ScriptLimits) (fuel : Nat) (p q : Position)
    (rest : List Lexeme) : ∃ fault,
      (program limits (fuel + 20)).run' ⟨⟨.symbol "_", p⟩ :: ⟨.symbol "::", q⟩ :: rest, [], [], []⟩ =
        .error fault :=
  ⟨_, rfl⟩

theorem program_functionWord_path (limits : ScriptLimits) (fuel : Nat) (p q : Position)
    (rest : List Lexeme) : ∀ name ∈ functionWords, ∃ fault,
      (program limits (fuel + 20)).run' ⟨⟨.name name, p⟩ :: ⟨.symbol "::", q⟩ :: rest, [], [], []⟩ =
        .error fault := by
  intro name hname
  simp only [functionWords, List.mem_cons, List.not_mem_nil, or_false] at hname
  rcases hname with rfl | rfl | rfl | rfl | rfl | rfl | rfl | rfl | rfl
  all_goals exact ⟨_, rfl⟩

end Parser

/-! ## Calls that are read and calls that are not -/

theorem not_functionWord_of_isPathName {name : String} (h : isPathName name = true) :
    functionWords.contains name = false := by
  simp only [isPathName, takenWords, Bool.and_eq_true, Bool.not_eq_true', List.contains_append,
    Bool.or_eq_false_iff] at h
  exact h.2.2

theorem le_length_unitTokens : ∀ n, n ≤ (unitTokens n).length
  | 0 => Nat.zero_le _
  | 1 => by decide
  | n + 2 => by
      have hrest := le_length_unitTokens (n + 1)
      simp only [unitTokens, List.length_cons]
      omega

theorem parse_callText (limits : ScriptLimits) {module function : String}
    (hmodule : isPathName module = true) (hfunction : isPathName function = true) (arity : Nat) :
    ∃ args pathPos pos, Program.parse limits (callText module function arity) =
        .ok ⟨[], [.expr (.moduleCall [module] function args pathPos pos)]⟩ ∧
      args.length = arity ∧ ∀ e ∈ args, ∃ pos, e = .constant .unit pos := by
  obtain ⟨lexemes, hlexemes, htokens⟩ := tokenize_callText (isGlobalName_of_isPathName hmodule)
    (wordToken?_of_isPathName hmodule) hfunction arity
  -- The steps of the parser grow with the tokens, of which there are enough for the arguments.
  have henough : arity + 14 ≤ 20 * lexemes.length + 20 := by
    have hunits := le_length_unitTokens arity
    have hmap := congrArg List.length htokens
    simp only [List.length_map, List.length_cons] at hmap
    omega
  obtain ⟨steps, hsteps⟩ := Nat.exists_eq_add_of_le' henough
  obtain ⟨p, path, rfl, hpath⟩ := Parser.exists_lexeme htokens
  obtain ⟨q, name, rfl, hname⟩ := Parser.exists_lexeme hpath
  obtain ⟨r, opening, rfl, hopening⟩ := Parser.exists_lexeme hname
  obtain ⟨t, rest, rfl, hrest⟩ := Parser.exists_lexeme hopening
  obtain ⟨args, hargs, hcount, hunits⟩ := Parser.arguments_units ⟨false, false, false, limits⟩
    ⟨rest, [], [], []⟩ steps arity rest hrest
  refine ⟨args, p, r, ?_, hcount, hunits⟩
  have hfuel : 20 * (⟨Token.name module, p⟩ :: ⟨.symbol "::", q⟩ :: ⟨.name function, r⟩ ::
      ⟨.symbol "(", t⟩ :: rest : List Lexeme).length + 20 = steps + arity + 6 + 5 + 3 := by
    omega
  have hexpression := Parser.expression_call ⟨false, false, false, limits⟩
    (not_functionWord_of_isPathName hmodule) (not_functionWord_of_isPathName hfunction) p q r t
    hargs rfl
  rw [Program.parse, hlexemes]
  simp only [hfuel]
  exact Parser.program_expression limits hexpression

theorem wordToken?_of_not_isPathName {name : String} (hname : ScriptEngine.isGlobalName name = true)
    (h : isPathName name = false) :
    wordToken? name.toList = none ∨
      (name ∈ keywords ∧ wordToken? name.toList = some (.keyword name)) ∨
      wordToken? name.toList = some (.symbol "_") ∨
      (wordToken? name.toList = some (.name name) ∧ name ∈ functionWords) := by
  rw [wordToken?, String.ofList_toList]
  cases hkeyword : keywords.contains name with
  | true => exact .inr (.inl ⟨List.contains_iff_mem.mp hkeyword, rfl⟩)
  | false =>
  cases hreserved : reservedWords.contains name with
  | true => exact .inl rfl
  | false =>
  cases hunderscore : name == "_" with
  | true => exact .inr (.inr (.inl rfl))
  | false =>
  simp only [Bool.false_eq_true, if_false]
  cases hrest : name.toList.dropWhile (· == '_') with
  | nil => exact .inl rfl
  | cons c rest =>
  cases hletter : Text.isLetter c with
  | false => exact .inl (by simp [hletter])
  | true =>
      refine .inr (.inr (.inr ⟨by simp [hletter], ?_⟩))
      -- All that is left to keep the name out of paths is that it is a function word.
      obtain ⟨d, word, hchars, hd, hword⟩ := exists_of_isGlobalName hname
      have hall : name.toList.all isNameChar = true := by
        rw [hchars, List.all_eq_true]
        exact List.forall_mem_cons.mpr ⟨isNameChar_of_isNameStart hd, hword⟩
      simp only [isPathName, takenWords, hall, hrest, hletter, hkeyword, hreserved,
        List.contains_append, List.head?_cons, Option.any_some, Bool.true_and, Bool.false_or,
        Bool.not_eq_false'] at h
      exact List.contains_iff_mem.mp h

theorem parse_callText_fails (limits : ScriptLimits) {module function : String}
    (hmodule : ScriptEngine.isGlobalName module = true) (hnot : isPathName module = false)
    (hfunction : isPathName function = true) (arity : Nat) :
    ∃ fault, Program.parse limits (callText module function arity) = .error fault := by
  have hread : ∀ {token : Token}, wordToken? module.toList = some token →
      (∀ fuel p q rest, ∃ fault, (Parser.program limits (fuel + 20)).run'
        ⟨⟨token, p⟩ :: ⟨.symbol "::", q⟩ :: rest, [], [], []⟩ = .error fault) →
      ∃ fault, Program.parse limits (callText module function arity) = .error fault := by
    intro token htoken hfails
    obtain ⟨lexemes, hlexemes, htokens⟩ := tokenize_callText hmodule htoken hfunction arity
    obtain ⟨p, path, rfl, hpath⟩ := Parser.exists_lexeme htokens
    obtain ⟨q, rest, rfl, hrest⟩ := Parser.exists_lexeme hpath
    rw [Program.parse, hlexemes]
    exact hfails _ p q rest
  rcases wordToken?_of_not_isPathName hmodule hnot with
    hnone | ⟨hword, htoken⟩ | htoken | ⟨htoken, hname⟩
  · obtain ⟨fault, hfault⟩ := tokenize_callText_fails function hmodule hnone arity
    refine ⟨⟨fault.pos⟩, ?_⟩
    rw [Program.parse, hfault]
  · exact hread htoken fun fuel p q rest =>
      Parser.program_keyword_path limits fuel p q rest module hword
  · exact hread htoken (Parser.program_underscore_path limits)
  · exact hread htoken fun fuel p q rest =>
      Parser.program_functionWord_path limits fuel p q rest module hname

end FormDerivation.Script
