import FormDerivation.Host.Text
import FormDerivation.Proofs.Registration.Providers
import FormDerivation.Proofs.Script.ModuleCalls

/-!
# Modules of accepted providers

Where providers are accepted, their modules have different names, and so have the functions of each
of them: a call in a module is one of the function with its name (`HostRegistry.expression_call`).
The name of a module is made of letters, digits and underscores, but a script can name it only if
the package has a letter before its first digit and the name is no word of the language
(`HostProvider.isPathName_moduleName`).
-/

namespace FormDerivation

open Script

/-! ## Names of modules -/

namespace HostProvider

def plainChar (c : Char) : Char :=
  if Text.isAlphanumeric c then c else '_'

@[simp] theorem isNameChar_plainChar (c : Char) : isNameChar (plainChar c) = true := by
  unfold plainChar
  split
  · next hc => simp [isNameChar, hc]
  · rfl

theorem plainChar_eq_underscore (c : Char) : (plainChar c == '_') = !Text.isAlphanumeric c := by
  unfold plainChar
  split
  · next hc =>
    rw [hc, Bool.not_true, beq_eq_false_iff_ne]
    rintro rfl
    exact absurd hc (by decide)
  · next hc => simp [hc]

theorem toList_globalName (package : String) :
    (globalName package).toList =
      (if (package.toList.map plainChar).head?.any Text.isDigit then ['_'] else []) ++
        package.toList.map plainChar := by
  cases hchars : package.toList with
  | nil =>
      simp only [globalName, hchars, List.map_nil]
      rfl
  | cons c rest =>
      simp only [globalName, hchars, List.map_cons, String.toList_ofList]
      change (if Text.isDigit (plainChar c) then '_' :: plainChar c :: rest.map plainChar
        else plainChar c :: rest.map plainChar) = _
      cases hdigit : Text.isDigit (plainChar c) <;> simp [hdigit]

theorem all_globalName (package : String) :
    (globalName package).toList.all isNameChar = true := by
  have hplain : (package.toList.map plainChar).all isNameChar = true := by
    rw [List.all_map, List.all_eq_true]
    exact fun c _ => isNameChar_plainChar c
  rw [toList_globalName, List.all_append, hplain, Bool.and_true]
  split <;> rfl

theorem head?_globalName (package : String) :
    ((globalName package).toList.dropWhile (· == '_')).head? =
      package.toList.find? Text.isAlphanumeric := by
  have hplain : ∀ cs : List Char, ((cs.map plainChar).dropWhile (· == '_')).head? =
      cs.find? Text.isAlphanumeric := by
    intro cs
    induction cs with
    | nil => rfl
    | cons c cs ih =>
        rw [List.map_cons, List.dropWhile_cons, List.find?_cons, plainChar_eq_underscore]
        cases hc : Text.isAlphanumeric c with
        | true => simp [plainChar, hc]
        | false => simpa using ih
  rw [toList_globalName, ← hplain]
  split <;> rfl

theorem isGlobalName_globalName {package : String} (h : package ≠ "") :
    ScriptEngine.isGlobalName (globalName package) = true := by
  have hall := all_globalName package
  unfold ScriptEngine.isGlobalName
  rw [toList_globalName] at hall ⊢
  cases hchars : package.toList with
  | nil => exact absurd (String.toList_eq_nil_iff.mp hchars) h
  | cons c cs =>
      rw [hchars, List.map_cons, List.head?_cons, Option.any_some] at hall
      rw [List.map_cons, List.head?_cons, Option.any_some]
      cases hdigit : Text.isDigit (plainChar c) with
      | true =>
          simp only [hdigit, if_true, List.all_append, Bool.and_eq_true] at hall
          exact hall.2
      | false =>
          simp only [hdigit, Bool.false_eq_true, if_false, List.nil_append, List.all_cons,
            Bool.and_eq_true] at hall
          -- A character of names that is no digit begins one.
          have hstart : isNameStart (plainChar c) = true := by
            have hchar := hall.1
            simp only [isNameChar, Text.isAlphanumeric, hdigit, Bool.or_false] at hchar
            exact hchar
          simp only [Bool.false_eq_true, if_false, List.nil_append, hstart, Bool.true_and]
          exact hall.2

theorem isPathName_moduleName (provider : HostProvider) :
    isPathName provider.moduleName = true ↔
      (provider.package.toList.find? Text.isAlphanumeric).any Text.isLetter = true ∧
        provider.moduleName ∉ takenWords := by
  rw [isPathName, moduleName, all_globalName, head?_globalName, Bool.true_and, Bool.and_eq_true,
    Bool.not_eq_true', List.contains_eq_mem, decide_eq_false_iff_not]

end HostProvider

/-! ## Calls -/

namespace Script.Eval

variable {α β : Type}

theorem bind_run (part : Eval α) (next : α → Eval β) (run : Run) :
    (part >>= next) run =
      match part run with
      | (.ok a, mid) => next a mid
      | (.error interruption, mid) => (.error interruption, mid) := by
  have hbind : (part >>= next) run =
      (fun p => (ExceptT.bindCont next p.1 : StateM Run (Except Interruption β)) p.2)
        (part run) := rfl
  rw [hbind]
  rcases part run with ⟨result, mid⟩
  cases result <;> rfl

theorem expressions_length : ∀ (fuel : Nat) (ctx : Context) (es : List Expr) {run last : Run}
    {values : List Value}, expressions fuel ctx es run = (.ok values, last) →
    values.length = es.length
  | 0, _, _, _, _, _, h => by cases h
  | _ + 1, _, [], _, _, _, h => by
      cases h
      rfl
  | fuel + 1, ctx, e :: rest, run, last, values, h => by
      have hstep : expressions (fuel + 1) ctx (e :: rest) =
          expression fuel ctx e >>= fun value =>
            expressions fuel ctx rest >>= fun values => pure (value :: values) := rfl
      rw [hstep, bind_run] at h
      split at h
      · next value mid _ =>
        rw [bind_run] at h
        split at h
        · next values' last' hrest =>
          cases h
          rw [List.length_cons, List.length_cons, expressions_length fuel ctx rest hrest]
        · cases h
      · cases h

theorem expressions_bind_congr {fuel : Nat} {ctx : Context} {es : List Expr}
    {next next' : List Value → Eval α} (h : ∀ values, values.length = es.length →
      next values = next' values) :
    expressions fuel ctx es >>= next = expressions fuel ctx es >>= next' := by
  funext run
  rw [bind_run, bind_run]
  split
  · next values mid hvalues => rw [h values (expressions_length fuel ctx es hvalues)]
  · rfl

end Script.Eval

namespace HostRegistry

/-- A call in the module of an accepted provider is one of its function with the name. -/
theorem expression_call {providers : List HostProvider} (h : Registrable providers)
    {provider : HostProvider} (hprovider : provider ∈ providers) {function : HostFunction}
    (hfunction : function ∈ provider.functions) {ctx : Context} (hhost : ctx.host = ⟨providers⟩)
    {args : List Expr} (hargs : args.length = function.arity) (fuel : Nat)
    (pathPos pos : Position) :
    Eval.expression (fuel + 1) ctx
        (.moduleCall [provider.moduleName] function.name args pathPos pos) = (do
      Eval.operation ctx pos
      let values ← Eval.expressions fuel ctx args
      Eval.callHost ctx provider.moduleName function values pos) := by
  have hcall : Eval.expressions fuel ctx args >>= (fun values =>
        Eval.callInModule ctx [provider.moduleName] function.name values pathPos pos) =
      Eval.expressions fuel ctx args >>= fun values =>
        Eval.callHost ctx provider.moduleName function values pos :=
    Eval.expressions_bind_congr fun values hvalues =>
      callInModule_moduleName h hprovider hfunction hhost (hvalues.trans hargs) pathPos pos
  exact congrArg (fun rest => Eval.operation ctx pos >>= fun _ => rest) hcall

/--
The source of a call of a function is a script, and a run of that script hands the arguments to the
function of the provider.
-/
def Reaches (registry : HostRegistry) (limits : ScriptLimits) (provider : HostProvider)
    (function : HostFunction) : Prop :=
  ∃ args pathPos pos,
    Program.parse limits (callText provider.moduleName function.name function.arity) =
        .ok ⟨[], [.expr (.moduleCall [provider.moduleName] function.name args pathPos pos)]⟩ ∧
      args.length = function.arity ∧ (∀ e ∈ args, ∃ pos, e = .constant .unit pos) ∧
      ∀ fuel (ctx : Context), ctx.host = registry →
        Eval.expression (fuel + 1) ctx
            (.moduleCall [provider.moduleName] function.name args pathPos pos) = do
          Eval.operation ctx pos
          let values ← Eval.expressions fuel ctx args
          Eval.callHost ctx provider.moduleName function values pos

/--
Accepted providers have modules of different names, each of them letters, digits and underscores.
The functions of a provider are reached exactly if its package has a letter before its first digit
and the module is no word of the language; otherwise no call in the module is a script.
-/
theorem ofProviders_reachable (providers : List HostProvider) (registry : HostRegistry)
    (h : ofProviders providers = .ok registry) :
    registry = ⟨providers⟩ ∧ (providers.map HostProvider.moduleName).Nodup ∧
      ∀ provider ∈ providers,
        ScriptEngine.isGlobalName provider.moduleName = true ∧
        (isPathName provider.moduleName = true ↔
          (provider.package.toList.find? Text.isAlphanumeric).any Text.isLetter = true ∧
            provider.moduleName ∉ takenWords) ∧
        ∀ function ∈ provider.functions, isPathName function.name = true → ∀ limits,
          (isPathName provider.moduleName = true → registry.Reaches limits provider function) ∧
          (isPathName provider.moduleName = false → ∃ fault, Program.parse limits
            (callText provider.moduleName function.name function.arity) = .error fault) := by
  obtain ⟨haccepted, rfl⟩ := ofProviders_eq_ok_iff.mp h
  refine ⟨rfl, haccepted.modules, fun provider hprovider => ?_⟩
  have hglobal := HostProvider.isGlobalName_globalName (haccepted.packages provider hprovider)
  refine ⟨hglobal, provider.isPathName_moduleName, fun function hfunction hname limits => ?_⟩
  refine ⟨fun hmodule => ?_, fun hmodule => ?_⟩
  · obtain ⟨args, pathPos, pos, hparse, hargs, hunits⟩ :=
      parse_callText limits hmodule hname function.arity
    exact ⟨args, pathPos, pos, hparse, hargs, hunits, fun fuel ctx hhost =>
      expression_call haccepted hprovider hfunction hhost hargs fuel pathPos pos⟩
  · exact parse_callText_fails limits hglobal hmodule hname function.arity

theorem ofProviders_text_reachable :
    ofProviders [.text] = .ok ⟨[.text]⟩ ∧
      ∀ limits, Reaches ⟨[.text]⟩ limits .text HostProvider.matchesFunction := by
  have hmodule : HostProvider.text.moduleName = "forms_text" := by decide
  have haccepted : ofProviders [.text] = .ok ⟨[.text]⟩ := by
    have hpackage : HostProvider.text.package ≠ "" := by decide
    have hfunctions : functionOffence? "forms_text" [] HostProvider.text.functions = none := rfl
    simp [ofProviders, offence?, hmodule, hpackage, hfunctions]
  refine ⟨haccepted, fun limits => ?_⟩
  have hprovider := (ofProviders_reachable _ _ haccepted).2.2 .text (List.mem_singleton.mpr rfl)
  have hfunction := hprovider.2.2 HostProvider.matchesFunction (by simp [HostProvider.text])
    (by decide) limits
  exact hfunction.1 (by rw [hmodule]; decide)

/-- The module of a package that begins with a digit is none that a script can name. -/
theorem ofProviders_digit_unreachable :
    ∃ provider, ∃ function ∈ provider.functions,
      ofProviders [provider] = .ok ⟨[provider]⟩ ∧ provider.moduleName = "_9lives" ∧
        callText provider.moduleName function.name function.arity = "_9lives::ping()" ∧
        ∀ limits, ∃ fault, Program.parse limits "_9lives::ping()" = .error fault := by
  let ping : HostFunction := ⟨"ping", 0, fun _ => .ok (.bool true)⟩
  let provider : HostProvider := ⟨"9lives", [ping]⟩
  have hmodule : provider.moduleName = "_9lives" := by decide
  have hpackage : provider.package ≠ "" := by decide
  have hfunctions : functionOffence? "_9lives" [] provider.functions = none := rfl
  refine ⟨provider, ping, List.mem_singleton.mpr rfl, ?_, hmodule, ?_, fun limits => ?_⟩
  · simp [ofProviders, offence?, hmodule, hpackage, hfunctions]
  · rw [hmodule]
    decide
  · have htext : callText "_9lives" "ping" 0 = "_9lives::ping()" := by decide
    rw [← htext]
    exact parse_callText_fails limits (by decide) (by decide) (by decide) 0

end HostRegistry

end FormDerivation
