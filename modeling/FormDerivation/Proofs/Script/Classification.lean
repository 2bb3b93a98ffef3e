import FormDerivation.Proofs.Script.Handlers
import FormDerivation.Script.Engine

/-!
# How failing scripts are reported

A run that fails is reported by the note of the last failing host call, if there is one, and by the
failure that ended it otherwise.  `evaluate_classified` says when this is the error of that failure
itself: if the note is the report of that very failure.  So it is in every script without `try`;
but the note of a call whose failure the script has caught hides whatever ends the run later.
-/

namespace FormDerivation.ScriptEngine

open Script

/--
How a failing run ends: the failure, what comes with it if a host call has failed, and the note of
the last host call that failed in the run.
-/
structure Ending where
  failure : Failure
  report : Option ScriptError
  noted : Option ScriptError

def ending? (engine : ScriptEngine) (code : String) : Option Ending :=
  match engine.compile code with
  | .error _ => none
  | .ok (program, engine) =>
    match engine.run program code with
    | (.error (.failure failure report), last) => some ⟨failure, report, last.hostFailure⟩
    | _ => none

theorem compile_eq_error {engine : ScriptEngine} {code : String} {error : ScriptError}
    (h : engine.compile code = .error error) : ∃ message, error = .compile message := by
  unfold compile at h
  split at h
  · cases h
  · split at h
    · cases h
    · cases h
      exact ⟨_, rfl⟩

theorem compile_eq_ok {engine loaded : ScriptEngine} {code : String} {program : Program}
    (h : engine.compile code = .ok (program, loaded)) :
    loaded.host = engine.host ∧ loaded.limits = engine.limits := by
  unfold compile at h
  split at h
  · cases h
    exact ⟨rfl, rfl⟩
  · split at h
    · cases h
      exact ⟨rfl, rfl⟩
    · cases h

theorem exists_of_ending {engine : ScriptEngine} {code : String} {ending : Ending}
    (h : engine.ending? code = some ending) :
    ∃ program loaded last, engine.compile code = .ok (program, loaded) ∧
      loaded.run program code = (.error (.failure ending.failure ending.report), last) ∧
      last.hostFailure = ending.noted := by
  unfold ending? at h
  split at h
  · cases h
  · next program loaded hcompile =>
    split at h
    · next last hrun =>
      cases h
      exact ⟨program, loaded, last, hcompile, hrun, rfl⟩
    · cases h

theorem stored_eq_error {value : Value} {error : ScriptError} (h : stored value = .error error) :
    ∃ description, error = .value description := by
  unfold stored at h
  split at h
  · cases h
  · cases h
    exact ⟨_, rfl⟩

/-! ## Notes and failures -/

theorem classify_none_ne_report {host : HostRegistry} {limits : ScriptLimits} {report : ScriptError}
    (h : IsReport host limits report) (bounds : ScriptLimits) (failure : Failure) :
    classify bounds failure none ≠ report := by
  obtain ⟨module, provider, function, args, -, -, hreport⟩ := h
  unfold Eval.hostReport? at hreport
  rw [classify]
  split at hreport
  · cases hreport
    split <;> exact ScriptError.noConfusion
  · split at hreport
    · cases hreport
    · cases hreport
      split <;> exact ScriptError.noConfusion

theorem run_noted (engine : ScriptEngine) (program : Program) (code : String) :
    ∀ result last, engine.run program code = (result, last) →
      Noted engine.host engine.limits (program.tryless = true) none result last.hostFailure := by
  have hbody : program.tryless = true → Stmt.trylessAll program.body = true := by
    intro h
    rw [Program.tryless, Bool.and_eq_true] at h
    exact h.1
  exact fun result last hrun => (evaluator_notes _ id).statements hbody _ result last hrun

theorem ending_noted {engine : ScriptEngine} {code : String} {ending : Ending}
    (h : engine.ending? code = some ending) :
    (∀ report, ending.noted = some report → IsReport engine.host engine.limits report) ∧
      (∀ report, ending.report = some report →
        IsReport engine.host engine.limits report ∧ ending.noted ≠ none) ∧
      ∀ program loaded, engine.compile code = .ok (program, loaded) → program.tryless = true →
        ending.noted = ending.report := by
  obtain ⟨program, loaded, last, hcompile, hrun, hlast⟩ := exists_of_ending h
  have hnoted := run_noted loaded program code _ _ hrun
  obtain ⟨hhost, hlimits⟩ := compile_eq_ok hcompile
  rw [hhost, hlimits, hlast] at hnoted
  refine ⟨fun report hreport => ?_, hnoted.ended, ?_⟩
  · rcases hnoted.genuine with hnone | ⟨other, hother, hgenuine⟩
    · cases hreport.symm.trans hnone
    · cases hreport.symm.trans hother
      exact hgenuine
  · intro other _ hother htryless
    cases hcompile.symm.trans hother
    rw [hnoted.agrees htryless, Option.or_none]
    rfl

/-! ## Evaluation -/

theorem evaluate_of_ending {engine : ScriptEngine} {code : String} {ending : Ending}
    (h : engine.ending? code = some ending) :
    (engine.evaluate code).1 = .error (classify engine.limits ending.failure ending.noted) := by
  obtain ⟨program, loaded, last, hcompile, hrun, hlast⟩ := exists_of_ending h
  rw [← (compile_eq_ok hcompile).2, ← hlast]
  simp only [evaluate, hcompile, hrun]
  rfl

theorem evaluate_of_no_ending {engine : ScriptEngine} {code : String} {error : ScriptError}
    (h : engine.ending? code = none) (herror : (engine.evaluate code).1 = .error error) :
    (∃ message, error = .compile message) ∨ ∃ description, error = .value description := by
  cases hcompile : engine.compile code with
  | error cause =>
      simp only [evaluate, hcompile] at herror
      cases herror
      exact .inl (compile_eq_error hcompile)
  | ok compiled =>
      obtain ⟨program, loaded⟩ := compiled
      rcases hrun : loaded.run program code with ⟨result, last⟩
      simp only [evaluate, hcompile, hrun] at herror
      cases result with
      | ok value => exact .inr (stored_eq_error herror)
      | error interruption =>
          cases interruption with
          | failure failure report => simp [ending?, hcompile, hrun] at h
          | again =>
              have hstored : stored .unit = .error error := herror
              exact .inr (stored_eq_error hstored)
          | _ => exact .inr (stored_eq_error herror)

theorem classify_inj {host : HostRegistry} {limits : ScriptLimits}
    {noted report : Option ScriptError}
    (hnoted : ∀ r, noted = some r → IsReport host limits r)
    (hreport : ∀ r, report = some r → IsReport host limits r) {bounds : ScriptLimits}
    {failure : Failure} (h : classify bounds failure noted = classify bounds failure report) :
    noted = report := by
  cases noted with
  | none =>
      cases report with
      | none => rfl
      | some r => exact absurd h (classify_none_ne_report (hreport r rfl) bounds failure)
  | some n =>
      cases report with
      | none => exact absurd h.symm (classify_none_ne_report (hnoted n rfl) bounds failure)
      | some r => exact congrArg some h

/--
A script fails with the error of the failure that ended its run exactly if the last host call that
failed is the one of that failure, or none has failed.
-/
theorem evaluate_classified (engine : ScriptEngine) (code : String) :
    match engine.ending? code with
    | none => ∀ error, (engine.evaluate code).1 = .error error →
        (∃ message, error = .compile message) ∨ ∃ description, error = .value description
    | some ending =>
      (engine.evaluate code).1 = .error (classify engine.limits ending.failure ending.noted) ∧
      ((engine.evaluate code).1 = .error (classify engine.limits ending.failure ending.report) ↔
        ending.noted = ending.report) ∧
      (∀ report, ending.noted = some report → IsReport engine.host engine.limits report) ∧
      (∀ report, ending.report = some report →
        IsReport engine.host engine.limits report ∧ ending.noted ≠ none) ∧
      ∀ program loaded, engine.compile code = .ok (program, loaded) → program.tryless = true →
        ending.noted = ending.report := by
  split
  · next hending => exact fun _ => evaluate_of_no_ending hending
  · next ending hending =>
    have hevaluate := evaluate_of_ending hending
    obtain ⟨hnoted, hreport, htryless⟩ := ending_noted hending
    refine ⟨hevaluate, ⟨fun h => ?_, fun h => h ▸ hevaluate⟩, hnoted, hreport, htryless⟩
    exact classify_inj hnoted (fun r hr => (hreport r hr).1)
      (Except.error.inj (hevaluate.symm.trans h))

/-- The script catches the failure of a call and throws a text of its own. -/
theorem evaluate_blames_caught_call :
    let recorder : HostProvider :=
      ⟨"test.recorder", [⟨"fail", 0, fun _ => .error (.failed "boom")⟩]⟩
    let engine : ScriptEngine := .fresh ⟨[recorder]⟩ {}
    let code := "try \x7b test_recorder::fail() \x7d catch \x7b \x7d throw \"nope\""
    (∃ ending, engine.ending? code = some ending ∧ ending.report = none ∧
      classify engine.limits ending.failure ending.report =
        .runtime "Runtime error: nope (line 1, position 41)") ∧
    (engine.evaluate code).1 = .error (.host "test_recorder" "fail" "boom") := by
  intro recorder engine code
  have hparts : (engine.ending? code).map (fun ending =>
      (classify engine.limits ending.failure ending.report, ending.report, ending.noted)) =
      some (.runtime "Runtime error: nope (line 1, position 41)", none,
        some (.host "test_recorder" "fail" "boom")) := by
    decide +kernel
  obtain ⟨ending, hending, heq⟩ := Option.map_eq_some_iff.mp hparts
  simp only [Prod.mk.injEq] at heq
  obtain ⟨hruntime, hreport, hnoted⟩ := heq
  refine ⟨⟨ending, hending, hreport, hruntime⟩, ?_⟩
  rw [evaluate_of_ending hending, hnoted]
  rfl

end FormDerivation.ScriptEngine
