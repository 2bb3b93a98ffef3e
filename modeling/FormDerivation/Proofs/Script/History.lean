import FormDerivation.Engine
import FormDerivation.Proofs.KeyMap

/-!
# Script engines with a history

Whatever an engine has been asked for, its next evaluation comes out as on a fresh engine that knows
the latest values of its globals (`ScriptEngine.evaluate_afterCalls`).  What it keeps besides them
makes no difference: a program that was read before is the one that its source has
(`ScriptEngine.Genuine`), and no run looks at the report of a host call that failed in an earlier one.
-/

namespace FormDerivation

open Script (Program Value)

inductive ScriptCall where
  | register (name : String) (value : Json)
  | evaluate (code : String)

namespace ScriptEngine

/-- The engine behind a call; a global that is refused changes nothing. -/
def afterCall (engine : ScriptEngine) : ScriptCall → ScriptEngine
  | .register name value =>
    match engine.register name value with
    | .ok engine => engine
    | .error _ => engine
  | .evaluate code => (engine.evaluate code).2

def afterCalls (engine : ScriptEngine) (calls : List ScriptCall) : ScriptEngine :=
  calls.foldl afterCall engine

/-- The values of globals with that of a call, unless its name is refused. -/
def registerIn (known : KeyMap Json) : ScriptCall → KeyMap Json
  | .register name value => if isGlobalName name then known.insert name value else known
  | .evaluate _ => known

/-- The latest value of each global that calls have registered. -/
def registered (calls : List ScriptCall) : KeyMap Json :=
  calls.foldl registerIn .empty

/-! ## Programs that are kept -/

/-- An engine with host functions and limits, of which each kept program is that of its source. -/
structure Genuine (host : HostRegistry) (limits : ScriptLimits) (engine : ScriptEngine) : Prop where
  host_eq : engine.host = host
  limits_eq : engine.limits = limits
  kept : ∀ code program, engine.compiled.lookup code = some program →
    Program.parse limits code = .ok program

theorem fresh_genuine (host : HostRegistry) (limits : ScriptLimits) :
    Genuine host limits (fresh host limits) :=
  ⟨rfl, rfl, fun _ _ h => by cases h⟩

namespace Genuine

variable {host : HostRegistry} {limits : ScriptLimits} {engine engine' : ScriptEngine}

theorem compile_eq (h : Genuine host limits engine) (code : String) :
    match Program.parse limits code with
    | .ok program => ∃ loaded, engine.compile code = .ok (program, loaded) ∧
        Genuine host limits loaded ∧ loaded.globals = engine.globals
    | .error fault =>
      engine.compile code = .error (.compile (Script.Fault.placed "no script" fault.pos)) := by
  unfold compile
  cases hlookup : engine.compiled.lookup code with
  | some program =>
      rw [h.kept code program hlookup]
      exact ⟨engine, rfl, h, rfl⟩
  | none =>
      rw [h.limits_eq]
      cases hparse : Program.parse limits code with
      | error fault => rfl
      | ok program =>
          refine ⟨_, rfl, ⟨h.host_eq, rfl, ?_⟩, rfl⟩
          intro other found hfound
          rw [List.lookup_cons] at hfound
          split at hfound
          · next hother =>
            cases hfound
            rw [beq_iff_eq.mp hother, hparse]
          · exact h.kept other found hfound

/-- Globals are all of an engine that the outcome of a script depends on. -/
theorem evaluate_eq (h : Genuine host limits engine) (h' : Genuine host limits engine')
    (hglobals : engine'.globals = engine.globals) (code : String) :
    (engine'.evaluate code).1 = (engine.evaluate code).1 := by
  have hcompile := h.compile_eq code
  have hcompile' := h'.compile_eq code
  cases hparse : Program.parse limits code with
  | error fault =>
      rw [hparse] at hcompile hcompile'
      simp only [evaluate, hcompile, hcompile']
  | ok program =>
      rw [hparse] at hcompile hcompile'
      obtain ⟨loaded, hloaded, hgenuine, hkept⟩ := hcompile
      obtain ⟨loaded', hloaded', hgenuine', hkept'⟩ := hcompile'
      have hrun : loaded'.run program code = loaded.run program code := by
        simp only [run, scope, hkept, hkept', hglobals, hgenuine.host_eq, hgenuine'.host_eq,
          hgenuine.limits_eq, hgenuine'.limits_eq]
      simp only [evaluate, hloaded, hloaded', hrun, hgenuine.limits_eq, hgenuine'.limits_eq]

theorem evaluate_kept (h : Genuine host limits engine) (code : String) :
    Genuine host limits (engine.evaluate code).2 ∧
      (engine.evaluate code).2.globals = engine.globals := by
  have hcompile := h.compile_eq code
  cases hparse : Program.parse limits code with
  | error fault =>
      rw [hparse] at hcompile
      simp only [evaluate, hcompile]
      exact ⟨h, trivial⟩
  | ok program =>
      rw [hparse] at hcompile
      obtain ⟨loaded, hloaded, hgenuine, hkept⟩ := hcompile
      simp only [evaluate, hloaded]
      exact ⟨⟨hgenuine.host_eq, hgenuine.limits_eq, hgenuine.kept⟩, hkept⟩

end Genuine

/-! ## Globals -/

def Knows (known : KeyMap Json) (engine : ScriptEngine) : Prop :=
  engine.globals = known.mapValues fun _ => Value.ofJson

theorem register_eq_ok {engine : ScriptEngine} {name : String} (h : isGlobalName name = true)
    (value : Json) : engine.register name value =
      .ok { engine with globals := engine.globals.insert name (.ofJson value) } := by
  rw [register, if_pos h]

theorem afterCall_kept {host : HostRegistry} {limits : ScriptLimits} {engine : ScriptEngine}
    {known : KeyMap Json} (h : Genuine host limits engine) (hknown : Knows known engine)
    (call : ScriptCall) :
    Genuine host limits (engine.afterCall call) ∧
      Knows (registerIn known call) (engine.afterCall call) := by
  cases call with
  | register name value =>
      by_cases hname : isGlobalName name = true
      · simp only [afterCall, register_eq_ok hname, registerIn, if_pos hname]
        refine ⟨⟨h.host_eq, h.limits_eq, h.kept⟩, ?_⟩
        rw [Knows] at hknown ⊢
        rw [hknown, KeyMap.mapValues_insert]
      · simp only [afterCall, register, registerIn, if_neg hname]
        exact ⟨h, hknown⟩
  | evaluate code =>
      obtain ⟨hgenuine, hglobals⟩ := h.evaluate_kept code
      exact ⟨hgenuine, hglobals.trans hknown⟩

theorem afterCalls_kept {host : HostRegistry} {limits : ScriptLimits} {engine : ScriptEngine}
    {known : KeyMap Json} (h : Genuine host limits engine) (hknown : Knows known engine)
    (calls : List ScriptCall) :
    Genuine host limits (engine.afterCalls calls) ∧
      Knows (calls.foldl registerIn known) (engine.afterCalls calls) := by
  induction calls generalizing engine known with
  | nil => exact ⟨h, hknown⟩
  | cons call calls ih =>
      obtain ⟨hgenuine, hglobals⟩ := afterCall_kept h hknown call
      exact ih hgenuine hglobals

theorem isGlobalName_of_registered (calls : List ScriptCall) :
    ∀ entry ∈ (registered calls).toList, isGlobalName entry.1 = true := by
  have hfold : ∀ known : KeyMap Json, (∀ entry ∈ known.toList, isGlobalName entry.1 = true) →
      ∀ entry ∈ (calls.foldl registerIn known).toList, isGlobalName entry.1 = true := by
    induction calls with
    | nil => exact fun _ h => h
    | cons call calls ih =>
        intro known hknown
        refine ih _ ?_
        cases call with
        | evaluate code => exact hknown
        | register name value =>
            rw [registerIn]
            split
            · next hname =>
              intro entry hentry
              rcases KeyMap.mem_insertEntry hentry with rfl | hentry
              · exact hname
              · exact hknown entry hentry
            · exact hknown
  exact hfold .empty (by simp [KeyMap.empty])

theorem exists_prepare {host : HostRegistry} {limits : ScriptLimits}
    {globals : List (String × Json)} (h : ∀ entry ∈ globals, isGlobalName entry.1 = true)
    (engine : ScriptEngine) (hgenuine : Genuine host limits engine) :
    ∃ prepared, FormEngine.prepare engine globals = .ok prepared ∧
      Genuine host limits prepared ∧
      prepared.globals =
        engine.globals.insertAll (globals.map fun entry => (entry.1, Value.ofJson entry.2)) := by
  induction globals generalizing engine with
  | nil => exact ⟨engine, rfl, hgenuine, rfl⟩
  | cons entry rest ih =>
      obtain ⟨name, value⟩ := entry
      rw [List.forall_mem_cons] at h
      rw [FormEngine.prepare, register_eq_ok h.1]
      exact ih h.2 _ ⟨hgenuine.host_eq, hgenuine.limits_eq, hgenuine.kept⟩

/--
The history of an engine is of no account: after any calls, the next evaluation comes out as on a
fresh engine on which only the latest values of globals are registered, in any order.
-/
theorem evaluate_afterCalls (host : HostRegistry) (limits : ScriptLimits)
    (calls : List ScriptCall) (globals : List (String × Json))
    (hglobals : globals.Perm (registered calls).toList) (code : String) :
    ∃ prepared, FormEngine.prepare (fresh host limits) globals = .ok prepared ∧
      (((fresh host limits).afterCalls calls).evaluate code).1 = (prepared.evaluate code).1 := by
  have hnames : ∀ entry ∈ globals, isGlobalName entry.1 = true :=
    fun entry hentry => isGlobalName_of_registered calls entry (hglobals.subset hentry)
  have hfresh := fresh_genuine host limits
  obtain ⟨prepared, hprepare, hprepared, hknown⟩ := exists_prepare hnames _ hfresh
  have hnone : Knows .empty (fresh host limits) := rfl
  obtain ⟨hgenuine, hcalls⟩ := afterCalls_kept hfresh hnone calls
  refine ⟨prepared, hprepare, hprepared.evaluate_eq hgenuine ?_ code⟩
  rw [hknown, hcalls]
  exact (KeyMap.ofList_perm_map hglobals Value.ofJson).symm

theorem evaluate_afterCalls_mixed :
    let recorder : HostProvider :=
      ⟨"test.recorder", [⟨"fail", 0, fun _ => .error (.failed "boom")⟩]⟩
    let calls : List ScriptCall := [.register "x" (.int 1), .register "1x" (.int 7),
      .evaluate "try \x7b test_recorder::fail() \x7d catch \x7b x \x7d", .register "x" (.int 2),
      .evaluate "throw x", .evaluate "x +"]
    let engine := (fresh ⟨[recorder]⟩ {}).afterCalls calls
    (registered calls).toList = [("x", .int 2)] ∧
      (engine.evaluate "throw x + 1").1 =
        .error (.runtime "Runtime error: 3 (line 1, position 1)") ∧
      ∃ prepared, FormEngine.prepare (fresh ⟨[recorder]⟩ {}) [("x", .int 2)] = .ok prepared ∧
        (engine.evaluate "throw x + 1").1 = (prepared.evaluate "throw x + 1").1 := by
  intro recorder calls engine
  have hregistered : (registered calls).toList = [("x", .int 2)] := by rfl
  have hended : (match (engine.evaluate "throw x + 1").1 with
      | .error error => some error
      | .ok _ => none) = some (.runtime "Runtime error: 3 (line 1, position 1)") := by
    decide +kernel +zetaReduce
  refine ⟨hregistered, ?_, ?_⟩
  · split at hended
    · next error herror => rw [herror, Option.some.inj hended]
    · cases hended
  · exact evaluate_afterCalls ⟨[recorder]⟩ {} calls [("x", .int 2)] (by rw [hregistered])
      "throw x + 1"

end ScriptEngine

end FormDerivation
