import FormDerivation.Script.Evaluation

/-!
# The note of the last failing host call

A failing call of a host function leaves its report in the state of the run, where it stays when
the script catches the failure.  `Noted` is what any part of a script may do to that note: it is
closed under sequencing (`Noted.andThen`) and under whatever hands a failure on with its report
(`Noted.replace`).  Only a handler lets the note and the failure that ends a part come apart, so
`Noted` says that they agree where `plain` promises that there is none.
-/

namespace FormDerivation.Script

def IsReport (host : HostRegistry) (limits : ScriptLimits) (report : ScriptError) : Prop :=
  ∃ module provider function args, host.module? module = some provider ∧
    function ∈ provider.functions ∧
    Eval.hostReport? limits module function.name (function.call args) = some report

def endReport {α : Type} : Except Interruption α → Option ScriptError
  | .error (.failure _ report) => report
  | _ => none

section

variable {α β : Type} {host : HostRegistry} {limits : ScriptLimits} {plain : Prop}

/-- How a part of a script ends that starts with the note `before`. -/
structure Noted (host : HostRegistry) (limits : ScriptLimits) (plain : Prop)
    (before : Option ScriptError) (result : Except Interruption α)
    (after : Option ScriptError) : Prop where
  genuine : after = before ∨ ∃ report, after = some report ∧ IsReport host limits report
  ended : ∀ report, endReport result = some report → IsReport host limits report ∧ after ≠ none
  agrees : plain → after = (endReport result).or before

namespace Noted

variable {before mid after : Option ScriptError} {result : Except Interruption α}
  {other : Except Interruption β}

theorem quiet (h : endReport result = none) : Noted host limits plain before result before where
  genuine := .inl rfl
  ended report hreport := by
    rw [h] at hreport
    cases hreport
  agrees _ := by rw [h, Option.none_or]

theorem replace (h : Noted host limits plain before result after)
    (heq : endReport other = endReport result) : Noted host limits plain before other after where
  genuine := h.genuine
  ended report hreport := h.ended report (heq ▸ hreport)
  agrees hplain := heq ▸ h.agrees hplain

theorem interrupted {interruption : Interruption}
    (h : Noted host limits plain before (.error interruption : Except Interruption α) after) :
    Noted host limits plain before (.error interruption : Except Interruption β) after :=
  h.replace (by cases interruption <;> rfl)

theorem genuine_trans (h : Noted host limits plain before result mid)
    (hrest : Noted host limits plain mid other after) :
    after = before ∨ ∃ report, after = some report ∧ IsReport host limits report := by
  rcases hrest.genuine with rfl | hreport
  · exact h.genuine
  · exact .inr hreport

theorem andThen (h : Noted host limits plain before result mid) (hresult : endReport result = none)
    (hrest : Noted host limits plain mid other after) :
    Noted host limits plain before other after where
  genuine := h.genuine_trans hrest
  ended := hrest.ended
  agrees hplain := by
    have hbefore := h.agrees hplain
    rw [hresult, Option.none_or] at hbefore
    rw [hrest.agrees hplain, hbefore]

theorem handle (hplain : ¬plain) (h : Noted host limits plain before result mid)
    (hrest : Noted host limits plain mid other after) :
    Noted host limits plain before other after where
  genuine := h.genuine_trans hrest
  ended := hrest.ended
  agrees hp := absurd hp hplain

theorem rethrow {again : Except Interruption β} (hplain : ¬plain)
    (h : Noted host limits plain before result mid)
    (hrest : Noted host limits plain mid other after)
    (heq : endReport again = endReport result) :
    Noted host limits plain before again after where
  genuine := h.genuine_trans hrest
  ended report hreport := by
    obtain ⟨hgenuine, hnote⟩ := h.ended report (heq ▸ hreport)
    refine ⟨hgenuine, ?_⟩
    -- The note may be that of a later call, which failed within the handler.
    rcases hrest.genuine with rfl | ⟨later, rfl, -⟩
    · exact hnote
    · exact Option.some_ne_none later
  agrees hp := absurd hp hplain

end Noted

/-- A part of a script does no more to the note than `Noted` says, wherever it starts. -/
def Notes (host : HostRegistry) (limits : ScriptLimits) (plain : Prop) (part : Eval α) : Prop :=
  ∀ run result last, part run = (result, last) →
    Noted host limits plain run.hostFailure result last.hostFailure

@[simp] theorem share_hostFailure (run : Run) (found : Variable) :
    (run.share found).1.hostFailure = run.hostFailure := by
  unfold Run.share
  split <;> rfl

@[simp] theorem assign_hostFailure (run : Run) (name : String) (value : Value) :
    (run.assign name value).hostFailure = run.hostFailure := by
  unfold Run.assign
  split <;> rfl

namespace Notes

theorem of_quiet {part : Eval α}
    (h : ∀ run, endReport (part run).1 = none ∧ (part run).2.hostFailure = run.hostFailure) :
    Notes host limits plain part := by
  intro run result last hrun
  obtain ⟨hresult, hnote⟩ := h run
  rw [hrun] at hresult hnote
  dsimp only at hresult hnote
  rw [hnote]
  exact .quiet hresult

theorem pure (a : α) : Notes host limits plain (Pure.pure a) :=
  .of_quiet fun _ => ⟨rfl, rfl⟩

theorem get : Notes host limits plain (MonadState.get : Eval Run) :=
  .of_quiet fun _ => ⟨rfl, rfl⟩

theorem get_bind {next : Run → Eval β}
    (h : ∀ run result last, next run run = (result, last) →
      Noted host limits plain run.hostFailure result last.hostFailure) :
    Notes host limits plain (MonadState.get >>= next) :=
  h

theorem change {f : Run → Run} (h : ∀ run, (f run).hostFailure = run.hostFailure) :
    Notes host limits plain (modify f : Eval Unit) :=
  .of_quiet fun run => ⟨rfl, h run⟩

theorem failAt (pos : Position) (fault : Fault) :
    Notes host limits plain (Eval.failAt pos fault : Eval α) :=
  .of_quiet fun _ => ⟨rfl, rfl⟩

theorem bind {part : Eval α} {next : α → Eval β} (hpart : Notes host limits plain part)
    (hnext : ∀ a, Notes host limits plain (next a)) :
    Notes host limits plain (part >>= next) := by
  intro run result last hrun
  rcases hfirst : part run with ⟨first, mid⟩
  have h := hpart run first mid hfirst
  have hbind : (part >>= next) run =
      (ExceptT.bindCont next first : StateM Run (Except Interruption β)) mid := by
    change (fun p => ExceptT.bindCont next p.1 p.2) (part run) = _
    rw [hfirst]
  rw [hbind] at hrun
  cases first with
  | ok a => exact h.andThen rfl (hnext a mid result last hrun)
  | error interruption =>
      cases hrun
      exact h.interrupted

theorem ofResult (result : Except Failure α) : Notes host limits plain (Eval.ofResult result) := by
  cases result with
  | ok a => exact .pure a
  | error failure => exact .of_quiet fun _ => ⟨rfl, rfl⟩

theorem ofFault (pos : Position) (result : Except Fault α) :
    Notes host limits plain (Eval.ofFault pos result) := by
  cases result with
  | ok a => exact .pure a
  | error fault => exact .failAt pos fault

theorem locally {part : Eval α} (h : Notes host limits plain part) :
    Notes host limits plain (Eval.locally part) := by
  intro run result last hrun
  rcases hpart : part run with ⟨inner, mid⟩
  rw [Eval.locally, hpart] at hrun
  cases hrun
  exact h run _ mid hpart

theorem withScope {part : Eval α} (scope : List Variable) (h : Notes host limits plain part) :
    Notes host limits plain (Eval.withScope scope part) := by
  intro run result last hrun
  rcases hpart : part { run with scope } with ⟨inner, mid⟩
  rw [Eval.withScope, hpart] at hrun
  cases hrun
  have hnoted := h _ _ _ hpart
  exact hnoted

theorem round {part next : Eval Value} (hpart : Notes host limits plain part)
    (hnext : Notes host limits plain next) :
    Notes host limits plain fun run =>
      match part run with
      | (.ok _, run) => next run
      | (.error .again, run) => next run
      | (.error (.leave value), run) => (.ok value, run)
      | (.error interruption, run) => (.error interruption, run) := by
  intro run result last hrun
  dsimp only at hrun
  split at hrun
  · next hending => exact (hpart _ _ _ hending).andThen rfl (hnext _ _ _ hrun)
  · next hending => exact (hpart _ _ _ hending).andThen rfl (hnext _ _ _ hrun)
  · next hending =>
    cases hrun
    exact (hpart _ _ _ hending).replace rfl
  · next hending =>
    cases hrun
    exact hpart _ _ _ hending

theorem recover {part : Eval Value} {handler : Failure → Eval Value} (hplain : ¬plain)
    (hpart : Notes host limits plain part)
    (hhandler : ∀ failure, Notes host limits plain (handler failure)) :
    Notes host limits plain fun run =>
      match part run with
      | (.error (.failure failure report), run) =>
        if failure.fault.stopsRun then (.error (.failure failure report), run)
        else
          match handler failure run with
          | (.ok _, run) => (.ok .unit, run)
          | (.error (.failure ⟨.thrown .unit, pos⟩ _), run) =>
            (.error (.failure { failure with pos } report), run)
          | (.error interruption, run) => (.error interruption, run)
      | result => result := by
  intro run result last hrun
  dsimp only at hrun
  split at hrun
  · next failure report state hending =>
    have hfailed := hpart _ _ _ hending
    split at hrun
    · cases hrun
      exact hfailed
    have hhandled := hhandler failure state
    -- The handler ends well, throws the caught failure on, or ends in something of its own.
    split at hrun
    · next hending =>
      cases hrun
      exact .handle hplain hfailed ((hhandled _ _ hending).replace rfl)
    · next hending =>
      cases hrun
      exact .rethrow hplain hfailed (hhandled _ _ hending) rfl
    · next hending =>
      cases hrun
      exact .handle hplain hfailed (hhandled _ _ hending)
  · exact hpart _ _ _ hrun

theorem missingFunction (pos : Position) (name : String) (args : List Value) :
    Notes host limits plain (Eval.missingFunction pos name args : Eval α) :=
  .failAt _ _

theorem truth (pos : Position) (v : Value) : Notes host limits plain (Eval.truth pos v) := by
  cases v with
  | bool b => exact .pure b
  | _ => exact .failAt _ _

theorem variableValue? (name : String) : Notes host limits plain (Eval.variableValue? name) :=
  .bind .get fun _ => .pure _

theorem operation (ctx : Context) (pos : Position) :
    Notes host limits plain (Eval.operation ctx pos) := by
  refine .bind .get fun run => ?_
  refine .bind (.change fun _ => rfl) fun _ => ?_
  split
  · exact .failAt _ _
  · split
    · exact .failAt _ _
    · exact .pure _

theorem checkSize (ctx : Context) (pos : Position) (v : Value) :
    Notes host limits plain (Eval.checkSize ctx pos v) := by
  have hsizes : ∀ sizes : Sizes, Notes host limits plain (
      if Eval.exceeds ctx.limits.maxStringSize sizes.bytes then
        Eval.failAt pos (.tooLarge "Length of string")
      else if Eval.exceeds ctx.limits.maxArraySize sizes.items then
        Eval.failAt pos (.tooLarge "Size of array/BLOB")
      else if Eval.exceeds ctx.limits.maxMapSize sizes.members then
        Eval.failAt pos (.tooLarge "Size of object map")
      else Pure.pure ()) := by
    intro sizes
    split
    · exact .failAt _ _
    split
    · exact .failAt _ _
    split
    · exact .failAt _ _
    · exact .pure _
  cases v with
  | text _ => exact hsizes _
  | array _ => exact hsizes _
  | map _ => exact hsizes _
  | _ => exact .pure _

theorem operator (ctx : Context) (pos : Position) (symbol : String) (args : List Value)
    (result : Option (Except Fault Value)) :
    Notes host limits plain (Eval.operator ctx pos symbol args result) := by
  cases result with
  | none => exact .missingFunction _ _ _
  | some result =>
      refine .bind (.ofFault pos result) fun value => ?_
      exact .bind (.checkSize _ _ _) fun _ => .pure _

theorem binary (ctx : Context) (op : BinaryOp) (pos : Position) (left right : Value) :
    Notes host limits plain (Eval.binary ctx op pos left right) :=
  .operator _ _ _ _ _

theorem compound (ctx : Context) (op : BinaryOp) (pos : Position) (before v : Value) :
    Notes host limits plain (Eval.compound ctx op pos before v) := by
  unfold Eval.compound
  split
  · exact .bind (.checkSize _ _ _) fun _ => .pure _
  · exact .bind (.checkSize _ _ _) fun _ => .pure _
  · exact .binary _ _ _ _ _

theorem changed (ctx : Context) (op : Option BinaryOp) (pos : Position) (before value : Value) :
    Notes host limits plain (Eval.changed ctx op pos before value) := by
  cases op with
  | none => exact .pure _
  | some op => exact .compound _ _ _ _ _

theorem capture (captured : List (String × Position)) :
    Notes host limits plain (Eval.capture captured) := by
  induction captured with
  | nil => exact .pure _
  | cons entry rest ih =>
      obtain ⟨name, pos⟩ := entry
      refine .get_bind fun run result last hrun => ?_
      cases hfound : run.lookup? name with
      | none =>
          rw [hfound] at hrun
          exact Notes.failAt pos _ run result last hrun
      | some found =>
          rw [hfound] at hrun
          have hrest : Notes host limits plain
              (do return (run.share found).2 :: (← Eval.capture rest)) :=
            .bind ih fun _ => .pure _
          rw [← share_hostFailure run found]
          exact hrest (run.share found).1 result last hrun

theorem native (ctx : Context) (name : String) (args : List Value) (fixed : Bool)
    (pos : Position) : Notes host limits plain (Eval.plain ctx name args fixed pos) := by
  unfold Eval.plain
  dsimp only
  split
  · split
    · exact .failAt _ _
    · refine .bind (.ofFault _ _) fun changed => ?_
      refine .bind (.checkSize _ _ _) fun _ => ?_
      exact .bind (.checkSize _ _ _) fun _ => .pure _
  · split
    · exact .missingFunction _ _ _
    · refine .bind (.ofFault _ _) fun result => ?_
      have hresult : Notes host limits plain (do
          Eval.checkSize ctx pos result
          return (result, (none : Option Value))) :=
        .bind (.checkSize _ _ _) fun _ => .pure _
      cases args with
      | nil => exact hresult
      | cons target rest => exact .bind (.checkSize _ _ _) fun _ => hresult

theorem report {failure : Failure} {report : ScriptError} (h : IsReport host limits report) :
    Notes host limits plain (do
      modify fun run => { run with hostFailure := some report }
      throw (.failure failure (some report)) : Eval α) := by
  intro run result last hrun
  cases hrun
  exact {
    genuine := .inr ⟨report, rfl, h⟩
    ended := fun other hother => by
      cases hother
      exact ⟨h, Option.some_ne_none report⟩
    agrees := fun _ => rfl }

theorem callHost {ctx : Context} {module : String} {provider : HostProvider}
    {function : HostFunction} (hmodule : ctx.host.module? module = some provider)
    (hfunction : function ∈ provider.functions) (args : List Value) (pos : Position) :
    Notes ctx.host ctx.limits plain (Eval.callHost ctx module function args pos) := by
  unfold Eval.callHost
  dsimp only
  cases args.mapM Value.toJson with
  | error description => exact .of_quiet fun _ => ⟨rfl, rfl⟩
  | ok stored =>
      refine .bind (.pure _) fun stored => ?_
      split
      case h_1 hreport => exact .report ⟨_, _, _, _, hmodule, hfunction, hreport⟩
      case h_2 => exact .bind (.checkSize _ _ _) fun _ => .pure _
      case h_3 => exact .failAt _ _

theorem callInModule (ctx : Context) (path : List String) (name : String) (args : List Value)
    (pathPos pos : Position) :
    Notes ctx.host ctx.limits plain (Eval.callInModule ctx path name args pathPos pos) := by
  unfold Eval.callInModule
  dsimp only
  split
  case h_1 => exact .failAt _ _
  case h_2 provider hprovider =>
    split
    case h_1 module function hfunction =>
      have hoffered := provider.installed_subset (List.mem_of_find?_eq_some hfunction)
      exact .callHost hprovider hoffered _ _
    case h_2 => exact .missingFunction _ _ _

end Notes

end

end FormDerivation.Script
