import FormDerivation.Proofs.Derivation.ScriptGlobals

/-!
# Turns of scripts

`FormEngine.scriptTurns` lists the scripts that a derivation evaluates with the engines that run
them.  The list is complete: the scripts of a walk end as they are left by its turns, one after the
other (`Walk.Takes.visit`).  Every script sees the values, the row and the element of its place, and
a walk that makes all of them known before every step ends in the same state
(`FormEngine.derive_scripts_informed`).
-/

namespace FormDerivation

/-- A script whose turn has come: its place, the state at that point and the engine that runs it. -/
structure ScriptTurn where
  site : Site
  code : String
  state : FormState
  engine : ScriptEngine

namespace ScriptTurn

/-- A script sees the values of the state, those of its row without their prefix, and its place. -/
structure Informed (turn : ScriptTurn) : Prop where
  data : turn.engine.constant? "data" = some (.ofJson (.ofMap turn.state.values))
  row : ∃ row : KeyMap Json, turn.engine.constant? "row" = some (.ofJson (.ofMap row)) ∧
    ∀ name, row.get? name = turn.site.scope.bind fun scope =>
      turn.state.values.get? (scope ++ "_" ++ name)
  element : turn.engine.constant? "element" = some (.map [("id", .text turn.site.id),
    ("key", .text turn.site.key), ("prefix", (turn.site.scope.map .text).getD .unit)])

/-- Each script is run by the engine that the one before it has left, with what it has to see. -/
def Threaded (scripts : ScriptEngine) : List ScriptTurn → ScriptEngine → Prop
  | [], last => last = scripts
  | turn :: rest, last =>
    turn.engine = scripts.furnished turn.state.values turn.site ∧
      Threaded (turn.engine.evaluate turn.code).2 rest last

theorem Threaded.append {scripts between last : ScriptEngine} {turns rest : List ScriptTurn}
    (h : Threaded scripts turns between) (hrest : Threaded between rest last) :
    Threaded scripts (turns ++ rest) last := by
  induction turns generalizing scripts with
  | nil =>
      cases h
      exact hrest
  | cons turn turns ih => exact ⟨h.1, ih h.2⟩

theorem informed_of_furnished {turn : ScriptTurn} {scripts : ScriptEngine}
    (h : turn.engine = scripts.furnished turn.state.values turn.site) : turn.Informed := by
  have hconstant : ∀ name, turn.engine.constant? name =
      (scripts.furnished turn.state.values turn.site).globals.get? name := by
    intro name
    rw [h, ScriptEngine.constant?_eq]
  constructor
  · simp [hconstant, ScriptEngine.furnished]
  · refine ⟨Walk.row turn.state.values turn.site.scope, ?_, Walk.get?_row _ _⟩
    simp [hconstant, ScriptEngine.furnished]
  · rw [hconstant]
    simp only [ScriptEngine.furnished, KeyMap.get?_insert_self, Walk.siteToJson_eq]
    cases turn.site.scope <;> rfl

theorem Threaded.informed {scripts last : ScriptEngine} {turns : List ScriptTurn}
    (h : Threaded scripts turns last) : ∀ turn ∈ turns, turn.Informed := by
  induction turns generalizing scripts with
  | nil => simp
  | cons turn turns ih =>
      rw [List.forall_mem_cons]
      exact ⟨informed_of_furnished h.1, ih h.2⟩

end ScriptTurn

namespace Walk

section Listing

variable (setting : WalkSetting)

def turnsAfter {α : Type} (part : WalkM α) (next : α → Walk → List ScriptTurn) (walk : Walk) :
    List ScriptTurn :=
  match part.run walk with
  | .ok (a, walk) => next a walk
  | .error _ => []

def expressionTurns (site : Site) (e : Option Expression) (walk : Walk) : List ScriptTurn :=
  match e with
  | some (.script code) =>
    match walk.publish site with
    | .ok published => [⟨site, code, walk.state, published.scripts⟩]
    | .error _ => []
  | _ => []

def validateTurns (site : Site) (field : FieldTraits) (walk : Walk) : List ScriptTurn :=
  match field.check (walk.state.values.get? site.key) with
  | some _ => []
  | none => expressionTurns site field.validation walk

def answerTurns (site : Site) (visible : Bool) (effective : Element) (walk : Walk) :
    List ScriptTurn :=
  match visible, effective with
  | true, .field _ field =>
    expressionTurns site field.compute walk ++
      turnsAfter (compute setting site field) (fun _ => validateTurns site field) walk
  | _, _ => []

def enterTurns (scope : Option String) (e : Element) (walk : Walk) : List ScriptTurn :=
  let site : Site := ⟨e.id, scope⟩
  expressionTurns site e.attributes.patch walk ++ turnsAfter (patch setting site e) (fun replaced =>
    let effective := replaced.getD e
    fun walk => expressionTurns site effective.attributes.visibility walk ++
      turnsAfter (visibility setting site effective) (fun visible walk =>
        answerTurns setting site visible effective (markVisibility site.key visible walk)) walk) walk

def scopeTurns (part : Option String → WalkM Unit)
    (inner : Option String → Walk → List ScriptTurn) :
    List (Option String) → Walk → List ScriptTurn
  | [], _ => []
  | scope :: rest, walk =>
    inner scope walk ++ turnsAfter (part scope) (fun _ => scopeTurns part inner rest) walk

mutual

def turnsFrom (scope : Option String) : Element → Walk → List ScriptTurn
  | .container attributes kind children, walk =>
    let e : Element := .container attributes kind children
    enterTurns setting scope e walk ++ turnsAfter (enter setting scope e) (fun visible entered =>
      if visible then
        scopeTurns (fun scope => visitAll setting scope children)
          (fun scope => turnsFromAll scope children)
          (scopesBelow setting scope attributes.id entered kind)
          (spread setting scope attributes.id entered kind)
      else []) walk
  | .field attributes traits, walk => enterTurns setting scope (.field attributes traits) walk
  | .content attributes text, walk => enterTurns setting scope (.content attributes text) walk

def turnsFromAll (scope : Option String) : List Element → Walk → List ScriptTurn
  | [], _ => []
  | e :: rest, walk =>
    turnsFrom scope e walk ++ turnsAfter (visit setting scope e) (fun _ => turnsFromAll scope rest) walk

end

end Listing

theorem foldl_addEntry_scripts (entries : List (String × Json)) (walk : Walk) :
    (entries.foldl addEntry walk).scripts = walk.scripts := by
  induction entries generalizing walk with
  | nil => rfl
  | cons entry entries ih =>
      rw [List.foldl_cons, ih]
      unfold addEntry
      split <;> rfl

theorem spread_scripts (setting : WalkSetting) (scope : Option String) (id : String)
    (kind : Container) (walk : Walk) :
    (spread setting scope id walk kind).scripts = walk.scripts := by
  cases kind with
  | repeating bounds =>
      simp only [spread, recordCount, expandRows]
      split
      · exact foldl_addEntry_scripts _ walk
      · rfl
  | _ => rfl

/-! ## Turns of a part of a walk -/

/-- The turns that a part of a walk takes: it leaves the scripts as they do, also if it stops. -/
def Takes {α : Type} (part : WalkM α) (turns : Walk → List ScriptTurn) : Prop :=
  ∀ walk : Walk, walk.Fresh → ∃ scripts, ScriptTurn.Threaded walk.scripts (turns walk) scripts ∧
    ∀ a walk', part.run walk = .ok (a, walk') → walk'.scripts = scripts ∧ walk'.Fresh

namespace Takes

variable {α β : Type} {part : WalkM α} {turns : Walk → List ScriptTurn}

theorem pure (a : α) : Takes (pure a) fun _ => [] := by
  intro walk hfresh
  refine ⟨walk.scripts, rfl, ?_⟩
  rintro _ _ hrun
  cases hrun
  exact ⟨rfl, hfresh⟩

theorem throw (error : DerivationError) : Takes (throw error : WalkM α) fun _ => [] := by
  intro walk _
  refine ⟨walk.scripts, rfl, ?_⟩
  rintro _ _ hrun
  cases hrun

theorem changed {change : Walk → Walk} (hscripts : ∀ walk, (change walk).scripts = walk.scripts)
    (hfresh : ∀ walk : Walk, walk.Fresh → (change walk).Fresh) :
    Takes (modify change : WalkM Unit) fun _ => [] := by
  intro walk h
  refine ⟨walk.scripts, rfl, ?_⟩
  rintro _ _ hrun
  cases hrun
  exact ⟨hscripts walk, hfresh walk h⟩

theorem bind {next : α → WalkM β} {following : α → Walk → List ScriptTurn}
    (h : Takes part turns) (hnext : ∀ a, Takes (next a) (following a)) :
    Takes (part >>= next) fun walk => turns walk ++ turnsAfter part following walk := by
  intro walk hfresh
  obtain ⟨scripts, hthreaded, hpart⟩ := h walk hfresh
  cases hrun : part.run walk with
  | error error =>
      refine ⟨scripts, ?_, ?_⟩
      · simpa [turnsAfter, hrun] using hthreaded
      · intro b walk' hrun'
        rw [run_bind_of_error hrun] at hrun'
        cases hrun'
  | ok result =>
      obtain ⟨a, between⟩ := result
      obtain ⟨rfl, hbetween⟩ := hpart a between hrun
      obtain ⟨last, hfollowing, hend⟩ := hnext a between hbetween
      refine ⟨last, ?_, ?_⟩
      · simp only [turnsAfter, hrun]
        exact hthreaded.append hfollowing
      · intro b walk' hrun'
        rw [run_bind_of_ok hrun] at hrun'
        exact hend b walk' hrun'

theorem followed {next : α → WalkM β} (h : Takes part turns)
    (hnext : ∀ a, Takes (next a) fun _ => []) : Takes (part >>= next) turns := by
  have hnone : ∀ walk, turnsAfter part (fun _ _ => []) walk = [] := by
    intro walk
    unfold turnsAfter
    split <;> rfl
  simpa [hnone] using h.bind hnext

section Steps

variable {setting : WalkSetting} {site : Site}

theorem value (setting : WalkSetting) (site : Site) (e : Expression) :
    Takes (value setting site e) (expressionTurns site (some e)) := by
  intro walk hfresh
  cases e with
  | formula formula => exact pure _ walk hfresh
  | script code =>
      have hturns : expressionTurns site (some (.script code)) walk =
          [⟨site, code, walk.state, walk.scripts.furnished walk.state.values site⟩] := by
        simp only [expressionTurns, publish_eq hfresh]
      rw [hturns]
      refine ⟨_, ⟨rfl, rfl⟩, ?_⟩
      rintro _ walk' hrun
      rw [value_run, evaluate_script setting hfresh] at hrun
      cases hrun
      refine ⟨rfl, fun _ => ?_⟩
      rw [ScriptEngine.evaluate_globals]
      simp [ScriptEngine.furnished]
  | malformed raw reason => exact pure _ walk hfresh

theorem record {change : Walk → Walk} (hscripts : ∀ walk, (change walk).scripts = walk.scripts)
    (hstale : ∀ walk, (change walk).stale = walk.stale)
    (hvalues : ∀ walk, (change walk).state.values = walk.state.values) :
    Takes (modify change : WalkM Unit) fun _ => [] := by
  refine changed hscripts fun walk hfresh => ?_
  intro h
  rw [hscripts, hvalues]
  exact hfresh (hstale walk ▸ h)

theorem settle {α : Type} (step : DerivationStep) (result : Except ExpressionError α)
    (fallback : α) : Takes (settle setting site step result fallback) fun _ => [] := by
  unfold Walk.settle
  cases result with
  | ok a => exact pure a
  | error cause =>
      cases setting.config.failurePolicy with
      | abort => exact throw _
      | degrade =>
          have hrecord : Takes (modify (recordFailure site step cause)) fun _ => [] :=
            record (fun _ => rfl) (fun _ => rfl) fun _ => rfl
          exact hrecord.followed fun _ => pure fallback

theorem patch (e : Element) :
    Takes (patch setting site e) (expressionTurns site e.attributes.patch) := by
  unfold Walk.patch
  cases e.attributes.patch with
  | none => exact pure none
  | some expression =>
      refine (value setting site expression).followed fun result => ?_
      refine (settle .patch result .null).followed fun overlay => ?_
      cases overlay.object? with
      | none => exact pure none
      | some members =>
          refine followed ?_ fun _ => pure _
          exact record (fun _ => rfl) (fun _ => rfl) fun _ => rfl

theorem visibility (e : Element) :
    Takes (visibility setting site e) (expressionTurns site e.attributes.visibility) := by
  unfold Walk.visibility
  cases e.attributes.visibility with
  | none => exact pure true
  | some expression =>
      exact (value setting site expression).followed fun result => settle .visibility _ false

theorem valueSet (key : String) (v : Json) :
    Takes (modify (setValue key v) : WalkM Unit) fun _ => [] :=
  changed (fun _ => rfl) fun _ _ => fresh_of_stale rfl

theorem compute (field : FieldTraits) :
    Takes (compute setting site field) (expressionTurns site field.compute) := by
  unfold Walk.compute
  cases field.compute with
  | none => exact pure ()
  | some expression =>
      refine (value setting site expression).followed fun result => ?_
      refine (settle .compute _ none).followed fun v => ?_
      cases v with
      | none => exact pure ()
      | some v => exact valueSet _ v

theorem recordViolation (violation : Option Violation) :
    Takes (recordViolation site violation) fun _ => [] := by
  cases violation with
  | none => exact pure ()
  | some violation => exact record (fun _ => rfl) (fun _ => rfl) fun _ => rfl

theorem violation? (field : FieldTraits) (e : Expression) :
    Takes (violation? setting site field e) (expressionTurns site (some e)) := by
  unfold Walk.violation?
  refine (value setting site e).followed fun result => ?_
  cases result with
  | ok result => exact pure _
  | error error =>
      refine followed ?_ fun _ => pure _
      exact record (fun _ => rfl) (fun _ => rfl) fun _ => rfl

theorem findViolation (field : FieldTraits) :
    Takes (findViolation setting site field) (validateTurns site field) := by
  intro walk hfresh
  unfold Walk.findViolation validateTurns
  rw [run_get_bind]
  cases field.check (walk.state.values.get? site.key) with
  | some violation => exact pure _ walk hfresh
  | none =>
      cases field.validation with
      | none => exact pure _ walk hfresh
      | some e => exact violation? field e walk hfresh

theorem answer (visible : Bool) (e : Element) :
    Takes (answer setting site visible e) (answerTurns setting site visible e) := by
  cases visible with
  | false => exact pure ()
  | true =>
      cases e with
      | field attributes traits =>
          refine (compute traits).bind fun _ => ?_
          rw [validate_eq]
          exact (findViolation traits).followed fun violation => recordViolation violation
      | _ => exact pure ()

theorem enter (scope : Option String) (e : Element) :
    Takes (enter setting scope e) (enterTurns setting scope e) := by
  rw [enter_eq]
  refine (patch e).bind fun replaced => (visibility _).bind fun visible => ?_
  have hmark : Takes (modify (markVisibility (scopedKey scope e.id) visible)) fun _ => [] :=
    record (fun _ => rfl) (fun _ => rfl) fun _ => rfl
  exact hmark.bind fun _ => (answer visible _).followed fun _ => pure visible

end Steps

/-! ## Turns of a visit -/

section Visit

variable {setting : WalkSetting}

theorem forM_scopes {inner : Option String → WalkM Unit}
    {turns : Option String → Walk → List ScriptTurn} (h : ∀ scope, Takes (inner scope) (turns scope))
    (scopes : List (Option String)) :
    Takes (forM scopes inner) (scopeTurns inner turns scopes) := by
  induction scopes with
  | nil => exact pure ()
  | cons scope rest ih =>
      rw [List.forM_cons]
      exact (h scope).bind fun _ => ih

theorem forM_quiet {inner : Option String → WalkM Unit}
    (h : ∀ scope, Takes (inner scope) fun _ => []) (scopes : List (Option String)) :
    Takes (forM scopes inner) fun _ => [] := by
  induction scopes with
  | nil => exact pure ()
  | cons scope rest ih =>
      rw [List.forM_cons]
      exact (h scope).followed fun _ => ih

theorem within {inner : Option String → WalkM Unit} {turns : Option String → Walk → List ScriptTurn}
    (h : ∀ scope, Takes (inner scope) (turns scope)) (scope : Option String) (id : String)
    (kind : Container) :
    Takes (visitWithin setting scope id kind inner) fun walk =>
      scopeTurns inner turns (scopesBelow setting scope id walk kind)
        (spread setting scope id walk kind) := by
  intro walk hfresh
  have hspread := ((congruent_sameButStale setting).spread hfresh.sameButStale scope id kind).fresh
  obtain ⟨scripts, hthreaded, hend⟩ := forM_scopes h (scopesBelow setting scope id walk kind) _ hspread
  rw [spread_scripts] at hthreaded
  refine ⟨scripts, hthreaded, fun a walk' hrun => ?_⟩
  rw [visitWithin_run] at hrun
  exact hend a walk' hrun

theorem hidden {inner : Option String → WalkM Unit} (h : ∀ scope, Takes (inner scope) fun _ => [])
    (scope : Option String) (id : String) (kind : Container) :
    Takes (hideWithin setting scope id kind inner) fun _ => [] := by
  intro walk hfresh
  obtain ⟨scripts, hthreaded, hend⟩ := forM_quiet h (scopesBelow setting scope id walk kind) _ hfresh
  refine ⟨scripts, hthreaded, fun a walk' hrun => ?_⟩
  rw [hideWithin_run] at hrun
  exact hend a walk' hrun

theorem marked (key : String) (visible : Bool) :
    Takes (modify (markVisibility key visible)) fun _ => [] :=
  record (fun _ => rfl) (fun _ => rfl) fun _ => rfl

mutual

theorem hide (scope : Option String) : (e : Element) → Takes (hide setting scope e) fun _ => []
  | .container attributes kind children => by
      rw [Walk.hide]
      exact (marked _ false).followed fun _ =>
        hidden (fun inner => hideAll inner children) scope attributes.id kind
  | .field attributes traits => by
      rw [Walk.hide]
      exact marked _ false
  | .content attributes text => by
      rw [Walk.hide]
      exact marked _ false

theorem hideAll (scope : Option String) : (es : List Element) →
    Takes (hideAll setting scope es) fun _ => []
  | [] => pure ()
  | e :: rest => by
      rw [Walk.hideAll]
      exact (hide scope e).followed fun _ => hideAll scope rest

end

mutual

theorem visit (scope : Option String) : (e : Element) →
    Takes (visit setting scope e) (turnsFrom setting scope e)
  | .container attributes kind children => by
      rw [Walk.visit]
      refine (enter scope (.container attributes kind children)).bind fun visible => ?_
      cases visible with
      | true => exact within (fun inner => visitAll inner children) scope attributes.id kind
      | false => exact hidden (fun inner => hideAll inner children) scope attributes.id kind
  | .field attributes traits => by
      rw [Walk.visit]
      exact (enter scope _).followed fun _ => pure ()
  | .content attributes text => by
      rw [Walk.visit]
      exact (enter scope _).followed fun _ => pure ()

theorem visitAll (scope : Option String) : (es : List Element) →
    Takes (visitAll setting scope es) (turnsFromAll setting scope es)
  | [] => pure ()
  | e :: rest => by
      rw [Walk.visitAll]
      exact (visit scope e).bind fun _ => visitAll scope rest

end

end Visit

end Takes

/-! ## Making everything known anew -/

section Anew

variable (setting : WalkSetting)

/-- Marks the values that scripts know as stale, so that the next script makes them known again. -/
def outdate : WalkM Unit :=
  modify fun walk => { walk with stale := true }

theorem publish_outdated (walk : Walk) (site : Site) :
    ({ walk with stale := true } : Walk).publish site = .ok { walk with
      scripts := walk.scripts.furnished walk.state.values site
      stale := false } :=
  publish_eq (fresh_of_stale rfl) site

def answerAnew (site : Site) (visible : Bool) (effective : Element) : WalkM Unit := do
  match visible, effective with
  | true, .field _ field =>
    outdate
    compute setting site field
    outdate
    validate setting site field
  | _, _ => pure ()

def enterAsAnew (scope : Option String) (id : String) (effective : Element) : WalkM Bool := do
  outdate
  let visible ← visibility setting ⟨id, scope⟩ effective
  modify (markVisibility (scopedKey scope id) visible)
  answerAnew setting ⟨id, scope⟩ visible effective
  return visible

def enterAnew (scope : Option String) (e : Element) : WalkM Bool := do
  outdate
  let replaced ← patch setting ⟨e.id, scope⟩ e
  enterAsAnew setting scope e.id (replaced.getD e)

mutual

def visitAnew (scope : Option String) : Element → WalkM Unit
  | .container attributes kind children => do
    if ← enterAnew setting scope (.container attributes kind children) then
      visitWithin setting scope attributes.id kind fun scope => visitAllAnew scope children
    else hideWithin setting scope attributes.id kind fun scope => hideAll setting scope children
  | .field attributes field => discard (enterAnew setting scope (.field attributes field))
  | .content attributes text => discard (enterAnew setting scope (.content attributes text))

def visitAllAnew (scope : Option String) : List Element → WalkM Unit
  | [] => return
  | e :: rest => do
    visitAnew scope e
    visitAllAnew scope rest

end

theorem lockstep_outdate {α : Type} {part part' : WalkM α} (h : Lockstep SameButStale part part') :
    Lockstep SameButStale part (outdate >>= fun _ => part') :=
  fun walk walk' hsame => h walk { walk' with stale := true } hsame.outdated

theorem lockstep_answerAnew (site : Site) (visible : Bool) (e : Element) :
    Lockstep SameButStale (answer setting site visible e) (answerAnew setting site visible e) := by
  have hcongruent := congruent_sameButStale setting
  cases visible with
  | false => exact .pure ()
  | true =>
      cases e with
      | field attributes traits =>
          refine lockstep_outdate ((hcongruent.compute traits).bind fun _ => ?_)
          exact lockstep_outdate (hcongruent.validate traits)
      | _ => exact .pure ()

theorem lockstep_enterAnew (scope : Option String) (e : Element) :
    Lockstep SameButStale (enter setting scope e) (enterAnew setting scope e) := by
  have hcongruent := congruent_sameButStale setting
  rw [enter_eq_enterAs]
  -- A patch leaves the same element in both walks, so the relation of elements is equality.
  refine lockstep_outdate (hcongruent.patch_bind (hcongruent.twins e) ?_)
  rintro x _ rfl
  refine lockstep_outdate ((hcongruent.visibility rfl).bind fun visible => ?_)
  refine Lockstep.bind ?_ fun _ => ?_
  · exact .modify fun _ _ hsame => hcongruent.markVisibility visible hsame trivial
  · exact (lockstep_answerAnew setting _ visible x).bind fun _ => .pure visible

mutual

theorem lockstep_visitAnew (scope : Option String) : (e : Element) →
    Lockstep SameButStale (visit setting scope e) (visitAnew setting scope e)
  | .container attributes kind children => by
      have hcongruent := congruent_sameButStale setting
      rw [visit, visitAnew]
      refine (lockstep_enterAnew setting scope _).bind fun visible => ?_
      cases visible with
      | true =>
          exact (hcongruent.scopes (fun inner => lockstep_visitAllAnew inner children) scope
            attributes.id kind).1
      | false =>
          exact (hcongruent.scopes (fun inner => hcongruent.hideAll inner children) scope
            attributes.id kind).2
  | .field attributes traits => by
      rw [visit, visitAnew]
      exact (lockstep_enterAnew setting scope _).bind fun _ => .pure ()
  | .content attributes text => by
      rw [visit, visitAnew]
      exact (lockstep_enterAnew setting scope _).bind fun _ => .pure ()

theorem lockstep_visitAllAnew (scope : Option String) : (es : List Element) →
    Lockstep SameButStale (visitAll setting scope es) (visitAllAnew setting scope es)
  | [] => by
      rw [visitAll, visitAllAnew]
      exact .pure ()
  | e :: rest => by
      rw [visitAll, visitAllAnew]
      exact (lockstep_visitAnew scope e).bind fun _ => lockstep_visitAllAnew scope rest

end

end Anew

end Walk

/-! ## Derivations -/

namespace FormEngine

def scriptTurns (engine : FormEngine) (tree : Element) (inputs globals : KeyMap Json) :
    List ScriptTurn :=
  match prepare (.fresh engine.host engine.config.script) globals.toList with
  | .error _ => []
  | .ok scripts => Walk.turnsFrom ⟨engine.operators, engine.config⟩ none tree (.start scripts inputs)

/-- `derive` with everything made known to scripts before each of them. -/
def deriveAnew (engine : FormEngine) (tree : Element) (inputs globals : KeyMap Json) :
    Except DerivationError FormState :=
  match prepare (.fresh engine.host engine.config.script) globals.toList with
  | .error error => .error ⟨tree.id, .prepare, .script error⟩
  | .ok scripts =>
    match (Walk.visitAnew ⟨engine.operators, engine.config⟩ none tree).run
        (.start scripts inputs) with
    | .error error => .error error
    | .ok (_, walk) => .ok walk.state

theorem deriveAnew_eq (engine : FormEngine) (tree : Element) (inputs globals : KeyMap Json) :
    engine.deriveAnew tree inputs globals = engine.derive tree inputs globals := by
  unfold deriveAnew derive
  cases prepare (.fresh engine.host engine.config.script) globals.toList with
  | error error => rfl
  | ok scripts =>
      have hstart : (Walk.start scripts inputs).Fresh := Walk.fresh_of_stale rfl
      have hmatched := Walk.lockstep_visitAnew ⟨engine.operators, engine.config⟩ none tree _ _
        hstart.sameButStale
      rcases hmatched.error_or_ok with
        ⟨error, hrun, hrun'⟩ | ⟨_, walk, walk', hrun, hrun', hsame⟩
      · simp only [hrun, hrun']
      · simp only [hrun, hrun', hsame.state]

theorem scriptTurns_threaded {engine : FormEngine} {tree : Element} {inputs globals : KeyMap Json}
    {scripts : ScriptEngine} {walk : Walk}
    (h : prepare (.fresh engine.host engine.config.script) globals.toList = .ok scripts)
    (hvisit : (Walk.visit ⟨engine.operators, engine.config⟩ none tree).run (.start scripts inputs) =
      .ok ((), walk)) :
    ScriptTurn.Threaded scripts (engine.scriptTurns tree inputs globals) walk.scripts := by
  have hstart : (Walk.start scripts inputs).Fresh := Walk.fresh_of_stale rfl
  obtain ⟨last, hthreaded, hend⟩ := Walk.Takes.visit none tree _ hstart
  obtain ⟨rfl, -⟩ := hend () walk hvisit
  unfold scriptTurns
  rw [h]
  exact hthreaded

theorem scriptTurns_informed (engine : FormEngine) (tree : Element) (inputs globals : KeyMap Json) :
    ∀ turn ∈ engine.scriptTurns tree inputs globals, turn.Informed := by
  unfold scriptTurns
  cases prepare (.fresh engine.host engine.config.script) globals.toList with
  | error error => simp
  | ok scripts =>
      have hstart : (Walk.start scripts inputs).Fresh := Walk.fresh_of_stale rfl
      obtain ⟨last, hthreaded, -⟩ := Walk.Takes.visit none tree _ hstart
      exact hthreaded.informed

/--
Every script of a derivation sees the values, the row and the element of its place, whatever the
globals of the caller are, and it would make no difference to make them known before every script.
The first clause says that no script is missing: the scripts of the walk pass through all turns; the
last one, that all three are registered where they are marked as stale, as `deriveAnew` does.
-/
theorem derive_scripts_informed (engine : FormEngine) (tree : Element)
    (inputs globals : KeyMap Json) :
    (∀ scripts walk, prepare (.fresh engine.host engine.config.script) globals.toList = .ok scripts →
      (Walk.visit ⟨engine.operators, engine.config⟩ none tree).run (.start scripts inputs) =
        .ok ((), walk) →
      ScriptTurn.Threaded scripts (engine.scriptTurns tree inputs globals) walk.scripts) ∧
    (∀ turn ∈ engine.scriptTurns tree inputs globals, turn.Informed) ∧
    engine.deriveAnew tree inputs globals = engine.derive tree inputs globals ∧
    ∀ (walk : Walk) (site : Site), ({ walk with stale := true } : Walk).publish site =
      .ok { walk with
        scripts := walk.scripts.furnished walk.state.values site
        stale := false } := by
  refine ⟨?_, scriptTurns_informed engine tree inputs globals,
    deriveAnew_eq engine tree inputs globals, Walk.publish_outdated⟩
  intro scripts walk h hvisit
  exact scriptTurns_threaded h hvisit

theorem derive_scripts_informed_greeting :
    let engine : FormEngine := ⟨⟨.ofList [("logic.not", Operator.notOperator)]⟩, .empty, {}⟩
    let computed (e : Expression) : FieldTraits := ⟨.text, false, none, none, none, some e⟩
    let tree : Element := .container ⟨"form", "", none, none, none⟩ .group [
      .field ⟨"formal", "", none, none, none⟩
        (computed (.formula (.apply "logic.not" [.constant (.bool false)]))),
      .container ⟨"people", "", none, none, none⟩ (.repeating ⟨0, none⟩) [
        .field ⟨"greeting", "", none, none, none⟩
          (computed (.script "if data.formal { row.name } else { () }"))]]
    let inputs : KeyMap Json := .ofList [("people", .array [.object [("name", .string "Ada")]])]
    let globals : KeyMap Json := .ofList [("data", .null)]
    ∃ turn ∈ engine.scriptTurns tree inputs globals,
      turn.site = ⟨"greeting", some "people_0"⟩ ∧
      turn.state.values.keys = ["formal", "people", "people_0_name"] ∧ turn.Informed := by
  intro engine computed tree inputs globals
  have hturns : (engine.scriptTurns tree inputs globals).map
      (fun turn => (turn.site, turn.state.values.keys)) =
        [(⟨"greeting", some "people_0"⟩, ["formal", "people", "people_0_name"])] := by
    decide +kernel +zetaReduce
  obtain ⟨turn, hturn, hseen⟩ := List.exists_of_mem_map (hturns ▸ List.mem_singleton_self _)
  obtain ⟨hsite, hkeys⟩ := Prod.mk.inj hseen
  have hinformed := (derive_scripts_informed engine tree inputs globals).2.1 turn hturn
  exact ⟨turn, hturn, hsite, hkeys, hinformed⟩

end FormEngine

end FormDerivation
