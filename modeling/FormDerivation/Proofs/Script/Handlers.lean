import FormDerivation.Proofs.Script.Notes

/-!
# The note along a run

`EvaluatorNotes` gathers what the functions of the evaluator do to the note of the last failing
host call, for one number of steps.  Each function is taken one step further by a lemma of its own;
the induction on the number of steps is `evaluator_notes`.  The one function that needs more than
the closure of `Notes` is `attempt`, which a program without handlers never comes to.
-/

namespace FormDerivation.Script

/-! ## Programs without handlers -/

mutual

def Expr.tryless : Expr → Bool
  | .template parts _ => Expr.trylessAll parts
  | .array items _ => Expr.trylessAll items
  | .map members _ => Expr.trylessMembers members
  | .unary _ operand _ => operand.tryless
  | .binary _ left right _ => left.tryless && right.tryless
  | .both left right _ => left.tryless && right.tryless
  | .either left right _ => left.tryless && right.tryless
  | .orElse left right _ => left.tryless && right.tryless
  | .call _ args _ => Expr.trylessAll args
  | .moduleCall _ _ args _ _ => Expr.trylessAll args
  | .access root links _ => root.tryless && Link.trylessAll links
  | .statement body _ => body.tryless
  | _ => true

def Expr.trylessAll : List Expr → Bool
  | [] => true
  | e :: rest => e.tryless && Expr.trylessAll rest

def Expr.trylessMembers : List (String × Expr) → Bool
  | [] => true
  | (_, e) :: rest => e.tryless && Expr.trylessMembers rest

def Expr.trylessOptional : Option Expr → Bool
  | none => true
  | some e => e.tryless

def Link.tryless : Link → Bool
  | .property _ _ _ => true
  | .index index _ _ => index.tryless
  | .method _ args _ _ => Expr.trylessAll args

def Link.trylessAll : List Link → Bool
  | [] => true
  | link :: rest => link.tryless && Link.trylessAll rest

def Stmt.tryless : Stmt → Bool
  | .expr e => e.tryless
  | .declare _ value _ => Expr.trylessOptional value
  | .assign target _ value _ => target.tryless && value.tryless
  | .block body => Stmt.trylessAll body
  | .branch condition body otherwise =>
    condition.tryless && Stmt.trylessAll body && Stmt.trylessAll otherwise
  | .switch subject cases otherwise =>
    subject.tryless && Case.trylessAll cases && Expr.trylessOptional otherwise
  | .loopWhile condition body => Expr.trylessOptional condition && Stmt.trylessAll body
  | .loopUntil body condition _ => Stmt.trylessAll body && condition.tryless
  | .forEach _ _ items body => items.tryless && Stmt.trylessAll body
  | .attempt _ _ _ => false
  | .leave value => Expr.trylessOptional value
  | .again => true
  | .answer value => Expr.trylessOptional value
  | .throwValue value _ => Expr.trylessOptional value
  | .importModule path => path.tryless
  | .exportName _ _ => true

def Stmt.trylessAll : List Stmt → Bool
  | [] => true
  | s :: rest => s.tryless && Stmt.trylessAll rest

def Case.tryless : Case → Bool
  | .mk _ _ guard result => Expr.trylessOptional guard && result.tryless

def Case.trylessAll : List Case → Bool
  | [] => true
  | c :: rest => c.tryless && Case.trylessAll rest

end

/-- A script that has no `try`, neither in its statements nor in its functions. -/
def Program.tryless (program : Program) : Bool :=
  Stmt.trylessAll program.body && program.functions.all fun f => Stmt.trylessAll f.body

theorem Program.tryless_function {program : Program} (h : program.tryless = true) {f : Function}
    {name : String} {arity : Nat} (hfound : program.function? name arity = some f) :
    Stmt.trylessAll f.body = true := by
  rw [tryless, Bool.and_eq_true, List.all_eq_true] at h
  exact h.2 f (List.mem_of_find?_eq_some hfound)

theorem Case.trylessAll_eq (cases : List Case) :
    Case.trylessAll cases = cases.all Case.tryless := by
  induction cases with
  | nil => rfl
  | cons c rest ih => rw [trylessAll, ih, List.all_cons]

theorem Case.fitting_subset (v : Value) (cases : List Case) : Case.fitting v cases ⊆ cases := by
  intro c hc
  rw [fitting] at hc
  split at hc
  · exact (List.mem_filter.mp hc).1
  · exact (List.mem_filter.mp hc).1

theorem Case.trylessAll_fitting {cases : List Case} (h : Case.trylessAll cases = true)
    (v : Value) : Case.trylessAll (Case.fitting v cases) = true := by
  rw [trylessAll_eq, List.all_eq_true] at h ⊢
  exact fun c hc => h c (fitting_subset v cases hc)

/-! ## Steps of the evaluator -/

structure EvaluatorNotes (ctx : Context) (plain : Prop) (n : Nat) : Prop where
  expression {e : Expr} (he : plain → e.tryless = true) :
    Notes ctx.host ctx.limits plain (Eval.expression n ctx e)
  expressions {es : List Expr} (hes : plain → Expr.trylessAll es = true) :
    Notes ctx.host ctx.limits plain (Eval.expressions n ctx es)
  members {entries : List (String × Expr)}
      (hentries : plain → Expr.trylessMembers entries = true) :
    Notes ctx.host ctx.limits plain (Eval.members n ctx entries)
  steps {links : List Link} (hlinks : plain → Link.trylessAll links = true) :
    Notes ctx.host ctx.limits plain (Eval.steps n ctx links)
  access {root : Expr} {links : List Link} (hroot : plain → root.tryless = true)
      (hlinks : plain → Link.trylessAll links = true) :
    Notes ctx.host ctx.limits plain (Eval.access n ctx root links)
  follow (place : Option Variable) (value : Value) (steps : List Step) :
    Notes ctx.host ctx.limits plain (Eval.follow n ctx place value steps)
  call (name : String) {args : List Expr} (hargs : plain → Expr.trylessAll args = true)
      (pos : Position) :
    Notes ctx.host ctx.limits plain (Eval.call n ctx name args pos)
  function (name : String) (args : List Value) (pos : Position) :
    Notes ctx.host ctx.limits plain (Eval.function n ctx name args pos)
  method (target : Value) (fixed : Bool) (name : String) (args : List Value) (pos : Position) :
    Notes ctx.host ctx.limits plain (Eval.method n ctx target fixed name args pos)
  pointer (name : String) (args : List Value) (receiver : Option Value) (pos : Position) :
    Notes ctx.host ctx.limits plain (Eval.pointer n ctx name args receiver pos)
  script {f : Function} (hf : plain → Stmt.trylessAll f.body = true) (args : List Value)
      (receiver : Option Value) (pos : Position) :
    Notes ctx.host ctx.limits plain (Eval.script n ctx f args receiver pos)
  builtin (name : String) (args : List Value) (fixed : Bool) (pos : Position) :
    Notes ctx.host ctx.limits plain (Eval.builtin n ctx name args fixed pos)
  withFunction (name : String) (target : Value) (f : String) (bound rest : List Value)
      (fixed : Bool) (pos : Position) :
    Notes ctx.host ctx.limits plain (Eval.withFunction n ctx name target f bound rest fixed pos)
  answers (f : String) (bound items : List Value) (place : Nat) (pos : Position) :
    Notes ctx.host ctx.limits plain (Eval.answers n ctx f bound items place pos)
  first (f : String) (bound : List Value) (accepted : Value → Bool) (items : List Value)
      (place : Nat) (pos : Position) :
    Notes ctx.host ctx.limits plain (Eval.first n ctx f bound accepted items place pos)
  reduced (f : String) (bound : List Value) (result : Value) (items : List (Value × Nat))
      (pos : Position) :
    Notes ctx.host ctx.limits plain (Eval.reduced n ctx f bound result items pos)
  eachChanged (f : String) (bound items : List Value) (place : Nat) (pos : Position) :
    Notes ctx.host ctx.limits plain (Eval.eachChanged n ctx f bound items place pos)
  memberAnswers (f : String) (bound : List Value) (entries : List (String × Value))
      (pos : Position) :
    Notes ctx.host ctx.limits plain (Eval.memberAnswers n ctx f bound entries pos)
  sortedBy (f : String) (bound items : List Value) (pos : Position) :
    Notes ctx.host ctx.limits plain (Eval.sortedBy n ctx f bound items pos)
  insertedBy (f : String) (bound : List Value) (item : Value) (items : List Value)
      (pos : Position) :
    Notes ctx.host ctx.limits plain (Eval.insertedBy n ctx f bound item items pos)
  statements {body : List Stmt} (hbody : plain → Stmt.trylessAll body = true) :
    Notes ctx.host ctx.limits plain (Eval.statements n ctx body)
  block {body : List Stmt} (hbody : plain → Stmt.trylessAll body = true) :
    Notes ctx.host ctx.limits plain (Eval.block n ctx body)
  statement {s : Stmt} (hs : plain → s.tryless = true) :
    Notes ctx.host ctx.limits plain (Eval.statement n ctx s)
  optional {e : Option Expr} (he : plain → Expr.trylessOptional e = true) :
    Notes ctx.host ctx.limits plain (Eval.optional n ctx e)
  assignment {target : Expr} (htarget : plain → target.tryless = true) (op : Option BinaryOp)
      (value : Value) (pos : Position) :
    Notes ctx.host ctx.limits plain (Eval.assignment n ctx target op value pos)
  switch {cases : List Case} {otherwise : Option Expr}
      (hcases : plain → Case.trylessAll cases = true)
      (hotherwise : plain → Expr.trylessOptional otherwise = true) :
    Notes ctx.host ctx.limits plain (Eval.switch n ctx cases otherwise)
  loopWhile {condition : Option Expr} {body : List Stmt}
      (hcondition : plain → Expr.trylessOptional condition = true)
      (hbody : plain → Stmt.trylessAll body = true) :
    Notes ctx.host ctx.limits plain (Eval.loopWhile n ctx condition body)
  loopUntil {body : List Stmt} {condition : Expr} (hbody : plain → Stmt.trylessAll body = true)
      (hcondition : plain → condition.tryless = true) (wanted : Bool) :
    Notes ctx.host ctx.limits plain (Eval.loopUntil n ctx body condition wanted)
  forEach (name : String) (counter : Option String) (items : Items) (place : Nat)
      {body : List Stmt} (hbody : plain → Stmt.trylessAll body = true) :
    Notes ctx.host ctx.limits plain (Eval.forEach n ctx name counter items place body)
  attempt (hplain : ¬plain) (body : List Stmt) (caught : Option String) (handler : List Stmt) :
    Notes ctx.host ctx.limits plain (Eval.attempt n ctx body caught handler)

section

variable {ctx : Context} {plain : Prop} {n : Nat}

theorem noSteps_notes {α : Type} : Notes ctx.host ctx.limits plain (Eval.noSteps : Eval α) :=
  .failAt _ _

theorem plain_and {a b : Bool} (h : plain → (a && b) = true) :
    (plain → a = true) ∧ (plain → b = true) :=
  ⟨fun hplain => (Bool.and_eq_true_iff.mp (h hplain)).1,
    fun hplain => (Bool.and_eq_true_iff.mp (h hplain)).2⟩

namespace EvaluatorNotes

/-! ### Expressions -/

theorem expression_succ (ih : EvaluatorNotes ctx plain n) {e : Expr}
    (he : plain → e.tryless = true) :
    Notes ctx.host ctx.limits plain (Eval.expression (n + 1) ctx e) := by
  rw [Eval.expression.eq_def]
  refine .bind (.operation _ _) fun _ => ?_
  match e, he with
  | .constant value pos, _ => exact .pure _
  | .variable name pos, _ =>
      refine .bind (.variableValue? _) fun found => ?_
      split
      · exact .pure _
      · split
        · exact .pure _
        · exact .failAt _ _
  | .moduleName path name pos, _ =>
      dsimp only
      split
      · exact .failAt _ _
      · exact .failAt _ _
  | .receiver pos, _ =>
      refine .bind (.variableValue? _) fun found => ?_
      split
      · exact .pure _
      · exact .failAt _ _
  | .template parts pos, he =>
      refine .bind (ih.expressions he) fun values => ?_
      exact .bind (.checkSize _ _ _) fun _ => .pure _
  | .array items pos, he =>
      refine .bind (ih.expressions he) fun values => ?_
      exact .bind (.checkSize _ _ _) fun _ => .pure _
  | .map entries pos, he =>
      refine .bind (ih.members he) fun values => ?_
      exact .bind (.checkSize _ _ _) fun _ => .pure _
  | .closure name captured pos, _ => exact .bind (.capture _) fun _ => .pure _
  | .unary op operand pos, he => exact .bind (ih.expression he) fun _ => .operator _ _ _ _ _
  | .binary op left right pos, he =>
      obtain ⟨hleft, hright⟩ := plain_and he
      refine .bind (ih.expression hleft) fun _ => ?_
      exact .bind (ih.expression hright) fun _ => .binary _ _ _ _ _
  | .both left right pos, he =>
      obtain ⟨hleft, hright⟩ := plain_and he
      refine .bind (ih.expression hleft) fun _ => .bind (.truth _ _) fun holds => ?_
      split
      · refine .bind (ih.expression hright) fun _ => .bind (.truth _ _) fun _ => .pure _
      · exact .pure _
  | .either left right pos, he =>
      obtain ⟨hleft, hright⟩ := plain_and he
      refine .bind (ih.expression hleft) fun _ => .bind (.truth _ _) fun holds => ?_
      split
      · exact .pure _
      · refine .bind (ih.expression hright) fun _ => .bind (.truth _ _) fun _ => .pure _
  | .orElse left right pos, he =>
      obtain ⟨hleft, hright⟩ := plain_and he
      refine .bind (ih.expression hleft) fun value => ?_
      split
      · exact ih.expression hright
      · exact .pure _
  | .call name args pos, he => exact ih.call name he pos
  | .moduleCall path name args pathPos pos, he =>
      exact .bind (ih.expressions he) fun _ => .callInModule _ _ _ _ _ _
  | .access root links pos, he =>
      obtain ⟨hroot, hlinks⟩ := plain_and he
      exact ih.access hroot hlinks
  | .statement body pos, he => exact ih.statement he

theorem expressions_succ (ih : EvaluatorNotes ctx plain n) {es : List Expr}
    (hes : plain → Expr.trylessAll es = true) :
    Notes ctx.host ctx.limits plain (Eval.expressions (n + 1) ctx es) := by
  cases es with
  | nil => exact .pure _
  | cons e rest =>
      obtain ⟨he, hrest⟩ := plain_and hes
      refine .bind (ih.expression he) fun _ => ?_
      exact .bind (ih.expressions hrest) fun _ => .pure _

theorem members_succ (ih : EvaluatorNotes ctx plain n) {entries : List (String × Expr)}
    (hentries : plain → Expr.trylessMembers entries = true) :
    Notes ctx.host ctx.limits plain (Eval.members (n + 1) ctx entries) := by
  cases entries with
  | nil => exact .pure _
  | cons entry rest =>
      obtain ⟨he, hrest⟩ := plain_and hentries
      refine .bind (ih.expression he) fun _ => ?_
      exact .bind (ih.members hrest) fun _ => .pure _

theorem steps_succ (ih : EvaluatorNotes ctx plain n) {links : List Link}
    (hlinks : plain → Link.trylessAll links = true) :
    Notes ctx.host ctx.limits plain (Eval.steps (n + 1) ctx links) := by
  cases links with
  | nil => exact .pure _
  | cons link rest =>
      obtain ⟨hlink, hrest⟩ := plain_and hlinks
      have htail : ∀ step, Notes ctx.host ctx.limits plain (do
          return step :: (← Eval.steps n ctx rest)) :=
        fun _ => .bind (ih.steps hrest) fun _ => .pure _
      cases link with
      | property name optional pos => exact .bind (.pure _) htail
      | index index optional pos =>
          exact .bind (ih.expression hlink) fun _ => .bind (.pure _) htail
      | method name args optional pos =>
          exact .bind (ih.expressions hlink) fun _ => .bind (.pure _) htail

theorem access_succ (ih : EvaluatorNotes ctx plain n) {root : Expr} {links : List Link}
    (hroot : plain → root.tryless = true) (hlinks : plain → Link.trylessAll links = true) :
    Notes ctx.host ctx.limits plain (Eval.access (n + 1) ctx root links) := by
  rw [Eval.access]
  refine .bind (ih.steps hlinks) fun steps => .bind (ih.expression hroot) fun value => ?_
  dsimp only
  split
  · exact .bind (.variableValue? _) fun _ => .bind (.pure _) fun _ => ih.follow _ _ _
  · exact .bind (.variableValue? _) fun _ => .bind (.pure _) fun _ => ih.follow _ _ _
  · exact .bind (.pure _) fun _ => ih.follow _ _ _

theorem follow_succ (ih : EvaluatorNotes ctx plain n) (place : Option Variable) (value : Value)
    (steps : List Step) :
    Notes ctx.host ctx.limits plain (Eval.follow (n + 1) ctx place value steps) := by
  rw [Eval.follow]
  dsimp only
  refine .bind (.ofResult _) fun target? => ?_
  split
  · exact .pure _
  split
  · split
    · exact .pure _
    · refine .bind (ih.method _ _ _ _ _) fun called => ?_
      split
      · exact .bind (.change fun _ => assign_hostFailure _ _ _) fun _ => ih.follow _ _ _
      · exact .bind (.pure _) fun _ => ih.follow _ _ _
  · exact .pure _

/-! ### Functions -/

theorem call_succ (ih : EvaluatorNotes ctx plain n) (name : String) {args : List Expr}
    (hargs : plain → Expr.trylessAll args = true) (pos : Position) :
    Notes ctx.host ctx.limits plain (Eval.call (n + 1) ctx name args pos) := by
  rw [Eval.call.eq_def]
  dsimp only
  split
  · obtain ⟨hfirst, hrest⟩ := plain_and hargs
    refine .bind (ih.expressions hrest) fun others => ?_
    refine .bind (ih.expression hfirst) fun value => ?_
    refine .bind (.variableValue? _) fun found => ?_
    refine .bind (ih.function _ _ _) fun called => ?_
    split
    · split
      · exact .bind (.change fun _ => assign_hostFailure _ _ _) fun _ => .pure _
      · exact .pure _
    · exact .pure _
  · refine .bind (ih.expressions hargs) fun values => ?_
    exact .bind (ih.function _ _ _) fun _ => .pure _

theorem function_succ (hctx : plain → ctx.program.tryless = true)
    (ih : EvaluatorNotes ctx plain n) (name : String) (args : List Value) (pos : Position) :
    Notes ctx.host ctx.limits plain (Eval.function (n + 1) ctx name args pos) := by
  rw [Eval.function.eq_def]
  dsimp only
  split
  · exact .bind (ih.pointer _ _ _ _) fun _ => .pure _
  · exact .of_quiet fun _ => ⟨rfl, rfl⟩
  · exact .of_quiet fun _ => ⟨rfl, rfl⟩
  · exact .bind .get fun _ => .pure _
  · exact .pure _
  · split
    · next hfound =>
      have hf := fun hplain => Program.tryless_function (hctx hplain) hfound
      exact .bind (ih.script hf _ _ _) fun _ => .pure _
    · exact ih.builtin _ _ _ _

theorem pointer_succ (hctx : plain → ctx.program.tryless = true)
    (ih : EvaluatorNotes ctx plain n) (name : String) (args : List Value)
    (receiver : Option Value) (pos : Position) :
    Notes ctx.host ctx.limits plain (Eval.pointer (n + 1) ctx name args receiver pos) := by
  rw [Eval.pointer.eq_def]
  dsimp only
  split
  · next hfound =>
    exact ih.script (fun hplain => Program.tryless_function (hctx hplain) hfound) _ _ _
  · split
    · exact ih.builtin _ _ _ _
    · exact ih.builtin _ _ _ _

theorem method_succ (hctx : plain → ctx.program.tryless = true)
    (ih : EvaluatorNotes ctx plain n) (target : Value) (fixed : Bool) (name : String)
    (args : List Value) (pos : Position) :
    Notes ctx.host ctx.limits plain (Eval.method (n + 1) ctx target fixed name args pos) := by
  rw [Eval.method.eq_def]
  dsimp only
  split
  · exact .bind (ih.pointer _ _ _ _) fun _ => .pure _
  · exact ih.pointer _ _ _ _
  · split
    · exact ih.pointer _ _ _ _
    · split
      · next hfound =>
        exact ih.script (fun hplain => Program.tryless_function (hctx hplain) hfound) _ _ _
      · exact ih.builtin _ _ _ _

theorem script_succ (inner : EvaluatorNotes { ctx with level := ctx.level + 1 } plain n)
    {f : Function} (hf : plain → Stmt.trylessAll f.body = true) (args : List Value)
    (receiver : Option Value) (pos : Position) :
    Notes ctx.host ctx.limits plain (Eval.script (n + 1) ctx f args receiver pos) := by
  rw [Eval.script.eq_def]
  refine .bind (.operation _ _) fun _ => ?_
  split
  · exact .failAt _ _
  refine .withScope _ (.bind ?_ fun result => .bind (.variableValue? _) fun _ => .pure _)
  intro run result last hrun
  dsimp only at hrun
  rcases hstatements : Eval.statements n { ctx with level := ctx.level + 1 } f.body run with
    ⟨ending, state⟩
  have hbody : Noted ctx.host ctx.limits plain run.hostFailure ending state.hostFailure :=
    inner.statements hf run ending state hstatements
  rw [hstatements] at hrun
  -- An answer ends the call; a failure is placed at the call but keeps its report.
  rcases ending with interruption | value
  · cases interruption with
    | answer value =>
        cases hrun
        exact hbody.replace rfl
    | failure failure report =>
        cases hrun
        exact hbody.replace rfl
    | _ =>
        cases hrun
        exact hbody
  · cases hrun
    exact hbody

theorem builtin_succ (ih : EvaluatorNotes ctx plain n) (name : String) (args : List Value)
    (fixed : Bool) (pos : Position) :
    Notes ctx.host ctx.limits plain (Eval.builtin (n + 1) ctx name args fixed pos) := by
  rw [Eval.builtin]
  refine .bind .get fun run => ?_
  dsimp only
  split
  · refine .bind (ih.withFunction _ _ _ _ _ _ _) fun result => ?_
    split
    · exact .pure _
    · exact .native _ _ _ _ _
  · exact .native _ _ _ _ _

theorem withFunction_succ (ih : EvaluatorNotes ctx plain n) (name : String) (target : Value)
    (f : String) (bound rest : List Value) (fixed : Bool) (pos : Position) :
    Notes ctx.host ctx.limits plain
      (Eval.withFunction (n + 1) ctx name target f bound rest fixed pos) := by
  rw [Eval.withFunction.eq_def]
  dsimp only
  have hkeep : ∀ result : Value, Notes ctx.host ctx.limits plain (do
      Eval.checkSize ctx pos result
      return some (result, (none : Option Value))) :=
    fun _ => .bind (.checkSize _ _ _) fun _ => .pure _
  have hallow : Notes ctx.host ctx.limits plain
      (if fixed then Eval.failAt pos (.mutatesConstant name) else pure () : Eval Unit) := by
    split
    · exact .failAt _ _
    · exact .pure _
  split
  · split
    · exact .bind (ih.answers _ _ _ _ _) fun _ => hkeep _
    · exact .bind (ih.answers _ _ _ _ _) fun _ => hkeep _
    · exact .bind (ih.first _ _ _ _ _ _) fun _ => hkeep _
    · exact .bind (ih.first _ _ _ _ _ _) fun _ => hkeep _
    · exact .bind (ih.first _ _ _ _ _ _) fun _ => hkeep _
    · exact .bind (ih.first _ _ _ _ _ _) fun _ => hkeep _
    · exact .bind (ih.first _ _ _ _ _ _) fun _ => hkeep _
    · exact .bind (ih.reduced _ _ _ _ _) fun _ => hkeep _
    · exact .bind (ih.reduced _ _ _ _ _) fun _ => hkeep _
    · exact .bind hallow fun _ => .bind (ih.eachChanged _ _ _ _ _) fun _ => .pure _
    · exact .bind hallow fun _ => .bind (ih.answers _ _ _ _ _) fun _ => .pure _
    · exact .bind hallow fun _ => .bind (ih.answers _ _ _ _ _) fun _ => .pure _
    · exact .bind hallow fun _ => .bind (ih.sortedBy _ _ _ _) fun _ => .pure _
    · exact .pure _
  · split
    · exact .bind (ih.reduced _ _ _ _ _) fun _ => hkeep _
    · exact .bind (ih.reduced _ _ _ _ _) fun _ => hkeep _
    · exact .pure _
  · split
    · refine .bind (ih.memberAnswers _ _ _ _) fun found => ?_
      split
      · exact hkeep _
      · refine .bind hallow fun _ => ?_
        split
        · exact .pure _
        · exact .pure _
    · exact .pure _
  · exact .pure _

/-! ### Functions on the items of a collection -/

theorem answers_succ (ih : EvaluatorNotes ctx plain n) (f : String) (bound items : List Value)
    (place : Nat) (pos : Position) :
    Notes ctx.host ctx.limits plain (Eval.answers (n + 1) ctx f bound items place pos) := by
  cases items with
  | nil => exact .pure _
  | cons item rest =>
      refine .bind (ih.pointer _ _ _ _) fun answer => ?_
      exact .bind (ih.answers _ _ _ _ _) fun _ => .pure _

theorem first_succ (ih : EvaluatorNotes ctx plain n) (f : String) (bound : List Value)
    (accepted : Value → Bool) (items : List Value) (place : Nat) (pos : Position) :
    Notes ctx.host ctx.limits plain
      (Eval.first (n + 1) ctx f bound accepted items place pos) := by
  cases items with
  | nil => exact .pure _
  | cons item rest =>
      refine .bind (ih.pointer _ _ _ _) fun answer => ?_
      dsimp only
      split
      · exact .pure _
      · exact ih.first _ _ _ _ _ _

theorem reduced_succ (ih : EvaluatorNotes ctx plain n) (f : String) (bound : List Value)
    (result : Value) (items : List (Value × Nat)) (pos : Position) :
    Notes ctx.host ctx.limits plain (Eval.reduced (n + 1) ctx f bound result items pos) := by
  cases items with
  | nil => exact .pure _
  | cons item rest => exact .bind (ih.pointer _ _ _ _) fun _ => ih.reduced _ _ _ _ _

theorem eachChanged_succ (ih : EvaluatorNotes ctx plain n) (f : String)
    (bound items : List Value) (place : Nat) (pos : Position) :
    Notes ctx.host ctx.limits plain (Eval.eachChanged (n + 1) ctx f bound items place pos) := by
  cases items with
  | nil => exact .pure _
  | cons item rest =>
      refine .bind (ih.pointer _ _ _ _) fun answer => ?_
      exact .bind (ih.eachChanged _ _ _ _ _) fun _ => .pure _

theorem memberAnswers_succ (ih : EvaluatorNotes ctx plain n) (f : String) (bound : List Value)
    (entries : List (String × Value)) (pos : Position) :
    Notes ctx.host ctx.limits plain (Eval.memberAnswers (n + 1) ctx f bound entries pos) := by
  cases entries with
  | nil => exact .pure _
  | cons entry rest =>
      refine .bind (ih.pointer _ _ _ _) fun answer => ?_
      exact .bind (ih.memberAnswers _ _ _ _) fun _ => .pure _

theorem sortedBy_succ (ih : EvaluatorNotes ctx plain n) (f : String) (bound items : List Value)
    (pos : Position) :
    Notes ctx.host ctx.limits plain (Eval.sortedBy (n + 1) ctx f bound items pos) := by
  cases items with
  | nil => exact .pure _
  | cons item rest => exact .bind (ih.sortedBy _ _ _ _) fun _ => ih.insertedBy _ _ _ _ _

theorem insertedBy_succ (ih : EvaluatorNotes ctx plain n) (f : String) (bound : List Value)
    (item : Value) (items : List Value) (pos : Position) :
    Notes ctx.host ctx.limits plain (Eval.insertedBy (n + 1) ctx f bound item items pos) := by
  cases items with
  | nil => exact .pure _
  | cons other rest =>
      refine .bind (ih.pointer _ _ _ _) fun answer => ?_
      dsimp only
      split
      · exact .bind (ih.insertedBy _ _ _ _ _) fun _ => .pure _
      · exact .pure _

/-! ### Statements -/

theorem statements_succ (ih : EvaluatorNotes ctx plain n) {body : List Stmt}
    (hbody : plain → Stmt.trylessAll body = true) :
    Notes ctx.host ctx.limits plain (Eval.statements (n + 1) ctx body) := by
  match body, hbody with
  | [], _ => exact .pure _
  | [s], hbody => exact ih.statement (plain_and hbody).1
  | s :: next :: rest, hbody =>
      obtain ⟨hs, hrest⟩ := plain_and hbody
      exact .bind (ih.statement hs) fun _ => ih.statements hrest

theorem block_succ (ih : EvaluatorNotes ctx plain n) {body : List Stmt}
    (hbody : plain → Stmt.trylessAll body = true) :
    Notes ctx.host ctx.limits plain (Eval.block (n + 1) ctx body) :=
  .locally (ih.statements hbody)

theorem optional_succ (ih : EvaluatorNotes ctx plain n) {e : Option Expr}
    (he : plain → Expr.trylessOptional e = true) :
    Notes ctx.host ctx.limits plain (Eval.optional (n + 1) ctx e) := by
  cases e with
  | none => exact .pure _
  | some e => exact ih.expression he

theorem statement_succ (ih : EvaluatorNotes ctx plain n) {s : Stmt}
    (hs : plain → s.tryless = true) :
    Notes ctx.host ctx.limits plain (Eval.statement (n + 1) ctx s) := by
  rw [Eval.statement.eq_def]
  refine .bind (.operation _ _) fun _ => ?_
  match s, hs with
  | .expr e, hs => exact ih.expression hs
  | .declare name value fixed, hs =>
      refine .bind (ih.optional hs) fun value => ?_
      exact .bind (.change fun _ => rfl) fun _ => .pure _
  | .assign target op value pos, hs =>
      obtain ⟨htarget, hvalue⟩ := plain_and hs
      refine .bind (ih.expression hvalue) fun value => ?_
      exact .bind (ih.assignment htarget _ _ _) fun _ => .pure _
  | .block body, hs => exact ih.block hs
  | .branch condition body otherwise, hs =>
      obtain ⟨hs, hotherwise⟩ := plain_and hs
      obtain ⟨hcondition, hbody⟩ := plain_and hs
      refine .bind (ih.expression hcondition) fun _ => .bind (.truth _ _) fun holds => ?_
      split
      · exact ih.block hbody
      · exact ih.block hotherwise
  | .switch subject cases otherwise, hs =>
      obtain ⟨hs, hotherwise⟩ := plain_and hs
      obtain ⟨hsubject, hcases⟩ := plain_and hs
      refine .bind (ih.expression hsubject) fun value => ih.switch ?_ hotherwise
      exact fun hplain => Case.trylessAll_fitting (hcases hplain) value
  | .loopWhile condition body, hs =>
      obtain ⟨hcondition, hbody⟩ := plain_and hs
      exact ih.loopWhile hcondition hbody
  | .loopUntil body condition wanted, hs =>
      obtain ⟨hbody, hcondition⟩ := plain_and hs
      exact ih.loopUntil hbody hcondition wanted
  | .forEach name counter items body, hs =>
      obtain ⟨hitems, hbody⟩ := plain_and hs
      refine .bind (ih.expression hitems) fun value => ?_
      split
      · exact ih.forEach _ _ _ _ hbody
      · exact .failAt _ _
  | .attempt body caught handler, hs =>
      exact ih.attempt (fun hplain => Bool.false_ne_true (hs hplain)) _ _ _
  | .leave value, hs => exact .bind (ih.optional hs) fun _ => .of_quiet fun _ => ⟨rfl, rfl⟩
  | .again, _ => exact .of_quiet fun _ => ⟨rfl, rfl⟩
  | .answer value, hs => exact .bind (ih.optional hs) fun _ => .of_quiet fun _ => ⟨rfl, rfl⟩
  | .throwValue value pos, hs => exact .bind (ih.optional hs) fun _ => .failAt _ _
  | .importModule path, hs =>
      refine .bind (ih.expression hs) fun value => ?_
      split
      · exact .failAt _ _
      · exact .failAt _ _
  | .exportName name pos, _ =>
      refine .bind (.variableValue? _) fun found => ?_
      split
      · exact .pure _
      · exact .failAt _ _

theorem assignment_succ (ih : EvaluatorNotes ctx plain n) {target : Expr}
    (htarget : plain → target.tryless = true) (op : Option BinaryOp) (value : Value)
    (pos : Position) :
    Notes ctx.host ctx.limits plain (Eval.assignment (n + 1) ctx target op value pos) := by
  rw [Eval.assignment.eq_def]
  dsimp only
  refine .bind (ih.steps fun hplain => ?_) fun steps => ?_
  · split
    · exact (plain_and htarget).2 hplain
    · rfl
  refine .bind (.variableValue? _) fun found => ?_
  split
  · split
    · exact .failAt _ _
    · exact .failAt _ _
  split
  · exact .failAt _ _
  have hstore : ∀ (name : String) (value : Value), Notes ctx.host ctx.limits plain
      (modify fun run => run.assign name value : Eval Unit) :=
    fun _ _ => .change fun _ => assign_hostFailure _ _ _
  split
  · exact .bind (.changed _ _ _ _ _) fun _ => hstore _ _
  split
  · exact .bind (.ofResult _) fun _ => hstore _ _
  refine .bind (.ofResult _) fun inner? => ?_
  split
  · exact .pure _
  · refine .bind (.ofResult _) fun before => .bind (.changed _ _ _ _ _) fun value => ?_
    exact .bind (.ofResult _) fun _ => hstore _ _

theorem switch_succ (ih : EvaluatorNotes ctx plain n) {cases : List Case}
    {otherwise : Option Expr} (hcases : plain → Case.trylessAll cases = true)
    (hotherwise : plain → Expr.trylessOptional otherwise = true) :
    Notes ctx.host ctx.limits plain (Eval.switch (n + 1) ctx cases otherwise) := by
  match cases, hcases with
  | [], _ => exact ih.optional hotherwise
  | .mk values spans guard result :: rest, hcases =>
      obtain ⟨hcase, hrest⟩ := plain_and hcases
      obtain ⟨hguard, hresult⟩ := plain_and hcase
      have hrest : ∀ holds : Bool, Notes ctx.host ctx.limits plain
          (if holds then Eval.expression n ctx result
            else Eval.switch n ctx rest otherwise) := by
        intro holds
        split
        · exact ih.expression hresult
        · exact ih.switch hrest hotherwise
      cases guard with
      | none => exact .bind (.pure _) hrest
      | some condition =>
          exact .bind (ih.expression hguard) fun _ => .bind (.truth _ _) hrest

/-! ### Loops and handlers -/

theorem loopWhile_succ (ih : EvaluatorNotes ctx plain n) {condition : Option Expr}
    {body : List Stmt} (hcondition : plain → Expr.trylessOptional condition = true)
    (hbody : plain → Stmt.trylessAll body = true) :
    Notes ctx.host ctx.limits plain (Eval.loopWhile (n + 1) ctx condition body) := by
  have htest : Notes ctx.host ctx.limits plain (do
      Eval.operation ctx .none
      match condition with
      | none => return true
      | some condition => Eval.truth condition.pos (← Eval.expression n ctx condition)) := by
    refine .bind (.operation _ _) fun _ => ?_
    cases condition with
    | none => exact .pure _
    | some condition => exact .bind (ih.expression hcondition) fun _ => .truth _ _
  intro run result last hrun
  rw [Eval.loopWhile.eq_def] at hrun
  dsimp only at hrun
  split at hrun
  · next hending =>
    cases hrun
    exact (htest _ _ _ hending).interrupted
  · next hending =>
    cases hrun
    exact (htest _ _ _ hending).replace rfl
  · next state hending =>
    have hround := Notes.round (ih.block hbody) (ih.loopWhile hcondition hbody)
    exact (htest _ _ _ hending).andThen rfl (hround state result last hrun)

theorem loopUntil_succ (ih : EvaluatorNotes ctx plain n) {body : List Stmt} {condition : Expr}
    (hbody : plain → Stmt.trylessAll body = true) (hcondition : plain → condition.tryless = true)
    (wanted : Bool) :
    Notes ctx.host ctx.limits plain (Eval.loopUntil (n + 1) ctx body condition wanted) := by
  have htest : Notes ctx.host ctx.limits plain (do
      Eval.operation ctx .none
      Eval.truth condition.pos (← Eval.expression n ctx condition)) :=
    .bind (.operation _ _) fun _ => .bind (ih.expression hcondition) fun _ => .truth _ _
  rw [Eval.loopUntil.eq_def]
  refine .round (ih.block hbody) ?_
  intro run result last hrun
  dsimp only at hrun
  split at hrun
  · next hending =>
    cases hrun
    exact (htest _ _ _ hending).interrupted
  · next hending =>
    refine (htest _ _ _ hending).andThen rfl ?_
    split at hrun
    · exact ih.loopUntil hbody hcondition wanted _ _ _ hrun
    · cases hrun
      exact .quiet rfl

theorem forEach_succ (ih : EvaluatorNotes ctx plain n) (name : String) (counter : Option String)
    (items : Items) (place : Nat) {body : List Stmt}
    (hbody : plain → Stmt.trylessAll body = true) :
    Notes ctx.host ctx.limits plain
      (Eval.forEach (n + 1) ctx name counter items place body) := by
  rw [Eval.forEach.eq_def]
  intro run result last hrun
  dsimp only at hrun
  split at hrun
  · cases hrun
    exact .quiet rfl
  · refine Notes.round (.locally ?_) (ih.forEach _ _ _ _ hbody) run result last hrun
    refine .bind (.operation _ _) fun _ => ?_
    have hrest : ∀ item : Value, Notes ctx.host ctx.limits plain (do
        modify fun run => run.declare name item false
        Eval.statements n ctx body) :=
      fun _ => .bind (.change fun _ => rfl) fun _ => ih.statements hbody
    split
    · exact .bind (.change fun _ => rfl) fun _ => hrest _
    · exact hrest _

theorem attempt_succ (ih : EvaluatorNotes ctx plain n) (hplain : ¬plain) (body : List Stmt)
    (caught : Option String) (handler : List Stmt) :
    Notes ctx.host ctx.limits plain (Eval.attempt (n + 1) ctx body caught handler) := by
  -- With a handler about, nothing is promised about the statements inside.
  have hany : ∀ body, plain → Stmt.trylessAll body = true := fun _ h => absurd h hplain
  have hhandler := ih.statements (hany handler)
  rw [Eval.attempt.eq_def]
  refine .recover hplain (ih.block (hany body)) fun failure => .locally ?_
  cases caught with
  | none => exact hhandler
  | some name => exact .bind (.change fun _ => rfl) fun _ => hhandler

/-! ### All steps -/

theorem zero : EvaluatorNotes ctx plain 0 := by
  constructor
  all_goals
    intros
    exact noSteps_notes

theorem succ (hctx : plain → ctx.program.tryless = true) (ih : EvaluatorNotes ctx plain n)
    (inner : EvaluatorNotes { ctx with level := ctx.level + 1 } plain n) :
    EvaluatorNotes ctx plain (n + 1) where
  expression := ih.expression_succ
  expressions := ih.expressions_succ
  members := ih.members_succ
  steps := ih.steps_succ
  access := ih.access_succ
  follow := ih.follow_succ
  call := ih.call_succ
  function := function_succ hctx ih
  method := method_succ hctx ih
  pointer := pointer_succ hctx ih
  script := script_succ inner
  builtin := ih.builtin_succ
  withFunction := ih.withFunction_succ
  answers := ih.answers_succ
  first := ih.first_succ
  reduced := ih.reduced_succ
  eachChanged := ih.eachChanged_succ
  memberAnswers := ih.memberAnswers_succ
  sortedBy := ih.sortedBy_succ
  insertedBy := ih.insertedBy_succ
  statements := ih.statements_succ
  block := ih.block_succ
  statement := ih.statement_succ
  optional := ih.optional_succ
  assignment := ih.assignment_succ
  switch := ih.switch_succ
  loopWhile := ih.loopWhile_succ
  loopUntil := ih.loopUntil_succ
  forEach := ih.forEach_succ
  attempt := ih.attempt_succ

end EvaluatorNotes

/-- A program without handlers keeps the note and the failure that ends it together. -/
theorem evaluator_notes (n : Nat) {ctx : Context} (hctx : plain → ctx.program.tryless = true) :
    EvaluatorNotes ctx plain n := by
  induction n generalizing ctx with
  | zero => exact .zero
  | succ n ih => exact .succ hctx (ih hctx) (ih hctx)

end

end FormDerivation.Script
