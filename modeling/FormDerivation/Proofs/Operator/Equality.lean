import FormDerivation.Operator.Evaluation
import FormDerivation.Proofs.Decimal.SelfEqual
import Mathlib.Logic.Relation

/-!
# Equality of values at every depth

The operator `compare.equals` compares two numbers by their value and everything else by its stored
form.  So it compares numbers by value as long as they are its operands, but not where they stand
inside lists and objects: there an integer and a double are different whatever their values.

`Json.sameByValue` is the equality that compares numbers by value at every depth.  The operator has
it exactly if no two numbers that face each other inside of its operands are equal by value and
stored differently (`Json.equalByValue_iff`).  So putting two values into lists, or into objects
under one key, keeps the answer unless they are two such numbers (`Formula.evaluate_equals`).
-/

namespace FormDerivation

namespace Json

/-! ## Numbers that are stored differently -/

/--
Two numbers that are equal by value and stored differently: an integer and a double, or two integers
that no double tells apart.
-/
inductive StoredApart : Json → Json → Prop where
  | intFloat {n : Int} {x : Float} : (Float.ofInt n == x) = true → StoredApart (.int n) (.float x)
  | floatInt {x : Float} {n : Int} : (x == Float.ofInt n) = true → StoredApart (.float x) (.int n)
  | ints {m n : Int} : m ≠ n → (Float.ofInt m == Float.ofInt n) = true →
      StoredApart (.int m) (.int n)

theorem same_ints_iff (m n : Int) :
    same (.int m) (.int n) = true ↔
      equalByValue (.int m) (.int n) = true ∧ ¬StoredApart (.int m) (.int n) := by
  rw [same, beq_iff_eq]
  constructor
  · rintro rfl
    refine ⟨Decimal.ofInt_beq_self m, ?_⟩
    rintro (_ | _ | ⟨hne, -⟩)
    exact hne rfl
  · rintro ⟨hvalue, hapart⟩
    by_contra hne
    exact hapart (.ints hne hvalue)

theorem same_iff_equalByValue (x y : Json) :
    x.same y = true ↔ x.equalByValue y = true ∧ ¬StoredApart x y := by
  -- What is no pair of numbers is compared by stored form in both.
  have hother (hvalue : x.equalByValue y = x.same y) (hapart : ¬StoredApart x y) :
      x.same y = true ↔ x.equalByValue y = true ∧ ¬StoredApart x y := by
    rw [hvalue]
    exact (and_iff_left hapart).symm
  cases x with
  | int m =>
      cases y with
      | int n => exact same_ints_iff m n
      | float b => exact ⟨nofun, fun h => absurd (.intFloat h.1) h.2⟩
      | _ => exact hother rfl nofun
  | float a =>
      cases y with
      | int n => exact ⟨nofun, fun h => absurd (.floatInt h.1) h.2⟩
      | float b => exact hother rfl nofun
      | _ => exact hother rfl nofun
  | _ => cases y <;> exact hother rfl nofun

/-! ## Equality by value at every depth -/

mutual

def sameByValue : Json → Json → Bool
  | .array as, .array bs => itemsSameByValue as bs
  | .object as, .object bs => membersSameByValue as bs
  | x, y => x.equalByValue y

def itemsSameByValue : List Json → List Json → Bool
  | [], [] => true
  | a :: as, b :: bs => sameByValue a b && itemsSameByValue as bs
  | _, _ => false

def membersSameByValue : List (String × Json) → List (String × Json) → Bool
  | [], [] => true
  | (k, a) :: as, (l, b) :: bs => k == l && sameByValue a b && membersSameByValue as bs
  | _, _ => false

end

def facing : Json → Json → List (Json × Json)
  | .array as, .array bs => as.zip bs
  | .object as, .object bs => (as.map Prod.snd).zip (bs.map Prod.snd)
  | _, _ => []

def PartOf (outer inner : Json × Json) : Prop :=
  inner ∈ facing outer.1 outer.2

/-- Numbers of two values that face each other, at any depth, are stored alike. -/
def StoredAlike (x y : Json) : Prop :=
  ∀ p, Relation.ReflTransGen PartOf (x, y) p → ¬StoredApart p.1 p.2

def StoredAlikeInside (x y : Json) : Prop :=
  ∀ p ∈ facing x y, StoredAlike p.1 p.2

theorem storedAlike_iff (x y : Json) :
    StoredAlike x y ↔ ¬StoredApart x y ∧ StoredAlikeInside x y := by
  constructor
  · intro h
    exact ⟨h _ .refl, fun p hp q hq => h q (.head hp hq)⟩
  · rintro ⟨hself, hinside⟩ p hp
    rcases Relation.ReflTransGen.cases_head hp with rfl | ⟨q, hq, hrest⟩
    · exact hself
    · exact hinside q hq p hrest

theorem same_iff_of_no_parts {x y : Json} (hvalue : x.sameByValue y = x.equalByValue y)
    (hparts : facing x y = []) :
    x.same y = true ↔ x.sameByValue y = true ∧ StoredAlike x y := by
  have hinside : StoredAlikeInside x y := by
    intro p hp
    rw [hparts] at hp
    cases hp
  rw [same_iff_equalByValue, hvalue, storedAlike_iff, and_iff_left hinside]

mutual

theorem same_iff : ∀ x y : Json, x.same y = true ↔ x.sameByValue y = true ∧ StoredAlike x y
  | .array as, .array bs => by
      rw [same, sameByValue, sameItems_iff as bs, storedAlike_iff]
      exact and_congr_right fun _ => (and_iff_right nofun).symm
  | .object as, .object bs => by
      rw [same, sameByValue, sameMembers_iff as bs, storedAlike_iff]
      exact and_congr_right fun _ => (and_iff_right nofun).symm
  | .null, y | .bool _, y | .int _, y | .float _, y | .string _, y => by
      cases y <;> exact same_iff_of_no_parts rfl rfl
  | .array _, .null | .array _, .bool _ | .array _, .int _ | .array _, .float _
  | .array _, .string _ | .array _, .object _ => same_iff_of_no_parts rfl rfl
  | .object _, .null | .object _, .bool _ | .object _, .int _ | .object _, .float _
  | .object _, .string _ | .object _, .array _ => same_iff_of_no_parts rfl rfl

theorem sameItems_iff : ∀ as bs : List Json, sameItems as bs = true ↔
    itemsSameByValue as bs = true ∧ ∀ p ∈ as.zip bs, StoredAlike p.1 p.2
  | [], [] => by simp [sameItems, itemsSameByValue]
  | [], _ :: _ => by simp [sameItems, itemsSameByValue]
  | _ :: _, [] => by simp [sameItems, itemsSameByValue]
  | a :: as, b :: bs => by
      rw [sameItems, itemsSameByValue, Bool.and_eq_true, Bool.and_eq_true, same_iff a b,
        sameItems_iff as bs, List.zip_cons_cons, List.forall_mem_cons]
      exact and_and_and_comm

theorem sameMembers_iff : ∀ as bs : List (String × Json), sameMembers as bs = true ↔
    membersSameByValue as bs = true ∧
      ∀ p ∈ (as.map Prod.snd).zip (bs.map Prod.snd), StoredAlike p.1 p.2
  | [], [] => by simp [sameMembers, membersSameByValue]
  | [], _ :: _ => by simp [sameMembers, membersSameByValue]
  | _ :: _, [] => by simp [sameMembers, membersSameByValue]
  | (k, a) :: as, (l, b) :: bs => by
      simp only [sameMembers, membersSameByValue, Bool.and_eq_true, same_iff a b,
        sameMembers_iff as bs, List.map_cons, List.zip_cons_cons, List.forall_mem_cons]
      tauto

end

/-- Operands are compared by value, and their parts by stored form. -/
theorem equalByValue_iff (x y : Json) :
    x.equalByValue y = true ↔ x.sameByValue y = true ∧ StoredAlikeInside x y := by
  have hleaf (hvalue : x.sameByValue y = x.equalByValue y) (hparts : facing x y = []) :
      x.equalByValue y = true ↔ x.sameByValue y = true ∧ StoredAlikeInside x y := by
    rw [hvalue, StoredAlikeInside, hparts]
    exact (and_iff_left (List.forall_mem_nil _)).symm
  have hwhole (hvalue : x.equalByValue y = x.same y) (hapart : ¬StoredApart x y) :
      x.equalByValue y = true ↔ x.sameByValue y = true ∧ StoredAlikeInside x y := by
    rw [hvalue, same_iff, storedAlike_iff, and_iff_right hapart]
  cases x with
  | array as =>
      cases y with
      | array bs => exact hwhole rfl nofun
      | _ => exact hleaf rfl rfl
  | object as =>
      cases y with
      | object bs => exact hwhole rfl nofun
      | _ => exact hleaf rfl rfl
  | _ => cases y <;> exact hleaf rfl rfl

/-- Two integers that no double tells apart are equal as operands. -/
example : equalByValue (.int 9007199254740993) (.int 9007199254740992) = true ∧
    equalByValue (.array [.int 9007199254740993]) (.array [.int 9007199254740992]) = false := by
  decide

/-- Two values behave in a place that compares stored forms as they do on their own. -/
theorem same_eq_equalByValue_iff (x y : Json) :
    x.same y = x.equalByValue y ↔ ¬StoredApart x y := by
  have hsame := same_iff_equalByValue x y
  constructor
  · intro heq hapart
    have hvalue : x.equalByValue y = true := by
      cases hapart with
      | intFloat h => exact h
      | floatInt h => exact h
      | ints _ h => exact h
    rw [heq] at hsame
    exact (hsame.mp hvalue).2 hapart
  · intro hapart
    rw [and_iff_left hapart] at hsame
    exact Bool.eq_iff_iff.mpr hsame

theorem equalByValue_singletons (x y : Json) :
    equalByValue (.array [x]) (.array [y]) = x.same y :=
  Bool.and_true _

theorem equalByValue_members (key : String) (x y : Json) :
    equalByValue (.object [(key, x)]) (.object [(key, y)]) = x.same y := by
  change (key == key && x.same y && true) = x.same y
  rw [beq_self_eq_true, Bool.true_and, Bool.and_true]

end Json

namespace Formula

def equals (x y : Json) : Formula :=
  .apply "compare.equals" [.constant x, .constant y]

def hasItem (items : List Json) (y : Json) : Formula :=
  .apply "list.contains" [.constant (.array items), .constant y]

section

variable {context : KeyMap Json} {scope : Option String}

theorem evaluate_equals_eq (x y : Json) : (equals x y).evaluate .builtin context scope =
    .ok (.boolean (x.equalByValue y)) := by
  have hresult : (equals x y).evaluate .builtin context scope =
      .ok (.boolean (x.equalByValue y != false)) := rfl
  rw [hresult, Bool.bne_false]

theorem evaluate_hasItem_eq (items : List Json) (y : Json) :
    (hasItem items y).evaluate .builtin context scope =
      .ok (.boolean (items.any fun item => item.equalByValue y)) :=
  rfl

theorem boolean_eq_iff (a b : Bool) : (Except.ok (.boolean a) : Except FormulaError TypedValue) =
    .ok (.boolean b) ↔ a = b := by
  constructor
  · intro h
    cases h
    rfl
  · rintro rfl
    rfl

/--
What `compare.equals` answers is equality by value at every depth, provided that no two numbers that
face each other inside the operands are stored differently.  In lists and in objects two values
compare as they do by themselves unless they are two such numbers, and a list contains a value if one
of its items is equal to it as an operand.
-/
theorem evaluate_equals (x y : Json) :
    let answer (formula : Formula) := formula.evaluate .builtin context scope
    (∃ equal, answer (equals x y) = .ok (.boolean equal) ∧
      (equal = true ↔ x.sameByValue y = true ∧ Json.StoredAlikeInside x y)) ∧
    (answer (equals (.array [x]) (.array [y])) = answer (equals x y) ↔ ¬Json.StoredApart x y) ∧
    (∀ key, answer (equals (.object [(key, x)]) (.object [(key, y)])) = answer (equals x y) ↔
      ¬Json.StoredApart x y) ∧
    ∀ items, ∃ found, answer (hasItem items y) = .ok (.boolean found) ∧
      (found = true ↔ ∃ item ∈ items, answer (equals item y) = .ok (.boolean true)) := by
  intro answer
  have hequals (x y : Json) : answer (equals x y) = .ok (.boolean (x.equalByValue y)) :=
    evaluate_equals_eq x y
  refine ⟨⟨_, hequals x y, Json.equalByValue_iff x y⟩, ?_, fun key => ?_, fun items => ?_⟩
  · rw [hequals, hequals, boolean_eq_iff, Json.equalByValue_singletons,
      Json.same_eq_equalByValue_iff]
  · rw [hequals, hequals, boolean_eq_iff, Json.equalByValue_members,
      Json.same_eq_equalByValue_iff]
  · refine ⟨_, evaluate_hasItem_eq items y, ?_⟩
    simp only [List.any_eq_true, hequals, boolean_eq_iff]

/-- An integer is equal to the double of its value, and the lists of the two are not equal. -/
theorem evaluate_equals_listed :
    (equals (.int 1) (.float 1.0)).evaluate .builtin .empty none = .ok (.boolean true) ∧
      (equals (.array [.int 1]) (.array [.float 1.0])).evaluate .builtin .empty none =
        .ok (.boolean false) := by
  rw [evaluate_equals_eq, evaluate_equals_eq, boolean_eq_iff, boolean_eq_iff]
  decide

end

end Formula

end FormDerivation
