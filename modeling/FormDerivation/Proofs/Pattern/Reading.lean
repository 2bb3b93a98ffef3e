import FormDerivation.Proofs.Pattern.Groups
import FormDerivation.Proofs.Pattern.Search

/-!
# Patterns and a closing parenthesis

The reader of a pattern takes one turn after the other: an item (`readTurn`), then what follows it
(`takeTurn`).  On a text with a closing parenthesis behind it the reader takes the same turns up to the
end of the text (`readTurn_extends`), so how the reading of the text ends decides what becomes of the
longer text (`readAlternatives_outcome`).

A text that ends on level 0 is one whose closing parenthesis, on a deeper level, ends a group.  If the
text fails, the longer one fails as well: either at the same place, or because an unfinished item
takes the closing parenthesis away from its group, and dollar signs are all that is left to read
(`dollars_fail`).
-/

namespace FormDerivation.Pattern

variable {n : Nat}

/-! ## Turns of the reader -/

inductive Turn where
  | next (branches : List Pattern) (items : List Item) (source : Source)
  | group (inner : Source)

def Turn.append (turn : Turn) (more : List Char) : Turn :=
  match turn with
  | .next branches items source => .next branches items (source.append more)
  | .group inner => .group (inner.append more)

def Opening.turn (branches : List Pattern) (items : List Item) : Opening → Turn
  | .group source => .group source
  | .flags source => .next branches (⟨.empty, false⟩ :: items) source

def repeatTurn (branches : List Pattern) (items : List Item) (source : Source) (min : Nat)
    (max : Option Nat) (rest : List Char) : Except Reason Turn :=
  repeatLast items min max >>= fun items =>
    .ok (.next branches items { source with rest })

def readTurn (branches : List Pattern) (items : List Item) (source : Source) (c : Char)
    (rest : List Char) : Except Reason Turn :=
  let one (pattern : Pattern) (rest : List Char) : Turn :=
    .next branches (⟨pattern, true⟩ :: items) { source with rest }
  match c with
  | '|' => .ok (.next (sequenceOf items :: branches) [] { source with rest })
  | '(' => readOpening { source with rest } >>= fun opening => .ok (opening.turn branches items)
  | '[' => readClass source.flags rest >>= fun b => .ok (one (.chars b.1) b.2)
  | '?' => repeatTurn branches items source 0 (some 1) (skipLazy rest)
  | '*' => repeatTurn branches items source 0 none (skipLazy rest)
  | '+' => repeatTurn branches items source 1 none (skipLazy rest)
  | '\x7b' => repeatLast items 0 none >>= fun _ => readBounds source.flags rest >>= fun b =>
      repeatTurn branches items source b.1.1 b.1.2 (skipLazyCount source.flags b.2)
  | '\\' => readEscape source.flags rest >>= fun b => escapedPattern source.flags b.1 >>= fun p =>
      .ok (one p b.2)
  | '.' => dotPattern source.flags >>= fun p => .ok (one p rest)
  | '^' => .ok (one (lineAnchor source.flags true) rest)
  | '$' => .ok (one (lineAnchor source.flags false) rest)
  | c => .ok (one (literalPattern source.flags c) rest)

def takeTurn (steps level : Nat) (branches : List Pattern) (items : List Item) (flags : Flags) :
    Turn → Except Reason (Pattern × Source)
  | .next branches items source => readAlternatives steps level branches items source
  | .group inner =>
    if maxNesting ≤ level then .error .nestedTooDeep
    else readAlternatives steps (level + 1) [] [] inner >>= fun b =>
      readAlternatives steps level branches (⟨b.1, true⟩ :: items) { b.2 with flags }

section

variable {steps level : Nat} {branches : List Pattern} {items : List Item} {flags : Flags}
  {inner : Source}

theorem takeTurn_group_deep (h : maxNesting ≤ level) :
    takeTurn steps level branches items flags (.group inner) = .error .nestedTooDeep :=
  if_pos h

theorem takeTurn_group (h : level < maxNesting) :
    takeTurn steps level branches items flags (.group inner) =
      readAlternatives steps (level + 1) [] [] inner >>= fun b =>
        readAlternatives steps level branches (⟨b.1, true⟩ :: items) { b.2 with flags } :=
  if_neg (Nat.not_le_of_lt h)

end

def finished (branches : List Pattern) (items : List Item) : Pattern :=
  Pattern.alternatives (sequenceOf items :: branches).reverse

/-- What ends a group: its closing parenthesis, or the end of the text on level 0. -/
def ending (level : Nat) (pattern : Pattern) (source : Source) :
    List Char → Except Reason (Pattern × Source)
  | [] => if level == 0 then .ok (pattern, { source with rest := [] }) else .error .groupUnclosed
  | _ :: rest => if level == 0 then .error .groupUnopened else .ok (pattern, { source with rest })

theorem readAlternatives_succ (steps level : Nat) (branches : List Pattern) (items : List Item)
    (source : Source) : readAlternatives (steps + 1) level branches items source =
      match skipIgnored source.flags source.rest with
      | [] => ending level (finished branches items) source []
      | ')' :: rest => ending level (finished branches items) source (')' :: rest)
      | c :: rest => readTurn branches items source c rest >>=
          takeTurn steps level branches items source.flags := by
  rw [readAlternatives]
  cases skipIgnored source.flags source.rest with
  | nil => rfl
  | cons c rest =>
    rcases eq_or_ne c ')' with rfl | hclose
    · rfl
    rcases eq_or_ne c '(' with rfl | hopen
    · simp only [readTurn, bind_assoc]
      exact congrArg (readOpening { source with rest } >>= ·)
        (funext fun opening => by cases opening <;> rfl)
    -- The other characters begin the same item on both sides.
    split <;> simp_all [readTurn, repeatTurn] <;> rfl

section

variable {steps level : Nat} {branches : List Pattern} {items : List Item} {source : Source}
  {rest : List Char}

theorem readAlternatives_nil (h : skipIgnored source.flags source.rest = []) :
    readAlternatives (steps + 1) level branches items source =
      ending level (finished branches items) source [] := by
  rw [readAlternatives_succ, h]

theorem readAlternatives_close (h : skipIgnored source.flags source.rest = ')' :: rest) :
    readAlternatives (steps + 1) level branches items source =
      ending level (finished branches items) source (')' :: rest) := by
  rw [readAlternatives_succ, h]
  rfl

theorem readAlternatives_turn {c : Char} (h : skipIgnored source.flags source.rest = c :: rest)
    (hc : c ≠ ')') : readAlternatives (steps + 1) level branches items source =
      readTurn branches items source c rest >>=
        takeTurn steps level branches items source.flags := by
  rw [readAlternatives_succ, h]
  simp only

end

/-! ## Turns and the closing parenthesis -/

abbrev ItemsOrdered (items : List Item) : Prop :=
  ∀ item ∈ items, item.pattern.Ordered

def Turn.Fits (rest : List Char) : Turn → Prop
  | .next branches items source =>
    source.rest <:+ rest ∧ (∀ p ∈ branches, p.Ordered) ∧ ItemsOrdered items
  | .group inner => inner.rest <:+ rest

theorem ordered_cat : (ps : List Pattern) → (∀ p ∈ ps, p.Ordered) → (Pattern.sequence ps).Ordered
  | [], _ => trivial
  | [p], h => h p List.mem_cons_self
  | p :: q :: rest, h =>
      ⟨h p List.mem_cons_self, ordered_cat (q :: rest) fun r hr => h r (List.mem_cons_of_mem p hr)⟩

theorem ordered_alt : (ps : List Pattern) → (∀ p ∈ ps, p.Ordered) →
    (Pattern.alternatives ps).Ordered
  | [], _ => trivial
  | [p], h => h p List.mem_cons_self
  | p :: q :: rest, h =>
      ⟨h p List.mem_cons_self, ordered_alt (q :: rest) fun r hr => h r (List.mem_cons_of_mem p hr)⟩

theorem sequenceOf_ordered {items : List Item} (h : ItemsOrdered items) :
    (sequenceOf items).Ordered := by
  refine ordered_cat _ fun p hp => ?_
  obtain ⟨item, hitem, rfl⟩ := List.mem_map.mp hp
  exact h item (List.mem_reverse.mp hitem)

theorem finished_ordered {branches : List Pattern} {items : List Item}
    (hbranches : ∀ p ∈ branches, p.Ordered) (hitems : ItemsOrdered items) :
    (finished branches items).Ordered := by
  refine ordered_alt _ fun p hp => ?_
  rcases List.mem_cons.mp (List.mem_reverse.mp hp) with rfl | hp
  · exact sequenceOf_ordered hitems
  · exact hbranches p hp

theorem repeatLast_ordered {items : List Item} (h : ItemsOrdered items) (min : Nat)
    (max : Option Nat) (hbounds : ∀ m ∈ max, min ≤ m) :
    Ensures ItemsOrdered (repeatLast items min max) := by
  cases items with
  | nil => exact .fails
  | cons item before =>
      obtain ⟨hitem, hbefore⟩ := List.forall_mem_cons.mp h
      exact .ite (fun _ => .of_ok (List.forall_mem_cons.mpr ⟨⟨hitem, hbounds⟩, hbefore⟩))
        fun _ => .fails

theorem anchorPattern_ordered (flags : Flags) (condition : Anchor) :
    (anchorPattern flags condition).Ordered := by
  cases condition <;> trivial

theorem escapedPattern_ordered (flags : Flags) (escaped : Escaped) :
    Ensures Pattern.Ordered (escapedPattern flags escaped) := by
  cases escaped with
  | literal c => exact .of_ok trivial
  | byte c => exact .ite (fun _ => .of_ok trivial) fun _ => .fails
  | set set => exact .of_ok trivial
  | anchor condition => exact .of_ok (anchorPattern_ordered flags condition)

theorem dotPattern_ordered (flags : Flags) : Ensures Pattern.Ordered (dotPattern flags) := by
  rw [dotPattern]
  exact .ite (fun _ => .fails) fun _ => .ite (fun _ => .of_ok trivial) fun _ =>
    .ite (fun _ => .of_ok trivial) fun _ => .of_ok trivial

theorem lineAnchor_ordered (flags : Flags) (start : Bool) : (lineAnchor flags start).Ordered := by
  rw [lineAnchor.eq_def]
  split <;> trivial

theorem readTurn_fits {branches : List Pattern} {items : List Item}
    (hbranches : ∀ p ∈ branches, p.Ordered) (hitems : ItemsOrdered items) (source : Source)
    (c : Char) (rest : List Char) :
    Ensures (Turn.Fits rest) (readTurn branches items source c rest) := by
  have hone : ∀ (p : Pattern) (left : List Char), p.Ordered → left <:+ rest →
      Ensures (Turn.Fits rest)
        (.ok (.next branches (⟨p, true⟩ :: items) { source with rest := left })) :=
    fun p left hp hleft => .of_ok ⟨hleft, hbranches, List.forall_mem_cons.mpr ⟨hp, hitems⟩⟩
  have hrepeat : ∀ (min : Nat) (max : Option Nat) (left : List Char), (∀ m ∈ max, min ≤ m) →
      left <:+ rest → Ensures (Turn.Fits rest) (repeatTurn branches items source min max left) :=
    fun min max left hbounds hleft => (repeatLast_ordered hitems min max hbounds).bind
      fun _ h => .of_ok ⟨hleft, hbranches, h⟩
  have hrefl := List.suffix_refl rest
  have hlazy := skipLazy_suffix rest
  rw [readTurn.eq_def]
  split
  · exact .of_ok ⟨hrefl, List.forall_mem_cons.mpr ⟨sequenceOf_ordered hitems, hbranches⟩,
      List.forall_mem_nil _⟩
  · refine (readOpening_within { source with rest }).bind fun opening h => .of_ok ?_
    cases opening with
    | group inner => exact h
    | flags source => exact ⟨h, hbranches, List.forall_mem_cons.mpr ⟨trivial, hitems⟩⟩
  · exact (readClass_within source.flags rest).bind fun b hb => hone _ _ trivial hb
  · exact hrepeat 0 (some 1) _ (fun _ h => by cases h; exact Nat.zero_le _) hlazy
  · exact hrepeat 0 none _ (fun _ h => by cases h) hlazy
  · exact hrepeat 1 none _ (fun _ h => by cases h) hlazy
  · exact .bind_any fun _ => (readBounds_inOrder source.flags rest).bind fun b hb =>
      hrepeat _ _ _ hb.2 ((skipLazyCount_suffix source.flags b.2).trans hb.1)
  · exact (readEscape_within source.flags rest).bind fun b hb =>
      (escapedPattern_ordered source.flags b.1).bind fun p hp => hone p _ hp hb
  · exact (dotPattern_ordered source.flags).bind fun p hp => hone p _ hp hrefl
  · exact hone _ _ (lineAnchor_ordered source.flags true) hrefl
  · exact hone _ _ (lineAnchor_ordered source.flags false) hrefl
  · exact hone _ _ trivial hrefl

def Turn.Strays (n : Nat) : Turn → Prop
  | .next _ _ source => source.rest <:+ List.replicate n '$' ∨
      ∃ rest, source.rest = '\x7b' :: rest ∧ Ensures Never (readBounds source.flags rest)
  | .group inner => inner.rest <:+ closing n

theorem readTurn_extends (branches : List Pattern) (items : List Item) (source : Source) (c : Char)
    (rest : List Char) :
    Extends (Turn.append · (closing n)) (Turn.Strays n) (readTurn branches items source c rest)
      (readTurn branches items source c (rest ++ closing n)) ∨
    ∃ inner, inner.rest = [] ∧ readTurn branches items source c rest = .ok (.group inner) ∧
      readTurn branches items source c (rest ++ closing n) = .ok (.group inner) := by
  have hrepeat : ∀ min max left, Extends (Turn.append · (closing n)) (Turn.Strays n)
      (repeatTurn branches items source min max left)
      (repeatTurn branches items source min max (left ++ closing n)) :=
    fun min max left => .bind_same _ fun _ => .of_ok rfl
  rw [readTurn.eq_def, readTurn.eq_def]
  split
  case h_2 =>
    rcases readOpening_extends (n := n) { source with rest } with hopening | ⟨h, h'⟩
    · refine .inl (hopening.bind (fun opening _ => .of_ok ?_) fun opening hpasses => .of_ok ?_)
      · cases opening <;> rfl
      · cases opening with
        | group inner => exact hpasses.trans dollars_suffix
        | flags source => exact .inl hpasses
    · replace h' : readOpening { source with rest := rest ++ closing n } = _ := h'
      rw [h, h']
      exact .inr ⟨_, rfl, rfl, rfl⟩
  case h_3 =>
    refine .inl ((readClass_extends source.flags rest).bind (fun _ _ => .of_ok rfl) fun _ h => ?_)
    exact .of_ok (.inl h)
  case h_7 =>
    exact .inl (.bind_same _ fun _ => (readBounds_extends source.flags rest).bind_never
      fun b _ => by rw [behind, skipLazyCount_closing]; exact hrepeat _ _ _)
  case h_8 =>
    refine .inl ((readEscape_extends source.flags rest).bind
      (fun _ _ => .bind_same _ fun _ => .of_ok rfl) fun b hb => .bind_any fun _ => .of_ok ?_)
    exact hb.imp_right And.right
  case h_4 | h_5 | h_6 =>
    rw [skipLazy_closing]
    exact .inl (hrepeat _ _ (skipLazy rest))
  case h_9 => exact .inl (.bind_same _ fun _ => .of_ok rfl)
  all_goals exact .inl (.of_ok rfl)

/-! ## The reading of a pattern -/

structure Reads (rest : List Char) (b : Pattern × Source) : Prop where
  ordered : b.1.Ordered
  suffix : b.2.rest <:+ rest

theorem ending_reads {level : Nat} {pattern : Pattern} (h : pattern.Ordered) (source : Source)
    (seen : List Char) : Ensures (Reads seen.tail) (ending level pattern source seen) := by
  cases seen with
  | nil => exact .ite (fun _ => .of_ok ⟨h, List.nil_suffix⟩) fun _ => .fails
  | cons c rest => exact .ite (fun _ => .fails) fun _ => .of_ok ⟨h, List.suffix_refl rest⟩

theorem readAlternatives_reads (steps : Nat) : ∀ (level : Nat) (branches : List Pattern)
    (items : List Item) (source : Source), (∀ p ∈ branches, p.Ordered) → ItemsOrdered items →
    Ensures (Reads (skipIgnored source.flags source.rest).tail)
      (readAlternatives steps level branches items source) := by
  induction steps with
  | zero => exact fun _ _ _ _ _ _ => .fails
  | succ steps ih =>
      intro level branches items source hbranches hitems
      have hfinished := finished_ordered hbranches hitems
      rw [readAlternatives_succ]
      cases skipIgnored source.flags source.rest with
      | nil => exact ending_reads hfinished source []
      | cons c rest =>
          have hrec : ∀ level branches items source, (∀ p ∈ branches, p.Ordered) →
              ItemsOrdered items → source.rest <:+ rest →
              Ensures (Reads rest) (readAlternatives steps level branches items source) :=
            fun level branches items source hbranches hitems hsource =>
              (ih level branches items source hbranches hitems).mono fun _ h => ⟨h.ordered,
                ((h.suffix.trans (List.tail_suffix _)).trans
                  (skipIgnored_suffix _ _)).trans hsource⟩
          split
          · next heq => cases heq
          · next heq =>
            cases heq
            exact ending_reads hfinished source (')' :: rest)
          · next heq =>
            cases heq
            refine (readTurn_fits hbranches hitems source c rest).bind fun turn hturn => ?_
            cases turn with
            | next branches items source => exact hrec _ _ _ _ hturn.2.1 hturn.2.2 hturn.1
            | group inner =>
                refine .ite (fun _ => .fails) fun _ => ?_
                refine (hrec _ [] [] inner (List.forall_mem_nil _) (List.forall_mem_nil _)
                  hturn).bind fun b hb => ?_
                exact hrec _ _ _ _ hbranches (List.forall_mem_cons.mpr ⟨hb.ordered, hitems⟩) hb.suffix

/-! ## Behind the closing parenthesis -/

theorem dollars_fail (steps : Nat) : ∀ (level : Nat) (branches : List Pattern) (items : List Item)
    (source : Source), level ≠ 0 → source.rest <:+ List.replicate n '$' →
    Ensures Never (readAlternatives steps level branches items source) := by
  induction steps with
  | zero => exact fun _ _ _ _ _ _ => .fails
  | succ steps ih =>
      intro level branches items source hlevel hsource
      rw [readAlternatives_succ]
      obtain ⟨rest, flags, names⟩ := source
      cases rest with
      | nil =>
          rw [skipIgnored_nil, ending,
            if_neg (by simpa using hlevel)]
          exact .fails
      | cons c rest =>
          obtain rfl : c = '$' :=
            List.eq_of_mem_replicate (hsource.subset List.mem_cons_self)
          have hseen : skipIgnored flags ('$' :: rest) = '$' :: rest := by
            rw [skipIgnored]
            split <;> rfl
          rw [hseen]
          exact ih _ _ _ _ hlevel ((List.suffix_cons _ _).trans hsource)

theorem unbounded_fails (steps level : Nat) (branches : List Pattern) (items : List Item)
    (source : Source) {rest : List Char} (hrest : source.rest = '\x7b' :: rest)
    (hbounds : Ensures Never (readBounds source.flags rest)) :
    Ensures Never (readAlternatives steps level branches items source) := by
  cases steps with
  | zero => exact .fails
  | succ steps =>
      have hseen : skipIgnored source.flags ('\x7b' :: rest) = '\x7b' :: rest := by
        rw [skipIgnored]
        split <;> rfl
      rw [readAlternatives_succ, hrest, hseen]
      exact .fails_bind (.bind_any fun _ => .fails_bind hbounds)

theorem takeTurn_strays {steps level : Nat} (branches : List Pattern) (items : List Item)
    (flags : Flags) {turn : Turn} (h : turn.Strays n) (hlevel : level ≠ 0) :
    Ensures Never (takeTurn steps level branches items flags turn) := by
  cases turn with
  | next branches items source =>
      rcases h with hdollars | ⟨rest, hrest, hbounds⟩
      · exact dollars_fail steps level branches items source hlevel hdollars
      · exact unbounded_fails steps level branches items source hrest hbounds
  | group inner =>
      refine .ite (fun _ => .fails) fun _ => ?_
      refine (readAlternatives_reads steps (level + 1) [] [] inner (List.forall_mem_nil _)
        (List.forall_mem_nil _)).bind fun b hb => ?_
      exact dollars_fail steps level _ _ _ hlevel (hb.suffix.trans
        (tail_suffix_dollars ((skipIgnored_suffix _ _).trans h)))

/-! ## A pattern and the closing parenthesis -/

def InLonger (level : Nat) (branches : List Pattern) (items : List Item) (source : Source)
    (P : Nat → Nat → Except Reason (Pattern × Source) → Prop) : Prop :=
  ∀ n level' steps, level ≤ level' → (source.rest ++ closing n).length < steps →
    P n level' (readAlternatives steps level' branches items (source.append (closing n)))

/-- A result, unless groups are nested too deeply on the other level. -/
def Shallow (level level' : Nat) (expected r : Except Reason (Pattern × Source)) : Prop :=
  r = expected ∨ level < level' ∧ r = .error .nestedTooDeep

/--
How the reading of a text ends, and what follows for the longer text: at the end of the text, where
the closing parenthesis is seen or swallowed by a comment; at an own closing parenthesis of the text;
with a failure, which then meets the longer text as well; or at a parenthesis that nothing opens.
-/
inductive Outcome (text : List Char) (level : Nat) (r : Except Reason (Pattern × Source))
    (longer : (Nat → Nat → Except Reason (Pattern × Source) → Prop) → Prop) : Prop where
  | ended (pattern : Pattern) (source : Source) (swallowed : Bool) :
      r = ending level pattern source [] → (swallowed = true → '#' ∈ text) →
      longer (fun n level' => Shallow level level'
        (ending level' pattern source (if swallowed then [] else closing n))) →
      Outcome text level r longer
  | closed (pattern : Pattern) (source : Source) : r = .ok (pattern, source) → level ≠ 0 →
      longer (fun n level' => Shallow level level' (.ok (pattern, source.append (closing n)))) →
      Outcome text level r longer
  | failed (e : Reason) : r = .error e →
      longer (fun _ level' r' => level' ≠ 0 → Ensures Never r') → Outcome text level r longer
  | unopened : r = .error .groupUnopened → level = 0 → Outcome text level r longer

theorem Outcome.transfer {text text' : List Char} {level : Nat}
    {r : Except Reason (Pattern × Source)}
    {longer longer' : (Nat → Nat → Except Reason (Pattern × Source) → Prop) → Prop}
    (h : Outcome text level r longer) (htext : text <:+ text')
    (hlonger : ∀ P : Nat → Nat → Except Reason (Pattern × Source) → Prop,
      (∀ n level', level < level' → P n level' (.error .nestedTooDeep)) → longer P → longer' P) :
    Outcome text' level r longer' := by
  cases h with
  | ended pattern source swallowed hr hcomment h =>
      exact .ended pattern source swallowed hr (fun hs => htext.subset (hcomment hs))
        (hlonger _ (fun _ _ hlt => .inr ⟨hlt, rfl⟩) h)
  | closed pattern source hr hlevel h =>
      exact .closed pattern source hr hlevel (hlonger _ (fun _ _ hlt => .inr ⟨hlt, rfl⟩) h)
  | failed e hr h => exact .failed e hr (hlonger _ (fun _ _ _ _ => .fails) h)
  | unopened hr hlevel => exact .unopened hr hlevel

theorem takeTurn_empty {steps level : Nat} {branches : List Pattern} {items : List Item}
    {flags : Flags} {inner : Source} (h : inner.rest = []) :
    Ensures Never (takeTurn steps level branches items flags (.group inner)) := by
  refine .ite (fun _ => .fails) fun _ => .fails_bind ?_
  cases steps with
  | zero => exact .fails
  | succ steps =>
      rw [readAlternatives_nil (by rw [h, skipIgnored_nil])]
      exact .fails

def Outcomes (steps : Nat) : Prop :=
  ∀ (level : Nat) (branches : List Pattern) (items : List Item) (source : Source),
    (∀ p ∈ branches, p.Ordered) → ItemsOrdered items → source.rest.length < steps →
    Outcome source.rest level (readAlternatives steps level branches items source)
      (InLonger level branches items source)

def TurnInLonger (level : Nat) (branches : List Pattern) (items : List Item) (flags : Flags)
    (turn : Turn) (rest : List Char) (P : Nat → Nat → Except Reason (Pattern × Source) → Prop) :
    Prop :=
  ∀ n level' steps, level ≤ level' → (rest ++ closing n).length < steps →
    P n level' (takeTurn steps level' branches items flags (turn.append (closing n)))

theorem append_lt {cs rest more : List Char} {steps : Nat} (hsuffix : cs <:+ rest)
    (h : (rest ++ more).length < steps) : (cs ++ more).length < steps := by
  have hle := hsuffix.length_le
  rw [List.length_append] at h ⊢
  omega

theorem takeTurn_group_outcome {steps : Nat} (ih : Outcomes steps) {level : Nat}
    (hlevel : level < maxNesting) {branches : List Pattern} {items : List Item}
    (hbranches : ∀ p ∈ branches, p.Ordered) (hitems : ItemsOrdered items) (flags : Flags)
    {inner : Source} {rest : List Char} (hinner : inner.rest <:+ rest)
    (hrest : rest.length < steps) :
    Outcome rest level (takeTurn steps level branches items flags (.group inner))
      (TurnInLonger level branches items flags (.group inner) rest) := by
  have hreads := readAlternatives_reads steps (level + 1) [] [] inner (List.forall_mem_nil _)
    (List.forall_mem_nil _)
  rw [takeTurn_group hlevel]
  cases ih (level + 1) [] [] inner (List.forall_mem_nil _) (List.forall_mem_nil _)
      (Nat.lt_of_le_of_lt hinner.length_le hrest) with
  | ended pattern source swallowed hr _ h =>
      refine .failed .groupUnclosed (by rw [hr]; rfl) fun n level' steps' hle hlt hzero => ?_
      -- The added parenthesis ends this group, so none is left for the group around it.
      have hpast : Ensures (fun b : Pattern × Source => b.2.rest <:+ List.replicate n '$')
          (readAlternatives steps' (level' + 1) [] [] (inner.append (closing n))) := by
        rcases h n (level' + 1) steps' (Nat.succ_le_succ hle) (append_lt hinner hlt) with h | ⟨_, h⟩
        · rw [h]
          cases swallowed with
          | true => exact .fails
          | false => exact .of_ok (List.suffix_refl _)
        · rw [h]
          exact .fails
      exact .ite (fun _ => .fails) fun _ => hpast.bind fun b hb =>
        dollars_fail steps' level' _ _ _ hzero hb
  | closed pattern source hr _ h =>
      obtain ⟨hordered, hsuffix⟩ := hreads _ hr
      have hsource : source.rest <:+ rest :=
        ((hsuffix.trans (List.tail_suffix _)).trans (skipIgnored_suffix _ _)).trans hinner
      rw [hr]
      refine (ih level branches (⟨pattern, true⟩ :: items) { source with flags } hbranches
        (List.forall_mem_cons.mpr ⟨hordered, hitems⟩)
        (Nat.lt_of_le_of_lt hsource.length_le hrest)).transfer hsource
        fun P hdeep hP n level' steps' hle hlt => ?_
      rcases Nat.lt_or_ge level' maxNesting with hlevel' | hlevel'
      · rw [Turn.append, takeTurn_group hlevel']
        rcases h n (level' + 1) steps' (Nat.succ_le_succ hle) (append_lt hinner hlt) with
          h | ⟨hdeeper, h⟩
        · rw [h]
          exact hP n level' steps' hle (append_lt hsource hlt)
        · rw [h]
          exact hdeep n level' (Nat.lt_of_succ_lt_succ hdeeper)
      · rw [Turn.append, takeTurn_group_deep hlevel']
        exact hdeep n level' (Nat.lt_of_lt_of_le hlevel hlevel')
  | failed e hr h =>
      refine .failed e (by rw [hr]; rfl) fun n level' steps' hle hlt hzero => ?_
      exact .ite (fun _ => .fails) fun _ => .fails_bind
        (h n (level' + 1) steps' (Nat.succ_le_succ hle) (append_lt hinner hlt) (Nat.succ_ne_zero _))
  | unopened _ h => exact absurd h (Nat.succ_ne_zero level)

theorem takeTurn_outcome {steps : Nat} (ih : Outcomes steps) (level : Nat) {branches : List Pattern}
    {items : List Item} (hbranches : ∀ p ∈ branches, p.Ordered) (hitems : ItemsOrdered items)
    (flags : Flags) {turn : Turn} {rest : List Char} (hfits : turn.Fits rest)
    (hrest : rest.length < steps) :
    Outcome rest level (takeTurn steps level branches items flags turn)
      (TurnInLonger level branches items flags turn rest) := by
  cases turn with
  | next branches items source =>
      obtain ⟨hsource, hbranches, hitems⟩ := hfits
      exact (ih level branches items source hbranches hitems
        (Nat.lt_of_le_of_lt hsource.length_le hrest)).transfer hsource
          fun P _ h n level' steps' hle hlt => h n level' steps' hle (append_lt hsource hlt)
  | group inner =>
      rcases Nat.lt_or_ge level maxNesting with hlevel | hlevel
      · exact takeTurn_group_outcome ih hlevel hbranches hitems flags hfits hrest
      · refine .failed .nestedTooDeep (takeTurn_group_deep hlevel) fun n level' _ hle _ _ => ?_
        rw [Turn.append, takeTurn_group_deep (Nat.le_trans hlevel hle)]
        exact .fails

theorem readTurn_outcome {steps : Nat} (ih : Outcomes steps) (level : Nat) {branches : List Pattern}
    {items : List Item} (hbranches : ∀ p ∈ branches, p.Ordered) (hitems : ItemsOrdered items)
    (source : Source) (c : Char) {rest : List Char} (hrest : rest.length < steps) :
    Outcome rest level (readTurn branches items source c rest >>=
        takeTurn steps level branches items source.flags)
      fun P => ∀ n level' steps', level ≤ level' → (rest ++ closing n).length < steps' →
        P n level' (readTurn branches items source c (rest ++ closing n) >>=
          takeTurn steps' level' branches items source.flags) := by
  have hextends := fun n => readTurn_extends (n := n) branches items source c rest
  cases hr : readTurn branches items source c rest with
  | error e =>
      refine .failed e rfl fun n level' steps' _ _ hzero => ?_
      obtain hextends | ⟨_, _, h, _⟩ := hextends n
      · exact (hextends.error hr).bind fun turn hturn => takeTurn_strays _ _ _ hturn hzero
      · rw [hr] at h
        cases h
  | ok turn =>
      by_cases hempty : ∃ inner, turn = .group inner ∧ inner.rest = []
      · obtain ⟨inner, rfl, hinner⟩ := hempty
        obtain ⟨e, he⟩ := (takeTurn_empty hinner).exists_error
        refine .failed e he fun n level' steps' _ _ hzero => ?_
        obtain hextends | ⟨_, hinner', _, h'⟩ := hextends n
        · have hstrays : ((Turn.group inner).append (closing n)).Strays n := by
            rw [Turn.append, Turn.Strays, Source.append, hinner]
            exact List.suffix_refl _
          rw [hextends.ok hr]
          exact takeTurn_strays _ _ _ hstrays hzero
        · rw [h']
          exact takeTurn_empty hinner'
      · have hturn : ∀ n, readTurn branches items source c (rest ++ closing n) =
            .ok (turn.append (closing n)) := by
          intro n
          obtain hextends | ⟨inner, hinner, h, _⟩ := hextends n
          · exact hextends.ok hr
          · rw [hr] at h
            cases h
            exact absurd ⟨inner, rfl, hinner⟩ hempty
        refine (takeTurn_outcome ih level hbranches hitems source.flags
          (readTurn_fits hbranches hitems source c rest turn hr) hrest).transfer (List.suffix_refl rest)
          fun P _ h n level' steps' hle hlt => ?_
        rw [hturn]
        exact h n level' steps' hle hlt

/--
How the reading of a text ends decides what the same text with a closing parenthesis behind it is
read as.
-/
theorem readAlternatives_outcome (steps : Nat) : Outcomes steps := by
  induction steps with
  | zero => exact fun _ _ _ _ _ _ h => absurd h (Nat.not_lt_zero _)
  | succ steps ih =>
      intro level branches items source hbranches hitems hsteps
      -- With any fuel that is enough for the longer text there is a step left.
      have hsucc : ∀ {n steps' : Nat}, (source.rest ++ closing n).length < steps' →
          ∃ left, steps' = left + 1 := fun {n steps'} h => by
        cases steps' with
        | zero => exact absurd h (Nat.not_lt_zero _)
        | succ left => exact ⟨left, rfl⟩
      obtain ⟨c, rest, h, h'⟩ | ⟨h, h'⟩ | ⟨h, h'⟩ := skipIgnored_cases source.flags source.rest
      · rcases eq_or_ne c ')' with rfl | hc
        · rcases eq_or_ne level 0 with rfl | hlevel
          · exact .unopened (readAlternatives_close h) rfl
          · refine .closed (finished branches items) { source with rest } ?_ hlevel
              fun n level' steps' hle hlt => ?_
            · rw [readAlternatives_close h, ending, if_neg (by simpa using hlevel)]
            · obtain ⟨left, rfl⟩ := hsucc hlt
              have hlevel' : level' ≠ 0 := by omega
              refine .inl ((readAlternatives_close (h' n)).trans ?_)
              rw [ending, if_neg (by simpa using hlevel')]
              rfl
        · have hseen : (c :: rest) <:+ source.rest := h ▸ skipIgnored_suffix _ _
          have hlength := hseen.length_le
          rw [List.length_cons] at hlength
          rw [readAlternatives_turn h hc]
          refine (readTurn_outcome ih level hbranches hitems source c (by omega)).transfer
            ((List.suffix_cons c rest).trans hseen) fun P _ hP n level' steps' hle hlt => ?_
          obtain ⟨left, rfl⟩ := hsucc hlt
          rw [readAlternatives_turn (h' n) hc]
          refine hP n level' left hle ?_
          rw [List.length_append] at hlt ⊢
          omega
      · refine .ended (finished branches items) source false (readAlternatives_nil h)
          (fun hs => by cases hs) fun n level' steps' _ hlt => ?_
        obtain ⟨left, rfl⟩ := hsucc hlt
        exact .inl (readAlternatives_close (h' n))
      · refine .ended (finished branches items) source true (readAlternatives_nil h)
          (fun _ => mem_of_swallowed source.flags (h' 0)) fun n level' steps' _ hlt => ?_
        obtain ⟨left, rfl⟩ := hsucc hlt
        exact .inl (readAlternatives_nil (h' n))

end FormDerivation.Pattern
