import FormDerivation.Proofs.Pattern.Classes

/-!
# Groups of patterns and a closing parenthesis

What stands behind an opening parenthesis, with a closing parenthesis behind the text: flags, names
and the beginning of a group (`Pattern.readOpening_extends`).  An unfinished name takes in what is
added to the text and fails; unfinished flags are ended by the closing parenthesis, which then ends no
group.
-/

namespace FormDerivation.Pattern

variable {n : Nat}

/-! ## Flags -/

theorem readFlags_within : (cs : List Char) → (flags : Flags) → (seen : List Char) →
    (negated dangling : Bool) →
    Ensures (fun b => b.2 <:+ cs ∧ b.2 ≠ []) (readFlags flags seen negated dangling cs)
  | [], _, _, _, _ => .fails
  | c :: rest, flags, seen, negated, dangling => by
      have hrec : ∀ flags seen negated dangling, Ensures (fun b => b.2 <:+ c :: rest ∧ b.2 ≠ [])
          (readFlags flags seen negated dangling rest) := fun flags seen negated dangling =>
        (readFlags_within rest flags seen negated dangling).mono
          fun _ h => ⟨h.1.trans (List.suffix_cons c rest), h.2⟩
      rw [readFlags]
      refine .ite (fun _ => .ite (fun _ => .fails) fun _ => ?_) fun _ =>
        .ite (fun _ => .ite (fun _ => .fails) fun _ => hrec _ _ _ _) fun _ => ?_
      · exact .of_ok ⟨List.suffix_refl _, List.cons_ne_nil _ _⟩
      · split
        · exact .fails
        · exact .ite (fun _ => .fails) fun _ => hrec _ _ _ _

theorem readFlags_extends : (cs : List Char) → (flags : Flags) → (seen : List Char) →
    (negated dangling : Bool) →
    Extends (behind (closing n)) (Within (closing n)) (readFlags flags seen negated dangling cs)
      (readFlags flags seen negated dangling (cs ++ closing n))
  | [], flags, seen, negated, dangling =>
      .of_error ((readFlags_within (closing n) flags seen negated dangling).mono fun _ h => h.1)
  | c :: rest, flags, seen, negated, dangling => by
      rw [List.cons_append, readFlags, readFlags]
      refine .ite (fun _ => .ite (fun _ => .fails) fun _ => .of_ok rfl) fun _ =>
        .ite (fun _ => .ite (fun _ => .fails) fun _ => readFlags_extends rest _ _ _ _) fun _ => ?_
      cases flags.set? c !negated with
      | none => exact .fails
      | some next => exact .ite (fun _ => .fails) fun _ => readFlags_extends rest _ _ _ _

/-! ## Names -/

theorem readGroupName_within (names : List String) (cs : List Char) :
    Ensures (Within cs) (readGroupName names cs) := by
  rw [readGroupName]
  split
  · exact .fails
  · exact .ite (fun _ => .fails) fun _ => .ite (fun _ => .fails) fun _ =>
      .ite (fun _ => .fails) fun _ => .of_ok (List.drop_suffix _ _)

theorem readGroupName_extends (names : List String) (cs : List Char) :
    Extends (behind (closing n)) Never (readGroupName names cs)
      (readGroupName names (cs ++ closing n)) := by
  rw [readGroupName, readGroupName]
  obtain ⟨hall, h⟩ | ⟨hlt, h⟩ := takeWhile_ne_cases (c := '>') (by decide) (by decide) cs
  · -- The closing parenthesis becomes part of the name.
    have hclosing : (closing n).all (isNameChar false) = false := rfl
    rw [(List.takeWhile_prefix _).eq_of_length hall, h]
    cases cs with
    | nil => exact .fails
    | cons first others =>
        simp only [List.cons_append, List.all_append, hclosing, Bool.and_false, Bool.not_false,
          Bool.or_true, if_true, BEq.rfl]
        split
        · exact .fails
        · exact .fails
  · have hne : (cs.takeWhile (· != '>')).length ≠ (cs ++ closing n).length := by
      rw [List.length_append]
      omega
    have hdrop : (cs ++ closing n).drop ((cs.takeWhile (· != '>')).length + 1) =
        cs.drop ((cs.takeWhile (· != '>')).length + 1) ++ closing n :=
      List.drop_append_of_le_length hlt
    rw [h]
    generalize cs.takeWhile (· != '>') = name at hlt hne hdrop
    cases name with
    | nil => exact .fails
    | cons first others =>
        simp only [beq_eq_false_iff_ne.mpr hne, beq_eq_false_iff_ne.mpr (Nat.ne_of_lt hlt)]
        exact .ite (fun _ => .fails) fun _ => .ite (fun _ => .fails) fun _ =>
          .ite (fun _ => .fails) fun _ => .of_ok (congrArg (Prod.mk _) hdrop)

/-! ## Openings -/

def Opening.source : Opening → Source
  | .group source => source
  | .flags source => source

def Source.append (source : Source) (more : List Char) : Source :=
  { source with rest := source.rest ++ more }

def Opening.append (opening : Opening) (more : List Char) : Opening :=
  match opening with
  | .group source => .group (source.append more)
  | .flags source => .flags (source.append more)

def openNamed (source : Source) (cs : List Char) : Except Reason Opening :=
  readGroupName source.names cs >>= fun b =>
    .ok (.group { source with rest := b.2, names := b.1 :: source.names })

def openFlagged (source : Source) (b : Flags × List Char) : Opening :=
  match b.2 with
  | ':' :: rest => .group { source with rest, flags := b.1 }
  | rest => .flags { source with rest := rest.drop 1, flags := b.1 }

def openQuestion (source : Source) (cs : List Char) : Except Reason Opening :=
  match cs with
  | '=' :: _ => .error .lookAround
  | '!' :: _ => .error .lookAround
  | '<' :: '=' :: _ => .error .lookAround
  | '<' :: '!' :: _ => .error .lookAround
  | 'P' :: '<' :: rest => openNamed source rest
  | '<' :: rest => openNamed source rest
  | [] => .error .groupUnclosed
  | ')' :: _ => .error .repetitionMissing
  | cs => readFlags source.flags [] false false cs >>= fun b => .ok (openFlagged source b)

theorem readOpening_eq (source : Source) : readOpening source =
    match skipIgnored source.flags source.rest with
    | '?' :: rest => openQuestion source rest
    | rest => .ok (.group { source with rest }) := by
  rw [readOpening]
  cases skipIgnored source.flags source.rest with
  | nil => rfl
  | cons c rest =>
    rcases eq_or_ne c '?' with rfl | hc
    · simp only [openQuestion, openNamed]
      split
      case h_9 h =>
        cases h
        simp only [*]
        refine congrArg (readFlags source.flags [] false false rest >>= ·) (funext fun b => ?_)
        split <;> simp [openFlagged, *]
      all_goals simp_all
    · simp [hc]

abbrev Opening.Passes (n : Nat) (opening : Opening) : Prop :=
  opening.source.rest <:+ List.replicate n '$'

theorem openNamed_extends (source : Source) (cs : List Char) :
    Extends (Opening.append · (closing n)) (Opening.Passes n) (openNamed source cs)
      (openNamed source (cs ++ closing n)) :=
  (readGroupName_extends source.names cs).bind_never fun _ _ => .of_ok rfl

theorem openFlagged_append (source : Source) {b : Flags × List Char} (h : b.2 ≠ [])
    (more : List Char) :
    openFlagged source (behind more b) = (openFlagged source b).append more := by
  obtain ⟨flags, rest⟩ := b
  cases rest with
  | nil => exact absurd rfl h
  | cons c rest =>
      rcases eq_or_ne c ':' with rfl | hc
      · rfl
      · simp only [openFlagged, List.cons_append, List.cons.injEq, hc, false_and, imp_self,
          implies_true]
        rfl

theorem openFlagged_suffix (source : Source) (b : Flags × List Char) :
    (openFlagged source b).source.rest <:+ b.2.tail := by
  rw [openFlagged]
  split
  · next rest hrest =>
    rw [hrest]
    exact List.suffix_refl _
  · rw [← List.drop_one]
    exact List.suffix_refl _

theorem openQuestion_extends (source : Source) (cs : List Char) :
    Extends (Opening.append · (closing n)) (Opening.Passes n) (openQuestion source cs)
      (openQuestion source (cs ++ closing n)) := by
  have hflags : Extends (Opening.append · (closing n)) (Opening.Passes n)
      (readFlags source.flags [] false false cs >>= fun b => .ok (openFlagged source b))
      (readFlags source.flags [] false false (cs ++ closing n) >>= fun b =>
        .ok (openFlagged source b)) :=
    (readFlags_extends cs source.flags [] false false).bind
      (fun b hb => .of_ok (openFlagged_append source (readFlags_within _ _ _ _ _ b hb).2 _))
      fun b hb => .of_ok ((openFlagged_suffix source b).trans (tail_suffix_dollars hb))
  cases cs with
  | nil => exact .fails
  | cons c rest =>
    rcases eq_or_ne c '=' with rfl | hequal
    · exact .fails
    rcases eq_or_ne c '!' with rfl | hbang
    · exact .fails
    rcases eq_or_ne c ')' with rfl | hclose
    · exact .fails
    rcases eq_or_ne c '<' with rfl | hangle
    · cases rest with
      | nil => exact openNamed_extends source []
      | cons d rest =>
        rcases eq_or_ne d '=' with rfl | hequal
        · exact .fails
        rcases eq_or_ne d '!' with rfl | hbang
        · exact .fails
        simpa [openQuestion, hequal, hbang] using openNamed_extends source (d :: rest)
    rcases eq_or_ne c 'P' with rfl | hname
    · cases rest with
      | nil => exact hflags
      | cons d rest =>
        rcases eq_or_ne d '<' with rfl | hangle
        · exact openNamed_extends source rest
        · simpa [openQuestion, hangle] using hflags
    simpa [openQuestion, hequal, hbang, hclose, hangle, hname] using hflags

theorem openQuestion_within (source : Source) (cs : List Char) :
    Ensures (fun opening => opening.source.rest <:+ cs) (openQuestion source cs) := by
  have hnamed : ∀ rest, rest <:+ cs →
      Ensures (fun opening => opening.source.rest <:+ cs) (openNamed source rest) :=
    fun rest hrest => (readGroupName_within source.names rest).bind fun _ hb =>
      .of_ok (hb.trans hrest)
  rw [openQuestion.eq_def]
  split
  case h_5 => exact hnamed _ ((List.suffix_cons _ _).trans (List.suffix_cons _ _))
  case h_6 => exact hnamed _ (List.suffix_cons _ _)
  case h_9 =>
    refine (readFlags_within _ _ _ _ _).bind fun b hb => .of_ok ?_
    exact ((openFlagged_suffix source b).trans (List.tail_suffix _)).trans hb.1
  all_goals exact .fails

theorem readOpening_within (source : Source) :
    Ensures (fun opening => opening.source.rest <:+ source.rest) (readOpening source) := by
  have hskip := skipIgnored_suffix source.flags source.rest
  rw [readOpening_eq]
  split
  · next rest hseen =>
    exact (openQuestion_within source rest).mono fun _ h =>
      h.trans (suffix_of_seen source.flags hseen)
  · exact .of_ok hskip

theorem readOpening_extends (source : Source) :
    Extends (Opening.append · (closing n)) (Opening.Passes n) (readOpening source)
      (readOpening (source.append (closing n))) ∨
    (readOpening source = .ok (.group { source with rest := [] }) ∧
      readOpening (source.append (closing n)) = .ok (.group { source with rest := [] })) := by
  rw [readOpening_eq, readOpening_eq]
  simp only [Source.append]
  obtain ⟨c, rest, h, h'⟩ | ⟨h, h'⟩ | ⟨h, h'⟩ := skipIgnored_cases source.flags source.rest
  · rw [h, h']
    rcases eq_or_ne c '?' with rfl | hc
    · exact .inl (openQuestion_extends source rest)
    · simp only [List.cons.injEq, hc, false_and, imp_self, implies_true]
      exact .inl (.of_ok rfl)
  · rw [h, h']
    exact .inl (.of_ok rfl)
  · rw [h, h']
    exact .inr ⟨rfl, rfl⟩

end FormDerivation.Pattern
