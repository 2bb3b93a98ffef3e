import FormDerivation.Proofs.Pattern.Readers

/-!
# Classes and a closing parenthesis

The readers of classes on a text and on the text with a closing parenthesis behind it.  A class that
is complete in the text is the same in the longer text; one that is not takes the parenthesis for one
of its characters (`readClass_extends`).
-/

namespace FormDerivation.Pattern

open FormDerivation.Text (CharSet)

variable (flags : Flags) {n : Nat}

/-! ## Named classes -/

def namedBehind? (negated : Bool) (cs : List Char) : Option (Bool × CharSet × List Char) :=
  let name := cs.takeWhile (· != ':')
  (Text.dropBeginning? [':', ']'] (cs.drop name.length)).bind fun rest =>
    (asciiClass? (String.ofList name)).bind fun set => some (negated, set, rest)

theorem namedClass?_cons (c : Char) (cs : List Char) : namedClass? (c :: cs) =
    if c = ':' then
      match cs with
      | '^' :: rest => namedBehind? true rest
      | rest => namedBehind? false rest
    else none := by
  split
  · next hc =>
    subst hc
    cases cs with
    | nil => rfl
    | cons d rest =>
        rcases eq_or_ne d '^' with rfl | hd
        · rfl
        · simp [namedClass?, Text.dropBeginning?, hd]
          rfl
  · next hc =>
    simp [namedClass?, Text.dropBeginning?, Ne.symm hc]

theorem namedBehind?_eq_some_iff {negated : Bool} {cs : List Char}
    {b : Bool × CharSet × List Char} : namedBehind? negated cs = some b ↔
      ∃ name, ':' ∉ name ∧ asciiClass? (String.ofList name) = some b.2.1 ∧ b.1 = negated ∧
        cs = name ++ [':', ']'] ++ b.2.2 := by
  simp only [namedBehind?, Option.bind_eq_some_iff, Text.dropBeginning?_eq_some_iff]
  constructor
  · rintro ⟨rest, hrest, set, hset, ⟨⟩⟩
    refine ⟨_, fun hcolon => ?_, hset, rfl, ?_⟩
    · simpa using List.mem_takeWhile_imp hcolon
    · rw [List.append_assoc, ← hrest]
      exact (List.prefix_iff_eq_append.mp (List.takeWhile_prefix _)).symm
  · rintro ⟨name, hcolon, hclass, rfl, rfl⟩
    have hname : (name ++ [':', ']'] ++ b.2.2).takeWhile (· != ':') = name := by
      rw [List.append_assoc, List.takeWhile_append_of_pos]
      · simp
      · intro c hc
        refine bne_iff_ne.mpr ?_
        rintro rfl
        exact hcolon hc
    refine ⟨b.2.2, ?_, b.2.1, ?_, rfl⟩
    · rw [hname, List.append_assoc, List.drop_left]
    · rw [hname, hclass]

theorem namedBehind?_suffix {negated : Bool} {cs : List Char} {b : Bool × CharSet × List Char}
    (h : namedBehind? negated cs = some b) : b.2.2 <:+ cs := by
  obtain ⟨name, -, -, -, rfl⟩ := namedBehind?_eq_some_iff.mp h
  exact List.suffix_append _ _

theorem namedBehind?_closing (negated : Bool) (cs : List Char) :
    namedBehind? negated (cs ++ closing n) =
      (namedBehind? negated cs).map fun b => (b.1, b.2.1, b.2.2 ++ closing n) := by
  cases h : namedBehind? negated cs with
  | some b =>
      obtain ⟨name, hcolon, hclass, hnegated, rfl⟩ := namedBehind?_eq_some_iff.mp h
      exact namedBehind?_eq_some_iff.mpr ⟨name, hcolon, hclass, hnegated, by simp⟩
  | none =>
      refine Option.eq_none_iff_forall_ne_some.mpr fun b hb => ?_
      obtain ⟨name, hcolon, hclass, hnegated, hcs⟩ := namedBehind?_eq_some_iff.mp hb
      have hcomplete : ∃ rest, cs = name ++ [':', ']'] ++ rest := by
        rcases List.append_eq_append_iff.mp hcs with ⟨rest, hname, hclosing⟩ | ⟨rest, hname, -⟩
        · rcases List.eq_nil_or_concat' rest with rfl | ⟨before, c, rfl⟩
          · exact ⟨[], by simpa using hname.symm⟩
          · have hlast := congrArg List.getLast? hname
            obtain rfl : c = ']' := by simpa [eq_comm] using hlast
            have hbracket : ']' ∈ closing n := by simp [hclosing]
            exact absurd (mem_closing hbracket) (by decide)
        · exact ⟨rest, hname⟩
      obtain ⟨rest, rfl⟩ := hcomplete
      rw [namedBehind?_eq_some_iff (b := (negated, b.2.1, rest)).mpr
        ⟨name, hcolon, hclass, rfl, rfl⟩] at h
      cases h

theorem namedClass?_suffix {cs : List Char} {b : Bool × CharSet × List Char}
    (h : namedClass? cs = some b) : b.2.2 <:+ cs := by
  cases cs with
  | nil => cases h
  | cons c cs =>
      rw [namedClass?_cons] at h
      split at h
      · refine List.IsSuffix.trans ?_ (List.suffix_cons c cs)
        split at h
        · exact (namedBehind?_suffix h).trans (List.suffix_cons _ _)
        · exact namedBehind?_suffix h
      · cases h

theorem namedClass?_closing (cs : List Char) : namedClass? (cs ++ closing n) =
    (namedClass? cs).map fun b => (b.1, b.2.1, b.2.2 ++ closing n) := by
  cases cs with
  | nil => rfl
  | cons c cs =>
      rw [List.cons_append, namedClass?_cons, namedClass?_cons]
      split
      · cases cs with
        | nil => exact namedBehind?_closing false []
        | cons d rest =>
            rcases eq_or_ne d '^' with rfl | hd
            · exact namedBehind?_closing true rest
            · simpa [hd] using namedBehind?_closing false (d :: rest)
      · rfl

/-! ## Elements and ranges -/

theorem readClassItem_within (c : Char) (rest : List Char) :
    Ensures (Within rest) (readClassItem flags (c :: rest)) := by
  rcases eq_or_ne c '\\' with rfl | hc
  · exact readEscape_within flags rest
  · simp only [readClassItem]
    exact .of_ok (List.suffix_refl rest)

theorem readClassItem_extends (cs : List Char) :
    Extends (behind (closing n)) (Strays flags n) (readClassItem flags cs)
      (readClassItem flags (cs ++ closing n)) := by
  cases cs with
  | nil => exact .of_error (.of_ok (.inl (List.suffix_refl _)))
  | cons c rest =>
      rcases eq_or_ne c '\\' with rfl | hc
      · exact readEscape_extends flags rest
      · simpa [readClassItem, hc] using Extends.of_ok rfl

def classAlone (flags : Flags) (first : Escaped) (rest : List Char) :
    Except Reason (CharSet × List Char) :=
  match first with
  | .set set => .ok (set, rest)
  | .anchor _ => .error .classEscapeInvalid
  | .literal c => checkLiteral flags c >>= fun set => .ok (set, rest)
  | .byte c => checkLiteral flags c >>= fun set => .ok (set, rest)

def classBetween (flags : Flags) (first last : Escaped) : Except Reason CharSet :=
  match classLiteral? first, classLiteral? last with
  | some low, some high =>
    if high < low then .error .classRangeInvalid
    else if !flags.unicode && !(Text.isAscii high) then .error .unicodeNotAllowed
    else .ok (CharSet.range low high)
  | _, _ => .error .classRangeLiteral

/-- What follows the hyphen behind an element that ends at `rest`. -/
def readClassLast (flags : Flags) (first : Escaped) (rest behind : List Char) :
    Except Reason (CharSet × List Char) :=
  match skipIgnored flags behind with
  | ']' :: _ => classAlone flags first rest
  | '-' :: _ => classAlone flags first rest
  | [] => .error .classUnclosed
  | behind => readClassItem flags behind >>= fun b =>
      classBetween flags first b.1 >>= fun set => .ok (set, b.2)

def readClassFrom (flags : Flags) (first : Escaped) (cs : List Char) :
    Except Reason (CharSet × List Char) :=
  match skipIgnored flags cs with
  | [] => .error .classUnclosed
  | '-' :: behind => readClassLast flags first (skipIgnored flags cs) behind
  | _ => classAlone flags first (skipIgnored flags cs)

theorem readClassRange_eq (cs : List Char) : readClassRange flags cs =
    readClassItem flags cs >>= fun b => readClassFrom flags b.1 b.2 := by
  rw [readClassRange]
  congr
  funext ⟨first, rest⟩
  dsimp only
  rw [readClassFrom]
  cases skipIgnored flags rest with
  | nil => rfl
  | cons c behind =>
      rcases eq_or_ne c '-' with rfl | hc
      · have hlast : ∀ b : Escaped × List Char,
            (classBetween flags first b.1 >>= fun set =>
              (.ok (set, b.2) : Except Reason (CharSet × List Char))) =
            match classLiteral? first, classLiteral? b.1 with
            | some low, some high =>
              if high < low then .error .classRangeInvalid
              else if !flags.unicode && !(Text.isAscii high) then .error .unicodeNotAllowed
              else .ok (CharSet.range low high, b.2)
            | _, _ => .error .classRangeLiteral := by
          intro b
          rw [classBetween]
          cases classLiteral? first with
          | none => rfl
          | some low =>
              cases classLiteral? b.1 with
              | none => rfl
              | some high =>
                  dsimp only
                  split
                  · rfl
                  · split <;> rfl
        simp only [readClassLast, hlast]
        rfl
      · simp [hc]
        rfl

theorem classAlone_within (first : Escaped) (rest : List Char) :
    Ensures (Within rest) (classAlone flags first rest) := by
  cases first with
  | set set => exact .of_ok (List.suffix_refl rest)
  | anchor kind => exact .fails
  | literal c => exact .bind_any fun _ => .of_ok (List.suffix_refl rest)
  | byte c => exact .bind_any fun _ => .of_ok (List.suffix_refl rest)

theorem classAlone_extends (first : Escaped) (rest : List Char) :
    Extends (behind (closing n)) Never (classAlone flags first rest)
      (classAlone flags first (rest ++ closing n)) := by
  cases first with
  | set set => exact .of_ok rfl
  | anchor kind => exact .fails
  | literal c => exact .bind_same _ fun _ => .of_ok rfl
  | byte c => exact .bind_same _ fun _ => .of_ok rfl

theorem readClassLast_within (first : Escaped) {cs behind : List Char} (h : behind <:+ cs) :
    Ensures (Within cs) (readClassLast flags first cs behind) := by
  rw [readClassLast]
  cases hseen : skipIgnored flags behind with
  | nil => exact .fails
  | cons c rest =>
      have hrest : rest <:+ cs := (suffix_of_seen flags hseen).trans h
      rcases eq_or_ne c ']' with rfl | hbracket
      · exact classAlone_within flags first cs
      rcases eq_or_ne c '-' with rfl | hhyphen
      · exact classAlone_within flags first cs
      · simp only [List.cons.injEq, hbracket, hhyphen, false_and, imp_self, implies_true]
        exact (readClassItem_within flags c rest).bind fun b hb =>
          .bind_any fun _ => .of_ok (hb.trans hrest)

theorem dollars_suffix : List.replicate n '$' <:+ closing n :=
  List.suffix_cons _ _

theorem readClassLast_extends (first : Escaped) (cs rest : List Char) :
    Extends (behind (closing n)) (Within (closing n)) (readClassLast flags first cs rest)
      (readClassLast flags first (cs ++ closing n) (rest ++ closing n)) := by
  have halone : Extends (behind (closing n)) (Within (closing n)) (classAlone flags first cs)
      (classAlone flags first (cs ++ closing n)) := (classAlone_extends flags first cs).of_never
  rw [readClassLast, readClassLast]
  obtain ⟨c, body, h, h'⟩ | ⟨h, h'⟩ | ⟨h, h'⟩ := skipIgnored_cases flags rest
  · rw [h, h']
    rcases eq_or_ne c ']' with rfl | hbracket
    · exact halone
    rcases eq_or_ne c '-' with rfl | hhyphen
    · exact halone
    simp only [List.cons.injEq, hbracket, hhyphen, false_and, imp_self, implies_true]
    refine (readClassItem_extends flags (c :: body)).bind
      (fun b _ => .bind_same _ fun _ => .of_ok rfl) fun b hb => ?_
    rcases hb with hpasses | ⟨hanchor, -⟩
    · exact .bind_any fun _ => .of_ok (hpasses.trans dollars_suffix)
    · rw [hanchor, classBetween]
      cases classLiteral? first <;> exact .fails
  · rw [h, h']
    exact .of_error (Ensures.bind_any (r := classBetween flags first (.literal ')')) fun _ =>
      .of_ok dollars_suffix)
  · rw [h, h']
    exact .fails

theorem readClassFrom_within (first : Escaped) (cs : List Char) :
    Ensures (Within cs) (readClassFrom flags first cs) := by
  have hskip := skipIgnored_suffix flags cs
  rw [readClassFrom]
  cases hseen : skipIgnored flags cs with
  | nil => exact .fails
  | cons c rest =>
      rw [hseen] at hskip
      refine Ensures.within ?_ hskip
      rcases eq_or_ne c '-' with rfl | hhyphen
      · exact readClassLast_within flags first (List.suffix_cons _ _)
      · simp only [List.cons.injEq, hhyphen, false_and, imp_self, implies_true]
        exact classAlone_within flags first _

theorem readClassFrom_extends (first : Escaped) (cs : List Char) :
    Extends (behind (closing n)) (Within (closing n)) (readClassFrom flags first cs)
      (readClassFrom flags first (cs ++ closing n)) := by
  rw [readClassFrom, readClassFrom]
  obtain ⟨c, body, h, h'⟩ | ⟨h, h'⟩ | ⟨h, h'⟩ := skipIgnored_cases flags cs
  · rw [h, h']
    rcases eq_or_ne c '-' with rfl | hhyphen
    · exact readClassLast_extends flags first ('-' :: body) body
    · simp only [List.cons.injEq, hhyphen, false_and, imp_self, implies_true]
      exact (classAlone_extends flags first (c :: body)).of_never
  · rw [h, h']
    exact .of_error (classAlone_within flags first (closing n))
  · rw [h, h']
    exact .fails

theorem readClassFrom_strays {b : Escaped × List Char} (hb : Strays flags n b) :
    Ensures (Within (closing n)) (readClassFrom flags b.1 b.2) := by
  rcases hb with hpasses | ⟨hanchor, rest, hrest, -⟩
  · exact (readClassFrom_within flags b.1 b.2).mono fun _ h =>
      (h.trans hpasses).trans dollars_suffix
  · have hseen : skipIgnored flags ('\x7b' :: rest) = '\x7b' :: rest := by
      rw [skipIgnored]
      split <;> rfl
    rw [hanchor, hrest, readClassFrom, hseen]
    exact .fails

theorem readClassRange_within (c : Char) (rest : List Char) :
    Ensures (Within rest) (readClassRange flags (c :: rest)) := by
  rw [readClassRange_eq]
  exact (readClassItem_within flags c rest).bind fun b hb =>
    (readClassFrom_within flags b.1 b.2).within hb

theorem readClassRange_extends (cs : List Char) :
    Extends (behind (closing n)) (Within (closing n)) (readClassRange flags cs)
      (readClassRange flags (cs ++ closing n)) := by
  rw [readClassRange_eq, readClassRange_eq]
  exact (readClassItem_extends flags cs).bind
    (fun b _ => readClassFrom_extends flags b.1 b.2) fun b hb => readClassFrom_strays flags hb

/-! ## Beginnings of classes -/

/--
What is read without failure from a text and from the longer one: the same, or nothing is left of the
text and at most the added text of the longer one.
-/
inductive Carries {α : Type} (n : Nat) : α × List Char → α × List Char → Prop where
  | inside (a : α) (c : Char) (rest : List Char) :
      Carries n (a, c :: rest) (a, c :: (rest ++ closing n))
  | atEnd (a a' : α) (rest : List Char) : rest <:+ closing n → Carries n (a, []) (a', rest)

theorem Carries.map {α β : Type} {b b' : α × List Char} (h : Carries n b b') (f : α → β) :
    Carries n (f b.1, b.2) (f b'.1, b'.2) := by
  cases h with
  | inside a c rest => exact .inside (f a) c rest
  | atEnd a a' rest hrest => exact .atEnd (f a) (f a') rest hrest

theorem Carries.of_nil {α : Type} {b b' : α × List Char} (h : b.2 = []) (h' : b'.2 <:+ closing n) :
    Carries n b b' := by
  obtain ⟨a, rest⟩ := b
  obtain rfl : rest = [] := h
  exact .atEnd a b'.1 b'.2 h'

theorem skipIgnored_carries {α : Type} (a : α) (cs : List Char) :
    Carries n (a, skipIgnored flags cs) (a, skipIgnored flags (cs ++ closing n)) := by
  obtain ⟨c, rest, h, h'⟩ | ⟨h, h'⟩ | ⟨h, h'⟩ := skipIgnored_cases flags cs
  · rw [h, h']
    exact .inside a c rest
  · rw [h, h']
    exact .atEnd a a _ (List.suffix_refl _)
  · rw [h, h']
    exact .atEnd a a _ (List.nil_suffix)

theorem readClassStart_suffix (cs : List Char) : (readClassStart flags cs).2 <:+ cs := by
  have hskip := (skipIgnored_suffix flags _).trans
    (List.drop_suffix (cs.takeWhile (· == '-')).length cs)
  rw [readClassStart]
  split
  · exact hskip
  · split
    · next rest hseen =>
      rw [hseen] at hskip
      exact ((skipIgnored_suffix flags rest).trans (List.suffix_cons _ _)).trans hskip
    · exact hskip

theorem readClassStart_carries (cs : List Char) :
    Carries n (readClassStart flags cs) (readClassStart flags (cs ++ closing n)) := by
  rw [readClassStart, readClassStart, takeWhile_closing (p := (· == '-')) rfl,
    drop_takeWhile_append]
  split
  · exact skipIgnored_carries flags _ _
  · obtain ⟨c, rest, h, h'⟩ | ⟨h, h'⟩ | ⟨h, h'⟩ :=
      skipIgnored_cases flags (cs.drop (cs.takeWhile (· == '-')).length)
    · rw [h, h']
      rcases eq_or_ne c ']' with rfl | hbracket
      · exact skipIgnored_carries flags _ rest
      · simp only [List.cons.injEq, hbracket, false_and, imp_self, implies_true]
        exact .inside _ c rest
    · rw [h, h']
      exact .atEnd _ _ _ (List.suffix_refl _)
    · rw [h, h']
      exact .atEnd _ _ _ List.nil_suffix

theorem Carries.start {α : Type} {a a' : α} {rest rest' : List Char}
    (h : Carries n (a, rest) (a', rest')) :
    Carries n (readClassStart flags rest) (readClassStart flags rest') := by
  cases h with
  | inside _ c rest => exact readClassStart_carries flags (c :: rest)
  | atEnd _ _ _ hrest =>
      exact .of_nil (List.suffix_nil.mp (readClassStart_suffix flags []))
        ((readClassStart_suffix flags _).trans hrest)

def openClass (flags : Flags) (cs : List Char) : (Bool × CharSet) × List Char :=
  match skipIgnored flags cs with
  | '^' :: rest =>
    let body := readClassStart flags (skipIgnored flags rest)
    ((true, body.1), body.2)
  | rest =>
    let body := readClassStart flags rest
    ((false, body.1), body.2)

theorem openClass_suffix (cs : List Char) : (openClass flags cs).2 <:+ cs := by
  rw [openClass]
  split
  · next rest hseen =>
    exact ((readClassStart_suffix flags _).trans (skipIgnored_suffix flags rest)).trans
      (suffix_of_seen flags hseen)
  · exact (readClassStart_suffix flags _).trans (skipIgnored_suffix flags cs)

theorem openClass_carries (cs : List Char) :
    Carries n (openClass flags cs) (openClass flags (cs ++ closing n)) := by
  rw [openClass, openClass]
  obtain ⟨c, body, h, h'⟩ | ⟨h, h'⟩ | ⟨h, h'⟩ := skipIgnored_cases flags cs
  · rw [h, h']
    rcases eq_or_ne c '^' with rfl | hcaret
    · exact ((skipIgnored_carries flags () body).start flags).map (Prod.mk true)
    · simp only [List.cons.injEq, hcaret, false_and, imp_self, implies_true]
      exact (readClassStart_carries flags (c :: body)).map (Prod.mk false)
  · rw [h, h']
    exact ((Carries.atEnd () () _ (List.suffix_refl _)).start flags).map (Prod.mk false)
  · rw [h, h']
    exact ((Carries.atEnd () () _ List.nil_suffix).start flags).map (Prod.mk false)

/-! ## Bodies of classes -/

theorem readClassBody_succ (steps : Nat) (negated : Bool) (pending : Pending) (set : CharSet)
    (cs : List Char) : readClassBody flags (steps + 1) negated pending set cs =
      match skipIgnored flags cs with
      | [] => .error .classUnclosed
      | ']' :: rest =>
        negateIf flags negated (foldCase flags (combine flags pending set)).normalize >>= fun set =>
          .ok (set, rest)
      | '&' :: '&' :: rest =>
        readClassBody flags steps negated (some (combine flags pending set, .intersection)) [] rest
      | '-' :: '-' :: rest =>
        readClassBody flags steps negated (some (combine flags pending set, .difference)) [] rest
      | '~' :: '~' :: rest =>
        readClassBody flags steps negated (some (combine flags pending set, .symmetricDifference))
          [] rest
      | '[' :: rest =>
        match namedClass? rest with
        | some (inverted, named, rest) =>
          negateIf flags inverted (foldCase flags named) >>= fun named =>
            readClassBody flags steps negated pending (set ++ named) rest
        | none =>
          let start := openClass flags rest
          readClassBody flags steps start.1.1 none start.1.2 start.2 >>= fun b =>
            readClassBody flags steps negated pending (set ++ b.1) b.2
      | cs => readClassRange flags cs >>= fun b =>
        readClassBody flags steps negated pending (set ++ b.1) b.2 := by
  rw [readClassBody]
  cases skipIgnored flags cs with
  | nil => rfl
  | cons c rest =>
      rcases eq_or_ne c '[' with rfl | hc
      · cases hnamed : namedClass? rest with
        | some b => simp only [hnamed]
        | none =>
            simp only [hnamed, openClass]
            cases skipIgnored flags rest with
            | nil => rfl
            | cons d inner =>
                rcases eq_or_ne d '^' with rfl | hd
                · rfl
                · simp only [List.cons.injEq, hd, false_and, imp_self, implies_true]
      · split <;> simp_all

theorem readClass_eq (cs : List Char) : readClass flags cs =
    let start := openClass flags cs
    readClassBody flags (start.2.length + 1) start.1.1 none start.1.2 start.2 := by
  rw [readClass, openClass]
  cases skipIgnored flags cs with
  | nil => rfl
  | cons c rest =>
    rcases eq_or_ne c '^' with rfl | hcaret
    · rfl
    · simp only [List.cons.injEq, hcaret, false_and, imp_self, implies_true]

theorem readClassBody_within (steps : Nat) : ∀ (negated : Bool) (pending : Pending) (set : CharSet)
    (cs : List Char), Ensures (Within (skipIgnored flags cs).tail)
      (readClassBody flags steps negated pending set cs) := by
  induction steps with
  | zero => exact fun _ _ _ _ => .fails
  | succ steps ih =>
      intro negated pending set cs
      rw [readClassBody_succ]
      cases skipIgnored flags cs with
      | nil => exact .fails
      | cons c rest =>
          have hrec : ∀ negated pending set ds, ds <:+ rest →
              Ensures (Within rest) (readClassBody flags steps negated pending set ds) :=
            fun negated pending set ds hds => (ih negated pending set ds).mono fun _ h =>
              ((h.trans (List.tail_suffix _)).trans (skipIgnored_suffix flags ds)).trans hds
          have hbehind : ∀ {d : Char} {tail : List Char}, rest = d :: tail → tail <:+ rest :=
            fun h => h ▸ List.suffix_cons _ _
          split
          · exact .fails
          · next heq =>
            cases heq
            exact .bind_any fun _ => .of_ok (List.suffix_refl _)
          · next heq =>
            cases heq
            exact hrec _ _ _ _ (List.suffix_cons _ _)
          · next heq =>
            cases heq
            exact hrec _ _ _ _ (List.suffix_cons _ _)
          · next heq =>
            cases heq
            exact hrec _ _ _ _ (List.suffix_cons _ _)
          · next heq =>
            cases heq
            split
            · next hnamed =>
              exact .bind_any fun _ => hrec _ _ _ _ (namedClass?_suffix hnamed)
            · exact (hrec _ _ _ _ (openClass_suffix flags rest)).bind fun b hb => hrec _ _ _ _ hb
          · exact (readClassRange_within flags c rest).bind fun b hb => hrec _ _ _ _ hb

theorem readClassBody_nil (steps : Nat) (negated : Bool) (pending : Pending) (set : CharSet) :
    readClassBody flags steps negated pending set [] = .error .classUnclosed := by
  cases steps with
  | zero => rfl
  | succ steps =>
      rw [readClassBody_succ, skipIgnored_nil]

theorem tail_suffix_dollars {cs : List Char} (h : cs <:+ closing n) :
    cs.tail <:+ List.replicate n '$' := by
  rcases List.suffix_cons_iff.mp h with rfl | h
  · exact List.suffix_refl _
  · exact (List.tail_suffix cs).trans h

theorem readClassBody_passes (steps : Nat) (negated : Bool) (pending : Pending) (set : CharSet)
    {cs : List Char} (h : skipIgnored flags cs <:+ closing n) :
    Ensures (Passes n) (readClassBody flags steps negated pending set cs) :=
  (readClassBody_within flags steps negated pending set cs).mono fun _ hb =>
    hb.trans (tail_suffix_dollars h)

theorem readClassBody_extends (steps : Nat) : ∀ (steps' : Nat) (negated : Bool) (pending : Pending)
    (set : CharSet) (cs : List Char), cs.length < steps → (cs ++ closing n).length < steps' →
    Extends (behind (closing n)) (Passes n) (readClassBody flags steps negated pending set cs)
      (readClassBody flags steps' negated pending set (cs ++ closing n)) := by
  induction steps with
  | zero => exact fun _ _ _ _ _ h => absurd h (Nat.not_lt_zero _)
  | succ steps ih =>
      intro steps' negated pending set cs hsteps hsteps'
      obtain ⟨steps', rfl⟩ := Nat.exists_eq_add_one_of_ne_zero (Nat.ne_zero_of_lt hsteps')
      obtain ⟨c, rest, h, h'⟩ | ⟨h, h'⟩ | ⟨h, h'⟩ := skipIgnored_cases flags cs
      · have hlength : rest.length < cs.length :=
          (h ▸ skipIgnored_suffix flags cs : c :: rest <:+ cs).length_le
        rw [List.length_append] at hsteps'
        have hrec : ∀ negated pending set ds, ds <:+ rest →
            Extends (behind (closing n)) (Passes n)
              (readClassBody flags steps negated pending set ds)
              (readClassBody flags steps' negated pending set (ds ++ closing n)) := by
          intro negated pending set ds hds
          have hle := hds.length_le
          refine ih steps' negated pending set ds (by omega) ?_
          rw [List.length_append]
          omega
        have hpast : ∀ negated pending set ds, ds <:+ closing n →
            Ensures (Passes n) (readClassBody flags steps' negated pending set ds) :=
          fun negated pending set ds hds => readClassBody_passes flags steps' negated pending set
            ((skipIgnored_suffix flags ds).trans hds)
        rw [readClassBody_succ, readClassBody_succ, h, h']
        split
        · next heq => cases heq
        · next heq =>
          cases heq
          exact .bind_same _ fun _ => .of_ok rfl
        · next heq =>
          cases heq
          exact hrec _ _ _ _ (List.suffix_cons _ _)
        · next heq =>
          cases heq
          exact hrec _ _ _ _ (List.suffix_cons _ _)
        · next heq =>
          cases heq
          exact hrec _ _ _ _ (List.suffix_cons _ _)
        · next heq =>
          cases heq
          simp only [namedClass?_closing]
          cases hnamed : namedClass? rest with
          | some b => exact .bind_same _ fun _ => hrec _ _ _ _ (namedClass?_suffix hnamed)
          | none =>
              have hsuffix := openClass_suffix flags rest
              have hcarries := openClass_carries (n := n) flags rest
              generalize openClass flags rest = start at hsuffix hcarries
              generalize openClass flags (rest ++ closing n) = start' at hcarries
              cases hcarries with
              | inside a d body =>
                  refine (hrec _ _ _ _ hsuffix).bind (fun b hb => hrec _ _ _ _ ?_)
                    fun b hb => hpast _ _ _ _ (hb.trans dollars_suffix)
                  have hwithin := readClassBody_within flags _ _ _ _ _ b hb
                  exact (hwithin.trans ((List.tail_suffix _).trans
                    (skipIgnored_suffix flags _))).trans hsuffix
              | atEnd a a' body hbody =>
                  simp only [readClassBody_nil]
                  exact .of_error ((hpast _ _ _ _ hbody).bind fun b hb =>
                    hpast _ _ _ _ (hb.trans dollars_suffix))
        · split
          case h_7 =>
            exact (readClassRange_extends flags (c :: rest)).bind
              (fun b hb => hrec _ _ _ _ (readClassRange_within flags c rest b hb))
              fun b hb => hpast _ _ _ _ hb
          -- The added text completes no operator and no bracket.
          all_goals
            next heq =>
            clear hrec hpast ih
            cases rest <;> simp_all
      · rw [readClassBody_succ, h]
        exact .of_error (readClassBody_passes flags _ _ _ _ (by rw [h' n]))
      · rw [readClassBody_succ, h]
        exact .of_error (readClassBody_passes flags _ _ _ _ (by rw [h' n]; exact List.nil_suffix))

/-! ## Classes -/

theorem readClass_within (cs : List Char) : Ensures (Within cs) (readClass flags cs) := by
  rw [readClass_eq]
  exact (readClassBody_within flags _ _ _ _ _).mono fun _ h =>
    ((h.trans (List.tail_suffix _)).trans (skipIgnored_suffix flags _)).trans
      (openClass_suffix flags cs)

/-- A class is the same in the longer text, or reads the closing parenthesis. -/
theorem readClass_extends (cs : List Char) :
    Extends (behind (closing n)) (Passes n) (readClass flags cs)
      (readClass flags (cs ++ closing n)) := by
  rw [readClass_eq, readClass_eq]
  have hcarries := openClass_carries (n := n) flags cs
  generalize openClass flags cs = start at hcarries
  generalize openClass flags (cs ++ closing n) = start' at hcarries
  cases hcarries with
  | inside a d body =>
      exact readClassBody_extends flags _ _ _ _ _ (d :: body) (Nat.lt_succ_self _)
        (Nat.lt_succ_self _)
  | atEnd a a' body hbody =>
      simp only [readClassBody_nil]
      exact .of_error (readClassBody_passes flags _ _ _ _ ((skipIgnored_suffix flags body).trans hbody))

end FormDerivation.Pattern
