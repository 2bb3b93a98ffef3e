import FormDerivation.Pattern.Reader
import Mathlib.Data.List.Infix
import Mathlib.Data.List.TakeWhile
import Mathlib.Tactic.Cases

/-!
# Readers of patterns and a closing parenthesis

What a reader of a pattern does when a closing parenthesis stands behind its text (`closing`).  Where
it reads something from the text alone, it reads the same from the longer text and leaves the added
characters; where it fails on the text alone, it fails on the longer text as well or reads the
parenthesis (`Extends`).

Verbose mode is the exception in which a comment at the end of the text swallows the added
characters, see `skipIgnored_cases`; the other one is a word boundary with an opening brace, see
`Unbounded`.
-/

namespace FormDerivation.Pattern

open FormDerivation.Text (CharSet)

/-! ## Results -/

def Ensures {β : Type} (post : β → Prop) (r : Except Reason β) : Prop :=
  ∀ b, r = .ok b → post b

abbrev Never {β : Type} (_ : β) : Prop :=
  False

namespace Ensures

variable {β γ : Type} {post : β → Prop} {post' : γ → Prop}

theorem of_ok {b : β} (h : post b) : Ensures post (.ok b) := by
  rintro _ ⟨⟩
  exact h

theorem fails {e : Reason} : Ensures post (.error e) := by
  rintro _ ⟨⟩

theorem mono {weaker : β → Prop} {r : Except Reason β} (h : Ensures post r)
    (hpost : ∀ b, post b → weaker b) : Ensures weaker r :=
  fun b hb => hpost b (h b hb)

theorem ite {c : Prop} [Decidable c] {r s : Except Reason β} (hpos : c → Ensures post r)
    (hneg : ¬c → Ensures post s) : Ensures post (if c then r else s) := by
  by_cases h : c
  · simpa only [if_pos h] using hpos h
  · simpa only [if_neg h] using hneg h

theorem bind {r : Except Reason β} {f : β → Except Reason γ} (h : Ensures post r)
    (hf : ∀ b, post b → Ensures post' (f b)) : Ensures post' (r >>= f) := by
  cases r with
  | error e => exact fails
  | ok b => exact hf b (h b rfl)

theorem fails_bind {r : Except Reason β} {f : β → Except Reason γ} (h : Ensures Never r) :
    Ensures post' (r >>= f) :=
  h.bind fun _ h => h.elim

theorem bind_any {r : Except Reason β} {f : β → Except Reason γ} (h : ∀ b, Ensures post' (f b)) :
    Ensures post' (r >>= f) := by
  cases r with
  | error e => exact fails
  | ok b => exact h b

theorem exists_error {r : Except Reason β} (h : Ensures Never r) : ∃ e, r = .error e := by
  cases r with
  | error e => exact ⟨e, rfl⟩
  | ok b => exact (h b rfl).elim

end Ensures

/--
How the result on a text and the result on a longer text are related: a success is extended to the
longer text, and only successes of a certain kind replace a failure.
-/
structure Extends {β : Type} (extend : β → β) (past : β → Prop) (r r' : Except Reason β) : Prop where
  ok : ∀ {b}, r = .ok b → r' = .ok (extend b)
  error : ∀ {e}, r = .error e → Ensures past r'

namespace Extends

variable {β γ : Type} {extend : β → β} {extend' : γ → γ} {past : β → Prop} {past' : γ → Prop}

theorem of_ok {b b' : β} (h : b' = extend b) : Extends extend past (.ok b) (.ok b') where
  ok hb := by cases hb; rw [h]
  error hr := by cases hr

theorem of_error {e : Reason} {r' : Except Reason β} (h : Ensures past r') :
    Extends extend past (.error e) r' where
  ok hb := by cases hb
  error _ := h

theorem fails {e e' : Reason} : Extends extend past (.error e) (.error e') :=
  of_error .fails

theorem mono {weaker : β → Prop} {r r' : Except Reason β} (h : Extends extend past r r')
    (hpast : ∀ b, past b → weaker b) : Extends extend weaker r r' where
  ok := h.ok
  error hr := (h.error hr).mono hpast

theorem of_never {r r' : Except Reason β} (h : Extends extend Never r r') :
    Extends extend past r r' :=
  h.mono fun _ h => h.elim

theorem ite {c : Prop} [Decidable c] {r r' s s' : Except Reason β}
    (hpos : c → Extends extend past r r') (hneg : ¬c → Extends extend past s s') :
    Extends extend past (if c then r else s) (if c then r' else s') := by
  by_cases h : c
  · simpa only [if_pos h] using hpos h
  · simpa only [if_neg h] using hneg h

theorem bind {r r' : Except Reason β} {f f' : β → Except Reason γ} (h : Extends extend past r r')
    (hok : ∀ b, r = .ok b → Extends extend' past' (f b) (f' (extend b)))
    (hpast : ∀ b, past b → Ensures past' (f' b)) :
    Extends extend' past' (r >>= f) (r' >>= f') := by
  cases hr : r with
  | ok b =>
      rw [h.ok hr]
      exact hok b hr
  | error e => exact of_error ((h.error hr).bind hpast)

theorem bind_never {r r' : Except Reason β} {f f' : β → Except Reason γ}
    (h : Extends extend Never r r')
    (hok : ∀ b, r = .ok b → Extends extend' past' (f b) (f' (extend b))) :
    Extends extend' past' (r >>= f) (r' >>= f') :=
  h.bind hok fun _ h => h.elim

theorem bind_same {α : Type} (x : Except Reason α) {f f' : α → Except Reason β}
    (h : ∀ a, Extends extend past (f a) (f' a)) : Extends extend past (x >>= f) (x >>= f') := by
  cases x with
  | error e => exact fails
  | ok a => exact h a

end Extends

abbrev Within {α : Type} (cs : List Char) (b : α × List Char) : Prop :=
  b.2 <:+ cs

theorem Ensures.within {α : Type} {cs cs' : List Char} {r : Except Reason (α × List Char)}
    (h : Ensures (Within cs) r) (hsuffix : cs <:+ cs') : Ensures (Within cs') r :=
  h.mono fun _ hb => hb.trans hsuffix

abbrev behind {α : Type} (more : List Char) (b : α × List Char) : α × List Char :=
  (b.1, b.2 ++ more)

/-- A closing parenthesis with dollar signs behind it. -/
abbrev closing (n : Nat) : List Char :=
  ')' :: List.replicate n '$'

variable {n : Nat}

theorem mem_closing {c : Char} (h : c ∈ closing n) : c = ')' ∨ c = '$' :=
  (List.mem_cons.mp h).imp_right List.eq_of_mem_replicate

theorem takeWhile_closing {p : Char → Bool} (hp : p ')' = false) (cs : List Char) :
    (cs ++ closing n).takeWhile p = cs.takeWhile p := by
  induction cs with
  | nil => simp [hp]
  | cons c cs ih => rw [List.cons_append, List.takeWhile_cons, List.takeWhile_cons, ih]

theorem dropWhile_closing {p : Char → Bool} (hp : p ')' = false) (cs : List Char) :
    (cs ++ closing n).dropWhile p = cs.dropWhile p ++ closing n := by
  induction cs with
  | nil => simp [hp]
  | cons c cs ih =>
      rw [List.cons_append, List.dropWhile_cons, List.dropWhile_cons]
      split
      · exact ih
      · rfl

theorem drop_takeWhile_append (p : Char → Bool) (cs more : List Char) :
    (cs ++ more).drop (cs.takeWhile p).length = cs.drop (cs.takeWhile p).length ++ more :=
  List.drop_append_of_le_length (List.takeWhile_prefix p).length_le

theorem takeWhile_ne_cases {c : Char} (h₁ : c ≠ ')') (h₂ : c ≠ '$') (cs : List Char) :
    ((cs.takeWhile (· != c)).length = cs.length ∧
      ∀ n, (cs ++ closing n).takeWhile (· != c) = cs ++ closing n) ∨
    ((cs.takeWhile (· != c)).length < cs.length ∧
      ∀ n, (cs ++ closing n).takeWhile (· != c) = cs.takeWhile (· != c)) := by
  have hle := (List.takeWhile_prefix (l := cs) (· != c)).length_le
  rcases Nat.eq_or_lt_of_le hle with hall | hlt
  · refine .inl ⟨hall, fun n => ?_⟩
    rw [List.takeWhile_append, if_pos hall, List.takeWhile_eq_self_iff.mpr]
    intro d hd
    refine bne_iff_ne.mpr ?_
    rintro rfl
    exact (mem_closing hd).elim h₁ h₂
  · refine .inr ⟨hlt, fun n => ?_⟩
    rw [List.takeWhile_append, if_neg (Nat.ne_of_lt hlt)]

/-! ## Blanks -/

theorem skipBlanks_suffix : (cs : List Char) → (inComment : Bool) → skipBlanks inComment cs <:+ cs
  | [], _ => List.suffix_refl _
  | c :: rest, inComment => by
      have hrest := fun inComment => (skipBlanks_suffix rest inComment).trans (List.suffix_cons c rest)
      rw [skipBlanks]
      split_ifs
      · exact hrest _
      · exact hrest _
      · exact hrest _
      · exact List.suffix_refl _

theorem skipBlanks_append (more : List Char) : (cs : List Char) → (inComment : Bool) →
    skipBlanks inComment cs ≠ [] →
    skipBlanks inComment (cs ++ more) = skipBlanks inComment cs ++ more
  | [], _ => fun h => absurd rfl h
  | c :: rest, inComment => by
      intro h
      rw [skipBlanks] at h ⊢
      rw [List.cons_append, skipBlanks]
      split_ifs at h ⊢
      · exact skipBlanks_append more rest _ h
      · exact skipBlanks_append more rest _ h
      · exact skipBlanks_append more rest _ h
      · rfl

theorem skipBlanks_blank : (cs : List Char) → (inComment : Bool) → skipBlanks inComment cs = [] →
    ∃ commented, ∀ more, skipBlanks inComment (cs ++ more) = skipBlanks commented more
  | [], inComment, _ => ⟨inComment, fun _ => rfl⟩
  | c :: rest, inComment, h => by
      rw [skipBlanks] at h
      simp only [List.cons_append, skipBlanks]
      split_ifs at h ⊢
      · exact skipBlanks_blank rest _ h
      · exact skipBlanks_blank rest _ h
      · exact skipBlanks_blank rest _ h

theorem skipBlanks_comment : (cs : List Char) → '\n' ∉ cs → skipBlanks true cs = []
  | [], _ => rfl
  | c :: rest, h => by
      obtain ⟨hc, hrest⟩ := not_or.mp (List.mem_cons.not.mp h)
      have hne : (c != '\n') = true := bne_iff_ne.mpr (Ne.symm hc)
      rw [skipBlanks, if_pos rfl, hne]
      exact skipBlanks_comment rest hrest

theorem skipBlanks_closing_ne_nil : (cs : List Char) → '#' ∉ cs →
    skipBlanks false (cs ++ closing n) ≠ []
  | [], _ => List.cons_ne_nil _ _
  | c :: rest, h => by
      obtain ⟨hc, hrest⟩ := not_or.mp (List.mem_cons.not.mp h)
      rw [List.cons_append, skipBlanks, if_neg Bool.false_ne_true]
      split_ifs with hblank hcomment
      · exact skipBlanks_closing_ne_nil rest hrest
      · exact absurd (beq_iff_eq.mp hcomment).symm hc
      · exact List.cons_ne_nil _ _

variable (flags : Flags)

theorem skipIgnored_suffix (cs : List Char) : skipIgnored flags cs <:+ cs := by
  rw [skipIgnored]
  split
  · exact skipBlanks_suffix cs false
  · exact List.suffix_refl cs

@[simp] theorem skipIgnored_nil : skipIgnored flags [] = [] :=
  List.suffix_nil.mp (skipIgnored_suffix flags [])

theorem skipIgnored_append {cs : List Char} (more : List Char) (h : skipIgnored flags cs ≠ []) :
    skipIgnored flags (cs ++ more) = skipIgnored flags cs ++ more := by
  rw [skipIgnored] at h ⊢
  rw [skipIgnored]
  split_ifs at h ⊢
  · exact skipBlanks_append more cs false h
  · rfl

/--
What a reader sees behind ignored characters: a character of its text, or the added text, unless a
comment at the end of its text swallows that.
-/
theorem skipIgnored_cases (cs : List Char) :
    (∃ c rest, skipIgnored flags cs = c :: rest ∧
      ∀ n, skipIgnored flags (cs ++ closing n) = c :: (rest ++ closing n)) ∨
    (skipIgnored flags cs = [] ∧ ∀ n, skipIgnored flags (cs ++ closing n) = closing n) ∨
    (skipIgnored flags cs = [] ∧ ∀ n, skipIgnored flags (cs ++ closing n) = []) := by
  cases h : skipIgnored flags cs with
  | cons c rest =>
      refine .inl ⟨c, rest, rfl, fun n => ?_⟩
      rw [skipIgnored_append flags _ (h ▸ List.cons_ne_nil c rest), h]
      rfl
  | nil =>
      refine .inr ?_
      by_cases hverbose : flags.verbose
      · simp only [skipIgnored, hverbose, if_true] at h ⊢
        obtain ⟨_ | _, hrest⟩ := skipBlanks_blank cs false h
        · exact .inl ⟨trivial, fun n => hrest _⟩
        · refine .inr ⟨trivial, fun n => ?_⟩
          rw [hrest]
          exact skipBlanks_comment _ fun hline => (mem_closing hline).elim (by decide) (by decide)
      · simp only [skipIgnored, hverbose] at h ⊢
        obtain rfl : cs = [] := h
        exact .inl ⟨trivial, fun n => rfl⟩

theorem mem_of_swallowed {cs : List Char} (h : skipIgnored flags (cs ++ closing n) = []) :
    '#' ∈ cs := by
  by_contra hcomment
  rw [skipIgnored] at h
  split_ifs at h
  · exact skipBlanks_closing_ne_nil cs hcomment h
  · exact List.append_ne_nil_of_right_ne_nil cs (List.cons_ne_nil _ _) h

/-! ## Bounds of repetitions -/

theorem readDecimal_within (cs : List Char) : Ensures (Within cs) (readDecimal cs) := by
  rw [readDecimal]
  refine .ite (fun _ => .fails) fun _ => .ite (fun _ => .fails) fun _ => .of_ok ?_
  exact ((List.dropWhile_suffix _).trans (List.drop_suffix _ _)).trans (List.dropWhile_suffix _)

theorem readDecimal_extends (cs : List Char) :
    Extends (behind (closing n)) Never (readDecimal cs) (readDecimal (cs ++ closing n)) := by
  simp only [readDecimal, dropWhile_closing (p := Text.isBlank) rfl,
    takeWhile_closing (p := Text.isDigit) rfl, drop_takeWhile_append]
  exact .ite (fun _ => .fails) fun _ => .ite (fun _ => .fails) fun _ => .of_ok rfl

def closeBounds (flags : Flags) (min max : Nat) (cs : List Char) :
    Except Reason ((Nat × Option Nat) × List Char) :=
  match skipIgnored flags cs with
  | '\x7d' :: rest => if max < min then .error .countInvalid else .ok ((min, some max), rest)
  | _ => .error .countUnclosed

def readUpperBound (flags : Flags) (min : Nat) (cs : List Char) :
    Except Reason ((Nat × Option Nat) × List Char) :=
  match skipIgnored flags cs with
  | [] => .error .countUnclosed
  | '\x7d' :: rest => .ok ((min, none), rest)
  | rest => readDecimal rest >>= fun b => closeBounds flags min b.1 b.2

def readBoundsFrom (flags : Flags) (min : Nat) (cs : List Char) :
    Except Reason ((Nat × Option Nat) × List Char) :=
  match skipIgnored flags cs with
  | '\x7d' :: rest => .ok ((min, some min), rest)
  | ',' :: rest => readUpperBound flags min rest
  | _ => .error .countUnclosed

theorem readBounds_eq (cs : List Char) : readBounds flags cs =
    if (skipIgnored flags cs).isEmpty then .error .countUnclosed
    else readDecimal (skipIgnored flags cs) >>= fun b => readBoundsFrom flags b.1 b.2 :=
  rfl

theorem closeBounds_extends (min max : Nat) (cs : List Char) :
    Extends (behind (closing n)) Never (closeBounds flags min max cs)
      (closeBounds flags min max (cs ++ closing n)) := by
  rw [closeBounds, closeBounds]
  obtain ⟨c, rest, h, h'⟩ | ⟨h, h'⟩ | ⟨h, h'⟩ := skipIgnored_cases flags cs
  · rw [h, h']
    rcases eq_or_ne c '\x7d' with rfl | hclose
    · exact .ite (fun _ => .fails) fun _ => .of_ok rfl
    · simpa [hclose] using Extends.fails
  · rw [h, h']
    exact .fails
  · rw [h, h']
    exact .fails

theorem readUpperBound_extends (min : Nat) (cs : List Char) :
    Extends (behind (closing n)) Never (readUpperBound flags min cs)
      (readUpperBound flags min (cs ++ closing n)) := by
  rw [readUpperBound, readUpperBound]
  obtain ⟨c, rest, h, h'⟩ | ⟨h, h'⟩ | ⟨h, h'⟩ := skipIgnored_cases flags cs
  · rw [h, h']
    rcases eq_or_ne c '\x7d' with rfl | hclose
    · exact .of_ok rfl
    · simp only [List.cons.injEq, hclose, false_and, imp_self, implies_true]
      exact (readDecimal_extends (c :: rest)).bind_never fun b _ =>
        closeBounds_extends flags min b.1 b.2
  · rw [h, h']
    exact .fails
  · rw [h, h']
    exact .fails

theorem readBoundsFrom_extends (min : Nat) (cs : List Char) :
    Extends (behind (closing n)) Never (readBoundsFrom flags min cs)
      (readBoundsFrom flags min (cs ++ closing n)) := by
  rw [readBoundsFrom, readBoundsFrom]
  obtain ⟨c, rest, h, h'⟩ | ⟨h, h'⟩ | ⟨h, h'⟩ := skipIgnored_cases flags cs
  · rw [h, h']
    rcases eq_or_ne c '\x7d' with rfl | hclose
    · exact .of_ok rfl
    rcases eq_or_ne c ',' with rfl | hcomma
    · exact readUpperBound_extends flags min rest
    · simpa [hclose, hcomma] using Extends.fails
  · rw [h, h']
    exact .fails
  · rw [h, h']
    exact .fails

theorem readBounds_extends (cs : List Char) :
    Extends (behind (closing n)) Never (readBounds flags cs)
      (readBounds flags (cs ++ closing n)) := by
  rw [readBounds_eq, readBounds_eq]
  obtain ⟨c, rest, h, h'⟩ | ⟨h, h'⟩ | ⟨h, h'⟩ := skipIgnored_cases flags cs
  · rw [h, h']
    exact (readDecimal_extends (c :: rest)).bind_never fun b _ =>
      readBoundsFrom_extends flags b.1 b.2
  · rw [h, h']
    exact .fails
  · rw [h, h']
    exact .fails

theorem suffix_of_seen {cs rest : List Char} {c : Char} (h : skipIgnored flags cs = c :: rest) :
    rest <:+ cs :=
  (h ▸ List.suffix_cons c rest).trans (skipIgnored_suffix flags cs)

def InOrder (cs : List Char) (b : (Nat × Option Nat) × List Char) : Prop :=
  b.2 <:+ cs ∧ ∀ max ∈ b.1.2, b.1.1 ≤ max

theorem InOrder.of_suffix {cs cs' : List Char} {b : (Nat × Option Nat) × List Char}
    (h : InOrder cs b) (hsuffix : cs <:+ cs') : InOrder cs' b :=
  ⟨h.1.trans hsuffix, h.2⟩

theorem closeBounds_inOrder (min max : Nat) (cs : List Char) :
    Ensures (InOrder cs) (closeBounds flags min max cs) := by
  rw [closeBounds]
  split
  · next rest hseen =>
    refine .ite (fun _ => .fails) fun hle => .of_ok ⟨suffix_of_seen flags hseen, ?_⟩
    rintro _ ⟨⟩
    exact Nat.le_of_not_lt hle
  · exact .fails

theorem readUpperBound_inOrder (min : Nat) (cs : List Char) :
    Ensures (InOrder cs) (readUpperBound flags min cs) := by
  rw [readUpperBound]
  split
  · exact .fails
  · next rest hseen => exact .of_ok ⟨suffix_of_seen flags hseen, fun _ hmax => by cases hmax⟩
  · refine (readDecimal_within _).bind fun b hb => (closeBounds_inOrder flags min b.1 b.2).mono ?_
    exact fun _ h => h.of_suffix (hb.trans (skipIgnored_suffix flags cs))

theorem readBoundsFrom_inOrder (min : Nat) (cs : List Char) :
    Ensures (InOrder cs) (readBoundsFrom flags min cs) := by
  rw [readBoundsFrom]
  split
  · next rest hseen =>
    refine .of_ok ⟨suffix_of_seen flags hseen, ?_⟩
    rintro _ ⟨⟩
    exact Nat.le_refl _
  · next rest hseen =>
    exact (readUpperBound_inOrder flags min rest).mono fun _ h =>
      h.of_suffix (suffix_of_seen flags hseen)
  · exact .fails

theorem readBounds_inOrder (cs : List Char) : Ensures (InOrder cs) (readBounds flags cs) := by
  rw [readBounds_eq]
  refine .ite (fun _ => .fails) fun _ => (readDecimal_within _).bind fun b hb => ?_
  exact (readBoundsFrom_inOrder flags b.1 b.2).mono fun _ h =>
    h.of_suffix (hb.trans (skipIgnored_suffix flags cs))

theorem skipLazy_suffix (cs : List Char) : skipLazy cs <:+ cs := by
  rw [skipLazy.eq_def]
  split
  · next c rest => exact List.suffix_cons '?' rest
  · exact List.suffix_refl cs

@[simp] theorem skipLazy_closing (cs : List Char) :
    skipLazy (cs ++ closing n) = skipLazy cs ++ closing n := by
  cases cs with
  | nil => rfl
  | cons c rest =>
    rcases eq_or_ne c '?' with rfl | hc
    · rfl
    · simp [skipLazy.eq_def, hc]

theorem skipLazyCount_suffix (cs : List Char) : skipLazyCount flags cs <:+ cs := by
  rw [skipLazyCount]
  split
  · next rest hseen => exact suffix_of_seen flags hseen
  · exact List.suffix_refl cs

@[simp] theorem skipLazyCount_closing (cs : List Char) :
    skipLazyCount flags (cs ++ closing n) = skipLazyCount flags cs ++ closing n := by
  rw [skipLazyCount, skipLazyCount]
  obtain ⟨c, rest, h, h'⟩ | ⟨h, h'⟩ | ⟨h, h'⟩ := skipIgnored_cases flags cs
  · rw [h, h']
    rcases eq_or_ne c '?' with rfl | hc
    · rfl
    · simp [hc]
  · rw [h, h']
    rfl
  · rw [h, h']

/-! ## Escapes -/

def readBraced (cs : List Char) : Except Reason (List Char × List Char) :=
  let name := cs.takeWhile (· != '\x7d')
  if name.length == cs.length then .error .escapeUnfinished
  else .ok (name, cs.drop (name.length + 1))

def readBracedHex (cs : List Char) : Except Reason (Escaped × List Char) :=
  readBraced cs >>= fun b =>
    if b.1.isEmpty then .error .hexEmpty
    else hexLiteral b.1 >>= fun c => .ok (.literal c, b.2)

def hexCount (letter : Char) : Nat :=
  if letter == 'x' then 2 else if letter == 'u' then 4 else 8

def readPlainHex (letter : Char) (cs : List Char) : Except Reason (Escaped × List Char) :=
  let digits := cs.take (hexCount letter)
  if !digits.all fun c => (hexDigit? c).isSome then .error .hexInvalidDigit
  else if digits.length < hexCount letter then .error .escapeUnfinished
  else hexLiteral digits >>= fun c =>
    .ok (if letter == 'x' then .byte c else .literal c, cs.drop (hexCount letter))

theorem readHexEscape_cons (letter c : Char) (rest : List Char) :
    readHexEscape letter (c :: rest) =
      if c = '\x7b' then readBracedHex rest else readPlainHex letter (c :: rest) := by
  split
  · next hc =>
    subst hc
    simp only [readHexEscape, readBracedHex, readBraced]
    split
    · rfl
    · rfl
  · next hc =>
    rw [readHexEscape]
    · rfl
    · rintro ⟨⟩
    · rintro _ ⟨⟩
      exact hc rfl

theorem readBraced_within (cs : List Char) : Ensures (Within cs) (readBraced cs) := by
  rw [readBraced]
  exact .ite (fun _ => .fails) fun _ => .of_ok (List.drop_suffix _ _)

theorem readBraced_extends (cs : List Char) :
    Extends (behind (closing n)) Never (readBraced cs) (readBraced (cs ++ closing n)) := by
  rw [readBraced, readBraced]
  obtain ⟨hall, h⟩ | ⟨hlt, h⟩ := takeWhile_ne_cases (c := '\x7d') (by decide) (by decide) cs
  · simpa [h, hall] using Extends.fails
  · have hne : (cs.takeWhile (· != '\x7d')).length ≠ (cs ++ closing n).length := by
      rw [List.length_append]
      omega
    have hdrop : (cs ++ closing n).drop ((cs.takeWhile (· != '\x7d')).length + 1) =
        cs.drop ((cs.takeWhile (· != '\x7d')).length + 1) ++ closing n :=
      List.drop_append_of_le_length hlt
    simp only [h n, beq_eq_false_iff_ne.mpr hne, beq_eq_false_iff_ne.mpr (Nat.ne_of_lt hlt)]
    exact .of_ok (congrArg (Prod.mk _) hdrop)

theorem readBracedHex_extends (cs : List Char) :
    Extends (behind (closing n)) Never (readBracedHex cs) (readBracedHex (cs ++ closing n)) := by
  refine (readBraced_extends cs).bind_never fun b _ => ?_
  exact .ite (fun _ => .fails) fun _ => .bind_same _ fun _ => .of_ok rfl

theorem readPlainHex_extends (letter : Char) (cs : List Char) :
    Extends (behind (closing n)) Never (readPlainHex letter cs)
      (readPlainHex letter (cs ++ closing n)) := by
  rw [readPlainHex, readPlainHex]
  by_cases hle : hexCount letter ≤ cs.length
  · rw [List.take_append_of_le_length hle, List.drop_append_of_le_length hle]
    exact .ite (fun _ => .fails) fun _ => .ite (fun _ => .fails) fun _ =>
      .bind_same _ fun _ => .of_ok rfl
  · have hlt : cs.length < hexCount letter := Nat.lt_of_not_le hle
    obtain ⟨k, hk⟩ := Nat.exists_eq_add_of_lt hlt
    have hall : ((cs ++ closing n).take (hexCount letter)).all
        (fun c => (hexDigit? c).isSome) = false := by
      rw [hk, Nat.add_assoc, List.take_length_add_append, closing, List.take_succ_cons,
        List.all_append, List.all_cons]
      exact Bool.and_false _
    rw [hall, List.take_of_length_le (Nat.le_of_lt hlt), if_pos hlt, Bool.not_false, if_pos rfl]
    split
    · exact .fails
    · exact .fails

theorem readPlainHex_nil (letter : Char) : readPlainHex letter [] = .error .escapeUnfinished := by
  rw [readPlainHex, hexCount]
  cases letter == 'x' <;> cases letter == 'u' <;> rfl

theorem readHexEscape_extends (letter : Char) (cs : List Char) :
    Extends (behind (closing n)) Never (readHexEscape letter cs)
      (readHexEscape letter (cs ++ closing n)) := by
  cases cs with
  | nil =>
      rw [List.nil_append, readHexEscape_cons, if_neg (by decide)]
      exact .of_error ((readPlainHex_extends letter []).error (readPlainHex_nil letter))
  | cons c rest =>
      rw [List.cons_append, readHexEscape_cons, readHexEscape_cons]
      exact .ite (fun _ => readBracedHex_extends rest) fun _ => readPlainHex_extends letter (c :: rest)

theorem readHexEscape_within (letter : Char) (cs : List Char) :
    Ensures (Within cs) (readHexEscape letter cs) := by
  cases cs with
  | nil => exact .fails
  | cons c rest =>
      rw [readHexEscape_cons, readPlainHex, readBracedHex]
      refine .ite (fun _ => ?_) fun _ => .ite (fun _ => .fails) fun _ => .ite (fun _ => .fails) fun _ =>
        .bind_any fun _ => .of_ok (List.drop_suffix _ _)
      refine (readBraced_within rest).bind fun b hb => .ite (fun _ => .fails) fun _ =>
        .bind_any fun _ => .of_ok ?_
      exact hb.trans (List.suffix_cons _ _)

def readClassName (flags : Flags) (cs : List Char) : Except Reason (List Char × List Char) :=
  match skipIgnored flags cs with
  | [] => .error .escapeUnfinished
  | '\\' :: _ => .error .unicodeClassInvalid
  | '\x7b' :: rest => readBraced rest
  | c :: rest => .ok ([c], rest)

def unicodeClass (flags : Flags) (negated : Bool) (name : List Char) : Except Reason CharSet :=
  if !flags.unicode then .error .unicodeNotAllowed
  else
    let (key, value, differs) := splitProperty name
    match Text.Unicode.property? key value with
    | none => .error .propertyNotFound
    | some set => negateIf flags (negated != differs) (foldCase flags set)

theorem readUnicodeClass_eq (negated : Bool) (cs : List Char) :
    readUnicodeClass flags negated cs = readClassName flags cs >>= fun b =>
      unicodeClass flags negated b.1 >>= fun set => .ok (.set set, b.2) := by
  have hclass : ∀ name rest, (if !flags.unicode then .error .unicodeNotAllowed
      else match splitProperty name with
        | (key, value, differs) =>
          match Text.Unicode.property? key value with
          | none => .error .propertyNotFound
          | some set => negateIf flags (negated != differs) (foldCase flags set) >>= fun set =>
              .ok (.set set, rest)) =
      unicodeClass flags negated name >>= fun set =>
        (.ok (.set set, rest) : Except Reason (Escaped × List Char)) := by
    intro name rest
    rw [unicodeClass]
    obtain ⟨key, value, differs⟩ := splitProperty name
    cases flags.unicode with
    | false => rfl
    | true =>
        dsimp only
        cases Text.Unicode.property? key value <;> rfl
  rw [readUnicodeClass, readClassName]
  cases skipIgnored flags cs with
  | nil => rfl
  | cons c rest =>
      rcases eq_or_ne c '\\' with rfl | hbackslash
      · rfl
      rcases eq_or_ne c '\x7b' with rfl | hbrace
      · simp only [← hclass]
        exact (apply_ite (fun r => r >>= _) _ _ _).symm
      · simp only
        exact hclass [c] rest

theorem readClassName_within (cs : List Char) : Ensures (Within cs) (readClassName flags cs) := by
  rw [readClassName]
  split
  · exact .fails
  · exact .fails
  · next rest hseen =>
    exact (readBraced_within rest).within (suffix_of_seen flags hseen)
  · next c rest _ _ hseen => exact .of_ok (suffix_of_seen flags hseen)

abbrev Passes {α : Type} (n : Nat) (b : α × List Char) : Prop :=
  b.2 <:+ List.replicate n '$'

theorem readClassName_extends (cs : List Char) :
    Extends (behind (closing n)) (Passes n) (readClassName flags cs)
      (readClassName flags (cs ++ closing n)) := by
  rw [readClassName, readClassName]
  obtain ⟨c, rest, h, h'⟩ | ⟨h, h'⟩ | ⟨h, h'⟩ := skipIgnored_cases flags cs
  · rw [h, h']
    rcases eq_or_ne c '\\' with rfl | hbackslash
    · exact .fails
    rcases eq_or_ne c '\x7b' with rfl | hbrace
    · exact (readBraced_extends rest).of_never
    · simpa [hbackslash, hbrace] using Extends.of_ok rfl
  · rw [h, h']
    exact .of_error (.of_ok (List.suffix_refl _))
  · rw [h, h']
    exact .fails

theorem readUnicodeClass_within (negated : Bool) (cs : List Char) :
    Ensures (Within cs) (readUnicodeClass flags negated cs) := by
  rw [readUnicodeClass_eq]
  exact (readClassName_within flags cs).bind fun b hb => .bind_any fun _ => .of_ok hb

theorem readUnicodeClass_extends (negated : Bool) (cs : List Char) :
    Extends (behind (closing n)) (Passes n) (readUnicodeClass flags negated cs)
      (readUnicodeClass flags negated (cs ++ closing n)) := by
  rw [readUnicodeClass_eq, readUnicodeClass_eq]
  exact (readClassName_extends flags cs).bind (fun b _ => .bind_same _ fun _ => .of_ok rfl)
    fun b hb => .bind_any fun _ => .of_ok hb

def boundaryKind (name : String) : Except Reason Anchor :=
  match name with
  | "start" => .ok .wordStart
  | "end" => .ok .wordEnd
  | "start-half" => .ok .wordStartHalf
  | "end-half" => .ok .wordEndHalf
  | _ => .error .boundaryUnrecognized

def isBoundaryChar (c : Char) : Bool :=
  Text.isLetter c || c == '-'

def readBoundaryKind (cs : List Char) : Except Reason (Escaped × List Char) :=
  match cs.drop (cs.takeWhile isBoundaryChar).length with
  | '\x7d' :: rest =>
    boundaryKind (String.ofList (cs.takeWhile isBoundaryChar)) >>= fun kind => .ok (.anchor kind, rest)
  | _ => .error .boundaryUnclosed

theorem readBoundary_brace (rest : List Char) : readBoundary flags ('\x7b' :: rest) =
    match skipIgnored flags rest with
    | [] => .error .boundaryUnfinished
    | c :: body =>
      if !isBoundaryChar c then .ok (.anchor .wordBoundary, '\x7b' :: rest)
      else readBoundaryKind (c :: body) := by
  have hkind : ∀ (name : String) (rest : List Char),
      (match name with
        | "start" => .ok (.anchor .wordStart, rest)
        | "end" => .ok (.anchor .wordEnd, rest)
        | "start-half" => .ok (.anchor .wordStartHalf, rest)
        | "end-half" => .ok (.anchor .wordEndHalf, rest)
        | _ => .error .boundaryUnrecognized) =
      boundaryKind name >>= fun kind =>
        (.ok (.anchor kind, rest) : Except Reason (Escaped × List Char)) := by
    intro name rest
    rw [boundaryKind.eq_def]
    split <;> rfl
  simp only [readBoundary, readBoundaryKind, ← hkind]
  cases skipIgnored flags rest <;> rfl

theorem readBoundary_plain {c : Char} (rest : List Char) (hc : c ≠ '\x7b') :
    readBoundary flags (c :: rest) = .ok (.anchor .wordBoundary, c :: rest) := by
  simp [readBoundary, hc]

theorem readBoundaryKind_within (cs : List Char) : Ensures (Within cs) (readBoundaryKind cs) := by
  rw [readBoundaryKind]
  split
  · next rest hrest =>
    refine .bind_any fun _ => .of_ok ?_
    exact (hrest ▸ List.suffix_cons '\x7d' rest).trans (List.drop_suffix _ cs)
  · exact .fails

theorem readBoundaryKind_extends (cs : List Char) :
    Extends (behind (closing n)) Never (readBoundaryKind cs)
      (readBoundaryKind (cs ++ closing n)) := by
  rw [readBoundaryKind, readBoundaryKind, takeWhile_closing (by decide), drop_takeWhile_append]
  cases cs.drop (cs.takeWhile isBoundaryChar).length with
  | nil => exact .fails
  | cons c rest =>
      rcases eq_or_ne c '\x7d' with rfl | hbrace
      · exact .bind_same _ fun _ => .of_ok rfl
      · simpa [hbrace] using Extends.fails

/-- A word boundary with an opening brace behind it that opens no bounds. -/
def Unbounded (flags : Flags) (b : Escaped × List Char) : Prop :=
  b.1 = .anchor .wordBoundary ∧ ∃ rest, b.2 = '\x7b' :: rest ∧ Ensures Never (readBounds flags rest)

theorem readBoundary_within (cs : List Char) : Ensures (Within cs) (readBoundary flags cs) := by
  cases cs with
  | nil => exact .of_ok (List.suffix_refl _)
  | cons c rest =>
      rcases eq_or_ne c '\x7b' with rfl | hbrace
      · rw [readBoundary_brace]
        split
        · exact .fails
        · next d body hseen =>
          refine .ite (fun _ => .of_ok (List.suffix_refl _)) fun _ => ?_
          refine (readBoundaryKind_within (d :: body)).within ?_
          exact (hseen ▸ skipIgnored_suffix flags rest).trans (List.suffix_cons _ _)
      · rw [readBoundary_plain flags rest hbrace]
        exact .of_ok (List.suffix_refl _)

theorem readBoundary_extends (cs : List Char) :
    Extends (behind (closing n)) (Unbounded flags) (readBoundary flags cs)
      (readBoundary flags (cs ++ closing n)) := by
  cases cs with
  | nil => exact .of_ok rfl
  | cons c rest =>
      rcases eq_or_ne c '\x7b' with rfl | hbrace
      · rw [List.cons_append, readBoundary_brace, readBoundary_brace]
        obtain ⟨d, body, h, h'⟩ | ⟨h, h'⟩ | ⟨h, h'⟩ := skipIgnored_cases flags rest
        · rw [h, h']
          refine .ite (fun _ => .of_ok rfl) fun _ => ?_
          exact (readBoundaryKind_extends (d :: body)).of_never
        · rw [h, h']
          refine .of_error (.of_ok ⟨rfl, _, rfl, ?_⟩)
          refine (readBounds_extends flags rest).error (e := .countUnclosed) ?_
          rw [readBounds_eq, h]
          rfl
        · rw [h, h']
          exact .fails
      · rw [List.cons_append, readBoundary_plain flags _ hbrace, readBoundary_plain flags _ hbrace]
        exact .of_ok rfl

def readLetterEscape (flags : Flags) (c : Char) (rest : List Char) :
    Except Reason (Escaped × List Char) :=
  match c with
  | 'a' => .ok (.literal '\x07', rest)
  | 'f' => .ok (.literal '\x0c', rest)
  | 't' => .ok (.literal '\t', rest)
  | 'n' => .ok (.literal '\n', rest)
  | 'r' => .ok (.literal '\r', rest)
  | 'v' => .ok (.literal '\x0b', rest)
  | 'A' => .ok (.anchor .textStart, rest)
  | 'z' => .ok (.anchor .textEnd, rest)
  | 'b' => readBoundary flags rest
  | 'B' => .ok (.anchor .noWordBoundary, rest)
  | '<' => .ok (.anchor .wordStart, rest)
  | '>' => .ok (.anchor .wordEnd, rest)
  | _ => .error .escapeUnrecognized

theorem readEscape_cons (c : Char) (rest : List Char) : readEscape flags (c :: rest) =
    if Text.isDigit c then .error .backreference
    else if c == 'x' || c == 'u' || c == 'U' then readHexEscape c (skipIgnored flags rest)
    else if c == 'p' || c == 'P' then readUnicodeClass flags (c == 'P') rest
    else if c == 'd' || c == 's' || c == 'w' then .ok (.set (shorthand flags c), rest)
    else if c == 'D' || c == 'S' || c == 'W' then
      negateIf flags true (shorthand flags (Text.lowerAscii c)) >>= fun set => .ok (.set set, rest)
    else if isEscapable c then .ok (.literal c, rest)
    else readLetterEscape flags c rest :=
  rfl

theorem readLetterEscape_within (c : Char) (rest : List Char) :
    Ensures (Within rest) (readLetterEscape flags c rest) := by
  rw [readLetterEscape.eq_def]
  split
  case h_9 => exact readBoundary_within flags rest
  case h_13 => exact .fails
  all_goals exact .of_ok (List.suffix_refl rest)

theorem readLetterEscape_extends (c : Char) (rest : List Char) :
    Extends (behind (closing n)) (Unbounded flags) (readLetterEscape flags c rest)
      (readLetterEscape flags c (rest ++ closing n)) := by
  rw [readLetterEscape.eq_def, readLetterEscape.eq_def]
  split
  case h_9 => exact readBoundary_extends flags rest
  case h_13 => exact .fails
  all_goals exact .of_ok rfl

def Strays (flags : Flags) (n : Nat) (b : Escaped × List Char) : Prop :=
  Passes n b ∨ Unbounded flags b

theorem readEscape_within (cs : List Char) : Ensures (Within cs) (readEscape flags cs) := by
  cases cs with
  | nil => exact .fails
  | cons c rest =>
      have hskip := skipIgnored_suffix flags rest
      have hself : ∀ escaped : Escaped, Ensures (Within rest) (.ok (escaped, rest)) :=
        fun _ => .of_ok (List.suffix_refl rest)
      suffices h : Ensures (Within rest) (readEscape flags (c :: rest)) from
        h.within (List.suffix_cons c rest)
      rw [readEscape_cons]
      refine .ite (fun _ => .fails) fun _ => .ite (fun _ => ?_) fun _ => .ite (fun _ => ?_) fun _ =>
        .ite (fun _ => hself _) fun _ => .ite (fun _ => .bind_any fun _ => hself _) fun _ =>
        .ite (fun _ => hself _) fun _ => readLetterEscape_within flags c rest
      · exact (readHexEscape_within c _).within hskip
      · exact readUnicodeClass_within flags _ rest

theorem readEscape_extends (cs : List Char) :
    Extends (behind (closing n)) (Strays flags n) (readEscape flags cs)
      (readEscape flags (cs ++ closing n)) := by
  cases cs with
  | nil =>
      refine .of_error (.of_ok (.inl ?_))
      exact List.suffix_refl _
  | cons c rest =>
      rw [List.cons_append, readEscape_cons, readEscape_cons]
      refine .ite (fun _ => .fails) fun _ => .ite (fun _ => ?_) fun _ => .ite (fun _ => ?_) fun _ =>
        .ite (fun _ => .of_ok rfl) fun _ => .ite (fun _ => .bind_same _ fun _ => .of_ok rfl) fun _ =>
        .ite (fun _ => .of_ok rfl) fun _ => (readLetterEscape_extends flags c rest).mono fun _ => .inr
      · refine Extends.of_never ?_
        obtain ⟨d, body, h, h'⟩ | ⟨h, h'⟩ | ⟨h, h'⟩ := skipIgnored_cases flags rest
        · rw [h, h']
          exact readHexEscape_extends c (d :: body)
        · rw [h, h']
          exact readHexEscape_extends c []
        · rw [h, h']
          exact .fails
      · exact (readUnicodeClass_extends flags _ rest).mono fun _ => .inl

end FormDerivation.Pattern
