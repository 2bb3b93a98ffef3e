import FormDerivation.Pattern.Search
import Mathlib.Data.Nat.Bitwise
import Mathlib.Logic.Function.Iterate
import Mathlib.Tactic.Cases

/-!
# The search finds what a pattern matches

`Located.reach` computes with sets of positions what `Pattern.Spans` says about two positions: it
takes the positions at which a match may start to those at which it may end
(`Pattern.mem_reach`).  So `Pattern.matchesWithin` decides whether a pattern matches within a text
(`Pattern.matchesWithin_iff`).

A repetition without an upper bound is followed only as often as the text has positions.  That is
enough: a repetition that stays where it is can be left out, and every other one takes a character.
-/

namespace FormDerivation.Pattern

def Ordered : Pattern → Prop
  | .cat p q => p.Ordered ∧ q.Ordered
  | .alt p q => p.Ordered ∧ q.Ordered
  | .repeated p min max => p.Ordered ∧ ∀ m ∈ max, min ≤ m
  | _ => True

variable {text : List Char}

/-! ## Positions of a match -/

theorem Spans.le {p : Pattern} {i j : Nat} (h : Spans text p i j) : i ≤ j := by
  induction h with
  | empty => exact Nat.le_refl _
  | chars => exact Nat.le_succ _
  | anchor => exact Nat.le_refl _
  | cat _ _ first second => exact Nat.le_trans first second
  | altLeft _ ih => exact ih
  | altRight _ ih => exact ih
  | done => exact Nat.le_refl _
  | more _ _ _ first rest => exact Nat.le_trans first rest

theorem Spans.le_length {p : Pattern} {i j : Nat} (h : Spans text p i j) (hi : i ≤ text.length) :
    j ≤ text.length := by
  induction h with
  | empty => exact hi
  | chars at_i _ => exact (List.getElem?_eq_some_iff.mp at_i).1
  | anchor => exact hi
  | cat _ _ first second => exact second (first hi)
  | altLeft _ ih => exact ih hi
  | altRight _ ih => exact ih hi
  | done => exact hi
  | more _ _ _ first rest => exact rest (first hi)

def Times (text : List Char) (p : Pattern) : Nat → Nat → Nat → Prop
  | 0, i, k => i = k
  | n + 1, i, k => ∃ j, Spans text p i j ∧ Times text p n j k

theorem Times.add {p : Pattern} {n : Nat} : {m i k : Nat} →
    (Times text p (m + n) i k ↔ ∃ j, Times text p m i j ∧ Times text p n j k)
  | 0, i, k => by simp [Times]
  | m + 1, i, k => by
      rw [Nat.succ_add]
      simp only [Times, Times.add (m := m)]
      grind

theorem Times.le_length {p : Pattern} : {n i k : Nat} → Times text p n i k → i ≤ text.length →
    k ≤ text.length
  | 0, _, _, rfl, hi => hi
  | _ + 1, _, _, ⟨_, first, rest⟩, hi => rest.le_length (first.le_length hi)

theorem Times.le {p : Pattern} : {n i k : Nat} → Times text p n i k → i ≤ k
  | 0, _, _, h => Nat.le_of_eq h
  | _ + 1, _, _, ⟨_, first, rest⟩ => Nat.le_trans first.le rest.le

/-- Matches of no characters can be left out, so that no more are left than there are characters. -/
theorem Times.shorten {p : Pattern} : {n i k : Nat} → Times text p n i k →
    ∃ m ≤ n, m ≤ k - i ∧ Times text p m i k
  | 0, _, _, h => ⟨0, Nat.le_refl _, Nat.zero_le _, h⟩
  | n + 1, i, k, ⟨j, first, rest⟩ => by
      obtain ⟨m, hm, hle, hrest⟩ := rest.shorten
      rcases Nat.eq_or_lt_of_le first.le with rfl | hlt
      · exact ⟨m, by omega, hle, hrest⟩
      · have hjk := hrest.le
        exact ⟨m + 1, by omega, by omega, j, first, hrest⟩

theorem spans_repeated_iff {p : Pattern} {min : Nat} {max : Option Nat} {i k : Nat} :
    Spans text (.repeated p min max) i k ↔
      ∃ n, min ≤ n ∧ (∀ m ∈ max, n ≤ m) ∧ Times text p n i k := by
  constructor
  · intro h
    generalize hq : Pattern.repeated p min max = q at h
    induction h generalizing min max with
    | done =>
        cases hq
        exact ⟨0, Nat.le_refl _, fun _ _ => Nat.zero_le _, rfl⟩
    | more room first _ _ ih =>
        cases hq
        obtain ⟨n, hmin, hmax, hrest⟩ := ih rfl
        refine ⟨n + 1, by omega, fun m hm => ?_, _, first, hrest⟩
        rw [Option.mem_def] at hm
        subst hm
        have hpos : m ≠ 0 := fun h => room (congrArg some h)
        have hn : n ≤ m - 1 := hmax (m - 1) rfl
        omega
    | _ => cases hq
  · rintro ⟨n, hmin, hmax, h⟩
    induction n generalizing min max i with
    | zero =>
        obtain rfl : min = 0 := by omega
        obtain rfl : i = k := h
        exact .done
    | succ n ih =>
        obtain ⟨j, first, rest⟩ := h
        refine .more ?_ first (ih (by omega) ?_ rest)
        · rintro rfl
          exact absurd (hmax 0 rfl) (by omega)
        · cases max with
          | none => exact fun m hm => by cases hm
          | some bound =>
              have hbound := hmax bound rfl
              rintro m ⟨⟩
              exact Nat.le_sub_one_of_lt hbound

/-! ## Sets of positions -/

theorem mem_ite_two_pow {b : Bool} {index j : Nat} :
    (if b then Nat.pow 2 index else 0).testBit j = true ↔ j = index ∧ b = true := by
  cases b with
  | false => simp
  | true =>
      rw [if_pos rfl, Nat.pow_eq, Nat.testBit_two_pow, decide_eq_true_eq]
      simp [eq_comm]

theorem mem_stepPositions {set : Text.CharSet} {j : Nat} : {text : List Char} → {index : Nat} →
    ((stepPositions set index text).testBit j = true ↔
      ∃ i c, j = index + i ∧ text[i]? = some c ∧ set.contains c.toNat = true)
  | [], index => by simp [stepPositions]
  | c :: rest, index => by
      rw [stepPositions, Nat.testBit_or, Bool.or_eq_true, mem_ite_two_pow, mem_stepPositions]
      constructor
      · rintro (⟨rfl, hc⟩ | ⟨i, d, rfl, hd, hmem⟩)
        · exact ⟨0, c, rfl, rfl, hc⟩
        · exact ⟨i + 1, d, by omega, hd, hmem⟩
      · rintro ⟨i, d, rfl, hd, hmem⟩
        cases i with
        | zero =>
            cases hd
            exact .inl ⟨rfl, hmem⟩
        | succ i => exact .inr ⟨i, d, by omega, hd, hmem⟩

theorem mem_testPositions {anchor : Anchor} {words : Text.CharSet} {j : Nat} :
    {text : List Char} → {index : Nat} → {before : Option Char} →
    ((testPositions anchor words index before text).testBit j = true ↔
      ∃ i ≤ text.length, j = index + i ∧
        anchor.holds words (if i = 0 then before else text[i - 1]?) text[i]? = true)
  | [], index, before => by
      rw [testPositions, mem_ite_two_pow]
      constructor
      · exact fun ⟨hj, hholds⟩ => ⟨0, Nat.le_refl _, hj, hholds⟩
      · rintro ⟨i, hi, rfl, hholds⟩
        obtain rfl : i = 0 := Nat.le_zero.mp hi
        exact ⟨rfl, hholds⟩
  | c :: rest, index, before => by
      rw [testPositions, Nat.testBit_or, Bool.or_eq_true, mem_ite_two_pow, mem_testPositions]
      have hbefore : ∀ i, (c :: rest)[i]? = if i = 0 then some c else rest[i - 1]? := by
        rintro (_ | i) <;> rfl
      constructor
      · rintro (⟨rfl, hc⟩ | ⟨i, hi, rfl, hholds⟩)
        · exact ⟨0, Nat.zero_le _, rfl, hc⟩
        · exact ⟨i + 1, Nat.succ_le_succ hi, by omega, by simpa [hbefore] using hholds⟩
      · rintro ⟨i, hi, rfl, hholds⟩
        cases i with
        | zero => exact .inl ⟨rfl, hholds⟩
        | succ i =>
            exact .inr ⟨i, Nat.le_of_succ_le_succ hi, by omega, by simpa [hbefore] using hholds⟩

theorem iterate_eq (step : Positions → Positions) : (n : Nat) → (positions : Positions) →
    iterate step n positions = step^[n] positions
  | 0, _ => rfl
  | n + 1, positions => by
      rw [iterate, Function.iterate_succ_apply]
      by_cases hfixed : step positions = positions
      · rw [hfixed, Function.iterate_fixed hfixed]
        simp
      · simp only [beq_iff_eq, hfixed, if_false]
        exact iterate_eq step n _

def InText (text : List Char) (positions : Positions) : Prop :=
  ∀ i, positions.testBit i = true → i ≤ text.length

def Follows (text : List Char) (p : Pattern) (step : Positions → Positions) : Prop :=
  ∀ positions, InText text positions → ∀ j, (step positions).testBit j = true ↔
    ∃ i, positions.testBit i = true ∧ Spans text p i j

namespace Follows

variable {p : Pattern} {step : Positions → Positions}

theorem inText (h : Follows text p step) {positions : Positions}
    (hpositions : InText text positions) : InText text (step positions) := by
  intro j hj
  obtain ⟨i, hi, hspans⟩ := (h positions hpositions j).mp hj
  exact hspans.le_length (hpositions i hi)

theorem zero (h : Follows text p step) : step 0 = 0 := by
  refine Nat.eq_of_testBit_eq fun j => ?_
  rw [Nat.zero_testBit, Bool.eq_false_iff]
  intro hj
  obtain ⟨i, hi, -⟩ := (h 0 (fun i hi => by simp at hi) j).mp hj
  simp at hi

theorem mem_iterate (h : Follows text p step) : (n : Nat) → {positions : Positions} →
    InText text positions → ∀ k, (step^[n] positions).testBit k = true ↔
      ∃ i, positions.testBit i = true ∧ Times text p n i k
  | 0, positions, _, k => by simp [Times]
  | n + 1, positions, hpositions, k => by
      rw [Function.iterate_succ_apply, mem_iterate h n (h.inText hpositions)]
      simp only [h positions hpositions, Times]
      grind

theorem mem_iterate_or (h : Follows text p step) : (n : Nat) → {positions : Positions} →
    InText text positions → ∀ k, ((fun s => s ||| step s)^[n] positions).testBit k = true ↔
      ∃ m ≤ n, ∃ i, positions.testBit i = true ∧ Times text p m i k
  | 0, positions, _, k => by simp [Times]
  | n + 1, positions, hpositions, k => by
      have hnext : InText text (positions ||| step positions) := fun i hi => by
        rw [Nat.testBit_or, Bool.or_eq_true] at hi
        exact hi.elim (hpositions i) (h.inText hpositions i)
      rw [Function.iterate_succ_apply, mem_iterate_or h n hnext]
      simp only [Nat.testBit_or, Bool.or_eq_true, h positions hpositions]
      constructor
      · rintro ⟨m, hm, j, hj | ⟨i, hi, first⟩, rest⟩
        · exact ⟨m, by omega, j, hj, rest⟩
        · exact ⟨m + 1, by omega, i, hi, j, first, rest⟩
      · rintro ⟨m, hm, i, hi, htimes⟩
        cases m with
        | zero => exact ⟨0, Nat.zero_le _, i, .inl hi, htimes⟩
        | succ m =>
            obtain ⟨j, first, rest⟩ := htimes
            exact ⟨m, by omega, j, .inr ⟨i, hi, first⟩, rest⟩

theorem repeated (h : Follows text p step) {min : Nat} {max : Option Nat}
    (hbounds : ∀ m ∈ max, min ≤ m) :
    Follows text (.repeated p min max) fun positions =>
      iterate (fun s => s ||| step s)
        (max.elim (text.length + 1) fun max => Nat.min (max - min) (text.length + 1))
        (iterate (fun s => if s == 0 then 0 else step s) min positions) := by
  intro positions hpositions k
  have hstep : (fun s => if s == 0 then 0 else step s) = step := by
    funext s
    split
    · rename_i hs
      rw [beq_iff_eq.mp hs, h.zero]
    · rfl
  have hrequired : InText text (step^[min] positions) := fun j hj => by
    obtain ⟨i, hi, htimes⟩ := (h.mem_iterate min hpositions j).mp hj
    exact htimes.le_length (hpositions i hi)
  simp only [hstep, iterate_eq]
  rw [h.mem_iterate_or _ hrequired]
  simp only [h.mem_iterate min hpositions, spans_repeated_iff]
  constructor
  · rintro ⟨m, hm, j, ⟨i, hi, hfirst⟩, hrest⟩
    refine ⟨i, hi, min + m, by omega, fun bound hbound => ?_, Times.add.mpr ⟨j, hfirst, hrest⟩⟩
    have hle := hbounds bound hbound
    rw [Option.mem_def] at hbound
    subst hbound
    have := Nat.le_trans hm (Nat.min_le_left _ _)
    omega
  · rintro ⟨i, hi, n, hmin, hmax, htimes⟩
    obtain ⟨more, rfl⟩ := Nat.exists_eq_add_of_le hmin
    obtain ⟨j, hfirst, hrest⟩ := Times.add.mp htimes
    obtain ⟨m, hm, hle, hshort⟩ := hrest.shorten
    have hk := htimes.le_length (hpositions i hi)
    refine ⟨m, ?_, j, ⟨i, hi, hfirst⟩, hshort⟩
    cases max with
    | none => exact show m ≤ text.length + 1 by omega
    | some bound =>
        have hbound := hmax bound rfl
        exact Nat.le_min.mpr ⟨by omega, by omega⟩

end Follows

/-! ## Reach -/

theorem follows_reach : (p : Pattern) → p.Ordered →
    Follows text p ((located text p).reach (text.length + 1))
  | .empty, _ => fun positions _ j => by
      rw [located, Located.reach]
      constructor
      · exact fun hj => ⟨j, hj, .empty⟩
      · rintro ⟨i, hi, ⟨⟩⟩
        exact hi
  | .chars set, _ => fun positions _ j => by
      rw [located, Located.reach, Nat.testBit_shiftLeft, Bool.and_eq_true, decide_eq_true_eq,
        Nat.testBit_and, Bool.and_eq_true, mem_stepPositions]
      constructor
      · rintro ⟨hj, hi, i, c, hi', hc, hmem⟩
        obtain rfl : j = i + 1 := by omega
        exact ⟨i, hi, .chars hc hmem⟩
      · rintro ⟨i, hi, hspans⟩
        cases hspans with
        | chars at_i mem => exact ⟨by omega, hi, i, _, by omega, at_i, mem⟩
  | .anchor a words, _ => fun positions hpositions j => by
      rw [located, Located.reach, Nat.testBit_and, Bool.and_eq_true, mem_testPositions]
      constructor
      · rintro ⟨hj, i, -, hi, hholds⟩
        obtain rfl : j = i := by omega
        exact ⟨j, hj, .anchor hholds⟩
      · rintro ⟨i, hi, hspans⟩
        cases hspans with
        | anchor holds => exact ⟨hi, j, hpositions j hi, by omega, holds⟩
  | .cat p q, hordered => fun positions hpositions j => by
      have hp := follows_reach p hordered.1
      have hq := follows_reach q hordered.2
      rw [located, Located.reach, hq _ (hp.inText hpositions)]
      constructor
      · rintro ⟨k, hk, second⟩
        obtain ⟨i, hi, first⟩ := (hp positions hpositions k).mp hk
        exact ⟨i, hi, .cat first second⟩
      · rintro ⟨i, hi, hspans⟩
        cases hspans with
        | cat first second => exact ⟨_, (hp positions hpositions _).mpr ⟨i, hi, first⟩, second⟩
  | .alt p q, hordered => fun positions hpositions j => by
      have hp := follows_reach p hordered.1 positions hpositions j
      have hq := follows_reach q hordered.2 positions hpositions j
      rw [located, Located.reach, Nat.testBit_or, Bool.or_eq_true, hp, hq]
      constructor
      · rintro (⟨i, hi, hspans⟩ | ⟨i, hi, hspans⟩)
        · exact ⟨i, hi, .altLeft hspans⟩
        · exact ⟨i, hi, .altRight hspans⟩
      · rintro ⟨i, hi, hspans⟩
        cases hspans with
        | altLeft first => exact .inl ⟨i, hi, first⟩
        | altRight second => exact .inr ⟨i, hi, second⟩
  | .repeated p min max, hordered => by
      have hp := (follows_reach p hordered.1).repeated hordered.2
      cases max <;> exact hp

/-- The search decides whether a pattern matches within a text. -/
theorem matchesWithin_iff {p : Pattern} (hordered : p.Ordered) (text : List Char) :
    matchesWithin p text = true ↔ MatchesWithin p text := by
  have hall : ∀ i, (allPositions text).testBit i = true ↔ i ≤ text.length := fun i => by
    rw [allPositions, Nat.pow_eq, Nat.testBit_two_pow_sub_one, decide_eq_true_eq, Nat.lt_succ_iff]
  have hreach := follows_reach p hordered (allPositions text) fun i hi => (hall i).mp hi
  rw [matchesWithin, bne_iff_ne, MatchesWithin]
  constructor
  · intro hne
    obtain ⟨j, hj⟩ := Nat.exists_testBit_of_ne_zero hne
    obtain ⟨i, hi, hspans⟩ := (hreach j).mp hj
    exact ⟨i, j, (hall i).mp hi, hspans⟩
  · rintro ⟨i, j, hi, hspans⟩ hzero
    have hj := (hreach j).mpr ⟨i, (hall i).mpr hi, hspans⟩
    rw [hzero] at hj
    simp at hj

end FormDerivation.Pattern
