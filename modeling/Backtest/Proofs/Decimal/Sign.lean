import Backtest.Proofs.Decimal.Numeral

/-!
# The signs of numerals

A sign stands before a numeral or before its exponent, and nowhere else.  So a numeral is, behind
its sign, one run of digits, points and exponent marks, or it is two runs with the sign of the
exponent in between, each of which begins with a digit or a point (`parts_of_takeNumeral?`).  In the
free grammar the one run may also be a word (`parts_of_number?`).
-/

namespace Backtest.Decimal

open Text

variable {text : Chars} {numeral : Numeral}

theorem takeSign_cons {sign : Char} (hsign : sign ∈ ['+', '-']) (rest : Chars) :
    (takeSign (sign :: rest)).2 = rest := by
  rw [List.mem_cons, List.mem_singleton] at hsign
  rcases hsign with rfl | rfl <;> rfl

theorem takeSign_cases (text : Chars) :
    text = (takeSign text).2 ∨ ∃ sign ∈ ['+', '-'], text = sign :: (takeSign text).2 := by
  simp only [takeSign]
  split
  · exact .inr ⟨'-', by decide, rfl⟩
  · exact .inr ⟨'+', by decide, rfl⟩
  · exact .inl rfl

/-- A sign may stand before a numeral that has none. -/
theorem scriptNumeral?_signed {sign : Char} (hsign : sign ∈ ['+', '-']) (hplus : '+' ∉ text)
    (hminus : '-' ∉ text) (hread : scriptNumeral? text = some numeral) :
    ∃ signed, scriptNumeral? (sign :: text) = some signed := by
  have htake : takeNumeral? takeDigits (sign :: text) =
      (takeNumeral? takeDigits text).map fun found =>
        ({ found.1 with negative := (takeSign (sign :: text)).1 }, found.2) := by
    rw [takeNumeral?, takeNumeral?]
    dsimp only
    rw [takeSign_cons hsign, takeSign_eq hplus hminus]
    split <;> rfl
  rw [scriptNumeral?, takeScriptNumeral?] at hread ⊢
  rw [htake]
  split at hread
  · next found hfound =>
      rw [hfound]
      exact ⟨_, rfl⟩
  · cases hread

/-- A character of a numeral that is no sign. -/
def IsFigure (c : Char) : Prop := isDigit c = true ∨ c ∈ ['_', '.', 'e', 'E']

theorem isFigure_of_mem {c : Char} (hc : c ∈ ['e', 'E']) : IsFigure c :=
  .inr (List.mem_cons_of_mem _ (List.mem_cons_of_mem _ hc))

/-- Begins with a digit or a point. -/
def BeginsNumeral (text : Chars) : Prop := ∃ c rest, text = c :: rest ∧ (isDigit c = true ∨ c = '.')

theorem beginsNumeral_of_startsWithDigit (hstart : startsWithDigit text = true) :
    BeginsNumeral text := by
  cases text with
  | nil => exact nomatch hstart
  | cons c rest => exact ⟨c, rest, rfl, .inl hstart⟩

/-- A reader of digits takes figures, the first of which is a digit, or it takes nothing. -/
structure TakesDigits (take : Chars → Chars × Chars) : Prop where
  consumes : ∀ text, Consumes IsFigure text (take text).2
  begins : ∀ text, (take text).1 ≠ [] → startsWithDigit text = true
  stays : ∀ text, (take text).1 = [] → (take text).2 = text

theorem takesSpacedDigits : TakesDigits takeSpacedDigits where
  consumes text := by
    have hfurther : ∀ text, Consumes IsFigure text (takeFurtherDigits text).2 := by
      intro text
      induction text with
      | nil => exact .refl _ _
      | cons c rest ih =>
          rw [takeFurtherDigits]
          split
          · next hdigit => exact ih.cons (.inl hdigit)
          · split
            · next hspaced =>
                rw [Bool.and_eq_true, beq_iff_eq] at hspaced
                exact ih.cons (.inr (by rw [hspaced.1]; decide))
            · exact .refl _ _
    rw [takeSpacedDigits]
    split
    · exact hfurther text
    · exact .refl _ _
  begins text htaken := by
    rw [takeSpacedDigits] at htaken
    split at htaken
    · next hstart => exact hstart
    · exact absurd rfl htaken
  stays text htaken := by
    rw [takeSpacedDigits] at htaken ⊢
    split
    · next hstart =>
        rw [if_pos hstart] at htaken
        cases text with
        | nil => cases hstart
        | cons c rest =>
            have hdigit : isDigit c = true := hstart
            rw [takeFurtherDigits, if_pos hdigit] at htaken
            cases htaken
    · rfl

section Reading

variable {take : Chars → Chars × Chars} (htake : TakesDigits take)

include htake

theorem consumes_fraction (text : Chars) :
    Consumes IsFigure text (takeFraction take text).2.2 := by
  have hwhole := htake.consumes text
  rw [takeFraction]
  dsimp only
  split
  · next rest hrest =>
      split
      · exact .refl _ _
      · rw [hrest] at hwhole
        exact hwhole.trans ((htake.consumes rest).cons (.inr (by decide)))
  · exact hwhole

theorem begins_fraction (hfound :
      ((takeFraction take text).1.isEmpty && (takeFraction take text).2.1.isEmpty) = false) :
    BeginsNumeral text := by
  by_cases hwhole : (take text).1 = []
  · rw [takeFraction] at hfound
    dsimp only at hfound
    split at hfound
    · next rest hrest =>
        rw [htake.stays text hwhole] at hrest
        exact ⟨'.', rest, hrest, .inr rfl⟩
    · rw [hwhole] at hfound
      cases hfound
  · exact beginsNumeral_of_startsWithDigit (htake.begins text hwhole)

/-- An exponent that ends a text is a mark and figures, with or without a sign in between. -/
theorem parts_of_takeExponent (hend : (takeExponent take text).2 = []) :
    (∀ c ∈ text, IsFigure c) ∨ ∃ mark sign back, text = mark :: sign :: back ∧ mark ∈ ['e', 'E'] ∧
      sign ∈ ['+', '-'] ∧ (∀ c ∈ back, IsFigure c) ∧ BeginsNumeral back := by
  cases text with
  | nil => exact .inl nofun
  | cons mark rest =>
      rw [takeExponent] at hend
      dsimp only at hend
      split at hend
      · next hmark =>
          have hletter : mark ∈ ['e', 'E'] := by rcases hmark with rfl | rfl <;> decide
          split at hend
          · cases hend
          · next shown others htaken hdigits =>
              have hbegins : BeginsNumeral (takeSign rest).2 := by
                apply beginsNumeral_of_startsWithDigit
                apply htake.begins
                rw [hdigits]
                exact htaken
              have hconsumes := htake.consumes (takeSign rest).2
              rw [hdigits] at hconsumes
              rw [hend] at hconsumes
              obtain ⟨front, hfront, hfigures⟩ := hconsumes
              rw [List.append_nil] at hfront
              rw [← hfront] at hfigures
              rcases takeSign_cases rest with hrest | ⟨sign, hsign, hrest⟩
              · rw [← hrest] at hfigures
                exact .inl (List.forall_mem_cons.2 ⟨isFigure_of_mem hletter, hfigures⟩)
              · exact .inr ⟨mark, sign, _, congrArg (mark :: ·) hrest, hletter, hsign, hfigures,
                  hbegins⟩
      · cases hend

/-- A numeral is a run of figures, or two of them with the sign of an exponent in between. -/
theorem parts_of_takeNumeral? (hread : takeNumeral? take text = some (numeral, [])) :
    BeginsNumeral (takeSign text).2 ∧ ((∀ c ∈ (takeSign text).2, IsFigure c) ∨
      ∃ front sign back, (takeSign text).2 = front ++ sign :: back ∧ sign ∈ ['+', '-'] ∧
        (∀ c ∈ front, IsFigure c) ∧ BeginsNumeral front ∧ (∀ c ∈ back, IsFigure c) ∧
          BeginsNumeral back) := by
  rw [takeNumeral?] at hread
  dsimp only at hread
  split at hread
  · cases hread
  · next hfound =>
      injection hread with hread
      injection hread with _ hend
      rw [Bool.not_eq_true] at hfound
      have hbegins := begins_fraction htake hfound
      obtain ⟨front, hfront, hfigures⟩ := consumes_fraction htake (takeSign text).2
      refine ⟨hbegins, ?_⟩
      rcases parts_of_takeExponent htake hend with hrest | ⟨mark, sign, back, hrest, hmark, hback⟩
      · left
        rw [hfront]
        exact List.forall_mem_append.2 ⟨hfigures, hrest⟩
      · right
        rw [hrest] at hfront
        refine ⟨front ++ [mark], sign, back, by rw [hfront, List.append_assoc]; rfl, hback.1, ?_,
          ?_, hback.2⟩
        · exact List.forall_mem_append.2
            ⟨hfigures, List.forall_mem_singleton.2 (isFigure_of_mem hmark)⟩
        · obtain ⟨c, rest, hbody, hc⟩ := hbegins
          rw [hfront] at hbody
          cases front with
          | cons first others =>
              injection hbody with hfirst
              exact ⟨first, others ++ [mark], rfl, hfirst ▸ hc⟩
          | nil =>
              injection hbody with hfirst
              rw [← hfirst] at hc
              have hletters : ∀ mark ∈ ['e', 'E'], ¬ (isDigit mark = true ∨ mark = '.') := by decide
              exact absurd hc (hletters mark hmark)

end Reading

theorem isAlpha_of_toLower {c : Char} (hc : c.toLower.isAlpha = true) : c.isAlpha = true := by
  by_cases hupper : c.isUpper = true
  · exact Bool.or_eq_true_iff.2 (.inl hupper)
  · have hsame : c.toLower = c := by
      delta Char.toLower
      split
      · next hcode => exact absurd (decide_eq_true hcode) hupper
      · rfl
    rwa [hsame] at hc

/-- What the free grammar reads is, behind its sign, one run of letters and figures, or two runs of
figures with the sign of an exponent in between. -/
theorem parts_of_number? {α : Type} [Arith α] {x : α} (hpadded : unpadded text = text)
    (hread : number? text = some x) :
    ((takeSign text).2 ≠ [] ∧ ∀ c ∈ (takeSign text).2, IsFigure c ∨ c.isAlpha = true) ∨
      ∃ front sign back, (takeSign text).2 = front ++ sign :: back ∧ sign ∈ ['+', '-'] ∧
        (∀ c ∈ front, IsFigure c) ∧ BeginsNumeral front ∧ (∀ c ∈ back, IsFigure c) ∧
          BeginsNumeral back := by
  have hword {word : String} (halpha : ∀ c ∈ word.toList, c.isAlpha = true)
      (hne : word.toList ≠ [])
      (heq : String.ofList ((takeSign text).2.map Char.toLower) = word) :
      (takeSign text).2 ≠ [] ∧ ∀ c ∈ (takeSign text).2, IsFigure c ∨ c.isAlpha = true := by
    rw [← heq, String.toList_ofList] at halpha hne
    refine ⟨fun hnil => hne (by rw [hnil]; rfl), fun c hc => .inr ?_⟩
    exact isAlpha_of_toLower (halpha c.toLower (List.mem_map_of_mem hc))
  unfold number? at hread
  dsimp only at hread
  rw [hpadded] at hread
  split at hread
  · next hnan => exact .inl (hword (by decide) (by decide) hnan)
  · split at hread
    · next hinfinite =>
        rcases hinfinite with heq | heq
        · exact .inl (hword (by decide) (by decide) heq)
        · exact .inl (hword (by decide) (by decide) heq)
    · split at hread
      · next numeral hnumeral =>
          obtain ⟨⟨c, rest, hbody, _⟩, hparts⟩ := parts_of_takeNumeral? takesSpacedDigits hnumeral
          refine hparts.imp (fun hfigures => ⟨by rw [hbody]; exact List.cons_ne_nil _ _, ?_⟩) id
          exact fun c hc => .inl (hfigures c hc)
      · exact nomatch hread

end Backtest.Decimal
