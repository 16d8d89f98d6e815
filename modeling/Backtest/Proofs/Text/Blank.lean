import Backtest.Text.Trim

/-!
# White space

No character of a name and no digit is white space, and trimming takes away exactly the white space
that was put around a text.
-/

namespace Backtest.Text

/-! ## Classes of characters -/

/-- The code points of white space. -/
def blankCodes : List Nat :=
  [9, 10, 11, 12, 13, 28, 29, 30, 31, 32, 0x85, 0xA0, 0x1680, 0x2000, 0x2001, 0x2002, 0x2003,
    0x2004, 0x2005, 0x2006, 0x2007, 0x2008, 0x2009, 0x200A, 0x2028, 0x2029, 0x202F, 0x205F, 0x3000]

theorem toNat_mem_blankCodes {c : Char} (hc : isBlank c = true) : c.toNat ∈ blankCodes := by
  simp only [isBlank, Bool.or_eq_true, Bool.and_eq_true, decide_eq_true_eq, beq_iff_eq] at hc
  simp only [blankCodes, List.mem_cons, List.not_mem_nil, or_false]
  omega

/-- A class of characters without white space, decided on the code points. -/
theorem not_isBlank_of_all {kind : Char → Bool}
    (hcodes : blankCodes.all (fun code => !kind (Char.ofNat code)) = true) {c : Char}
    (hc : kind c = true) : isBlank c = false := by
  rw [Bool.eq_false_iff]
  intro hblank
  have hcode := List.all_eq_true.1 hcodes _ (toNat_mem_blankCodes hblank)
  rw [Char.ofNat_toNat, hc] at hcode
  exact nomatch hcode

theorem not_isBlank_of_isDigit {c : Char} (hc : isDigit c = true) : isBlank c = false :=
  not_isBlank_of_all (by decide +kernel) hc

theorem not_isBlank_of_isQuote {c : Char} (hc : isQuote c = true) : isBlank c = false :=
  not_isBlank_of_all (by decide) hc

/-- A class of characters is apart from each character that it leaves out. -/
theorem not_mem_of_all {kind : Char → Bool} {others : Chars}
    (hothers : others.all (fun other => !kind other) = true) {c : Char} (hc : kind c = true) :
    c ∉ others := by
  intro hmem
  have hother := List.all_eq_true.1 hothers c hmem
  rw [hc] at hother
  exact nomatch hother

/-- What is said of each character of a text is decided on the text, and not on all characters. -/
instance (priority := 2000) decidableForallMem {p : Char → Prop} [DecidablePred p] (text : Chars) :
    Decidable (∀ c ∈ text, p c) := List.decidableBAll p text

instance (priority := 2000) decidableExistsMem {p : Char → Prop} [DecidablePred p] (text : Chars) :
    Decidable (∃ c ∈ text, p c) := List.decidableBEx p text

/-! ## Trimming -/

/-- A text that begins and ends without white space. -/
structure IsTrimmed (text : Chars) : Prop where
  head : ∀ c, text.head? = some c → isBlank c = false
  last : ∀ c, text.getLast? = some c → isBlank c = false

theorem isTrimmed_iff {text : Chars} : IsTrimmed text ↔
    (text.head?.all (!isBlank ·) && text.getLast?.all (!isBlank ·)) = true := by
  simp only [Bool.and_eq_true, Option.all_eq_true, Bool.not_eq_true']
  exact ⟨fun htext => ⟨htext.head, htext.last⟩, fun ⟨hhead, hlast⟩ => ⟨hhead, hlast⟩⟩

instance (text : Chars) : Decidable (IsTrimmed text) := decidable_of_iff' _ isTrimmed_iff

theorem isTrimmed_of_forall {text : Chars} (htext : ∀ c ∈ text, isBlank c = false) :
    IsTrimmed text :=
  ⟨fun c hc => htext c (List.mem_of_head? hc), fun c hc => htext c (List.mem_of_getLast? hc)⟩

theorem dropWhile_blank {front text : Chars} (hfront : ∀ c ∈ front, isBlank c = true)
    (htext : ∀ c, text.head? = some c → isBlank c = false) :
    (front ++ text).dropWhile isBlank = text := by
  induction front with
  | nil =>
      cases text with
      | nil => rfl
      | cons c rest =>
          rw [List.nil_append, List.dropWhile_cons, htext c rfl, if_neg Bool.false_ne_true]
  | cons c rest ih =>
      rw [List.cons_append, List.dropWhile_cons, hfront c List.mem_cons_self, if_pos rfl]
      exact ih fun other hother => hfront other (List.mem_cons_of_mem _ hother)

theorem mem_dropWhile_blank {text : Chars} {c : Char} (hc : c ∈ text) (hblank : isBlank c = false) :
    c ∈ text.dropWhile isBlank := by
  rw [← List.takeWhile_append_dropWhile (p := isBlank) (l := text)] at hc
  rcases List.mem_append.1 hc with hc | hc
  · have hall := List.all_eq_true.1 List.all_takeWhile c hc
    rw [hblank] at hall
    exact nomatch hall
  · exact hc

/-- Trimming keeps what is no white space. -/
theorem mem_trim {text : Chars} {c : Char} (hc : c ∈ text) (hblank : isBlank c = false) :
    c ∈ trim text := by
  have hleft := mem_dropWhile_blank hc hblank
  exact List.mem_reverse.2 (mem_dropWhile_blank (List.mem_reverse.2 hleft) hblank)

/-- Trimming takes away the white space around a trimmed text. -/
theorem trim_padded {front text back : Chars} (hfront : ∀ c ∈ front, isBlank c = true)
    (hback : ∀ c ∈ back, isBlank c = true) (htext : IsTrimmed text) (hne : text ≠ []) :
    trim (front ++ (text ++ back)) = text := by
  have hleft : trimLeft (front ++ (text ++ back)) = text ++ back := by
    apply dropWhile_blank hfront
    intro c hc
    apply htext.head
    cases text with
    | nil => exact absurd rfl hne
    | cons first rest => exact hc
  have hright : (back.reverse ++ text.reverse).dropWhile isBlank = text.reverse := by
    apply dropWhile_blank
    · intro c hc
      exact hback c (List.mem_reverse.1 hc)
    · intro c hc
      rw [List.head?_reverse] at hc
      exact htext.last c hc
  rw [trim, hleft, trimRight, List.reverse_append, hright, List.reverse_reverse]

theorem trim_of_isTrimmed {text : Chars} (htext : IsTrimmed text) (hne : text ≠ []) :
    trim text = text := by
  have htrim : trim ([] ++ (text ++ [])) = text := trim_padded nofun nofun htext hne
  rw [List.append_nil] at htrim
  exact htrim

end Backtest.Text
