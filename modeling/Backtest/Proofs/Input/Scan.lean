import Backtest.Input.Update
import Backtest.Proofs.Input.Heading

/-!
# Scanning a script for declarations

The segments of a script are told from their text alone: `Cut` lists what has to hold of each
segment and the text behind it, and a list of segments for which it holds is what a scan makes of
their text (`segments_written`).  New arguments leave the cut as it is, as long as no declaration
ends earlier (`Cut.renew`).  So writing new arguments into the declarations of a name changes these
declarations and nothing else that a scan finds (`declarations_updateNamed`).
-/

namespace Backtest.Input

open Text

/-! ## One step of a scan -/

/-- A whole name: characters of a name, at least one. -/
structure IsName (name : Chars) : Prop where
  nonempty : name ≠ []
  word : ∀ c ∈ name, isWord c = true

theorem isName_takeWhile {c : Char} (hc : isWord c = true) (rest : Chars) :
    IsName ((c :: rest).takeWhile isWord) := by
  refine ⟨?_, fun d hd => List.mem_takeWhile_imp hd⟩
  rw [List.takeWhile_cons, if_pos hc]
  exact List.cons_ne_nil _ _

theorem segments_nil (wanted : Chars → Bool) : segments wanted [] = [] := by rw [segments]

theorem segments_other (wanted : Chars → Bool) {c : Char} (hc : isWord c = false) (rest : Chars) :
    segments wanted (c :: rest) = .verbatim [c] :: segments wanted rest := by
  rw [segments]
  simp [hc]

theorem segments_name (wanted : Chars → Bool) {name rest : Chars} (hname : IsName name)
    (hends : endsWord rest = true) :
    segments wanted (name ++ rest) =
      match wanted name, declaration? name rest with
      | true, some (found, later) => .declaration found :: segments wanted later
      | _, _ => .verbatim name :: segments wanted rest := by
  obtain ⟨c, others, rfl⟩ := List.exists_cons_of_ne_nil hname.nonempty
  have htake := takeWhile_append_of_stop hname.word (endsWord_iff.1 hends)
  have hdrop := dropWhile_append_of_stop hname.word (endsWord_iff.1 hends)
  rw [List.cons_append] at htake hdrop ⊢
  rw [segments, dif_pos (hname.word c List.mem_cons_self)]
  dsimp only
  rw [htake]
  cases hwanted : wanted (c :: others) with
  | false => simp [hdrop]
  | true =>
      rw [if_pos rfl]
      split
      · next found later hfound =>
          rw [hdrop] at hfound
          rw [hfound]
      · next hfound =>
          rw [hdrop] at hfound
          rw [hfound, hdrop]

/-! ## Texts of segments -/

/-- The text of some segments. -/
def written (segs : List Segment) : Chars := segs.flatMap Segment.text

def Segment.declared? : Segment → Option Declaration
  | .verbatim _ => none
  | .declaration found => some found

/-- The declarations among some segments. -/
def declared (segs : List Segment) : List Declaration := segs.filterMap Segment.declared?

/-- New arguments for a segment, if it is a declaration. -/
def Segment.renew (renewed : Declaration → Chars) : Segment → Segment
  | .verbatim text => .verbatim text
  | .declaration found => .declaration { found with arguments := renewed found }

theorem written_cons (seg : Segment) (segs : List Segment) :
    written (seg :: segs) = seg.text ++ written segs := List.flatMap_cons ..

theorem declared_map_renew (renewed : Declaration → Chars) (segs : List Segment) :
    declared (segs.map (Segment.renew renewed)) =
      (declared segs).map fun found => { found with arguments := renewed found } := by
  rw [declared, List.filterMap_map, declared, List.map_filterMap]
  congr 1
  funext seg
  cases seg <;> rfl

/-- A declaration as a scan finds it: its head is a heading with an opening bracket behind it, and
no closing bracket stands in its arguments. -/
structure Declaration.Proper (found : Declaration) : Prop where
  name : IsName found.name
  heading : ∃ before, found.head = before ++ ['('] ∧ '(' ∉ before ∧
    heading? before = some found.kind
  closed : ')' ∉ found.arguments

theorem Declaration.Proper.declaration?_eq {found : Declaration} (hfound : found.Proper)
    (rest : Chars) : declaration? found.name (found.head ++ found.arguments ++ ')' :: rest) =
      some (found, rest) := by
  obtain ⟨before, hhead, hbefore, hkind⟩ := hfound.heading
  refine declaration?_eq_some_iff.2
    ⟨before, found.kind, found.arguments, ?_, hbefore, hfound.closed, hkind, ?_⟩
  · rw [hhead]
    simp
  · rw [← hhead]

theorem Declaration.Proper.endsWord {found : Declaration} (hfound : found.Proper) (rest : Chars) :
    endsWord (found.head ++ rest) = true := by
  obtain ⟨before, hhead, _, hkind⟩ := hfound.heading
  obtain ⟨front, back, rfl, hfront, _⟩ := heading?_eq_some hkind
  rw [hhead]
  cases front with
  | nil => rfl
  | cons c front =>
      rw [List.append_assoc, List.cons_append, List.cons_append, Text.endsWord, Bool.not_eq_true']
      exact not_isWord_of_isBlank (hfront c List.mem_cons_self)

/-- Segments that a scan makes of their text. -/
inductive Cut : List Segment → Prop where
  | nil : Cut []
  | other {c : Char} {segs : List Segment} (hc : isWord c = false) (hrest : Cut segs) :
      Cut (.verbatim [c] :: segs)
  | name {name : Chars} {segs : List Segment} (hname : IsName name)
      (hends : endsWord (written segs) = true) (hnone : declaration? name (written segs) = none)
      (hrest : Cut segs) : Cut (.verbatim name :: segs)
  | declaration {found : Declaration} {segs : List Segment} (hfound : found.Proper)
      (hrest : Cut segs) : Cut (.declaration found :: segs)

/-- All declarations are wanted. -/
def anyName : Chars → Bool := fun _ => true

theorem segments_declaration (wanted : Chars → Bool) {found : Declaration} (hfound : found.Proper)
    (hwanted : wanted found.name = true) (rest : Chars) :
    segments wanted ((Segment.declaration found).text ++ rest) =
      .declaration found :: segments wanted rest := by
  have htext : (Segment.declaration found).text ++ rest =
      found.name ++ (found.head ++ found.arguments ++ ')' :: rest) := by
    simp [Segment.text]
  rw [htext, segments_name wanted hfound.name (by rw [List.append_assoc]; exact hfound.endsWord _),
    hwanted, hfound.declaration?_eq]

theorem segments_written {segs : List Segment} (hcut : Cut segs) :
    segments anyName (written segs) = segs := by
  induction hcut with
  | nil => exact segments_nil anyName
  | other hc _ ih =>
      rw [written_cons, Segment.text, List.singleton_append, segments_other anyName hc, ih]
  | name hname hends hnone _ ih =>
      rw [written_cons, Segment.text, segments_name anyName hname hends, hnone, ih]
      rfl
  | declaration hfound _ ih =>
      rw [written_cons, segments_declaration anyName hfound rfl, ih]

/-- A scan cuts a text into segments and loses no character of it. -/
theorem cut_segments (text : Chars) :
    Cut (segments anyName text) ∧ written (segments anyName text) = text := by
  fun_induction segments anyName text with
  | case1 => exact ⟨.nil, rfl⟩
  | case2 c rest hword name others _ found later hfound ih =>
      obtain ⟨before, kind, arguments, hothers, hbefore, harguments, hkind, rfl⟩ :=
        declaration?_eq_some_iff.1 hfound
      refine ⟨.declaration ⟨isName_takeWhile hword rest, ⟨before, rfl, hbefore, hkind⟩, harguments⟩
        ih.1, ?_⟩
      have htext : name ++ others = c :: rest := List.takeWhile_append_dropWhile
      rw [written_cons, ih.2, ← htext, hothers]
      simp [Segment.text]
  | case3 c rest hword name others _ hnone ih =>
      refine ⟨.name (isName_takeWhile hword rest) ?_ ?_ ih.1, ?_⟩
      · rw [ih.2]
        exact endsWord_dropWhile _
      · rw [ih.2]
        exact hnone
      · rw [written_cons, ih.2]
        exact List.takeWhile_append_dropWhile
  | case4 c rest hword name others hwanted => exact absurd rfl hwanted
  | case5 c rest hword ih =>
      refine ⟨.other (Bool.eq_false_iff.2 hword) ih.1, ?_⟩
      rw [written_cons, ih.2]
      rfl

/-! ## New arguments -/

/-- What decides whether a declaration follows a name: the text before the next opening bracket, and
whether a closing one comes after it. -/
def opening : Chars → Option (Chars × Bool)
  | [] => none
  | c :: rest =>
      if c = '(' then some ([], rest.contains ')')
      else (opening rest).map fun entry => (c :: entry.1, entry.2)

theorem opening_append_cons {front : Chars} (hfront : '(' ∉ front) (back : Chars) :
    opening (front ++ '(' :: back) = some (front, back.contains ')') := by
  induction front with
  | nil => rfl
  | cons c front ih =>
      obtain ⟨hc, hrest⟩ := List.ne_and_not_mem_of_not_mem_cons hfront
      rw [List.cons_append, opening, if_neg (Ne.symm hc), ih hrest]
      rfl

theorem opening_append {left right : Chars} (hopening : opening left = opening right)
    (hclosing : left.contains ')' = right.contains ')') (front : Chars) :
    opening (front ++ left) = opening (front ++ right) := by
  induction front with
  | nil => exact hopening
  | cons c front ih =>
      rw [List.cons_append, List.cons_append, opening, opening, ih, List.contains_append,
        List.contains_append, hclosing]

theorem opening_eq_none {text : Chars} (htext : '(' ∉ text) : opening text = none := by
  induction text with
  | nil => rfl
  | cons c text ih =>
      obtain ⟨hc, hrest⟩ := List.ne_and_not_mem_of_not_mem_cons htext
      rw [opening, if_neg (Ne.symm hc), ih hrest]
      rfl

theorem declaration?_eq_none_iff (name text : Chars) : declaration? name text = none ↔
    ∀ before, opening text = some (before, true) → heading? before = none := by
  by_cases hopen : '(' ∈ text
  · obtain ⟨before, inner, rfl, hbefore⟩ := List.eq_append_cons_of_mem hopen
    rw [declaration?_append_cons name hbefore, opening_append_cons hbefore]
    by_cases hclose : ')' ∈ inner
    · obtain ⟨arguments, later, rfl, harguments⟩ := List.eq_append_cons_of_mem hclose
      rw [Expr.cutAt_append harguments]
      cases hkind : heading? before <;> simp [hkind]
    · rw [cutAt_eq_none_iff.2 hclose]
      cases heading? before <;> simp [hclose]
  · rw [declaration?_eq_none_of_not_mem name hopen, opening_eq_none hopen]
    simp

theorem IsName.not_mem_open {name : Chars} (hname : IsName name) : '(' ∉ name := by
  intro hmem
  exact absurd (hname.word _ hmem) (by decide)

section Renewing

variable {renewed : Declaration → Chars} {segs : List Segment}

theorem contains_written_renew :
    (written (segs.map (Segment.renew renewed))).contains ')' = (written segs).contains ')' := by
  induction segs with
  | nil => rfl
  | cons seg segs ih =>
      rw [List.map_cons, written_cons, written_cons, List.contains_append, List.contains_append, ih]
      cases seg with
      | verbatim text => rfl
      | declaration found => simp [Segment.renew, Segment.text]

/-- New arguments do not change what decides whether a declaration follows. -/
theorem opening_written_renew (hproper : ∀ found ∈ declared segs, found.Proper) :
    opening (written (segs.map (Segment.renew renewed))) = opening (written segs) := by
  induction segs with
  | nil => rfl
  | cons seg segs ih =>
      rw [List.map_cons, written_cons, written_cons]
      cases seg with
      | verbatim text => exact opening_append (ih hproper) contains_written_renew text
      | declaration found =>
          have hfound : found.Proper := hproper found List.mem_cons_self
          obtain ⟨before, hhead, hbefore, _⟩ := hfound.heading
          have hfront : '(' ∉ found.name ++ before := by
            rw [List.mem_append, not_or]
            exact ⟨hfound.name.not_mem_open, hbefore⟩
          have htext (arguments rest : Chars) :
              opening ((Segment.declaration { found with arguments := arguments }).text ++ rest) =
                some (found.name ++ before, true) := by
            have hopening := opening_append_cons hfront (arguments ++ ')' :: rest)
            simp only [Segment.text, hhead, List.append_assoc, List.cons_append,
              List.nil_append] at hopening ⊢
            rw [hopening]
            simp
          rw [Segment.renew, htext, htext]

theorem endsWord_written_renew (hcut : Cut segs) :
    endsWord (written (segs.map (Segment.renew renewed))) = endsWord (written segs) := by
  have happend {name : Chars} (hname : IsName name) (left right : Chars) :
      endsWord (name ++ left) = endsWord (name ++ right) := by
    obtain ⟨c, others, rfl⟩ := List.exists_cons_of_ne_nil hname.nonempty
    rfl
  cases hcut with
  | nil => rfl
  | other _ _ => rfl
  | name hname _ _ _ =>
      rw [List.map_cons, written_cons, written_cons]
      exact happend hname _ _
  | declaration hfound _ =>
      rw [List.map_cons, written_cons, written_cons]
      simp only [Segment.renew, Segment.text, List.append_assoc]
      exact happend hfound.name _ _

theorem Cut.proper (hcut : Cut segs) : ∀ found ∈ declared segs, found.Proper := by
  induction hcut with
  | nil => exact nofun
  | other _ _ ih => exact ih
  | name _ _ _ _ ih => exact ih
  | declaration hfound _ ih =>
      intro other hother
      rcases List.mem_cons.1 hother with rfl | hother
      · exact hfound
      · exact ih other hother

/-- New arguments leave the cut of a text as it is, unless they end a declaration. -/
theorem Cut.renew (hcut : Cut segs) (hrenewed : ∀ found ∈ declared segs, ')' ∉ renewed found) :
    Cut (segs.map (Segment.renew renewed)) := by
  induction hcut with
  | nil => exact .nil
  | other hc _ ih => exact .other hc (ih hrenewed)
  | name hname hends hnone hrest ih =>
      refine .name hname ?_ ?_ (ih hrenewed)
      · rw [endsWord_written_renew hrest, hends]
      · rw [declaration?_eq_none_iff, opening_written_renew hrest.proper]
        exact (declaration?_eq_none_iff _ _).1 hnone
  | declaration hfound _ ih =>
      refine .declaration ⟨hfound.name, hfound.heading, ?_⟩ (ih ?_)
      · exact hrenewed _ List.mem_cons_self
      · exact fun other hother => hrenewed other (List.mem_cons_of_mem _ hother)

end Renewing

/-! ## Writing into the declarations of a name -/

/-- No bracket in a text opens a declaration. -/
def OpensNone (text : Chars) : Prop :=
  ∀ front back, text = front ++ '(' :: back → ∀ before, before <:+ front → heading? before = none

/-- New arguments for the declarations of a name. -/
def renewNamed (name : String) (update : Chars → Chars) (found : Declaration) : Chars :=
  if found.name = name.toList then update found.arguments else found.arguments

/-- The names that count as one name. -/
def isNamed (name : String) : Chars → Bool := fun found => found == name.toList

section Named

variable {name : String} {update : Chars → Chars}

theorem updateNamed_eq (code : Chars) : updateNamed name update code =
    written ((segments (isNamed name) code).map
      (Segment.renew fun found => update found.arguments)) := by
  rw [updateNamed, written, List.flatMap_map]
  unfold isNamed
  congr 1
  funext seg
  cases seg <;> rfl

theorem updateNamed_nil : updateNamed name update [] = [] := by
  rw [updateNamed_eq, segments_nil]
  rfl

theorem updateNamed_other {c : Char} (hc : isWord c = false) (rest : Chars) :
    updateNamed name update (c :: rest) = c :: updateNamed name update rest := by
  rw [updateNamed_eq, segments_other _ hc, updateNamed_eq]
  rfl

theorem updateNamed_others {front : Chars} (hfront : ∀ c ∈ front, isWord c = false)
    (rest : Chars) :
    updateNamed name update (front ++ rest) = front ++ updateNamed name update rest := by
  induction front with
  | nil => rfl
  | cons c front ih =>
      rw [List.cons_append, updateNamed_other (hfront c List.mem_cons_self),
        ih fun d hd => hfront d (List.mem_cons_of_mem _ hd), List.cons_append]

theorem updateNamed_name {word rest : Chars} (hword : IsName word) (hends : endsWord rest = true)
    (hnone : word = name.toList → declaration? word rest = none) :
    updateNamed name update (word ++ rest) = word ++ updateNamed name update rest := by
  have hsegments : segments (isNamed name) (word ++ rest) =
      .verbatim word :: segments (isNamed name) rest := by
    rw [segments_name _ hword hends]
    by_cases hname : word = name.toList
    · rw [hnone hname]
      cases isNamed name word <;> rfl
    · have hother : isNamed name word = false := beq_false_of_ne hname
      rw [hother]
  rw [updateNamed_eq, hsegments, updateNamed_eq]
  rfl

theorem updateNamed_declaration {found : Declaration} (hfound : found.Proper)
    (hname : found.name = name.toList) (rest : Chars) :
    updateNamed name update ((Segment.declaration found).text ++ rest) =
      (Segment.declaration { found with arguments := update found.arguments }).text ++
        updateNamed name update rest := by
  have hwanted : isNamed name found.name = true := beq_iff_eq.2 hname
  rw [updateNamed_eq, segments_declaration _ hfound hwanted, updateNamed_eq, List.map_cons,
    written_cons]
  rfl

theorem OpensNone.of_append {front back : Chars} (hnone : OpensNone (front ++ back)) :
    OpensNone back := by
  rintro inner rest rfl before hbefore
  exact hnone (front ++ inner) rest (List.append_assoc ..).symm before
    (hbefore.trans (List.suffix_append front inner))

/-- A heading holds no bracket. -/
theorem not_mem_of_heading? {before : Chars} {kind : Option InputKind}
    (hkind : heading? before = some kind) : '(' ∉ before ∧ ')' ∉ before := by
  obtain ⟨front, back, rfl, hblank, _, hback⟩ := heading?_eq_some hkind
  constructor <;> intro hmem
  all_goals
    rcases List.mem_append.1 hmem with hmem | hmem
    · exact absurd (hblank _ hmem) (by decide)
    · rcases List.mem_cons.1 hmem with heq | hmem
      · exact absurd heq (by decide)
      · exact absurd (hback _ hmem) (by decide)

/-- The brackets of a text behind an opening one open no declaration if those of the text do not,
and no heading ends before that one. -/
theorem OpensNone.cons {front text : Chars} (hfront : '=' ∉ front) (hnone : OpensNone text) :
    OpensNone (front ++ '(' :: text) := by
  intro start back heq before hbefore
  cases hkind : heading? before with
  | none => rfl
  | some kind =>
      have hopen := (not_mem_of_heading? hkind).1
      have hequal : '=' ∈ before := by
        obtain ⟨_, _, rfl, _⟩ := heading?_eq_some hkind
        exact List.mem_append_right _ List.mem_cons_self
      have hstart : '=' ∈ start := hbefore.subset hequal
      exfalso
      rcases append_eq_append_cons_iff.1 heq with ⟨others, rfl, _⟩ | ⟨others, rfl, hlater⟩
      · exact hfront (List.mem_append_left _ hstart)
      · cases others with
        | nil =>
            rw [List.append_nil] at hstart
            exact hfront hstart
        | cons other others =>
            injection hlater with hother htext
            rw [← hother] at hbefore
            rcases suffix_append_iff.1 hbefore with hbefore | ⟨part, _, rfl⟩
            · rcases List.suffix_cons_iff.1 hbefore with rfl | hbefore
              · exact hopen List.mem_cons_self
              · have hheading := hnone others back htext before hbefore
                rw [hheading] at hkind
                exact nomatch hkind
            · exact hopen (List.mem_append_right part List.mem_cons_self)

/-- A heading behind a closing bracket is none of a declaration before it. -/
theorem OpensNone.declaration?_eq_none {text : Chars} (hnone : OpensNone text) (word rest : Chars) :
    declaration? word (text ++ ')' :: rest) = none := by
  cases hfound : declaration? word (text ++ ')' :: rest) with
  | none => rfl
  | some entry =>
      obtain ⟨before, kind, arguments, htext, _, _, hkind, _⟩ := declaration?_eq_some_iff.1 hfound
      exfalso
      rcases append_eq_append_cons_iff.1 htext with ⟨others, hfront, _⟩ | ⟨others, hbefore, hrest⟩
      · have hheading := hnone before others hfront before List.suffix_rfl
        rw [hheading] at hkind
        exact nomatch hkind
      · -- The heading would go beyond the closing bracket.
        cases others with
        | nil => exact absurd hrest (by simp)
        | cons other others =>
            injection hrest with hother
            apply (not_mem_of_heading? hkind).2
            rw [hbefore, ← hother]
            exact List.mem_append_right text List.mem_cons_self

/-- A text that opens no declaration, with a closing bracket behind it, is left as it is. -/
theorem updateNamed_opensNone {text : Chars} (hnone : OpensNone text) (rest : Chars) :
    updateNamed name update (text ++ ')' :: rest) =
      text ++ ')' :: updateNamed name update rest := by
  induction hlength : text.length using Nat.strong_induction_on generalizing text with
  | _ length ih =>
      cases text with
      | nil => exact updateNamed_other (by decide) rest
      | cons c others =>
          by_cases hc : isWord c = true
          · have hsplit : (c :: others).takeWhile isWord ++ (c :: others).dropWhile isWord =
                c :: others := List.takeWhile_append_dropWhile
            rw [← hsplit] at hnone
            have hlater := hnone.of_append
            have hends : endsWord ((c :: others).dropWhile isWord ++ ')' :: rest) = true := by
              have hends := endsWord_dropWhile (c :: others)
              cases hdrop : (c :: others).dropWhile isWord with
              | nil => rfl
              | cons d later =>
                  rw [hdrop] at hends
                  exact hends
            rw [← hsplit, List.append_assoc,
              updateNamed_name (isName_takeWhile hc others) hends
                fun _ => hlater.declaration?_eq_none _ rest,
              ih _ ?_ hlater rfl, List.append_assoc]
            rw [← hlength]
            exact length_dropWhile_lt isWord hc
          · rw [List.cons_append, updateNamed_other (Bool.eq_false_iff.2 hc),
              ih _ ?_ (@OpensNone.of_append [c] others hnone) rfl, List.cons_append]
            rw [← hlength]
            exact Nat.lt_succ_self _

/-- The text of a declaration of another name is left as it is. -/
theorem updateNamed_otherDeclaration {found : Declaration} (hfound : found.Proper)
    (hname : found.name ≠ name.toList) (hnone : OpensNone found.arguments) (rest : Chars) :
    updateNamed name update ((Segment.declaration found).text ++ rest) =
      (Segment.declaration found).text ++ updateNamed name update rest := by
  obtain ⟨before, hhead, hbefore, hkind⟩ := hfound.heading
  obtain ⟨front, back, rfl, hfront, _, hback⟩ := heading?_eq_some hkind
  have hequal : '=' ∉ back := fun hmem => absurd (hback _ hmem) (by decide)
  have hothers : ∀ c ∈ front ++ ['='], isWord c = false := by
    intro c hc
    rcases List.mem_append.1 hc with hc | hc
    · exact not_isWord_of_isBlank (hfront c hc)
    · rw [List.mem_singleton.1 hc]
      decide
  have htext (rest : Chars) : (Segment.declaration found).text ++ rest = found.name ++
      ((front ++ ['=']) ++ ((back ++ '(' :: found.arguments) ++ ')' :: rest)) := by
    simp [Segment.text, hhead]
  have hends : endsWord ((front ++ ['=']) ++ ((back ++ '(' :: found.arguments) ++ ')' :: rest)) =
      true := by
    have hends := hfound.endsWord (found.arguments ++ ')' :: rest)
    simpa [hhead] using hends
  rw [htext, updateNamed_name hfound.name hends fun heq => absurd heq hname,
    updateNamed_others hothers, updateNamed_opensNone (hnone.cons hequal), htext]

/-- Writing into the declarations of a name changes their arguments and no other text. -/
theorem updateNamed_written {segs : List Segment} (hcut : Cut segs)
    (hothers : ∀ found ∈ declared segs, found.name ≠ name.toList → OpensNone found.arguments) :
    updateNamed name update (written segs) =
      written (segs.map (Segment.renew (renewNamed name update))) := by
  induction hcut with
  | nil => exact updateNamed_nil
  | other hc _ ih =>
      rw [written_cons, Segment.text, List.singleton_append, updateNamed_other hc, ih hothers]
      rfl
  | name hname hends hnone _ ih =>
      rw [written_cons, Segment.text, updateNamed_name hname hends fun _ => hnone, ih hothers]
      rfl
  | @declaration found segs hfound _ ih =>
      have hrest := ih fun other hother => hothers other (List.mem_cons_of_mem _ hother)
      rw [List.map_cons, written_cons, written_cons, Segment.renew, renewNamed]
      by_cases hname : found.name = name.toList
      · rw [updateNamed_declaration hfound hname, hrest, if_pos hname]
      · have hnone := hothers found List.mem_cons_self hname
        rw [updateNamed_otherDeclaration hfound hname hnone, hrest, if_neg hname]

theorem declarations_written {segs : List Segment} (hcut : Cut segs) :
    declarations (written segs) = declared segs := by
  have hsegments := segments_written hcut
  unfold anyName at hsegments
  rw [declarations, hsegments, declared]
  congr 1
  funext seg
  cases seg <;> rfl

/-- Writing into the declarations of a name changes their arguments and no other declaration. -/
theorem declarations_updateNamed {code : Chars}
    (hclosed : ∀ found ∈ declarations code, found.name = name.toList →
      ')' ∉ update found.arguments)
    (hothers : ∀ found ∈ declarations code, found.name ≠ name.toList →
      OpensNone found.arguments) :
    declarations (updateNamed name update code) = (declarations code).map fun found =>
      { found with arguments := renewNamed name update found } := by
  obtain ⟨hcut, hcode⟩ := cut_segments code
  rw [← hcode, declarations_written hcut] at hclosed hothers ⊢
  rw [updateNamed_written hcut hothers, declarations_written, declared_map_renew]
  apply hcut.renew
  intro found hfound
  rw [renewNamed]
  split
  · next hname => exact hclosed found hfound hname
  · exact (hcut.proper found hfound).closed

end Named

end Backtest.Input
