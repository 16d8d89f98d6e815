import Backtest.Expr.Split
import Backtest.Scalar

/-!
# Input declarations

A script declares its parameters with `name = input.kind(arguments)`.  `segments` cuts a text into
such declarations and the text between them, without losing a character; reading the parameters and
writing new defaults both work on that cut.
-/

namespace Backtest.Input

open Text

inductive InputKind where
  | int
  | float
  | bool
  | string
  | source
  deriving DecidableEq

namespace InputKind

def name : InputKind → String
  | .int => "int"
  | .float => "float"
  | .bool => "bool"
  | .string => "string"
  | .source => "source"

def all : List InputKind := [.int, .float, .bool, .string, .source]

def ofName? (name : String) : Option InputKind := all.find? fun kind => kind.name == name

/-- A kind whose values are numbers. -/
def isNumeric : InputKind → Bool
  | .int | .float => true
  | _ => false

end InputKind

/-- A declaration in a text: the name, everything from behind the name up to the opening bracket,
the kind if one is given, and the text of the arguments up to the first closing bracket. -/
structure Declaration where
  name : Chars
  head : Chars
  kind : Option InputKind
  arguments : Chars
  deriving DecidableEq

/-- The kind after `input` and the text behind it; a text without a known kind is left as it is. -/
def takeKind (text : Chars) : Option InputKind × Chars :=
  match InputKind.all.findSome? fun kind =>
      (after? ('.' :: kind.name.toList) text).map fun rest => (kind, rest) with
  | some (kind, rest) => (some kind, rest)
  | none => (none, text)

/-- What follows the name of a declaration, and the text behind the declaration. -/
def declaration? (name text : Chars) : Option (Declaration × Chars) := do
  let equals ← after? ['='] (trimLeft text)
  let (kind, rest) := takeKind (← after? "input".toList (trimLeft equals))
  let inner ← after? ['('] (trimLeft rest)
  let (arguments, others) ← cutAt ')' inner
  some (⟨name, text.take (text.length - inner.length), kind, arguments⟩, others)

/-- A piece of a text: a declaration or other text. -/
inductive Segment where
  | verbatim (text : Chars)
  | declaration (declaration : Declaration)

/-- The text of a segment. -/
def Segment.text : Segment → Chars
  | .verbatim text => text
  | .declaration ⟨name, head, _, arguments⟩ => name ++ head ++ arguments ++ [')']

theorem length_cutAt_lt {mark : Char} {text before rest : Chars}
    (hcut : cutAt mark text = some (before, rest)) : rest.length < text.length := by
  unfold cutAt at hcut
  have hdrop : (text.dropWhile (· != mark)).length ≤ text.length :=
    (List.dropWhile_sublist fun c => c != mark).length_le
  split at hcut
  · simp at hcut
  · rename_i heq
    simp only [Option.some.injEq, Prod.mk.injEq] at hcut
    rw [heq] at hdrop
    rw [← hcut.2]
    exact hdrop

theorem length_trimLeft_le (text : Chars) : (trimLeft text).length ≤ text.length :=
  (List.dropWhile_sublist _).length_le

theorem length_after?_le {start text rest : Chars} (hafter : after? start text = some rest) :
    rest.length ≤ text.length := by
  unfold after? at hafter
  split at hafter
  · simp only [Option.some.injEq] at hafter
    rw [← hafter, List.length_drop]
    omega
  · simp at hafter

theorem length_takeKind_le (text : Chars) : (takeKind text).2.length ≤ text.length := by
  unfold takeKind
  split
  · rename_i kind rest hfound
    obtain ⟨found, _, hmap⟩ := List.exists_of_findSome?_eq_some hfound
    simp only [Option.map_eq_some_iff, Prod.mk.injEq] at hmap
    obtain ⟨other, hafter, _, hrest⟩ := hmap
    have := length_after?_le hafter
    rw [← hrest]
    exact this
  · exact Nat.le_refl _

theorem length_declaration?_lt {name text rest : Chars} {found : Declaration}
    (hfound : declaration? name text = some (found, rest)) : rest.length < text.length := by
  unfold declaration? at hfound
  simp only [Option.bind_eq_bind, Option.bind_eq_some_iff, Option.some.injEq,
    Prod.mk.injEq] at hfound
  obtain ⟨equals, hequals, body, hbody, inner, hinner, ⟨arguments, others⟩, hcut, hlast⟩ := hfound
  have h1 := length_after?_le hequals
  have h2 := length_trimLeft_le text
  have h3 := length_after?_le hbody
  have h4 := length_trimLeft_le equals
  have h5 := length_takeKind_le body
  have h6 := length_after?_le hinner
  have h7 := length_trimLeft_le (takeKind body).2
  have h8 := length_cutAt_lt hcut
  rw [← hlast.2]
  simp only at h8 ⊢
  omega

theorem length_dropWhile_lt {c : Char} {rest : Chars} (test : Char → Bool) (hc : test c = true) :
    ((c :: rest).dropWhile test).length < (c :: rest).length := by
  rw [List.dropWhile_cons_of_pos hc]
  exact Nat.lt_succ_of_le (List.dropWhile_sublist _).length_le

/-- Cuts a text into the declarations of the wanted names and the text between them. -/
def segments (wanted : Chars → Bool) (text : Chars) : List Segment :=
  match text with
  | [] => []
  | c :: rest =>
      if _hword : isWord c = true then
        let name := (c :: rest).takeWhile isWord
        let others := (c :: rest).dropWhile isWord
        if wanted name then
          match _hfound : declaration? name others with
          | some (found, later) => .declaration found :: segments wanted later
          | none => .verbatim name :: segments wanted others
        else .verbatim name :: segments wanted others
      else .verbatim [c] :: segments wanted rest
termination_by text.length
decreasing_by
  · exact Nat.lt_trans (length_declaration?_lt _hfound) (length_dropWhile_lt isWord _hword)
  · exact length_dropWhile_lt isWord _hword
  · exact length_dropWhile_lt isWord _hword
  · simp

/-- The declarations in a text. -/
def declarations (text : Chars) : List Declaration :=
  (segments (fun _ => true) text).filterMap fun segment => match segment with
    | .declaration found => some found
    | .verbatim _ => none

end Backtest.Input
