/-!
# Records

A record keeps values under names in the order in which the names first appeared.  Giving a name a
new value keeps its place.
-/

namespace Backtest

abbrev Record (β : Type) := List (String × β)

namespace Record

variable {β : Type}

def get? : Record β → String → Option β
  | [], _ => none
  | (key, value) :: rest, name => if key = name then some value else get? rest name

def has (record : Record β) (name : String) : Bool := (record.get? name).isSome

/-- Gives a name a value: in its place if it is there, else behind all others. -/
def put : Record β → String → β → Record β
  | [], name, value => [(name, value)]
  | (key, old) :: rest, name, value =>
      if key = name then (key, value) :: rest else (key, old) :: put rest name value

theorem mem_of_get? {record : Record β} {name : String} {value : β}
    (hvalue : record.get? name = some value) : (name, value) ∈ record := by
  induction record with
  | nil => exact nomatch hvalue
  | cons entry rest ih =>
      obtain ⟨key, old⟩ := entry
      rw [get?] at hvalue
      split at hvalue
      · next hkey =>
          injection hvalue with hvalue
          rw [← hkey, ← hvalue]
          exact List.mem_cons_self
      · exact List.mem_cons_of_mem _ (ih hvalue)

theorem get?_put (record : Record β) (name other : String) (value : β) :
    (record.put name value).get? other = if name = other then some value else record.get? other := by
  induction record with
  | nil => rfl
  | cons entry rest ih =>
      obtain ⟨key, old⟩ := entry
      rw [put]
      by_cases hkey : key = name
      · rw [if_pos hkey, get?, get?, hkey]
        by_cases hother : name = other
        · rw [if_pos hother, if_pos hother]
        · rw [if_neg hother, if_neg hother, if_neg hother]
      · rw [if_neg hkey, get?, get?, ih]
        by_cases hother : name = other
        · rw [if_pos hother, ← hother, if_pos rfl, if_neg hkey]
        · rw [if_neg hother, if_neg hother]

/-- A record with the entries of another one put into it, one after the other. -/
def overlay (record : Record β) (entries : List (String × β)) : Record β :=
  entries.foldl (fun result entry => result.put entry.1 entry.2) record

/-- The record of a list of entries, of which the last one for a name counts. -/
def ofEntries (entries : List (String × β)) : Record β := overlay [] entries

end Record

end Backtest
