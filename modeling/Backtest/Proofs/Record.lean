import Backtest.Record
import Mathlib.Data.List.Nodup

/-!
# Laws of records

A record is *distinct* if each name stands for one value only.  Putting values into a distinct
record keeps it distinct, and looking a name up in a record that lies over another one finds the
value on top, if there is one.  Entries that have been laid over some defaults
can be laid over them again without any change (`overlay_overlay`).
-/

namespace Backtest.Record

variable {β : Type}

def names (record : Record β) : List String := record.map (·.1)

def Distinct (record : Record β) : Prop := record.names.Nodup

theorem get?_eq_none {record : Record β} {name : String} (hname : name ∉ record.names) :
    record.get? name = none := by
  induction record with
  | nil => rfl
  | cons entry rest ih =>
      simp only [names, List.map_cons, List.mem_cons, not_or] at hname
      rw [get?, if_neg (Ne.symm hname.1), ih hname.2]

theorem exists_get? {record : Record β} {name : String} (hname : name ∈ record.names) :
    ∃ value, record.get? name = some value := by
  induction record with
  | nil => exact nomatch hname
  | cons entry rest ih =>
      obtain ⟨key, old⟩ := entry
      by_cases hkey : key = name
      · exact ⟨old, by rw [get?, if_pos hkey]⟩
      · rcases List.mem_cons.1 hname with hname | hname
        · exact absurd hname.symm hkey
        · obtain ⟨value, hvalue⟩ := ih hname
          exact ⟨value, by rw [get?, if_neg hkey, hvalue]⟩

theorem get?_of_mem {record : Record β} (hrecord : record.Distinct) {name : String} {value : β}
    (hentry : (name, value) ∈ record) : record.get? name = some value := by
  induction record with
  | nil => exact nomatch hentry
  | cons entry rest ih =>
      obtain ⟨key, old⟩ := entry
      obtain ⟨hkey, hrest⟩ := List.nodup_cons.1 hrecord
      rcases List.mem_cons.1 hentry with hentry | hentry
      · obtain ⟨rfl, rfl⟩ := Prod.mk.inj hentry
        rw [get?, if_pos rfl]
      · have hother : key ≠ name :=
          fun hsame => hkey (hsame ▸ List.mem_map_of_mem (f := (·.1)) hentry)
        rw [get?, if_neg hother, ih hrest hentry]

/-- Two records give every name the same value. -/
def Same (record other : Record β) : Prop := ∀ name, record.get? name = other.get? name

theorem mem_names_put {record : Record β} {name other : String} {value : β} :
    other ∈ (record.put name value).names ↔ other = name ∨ other ∈ record.names := by
  induction record with
  | nil => simp [put, names]
  | cons entry rest ih =>
      obtain ⟨key, old⟩ := entry
      by_cases hkey : key = name
      · simp [put, names, hkey]
      · simp only [names] at ih
        simp [put, names, hkey, ih, or_left_comm]

theorem mem_of_mem_put {record : Record β} {name : String} {value : β} {entry : String × β}
    (hentry : entry ∈ record.put name value) : entry = (name, value) ∨ entry ∈ record := by
  induction record with
  | nil => exact .inl (List.mem_singleton.1 hentry)
  | cons first rest ih =>
      obtain ⟨key, old⟩ := first
      rw [put] at hentry
      split at hentry
      · next hkey =>
          exact (List.mem_cons.1 hentry).imp (hkey ▸ ·) (List.mem_cons_of_mem _)
      · rcases List.mem_cons.1 hentry with hentry | hentry
        · exact .inr (hentry ▸ List.mem_cons_self)
        · exact (ih hentry).imp_right (List.mem_cons_of_mem _)

/-- An entry of an overlay comes from one of the two records. -/
theorem mem_of_mem_overlay {record entries : Record β} {entry : String × β}
    (hentry : entry ∈ record.overlay entries) : entry ∈ entries ∨ entry ∈ record := by
  induction entries generalizing record with
  | nil => exact .inr hentry
  | cons first rest ih =>
      rcases ih hentry with hentry | hentry
      · exact .inl (List.mem_cons_of_mem _ hentry)
      · rcases mem_of_mem_put hentry with rfl | hentry
        · exact .inl List.mem_cons_self
        · exact .inr hentry

theorem Distinct.put {record : Record β} (hrecord : record.Distinct) (name : String) (value : β) :
    (record.put name value).Distinct := by
  induction record with
  | nil => simp [Record.put, Distinct, names]
  | cons entry rest ih =>
      obtain ⟨key, old⟩ := entry
      obtain ⟨hkey, hrest⟩ := List.nodup_cons.1 hrecord
      by_cases hsame : key = name
      · rw [Record.put, if_pos hsame]
        exact hrecord
      · rw [Record.put, if_neg hsame]
        refine List.nodup_cons.2 ⟨?_, ih hrest⟩
        intro hmem
        rcases mem_names_put.1 hmem with hmem | hmem
        · exact hsame hmem
        · exact hkey hmem

theorem Distinct.overlay {record : Record β} (hrecord : record.Distinct)
    (entries : List (String × β)) : (record.overlay entries).Distinct := by
  induction entries generalizing record with
  | nil => exact hrecord
  | cons entry rest ih => exact ih (hrecord.put entry.1 entry.2)

theorem distinct_ofEntries (entries : List (String × β)) : (ofEntries entries).Distinct := by
  have hempty : Distinct ([] : Record β) := List.nodup_nil
  exact hempty.overlay entries

theorem mem_names_overlay {record : Record β} {entries : List (String × β)} {name : String} :
    name ∈ (record.overlay entries).names ↔ name ∈ entries.map (·.1) ∨ name ∈ record.names := by
  induction entries generalizing record with
  | nil => simp [overlay]
  | cons entry rest ih =>
      change name ∈ ((record.put entry.1 entry.2).overlay rest).names ↔ _
      rw [ih, mem_names_put, List.map_cons, List.mem_cons, or_assoc, or_left_comm]

theorem mem_names_ofEntries {entries : List (String × β)} {name : String} :
    name ∈ (ofEntries entries).names ↔ name ∈ entries.map (·.1) := by
  rw [ofEntries, mem_names_overlay]
  simp [names]

/-- A distinct record over another one: its own values come first. -/
theorem get?_overlay {entries : Record β} (hentries : entries.Distinct) (record : Record β)
    (name : String) :
    (record.overlay entries).get? name = (entries.get? name).or (record.get? name) := by
  induction entries generalizing record with
  | nil => rfl
  | cons entry rest ih =>
      obtain ⟨key, value⟩ := entry
      obtain ⟨hkey, hrest⟩ := List.nodup_cons.1 hentries
      change ((record.put key value).overlay rest).get? name = _
      rw [ih hrest, get?_put, get?]
      by_cases hname : key = name
      · rw [if_pos hname, if_pos hname, get?_eq_none (hname ▸ hkey), Option.none_or, Option.some_or]
      · rw [if_neg hname, if_neg hname]

/-- What a record gives a name, it gives it also over another record. -/
theorem get?_overlay_of_mem {entries : Record β} (hentries : entries.Distinct) (record : Record β)
    {name : String} (hname : name ∈ entries.names) :
    (record.overlay entries).get? name = entries.get? name := by
  obtain ⟨value, hvalue⟩ := exists_get? hname
  rw [get?_overlay hentries, hvalue, Option.some_or]

/-! ## A record laid over its own beginning -/

theorem put_append {done : Record β} {name : String} (hname : name ∉ done.names) (record : Record β)
    (value : β) : put (done ++ record) name value = done ++ record.put name value := by
  induction done with
  | nil => rfl
  | cons entry rest ih =>
      obtain ⟨key, old⟩ := entry
      simp only [names, List.map_cons, List.mem_cons, not_or] at hname
      rw [List.cons_append, put, if_neg (Ne.symm hname.1), ih hname.2, List.cons_append]

/-- Putting a value in keeps the names, with a new one behind them. -/
theorem names_prefix_put (record : Record β) (name : String) (value : β) :
    record.names <+: (record.put name value).names := by
  induction record with
  | nil => exact List.nil_prefix
  | cons entry rest ih =>
      obtain ⟨key, old⟩ := entry
      by_cases hkey : key = name
      · rw [put, if_pos hkey]
        exact List.prefix_rfl
      · rw [put, if_neg hkey]
        exact (List.prefix_cons_inj key).2 ih

theorem names_prefix_overlay (record : Record β) (entries : List (String × β)) :
    record.names <+: (record.overlay entries).names := by
  induction entries generalizing record with
  | nil => exact List.prefix_rfl
  | cons entry rest ih => exact (names_prefix_put record entry.1 entry.2).trans (ih _)

/-- A record covers one whose names, in the same order, are its own first names; `done` holds the
entries that are already in place. -/
theorem overlay_append_of_prefix {done record entries : Record β}
    (hdistinct : Distinct (done ++ entries)) (hnames : record.names <+: entries.names) :
    overlay (done ++ record) entries = done ++ entries := by
  induction entries generalizing done record with
  | nil =>
      rw [List.map_eq_nil_iff.1 (List.prefix_nil.1 hnames)]
      rfl
  | cons entry rest ih =>
      obtain ⟨name, value⟩ := entry
      have hfresh : name ∉ done.names := by
        intro hmem
        rw [Distinct, names, List.map_append] at hdistinct
        exact (List.disjoint_of_nodup_append hdistinct) hmem List.mem_cons_self
      have hrest : Distinct ((done ++ [(name, value)]) ++ rest) := by
        rw [List.append_assoc]
        exact hdistinct
      -- Either way the entry is now behind those in place, and the names of the rest begin alike.
      have hstep : ∃ others : Record β, put (done ++ record) name value =
          (done ++ [(name, value)]) ++ others ∧ others.names <+: names rest := by
        cases record with
        | nil =>
            refine ⟨[], ?_, List.nil_prefix⟩
            rw [put_append hfresh, put, List.append_nil]
        | cons first others =>
            obtain ⟨key, old⟩ := first
            obtain ⟨hkey, hothers⟩ := List.cons_prefix_cons.1 hnames
            refine ⟨others, ?_, hothers⟩
            have hsame : key = name := hkey
            rw [put_append hfresh, put, if_pos hsame, hsame, List.append_assoc,
              List.singleton_append]
      obtain ⟨others, hput, hothers⟩ := hstep
      change overlay (put (done ++ record) name value) rest = _
      rw [hput, ih hrest hothers, List.append_assoc, List.singleton_append]

theorem ofEntries_eq_self {entries : Record β} (hentries : entries.Distinct) :
    ofEntries entries = entries := by
  have hdistinct : Distinct ([] ++ entries) := hentries
  exact overlay_append_of_prefix hdistinct List.nil_prefix

/-- Laying a record over defaults a second time changes neither values nor order. -/
theorem overlay_overlay {defaults : Record β} (hdefaults : defaults.Distinct)
    (entries : List (String × β)) :
    defaults.overlay (defaults.overlay entries) = defaults.overlay entries := by
  have hdistinct : Distinct ([] ++ defaults.overlay entries) := hdefaults.overlay entries
  exact overlay_append_of_prefix hdistinct (names_prefix_overlay defaults entries)

end Backtest.Record
