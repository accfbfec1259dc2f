import Montage.Proofs.Json.Reader
import Montage.Proofs.Resize

/-!
# What is read from a JSON text can be shown

A whole number with too many digits is a problem of the text, and so are collections that lie too
deep one inside the other, so that every value that is read can be shown.  The reader of values,
the reader of items and the reader of entries call each other with less fuel, and one induction
over the fuel speaks of all three (`Readable`).
-/

namespace Montage

namespace Value

/-- A value in which at most so many collections lie one inside the other, and no number is too
long. -/
structure Fits (levels : Nat) (v : Value) : Prop where
  short : v.hasLongNumber = false
  shallow : v.depth ≤ levels

/-- Entries whose keys and values are no deeper than so many levels. -/
def EntriesFit (levels : Nat) (entries : List (Value × Value)) : Prop :=
  ∀ entry ∈ entries, entry.1.Fits levels ∧ entry.2.Fits levels

/-- What the runtime can follow can be shown. -/
theorem Fits.isUnshowable {v : Value} (h : v.Fits callLimit) : v.isUnshowable = false := by
  rw [Value.isUnshowable, h.short, Bool.or_false, decide_eq_false_iff_not]
  exact Nat.not_lt.2 h.shallow

theorem fits_list {levels : Nat} {items : List Value} (h : ∀ v ∈ items, v.Fits levels) :
    (Value.list items).Fits (levels + 1) := by
  have hitems : hasLongNumber.anyLong items = false ∧ depth.itemsDepth items ≤ levels := by
    induction items with
    | nil => exact ⟨rfl, Nat.zero_le _⟩
    | cons v rest ih =>
        have hfirst := h v List.mem_cons_self
        obtain ⟨hshort, hshallow⟩ := ih fun w hw => h w (List.mem_cons_of_mem v hw)
        simp only [hasLongNumber.anyLong, depth.itemsDepth, hfirst.short, hshort, Bool.or_self]
        exact ⟨trivial, Nat.max_le.2 ⟨hfirst.shallow, hshallow⟩⟩
  exact ⟨hitems.1, Nat.succ_le_succ hitems.2⟩

theorem fits_map_iff {levels : Nat} {entries : List (Value × Value)} :
    (Value.map entries).Fits (levels + 1) ↔ EntriesFit levels entries := by
  have hentries : (hasLongNumber.anyLongEntry entries = false ∧
      depth.entriesDepth entries ≤ levels) ↔ EntriesFit levels entries := by
    induction entries with
    | nil => exact ⟨fun _ => nofun, fun _ => ⟨rfl, Nat.zero_le _⟩⟩
    | cons entry rest ih =>
        obtain ⟨key, v⟩ := entry
        simp only [EntriesFit] at ih
        simp only [hasLongNumber.anyLongEntry, depth.entriesDepth, Bool.or_eq_false_iff, Nat.max_le,
          EntriesFit, List.forall_mem_cons, ← ih]
        exact ⟨fun h => ⟨⟨⟨h.1.1.1, h.2.1.1⟩, h.1.1.2, h.2.1.2⟩, h.1.2, h.2.2⟩,
          fun h => ⟨⟨⟨h.1.1.short, h.1.2.short⟩, h.2.1⟩, ⟨h.1.1.shallow, h.1.2.shallow⟩, h.2.2⟩⟩
  rw [← hentries]
  exact ⟨fun h => ⟨h.short, Nat.le_of_succ_le_succ h.shallow⟩,
    fun h => ⟨h.1, Nat.succ_le_succ h.2⟩⟩

theorem Fits.mono {levels more : Nat} {v : Value} (h : v.Fits levels) (hle : levels ≤ more) :
    v.Fits more :=
  ⟨h.short, Nat.le_trans h.shallow hle⟩

/-- What lies in a mapping fits where the mapping does. -/
theorem Fits.entries {levels : Nat} {entries : List (Value × Value)}
    (h : (Value.map entries).Fits levels) : EntriesFit levels entries := by
  cases levels with
  | zero => exact absurd h.shallow (Nat.not_succ_le_zero _)
  | succ levels =>
      have hentries := fits_map_iff.1 h
      intro entry hentry
      obtain ⟨hkey, hv⟩ := hentries entry hentry
      exact ⟨hkey.mono levels.le_succ, hv.mono levels.le_succ⟩

/-- An entry that is put to others that fit has to fit itself. -/
theorem EntriesFit.put {levels : Nat} {before : List (Value × Value)} {key v : Value}
    (hbefore : EntriesFit levels before) (hkey : key.Fits levels) (hv : v.Fits levels) :
    EntriesFit levels (Value.put before key v) := by
  induction before with
  | nil => exact List.forall_mem_cons.2 ⟨⟨hkey, hv⟩, List.forall_mem_nil _⟩
  | cons entry before ih =>
      obtain ⟨hentry, hrest⟩ := List.forall_mem_cons.1 hbefore
      rw [Value.put]
      split
      · exact List.forall_mem_cons.2 ⟨⟨hentry.1, hv⟩, hrest⟩
      · exact List.forall_mem_cons.2 ⟨hentry, ih hrest⟩

end Value

namespace Json

open Value (Fits EntriesFit)

/-- A number fits if it is read. -/
theorem fits_of_number {levels : Nat} {cs rest : List Char} {v : Value}
    (h : number cs = .ok (v, rest)) : v.Fits levels := by
  unfold number at h
  split at h
  · cases h
  · split at h
    · split at h
      · next n hread =>
          obtain ⟨rfl, -⟩ := Prod.mk.inj (Except.ok.inj h)
          exact ⟨Resize.isTooLong_of_lt (Decimal.natAbs_readInteger hread), Nat.zero_le _⟩
      · cases h
      · cases h
    · split at h
      · obtain ⟨rfl, -⟩ := Prod.mk.inj (Except.ok.inj h)
        exact ⟨rfl, Nat.zero_le _⟩
      · cases h

/-- A word or a number fits. -/
theorem fits_of_word_or_number {levels : Nat} {cs rest : List Char} {v : Value}
    (h : (match word? cs with
      | some found => .ok found
      | none => number cs : Except Error (Value × List Char)) = .ok (v, rest)) :
    v.Fits levels := by
  have hwords : ∀ w ∈ words, w.2.hasLongNumber = false ∧ w.2.depth ≤ 0 := by decide
  split at h
  · next found hfound =>
      cases h
      obtain ⟨w, hw, hword⟩ := Option.map_eq_some_iff.1 hfound
      obtain ⟨rfl, -⟩ := Prod.mk.inj hword
      obtain ⟨hshort, hflat⟩ := hwords w (List.mem_of_find?_eq_some hw)
      exact ⟨hshort, Nat.le_trans hflat (Nat.zero_le _)⟩
  · exact fits_of_number h

/-- What the readers with some fuel read fits into the levels that they may open. -/
structure Readable (fuel : Nat) : Prop where
  value : ∀ {levels cs v rest}, value fuel levels cs = .ok (v, rest) → v.Fits levels
  items : ∀ {levels cs list rest}, items fuel levels cs = .ok (list, rest) →
    ∀ v ∈ list, v.Fits levels
  entries : ∀ {levels before cs map rest}, entries fuel levels before cs = .ok (map, rest) →
    EntriesFit levels before → EntriesFit levels map

theorem value_step {fuel : Nat} (ih : Readable fuel) {levels : Nat} {cs rest : List Char}
    {v : Value} (h : value (fuel + 1) levels cs = .ok (v, rest)) : v.Fits levels := by
  unfold value at h
  split at h
  · split at h
    · cases h
      exact ⟨rfl, Nat.zero_le _⟩
    · cases h
  · split at h
    · cases h
    · split at h
      · cases h
        exact Value.fits_list (List.forall_mem_nil _)
      · split at h
        · next hitems =>
            cases h
            exact Value.fits_list (ih.items hitems)
        · cases h
  · split at h
    · cases h
    · split at h
      · cases h
        exact Value.fits_map_iff.2 (List.forall_mem_nil _)
      · split at h
        · next hentries =>
            cases h
            exact Value.fits_map_iff.2 (ih.entries hentries (List.forall_mem_nil _))
        · cases h
  · exact fits_of_word_or_number h

theorem items_step {fuel : Nat} (ih : Readable fuel) {levels : Nat} {cs rest : List Char}
    {list : List Value} (h : items (fuel + 1) levels cs = .ok (list, rest)) :
    ∀ v ∈ list, v.Fits levels := by
  unfold items at h
  split at h
  · cases h
  · next v behind hv =>
      have hfirst := ih.value hv
      split at h
      · cases h
        exact List.forall_mem_cons.2 ⟨hfirst, List.forall_mem_nil _⟩
      · split at h
        · next hitems =>
            cases h
            exact List.forall_mem_cons.2 ⟨hfirst, ih.items hitems⟩
        · cases h
      · cases h

theorem entries_step {fuel : Nat} (ih : Readable fuel) {levels : Nat}
    {before map : List (Value × Value)} {cs rest : List Char}
    (h : entries (fuel + 1) levels before cs = .ok (map, rest))
    (hbefore : EntriesFit levels before) : EntriesFit levels map := by
  unfold entries at h
  split at h
  · split at h
    · cases h
    · next name behind hname =>
        split at h
        · split at h
          · cases h
          · next v _ hv =>
              have hname : (Value.text (String.ofList name)).Fits levels :=
                ⟨rfl, Nat.zero_le _⟩
              have hput := hbefore.put hname (ih.value hv)
              simp only at h
              split at h
              · cases h
                exact hput
              · exact ih.entries h hput
              · cases h
        · cases h
  · cases h

theorem readable (fuel : Nat) : Readable fuel := by
  induction fuel with
  | zero => exact ⟨nofun, nofun, nofun⟩
  | succ fuel ih => exact ⟨value_step ih, items_step ih, entries_step ih⟩

/-- **Every value that is read from a text can be shown.** -/
theorem fits_of_read {s : String} {v : Value} (h : read s = .ok v) : v.Fits callLimit := by
  obtain ⟨fuel, rest, hvalue⟩ := value_of_read h
  exact (readable fuel).value hvalue

end Json

end Montage
