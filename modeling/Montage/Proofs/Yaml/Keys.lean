import Montage.Proofs.Ends
import Montage.Proofs.Request.Names
import Montage.Yaml.File

/-!
# The keys of mappings

A mapping is built by putting one entry after the other, and a key that is there already keeps
its place.  So the keys of a mapping that a document holds differ (`readFile_wellKeyed`), and
what is found under a name is found whether or not other entries are left out
(`lookup?_filter`).
-/

namespace Montage

namespace Value

/-- No key of the entries comes again. -/
def KeysDiffer (entries : List (Value × Value)) : Prop :=
  entries.Pairwise fun entry other => entry.1.sameKey other.1 = false

/-- A mapping has keys that differ; other values have no keys. -/
def WellKeyed (v : Value) : Prop := ∀ entries, v = .map entries → KeysDiffer entries

/-- A value that is put under a key brings no other key. -/
theorem key_of_mem_put {entries : List (Value × Value)} {key v : Value} {entry : Value × Value}
    (h : entry ∈ put entries key v) : entry.1 = key ∨ ∃ old ∈ entries, old.1 = entry.1 := by
  induction entries with
  | nil =>
      obtain rfl := List.mem_singleton.1 h
      exact .inl rfl
  | cons first rest ih =>
      unfold put at h
      split at h
      · rcases List.mem_cons.1 h with rfl | h
        · exact .inr ⟨first, List.mem_cons_self, rfl⟩
        · exact .inr ⟨entry, List.mem_cons_of_mem _ h, rfl⟩
      · rcases List.mem_cons.1 h with rfl | h
        · exact .inr ⟨_, List.mem_cons_self, rfl⟩
        · rcases ih h with hkey | ⟨old, hold, hsame⟩
          · exact .inl hkey
          · exact .inr ⟨old, List.mem_cons_of_mem _ hold, hsame⟩

/-- Putting a value under a key keeps the keys apart. -/
theorem KeysDiffer.put {entries : List (Value × Value)} (h : KeysDiffer entries) (key v : Value) :
    KeysDiffer (put entries key v) := by
  induction entries with
  | nil => exact List.pairwise_singleton _ _
  | cons first rest ih =>
      obtain ⟨hfirst, hrest⟩ := List.pairwise_cons.1 h
      unfold Value.put
      split
      · exact List.pairwise_cons.2 ⟨hfirst, hrest⟩
      · next hother =>
          refine List.pairwise_cons.2 ⟨fun entry hentry => ?_, ih hrest⟩
          rcases key_of_mem_put hentry with hkey | ⟨old, hold, hsame⟩
          · rw [hkey]
            exact eq_false_of_ne_true hother
          · rw [← hsame]
            exact hfirst old hold

/-- Behind an entry of a name the name does not come again. -/
theorem lookup?_eq_none_of_differ {entry : Value × Value} {rest : List (Value × Value)}
    {name : String} (h : KeysDiffer (entry :: rest)) (hname : entry.1 = .text name) :
    lookup? rest (.text name) = none := by
  have hfirst := (List.pairwise_cons.1 h).1
  have hnone : rest.find? (fun other => other.1.sameKey (.text name)) = none := by
    rw [List.find?_eq_none]
    intro other hother hsame
    have hdiffer := hfirst other hother
    rw [hname, sameKey_text_iff.1 hsame, sameKey_text, beq_self_eq_true] at hdiffer
    cases hdiffer
  rw [lookup?, hnone]
  rfl

/-- Of entries that are chosen by their values, what is found under a name is the value of that
name if it is one of the chosen. -/
theorem lookup?_filter {entries : List (Value × Value)} (h : KeysDiffer entries)
    (chosen : Value → Bool) (name : String) :
    lookup? (entries.filter fun entry => chosen entry.2) (.text name) =
      (lookup? entries (.text name)).filter chosen := by
  induction entries with
  | nil => rfl
  | cons entry rest ih =>
      have hrest := ih (List.pairwise_cons.1 h).2
      rw [Request.lookup?_cons, List.filter_cons]
      by_cases hname : entry.1.sameKey (.text name) = true
      · rw [if_pos hname, Option.filter_some]
        split
        · rw [Request.lookup?_cons, if_pos hname]
        · rw [hrest, lookup?_eq_none_of_differ h (sameKey_text_iff.1 hname)]
          rfl
      · rw [if_neg hname, ← hrest]
        split
        · rw [Request.lookup?_cons, if_neg hname]
        · rfl

end Value

namespace Yaml

open Value (KeysDiffer WellKeyed)

namespace Scalars

variable (text : String)

theorem bool_wellKeyed : Ends WellKeyed (fun _ => True) (bool text) := by
  unfold bool
  simp only
  split
  · exact nofun
  · split
    · exact nofun
    · trivial

theorem int_wellKeyed : Ends WellKeyed (fun _ => True) (int text) := by
  -- In whatever base a whole number is read, only a number comes of it.
  have hwhole (read : Except Error Int) (value : Int → Int) : Ends WellKeyed (fun _ => True)
      (do return .number (.int (value (← read)))) := .after fun _ => nofun
  unfold int
  simp only
  refine .guard (fun _ => trivial) fun _ => ?_
  split
  · exact hwhole _ _
  · exact hwhole _ _
  · exact hwhole _ _
  · exact hwhole _ _
  · exact hwhole _ _
  · split
    · exact hwhole _ _
    · exact hwhole _ _

theorem float_wellKeyed : Ends WellKeyed (fun _ => True) (float text) := by
  unfold float
  simp only
  refine .guard (fun _ => trivial) fun _ => ?_
  split
  · exact nofun
  · split
    · exact nofun
    · split
      · exact .after fun _ => .after fun _ => nofun
      · exact .after fun _ => nofun

theorem binary_wellKeyed : Ends WellKeyed (fun _ => True) (binary text) := by
  unfold binary
  simp only
  split
  · split
    · exact nofun
    · trivial
  · trivial

theorem timestamp_wellKeyed : Ends WellKeyed (fun _ => True) (timestamp text) := by
  unfold timestamp
  split
  · trivial
  · split
    · trivial
    · split
      · exact nofun
      · split
        · trivial
        · exact nofun

end Scalars

/-- Entries that are put one after the other have keys that differ. -/
theorem keysDiffer_foldl (built : List (Built × Built)) {done : List (Value × Value)}
    (h : KeysDiffer done) :
    KeysDiffer (built.foldl (fun done (key, value) => Value.put done key.value value.value)
      done) := by
  induction built generalizing done with
  | nil => exact h
  | cons entry rest ih => exact ih (h.put _ _)

theorem wellKeyed_ofExcept {outcome : Except Error Value}
    (h : Ends WellKeyed (fun _ => True) outcome) : (Built.ofExcept outcome).value.WellKeyed := by
  cases outcome with
  | ok v => exact h
  | error failure => exact nofun

/-- Whatever a node stands for, its keys differ. -/
theorem wellKeyed_build (fuel : Nat) (node : Node) : (node.build fuel).value.WellKeyed := by
  cases fuel with
  | zero => exact nofun
  | succ fuel =>
      unfold Node.build
      extract_lets ofText entriesOf pairsOf
      have htext {read : String → Except Error Value}
          (hread : ∀ s, Ends WellKeyed (fun _ => True) (read s)) :
          (ofText read).value.WellKeyed := wellKeyed_ofExcept (.after hread)
      have hentries (make : List (Value × Value) → Value)
          (hmake : ∀ entries, KeysDiffer entries → (make entries).WellKeyed) :
          (entriesOf make).value.WellKeyed := by
        have hnone : (make []).WellKeyed := hmake [] List.Pairwise.nil
        simp only [entriesOf]
        split
        · split
          · exact hnone
          · exact hmake _ (keysDiffer_foldl _ List.Pairwise.nil)
        · exact hnone
      have hpairs : pairsOf.value.WellKeyed := by
        simp only [pairsOf]
        split <;> exact nofun
      split
      case h_1 => exact htext fun _ => nofun
      case h_2 => exact htext Scalars.bool_wellKeyed
      case h_3 => exact htext Scalars.int_wellKeyed
      case h_4 => exact htext Scalars.float_wellKeyed
      case h_5 => exact htext fun _ => nofun
      case h_6 => exact htext Scalars.binary_wellKeyed
      case h_7 =>
        split
        · exact htext Scalars.timestamp_wellKeyed
        · exact htext fun _ => trivial
      case h_8 => exact hpairs
      case h_9 => exact hpairs
      case h_10 =>
        refine hentries (fun entries => .set (entries.map Prod.fst)) fun _ _ => ?_
        exact nofun
      case h_11 => split <;> exact nofun
      case h_12 =>
        refine hentries .map fun entries h => ?_
        rintro _ ⟨⟩
        exact h
      case h_13 => exact nofun
      case h_14 => exact nofun
      case h_15 => exact nofun

/-- The keys of every mapping that a document holds differ. -/
theorem read_wellKeyed (text : List Char) : Ends WellKeyed (fun _ => True) (read text) := by
  unfold read
  refine .after fun composed => ?_
  split
  · exact nofun
  · next node =>
      unfold Built.outcome
      split
      · exact wellKeyed_build _ node
      · trivial

/-- The keys of every mapping that a file holds differ. -/
theorem readFile_wellKeyed (host : Host) (path : String) (tooLarge : SetupCause) :
    Ends WellKeyed (fun _ => True) (readFile host path tooLarge) := by
  unfold readFile
  simp only
  refine .guard (fun _ => trivial) fun _ => ?_
  split
  · trivial
  · refine .guard (fun _ => trivial) fun _ => ?_
    split
    · trivial
    · next text _ =>
        have hread := read_wellKeyed text
        cases hv : read text with
        | ok v =>
            rw [hv] at hread
            exact hread
        | error failure => trivial

end Yaml

end Montage
