import Montage.Compiler
import Montage.Proofs.Host.Action
import Montage.Proofs.Path
import Mathlib.Algebra.Group.Nat.Defs
import Mathlib.Data.List.GetD
import Mathlib.Data.List.Nodup

/-!
# Outputs of different moments

The name of an output tells the moment at which it was named, in pieces of fixed widths that
stand side by side.  Each piece tells its part of the moment, but for the letter of the second:
there are fewer letters than seconds, so that letters come again within a minute.  Apart from
that, different moments of a century have different names (`names_agree_iff`).
-/

namespace Montage

/-- The leading zeros of a number do not count. -/
theorem ofDigitChars_zeroPadded (width n : Nat) :
    Nat.ofDigitChars 10 (zeroPadded width n).toList 0 = n := by
  simp only [zeroPadded, String.toList_ofList]
  rw [Nat.ofDigitChars_append, Nat.ofDigitChars_replicate_zero, Nat.mul_zero,
    Nat.ofDigitChars_ten_toDigits]

/-- A number is known by its digits, however many zeros lead them. -/
theorem zeroPadded_inj {width n m : Nat} : zeroPadded width n = zeroPadded width m ↔ n = m := by
  refine ⟨fun h => ?_, congrArg _⟩
  rw [← ofDigitChars_zeroPadded width n, h, ofDigitChars_zeroPadded]

/-- A number that is not too long has exactly the digits that it is given. -/
theorem length_zeroPadded {width n : Nat} (hwidth : 0 < width) (h : n < 10 ^ width) :
    (zeroPadded width n).toList.length = width := by
  have hfits := (Nat.length_toDigits_le_iff (by decide : 1 < 10) hwidth).2 h
  simp only [zeroPadded, String.toList_ofList, List.length_append, List.length_replicate]
  omega

/-- Two pairs of texts that are joined alike agree, if the second texts are equally long. -/
theorem Text.append_inj {s s' t t' : String} (hlength : t.toList.length = t'.toList.length) :
    s ++ t = s' ++ t' ↔ s = s' ∧ t = t' := by
  constructor
  · intro h
    rw [← String.toList_inj, String.toList_append, String.toList_append] at h
    obtain ⟨hs, ht⟩ := List.append_inj' h hlength
    exact ⟨String.toList_inj.1 hs, String.toList_inj.1 ht⟩
  · rintro ⟨rfl, rfl⟩
    rfl

/-- A time that a clock can show.  A minute can have leap seconds. -/
structure LocalTime.Shown (t : LocalTime) : Prop where
  one_le_month : 1 ≤ t.month
  month_le : t.month ≤ 12
  day_le : t.day ≤ 31
  hour_lt : t.hour < 24
  minute_lt : t.minute < 60
  second_le : t.second ≤ 61

namespace OutputName

theorem length_month {m : Nat} (hlow : 1 ≤ m) (hhigh : m ≤ 12) :
    (months.getD (m - 1) "").toList.length = 3 := by
  have hall : ∀ month ∈ months, month.toList.length = 3 := by decide
  have hm : m - 1 < months.length := by
    change m - 1 < 12
    omega
  rw [List.getD_eq_getElem _ _ hm]
  exact hall _ (List.getElem_mem hm)

/-- No two months have one name. -/
theorem month_inj {m m' : Nat} (hlow : 1 ≤ m) (hhigh : m ≤ 12) (hlow' : 1 ≤ m')
    (hhigh' : m' ≤ 12) : months.getD (m - 1) "" = months.getD (m' - 1) "" ↔ m = m' := by
  have hnodup : months.Nodup := by decide
  have hm : m - 1 < months.length := by
    change m - 1 < 12
    omega
  have hm' : m' - 1 < months.length := by
    change m' - 1 < 12
    omega
  rw [List.getD_eq_getElem _ _ hm, List.getD_eq_getElem _ _ hm', hnodup.getElem_inj_iff]
  omega

theorem toList_capital (n : Nat) : (capital n).toList = [Char.ofNat (65 + n % 26)] :=
  String.toList_singleton _

/-- A letter is known by its place in the alphabet. -/
theorem capital_inj {n m : Nat} : capital n = capital m ↔ n % 26 = m % 26 := by
  have hletters : ∀ a < 26, ∀ b < 26, Char.ofNat (65 + a) = Char.ofNat (65 + b) → a = b := by
    decide
  constructor
  · intro h
    have hlists := congrArg String.toList h
    rw [toList_capital, toList_capital] at hlists
    exact hletters _ (Nat.mod_lt _ (by decide)) _ (Nat.mod_lt _ (by decide))
      (List.head_eq_of_cons_eq hlists)
  · intro h
    rw [capital, h, capital]

/-- A second has fewer than a thousand milliseconds. -/
theorem milliseconds_lt {epoch : Number} {ms : Nat} (h : milliseconds epoch = .ok ms) :
    ms < 1000 := by
  cases epoch with
  | int n =>
      cases h
      decide
  | float x =>
      simp only [milliseconds] at h
      split at h
      · next n _ =>
          cases h
          omega
      · split at h <;> cases h

/-- Two stamps of a century agree if and only if the clocks differ in nothing but the second, and
in that by the number of letters. -/
theorem stamp_eq_iff {t t' : LocalTime} {ms ms' : Nat} (ht : t.Shown) (ht' : t'.Shown)
    (hcentury : t.year / 100 = t'.year / 100) (hms : ms < 1000) (hms' : ms' < 1000) :
    stamp t ms = stamp t' ms' ↔
      { t with second := t'.second } = t' ∧ t.second % 26 = t'.second % 26 ∧ ms = ms' := by
  have hmillis : (zeroPadded 3 ms).toList.length = (zeroPadded 3 ms').toList.length := by
    rw [length_zeroPadded (by decide) hms, length_zeroPadded (by decide) hms']
  have htwo {n m : Nat} (hn : n < 100) (hm : m < 100) :
      (zeroPadded 2 n).toList.length = (zeroPadded 2 m).toList.length := by
    rw [length_zeroPadded (by decide) hn, length_zeroPadded (by decide) hm]
  have hminute := htwo (Nat.lt_trans ht.minute_lt (by decide))
    (Nat.lt_trans ht'.minute_lt (by decide))
  have hday := htwo (Nat.lt_of_le_of_lt ht.day_le (by decide))
    (Nat.lt_of_le_of_lt ht'.day_le (by decide))
  have hmonth : (months.getD (t.month - 1) "").toList.length =
      (months.getD (t'.month - 1) "").toList.length := by
    rw [length_month ht.one_le_month ht.month_le, length_month ht'.one_le_month ht'.month_le]
  have hletter (n m : Nat) : (capital n).toList.length = (capital m).toList.length := by
    rw [toList_capital, toList_capital]
    rfl
  unfold stamp
  rw [Text.append_inj hmillis, Text.append_inj (hletter _ _), Text.append_inj hminute,
    Text.append_inj (hletter _ _), Text.append_inj hday, Text.append_inj hmonth, zeroPadded_inj,
    zeroPadded_inj, zeroPadded_inj, zeroPadded_inj, capital_inj, capital_inj,
    month_inj ht.one_le_month ht.month_le ht'.one_le_month ht'.month_le]
  rcases t with ⟨year, month, day, hour, minute, second⟩
  rcases t' with ⟨year', month', day', hour', minute', second'⟩
  have hhour := ht.hour_lt
  have hhour' := ht'.hour_lt
  simp only [LocalTime.mk.injEq, and_true] at *
  omega

/-- Names that begin with one task are both absolute paths or both relative. -/
theorem isAbsolute_name (task stamp stamp' extension : String) :
    Path.isAbsolute (task ++ "-" ++ stamp ++ "." ++ extension).toList =
      Path.isAbsolute (task ++ "-" ++ stamp' ++ "." ++ extension).toList := by
  simp only [String.toList_append]
  cases task.toList with
  | nil => rfl
  | cons c rest =>
      by_cases hc : c = '/'
      · subst hc
        rfl
      · simp [Path.isAbsolute, hc]

/-- An output that nobody named is put under a new name into the output directory. -/
theorem result_target {c : Compiler} {request : Request} {host : Host}
    {task extension name : String} (hblank : (request.field ["output"]).isBlank = true)
    (hname : make host.clock host.epoch task extension = .ok name) :
    (c.target request task extension).result host =
      .ok (Path.join c.config.outputDir name) := by
  rw [Compiler.target]
  simp only [hblank, if_true]
  rw [Action.result_get_bind, hname]
  rfl

/-- **Outputs of different moments have different names, but for seconds that share a letter.**
Two names of a century agree if and only if they are named in the same minute, at the same
millisecond of seconds that are whole alphabets apart.  The outputs that nobody named agree where
their names agree. -/
theorem names_agree_iff (host host' : Host) (hshown : host.clock.Shown)
    (hshown' : host'.clock.Shown) (hcentury : host.clock.year / 100 = host'.clock.year / 100)
    {ms ms' : Nat} (hms : milliseconds host.epoch = .ok ms)
    (hms' : milliseconds host'.epoch = .ok ms') (task extension : String) :
    ∃ name name', make host.clock host.epoch task extension = .ok name ∧
      make host'.clock host'.epoch task extension = .ok name' ∧
      (name = name' ↔ { host.clock with second := host'.clock.second } = host'.clock ∧
        host.clock.second % 26 = host'.clock.second % 26 ∧ ms = ms') ∧
      ∀ (c : Compiler) (request : Request), (request.field ["output"]).isBlank = true →
        ∃ target target', (c.target request task extension).result host = .ok target ∧
          (c.target request task extension).result host' = .ok target' ∧
          (target = target' ↔ name = name') := by
  have hname : make host.clock host.epoch task extension =
      .ok (task ++ "-" ++ stamp host.clock ms ++ "." ++ extension) := by
    rw [make, hms]
    rfl
  have hname' : make host'.clock host'.epoch task extension =
      .ok (task ++ "-" ++ stamp host'.clock ms' ++ "." ++ extension) := by
    rw [make, hms']
    rfl
  refine ⟨_, _, hname, hname', ?_, fun c request hblank => ?_⟩
  · rw [← stamp_eq_iff hshown hshown' hcentury (milliseconds_lt hms) (milliseconds_lt hms')]
    -- What stands around the stamp is the same in both names.
    simp only [String.append_assoc, String.append_right_inj, String.append_left_inj]
  · exact ⟨_, _, result_target hblank hname, result_target hblank hname',
      Path.join_inj (isAbsolute_name _ _ _ _)⟩

/-- Five seconds and thirty-one seconds past the minute have one letter, so that the outputs of
both have one name. -/
theorem names_agree_within_minute :
    ∃ name, make { second := 5 } (.int 0) "muted" "mp4" = .ok name ∧
      make { second := 31 } (.int 0) "muted" "mp4" = .ok name := by
  have hshown : ({ second := 5 } : LocalTime).Shown := by constructor <;> decide
  have hshown' : ({ second := 31 } : LocalTime).Shown := by constructor <;> decide
  obtain ⟨name, name', hname, hname', hagree, -⟩ := names_agree_iff
    { clock := { second := 5 }, epoch := .int 0 } { clock := { second := 31 }, epoch := .int 0 }
    hshown hshown' rfl rfl rfl "muted" "mp4"
  obtain rfl := hagree.2 ⟨rfl, rfl, rfl⟩
  exact ⟨name, hname, hname'⟩

end OutputName

end Montage
