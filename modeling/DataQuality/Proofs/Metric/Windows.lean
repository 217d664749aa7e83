import DataQuality.Metric.Budget
import DataQuality.Proofs.Decimal.Digits

/-!
# The windows of the four offsets

Neither end belongs to a window, and each window begins where the one before it ends. So a date lies
in at most one of them; between the beginning of the first and the end of the last it is missed only
where two of them meet, and that is the beginning of a date only if the reference time is one.

A reference time within a leap second breaks this, for one date. Counting days back from a leap second
starts at the second after it, counting them on starts at the second before. The first window alone
begins before the reference time, so it lies a second too late and overlaps the one after it.
-/
namespace DataQuality

namespace Instant

/-- An instant that a clock shows: a leap second is the last of a minute. -/
def IsOnClock (t : Instant) : Prop :=
  t.nanos < second ∨ t.seconds % 60 = 59 ∧ t.nanos < 2 * second

instance (t : Instant) : Decidable t.IsOnClock :=
  inferInstanceAs (Decidable (t.nanos < second ∨ t.seconds % 60 = 59 ∧ t.nanos < 2 * second))

theorem isOnClock_ofNanoseconds (n : Int) : (ofNanoseconds n).IsOnClock := by
  left
  have hlt : n % (second : Int) < second := Int.emod_lt_of_pos n (by decide)
  have hsecond : 0 < second := by decide
  have hnanos : (ofNanoseconds n).nanos = (n % second).toNat := rfl
  omega

theorem lt_second_of_readFraction? {cs rest : List Char} {fraction : Nat}
    (h : readFraction? cs = some (fraction, rest)) : fraction < second := by
  unfold readFraction? at h
  split at h
  · next cs =>
    rw [List.span_eq_takeWhile_dropWhile] at h
    dsimp only at h
    split at h
    · cases h
    · obtain ⟨rfl, -⟩ := Prod.mk.inj (Option.some.inj h)
      let nine := (cs.takeWhile Decimal.isDigit).take 9
      have hdigits : ∀ c ∈ nine, Decimal.isDigit c = true := fun c hc =>
        List.all_eq_true.1 List.all_takeWhile c (List.mem_of_mem_take hc)
      have hlength : nine.length ≤ 9 := List.length_take_le _ _
      calc Decimal.natOfDigits nine * 10 ^ (9 - nine.length)
          < 10 ^ nine.length * 10 ^ (9 - nine.length) :=
            Nat.mul_lt_mul_of_pos_right (Decimal.natOfDigits_lt hdigits) (by positivity)
        _ = 10 ^ 9 := by rw [← Nat.pow_add, Nat.add_sub_cancel' hlength]
  · obtain ⟨rfl, -⟩ := Prod.mk.inj (Option.some.inj h)
    decide

theorem dvd_of_readHoursMinutes? {cs rest : List Char} {offset : Int}
    (h : readHoursMinutes? cs = some (offset, rest)) : 60 ∣ offset := by
  unfold readHoursMinutes? at h
  simp only [Option.bind_eq_bind, Option.bind_eq_some_iff, Prod.exists] at h
  obtain ⟨hours, after, -, minutes, rest', -, hrest⟩ := h
  split at hrest
  · obtain ⟨rfl, -⟩ := Prod.mk.inj (Option.some.inj hrest)
    omega
  · cases hrest

/-- A clock differs from universal time by whole minutes. -/
theorem dvd_of_readOffset? {cs rest : List Char} {offset : Int}
    (h : readOffset? cs = some (offset, rest)) : 60 ∣ offset := by
  unfold readOffset? at h
  split at h
  · obtain ⟨rfl, -⟩ := Prod.mk.inj (Option.some.inj h)
    exact dvd_zero _
  · obtain ⟨rfl, -⟩ := Prod.mk.inj (Option.some.inj h)
    exact dvd_zero _
  · exact dvd_of_readHoursMinutes? h
  · obtain ⟨⟨n, after⟩, hread, hn⟩ := Option.map_eq_some_iff.1 h
    obtain ⟨rfl, -⟩ := Prod.mk.inj hn
    exact (dvd_of_readHoursMinutes? hread).neg_right
  · obtain ⟨⟨n, after⟩, hread, hn⟩ := Option.map_eq_some_iff.1 h
    obtain ⟨rfl, -⟩ := Prod.mk.inj hn
    exact (dvd_of_readHoursMinutes? hread).neg_right
  · split at h
    · obtain ⟨rfl, -⟩ := Prod.mk.inj (Option.some.inj h)
      exact dvd_zero _
    · cases h
  · cases h

theorem isOnClock_ofClock {date : Date} {hour minute sec fraction : Nat} {offset : Int}
    (hfraction : fraction < second) (hoffset : 60 ∣ offset) :
    IsOnClock ⟨(ofClock date hour minute sec fraction).seconds - offset,
      (ofClock date hour minute sec fraction).nanos⟩ := by
  unfold ofClock IsOnClock
  by_cases hleap : sec = 60
  · have hseconds : (ofDate date).seconds = date.toDays * 86400 := rfl
    simp only [if_pos hleap, hseconds]
    omega
  · simp only [if_neg hleap]
    exact .inl hfraction

/-- What is read is shown by a clock. -/
theorem isOnClock_of_read? {s : String} {t : Instant} (h : read? s = some t) : t.IsOnClock := by
  unfold read? at h
  simp only [Option.bind_eq_bind, Option.bind_eq_some_iff, Prod.exists] at h
  obtain ⟨date, rest, -, h⟩ := h
  split at h
  · split at h
    · cases h
    · simp only [Option.bind_eq_some_iff, Prod.exists, Option.ite_none_right_eq_some] at h
      obtain ⟨hour, rest, -, minute, rest, -, sec, rest, -, fraction, rest, hfraction, offset, rest,
        hoffset, -, -, htime⟩ := h
      obtain rfl := Option.some.inj htime
      exact isOnClock_ofClock (lt_second_of_readFraction? hfraction) (dvd_of_readOffset? hoffset)
  · cases h

end Instant

namespace Metric

open Markup

/-- The beginning of a date lies in the window of an offset. -/
def InWindow (now : Instant) (offset : Nat) (d : Date) : Prop :=
  (Window.ofOffset now offset).contains (.ofDate d) = true

instance (now : Instant) (offset : Nat) (d : Date) : Decidable (InWindow now offset d) :=
  inferInstanceAs (Decidable (_ = true))

/-- A date begins where one of the first three windows ends, or where the window after it begins. -/
def IsBoundary (now : Instant) (d : Date) : Prop :=
  ∃ offset < 3, (Window.ofOffset now offset).finish = .ofDate d ∨
    (Window.ofOffset now (offset + 1)).start = .ofDate d

/-- The windows of the four offsets lie one after the other, as far as a date can tell. -/
structure Tiled (now : Instant) (d : Date) : Prop where
  /-- No two windows have the date. -/
  unique : ∀ o ∈ offsets, ∀ o' ∈ offsets, InWindow now o d → InWindow now o' d → o = o'
  /-- Between the ends of the windows, the date is missed only where two of them meet. -/
  covered : (∃! o, o ∈ offsets ∧ InWindow now o d) ↔
    (Window.ofOffset now 0).start.before (.ofDate d) = true ∧
      (Instant.ofDate d).before (Window.ofOffset now 3).finish = true ∧ ¬ IsBoundary now d
  /-- Windows meet at the beginning of a date only if the reference time is the beginning of one. -/
  midnight : IsBoundary now d → now.seconds % Instant.day = 0 ∧ now.nanos = 0

/-- The reference time lies in a leap second, and the date begins 180 days after the second that
follows the leap second. -/
def Straddled (now : Instant) (d : Date) : Prop :=
  now.isLeap = true ∧ (Instant.ofDate d).seconds = now.seconds + 1 + 180 * Instant.day

/-- A record makes a difference in the window of an offset: as a total budget, as a budget for a
recipient country, or with its budget lines. -/
def Contributes (now : Instant) (offset : Nat) (record : Node) : Prop :=
  (∃ year, YearBudget.add (.ofOffset now offset) year record ≠ year) ∨
    countryBudgetsIn (.ofOffset now offset) [record] ≠ [] ∨
    ∃ year, SectorYear.add (.ofOffset now offset) year record ≠ year

section

variable {now : Instant} {d : Date} {offset : Nat}

/-- The second that a leap second moves a window by. Only the first window begins before the reference
time, and on the way back a leap second gives way to the second after it. -/
def delay (now : Instant) (offset : Nat) : Int := if now.isLeap = true ∧ offset = 0 then 1 else 0

/-- The second in which a window begins. -/
def firstSecond (now : Instant) (offset : Nat) : Int :=
  now.seconds + (365 * (offset : Int) - 185) * Instant.day + delay now offset

@[simp] theorem delay_succ (now : Instant) (offset : Nat) : delay now (offset + 1) = 0 :=
  if_neg fun h => Nat.succ_ne_zero offset h.2

theorem delay_cases (now : Instant) (offset : Nat) :
    delay now offset = 0 ∨ delay now offset = 1 ∧ now.isLeap = true ∧ offset = 0 := by
  unfold delay
  split
  · next h => exact .inr ⟨rfl, h⟩
  · exact .inl rfl

theorem firstSecond_mono (now : Instant) : Monotone (firstSecond now) := by
  refine monotone_nat_of_le_succ fun n => ?_
  have hdelay := delay_cases now n
  unfold firstSecond Instant.day
  rw [delay_succ]
  omega

theorem start_ofOffset (hclock : now.IsOnClock) (offset : Nat) :
    (Window.ofOffset now offset).start = ⟨firstSecond now offset, now.nanos % Instant.second⟩ := by
  have hdays : 180 + 365 * ((offset : Int) - 1) = 365 * (offset : Int) - 185 := by ring
  have hne : (365 * (offset : Int) - 185 != 0) = true := bne_iff_ne.2 (by omega)
  unfold Window.ofOffset firstSecond delay Instant.addDays
  dsimp only
  rw [hdays, hne, Bool.and_true]
  unfold Instant.IsOnClock at hclock
  by_cases hleap : now.isLeap = true
  · have hnanos : Instant.second ≤ now.nanos := of_decide_eq_true hleap
    have hfraction : now.nanos % Instant.second = now.nanos - Instant.second := by
      rw [Nat.mod_eq_sub_mod hnanos, Nat.mod_eq_of_lt (by omega)]
    rw [if_pos hleap, hfraction]
    by_cases hfirst : offset = 0
    · rw [if_neg (by omega), if_pos ⟨hleap, hfirst⟩]
    · rw [if_pos (by omega), if_neg (by tauto), add_zero]
  · have hnanos : now.nanos < Instant.second := by
      simpa [Instant.isLeap] using hleap
    rw [if_neg hleap, if_neg (by tauto), Nat.mod_eq_of_lt hnanos, add_zero]

theorem finish_ofOffset (hclock : now.IsOnClock) (offset : Nat) :
    (Window.ofOffset now offset).finish =
      ⟨firstSecond now offset + 365 * Instant.day, now.nanos % Instant.second⟩ := by
  have hfinish : (Window.ofOffset now offset).finish = (Window.ofOffset now offset).start.addDays 365 :=
    rfl
  have hnanos : now.nanos % Instant.second < Instant.second := Nat.mod_lt _ (by decide)
  rw [hfinish, start_ofOffset hclock, Instant.addDays_of_not_isLeap]
  simpa [Instant.isLeap] using hnanos

theorem before_ofDate_iff {seconds : Int} {nanos : Nat} :
    Instant.before ⟨seconds, nanos⟩ (.ofDate d) = true ↔ seconds < (Instant.ofDate d).seconds := by
  have hnanos : (Instant.ofDate d).nanos = 0 := rfl
  simp only [Instant.before, hnanos, Bool.or_eq_true, Bool.and_eq_true, decide_eq_true_eq,
    Nat.not_lt_zero, and_false, or_false]

theorem ofDate_before_iff {seconds : Int} {nanos : Nat} :
    (Instant.ofDate d).before ⟨seconds, nanos⟩ = true ↔ (Instant.ofDate d).seconds < seconds ∨
      (Instant.ofDate d).seconds = seconds ∧ 0 < nanos := by
  have hnanos : (Instant.ofDate d).nanos = 0 := rfl
  simp only [Instant.before, hnanos, Bool.or_eq_true, Bool.and_eq_true, decide_eq_true_eq, beq_iff_eq]

theorem inWindow_iff (hclock : now.IsOnClock) :
    InWindow now offset d ↔ firstSecond now offset < (Instant.ofDate d).seconds ∧
      ((Instant.ofDate d).seconds < firstSecond now offset + 365 * Instant.day ∨
        (Instant.ofDate d).seconds = firstSecond now offset + 365 * Instant.day ∧
          0 < now.nanos % Instant.second) := by
  unfold InWindow Window.contains
  rw [start_ofOffset hclock, finish_ofOffset hclock, Bool.and_eq_true, before_ofDate_iff,
    ofDate_before_iff]

theorem isBoundary_iff (hclock : now.IsOnClock) :
    IsBoundary now d ↔ now.nanos % Instant.second = 0 ∧ ∃ offset < 3,
      ((Instant.ofDate d).seconds = firstSecond now offset + 365 * Instant.day ∨
        (Instant.ofDate d).seconds = firstSecond now (offset + 1)) := by
  have hat (seconds : Int) (nanos : Nat) : (⟨seconds, nanos⟩ : Instant) = .ofDate d ↔
      nanos = 0 ∧ (Instant.ofDate d).seconds = seconds := by
    rw [Instant.ofDate, Instant.mk.injEq]
    exact ⟨fun ⟨hs, hn⟩ => ⟨hn, hs.symm⟩, fun ⟨hn, hs⟩ => ⟨hs.symm, hn⟩⟩
  unfold IsBoundary
  simp only [start_ofOffset hclock, finish_ofOffset hclock, hat, ← and_or_left]
  constructor
  · rintro ⟨offset, hoffset, hnanos, hseconds⟩
    exact ⟨hnanos, offset, hoffset, hseconds⟩
  · rintro ⟨hnanos, offset, hoffset, hseconds⟩
    exact ⟨offset, hoffset, hnanos, hseconds⟩

theorem mem_offsets : offset ∈ offsets ↔ offset < 4 := by
  unfold offsets
  simp only [List.mem_cons, List.not_mem_nil, or_false]
  omega

theorem day_dvd_ofDate (d : Date) : Instant.day ∣ (Instant.ofDate d).seconds := dvd_mul_left _ _

/-- Two windows have a date only where the first one ends a second after the second one begins. -/
theorem eq_of_inWindow (hclock : now.IsOnClock) (hstraddled : ¬ Straddled now d) {o o' : Nat}
    (ho : InWindow now o d) (ho' : InWindow now o' d) : o = o' := by
  wlog hlt : o < o' generalizing o o'
  · rcases Nat.lt_or_ge o' o with hgt | hle
    · exact (this ho' ho hgt).symm
    · omega
  have hend := ((inWindow_iff hclock).1 ho).2
  have hbegin := ((inWindow_iff hclock).1 ho').1
  obtain ⟨o', rfl⟩ : ∃ n, o' = n + 1 := ⟨o' - 1, by omega⟩
  unfold firstSecond at hend hbegin
  rw [delay_succ] at hbegin
  unfold Straddled at hstraddled
  unfold Instant.day at *
  rcases delay_cases now o with hdelay | ⟨hdelay, hleap, rfl⟩
  · omega
  · exact absurd ⟨hleap, by omega⟩ hstraddled

/-- What lies between the windows' ends lies in a window, or else where one of them ends. -/
theorem exists_inWindow (hclock : now.IsOnClock)
    (hstart : firstSecond now 0 < (Instant.ofDate d).seconds) (n : Nat)
    (hfinish : (Instant.ofDate d).seconds < firstSecond now n + 365 * Instant.day ∨
      (Instant.ofDate d).seconds = firstSecond now n + 365 * Instant.day ∧
        0 < now.nanos % Instant.second) :
    (∃ o ≤ n, InWindow now o d) ∨ now.nanos % Instant.second = 0 ∧
      ∃ o < n, (Instant.ofDate d).seconds = firstSecond now o + 365 * Instant.day := by
  induction n with
  | zero => exact .inl ⟨0, le_rfl, (inWindow_iff hclock).2 ⟨hstart, hfinish⟩⟩
  | succ n ih =>
    by_cases hbegin : firstSecond now (n + 1) < (Instant.ofDate d).seconds
    · exact .inl ⟨n + 1, le_rfl, (inWindow_iff hclock).2 ⟨hbegin, hfinish⟩⟩
    · have hle : (Instant.ofDate d).seconds ≤ firstSecond now n + 365 * Instant.day := by
        have hdelay := delay_cases now n
        unfold firstSecond at hbegin ⊢
        rw [delay_succ] at hbegin
        unfold Instant.day at *
        omega
      by_cases hmeet : (Instant.ofDate d).seconds = firstSecond now n + 365 * Instant.day ∧
          now.nanos % Instant.second = 0
      · exact .inr ⟨hmeet.2, n, Nat.lt_succ_self n, hmeet.1⟩
      · rcases ih (by omega) with ⟨o, ho, hd⟩ | ⟨hnanos, o, ho, hd⟩
        · exact .inl ⟨o, Nat.le_succ_of_le ho, hd⟩
        · exact .inr ⟨hnanos, o, Nat.lt_succ_of_lt ho, hd⟩

/-- Seen from a leap second, windows begin and end in the last second of a minute. -/
theorem midnight_of_isBoundary (hclock : now.IsOnClock) (hstraddled : ¬ Straddled now d)
    (h : IsBoundary now d) : now.isLeap = false ∧ now.seconds % Instant.day = 0 ∧ now.nanos = 0 := by
  obtain ⟨hnanos, o, -, hd⟩ := (isBoundary_iff hclock).1 h
  have hdate := day_dvd_ofDate d
  unfold firstSecond at hd
  rw [delay_succ] at hd
  unfold Straddled at hstraddled
  unfold Instant.IsOnClock at hclock
  unfold Instant.day at *
  have hleap : now.isLeap = false := by
    by_contra hleap
    rw [Bool.not_eq_false] at hleap
    have hlate : Instant.second ≤ now.nanos := of_decide_eq_true hleap
    have hbegin : ¬ (Instant.ofDate d).seconds = now.seconds + 1 + 180 * 86400 :=
      fun hbegin => hstraddled ⟨hleap, hbegin⟩
    have hdelay := delay_cases now o
    omega
  have hearly : now.nanos < Instant.second := by simpa [Instant.isLeap] using hleap
  have hdelay : delay now o = 0 := if_neg (by simp [hleap])
  rw [Nat.mod_eq_of_lt hearly] at hnanos
  exact ⟨hleap, by omega, hnanos⟩

/-- Where two windows meet, neither of them has the date. -/
theorem not_inWindow_of_isBoundary (hclock : now.IsOnClock) (hleap : now.isLeap = false)
    (h : IsBoundary now d) (o : Nat) : ¬ InWindow now o d := by
  obtain ⟨hnanos, o', -, hd⟩ := (isBoundary_iff hclock).1 h
  have hdelay (o : Nat) : delay now o = 0 := if_neg (by simp [hleap])
  rw [inWindow_iff hclock, hnanos]
  simp only [firstSecond, hdelay] at hd ⊢
  unfold Instant.day at *
  omega

theorem tiled_of_not_straddled (hclock : now.IsOnClock) (hstraddled : ¬ Straddled now d) :
    Tiled now d := by
  have hunique (o o' : Nat) (ho : InWindow now o d) (ho' : InWindow now o' d) : o = o' :=
    eq_of_inWindow hclock hstraddled ho ho'
  refine ⟨fun o _ o' _ => hunique o o', ?_, fun h => (midnight_of_isBoundary hclock hstraddled h).2⟩
  rw [start_ofOffset hclock, finish_ofOffset hclock, before_ofDate_iff, ofDate_before_iff]
  constructor
  · rintro ⟨o, ⟨ho, hd⟩, -⟩
    obtain ⟨hbegin, hend⟩ := (inWindow_iff hclock).1 hd
    have hfirst := firstSecond_mono now (Nat.zero_le o)
    have hlast := firstSecond_mono now (Nat.le_of_lt_succ (mem_offsets.1 ho))
    refine ⟨by omega, by omega, fun h => ?_⟩
    have hleap := (midnight_of_isBoundary hclock hstraddled h).1
    exact not_inWindow_of_isBoundary hclock hleap h o hd
  · rintro ⟨hstart, hfinish, hmissed⟩
    rcases exists_inWindow hclock hstart 3 hfinish with ⟨o, ho, hd⟩ | ⟨hnanos, o, ho, hd⟩
    · exact ⟨o, ⟨mem_offsets.2 (by omega), hd⟩, fun o' ho' => hunique o' o ho'.2 hd⟩
    · exact absurd ((isBoundary_iff hclock).2 ⟨hnanos, o, ho, .inl hd⟩) hmissed

theorem not_tiled_of_straddled (hclock : now.IsOnClock) (h : Straddled now d) : ¬ Tiled now d := by
  obtain ⟨hleap, hd⟩ := h
  intro htiled
  have hdelay : delay now 0 = 1 := if_pos ⟨hleap, rfl⟩
  have hfinish : (Instant.ofDate d).seconds = firstSecond now 0 + 365 * Instant.day := by
    unfold firstSecond Instant.day at *
    omega
  rcases Nat.eq_zero_or_pos (now.nanos % Instant.second) with hnanos | hnanos
  · -- the leap second has just begun: the first window ends with the day before the date
    have hboundary : IsBoundary now d :=
      (isBoundary_iff hclock).2 ⟨hnanos, 0, by omega, .inl hfinish⟩
    have hzero := (htiled.midnight hboundary).2
    have hlate : Instant.second ≤ now.nanos := of_decide_eq_true hleap
    unfold Instant.second at hlate
    omega
  · have hfirst : InWindow now 0 d := by
      rw [inWindow_iff hclock]
      unfold firstSecond Instant.day at *
      omega
    have hsecond : InWindow now 1 d := by
      rw [inWindow_iff hclock]
      unfold firstSecond Instant.day at *
      rw [delay_succ now 0]
      omega
    have heq := htiled.unique 0 (by decide) 1 (by decide) hfirst hsecond
    omega

theorem endsIn_of_contributes {record : Node} (h : Contributes now offset record) :
    endsIn (.ofOffset now offset) record = true := by
  by_contra hend
  rcases h with ⟨year, hyear⟩ | hcountries | ⟨year, hyear⟩
  · exact hyear (by simp [YearBudget.add, hend])
  · exact hcountries (by simp [countryBudgetsIn, hend])
  · exact hyear (by simp [SectorYear.add, hend])

theorem endsIn_iff {record : Node} :
    endsIn (.ofOffset now offset) record = true ↔
      ∃ text d, endDate? record = some text ∧ Date.read? text = some d ∧ InWindow now offset d := by
  unfold endsIn
  rw [Option.any_eq_true]
  refine exists_congr fun text => ?_
  unfold Window.containsDate InWindow
  cases Date.read? text with
  | none => simp
  | some d => simp

end

/-- Seen from any instant that a clock shows, the windows tile the years for every date but the one that
begins right after the overlap a leap second makes, and for that one they do not. A record
contributes to two offsets only if that is its date. -/
theorem tiled_iff_not_straddled {now : Instant} (hclock : now.IsOnClock) :
    (∀ d, Tiled now d ↔ ¬ Straddled now d) ∧
    ∀ record, ∀ o ∈ offsets, ∀ o' ∈ offsets, Contributes now o record → Contributes now o' record →
      o = o' ∨ ∃ text d, endDate? record = some text ∧ Date.read? text = some d ∧ Straddled now d := by
  refine ⟨fun d => ⟨fun htiled h => not_tiled_of_straddled hclock h htiled,
    tiled_of_not_straddled hclock⟩, ?_⟩
  intro record o _ o' _ ho ho'
  obtain ⟨text, d, htext, hread, hd⟩ := endsIn_iff.1 (endsIn_of_contributes ho)
  obtain ⟨text', d', htext', hread', hd'⟩ := endsIn_iff.1 (endsIn_of_contributes ho')
  obtain rfl := Option.some.inj (htext.symm.trans htext')
  obtain rfl := Option.some.inj (hread.symm.trans hread')
  by_cases hstraddled : Straddled now d
  · exact .inr ⟨text, d, htext, hread, hstraddled⟩
  · exact .inl (eq_of_inWindow hclock hstraddled hd hd')

/-- Seen from the leap second at the end of 2016, only the last of June 2017 is out of place. -/
theorem tiled_iff_not_straddled_leap_second :
    Instant.IsOnClock ⟨1483228799, 1500000000⟩ ∧
      Tiled ⟨1483228799, 1500000000⟩ ⟨2017, 6, 29⟩ ∧ Tiled ⟨1483228799, 1500000000⟩ ⟨2017, 7, 1⟩ ∧
      ¬ Tiled ⟨1483228799, 1500000000⟩ ⟨2017, 6, 30⟩ := by
  have hclock : Instant.IsOnClock ⟨1483228799, 1500000000⟩ := by decide
  obtain ⟨htiled, -⟩ := tiled_iff_not_straddled hclock
  refine ⟨hclock, (htiled _).2 ?_, (htiled _).2 ?_, fun h => (htiled _).1 h ?_⟩
  all_goals
    unfold Straddled
    decide

/-- Two windows have a date, seen from the leap second at the end of 2016. -/
theorem not_tiled_leap_second :
    Instant.read? "2016-12-31T23:59:60.5Z" = some ⟨1483228799, 1500000000⟩ ∧
      Date.read? "2017-06-30" = some ⟨2017, 6, 30⟩ ∧
      InWindow ⟨1483228799, 1500000000⟩ 0 ⟨2017, 6, 30⟩ ∧
      InWindow ⟨1483228799, 1500000000⟩ 1 ⟨2017, 6, 30⟩ ∧
      ¬ Tiled ⟨1483228799, 1500000000⟩ ⟨2017, 6, 30⟩ := by
  have hfirst : InWindow ⟨1483228799, 1500000000⟩ 0 ⟨2017, 6, 30⟩ := by decide
  have hsecond : InWindow ⟨1483228799, 1500000000⟩ 1 ⟨2017, 6, 30⟩ := by decide
  refine ⟨by decide +kernel, by decide +kernel, hfirst, hsecond, fun h => ?_⟩
  have heq := h.unique 0 (by decide) 1 (by decide) hfirst hsecond
  omega

end Metric

end DataQuality
