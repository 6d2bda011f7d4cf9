import Mathlib.Control.Monad.Basic
import Mathlib.Tactic.ByContra
import Phrasebook.Formatting.Formatter

/-!
How writing days and times fails. Finding the zone, finding the conventions and writing fail with a
text to be shown instead. Moving a value to the zone does not: a moment may leave the calendar on
the way, and a day, or a time that belongs to a zone already, cannot be moved at all. These failures
get out as they are, and they are all that do.
-/
namespace Phrasebook

namespace Moment

def InCalendar (microseconds : Int) : Prop := 0 ≤ microseconds ∧ microseconds < calendarEnd

/-- There is no such moment in the zone. A clock on the wall may have no offset there. A moment
that has an offset and is not at home in the zone has to be in the calendar by universal time and
by the clock of the zone. -/
def Leaves (m : Moment) (zone : Zone) : Prop :=
  match m.offset with
  | none => zone.offsetAtWall m.wall m.later = .error ⟨⟩
  | some offset =>
    m.home ≠ some zone.name ∧ ∀ instant : Nat, m.wall - offset = instant →
      InCalendar instant → ¬ InCalendar (instant + zone.offsetAt instant)

section Zones

variable {m : Moment} {zone : Zone} {offset : Int}

theorem inRange_of_not {n : Int} (h : ¬ InCalendar n) : inRange n = .error ⟨⟩ := if_neg h

theorem inRange_natCast {n : Nat} (h : InCalendar n) : inRange n = .ok n := by
  have hcalendar : inRange n = .ok (n : Int).toNat := if_pos h
  rw [hcalendar, Int.toNat_natCast]

theorem exists_natCast {n : Int} (h : InCalendar n) : ∃ k : Nat, n = k :=
  Int.eq_ofNat_of_zero_le h.1

theorem inZone_none (hoffset : m.offset = none) :
    m.inZone zone = (zone.offsetAtWall m.wall m.later).map fun offset =>
      { m with offset := some offset, home := some zone.name } := by
  rw [inZone, hoffset]
  cases zone.offsetAtWall m.wall m.later <;> rfl

theorem inZone_some (hoffset : m.offset = some offset) (haway : m.home ≠ some zone.name) :
    m.inZone zone = inRange (m.wall - offset) >>= fun instant =>
      (inRange (instant + zone.offsetAt instant)).map fun wall =>
        ofWall wall (zone.offsetAt instant) zone.name := by
  rw [inZone, hoffset]
  dsimp only
  rw [if_neg haway]
  rfl

theorem inZone_of_leaves (h : m.Leaves zone) : m.inZone zone = .error ⟨⟩ := by
  unfold Leaves at h
  split at h
  · next hoffset => rw [inZone_none hoffset, h]; rfl
  · next offset hoffset =>
    obtain ⟨haway, hout⟩ := h
    rw [inZone_some hoffset haway]
    -- universal time is gone through first, and may be outside on its own
    by_cases hin : InCalendar (m.wall - offset)
    · obtain ⟨instant, hinstant⟩ := exists_natCast hin
      have hthere := hout instant hinstant (hinstant ▸ hin)
      rw [hinstant, inRange_natCast (hinstant ▸ hin)]
      dsimp only [bind, Except.bind]
      rw [inRange_of_not hthere]
      rfl
    · rw [inRange_of_not hin]
      rfl

theorem exists_inZone (h : ¬ m.Leaves zone) : ∃ there, m.inZone zone = .ok there := by
  unfold Leaves at h
  split at h
  · next hoffset =>
    rw [inZone_none hoffset]
    cases hwall : zone.offsetAtWall m.wall m.later with
    | error e => exact absurd hwall h
    | ok offset => exact ⟨_, rfl⟩
  · next offset hoffset =>
    by_cases hhome : m.home = some zone.name
    · rw [inZone, hoffset]
      exact ⟨m, if_pos hhome⟩
    have hin : ∃ instant : Nat, m.wall - offset = instant ∧ InCalendar instant ∧
        InCalendar (instant + zone.offsetAt instant) := by
      by_contra hnone
      exact h ⟨hhome, fun instant heq hcalendar hthere =>
        hnone ⟨instant, heq, hcalendar, hthere⟩⟩
    obtain ⟨instant, heq, hcalendar, hthere⟩ := hin
    obtain ⟨wall, hwall⟩ := exists_natCast hthere
    rw [hwall] at hthere
    rw [inZone_some hoffset hhome, heq, inRange_natCast hcalendar]
    dsimp only [bind, Except.bind]
    rw [hwall, inRange_natCast hthere]
    exact ⟨_, rfl⟩

/-- Two days from the ends of the calendar no offsets of less than a day lead out of it. -/
theorem not_leaves_of_between (hearly : 2 * Day.length ≤ m.wall)
    (hlate : m.wall + 2 * Day.length ≤ calendarEnd)
    (hoffset : ∀ offset, m.offset = some offset → offset.natAbs < Day.length)
    (hzone : ∀ instant, (zone.offsetAt instant).natAbs < Day.length)
    (hwall : ∃ offset, zone.offsetAtWall m.wall m.later = .ok offset) : ¬ m.Leaves zone := by
  intro h
  unfold Leaves at h
  split at h
  · obtain ⟨offset, heq⟩ := hwall
    rw [h] at heq
    cases heq
  · next offset hsome =>
    obtain ⟨-, hout⟩ := h
    have hown := hoffset offset hsome
    obtain ⟨instant, hinstant⟩ : ∃ instant : Nat, m.wall - offset = instant :=
      Int.eq_ofNat_of_zero_le (by omega)
    have hthere := hzone instant
    exact hout instant hinstant ⟨by omega, by omega⟩ ⟨by omega, by omega⟩

end Zones

end Moment

/-- No rule at hand is as much as a day ahead of or behind universal time. -/
theorem Zone.natAbs_minutes_lt {n : Int} (hearly : -300 ≤ n) (hlate : n ≤ 600) :
    (Zone.minutes n).natAbs < Day.length := by
  have hday : Day.length = 86400000000 := rfl
  unfold Zone.minutes
  omega

theorem Zone.natAbs_offsetAt_lt {zone : Zone} (h : zone ∈ Zone.all) (instant : Nat) :
    (zone.offsetAt instant).natAbs < Day.length := by
  obtain ⟨⟨name, rule⟩, hmem, rfl⟩ := List.mem_map.1 h
  have hrules : ∀ entry ∈ rules, -300 ≤ entry.2.standard ∧ entry.2.standard ≤ 540 := by decide
  have hstandard : -300 ≤ rule.standard ∧ rule.standard ≤ 540 := hrules _ hmem
  have hminutes : ∀ second, -300 ≤ rule.minutesAt second ∧ rule.minutesAt second ≤ 600 := by
    intro second
    unfold Rule.minutesAt
    dsimp only
    split
    · omega
    · split <;> omega
  obtain ⟨hearly, hlate⟩ := hminutes (instant / 1000000)
  exact natAbs_minutes_lt hearly hlate

theorem Zone.exists_offsetAtWall {zone : Zone} (h : zone ∈ Zone.all) (wall : Nat) (later : Bool) :
    ∃ offset, zone.offsetAtWall wall later = .ok offset := by
  obtain ⟨⟨name, rule⟩, -, rfl⟩ := List.mem_map.1 h
  exact ⟨_, rfl⟩

/-- A computation that fails does so with a fault that carries a text to be shown instead. -/
def Covered {α : Type} (outcome : Except FormatError α) : Prop :=
  (∃ a, outcome = .ok a) ∨
    ∃ account fallback, outcome = .error (.fault (.formatting account fallback))

namespace Covered

variable {α β : Type}

theorem ok (a : α) : Covered (.ok a : Except FormatError α) := Or.inl ⟨a, rfl⟩

theorem failed (kind value fallback reason : Text) :
    Covered (.error (Locale.failed kind value fallback reason) : Except FormatError α) :=
  Or.inr ⟨_, _, rfl⟩

theorem bind {x : Except FormatError α} {f : α → Except FormatError β} (hx : Covered x)
    (hf : ∀ a, x = .ok a → Covered (f a)) : Covered (x >>= f) := by
  obtain ⟨a, rfl⟩ | ⟨account, fallback, rfl⟩ := hx
  · exact hf a rfl
  · exact Or.inr ⟨account, fallback, rfl⟩

end Covered

/-- Writing fails in no ways but those that can be reckoned with. -/
def Almanac.Orderly (almanac : Almanac) : Prop :=
  ∀ aspect c value kind message, almanac.write aspect c value ≠ .error (.other kind message)

theorem Almanac.orderly_ofToday (today : Day) : (Almanac.ofToday today).Orderly := by
  intro aspect c value kind message
  change c.write today aspect value ≠ _
  unfold Conventions.write
  split <;> exact nofun

def Temporal.escape : Temporal → FormatError
  | day _ => .lacks Day.timeless
  | time _ => .lacks ClockTime.unmovable
  | moment _ => .outOfRange

theorem not_covered_escape {α : Type} (value : Temporal) :
    ¬ Covered (.error value.escape : Except FormatError α) := by
  rintro (⟨a, h⟩ | ⟨account, fallback, h⟩)
  · cases h
  · cases value <;> cases h

def Temporal.Stays (aspect : Aspect) (zone : Zone) : Temporal → Prop
  | day _ => aspect = .both
  | time t => aspect = .both ∧ t.zoned
  | moment m => m.Leaves zone

namespace Locale

section Stages

variable (locale : Locale) (almanac : Almanac) (aspect : Aspect) (value : Temporal)
  (name : Option Text)

/-- The zone is known, and the value cannot be moved there. -/
def Escapes : Prop :=
  ∃ zone, locale.zoneFor almanac name = .ok zone ∧ value.Stays aspect zone

theorem covered_zoneFor : Covered (locale.zoneFor almanac name) := by
  unfold zoneFor
  split
  · exact .ok _
  · split
    · exact .ok _
    · exact .failed ..

theorem covered_conventionsFor (kind shown fallback : Text) :
    Covered (locale.conventionsFor almanac kind shown fallback) := by
  unfold conventionsFor
  cases locale.conventions almanac with
  | ok c => exact .ok c
  | error fault => exact .failed ..

variable {locale almanac aspect value name}

theorem localized_of_escapes (h : locale.Escapes almanac aspect value name) :
    locale.localized almanac aspect value name = .error value.escape := by
  obtain ⟨zone, hzone, hstays⟩ := h
  cases value with
  | day d =>
    obtain rfl : aspect = .both := hstays
    rw [localized, hzone]
    rfl
  | time t =>
    obtain ⟨rfl, hzoned⟩ : aspect = .both ∧ t.zoned := hstays
    rw [localized, hzone]
    exact if_pos hzoned
  | moment m =>
    have hthere : m.inZone zone = .error ⟨⟩ := Moment.inZone_of_leaves hstays
    rw [localized, hzone]
    dsimp only [bind, Except.bind]
    rw [hthere]
    rfl

theorem covered_localized (h : ¬ locale.Escapes almanac aspect value name) :
    Covered (locale.localized almanac aspect value name) := by
  have hmoves : ∀ zone, locale.zoneFor almanac name = .ok zone → ¬ value.Stays aspect zone :=
    fun zone hzone hstays => h ⟨zone, hzone, hstays⟩
  have hzone := locale.covered_zoneFor almanac name
  -- a day or a time is moved only where both are to be written
  cases value with
  | day d =>
    cases aspect with
    | both => exact hzone.bind fun zone hzone => absurd rfl (hmoves zone hzone)
    | day => exact .ok _
    | time => exact .ok _
  | time t =>
    cases aspect with
    | both =>
      refine hzone.bind fun zone hzone => ?_
      have hfree : ¬ t.zoned := fun hzoned => hmoves zone hzone ⟨rfl, hzoned⟩
      rw [if_neg hfree]
      exact .ok _
    | day => exact .ok _
    | time => exact .ok _
  | moment m =>
    refine hzone.bind fun zone hzone => ?_
    obtain ⟨there, hthere⟩ := Moment.exists_inZone (hmoves zone hzone)
    rw [hthere]
    exact .ok _

theorem covered_write (horderly : almanac.Orderly) (c : Conventions) (shown fallback : Text) :
    Covered ((almanac.write aspect c value).mapError
      (mishapError aspect.name shown fallback)) := by
  cases houtcome : almanac.write aspect c value with
  | ok text => exact .ok text
  | error mishap =>
    cases mishap with
    | other kind message => exact (horderly _ _ _ _ _ houtcome).elim
    | _ => exact .failed ..

theorem formatTemporal_of_escapes (h : locale.Escapes almanac aspect value name) :
    locale.formatTemporal almanac aspect value name = .error value.escape := by
  rw [formatTemporal, localized_of_escapes h]
  rfl

theorem covered_formatTemporal (horderly : almanac.Orderly)
    (h : ¬ locale.Escapes almanac aspect value name) :
    Covered (locale.formatTemporal almanac aspect value name) := by
  refine (covered_localized h).bind fun there _ => ?_
  exact (locale.covered_conventionsFor ..).bind fun c _ => covered_write horderly ..

/-- Two days from the ends of the calendar every moment is written, or a fault carries a text to be
shown instead. -/
theorem covered_formatTemporal_of_between {m : Moment} (horderly : almanac.Orderly)
    (hearly : 2 * Day.length ≤ m.wall) (hlate : m.wall + 2 * Day.length ≤ Moment.calendarEnd)
    (hoffset : ∀ offset, m.offset = some offset → offset.natAbs < Day.length)
    (hzone : ∀ zone, locale.zoneFor almanac name = .ok zone →
      (∀ instant, (zone.offsetAt instant).natAbs < Day.length) ∧
        ∃ offset, zone.offsetAtWall m.wall m.later = .ok offset) :
    Covered (locale.formatTemporal almanac aspect (.moment m) name) := by
  refine covered_formatTemporal horderly ?_
  rintro ⟨zone, hfound, hleaves⟩
  obtain ⟨hoffsets, hwall⟩ := hzone zone hfound
  exact Moment.not_leaves_of_between hearly hlate hoffset hoffsets hwall hleaves

end Stages

theorem mem_all_of_zoneFor {today : Day} {locale : Locale} (h : locale.zone ∈ Zone.all)
    {name : Option Text} {zone : Zone}
    (hzone : locale.zoneFor (.ofToday today) name = .ok zone) : zone ∈ Zone.all := by
  cases name with
  | none =>
    obtain rfl : locale.zone = zone := Except.ok.inj hzone
    exact h
  | some name =>
    unfold zoneFor at hzone
    dsimp only at hzone
    split at hzone
    · next found hfound =>
      obtain rfl : found = zone := Except.ok.inj hzone
      have hfind : Zone.find? name = some found := hfound
      exact List.mem_of_find?_eq_some hfind
    · cases hzone

/-- By the almanac at hand what is two days from the ends of the calendar is covered. -/
theorem covered_formatTemporal_ofToday (today : Day) {locale : Locale}
    (hlocale : locale.zone ∈ Zone.all) (aspect : Aspect) {m : Moment}
    (hearly : 2 * Day.length ≤ m.wall) (hlate : m.wall + 2 * Day.length ≤ Moment.calendarEnd)
    (hoffset : ∀ offset, m.offset = some offset → offset.natAbs < Day.length)
    (name : Option Text) :
    Covered (locale.formatTemporal (.ofToday today) aspect (.moment m) name) := by
  refine covered_formatTemporal_of_between (Almanac.orderly_ofToday today) hearly hlate hoffset ?_
  intro zone hzone
  have hmem := mem_all_of_zoneFor hlocale hzone
  exact ⟨Zone.natAbs_offsetAt_lt hmem, Zone.exists_offsetAtWall hmem _ _⟩

def firstMidnight : Temporal :=
  .moment { day := ⟨1, 1, 1⟩, time := .midnight, offset := some 18000000000 }

def winterNoon : Temporal :=
  .moment { day := ⟨2025, 1, 15⟩, time := ⟨12, 0, 0, 0⟩, offset := some 0 }

def germany : Locale where
  code := "de_DE"
  zone := Zone.ofRule "Europe/Berlin"
    { standard := 60, summer := some ⟨⟨3, 25, 3600⟩, ⟨10, 25, 3600⟩⟩ }
  subUnit := 100
  currency := some "EUR"

/-- If writing fails in no ways but those to be reckoned with, a value is written, or a fault
carries a text to be shown instead, unless it cannot be moved to the zone. In that case, and in no
other, what gets out is that it was not moved. -/
theorem covered_formatTemporal_iff {almanac : Almanac} (horderly : almanac.Orderly)
    (locale : Locale) (aspect : Aspect) (value : Temporal) (name : Option Text) :
    (Covered (locale.formatTemporal almanac aspect value name) ↔
        ¬ locale.Escapes almanac aspect value name) ∧
      (locale.Escapes almanac aspect value name →
        locale.formatTemporal almanac aspect value name = .error value.escape) := by
  refine ⟨⟨?_, covered_formatTemporal horderly⟩, formatTemporal_of_escapes⟩
  intro hcovered h
  rw [formatTemporal_of_escapes h] at hcovered
  exact not_covered_escape value hcovered

/-- In winter clocks in Germany are an hour ahead of universal time. -/
theorem covered_formatTemporal_iff_winterNoon :
    (Almanac.ofToday ⟨2025, 1, 1⟩).Orderly ∧
      germany.formatTemporal (.ofToday ⟨2025, 1, 1⟩) .both winterNoon none =
        .ok "15.01.25, 13:00" ∧
      ¬ germany.Escapes (.ofToday ⟨2025, 1, 1⟩) .both winterNoon none := by
  have horderly := Almanac.orderly_ofToday ⟨2025, 1, 1⟩
  have houtcome : germany.formatTemporal (.ofToday ⟨2025, 1, 1⟩) .both winterNoon none =
      .ok "15.01.25, 13:00" := by
    decide +kernel
  obtain ⟨hcovered, -⟩ := covered_formatTemporal_iff horderly germany .both winterNoon none
  exact ⟨horderly, houtcome, hcovered.1 (Or.inl ⟨_, houtcome⟩)⟩

/-- By universal time that is before the calendar begins. -/
theorem firstMidnight_gets_out :
    germany.formatTemporal (.ofToday ⟨2025, 1, 1⟩) .both firstMidnight none = .error .outOfRange ∧
      ¬ Covered (germany.formatTemporal (.ofToday ⟨2025, 1, 1⟩) .both firstMidnight none) := by
  have houtcome : germany.formatTemporal (.ofToday ⟨2025, 1, 1⟩) .both firstMidnight none =
      .error .outOfRange := by
    decide +kernel
  refine ⟨houtcome, ?_⟩
  rw [houtcome]
  exact not_covered_escape firstMidnight

end Locale
end Phrasebook
