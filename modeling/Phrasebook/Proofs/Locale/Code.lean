import Phrasebook.Locale.Basic
import Phrasebook.Proofs.Text.Spacing

/-!
The codes of locales. A code is two or three small letters, a separator and two capital letters.
Locales are made from codes and from nothing else, but for one thing: a line may end behind the
code, and its end then stays with the territory. The code of a locale is in the usual form, which
is a code again.
-/
namespace Phrasebook

open Text

namespace Tag

def IsSeparator (c : Char) : Prop := c = '-' ∨ c = '_'

def IsPart (text : Text) : Prop := '-' ∉ text ∧ '_' ∉ text

instance : DecidablePred IsPart := fun text =>
  inferInstanceAs (Decidable ('-' ∉ text ∧ '_' ∉ text))

/-- What has characters of one kind only is a part if the separators are not of that kind. -/
theorem isPart_of_kind {p : Char → Bool} {text : Text} (h : ∀ c ∈ text, p c)
    (hhyphen : p '-' = false) (hlow : p '_' = false) : IsPart text :=
  ⟨fun hmem => ne_of_kind (h _ hmem) hhyphen rfl, fun hmem => ne_of_kind (h _ hmem) hlow rfl⟩

theorem IsPart.append {first last : Text} (hfirst : IsPart first) (hlast : IsPart last) :
    IsPart (first ++ last) :=
  ⟨List.not_mem_append hfirst.1 hlast.1, List.not_mem_append hfirst.2 hlast.2⟩

/-- In the usual form a low line stands between two parts, whatever stood there before. -/
theorem replace_parts {first last : Text} {separator : Char} (hfirst : IsPart first)
    (hseparator : IsSeparator separator) (hlast : IsPart last) :
    replace '-' '_' (first ++ separator :: last) = first ++ '_' :: last := by
  have htail : replace '-' '_' (separator :: last) = '_' :: replace '-' '_' last := by
    rcases hseparator with rfl | rfl <;> rfl
  rw [replace_append, htail, replace_eq_self hfirst.1, replace_eq_self hlast.1]

end Tag

namespace Locale

/-- A code as it is documented. -/
structure Code where
  language : Text
  language_length : language.length = 2 ∨ language.length = 3
  isLower : ∀ c ∈ language, c.isLower
  separator : Char
  isSeparator : Tag.IsSeparator separator
  territory : Text
  territory_length : territory.length = 2
  isUpper : ∀ c ∈ territory, c.isUpper

def IsEnding (ending : Text) : Prop := ending = [] ∨ ending = ['\n']

namespace Code

def text (code : Code) : Text := code.language ++ code.separator :: code.territory

/-- A text is the code with an ending behind it. -/
def Spells (code : Code) (ending written : Text) : Prop :=
  IsEnding ending ∧ written = code.text ++ ending

def usual (code : Code) : Code := { code with separator := '_', isSeparator := Or.inr rfl }

variable (code : Code)

theorem isPart_language : Tag.IsPart code.language :=
  Tag.isPart_of_kind code.isLower (by decide) (by decide)

theorem isPart_territory : Tag.IsPart code.territory :=
  Tag.isPart_of_kind code.isUpper (by decide) (by decide)

theorem exists_language : ∃ c rest, code.language = c :: rest ∧ c.isAlpha := by
  have hne : code.language ≠ [] := by
    intro h
    simpa [h] using code.language_length
  obtain ⟨c, rest, hlanguage⟩ := List.exists_cons_of_ne_nil hne
  have hlower : c.isLower := code.isLower c (by simp [hlanguage])
  exact ⟨c, rest, hlanguage, Bool.or_eq_true_iff.2 (Or.inr hlower)⟩

theorem exists_territory : ∃ a b, code.territory = [a, b] ∧ b.isAlpha := by
  obtain ⟨a, b, hterritory⟩ := List.length_eq_two.1 code.territory_length
  have hupper : b.isUpper := code.isUpper b (by simp [hterritory])
  exact ⟨a, b, hterritory, Bool.or_eq_true_iff.2 (Or.inl hupper)⟩

theorem trim_text : trim code.text = code.text := by
  obtain ⟨c, rest, hlanguage, hfirst⟩ := code.exists_language
  obtain ⟨a, b, hterritory, hlast⟩ := code.exists_territory
  rw [trim_eq_self_iff]
  constructor
  · rw [text, hlanguage, List.cons_append, startsWithout_cons]
    exact isBlank_of_isAlpha hfirst
  · have hconcat : code.text = (code.language ++ [code.separator, a]) ++ [b] := by
      simp [text, hterritory]
    rw [hconcat]
    exact trimRight_concat _ (isBlank_of_isAlpha hlast)

theorem newline_not_mem : '\n' ∉ code.text := by
  have hseparator : '\n' ≠ code.separator := by
    rcases code.isSeparator with h | h <;> rw [h] <;> decide
  rw [text, List.mem_append, List.mem_cons, not_or, not_or]
  exact ⟨fun h => ne_of_kind (code.isLower _ h) (by decide) rfl, hseparator,
    fun h => ne_of_kind (code.isUpper _ h) (by decide) rfl⟩

end Code

section Endings

variable {ending : Text}

theorem IsEnding.blank (h : IsEnding ending) : ∀ c ∈ ending, isBlank c := by
  rcases h with rfl | rfl <;> exact List.all_eq_true.1 rfl

theorem IsEnding.isPart (h : IsEnding ending) : Tag.IsPart ending :=
  Tag.isPart_of_kind h.blank (by decide) (by decide)

theorem Code.isPart_suffix (code : Code) (h : IsEnding ending) :
    Tag.IsPart (code.territory ++ ending) :=
  code.isPart_territory.append h.isPart

theorem Code.replace_spelled (code : Code) (h : IsEnding ending) :
    replace '-' '_' (code.text ++ ending) = code.usual.text ++ ending := by
  simpa [text, usual] using
    Tag.replace_parts code.isPart_language code.isSeparator (code.isPart_suffix h)

/-- The part of a locale before the low line is the language; the ending is not seen. -/
theorem Code.languageAndTerritory_spelled (code : Code) (h : IsEnding ending) :
    Tag.languageAndTerritory (code.usual.text ++ ending) =
      (code.language, some code.territory) := by
  have htrim : trim (code.usual.text ++ ending) = code.usual.text := by
    have hspaced := trim_spaced .empty code.usual.text ⟨ending, h.blank⟩
    rwa [code.usual.trim_text] at hspaced
  have hnormalize : Tag.normalize (code.usual.text ++ ending) =
      code.language ++ '_' :: code.territory := by
    rw [Tag.normalize, htrim]
    exact Tag.replace_parts code.isPart_language (Or.inr rfl) code.isPart_territory
  obtain ⟨a, b, hterritory, -⟩ := code.exists_territory
  rw [Tag.languageAndTerritory, hnormalize, partition_append code.isPart_language.2]
  simp [hterritory]

theorem Code.territoryOf_spelled (code : Code) :
    territoryOf (code.usual.text ++ ending) = code.territory ++ ending := by
  have hassoc : code.usual.text ++ ending = code.language ++ '_' :: (code.territory ++ ending) := by
    simp [text, usual]
  rw [territoryOf, hassoc, partition_append code.isPart_language.2]

end Endings

theorem isCode_spelled (code : Code) {ending : Text} (h : IsEnding ending) :
    isCode (code.text ++ ending) := by
  obtain ⟨a, b, hterritory⟩ := List.length_eq_two.1 code.territory_length
  have ha : a.isUpper := code.isUpper a (by simp [hterritory])
  have hb : b.isUpper := code.isUpper b (by simp [hterritory])
  have hrest : StartsWithout Char.isLower (code.separator :: a :: b :: ending) := by
    rw [startsWithout_cons]
    rcases code.isSeparator with h | h <;> rw [h] <;> decide
  have htext : code.text ++ ending = code.language ++ code.separator :: a :: b :: ending := by
    simp [Code.text, hterritory]
  rw [isCode, htext, takeWhile_run code.isLower hrest, dropWhile_run code.isLower hrest]
  simp only [Bool.and_eq_true, Bool.or_eq_true, beq_iff_eq]
  exact ⟨code.language_length, ⟨⟨code.isSeparator, ha⟩, hb⟩, h⟩

theorem exists_code_of_isCode {written : Text} (h : isCode written) :
    ∃ code : Code, ∃ ending, code.Spells ending written := by
  rw [isCode] at h
  split at h
  · next separator a b ending hrest =>
    simp only [Bool.and_eq_true, Bool.or_eq_true, beq_iff_eq] at h
    obtain ⟨hlength, ⟨⟨hseparator, ha⟩, hb⟩, hending⟩ := h
    have hlower : ∀ c ∈ written.takeWhile Char.isLower, c.isLower :=
      fun c hc => List.mem_takeWhile_imp hc
    refine ⟨⟨_, hlength, hlower, separator, hseparator, [a, b], rfl, by simp [ha, hb]⟩, ending,
      hending, ?_⟩
    have hcut := List.takeWhile_append_dropWhile (p := Char.isLower) (l := written)
    rw [hrest] at hcut
    simpa [Code.text] using hcut.symm
  · simp at h

theorem isCode_iff (written : Text) :
    isCode written ↔ ∃ code : Code, ∃ ending, code.Spells ending written := by
  constructor
  · exact exists_code_of_isCode
  · rintro ⟨code, ending, hending, rfl⟩
    exact isCode_spelled code hending

theorem refuse_ne_ok (fault : Except TooManyDigits Fault) (locale : Locale) :
    refuse fault ≠ .ok locale := by
  rcases fault with - | fault <;> exact nofun

/-- A locale is made of a good code, sub-unit and zone. Its code keeps the ending, and so does the
territory whose currency it has. -/
theorem make_eq_ok_iff {almanac : Almanac} {code : Value} {zone : Text} {subUnit : Value}
    {currency : Option Text} {locale : Locale} :
    make almanac code zone subUnit currency = .ok locale ↔
      ∃ (spelled : Code) (ending : Text) (units : Nat) (place : Zone),
        code = .text (spelled.text ++ ending) ∧ IsEnding ending ∧
        subUnit? subUnit = some units ∧ almanac.zone? zone = some place ∧
        locale = ⟨spelled.usual.text ++ ending, place, units,
          currency <|> almanac.currency? (spelled.territory ++ ending)⟩ := by
  constructor
  · intro h
    unfold make at h
    split at h
    · next written =>
      split at h
      · next hcode =>
        obtain ⟨spelled, ending, hending, rfl⟩ := exists_code_of_isCode hcode
        rw [spelled.replace_spelled hending] at h
        split at h
        · exact absurd h (refuse_ne_ok _ _)
        · exact absurd h (refuse_ne_ok _ _)
        · next units place hunits hplace =>
          refine ⟨spelled, ending, units, place, rfl, hending, hunits, hplace, ?_⟩
          rw [← Except.ok.inj h, spelled.territoryOf_spelled]
      · exact absurd h (refuse_ne_ok _ _)
    · exact absurd h (refuse_ne_ok _ _)
  · rintro ⟨spelled, ending, units, place, rfl, hending, hunits, hplace, rfl⟩
    simp only [make, isCode_spelled spelled hending, if_true, spelled.replace_spelled hending,
      hunits, hplace, spelled.territoryOf_spelled]

/-- What a locale made from a code with an ending tells. -/
theorem parts_of_code {locale : Locale} {spelled : Code} {ending : Text} (h : IsEnding ending)
    (hcode : locale.code = spelled.usual.text ++ ending) :
    locale.code = spelled.language ++ '_' :: (spelled.territory ++ ending) ∧
      locale.text = locale.code ∧ locale.language = spelled.language ∧
      locale.territory = spelled.territory ++ ending := by
  refine ⟨?_, rfl, ?_, ?_⟩
  · rw [hcode]
    simp [Code.text, Code.usual]
  · rw [language, hcode, spelled.languageAndTerritory_spelled h]
  · rw [territory, hcode, spelled.territoryOf_spelled]

/-- A text that spells no code is returned with the failure. -/
theorem make_of_not_spelled {written : Text}
    (h : ¬ ∃ code : Code, ∃ ending, code.Spells ending written) (almanac : Almanac) (zone : Text)
    (subUnit : Value) (currency : Option Text) :
    make almanac (.text written) zone subUnit currency =
      .error (.fault (.locale (.diagnostic (.invalidLocale written)) written)) := by
  rw [← isCode_iff] at h
  rw [make, if_neg h]
  rfl

section Making

variable {almanac : Almanac} {zone : Text} {units : Int}

/-- Any good settings make a locale from a code with an ending. -/
theorem exists_make (hzone : (almanac.zone? zone).isSome) (hunits : 0 < units)
    (currency : Option Text) (spelled : Code) {ending : Text} (h : IsEnding ending) :
    ∃ locale, make almanac (.text (spelled.text ++ ending)) zone (.number (.integer units))
        currency = .ok locale ∧ locale.code = spelled.usual.text ++ ending := by
  obtain ⟨place, hplace⟩ := Option.isSome_iff_exists.1 hzone
  exact ⟨_, make_eq_ok_iff.2 ⟨spelled, ending, units.toNat, place, rfl, h, if_pos hunits, hplace,
    rfl⟩, rfl⟩

/-- With a known zone and a positive sub-unit a locale is made from the codes, with or without the
end of a line behind them, and from nothing else: another text is returned with the failure. The
locale has the two parts of the code in the usual form, the ending with the territory, and its own
code makes a locale with that code again. -/
theorem make_takes_codes (hzone : (almanac.zone? zone).isSome) (hunits : 0 < units)
    (currency : Option Text) (written : Text) :
    ((∃ locale, make almanac (.text written) zone (.number (.integer units)) currency =
        .ok locale) ↔
      ∃ code : Code, ∃ ending, code.Spells ending written) ∧
    ((¬ ∃ code : Code, ∃ ending, code.Spells ending written) →
      make almanac (.text written) zone (.number (.integer units)) currency =
        .error (.fault (.locale (.diagnostic (.invalidLocale written)) written))) ∧
    ∀ locale, make almanac (.text written) zone (.number (.integer units)) currency =
        .ok locale →
      (∃ code : Code, ∃ ending, code.Spells ending written ∧
        locale.code = code.language ++ '_' :: (code.territory ++ ending) ∧
        locale.text = locale.code ∧ locale.language = code.language ∧
        locale.territory = code.territory ++ ending) ∧
      ∀ zone' (units' : Int) currency', (almanac.zone? zone').isSome → 0 < units' →
        ∃ again, make almanac (.text locale.code) zone' (.number (.integer units')) currency' =
          .ok again ∧ again.code = locale.code := by
  have hspelled : ∀ locale,
      make almanac (.text written) zone (.number (.integer units)) currency = .ok locale →
        ∃ code : Code, ∃ ending, code.Spells ending written ∧
          locale.code = code.usual.text ++ ending := by
    intro locale h
    obtain ⟨code, ending, _, _, hcode, hending, -, -, rfl⟩ := make_eq_ok_iff.1 h
    exact ⟨code, ending, ⟨hending, Value.text.inj hcode⟩, rfl⟩
  refine ⟨⟨?_, ?_⟩, fun h => make_of_not_spelled h .., fun locale h => ?_⟩
  · rintro ⟨locale, h⟩
    obtain ⟨code, ending, hspells, -⟩ := hspelled locale h
    exact ⟨code, ending, hspells⟩
  · rintro ⟨code, ending, hending, rfl⟩
    obtain ⟨locale, h, -⟩ := exists_make hzone hunits currency code hending
    exact ⟨locale, h⟩
  · obtain ⟨code, ending, hspells, hcode⟩ := hspelled locale h
    refine ⟨⟨code, ending, hspells, parts_of_code hspells.1 hcode⟩, ?_⟩
    intro zone' units' currency' hzone' hunits'
    rw [hcode]
    exact exists_make hzone' hunits' currency' code.usual hspells.1

end Making

/-- A code with a hyphen, the code that is made of it, and a text with the letters in the wrong
case. -/
theorem make_takes_codes_polish :
    let almanac := Almanac.ofToday ⟨2025, 1, 1⟩
    (almanac.zone? "Europe/Berlin").isSome ∧ (0 : Int) < 100 ∧
      (∃ locale, make almanac (.text "pl-PL") "Europe/Berlin" (.number (.integer 100)) none =
          .ok locale ∧
        locale.code = "pl_PL") ∧
      (almanac.zone? "UTC").isSome ∧ (0 : Int) < 1 ∧
      (∃ again, make almanac (.text "pl_PL") "UTC" (.number (.integer 1)) none = .ok again ∧
        again.code = "pl_PL") ∧
      make almanac (.text "PL-pl") "Europe/Berlin" (.number (.integer 100)) none =
        .error (.fault (.locale (.diagnostic (.invalidLocale "PL-pl")) "PL-pl")) := by
  intro almanac
  have hberlin : (almanac.zone? "Europe/Berlin").isSome := by decide
  have hzone : (almanac.zone? "UTC").isSome := by decide
  obtain ⟨hmade, -, hagain⟩ := make_takes_codes hberlin (by decide : (0 : Int) < 100) none "pl-PL"
  obtain ⟨-, hrefused, -⟩ := make_takes_codes hberlin (by decide : (0 : Int) < 100) none "PL-pl"
  obtain ⟨locale, hlocale⟩ := hmade.2
    ⟨⟨"pl", Or.inl rfl, List.all_eq_true.1 rfl, '-', Or.inl rfl, "PL", rfl, List.all_eq_true.1 rfl⟩,
      [], Or.inl rfl, rfl⟩
  have hcode : locale.code = "pl_PL" := by
    have hsame :
        make almanac (.text "pl-PL") "Europe/Berlin" (.number (.integer 100)) none = .ok _ := rfl
    rw [← Except.ok.inj (hsame.symm.trans hlocale)]
    rfl
  have hstored := (hagain locale hlocale).2 "UTC" 1 none hzone (by decide)
  rw [hcode] at hstored
  refine ⟨hberlin, by decide, ⟨locale, hlocale, hcode⟩, hzone, by decide, hstored, hrefused ?_⟩
  rw [← isCode_iff]
  decide

/-- A line may end behind the code, and the end of the line is then in the territory too. -/
theorem line_end_is_taken :
    (∃ locale, make (.ofToday ⟨2025, 1, 1⟩) (.text "en_US\n") "UTC" (.number (.integer 100)) none =
        .ok locale ∧
      locale.code = "en_US\n" ∧ locale.territory = "US\n" ∧ locale.currency = none) ∧
    ∀ code : Code, ("en_US\n" : Text) ≠ code.text := by
  refine ⟨⟨_, rfl, by decide, by decide, by decide⟩, ?_⟩
  intro code h
  refine code.newline_not_mem ?_
  rw [← h]
  decide

end Locale
end Phrasebook
