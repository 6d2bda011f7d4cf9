import Mathlib.Data.List.Basic
import Phrasebook.PluralRule
import Phrasebook.Proofs.Locale.Code

/-!
Language tags with a territory. The key of a tag is what stands before its last separator, so a
territory does not change the plural rule of a language. Brazilian Portuguese alone has a rule of
its own.
-/
namespace Phrasebook

open Text

namespace PluralFamily

open Tag

/-- The language whose rule a tag with one suffix follows. -/
def ruleLanguage (language suffix : Text) : Text :=
  if language = "pt" ∧ suffix = "BR" then ("xbr" : String) else language

section Parts

variable {language suffix : Text}

theorem key_of_isPart (h : IsPart language) : key language = language := by
  have hbrazil : language ≠ "pt_BR" := by
    rintro rfl
    exact h.2 (by decide)
  rw [key, replace_eq_self h.1, if_neg hbrazil, if_neg fun hlow => h.2 hlow.2]

/-- What comes before the last separator. -/
theorem reverse_drop_dropWhile_reverse (h : IsPart suffix) (first : Text) :
    (((first ++ '_' :: suffix).reverse.dropWhile (· != '_')).drop 1).reverse = first := by
  have hlast : ∀ c ∈ suffix.reverse, (c != '_') = true := by
    intro c hc
    rw [bne_iff_ne]
    rintro rfl
    exact h.2 (List.mem_reverse.1 hc)
  have hreverse : (first ++ '_' :: suffix).reverse = suffix.reverse ++ '_' :: first.reverse := by
    simp
  rw [hreverse, dropWhile_run hlast (by simp)]
  simp

/-- The one tag with a key of its own has these two parts and no others. -/
theorem eq_brazilian_iff (hlanguage : IsPart language) (hsuffix : IsPart suffix) :
    language ++ '_' :: suffix = "pt_BR" ↔ language = "pt" ∧ suffix = "BR" := by
  have hcut : language ++ '_' :: suffix = ['p', 't'] ++ '_' :: ['B', 'R'] ↔
      language = ['p', 't'] ∧ '_' = '_' ∧ suffix = ['B', 'R'] :=
    List.append_cons_inj_of_notMem hlanguage.2 hsuffix.2
  simpa using hcut

variable {separator : Char}

theorem key_of_parts (hlanguage : IsPart language) (hlength : 2 ≤ language.length)
    (hseparator : IsSeparator separator) (hsuffix : IsPart suffix) (hne : suffix ≠ []) :
    key (language ++ separator :: suffix) = ruleLanguage language suffix := by
  have hlong : 3 < (language ++ '_' :: suffix).length ∧ '_' ∈ language ++ '_' :: suffix := by
    have hpos := List.length_pos_of_ne_nil hne
    rw [List.length_append, List.length_cons]
    exact ⟨by omega, by simp⟩
  simp only [key, replace_parts hlanguage hseparator hsuffix, eq_brazilian_iff hlanguage hsuffix,
    if_pos hlong, reverse_drop_dropWhile_reverse hsuffix, ruleLanguage]

theorem ofLanguage_congr {other : Text} (h : key language = key other) :
    ofLanguage language = ofLanguage other := by
  rw [ofLanguage, ofLanguage, h]

/-- A tag with one suffix has the rule of its language, but for the one with a rule of its own. -/
theorem ofLanguage_of_parts (hlanguage : IsPart language) (hlength : 2 ≤ language.length)
    (hseparator : IsSeparator separator) (hsuffix : IsPart suffix) (hne : suffix ≠ []) :
    ofLanguage (language ++ separator :: suffix) = ofLanguage (ruleLanguage language suffix) := by
  have hrule : IsPart (ruleLanguage language suffix) := by
    unfold ruleLanguage
    split
    · decide
    · exact hlanguage
  refine ofLanguage_congr ?_
  rw [key_of_parts hlanguage hlength hseparator hsuffix hne, key_of_isPart hrule]

end Parts

/-- The keys of the table are languages without a territory. -/
theorem isPart_of_mem_languages {family : PluralFamily} {language : Text}
    (h : language ∈ family.languages) : IsPart language ∧ 2 ≤ language.length := by
  have hall : ∀ family ∈ all, ∀ language ∈ family.languages,
      IsPart language ∧ 2 ≤ language.length := by
    decide +kernel
  exact hall family (mem_all family) language h

theorem ofLanguage_portuguese : ofLanguage "pt" = oneOther := by decide +kernel

theorem ofLanguage_brazilian : ofLanguage "xbr" = zeroOneOther := by decide +kernel

/-- Brazilian Portuguese is the one locale whose rule is not that of its language. -/
theorem ofLanguage_code_iff {almanac : Almanac} {code : Value} {zone : Text} {subUnit : Value}
    {currency : Option Text} {locale : Locale}
    (h : Locale.make almanac code zone subUnit currency = .ok locale) :
    ofLanguage locale.code = ofLanguage locale.language ↔ locale.code ≠ "pt_BR" := by
  obtain ⟨spelled, ending, _, _, -, hending, -, -, hlocale⟩ := Locale.make_eq_ok_iff.1 h
  have hstored : locale.code = spelled.usual.text ++ ending := by rw [hlocale]
  obtain ⟨hcode, -, hlanguage, -⟩ := Locale.parts_of_code hending hstored
  have hsuffix := spelled.isPart_suffix hending
  have hlength : 2 ≤ spelled.language.length := by
    have := spelled.language_length
    omega
  have hne : spelled.territory ++ ending ≠ [] := by
    obtain ⟨a, b, hterritory, -⟩ := spelled.exists_territory
    simp [hterritory]
  have hrule := ofLanguage_of_parts spelled.isPart_language hlength (Or.inr rfl) hsuffix hne
  rw [hlanguage, hcode, hrule, Ne, eq_brazilian_iff spelled.isPart_language hsuffix, ruleLanguage]
  split
  · next hbrazil =>
    rw [hbrazil.1, ofLanguage_brazilian, ofLanguage_portuguese]
    exact iff_of_false (by decide) (not_not_intro ⟨rfl, hbrazil.2⟩)
  · next hother => exact iff_of_true rfl hother

end PluralFamily

open PluralFamily

/-- A territory, or any other suffix, leaves the forms of a language as they are; only Brazilian
Portuguese has other forms than Portuguese. So a locale has the forms of its language if and only
if it is not the Brazilian one. -/
theorem territory_keeps_rule :
    (∀ (family : PluralFamily), ∀ language ∈ family.languages, ∀ (separator : Char) (suffix : Text),
      separator = '-' ∨ separator = '_' → suffix ≠ [] → '-' ∉ suffix → '_' ∉ suffix →
        pluralForms (language ++ separator :: suffix) = pluralForms (ruleLanguage language suffix) ∧
        ∀ number, pluralIndex (language ++ separator :: suffix) number =
          pluralIndex (ruleLanguage language suffix) number) ∧
    ∀ almanac code zone subUnit currency locale,
      Locale.make almanac code zone subUnit currency = .ok locale →
      (ofLanguage locale.code = ofLanguage locale.language ↔ locale.code ≠ "pt_BR") := by
  refine ⟨?_, fun _ _ _ _ _ _ h => ofLanguage_code_iff h⟩
  intro family language hlanguage separator suffix hseparator hne hhyphen hlow
  obtain ⟨hpart, hlength⟩ := isPart_of_mem_languages hlanguage
  have hfamily := ofLanguage_of_parts hpart hlength hseparator ⟨hhyphen, hlow⟩ hne
  refine ⟨by rw [pluralForms, pluralForms, hfamily], fun number => ?_⟩
  rw [pluralIndex, pluralIndex, hfamily]

/-- Nothing is a plural in Portugal and a singular in Brazil. -/
theorem territory_keeps_rule_portuguese :
    ("pt" : Text) ∈ oneOther.languages ∧
      pluralIndex "pt-BR" (.integer 0) = pluralIndex "xbr" (.integer 0) ∧
      pluralIndex "pt_PT" (.integer 0) = pluralIndex "pt" (.integer 0) ∧
      pluralForms "pt_PT" = pluralForms "pt" ∧
      pluralIndex "xbr" (.integer 0) = .ok 0 ∧ pluralIndex "pt" (.integer 0) = .ok 1 ∧
      (∃ locale, Locale.make (.ofToday ⟨2025, 1, 1⟩) (.text "pt-PT") "UTC"
          (.number (.integer 100)) none = .ok locale ∧
        ofLanguage locale.code = ofLanguage locale.language) ∧
      ∃ locale, Locale.make (.ofToday ⟨2025, 1, 1⟩) (.text "pt-BR") "UTC"
          (.number (.integer 100)) none = .ok locale ∧
        ofLanguage locale.code ≠ ofLanguage locale.language := by
  have hportuguese : ("pt" : Text) ∈ oneOther.languages := by decide +kernel
  obtain ⟨htags, hlocales⟩ := territory_keeps_rule
  have hbrazil := htags oneOther "pt" hportuguese '-' "BR" (Or.inl rfl) (by decide) (by decide)
    (by decide)
  have hportugal := htags oneOther "pt" hportuguese '_' "PT" (Or.inr rfl) (by decide) (by decide)
    (by decide)
  have hxbr : (ofLanguage "xbr").index (.ofInt 0) = 0 := by
    rw [ofLanguage_brazilian]
    decide +kernel
  have hpt : (ofLanguage "pt").index (.ofInt 0) = 1 := by
    rw [ofLanguage_portuguese]
    decide +kernel
  have hlisbon : Locale.make (.ofToday ⟨2025, 1, 1⟩) (.text "pt-PT") "UTC"
      (.number (.integer 100)) none = .ok _ := rfl
  have hrio : Locale.make (.ofToday ⟨2025, 1, 1⟩) (.text "pt-BR") "UTC"
      (.number (.integer 100)) none = .ok _ := rfl
  refine ⟨hportuguese, hbrazil.2 _, hportugal.2 _, hportugal.1, congrArg Except.ok hxbr,
    congrArg Except.ok hpt, ⟨_, hlisbon, (hlocales _ _ _ _ _ _ hlisbon).2 (by decide)⟩,
    _, hrio, ?_⟩
  rw [Ne, hlocales _ _ _ _ _ _ hrio]
  decide

end Phrasebook
