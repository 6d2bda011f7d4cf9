import Phrasebook.Locale.Tag
import Phrasebook.Proofs.Text.Spacing

/-!
The usual form of a tag, and the locale that is detected from the settings of the system. What is
detected is always in the usual form. Stand-ins for no locale are passed over before white space is
taken off, so one with white space around it is not recognized. The locale detected is the one that
the first setting with a locale names, and is no stand-in, if and only if every such disguised
stand-in comes behind a setting that names a locale.
-/
namespace Phrasebook.Tag

open Text

theorem normalize_normalize (tag : Text) : normalize (normalize tag) = normalize tag := by
  have hhyphen : '-' ∉ normalize tag := not_mem_replace (by decide) (trim tag)
  have htrim : trim (normalize tag) = normalize tag := by
    rw [normalize, trim_replace (by decide) (by decide), trim_trim]
  rw [normalize, htrim, replace_eq_self hhyphen]

theorem mem_of_mem_normalize {c : Char} {tag : Text} (h : c ∈ normalize tag) :
    c ∈ tag ∨ c = '_' := by
  obtain ⟨d, hd, hc⟩ := List.mem_map.1 h
  split at hc
  · exact Or.inr hc.symm
  · exact Or.inl (hc ▸ mem_of_mem_trim hd)

/-- No stand-in holds a hyphen or a low line, so only white space can hide one. -/
theorem normalize_mem_pseudo_iff (tag : Text) : normalize tag ∈ pseudo ↔ trim tag ∈ pseudo := by
  have hplain : ∀ target ∈ pseudo, '-' ∉ target ∧ '_' ∉ target := by decide
  constructor
  · intro h
    obtain ⟨hhyphen, hlow⟩ := hplain _ h
    have htrim : trim tag = normalize tag := (replace_eq_iff hhyphen hlow).1 rfl
    rwa [htrim]
  · intro h
    obtain ⟨hhyphen, -⟩ := hplain _ h
    rwa [normalize, replace_eq_self hhyphen]

def named (setting : Text) : Text := normalize (withoutEncoding setting)

def NamesLocale (setting : Text) : Prop := named setting ∉ pseudo

instance : DecidablePred NamesLocale := fun setting =>
  inferInstanceAs (Decidable (named setting ∉ pseudo))

/-- A stand-in for no locale that is not recognized because of the white space around it. -/
def Disguised (setting : Text) : Prop :=
  withoutEncoding setting ∉ pseudo ∧ trim (withoutEncoding setting) ∈ pseudo

/-- The tag of the first setting that names a locale. -/
def FirstNamed (settings : Settings) (tag : Text) : Prop :=
  ∃ before setting after, settings.candidates = before ++ setting :: after ∧
    (∀ other ∈ before, ¬ NamesLocale other) ∧ NamesLocale setting ∧ tag = named setting

/-- No disguised setting comes first: each has one that names a locale in front of it. -/
def Undisguised (settings : Settings) : Prop :=
  ∀ before setting after, settings.candidates = before ++ setting :: after → Disguised setting →
    ∃ other ∈ before, NamesLocale other

/-- What a setting names has no encoding, modifier or hyphen, and is in the usual form already. -/
theorem named_usual (setting : Text) :
    '.' ∉ named setting ∧ '@' ∉ named setting ∧ '-' ∉ named setting ∧
      normalize (named setting) = named setting := by
  have hmem : ∀ c, c ≠ '_' → c ∉ withoutEncoding setting → c ∉ named setting := by
    intro c hc hnot h
    rcases mem_of_mem_normalize h with hmem | heq
    · exact hnot hmem
    · exact hc heq
  have hmodifier : '@' ∉ withoutEncoding setting := by
    intro h
    simpa using List.mem_takeWhile_imp h
  have hencoding : '.' ∉ withoutEncoding setting := by
    intro h
    simpa using List.mem_takeWhile_imp ((List.takeWhile_sublist _).mem h)
  exact ⟨hmem _ (by decide) hencoding, hmem _ (by decide) hmodifier,
    not_mem_replace (by decide) _, normalize_normalize _⟩

theorem not_namesLocale_of_mem {setting : Text} (h : withoutEncoding setting ∈ pseudo) :
    ¬ NamesLocale setting := by
  have htrimmed : ∀ target ∈ pseudo, trim target = target := by decide
  rw [NamesLocale, not_not, named, normalize_mem_pseudo_iff, htrimmed _ h]
  exact h

theorem namesLocale_iff_not_disguised {setting : Text} (h : withoutEncoding setting ∉ pseudo) :
    NamesLocale setting ↔ ¬ Disguised setting := by
  rw [NamesLocale, named, normalize_mem_pseudo_iff, Disguised, not_and]
  exact ⟨fun hreal _ => hreal, fun hreal => hreal h⟩

/-- Either all settings stand for no locale as they are, or the first that does not is taken at its
word. -/
theorem system_cases (settings : Settings) :
    (system settings = .error ⟨⟩ ∧ systemOrFallback settings = fallback ∧
      ∀ setting ∈ settings.candidates, withoutEncoding setting ∈ pseudo) ∨
    ∃ before setting after, settings.candidates = before ++ setting :: after ∧
      (∀ other ∈ before, withoutEncoding other ∈ pseudo) ∧ withoutEncoding setting ∉ pseudo ∧
      system settings = .ok (named setting) ∧ systemOrFallback settings = named setting := by
  cases hfind : settings.candidates.find? fun s => !pseudo.contains (withoutEncoding s) with
  | none =>
    have hsystem : system? settings = none := by rw [system?, hfind]; rfl
    refine Or.inl ⟨by rw [system, hsystem], by rw [systemOrFallback, hsystem]; rfl, ?_⟩
    simpa using hfind
  | some setting =>
    have hsystem : system? settings = some (named setting) := by rw [system?, hfind]; rfl
    obtain ⟨hsetting, before, after, hcandidates, hbefore⟩ := List.find?_eq_some_iff_append.1 hfind
    refine Or.inr ⟨before, setting, after, hcandidates, by simpa using hbefore,
      by simpa using hsetting, by rw [system, hsystem], by rw [systemOrFallback, hsystem]; rfl⟩

section Detected

variable {settings : Settings} {before after : List Text} {setting : Text}

/-- The setting that is taken at its word decides whether any stand-in gets through. -/
theorem undisguised_iff (hcandidates : settings.candidates = before ++ setting :: after)
    (hbefore : ∀ other ∈ before, withoutEncoding other ∈ pseudo)
    (hsetting : withoutEncoding setting ∉ pseudo) :
    Undisguised settings ↔ NamesLocale setting := by
  constructor
  · intro h
    rw [namesLocale_iff_not_disguised hsetting]
    intro hdisguised
    obtain ⟨other, hother, hnames⟩ := h before setting after hcandidates hdisguised
    exact not_namesLocale_of_mem (hbefore other hother) hnames
  · intro hnames first hidden last heq hdisguised
    have hne : hidden ≠ setting := by
      rintro rfl
      exact (namesLocale_iff_not_disguised hsetting).1 hnames hdisguised
    refine ⟨setting, ?_, hnames⟩
    rcases List.append_eq_append_iff.1 (hcandidates.symm.trans heq) with
      ⟨between, hfirst, hrest⟩ | ⟨between, hfirst, hrest⟩
    · cases between with
      | nil => exact absurd (List.cons.inj hrest).1.symm hne
      | cons next between =>
        rw [hfirst, (List.cons.inj hrest).1]
        simp
    · cases between with
      | nil => exact absurd (List.cons.inj hrest).1 hne
      | cons next between =>
        have hhidden : hidden ∈ before := by
          rw [hfirst, (List.cons.inj hrest).1]
          simp
        exact absurd (hbefore hidden hhidden) hdisguised.1

/-- The setting that is taken at its word is the first one with a locale, if it names one. -/
theorem firstNamed_iff (hcandidates : settings.candidates = before ++ setting :: after)
    (hbefore : ∀ other ∈ before, ¬ NamesLocale other) (hsetting : NamesLocale setting)
    (tag : Text) : FirstNamed settings tag ↔ tag = named setting := by
  have hfind : ∀ {first chosen last}, settings.candidates = first ++ chosen :: last →
      (∀ other ∈ first, ¬ NamesLocale other) → NamesLocale chosen →
      (settings.candidates.find? fun s => decide (NamesLocale s)) = some chosen := by
    intro first chosen last heq hfirst hchosen
    exact List.find?_eq_some_iff_append.2
      ⟨decide_eq_true hchosen, first, last, heq, by simpa using hfirst⟩
  constructor
  · rintro ⟨first, chosen, last, heq, hfirst, hchosen, rfl⟩
    have hsame := (hfind heq hfirst hchosen).symm.trans (hfind hcandidates hbefore hsetting)
    rw [Option.some.inj hsame]
  · rintro rfl
    exact ⟨before, setting, after, hcandidates, hbefore, hsetting, rfl⟩

end Detected

/-- Either a tag is detected, or none is and one is assumed. It is in the usual form in both cases.
It is no stand-in, and the first setting that names a locale decides, if and only if no disguised
stand-in comes before all the settings that name one. -/
theorem system_names_first_iff (settings : Settings) :
    (system settings = .ok (systemOrFallback settings) ∨
      system settings = .error ⟨⟩ ∧ systemOrFallback settings = fallback) ∧
    ('.' ∉ systemOrFallback settings ∧ '@' ∉ systemOrFallback settings ∧
      '-' ∉ systemOrFallback settings ∧
      normalize (systemOrFallback settings) = systemOrFallback settings) ∧
    (systemOrFallback settings ∉ pseudo ↔ Undisguised settings) ∧
    ((∀ tag, system settings = .ok tag ↔ FirstNamed settings tag) ∧
        (system settings = .error ⟨⟩ ↔ ∀ setting ∈ settings.candidates, ¬ NamesLocale setting) ↔
      Undisguised settings) := by
  rcases system_cases settings with
    ⟨hsystem, htag, hall⟩ | ⟨before, setting, after, hcandidates, hbefore, hsetting, hsystem, htag⟩
  · have hnone : ∀ setting ∈ settings.candidates, ¬ NamesLocale setting :=
      fun setting hmem => not_namesLocale_of_mem (hall setting hmem)
    have hundisguised : Undisguised settings := by
      intro before setting after heq hdisguised
      exact absurd (hall setting (by simp [heq])) hdisguised.1
    have hfirst : ∀ tag, ¬ FirstNamed settings tag := by
      rintro tag ⟨before, setting, after, heq, -, hnames, -⟩
      exact hnone setting (by simp [heq]) hnames
    rw [hsystem, htag]
    refine ⟨Or.inr ⟨rfl, rfl⟩, by decide, iff_of_true (by decide) hundisguised,
      iff_of_true ⟨fun tag => ?_, iff_of_true rfl hnone⟩ hundisguised⟩
    exact iff_of_false (by simp) (hfirst tag)
  · have hundisguised := undisguised_iff hcandidates hbefore hsetting
    rw [hsystem, htag, hundisguised]
    refine ⟨Or.inl rfl, named_usual setting, Iff.rfl, ?_, fun hnames => ⟨fun tag => ?_, ?_⟩⟩
    · rintro ⟨hok, -⟩
      obtain ⟨first, chosen, last, -, -, hchosen, heq⟩ := (hok (named setting)).1 rfl
      rwa [NamesLocale, heq]
    · have hbefore' : ∀ other ∈ before, ¬ NamesLocale other :=
        fun other hother => not_namesLocale_of_mem (hbefore other hother)
      rw [firstNamed_iff hcandidates hbefore' hnames, Except.ok.injEq, eq_comm]
    · refine iff_of_false (by simp) fun hnone => ?_
      exact hnone setting (by simp [hcandidates]) hnames

/-- A space in front of a stand-in is enough for it to be taken for a locale, although a later
setting names one. -/
theorem disguised_is_detected :
    system ⟨none, some " C", none, some "de_DE.UTF-8"⟩ = .ok "C" ∧
      FirstNamed ⟨none, some " C", none, some "de_DE.UTF-8"⟩ "de_DE" := by
  have hdisguised : ¬ NamesLocale " C" := by decide
  exact ⟨by decide, [" C"], "de_DE.UTF-8", [], rfl, by simpa using hdisguised, by decide, by decide⟩

end Phrasebook.Tag
